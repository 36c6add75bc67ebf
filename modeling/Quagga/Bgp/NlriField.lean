import Quagga.Bgp.Route

/-!
# What an NLRI field means

The field is a sequence of entries; `bgp_nlri_sanity_check` accepts just these. For a field
that is accepted, the calls of `bgp_nlri_parse` are compared with one call for each prefix
that is not to be ignored.
-/

namespace Quagga.Bgp

open Foundation List Prefix

variable {networks : List Prefix} {limit : Nat}

/-! ## Entries -/

def putEntry (entry : Nat × Bytes) : Bytes := UInt8.ofNat entry.1 :: entry.2

/-- A length in bits up to a limit, and the octets that it takes. -/
def IsEntry (limit : Nat) (entry : Nat × Bytes) : Prop :=
  entry.1 ≤ limit ∧ entry.2.length = psize entry.1

def IsField (limit : Nat) (octets : Bytes) : Prop :=
  ∃ entries : List (Nat × Bytes), (∀ entry ∈ entries, IsEntry limit entry) ∧
    octets = entries.flatMap putEntry

theorem maxPrefixlen_le (afi : Nat) : maxPrefixlen afi ≤ 255 := by
  unfold maxPrefixlen
  split
  · omega
  · split <;> omega

theorem readEntry_putEntry (octet : limit ≤ 255) {entry : Nat × Bytes}
    (isEntry : IsEntry limit entry) (rest : Bytes) :
    readEntry limit (putEntry entry ++ rest) = some (entry, rest) := by
  rcases entry with ⟨prefixlen, address⟩
  have bounded : prefixlen ≤ limit := isEntry.1
  have length : address.length = psize prefixlen := isEntry.2
  have kept : (UInt8.ofNat prefixlen).toNat = prefixlen := by
    exact Nat.mod_eq_of_lt (by omega)
  have fits : ¬ (limit < prefixlen ∨ (address ++ rest).length < psize prefixlen) := by
    simp only [length_append]
    omega
  simp only [putEntry, cons_append, readEntry, kept, if_neg fits]
  rw [take_left' length, drop_left' length]

theorem putEntry_of_readEntry {octets rest : Bytes} {entry : Nat × Bytes}
    (result : readEntry limit octets = some (entry, rest)) :
    putEntry entry ++ rest = octets ∧ IsEntry limit entry := by
  cases octets with
  | nil => cases result
  | cons prefixlen address =>
    simp only [readEntry] at result
    split at result
    · cases result
    · cases result
      apply And.intro
      · simp [putEntry]
      · apply And.intro
        · omega
        · show (address.take (psize prefixlen.toNat)).length = psize prefixlen.toNat
          rw [length_take]
          omega

theorem sanityCheck_iff (afi : Nat) (octets : Bytes) :
    bgpNlriSanityCheck afi octets = true ↔ IsField (maxPrefixlen afi) octets := by
  constructor
  · intro accepted
    refine ⟨((entryReader (maxPrefixlen afi)).records octets).1, ?_, ?_⟩
    · exact (entryReader (maxPrefixlen afi)).forall_records
        (fun result => (putEntry_of_readEntry result).2) octets
    · exact ((entryReader (maxPrefixlen afi)).flatMap_of_records
        (fun result => (putEntry_of_readEntry result).1) accepted).symm
  · rintro ⟨entries, areEntries, rfl⟩
    have records : (entryReader (maxPrefixlen afi)).records (entries.flatMap putEntry) =
        (entries, true) := by
      apply RecordReader.records_flatMap
      intro entry member
      exact readEntry_putEntry (maxPrefixlen_le afi) (areEntries entry member)
    rw [bgpNlriSanityCheck, records]

/-! ## Written prefixes -/

def streamPutPrefix (network : Prefix) : Bytes :=
  UInt8.ofNat network.prefixlen :: network.address.take (psize network.prefixlen)

def Prefix.IsOf (afi : Afi) (network : Prefix) : Prop :=
  network.family = afi ∧ network.address.length = afi.addressOctets ∧
    network.prefixlen ≤ 8 * afi.addressOctets

def Prefix.entry (network : Prefix) : Nat × Bytes :=
  (network.prefixlen, network.address.take (psize network.prefixlen))

variable {afi : Afi} {network : Prefix}

theorem Prefix.IsOf.isEntry (isOf : network.IsOf afi) :
    IsEntry (maxPrefixlen afi.code) network.entry := by
  rcases isOf with ⟨_, length, bounded⟩
  apply And.intro
  · cases afi <;> exact bounded
  · show (network.address.take (psize network.prefixlen)).length = psize network.prefixlen
    rw [length_take]
    unfold psize
    omega

theorem maskOctets_of_zero (octets : Bytes) :
    maskOctets 0 octets = List.replicate octets.length 0 := by
  induction octets with
  | nil => rfl
  | cons octet octets induction =>
    have bound := octet.toNat_lt
    have masked : octet.toNat / 2 ^ (8 - 0) * 2 ^ (8 - 0) = 0 := by
      rw [Nat.div_eq_of_lt (by omega), Nat.zero_mul]
    rw [maskOctets, masked, induction]
    rfl

theorem maskOctets_take (bits : Nat) (octets : Bytes) :
    maskOctets bits (octets.take (psize bits) ++
      List.replicate (octets.length - psize bits) 0) = maskOctets bits octets := by
  induction octets generalizing bits with
  | nil => simp
  | cons octet octets induction =>
    cases bits with
    | zero =>
      rw [show psize 0 = 0 from rfl, take_zero, nil_append, Nat.sub_zero,
        maskOctets_of_zero, maskOctets_of_zero, length_replicate]
    | succ bits =>
      have size : psize (bits + 1) = psize (bits + 1 - 8) + 1 := by
        unfold psize
        omega
      have left : octets.length + 1 - (psize (bits + 1 - 8) + 1) =
          octets.length - psize (bits + 1 - 8) := by
        omega
      rw [size, take_succ_cons, cons_append, maskOctets, maskOctets, length_cons, left, induction]

theorem Prefix.IsOf.node_ofEntry (isOf : network.IsOf afi) :
    (ofEntry afi network.entry).node = network.node := by
  rcases isOf with ⟨rfl, length, bounded⟩
  have size : psize network.prefixlen ≤ network.address.length := by
    unfold psize
    omega
  simp [node, ofEntry, Prefix.entry, Nat.min_eq_left size, ← length, maskOctets_take]

theorem records_putPrefixes (areOf : ∀ network ∈ networks, network.IsOf afi) :
    (entryReader (maxPrefixlen afi.code)).records (networks.flatMap streamPutPrefix) =
      (networks.map Prefix.entry, true) := by
  have written : networks.flatMap streamPutPrefix =
      (networks.map Prefix.entry).flatMap putEntry := by
    rw [flatMap_map]
    rfl
  rw [written]
  apply RecordReader.records_flatMap
  rw [forall_mem_map]
  intro network isMember
  exact readEntry_putEntry (maxPrefixlen_le _) (areOf network isMember).isEntry

theorem putPrefixes_roundtrip (areOf : ∀ network ∈ networks, network.IsOf afi) :
    bgpNlriSanityCheck afi.code (networks.flatMap streamPutPrefix) = true ∧
      (readPrefixes afi (networks.flatMap streamPutPrefix)).1.map node = networks.map node := by
  have records := records_putPrefixes areOf
  constructor
  · rw [bgpNlriSanityCheck, records]
  · simp only [readPrefixes, records, map_map]
    apply map_congr_left
    intro network member
    exact (areOf network member).node_ofEntry

/-! ## Calls -/

variable {α : Type}

inductive RouteCall (α : Type) where
  | update (afi : Afi) (safi : Safi) (network : Prefix) (attr : α)
  | withdraw (afi : Afi) (safi : Safi) (network : Prefix)
deriving Repr, DecidableEq

def RouteCall.make (attr? : Option α) (afi : Afi) (safi : Safi) (network : Prefix) : RouteCall α :=
  match attr? with
  | some attr => .update afi safi network attr
  | none => .withdraw afi safi network

/-- A routing table that notes its calls. What `bgp_update` returns can depend on all of
them. -/
def recorder (accepts : List (RouteCall α) → Prefix → Bool) :
    RouteHandler (List (RouteCall α)) α where
  update afi safi network attr calls :=
    .ok (calls ++ [.update afi safi network attr], accepts calls network)
  withdraw afi safi network calls := .ok (calls ++ [.withdraw afi safi network])

def Prefix.isClassDe (network : Prefix) : Bool := network.prefix4 &&& 0xe0000000 = 0xe0000000

def ignored (afi : Afi) (safi : Safi) (network : Prefix) : Bool :=
  afi = .ip && safi = .unicast && network.isClassDe || afi = .ip6 && network.isLinkLocal

/-- One call for each other prefix, in the order of the field. -/
def Nlri.wantedCalls (packet : Nlri) (attr? : Option α) : List (RouteCall α) :=
  ((readPrefixes packet.afi packet.nlri).1.filter
    fun network => !ignored packet.afi packet.safi network).map
      (RouteCall.make attr? packet.afi packet.safi)

def skipped (afi : Afi) (safi : Safi) (network : Prefix) : Bool :=
  afi = .ip6 && safi = .unicast && network.isLinkLocal

variable (accepts : List (RouteCall α) → Prefix → Bool)

def takesAll (attr? : Option α) (afi : Afi) (safi : Safi) :
    List (RouteCall α) → List Prefix → Bool
  | _, [] => true
  | calls, network :: networks =>
    if skipped afi safi network then takesAll attr? afi safi calls networks
    else (attr?.isNone || accepts calls network) &&
      takesAll attr? afi safi (calls ++ [RouteCall.make attr? afi safi network]) networks

theorem handlePrefixes_recorder_cons (attr? : Option α) (afi : Afi) (safi : Safi) (network : Prefix)
    (networks : List Prefix) (calls : List (RouteCall α)) :
    handlePrefixes (recorder accepts) attr? afi safi (network :: networks) calls =
      if afi = .ip ∧ safi = .unicast ∧ network.isClassD then .ok (calls, false)
      else if skipped afi safi network then
        handlePrefixes (recorder accepts) attr? afi safi networks calls
      else
        let made := calls ++ [RouteCall.make attr? afi safi network]
        if attr?.isNone || accepts calls network then
          handlePrefixes (recorder accepts) attr? afi safi networks made
        else .ok (made, false) := by
  have isSkipped : (skipped afi safi network = true) =
      (afi = .ip6 ∧ safi = .unicast ∧ network.isLinkLocal = true) := by
    simp [skipped, and_assoc]
  simp only [isSkipped]
  cases attr? with
  | none => rfl
  | some attr =>
    cases accepted : accepts calls network <;>
      simp [handlePrefixes, recorder, RouteCall.make, accepted]

theorem handlePrefixes_recorder_iff (attr? : Option α) (afi : Afi) (safi : Safi)
    (networks : List Prefix) (calls result : List (RouteCall α)) :
    handlePrefixes (recorder accepts) attr? afi safi networks calls = .ok (result, true) ↔
      (∀ network ∈ networks, ¬ (afi = .ip ∧ safi = .unicast ∧ network.isClassD = true)) ∧
      takesAll accepts attr? afi safi calls networks = true ∧
      result = calls ++ (networks.filter fun network => !skipped afi safi network).map
        (RouteCall.make attr? afi safi) := by
  induction networks generalizing calls with
  | nil =>
    rw [handlePrefixes, takesAll]
    simp only [not_mem_nil, false_implies, implies_true, true_and, filter_nil,
      map_nil, append_nil, Except.ok.injEq, Prod.mk.injEq, and_true]
    exact eq_comm
  | cons network networks induction =>
    rw [handlePrefixes_recorder_cons, forall_mem_cons, takesAll]
    by_cases classD : afi = .ip ∧ safi = .unicast ∧ network.isClassD = true
    · simp [classD]
    · cases isSkipped : skipped afi safi network with
      | true =>
        rw [if_neg classD, if_pos rfl, induction, filter_cons_of_neg (by simp [isSkipped])]
        simp [classD]
      | false =>
        rw [if_neg classD, filter_cons_of_pos (by simp [isSkipped])]
        cases accepted : attr?.isNone || accepts calls network with
        | true => simp [induction, classD]
        | false => simp

/-! ## The field -/

/-- The field is Established's, no prefix stops the parser or is taken for a route, and the
routing table takes all. -/
def Nlri.Understood (packet : Nlri) (established : Bool) (attr? : Option α) : Prop :=
  if established then
    (∀ network ∈ (readPrefixes packet.afi packet.nlri).1,
      ¬ (packet.afi = .ip ∧ packet.safi = .unicast ∧ network.isClassDe = true) ∧
        ¬ (packet.afi = .ip6 ∧ packet.safi ≠ .unicast ∧ network.isLinkLocal = true)) ∧
    takesAll accepts attr? packet.afi packet.safi [] (readPrefixes packet.afi packet.nlri).1 = true
  else packet.wantedCalls attr? = []

theorem Prefix.isClassDe_of_isClassD (classD : network.isClassD = true) :
    network.isClassDe = true := by
  simp only [isClassD, isClassDe, decide_eq_true_eq] at classD ⊢
  have fewer : (0xe0000000 : UInt32) = 0xf0000000 &&& 0xe0000000 := by decide
  rw [fewer, ← UInt32.and_assoc, classD]
  decide

theorem ignored_eq_skipped_iff (afi : Afi) (safi : Safi) (network : Prefix) :
    ignored afi safi network = skipped afi safi network ↔
      ¬ (afi = .ip ∧ safi = .unicast ∧ network.isClassDe = true) ∧
        ¬ (afi = .ip6 ∧ safi ≠ .unicast ∧ network.isLinkLocal = true) := by
  unfold ignored skipped
  cases afi <;> cases safi <;> cases network.isClassDe <;> cases network.isLinkLocal <;> decide

theorem filter_eq_filter_iff {β : Type} {test other : β → Bool} (values : List β) :
    values.filter test = values.filter other ↔ ∀ value ∈ values, test value = other value := by
  constructor
  · intro same value member
    have kept : value ∈ values.filter test ↔ value ∈ values.filter other := by rw [same]
    rw [mem_filter, mem_filter, and_congr_right_iff] at kept
    exact Bool.eq_iff_iff.mpr (kept member)
  · exact filter_congr

theorem bgpNlriParse_recorder_iff {packet : Nlri}
    (sane : bgpNlriSanityCheck packet.afi.code packet.nlri = true) (established : Bool)
    (attr? : Option α) :
    bgpNlriParse (recorder accepts) established attr? packet [] =
        .ok (packet.wantedCalls attr?, true) ↔
      packet.Understood accepts established attr? := by
  cases established with
  | false =>
    simp only [bgpNlriParse, Bool.false_eq_true, if_false, Except.ok.injEq, Prod.mk.injEq, and_true]
    exact eq_comm
  | true =>
    have complete : (readPrefixes packet.afi packet.nlri).2 = true := sane
    have parsed : bgpNlriParse (recorder accepts) true attr? packet [] =
        handlePrefixes (recorder accepts) attr? packet.afi packet.safi
          (readPrefixes packet.afi packet.nlri).1 [] := by
      simp only [bgpNlriParse, complete, Bool.and_true]
      cases handlePrefixes (recorder accepts) attr? packet.afi packet.safi
        (readPrefixes packet.afi packet.nlri).1 [] <;> rfl
    have injective : Function.Injective (RouteCall.make attr? packet.afi packet.safi) := by
      intro first second same
      cases attr? <;> cases same <;> rfl
    rw [parsed, handlePrefixes_recorder_iff, Nlri.wantedCalls, nil_append,
      map_inj_right injective, filter_eq_filter_iff]
    simp only [Bool.not_inj_iff, ignored_eq_skipped_iff]
    constructor
    · rintro ⟨_, takes, agree⟩
      exact ⟨agree, takes⟩
    · rintro ⟨agree, takes⟩
      refine ⟨?_, takes, agree⟩
      rintro network member ⟨afi, safi, classD⟩
      exact (agree network member).1 ⟨afi, safi, isClassDe_of_isClassD classD⟩

/-- The check accepts just the sequences of entries. On a field that it accepts, the parser
makes the wanted calls and succeeds exactly where the field is understood. What
`stream_put_prefix` writes is accepted and read back. -/
theorem nlri_field_iff (afi : Nat) (octets : Bytes) (packet : Nlri) (established : Bool)
    (attr? : Option α) (networks : List Prefix) :
    (bgpNlriSanityCheck afi octets = true ↔ IsField (maxPrefixlen afi) octets) ∧
    (bgpNlriSanityCheck packet.afi.code packet.nlri = true →
      (bgpNlriParse (recorder accepts) established attr? packet [] =
          .ok (packet.wantedCalls attr?, true) ↔
        packet.Understood accepts established attr?)) ∧
    ((∀ network ∈ networks, network.IsOf packet.afi) →
      bgpNlriSanityCheck packet.afi.code (networks.flatMap streamPutPrefix) = true ∧
        (readPrefixes packet.afi (networks.flatMap streamPutPrefix)).1.map Prefix.node =
          networks.map Prefix.node) :=
  ⟨sanityCheck_iff afi octets,
    fun sane => bgpNlriParse_recorder_iff accepts sane established attr?,
    fun areOf => putPrefixes_roundtrip areOf⟩

def twoNetworks : List Prefix := [⟨.ip, 8, [10, 0, 0, 0]⟩, ⟨.ip, 8, [20, 0, 0, 0]⟩]

/-- Both prefixes are withdrawn, in their order. -/
theorem twoNetworks_understood :
    bgpNlriParse (recorder fun _ _ => true) true (none : Option Unit)
        ⟨.ip, .unicast, twoNetworks.flatMap streamPutPrefix⟩ [] =
      .ok (twoNetworks.map (.withdraw .ip .unicast), true) := by
  have areOf : ∀ network ∈ twoNetworks, network.IsOf .ip := by
    simp only [Prefix.IsOf]
    decide
  have field := nlri_field_iff (fun _ _ => true) 1 []
    ⟨.ip, .unicast, twoNetworks.flatMap streamPutPrefix⟩ true (none : Option Unit) twoNetworks
  have understood : Nlri.Understood (fun _ _ => true)
      ⟨.ip, .unicast, twoNetworks.flatMap streamPutPrefix⟩ true (none : Option Unit) := by
    unfold Nlri.Understood
    decide +kernel
  exact (field.2.1 (field.2.2 areOf).1).mpr understood

def multicastBetween : Nlri := ⟨.ip, .unicast, [8, 10, 8, 224, 8, 20]⟩

/-- The prefix behind the one of class D is lost, and the parser fails. -/
theorem multicastBetween_lost :
    bgpNlriSanityCheck multicastBetween.afi.code multicastBetween.nlri = true ∧
    multicastBetween.wantedCalls (none : Option Unit) = twoNetworks.map (.withdraw .ip .unicast) ∧
    bgpNlriParse (recorder fun _ _ => true) true (none : Option Unit) multicastBetween [] =
      .ok ([.withdraw .ip .unicast ⟨.ip, 8, [10, 0, 0, 0]⟩], false) := by
  decide +kernel

end Quagga.Bgp
