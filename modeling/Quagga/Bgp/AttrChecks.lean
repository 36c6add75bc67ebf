import Quagga.Bgp.AttrParse

/-!
# The checks of single attributes

What `bgp_attr_parse` does with an attribute is decided by the attribute, by the types and
the lookup key that came before it, and by the peer. `fate` says how, in terms of what is on
the wire, and every parser of `bgp_attr.c` is shown to decide just that.
-/

namespace Quagga.Bgp

open Foundation Dbgp Execution List ParserArgs Attribute Nat

variable {received : Attribute} {before : List ParserArgs} {next : ParseState}
  {octets rest data : Bytes} {error : NotifyError} {header : Header} {length count : Nat}

/-! ## Reading attributes -/

def readAttribute (octets : Bytes) : Option (Attribute × Bytes) :=
  (readHeader octets).bind fun header => header.attribute? octets

theorem readHeader_append (found : readHeader octets = some header) (more : Bytes) :
    readHeader (octets ++ more) = some header := by
  unfold readHeader at found
  split at found
  · simp only [readHeader]
    dsimp only at found
    split at found
    · rename_i extended
      rcases Option.map_eq_some_iff.mp found with ⟨low, front, rfl⟩
      simp [extended, front]
    · rename_i short
      cases found
      simp [short]
  · cases found

theorem readAttribute_eq_some :
    readAttribute octets = some (received, rest) ↔
      ∃ header, readHeader octets = some header ∧
        header.attribute? octets = some (received, rest) := by
  exact Option.bind_eq_some_iff

theorem Header.attribute?_append (fits : header.attribute? octets = some (received, rest))
    (more : Bytes) : header.attribute? (octets ++ more) = some (received, rest ++ more) := by
  rcases Header.attribute?_eq_some.mp fits with ⟨long, rfl, rfl⟩
  rw [Header.attribute?_eq_some, take_append_of_le_length long,
    drop_append_of_le_length long, length_append]
  exact ⟨by omega, rfl, rfl⟩

def attributeReader : RecordReader UInt8 Attribute where
  read := readAttribute
  progress := by
    intro input received rest read
    rcases readAttribute_eq_some.mp read with ⟨header, found, fits⟩
    have positive := readHeader_size found
    rcases Header.attribute?_eq_some.mp fits with ⟨long, _, rfl⟩
    rw [length_drop]
    omega
  extends_input := by
    intro input received rest more read
    rcases readAttribute_eq_some.mp read with ⟨header, found, fits⟩
    exact readAttribute_eq_some.mpr
      ⟨header, readHeader_append found more, header.attribute?_append fits more⟩

/-! ## Values -/

def mpReach? (value : Bytes) : Option MpNlri :=
  let afi := readBigEndian (value.take 2)
  let safi := readBigEndian ((value.drop 2).take 1)
  let length := readBigEndian ((value.drop 3).take 1)
  let nlri := value.drop (4 + (length + 1))
  if length ∈ [4, 12, 16, 32] ∧ nlri ≠ [] ∧
      (safi = safiMplsLabeledVpn ∨ bgpNlriSanityCheck afi nlri) then some ⟨afi, safi, nlri⟩
  else none

def mpUnreach? (value : Bytes) : Option MpNlri :=
  let afi := readBigEndian (value.take 2)
  let safi := readBigEndian ((value.drop 2).take 1)
  let nlri := value.drop 3
  if 3 ≤ value.length ∧ (safi = safiMplsLabeledVpn ∨ bgpNlriSanityCheck afi nlri) then
    some ⟨afi, safi, nlri⟩
  else none

/-- Whether the value is one an attribute of the type can have. An attribute of a type that
is not known has to be optional. -/
def valueAccepted (peer : ReceivingPeer) (received : Attribute) : Bool :=
  let value := received.value
  match received.type with
  | 1 => value.length = 1 && readBigEndian value ≤ 2
  | 2 => (aspathParse value peer.as4Rcv).isSome
  | 3 => value.length = 4 && !isMartianNexthop (UInt32.ofNat (readBigEndian value))
  | 4 | 5 | 9 => value.length = 4
  | 6 => value.length = 0
  | 7 => value.length = if peer.as4Rcv then 8 else 6
  | 8 | 10 => value.length % 4 = 0
  | 14 => (mpReach? value).isSome
  | 15 => (mpUnreach? value).isSome
  | 16 => value.length % 8 = 0
  | 17 => (aspathParse value true).isSome
  | 18 => value.length = 8
  | 22 => value.length = 4
  | _ => hasFlag received.flags flagOptional

/-! ## The transitive attribute -/

def knownTypes : List UInt8 := [1, 2, 3, 4, 5, 6, 7, 8, 9, 10, 14, 15, 16, 17, 18, 22]

def Attribute.isCarried (received : Attribute) : Bool :=
  received.type ∉ knownTypes && hasFlag received.flags flagOptional &&
    hasFlag received.flags flagTrans

def ParserArgs.keyOctets (args : ParserArgs) : Bytes :=
  ((args.octets ++ args.following).drop 4).take 4

/-- What an attribute makes of the transitive attribute of the route. -/
def ParserArgs.carry (transit? : Option Transit) (args : ParserArgs) : Option Transit :=
  if args.type = 22 then
    some ⟨4, Dbgp.keyOctets (UInt32.ofNat (readBigEndian args.keyOctets)) ++
      (transit?.getD ⟨0, [0, 0, 0, 0]⟩).val.drop 4⟩
  else if args.isCarried then some (appendTransit (markPartial args.octets) transit?)
  else transit?

def transitOf (attributes : List ParserArgs) : Option Transit :=
  attributes.foldl ParserArgs.carry none

/-- The lookup key can be copied: the attribute has its length, there are four octets to
read, and four octets to write to. -/
def keyCopied (before : List ParserArgs) (args : ParserArgs) : Bool :=
  args.value.length = 4 && args.keyOctets.length = 4 &&
    4 ≤ ((transitOf before).getD ⟨0, [0, 0, 0, 0]⟩).val.length

/-! ## The fate of an attribute -/

inductive Fate where
  | passes
  /-- The peer is notified, and the message is dropped. -/
  | notified
  /-- The routes of the message are withdrawn. -/
  | withdrawn
  /-- The parser stops with an error that its caller does not know. -/
  | unnoticed
  | aborts
deriving Repr, DecidableEq

def malformedFate (peer : ReceivingPeer) (received : Attribute) : Fate :=
  if peer.sort ≠ .ebgp then .notified
  else match received.type with
    | 6 | 7 | 18 => .passes
    | 1 | 2 | 3 | 4 | 5 | 8 | 9 | 10 | 14 | 15 | 16 => .notified
    | _ =>
      if hasFlag received.flags flagTrans && hasFlag received.flags flagOptional &&
          hasFlag received.flags flagPartial then .withdrawn
      else .unnoticed

def Fate.malformed (error : NotifyError) (data : Bytes) : Fate → ParseReturn × List Notification
  | .passes => (.proceed, [])
  | .notified => (.error, [⟨error, data⟩])
  | .withdrawn => (.withdraw, [])
  | .unnoticed | .aborts => (.errorNotifypls, [])

theorem bgpAttrMalformed_eq (peer : ReceivingPeer) (received : Attribute) (error : NotifyError)
    (data : Bytes) :
    bgpAttrMalformed peer received error data =
      (malformedFate peer received).malformed error data := by
  fun_cases malformedFate peer received <;> simp [bgpAttrMalformed, Fate.malformed, *]

theorem malformedFate_ne_aborts (peer : ReceivingPeer) (received : Attribute) :
    malformedFate peer received ≠ .aborts := by
  fun_cases malformedFate peer received <;> decide

theorem malformedFate_passes {peer : ReceivingPeer}
    (passes : malformedFate peer received = .passes) : received.type ∈ [6, 7, 18] := by
  revert passes
  fun_cases malformedFate peer received
  all_goals first
    | rename_i type
      rw [type]
      decide
    | exact nofun

theorem malformedFate_multiprotocol {peer : ReceivingPeer}
    (multiprotocol : received.type ∈ [14, 15]) : malformedFate peer received = .notified := by
  unfold malformedFate
  split
  · rfl
  · rcases mem_pair.mp multiprotocol with type | type
    · simp [type]
    · simp [type]

/-- The fate of an attribute after those `before` it. A malformed value never goes
unnoticed, wrong flags can. -/
def fate (peer : ReceivingPeer) (before : List ParserArgs) (args : ParserArgs) : Fate :=
  if args.type ∈ before.map fun earlier => earlier.type then .notified
  else if bgpAttrFlagInvalid peer args.flags args.type then malformedFate peer args.toAttribute
  else if args.type = 22 then if keyCopied before args then .passes else .aborts
  else if valueAccepted peer args.toAttribute then .passes
  else match malformedFate peer args.toAttribute with
    | .unnoticed => .notified
    | decided => decided

/-! ## The parsers of single attributes -/

def flagOf (peer : ReceivingPeer) (received : Attribute) : Option AttributeType :=
  match received.type with
  | 1 => some .origin
  | 2 => some .asPath
  | 3 => some .nextHop
  | 4 => some .multiExitDisc
  | 5 => if peer.sort = .ebgp then none else some .localPref
  | 6 => some .atomicAggregate
  | 7 => some .aggregator
  | 8 => if received.value.length = 0 then none else some .communities
  | 9 => some .originatorId
  | 10 => some .clusterList
  | 14 => some .mpReachNlri
  | 15 => some .mpUnreachNlri
  | 16 => if received.value.length = 0 then none else some .extCommunities
  | 17 => some .as4Path
  | 18 => some .as4Aggregator
  | _ => none

section

variable (peer : ReceivingPeer) (args : ParserArgs) (state : ParseState)

/-- What an accepted attribute does to the flags, to the prefixes of the message and to the
transitive attribute. -/
structure Effect (next : ParseState) : Prop where
  flag : next.attr.flag =
    (flagOf peer args.toAttribute).elim state.attr.flag (insert · state.attr.flag)
  transit : next.attr.transit? = args.carry state.attr.transit?
  mpUpdate : next.mpUpdate =
    if args.type = 14 then (mpReach? args.value).getD state.mpUpdate else state.mpUpdate
  mpWithdraw : next.mpWithdraw =
    if args.type = 15 then (mpUnreach? args.value).getD state.mpWithdraw else state.mpWithdraw

/-- What a parser returns for a value that it accepts, or does not: it reads all of the
value; or the attribute is malformed, which leaves the prefixes of the message alone; or it
leaves the notification to its caller. -/
inductive Checks : Bool → Outcome → Prop
  | complete {next : ParseState} : Effect peer args state next →
      Checks true ⟨.proceed, next, [], []⟩
  | malformed {next : ParseState} (error : NotifyError) (data : Bytes) :
      next.mpUpdate = state.mpUpdate → next.mpWithdraw = state.mpWithdraw →
      (args.type ∈ [6, 7, 18] → next = state) →
      Checks false (.malformed peer args next error data)
  | notifypls (next : ParseState) (notifications : List Notification) :
      args.type ∈ [14, 15] → Checks false (.notifypls next notifications)

variable {peer args state}

theorem Effect.ofType {type : UInt8} (isType : args.type = type) (flag : next.attr.flag =
      (flagOf peer args.toAttribute).elim state.attr.flag (insert · state.attr.flag) := by
        simp [flagOf, setFlag, *])
    (plain : type ∈ [1, 2, 3, 4, 5, 6, 7, 8, 9, 10, 16, 17, 18] := by decide)
    (transit : next.attr.transit? = state.attr.transit? := by rfl)
    (mpUpdate : next.mpUpdate = state.mpUpdate := by rfl)
    (mpWithdraw : next.mpWithdraw = state.mpWithdraw := by rfl) : Effect peer args state next := by
  have others : ∀ type ∈ [1, 2, 3, 4, 5, 6, 7, 8, 9, 10, 16, 17, (18 : UInt8)],
      type ∈ knownTypes ∧ type ≠ 22 ∧ type ≠ 14 ∧ type ≠ 15 := by
    decide +kernel
  rcases others type plain with ⟨known, notKey, notReach, notUnreach⟩
  subst isType
  refine ⟨flag, ?_, ?_, ?_⟩
  · simp [carry, if_neg notKey, isCarried, known, transit]
  · rw [if_neg notReach, mpUpdate]
  · rw [if_neg notUnreach, mpWithdraw]

variable {attr : Attr Transit}

section

variable (effect : Effect peer args state { next with attr := attr })
include effect

theorem Checks.read (all : args.value.length ≤ count) :
    Checks peer args state true (.read args next count attr) := by
  rw [Outcome.read, drop_of_length_le all]
  exact .complete effect

theorem Checks.ofCondition {wanted : Prop} [Decidable wanted] {malformed : ParseState}
    (all : wanted → args.value.length ≤ count) (mpUpdate : malformed.mpUpdate = state.mpUpdate)
    (mpWithdraw : malformed.mpWithdraw = state.mpWithdraw)
    (ignored : args.type ∈ [6, 7, 18] → malformed = state) :
    Checks peer args state (decide wanted)
      (if ¬ wanted then .malformed peer args malformed error data
        else .read args next count attr) := by
  by_cases holds : wanted
  · simp only [holds]
    exact .read effect (all holds)
  · simp only [holds]
    exact .malformed error data mpUpdate mpWithdraw ignored

theorem Checks.ofLength {wanted : Nat} :
    Checks peer args state (decide (args.value.length = wanted))
      (if args.value.length ≠ wanted then .malformed peer args state error data
        else .read args next wanted attr) :=
  .ofCondition effect le_of_eq rfl rfl fun _ => rfl

end

theorem bgpAttrOrigin_checks (type : args.type = 1) :
    Checks peer args state (args.value.length = 1 && readBigEndian args.value ≤ 2)
      (bgpAttrOrigin peer args state) := by
  have ignorable : args.type ∉ [6, 7, 18] := by simp [type]
  unfold bgpAttrOrigin
  by_cases full : args.value.length = 1
  · have value : args.getc 0 = readBigEndian args.value := by
      rw [getc, drop_zero, take_of_length_le (by omega)]
    simp only [full, ne_eq, not_true_eq_false, if_false, decide_true]
    split
    · rw [decide_eq_false (by omega)]
      exact .malformed _ _ rfl rfl fun ignored => absurd ignored ignorable
    · rw [decide_eq_true (by omega)]
      exact .read (.ofType type) (le_of_eq full)
  · simp only [full, ne_eq]
    exact .malformed _ _ rfl rfl fun _ => rfl

theorem bgpAttrNexthop_checks (type : args.type = 3) :
    Checks peer args state
      (args.value.length = 4 && !isMartianNexthop (UInt32.ofNat (readBigEndian args.value)))
      (bgpAttrNexthop peer args state) := by
  unfold bgpAttrNexthop
  by_cases full : args.value.length = 4
  · have value : args.getl 0 = UInt32.ofNat (readBigEndian args.value) := by
      rw [getl, drop_zero, take_of_length_le (by omega)]
    simp only [full, value]
    cases isMartianNexthop (UInt32.ofNat (readBigEndian args.value)) with
    | true => exact .malformed _ _ rfl rfl fun _ => rfl
    | false =>
      exact .read (.ofType type) (le_of_eq full)
  · simp only [full, ne_eq]
    exact .malformed _ _ rfl rfl fun _ => rfl

theorem Checks.ofAspath {use32bit : Bool} {malformed : ParseState} {next : AsPath → ParseState}
    {attr : AsPath → Attr Transit}
    (effect : ∀ aspath, Effect peer args state { next aspath with attr := attr aspath })
    (mpUpdate : malformed.mpUpdate = state.mpUpdate)
    (mpWithdraw : malformed.mpWithdraw = state.mpWithdraw)
    (ignored : args.type ∈ [6, 7, 18] → malformed = state) :
    Checks peer args state (aspathParse args.value use32bit).isSome
      (match aspathParse args.value use32bit with
        | none => .malformed peer args malformed .malAsPath []
        | some aspath => .read args (next aspath) args.value.length (attr aspath)) := by
  cases aspathParse args.value use32bit with
  | none => exact .malformed _ _ mpUpdate mpWithdraw ignored
  | some aspath => exact .read (effect aspath) (Nat.le_refl _)

theorem Checks.orEmpty {size : Nat} {outcome : Outcome}
    (effect : args.value.length = 0 → Effect peer args state { state with attr := attr })
    (checks : args.value.length ≠ 0 →
      Checks peer args state (decide (args.value.length % size = 0)) outcome) :
    Checks peer args state (decide (args.value.length % size = 0))
      (if args.value.length = 0 then .read args state 0 attr else outcome) := by
  by_cases empty : args.value.length = 0
  · simp only [empty]
    exact .read (effect empty) (le_of_eq empty)
  · rw [if_neg empty]
    exact checks empty

theorem mpNexthop_eq_none : mpNexthop length octets attr = none ↔ length ∉ [4, 12, 16, 32] := by
  unfold mpNexthop
  split
  · simp
  · simp
  · simp
  · simp
  · rename_i not4 not12 not16 not32
    simp only [true_iff, mem_cons, not_mem_nil, or_false, not_or]
    exact ⟨not4, not12, not16, not32⟩

theorem mpNexthop_frame {attr next : Attr Transit}
    (known : mpNexthop length octets attr = some next) :
    next.flag = attr.flag ∧ next.transit? = attr.transit? := by
  unfold mpNexthop at known
  split at known
  all_goals first
    | cases known; exact ⟨rfl, rfl⟩
    | cases known

theorem Checks.refused {field? : Option MpNlri} (none : field? = none)
    (multiprotocol : args.type ∈ [14, 15]) (next : ParseState) (notifications : List Notification) :
    Checks peer args state field?.isSome (.notifypls next notifications) := by
  rw [none]
  exact .notifypls next notifications multiprotocol

theorem bgpMpReachParse_checks (type : args.type = 14) :
    Checks peer args state (mpReach? args.value).isSome (bgpMpReachParse args state) := by
  have multiprotocol : args.type ∈ [14, 15] := by simp [type]
  fun_cases bgpMpReachParse args state with
  | case1 short =>
    exact .refused (if_neg fun holds => holds.2.1 (drop_of_length_le (by omega))) multiprotocol _ _
  | case2 long length left attr short =>
    simp only [left, length, length_drop, getc] at short
    exact .refused (if_neg fun holds => holds.2.1 (drop_of_length_le (by omega))) multiprotocol _ _
  | case3 long length left attr whole unknown =>
    exact .refused (if_neg fun holds => mpNexthop_eq_none.mp unknown holds.1) multiprotocol _ _
  | case4 long length left attr whole next known state nlri empty =>
    exact .refused (if_neg fun holds => holds.2.1 (drop_drop ▸ empty)) multiprotocol _ _
  | case5 long length left attr whole next known state nlri nonempty insane =>
    have isNlri : nlri = args.value.drop (4 + (length + 1)) := drop_drop
    rw [isNlri] at insane
    exact .refused (if_neg fun holds => holds.2.2.elim insane.1 insane.2) multiprotocol _ _
  | case6 long length left attr whole next known state nlri nonempty sane =>
    have lengthKnown : length ∈ [4, 12, 16, 32] := by
      by_contra unknown
      cases (mpNexthop_eq_none.mpr unknown).symm.trans known
    have isNlri : nlri = args.value.drop (4 + (length + 1)) := drop_drop
    rw [isNlri] at nonempty sane
    have accepted : mpReach? args.value = some ⟨args.getw 0, args.getc 2, nlri⟩ := by
      rw [isNlri]
      exact if_pos ⟨lengthKnown, nonempty, by tauto⟩
    rw [accepted]
    refine .read ⟨?_, ?_, ?_, ?_⟩ (Nat.le_refl _)
    · simp [flagOf, type, setFlag, (mpNexthop_frame known).1, attr]
    · simp [carry, type, isCarried, knownTypes, setFlag, (mpNexthop_frame known).2, attr]
    · simp [type, accepted]
    · simp [type, state]

theorem bgpMpUnreachParse_checks (type : args.type = 15) :
    Checks peer args state (mpUnreach? args.value).isSome (bgpMpUnreachParse args state) := by
  have multiprotocol : args.type ∈ [14, 15] := by simp [type]
  fun_cases bgpMpUnreachParse args state with
  | case1 short => exact .refused (if_neg fun holds => not_le.mpr short holds.1) multiprotocol _ _
  | case2 long nlri insane =>
    exact .refused (if_neg fun holds => holds.2.elim insane.1 insane.2) multiprotocol _ _
  | case3 long nlri sane =>
    have accepted : mpUnreach? args.value = some ⟨args.getw 0, args.getc 2, nlri⟩ :=
      if_pos ⟨Nat.le_of_not_lt long, by tauto⟩
    rw [accepted]
    refine .read ⟨?_, ?_, ?_, ?_⟩ (Nat.le_refl _)
    · simp [flagOf, type, setFlag]
    · simp [carry, type, isCarried, knownTypes, setFlag]
    · simp [type]
    · simp [type, accepted]

theorem flagOf_of_unknown (unknown : received.type ∉ knownTypes) : flagOf peer received = none := by
  unfold flagOf
  split
  all_goals first
    | rfl
    | rename_i type
      rw [type] at unknown
      exact absurd (by decide) unknown

theorem bgpAttrUnknown_checks (unknown : args.type ∉ knownTypes) :
    Checks peer args state (hasFlag args.flags flagOptional) (bgpAttrUnknown peer args state) := by
  have differs : ∀ type ∈ knownTypes, args.type ≠ type :=
    fun type known same => unknown (same ▸ known)
  have ignorable : args.type ∉ [6, 7, 18] := by
    simp [differs 6 (by decide), differs 7 (by decide), differs 18 (by decide)]
  -- Apart from the transitive attribute nothing changes.
  have effect : ∀ attr : Attr Transit, attr.flag = state.attr.flag →
      attr.transit? = args.carry state.attr.transit? →
      Effect peer args state { state with attr := attr } := by
    intro attr flag transit
    refine ⟨?_, transit, ?_, ?_⟩
    · simp [flagOf_of_unknown unknown, flag]
    · simp [if_neg (differs 14 (by decide))]
    · simp [if_neg (differs 15 (by decide))]
  unfold bgpAttrUnknown
  cases optional : hasFlag args.flags flagOptional with
  | false => exact .malformed _ _ rfl rfl fun ignored => absurd ignored ignorable
  | true =>
    cases trans : hasFlag args.flags flagTrans with
    | false =>
      apply Checks.read _ (Nat.le_refl _)
      apply effect
      · rfl
      · simp [carry, differs 22 (by decide), isCarried, trans]
    | true =>
      apply Checks.read _ (Nat.le_refl _)
      apply effect
      · rfl
      · simp [carry, differs 22 (by decide), isCarried, trans, optional, unknown]

theorem bgpAttrLocalPref_checks (type : args.type = 5) :
    Checks peer args state (decide (args.value.length = 4)) (bgpAttrLocalPref peer args state) := by
  unfold bgpAttrLocalPref
  by_cases external : peer.sort = .ebgp
  · simp only [external]
    exact .ofLength (.ofType type)
  · simp only [external]
    exact .ofLength (.ofType type)

theorem parseAttribute_checks (notKey : args.type ≠ 22) :
    ∃ outcome, parseAttribute peer args state = .ok outcome ∧
      Checks peer args state (valueAccepted peer args.toAttribute) outcome := by
  have ignored : ∀ {type : UInt8} {next : ParseState}, args.type = type → type ∉ [6, 7, 18] →
      args.type ∈ [6, 7, 18] → next = state := fun same other ignored =>
    absurd ignored (same ▸ other)
  unfold parseAttribute valueAccepted
  split
  all_goals try
    rename_i type
    simp only [type]
  · exact ⟨_, rfl, bgpAttrOrigin_checks type⟩
  · exact ⟨_, rfl, .ofAspath (fun _ => .ofType type) rfl rfl (ignored type (by decide))⟩
  · exact ⟨_, rfl, bgpAttrNexthop_checks type⟩
  · exact ⟨_, rfl, .ofLength (.ofType type)⟩
  · exact ⟨_, rfl, bgpAttrLocalPref_checks type⟩
  · exact ⟨_, rfl, .ofLength (.ofType type)⟩
  · refine ⟨_, rfl, ?_⟩
    unfold bgpAttrAggregator
    cases peer.as4Rcv with
    | true | false => exact .ofLength (.ofType type)
  · exact ⟨_, rfl, .orEmpty (fun empty => .ofType type) fun nonempty =>
      .ofCondition (.ofType type) (fun _ => Nat.le_refl _) rfl rfl (ignored type (by decide))⟩
  · exact ⟨_, rfl, .ofLength (.ofType type)⟩
  · exact ⟨_, rfl, .ofCondition (.ofType type) (fun _ => Nat.le_refl _) rfl rfl
      (ignored type (by decide))⟩
  · exact ⟨_, rfl, bgpMpReachParse_checks type⟩
  · exact ⟨_, rfl, bgpMpUnreachParse_checks type⟩
  · exact ⟨_, rfl, .orEmpty (fun empty => .ofType type) fun nonempty =>
      .ofCondition (.ofType type) (fun _ => Nat.le_refl _) rfl rfl (ignored type (by decide))⟩
  · exact ⟨_, rfl, .ofAspath (fun _ => .ofType type) rfl rfl (ignored type (by decide))⟩
  · exact ⟨_, rfl, .ofLength (.ofType type)⟩
  · exact absurd type notKey
  · exact ⟨_, rfl, bgpAttrUnknown_checks (by simp_all [knownTypes])⟩

theorem bgpAttrDbgp_copied (type : args.type = 22)
    (transit : state.attr.transit? = transitOf before) (copied : keyCopied before args = true) :
    ∃ next, bgpAttrDbgp args state = .ok ⟨.proceed, next, [], []⟩ ∧
      Effect peer args state next := by
  simp only [keyCopied, ← transit, Bool.and_eq_true, decide_eq_true_eq] at copied
  rcases copied with ⟨⟨full, readable⟩, writable⟩
  have defined : ¬ (args.keyOctets.length < 4 ∨
      (state.attr.transit?.getD ⟨0, [0, 0, 0, 0]⟩).val.length < 4) := by omega
  let key := UInt32.ofNat (readBigEndian args.keyOctets)
  let transit : Transit :=
    ⟨4, keyOctets key ++ (state.attr.transit?.getD ⟨0, [0, 0, 0, 0]⟩).val.drop 4⟩
  let attr : Attr Transit := { state.attr with transit? := some transit }
  refine ⟨{ state with attr := attr }, ?_, ?_⟩
  · have all : Outcome.read args state 4 attr =
        ⟨.proceed, { state with attr := attr }, [], []⟩ := by
      rw [Outcome.read, drop_of_length_le (le_of_eq full)]
    rw [bgpAttrDbgp, require_pos full]
    exact (if_neg defined).trans (congrArg Except.ok all)
  · refine ⟨?_, ?_, ?_, ?_⟩
    · simp [flagOf, type, attr]
    · simp [carry, type, attr, transit, key]
    · simp [type]
    · simp [type]

theorem bgpAttrDbgp_aborts (transit : state.attr.transit? = transitOf before)
    (failed : keyCopied before args = false) : ∃ fault, bgpAttrDbgp args state = .error fault := by
  by_cases full : args.value.length = 4
  · have undefinedCopy : args.keyOctets.length < 4 ∨
        (state.attr.transit?.getD ⟨0, [0, 0, 0, 0]⟩).val.length < 4 := by
      have shorter : args.keyOctets.length ≤ 4 := by
        rw [ParserArgs.keyOctets, length_take]
        exact min_le_left _ _
      simp only [keyCopied, ← transit, Bool.and_eq_false_iff, decide_eq_false_iff_not] at failed
      omega
    refine ⟨.undefined, ?_⟩
    rw [bgpAttrDbgp, require_pos full]
    exact if_pos undefinedCopy
  · exact ⟨.assertion .dbgpAttributeLength, by
      simp only [bgpAttrDbgp, require, if_neg full, error_bind]⟩

end

end Quagga.Bgp
