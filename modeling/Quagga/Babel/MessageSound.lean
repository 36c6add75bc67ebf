import Quagga.Babel.Message
import Mathlib.Data.List.Basic

/-!
# What a Babel packet can have the router do

The parser tests the length of a TLV, and of a route attribute, as if it included the two octets
of the header. So it goes on with one that ends up to two octets after the end. And it finds the
default prefix for an update by its flags. On all other packets the actions depend only on the
complete TLVs.
-/

namespace Quagga.Babel

open Foundation List ParseState PacketReading

variable {count ae : Nat} {mapped : Bool} {plen? : Option Nat}

/-! ## What is to hold -/

/-- The prefix of an update whose leading octets are those of the default. -/
def expandPrefix (ae plen omitted : Nat) (received default : List UInt8) : Option (List UInt8) :=
  match ae with
  | 1 => some (maskPrefix (default.take (12 + omitted) ++ received ++
      List.replicate (4 - (omitted + received.length)) 0) (plen + 96))
  | 2 => some (maskPrefix (default.take omitted ++ received ++
      List.replicate (16 - (omitted + received.length)) 0) plen)
  | _ => none

def OmittingUpdate.Valid (update : OmittingUpdate) : Prop :=
  ∃ default, update.default? = some default ∧
    expandPrefix update.ae update.plen update.omitted update.received default = some update.network

def AttributeRead.Complete (read : AttributeRead) : Prop := read.position + 2 + read.len ≤ read.alen

section

variable (receiver : BabelReceiver) (body : Nat → UInt8) (bodylen : Int)

/-- The octets of the TLVs from a position on that are complete. -/
def completeTlvs : Nat → Nat → List (List UInt8)
  | 0, _ => []
  | fuel + 1, i =>
    if i < bodylen then
      if body i = 0 then completeTlvs fuel (i + 1)
      else if (i + (lenAt body i + 2) : Nat) ≤ bodylen then
        octetsAt body i (lenAt body i + 2) :: completeTlvs fuel (i + (lenAt body i + 2))
      else []
    else []

/-- A TLV by itself: whatever is asked for behind it is too long for anything. -/
def alone (tlv : List UInt8) : Nat → UInt8 := fun offset => tlv.getD offset 255

def actionsOf : ParseState → List (List UInt8) → List BabelAction
  | _, [] => []
  | state, tlv :: rest =>
    let reading := parseTlv receiver state (alone tlv) (tlv.length - 2)
    reading.actions ++ actionsOf reading.state rest

/-- What the parser has gone on with is complete and has its defaults. -/
@[mk_iff] structure PacketReading.Complete (packet : PacketReading) : Prop where
  tlvs : ∀ tlv ∈ packet.tlvs, (tlv.1 + (tlv.2 + 2) : Nat) ≤ bodylen
  attributes : ∀ read ∈ packet.attributes, read.Complete
  omitting : ∀ update ∈ packet.omitting, update.Valid

/-- A packet whose reading is complete and whose actions are determined by its complete TLVs. -/
structure Sound (uninitialised : ParseState) (packet : Nat → UInt8) (packetlen : Int) : Prop where
  complete : (parsePacket receiver uninitialised packet packetlen).Complete
    (bodyLength packet packetlen)
  actions : (parsePacket receiver uninitialised packet packetlen).actions =
    if headerAccepted receiver packet then
      .findNeighbour :: actionsOf receiver uninitialised.atStart
        (completeTlvs (packetBody packet) (bodyLength packet packetlen)
          (bodyLength packet packetlen).toNat 0)
    else []

/-! ## The packets -/

/-- The attributes from a position on: padding, one that is noticed to be truncated, or complete
ones. After a channel list that contains 0 the rest does not matter. -/
inductive AttributesFit (a : Nat → UInt8) (alen : Nat) : Nat → Prop
  | done {i : Nat} : alen ≤ i → AttributesFit a alen i
  | pad {i : Nat} : i < alen → a i = 0 → AttributesFit a alen (i + 1) → AttributesFit a alen i
  | truncated {i : Nat} : i < alen → a i ≠ 0 → alen < i + (a (i + 1)).toNat →
      AttributesFit a alen i
  | entry {i : Nat} : i < alen → a i ≠ 0 → i + 2 + (a (i + 1)).toNat ≤ alen →
      ((channelInfo? a i).any (0 ∈ ·) = false → AttributesFit a alen (i + attributeSkip a i)) →
      AttributesFit a alen i

def ReadsAttributes (state : ParseState) (message : Nat → UInt8) (len parsed : Nat)
    (network : List UInt8) : Prop :=
  let ae := (message 2).toNat
  let noted := noteUpdate state ae (message 3).toNat network
  ae ≠ 0 ∧ noted.haveRouterId = true ∧ updateNextHop receiver noted ae ≠ none ∧
    (ae = 1 → receiver.hasIpv4 = true) ∧ receiver.faraway = false ∧ 10 + parsed < len

/-- An update that omits octets has a default with its own address encoding, and attributes that
are read fit. -/
def UpdateFine (state : ParseState) (message : Nat → UInt8) (len : Nat) : Prop :=
  ∀ parsed network, updatePrefix state message len = some (parsed, network) →
    ((message 5).toNat ≠ 0 → ((message 2).toNat = 1 ∨ (message 2).toNat = 2) ∧
      state.default? (message 2).toNat ≠ none) ∧
    (ReadsAttributes receiver state message len parsed network →
      AttributesFit (fun index => message (2 + (10 + parsed) + index)) (len - (10 + parsed)) 0)

/-- The TLVs from a position on: padding, one that is noticed to be truncated, or complete ones. -/
inductive TlvsFine : Nat → ParseState → Prop
  | done {i : Nat} {state : ParseState} : ¬ i < bodylen → TlvsFine i state
  | pad {i : Nat} {state : ParseState} : i < bodylen → body i = 0 → TlvsFine (i + 1) state →
      TlvsFine i state
  | truncated {i : Nat} {state : ParseState} : i < bodylen → body i ≠ 0 →
      bodylen < (i + lenAt body i : Nat) → TlvsFine i state
  | tlv {i : Nat} {state : ParseState} : i < bodylen → body i ≠ 0 →
      (i + (lenAt body i + 2) : Nat) ≤ bodylen →
      (body i = 8 → 10 ≤ lenAt body i →
        UpdateFine receiver state (messageAt body i) (lenAt body i)) →
      TlvsFine (i + (lenAt body i + 2)) (tlvAt receiver body state i).state → TlvsFine i state

end

/-! ## Octets -/

theorem octetsAt_congr {first second : Nat → UInt8} {offset : Nat}
    (agree : ∀ index < count, first (offset + index) = second (offset + index)) :
    octetsAt first offset count = octetsAt second offset count := by
  apply map_congr_left
  intro index isIndex
  exact agree index (mem_range.mp isIndex)

theorem length_octetsAt (pointer : Nat → UInt8) (offset count : Nat) :
    (octetsAt pointer offset count).length = count := by
  rw [octetsAt, length_map, length_range]

variable {offset : Nat}

section

variable {pb omitted bits len : Nat} {dp? : Option (List UInt8)} {first second : Nat → UInt8}

theorem octetsAt_start (agree : ∀ index < len, first index = second index) (inside : count ≤ len) :
    octetsAt first 0 count = octetsAt second 0 count := by
  apply octetsAt_congr
  intro index isIndex
  rw [Nat.zero_add]
  exact agree index (by omega)

theorem compressedPrefix_congr (offset : Nat) (base : List UInt8) (mapped : Bool)
    (agree : ∀ index < len, first index = second index) :
    compressedPrefix offset base mapped pb omitted bits first dp? len =
      compressedPrefix offset base mapped pb omitted bits second dp? len := by
  unfold compressedPrefix
  split
  next => rfl
  next fits => rw [octetsAt_start agree (by omega)]

theorem networkPrefix_congr (ae : Nat) (plen? : Option Nat)
    (agree : ∀ index < len, first index = second index) :
    networkPrefix ae plen? omitted first dp? len =
      networkPrefix ae plen? omitted second dp? len := by
  unfold networkPrefix
  dsimp only
  split
  next => rfl
  next =>
    split
    next => rfl
    next => exact compressedPrefix_congr 12 v4PrefixOctets true agree
    next => exact compressedPrefix_congr 0 (List.replicate 16 0) false agree
    next =>
      split
      next => rfl
      next fits => rw [octetsAt_start agree (by omega)]
    next => rfl

end

/-! ## Attributes -/

section

variable {a : Nat → UInt8} {alen : Nat}

theorem attributesFit_iff (i : Nat) :
    AttributesFit a alen i ↔
      if i < alen then
        if a i = 0 then AttributesFit a alen (i + 1)
        else if alen < i + (a (i + 1)).toNat then True
        else i + 2 + (a (i + 1)).toNat ≤ alen ∧
          ((channelInfo? a i).any (0 ∈ ·) = false → AttributesFit a alen (i + attributeSkip a i))
      else True := by
  constructor
  · intro fits
    cases fits with
    | done atEnd => rw [if_neg (Nat.not_lt.mpr atEnd)]; trivial
    | pad inside isPad rest => rwa [if_pos inside, if_pos isPad]
    | truncated inside notPad tooLong =>
      rw [if_pos inside, if_neg notPad, if_pos tooLong]
      trivial
    | entry inside notPad complete rest =>
      rw [if_pos inside, if_neg notPad, if_neg (by omega)]
      exact ⟨complete, rest⟩
  · split_ifs with inside isPad tooLong
    · exact .pad inside isPad
    · exact fun _ => .truncated inside isPad tooLong
    · exact fun fits => .entry inside isPad fits.1 fits.2
    · exact fun _ => .done (Nat.not_lt.mp inside)

theorem attributeLoop_eq (i : Nat) (attributes : Attributes) :
    (attributeLoop a alen).run (i, attributes) =
      if i < alen then
        if a i = 0 then (attributeLoop a alen).run (i + 1, attributes)
        else if alen < i + (a (i + 1)).toNat then attributes
        else if (channelInfo? a i).any (0 ∈ ·) then
          { attributes with reads := attributes.reads ++ [⟨i, (a (i + 1)).toNat, alen⟩] }
        else (attributeLoop a alen).run (i + attributeSkip a i,
          ⟨(channelInfo? a i).getD attributes.channels,
            attributes.reads ++ [⟨i, (a (i + 1)).toNat, alen⟩]⟩)
      else attributes := by
  rw [Loop.run_eq, show (attributeLoop a alen).turn = attributeTurn a alen from rfl, attributeTurn]
  dsimp only
  split_ifs <;> rfl

theorem complete_append_iff {reads : List AttributeRead} {i len : Nat} :
    (∀ read ∈ reads ++ [⟨i, len, alen⟩], read.Complete) ↔
      (∀ read ∈ reads, read.Complete) ∧ i + 2 + len ≤ alen := by
  rw [forall_mem_append, forall_mem_singleton]
  rfl

theorem complete_attributeLoop_iff (i : Nat) (attributes : Attributes) :
    (∀ read ∈ ((attributeLoop a alen).run (i, attributes)).reads, read.Complete) ↔
      (∀ read ∈ attributes.reads, read.Complete) ∧ AttributesFit a alen i := by
  generalize left : alen - i = size
  induction size using Nat.strongRecOn generalizing i attributes with
  | ind size induction =>
    rw [attributeLoop_eq, attributesFit_iff]
    split_ifs with inside isPad tooLong invalid
    · exact induction _ (by omega) (i + 1) attributes rfl
    · exact (and_iff_left trivial).symm
    · rw [complete_append_iff]
      simp [invalid]
    · have shorter : alen - (i + attributeSkip a i) < size := by
        rw [attributeSkip]
        omega
      rw [induction _ shorter _ _ rfl, complete_append_iff, and_assoc]
      simp [invalid]
    · exact (and_iff_left trivial).symm

theorem attributeLoop_congr {other : Nat → UInt8} (agree : ∀ index < alen, a index = other index)
    (closed : other alen = 255) {i : Nat} (fits : AttributesFit a alen i)
    (attributes : Attributes) :
    (attributeLoop other alen).run (i, attributes) =
      (attributeLoop a alen).run (i, attributes) := by
  induction fits generalizing attributes with
  | done atEnd =>
    have outside := Nat.not_lt.mpr atEnd
    rw [attributeLoop_eq, if_neg outside, attributeLoop_eq, if_neg outside]
  | @pad i inside isPad rest induction =>
    rw [attributeLoop_eq i, attributeLoop_eq i, if_pos inside, if_pos inside, ← agree i inside,
      if_pos isPad, if_pos isPad, induction]
  | @truncated i inside notPad tooLong =>
    have otherTooLong : alen < i + (other (i + 1)).toNat := by
      by_cases last : i + 1 = alen
      · rw [last, closed]
        change alen < i + 255
        omega
      · rw [← agree (i + 1) (by omega)]
        exact tooLong
    rw [attributeLoop_eq i, attributeLoop_eq i, if_pos inside, if_pos inside, ← agree i inside,
      if_neg notPad, if_neg notPad, if_pos otherTooLong, if_pos tooLong]
  | @entry i inside notPad complete rest induction =>
    have sameLen : a (i + 1) = other (i + 1) := agree (i + 1) (by omega)
    have sameInfo : channelInfo? other i = channelInfo? a i := by
      rw [channelInfo?, channelInfo?, ← agree i inside, ← sameLen]
      have octets : octetsAt other (i + 2) (min (a (i + 1)).toNat diversityHops) =
          octetsAt a (i + 2) (min (a (i + 1)).toNat diversityHops) := by
        apply octetsAt_congr
        intro index isIndex
        exact (agree (i + 2 + index) (by omega)).symm
      rw [octets]
    have sameSkip : attributeSkip other i = attributeSkip a i := by
      rw [attributeSkip, attributeSkip, ← agree i inside, ← sameLen]
    have passes : ¬ alen < i + (a (i + 1)).toNat := by omega
    rw [attributeLoop_eq i, attributeLoop_eq i, ← agree i inside, ← sameLen, sameInfo, sameSkip]
    split_ifs with invalid
    · rfl
    · exact induction (Bool.eq_false_iff.mpr invalid) _

end

/-! ## Prefixes -/

theorem overlay_lead {lead octets base : List UInt8} (length : lead.length = offset) :
    overlay offset octets (overlay 0 lead base) =
      lead ++ octets ++ base.drop (offset + octets.length) := by
  subst length
  simp [overlay]

theorem v4PrefixOctets_drop (count : Nat) :
    v4PrefixOctets.drop (12 + count) = List.replicate (4 - count) 0 := by
  have split : v4PrefixOctets = v4PrefixOctets.take 12 ++ List.replicate 4 0 := rfl
  rw [split, drop_append, drop_replicate]
  simp [v4PrefixOctets]

variable {pointer : Nat → UInt8}

theorem compressedPrefix_eq_some {offset pb omitted bits len parsed : Nat}
    {base dp network : List UInt8} (omits : omitted ≠ 0) (length : dp.length = 16)
    (bounded : offset ≤ 16)
    (accepted : compressedPrefix offset base mapped pb omitted bits pointer (some dp) len =
      some (parsed, network)) :
    pb - omitted ≤ len ∧ network = maskPrefix (dp.take (offset + omitted) ++
      octetsAt pointer 0 (pb - omitted) ++
        base.drop (offset + (omitted + (pb - omitted)))) bits := by
  revert accepted
  fun_cases compressedPrefix offset base mapped pb omitted bits pointer (some dp) len with
  | case4 fits lead copied placed whole enough =>
    rintro ⟨⟩
    rw [fromDefault, if_neg omits, Option.ite_none_right_eq_some] at copied
    cases copied.2
    have taken : (dp.take (offset + omitted)).length = offset + omitted := by
      rw [length_take]
      omega
    rw [show whole = _ from overlay_lead taken, length_octetsAt, Nat.add_assoc]
    exact ⟨by omega, rfl⟩
  | _ => exact nofun

theorem length_overlay {octets buffer : List UInt8}
    (fits : offset + octets.length ≤ buffer.length) :
    (overlay offset octets buffer).length = buffer.length := by
  simp [overlay]
  omega

theorem length_maskPrefix {address : List UInt8} (length : address.length = 16) (plen : Nat) :
    (maskPrefix address plen).length = 16 := by
  unfold maskPrefix
  split
  next => exact length
  next short =>
    split
    next =>
      simp
      omega
    next =>
      simp
      omega

variable {dp? : Option (List UInt8)}

theorem length_fromDefault {omitted : Nat} {lead : List UInt8}
    (copied : fromDefault dp? mapped omitted count = some lead) : lead.length ≤ count := by
  revert copied
  fun_cases fromDefault dp? mapped omitted count with
  | case1 =>
    rintro ⟨⟩
    exact Nat.zero_le _
  | case3 =>
    rintro ⟨⟩
    exact length_take_le _ _
  | _ => exact nofun

theorem length_compressedPrefix {offset pb omitted bits len parsed : Nat}
    {base network : List UInt8} (baseLength : base.length = 16) (bounded : offset ≤ 16)
    (accepted : compressedPrefix offset base mapped pb omitted bits pointer dp? len =
      some (parsed, network)) : network.length = 16 := by
  revert accepted
  fun_cases compressedPrefix offset base mapped pb omitted bits pointer dp? len with
  | case4 fits lead copied placed whole enough =>
    rintro ⟨⟩
    apply length_maskPrefix
    have leadLength := length_fromDefault copied
    rw [length_overlay, length_overlay, baseLength]
    · omega
    · rw [length_overlay (by omega), length_octetsAt]
      omega
  | _ => exact nofun

theorem length_networkPrefix {omitted len parsed : Nat} {network : List UInt8}
    (accepted : networkPrefix ae plen? omitted pointer dp? len = some (parsed, network)) :
    network.length = 16 := by
  revert accepted
  fun_cases networkPrefix ae plen? omitted pointer dp? len with
  | case2 =>
    rintro ⟨⟩
    exact length_maskPrefix length_replicate _
  | case3 => exact length_compressedPrefix rfl (by decide)
  | case4 => exact length_compressedPrefix length_replicate (by decide)
  | case7 pb bits small fits placed enough =>
    rintro ⟨⟩
    apply length_maskPrefix
    rw [length_overlay]
    · rfl
    · rw [length_octetsAt]
      change 8 + _ ≤ 16
      omega
  | _ => exact nofun

/-! ## One TLV -/

def ParseState.Sized (state : ParseState) : Prop :=
  ∀ ae default, state.default? ae = some default → default.length = 16

section

variable {receiver : BabelReceiver} {state : ParseState} {message : Nat → UInt8} {len parsed : Nat}
  {network : List UInt8}

theorem networkPrefix_of_updatePrefix
    (accepted : updatePrefix state message len = some (parsed, network)) :
    networkPrefix (message 2).toNat (some (message 4).toNat) (message 5).toNat
      (fun index => message (12 + index))
      (some (if (message 2).toNat = 1 then state.v4Prefix else state.v6Prefix)) (len - 10) =
      some (parsed, network) := by
  unfold updatePrefix at accepted
  dsimp only at accepted
  split at accepted
  next => exact accepted
  next => cases accepted

theorem octetsAt_shift (pointer : Nat → UInt8) (offset count : Nat) :
    octetsAt (fun index => pointer (offset + index)) 0 count = octetsAt pointer offset count := by
  simp [octetsAt]

theorem buffer_of_default {default : List UInt8} (held : state.default? ae = some default) :
    (if ae = 1 then state.v4Prefix else state.v6Prefix) = default := by
  revert held
  fun_cases state.default? ae with
  | case1 isV4 =>
    rw [if_pos isV4]
    exact Option.some.inj
  | case3 notV4 =>
    rw [if_neg notV4]
    exact Option.some.inj
  | _ => exact nofun

theorem valid_of_default (sized : state.Sized) (omits : (message 5).toNat ≠ 0)
    (encoded : (message 2).toNat = 1 ∨ (message 2).toNat = 2)
    (hasDefault : state.default? (message 2).toNat ≠ none)
    (accepted : updatePrefix state message len = some (parsed, network)) :
    prefixOctets (message 2).toNat (some (message 4).toNat) - (message 5).toNat ≤ len - 10 ∧
      ∀ update ∈ omittingUpdate state message network, update.Valid := by
  cases held : state.default? (message 2).toNat with
  | none => exact absurd held hasDefault
  | some default =>
    have length := sized _ default held
    have buffer := buffer_of_default held
    have decoded := networkPrefix_of_updatePrefix accepted
    rw [buffer] at decoded
    suffices prefixOctets (message 2).toNat (some (message 4).toNat) - (message 5).toNat ≤
        len - 10 ∧
        expandPrefix (message 2).toNat (message 4).toNat (message 5).toNat
          (octetsAt message 12 (prefixOctets (message 2).toNat (some (message 4).toNat) -
            (message 5).toNat)) default = some network by
      refine ⟨this.1, ?_⟩
      rw [omittingUpdate, if_neg omits, held, forall_mem_singleton]
      exact ⟨default, rfl, this.2⟩
    unfold networkPrefix at decoded
    dsimp only at decoded
    split at decoded
    next => cases decoded
    next =>
      rcases encoded with isV4 | isV6
      · rw [isV4] at decoded ⊢
        rcases compressedPrefix_eq_some omits length (by decide) decoded with ⟨fits, made⟩
        refine ⟨fits, ?_⟩
        rw [made, octetsAt_shift, v4PrefixOctets_drop]
        simp [expandPrefix, length_octetsAt]
      · rw [isV6] at decoded ⊢
        rcases compressedPrefix_eq_some omits length (by decide) decoded with ⟨fits, made⟩
        refine ⟨fits, ?_⟩
        rw [made, octetsAt_shift, drop_replicate]
        simp [expandPrefix, length_octetsAt]

theorem acceptUpdate_omitting :
    (acceptUpdate receiver state message len parsed network).omitting =
      omittingUpdate state message network := by
  fun_cases acceptUpdate receiver state message len parsed network <;> rfl

theorem readsAttributes_iff {nh : List UInt8}
    (hasId : ¬ (¬ (noteUpdate state (message 2).toNat (message 3).toNat network).haveRouterId ∧
      (message 2).toNat ≠ 0)) (notAe : (message 2).toNat ≠ 0)
    (hasHop : updateNextHop receiver (noteUpdate state (message 2).toNat (message 3).toNat network)
      (message 2).toNat = some nh) (hasIpv4 : ¬ ((message 2).toNat = 1 ∧ ¬ receiver.hasIpv4)) :
    ReadsAttributes receiver state message len parsed network ↔
      receiver.faraway = false ∧ 10 + parsed < len := by
  refine ⟨fun reads => reads.2.2.2.2, fun near => ⟨notAe, ?_, ?_, ?_, near⟩⟩
  · by_contra noId
    exact hasId ⟨noId, notAe⟩
  · rw [hasHop]
    exact Option.some_ne_none nh
  · intro isV4
    by_contra noIpv4
    exact hasIpv4 ⟨isV4, noIpv4⟩

theorem acceptUpdate_attributes :
    (∀ read ∈ (acceptUpdate receiver state message len parsed network).attributes,
        read.Complete) ↔
      (ReadsAttributes receiver state message len parsed network →
        AttributesFit (fun index => message (2 + (10 + parsed) + index))
          (len - (10 + parsed)) 0) := by
  fun_cases acceptUpdate receiver state message len parsed network with
  | case1 ae omitting noted noId =>
    exact iff_of_true nofun fun reads => absurd reads.2.1 noId.1
  | case2 ae metric omitting noted hasId isAe =>
    exact iff_of_true nofun fun reads => absurd isAe reads.1
  | case3 ae omitting noted hasId notAe noHop =>
    exact iff_of_true nofun fun reads => absurd noHop reads.2.2.1
  | case4 ae omitting noted hasId notAe nh hasHop noIpv4 =>
    exact iff_of_true nofun fun reads => absurd (reads.2.2.2.1 noIpv4.1) noIpv4.2
  | case5 ae plen metric omitting noted hasId notAe nh hasHop hasIpv4 attributes =>
    rw [readsAttributes_iff hasId notAe hasHop hasIpv4]
    change (∀ read ∈ (updateChannels receiver message len metric (10 + parsed)).reads, _) ↔ _
    fun_cases updateChannels receiver message len metric (10 + parsed) with
    | case1 faraway => exact iff_of_true nofun fun reads => nomatch faraway.symm.trans reads.1
    | case2 near channels more =>
      rw [parseRouteAttributes, complete_attributeLoop_iff]
      exact ⟨fun fits _ => fits.2,
        fun fits => ⟨nofun, fits ⟨Bool.eq_false_iff.mpr near, more⟩⟩⟩
    | case3 near channels noMore => exact iff_of_true nofun fun reads => absurd reads.2 noMore

theorem parseUpdate_iff (sized : state.Sized) (long : 10 ≤ len) :
    (∀ read ∈ (parseUpdate receiver state message len).attributes, read.Complete) ∧
        (∀ update ∈ (parseUpdate receiver state message len).omitting, update.Valid) ↔
      UpdateFine receiver state message len := by
  rw [parseUpdate, if_neg (Nat.not_lt.mpr long)]
  cases accepted : updatePrefix state message len with
  | none =>
    refine iff_of_true ⟨nofun, nofun⟩ ?_
    intro parsed network isAccepted
    exact nomatch accepted.symm.trans isAccepted
  | some result =>
    rcases result with ⟨parsed, network⟩
    rw [acceptUpdate_attributes, acceptUpdate_omitting]
    refine ⟨?_, ?_⟩
    · rintro ⟨fits, valid⟩ _ _ isAccepted
      cases accepted.symm.trans isAccepted
      refine ⟨?_, fits⟩
      intro omits
      rw [omittingUpdate, if_neg omits, forall_mem_singleton] at valid
      rcases valid with ⟨default, held, expanded⟩
      dsimp only at held expanded
      refine ⟨?_, held ▸ Option.some_ne_none default⟩
      unfold expandPrefix at expanded
      split at expanded
      next isV4 => exact .inl isV4
      next isV6 => exact .inr isV6
      next => cases expanded
    · intro fine
      rcases fine parsed network accepted with ⟨defaults, fits⟩
      refine ⟨fits, ?_⟩
      by_cases omits : (message 5).toNat = 0
      · rw [omittingUpdate, if_pos omits]
        exact nofun
      · rcases defaults omits with ⟨encoded, held⟩
        exact (valid_of_default sized omits encoded held accepted).2

/-! ## A TLV by itself -/

section

variable {other : Nat → UInt8} (agree : ∀ offset < len + 2, other offset = message offset)
include agree

theorem shortAt_eq (inside : offset + 1 < len + 2) :
    shortAt other offset = shortAt message offset := by
  rw [shortAt, agree offset (by omega), agree (offset + 1) inside, shortAt]

theorem octetsAt_eq {offset : Nat} (inside : offset + count ≤ len + 2) :
    octetsAt other offset count = octetsAt message offset count := by
  apply octetsAt_congr
  intro index isIndex
  exact agree (offset + index) (by omega)

theorem networkPrefix_eq {omitted : Nat} {offset rest : Nat} (inside : offset + rest ≤ len + 2) :
    networkPrefix ae plen? omitted (fun index => other (offset + index)) dp? rest =
      networkPrefix ae plen? omitted (fun index => message (offset + index)) dp? rest := by
  apply networkPrefix_congr
  intro index isIndex
  exact agree (offset + index) (by omega)

theorem parseIhu_eq : parseIhu receiver state other len = parseIhu receiver state message len := by
  unfold parseIhu networkAddress
  dsimp only
  split
  next => rfl
  next long =>
    rw [agree 2 (by omega), networkPrefix_eq agree (by omega), shortAt_eq agree (by omega),
      shortAt_eq agree (by omega)]

theorem parseRouterId_eq : parseRouterId state other len = parseRouterId state message len := by
  unfold parseRouterId
  split
  next => rfl
  next long => rw [octetsAt_eq agree (by omega)]

theorem parseNh_eq : parseNh state other len = parseNh state message len := by
  unfold parseNh networkAddress
  dsimp only
  split
  next => rfl
  next long => rw [agree 2 (by omega), networkPrefix_eq agree (by omega)]

theorem parseRequest_eq : parseRequest state other len = parseRequest state message len := by
  unfold parseRequest requestPlen
  split
  next => rfl
  next long =>
    rw [agree 2 (by omega), agree 3 (by omega), networkPrefix_eq agree (by omega)]

theorem parseMhRequest_eq : parseMhRequest state other len = parseMhRequest state message len := by
  unfold parseMhRequest requestPlen
  split
  next => rfl
  next long =>
    rw [agree 2 (by omega), agree 3 (by omega), agree 6 (by omega),
      networkPrefix_eq agree (by omega), shortAt_eq agree (by omega), octetsAt_eq agree (by omega)]

theorem updatePrefix_eq (long : 10 ≤ len) :
    updatePrefix state other len = updatePrefix state message len := by
  unfold updatePrefix haveDefault
  dsimp only
  rw [agree 2 (by omega), agree 3 (by omega), agree 4 (by omega), agree 5 (by omega),
    networkPrefix_eq agree (by omega)]

theorem updateChannels_eq (closed : other (len + 2) = 255) {metric : Nat}
    (fits : receiver.faraway = false → 10 + parsed < len →
      AttributesFit (fun index => message (2 + (10 + parsed) + index)) (len - (10 + parsed)) 0) :
    updateChannels receiver other len metric (10 + parsed) =
      updateChannels receiver message len metric (10 + parsed) := by
  unfold updateChannels
  split
  next => rfl
  next near =>
    dsimp only
    split
    next more =>
      apply attributeLoop_congr
      · intro index inside
        exact (agree _ (by omega)).symm
      · have atEnd : 2 + (10 + parsed) + (len - (10 + parsed)) = len + 2 := by omega
        rw [atEnd]
        exact closed
      · exact fits (Bool.eq_false_iff.mpr near) more
    next => rfl

section

variable (closed : other (len + 2) = 255) (sized : state.Sized)
include closed sized

theorem acceptUpdate_eq (long : 10 ≤ len)
    (accepted : updatePrefix state message len = some (parsed, network))
    (fine : UpdateFine receiver state message len) :
    acceptUpdate receiver state other len parsed network =
      acceptUpdate receiver state message len parsed network := by
  rcases fine parsed network accepted with ⟨defaults, fits⟩
  have sameOmitting :
      omittingUpdate state other network = omittingUpdate state message network := by
    unfold omittingUpdate
    rw [agree 2 (by omega), agree 4 (by omega), agree 5 (by omega)]
    dsimp only
    split
    next => rfl
    next omits =>
      rcases defaults omits with ⟨encoded, held⟩
      have inside := (valid_of_default sized omits encoded held accepted).1
      rw [octetsAt_eq agree (by omega)]
  unfold acceptUpdate
  dsimp only
  rw [sameOmitting, agree 2 (by omega), agree 3 (by omega), agree 4 (by omega),
    shortAt_eq agree (by omega), shortAt_eq agree (by omega), shortAt_eq agree (by omega)]
  cases hop : updateNextHop receiver
      (noteUpdate state (message 2).toNat (message 3).toNat network) (message 2).toNat with
  | none => rfl
  | some nh =>
    split_ifs with noId isWildcard infinite noIpv4
    · rfl
    · rfl
    · rfl
    · rfl
    all_goals
      rw [updateChannels_eq agree closed]
      intro near more
      exact fits ((readsAttributes_iff noId isWildcard hop noIpv4).mpr ⟨near, more⟩)

theorem parseUpdate_eq (fine : 10 ≤ len → UpdateFine receiver state message len) :
    parseUpdate receiver state other len = parseUpdate receiver state message len := by
  unfold parseUpdate
  by_cases short : len < 10
  · rw [if_pos short, if_pos short]
    by_cases none : len < 2
    · simp [none]
    · rw [agree 3 (by omega)]
  · have long := Nat.not_lt.mp short
    rw [if_neg short, if_neg short, updatePrefix_eq agree long, agree 3 (by omega)]
    cases accepted : updatePrefix state message len with
    | none => rfl
    | some result =>
      exact acceptUpdate_eq agree closed sized long accepted (fine long)

theorem parseTlv_eq (fine : message 0 = 8 → 10 ≤ len → UpdateFine receiver state message len) :
    parseTlv receiver state other len = parseTlv receiver state message len := by
  unfold parseTlv
  rw [agree 0 (by omega)]
  split
  next =>
    split
    next => rfl
    next => rw [shortAt_eq agree (by omega), shortAt_eq agree (by omega)]
  next =>
    split
    next => rfl
    next => rw [shortAt_eq agree (by omega), shortAt_eq agree (by omega)]
  next => exact parseIhu_eq agree
  next => exact parseRouterId_eq agree
  next => exact parseNh_eq agree
  next isUpdate =>
    exact parseUpdate_eq agree closed sized (fine (UInt8.toNat_inj.mp isUpdate))
  next => exact parseRequest_eq agree
  next => exact parseMhRequest_eq agree
  next => rfl

end

end

/-! ## Default prefixes -/

theorem sized_dropPrefixes (state : ParseState) : state.dropPrefixes.Sized := by
  intro ae default held
  simp [default?, dropPrefixes] at held

theorem sized_noteUpdate (sized : state.Sized) (ae flags : Nat) (length : network.length = 16) :
    (noteUpdate state ae flags network).Sized := by
  intro other default held
  -- a default prefix is the one before, or the one that was read
  have kept := sized other default
  unfold noteUpdate at held
  generalize flags.testBit 7 = setsPrefix at held
  generalize flags.testBit 6 = setsRouterId at held
  cases setsPrefix <;> cases setsRouterId <;> by_cases isV4 : ae = 1 <;>
    grind [default?]

theorem sized_parseUpdate (sized : state.Sized) :
    (parseUpdate receiver state message len).state.Sized := by
  have dropped : ∀ condition : Prop, [Decidable condition] →
      (if condition then state.dropPrefixes else state).Sized := by
    intro condition _
    split
    next => exact sized_dropPrefixes state
    next => exact sized
  fun_cases parseUpdate receiver state message len with
  | case3 long parsed network accepted =>
    have length : network.length = 16 :=
      length_networkPrefix (networkPrefix_of_updatePrefix accepted)
    have noted := sized_noteUpdate sized (message 2).toNat (message 3).toNat length
    fun_cases acceptUpdate receiver state message len parsed network <;> exact noted
  | _ => exact dropped _

/-- A reading without attributes and omitted octets that leaves the default prefixes alone. -/
structure TlvReading.Plain (reading : TlvReading) (state : ParseState) : Prop where
  attributes : reading.attributes = []
  omitting : reading.omitting = []
  defaults : ∀ ae, reading.state.default? ae = state.default? ae

theorem plain_parseTlv (notUpdate : message 0 ≠ 8) :
    (parseTlv receiver state message len).Plain state := by
  fun_cases parseTlv receiver state message len with
  | case5 => fun_cases parseIhu receiver state message len <;> exact ⟨rfl, rfl, fun _ => rfl⟩
  | case6 => fun_cases parseRouterId state message len <;> exact ⟨rfl, rfl, fun _ => rfl⟩
  | case7 => fun_cases parseNh state message len <;> exact ⟨rfl, rfl, fun _ => rfl⟩
  | case8 isUpdate => exact absurd (UInt8.toNat_inj.mp isUpdate) notUpdate
  | case9 => fun_cases parseRequest state message len <;> exact ⟨rfl, rfl, fun _ => rfl⟩
  | case10 => fun_cases parseMhRequest state message len <;> exact ⟨rfl, rfl, fun _ => rfl⟩
  | _ => exact ⟨rfl, rfl, fun _ => rfl⟩

theorem parseTlv_of_update (isUpdate : message 0 = 8) :
    parseTlv receiver state message len = parseUpdate receiver state message len := by
  unfold parseTlv
  rw [isUpdate]
  rfl

theorem sized_parseTlv (sized : state.Sized) :
    (parseTlv receiver state message len).state.Sized := by
  by_cases isUpdate : message 0 = 8
  · rw [parseTlv_of_update isUpdate]
    exact sized_parseUpdate sized
  · intro ae default held
    rw [(plain_parseTlv isUpdate).defaults ae] at held
    exact sized ae default held

theorem parseTlv_iff (sized : state.Sized) :
    (∀ read ∈ (parseTlv receiver state message len).attributes, read.Complete) ∧
        (∀ update ∈ (parseTlv receiver state message len).omitting, update.Valid) ↔
      (message 0 = 8 → 10 ≤ len → UpdateFine receiver state message len) := by
  by_cases isUpdate : message 0 = 8
  · rw [parseTlv_of_update isUpdate]
    by_cases long : 10 ≤ len
    · rw [parseUpdate_iff sized long]
      exact ⟨fun fine _ _ => fine, fun fine => fine isUpdate long⟩
    · rw [parseUpdate, if_pos (Nat.not_le.mp long)]
      exact iff_of_true ⟨nofun, nofun⟩ fun _ isLong => absurd isLong long
  · have plain : (parseTlv receiver state message len).Plain state := plain_parseTlv isUpdate
    rw [plain.attributes, plain.omitting]
    exact iff_of_true ⟨nofun, nofun⟩ fun update => absurd update isUpdate

end

/-! ## The packet -/

section

variable {receiver : BabelReceiver} {body : Nat → UInt8} {bodylen : Int} {i : Nat}
  {state : ParseState} (packet : PacketReading)

theorem packetLoop_eq (i : Nat) (state : ParseState) (packet : PacketReading) :
    (packetLoop receiver body bodylen).run (i, state, packet) =
      if i < bodylen then
        if body i = 0 then (packetLoop receiver body bodylen).run (i + 1, state, packet)
        else if bodylen < (i + lenAt body i : Nat) then packet
        else (packetLoop receiver body bodylen).run (i + (lenAt body i + 2),
          (tlvAt receiver body state i).state,
          packet.add i (lenAt body i) (tlvAt receiver body state i))
      else packet := by
  rw [Loop.run_eq, show (packetLoop receiver body bodylen).turn = packetTurn receiver body bodylen
    from rfl, packetTurn]
  split_ifs <;> rfl

theorem tlvsFine_iff :
    TlvsFine receiver body bodylen i state ↔
      if i < bodylen then
        if body i = 0 then TlvsFine receiver body bodylen (i + 1) state
        else if bodylen < (i + lenAt body i : Nat) then True
        else (i + (lenAt body i + 2) : Nat) ≤ bodylen ∧
          (body i = 8 → 10 ≤ lenAt body i →
            UpdateFine receiver state (messageAt body i) (lenAt body i)) ∧
          TlvsFine receiver body bodylen (i + (lenAt body i + 2))
            (tlvAt receiver body state i).state
      else True := by
  constructor
  · intro fine
    cases fine with
    | done atEnd => rw [if_neg atEnd]; trivial
    | pad inside isPad rest => rwa [if_pos inside, if_pos isPad]
    | truncated inside notPad tooLong =>
      rw [if_pos inside, if_neg notPad, if_pos tooLong]
      trivial
    | tlv inside notPad complete update rest =>
      rw [if_pos inside, if_neg notPad, if_neg (by omega)]
      exact ⟨complete, update, rest⟩
  · split_ifs with inside isPad tooLong
    · exact .pad inside isPad
    · exact fun _ => .truncated inside isPad tooLong
    · exact fun fine => .tlv inside isPad fine.1 fine.2.1 fine.2.2
    · exact fun _ => .done inside

theorem complete_add_iff (sized : state.Sized) :
    (packet.add i (lenAt body i) (tlvAt receiver body state i)).Complete bodylen ↔
      packet.Complete bodylen ∧ (i + (lenAt body i + 2) : Nat) ≤ bodylen ∧
        (body i = 8 → 10 ≤ lenAt body i →
          UpdateFine receiver state (messageAt body i) (lenAt body i)) := by
  have tlv : _ ↔ (messageAt body i 0 = 8 → 10 ≤ lenAt body i →
      UpdateFine receiver state (messageAt body i) (lenAt body i)) := parseTlv_iff sized
  rw [complete_iff, complete_iff]
  simp only [add, forall_mem_append, forall_mem_singleton]
  tauto

theorem complete_packetLoop_iff (sized : state.Sized) :
    ((packetLoop receiver body bodylen).run (i, state, packet)).Complete bodylen ↔
      packet.Complete bodylen ∧ TlvsFine receiver body bodylen i state := by
  generalize left : bodylen.toNat - i = size
  induction size using Nat.strongRecOn generalizing i state packet with
  | ind size induction =>
    rw [packetLoop_eq, tlvsFine_iff]
    split_ifs with inside isPad tooLong
    · exact induction _ (by omega) packet sized rfl
    · exact (and_iff_left trivial).symm
    · have nextSized : (tlvAt receiver body state i).state.Sized := sized_parseTlv sized
      have shorter : bodylen.toNat - (i + (lenAt body i + 2)) < size := by omega
      rw [induction _ shorter _ nextSized rfl, complete_add_iff packet sized, and_assoc, and_assoc]
    · exact (and_iff_left trivial).symm

theorem actions_of_fine (fine : TlvsFine receiver body bodylen i state) (sized : state.Sized)
    {fuel : Nat} (enough : bodylen.toNat - i ≤ fuel) :
    ((packetLoop receiver body bodylen).run (i, state, packet)).actions =
      packet.actions ++ actionsOf receiver state (completeTlvs body bodylen fuel i) := by
  induction fine generalizing packet fuel with
  | @done i state atEnd =>
    have none : completeTlvs body bodylen fuel i = [] := by
      cases fuel with
      | zero => rfl
      | succ fuel => rw [completeTlvs, if_neg atEnd]
    rw [packetLoop_eq, if_neg atEnd, none, actionsOf, append_nil]
  | @pad i state inside isPad rest induction =>
    cases fuel with
    | zero => omega
    | succ fuel =>
      rw [packetLoop_eq, completeTlvs, if_pos inside, if_pos inside, if_pos isPad, if_pos isPad]
      exact induction packet sized (by omega)
  | @truncated i state inside notPad tooLong =>
    cases fuel with
    | zero => omega
    | succ fuel =>
      rw [packetLoop_eq, completeTlvs, if_pos inside, if_pos inside, if_neg notPad, if_neg notPad,
        if_pos tooLong, if_neg (by omega), actionsOf, append_nil]
  | @tlv i state inside notPad complete update rest induction =>
    cases fuel with
    | zero => omega
    | succ fuel =>
      have isAlone : parseTlv receiver state (alone (octetsAt body i (lenAt body i + 2)))
          ((octetsAt body i (lenAt body i + 2)).length - 2) = tlvAt receiver body state i := by
        rw [length_octetsAt, Nat.add_sub_cancel]
        refine parseTlv_eq ?_ (by simp [alone, octetsAt]) sized update
        intro offset inside
        simp [alone, octetsAt, messageAt, inside]
      rw [packetLoop_eq, completeTlvs, if_pos inside, if_pos inside, if_neg notPad, if_neg notPad,
        if_neg (by omega), if_pos complete, actionsOf, isAlone,
        induction _ (sized_parseTlv sized) (by omega : _ ≤ fuel)]
      exact append_assoc _ _ _

end

theorem sized_atStart (uninitialised : ParseState) : uninitialised.atStart.Sized := by
  intro ae default held
  simp [default?, atStart] at held

/-- The actions depend only on complete TLVs, with complete attributes and valid defaults, exactly
on packets without a TLV or attribute that misses up to two octets and without an update that
omits octets but has no default of its own. -/
theorem parsePacket_sound_iff (receiver : BabelReceiver) (uninitialised : ParseState)
    (packet : Nat → UInt8) (packetlen : Int) :
    Sound receiver uninitialised packet packetlen ↔
      (headerAccepted receiver packet = true →
        TlvsFine receiver (packetBody packet) (bodyLength packet packetlen) 0
          uninitialised.atStart) := by
  have sized := sized_atStart uninitialised
  have start : PacketReading.Complete (bodyLength packet packetlen)
      ⟨[.findNeighbour], [], [], []⟩ := ⟨nofun, nofun, nofun⟩
  by_cases accepted : headerAccepted receiver packet = true
  · refine ⟨?_, ?_⟩
    · rintro ⟨complete, _⟩ _
      rw [parsePacket, if_pos accepted] at complete
      exact ((complete_packetLoop_iff _ sized).mp complete).2
    · intro fine
      refine ⟨?_, ?_⟩
      · rw [parsePacket, if_pos accepted]
        exact (complete_packetLoop_iff _ sized).mpr ⟨start, fine accepted⟩
      · rw [parsePacket, if_pos accepted, if_pos accepted,
          actions_of_fine _ (fine accepted) sized (Nat.le_refl _)]
        rfl
  · refine iff_of_true ?_ fun isAccepted => absurd isAccepted accepted
    refine ⟨?_, ?_⟩
    · rw [parsePacket, if_neg accepted]
      exact ⟨nofun, nofun, nofun⟩
    · rw [parsePacket, if_neg accepted, if_neg accepted]
      rfl

def someReceiver : BabelReceiver where
  address := llPrefixOctets
  isInterfaceLlAddress _ := false
  hasIpv4 := true
  faraway := false

def someBuffers : ParseState :=
  ⟨[], false, v4PrefixOctets, false, [], false, 0, [], false, [], false⟩

/-- The body is the first eight octets of a Hello of ten. -/
def truncatedHello : List UInt8 := [42, 2, 0, 8, 4, 8, 0, 0, 0, 5, 0, 100]

/-- An IPv6 update that sets the default prefix, and an IPv4 update that omits three octets. -/
def foreignDefault : List UInt8 :=
  [42, 2, 0, 24, 8, 10, 2, 128, 0, 0, 0, 0, 0, 0, 0, 0, 8, 10, 1, 0, 24, 3, 0, 0, 0, 0, 0, 0]

/-- The truncated Hello is acted on, and the IPv4 update is accepted without an IPv4 default. -/
theorem parsePacket_unsound :
    ¬ Sound someReceiver someBuffers (truncatedHello.getD · 0) 12 ∧
      ¬ Sound someReceiver someBuffers (foreignDefault.getD · 0) 28 := by
  refine ⟨?_, ?_⟩
  · intro sound
    have actions := sound.actions
    exact absurd actions (by decide +kernel)
  · intro sound
    have accepted : (parsePacket someReceiver someBuffers (foreignDefault.getD · 0) 28).omitting =
        [⟨1, 24, 3, [], none, v4PrefixOctets⟩] := by
      decide +kernel
    have valid := sound.complete.omitting ⟨1, 24, 3, [], none, v4PrefixOctets⟩
      (accepted ▸ mem_singleton_self _)
    rcases valid with ⟨_, held, _⟩
    cases held

end Quagga.Babel
