import Quagga.Bgp.Capability

/-!
# Dynamic capabilities

`bgp_capability_msg_parse`, the loop over the entries of a CAPABILITY message. Its cursor does
not move in every turn, so a run may have no end.
-/

namespace Quagga.Bgp

open Foundation List

variable {octets rest : Bytes}

structure CapabilityPeer where
  afc : FamilyTable
  afcRecv : FamilyTable
  afcNego : FamilyTable
  overrideCapability : Bool

inductive CapabilityEffect where
  /-- `bgp_announce_route` -/
  | announce (afi : Afi) (safi : Safi)
  /-- `bgp_clear_route` -/
  | clear (afi : Afi) (safi : Safi)
  /-- The event `BGP_Stop`. -/
  | stop
deriving Repr, DecidableEq

structure CapabilityEntry where
  action : UInt8
  code : UInt8
  data : Bytes
deriving Repr, DecidableEq

/-- The peer and the calls so far, the entries that have been looked at, and whether octets
behind the body have been read. -/
structure CapabilityProgress where
  peer : CapabilityPeer
  effects : List CapabilityEffect
  examined : List CapabilityEntry
  overread : Bool

def CapabilityProgress.start (peer : CapabilityPeer) : CapabilityProgress := ⟨peer, [], [], false⟩

/-- The family in the four octets that are copied from behind the header of an entry,
whatever the length of the entry. -/
def mpcFamily (memory : Bytes) : Option (Afi × Safi) :=
  bgpAfiSafiValidIndices (readBigEndian ((memory ++ List.replicate 4 0).take 2))
    (memory.getD 3 0).toNat

/-- An entry for a family: `CAPABILITY_ACTION_SET` is 0. -/
def applyMpEntry (action : UInt8) (afi : Afi) (safi : Safi) (progress : CapabilityProgress) :
    CapabilityProgress :=
  let peer := progress.peer
  if action = 0 then
    let recv := { peer with afcRecv := peer.afcRecv.set afi safi true }
    if peer.afc afi safi then
      { progress with
        peer := { recv with afcNego := peer.afcNego.set afi safi true }
        effects := progress.effects ++ [.announce afi safi] }
    else { progress with peer := recv }
  else
    let peer := { peer with
      afcRecv := peer.afcRecv.set afi safi false
      afcNego := peer.afcNego.set afi safi false }
    let active := families.any fun family => peer.afcNego family.1 family.2
    { progress with
      peer := peer
      effects := progress.effects ++ [if active then .clear afi safi else .stop] }

/-- One turn. The loop is left with whether a NOTIFICATION is sent. `beyond` is what follows
the body in the buffer. -/
def capabilityMsgTurn (beyond : Bytes) (progress : CapabilityProgress) (octets : Bytes) :
    Turn (CapabilityProgress × Bytes) (CapabilityProgress × Bool) :=
  match octets with
  | [] => .leave (progress, false)
  | action :: code :: length :: data =>
    if action ≠ 0 ∧ action ≠ 1 then .leave (progress, true)
    else if data.length < length.toNat then .leave (progress, true)
    else
      let progress := { progress with
        examined := progress.examined ++ [⟨action, code, data.take length.toNat⟩]
        overread := progress.overread || data.length < 4 }
      if code = capabilityCodeMp then
        -- both `continue`s of the loop leave the cursor where it is
        if progress.peer.overrideCapability then .next (progress, octets)
        else match mpcFamily (data ++ beyond) with
          | none => .next (progress, octets)
          | some (afi, safi) =>
            .next (applyMpEntry action afi safi progress, data.drop length.toNat)
      else .next (progress, data.drop length.toNat)
  | _ => .leave (progress, true)

/-- The loop for a number of turns. `none`: it has not ended. -/
def bgpCapabilityMsgParse (beyond : Bytes) :
    Nat → CapabilityProgress → Bytes → Option (CapabilityProgress × Bool)
  | 0, _, _ => none
  | fuel + 1, progress, octets =>
    match capabilityMsgTurn beyond progress octets with
    | .leave result => some result
    | .next (progress, octets) => bgpCapabilityMsgParse beyond fuel progress octets

/-! ## Entries -/

/-- A well-formed entry: an action, a code, a length and as many octets. -/
def readCapabilityEntry : Bytes → Option (CapabilityEntry × Bytes)
  | action :: code :: length :: data =>
    if action ≠ 0 ∧ action ≠ 1 ∨ data.length < length.toNat then none
    else some (⟨action, code, data.take length.toNat⟩, data.drop length.toNat)
  | _ => none

variable {entry : CapabilityEntry}

theorem readCapabilityEntry_some (result : readCapabilityEntry octets = some (entry, rest)) :
    ∃ length data, octets = entry.action :: entry.code :: length :: data ∧
      ¬ (entry.action ≠ 0 ∧ entry.action ≠ 1) ∧ length.toNat ≤ data.length ∧
      entry.data = data.take length.toNat ∧ rest = data.drop length.toNat := by
  match octets, result with
  | action :: code :: length :: data, result =>
    simp only [readCapabilityEntry] at result
    split at result
    · cases result
    · rename_i fits
      cases result
      rw [not_or] at fits
      exact ⟨length, data, rfl, fits.1, Nat.le_of_not_lt fits.2, rfl, rfl⟩

def capabilityReader : RecordReader UInt8 CapabilityEntry where
  read := readCapabilityEntry
  progress := by
    intro input entry rest result
    rcases readCapabilityEntry_some result with ⟨length, data, rfl, _, _, _, rfl⟩
    rw [length_drop]
    exact (Nat.sub_le _ _).trans_lt (Nat.lt_add_of_pos_right (Nat.succ_pos 2))
  extends_input := by
    intro input entry rest more result
    rcases readCapabilityEntry_some result with ⟨length, data, rfl, action, enough, isData, rfl⟩
    have fits : ¬ ((entry.action ≠ 0 ∧ entry.action ≠ 1) ∨
        (data ++ more).length < length.toNat) := by
      rw [not_or, length_append]
      exact ⟨action, Nat.not_lt.mpr (Nat.le_add_right_of_le enough)⟩
    simp only [cons_append, readCapabilityEntry, if_neg fits,
      take_append_of_le_length enough, drop_append_of_le_length enough, ← isData]

/-- Seven octets are left, and a family that the loop knows stands in the last four of them
if the entry is about one. -/
def EntryMoves (beyond : Bytes) (overrideCapability : Bool) (octets : Bytes) : Prop :=
  7 ≤ octets.length ∧
    ¬ (octets.getD 1 0 = capabilityCodeMp ∧
      (overrideCapability = true ∨ mpcFamily (octets.drop 3 ++ beyond) = none))

instance (beyond : Bytes) (overrideCapability : Bool) (octets : Bytes) :
    Decidable (EntryMoves beyond overrideCapability octets) :=
  inferInstanceAs (Decidable (_ ∧ _))

variable (beyond : Bytes)

theorem turn_of_unreadable (result : capabilityReader.read octets = none)
    (progress : CapabilityProgress) :
    capabilityMsgTurn beyond progress octets = .leave (progress, !octets.isEmpty) := by
  have unreadable : readCapabilityEntry octets = none := result
  match octets, unreadable with
  | [], _ => rfl
  | [_], _ => rfl
  | [_, _], _ => rfl
  | action :: code :: length :: data, unreadable =>
    simp only [readCapabilityEntry] at unreadable
    simp only [capabilityMsgTurn]
    split at unreadable
    · rename_i malformed
      split
      · rfl
      · rename_i action
        rw [if_pos (malformed.resolve_left action)]
        rfl
    · cases unreadable

@[simp] theorem applyMpEntry_keeps (action : UInt8) (afi : Afi) (safi : Safi)
    (progress : CapabilityProgress) :
    (applyMpEntry action afi safi progress).examined = progress.examined ∧
      (applyMpEntry action afi safi progress).overread = progress.overread ∧
      (applyMpEntry action afi safi progress).peer.overrideCapability =
        progress.peer.overrideCapability := by
  unfold applyMpEntry
  dsimp only
  split_ifs <;> exact ⟨rfl, rfl, rfl⟩

theorem turn_of_read (result : capabilityReader.read octets = some (entry, rest))
    (progress : CapabilityProgress) :
    ∃ next, capabilityMsgTurn beyond progress octets = .next (next,
        if entry.code = capabilityCodeMp ∧ (progress.peer.overrideCapability = true ∨
          mpcFamily (octets.drop 3 ++ beyond) = none) then octets else rest) ∧
      next.examined = progress.examined ++ [entry] ∧
      next.overread = (progress.overread || decide (octets.length < 7)) ∧
      next.peer.overrideCapability = progress.peer.overrideCapability := by
  rcases readCapabilityEntry_some result with ⟨length, data, rfl, action, enough, isData, rfl⟩
  have reads : (decide (data.length < 4)) =
      decide ((entry.action :: entry.code :: length :: data).length < 7) := by
    simp only [length_cons]
    congr 1
    rw [eq_iff_iff]
    omega
  have sameEntry : (⟨entry.action, entry.code, data.take length.toNat⟩ : CapabilityEntry) =
      entry := by
    rw [← isData]
  let noted : CapabilityProgress := { progress with
    examined := progress.examined ++ [entry]
    overread := progress.overread || decide (data.length < 4) }
  have isNoted : noted.overread = (progress.overread ||
      decide ((entry.action :: entry.code :: length :: data).length < 7)) := by
    rw [← reads]
  simp only [capabilityMsgTurn, if_neg action, if_neg (Nat.not_lt.mpr enough), sameEntry,
    drop_succ_cons, drop_zero]
  by_cases isMp : entry.code = capabilityCodeMp
  · cases overrides : progress.peer.overrideCapability with
    | true => exact ⟨noted, by simp [isMp, noted], rfl, isNoted, overrides⟩
    | false =>
      cases family : mpcFamily (data ++ beyond) with
      | none => exact ⟨noted, by simp [isMp, noted], rfl, isNoted, overrides⟩
      | some pair =>
        exact ⟨applyMpEntry entry.action pair.1 pair.2 noted, by simp [isMp, noted],
          by simp [noted], by simp [isNoted], by simp [noted, overrides]⟩
  · exact ⟨noted, by simp [isMp, noted], rfl, isNoted, rfl⟩

theorem parse_of_stuck (result : capabilityReader.read octets = some (entry, rest))
    (isMp : entry.code = capabilityCodeMp) (fuel : Nat) (progress : CapabilityProgress)
    (passed : progress.peer.overrideCapability = true ∨
      mpcFamily (octets.drop 3 ++ beyond) = none) :
    bgpCapabilityMsgParse beyond fuel progress octets = none := by
  induction fuel generalizing progress with
  | zero => rfl
  | succ fuel induction =>
    rcases turn_of_read beyond result progress with ⟨next, turn, _, _, overrides⟩
    rw [if_pos ⟨isMp, passed⟩] at turn
    simp only [bgpCapabilityMsgParse, turn]
    exact induction next (overrides ▸ passed)

theorem parse_overread {fuel : Nat} {progress final : CapabilityProgress} {notified : Bool}
    (parsed : bgpCapabilityMsgParse beyond fuel progress octets = some (final, notified))
    (overread : progress.overread = true) : final.overread = true := by
  induction fuel generalizing progress octets with
  | zero => cases parsed
  | succ fuel induction =>
    simp only [bgpCapabilityMsgParse] at parsed
    cases result : capabilityReader.read octets with
    | none =>
      rw [turn_of_unreadable beyond result] at parsed
      cases parsed
      exact overread
    | some pair =>
      rcases turn_of_read beyond result progress with ⟨next, turn, _, reads, _⟩
      rw [turn] at parsed
      exact induction parsed (by rw [reads, overread, Bool.true_or])

/-- The loop ends, has looked at the well-formed entries once and in their order, has read no
octet behind the body, and sends a NOTIFICATION unless the body consists of them. -/
def ProcessedWith (beyond : Bytes) (progress : CapabilityProgress) (octets : Bytes) : Prop :=
  ∃ fuel final notified,
    bgpCapabilityMsgParse beyond fuel progress octets = some (final, notified) ∧
      final.examined = progress.examined ++ (capabilityReader.records octets).1 ∧
      notified = !(capabilityReader.records octets).2 ∧ final.overread = false

theorem processedWith_iff (octets : Bytes) (progress : CapabilityProgress)
    (within : progress.overread = false) :
    ProcessedWith beyond progress octets ↔
      ∀ rest ∈ capabilityReader.starts octets,
        EntryMoves beyond progress.peer.overrideCapability rest := by
  induction octets using capabilityReader.records_induction generalizing progress with
  | stops octets result =>
    have records : capabilityReader.records octets = ([], octets.isEmpty) := by
      cases octets with
      | nil => rfl
      | cons head tail => exact capabilityReader.records_of_unreadable (cons_ne_nil _ _) result
    rw [capabilityReader.starts_of_unreadable result]
    refine iff_of_true ⟨1, progress, !octets.isEmpty, ?_, ?_, ?_, within⟩ nofun
    · simp only [bgpCapabilityMsgParse, turn_of_unreadable beyond result]
    · rw [records, append_nil]
    · rw [records]
  | goesOn octets entry rest result induction =>
    rcases turn_of_read beyond result progress with
      ⟨next, turn, examined, reads, overrides⟩
    have code : octets.getD 1 0 = entry.code := by
      rcases readCapabilityEntry_some result with ⟨length, data, rfl, _⟩
      rfl
    rw [capabilityReader.starts_of_read result, forall_mem_cons, EntryMoves, code]
    by_cases passed : entry.code = capabilityCodeMp ∧
        (progress.peer.overrideCapability = true ∨ mpcFamily (octets.drop 3 ++ beyond) = none)
    · -- the cursor stays at this entry
      apply iff_of_false
      · rintro ⟨fuel, final, notified, parsed, _⟩
        rw [parse_of_stuck beyond result passed.1 fuel progress passed.2] at parsed
        cases parsed
      · intro moves
        exact moves.1.2 passed
    · rw [if_neg passed] at turn
      by_cases long : 7 ≤ octets.length
      · have stillWithin : next.overread = false := by
          rw [reads, within, Bool.false_or, decide_eq_false_iff_not]
          exact Nat.not_lt.mpr long
        rw [and_iff_right ⟨long, passed⟩, ← overrides, ← induction next stillWithin,
          ProcessedWith, ProcessedWith, capabilityReader.records_of_read result]
        simp only [examined, append_assoc]
        constructor
        · rintro ⟨fuel, final, notified, parsed, holds⟩
          cases fuel with
          | zero => cases parsed
          | succ fuel =>
            simp only [bgpCapabilityMsgParse, turn] at parsed
            exact ⟨fuel, final, notified, parsed, holds⟩
        · rintro ⟨fuel, final, notified, parsed, holds⟩
          refine ⟨fuel + 1, final, notified, ?_, holds⟩
          simp only [bgpCapabilityMsgParse, turn]
          exact parsed
      · -- four octets are copied from where there are fewer
        apply iff_of_false
        · rintro ⟨fuel, final, notified, parsed, _, _, notOverread⟩
          cases fuel with
          | zero => cases parsed
          | succ fuel =>
            simp only [bgpCapabilityMsgParse, turn] at parsed
            have overread : next.overread = true := by
              rw [reads, decide_eq_true (Nat.lt_of_not_le long), Bool.or_true]
            rw [parse_overread beyond parsed overread] at notOverread
            cases notOverread
        · intro moves
          exact long moves.1.1

/-- A CAPABILITY message is processed exactly where at each of its well-formed entries seven
octets are left, and none is about a family while capabilities are overridden, or about one
that is not known. -/
theorem capability_processed_iff (beyond : Bytes) (peer : CapabilityPeer) (body : Bytes) :
    ProcessedWith beyond (.start peer) body ↔
      ∀ rest ∈ capabilityReader.starts body, EntryMoves beyond peer.overrideCapability rest :=
  processedWith_iff beyond body (.start peer) rfl

def unicastPeer : CapabilityPeer where
  afc := FamilyTable.empty.set .ip .unicast true
  afcRecv := .empty
  afcNego := .empty
  overrideCapability := false

/-- IPv4 unicast is set, by one entry. -/
theorem unicastEntry_processed : ProcessedWith [] (.start unicastPeer) [0, 1, 4, 0, 1, 0, 1] :=
  (capability_processed_iff [] unicastPeer [0, 1, 4, 0, 1, 0, 1]).mpr (by decide +kernel)

/-- An entry for an unknown family is looked at for ever. -/
theorem unknownFamily_not_processed :
    ¬ ∃ fuel, (bgpCapabilityMsgParse [] fuel (.start unicastPeer)
      [0, 1, 4, 0, 3, 0, 1]).isSome = true := by
  rintro ⟨fuel, ended⟩
  have read : capabilityReader.read [0, 1, 4, 0, 3, 0, 1] = some (⟨0, 1, [0, 3, 0, 1]⟩, []) := by
    decide +kernel
  rw [parse_of_stuck [] read rfl fuel _ (.inr (by decide +kernel))] at ended
  cases ended

end Quagga.Bgp
