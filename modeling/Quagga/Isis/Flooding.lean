import Mathlib.Data.Finset.Insert
import Mathlib.Data.Finset.Erase

/-!
# Flooding

What `process_lsp` does with a link state PDU, and what two routers hold after each of them
has been sent the instance that the other held. The checks of a PDU that do not look at the
database are inputs.
-/

namespace Quagga.Isis

structure LspId where
  sysid : List UInt8
  pseudoId : UInt8
  fragment : UInt8
deriving DecidableEq

def LspId.zeroLsp (id : LspId) : LspId :=
  { id with fragment := 0 }

structure LinkStateHdr where
  remLifetime : UInt16
  lspId : LspId
  seqNum : UInt32
  checksum : UInt16
  lspBits : UInt8
deriving DecidableEq

structure IsisLsp where
  header : LinkStateHdr
  ownLsp : Bool
  srmFlags : Finset ℕ
  ssnFlags : Finset ℕ

inductive LspComparison
  | equal
  | newer
  | older
deriving DecidableEq

/-- How an instance compares to the one that is held, as `lsp_compare` has it. -/
def lspCompare (held sent : LinkStateHdr) : LspComparison :=
  if held.seqNum = sent.seqNum ∧ held.checksum = sent.checksum ∧
      (held.remLifetime = 0 ∧ sent.remLifetime = 0 ∨
        held.remLifetime ≠ 0 ∧ sent.remLifetime ≠ 0) then .equal
  else if held.seqNum ≤ sent.seqNum then .newer
  else .older

/-- A link state database. An LSP is found under its own id. -/
structure Lspdb where
  lspSearch : LspId → Option IsisLsp
  named : ∀ id lsp, lspSearch id = some lsp → lsp.header.lspId = id

namespace Lspdb

def delete (db : Lspdb) (id : LspId) : Lspdb where
  lspSearch other := if other = id then none else db.lspSearch other
  named := by
    intro other lsp found
    split at found
    · cases found
    · exact db.named other lsp found

def lspInsert (db : Lspdb) (lsp : IsisLsp) : Lspdb where
  lspSearch other := if other = lsp.header.lspId then some lsp else db.lspSearch other
  named := by
    intro other found result
    split at result
    · rename_i same
      cases result
      exact same.symm
    · exact db.named other found result

end Lspdb

inductive IsisLevel
  | level1
  | level2
deriving DecidableEq

inductive CircuitType
  | broadcast
  | p2p
deriving DecidableEq

inductive IsisReturn
  | ok
  | warning
deriving DecidableEq

structure IsisArea where
  sysid : List UInt8
  circuits : Finset ℕ
  lspdb : IsisLevel → Lspdb

/-- A PDU as it comes in. `valid` is the outcome of the checks of its length, checksum, domain,
level and password, and `refused` what is returned for want of an adjacency. -/
structure ReceivedLsp where
  level : IsisLevel
  circuit : ℕ
  circType : CircuitType
  header : LinkStateHdr
  valid : Bool
  refused : Option IsisReturn

namespace IsisArea

variable (area : IsisArea)

def search (level : IsisLevel) (id : LspId) : Option IsisLsp := (area.lspdb level).lspSearch id

def withLspdb (level : IsisLevel) (db : Lspdb) : IsisArea :=
  { area with lspdb := fun other => if other = level then db else area.lspdb other }

def lspInsert (level : IsisLevel) (lsp : IsisLsp) : IsisArea :=
  area.withLspdb level ((area.lspdb level).lspInsert lsp)

/-- `lsp_update` takes the LSP out under its old id and puts it back under its new one. -/
def lspUpdate (level : IsisLevel) (old new : IsisLsp) : IsisArea :=
  area.withLspdb level (((area.lspdb level).delete old.header.lspId).lspInsert new)

def lspPurgeNonExist (header : LinkStateHdr) : IsisArea :=
  area.lspInsert (if header.lspBits &&& 3 = 1 then .level1 else .level2)
    { header := { header with remLifetime := 0 }, ownLsp := false,
      srmFlags := area.circuits, ssnFlags := ∅ }

end IsisArea

namespace IsisLsp

def setAllSrmFlags (area : IsisArea) (lsp : IsisLsp) : IsisLsp :=
  { lsp with srmFlags := area.circuits }

def confirm (received : ReceivedLsp) (lsp : IsisLsp) : IsisLsp :=
  { lsp with
    srmFlags := lsp.srmFlags.erase received.circuit
    ssnFlags := if received.circType = .broadcast then lsp.ssnFlags
      else insert received.circuit lsp.ssnFlags }

def resend (received : ReceivedLsp) (lsp : IsisLsp) : IsisLsp :=
  { lsp with
    srmFlags := insert received.circuit lsp.srmFlags
    ssnFlags := lsp.ssnFlags.erase received.circuit }

/-- `fletcher` is the checksum of the LSP with its new number and authentication. -/
def lspIncSeqnum (fletcher : IsisLsp → UInt16) (seqNum : UInt32) (lsp : IsisLsp) : IsisLsp :=
  let next :=
    if seqNum = 0 ∨ seqNum < lsp.header.seqNum then lsp.header.seqNum + 1 else seqNum + 1
  let renewed := { lsp with header := { lsp.header with seqNum := next } }
  { renewed with header := { renewed.header with checksum := fletcher renewed } }

end IsisLsp

section

variable (fletcher : IsisLsp → UInt16) (area : IsisArea) (received : ReceivedLsp)

/-- A fragment is taken in only where the LSP that it belongs to is held. -/
def lacksZeroLsp : Bool :=
  received.header.lspId.fragment ≠ 0 ∧
    (area.search received.level received.header.lspId.zeroLsp).isNone

/-- A PDU of no lifetime, for an LSP that is held. -/
def processPurge (lsp : IsisLsp) : IsisArea :=
  let comparison := lspCompare lsp.header received.header
  if received.header.lspId.sysid ≠ area.sysid then
    match comparison with
    | .newer =>
      let updated := { lsp with header := received.header, ssnFlags := ∅ }
      area.lspUpdate received.level lsp ((updated.setAllSrmFlags area).confirm received)
    | .equal => area.lspInsert received.level (lsp.confirm received)
    | .older => area.lspInsert received.level (lsp.resend received)
  else if lsp.header.remLifetime ≠ 0 then
    match comparison with
    | .newer =>
      let renewed := lsp.lspIncSeqnum fletcher received.header.seqNum
      area.lspInsert received.level (renewed.setAllSrmFlags area)
    | _ => area.lspInsert received.level (lsp.resend received)
  else area

/-- A PDU with a lifetime for an LSP of another system that is held. -/
def processHeld (lsp : IsisLsp) : IsisArea :=
  let updated := { lsp with header := received.header }
  match lspCompare lsp.header received.header with
  | .newer =>
    if lacksZeroLsp area received then area
    else area.lspUpdate received.level lsp ((updated.setAllSrmFlags area).confirm received)
  | .equal => area.lspUpdate received.level lsp (updated.confirm received)
  | .older => area.lspInsert received.level (lsp.resend received)

/-- A PDU with a lifetime for an LSP of this system that is held. -/
def processOwn (lsp : IsisLsp) : IsisArea :=
  let kept :=
    if lsp.header.seqNum < received.header.seqNum then
      lsp.lspIncSeqnum fletcher received.header.seqNum
    else lsp
  area.lspInsert received.level (kept.setAllSrmFlags area)

/-- A PDU of an LSP that is not held. A purge of it is acknowledged only. -/
def processUnknown : IsisArea :=
  if received.header.remLifetime = 0 then area
  else if received.header.lspId.sysid = area.sysid then area.lspPurgeNonExist received.header
  else if lacksZeroLsp area received then area
  else
    let lsp : IsisLsp :=
      { header := received.header, ownLsp := false, srmFlags := ∅, ssnFlags := ∅ }
    area.lspInsert received.level ((lsp.setAllSrmFlags area).confirm received)

def processChecked : IsisArea :=
  match area.search received.level received.header.lspId with
  | none => processUnknown area received
  | some lsp =>
    if received.header.remLifetime = 0 then processPurge fletcher area received lsp
    else if received.header.lspId.sysid = area.sysid then processOwn fletcher area received lsp
    else processHeld area received lsp

/-- The adjacency does not matter for LSPs of the system itself. -/
def processLsp : IsisArea × IsisReturn :=
  let held := area.search received.level received.header.lspId
  if received.valid = false then (area, .warning)
  else if held.any IsisLsp.ownLsp then (processChecked fletcher area received, .ok)
  else match received.refused with
    | some result => (area, result)
    | none => (processChecked fletcher area received, .ok)

end

/-! ## What a router holds -/

structure SameInstance (first second : LinkStateHdr) : Prop where
  seqNum : first.seqNum = second.seqNum
  checksum : first.checksum = second.checksum
  remLifetime : first.remLifetime = 0 ↔ second.remLifetime = 0

theorem SameInstance.symm {first second : LinkStateHdr} (same : SameInstance first second) :
    SameInstance second first := by
  exact ⟨same.seqNum.symm, same.checksum.symm, same.remLifetime.symm⟩

theorem SameInstance.trans {first second third : LinkStateHdr} (same : SameInstance first second)
    (next : SameInstance second third) : SameInstance first third := by
  exact ⟨same.seqNum.trans next.seqNum, same.checksum.trans next.checksum,
    same.remLifetime.trans next.remLifetime⟩

def IsisArea.instanceOf (area : IsisArea) (level : IsisLevel) (id : LspId) : Option LinkStateHdr :=
  (area.search level id).map IsisLsp.header

/-- A purge is stored in any case, and an LSP unless it is a fragment that belongs to none. -/
def IsisArea.Stores (area : IsisArea) (level : IsisLevel) (header : LinkStateHdr) : Prop :=
  header.remLifetime = 0 ∨ header.lspId.fragment = 0 ∨
    (area.search level header.lspId.zeroLsp).isSome

theorem sameInstance_iff (held sent : LinkStateHdr) :
    SameInstance held sent ↔ held.seqNum = sent.seqNum ∧ held.checksum = sent.checksum ∧
      (held.remLifetime = 0 ∧ sent.remLifetime = 0 ∨
        held.remLifetime ≠ 0 ∧ sent.remLifetime ≠ 0) := by
  apply Iff.intro
  · intro same
    have lifetimes := same.remLifetime
    exact ⟨same.seqNum, same.checksum, by tauto⟩
  · intro equal
    exact ⟨equal.1, equal.2.1, by tauto⟩

theorem lspCompare_of_same {held sent : LinkStateHdr} (same : SameInstance held sent) :
    lspCompare held sent = .equal := by
  exact if_pos ((sameInstance_iff held sent).mp same)

theorem lspCompare_of_not_same {held sent : LinkStateHdr} (differ : ¬ SameInstance held sent) :
    lspCompare held sent = if held.seqNum ≤ sent.seqNum then .newer else .older := by
  exact if_neg fun equal => differ ((sameInstance_iff held sent).mpr equal)

section

variable {area : IsisArea} {level : IsisLevel} {old new lsp : IsisLsp} {id : LspId}

theorem instanceOf_lspInsert (named : lsp.header.lspId = id) :
    (area.lspInsert level lsp).instanceOf level id = some lsp.header := by
  simp [IsisArea.instanceOf, IsisArea.search, IsisArea.lspInsert, IsisArea.withLspdb,
    Lspdb.lspInsert, named]

theorem instanceOf_lspUpdate (named : new.header.lspId = id) :
    (area.lspUpdate level old new).instanceOf level id = some new.header := by
  simp [IsisArea.instanceOf, IsisArea.search, IsisArea.lspUpdate, IsisArea.withLspdb,
    Lspdb.lspInsert, named]

end

/-- An instance is sent to a router that holds one already, of an LSP of another system, and
passes the checks. -/
structure Sent (area : IsisArea) (held : IsisLsp) (received : ReceivedLsp) : Prop where
  found : area.search received.level received.header.lspId = some held
  foreign : received.header.lspId.sysid ≠ area.sysid
  valid : received.valid = true
  adjacent : received.refused = none

/-- The instance that is sent takes the place of another one that is held. -/
def Adopts (area : IsisArea) (held : IsisLsp) (received : ReceivedLsp) : Prop :=
  held.header.seqNum ≤ received.header.seqNum ∧ area.Stores received.level received.header

namespace Sent

variable {area : IsisArea} {held : IsisLsp} {received : ReceivedLsp}

theorem named (sent : Sent area held received) : held.header.lspId = received.header.lspId :=
  (area.lspdb received.level).named _ _ sent.found

theorem processLsp_eq (sent : Sent area held received) (fletcher : IsisLsp → UInt16) :
    (processLsp fletcher area received).1 =
      if received.header.remLifetime = 0 then processPurge fletcher area received held
      else processHeld area received held := by
  simp [processLsp, processChecked, sent.found, sent.valid, sent.adjacent, sent.foreign]

theorem instanceOf_of_same (sent : Sent area held received) (fletcher : IsisLsp → UInt16)
    (same : SameInstance held.header received.header) :
    ∃ header, SameInstance header received.header ∧
      (processLsp fletcher area received).1.instanceOf received.level received.header.lspId =
        some header := by
  have equal := lspCompare_of_same same
  rw [sent.processLsp_eq]
  split
  · rw [processPurge, if_pos sent.foreign, equal]
    exact ⟨held.header, same, instanceOf_lspInsert sent.named⟩
  · rw [processHeld, equal]
    exact ⟨received.header, ⟨rfl, rfl, Iff.rfl⟩, instanceOf_lspUpdate rfl⟩

theorem lacksZeroLsp_iff (lives : received.header.remLifetime ≠ 0) :
    lacksZeroLsp area received = true ↔ ¬ area.Stores received.level received.header := by
  simp [lacksZeroLsp, IsisArea.Stores, lives]

theorem instanceOf_of_not_same (sent : Sent area held received) (fletcher : IsisLsp → UInt16)
    (differ : ¬ SameInstance held.header received.header) [Decidable (Adopts area held received)] :
    (processLsp fletcher area received).1.instanceOf received.level received.header.lspId =
      some (if Adopts area held received then received.header else held.header) := by
  have compared := lspCompare_of_not_same differ
  rw [sent.processLsp_eq]
  by_cases newer : held.header.seqNum ≤ received.header.seqNum
  · rw [if_pos newer] at compared
    by_cases purge : received.header.remLifetime = 0
    · rw [if_pos purge, if_pos ⟨newer, .inl purge⟩, processPurge, if_pos sent.foreign, compared]
      exact instanceOf_lspUpdate rfl
    · rw [if_neg purge, processHeld, compared]
      by_cases lacks : lacksZeroLsp area received = true
      · have refused := (lacksZeroLsp_iff purge).mp lacks
        simp only [lacks, if_pos, if_neg fun adopts : Adopts area held received => refused adopts.2]
        rw [IsisArea.instanceOf, sent.found]
        rfl
      · have stores := not_not.mp ((lacksZeroLsp_iff purge).not.mp lacks)
        simp only [lacks, if_pos (show Adopts area held received from ⟨newer, stores⟩)]
        exact instanceOf_lspUpdate rfl
  · rw [if_neg newer] at compared
    rw [if_neg fun adopts : Adopts area held received => newer adopts.1]
    split
    · rw [processPurge, if_pos sent.foreign, compared]
      exact instanceOf_lspInsert sent.named
    · rw [processHeld, compared]
      exact instanceOf_lspInsert sent.named

end Sent

/-! ## Agreement -/

/-- Two routers that hold an LSP of a third system are sent the instances of each other. -/
structure Exchange where
  here : IsisArea
  there : IsisArea
  hereHeld : IsisLsp
  thereHeld : IsisLsp
  toHere : ReceivedLsp
  toThere : ReceivedLsp
  sentHere : Sent here hereHeld toHere
  sentThere : Sent there thereHeld toThere
  level : toHere.level = toThere.level
  fromThere : toHere.header = thereHeld.header
  fromHere : toThere.header = hereHeld.header

def Exchange.Agrees (fletcher : IsisLsp → UInt16) (exchange : Exchange) : Prop :=
  ∃ first second, SameInstance first second ∧
    (processLsp fletcher exchange.here exchange.toHere).1.instanceOf exchange.toHere.level
      exchange.toHere.header.lspId = some first ∧
    (processLsp fletcher exchange.there exchange.toThere).1.instanceOf exchange.toThere.level
      exchange.toThere.header.lspId = some second

/-- Two instances of one number that differ are each taken for the newer one, so the routers
swap them. -/
theorem exchange_agrees_iff (fletcher : IsisLsp → UInt16) (exchange : Exchange) :
    exchange.Agrees fletcher ↔
      SameInstance exchange.hereHeld.header exchange.thereHeld.header ∨
        (Adopts exchange.here exchange.hereHeld exchange.toHere ↔
          ¬ Adopts exchange.there exchange.thereHeld exchange.toThere) := by
  classical
  rcases exchange with ⟨here, there, hereHeld, thereHeld, toHere, toThere, sentHere, sentThere,
    level, fromThere, fromHere⟩
  by_cases same : SameInstance hereHeld.header thereHeld.header
  · rcases sentHere.instanceOf_of_same fletcher (fromThere ▸ same) with
      ⟨first, sameFirst, holdsFirst⟩
    rcases sentThere.instanceOf_of_same fletcher (fromHere ▸ same.symm) with
      ⟨second, sameSecond, holdsSecond⟩
    rw [fromThere] at sameFirst
    rw [fromHere] at sameSecond
    have agree := (sameFirst.trans same.symm).trans sameSecond.symm
    exact iff_of_true ⟨first, second, agree, holdsFirst, holdsSecond⟩ (.inl same)
  · have holdsFirst := sentHere.instanceOf_of_not_same fletcher (fromThere ▸ same)
    have holdsSecond := sentThere.instanceOf_of_not_same fletcher
      (fromHere ▸ fun swapped => same swapped.symm)
    have swapped : ¬ SameInstance thereHeld.header hereHeld.header := fun swap => same swap.symm
    have refl : ∀ header, SameInstance header header := fun _ => ⟨rfl, rfl, Iff.rfl⟩
    unfold Exchange.Agrees
    simp only [holdsFirst, holdsSecond]
    rw [fromThere, fromHere]
    by_cases first : Adopts here hereHeld toHere <;>
      by_cases second : Adopts there thereHeld toThere <;>
      simp [first, second, same, swapped, refl]

def thirdLsp (checksum : UInt16) : IsisLsp where
  header := ⟨1200, ⟨[0, 0, 0, 0, 0, 3], 0, 0⟩, 5, checksum, 1⟩
  ownLsp := false
  srmFlags := ∅
  ssnFlags := ∅

def holderOf (lsp : IsisLsp) (number : UInt8) : IsisArea where
  sysid := [0, 0, 0, 0, 0, number]
  circuits := ∅
  lspdb _ := Lspdb.lspInsert ⟨fun _ => none, by simp⟩ lsp

def thirdReceived (checksum : UInt16) : ReceivedLsp :=
  ⟨.level1, 0, .p2p, (thirdLsp checksum).header, true, none⟩

def twoChecksums : Exchange where
  here := holderOf (thirdLsp 1) 1
  there := holderOf (thirdLsp 2) 2
  hereHeld := thirdLsp 1
  thereHeld := thirdLsp 2
  toHere := thirdReceived 2
  toThere := thirdReceived 1
  sentHere := ⟨rfl, by decide, rfl, rfl⟩
  sentThere := ⟨rfl, by decide, rfl, rfl⟩
  level := rfl
  fromThere := rfl
  fromHere := rfl

theorem twoChecksums_swapped : ¬ twoChecksums.Agrees fun _ => 0 := by
  rintro ⟨first, second, same, holdsFirst, holdsSecond⟩
  have firstIs : (thirdLsp 2).header = first := Option.some.inj holdsFirst
  have secondIs : (thirdLsp 1).header = second := Option.some.inj holdsSecond
  have checksums := same.checksum
  rw [← firstIs, ← secondIs] at checksums
  exact absurd checksums (by decide)

end Quagga.Isis
