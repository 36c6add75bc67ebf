import Quagga.Isis.Flooding
import Mathlib.Data.List.Nodup

/-!
# Missing LSPs of a CSNP

A CSNP lists the LSPs that its sender holds between two ids. What the receiver holds in that
range and the sender does not report is to be sent.
-/

namespace Quagga.Isis

open List

variable {lsps : List IsisLsp} {lsp other : IsisLsp} {last? : Option ℕ}

/-- The octets of an id as one number. `lsp_id_cmp` is `memcmp`, which orders octets so. -/
def LspId.number (id : LspId) : ℕ :=
  (id.sysid ++ [id.pseudoId, id.fragment]).foldl (fun number octet => 256 * number + octet.toNat) 0

def IsisLsp.number (lsp : IsisLsp) : ℕ := lsp.header.lspId.number

/-- The nodes of the tree in their order. -/
structure LspDict where
  lsps : List IsisLsp
  ordered : lsps.Pairwise (·.number < ·.number)

namespace LspDict

def put (db : LspDict) (lsp : IsisLsp) : LspDict where
  lsps := db.lsps.filter (·.number < lsp.number) ++ lsp :: db.lsps.filter (lsp.number < ·.number)
  ordered := by
    simp only [List.pairwise_append, List.pairwise_cons, List.mem_cons, List.mem_filter,
      decide_eq_true_iff]
    exact ⟨db.ordered.filter _, ⟨fun _ above => above.2, db.ordered.filter _⟩, by grind⟩

theorem mem_put_of_ne {db : LspDict} (different : other.number ≠ lsp.number) :
    other ∈ (db.put lsp).lsps ↔ other ∈ db.lsps := by
  simp only [put, mem_append, mem_cons, mem_filter, decide_eq_true_iff]
  grind

/-- The walk from the node after the first. It ends behind the last node, or at the end of the
tree if it does not meet that one. -/
def upTo (last? : Option ℕ) : List IsisLsp → List IsisLsp
  | [] => []
  | curr :: rest => curr :: if some curr.number = last? then [] else upTo last? rest

/-- `dict_lower_bound` is the first node of `start` or above, and `dict_upper_bound` the last one
of `stop` or below. -/
def lspBuildListNonzeroHt (db : LspDict) (start stop : ℕ) : List IsisLsp :=
  match db.lsps.filter (start ≤ ·.number) with
  | [] => []
  | first :: rest =>
    let last? := (db.lsps.filter (·.number ≤ stop)).getLast?
    (first :: upTo (last?.map IsisLsp.number) rest).filter (·.header.remLifetime ≠ 0)

def Holds (db : LspDict) (number : ℕ) : Prop := ∃ lsp ∈ db.lsps, lsp.number = number

theorem holds_put {db : LspDict} {number : ℕ} :
    (db.put lsp).Holds number ↔ db.Holds number ∨ lsp.number = number := by
  simp only [Holds, put, mem_append, mem_cons, mem_filter, decide_eq_true_iff]
  grind

/-- The range holds more than one LSP. -/
def HoldsTwo (db : LspDict) (start stop : ℕ) : Prop :=
  ∃ one ∈ db.lsps, ∃ other ∈ db.lsps,
    start ≤ one.number ∧ one.number < other.number ∧ other.number ≤ stop

theorem holdsTwo_iff {db : LspDict} {start stop : ℕ} :
    db.HoldsTwo start stop ↔
      ∃ one other, db.Holds one ∧ db.Holds other ∧ start ≤ one ∧ one < other ∧ other ≤ stop := by
  grind [HoldsTwo, Holds]

theorem eq_of_number {db : LspDict} {one : IsisLsp} (held_one : one ∈ db.lsps)
    (held_other : other ∈ db.lsps) (same : one.number = other.number) : one = other :=
  inj_on_of_nodup_map (pairwise_map.mpr (db.ordered.imp ne_of_lt)) held_one
    held_other same

theorem upTo_sublist : (upTo last? lsps).Sublist lsps := by
  induction lsps with
  | nil => exact .slnil
  | cons curr rest induction =>
    rw [upTo]
    split
    · exact (nil_sublist rest).cons_cons curr
    · exact induction.cons_cons curr

theorem lspBuildListNonzeroHt_nodup (db : LspDict) (start stop : ℕ) :
    ((db.lspBuildListNonzeroHt start stop).map IsisLsp.number).Nodup := by
  have ordered := db.ordered.filter (start ≤ ·.number)
  rw [List.Nodup, pairwise_map]
  unfold lspBuildListNonzeroHt
  split
  next => exact .nil
  next first rest nodes =>
    rw [nodes] at ordered
    exact ((ordered.sublist (upTo_sublist.cons_cons first)).filter _).imp ne_of_lt

theorem mem_upTo {last : IsisLsp} (held : last ∈ lsps)
    (ordered : lsps.Pairwise (·.number < ·.number)) (lsp : IsisLsp) :
    lsp ∈ upTo (some last.number) lsps ↔ lsp ∈ lsps ∧ lsp.number ≤ last.number := by
  induction lsps with
  | nil => cases held
  | cons curr rest induction =>
    rw [pairwise_cons] at ordered
    grind [upTo]

theorem upTo_of_notMem (absent : ∀ lsp ∈ lsps, some lsp.number ≠ last?) :
    upTo last? lsps = lsps := by
  induction lsps with
  | nil => rfl
  | cons curr rest induction => grind [upTo]

theorem mem_lspBuildListNonzeroHt {db : LspDict} {start stop : ℕ} :
    lsp ∈ db.lspBuildListNonzeroHt start stop ↔
      lsp ∈ db.lsps ∧ start ≤ lsp.number ∧ lsp.header.remLifetime ≠ 0 ∧
        (db.HoldsTwo start stop → lsp.number ≤ stop) := by
  have from_start : ∀ other, other ∈ db.lsps.filter (start ≤ ·.number) ↔
      other ∈ db.lsps ∧ start ≤ other.number := by simp
  have ordered := db.ordered.filter (start ≤ ·.number)
  unfold lspBuildListNonzeroHt
  split
  next none => grind
  next first rest nodes =>
    rw [nodes] at from_start ordered
    rw [pairwise_cons] at ordered
    simp only [mem_filter, mem_cons, decide_eq_true_iff]
    cases final : (db.lsps.filter (·.number ≤ stop)).getLast? with
    | none =>
      rw [Option.map_none, upTo_of_notMem (by simp)]
      grind [HoldsTwo]
    | some last =>
      rcases getLast?_eq_some_iff.mp final with ⟨preceding, nodes_below⟩
      have below : ∀ other, other ∈ preceding ++ [last] ↔
          other ∈ db.lsps ∧ other.number ≤ stop := by
        simp [← nodes_below]
      have greatest := db.ordered.filter (·.number ≤ stop)
      rw [Option.map_some]
      by_cases beyond : ∃ node ∈ rest, node.number = last.number
      · rcases beyond with ⟨node, held, same⟩
        rw [← same, mem_upTo held ordered.2]
        have two : db.HoldsTwo start stop := ⟨first, by grind, node, by grind⟩
        grind
      · rw [upTo_of_notMem (by grind)]
        have one : ¬ db.HoldsTwo start stop := by
          rintro ⟨one, held, other, held_other, range⟩
          grind
        grind

end LspDict

section

variable (fletcher : IsisLsp → UInt16) (sysid : List UInt8) (circuit : ℕ)

/-- What an entry, which is a header without its bits, does to the LSP that is held. -/
def IsisLsp.answerEntry (entry : LinkStateHdr) (lsp : IsisLsp) : IsisLsp :=
  match lspCompare lsp.header entry with
  | .equal => { lsp with srmFlags := lsp.srmFlags.erase circuit }
  | .older =>
    { lsp with
      srmFlags := insert circuit lsp.srmFlags
      ssnFlags := lsp.ssnFlags.erase circuit }
  | .newer =>
    if entry.lspId.sysid = sysid then
      let renewed := lsp.lspIncSeqnum fletcher entry.seqNum
      { renewed with srmFlags := insert circuit renewed.srmFlags }
    else
      { lsp with
        srmFlags := lsp.srmFlags.erase circuit
        ssnFlags := insert circuit lsp.ssnFlags }

/-- An LSP that is asked for if it is not held. -/
def LinkStateHdr.IsWanted (entry : LinkStateHdr) : Prop :=
  entry.remLifetime ≠ 0 ∧ entry.checksum ≠ 0 ∧ entry.seqNum ≠ 0 ∧ entry.lspId.sysid ≠ sysid
deriving Decidable

def LspDict.processEntry (db : LspDict) (entry : LinkStateHdr) : LspDict :=
  match db.lsps.find? (·.number = entry.lspId.number) with
  | some lsp => db.put (lsp.answerEntry fletcher sysid circuit entry)
  | none =>
    if entry.IsWanted sysid then
      db.put ⟨{ entry with seqNum := 0, lspBits := 0 }, false, ∅, {circuit}⟩
    else db

/-- The LSPs that `process_snp` sets SRM on since the CSNP has no entry for them, after the
entries have been processed. -/
def LspDict.unreported (db : LspDict) (start stop : ℕ) (entries : List LinkStateHdr) : List ℕ :=
  let after := entries.foldl (processEntry fletcher sysid circuit) db
  ((after.lspBuildListNonzeroHt start stop).map IsisLsp.number).diff
    (entries.map (·.lspId.number))

variable {fletcher sysid circuit}

theorem IsisLsp.number_answerEntry (entry : LinkStateHdr) (lsp : IsisLsp) :
    (lsp.answerEntry fletcher sysid circuit entry).number = lsp.number := by
  unfold IsisLsp.answerEntry
  split
  · rfl
  · rfl
  · split
    · rfl
    · rfl

theorem LspDict.mem_processEntry {db : LspDict} {entry : LinkStateHdr}
    (other : lsp.number ≠ entry.lspId.number) :
    lsp ∈ (db.processEntry fletcher sysid circuit entry).lsps ↔ lsp ∈ db.lsps := by
  unfold processEntry
  split
  next held found =>
    have same : held.number = entry.lspId.number := by simpa using find?_some found
    exact mem_put_of_ne (by rwa [IsisLsp.number_answerEntry, same])
  next =>
    split
    · exact mem_put_of_ne other
    · rfl

theorem LspDict.mem_processEntries {db : LspDict} {entries : List LinkStateHdr}
    (absent : ∀ entry ∈ entries, lsp.number ≠ entry.lspId.number) :
    lsp ∈ (entries.foldl (processEntry fletcher sysid circuit) db).lsps ↔ lsp ∈ db.lsps := by
  induction entries generalizing db with
  | nil => rfl
  | cons entry rest induction =>
    rw [forall_mem_cons] at absent
    rw [foldl_cons, induction absent.2, mem_processEntry absent.1]

theorem LspDict.holds_processEntry {db : LspDict} {entry : LinkStateHdr} {number : ℕ} :
    (db.processEntry fletcher sysid circuit entry).Holds number ↔
      db.Holds number ∨ entry.lspId.number = number ∧ entry.IsWanted sysid := by
  unfold processEntry
  split
  next held found =>
    have mem := mem_of_find?_eq_some found
    have same : held.number = entry.lspId.number := by simpa using find?_some found
    rw [holds_put, IsisLsp.number_answerEntry]
    grind [Holds]
  next absent =>
    split
    · rename_i wanted
      rw [holds_put, and_iff_left wanted]
      rfl
    · rename_i unwanted
      rw [iff_false_intro unwanted, and_false, or_false]

theorem LspDict.holds_processEntries {db : LspDict} {entries : List LinkStateHdr} {number : ℕ} :
    (entries.foldl (processEntry fletcher sysid circuit) db).Holds number ↔
      db.Holds number ∨ ∃ entry ∈ entries, entry.lspId.number = number ∧
        entry.IsWanted sysid := by
  induction entries generalizing db with
  | nil => simp
  | cons entry rest induction =>
    rw [foldl_cons, induction, holds_processEntry]
    simp [or_assoc]

end

variable (fletcher : IsisLsp → UInt16) (sysid : List UInt8) (circuit : ℕ) (db : LspDict)
  (start stop : ℕ) (entries : List LinkStateHdr)

/-- An LSP of the range that is alive and that no entry names. -/
def IsMissing (lsp : IsisLsp) : Prop :=
  start ≤ lsp.number ∧ lsp.number ≤ stop ∧ lsp.header.remLifetime ≠ 0 ∧
    lsp.header.seqNum ≠ 0 ∧ ∀ entry ∈ entries, lsp.number ≠ entry.lspId.number

/-- The LSP is held, or one of the entries has it put into the database. -/
def IsKnown (number : ℕ) : Prop :=
  db.Holds number ∨ ∃ entry ∈ entries, entry.lspId.number = number ∧ entry.IsWanted sysid

/-- An LSP that the walk lists and no entry names. The walk goes on behind the range unless two
LSPs of the range are known. -/
def IsListed (lsp : IsisLsp) : Prop :=
  start ≤ lsp.number ∧ lsp.header.remLifetime ≠ 0 ∧
    (∀ entry ∈ entries, lsp.number ≠ entry.lspId.number) ∧
    ((∃ one other, IsKnown sysid db entries one ∧ IsKnown sysid db entries other ∧
      start ≤ one ∧ one < other ∧ other ≤ stop) → lsp.number ≤ stop)

theorem mem_unreported {id : ℕ} :
    id ∈ db.unreported fletcher sysid circuit start stop entries ↔
      ∃ lsp ∈ db.lsps, lsp.number = id ∧
        IsListed sysid db start stop entries lsp := by
  unfold LspDict.unreported
  rw [(LspDict.lspBuildListNonzeroHt_nodup _ start stop).mem_sdiff_iff]
  simp only [mem_map, LspDict.mem_lspBuildListNonzeroHt, LspDict.holdsTwo_iff,
    LspDict.holds_processEntries, IsListed, IsKnown]
  constructor
  · rintro ⟨⟨lsp, ⟨held, from_start, alive, walk⟩, rfl⟩, absent⟩
    have others : ∀ entry ∈ entries, lsp.number ≠ entry.lspId.number := by grind
    exact ⟨lsp, (LspDict.mem_processEntries others).mp held, rfl, from_start, alive, others, walk⟩
  · rintro ⟨lsp, held, rfl, from_start, alive, others, walk⟩
    exact ⟨⟨lsp, ⟨(LspDict.mem_processEntries others).mpr held, from_start, alive, walk⟩, rfl⟩,
      by grind⟩

/-- The walk does not end at the last LSP of the range if that is also the first, or if the
range is empty. Then, and if an LSP without a number is listed, more LSPs are sent. -/
theorem unreported_isMissing_iff :
    (∀ id, id ∈ db.unreported fletcher sysid circuit start stop entries ↔
      ∃ lsp ∈ db.lsps, lsp.number = id ∧ IsMissing start stop entries lsp) ↔
      ∀ lsp ∈ db.lsps, IsListed sysid db start stop entries lsp →
        lsp.number ≤ stop ∧ lsp.header.seqNum ≠ 0 := by
  simp only [mem_unreported]
  constructor
  · intro marked lsp held listed
    rcases (marked lsp.number).mp ⟨lsp, held, rfl, listed⟩ with ⟨other, held_other, same, missing⟩
    rw [← LspDict.eq_of_number held_other held same]
    exact ⟨missing.2.1, missing.2.2.2.1⟩
  · intro within id
    grind [IsListed, IsMissing]

/-- The only LSP stands behind the range. -/
def oneLsp : LspDict where
  lsps := [⟨⟨1200, ⟨[0, 0, 0, 0, 0, 9], 0, 0⟩, 1, 7, 3⟩, false, ∅, ∅⟩]
  ordered := List.pairwise_singleton _ _

theorem oneLsp_unreported :
    589824 ∈ oneLsp.unreported (fun _ => 0) [0, 0, 0, 0, 0, 1] 0 0 65536 [] ∧
      ¬ ∃ lsp ∈ oneLsp.lsps, lsp.number = 589824 ∧ IsMissing 0 65536 [] lsp := by
  unfold IsMissing
  decide +kernel

end Quagga.Isis
