import Mathlib.Data.List.Nodup
import Mathlib.Data.List.Count
import Mathlib.Data.List.Find

/-!
# Records with a key

A list of records in which a key names at most one record. `changeAt` changes the record
that a key names, and leaves the keys as they are.
-/

namespace Quagga.Foundation

open List

variable {α κ : Type} [DecidableEq κ] (key : α → κ)

def recordAt (name : κ) (records : List α) : Option α :=
  records.find? fun record => key record = name

def changeAt (name : κ) (change : α → α) (records : List α) : List α :=
  records.map fun record => if key record = name then change record else record

variable {key}

variable {records : List α}

variable {record : α}

theorem mem_of_recordAt {name : κ} (found : recordAt key name records = some record) :
    record ∈ records ∧ key record = name := by
  have named := find?_some found
  exact ⟨mem_of_find?_eq_some found, by simpa using named⟩

theorem key_ne_of_recordAt {name : κ} (missing : recordAt key name records = none)
    (member : record ∈ records) : key record ≠ name := by
  simpa using find?_eq_none.mp missing record member

theorem recordAt_of_mem {name : κ} (distinct : (records.map key).Nodup) (member : record ∈ records)
    (named : key record = name) : recordAt key name records = some record := by
  cases found : recordAt key name records with
  | none => exact absurd named (key_ne_of_recordAt found member)
  | some other =>
    rcases mem_of_recordAt found with ⟨otherMember, otherNamed⟩
    rw [inj_on_of_nodup_map distinct otherMember member (otherNamed.trans named.symm)]

section

variable {name : κ} {change : α → α}

theorem map_key_changeAt (keeps : ∀ record, key (change record) = key record) (records : List α) :
    (changeAt key name change records).map key = records.map key := by
  rw [changeAt, map_map]
  apply map_congr_left
  intro record member
  by_cases named : key record = name
  · simp [named, keeps]
  · simp [named]

theorem mem_changeAt (member : record ∈ changeAt key name change records) :
    ∃ old ∈ records, (key old = name ∧ record = change old) ∨ (key old ≠ name ∧ record = old) := by
  rcases mem_map.mp member with ⟨old, present, rfl⟩
  by_cases named : key old = name
  · exact ⟨old, present, .inl ⟨named, if_pos named⟩⟩
  · exact ⟨old, present, .inr ⟨named, if_neg named⟩⟩

theorem recordAt_changeAt (keeps : ∀ record, key (change record) = key record) (records : List α) :
    recordAt key name (changeAt key name change records) =
      (recordAt key name records).map change := by
  induction records with
  | nil => rfl
  | cons record records induction =>
    by_cases named : key record = name
    · simp [recordAt, changeAt, named, keeps]
    · simpa [recordAt, changeAt, named] using induction

theorem changeAt_of_missing (missing : ∀ record ∈ records, key record ≠ name) :
    changeAt key name change records = records := by
  have unchanged : ∀ record ∈ records,
      (if key record = name then change record else record) = id record := by
    intro record member
    exact if_neg (missing record member)
  rw [changeAt, map_congr_left unchanged, map_id]

end

theorem filter_changeAt (name : κ) (change : α → α)
    (keeps : ∀ record, key (change record) = key record) (records : List α) :
    (changeAt key name change records).filter (fun record => key record != name) =
      records.filter fun record => key record != name := by
  induction records with
  | nil => rfl
  | cons record records induction =>
    by_cases named : key record = name
    · simpa [changeAt, named, keeps] using induction
    · simpa [changeAt, named] using induction

theorem countP_eq_of_mem {test other : α → Bool}
    (agree : ∀ record ∈ records, test record = other record) :
    records.countP test = records.countP other := by
  apply countP_congr
  intro record present
  rw [agree record present]

section

variable {name : κ} (distinct : (records.map key).Nodup) (member : record ∈ records)
  (named : key record = name)
include distinct member named

theorem countP_differ (test other : α → Bool)
    (agree : ∀ record ∈ records, key record ≠ name → test record = other record) :
    records.countP test + (if other record then 1 else 0) =
      records.countP other + (if test record then 1 else 0) := by
  induction records with
  | nil => cases member
  | cons head tail induction =>
    simp only [map_cons, nodup_cons] at distinct
    rcases forall_mem_cons.mp agree with ⟨headAgree, tailAgree⟩
    by_cases first : key head = name
    · have elsewhere : ∀ other ∈ tail, key other ≠ name := by
        intro other present same
        exact distinct.1 (mem_map.mpr ⟨other, present, same.trans first.symm⟩)
      have isHead : record = head := by
        rcases mem_cons.mp member with same | present
        · exact same
        · exact absurd named (elsewhere record present)
      have rest : tail.countP test = tail.countP other :=
        countP_eq_of_mem fun record present => tailAgree record present (elsewhere record present)
      rw [isHead, countP_cons, countP_cons]
      omega
    · have present : record ∈ tail := by
        rcases mem_cons.mp member with same | present
        · exact absurd (same ▸ named) first
        · exact present
      have counted := induction distinct.2 present tailAgree
      rw [countP_cons, countP_cons, headAgree first]
      omega

theorem countP_changeAt (change : α → α) (test : α → Bool) :
    (changeAt key name change records).countP test + (if test record then 1 else 0) =
      records.countP test + (if test (change record) then 1 else 0) := by
  have agree : ∀ record ∈ records, key record ≠ name →
      (test ∘ fun record => if key record = name then change record else record) record =
        test record := by
    intro record present elsewhere
    simp [elsewhere]
  have differ := countP_differ distinct member named _ test agree
  rw [changeAt]
  simpa [named] using differ

end

end Quagga.Foundation
