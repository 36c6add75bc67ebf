import Mathlib.Data.List.Induction
import Mathlib.Logic.Function.Basic

/-!
# The last write of every key

In a sequence of writes to a keyed store, a write survives if no later one has its key.
-/

namespace Quagga.Foundation

open List Function

universe u v

variable {α : Type u} {κ : Type v}

/-- The value is written, and its key is not written again. -/
def IsLatest (key : α → κ) (writes : List α) (value : α) : Prop :=
  ∃ earlier later, writes = earlier ++ value :: later ∧ ∀ other ∈ later, key other ≠ key value

namespace IsLatest

variable {key : α → κ}

theorem mem {writes : List α} {value : α} (latest : IsLatest key writes value) :
    value ∈ writes := by
  rcases latest with ⟨earlier, later, rfl, _⟩
  exact mem_append_right _ mem_cons_self

theorem not_nil {value : α} : ¬ IsLatest key [] value := by
  intro latest
  cases latest.mem

theorem snoc_iff {writes : List α} {write value : α} :
    IsLatest key (writes ++ [write]) value ↔
      value = write ∨ (IsLatest key writes value ∧ key write ≠ key value) := by
  constructor
  · intro latest
    rcases latest with ⟨earlier, later, split, hidden⟩
    induction later using List.reverseRecOn with
    | nil =>
      have same := (append_inj_right' split rfl)
      exact .inl (List.cons.inj same).1.symm
    | append_singleton later last _ =>
      have same : writes ++ [write] = (earlier ++ value :: later) ++ [last] := by
        rw [split, append_assoc, cons_append]
      rcases append_inj' same rfl with ⟨front, back⟩
      have isLast : write = last := (List.cons.inj back).1
      right
      constructor
      · exact ⟨earlier, later, front, fun other mem => hidden other (mem_append_left _ mem)⟩
      · rw [isLast]
        exact hidden last (mem_append_right _ mem_cons_self)
  · intro cases
    rcases cases with same | ⟨latest, different⟩
    · rw [same]
      exact ⟨writes, [], rfl, by simp⟩
    · rcases latest with ⟨earlier, later, rfl, hidden⟩
      refine ⟨earlier, later ++ [write], ?_, ?_⟩
      · rw [append_assoc, cons_append]
      · exact forall_mem_append.mpr ⟨hidden, forall_mem_singleton.mpr different⟩

end IsLatest

/-! ## The table that is left -/

def tableAfter [DecidableEq κ] (writes : List (κ × Option α)) : κ → Option α :=
  writes.foldl (fun table write => update table write.1 write.2) fun _ => none

section

variable [DecidableEq κ]

theorem tableAfter_snoc (writes : List (κ × Option α)) (key : κ) (value : Option α) :
    tableAfter (writes ++ [(key, value)]) = update (tableAfter writes) key value := by
  rw [tableAfter, foldl_append]
  rfl

@[simp] theorem tableAfter_snoc_self (writes : List (κ × Option α)) (key : κ) (value : Option α) :
    tableAfter (writes ++ [(key, value)]) key = value := by
  rw [tableAfter_snoc, update_self]

theorem tableAfter_snoc_of_ne (writes : List (κ × Option α)) {key other : κ} (value : Option α)
    (different : other ≠ key) :
    tableAfter (writes ++ [(key, value)]) other = tableAfter writes other := by
  rw [tableAfter_snoc, update_of_ne different]

/-- Only what is there is ever removed. -/
def RemovesPresent (writes : List (κ × Option α)) : Prop :=
  ∀ before key after, writes = before ++ (key, none) :: after → (tableAfter before key).isSome

theorem RemovesPresent.snoc {writes : List (κ × Option α)} (present : RemovesPresent writes)
    {key : κ} {value : Option α} (removes : value = none → (tableAfter writes key).isSome) :
    RemovesPresent (writes ++ [(key, value)]) := by
  intro before removed after split
  induction after using List.reverseRecOn with
  | nil =>
    rcases append_inj' split rfl with ⟨front, back⟩
    rcases Prod.mk.inj (List.cons.inj back).1 with ⟨sameKey, sameValue⟩
    rw [← front, ← sameKey]
    exact removes sameValue
  | append_singleton after last _ =>
    have same : writes ++ [(key, value)] = (before ++ (removed, none) :: after) ++ [last] := by
      rw [split, append_assoc, cons_append]
    exact present before removed after (append_inj' same rfl).1

end

end Quagga.Foundation
