import Mathlib

/-!
# Searching lists

Binary search in a list that is ordered by what is searched for, and the scan of a list for an
admissible element of the smallest rank, which starts from an element that need not be
admissible.
-/

namespace Quagga.Foundation

open List

universe u v

variable {α : Type u} {β : Type v}

/-- The place between `low` and `high` of the element that `order` calls equal. -/
def bisect (order : α → Ordering) (elements : List α) : Nat → Int → Int → Option Nat
  | 0, _, _ => none
  | fuel + 1, low, high =>
    if low ≤ high then
      let middle := ((low + high) / 2).toNat
      match (elements[middle]?).map order with
      | some .eq => some middle
      | some .lt => bisect order elements fuel low (middle - 1)
      | some .gt => bisect order elements fuel (middle + 1) high
      | none => none
    else none

/-- What is searched for lies behind the first of two elements or before the second. -/
def IsOrdered (order : α → Ordering) (elements : List α) : Prop :=
  elements.Pairwise fun first second => order first = .gt ∨ order second = .lt

section

variable {order : α → Ordering} {elements : List α} {index : Nat} {element : α}

theorem order_of_bisect {fuel : Nat} {low high : Int}
    (found : bisect order elements fuel low high = some index) :
    (elements[index]?).map order = some .eq := by
  induction fuel generalizing low high with
  | zero => cases found
  | succ fuel induction =>
    unfold bisect at found
    split_ifs at found
    dsimp only at found
    split at found
    · rename_i isEqual
      cases found
      exact isEqual
    · exact induction found
    · exact induction found
    · cases found

theorem IsOrdered.before (ordered : IsOrdered order elements) {middle : Nat} {other : α}
    (place : elements[index]? = some element) (isEqual : order element = .eq)
    (otherPlace : elements[middle]? = some other) :
    (order other = .lt → index < middle) ∧ (order other = .gt → middle < index) ∧
      (order other = .eq → index = middle) := by
  rcases List.getElem?_eq_some_iff.mp place with ⟨bound, rfl⟩
  rcases List.getElem?_eq_some_iff.mp otherPlace with ⟨otherBound, rfl⟩
  have sorted := pairwise_iff_getElem.mp ordered
  rcases Nat.lt_trichotomy index middle with before | rfl | behind
  · have sides := sorted index middle bound otherBound before
    simp_all
  · simp_all
  · have sides := sorted middle index otherBound bound behind
    simp_all

theorem IsOrdered.bisect (ordered : IsOrdered order elements)
    (place : elements[index]? = some element) (isEqual : order element = .eq) {fuel : Nat}
    {low high : Int} (start : 0 ≤ low) (inside : high < elements.length) (above : low ≤ index)
    (below : index ≤ high) (enough : high < low + fuel) :
    Foundation.bisect order elements fuel low high = some index := by
  induction fuel generalizing low high with
  | zero => omega
  | succ fuel induction =>
    have middleInside : ((low + high) / 2).toNat < elements.length := by omega
    have sides := ordered.before place isEqual (getElem?_eq_getElem middleInside)
    rw [Foundation.bisect, if_pos (by omega)]
    simp only [getElem?_eq_getElem middleInside, Option.map_some]
    cases side : order elements[((low + high) / 2).toNat] with
    | lt =>
      have before := sides.1 side
      exact induction start (by omega) above (by omega) (by omega)
    | eq => rw [sides.2.2 side]
    | gt =>
      have behind := sides.2.1 side
      exact induction (by omega) inside (by omega) below (by omega)

end

/-- The scan keeps the element it holds unless an admissible one has a smaller rank. -/
def scanBest [LT β] [DecidableLT β] (admissible : α → Bool) (rank : α → β) (seed : α)
    (elements : List α) : α :=
  elements.foldl (fun best element =>
    if admissible element && rank element < rank best then element else best) seed

theorem scanBest_spec [LinearOrder β] {admissible : α → Bool} {rank : α → β} {seed result : α}
    {elements : List α} (scanned : scanBest admissible rank seed elements = result) :
    (result = seed ∨ result ∈ elements ∧ admissible result = true ∧ rank result < rank seed) ∧
      ∀ element ∈ elements, admissible element = true → rank result ≤ rank element := by
  induction elements generalizing seed with
  | nil => exact ⟨.inl scanned.symm, nofun⟩
  | cons head tail induction =>
    rw [scanBest, foldl_cons, ← scanBest] at scanned
    rw [forall_mem_cons]
    rcases induction scanned with ⟨origin, least⟩
    split_ifs at origin with better
    · simp only [Bool.and_eq_true, decide_eq_true_eq] at better
      rcases origin with rfl | ⟨isIn, good, smaller⟩
      · exact ⟨.inr ⟨mem_cons_self, better⟩, fun _ => le_rfl, least⟩
      · exact ⟨.inr ⟨mem_cons_of_mem _ isIn, good, lt_trans smaller better.2⟩,
          fun _ => le_of_lt smaller, least⟩
    · simp only [Bool.and_eq_true, decide_eq_true_eq, not_and, not_lt] at better
      rcases origin with rfl | ⟨isIn, good, smaller⟩
      · exact ⟨.inl rfl, better, least⟩
      · exact ⟨.inr ⟨mem_cons_of_mem _ isIn, good, smaller⟩,
          fun isGood => le_trans (le_of_lt smaller) (better isGood), least⟩

end Quagga.Foundation
