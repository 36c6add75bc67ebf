import Mathlib.Data.List.Basic

/-!
# A cursor that measures its own steps

A region ends at `limit`. At each position below it the cursor asks for the size of the entry that
starts there and moves on by this size, so an entry may reach beyond the end of the region. The
region is `Tiled` if none does.
-/

namespace Quagga.Foundation

structure Strides where
  /-- Start and end of every entry. -/
  entries : List (Nat × Nat)
  cursor : Nat
  /-- The walk ended at a position without an entry. -/
  broken : Bool
deriving Repr, DecidableEq

variable (stride : Nat → Option Nat) (limit : Nat)

def strides : Nat → Nat → Strides
  | 0, position => ⟨[], position, false⟩
  | fuel + 1, position =>
    if position < limit then
      match stride position with
      | none => ⟨[], position, true⟩
      | some size =>
        let rest := strides fuel (position + size)
        ⟨(position, position + size) :: rest.entries, rest.cursor, rest.broken⟩
    else ⟨[], position, false⟩

/-- The entries from a position on fill the region, or the walk may break off. -/
inductive Tiled (MayBreak : Nat → Prop) : Nat → Prop
  | done : Tiled MayBreak limit
  | broken {position : Nat} : position < limit → stride position = none → MayBreak position →
      Tiled MayBreak position
  | entry {position size : Nat} : position < limit → stride position = some size →
      position + size ≤ limit → Tiled MayBreak (position + size) → Tiled MayBreak position

variable {stride limit} {fuel position : Nat}

theorem le_strides_cursor : position ≤ (strides stride limit fuel position).cursor := by
  fun_induction strides stride limit fuel position with
  | case1 position => exact Nat.le_refl _
  | case2 fuel position inside nothing => exact Nat.le_refl _
  | case3 fuel position inside size measured rest induction =>
    exact Nat.le_trans (Nat.le_add_right _ _) induction
  | case4 fuel position outside => exact Nat.le_refl _

theorem strides_entry {entry : Nat × Nat}
    (isEntry : entry ∈ (strides stride limit fuel position).entries) :
    position ≤ entry.1 ∧ entry.1 < limit ∧ entry.2 ≤ (strides stride limit fuel position).cursor ∧
      ∃ size, stride entry.1 = some size ∧ entry.2 = entry.1 + size := by
  fun_induction strides stride limit fuel position with
  | case1 position => cases isEntry
  | case2 fuel position inside nothing => cases isEntry
  | case3 fuel position inside size measured rest induction =>
    rcases List.mem_cons.mp isEntry with first | later
    · subst first
      exact ⟨Nat.le_refl _, inside, le_strides_cursor, size, measured, rfl⟩
    · rcases induction later with ⟨after, others⟩
      exact ⟨Nat.le_trans (Nat.le_add_right _ _) after, others⟩
  | case4 fuel position outside => cases isEntry

theorem strides_cursor_le (start : position ≤ limit)
    (within : ∀ entry ∈ (strides stride limit fuel position).entries, entry.2 ≤ limit) :
    (strides stride limit fuel position).cursor ≤ limit := by
  fun_induction strides stride limit fuel position with
  | case1 position => exact start
  | case2 fuel position inside nothing => exact start
  | case3 fuel position inside size measured rest induction =>
    rw [List.forall_mem_cons] at within
    exact induction within.1 within.2
  | case4 fuel position outside => exact start

theorem strides_ends (positive : ∀ position size, stride position = some size → 0 < size)
    (enough : limit - position ≤ fuel) :
    ((strides stride limit fuel position).broken = true →
        (strides stride limit fuel position).cursor < limit ∧
          stride (strides stride limit fuel position).cursor = none) ∧
      ((strides stride limit fuel position).broken = false →
        limit ≤ (strides stride limit fuel position).cursor) := by
  fun_induction strides stride limit fuel position with
  | case1 position =>
    exact ⟨nofun, fun _ => Nat.sub_eq_zero_iff_le.mp (Nat.le_zero.mp enough)⟩
  | case2 fuel position inside nothing => exact ⟨fun _ => ⟨inside, nothing⟩, nofun⟩
  | case3 fuel position inside size measured rest induction =>
    have advances := positive position size measured
    exact induction (by omega)
  | case4 fuel position outside => exact ⟨nofun, fun _ => Nat.not_lt.mp outside⟩

section

variable {MayBreak : Nat → Prop}

theorem tiled_of_ge (atEnd : limit ≤ position) :
    Tiled stride limit MayBreak position ↔ position = limit := by
  refine ⟨?_, ?_⟩
  · intro tiled
    cases tiled with
    | done => rfl
    | broken inside => exact absurd inside (Nat.not_lt.mpr atEnd)
    | entry inside => exact absurd inside (Nat.not_lt.mpr atEnd)
  · rintro rfl
    exact .done

theorem tiled_of_none (inside : position < limit) (nothing : stride position = none) :
    Tiled stride limit MayBreak position ↔ MayBreak position := by
  refine ⟨?_, .broken inside nothing⟩
  intro tiled
  cases tiled with
  | done => exact absurd inside (Nat.lt_irrefl _)
  | broken _ _ mayBreak => exact mayBreak
  | entry _ measured => exact nomatch nothing.symm.trans measured

theorem tiled_of_some {size : Nat} (inside : position < limit)
    (measured : stride position = some size) :
    Tiled stride limit MayBreak position ↔
      position + size ≤ limit ∧ Tiled stride limit MayBreak (position + size) := by
  refine ⟨?_, fun fits => .entry inside measured fits.1 fits.2⟩
  intro tiled
  cases tiled with
  | done => exact absurd inside (Nat.lt_irrefl _)
  | broken _ nothing => exact nomatch nothing.symm.trans measured
  | entry _ other within rest =>
    cases measured.symm.trans other
    exact ⟨within, rest⟩

theorem tiled_iff (positive : ∀ position size, stride position = some size → 0 < size)
    (enough : limit - position ≤ fuel) :
    Tiled stride limit MayBreak position ↔
      (∀ entry ∈ (strides stride limit fuel position).entries, entry.2 ≤ limit) ∧
        ((strides stride limit fuel position).broken = true →
          MayBreak (strides stride limit fuel position).cursor) ∧
        ((strides stride limit fuel position).broken = false →
          (strides stride limit fuel position).cursor = limit) := by
  fun_induction strides stride limit fuel position with
  | case1 position =>
    rw [tiled_of_ge (Nat.sub_eq_zero_iff_le.mp (Nat.le_zero.mp enough))]
    simp
  | case2 fuel position inside nothing =>
    rw [tiled_of_none inside nothing]
    simp
  | case3 fuel position inside size measured rest induction =>
    have advances := positive position size measured
    rw [tiled_of_some inside measured, induction (by omega)]
    simp [and_assoc, rest]
  | case4 fuel position outside =>
    rw [tiled_of_ge (Nat.not_lt.mp outside)]
    simp

end

end Quagga.Foundation
