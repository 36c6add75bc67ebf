import Mathlib

/-!
# Selecting the best of every group

A list of positions is gone through once. A position that no earlier group has taken opens a
group: the positions after it that are related to it are compared one by one with the best
so far, and taken. Positions can be ineligible, which are passed over. Whatever the order of
the positions is, what ends up selected are the positions that beat all others of their
group.
-/

namespace Quagga.Foundation

open Function

theorem foldl_range'_invariant {State : Type} {Invariant : Nat → State → Prop} {state : State}
    (step : State → Nat → State) (start length : Nat) (initially : Invariant start state)
    (preserved : ∀ position state, start ≤ position → position < start + length →
      Invariant position state → Invariant (position + 1) (step state position)) :
    Invariant (start + length) ((List.range' start length).foldl step state) := by
  induction length generalizing start state with
  | zero => exact initially
  | succ length induction =>
    have next := preserved start state (Nat.le_refl start) (by omega) initially
    have rest := induction (start + 1) next
      (fun position state lower upper => preserved position state (by omega) (by omega))
    rwa [Nat.add_assoc, Nat.add_comm 1] at rest

namespace GroupSelection

/-- The marks of the positions: taken by a group, and selected as the best of one. -/
structure Marks where
  checked : Nat → Bool
  selected : Nat → Bool

def Marks.none : Marks := ⟨fun _ => false, fun _ => false⟩

variable (eligible : Nat → Bool) (related better : Nat → Nat → Bool)

def compareStep (first : Nat) (state : Marks × Nat) (second : Nat) : Marks × Nat :=
  if state.1.checked second || !eligible second then state
  else if related first second then
    let compared : Marks × Nat :=
      if better second state.2 then
        ({ state.1 with selected := update state.1.selected state.2 false }, second)
      else state
    ({ compared.1 with checked := update compared.1.checked second true }, compared.2)
  else state

def groupStep (size : Nat) (marks : Marks) (first : Nat) : Marks :=
  if marks.checked first || !eligible first then marks
  else
    let compared := (List.range' (first + 1) (size - (first + 1))).foldl
      (compareStep eligible related better first) (marks, first)
    ⟨update compared.1.checked compared.2 true, update compared.1.selected compared.2 true⟩

def groups (size : Nat) : Marks :=
  (List.range' 0 size).foldl (groupStep eligible related better size) .none

/-- Relatedness is an equivalence on the positions that are related at all, and related
positions are compared by a rank that tells them apart. -/
structure Orders {Rank : Type} [LinearOrder Rank] (rank : Nat → Rank) : Prop where
  symm : ∀ {first second}, related first second = true → related second first = true
  trans : ∀ {first second third}, related first second = true →
    related second third = true → related first third = true
  better_iff : ∀ {first second}, related first second = true → first ≠ second →
    (better first second = true ↔ rank first < rank second)
  rank_ne : ∀ {first second}, related first second = true → first ≠ second →
    rank first ≠ rank second

/-- The position beats all others that are related to it. -/
def IsWinner (size position : Nat) : Prop :=
  eligible position = true ∧ ∀ other < size, eligible other = true →
    related position other = true → other ≠ position → better position other = true

variable {eligible related better}

/-- A position is in the group that another one opens. -/
def InGroup (eligible : Nat → Bool) (related : Nat → Nat → Bool) (first position : Nat) : Prop :=
  eligible position = true ∧ (position = first ∨ related first position = true)

/-- What holds of the comparison loop of a group before a position is looked at. -/
structure Compared (eligible : Nat → Bool) (related better : Nat → Nat → Bool) (first : Nat)
    (marks : Marks) (position : Nat) (state : Marks × Nat) : Prop where
  bounds : first ≤ state.2 ∧ state.2 < position
  member : InGroup eligible related first state.2
  best : ∀ other, first ≤ other → other < position → InGroup eligible related first other →
    other = state.2 ∨ better state.2 other = true
  selected : state.1.selected = marks.selected
  checked : ∀ other, state.1.checked other = true ↔ marks.checked other = true ∨
    (first < other ∧ other < position ∧ eligible other = true ∧ related first other = true)

section

variable {Rank : Type} [LinearOrder Rank] {rank : Nat → Rank} {size first : Nat} {marks : Marks}

theorem InGroup.related_of_ne (orders : Orders related better rank) {left right : Nat}
    (inLeft : InGroup eligible related first left) (inRight : InGroup eligible related first right)
    (different : left ≠ right) : related left right = true := by
  rcases inLeft.2 with rfl | left_related
  · rcases inRight.2 with rfl | right_related
    · exact absurd rfl different
    · exact right_related
  · rcases inRight.2 with rfl | right_related
    · exact orders.symm left_related
    · exact orders.trans (orders.symm left_related) right_related

variable {position : Nat}

/-- A position belongs to a group that an earlier one has opened. -/
def Touched (eligible : Nat → Bool) (related : Nat → Nat → Bool) (bound position : Nat) : Prop :=
  ∃ opener < bound, eligible opener = true ∧ (opener = position ∨ related opener position = true)

/-- What holds of the marks before the group of a position is looked at. -/
structure Grouped (eligible : Nat → Bool) (related better : Nat → Nat → Bool) (size bound : Nat)
    (marks : Marks) : Prop where
  checked : ∀ position, bound ≤ position → position < size → eligible position = true →
    (marks.checked position = true ↔ Touched eligible related bound position)
  selected : ∀ position < size, marks.selected position = true ↔
    Touched eligible related bound position ∧ IsWinner eligible related better size position

theorem Touched.succ {bound position : Nat} (touched : Touched eligible related bound position) :
    Touched eligible related (bound + 1) position := by
  rcases touched with ⟨opener, below, rest⟩
  exact ⟨opener, by omega, rest⟩

theorem touched_succ_iff (isEligible : eligible first = true) :
    Touched eligible related (first + 1) position ↔
      Touched eligible related first position ∨
        (position = first ∨ related first position = true) := by
  constructor
  · intro touched
    rcases touched with ⟨opener, below, isOpener, relation⟩
    by_cases same : opener = first
    · subst same
      exact .inr (relation.imp Eq.symm id)
    · exact .inl ⟨opener, by omega, isOpener, relation⟩
  · intro either
    rcases either with touched | relation
    · exact touched.succ
    · exact ⟨first, by omega, isEligible, relation.imp Eq.symm id⟩

section

variable (orders : Orders related better rank)
include orders

theorem not_touched_of_inGroup (untouched : ¬ Touched eligible related first first)
    (inGroup : InGroup eligible related first position) :
    ¬ Touched eligible related first position := by
  intro touched
  rcases touched with ⟨opener, below, isOpener, relation⟩
  apply untouched
  rcases inGroup.2 with same | related_first
  · exact ⟨opener, below, isOpener, same ▸ relation⟩
  · refine ⟨opener, below, isOpener, .inr ?_⟩
    rcases relation with same | related_opener
    · rw [same]
      exact orders.symm related_first
    · exact orders.trans related_opener (orders.symm related_first)

section

variable (grouped : Grouped eligible related better size first marks)
  (untouched : ¬ Touched eligible related first first)
include grouped untouched

theorem Grouped.fresh (lower : first ≤ position) (below : position < size)
    (inGroup : InGroup eligible related first position) :
    marks.selected position = false ∧ marks.checked position = false := by
  have apart := not_touched_of_inGroup orders untouched inGroup
  constructor
  · rw [Bool.eq_false_iff, Ne, grouped.selected position below]
    exact fun both => apart both.1
  · rw [Bool.eq_false_iff, Ne, grouped.checked position lower below inGroup.1]
    exact apart

theorem compareStep_compared {state : Marks × Nat} (after : first < position)
    (within : position < size)
    (compared : Compared eligible related better first marks position state) :
    Compared eligible related better first marks (position + 1)
      (compareStep eligible related better first state position) := by
  have extend : ∀ other, other < position + 1 → other < position ∨ other = position := by
    intro other bound
    omega
  by_cases taken : InGroup eligible related first position
  · have related_first : related first position = true := taken.2.resolve_left (by omega)
    have unchecked : state.1.checked position = false := by
      rw [Bool.eq_false_iff]
      intro marked
      rcases (compared.checked position).mp marked with marked | bounds
      · rw [(grouped.fresh orders untouched (by omega) within taken).2] at marked
        cases marked
      · omega
    have earlier := compared.bounds.2
    have different : position ≠ state.2 := by omega
    have pair := InGroup.related_of_ne orders taken compared.member different
    have notSelected : update state.1.selected state.2 false = state.1.selected := by
      rw [update_eq_self_iff, compared.selected]
      exact (grouped.fresh orders untouched compared.bounds.1 (by omega) compared.member).1.symm
    have marksChecked : ∀ other, update state.1.checked position true other = true ↔
        marks.checked other = true ∨ (first < other ∧ other < position + 1 ∧
          eligible other = true ∧ related first other = true) := by
      intro other
      by_cases same : other = position
      · subst same
        rw [update_self]
        exact ⟨fun _ => .inr ⟨after, by omega, taken.1, related_first⟩, fun _ => rfl⟩
      · have bound : other < position + 1 ↔ other < position := by omega
        rw [update_of_ne same, compared.checked, bound]
    have unfolded : compareStep eligible related better first state position =
        if better position state.2 then
          (⟨update state.1.checked position true, state.1.selected⟩, position)
        else (⟨update state.1.checked position true, state.1.selected⟩, state.2) := by
      unfold compareStep
      rw [unchecked, taken.1, related_first]
      by_cases beats : better position state.2 = true
      · simp [beats, notSelected]
      · simp [beats]
    rw [unfolded]
    by_cases beats : better position state.2 = true
    · rw [if_pos beats]
      refine ⟨⟨by omega, by omega⟩, taken, ?_, compared.selected, marksChecked⟩
      intro other lower upper inGroup
      rcases extend other upper with earlier | same
      · right
        by_cases equal : other = state.2
        · rw [equal]
          exact beats
        · have beaten := (compared.best other lower earlier inGroup).resolve_left equal
          have apart := InGroup.related_of_ne orders compared.member inGroup (Ne.symm equal)
          rw [orders.better_iff (orders.trans pair apart) (by omega)]
          exact lt_trans ((orders.better_iff pair different).mp beats)
            ((orders.better_iff apart (Ne.symm equal)).mp beaten)
      · exact .inl same
    · rw [if_neg beats]
      have stays : better state.2 position = true := by
        rw [orders.better_iff pair different, not_lt] at beats
        rw [orders.better_iff (orders.symm pair) (Ne.symm different)]
        exact lt_of_le_of_ne beats (orders.rank_ne (orders.symm pair) (Ne.symm different))
      refine ⟨⟨compared.bounds.1, by omega⟩, compared.member, ?_, compared.selected, marksChecked⟩
      intro other lower upper inGroup
      rcases extend other upper with earlier | same
      · exact compared.best other lower earlier inGroup
      · rw [same]
        exact .inr stays
  · -- A position outside the group is passed over.
    have unchanged : compareStep eligible related better first state position = state := by
      unfold compareStep
      by_cases skipped : (state.1.checked position || !eligible position) = true
      · rw [if_pos skipped]
      · rw [if_neg skipped]
        simp only [Bool.or_eq_true, not_or, Bool.not_eq_true', Bool.not_eq_false] at skipped
        rw [if_neg (fun related_first => taken ⟨skipped.2, .inr related_first⟩)]
    rw [unchanged]
    have outside : ∀ other, InGroup eligible related first other → other ≠ position := by
      intro other inGroup same
      exact taken (same ▸ inGroup)
    refine ⟨⟨compared.bounds.1, Nat.lt_succ_of_lt compared.bounds.2⟩, compared.member, ?_,
      compared.selected, ?_⟩
    · intro other lower upper inGroup
      exact compared.best other lower ((extend other upper).resolve_right (outside other inGroup))
        inGroup
    · intro other
      have different : eligible other = true ∧ related first other = true → other ≠ position :=
        fun taken => outside other ⟨taken.1, .inr taken.2⟩
      rw [compared.checked]
      grind

theorem compared_of_loop (within : first < size) (isEligible : eligible first = true) :
    Compared eligible related better first marks size
      ((List.range' (first + 1) (size - (first + 1))).foldl
        (compareStep eligible related better first) (marks, first)) := by
  have start : Compared eligible related better first marks (first + 1) (marks, first) := by
    refine ⟨⟨Nat.le_refl first, Nat.lt_succ_self first⟩, ⟨isEligible, .inl rfl⟩, ?_, rfl, ?_⟩
    · intro other lower upper _
      exact .inl (by omega : other = first)
    · intro other
      refine ⟨.inl, ?_⟩
      intro either
      apply either.resolve_right
      omega
  have ending := foldl_range'_invariant (compareStep eligible related better first) (first + 1)
    (size - (first + 1)) start
    (fun position state lower upper compared =>
      compareStep_compared orders grouped untouched (by omega) (by omega) compared)
  rwa [Nat.add_sub_cancel' within] at ending

end

theorem isWinner_iff_best {best : Nat} (below : best < size)
    (member : InGroup eligible related first best)
    (beats : ∀ other < size, InGroup eligible related first other →
      other = best ∨ better best other = true) (within : position < size)
    (relation : position = first ∨ related first position = true) :
    IsWinner eligible related better size position ↔ position = best := by
  constructor
  · intro winner
    have inGroup : InGroup eligible related first position := ⟨winner.1, relation⟩
    rcases beats position within inGroup with same | beaten
    · exact same
    · by_contra different
      have pair := InGroup.related_of_ne orders member inGroup (Ne.symm different)
      have wins := winner.2 best below member.1 (orders.symm pair) (Ne.symm different)
      rw [orders.better_iff (orders.symm pair) different] at wins
      rw [orders.better_iff pair (Ne.symm different)] at beaten
      exact lt_asymm wins beaten
  · intro same
    subst same
    refine ⟨member.1, ?_⟩
    intro other bound isEligible related_other different
    apply (beats other bound ⟨isEligible, ?_⟩).resolve_left different
    rcases member.2 with same | related_first
    · exact .inr (same ▸ related_other)
    · exact .inr (orders.trans related_first related_other)

theorem groupStep_grouped (within : first < size)
    (grouped : Grouped eligible related better size first marks) :
    Grouped eligible related better size (first + 1)
      (groupStep eligible related better size marks first) := by
  by_cases skipped : (marks.checked first || !eligible first) = true
  · -- The position is ineligible or taken already, so no group is opened.
    have same : ∀ position, Touched eligible related (first + 1) position ↔
        Touched eligible related first position := by
      intro position
      refine ⟨?_, Touched.succ⟩
      intro touched
      rcases touched with ⟨opener, below, isOpener, relation⟩
      by_cases equal : opener = first
      · subst equal
        rw [isOpener, Bool.not_true, Bool.or_false] at skipped
        rcases (grouped.checked opener (Nat.le_refl opener) within isOpener).mp skipped with
          ⟨earlier, before, isEarlier, earlierRelation⟩
        have earlierRelated := earlierRelation.resolve_left (by omega)
        refine ⟨earlier, before, isEarlier, .inr ?_⟩
        rcases relation with same | related_opener
        · rw [← same]
          exact earlierRelated
        · exact orders.trans earlierRelated related_opener
      · exact ⟨opener, by omega, isOpener, relation⟩
    unfold groupStep
    rw [if_pos skipped]
    constructor
    · intro position lower below isEligible
      rw [same]
      exact grouped.checked position (by omega) below isEligible
    · intro position below
      rw [same]
      exact grouped.selected position below
  · rw [groupStep, if_neg skipped]
    rw [Bool.not_eq_true, Bool.or_eq_false_iff, Bool.not_eq_false'] at skipped
    have untouched : ¬ Touched eligible related first first := by
      rw [← grouped.checked first (Nat.le_refl first) within skipped.2, skipped.1]
      exact Bool.false_ne_true
    -- No earlier position is in the group, so the best of those after it beats all of it.
    have compared := compared_of_loop orders grouped untouched within skipped.2
    generalize (List.range' (first + 1) (size - (first + 1))).foldl
      (compareStep eligible related better first) (marks, first) = result at compared
    have behind : ∀ other, InGroup eligible related first other → first ≤ other := by
      intro other inGroup
      by_contra before
      exact not_touched_of_inGroup orders untouched inGroup
        ⟨other, by omega, inGroup.1, .inl rfl⟩
    have winner : ∀ position < size, (position = first ∨ related first position = true) →
        (IsWinner eligible related better size position ↔ position = result.2) :=
      fun position below => isWinner_iff_best orders compared.bounds.2 compared.member
        (fun other below inGroup => compared.best other (behind other inGroup) below inGroup) below
    constructor
    · intro position lower below isEligible
      rw [touched_succ_iff skipped.2, ← grouped.checked position (by omega) below isEligible]
      by_cases same : position = result.2
      · subst same
        dsimp only
        rw [update_self]
        exact ⟨fun _ => .inr compared.member.2, fun _ => rfl⟩
      · dsimp only
        rw [update_of_ne same, compared.checked]
        constructor
        · intro either
          exact either.imp id fun taken => .inr taken.2.2.2
        · intro either
          refine either.imp id fun relation => ?_
          exact ⟨by omega, below, isEligible, relation.resolve_left (by omega)⟩
    · intro position below
      rw [touched_succ_iff skipped.2, or_and_right, ← grouped.selected position below]
      by_cases same : position = result.2
      · subst same
        dsimp only
        rw [update_self]
        exact ⟨fun _ => .inr ⟨compared.member.2, (winner _ below compared.member.2).mpr rfl⟩,
          fun _ => rfl⟩
      · dsimp only
        rw [update_of_ne same, compared.selected]
        refine ⟨.inl, fun either => either.resolve_right ?_⟩
        intro both
        exact same ((winner position below both.1).mp both.2)

theorem groups_selected (within : position < size) :
    (groups eligible related better size).selected position = true ↔
      IsWinner eligible related better size position := by
  have nothing : ∀ position, ¬ Touched eligible related 0 position := by
    intro position touched
    rcases touched with ⟨opener, below, _⟩
    exact Nat.not_lt_zero opener below
  have start : Grouped eligible related better size 0 Marks.none := by
    constructor
    · intro position _ _ _
      exact ⟨fun marked => absurd marked Bool.false_ne_true,
        fun touched => (nothing _ touched).elim⟩
    · intro position _
      exact ⟨fun marked => absurd marked Bool.false_ne_true, fun both => (nothing _ both.1).elim⟩
  have ending := foldl_range'_invariant (groupStep eligible related better size) 0 size start
    (fun first marks lower upper => groupStep_grouped orders (by omega))
  rw [Nat.zero_add] at ending
  rw [groups, ending.selected position within]
  refine ⟨And.right, fun winner => ⟨?_, winner⟩⟩
  exact ⟨position, within, winner.1, .inl rfl⟩

end

end

end GroupSelection

end Quagga.Foundation
