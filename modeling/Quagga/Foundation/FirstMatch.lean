import Mathlib.Data.List.Basic

/-!
# Search-or-append on lists

Mutable record lists are often edited by one pattern: search for the first element
that satisfies a test, append a blank one when the search fails, and then change the
element that was found. `upsertFirst` is that pattern. `Frame` describes everything
such edits can do to a list, however many of them are made and for whichever targets.
-/

namespace Quagga.Foundation

open List

universe u

variable {α : Type u} {index : Nat}

def modifyFirst (matching : α → Bool) (change : α → α) : List α → List α
  | [] => []
  | head :: tail =>
    if matching head then change head :: tail
    else head :: modifyFirst matching change tail

/-- What an edit searches for, and the blank element it appends when the search fails. -/
structure Target (α : Type u) where
  matching : α → Bool
  blank : α
  matching_blank : matching blank = true

/-- Change the first element that `target` matches, appending its blank one first if
there is none. -/
def upsertFirst (target : Target α) (change : α → α) (elements : List α) : List α :=
  match elements.find? target.matching with
  | some _ => modifyFirst target.matching change elements
  | none => elements ++ [change target.blank]

@[simp] theorem modifyFirst_length (matching : α → Bool) (change : α → α) (elements : List α) :
    (modifyFirst matching change elements).length = elements.length := by
  induction elements with
  | nil => rfl
  | cons head tail induction => by_cases matched : matching head <;> simp [modifyFirst, *]

def IsFirst (matching : α → Bool) (elements : List α) (index : Nat) : Prop :=
  (∃ element, elements[index]? = some element ∧ matching element = true) ∧
    ∀ earlier < index, ∀ element, elements[earlier]? = some element → matching element = false

theorem isFirst_cons_succ {matching : α → Bool} {head : α} {tail : List α}
    (unmatched : matching head = false) (first : IsFirst matching tail index) :
    IsFirst matching (head :: tail) (index + 1) := by
  refine ⟨by simpa using first.1, ?_⟩
  intro earlier bound element found
  cases earlier with
  | zero => simp_all
  | succ earlier => exact first.2 earlier (by omega) element (by simpa using found)

theorem modifyFirst_getElem? (matching : α → Bool) (change : α → α) (elements : List α)
    (index : Nat) (element : α) (found : elements[index]? = some element) :
    (modifyFirst matching change elements)[index]? = some element ∨
      IsFirst matching elements index ∧
        (modifyFirst matching change elements)[index]? = some (change element) := by
  induction elements generalizing index with
  | nil => simp at found
  | cons head tail induction =>
    cases matched : matching head with
    | true =>
      cases index with
      | zero =>
        obtain rfl : head = element := by simpa using found
        exact .inr ⟨⟨⟨head, rfl, matched⟩, by simp⟩, by simp [modifyFirst, matched]⟩
      | succ index => exact .inl (by simpa [modifyFirst, matched] using found)
    | false =>
      cases index with
      | zero => exact .inl (by simpa [modifyFirst, matched] using found)
      | succ index =>
        rcases induction index (by simpa using found) with same | ⟨first, changed⟩
        · exact .inl (by simpa [modifyFirst, matched] using same)
        · exact .inr ⟨isFirst_cons_succ matched first,
            by simpa [modifyFirst, matched] using changed⟩

theorem find?_modifyFirst (matching : α → Bool) (change : α → α)
    (keeps : ∀ element, matching element = true → matching (change element) = true)
    (elements : List α) :
    (modifyFirst matching change elements).find? matching =
      (elements.find? matching).map change := by
  induction elements with
  | nil => rfl
  | cons head tail induction =>
    cases matched : matching head with
    | true => simp [modifyFirst, matched, keeps head matched]
    | false => simp [modifyFirst, matched, induction]

theorem find?_modifyFirst_other (matching other : α → Bool) (change : α → α)
    (disjoint : ∀ element, matching element = true →
      other element = false ∧ other (change element) = false) (elements : List α) :
    (modifyFirst matching change elements).find? other = elements.find? other := by
  induction elements with
  | nil => rfl
  | cons head tail induction =>
    cases matched : matching head with
    | true => simp [modifyFirst, matched, disjoint head matched]
    | false => cases found : other head <;> simp [modifyFirst, matched, found, induction]

theorem find?_upsertFirst (target : Target α) (change : α → α)
    (keeps : ∀ element, target.matching element = true →
      target.matching (change element) = true) (elements : List α) :
    (upsertFirst target change elements).find? target.matching =
      some (change ((elements.find? target.matching).getD target.blank)) := by
  unfold upsertFirst
  cases found : elements.find? target.matching with
  | some element =>
    simp [find?_modifyFirst _ _ keeps, found]
  | none =>
    simp [found, keeps _ target.matching_blank]

theorem find?_upsertFirst_other (target : Target α) (other : α → Bool) (change : α → α)
    (disjoint : ∀ element, target.matching element = true →
      other element = false ∧ other (change element) = false) (elements : List α) :
    (upsertFirst target change elements).find? other = elements.find? other := by
  unfold upsertFirst
  cases found : elements.find? target.matching with
  | some element => exact find?_modifyFirst_other _ _ _ disjoint elements
  | none => simp [disjoint _ target.matching_blank]

theorem modifyFirst_eq_self {matching : α → Bool} {change : α → α} {elements : List α} {element : α}
    (found : elements.find? matching = some element) (same : change element = element) :
    modifyFirst matching change elements = elements := by
  induction elements with
  | nil => rfl
  | cons head tail induction =>
    cases matched : matching head with
    | true =>
      simp only [find?_cons, matched, Option.some.injEq] at found
      subst found
      simp [modifyFirst, matched, same]
    | false =>
      simp only [find?_cons, matched] at found
      simp [modifyFirst, matched, induction found]

variable {target : Target α}

theorem upsertFirst_eq_self {change : α → α} {elements : List α} {element : α}
    (found : elements.find? target.matching = some element) (same : change element = element) :
    upsertFirst target change elements = elements := by
  simp only [upsertFirst, found]
  exact modifyFirst_eq_self found same

/-! ## What any sequence of such edits leaves alone -/

/-- The laws of a relation that says how one edit may change an element: edits compose,
they do not affect what the targets match, and two targets that match one blank element
are the same search. -/
structure IsEdit (Targeted : Target α → Prop) (Changed : α → α → Prop) : Prop where
  refl : ∀ element, Changed element element
  trans : ∀ {first second third}, Changed first second → Changed second third →
    Changed first third
  matching_eq : ∀ {target before after}, Targeted target → Changed before after →
    target.matching after = target.matching before
  separate : ∀ {target other}, Targeted target → Targeted other →
    target.matching other.blank = true → target.matching = other.matching

/-- `after` is `before` up to edits of targeted elements: every element keeps its
position and, unless it is the first match of a target, its content; what is appended
comes from blank elements of targets that had no match, at most one for each target. -/
structure Frame (Targeted : Target α → Prop) (Changed : α → α → Prop)
    (before after : List α) : Prop where
  kept : ∀ index element, before[index]? = some element →
    ∃ element', after[index]? = some element' ∧
      (element' = element ∨
        (∃ target, Targeted target ∧ IsFirst target.matching before index) ∧
          Changed element element')
  appended : ∀ index element, before.length ≤ index → after[index]? = some element →
    ∃ target, Targeted target ∧ (∀ old ∈ before, target.matching old = false) ∧
      Changed target.blank element
  appended_unique : ∀ target, Targeted target → ∀ index other element element',
    before.length ≤ index → before.length ≤ other →
    after[index]? = some element → after[other]? = some element' →
    target.matching element = true → target.matching element' = true → index = other

namespace Frame

variable {Targeted : Target α → Prop} {Changed : α → α → Prop}
  {before middle after : List α}

theorem refl (before : List α) : Frame Targeted Changed before before where
  kept := fun _ element found => ⟨element, found, .inl rfl⟩
  appended := fun index _ beyond found => by simp [getElem?_eq_none beyond] at found
  appended_unique := fun _ _ index _ _ _ beyond _ found => by
    simp [getElem?_eq_none beyond] at found

section

variable (edit : IsEdit Targeted Changed)
include edit

theorem changed_at (frame : Frame Targeted Changed before after) {element element' : α}
    (old : before[index]? = some element) (new : after[index]? = some element') :
    Changed element element' := by
  obtain ⟨witness, found, same | ⟨_, changed⟩⟩ := frame.kept index element old
  · obtain rfl : element' = element := by rw [← same]; simpa [new] using found
    exact edit.refl _
  · obtain rfl : element' = witness := by simpa [new] using found
    exact changed

theorem matching_at (frame : Frame Targeted Changed before after) (targeted : Targeted target)
    {element element' : α} (old : before[index]? = some element)
    (new : after[index]? = some element') : target.matching element' = target.matching element :=
  edit.matching_eq targeted (frame.changed_at edit old new)

theorem unmatched_of_frame (frame : Frame Targeted Changed before middle)
    (targeted : Targeted target) (unmatched : ∀ old ∈ middle, target.matching old = false) :
    ∀ old ∈ before, target.matching old = false := by
  intro old member
  obtain ⟨index, found⟩ := mem_iff_getElem?.mp member
  obtain ⟨new, found', _⟩ := frame.kept index old found
  rw [← frame.matching_at edit targeted found found']
  exact unmatched new (mem_of_getElem? found')

theorem isFirst_of_frame (frame : Frame Targeted Changed before middle) (targeted : Targeted target)
    (inside : index < before.length) (first : IsFirst target.matching middle index) :
    IsFirst target.matching before index := by
  obtain ⟨⟨element, found, matched⟩, earlier⟩ := first
  refine ⟨⟨before[index], getElem?_eq_getElem inside, ?_⟩, ?_⟩
  · rw [← frame.matching_at edit targeted (getElem?_eq_getElem inside) found, matched]
  · intro position bound old foundOld
    obtain ⟨new, foundNew, _⟩ := frame.kept position old foundOld
    rw [← frame.matching_at edit targeted foundOld foundNew]
    exact earlier position bound new foundNew

theorem trans (first : Frame Targeted Changed before middle)
    (second : Frame Targeted Changed middle after) :
    Frame Targeted Changed before after where
  kept := by
    intro index element found
    obtain ⟨element₁, found₁, step₁⟩ := first.kept index element found
    obtain ⟨element₂, found₂, step₂⟩ := second.kept index element₁ found₁
    refine ⟨element₂, found₂, ?_⟩
    rcases step₂ with rfl | ⟨⟨target, targeted, isFirst⟩, changed⟩
    · exact step₁
    · have inside : index < before.length := (List.getElem?_eq_some_iff.mp found).1
      exact .inr ⟨⟨target, targeted, first.isFirst_of_frame edit targeted inside isFirst⟩,
        edit.trans (first.changed_at edit found found₁) changed⟩
  appended := by
    intro index element beyond found
    by_cases inside : index < middle.length
    · have found₁ := getElem?_eq_getElem inside
      obtain ⟨target, targeted, unmatched, changed⟩ := first.appended index _ beyond found₁
      exact ⟨target, targeted, unmatched,
        edit.trans changed (second.changed_at edit found₁ found)⟩
    · obtain ⟨target, targeted, unmatched, changed⟩ :=
        second.appended index element (by omega) found
      exact ⟨target, targeted, first.unmatched_of_frame edit targeted unmatched, changed⟩
  appended_unique := by
    intro target targeted index other element element' beyond beyond' found found'
      matched matched'
    -- A position filled by the first run cannot share its target with one filled by
    -- the second: the second appends only for targets that have no match yet.
    have split : ∀ {position position' : Nat} {old new : α}, position < middle.length →
        middle.length ≤ position' → after[position]? = some old →
        after[position']? = some new → target.matching old = true →
        target.matching new = true → False := by
      intro position position' old new inside outside foundOld foundNew matchedOld matchedNew
      obtain ⟨source, sourceTargeted, unmatched, changed⟩ :=
        second.appended position' new outside foundNew
      have sameSearch : target.matching = source.matching :=
        edit.separate targeted sourceTargeted
          (by rw [← edit.matching_eq targeted changed, matchedNew])
      have found₁ := getElem?_eq_getElem inside
      have matched₁ : target.matching middle[position] = true := by
        rw [← second.matching_at edit targeted found₁ foundOld, matchedOld]
      rw [sameSearch, unmatched _ (getElem_mem inside)] at matched₁
      exact Bool.noConfusion matched₁
    by_cases inside : index < middle.length <;> by_cases inside' : other < middle.length
    · have found₁ := getElem?_eq_getElem inside
      have found₁' := getElem?_eq_getElem inside'
      refine first.appended_unique target targeted index other _ _ beyond beyond' found₁
        found₁' ?_ ?_
      · rw [← second.matching_at edit targeted found₁ found, matched]
      · rw [← second.matching_at edit targeted found₁' found', matched']
    · exact (split inside (by omega) found found' matched matched').elim
    · exact (split inside' (by omega) found' found matched' matched).elim
    · exact second.appended_unique target targeted index other _ _ (by omega) (by omega)
        found found' matched matched'

end

theorem of_upsertFirst (targeted : Targeted target) (change : α → α)
    (changes : ∀ element, Changed element (change element)) (before : List α) :
    Frame Targeted Changed before (upsertFirst target change before) := by
  unfold upsertFirst
  cases found : before.find? target.matching with
  | some _ =>
    refine ⟨?_, ?_, ?_⟩
    · intro index element present
      rcases modifyFirst_getElem? target.matching change before index element present with
        same | ⟨isFirst, changed⟩
      · exact ⟨element, same, .inl rfl⟩
      · exact ⟨_, changed, .inr ⟨⟨target, targeted, isFirst⟩, changes element⟩⟩
    · intro index element beyond present
      simp [beyond] at present
    · intro _ _ index _ _ _ beyond _ present
      simp [beyond] at present
  | none =>
    have unmatched : ∀ old ∈ before, target.matching old = false := by
      simpa using find?_eq_none.mp found
    refine ⟨?_, ?_, ?_⟩
    · intro index element present
      exact ⟨element, by rw [getElem?_append_left
        (List.getElem?_eq_some_iff.mp present).1, present], .inl rfl⟩
    · intro index element beyond present
      rw [getElem?_append_right beyond, getElem?_singleton] at present
      split at present
      · obtain rfl : change target.blank = element := by simpa using present
        exact ⟨target, targeted, unmatched, changes _⟩
      · simp at present
    · intro _ _ index other _ _ beyond beyond' present present' _ _
      have bound := (List.getElem?_eq_some_iff.mp present).1
      have bound' := (List.getElem?_eq_some_iff.mp present').1
      simp only [length_append, length_singleton] at bound bound'
      omega

end Frame

end Quagga.Foundation
