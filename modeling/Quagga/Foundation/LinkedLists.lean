import Mathlib.Data.List.Induction
import Mathlib.Data.List.Nodup
import Mathlib.Logic.Function.Basic

/-!
# Doubly linked lists

Several lists share one memory of cells. A list has a head, a cell has links to its neighbours.
Cells are linked in at the head and can be taken out anywhere, if the list they are on is known.
-/

namespace Quagga.Foundation

open Function List Option

structure ListCell (α : Type) where
  value : α
  next? : Option Nat
  prev? : Option Nat
deriving Repr, DecidableEq

namespace ListCell

variable {α : Type}

def setNext (next? : Option Nat) (cell : ListCell α) : ListCell α := { cell with next? := next? }

def setPrev (prev? : Option Nat) (cell : ListCell α) : ListCell α := { cell with prev? := prev? }

def changeValue (edit : α → α) (cell : ListCell α) : ListCell α :=
  { cell with value := edit cell.value }

end ListCell

/-- The memory of the cells, and the heads of the lists. -/
structure LinkedLists (Head α : Type) where
  cells : Nat → Option (ListCell α)
  heads : Head → Option Nat

namespace LinkedLists

variable {Head α : Type}

def empty : LinkedLists Head α := ⟨fun _ => none, fun _ => none⟩

variable (lists : LinkedLists Head α)

/-- Access through a pointer that leads nowhere gives nothing. -/
def change (pointer : Nat) (edit : ListCell α → ListCell α) : Option (LinkedLists Head α) :=
  (lists.cells pointer).map fun cell =>
    { lists with cells := update lists.cells pointer (some (edit cell)) }

def changeAny (pointer? : Option Nat) (edit : ListCell α → ListCell α) :
    Option (LinkedLists Head α) :=
  match pointer? with
  | none => some lists
  | some pointer => lists.change pointer edit

def setHead [DecidableEq Head] (head : Head) (pointer? : Option Nat) : LinkedLists Head α :=
  { lists with heads := update lists.heads head pointer? }

def allocate (pointer : Nat) (value : α) : LinkedLists Head α :=
  { lists with cells := update lists.cells pointer (some ⟨value, none, none⟩) }

def free (pointer : Nat) : LinkedLists Head α :=
  { lists with cells := update lists.cells pointer none }

def pushFront [DecidableEq Head] (head : Head) (pointer : Nat) : Option (LinkedLists Head α) := do
  let new ← lists.change pointer fun cell => ⟨cell.value, lists.heads head, none⟩
  (new.changeAny (new.heads head) (.setPrev (some pointer))).map (·.setHead head (some pointer))

def unlink [DecidableEq Head] (head : Head) (pointer : Nat) : Option (LinkedLists Head α) := do
  let cell ← lists.cells pointer
  let lists ← lists.changeAny cell.next? (.setPrev cell.prev?)
  match cell.prev? with
  | some prev => lists.change prev (.setNext cell.next?)
  | none => return lists.setHead head cell.next?

/-! ## What the lists hold -/

/-- The cells are linked in this order, between `prev?` and `next?`. -/
def Segment (cells : Nat → Option (ListCell α)) : Option Nat → List Nat → Option Nat → Prop
  | _, [], _ => True
  | prev?, pointer :: rest, next? =>
    (∃ value, cells pointer = some ⟨value, rest.head?.or next?, prev?⟩) ∧
      Segment cells (some pointer) rest next?

structure Represents (contents : Head → List Nat) : Prop where
  linked : ∀ head, Segment lists.cells none (contents head) none
  first : ∀ head, lists.heads head = (contents head).head?
  distinct : ∀ head, (contents head).Nodup
  apart : ∀ first second, first ≠ second → (contents first).Disjoint (contents second)

variable {lists} {cells after : Nat → Option (ListCell α)} {prev? next? : Option Nat}
  {pointers front back : List Nat} {pointer : Nat}

theorem update_of_mem {β : Type} {cells : Nat → β} {other : Nat} (isIn : other ∈ pointers)
    (notIn : pointer ∉ pointers) (value : β) : update cells pointer value other = cells other :=
  update_of_ne (ne_of_mem_of_not_mem isIn notIn) _ _

theorem empty_represents : (empty : LinkedLists Head α).Represents fun _ => [] :=
  ⟨fun _ => trivial, fun _ => rfl, fun _ => .nil, fun _ _ _ => disjoint_nil_left _⟩

theorem Segment.frame (segment : Segment cells prev? pointers next?)
    (agree : ∀ pointer ∈ pointers, after pointer = cells pointer) :
    Segment after prev? pointers next? := by
  induction pointers generalizing prev? with
  | nil => trivial
  | cons pointer rest induction =>
    rcases segment with ⟨⟨value, found⟩, linked⟩
    refine ⟨⟨value, ?_⟩, induction linked ?_⟩
    · rw [agree pointer mem_cons_self, found]
    · intro other isIn
      exact agree other (mem_cons_of_mem _ isIn)

theorem segment_append :
    Segment cells prev? (front ++ back) next? ↔
      Segment cells prev? front (back.head?.or next?) ∧
        Segment cells (front.getLast?.or prev?) back next? := by
  induction front generalizing prev? with
  | nil => simp [Segment]
  | cons first front induction =>
    have last : (first :: front).getLast?.or prev? = front.getLast?.or (some first) := by
      rw [getLast?_cons]
      cases front.getLast? <;> rfl
    have head : (front ++ back).head?.or next? = front.head?.or (back.head?.or next?) := by
      rw [head?_append, Option.or_assoc]
    rw [cons_append, Segment, Segment, induction, last, head, and_assoc]

variable {cell : ListCell α}

theorem Segment.value_change {edit : α → α} (segment : Segment cells prev? pointers next?)
    {changed : Nat} (found : cells changed = some cell) :
    Segment (update cells changed (some (cell.changeValue edit))) prev? pointers next? := by
  induction pointers generalizing prev? with
  | nil => trivial
  | cons pointer rest induction =>
    rcases segment with ⟨⟨value, here⟩, linked⟩
    refine ⟨?_, induction linked⟩
    by_cases same : pointer = changed
    · subst same
      cases found.symm.trans here
      exact ⟨edit value, update_self _ _ _⟩
    · exact ⟨value, by rw [update_of_ne same, here]⟩

theorem Segment.setPrev (segment : Segment cells prev? (pointer :: back) next?)
    (notIn : pointer ∉ back) (new? : Option Nat) (found : cells pointer = some cell) :
    Segment (update cells pointer (some (cell.setPrev new?))) new? (pointer :: back) next? := by
  rcases segment with ⟨⟨value, here⟩, linked⟩
  cases found.symm.trans here
  exact ⟨⟨value, update_self _ _ _⟩, linked.frame fun other isIn => update_of_mem isIn notIn _⟩

theorem Segment.setNext (segment : Segment cells prev? (front ++ [pointer]) next?)
    (notIn : pointer ∉ front) (new? : Option Nat) (found : cells pointer = some cell) :
    Segment (update cells pointer (some (cell.setNext new?))) prev? (front ++ [pointer])
      new? := by
  rw [segment_append] at segment ⊢
  rcases segment with ⟨frontLinked, ⟨value, here⟩, _⟩
  cases found.symm.trans here
  refine ⟨?_, ⟨value, update_self _ _ _⟩, trivial⟩
  exact frontLinked.frame fun other isIn => update_of_mem isIn notIn _

def SameValues (after lists : LinkedLists Head α) : Prop :=
  ∀ pointer, (after.cells pointer).map ListCell.value = (lists.cells pointer).map ListCell.value

theorem SameValues.trans {first second third : LinkedLists Head α} (later : SameValues third second)
    (earlier : SameValues second first) :
    SameValues third first := fun pointer => (later pointer).trans (earlier pointer)

theorem sameValues_update (found : lists.cells pointer = some cell) (changed : ListCell α)
    (same : changed.value = cell.value) (heads : Head → Option Nat) :
    SameValues ⟨update lists.cells pointer (some changed), heads⟩ lists := by
  intro other
  by_cases isHere : other = pointer
  · subst isHere
    simp [found, same]
  · simp [update_of_ne isHere]

/-! ## Linking in at the head -/

variable {contents : Head → List Nat}

theorem change_of_some {edit : ListCell α → ListCell α} (found : lists.cells pointer = some cell) :
    lists.change pointer edit =
      some { lists with cells := update lists.cells pointer (some (edit cell)) } := by
  rw [change, found, map_some]

theorem changeAny_of_head {segment : List Nat} (linked : Segment lists.cells prev? segment next?)
    (distinct : segment.Nodup) (new? : Option Nat) :
    ∃ changed, lists.changeAny segment.head? (.setPrev new?) = some changed ∧
      Segment changed.cells new? segment next? ∧ changed.heads = lists.heads ∧
      SameValues changed lists ∧
      ∀ other ∉ segment, changed.cells other = lists.cells other := by
  cases segment with
  | nil => exact ⟨lists, rfl, trivial, rfl, fun _ => rfl, fun _ _ => rfl⟩
  | cons first rest =>
    rcases linked.1 with ⟨value, found⟩
    refine ⟨_, change_of_some found, linked.setPrev (nodup_cons.mp distinct).1 new? found, rfl,
      sameValues_update found (.setPrev new? _) rfl _, ?_⟩
    intro other notIn
    apply update_of_ne
    rintro rfl
    exact notIn mem_cons_self

section

variable [DecidableEq Head]

theorem Represents.of_list (represents : lists.Represents contents) {changed : LinkedLists Head α}
    {head : Head} {pointers : List Nat} (linked : Segment changed.cells none pointers none)
    (first : changed.heads head = pointers.head?) (distinct : pointers.Nodup)
    (apart : ∀ other, other ≠ head → pointers.Disjoint (contents other))
    (otherHeads : ∀ other, other ≠ head → changed.heads other = lists.heads other)
    (otherCells : ∀ other, other ≠ head → ∀ pointer ∈ contents other,
      changed.cells pointer = lists.cells pointer) :
    changed.Represents (update contents head pointers) where
  linked other := by
    by_cases same : other = head
    · subst same
      rw [update_self]
      exact linked
    · rw [update_of_ne same]
      exact (represents.linked other).frame (otherCells other same)
  first other := by
    by_cases same : other = head
    · subst same
      rw [update_self]
      exact first
    · rw [update_of_ne same, otherHeads other same]
      exact represents.first other
  distinct other := by
    by_cases same : other = head
    · subst same
      rw [update_self]
      exact distinct
    · rw [update_of_ne same]
      exact represents.distinct other
  apart first second different := by
    by_cases isFirst : first = head
    · have notSecond : second ≠ head := fun same => different (isFirst.trans same.symm)
      rw [isFirst, update_self, update_of_ne notSecond]
      exact apart second notSecond
    · rw [update_of_ne isFirst]
      by_cases isSecond : second = head
      · rw [isSecond, update_self]
        exact fun pointer isIn isNew => apart first isFirst isNew isIn
      · rw [update_of_ne isSecond]
        exact represents.apart first second different

theorem pushFront_represents (represents : lists.Represents contents) (head : Head)
    (found : lists.cells pointer = some cell) (notIn : ∀ other, pointer ∉ contents other) :
    ∃ changed, lists.pushFront head pointer = some changed ∧
      changed.Represents (update contents head (pointer :: contents head)) ∧
      SameValues changed lists ∧
      ∀ other, other ≠ pointer → other ∉ contents head →
        changed.cells other = lists.cells other := by
  have first := represents.first head
  let new : ListCell α := ⟨cell.value, lists.heads head, none⟩
  let linked : LinkedLists Head α :=
    { lists with cells := update lists.cells pointer (some new) }
  have linkedValues : SameValues linked lists := sameValues_update found new rfl lists.heads
  have framed : Segment linked.cells none (contents head) none :=
    (represents.linked head).frame fun other isIn => update_of_mem isIn (notIn head) _
  rcases changeAny_of_head framed (represents.distinct head) (some pointer) with
    ⟨changed, relinked, segment, heads, values, elsewhere⟩
  have start : lists.pushFront head pointer = some (changed.setHead head (some pointer)) := by
    rw [pushFront, change_of_some found]
    change (linked.changeAny (lists.heads head) _).map _ = _
    rw [first, relinked, map_some]
  refine ⟨_, start, ?_, values.trans linkedValues, ?_⟩
  · apply represents.of_list _ (update_self _ _ _)
      (nodup_cons.mpr ⟨notIn head, represents.distinct head⟩)
    · intro other different
      rw [disjoint_cons_left]
      exact ⟨notIn other, represents.apart head other (Ne.symm different)⟩
    · intro other different
      rw [← heads]
      exact update_of_ne different _ _
    · intro other different member isIn
      apply (elsewhere member ?_).trans (update_of_mem isIn (notIn other) _)
      exact fun isHere => represents.apart head other (Ne.symm different) isHere isIn
    · refine ⟨⟨cell.value, ?_⟩, segment⟩
      apply (elsewhere pointer (notIn head)).trans
      simp [linked, new, first]
  · intro other different notMember
    exact (elsewhere other notMember).trans (update_of_ne different _ _)

/-! ## Taking out -/

theorem unlink_represents (represents : lists.Represents contents) {head : Head}
    (members : contents head = front ++ pointer :: back) :
    ∃ changed, lists.unlink head pointer = some changed ∧
      changed.Represents (update contents head (front ++ back)) ∧
      SameValues changed lists ∧
      ∀ other, other ∉ contents head → changed.cells other = lists.cells other := by
  have segment := represents.linked head
  have distinct := represents.distinct head
  have first := represents.first head
  have apart : ∀ other, other ≠ head → (front ++ back).Disjoint (contents other) := by
    intro other different member isIn isOther
    apply represents.apart head other (Ne.symm different) _ isOther
    rw [members]
    simp only [mem_append] at isIn ⊢
    tauto
  rw [members] at segment distinct first
  rw [segment_append] at segment
  rcases segment with ⟨frontLinked, ⟨value, found⟩, backLinked⟩
  rw [nodup_append'] at distinct
  rcases distinct with ⟨frontDistinct, restDistinct, separate⟩
  rw [nodup_cons] at restDistinct
  have newDistinct : (front ++ back).Nodup := by
    rw [nodup_append']
    exact ⟨frontDistinct, restDistinct.2, fun member isFront isBack =>
      separate isFront (mem_cons_of_mem _ isBack)⟩
  rcases changeAny_of_head backLinked restDistinct.2 (front.getLast?.or none) with
    ⟨middle, relinked, backAgain, sameHeads, middleValues, elsewhere⟩
  rw [or_none] at relinked backAgain
  have frontStill : Segment middle.cells none front ((pointer :: back).head?.or none) := by
    apply frontLinked.frame
    intro other isFront
    apply elsewhere
    intro isBack
    exact separate isFront (mem_cons_of_mem _ isBack)
  have otherCells : ∀ other, other ≠ head → ∀ member ∈ contents other,
      middle.cells member = lists.cells member := by
    intro other different member isIn
    apply elsewhere
    intro isBack
    exact apart other different (mem_append_right _ isBack) isIn
  cases front using List.reverseRecOn with
  | nil =>
    rw [getLast?_nil] at relinked
    refine ⟨middle.setHead head back.head?, by simp [unlink, found, relinked], ?_, middleValues, ?_⟩
    · have linked : Segment (middle.setHead head back.head?).cells none ([] ++ back) none :=
        backAgain
      apply represents.of_list linked (update_self _ _ _) newDistinct apart _ otherCells
      intro other different
      change update middle.heads head _ other = _
      rw [update_of_ne different, sameHeads]
    · intro other notMember
      apply elsewhere
      rw [members] at notMember
      exact fun isBack => notMember (mem_cons_of_mem _ isBack)
  | append_singleton earlier prev =>
    rw [getLast?_concat] at found relinked backAgain
    have notEarlier : prev ∉ earlier := by
      intro isEarlier
      rw [nodup_append'] at frontDistinct
      exact frontDistinct.2.2 isEarlier (mem_singleton.mpr rfl)
    have notBack : prev ∉ back := by
      intro isBack
      exact separate (by simp) (mem_cons_of_mem _ isBack)
    rcases (segment_append.mp frontStill).2.1 with ⟨prevValue, prevFound⟩
    have unlinked : lists.unlink head pointer = middle.change prev (.setNext back.head?) := by
      simp [unlink, found, relinked]
    refine ⟨_, unlinked.trans (change_of_some prevFound), ?_, ?_, ?_⟩
    · apply represents.of_list _ _ newDistinct apart
      · intro other different
        rw [sameHeads]
      · intro other different member isIn
        rw [← otherCells other different member isIn]
        apply update_of_ne
        rintro rfl
        exact apart other different (by simp) isIn
      · have tail : back.head?.or none = back.head? := or_none
        rw [segment_append, tail, getLast?_concat]
        exact ⟨frontStill.setNext notEarlier back.head? prevFound,
          backAgain.frame fun other isBack => update_of_mem isBack notBack _⟩
      · rw [sameHeads, first]
        simp
    · exact (sameValues_update prevFound (.setNext back.head? _) rfl _).trans middleValues
    · intro other notMember
      rw [members] at notMember
      have notPrev : other ≠ prev := by
        rintro rfl
        exact notMember (by simp)
      apply (update_of_ne notPrev _ _).trans
      apply elsewhere
      exact fun isBack => notMember (mem_append_right _ (mem_cons_of_mem _ isBack))

/-! ## Other changes -/

theorem Represents.detach (represents : lists.Represents contents) (head : Head) :
    (lists.setHead head none).Represents (update contents head []) := by
  have linked : Segment (lists.setHead head none).cells none [] none := trivial
  apply represents.of_list linked (update_self _ _ _) .nil
  · intro other _
    exact disjoint_nil_left _
  · intro other different
    exact update_of_ne different _ _
  · intro other _ member _
    rfl

end

section

variable (represents : lists.Represents contents)
include represents

theorem Represents.changeValue (found : lists.cells pointer = some cell) (edit : α → α) :
    Represents { lists with
      cells := update lists.cells pointer (some (cell.changeValue edit)) } contents :=
  ⟨fun head => (represents.linked head).value_change found, represents.first, represents.distinct,
    represents.apart⟩

theorem Represents.update (notIn : ∀ head, pointer ∉ contents head) (cell? : Option (ListCell α)) :
    Represents { lists with cells := update lists.cells pointer cell? } contents := by
  refine ⟨?_, represents.first, represents.distinct, represents.apart⟩
  intro head
  exact (represents.linked head).frame fun other isIn => update_of_mem isIn (notIn head) _

theorem Represents.exists_cell {head : Head} (isIn : pointer ∈ contents head) :
    ∃ cell, lists.cells pointer = some cell := by
  rcases append_of_mem isIn with ⟨front, back, members⟩
  have segment := represents.linked head
  rw [members, segment_append] at segment
  rcases segment.2.1 with ⟨value, found⟩
  exact ⟨_, found⟩

end

end LinkedLists

end Quagga.Foundation
