import Mathlib.Data.List.Infix
import Mathlib.Data.List.Lex
import Mathlib.Data.Bool.Basic
import Mathlib.Order.BooleanAlgebra.Basic
import Quagga.Foundation.LinkedTree

/-!
# Trees ordered by bit strings

Every cell has a bit string as its key. What stands below a cell extends its key, by a zero bit
on the left and by a one bit on the right. A search for a bit string follows its bits down. The
entries of the tree stand in the lexicographic order of their keys.
-/

namespace Quagga.Foundation

open List

/-! ## Bit strings -/

variable {side : Bool}

section

variable {short long : List Bool}

theorem exists_branch (begins : short <+: long) (different : short ≠ long) :
    ∃ side, short ++ [side] <+: long := by
  rcases begins with ⟨rest, rfl⟩
  cases rest with
  | nil => exact absurd (append_nil short).symm different
  | cons side rest => exact ⟨side, rest, by simp⟩

theorem branch_unique {side other : Bool} (begins : short ++ [side] <+: long)
    (otherBegins : short ++ [other] <+: long) : side = other := by
  have same := prefix_of_prefix_length_le begins otherBegins (by simp)
  simpa using same

theorem begins_of_branch (begins : short ++ [side] <+: long) : short <+: long :=
  (prefix_append short [side]).trans begins

theorem ne_of_branch (begins : short ++ [side] <+: long) : short ≠ long := by
  rintro rfl
  have shorter := begins.length_le
  rw [length_append, length_singleton] at shorter
  omega

theorem begins_of_parting {start common first second : List Bool} (inFirst : start <+: first)
    (inSecond : start <+: second) (branch : common ++ [side] <+: first)
    (parting : common = second ∨ common ++ [!side] <+: second) : start <+: common := by
  rcases parting with rfl | otherBranch
  · exact inSecond
  · rcases Nat.lt_or_ge common.length start.length with longer | shorter
    · have room : (common ++ [side]).length ≤ start.length := by
        rw [length_append]
        exact longer
      have left : common ++ [side] <+: start := prefix_of_prefix_length_le branch inFirst room
      have right : common ++ [!side] <+: start :=
        prefix_of_prefix_length_le otherBranch inSecond (by simpa using room)
      have sides := branch_unique left right
      cases side <;> cases sides
    · exact prefix_of_prefix_length_le inFirst (begins_of_branch branch) shorter

theorem lt_of_branch (begins : short ++ [side] <+: long) : short < long := by
  rcases begins with ⟨rest, rfl⟩
  simpa using Lex.append_left (· < ·) (nil_lt_cons side rest) short

theorem lt_of_divergence {common first second : List Bool} (left : common ++ [false] <+: first)
    (right : common ++ [true] <+: second) : first < second := by
  rcases left with ⟨firstRest, rfl⟩
  rcases right with ⟨secondRest, rfl⟩
  have diverge : false :: firstRest < true :: secondRest := cons_lt_cons_iff.mpr (.inl (by decide))
  simpa using Lex.append_left (· < ·) diverge common

end

variable {α : Type} {key : α → List Bool}

/-! ## Order -/

namespace LinkedTree

def Ordered (key : α → List Bool) : LinkedTree α → Prop
  | leaf => True
  | node _ value left right =>
    (∀ entry ∈ left.entries, key value ++ [false] <+: key entry.2) ∧
      (∀ entry ∈ right.entries, key value ++ [true] <+: key entry.2) ∧
      left.Ordered key ∧ right.Ordered key

theorem ordered_join {pointer : Nat} {value : α} {child sibling : LinkedTree α} :
    (join pointer value side child sibling).Ordered key ↔
      (∀ entry ∈ child.entries, key value ++ [side] <+: key entry.2) ∧
        (∀ entry ∈ sibling.entries, key value ++ [!side] <+: key entry.2) ∧
        child.Ordered key ∧ sibling.Ordered key := by
  cases side with
  | false => exact Iff.rfl
  | true =>
    simp only [join, Ordered]
    tauto

theorem Ordered.begins {pointer : Nat} {value : α} {left right : LinkedTree α}
    (ordered : (node pointer value left right).Ordered key) {entry : Nat × α}
    (member : entry ∈ (node pointer value left right).entries) : key value <+: key entry.2 := by
  simp only [entries, mem_cons, mem_append] at member
  rcases member with rfl | isLeft | isRight
  · exact prefix_refl _
  · exact begins_of_branch (ordered.1 entry isLeft)
  · exact begins_of_branch (ordered.2.1 entry isRight)

theorem Ordered.sorted {tree : LinkedTree α} (ordered : tree.Ordered key) :
    tree.entries.Pairwise fun first second => key first.2 < key second.2 := by
  induction tree with
  | leaf => exact .nil
  | node pointer value left right leftInduction rightInduction =>
    rcases ordered with ⟨leftBegins, rightBegins, leftOrdered, rightOrdered⟩
    rw [entries, pairwise_cons, pairwise_append]
    refine ⟨?_, leftInduction leftOrdered, rightInduction rightOrdered, ?_⟩
    · intro entry member
      rcases mem_append.mp member with isLeft | isRight
      · exact lt_of_branch (leftBegins entry isLeft)
      · exact lt_of_branch (rightBegins entry isRight)
    · intro first isLeft second isRight
      exact lt_of_divergence (leftBegins first isLeft) (rightBegins second isRight)

theorem Ordered.eq_of_key {tree : LinkedTree α} (ordered : tree.Ordered key) {entry other : Nat × α}
    (member : entry ∈ tree.entries) (otherMember : other ∈ tree.entries)
    (same : key entry.2 = key other.2) : entry = other := by
  have distinct : (tree.entries.map fun entry => key entry.2).Nodup := by
    rw [List.Nodup, pairwise_map]
    exact ordered.sorted.imp fun less => ne_of_lt less
  exact inj_on_of_nodup_map distinct member otherMember same

end LinkedTree

namespace Context

/-- The bits lead down to the hole. -/
def Fits (key : α → List Bool) (context : Context α) (bits : List Bool) : Prop :=
  ∀ crumb ∈ context, key crumb.value ++ [crumb.side] <+: bits

def Ordered (key : α → List Bool) : Context α → Prop
  | [] => True
  | crumb :: outer =>
    (∀ entry ∈ crumb.sibling.entries, key crumb.value ++ [!crumb.side] <+: key entry.2) ∧
      crumb.sibling.Ordered key ∧ Fits key outer (key crumb.value) ∧ Ordered key outer

variable {context : Context α} {tree : LinkedTree α} {bits : List Bool}

theorem Fits.extend {longer : List Bool} (fits : context.Fits key bits) (begins : bits <+: longer) :
    context.Fits key longer := fun crumb member => (fits crumb member).trans begins

theorem ordered_plug :
    (context.plug tree).Ordered key ↔ context.Ordered key ∧ tree.Ordered key ∧
      ∀ entry ∈ tree.entries, context.Fits key (key entry.2) := by
  induction context generalizing tree with
  | nil => simp [plug, Ordered, Fits]
  | cons crumb outer induction =>
    have join : (crumb.close tree).Ordered key ↔ _ := LinkedTree.ordered_join
    rw [plug, induction, join]
    refine ⟨?_, ?_⟩
    · rintro ⟨outerOrdered, ⟨childBegins, siblingBegins, childOrdered, siblingOrdered⟩, fits⟩
      have own := fits (crumb.pointer, crumb.value) (crumb.mem_close.mpr (.inl rfl))
      refine ⟨⟨siblingBegins, siblingOrdered, own, outerOrdered⟩, childOrdered, ?_⟩
      intro entry member
      exact forall_mem_cons.mpr
        ⟨childBegins entry member, fits entry (crumb.mem_close.mpr (.inr (.inl member)))⟩
    · rintro ⟨⟨siblingBegins, siblingOrdered, own, outerOrdered⟩, childOrdered, fits⟩
      have childBegins : ∀ entry ∈ tree.entries,
          key crumb.value ++ [crumb.side] <+: key entry.2 := fun entry member =>
        fits entry member crumb mem_cons_self
      refine ⟨outerOrdered, ⟨childBegins, siblingBegins, childOrdered, siblingOrdered⟩, ?_⟩
      intro entry member
      rcases crumb.mem_close.mp member with rfl | isChild | isSibling
      · exact own
      · exact own.extend (begins_of_branch (childBegins entry isChild))
      · exact own.extend (begins_of_branch (siblingBegins entry isSibling))

theorem Ordered.outer {inner outer : Context α} (ordered : Ordered key (inner ++ outer)) :
    Ordered key outer := by
  induction inner with
  | nil => exact ordered
  | cons crumb inner induction => exact induction ordered.2.2.2

section

variable (fits : context.Fits key bits) (ordered : context.Ordered key) {entry : Nat × α}
include fits ordered

theorem Fits.above (member : entry ∈ context.before ++ context.behind)
    (begins : key entry.2 <+: bits) : ∃ crumb ∈ context, entry = (crumb.pointer, crumb.value) := by
  induction context with
  | nil => cases member
  | cons crumb outer induction =>
    rcases ordered with ⟨siblingBegins, _, _, outerOrdered⟩
    rcases forall_mem_cons.mp fits with ⟨branch, outerFits⟩
    rcases mem_cons.mp member with own | isSibling | isOuter
    · exact ⟨crumb, mem_cons_self, own⟩
    · have parts := branch_unique ((siblingBegins entry isSibling).trans begins) branch
      cases side : crumb.side <;> simp at parts
    · rcases induction outerFits outerOrdered isOuter with ⟨above, isAbove, same⟩
      exact ⟨above, mem_cons_of_mem _ isAbove, same⟩

theorem Fits.before_lt (member : entry ∈ context.before) : key entry.2 < bits := by
  induction context with
  | nil => cases member
  | cons crumb outer induction =>
    rcases ordered with ⟨siblingBegins, _, _, outerOrdered⟩
    rcases forall_mem_cons.mp fits with ⟨branch, outerFits⟩
    rcases mem_append.mp member with isOuter | isOwn
    · exact induction outerFits outerOrdered isOuter
    · rcases List.mem_cons.mp isOwn with rfl | isSibling
      · exact lt_of_branch branch
      · split_ifs at isSibling with side
        · rw [side] at branch
          have begins := siblingBegins entry isSibling
          rw [side] at begins
          exact lt_of_divergence begins branch
        · cases isSibling

theorem Fits.lt_behind (member : entry ∈ context.behind) : bits < key entry.2 := by
  induction context with
  | nil => cases member
  | cons crumb outer induction =>
    rcases ordered with ⟨siblingBegins, _, _, outerOrdered⟩
    rcases forall_mem_cons.mp fits with ⟨branch, outerFits⟩
    rcases mem_append.mp member with isOwn | isOuter
    · unfold Crumb.behind at isOwn
      split_ifs at isOwn with side
      · cases isOwn
      · have isLeft : crumb.side = false := by simpa using side
        rw [isLeft] at branch
        have begins := siblingBegins entry isOwn
        rw [isLeft] at begins
        exact lt_of_divergence branch begins
    · exact induction outerFits outerOrdered isOuter

end

end Context

end Quagga.Foundation
