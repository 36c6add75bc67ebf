import Mathlib.Data.List.Nodup
import Mathlib.Logic.Function.Basic

/-!
# Binary trees of linked cells

A cell holds a value, two links to its children and one to its parent. A tree is represented by
cells when every link leads where the tree says. A cell inside a tree splits it into the
subtree below the cell and the context around it, which is how code that follows the links sees
the tree.
-/

namespace Quagga.Foundation

open List

variable {α : Type} {hole? : Option Nat}

structure Cell (α : Type) where
  value : α
  parent? : Option Nat
  left? : Option Nat
  right? : Option Nat
deriving Repr, DecidableEq

namespace Cell

def link (cell : Cell α) : Bool → Option Nat
  | false => cell.left?
  | true => cell.right?

def setLink (side : Bool) (child? : Option Nat) (cell : Cell α) : Cell α :=
  match side with
  | false => { cell with left? := child? }
  | true => { cell with right? := child? }

def setParent (parent? : Option Nat) (cell : Cell α) : Cell α := { cell with parent? := parent? }

/-- A cell by the links to a child on the given side and to its sibling. -/
def of (value : α) (parent? : Option Nat) (side : Bool) (child? sibling? : Option Nat) : Cell α :=
  match side with
  | false => ⟨value, parent?, child?, sibling?⟩
  | true => ⟨value, parent?, sibling?, child?⟩

def changeValue (edit : α → α) (cell : Cell α) : Cell α := { cell with value := edit cell.value }

section

variable (value : α) (parent? : Option Nat) (side : Bool) (child? sibling? new? : Option Nat)

@[simp] theorem value_of : (of value parent? side child? sibling?).value = value := by
  cases side <;> rfl

@[simp] theorem setLink_of :
    (of value parent? side child? sibling?).setLink side new? =
      of value parent? side new? sibling? := by
  cases side <;> rfl

end

end Cell

/-- The cells behind pointers. A pointer to a cell that was freed leads nowhere. -/
abbrev Store (α : Type) := Nat → Option (Cell α)

def Store.change (pointer : Nat) (edit : Cell α → Cell α) (store : Store α) : Store α :=
  Function.update store pointer ((store pointer).map edit)

theorem Store.change_of_ne {pointer other : Nat} (different : other ≠ pointer)
    (edit : Cell α → Cell α) (store : Store α) : store.change pointer edit other = store other :=
  Function.update_of_ne different _ store

variable {pointer : Nat}

theorem Store.change_self {store : Store α} {cell : Cell α} (found : store pointer = some cell)
    (edit : Cell α → Cell α) : store.change pointer edit pointer = some (edit cell) := by
  rw [Store.change, Function.update_self, found, Option.map_some]

/-! ## Trees -/

inductive LinkedTree (α : Type) where
  | leaf
  | node (pointer : Nat) (value : α) (left right : LinkedTree α)

variable {value : α} {left right : LinkedTree α} {child sibling : LinkedTree α}

namespace LinkedTree

def root? : LinkedTree α → Option Nat
  | leaf => none
  | node pointer _ _ _ => some pointer

/-- Pointers and values, every cell before its children and the left ones first. -/
def entries : LinkedTree α → List (Nat × α)
  | leaf => []
  | node pointer value left right => (pointer, value) :: (left.entries ++ right.entries)

def pointers (tree : LinkedTree α) : List Nat := tree.entries.map Prod.fst

def join (pointer : Nat) (value : α) (side : Bool) (child sibling : LinkedTree α) : LinkedTree α :=
  match side with
  | false => node pointer value child sibling
  | true => node pointer value sibling child

/-- The cells of `tree` are stored, and its root has the parent `parent?`. -/
def Stored (store : Store α) : Option Nat → LinkedTree α → Prop
  | _, leaf => True
  | parent?, node pointer value left right =>
    store pointer = some ⟨value, parent?, left.root?, right.root?⟩ ∧
      Stored store (some pointer) left ∧ Stored store (some pointer) right

variable {store after : Store α} {parent? : Option Nat} {tree : LinkedTree α}

theorem mem_pointers_node {pointer other : Nat} :
    other ∈ (node pointer value left right).pointers ↔
      other = pointer ∨ other ∈ left.pointers ∨ other ∈ right.pointers := by
  simp [pointers, entries]

theorem notMem_of_nodup (distinct : (node pointer value left right).pointers.Nodup) :
    pointer ∉ left.pointers ∧ pointer ∉ right.pointers := by
  simp only [pointers, entries, map_cons, map_append, nodup_cons, mem_append, not_or] at distinct
  exact distinct.1

theorem length_pointers_node (pointer : Nat) (value : α) (left right : LinkedTree α) :
    (node pointer value left right).pointers.length =
      left.pointers.length + right.pointers.length + 1 := by
  simp [pointers, entries]

theorem Stored.frame (stored : tree.Stored store parent?)
    (agree : ∀ pointer ∈ tree.pointers, after pointer = store pointer) :
    tree.Stored after parent? := by
  induction tree generalizing parent? with
  | leaf => trivial
  | node pointer value left right leftInduction rightInduction =>
    rcases stored with ⟨found, leftStored, rightStored⟩
    simp only [mem_pointers_node, or_imp, forall_and, forall_eq] at agree
    exact ⟨agree.1.trans found, leftInduction leftStored agree.2.1,
      rightInduction rightStored agree.2.2⟩

theorem Stored.change (stored : tree.Stored store parent?) (missing : pointer ∉ tree.pointers)
    (edit : Cell α → Cell α) : tree.Stored (store.change pointer edit) parent? := by
  apply stored.frame
  intro other isIn
  apply Store.change_of_ne
  rintro rfl
  exact missing isIn

theorem stored_join {side : Bool} :
    (join pointer value side child sibling).Stored store parent? ↔
      store pointer = some (.of value parent? side child.root? sibling.root?) ∧
        child.Stored store (some pointer) ∧ sibling.Stored store (some pointer) := by
  cases side with
  | false => exact Iff.rfl
  | true =>
    simp only [join, Stored, Cell.of]
    rw [and_comm (a := child.Stored store (some pointer))]

theorem root?_join {side : Bool} :
    (join pointer value side child sibling).root? = some pointer := by
  cases side <;> rfl

theorem mem_pointers_join {pointer other : Nat} {side : Bool} :
    other ∈ (join pointer value side child sibling).pointers ↔
      other = pointer ∨ other ∈ child.pointers ∨ other ∈ sibling.pointers := by
  cases side with
  | false => exact mem_pointers_node
  | true =>
    rw [join, mem_pointers_node]
    tauto

theorem entries_join_leaf (pointer : Nat) (value : α) (side : Bool) (child : LinkedTree α) :
    (join pointer value side child leaf).entries = (pointer, value) :: child.entries := by
  cases side <;> simp [join, entries]

theorem pointers_join_leaf (pointer : Nat) (value : α) (side : Bool) (child : LinkedTree α) :
    (join pointer value side child leaf).pointers = pointer :: child.pointers := by
  rw [pointers, entries_join_leaf]
  rfl

theorem Stored.reparent (stored : (node pointer value left right).Stored store parent?)
    (distinct : (node pointer value left right).pointers.Nodup) (new? : Option Nat) :
    (node pointer value left right).Stored (store.change pointer (Cell.setParent new?)) new? := by
  rcases stored with ⟨found, leftStored, rightStored⟩
  rcases notMem_of_nodup distinct with ⟨notLeft, notRight⟩
  exact ⟨Store.change_self found _, leftStored.change notLeft _, rightStored.change notRight _⟩

end LinkedTree

/-! ## Contexts -/

/-- A cell above a hole: the hole is its child on one side, `sibling` the one on the other. -/
structure Crumb (α : Type) where
  pointer : Nat
  value : α
  side : Bool
  sibling : LinkedTree α

variable {tree : LinkedTree α}

namespace Crumb

variable (crumb : Crumb α)

def close (tree : LinkedTree α) : LinkedTree α :=
  .join crumb.pointer crumb.value crumb.side tree crumb.sibling

/-- The entries of the cell and its sibling that come before those of the hole. -/
def before : List (Nat × α) :=
  (crumb.pointer, crumb.value) :: if crumb.side then crumb.sibling.entries else []

def behind : List (Nat × α) := if crumb.side then [] else crumb.sibling.entries

theorem entries_close (tree : LinkedTree α) :
    (crumb.close tree).entries = crumb.before ++ tree.entries ++ crumb.behind := by
  unfold close before behind
  cases crumb.side <;> simp [LinkedTree.join, LinkedTree.entries]

theorem mem_close {entry : Nat × α} :
    entry ∈ (crumb.close tree).entries ↔ entry = (crumb.pointer, crumb.value) ∨
      entry ∈ tree.entries ∨ entry ∈ crumb.sibling.entries := by
  rw [entries_close]
  cases side : crumb.side <;> simp [before, behind] <;> tauto

end Crumb

/-- The cells above a hole, the innermost first. -/
abbrev Context (α : Type) := List (Crumb α)

variable {crumb : Crumb α}

namespace Context

def parent? (context : Context α) : Option Nat := context.head?.map Crumb.pointer

def plug : Context α → LinkedTree α → LinkedTree α
  | [], tree => tree
  | crumb :: outer, tree => plug outer (crumb.close tree)

def before : Context α → List (Nat × α)
  | [] => []
  | crumb :: outer => before outer ++ crumb.before

def behind : Context α → List (Nat × α)
  | [] => []
  | crumb :: outer => crumb.behind ++ behind outer

def pointers (context : Context α) : List Nat := (context.before ++ context.behind).map Prod.fst

def Stored (store : Store α) : Context α → Option Nat → Prop
  | [], _ => True
  | crumb :: outer, hole? =>
    store crumb.pointer =
        some (.of crumb.value (parent? outer) crumb.side hole? crumb.sibling.root?) ∧
      crumb.sibling.Stored store (some crumb.pointer) ∧
      Stored store outer (some crumb.pointer)

variable {store after : Store α} {context : Context α} {tree : LinkedTree α}

theorem entries_plug (context : Context α) (tree : LinkedTree α) :
    (context.plug tree).entries = context.before ++ tree.entries ++ context.behind := by
  induction context generalizing tree with
  | nil => simp [plug, before, behind]
  | cons crumb outer induction =>
    rw [plug, induction, crumb.entries_close]
    simp [before, behind]

theorem plug_append (inner outer : Context α) (tree : LinkedTree α) :
    plug (inner ++ outer) tree = plug outer (plug inner tree) := by
  induction inner generalizing tree with
  | nil => rfl
  | cons crumb inner induction => exact induction (crumb.close tree)

theorem root?_plug_cons (crumb : Crumb α) (outer : Context α) (tree other : LinkedTree α) :
    (plug (crumb :: outer) tree).root? = (plug (crumb :: outer) other).root? := by
  induction outer generalizing crumb tree other with
  | nil =>
    simp only [plug, Crumb.close]
    rw [LinkedTree.root?_join, LinkedTree.root?_join]
  | cons next outer induction => exact induction next (crumb.close tree) (crumb.close other)

theorem root?_plug (context : Context α) {tree other : LinkedTree α}
    (same : tree.root? = other.root?) : (plug context tree).root? = (plug context other).root? := by
  cases context with
  | nil => exact same
  | cons crumb outer => exact root?_plug_cons crumb outer tree other

theorem pointers_plug (context : Context α) (tree : LinkedTree α) :
    (context.plug tree).pointers =
      context.before.map Prod.fst ++ tree.pointers ++ context.behind.map Prod.fst := by
  rw [LinkedTree.pointers, entries_plug, map_append, map_append]
  rfl

theorem length_add_le (context : Context α) (tree : LinkedTree α) :
    context.length + tree.pointers.length ≤ (context.plug tree).pointers.length := by
  induction context generalizing tree with
  | nil => exact Nat.le_of_eq (Nat.zero_add _)
  | cons crumb outer induction =>
    have inside := induction (crumb.close tree)
    have closed : tree.pointers.length + 1 ≤ (crumb.close tree).pointers.length := by
      simp only [LinkedTree.pointers, crumb.entries_close, length_map, length_append,
        Crumb.before, length_cons]
      omega
    rw [length_cons, plug]
    omega

theorem mem_plug_of_crumb (isIn : crumb ∈ context) (tree : LinkedTree α) :
    (crumb.pointer, crumb.value) ∈ (context.plug tree).entries := by
  induction context generalizing tree with
  | nil => cases isIn
  | cons first outer induction =>
    rcases mem_cons.mp isIn with rfl | isOuter
    · rw [plug, entries_plug, crumb.entries_close]
      simp [Crumb.before]
    · exact induction isOuter (first.close tree)

theorem stored_plug :
    (context.plug tree).Stored store none ↔
      context.Stored store tree.root? ∧ tree.Stored store context.parent? := by
  induction context generalizing tree with
  | nil => simp [plug, Stored, parent?]
  | cons crumb outer induction =>
    rw [plug, induction, Crumb.close, LinkedTree.root?_join, LinkedTree.stored_join, Stored]
    tauto

theorem nodup_plug :
    (context.plug tree).pointers.Nodup ↔ context.pointers.Nodup ∧ tree.pointers.Nodup ∧
      ∀ pointer ∈ context.pointers, pointer ∉ tree.pointers := by
  have permuted : (context.plug tree).pointers.Perm (context.pointers ++ tree.pointers) := by
    rw [LinkedTree.pointers, entries_plug, pointers, LinkedTree.pointers, ← map_append]
    apply List.Perm.map
    rw [append_assoc, append_assoc]
    exact List.Perm.append_left _ perm_append_comm
  rw [permuted.nodup_iff, nodup_append']
  rfl

theorem notMem_of_nodup
    (distinct : (plug context (.node pointer value left right)).pointers.Nodup) :
    pointer ∉ context.pointers := by
  intro isContext
  exact (nodup_plug.mp distinct).2.2 _ isContext (LinkedTree.mem_pointers_node.mpr (.inl rfl))

theorem mem_pointers_plug :
    pointer ∈ (context.plug tree).pointers ↔
      pointer ∈ context.pointers ∨ pointer ∈ tree.pointers := by
  simp only [LinkedTree.pointers, pointers, entries_plug, map_append, mem_append]
  tauto

theorem nodup_insert (distinct : (context.plug tree).pointers.Nodup)
    (new : pointer ∉ (context.plug tree).pointers) (value : α) (side : Bool) :
    (context.plug (.join pointer value side tree .leaf)).pointers.Nodup := by
  rcases nodup_plug.mp distinct with ⟨contextDistinct, treeDistinct, apart⟩
  rw [mem_pointers_plug, not_or] at new
  rw [nodup_plug, LinkedTree.pointers_join_leaf, nodup_cons]
  refine ⟨contextDistinct, ⟨new.2, treeDistinct⟩, ?_⟩
  intro other isContext isIn
  rcases mem_cons.mp isIn with rfl | isTree
  · exact new.1 isContext
  · exact apart other isContext isTree

variable {outer : Context α}

theorem mem_cons {entry : Nat × α} :
    entry ∈ before (crumb :: outer) ++ behind (crumb :: outer) ↔
      entry = (crumb.pointer, crumb.value) ∨ entry ∈ crumb.sibling.entries ∨
        entry ∈ outer.before ++ outer.behind := by
  cases side : crumb.side <;>
    simp [before, behind, Crumb.before, Crumb.behind] <;> tauto

theorem mem_pointers_cons :
    pointer ∈ pointers (crumb :: outer) ↔
      pointer = crumb.pointer ∨ pointer ∈ crumb.sibling.pointers ∨ pointer ∈ outer.pointers := by
  simp only [pointers, LinkedTree.pointers, mem_map, mem_cons, or_and_right, exists_or,
    exists_eq_left, eq_comm]

theorem Stored.frame (stored : context.Stored store hole?)
    (agree : ∀ pointer ∈ context.pointers, after pointer = store pointer) :
    context.Stored after hole? := by
  induction context generalizing hole? with
  | nil => trivial
  | cons crumb outer induction =>
    rcases stored with ⟨found, siblingStored, outerStored⟩
    simp only [mem_pointers_cons, or_imp, forall_and, forall_eq] at agree
    exact ⟨agree.1.trans found, siblingStored.frame agree.2.1, induction outerStored agree.2.2⟩

theorem Stored.change (stored : context.Stored store hole?) (missing : pointer ∉ context.pointers)
    (edit : Cell α → Cell α) : context.Stored (store.change pointer edit) hole? := by
  apply stored.frame
  intro other isIn
  apply Store.change_of_ne
  rintro rfl
  exact missing isIn

theorem nodup_cons :
    (pointers (crumb :: outer)).Nodup ↔
      crumb.pointer ∉ crumb.sibling.pointers ∧ crumb.pointer ∉ outer.pointers ∧
        outer.pointers.Nodup ∧ crumb.sibling.pointers.Nodup ∧
        ∀ pointer ∈ outer.pointers, pointer ∉ crumb.sibling.pointers := by
  have closed : (crumb.close .leaf).pointers = crumb.pointer :: crumb.sibling.pointers := by
    cases side : crumb.side <;>
      simp [Crumb.close, LinkedTree.join, side, LinkedTree.pointers, LinkedTree.entries]
  have whole :
      (pointers (crumb :: outer)).Nodup ↔ (plug (crumb :: outer) .leaf).pointers.Nodup := by
    rw [nodup_plug]
    simp [LinkedTree.pointers, LinkedTree.entries]
  rw [whole, plug, nodup_plug, closed, List.nodup_cons]
  simp only [List.mem_cons, not_or, forall_and, forall_mem_ne']
  tauto

theorem Stored.relink (stored : Stored store (crumb :: outer) hole?)
    (distinct : (pointers (crumb :: outer)).Nodup) (new? : Option Nat) :
    Stored (store.change crumb.pointer (Cell.setLink crumb.side new?)) (crumb :: outer) new? := by
  rcases stored with ⟨found, siblingStored, outerStored⟩
  rcases nodup_cons.mp distinct with ⟨notSibling, notOuter, _⟩
  refine ⟨?_, siblingStored.change notSibling _, outerStored.change notOuter _⟩
  rw [Store.change_self found, Cell.setLink_of]

theorem Stored.link {parent? : Option Nat} (stored : Stored store (crumb :: outer) hole?)
    (rootStored : (LinkedTree.node pointer value left right).Stored store parent?)
    (distinct : (plug (crumb :: outer) (.node pointer value left right)).pointers.Nodup) :
    (plug (crumb :: outer) (.node pointer value left right)).Stored
      ((store.change crumb.pointer (Cell.setLink crumb.side (some pointer))).change pointer
        (Cell.setParent (some crumb.pointer))) none := by
  rcases nodup_plug.mp distinct with ⟨contextDistinct, treeDistinct, apart⟩
  have notTree := apart crumb.pointer (mem_pointers_cons.mpr (.inl rfl))
  rw [stored_plug]
  exact ⟨(stored.relink contextDistinct (some pointer)).change (notMem_of_nodup distinct) _,
    (rootStored.change notTree _).reparent treeDistinct (some crumb.pointer)⟩

theorem Stored.changeValue
    (stored : (plug context (.node pointer value left right)).Stored store none)
    (distinct : (plug context (.node pointer value left right)).pointers.Nodup) (edit : α → α) :
    (plug context (.node pointer (edit value) left right)).Stored
      (store.change pointer (Cell.changeValue edit)) none := by
  rcases LinkedTree.notMem_of_nodup (nodup_plug.mp distinct).2.1 with ⟨notLeft, notRight⟩
  rcases stored_plug.mp stored with ⟨contextStored, found, leftStored, rightStored⟩
  rw [stored_plug]
  exact ⟨contextStored.change (notMem_of_nodup distinct) _, Store.change_self found _,
    leftStored.change notLeft _, rightStored.change notRight _⟩

end Context

/-! ## Changing one value -/

namespace LinkedTree

def changeAt (pointer : Nat) (edit : α → α) : LinkedTree α → LinkedTree α
  | leaf => leaf
  | node own value left right =>
    node own (if own = pointer then edit value else value) (left.changeAt pointer edit)
      (right.changeAt pointer edit)

theorem entries_changeAt (pointer : Nat) (edit : α → α) (tree : LinkedTree α) :
    (tree.changeAt pointer edit).entries = tree.entries.map fun entry =>
    (entry.1, if entry.1 = pointer then edit entry.2 else entry.2) := by
  induction tree with
  | leaf => rfl
  | node own value left right leftInduction rightInduction =>
    rw [changeAt, entries, leftInduction, rightInduction, entries, map_cons, map_append]

theorem changeAt_of_notMem (notIn : pointer ∉ tree.pointers) (edit : α → α) :
    tree.changeAt pointer edit = tree := by
  induction tree with
  | leaf => rfl
  | node own value left right leftInduction rightInduction =>
    rw [mem_pointers_node, not_or, not_or] at notIn
    rw [changeAt, leftInduction notIn.2.1, rightInduction notIn.2.2, if_neg (Ne.symm notIn.1)]

theorem changeAt_comm {first second : Nat} (different : first ≠ second) (edit other : α → α)
    (tree : LinkedTree α) :
    (tree.changeAt first edit).changeAt second other =
      (tree.changeAt second other).changeAt first edit := by
  induction tree with
  | leaf => rfl
  | node own value left right leftInduction rightInduction =>
    simp only [changeAt, leftInduction, rightInduction]
    by_cases isFirst : own = first
    · simp [isFirst, different]
    · simp [isFirst]

end LinkedTree

theorem Crumb.changeAt_close (notOwn : pointer ≠ crumb.pointer)
    (notSibling : pointer ∉ crumb.sibling.pointers) (edit : α → α) :
    (crumb.close tree).changeAt pointer edit = crumb.close (tree.changeAt pointer edit) := by
  have sibling := LinkedTree.changeAt_of_notMem notSibling edit
  unfold Crumb.close LinkedTree.join
  cases crumb.side <;> simp [LinkedTree.changeAt, sibling, Ne.symm notOwn]

theorem Context.changeAt_plug {context : Context α} (notIn : pointer ∉ context.pointers)
    (edit : α → α) :
    (context.plug tree).changeAt pointer edit = context.plug (tree.changeAt pointer edit) := by
  induction context generalizing tree with
  | nil => rfl
  | cons crumb outer induction =>
    rw [Context.mem_pointers_cons, not_or, not_or] at notIn
    rw [plug, induction notIn.2.2, Crumb.changeAt_close notIn.1 notIn.2.1, plug]

theorem Context.changeAt_node {context : Context α}
    (distinct : (context.plug (.node pointer value left right)).pointers.Nodup) (edit : α → α) :
    (context.plug (.node pointer value left right)).changeAt pointer edit =
      context.plug (.node pointer (edit value) left right) := by
  rcases LinkedTree.notMem_of_nodup (nodup_plug.mp distinct).2.1 with ⟨notLeft, notRight⟩
  rw [changeAt_plug (notMem_of_nodup distinct), LinkedTree.changeAt, if_pos rfl,
    LinkedTree.changeAt_of_notMem notLeft, LinkedTree.changeAt_of_notMem notRight]

/-! ## Cells that join two subtrees -/

/-- Every cell is held or has two children. -/
def LinkedTree.Supported (held : α → Prop) : LinkedTree α → Prop
  | leaf => True
  | node _ value left right =>
    (held value ∨ left ≠ leaf ∧ right ≠ leaf) ∧ left.Supported held ∧ right.Supported held

def Context.Supported (held : α → Prop) : Context α → Prop
  | [] => True
  | crumb :: outer =>
    (held crumb.value ∨ crumb.sibling ≠ .leaf) ∧ crumb.sibling.Supported held ∧ Supported held outer

theorem LinkedTree.supported_join {held : α → Prop} {side : Bool} :
    (join pointer value side child sibling).Supported held ↔
      (held value ∨ child ≠ leaf ∧ sibling ≠ leaf) ∧ child.Supported held ∧
        sibling.Supported held := by
  cases side with
  | false => exact Iff.rfl
  | true =>
    simp only [join, Supported]
    tauto

theorem Crumb.exists_node {held : α → Prop} (crumb : Crumb α) (tree : LinkedTree α) :
    ∃ left right, crumb.close tree = .node crumb.pointer crumb.value left right ∧
      (tree.Supported held → crumb.sibling.Supported held →
        left.Supported held ∧ right.Supported held) := by
  unfold close LinkedTree.join
  cases crumb.side with
  | false => exact ⟨tree, crumb.sibling, rfl, fun child sibling => ⟨child, sibling⟩⟩
  | true => exact ⟨crumb.sibling, tree, rfl, fun child sibling => ⟨sibling, child⟩⟩

theorem Context.supported_plug {held : α → Prop} {context : Context α} :
    (context.plug tree).Supported held ↔ context.Supported held ∧ tree.Supported held ∧
      (tree = .leaf → ∀ crumb ∈ context.head?, held crumb.value) := by
  induction context generalizing tree with
  | nil => simp [plug, Supported]
  | cons crumb outer induction =>
    have inside : crumb.close tree ≠ .leaf := by
      unfold Crumb.close LinkedTree.join
      cases crumb.side <;> simp
    have join : (crumb.close tree).Supported held ↔ _ := LinkedTree.supported_join
    rw [plug, induction, join, Supported]
    simp only [inside, head?_cons, Option.mem_some_iff, forall_eq']
    by_cases isLeaf : tree = .leaf <;> simp only [isLeaf] <;> tauto

theorem LinkedTree.exists_plug (member : (pointer, value) ∈ tree.entries) :
    ∃ (context : Context α) (left right : LinkedTree α),
      tree = context.plug (.node pointer value left right) := by
  induction tree with
  | leaf => cases member
  | node top topValue left right leftInduction rightInduction =>
    simp only [entries, mem_cons, mem_append] at member
    rcases member with same | isLeft | isRight
    · cases same
      exact ⟨[], left, right, rfl⟩
    · rcases leftInduction isLeft with ⟨context, innerLeft, innerRight, rfl⟩
      refine ⟨context ++ [⟨top, topValue, false, right⟩], innerLeft, innerRight, ?_⟩
      rw [Context.plug_append]
      rfl
    · rcases rightInduction isRight with ⟨context, innerLeft, innerRight, rfl⟩
      refine ⟨context ++ [⟨top, topValue, true, left⟩], innerLeft, innerRight, ?_⟩
      rw [Context.plug_append]
      rfl

end Quagga.Foundation
