import Quagga.Lib.RouteTable

/-!
# The tree behind a routing table

The nodes of a routing table and their links are a tree that is ordered by the bits of the
prefixes. Each operation on the nodes is an operation on this tree: a change of one entry, a leaf
in the place of a hole, a node put in between, or a node left out.
-/

namespace Quagga.Lib

open Foundation Bgp List Function LinkedTree Cell Store
open Context hiding mem_cons nodup_cons

variable {Info : Type}

abbrev RouteTree (Info : Type) := LinkedTree (RouteEntry Info)

def RouteEntry.bits (entry : RouteEntry Info) : List Bool := networkBits entry.p

namespace RouteTable

/-- The nodes of the table are the cells of the tree. -/
structure Layout (tree : RouteTree Info) (table : RouteTable Info) : Prop where
  stored : tree.Stored table.nodes none
  top : table.top? = tree.root?
  distinct : tree.pointers.Nodup
  complete : ∀ pointer, pointer ∉ tree.pointers → table.nodes pointer = none
  fresh : ∀ pointer ∈ tree.pointers, pointer < table.next

variable {table : RouteTable Info} {tree left right : RouteTree Info}
  {context : Context (RouteEntry Info)} {pointer : Nat} {value : RouteEntry Info} {p : Prefix}

theorem Layout.node_eq (layout : table.Layout (context.plug (.node pointer value left right))) :
    table.nodes pointer = some ⟨value, context.parent?, left.root?, right.root?⟩ :=
  (stored_plug.mp layout.stored).2.1

theorem node_of_some {node : RouteNode Info} (found : table.nodes pointer = some node) :
    table.node pointer = .ok node := by
  rw [RouteTable.node, found]

theorem write_of_some {node : RouteNode Info} (found : table.nodes pointer = some node)
    (edit : RouteNode Info → RouteNode Info) :
    table.write pointer edit = .ok { table with nodes := table.nodes.change pointer edit } := by
  rw [RouteTable.write, node_of_some found]
  rfl

theorem setLink_of_some {parent new : Nat} {parentNode newNode : RouteNode Info}
    (parentFound : table.nodes parent = some parentNode) (newFound : table.nodes new = some newNode)
    (different : new ≠ parent) (side : Bool)
    (bit : prefixBit newNode.value.p.address parentNode.value.p.prefixlen = side) :
    table.setLink parent new = .ok { table with
      nodes := (table.nodes.change parent (Cell.setLink side (some new))).change new
        (Cell.setParent (some parent)) } := by
  rw [RouteTable.setLink, node_of_some parentFound, node_of_some newFound]
  change (table.write parent _ >>= fun after => after.write new _) = _
  rw [bit, write_of_some parentFound]
  have stillFound :
      table.nodes.change parent (Cell.setLink side (some new)) new = some newNode := by
    rw [change_of_ne different, newFound]
  exact write_of_some stillFound _

theorem Layout.next_notMem (layout : table.Layout tree) : table.next ∉ tree.pointers := fun isIn =>
  Nat.lt_irrefl _ (layout.fresh _ isIn)

theorem length_pointers_le (layout : table.Layout tree) : tree.pointers.length ≤ table.next := by
  have within : tree.pointers ⊆ List.range table.next := fun pointer isIn =>
    mem_range.mpr (layout.fresh pointer isIn)
  have shorter := (subperm_of_subset layout.distinct within).length_le
  rwa [length_range] at shorter

/-! ## Changes of the tree -/

theorem Layout.changeValue (layout : table.Layout (context.plug (.node pointer value left right)))
    (edit : RouteEntry Info → RouteEntry Info) :
    table.write pointer (changeValue edit) =
        .ok { table with nodes := table.nodes.change pointer (changeValue edit) } ∧
      RouteTable.Layout (context.plug (.node pointer (edit value) left right))
        { table with nodes := table.nodes.change pointer (changeValue edit) } := by
  have pointers : (context.plug (.node pointer (edit value) left right)).pointers =
      (context.plug (.node pointer value left right)).pointers := by
    rw [pointers_plug, pointers_plug]
    rfl
  refine ⟨write_of_some layout.node_eq _, ?_, ?_, ?_, ?_, ?_⟩
  · exact Context.Stored.changeValue layout.stored layout.distinct edit
  · exact layout.top.trans (root?_plug context rfl)
  · rw [pointers]
    exact layout.distinct
  · intro other notIn
    rw [pointers] at notIn
    have different : other ≠ pointer := by
      rintro rfl
      exact notIn (mem_pointers_plug.mpr
        (.inr mem_cons_self))
    exact (change_of_ne different _ _).trans (layout.complete other notIn)
  · intro other isIn
    rw [pointers] at isIn
    exact layout.fresh other isIn

theorem attach_stored {hole? : Option Nat} (contextStored : context.Stored table.nodes hole?)
    (stored : (LinkedTree.node pointer value left right).Stored table.nodes none)
    (distinct : (context.plug (.node pointer value left right)).pointers.Nodup)
    (outermost : context ≠ [] → table.top? = (context.plug .leaf).root?)
    (fits : context.Fits RouteEntry.bits value.bits) :
    ∃ after : RouteTable Info, table.attach context.parent? pointer = .ok after ∧
      (context.plug (.node pointer value left right)).Stored after.nodes none ∧
      after.top? = (context.plug (.node pointer value left right)).root? ∧
      after.next = table.next ∧ after.count = table.count ∧
      ∀ other ∉ (context.plug (.node pointer value left right)).pointers,
        after.nodes other = table.nodes other := by
  cases context with
  | nil => exact ⟨_, rfl, stored, rfl, rfl, rfl, fun _ _ => rfl⟩
  | cons crumb outer =>
    have apart := (nodup_plug.mp distinct).2.2
    have inContext : crumb.pointer ∈ Context.pointers (crumb :: outer) :=
      mem_pointers_cons.mpr (.inl rfl)
    have inTree : pointer ∈ (LinkedTree.node pointer value left right).pointers := mem_cons_self
    have different : pointer ≠ crumb.pointer := by
      rintro rfl
      exact apart _ inContext inTree
    have bit := prefixBit_of_branch (fits crumb mem_cons_self)
    have linked := setLink_of_some contextStored.1 stored.1 different crumb.side
      (by rw [Cell.value_of]; exact bit)
    refine ⟨_, linked, contextStored.link stored distinct, ?_, rfl, rfl, ?_⟩
    · exact (outermost (cons_ne_nil _ _)).trans (root?_plug_cons crumb outer _ _)
    · intro other notIn
      rw [mem_pointers_plug, not_or] at notIn
      have notPointer : other ≠ pointer := by
        rintro rfl
        exact notIn.2 inTree
      have notCrumb : other ≠ crumb.pointer := by
        rintro rfl
        exact notIn.1 inContext
      exact (change_of_ne notPointer _ _).trans (change_of_ne notCrumb _ _)

theorem allocate_of_ne {other : Nat} (different : other ≠ table.next) (p : Prefix) :
    (table.allocate p).nodes other = table.nodes other :=
  update_of_ne different _ _

theorem allocate_next (table : RouteTable Info) (p : Prefix) :
    (table.allocate p).nodes table.next = some ⟨⟨p, 0, none⟩, none, none, none⟩ :=
  update_self _ _ _

theorem Layout.ne_next (layout : table.Layout tree) (isIn : pointer ∈ tree.pointers) :
    pointer ≠ table.next := (layout.fresh pointer isIn).ne

theorem Layout.of_insert {after : RouteTable Info} {new : RouteEntry Info} (side : Bool)
    (layout : table.Layout (context.plug tree))
    (stored : (context.plug (.join table.next new side tree .leaf)).Stored after.nodes none)
    (top : after.top? = (context.plug (.join table.next new side tree .leaf)).root?)
    (next : after.next = table.next + 1)
    (elsewhere : ∀ other ∉ (context.plug (.join table.next new side tree .leaf)).pointers,
      after.nodes other = table.nodes other) :
    after.Layout (context.plug (.join table.next new side tree .leaf)) := by
  refine ⟨stored, top, nodup_insert layout.distinct layout.next_notMem new side, ?_, ?_⟩
  · intro other notIn
    rw [elsewhere other notIn]
    apply layout.complete
    rw [mem_pointers_plug, pointers_join_leaf] at notIn
    rw [mem_pointers_plug]
    tauto
  · intro other isIn
    rw [mem_pointers_plug, pointers_join_leaf, mem_cons] at isIn
    rw [next]
    rcases isIn with isContext | rfl | isTree
    · exact Nat.lt_succ_of_lt (layout.fresh other (mem_pointers_plug.mpr (.inl isContext)))
    · exact Nat.lt_succ_self _
    · exact Nat.lt_succ_of_lt (layout.fresh other (mem_pointers_plug.mpr (.inr isTree)))

theorem Layout.insertLeaf (layout : table.Layout (context.plug .leaf))
    (fits : context.Fits RouteEntry.bits (networkBits p)) :
    ∃ after : RouteTable Info,
      (table.allocate p).attach context.parent? table.next = .ok after ∧
      after.Layout (context.plug (.node table.next ⟨p, 0, none⟩ .leaf .leaf)) ∧
      after.next = table.next + 1 ∧ after.count = table.count := by
  have contextStored := (stored_plug.mp layout.stored).1
  have kept : context.Stored (table.allocate p).nodes none := by
    apply contextStored.frame
    intro other isContext
    exact allocate_of_ne (layout.ne_next (mem_pointers_plug.mpr (.inl isContext))) p
  have stored : (LinkedTree.node table.next ⟨p, 0, none⟩ .leaf .leaf).Stored
      (table.allocate p).nodes none := ⟨allocate_next table p, trivial, trivial⟩
  have distinct := nodup_insert layout.distinct layout.next_notMem
    (⟨p, 0, none⟩ : RouteEntry Info) false
  rcases attach_stored kept stored distinct (fun _ => layout.top) fits with
    ⟨after, attached, afterStored, top, next, count, elsewhere⟩
  refine ⟨after, attached, ?_, next, count⟩
  apply Layout.of_insert false layout afterStored top next
  intro other notIn
  rw [elsewhere other notIn]
  apply allocate_of_ne
  rintro rfl
  apply notIn
  rw [mem_pointers_plug]
  exact .inr mem_cons_self

section

variable (layout : table.Layout (context.plug (.node pointer value left right))) {common : Prefix}
  {side : Bool}
include layout

/-- The first step of putting a new node above the tree in the hole: the new node stands alone,
with the tree below it. -/
theorem Layout.linkBelow (branch : networkBits common ++ [side] <+: value.bits) :
    ∃ middle : RouteTable Info,
      (table.allocate common).setLink table.next pointer = .ok middle ∧
      (join table.next ⟨common, 0, none⟩ side (.node pointer value left right)
        .leaf).Stored middle.nodes none ∧
      context.Stored middle.nodes (some pointer) ∧ middle.top? = table.top? ∧
      middle.next = table.next + 1 ∧ middle.count = table.count ∧
      ∀ other, other ≠ pointer → other ≠ table.next → middle.nodes other = table.nodes other := by
  have inTree : pointer ∈ (context.plug (.node pointer value left right)).pointers :=
    mem_pointers_plug.mpr (.inr mem_cons_self)
  have notNext := layout.ne_next inTree
  rcases stored_plug.mp layout.stored with ⟨contextStored, treeStored⟩
  have distinct := nodup_insert layout.distinct layout.next_notMem
    (⟨common, 0, none⟩ : RouteEntry Info) side
  have treeKept : (LinkedTree.node pointer value left right).Stored (table.allocate common).nodes
      context.parent? := by
    apply treeStored.frame
    intro other isTree
    exact allocate_of_ne (layout.ne_next (mem_pointers_plug.mpr (.inr isTree))) common
  have alone : Context.Stored (table.allocate common).nodes
      [⟨table.next, ⟨common, 0, none⟩, side, .leaf⟩] none := by
    refine ⟨?_, trivial, trivial⟩
    rw [allocate_next]
    cases side <;> rfl
  have linked := setLink_of_some (allocate_next table common) treeKept.1 notNext side
    (prefixBit_of_branch branch)
  have elsewhere : ∀ other, other ≠ pointer → other ≠ table.next →
      ((table.allocate common).nodes.change table.next (Cell.setLink side (some pointer))).change
        pointer (Cell.setParent (some table.next)) other = table.nodes other := by
    intro other notPointer notNew
    rw [change_of_ne notPointer, change_of_ne notNew, allocate_of_ne notNew]
  refine ⟨_, linked, alone.link treeKept (nodup_plug.mp distinct).2.1, ?_, rfl, rfl, rfl, elsewhere⟩
  apply contextStored.frame
  intro other isContext
  apply elsewhere other _ (layout.ne_next (mem_pointers_plug.mpr (.inl isContext)))
  rintro rfl
  exact (nodup_plug.mp layout.distinct).2.2 _ isContext
    mem_cons_self

theorem Layout.insertAbove (fits : context.Fits RouteEntry.bits (networkBits common))
    (branch : networkBits common ++ [side] <+: value.bits) :
    ∃ middle after : RouteTable Info,
      (table.allocate common).setLink table.next pointer = .ok middle ∧
      middle.attach context.parent? table.next = .ok after ∧
      after.Layout (context.plug (.join table.next ⟨common, 0, none⟩ side
        (.node pointer value left right) .leaf)) ∧
      after.next = table.next + 1 ∧ after.count = table.count := by
  rcases layout.linkBelow branch with
    ⟨middle, linked, stored, contextStored, middleTop, middleNext, middleCount, middleElsewhere⟩
  have distinct := nodup_insert layout.distinct layout.next_notMem
    (⟨common, 0, none⟩ : RouteEntry Info) side
  have outermost : context ≠ [] → middle.top? = (context.plug .leaf).root? := by
    intro inside
    rw [middleTop, layout.top]
    cases context with
    | nil => exact absurd rfl inside
    | cons crumb outer => exact root?_plug_cons crumb outer _ _
  cases side with
  | false | true =>
    rcases attach_stored contextStored stored distinct outermost fits with
      ⟨after, attached, afterStored, top, next, count, elsewhere⟩
    refine ⟨middle, after, linked, attached, ?_, next.trans middleNext, count.trans middleCount⟩
    apply Layout.of_insert _ layout afterStored top (next.trans middleNext)
    intro other notIn
    rw [elsewhere other notIn]
    rw [mem_pointers_plug, mem_pointers_join, mem_pointers_node,
      not_or, not_or, not_or, not_or] at notIn
    exact middleElsewhere other notIn.2.2.1.1 notIn.2.1

end

theorem adopt_stored {child : RouteTree Info} {parent? : Option Nat}
    (stored : child.Stored table.nodes parent?) (distinct : child.pointers.Nodup)
    (new? : Option Nat) :
    ∃ middle : RouteTable Info, table.adopt child.root? new? = .ok middle ∧
      child.Stored middle.nodes new? ∧ middle.top? = table.top? ∧ middle.next = table.next ∧
      middle.count = table.count ∧
      ∀ other ∉ child.pointers, middle.nodes other = table.nodes other := by
  cases child with
  | leaf => exact ⟨table, rfl, trivial, rfl, rfl, rfl, fun _ _ => rfl⟩
  | node pointer value left right =>
    refine ⟨_, write_of_some stored.1 _, stored.reparent distinct new?, rfl, rfl, rfl, ?_⟩
    intro other notIn
    apply change_of_ne
    rintro rfl
    exact notIn mem_cons_self

theorem bypass_stored {tree child : RouteTree Info}
    (contextStored : context.Stored table.nodes (some pointer)) (distinct : context.pointers.Nodup)
    (notIn : pointer ∉ context.pointers) (top : table.top? = (context.plug tree).root?) :
    ∃ after : RouteTable Info, table.bypass context.parent? pointer child.root? = .ok after ∧
      context.Stored after.nodes child.root? ∧ after.top? = (context.plug child).root? ∧
      after.next = table.next ∧ after.count = table.count ∧
      ∀ other ∉ context.pointers, after.nodes other = table.nodes other := by
  cases context with
  | nil => exact ⟨_, rfl, trivial, rfl, rfl, rfl, fun _ _ => rfl⟩
  | cons crumb outer =>
    rw [mem_pointers_cons, not_or, not_or] at notIn
    have notSibling : crumb.sibling.root? ≠ some pointer := by
      intro isRoot
      cases sibling : crumb.sibling with
      | leaf =>
        rw [sibling] at isRoot
        cases isRoot
      | node root value left right =>
        rw [sibling] at isRoot notIn
        cases isRoot
        exact notIn.2.1 mem_cons_self
    have side : ((of crumb.value (Context.parent? outer) crumb.side (some pointer)
        crumb.sibling.root?).left? != some pointer) = crumb.side := by
      cases crumb.side with
      | false => simp [of]
      | true => simpa [of] using notSibling
    have relinked := contextStored.relink distinct child.root?
    have written := write_of_some contextStored.1 (Cell.setLink crumb.side child.root?)
    let nodes := table.nodes.change crumb.pointer (Cell.setLink crumb.side child.root?)
    refine ⟨{ table with nodes := nodes }, ?_, relinked, ?_, rfl, rfl, ?_⟩
    · rw [Context.parent?, head?_cons, Option.map_some, RouteTable.bypass,
        node_of_some contextStored.1, ok_bind, side, written]
    · exact top.trans (root?_plug_cons crumb outer _ _)
    · intro other elsewhere
      apply change_of_ne
      rintro rfl
      exact elsewhere (mem_pointers_cons.mpr (.inl rfl))

theorem Layout.unlink (layout : table.Layout (context.plug (.node pointer value left right)))
    {child : RouteTree Info} (only : left = .leaf ∧ child = right ∨ right = .leaf ∧ child = left) :
    ∃ after : RouteTable Info,
      table.unlink pointer ⟨value, context.parent?, left.root?, right.root?⟩ = .ok after ∧
      after.Layout (context.plug child) ∧ after.next = table.next ∧
      after.count = table.count - 1 := by
  rcases stored_plug.mp layout.stored with ⟨contextStored, found, leftStored, rightStored⟩
  rcases nodup_plug.mp layout.distinct with ⟨contextDistinct, treeDistinct, apart⟩
  have inTree : ∀ other, other ∈ (LinkedTree.node pointer value left right).pointers ↔
      other = pointer ∨ other ∈ child.pointers := by
    intro other
    rcases only with ⟨rfl, rfl⟩ | ⟨rfl, rfl⟩ <;> simp [LinkedTree.pointers, entries]
  have distinct : (pointer :: child.pointers).Nodup := by
    rcases only with ⟨rfl, rfl⟩ | ⟨rfl, rfl⟩ <;>
      simpa [LinkedTree.pointers, entries] using treeDistinct
  rw [nodup_cons] at distinct
  have childStored : child.Stored table.nodes (some pointer) := by
    rcases only with ⟨rfl, rfl⟩ | ⟨rfl, rfl⟩
    · exact rightStored
    · exact leftStored
  have isChild : (if left.root?.isSome then left.root? else right.root?) = child.root? := by
    rcases only with ⟨rfl, rfl⟩ | ⟨rfl, rfl⟩
    · rfl
    · cases child <;> rfl
  have notContext : pointer ∉ context.pointers := fun isContext =>
    apart pointer isContext ((inTree pointer).mpr (.inl rfl))
  have apartChild : ∀ other ∈ context.pointers, other ∉ child.pointers :=
    fun other isContext isIn => apart other isContext ((inTree other).mpr (.inr isIn))
  rcases adopt_stored childStored distinct.2 context.parent? with
    ⟨middle, adopted, middleStored, middleTop, middleNext, middleCount, middleElsewhere⟩
  have middleContext : context.Stored middle.nodes (some pointer) := by
    apply contextStored.frame
    intro other isContext
    exact middleElsewhere other (apartChild other isContext)
  rcases bypass_stored middleContext contextDistinct notContext (middleTop.trans layout.top) with
    ⟨after, bypassed, afterContext, top, next, count, elsewhere⟩
  refine ⟨{ after.free pointer with count := after.count - 1 }, ?_, ?_, next.trans middleNext, ?_⟩
  · rw [RouteTable.unlink]
    rw [isChild, adopted, ok_bind, bypassed]
    rfl
  · have freed : ∀ other, other ≠ pointer →
        (after.free pointer).nodes other = after.nodes other := fun other different =>
      update_of_ne different _ _
    refine ⟨stored_plug.mpr ⟨afterContext.frame ?_, middleStored.frame ?_⟩, top,
      nodup_plug.mpr ⟨contextDistinct, distinct.2, apartChild⟩, ?_, ?_⟩
    · intro other isContext
      apply freed
      rintro rfl
      exact notContext isContext
    · intro other isIn
      have different : other ≠ pointer := by
        rintro rfl
        exact distinct.1 isIn
      rw [freed other different]
      exact elsewhere other fun isContext => apartChild other isContext isIn
    · intro other notIn
      by_cases different : other = pointer
      · exact different ▸ update_self _ _ _
      · rw [mem_pointers_plug, not_or] at notIn
        rw [freed other different, elsewhere other notIn.1, middleElsewhere other notIn.2]
        apply layout.complete
        rw [mem_pointers_plug, inTree]
        tauto
    · intro other isIn
      change other < after.next
      rw [next, middleNext]
      apply layout.fresh
      rw [mem_pointers_plug] at isIn ⊢
      exact isIn.imp_right fun isTree => (inTree other).mpr (.inr isTree)
  · rw [count, middleCount]

end RouteTable

end Quagga.Lib
