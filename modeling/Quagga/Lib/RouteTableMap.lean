import Quagga.Lib.RouteTableShape

/-!
# The routing table as a map

The tree of a table is ordered by the bits of its networks, an unlocked node joins two subtrees,
and data is kept under a lock. Every operation has one specification here, by the tree before and
after it.
-/

namespace Quagga.Lib

open Foundation Bgp List RouteEntry LinkedTree
open Context hiding mem_cons pointers

variable {Info : Type} {network : Prefix} {side : Bool}

def RouteEntry.IsHeld (entry : RouteEntry Info) : Prop := 0 < entry.lock

def dataOf (entries : List (Nat × RouteEntry Info)) : List (List Bool × Info) :=
  entries.filterMap fun entry => entry.2.info?.map fun info => (entry.2.bits, info)

theorem dataOf_plug (context : Context (RouteEntry Info)) (tree : RouteTree Info) :
    dataOf (context.plug tree).entries =
      dataOf context.before ++ dataOf tree.entries ++ dataOf context.behind := by
  rw [entries_plug, dataOf, filterMap_append, filterMap_append]
  rfl

namespace RouteTable

/-- All that holds between the steps of an operation. -/
structure Formed (afi : Afi) (tree : RouteTree Info) (table : RouteTable Info) : Prop where
  layout : table.Layout tree
  count : table.count = tree.pointers.length
  ordered : tree.Ordered RouteEntry.bits
  family : ∀ entry ∈ tree.entries, IsOf afi entry.2.p
  kept : ∀ entry ∈ tree.entries, entry.2.info?.isSome = true → entry.2.IsHeld

structure Shaped (afi : Afi) (tree : RouteTree Info) (table : RouteTable Info) : Prop
    extends Formed afi tree table where
  supported : tree.Supported RouteEntry.IsHeld

variable {afi : Afi} {table : RouteTable Info} {tree left right : RouteTree Info}
  {context : Context (RouteEntry Info)} {pointer : Nat} {value : RouteEntry Info} {p : Prefix}

theorem empty_shaped (afi : Afi) : (empty : RouteTable Info).Shaped afi .leaf where
  layout := ⟨trivial, rfl, .nil, fun _ _ => rfl, nofun⟩
  count := rfl
  ordered := trivial
  family := nofun
  kept := nofun
  supported := trivial

theorem Layout.mem_entries (layout : table.Layout tree) {node : RouteNode Info}
    (found : table.nodes pointer = some node) : (pointer, node.value) ∈ tree.entries := by
  have isIn : pointer ∈ tree.pointers := by
    by_contra missing
    rw [layout.complete pointer missing] at found
    cases found
  rcases mem_map.mp isIn with ⟨⟨_, value⟩, member, rfl⟩
  rcases exists_plug member with ⟨context, left, right, rfl⟩
  rw [layout.node_eq] at found
  cases found
  exact member

theorem Layout.exists_node (layout : table.Layout tree) (member : (pointer, value) ∈ tree.entries) :
    ∃ (context : Context (RouteEntry Info)) (left right : RouteTree Info),
      tree = context.plug (.node pointer value left right) ∧
      table.nodes pointer = some ⟨value, context.parent?, left.root?, right.root?⟩ := by
  rcases exists_plug member with ⟨context, left, right, rfl⟩
  exact ⟨context, left, right, rfl, layout.node_eq⟩

/-! ## Walking down -/

section

variable {σ : Type} {visit : σ → Nat → RouteEntry Info → σ} {state : σ}

/-- What is noted of the nodes above the hole, which are visited from the outermost in. -/
def noted (visit : σ → Nat → RouteEntry Info → σ) (state : σ)
    (context : Context (RouteEntry Info)) : σ :=
  context.foldr (fun crumb state => visit state crumb.pointer crumb.value) state

/-- Where `descend` can stop in a tree. -/
inductive Descent (p : Prefix) (visit : σ → Nat → RouteEntry Info → σ) (state : σ) :
    RouteTree Info → σ × Option Nat × Bool → Prop where
  | below (context : Context (RouteEntry Info))
      (fits : context.Fits RouteEntry.bits (networkBits p)) :
      Descent p visit state (context.plug .leaf) (noted visit state context, none, false)
  | aside (context : Context (RouteEntry Info)) (pointer : Nat) (value : RouteEntry Info)
      (left right : RouteTree Info) (fits : context.Fits RouteEntry.bits (networkBits p))
      (apart : ¬value.bits <+: networkBits p) :
      Descent p visit state (context.plug (.node pointer value left right))
        (noted visit state context, some pointer, false)
  | exact (context : Context (RouteEntry Info)) (pointer : Nat) (value : RouteEntry Info)
      (left right : RouteTree Info) (fits : context.Fits RouteEntry.bits (networkBits p))
      (same : value.bits = networkBits p) :
      Descent p visit state (context.plug (.node pointer value left right))
        (visit (noted visit state context) pointer value, some pointer, true)

theorem Descent.extend (crumb : Crumb (RouteEntry Info)) {result : σ × Option Nat × Bool}
    (branch : crumb.value.bits ++ [crumb.side] <+: networkBits p)
    (descent : Descent p visit (visit state crumb.pointer crumb.value) tree result) :
    Descent p visit state (crumb.close tree) result := by
  have wider : ∀ {context : Context (RouteEntry Info)},
      context.Fits bits (networkBits p) →
      Context.Fits bits (context ++ [crumb]) (networkBits p) :=
    fun fits => forall_mem_append.mpr ⟨fits, forall_mem_singleton.mpr branch⟩
  have same : ∀ context : Context (RouteEntry Info),
      noted visit (visit state crumb.pointer crumb.value) context =
        noted visit state (context ++ [crumb]) := by
    intro context
    simp [noted]
  have close : ∀ (context : Context (RouteEntry Info)) (tree : RouteTree Info),
      crumb.close (context.plug tree) = plug (context ++ [crumb]) tree := by
    intro context tree
    rw [plug_append]
    rfl
  cases descent with
  | below context fits =>
    rw [close, same]
    exact .below _ (wider fits)
  | aside context pointer value left right fits apart =>
    rw [close, same]
    exact .aside _ pointer value left right (wider fits) apart
  | exact context pointer value left right fits equal =>
    rw [close, same]
    exact .exact _ pointer value left right (wider fits) equal

theorem descend_spec {parent? : Option Nat} (stored : tree.Stored table.nodes parent?)
    (family : ∀ entry ∈ tree.entries, IsOf afi entry.2.p) (isOf : IsOf afi p) (fuel : Nat)
    (enough : tree.pointers.length < fuel) (state : σ) :
    ∃ result, table.descend p visit fuel state tree.root? = .ok result ∧
      Descent p visit state tree result := by
  induction tree generalizing parent? fuel state with
  | leaf =>
    cases fuel with
    | zero => cases enough
    | succ fuel => exact ⟨(state, none, false), rfl, .below [] nofun⟩
  | node pointer value left right leftInduction rightInduction =>
    cases fuel with
    | zero => cases enough
    | succ fuel =>
      rcases stored with ⟨found, leftStored, rightStored⟩
      simp only [LinkedTree.entries, forall_mem_cons, forall_mem_append] at family
      rcases family with ⟨own, leftFamily, rightFamily⟩
      rw [root?, descend, node_of_some found, ok_bind]
      by_cases begins : value.bits <+: networkBits p
      · have shorter : value.p.prefixlen ≤ p.prefixlen := by
          simpa [bits] using begins.length_le
        have matched : prefixMatch value.p p = true := (prefixMatch_iff own isOf).mpr begins
        rw [if_pos (by simp [shorter, matched])]
        by_cases whole : value.p.prefixlen = p.prefixlen
        · have same : value.bits = networkBits p :=
            begins.eq_of_length (by simpa [bits] using whole)
          rw [if_pos whole]
          exact ⟨_, rfl, .exact [] pointer value left right nofun same⟩
        · rw [if_neg whole]
          have differ : value.bits ≠ networkBits p := by
            intro same
            apply whole
            simpa [bits] using congrArg List.length same
          rcases exists_branch begins differ with ⟨side, branch⟩
          rw [prefixBit_of_branch branch]
          rw [length_pointers_node] at enough
          cases side with
          | false =>
            rcases leftInduction leftStored leftFamily fuel (by omega)
              (visit state pointer value) with
              ⟨result, descended, descent⟩
            exact ⟨result, descended, descent.extend ⟨pointer, value, false, right⟩ branch⟩
          | true =>
            rcases rightInduction rightStored rightFamily fuel (by omega)
              (visit state pointer value) with
              ⟨result, descended, descent⟩
            exact ⟨result, descended, descent.extend ⟨pointer, value, true, left⟩ branch⟩
      · have notMatched : prefixMatch value.p p = false := by
          rw [Bool.eq_false_iff]
          intro matched
          exact begins ((prefixMatch_iff own isOf).mp matched)
        rw [if_neg (by simp [notMatched])]
        exact ⟨_, rfl, .aside [] pointer value left right nofun begins⟩

theorem Formed.descend (formed : table.Formed afi tree) (isOf : IsOf afi p)
    (visit : σ → Nat → RouteEntry Info → σ) (state : σ) :
    ∃ result, table.descend p visit table.bound state table.top? = .ok result ∧
      Descent p visit state tree result := by
  rw [formed.layout.top]
  exact descend_spec formed.layout.stored formed.family isOf table.bound
    (Nat.lt_succ_of_le (length_pointers_le formed.layout)) state

end

/-! ## Locks and deletion -/

theorem mem_plug_node {entry : Nat × RouteEntry Info} :
    entry ∈ (context.plug (.node pointer value left right)).entries ↔ entry = (pointer, value) ∨
      entry ∈ context.before ++ (left.entries ++ right.entries) ++ context.behind := by
  rw [entries_plug]
  simp only [LinkedTree.entries, mem_append, mem_cons]
  tauto

theorem mem_entries_plug (context : Context (RouteEntry Info)) (pointer : Nat)
    (value : RouteEntry Info) (left right : RouteTree Info) :
    (pointer, value) ∈ (context.plug (.node pointer value left right)).entries :=
  mem_plug_node.mpr (.inl rfl)

theorem Formed.changeValue
    (formed : table.Formed afi (context.plug (.node pointer value left right)))
    (edit : RouteEntry Info → RouteEntry Info) (sameNetwork : (edit value).p = value.p)
    (kept : (edit value).info?.isSome = true → (edit value).IsHeld) :
    ∃ after, table.write pointer (Cell.changeValue edit) = .ok after ∧
      after.Formed afi (context.plug (.node pointer (edit value) left right)) := by
  rcases formed.layout.changeValue edit with ⟨written, layout⟩
  have sameBits : (edit value).bits = value.bits := congrArg networkBits sameNetwork
  have changed : ∀ {property : Nat × RouteEntry Info → Prop},
      (∀ entry ∈ (context.plug (.node pointer value left right)).entries, property entry) →
      property (pointer, edit value) →
      ∀ entry ∈ (context.plug (.node pointer (edit value) left right)).entries, property entry := by
    intro property all own entry member
    rcases mem_plug_node.mp member with rfl | isOther
    · exact own
    · exact all entry (mem_plug_node.mpr (.inr isOther))
  refine ⟨_, written, layout, ?_, ?_, changed formed.family ?_, changed formed.kept kept⟩
  · rw [pointers_plug]
    have counted := formed.count
    rw [pointers_plug] at counted
    exact counted
  · rcases ordered_plug.mp formed.ordered with ⟨contextOrdered, treeOrdered, fits⟩
    rw [ordered_plug]
    refine ⟨contextOrdered, ?_, ?_⟩
    · unfold LinkedTree.Ordered at treeOrdered ⊢
      rw [sameBits]
      exact treeOrdered
    · intro entry isIn
      simp only [LinkedTree.entries, mem_cons] at isIn fits
      rcases isIn with rfl | isBelow
      · rw [sameBits]
        exact fits (pointer, value) (.inl rfl)
      · exact fits entry (.inr isBelow)
  · rw [sameNetwork]
    exact formed.family _ (mem_entries_plug _ _ _ _ _)

section

variable {cell parentCell : RouteNode Info} {parent : Nat} {after : RouteTable Info}
  (found : table.nodes pointer = some cell) (unlocked : cell.value.lock = 0)
  (noInfo : cell.value.info? = none)

include found unlocked noInfo

theorem routeNodeDelete_of_both (both : (cell.left?.isSome && cell.right?.isSome) = true)
    (fuel : Nat) : routeNodeDelete (fuel + 1) pointer table = .ok table := by
  simp [routeNodeDelete, node_of_some found, unlocked, noInfo, bind, Except.bind, both]

section

variable (one : (cell.left?.isSome && cell.right?.isSome) = false)
  (unlinked : table.unlink pointer cell = .ok after)
include one unlinked

theorem routeNodeDelete_of_top (isTop : cell.parent? = none) (fuel : Nat) :
    routeNodeDelete (fuel + 1) pointer table = .ok after := by
  simp [routeNodeDelete, node_of_some found, unlocked, noInfo, bind, Except.bind, one, unlinked,
    isTop]

theorem routeNodeDelete_of_parent (hasParent : cell.parent? = some parent)
    (parentFound : after.nodes parent = some parentCell) (fuel : Nat) :
    routeNodeDelete (fuel + 1) pointer table =
      if parentCell.value.lock = 0 then routeNodeDelete fuel parent after else .ok after := by
  simp [routeNodeDelete, node_of_some found, unlocked, noInfo, bind, Except.bind, one, unlinked,
    hasParent, node_of_some parentFound]

end

end

theorem Formed.unlink (formed : table.Formed afi (context.plug (.node pointer value left right)))
    {child : RouteTree Info} (only : left = .leaf ∧ child = right ∨ right = .leaf ∧ child = left) :
    ∃ after, table.unlink pointer ⟨value, context.parent?, left.root?, right.root?⟩ = .ok after ∧
      after.Formed afi (context.plug child) := by
  rcases formed.layout.unlink only with ⟨after, unlinked, layout, _, count⟩
  have below : (LinkedTree.node pointer value left right).entries =
      (pointer, value) :: child.entries := by
    rcases only with ⟨rfl, rfl⟩ | ⟨rfl, rfl⟩ <;> simp [LinkedTree.entries]
  have within : ∀ entry ∈ (context.plug child).entries,
      entry ∈ (context.plug (.node pointer value left right)).entries := by
    intro entry member
    rw [entries_plug] at member ⊢
    rw [below]
    simp only [mem_append] at member ⊢
    tauto
  refine ⟨after, unlinked, layout, ?_, ?_, ?_, ?_⟩
  · rw [count, formed.count, pointers, pointers, entries_plug, entries_plug, below]
    simp only [length_map, length_append, length_cons]
    omega
  · rcases ordered_plug.mp formed.ordered with ⟨contextOrdered, treeOrdered, fits⟩
    rw [ordered_plug]
    refine ⟨contextOrdered, ?_, ?_⟩
    · rcases only with ⟨_, rfl⟩ | ⟨_, rfl⟩
      · exact treeOrdered.2.2.2
      · exact treeOrdered.2.2.1
    · intro entry member
      apply fits
      rw [below]
      exact mem_cons_of_mem _ member
  · exact fun entry member => formed.family entry (within entry member)
  · exact fun entry member => formed.kept entry (within entry member)

theorem Formed.noInfo (formed : table.Formed afi tree) (member : (pointer, value) ∈ tree.entries)
    (unlocked : value.lock = 0) : value.info? = none := by
  by_contra hasInfo
  have held := formed.kept _ member (Option.isSome_iff_ne_none.mpr hasInfo)
  simp [IsHeld, unlocked] at held

/-- What deleting unlocked nodes leaves of a tree. -/
structure Pruned (tree after : RouteTree Info) : Prop where
  within : after.entries.Sublist tree.entries
  held : ∀ entry ∈ tree.entries, entry.2.IsHeld → entry ∈ after.entries
  data : dataOf after.entries = dataOf tree.entries

theorem Pruned.refl (tree : RouteTree Info) : Pruned tree tree :=
  ⟨.refl _, fun _ member _ => member, rfl⟩

theorem Pruned.trans {first second third : RouteTree Info} (prune : Pruned first second)
    (again : Pruned second third) : Pruned first third where
  within := again.within.trans prune.within
  held entry member isHeld := again.held entry (prune.held entry member isHeld) isHeld
  data := again.data.trans prune.data

theorem pruned_unlink (context : Context (RouteEntry Info)) (pointer : Nat)
    (unlocked : value.lock = 0) (noInfo : value.info? = none) {child : RouteTree Info}
    (only : left = .leaf ∧ child = right ∨ right = .leaf ∧ child = left) :
    Pruned (context.plug (.node pointer value left right)) (context.plug child) where
  within := by
    rw [entries_plug, entries_plug]
    have below : child.entries.Sublist (LinkedTree.node pointer value left right).entries := by
      rcases only with ⟨rfl, rfl⟩ | ⟨rfl, rfl⟩ <;> simp [LinkedTree.entries]
    exact ((List.Sublist.refl _).append below).append (.refl _)
  held := by
    intro entry member isHeld
    rcases mem_plug_node.mp member with rfl | isOther
    · exact absurd isHeld (by simp [IsHeld, unlocked])
    · rw [entries_plug]
      rcases only with ⟨rfl, rfl⟩ | ⟨rfl, rfl⟩ <;> simpa [LinkedTree.entries] using isOther
  data := by
    rw [dataOf_plug, dataOf_plug]
    rcases only with ⟨rfl, rfl⟩ | ⟨rfl, rfl⟩ <;> simp [dataOf, LinkedTree.entries, noInfo]

theorem exists_only_child (notBoth : ¬(left ≠ .leaf ∧ right ≠ .leaf))
    (leftSupported : left.Supported IsHeld)
    (rightSupported : right.Supported IsHeld) :
    ∃ child : RouteTree Info, (left = .leaf ∧ child = right ∨ right = .leaf ∧ child = left) ∧
      child.Supported IsHeld ∧ (left.root?.isSome && right.root?.isSome) = false := by
  by_cases leftLeaf : left = .leaf
  · subst leftLeaf
    exact ⟨right, .inl ⟨rfl, rfl⟩, rightSupported, rfl⟩
  · have rightLeaf : right = .leaf := by
      by_contra rightNode
      exact notBoth ⟨leftLeaf, rightNode⟩
    subst rightLeaf
    exact ⟨left, .inr ⟨rfl, rfl⟩, leftSupported, Bool.and_false _⟩

theorem isSome_root? (isNode : tree ≠ .leaf) : tree.root?.isSome = true := by
  cases tree with
  | leaf => exact absurd rfl isNode
  | node pointer value left right => rfl

/-- The induction goes up the nodes above, which are supported. -/
theorem routeNodeDelete_spec
    (formed : table.Formed afi (context.plug (.node pointer value left right)))
    (contextSupported : context.Supported IsHeld)
    (leftSupported : left.Supported IsHeld)
    (rightSupported : right.Supported IsHeld) (unlocked : value.lock = 0) (fuel : Nat)
    (enough : context.length < fuel) :
    ∃ after tree, routeNodeDelete fuel pointer table = .ok after ∧ after.Shaped afi tree ∧
      Pruned (context.plug (.node pointer value left right)) tree := by
  induction fuel generalizing table context pointer value left right with
  | zero => cases enough
  | succ fuel induction =>
    have noInfo := formed.noInfo (mem_entries_plug _ _ _ _ _) unlocked
    by_cases both : left ≠ .leaf ∧ right ≠ .leaf
    · have supported : (context.plug (.node pointer value left right)).Supported
          IsHeld :=
        supported_plug.mpr
          ⟨contextSupported, ⟨.inr both, leftSupported, rightSupported⟩, nofun⟩
      refine ⟨table, _, ?_, ⟨formed, supported⟩, .refl _⟩
      exact routeNodeDelete_of_both formed.layout.node_eq unlocked noInfo
        (by simp [isSome_root? both.1, isSome_root? both.2]) fuel
    · rcases exists_only_child both leftSupported rightSupported with
        ⟨child, only, childSupported, one⟩
      rcases formed.unlink only with ⟨after, unlinked, afterFormed⟩
      have prune := pruned_unlink context pointer unlocked noInfo only
      cases context with
      | nil =>
        refine ⟨after, child, ?_, ⟨afterFormed, childSupported⟩, prune⟩
        exact routeNodeDelete_of_top formed.layout.node_eq unlocked noInfo one unlinked rfl fuel
      | cons crumb outer =>
        have parentFound := (stored_plug.mp afterFormed.layout.stored).1.1
        rw [routeNodeDelete_of_parent formed.layout.node_eq unlocked noInfo one unlinked rfl
          parentFound fuel, Cell.value_of]
        rcases contextSupported with ⟨own, siblingSupported, outerSupported⟩
        split_ifs with parentUnlocked
        · rcases crumb.exists_node child with ⟨upLeft, upRight, node, children⟩
          rcases children childSupported siblingSupported with ⟨upLeftSupported, upRightSupported⟩
          have whole : plug (crumb :: outer) child =
              plug outer (.node crumb.pointer crumb.value upLeft upRight) :=
            congrArg (plug outer) node
          rw [whole] at afterFormed prune
          rcases induction afterFormed outerSupported upLeftSupported upRightSupported
            parentUnlocked (Nat.lt_of_succ_lt_succ enough) with
            ⟨last, tree, deleted, shaped, again⟩
          exact ⟨last, tree, deleted, shaped, prune.trans again⟩
        · have supported : (plug (crumb :: outer) child).Supported
              IsHeld := by
            apply supported_plug.mpr
            refine ⟨⟨own, siblingSupported, outerSupported⟩, childSupported, ?_⟩
            intro _ above isFirst
            cases isFirst
            exact Nat.pos_of_ne_zero parentUnlocked
          exact ⟨after, _, rfl, ⟨afterFormed, supported⟩, prune⟩

/-! ## Operations on one node -/

theorem dataOf_changeValue (edit : RouteEntry Info → RouteEntry Info)
    (sameNetwork : (edit value).p = value.p) (sameInfo : (edit value).info? = value.info?)
    (context : Context (RouteEntry Info)) (pointer : Nat) (left right : RouteTree Info) :
    dataOf (context.plug (.node pointer (edit value) left right)).entries =
      dataOf (context.plug (.node pointer value left right)).entries := by
  rw [dataOf_plug, dataOf_plug]
  simp [dataOf, LinkedTree.entries, filterMap_cons, bits, sameNetwork, sameInfo]

theorem Shaped.changeValue
    (shaped : table.Shaped afi (context.plug (.node pointer value left right)))
    (edit : RouteEntry Info → RouteEntry Info) (sameNetwork : (edit value).p = value.p)
    (held : value.IsHeld ∨ (edit value).info?.isSome = true → (edit value).IsHeld) :
    ∃ after, table.write pointer (Cell.changeValue edit) = .ok after ∧
      after.Shaped afi (context.plug (.node pointer (edit value) left right)) := by
  rcases shaped.toFormed.changeValue edit sameNetwork (fun hasInfo => held (.inr hasInfo)) with
    ⟨after, written, formed⟩
  rcases supported_plug.mp shaped.supported with
    ⟨contextSupported, ⟨own, leftSupported, rightSupported⟩, _⟩
  refine ⟨after, written, formed, supported_plug.mpr ⟨contextSupported, ?_, nofun⟩⟩
  exact ⟨own.imp_left fun isHeld => held (.inl isHeld), leftSupported, rightSupported⟩

def locked (entry : RouteEntry Info) : RouteEntry Info := { entry with lock := entry.lock + 1 }

def released (entry : RouteEntry Info) : RouteEntry Info := { entry with lock := entry.lock - 1 }

theorem Shaped.lock (shaped : table.Shaped afi (context.plug (.node pointer value left right))) :
    ∃ after, table.routeLockNode pointer = .ok after ∧
      after.Shaped afi (context.plug (.node pointer (locked value) left right)) :=
  shaped.changeValue locked rfl fun _ => Nat.succ_pos _

theorem Shaped.setInfo (shaped : table.Shaped afi (context.plug (.node pointer value left right)))
    (isHeld : value.IsHeld) (info? : Option Info) :
    ∃ after, table.setInfo pointer info? = .ok after ∧
      after.Shaped afi (context.plug (.node pointer { value with info? := info? } left right)) :=
  shaped.changeValue (fun entry => { entry with info? := info? }) rfl fun _ => isHeld

variable {after : RouteTable Info}

theorem routeUnlockNode_of_some {cell : RouteNode Info} (found : table.nodes pointer = some cell)
    (positive : cell.value.lock ≠ 0)
    (written : table.write pointer (Cell.changeValue released) = .ok after) :
    table.routeUnlockNode pointer =
      if cell.value.lock = 1 then routeNodeDelete after.bound pointer after else .ok after := by
  rw [routeUnlockNode, node_of_some found, ok_bind, if_neg positive]
  change (table.write pointer (Cell.changeValue released) >>= _) = _
  rw [written]
  rfl

theorem Shaped.unlock (shaped : table.Shaped afi (context.plug (.node pointer value left right)))
    (permitted : 2 ≤ value.lock ∨ value.lock = 1 ∧ value.info? = none) :
    ∃ after tree, table.routeUnlockNode pointer = .ok after ∧ after.Shaped afi tree ∧
      Pruned (context.plug (.node pointer (released value) left right)) tree := by
  have found := shaped.layout.node_eq
  have positive : value.lock ≠ 0 := by omega
  rcases permitted with shared | ⟨last, noInfo⟩
  · rcases shaped.changeValue released rfl (fun _ => Nat.sub_pos_of_lt shared) with
      ⟨after, written, afterShaped⟩
    refine ⟨after, _, ?_, afterShaped, .refl _⟩
    rw [routeUnlockNode_of_some found positive written]
    exact if_neg (by exact Nat.ne_of_gt shared)
  · have gone : (released value).lock = 0 := by simp [released, last]
    rcases shaped.toFormed.changeValue released rfl (by simp [released, noInfo]) with
      ⟨middle, written, formed⟩
    rcases supported_plug.mp shaped.supported with
      ⟨contextSupported, ⟨_, leftSupported, rightSupported⟩, _⟩
    have enough : context.length < middle.bound := by
      have inside := length_add_le context
        (LinkedTree.node pointer (released value) left right)
      have within := length_pointers_le formed.layout
      exact Nat.lt_succ_of_le (by omega)
    rcases routeNodeDelete_spec formed contextSupported leftSupported rightSupported gone
      middle.bound enough with ⟨after, tree, deleted, afterShaped, prune⟩
    refine ⟨after, tree, ?_, afterShaped, prune⟩
    rw [routeUnlockNode_of_some found positive written, ← deleted]
    exact if_pos last

/-- All nodes are still there, perhaps with more locks. -/
def Grown (tree after : RouteTree Info) : Prop :=
  ∀ entry ∈ tree.entries, ∃ lock, entry.2.lock ≤ lock ∧
    (entry.1, { entry.2 with lock := lock }) ∈ after.entries

theorem Grown.refl (tree : RouteTree Info) : Grown tree tree := fun entry member =>
  ⟨entry.2.lock, Nat.le_refl _, member⟩

theorem grown_locked (context : Context (RouteEntry Info)) (pointer : Nat) (value : RouteEntry Info)
    (left right : RouteTree Info) :
    Grown (context.plug (.node pointer value left right))
      (context.plug (.node pointer (locked value) left right)) := by
  intro entry member
  rcases mem_plug_node.mp member with rfl | isOther
  · exact ⟨value.lock + 1, Nat.le_succ _, mem_entries_plug _ _ _ _ _⟩
  · exact ⟨_, Nat.le_refl _, mem_plug_node.mpr (.inr isOther)⟩

/-! ## Looking up -/

section

variable (fits : context.Fits RouteEntry.bits (networkBits p))
include fits

theorem above_or_inside (ordered : (context.plug tree).Ordered bits) {entry : Nat × RouteEntry Info}
    (member : entry ∈ (context.plug tree).entries) (begins : entry.2.bits <+: networkBits p) :
    (∃ crumb ∈ context, entry = (crumb.pointer, crumb.value)) ∨ entry ∈ tree.entries := by
  have contextOrdered := (ordered_plug.mp ordered).1
  rw [entries_plug, append_assoc, mem_append, mem_append] at member
  rcases member with isBefore | isInside | isBehind
  · exact .inl (fits.above contextOrdered (mem_append_left _ isBefore) begins)
  · exact .inr isInside
  · exact .inl (fits.above contextOrdered (mem_append_right _ isBehind) begins)

theorem ne_of_aside (ordered : (context.plug (.node pointer value left right)).Ordered bits)
    (apart : ¬value.bits <+: networkBits p) :
    ∀ entry ∈ (context.plug (.node pointer value left right)).entries,
      entry.2.bits <+: networkBits p →
      ∃ crumb ∈ context, entry = (crumb.pointer, crumb.value) := by
  intro entry member begins
  apply (above_or_inside fits ordered member begins).resolve_right
  intro isInside
  exact apart (((ordered_plug.mp ordered).2.1.begins isInside).trans begins)

theorem ne_of_below (ordered : (context.plug .leaf).Ordered bits) :
    ∀ entry ∈ (context.plug .leaf).entries, entry.2.bits <+: networkBits p →
      ∃ crumb ∈ context, entry = (crumb.pointer, crumb.value) := fun _ member begins =>
  (above_or_inside fits ordered member begins).resolve_right nofun

theorem ne_of_above {entry : Nat × RouteEntry Info}
    (above : entry.2.bits <+: networkBits p →
      ∃ crumb ∈ context, entry = (crumb.pointer, crumb.value)) :
    entry.2.bits ≠ networkBits p := by
  intro same
  rcases above (same ▸ prefix_refl _) with ⟨crumb, isIn, rfl⟩
  exact ne_of_branch (fits crumb isIn) same

end

theorem Shaped.lookup (shaped : table.Shaped afi tree) (isOf : IsOf afi p) :
    ∃ after found? afterTree, table.routeNodeLookup p = .ok (after, found?) ∧
      after.Shaped afi afterTree ∧ dataOf afterTree.entries = dataOf tree.entries ∧
      Grown tree afterTree ∧ ∀ pointer, found? = some pointer ↔ ∃ value,
    (pointer, value) ∈ tree.entries ∧ value.bits = networkBits p ∧ value.info?.isSome = true := by
  rcases shaped.toFormed.descend isOf (fun _ _ _ => ()) () with ⟨result, descended, descent⟩
  have missed : (∀ entry ∈ tree.entries, entry.2.bits ≠ networkBits p) →
      ∀ pointer, none = some pointer ↔ ∃ value, (pointer, value) ∈ tree.entries ∧
        value.bits = networkBits p ∧ value.info?.isSome = true := by
    intro other pointer
    refine ⟨nofun, ?_⟩
    rintro ⟨value, member, same, _⟩
    exact absurd same (other (pointer, value) member)
  rw [routeNodeLookup, descended]
  cases descent with
  | below context fits =>
    refine ⟨table, none, _, rfl, shaped, rfl, .refl _, missed ?_⟩
    intro entry member
    exact ne_of_above fits (ne_of_below fits shaped.ordered entry member)
  | aside context pointer value left right fits apart =>
    refine ⟨table, none, _, rfl, shaped, rfl, .refl _, missed ?_⟩
    intro entry member
    exact ne_of_above fits (ne_of_aside fits shaped.ordered apart entry member)
  | exact context pointer value left right fits same =>
    have member := mem_entries_plug context pointer value left right
    have found := shaped.layout.node_eq
    have unique : ∀ other otherValue,
        (other, otherValue) ∈ (context.plug (.node pointer value left right)).entries →
        otherValue.bits = networkBits p → (other, otherValue) = (pointer, value) := by
      intro other otherValue otherMember otherSame
      exact shaped.ordered.eq_of_key otherMember member (otherSame.trans same.symm)
    by_cases hasInfo : value.info?.isSome = true
    · rcases shaped.lock with ⟨after, lock, afterShaped⟩
      refine ⟨after, some pointer, _, ?_, afterShaped,
        dataOf_changeValue locked rfl rfl context pointer left right,
        grown_locked context pointer value left right, ?_⟩
      · simp [node_of_some found, hasInfo, lock]
      · intro other
        refine ⟨?_, ?_⟩
        · rintro ⟨⟩
          exact ⟨value, member, same, hasInfo⟩
        · rintro ⟨otherValue, otherMember, otherSame, _⟩
          cases unique other otherValue otherMember otherSame
          rfl
    · refine ⟨table, none, _, ?_, shaped, rfl, .refl _, ?_⟩
      · simp [node_of_some found, hasInfo]
      · intro other
        refine ⟨nofun, ?_⟩
        rintro ⟨otherValue, otherMember, otherSame, otherInfo⟩
        cases unique other otherValue otherMember otherSame
        exact absurd otherInfo hasInfo

/-! ## The longest match -/

/-- A node with data whose network contains the prefix. -/
structure Contains (tree : RouteTree Info) (p : Prefix) (entry : Nat × RouteEntry Info) : Prop where
  member : entry ∈ tree.entries
  hasInfo : entry.2.info?.isSome = true
  begins : entry.2.bits <+: networkBits p

structure IsLongest (tree : RouteTree Info) (p : Prefix) (found? : Option Nat) : Prop where
  missed : found? = none → ∀ entry, ¬Contains tree p entry
  found : ∀ pointer, found? = some pointer → ∃ value, Contains tree p (pointer, value) ∧
    ∀ other, Contains tree p other → other.2.p.prefixlen ≤ value.p.prefixlen

/-- What `route_node_match` notes of the nodes it passes. -/
def noteInfo (matched? : Option Nat) (pointer : Nat) (entry : RouteEntry Info) : Option Nat :=
  if entry.info?.isSome then some pointer else matched?

theorem length_bits (entry : RouteEntry Info) : entry.bits.length = entry.p.prefixlen :=
  length_networkBits entry.p

theorem noted_noteInfo (context : Context (RouteEntry Info)) :
    noted noteInfo none context =
      (context.find? fun crumb => crumb.value.info?.isSome).map Crumb.pointer := by
  induction context with
  | nil => rfl
  | cons crumb outer induction =>
    rw [find?_cons]
    change noteInfo (noted noteInfo none outer) crumb.pointer crumb.value = _
    rw [noteInfo, induction]
    cases crumb.value.info?.isSome <;> rfl

theorem isLongest_noted (ordered : context.Ordered bits) (fits : context.Fits bits (networkBits p))
    (above : ∀ entry, Contains (context.plug tree) p entry →
      ∃ crumb ∈ context, entry = (crumb.pointer, crumb.value)) :
    IsLongest (context.plug tree) p (noted noteInfo none context) := by
  rw [noted_noteInfo]
  cases search : context.find? fun crumb => crumb.value.info?.isSome with
  | none =>
    rw [find?_eq_none] at search
    refine ⟨?_, nofun⟩
    intro _ entry contains
    rcases above entry contains with ⟨crumb, isIn, rfl⟩
    exact search crumb isIn contains.hasInfo
  | some crumb =>
    rcases find?_eq_some_iff_append.mp search with ⟨hasInfo, inner, outer, rfl, without⟩
    have isIn : crumb ∈ inner ++ crumb :: outer := by simp
    refine ⟨nofun, ?_⟩
    rintro pointer ⟨⟩
    refine ⟨crumb.value, ⟨mem_plug_of_crumb isIn tree, hasInfo,
      begins_of_branch (fits crumb isIn)⟩, ?_⟩
    intro other contains
    rcases above other contains with ⟨otherCrumb, otherIsIn, rfl⟩
    rcases mem_append.mp otherIsIn with isInner | isRest
    · have noInfo := without otherCrumb isInner
      rw [contains.hasInfo] at noInfo
      cases noInfo
    · rcases mem_cons.mp isRest with rfl | isOuter
      · exact Nat.le_refl _
      · have shorter := (ordered.outer.2.2.1 otherCrumb isOuter).length_le
        rw [length_append, length_bits, length_bits] at shorter
        exact Nat.le_of_succ_le shorter

theorem isLongest_exact (ordered : (context.plug (.node pointer value left right)).Ordered
      bits) (fits : context.Fits bits (networkBits p)) (same : value.bits = networkBits p) :
    IsLongest (context.plug (.node pointer value left right)) p
      (noteInfo (noted noteInfo none context) pointer value) := by
  rcases ordered_plug.mp ordered with ⟨contextOrdered, treeOrdered, _⟩
  unfold noteInfo
  split_ifs with hasInfo
  · refine ⟨nofun, ?_⟩
    rintro found ⟨⟩
    refine ⟨value, ⟨mem_entries_plug context pointer value left right, hasInfo,
      same ▸ prefix_refl _⟩, ?_⟩
    intro other contains
    have shorter := contains.begins.length_le
    rw [← same, length_bits, length_bits] at shorter
    exact shorter
  · apply isLongest_noted contextOrdered fits
    rintro entry ⟨member, entryInfo, begins⟩
    apply (above_or_inside fits ordered member begins).resolve_right
    intro isInside
    rw [← same] at begins
    simp only [LinkedTree.entries, mem_cons, mem_append] at isInside
    rcases isInside with rfl | isLeft | isRight
    · exact absurd entryInfo hasInfo
    · exact ne_of_branch ((treeOrdered.1 entry isLeft).trans begins) rfl
    · exact ne_of_branch ((treeOrdered.2.1 entry isRight).trans begins) rfl

theorem Shaped.longest (shaped : table.Shaped afi tree) (isOf : IsOf afi p) :
    ∃ after found? afterTree, table.routeNodeMatch p = .ok (after, found?) ∧
      after.Shaped afi afterTree ∧ dataOf afterTree.entries = dataOf tree.entries ∧
      Grown tree afterTree ∧ IsLongest tree p found? := by
  rcases shaped.toFormed.descend isOf noteInfo none with
    ⟨⟨matched?, stop?, isExact⟩, descended, descent⟩
  have isLongest : IsLongest tree p matched? := by
    cases descent with
    | below context fits =>
      apply isLongest_noted (ordered_plug.mp shaped.ordered).1 fits
      exact fun entry contains =>
        ne_of_below fits shaped.ordered entry contains.member contains.begins
    | aside context pointer value left right fits apart =>
      apply isLongest_noted (ordered_plug.mp shaped.ordered).1 fits
      exact fun entry contains =>
        ne_of_aside fits shaped.ordered apart entry contains.member contains.begins
    | exact context pointer value left right fits same =>
      exact isLongest_exact shaped.ordered fits same
  cases matched? with
  | none =>
    refine ⟨table, none, tree, ?_, shaped, rfl, .refl _, isLongest⟩
    change (table.descend p noteInfo table.bound none table.top? >>= _) = _
    rw [descended]
    rfl
  | some pointer =>
    rcases isLongest.found pointer rfl with ⟨value, contains, _⟩
    rcases shaped.layout.exists_node contains.member with ⟨context, left, right, rfl, _⟩
    rcases shaped.lock with ⟨after, lock, afterShaped⟩
    refine ⟨after, some pointer, _, ?_, afterShaped,
      dataOf_changeValue locked rfl rfl context pointer left right,
      grown_locked context pointer value left right, isLongest⟩
    change (table.descend p noteInfo table.bound none table.top? >>= _) = _
    simp [descended, lock]

/-! ## Inserting -/

/-- A new node between a hole that its network leads to and the tree in it. The nodes of `amount`
insertions before this one are still to be counted. -/
theorem Formed.insert (amount : Nat) (side : Bool) {new : Nat}
    (formed : (table.addCount amount).Formed afi (context.plug tree))
    (layout : after.Layout (context.plug (.join new ⟨network, 0, none⟩ side tree .leaf)))
    (count : after.count = table.count) (fits : context.Fits bits (networkBits network))
    (branch : ∀ entry ∈ tree.entries, networkBits network ++ [side] <+: entry.2.bits)
    (isOf : IsOf afi network) :
    (after.addCount (amount + 1)).Formed afi
      (context.plug (.join new ⟨network, 0, none⟩ side tree .leaf)) := by
  have members : ∀ entry ∈ (context.plug (.join new ⟨network, 0, none⟩ side tree .leaf)).entries,
      entry = (new, ⟨network, 0, none⟩) ∨ entry ∈ (context.plug tree).entries := by
    intro entry member
    rw [entries_plug, entries_join_leaf] at member
    rw [entries_plug]
    simp only [mem_append, mem_cons] at member ⊢
    tauto
  refine ⟨⟨layout.stored, layout.top, layout.distinct, layout.complete, layout.fresh⟩,
    ?_, ?_, ?_, ?_⟩
  · have counted : table.count + amount = (context.plug tree).pointers.length := formed.count
    change after.count + (amount + 1) = _
    rw [pointers_plug, length_append, length_append] at counted
    rw [pointers_plug, pointers_join_leaf, length_append, length_append, length_cons]
    omega
  · rcases ordered_plug.mp formed.ordered with ⟨contextOrdered, treeOrdered, inside⟩
    rw [ordered_plug, ordered_join]
    refine ⟨contextOrdered, ⟨branch, forall_mem_nil _, treeOrdered, trivial⟩, ?_⟩
    intro entry member
    rw [entries_join_leaf] at member
    rcases mem_cons.mp member with rfl | isBelow
    · exact fits
    · exact inside entry isBelow
  · intro entry member
    rcases members entry member with rfl | isOld
    · exact isOf
    · exact formed.family entry isOld
  · intro entry member hasInfo
    rcases members entry member with rfl | isOld
    · cases hasInfo
    · exact formed.kept entry isOld hasInfo

theorem dataOf_insert (context : Context (RouteEntry Info)) (new lock : Nat) (network : Prefix)
    (side : Bool) (tree : RouteTree Info) :
    dataOf (context.plug (.join new ⟨network, lock, none⟩ side tree .leaf)).entries =
      dataOf (context.plug tree).entries := by
  rw [dataOf_plug, dataOf_plug, entries_join_leaf]
  rfl

def noteLast (_ : Option Nat) (pointer : Nat) (_ : RouteEntry Info) : Option Nat := some pointer

theorem noted_noteLast (context : Context (RouteEntry Info)) :
    noted noteLast none context = context.parent? := by
  cases context <;> rfl

/-- A node that is new or whose lock was taken, for the network of `p`. -/
structure Provided (afi : Afi) (tree : RouteTree Info) (p : Prefix) (after : RouteTable Info)
    (pointer : Nat) : Prop where
  shaped : ∃ afterTree value, after.Shaped afi afterTree ∧
    dataOf afterTree.entries = dataOf tree.entries ∧ Grown tree afterTree ∧
    (pointer, value) ∈ afterTree.entries ∧ value.bits = networkBits p ∧ value.IsHeld
  known : ∀ entry ∈ tree.entries, entry.2.bits = networkBits p → entry.1 = pointer

theorem Formed.lockNew {middle : RouteTable Info}
    (formed : middle.Formed afi (context.plug (.join pointer ⟨network, 0, none⟩ side tree .leaf)))
    (contextSupported : context.Supported IsHeld)
    (supported : tree.Supported IsHeld) :
    ∃ after, middle.routeLockNode pointer = .ok after ∧
      after.Shaped afi (context.plug (.join pointer ⟨network, 1, none⟩ side tree .leaf)) := by
  have joined : (context.plug (.join pointer ⟨network, 1, none⟩ side tree .leaf)).Supported
      IsHeld := by
    rw [supported_plug, supported_join]
    refine ⟨contextSupported, ⟨.inl Nat.one_pos, supported, trivial⟩, ?_⟩
    cases side <;> nofun
  cases side with
  | false | true =>
    rcases Formed.changeValue formed locked rfl nofun with ⟨after, lock, afterFormed⟩
    exact ⟨after, lock, afterFormed, joined⟩

theorem entries_insert_subset (context : Context (RouteEntry Info)) (new : Nat)
    (entry : RouteEntry Info) (side : Bool) (tree : RouteTree Info) :
    (context.plug tree).entries ⊆ (context.plug (.join new entry side tree .leaf)).entries := by
  rw [entries_plug, entries_plug, entries_join_leaf]
  intro other member
  simp only [mem_append] at member ⊢
  tauto

theorem Provided.of_insert
    (shaped : after.Shaped afi (context.plug (.join pointer ⟨network, 1, none⟩ side tree .leaf)))
    {old : RouteTree Info} (sameData : dataOf (context.plug tree).entries = dataOf old.entries)
    (within : old.entries ⊆ (context.plug tree).entries)
    (same : networkBits network = networkBits p)
    (unknown : ∀ entry ∈ old.entries, entry.2.bits ≠ networkBits p) :
    Provided afi old p after pointer where
  shaped := by
    refine ⟨_, ⟨network, 1, none⟩, shaped, ?_, fun entry member => ?_, ?_, same, Nat.one_pos⟩
    · rw [dataOf_insert, sameData]
    · exact ⟨entry.2.lock, Nat.le_refl _, entries_insert_subset context _ _ _ _ (within member)⟩
    · rw [entries_plug, entries_join_leaf]
      simp
  known entry member equal := absurd equal (unknown entry member)

theorem Shaped.get_below (shaped : table.Shaped afi (context.plug .leaf)) (isOf : IsOf afi p)
    (fits : context.Fits bits (networkBits p))
    (descended : table.descend p noteLast table.bound none table.top? =
      .ok (context.parent?, none, false)) :
    ∃ after pointer, table.routeNodeGet p = .ok (after, pointer) ∧
      Provided afi (context.plug .leaf) p after pointer := by
  have supported := (supported_plug.mp shaped.supported).1
  rcases shaped.layout.insertLeaf fits with ⟨middle, attached, layout, _, count⟩
  have formed := Formed.insert 0 false shaped.toFormed layout count fits nofun isOf
  rcases formed.lockNew supported trivial with ⟨after, lock, afterShaped⟩
  refine ⟨after, table.next, ?_, ?_⟩
  · change (table.descend p noteLast table.bound none table.top? >>= _) = _
    simp [descended, attached, lock]
  apply Provided.of_insert afterShaped rfl (List.Subset.refl _) rfl
  intro entry member
  exact ne_of_above fits (ne_of_below fits shaped.ordered entry member)

theorem Shaped.get_aside (shaped : table.Shaped afi (context.plug (.node pointer value left right)))
    (isOf : IsOf afi p) (fits : context.Fits bits (networkBits p))
    (apart : ¬value.bits <+: networkBits p)
    (descended : table.descend p noteLast table.bound none table.top? =
      .ok (context.parent?, some pointer, false)) :
    ∃ after new, table.routeNodeGet p = .ok (after, new) ∧
      Provided afi (context.plug (.node pointer value left right)) p after new := by
  have found := shaped.layout.node_eq
  have valueIsOf : IsOf afi value.p := shaped.family _ (mem_entries_plug _ _ _ _ _)
  have common := (routeCommon_isCommon valueIsOf isOf).isOf
  rcases exists_parting valueIsOf isOf apart with ⟨side, branch, parting⟩
  rcases ordered_plug.mp shaped.ordered with ⟨contextOrdered, treeOrdered, inside⟩
  rcases supported_plug.mp shaped.supported with ⟨contextSupported, treeSupported, _⟩
  have commonFits : context.Fits bits (networkBits (routeCommon value.p p)) := by
    intro crumb isIn
    apply begins_of_parting (inside (pointer, value) mem_cons_self crumb isIn)
      (fits crumb isIn) branch
    exact parting.imp And.right And.right
  have below : ∀ entry ∈ (LinkedTree.node pointer value left right).entries,
      networkBits (routeCommon value.p p) ++ [side] <+: entry.2.bits := fun entry member =>
    branch.trans (treeOrdered.begins member)
  have unknown : ∀ entry ∈ (context.plug (.node pointer value left right)).entries,
      entry.2.bits ≠ networkBits p := by
    intro entry member
    exact ne_of_above fits (ne_of_aside fits shaped.ordered apart entry member)
  rcases shaped.layout.insertAbove commonFits branch with
    ⟨linked, middle, link, attached, layout, next, count⟩
  have formed := Formed.insert 0 side shaped.toFormed layout count commonFits below common
  change ∃ after new, (table.descend p noteLast table.bound none table.top? >>= _) =
    .ok (after, new) ∧ _
  simp only [descended, node_of_some found, link, attached, ok_bind]
  rcases parting with ⟨whole, same⟩ | ⟨longer, otherBranch⟩
  · rcases formed.lockNew contextSupported treeSupported with ⟨after, lock, afterShaped⟩
    refine ⟨after, table.next, by simp [whole, lock], ?_⟩
    exact Provided.of_insert afterShaped rfl (List.Subset.refl _) same unknown
  · -- The prefix leaves the new node on the other side.
    let fork : Context (RouteEntry Info) :=
      ⟨table.next, ⟨routeCommon value.p p, 0, none⟩, !side, .node pointer value left right⟩ ::
        context
    have forked : context.plug (.join table.next ⟨routeCommon value.p p, 0, none⟩ side
        (.node pointer value left right) .leaf) = fork.plug .leaf := by
      cases side <;> rfl
    have forkFits : fork.Fits bits (networkBits p) := by
      intro crumb isIn
      rcases mem_cons.mp isIn with rfl | isOuter
      · exact otherBranch
      · exact fits crumb isOuter
    have forkSupported : fork.Supported IsHeld :=
      ⟨.inr nofun, treeSupported, contextSupported⟩
    rw [forked] at layout formed
    rcases layout.insertLeaf forkFits with ⟨last, linkLast, lastLayout, _, lastCount⟩
    have lastFormed := Formed.insert 1 false formed lastLayout lastCount forkFits nofun isOf
    rcases lastFormed.lockNew forkSupported trivial with ⟨after, lock, afterShaped⟩
    change (middle.allocate p).setLink table.next middle.next = _ at linkLast
    refine ⟨after, middle.next, by simp [longer, linkLast, lock], ?_⟩
    apply Provided.of_insert afterShaped _ _ rfl unknown
    · rw [← forked, dataOf_insert]
    · rw [← forked]
      exact entries_insert_subset context _ _ _ _

theorem Shaped.get (shaped : table.Shaped afi tree) (isOf : IsOf afi p) :
    ∃ after pointer, table.routeNodeGet p = .ok (after, pointer) ∧
      Provided afi tree p after pointer := by
  rcases shaped.toFormed.descend isOf noteLast none with ⟨result, descended, descent⟩
  cases descent with
  | below context fits =>
    rw [noted_noteLast] at descended
    exact shaped.get_below isOf fits descended
  | aside context pointer value left right fits apart =>
    rw [noted_noteLast] at descended
    exact shaped.get_aside isOf fits apart descended
  | exact context pointer value left right fits same =>
    have member := mem_entries_plug context pointer value left right
    rcases shaped.lock with ⟨after, lock, afterShaped⟩
    refine ⟨after, pointer, ?_, ?_, ?_⟩
    · change (table.descend p noteLast table.bound none table.top? >>= _) = _
      simp [descended, lock]
    · exact ⟨_, locked value, afterShaped,
        dataOf_changeValue locked rfl rfl context pointer left right,
        grown_locked context pointer value left right, mem_entries_plug _ _ _ _ _, same,
        Nat.succ_pos _⟩
    · intro entry isIn equal
      rw [shaped.ordered.eq_of_key isIn member (equal.trans same.symm)]

end RouteTable

end Quagga.Lib
