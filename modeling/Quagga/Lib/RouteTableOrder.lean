import Quagga.Lib.RouteTableIter
import Quagga.Lib.RouteTableMap

/-!
# The order of an iteration

The order of `route_table_prefix_iter_cmp` is the lexicographic order of the bits of networks,
and the entries of a tree stand in this order. However an iterator moves on, it goes to the first
node above the last one it returned.
-/

namespace Quagga.Lib

open Foundation Bgp List Context LinkedTree Nat

variable {Info : Type}

/-! ## Comparing prefixes -/

theorem prefixMatch_eq_false {afi : Afi} {network other : Prefix} (isOf : IsOf afi network)
    (otherIsOf : IsOf afi other) (apart : ¬networkBits network <+: networkBits other) :
    prefixMatch network other = false := by
  rw [Bool.eq_false_iff]
  intro isMatch
  exact apart ((prefixMatch_iff isOf otherIsOf).mp isMatch)

theorem iterCmp_of_apart {afi : Afi} {p1 p2 : Prefix} (isOf : IsOf afi p1) (otherIsOf : IsOf afi p2)
    (apart : ¬networkBits p1 <+: networkBits p2) (otherApart : ¬networkBits p2 <+: networkBits p1) :
    ∃ common side, common ++ [side] <+: networkBits p1 ∧ common ++ [!side] <+: networkBits p2 ∧
      routeTablePrefixIterCmp p1 p2 = .ok (if side then 1 else -1) := by
  rcases exists_parting isOf otherIsOf apart with ⟨side, branch, ⟨_, same⟩ | ⟨_, otherBranch⟩⟩
  · exact absurd (same ▸ begins_of_branch branch) otherApart
  · refine ⟨_, side, branch, otherBranch, ?_⟩
    have shorter := branch.length_le
    have otherShorter := otherBranch.length_le
    simp only [length_append, length_networkBits] at shorter otherShorter
    unfold routeTablePrefixIterCmp
    dsimp only
    rw [prefixMatch_eq_false isOf otherIsOf apart, prefixMatch_eq_false otherIsOf isOf otherApart,
      prefixBit_of_branch branch, prefixBit_of_branch otherBranch]
    cases side <;> simp [lt_of_succ_le shorter, lt_of_succ_le otherShorter]

theorem iterCmp_spec {afi : Afi} {p1 p2 : Prefix} (isOf : IsOf afi p1) (otherIsOf : IsOf afi p2) :
    routeTablePrefixIterCmp p1 p2 = .ok (if networkBits p1 < networkBits p2 then -1
      else if networkBits p1 = networkBits p2 then 0 else 1) := by
  by_cases begins : networkBits p1 <+: networkBits p2
  · have shorter : p1.prefixlen ≤ p2.prefixlen := by simpa using begins.length_le
    have isMatch := (prefixMatch_iff isOf otherIsOf).mpr begins
    unfold routeTablePrefixIterCmp
    rw [if_pos (by simp [shorter, isMatch])]
    by_cases whole : p1.prefixlen = p2.prefixlen
    · have same : networkBits p1 = networkBits p2 := begins.eq_of_length (by simpa using whole)
      rw [if_pos whole, same, if_neg (lt_irrefl _), if_pos rfl]
    · have differs : networkBits p1 ≠ networkBits p2 := by
        intro same
        apply whole
        simpa using congrArg List.length same
      rcases exists_branch begins differs with ⟨side, branch⟩
      rw [if_neg whole, if_pos (lt_of_branch branch)]
  · by_cases otherBegins : networkBits p2 <+: networkBits p1
    · have differs : networkBits p2 ≠ networkBits p1 := by
        intro same
        exact begins (same ▸ prefix_refl _)
      rcases exists_branch otherBegins differs with ⟨side, branch⟩
      have less := lt_of_branch branch
      have longer := branch.length_le
      simp only [length_append, length_networkBits] at longer
      unfold routeTablePrefixIterCmp
      rw [if_neg (by simp [prefixMatch_eq_false isOf otherIsOf begins]), if_pos (by
        simp [lt_of_succ_le longer, (prefixMatch_iff otherIsOf isOf).mpr otherBegins]),
        if_neg (lt_asymm less), if_neg (ne_of_gt less)]
    · rcases iterCmp_of_apart isOf otherIsOf begins otherBegins with
        ⟨common, side, branch, otherBranch, compared⟩
      rw [compared]
      cases side with
      | false => rw [if_pos (lt_of_divergence branch otherBranch), if_neg (by decide)]
      | true =>
        have less := lt_of_divergence otherBranch branch
        rw [if_neg (lt_asymm less), if_neg (ne_of_gt less), if_pos rfl]

namespace RouteTable

variable {afi : Afi} {table : RouteTable Info} {tree left right : RouteTree Info}
  {context : Context (RouteEntry Info)} {pointer : Nat} {value : RouteEntry Info} {p : Prefix}

/-! ## Locks by pointer -/

section

variable (shaped : table.Shaped afi tree) (member : (pointer, value) ∈ tree.entries)
include shaped member

theorem Shaped.changeAt (edit : RouteEntry Info → RouteEntry Info)
    (sameNetwork : (edit value).p = value.p)
    (held : value.IsHeld ∨ (edit value).info?.isSome = true → (edit value).IsHeld) :
    ∃ after, table.write pointer (Cell.changeValue edit) = .ok after ∧
      after.Shaped afi (tree.changeAt pointer edit) := by
  rcases exists_plug member with ⟨context, left, right, rfl⟩
  rw [changeAt_node shaped.layout.distinct]
  exact shaped.changeValue edit sameNetwork held

theorem Shaped.lockAt :
    ∃ after, table.routeLockNode pointer = .ok after ∧
      after.Shaped afi (tree.changeAt pointer locked) :=
  shaped.changeAt member locked rfl fun _ => succ_pos _

theorem Shaped.unlockAt (permitted : 2 ≤ value.lock ∨ value.lock = 1 ∧ value.info? = none) :
    ∃ after afterTree, table.routeUnlockNode pointer = .ok after ∧ after.Shaped afi afterTree ∧
      Pruned (tree.changeAt pointer released) afterTree := by
  rcases exists_plug member with ⟨context, left, right, rfl⟩
  rw [changeAt_node shaped.layout.distinct]
  exact shaped.unlock permitted

end

theorem Shaped.unlockAt_of_locked (shaped : table.Shaped afi (tree.changeAt pointer locked))
    (distinct : tree.pointers.Nodup) (member : (pointer, value) ∈ tree.entries)
    (kept : value.info?.isSome = true → value.IsHeld)
    (supported : tree.Supported RouteEntry.IsHeld) :
    ∃ after, table.routeUnlockNode pointer = .ok after ∧ after.Shaped afi tree := by
  rcases exists_plug member with ⟨context, left, right, rfl⟩
  rw [changeAt_node distinct] at shaped
  have found := shaped.layout.node_eq
  rcases shaped.toFormed.changeValue released rfl kept with ⟨middle, written, formed⟩
  have restored : middle.Shaped afi (context.plug (.node pointer value left right)) :=
    ⟨formed, supported⟩
  refine ⟨middle, ?_, restored⟩
  rw [routeUnlockNode_of_some found (succ_ne_zero _) written]
  split_ifs with wasUnlocked
  · have unlocked : value.lock = 0 := Nat.succ.inj wasUnlocked
    rcases (supported_plug.mp supported).2.1.1 with isHeld | ⟨leftNode, rightNode⟩
    · exact absurd unlocked (Nat.ne_of_gt isHeld)
    · exact routeNodeDelete_of_both restored.layout.node_eq unlocked
        (restored.noInfo (mem_entries_plug _ _ _ _ _) unlocked)
        (by simp [isSome_root? leftNode, isSome_root? rightNode]) middle.next
  · rfl

/-! ## Walking up -/

theorem mem_pointers_of_root? (isRoot : tree.root? = some pointer) : pointer ∈ tree.pointers := by
  cases tree with
  | leaf => cases isRoot
  | node own value left right =>
    cases isRoot
    exact mem_cons_self

theorem routeGetSubtreeNext_spec
    (layout : table.Layout (context.plug (.node pointer value left right))) (fuel : Nat)
    (enough : context.length < fuel) :
    table.routeGetSubtreeNext fuel pointer = .ok (context.behind.head?.map Prod.fst) := by
  induction context generalizing pointer value left right fuel with
  | nil =>
    cases fuel with
    | zero => cases enough
    | succ fuel =>
      rw [routeGetSubtreeNext, node_of_some layout.node_eq]
      rfl
  | cons crumb outer induction =>
    cases fuel with
    | zero => cases enough
    | succ fuel =>
      have aboveFound := (stored_plug.mp layout.stored).1.1
      have further := lt_of_succ_lt_succ enough
      rw [routeGetSubtreeNext, node_of_some layout.node_eq]
      change (table.node crumb.pointer >>= _) = _
      rw [node_of_some aboveFound, ok_bind]
      rcases crumb with ⟨parent, parentValue, side, sibling⟩
      cases side with
      | false =>
        cases sibling with
        | leaf =>
          rw [if_neg (fun both => nomatch both.2)]
          exact induction layout fuel further
        | node next nextValue nextLeft nextRight => exact if_pos ⟨rfl, rfl⟩
      | true =>
        have notLeft : sibling.root? ≠ some pointer := by
          intro isRoot
          apply (nodup_plug.mp layout.distinct).2.2 pointer
          · exact mem_pointers_cons.mpr (.inr (.inl (mem_pointers_of_root? isRoot)))
          · exact mem_cons_self
        rw [if_neg (fun both => notLeft both.1)]
        exact induction layout fuel further

theorem Layout.enough (layout : table.Layout (context.plug tree)) :
    context.length < table.bound := by
  have inside := length_add_le context tree
  have within := length_pointers_le layout
  exact lt_succ_of_le (by omega)

theorem following_spec (layout : table.Layout (context.plug (.node pointer value left right))) :
    table.following pointer =
      .ok (((left.entries ++ right.entries).head?.or context.behind.head?).map Prod.fst) := by
  rw [following, node_of_some layout.node_eq]
  cases left with
  | node next nextValue nextLeft nextRight => rfl
  | leaf =>
    cases right with
    | node next nextValue nextLeft nextRight => rfl
    | leaf => exact routeGetSubtreeNext_spec layout table.bound layout.enough

/-! ## The first node above -/

def firstAbove (tree : RouteTree Info) (bits : List Bool) : Option (Nat × RouteEntry Info) :=
  tree.entries.find? fun entry => decide (bits < entry.2.bits)

variable {bits : List Bool}

theorem find?_above {entries : List (Nat × RouteEntry Info)}
    (above : ∀ entry ∈ entries, bits < entry.2.bits) :
    entries.find? (fun entry => decide (bits < entry.2.bits)) = entries.head? := by
  cases entries with
  | nil => rfl
  | cons entry entries =>
    rw [find?_cons_of_pos (by simpa using above entry mem_cons_self), head?_cons]

theorem firstAbove_plug (fits : context.Fits RouteEntry.bits bits)
    (ordered : context.Ordered RouteEntry.bits) (tree : RouteTree Info) :
    firstAbove (context.plug tree) bits = (firstAbove tree bits).or context.behind.head? := by
  have before : context.before.find? (fun entry => decide (bits < entry.2.bits)) = none := by
    rw [find?_eq_none]
    intro entry isBefore
    simpa using lt_asymm (fits.before_lt ordered isBefore)
  have behind : context.behind.find? (fun entry => decide (bits < entry.2.bits)) =
      context.behind.head? :=
    find?_above fun entry isBehind => fits.lt_behind ordered isBehind
  rw [firstAbove, entries_plug, find?_append, find?_append, before, behind]
  rfl

theorem firstAbove_of_none (below : ∀ entry ∈ tree.entries, entry.2.bits < bits) :
    firstAbove tree bits = none := by
  rw [firstAbove, find?_eq_none]
  intro entry member
  simpa using lt_asymm (below entry member)

theorem firstAbove_node
    (ordered : (LinkedTree.node pointer value left right).Ordered RouteEntry.bits) :
    firstAbove (.node pointer value left right) value.bits =
      (left.entries ++ right.entries).head? := by
  have sorted := pairwise_cons.mp ordered.sorted
  rw [firstAbove, LinkedTree.entries, find?_cons_of_neg (by simp)]
  exact find?_above sorted.1

theorem firstAbove_exact
    (ordered : (context.plug (.node pointer value left right)).Ordered RouteEntry.bits) :
    firstAbove (context.plug (.node pointer value left right)) value.bits =
      (left.entries ++ right.entries).head?.or context.behind.head? := by
  rcases ordered_plug.mp ordered with ⟨contextOrdered, treeOrdered, fits⟩
  rw [firstAbove_plug (fits (pointer, value) mem_cons_self) contextOrdered,
    firstAbove_node treeOrdered]

/-! ## Moving on -/

theorem Shaped.following (shaped : table.Shaped afi tree)
    (member : (pointer, value) ∈ tree.entries) :
    table.following pointer = .ok ((firstAbove tree value.bits).map Prod.fst) := by
  rcases exists_plug member with ⟨context, left, right, rfl⟩
  rw [following_spec shaped.layout, firstAbove_exact shaped.ordered]

theorem firstAbove_changeAt (edit : RouteEntry Info → RouteEntry Info)
    (sameNetwork : ∀ entry, (edit entry).p = entry.p) (pointer : Nat) (tree : RouteTree Info)
    (bits : List Bool) :
    firstAbove (tree.changeAt pointer edit) bits = (firstAbove tree bits).map fun entry =>
      (entry.1, if entry.1 = pointer then edit entry.2 else entry.2) := by
  have same : ∀ entry : Nat × RouteEntry Info,
      (if entry.1 = pointer then edit entry.2 else entry.2).bits = entry.2.bits := by
    intro entry
    split_ifs
    · exact congrArg networkBits (sameNetwork entry.2)
    · rfl
  rw [firstAbove, entries_changeAt, find?_map]
  simp only [Function.comp_def, same]
  rfl

/-- The holder of a lock can give it back. -/
def Releasable (entry : RouteEntry Info) : Prop :=
  2 ≤ entry.lock ∨ entry.lock = 1 ∧ entry.info? = none

theorem Releasable.isHeld (releasable : Releasable value) : value.IsHeld := by
  unfold Releasable at releasable
  unfold RouteEntry.IsHeld
  omega

def keysOf (tree : RouteTree Info) : List (List Bool) := tree.entries.map fun entry => entry.2.bits

/-- What an iterator that moves on leaves behind. The node it goes to has its lock. -/
structure Arrived (afi : Afi) (tree : RouteTree Info) (found? : Option (Nat × RouteEntry Info))
    (after : RouteTable Info) (afterTree : RouteTree Info) : Prop where
  shaped : after.Shaped afi afterTree
  keys : (keysOf afterTree).Sublist (keysOf tree)
  target : ∀ entry ∈ found?, ∃ value, (entry.1, value) ∈ afterTree.entries ∧
    value.p = entry.2.p ∧ Releasable value

theorem keysOf_changeAt (edit : RouteEntry Info → RouteEntry Info)
    (sameNetwork : ∀ entry, (edit entry).p = entry.p) (pointer : Nat) (tree : RouteTree Info) :
    keysOf (tree.changeAt pointer edit) = keysOf tree := by
  rw [keysOf, entries_changeAt, map_map]
  apply map_congr_left
  intro entry _
  change (if entry.1 = pointer then edit entry.2 else entry.2).bits = entry.2.bits
  split_ifs
  · exact congrArg networkBits (sameNetwork entry.2)
  · rfl

variable {entry : Nat × RouteEntry Info}

theorem mem_changeAt (member : entry ∈ tree.entries) (pointer : Nat)
    (edit : RouteEntry Info → RouteEntry Info) :
    (entry.1, if entry.1 = pointer then edit entry.2 else entry.2) ∈
      (tree.changeAt pointer edit).entries := by
  rw [entries_changeAt]
  exact mem_map_of_mem member

theorem mem_changeAt_of_ne (member : entry ∈ tree.entries) (different : entry.1 ≠ pointer)
    (edit : RouteEntry Info → RouteEntry Info) : entry ∈ (tree.changeAt pointer edit).entries := by
  have changed := mem_changeAt member pointer edit
  rw [if_neg different] at changed
  exact changed

theorem mem_changeAt_self (member : (pointer, value) ∈ tree.entries)
    (edit : RouteEntry Info → RouteEntry Info) :
    (pointer, edit value) ∈ (tree.changeAt pointer edit).entries := by
  have changed := mem_changeAt member pointer edit
  rw [if_pos rfl] at changed
  exact changed

theorem Shaped.releasable_locked (shaped : table.Shaped afi tree)
    (member : (pointer, value) ∈ tree.entries) : Releasable (locked value) := by
  rcases Nat.eq_zero_or_pos value.lock with unlocked | positive
  · have noInfo : value.info? = none := shaped.noInfo member unlocked
    exact .inr ⟨congrArg (· + 1) unlocked, noInfo⟩
  · exact .inl (succ_le_succ positive)

theorem mem_of_firstAbove (found : firstAbove tree bits = some entry) :
    entry ∈ tree.entries ∧ bits < entry.2.bits :=
  ⟨mem_of_find?_eq_some found, by simpa using find?_some found⟩

theorem Shaped.arrive (shaped : table.Shaped afi tree) (member : entry ∈ tree.entries) :
    ∃ after, table.routeLockNode entry.1 = .ok after ∧
      Arrived afi tree (some entry) after (tree.changeAt entry.1 locked) := by
  rcases shaped.lockAt member with ⟨after, lock, afterShaped⟩
  refine ⟨after, lock, afterShaped, ?_, ?_⟩
  · rw [keysOf_changeAt locked fun _ => rfl]
  · rintro same ⟨⟩
    exact ⟨locked entry.2, mem_changeAt_self member locked, rfl, shaped.releasable_locked member⟩

theorem Shaped.routeTop (shaped : table.Shaped afi tree) :
    ∃ after afterTree, table.routeTop = .ok (after, tree.entries.head?.map Prod.fst) ∧
      Arrived afi tree tree.entries.head? after afterTree := by
  cases tree with
  | leaf =>
    refine ⟨table, .leaf, ?_, shaped, .refl _, nofun⟩
    rw [routeTop, shaped.layout.top]
    rfl
  | node pointer value left right =>
    rcases shaped.arrive mem_cons_self with ⟨after, lock, arrived⟩
    refine ⟨after, _, ?_, arrived⟩
    rw [routeTop, shaped.layout.top]
    change (table.routeLockNode pointer >>= _) = _
    rw [lock]
    rfl

theorem Shaped.ne_of_lt (shaped : table.Shaped afi tree) (member : (pointer, value) ∈ tree.entries)
    (isIn : entry ∈ tree.entries) (above : value.bits < entry.2.bits) : entry.1 ≠ pointer := by
  intro same
  have equal : entry = (pointer, value) :=
    inj_on_of_nodup_map shaped.layout.distinct isIn member same
  rw [equal] at above
  exact lt_irrefl _ above

section

variable {middle after : RouteTable Info} {next : Nat}

theorem routeNext_of_none (follow : table.following pointer = .ok none)
    (unlock : table.routeUnlockNode pointer = .ok after) :
    table.routeNext pointer = .ok (after, none) := by
  rw [routeNext, follow, unlock]
  rfl

theorem routeNext_of_some (follow : table.following pointer = .ok (some next))
    (lock : table.routeLockNode next = .ok middle)
    (unlock : middle.routeUnlockNode pointer = .ok after) :
    table.routeNext pointer = .ok (after, some next) := by
  simp [routeNext, follow, lock, unlock]

end

theorem Pruned.keys {afterTree : RouteTree Info}
    (prune : Pruned (tree.changeAt pointer released) afterTree) :
    (keysOf afterTree).Sublist (keysOf tree) := by
  rw [← keysOf_changeAt released (fun _ => rfl) pointer tree]
  exact prune.within.map _

theorem Shaped.routeNext (shaped : table.Shaped afi tree) (member : (pointer, value) ∈ tree.entries)
    (releasable : Releasable value) :
    ∃ after afterTree,
      table.routeNext pointer = .ok (after, (firstAbove tree value.bits).map Prod.fst) ∧
      Arrived afi tree (firstAbove tree value.bits) after afterTree := by
  have follow := shaped.following member
  cases above : firstAbove tree value.bits with
  | none =>
    rw [above] at follow
    rcases shaped.unlockAt member releasable with ⟨after, afterTree, unlock, afterShaped, prune⟩
    exact ⟨after, afterTree, routeNext_of_none follow unlock, afterShaped, prune.keys, nofun⟩
  | some entry =>
    rw [above] at follow
    rcases mem_of_firstAbove above with ⟨isIn, less⟩
    have different := shaped.ne_of_lt member isIn less
    rcases shaped.arrive isIn with ⟨middle, lock, arrived⟩
    rcases arrived.target entry rfl with ⟨entryValue, isLocked, sameNetwork, entryReleasable⟩
    rcases arrived.shaped.unlockAt (mem_changeAt_of_ne member different.symm locked) releasable with
      ⟨after, afterTree, unlock, afterShaped, prune⟩
    refine ⟨after, afterTree, routeNext_of_some follow lock unlock, afterShaped,
      prune.keys.trans arrived.keys, ?_⟩
    rintro same ⟨⟩
    refine ⟨entryValue, ?_, sameNetwork, entryReleasable⟩
    exact prune.held _ (mem_changeAt_of_ne isLocked different released) entryReleasable.isHeld

/-! ## Going on after a pause -/

theorem Shaped.getNextOfExact (shaped : table.Shaped afi tree)
    (member : (pointer, value) ∈ tree.entries) :
    ∃ after, table.getNextOfExact pointer =
        .ok (after, (firstAbove tree value.bits).map Prod.fst) ∧ after.Shaped afi tree := by
  rcases shaped.lockAt member with ⟨own, lock, ownShaped⟩
  have follow := ownShaped.following (mem_changeAt_self member locked)
  rw [firstAbove_changeAt locked (fun _ => rfl), Option.map_map] at follow
  cases above : firstAbove tree value.bits with
  | none =>
    rcases ownShaped.unlockAt_of_locked shaped.layout.distinct member (shaped.kept _ member)
      shaped.supported with ⟨after, unlock, afterShaped⟩
    have move : own.routeNext pointer = .ok (after, none) := by
      apply routeNext_of_none _ unlock
      rw [follow]
      change Except.ok ((firstAbove tree value.bits).map _) = _
      rw [above]
      rfl
    exact ⟨after, by simp [RouteTable.getNextOfExact, lock, move], afterShaped⟩
  | some entry =>
    rcases mem_of_firstAbove above with ⟨isIn, less⟩
    have different := shaped.ne_of_lt member isIn less
    rcases shaped.lockAt isIn with ⟨_, _, entryShaped⟩
    rcases ownShaped.lockAt (mem_changeAt_of_ne isIn different locked) with
      ⟨both, lockEntry, bothShaped⟩
    rw [changeAt_comm different.symm] at bothShaped
    have memberKept := mem_changeAt_of_ne member different.symm locked
    rcases bothShaped.unlockAt_of_locked entryShaped.layout.distinct memberKept
      (shaped.kept _ member) entryShaped.supported with ⟨moved, unlock, movedShaped⟩
    rcases movedShaped.unlockAt_of_locked shaped.layout.distinct isIn (shaped.kept _ isIn)
      shaped.supported with ⟨after, unlockEntry, afterShaped⟩
    have move : own.routeNext pointer = .ok (moved, some entry.1) := by
      apply routeNext_of_some _ lockEntry unlock
      rw [follow]
      change Except.ok ((firstAbove tree value.bits).map _) = _
      rw [above]
      rfl
    exact ⟨after, by simp [RouteTable.getNextOfExact, lock, move, unlockEntry], afterShaped⟩

theorem firstAbove_of_subtree {bits start : List Bool}
    (ordered : (context.plug (.node pointer value left right)).Ordered RouteEntry.bits)
    (fits : context.Fits RouteEntry.bits bits) (begins : start <+: value.bits)
    (above : ∀ longer, start <+: longer → bits < longer) :
    firstAbove (context.plug (.node pointer value left right)) bits = some (pointer, value) := by
  rcases ordered_plug.mp ordered with ⟨contextOrdered, treeOrdered, _⟩
  have inside : firstAbove (.node pointer value left right) bits = some (pointer, value) := by
    apply find?_above
    intro entry isIn
    exact above _ (begins.trans (treeOrdered.begins isIn))
  rw [firstAbove_plug fits contextOrdered, inside]
  rfl

theorem firstAbove_behind
    (ordered : (context.plug (.node pointer value left right)).Ordered RouteEntry.bits)
    (fits : context.Fits RouteEntry.bits bits) {start : List Bool} (begins : start <+: value.bits)
    (below : ∀ longer, start <+: longer → longer < bits) :
    firstAbove (context.plug (.node pointer value left right)) bits = context.behind.head? := by
  rcases ordered_plug.mp ordered with ⟨contextOrdered, treeOrdered, _⟩
  rw [firstAbove_plug fits contextOrdered, firstAbove_of_none, Option.none_or]
  intro entry isIn
  exact below _ (begins.trans (treeOrdered.begins isIn))

theorem firstAbove_hole (ordered : (context.plug .leaf).Ordered RouteEntry.bits)
    (fits : context.Fits RouteEntry.bits bits) :
    firstAbove (context.plug .leaf) bits = context.behind.head? := by
  rw [firstAbove_plug fits (ordered_plug.mp ordered).1]
  rfl

theorem Fits.cons (crumb : Crumb (RouteEntry Info)) (fits : context.Fits RouteEntry.bits bits)
    (branch : crumb.value.bits ++ [crumb.side] <+: bits) :
    Context.Fits RouteEntry.bits (crumb :: context) bits := by
  intro other isIn
  rcases mem_cons.mp isIn with rfl | isOuter
  · exact branch
  · exact fits other isOuter

theorem exists_child (context : Context (RouteEntry Info)) (pointer : Nat) (value : RouteEntry Info)
    (left right : RouteTree Info) (side : Bool) :
    ∃ child sibling, context.plug (.node pointer value left right) =
        plug (⟨pointer, value, side, sibling⟩ :: context) child ∧
      Cell.link ⟨value, context.parent?, left.root?, right.root?⟩ side = child.root? ∧
      child.pointers.length ≤ left.pointers.length + right.pointers.length ∧
      (child = .leaf → right.root?.or (context.behind.head?.map Prod.fst) =
        (Context.behind (⟨pointer, value, side, sibling⟩ :: context)).head?.map Prod.fst) := by
  cases side with
  | false => exact ⟨left, right, rfl, rfl, le_add_right _ _, fun _ => by cases right <;> rfl⟩
  | true => exact ⟨right, left, rfl, rfl, le_add_left _ _, by rintro rfl; rfl⟩

theorem routeTableGetNextInternal_spec
    (shaped : table.Shaped afi (context.plug (.node pointer value left right))) (isOf : IsOf afi p)
    (fits : context.Fits RouteEntry.bits (networkBits p)) (fuel : Nat)
    (enough : (LinkedTree.node pointer value left right).pointers.length < fuel) :
    ∃ after, table.routeTableGetNextInternal p fuel (some pointer) =
        .ok (after, (firstAbove (context.plug (.node pointer value left right))
          (networkBits p)).map Prod.fst) ∧
      after.Shaped afi (context.plug (.node pointer value left right)) := by
  induction fuel generalizing context pointer value left right with
  | zero => cases enough
  | succ fuel induction =>
    have found := shaped.layout.node_eq
    have member := mem_entries_plug context pointer value left right
    have own : IsOf afi value.p := shaped.family _ member
    have up := routeGetSubtreeNext_spec shaped.layout table.bound shaped.layout.enough
    rw [length_pointers_node] at enough
    by_cases begins : value.bits <+: networkBits p
    · by_cases same : value.bits = networkBits p
      · have lengths := congrArg List.length same
        rw [length_bits] at lengths
        have isMatch : prefixMatch p value.p = true :=
          (prefixMatch_iff isOf own).mpr (same ▸ prefix_refl _)
        have exact : table.routeTableGetNextInternal p (fuel + 1) (some pointer) =
            table.getNextOfExact pointer := by
          simp [routeTableGetNextInternal, node_of_some found, isMatch, lengths]
        rw [exact, ← same]
        exact shaped.getNextOfExact member
      · rcases exists_branch begins same with ⟨side, branch⟩
        have isMatch : prefixMatch value.p p = true := (prefixMatch_iff own isOf).mpr begins
        have bit : prefixBit p.address value.p.prefixlen = side := prefixBit_of_branch branch
        have shorter := branch.length_le
        rw [length_append, length_bits, length_networkBits] at shorter
        change value.p.prefixlen < p.prefixlen at shorter
        rcases exists_child context pointer value left right side with
          ⟨child, sibling, whole, linked, smaller, behind⟩
        have deeper := Fits.cons ⟨pointer, value, side, sibling⟩ fits branch
        rw [← bit] at linked
        rw [whole] at shaped ⊢
        cases child with
        | node child childValue childLeft childRight =>
          change _ = some child at linked
          have down : table.routeTableGetNextInternal p (fuel + 1) (some pointer) =
              table.routeTableGetNextInternal p fuel (some child) := by
            simp [routeTableGetNextInternal, node_of_some found, isMatch, Nat.not_lt_of_lt shorter,
              Nat.ne_of_lt shorter, shorter, linked]
          rw [down]
          exact induction shaped deeper (by omega)
        | leaf =>
          refine ⟨table, ?_, shaped⟩
          rw [firstAbove_hole shaped.ordered deeper, ← behind rfl]
          -- The nodes behind are the right child and those above.
          change _ = none at linked
          cases hasRight : right.root? <;> rw [hasRight] at linked <;>
            simp [routeTableGetNextInternal, node_of_some found, isMatch, Nat.not_lt_of_lt shorter,
              Nat.ne_of_lt shorter, shorter, linked, hasRight, up]
    · have apart := prefixMatch_eq_false own isOf begins
      by_cases otherBegins : networkBits p <+: value.bits
      · have differs : networkBits p ≠ value.bits := by
          intro same
          exact begins (same ▸ prefix_refl _)
        rcases exists_branch otherBegins differs with ⟨side, branch⟩
        have longer := branch.length_le
        rw [length_append, length_bits, length_networkBits] at longer
        change p.prefixlen < value.p.prefixlen at longer
        have isMatch : prefixMatch p value.p = true := (prefixMatch_iff isOf own).mpr otherBegins
        refine ⟨table, ?_, shaped⟩
        rw [firstAbove_of_subtree shaped.ordered fits branch fun _ => lt_of_branch]
        simp [routeTableGetNextInternal, node_of_some found, isMatch, Nat.not_lt_of_lt longer,
          Nat.ne_of_gt longer, longer]
      · have otherApart := prefixMatch_eq_false isOf own otherBegins
        rcases iterCmp_of_apart own isOf begins otherBegins with
          ⟨common, side, branch, otherBranch, compared⟩
        refine ⟨table, ?_, shaped⟩
        cases side with
        | false =>
          rw [firstAbove_behind shaped.ordered fits branch fun _ longer =>
            lt_of_divergence longer otherBranch]
          simp [routeTableGetNextInternal, node_of_some found, apart, otherApart, compared, up]
        | true =>
          rw [firstAbove_of_subtree shaped.ordered fits branch
            fun _ => lt_of_divergence otherBranch]
          simp [routeTableGetNextInternal, node_of_some found, apart, otherApart, compared]

theorem Shaped.getNextInternal (shaped : table.Shaped afi tree) (isOf : IsOf afi p) :
    ∃ after, table.routeTableGetNextInternal p table.bound table.top? =
        .ok (after, (firstAbove tree (networkBits p)).map Prod.fst) ∧ after.Shaped afi tree := by
  rw [shaped.layout.top]
  cases tree with
  | leaf => exact ⟨table, rfl, shaped⟩
  | node pointer value left right =>
    have whole : table.Shaped afi (plug [] (.node pointer value left right)) := shaped
    exact routeTableGetNextInternal_spec whole isOf nofun table.bound
      (lt_succ_of_le (length_pointers_le shaped.layout))

theorem Shaped.getNext (shaped : table.Shaped afi tree) (isOf : IsOf afi p) :
    ∃ after afterTree, table.routeTableGetNext p =
        .ok (after, (firstAbove tree (networkBits p)).map Prod.fst) ∧
      Arrived afi tree (firstAbove tree (networkBits p)) after afterTree := by
  rcases shaped.getNextInternal isOf with ⟨middle, walked, middleShaped⟩
  cases above : firstAbove tree (networkBits p) with
  | none =>
    refine ⟨middle, tree, ?_, middleShaped, .refl _, nofun⟩
    rw [routeTableGetNext, walked, above]
    rfl
  | some entry =>
    rcases mem_of_firstAbove above with ⟨isIn, less⟩
    rcases middleShaped.layout.exists_node isIn with ⟨context, left, right, _, found⟩
    rcases middleShaped.arrive isIn with ⟨after, lock, arrived⟩
    have greater : routeTablePrefixIterCmp entry.2.p p = .ok 1 := by
      unfold RouteEntry.bits at less
      rw [iterCmp_spec (shaped.family entry isIn) isOf, if_neg (lt_asymm less),
        if_neg (ne_of_gt less)]
    refine ⟨after, _, ?_, arrived⟩
    rw [routeTableGetNext, walked, above]
    simp [node_of_some found, greater, lock]

end RouteTable

end Quagga.Lib
