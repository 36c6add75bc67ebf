import Quagga.Lib.RouteTableMap

/-!
# Runs of the routing table

The table implements a finite map from networks to the data of its users, whatever they do with
it while they keep to the rules for locks.
-/

namespace Quagga.Lib

open Foundation Bgp Context

variable {Info : Type} {bits : List Bool}

namespace RouteTable

/-! ## The map -/

def Maps (table : RouteTable Info) (bits : List Bool) (info : Info) : Prop :=
  ∃ pointer node, table.nodes pointer = some node ∧ networkBits node.value.p = bits ∧
    node.value.info? = some info

/-- What an event does to the map: only setting or clearing data does something, at the network
of its node. -/
def MapsAfter (table : RouteTable Info) (event : TableEvent Info) (bits : List Bool)
    (info : Info) : Prop :=
  match event with
  | .setInfo pointer info? => ∃ node, table.nodes pointer = some node ∧
      if networkBits node.value.p = bits then info? = some info else table.Maps bits info
  | _ => table.Maps bits info

def Covers (table : RouteTable Info) (p : Prefix) (pointer : Nat) (node : RouteNode Info) : Prop :=
  table.nodes pointer = some node ∧ node.value.info?.isSome = true ∧
    networkBits node.value.p <+: networkBits p

structure IsMap (afi : Afi) (table : RouteTable Info) : Prop where
  functional : ∀ bits info other, table.Maps bits info → table.Maps bits other → info = other
  lookup : ∀ p, IsOf afi p → ∃ after found?, table.routeNodeLookup p = .ok (after, found?) ∧
    ∀ pointer, found? = some pointer ↔ ∃ node, table.nodes pointer = some node ∧
      networkBits node.value.p = networkBits p ∧ node.value.info?.isSome = true
  longest : ∀ p, IsOf afi p → ∃ after found?, table.routeNodeMatch p = .ok (after, found?) ∧
    (found? = none → ∀ pointer node, ¬table.Covers p pointer node) ∧
    ∀ pointer, found? = some pointer → ∃ node, table.Covers p pointer node ∧
      ∀ other otherNode, table.Covers p other otherNode →
        otherNode.value.p.prefixlen ≤ node.value.p.prefixlen
  get : ∀ p, IsOf afi p → ∃ after pointer node, table.routeNodeGet p = .ok (after, pointer) ∧
    after.nodes pointer = some node ∧ networkBits node.value.p = networkBits p ∧
    (∀ other otherNode, table.nodes other = some otherNode →
      networkBits otherNode.value.p = networkBits p → other = pointer) ∧
    ∀ q, IsOf afi q → networkBits q = networkBits p →
      ∃ again, after.routeNodeGet q = .ok (again, pointer)
  unlocked : ∀ pointer node, table.nodes pointer = some node → node.value.lock = 0 →
    node.left?.isSome = true ∧ node.right?.isSome = true
  child : ∀ pointer node side child, table.nodes pointer = some node →
    node.link side = some child → ∃ childNode, table.nodes child = some childNode ∧
      childNode.parent? = some pointer ∧
      networkBits node.value.p ++ [side] <+: networkBits childNode.value.p
  count : (table.count : ℕ∞) = {pointer | table.nodes pointer ≠ none}.encard
  step : ∀ event, table.Permits afi event → ∃ after, tableStep table event = some (.ok after) ∧
    ∀ bits info, after.Maps bits info ↔ table.MapsAfter event bits info

variable {afi : Afi} {table : RouteTable Info} {tree left right : RouteTree Info}
  {context : Context (RouteEntry Info)} {pointer : Nat} {value : RouteEntry Info} {p : Prefix}

theorem Layout.mem_iff (layout : table.Layout tree) :
    (pointer, value) ∈ tree.entries ↔
      ∃ node, table.nodes pointer = some node ∧ node.value = value := by
  refine ⟨?_, ?_⟩
  · intro member
    rcases layout.exists_node member with ⟨context, left, right, _, found⟩
    exact ⟨_, found, rfl⟩
  · rintro ⟨node, found, rfl⟩
    exact layout.mem_entries found

theorem mem_dataOf {entries : List (Nat × RouteEntry Info)} {info : Info} :
    (bits, info) ∈ dataOf entries ↔
      ∃ entry ∈ entries, entry.2.bits = bits ∧ entry.2.info? = some info := by
  rw [dataOf, List.mem_filterMap]
  apply exists_congr
  intro entry
  apply and_congr_right
  intro _
  cases entry.2.info? <;> simp

theorem Layout.maps_iff (layout : table.Layout tree) (bits : List Bool) (info : Info) :
    table.Maps bits info ↔ (bits, info) ∈ dataOf tree.entries := by
  rw [mem_dataOf]
  refine ⟨?_, ?_⟩
  · rintro ⟨pointer, node, found, same, hasInfo⟩
    exact ⟨(pointer, node.value), layout.mem_entries found, same, hasInfo⟩
  · rintro ⟨⟨pointer, value⟩, member, same, hasInfo⟩
    rcases layout.mem_iff.mp member with ⟨node, found, rfl⟩
    exact ⟨pointer, node, found, same, hasInfo⟩

/-! ## Steps -/

theorem mem_entries_changed {changed : RouteEntry Info} {entry : Nat × RouteEntry Info}
    (other : entry ≠ (pointer, changed)) (notOld : entry ≠ (pointer, value)) :
    entry ∈ (context.plug (.node pointer changed left right)).entries ↔
      entry ∈ (context.plug (.node pointer value left right)).entries := by
  rw [entries_plug, entries_plug]
  simp [LinkedTree.entries, other, notOld]

theorem dataOf_setInfo {info? : Option Info}
    (changedOrdered : (context.plug (.node pointer { value with info? := info? } left
      right)).Ordered RouteEntry.bits) (bits : List Bool) (info : Info) :
    (bits, info) ∈ dataOf
        (context.plug (.node pointer { value with info? := info? } left right)).entries ↔
      if value.bits = bits then info? = some info
      else (bits, info) ∈ dataOf (context.plug (.node pointer value left right)).entries := by
  have changedMember := mem_entries_plug context pointer { value with info? := info? } left right
  rw [mem_dataOf, mem_dataOf]
  split_ifs with own
  · refine ⟨?_, fun hasInfo => ⟨_, changedMember, own, hasInfo⟩⟩
    rintro ⟨entry, isIn, same, hasInfo⟩
    rw [changedOrdered.eq_of_key isIn changedMember (same.trans own.symm)] at hasInfo
    exact hasInfo
  · apply exists_congr
    intro entry
    apply and_congr_left
    rintro ⟨same, _⟩
    apply mem_entries_changed
    · rintro rfl
      exact own same
    · rintro rfl
      exact own same

section

variable (shaped : table.Shaped afi tree)
include shaped

theorem Shaped.step {event : TableEvent Info} (permits : table.Permits afi event) :
    ∃ after afterTree, tableStep table event = some (.ok after) ∧ after.Shaped afi afterTree ∧
      ∀ bits info, after.Maps bits info ↔ table.MapsAfter event bits info := by
  have unchanged : ∀ {after : RouteTable Info} {afterTree : RouteTree Info},
      after.Shaped afi afterTree → dataOf afterTree.entries = dataOf tree.entries →
      ∀ bits info, after.Maps bits info ↔ table.Maps bits info := by
    intro after afterTree afterShaped same bits info
    rw [afterShaped.layout.maps_iff, same, shaped.layout.maps_iff]
  cases event with
  | findMatch p =>
    rcases shaped.longest permits with ⟨after, found?, afterTree, taken, afterShaped, same, _, _⟩
    exact ⟨after, afterTree, by rw [tableStep, taken]; rfl, afterShaped, unchanged afterShaped same⟩
  | lookup p =>
    rcases shaped.lookup permits with ⟨after, found?, afterTree, taken, afterShaped, same, _, _⟩
    exact ⟨after, afterTree, by rw [tableStep, taken]; rfl, afterShaped, unchanged afterShaped same⟩
  | get p =>
    rcases shaped.get permits with
      ⟨after, pointer, taken, ⟨afterTree, _, afterShaped, same, _⟩, _⟩
    exact ⟨after, afterTree, by rw [tableStep, taken]; rfl, afterShaped, unchanged afterShaped same⟩
  | setInfo pointer info? =>
    rcases permits with ⟨node, found, isHeld⟩
    rcases shaped.layout.exists_node (shaped.layout.mem_entries found) with
      ⟨context, left, right, rfl, _⟩
    rcases shaped.setInfo isHeld info? with ⟨after, taken, afterShaped⟩
    refine ⟨after, _, congrArg some taken, afterShaped, ?_⟩
    intro bits info
    rw [afterShaped.layout.maps_iff, dataOf_setInfo afterShaped.ordered, ← shaped.layout.maps_iff]
    refine ⟨fun maps => ⟨node, found, maps⟩, ?_⟩
    rintro ⟨same, sameFound, maps⟩
    cases found.symm.trans sameFound
    exact maps
  | unlock pointer =>
    rcases permits with ⟨node, found, isHeld⟩
    rcases shaped.layout.exists_node (shaped.layout.mem_entries found) with
      ⟨context, left, right, rfl, _⟩
    rcases shaped.unlock isHeld with ⟨after, afterTree, taken, afterShaped, prune⟩
    refine ⟨after, afterTree, congrArg some taken, afterShaped, unchanged afterShaped ?_⟩
    exact prune.data.trans (dataOf_changeValue released rfl rfl context pointer left right)

/-! ## States -/

theorem Shaped.functional {info other : Info} (maps : table.Maps bits info)
    (otherMaps : table.Maps bits other) : info = other := by
  rw [shaped.layout.maps_iff, mem_dataOf] at maps otherMaps
  rcases maps with ⟨entry, isIn, same, hasInfo⟩
  rcases otherMaps with ⟨otherEntry, otherIsIn, otherSame, otherHasInfo⟩
  rw [shaped.ordered.eq_of_key isIn otherIsIn (same.trans otherSame.symm), otherHasInfo] at hasInfo
  exact (Option.some.inj hasInfo).symm

theorem Shaped.covers_iff :
    Contains tree p (pointer, value) ↔
      ∃ node, table.Covers p pointer node ∧ node.value = value := by
  refine ⟨?_, ?_⟩
  · rintro ⟨member, hasInfo, begins⟩
    rcases shaped.layout.mem_iff.mp member with ⟨node, found, rfl⟩
    exact ⟨node, ⟨found, hasInfo, begins⟩, rfl⟩
  · rintro ⟨node, ⟨found, hasInfo, begins⟩, rfl⟩
    exact ⟨shaped.layout.mem_entries found, hasInfo, begins⟩

theorem Shaped.joins {node : RouteNode Info} (found : table.nodes pointer = some node)
    (unlocked : node.value.lock = 0) : node.left?.isSome = true ∧ node.right?.isSome = true := by
  rcases node with ⟨value, parent?, left?, right?⟩
  rcases shaped.layout.exists_node (shaped.layout.mem_entries found) with
    ⟨context, left, right, rfl, same⟩
  cases found.symm.trans same
  rcases (supported_plug.mp shaped.supported).2.1.1 with isHeld | ⟨leftNode, rightNode⟩
  · exact absurd unlocked (Nat.ne_of_gt isHeld)
  · exact ⟨isSome_root? leftNode, isSome_root? rightNode⟩

end

theorem child_of_stored {parent? : Option Nat} {child : Nat}
    (stored : tree.Stored table.nodes parent?) (root : tree.root? = some child)
    (begins : ∀ entry ∈ tree.entries, bits <+: entry.2.bits) :
    ∃ childNode, table.nodes child = some childNode ∧ childNode.parent? = parent? ∧
      bits <+: networkBits childNode.value.p := by
  cases tree with
  | leaf => cases root
  | node pointer value left right =>
    cases root
    exact ⟨_, stored.1, rfl, begins (child, value) List.mem_cons_self⟩

section

variable (shaped : table.Shaped afi tree)
include shaped

theorem Shaped.child {node : RouteNode Info} {side : Bool} {child : Nat}
    (found : table.nodes pointer = some node) (linked : node.link side = some child) :
    ∃ childNode, table.nodes child = some childNode ∧ childNode.parent? = some pointer ∧
      networkBits node.value.p ++ [side] <+: networkBits childNode.value.p := by
  rcases node with ⟨value, parent?, left?, right?⟩
  rcases shaped.layout.exists_node (shaped.layout.mem_entries found) with
    ⟨context, left, right, rfl, same⟩
  cases found.symm.trans same
  rcases stored_plug.mp shaped.layout.stored with ⟨_, _, leftStored, rightStored⟩
  rcases (ordered_plug.mp shaped.ordered).2.1 with ⟨leftBegins, rightBegins, _⟩
  cases side with
  | false => exact child_of_stored leftStored linked leftBegins
  | true => exact child_of_stored rightStored linked rightBegins

theorem Shaped.encard : (table.count : ℕ∞) = {pointer | table.nodes pointer ≠ none}.encard := by
  have nodes : {pointer | table.nodes pointer ≠ none} = (tree.pointers.toFinset : Set Nat) := by
    ext pointer
    rw [Set.mem_ofPred_eq, List.coe_toFinset]
    refine ⟨?_, ?_⟩
    · intro present
      by_contra missing
      exact present (shaped.layout.complete pointer missing)
    · intro isIn
      rcases List.mem_map.mp isIn with ⟨⟨_, value⟩, member, rfl⟩
      rcases shaped.layout.mem_iff.mp member with ⟨node, found, _⟩
      rw [found]
      exact Option.some_ne_none node
  rw [nodes, Set.encard_coe_eq_coe_finsetCard, List.toFinset_card_of_nodup shaped.layout.distinct,
    shaped.count]

theorem Shaped.get_again {q : Prefix} (member : (pointer, value) ∈ tree.entries) (isOf : IsOf afi q)
    (same : value.bits = networkBits q) : ∃ again, table.routeNodeGet q = .ok (again, pointer) := by
  rcases shaped.get isOf with ⟨again, found, taken, provided⟩
  have isFound : pointer = found := provided.known (pointer, value) member same
  rw [isFound]
  exact ⟨again, taken⟩

theorem Shaped.isMap : table.IsMap afi where
  functional _ _ _ := shaped.functional
  lookup p isOf := by
    rcases shaped.lookup isOf with ⟨after, found?, _, taken, _, _, _, result⟩
    refine ⟨after, found?, taken, ?_⟩
    intro pointer
    rw [result]
    refine ⟨?_, ?_⟩
    · rintro ⟨value, member, same, hasInfo⟩
      rcases shaped.layout.mem_iff.mp member with ⟨node, found, rfl⟩
      exact ⟨node, found, same, hasInfo⟩
    · rintro ⟨node, found, same, hasInfo⟩
      exact ⟨node.value, shaped.layout.mem_entries found, same, hasInfo⟩
  longest p isOf := by
    rcases shaped.longest isOf with ⟨after, found?, _, taken, _, _, _, result⟩
    refine ⟨after, found?, taken, ?_, ?_⟩
    · intro missed pointer node covers
      exact result.missed missed _ (shaped.covers_iff.mpr ⟨node, covers, rfl⟩)
    · intro pointer found
      rcases result.found pointer found with ⟨value, contains, most⟩
      rcases shaped.covers_iff.mp contains with ⟨node, covers, rfl⟩
      refine ⟨node, covers, ?_⟩
      intro other otherNode otherCovers
      exact most (other, otherNode.value) (shaped.covers_iff.mpr ⟨otherNode, otherCovers, rfl⟩)
  get p isOf := by
    rcases shaped.get isOf with
      ⟨after, pointer, taken, ⟨afterTree, value, afterShaped, _, _, member, same, _⟩, known⟩
    rcases afterShaped.layout.mem_iff.mp member with ⟨node, found, rfl⟩
    refine ⟨after, pointer, node, taken, found, same, ?_, ?_⟩
    · intro other otherNode otherFound otherSame
      exact known (other, otherNode.value) (shaped.layout.mem_entries otherFound) otherSame
    · intro q otherIsOf equal
      exact afterShaped.get_again member otherIsOf (same.trans equal.symm)
  unlocked _ _ := shaped.joins
  child _ _ _ _ := shaped.child
  count := shaped.encard
  step event permits := by
    rcases shaped.step permits with ⟨after, _, taken, _, maps⟩
    exact ⟨after, taken, maps⟩

end

end RouteTable

instance (afi : Afi) (network : Prefix) : Decidable (IsOf afi network) :=
  decidable_of_iff (network.family = afi ∧ network.address.length = afi.addressOctets ∧
      network.prefixlen ≤ afi.addressOctets * 8)
    ⟨fun ⟨family, octets, bounded⟩ => ⟨family, octets, bounded⟩,
      fun isOf => ⟨isOf.family, isOf.octets, isOf.bounded⟩⟩

instance decidableFound {α : Type} (found? : Option α) (Holds : α → Prop) [DecidablePred Holds] :
    Decidable (∃ value, found? = some value ∧ Holds value) :=
  match found? with
  | none => isFalse (by rintro ⟨_, found, _⟩; cases found)
  | some value => decidable_of_iff (Holds value)
      ⟨fun holds => ⟨value, rfl, holds⟩, by rintro ⟨_, found, holds⟩; cases found; exact holds⟩

instance (afi : Afi) (table : RouteTable Info) (event : TableEvent Info) :
    Decidable (table.Permits afi event) :=
  match event with
  | .findMatch p | .lookup p | .get p => inferInstanceAs (Decidable (IsOf afi p))
  | .setInfo _ _ => inferInstanceAs (Decidable (∃ node, _ = some node ∧ _))
  | .unlock _ => inferInstanceAs (Decidable (∃ node, _ = some node ∧ _))

theorem shaped_of_run {afi : Afi} {events : List (TableEvent Info)} {table : RouteTable Info}
    (run : Guarded tableStep (RouteTable.Permits afi) RouteTable.empty events table) :
    ∃ tree, table.Shaped afi tree := by
  apply run.invariant _ ⟨.leaf, RouteTable.empty_shaped afi⟩
  rintro before event after ⟨tree, shaped⟩ permits taken
  rcases shaped.step permits with ⟨same, afterTree, sameTaken, afterShaped, _⟩
  cases taken.symm.trans sameTaken
  exact ⟨afterTree, afterShaped⟩

/-- Whatever the users of a table do with it, it is a map from networks to their data. -/
theorem table_isMap {afi : Afi} {events : List (TableEvent Info)} {table : RouteTable Info}
    (run : Guarded tableStep (RouteTable.Permits afi) RouteTable.empty events table) :
    table.IsMap afi := by
  rcases shaped_of_run run with ⟨tree, shaped⟩
  exact shaped.isMap

/-- A network with host bits, a longer one that forks off another, and the end of the lock on
the fork's other side. -/
def forkAndLeave : List (TableEvent Nat) :=
  [.get ⟨.ip, 8, [10, 1, 2, 3]⟩, .setInfo 0 (some 7), .get ⟨.ip, 16, [10, 64, 9, 9]⟩,
    .get ⟨.ip, 16, [10, 80, 0, 0]⟩, .unlock 1]

theorem forkAndLeave_isMap : ∃ table : RouteTable Nat,
    Guarded tableStep (RouteTable.Permits .ip) RouteTable.empty forkAndLeave table ∧
      table.IsMap .ip ∧ table.count = 2 := by
  have counted : (execute (fun table event => if RouteTable.Permits .ip table event then
      tableStep table event else none) RouteTable.empty forkAndLeave).map RouteTable.count =
      some 2 := by
    decide +kernel
  rcases Option.map_eq_some_iff.mp counted with ⟨table, executed, count⟩
  have run := guarded_of_execute executed
  exact ⟨table, run, table_isMap run, count⟩

end Quagga.Lib
