import Quagga.Lib.RouteTable

/-!
# Iterating over a routing table

An iterator walks over the nodes of a table. It holds a lock on the node it is on. When it is
paused it remembers only the prefix of that node, which may be gone when the walk goes on.
-/

namespace Quagga.Lib

open Foundation Bgp

def routeTablePrefixIterCmp (p1 p2 : Prefix) : TableRun Int :=
  if p1.prefixlen ≤ p2.prefixlen && prefixMatch p1 p2 then
    .ok (if p1.prefixlen = p2.prefixlen then 0 else -1)
  else if p2.prefixlen < p1.prefixlen && prefixMatch p2 p1 then .ok 1
  else
    let common := routeCommon p1 p2
    if common.prefixlen < p1.prefixlen ∧ common.prefixlen < p2.prefixlen then
      match prefixBit p1.address common.prefixlen, prefixBit p2.address common.prefixlen with
      | true, false => .ok 1
      | false, true => .ok (-1)
      | _, _ => .error .assertion
    else .error .assertion

namespace RouteTable

variable {Info : Type} (table : RouteTable Info)

def routeTop : TableRun (RouteTable Info × Option Nat) := do
  match table.top? with
  | none => return (table, none)
  | some top => return (← table.routeLockNode top, some top)

/-- `route_get_subtree_next`, which is also the last loop of `route_next`. -/
def routeGetSubtreeNext : Nat → Nat → TableRun (Option Nat)
  | 0, _ => .error .endless
  | fuel + 1, pointer => do
      match (← table.node pointer).parent? with
      | none => return none
      | some parent =>
        let above ← table.node parent
        if above.left? = some pointer ∧ above.right?.isSome then return above.right?
        else routeGetSubtreeNext fuel parent

def following (pointer : Nat) : TableRun (Option Nat) := do
  let node ← table.node pointer
  if node.left?.isSome then return node.left?
  else if node.right?.isSome then return node.right?
  else table.routeGetSubtreeNext table.bound pointer

def routeNext (pointer : Nat) : TableRun (RouteTable Info × Option Nat) := do
  match ← table.following pointer with
  | none => return (← table.routeUnlockNode pointer, none)
  | some next => return (← (← table.routeLockNode next).routeUnlockNode pointer, some next)

/-- The branch of `route_table_get_next_internal` for a node with the prefix itself. -/
def getNextOfExact (pointer : Nat) : TableRun (RouteTable Info × Option Nat) := do
  let (table, next?) ← (← table.routeLockNode pointer).routeNext pointer
  match next? with
  | none => return (table, none)
  | some next => return (← table.routeUnlockNode next, some next)

def routeTableGetNextInternal (p : Prefix) :
    Nat → Option Nat → TableRun (RouteTable Info × Option Nat)
  | 0, _ => .error .endless
  | _ + 1, none => .ok (table, none)
  | fuel + 1, some pointer => do
      let node ← table.node pointer
      let network := node.value.p
      if if network.prefixlen < p.prefixlen then prefixMatch network p
          else prefixMatch p network then
        if network.prefixlen = p.prefixlen then table.getNextOfExact pointer
        else if p.prefixlen < network.prefixlen then return (table, some pointer)
        else
          match node.link (prefixBit p.address network.prefixlen), node.right? with
          | some child, _ => routeTableGetNextInternal p fuel (some child)
          | none, some right => return (table, some right)
          | none, none => return (table, ← table.routeGetSubtreeNext table.bound pointer)
      else
        let cmp ← routeTablePrefixIterCmp network p
        if 0 < cmp then return (table, some pointer)
        else if cmp < 0 then return (table, ← table.routeGetSubtreeNext table.bound pointer)
        else .error .assertion

def routeTableGetNext (p : Prefix) : TableRun (RouteTable Info × Option Nat) := do
  let (table, next?) ← table.routeTableGetNextInternal p table.bound table.top?
  match next? with
  | none => return (table, none)
  | some next =>
    if 0 < (← routeTablePrefixIterCmp (← table.node next).value.p p) then
      return (← table.routeLockNode next, some next)
    else .error .assertion

end RouteTable

/-! ## Iterators -/

/-- `route_table_iter_state_t` with the field that is used in each state. -/
inductive RouteTableIter where
  | init
  | iterating (current : Nat)
  | paused (pausePrefix : Prefix)
  | done
deriving Repr, DecidableEq

variable {Info : Type}

/-- The switch of `route_table_iter_next`. -/
def RouteTableIter.advance (table : RouteTable Info) :
    RouteTableIter → TableRun (RouteTable Info × Option Nat)
  | .init => table.routeTop
  | .iterating current => table.routeNext current
  | .paused pausePrefix => table.routeTableGetNext pausePrefix
  | .done => .ok (table, none)

structure Iteration (Info : Type) where
  table : RouteTable Info
  iter : RouteTableIter
  returned : List Prefix

namespace Iteration

def start (table : RouteTable Info) : Iteration Info := ⟨table, .init, []⟩

def routeTableIterNext (iteration : Iteration Info) : TableRun (Iteration Info) := do
  let (table, node?) ← iteration.iter.advance iteration.table
  match node? with
  | none => return ⟨table, .done, iteration.returned⟩
  | some pointer =>
    let node ← table.node pointer
    return ⟨table, .iterating pointer, iteration.returned ++ [node.value.p]⟩

def routeTableIterPause (iteration : Iteration Info) : TableRun (Iteration Info) := do
  match iteration.iter with
  | .iterating current =>
    let node ← iteration.table.node current
    let table ← iteration.table.routeUnlockNode current
    return ⟨table, .paused node.value.p, iteration.returned⟩
  | _ => return iteration

end Iteration

/-! ## Runs -/

inductive IterationEvent (Info : Type) where
  | next
  | pause
  | change (event : TableEvent Info)

def iterationStep : StepFunction (Iteration Info) (IterationEvent Info) TableFault :=
  fun iteration event =>
    match event with
    | .next => some iteration.routeTableIterNext
    | .pause => some iteration.routeTableIterPause
    | .change event => (tableStep iteration.table event).map fun result =>
      result.map fun table => { iteration with table := table }

/-- The table without the lock of the iterator. -/
def Iteration.withoutLock (iteration : Iteration Info) : RouteTable Info :=
  match iteration.iter with
  | .iterating current =>
    { iteration.table with
      nodes := iteration.table.nodes.change current
        (Cell.changeValue fun entry => { entry with lock := entry.lock - 1 }) }
  | _ => iteration.table

/-- The users of the table keep to the rules for locks, without counting on the lock of the
iterator. They may change the table at any time. -/
def Iteration.Permits (afi : Afi) (iteration : Iteration Info) : IterationEvent Info → Prop
  | .next | .pause => True
  | .change event => iteration.withoutLock.Permits afi event

end Quagga.Lib
