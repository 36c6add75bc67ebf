import Quagga.Lib.PrefixBits

/-!
# The routing table of the library

`struct route_table` is a tree of nodes that are linked both ways. A node stays while somebody
holds a lock on it. Without locks it stays only where it joins two subtrees. Every access
through a pointer can fail here, an assertion can, and a loop over the links could be endless:
that none of it happens is to be proved.
-/

namespace Quagga.Lib

open Foundation Bgp

/-- The fields of `struct route_node` besides its links. The user data is any type. -/
structure RouteEntry (Info : Type) where
  p : Prefix
  lock : Nat
  info? : Option Info

abbrev RouteNode (Info : Type) := Cell (RouteEntry Info)

/-- `struct route_table`, the memory of its nodes, and a pointer for the next one. -/
structure RouteTable (Info : Type) where
  nodes : Store (RouteEntry Info)
  next : Nat
  top? : Option Nat
  count : Nat

inductive TableFault where
  | assertion
  /-- An access through a pointer that leads to no node. -/
  | dangling
  /-- A loop that goes on after all nodes were visited. -/
  | endless
deriving Repr, DecidableEq

abbrev TableRun (α : Type) := Except TableFault α

namespace RouteTable

variable {Info : Type}

def empty : RouteTable Info := ⟨fun _ => none, 0, none, 0⟩

variable (table : RouteTable Info)

def node (pointer : Nat) : TableRun (RouteNode Info) :=
  match table.nodes pointer with
  | none => .error .dangling
  | some node => .ok node

def write (pointer : Nat) (edit : RouteNode Info → RouteNode Info) :
    TableRun (RouteTable Info) := do
  let _ ← table.node pointer
  return { table with nodes := table.nodes.change pointer edit }

def allocate (p : Prefix) : RouteTable Info :=
  { table with
    nodes := Function.update table.nodes table.next (some ⟨⟨p, 0, none⟩, none, none, none⟩)
    next := table.next + 1 }

def free (pointer : Nat) : RouteTable Info :=
  { table with nodes := Function.update table.nodes pointer none }

def setLink (parent new : Nat) : TableRun (RouteTable Info) := do
  let parentNode ← table.node parent
  let newNode ← table.node new
  let bit := prefixBit newNode.value.p.address parentNode.value.p.prefixlen
  (← table.write parent (Cell.setLink bit (some new))).write new (Cell.setParent (some parent))

def routeLockNode (pointer : Nat) : TableRun (RouteTable Info) :=
  table.write pointer (Cell.changeValue fun entry => { entry with lock := entry.lock + 1 })

/-! ## Walking down -/

/-- The loop that `route_node_match`, `route_node_lookup` and `route_node_get` share, with what
they note of the nodes that match. It stops at a node of the length of the prefix, at one that
does not match, or below the last one. -/
def descend {σ : Type} (p : Prefix) (visit : σ → Nat → RouteEntry Info → σ) :
    Nat → σ → Option Nat → TableRun (σ × Option Nat × Bool)
  | 0, _, _ => .error .endless
  | _ + 1, state, none => .ok (state, none, false)
  | fuel + 1, state, some pointer => do
      let node ← table.node pointer
      if node.value.p.prefixlen ≤ p.prefixlen && prefixMatch node.value.p p then
        let state := visit state pointer node.value
        if node.value.p.prefixlen = p.prefixlen then return (state, some pointer, true)
        else
          descend p visit fuel state (node.link (prefixBit p.address node.value.p.prefixlen))
      else return (state, some pointer, false)

/-- No loop along the links visits more nodes than were ever allocated. -/
def bound : Nat := table.next + 1

def routeNodeMatch (p : Prefix) : TableRun (RouteTable Info × Option Nat) := do
  let visit := fun matched? pointer (entry : RouteEntry Info) =>
    if entry.info?.isSome then some pointer else matched?
  let (matched?, _, _) ← table.descend p visit table.bound none table.top?
  match matched? with
  | none => return (table, none)
  | some pointer => return (← table.routeLockNode pointer, some pointer)

def routeNodeLookup (p : Prefix) : TableRun (RouteTable Info × Option Nat) := do
  let (_, stop?, isExact) ← table.descend p (fun _ _ _ => ()) table.bound () table.top?
  match isExact, stop? with
  | true, some pointer =>
    if (← table.node pointer).value.info?.isSome then
      return (← table.routeLockNode pointer, some pointer)
    else return (table, none)
  | _, _ => return (table, none)

/-- The new node is linked below the last one that was passed, or becomes the top. -/
def attach (above? : Option Nat) (new : Nat) : TableRun (RouteTable Info) :=
  match above? with
  | none => .ok { table with top? := some new }
  | some above => table.setLink above new

def addCount (amount : Nat) : RouteTable Info := { table with count := table.count + amount }

def routeNodeGet (p : Prefix) : TableRun (RouteTable Info × Nat) := do
  let (above?, stop?, isExact) ←
    table.descend p (fun _ pointer _ => some pointer) table.bound none table.top?
  match isExact, stop? with
  | true, some pointer => return (← table.routeLockNode pointer, pointer)
  | _, none =>
    let new := table.next
    let table ← (table.allocate p).attach above? new
    return (← (table.addCount 1).routeLockNode new, new)
  | false, some pointer =>
    let common := routeCommon (← table.node pointer).value.p p
    let new := table.next
    let table ← (table.allocate common).setLink new pointer
    let table ← table.attach above? new
    if common.prefixlen ≠ p.prefixlen then
      let last := table.next
      let table ← (table.allocate p).setLink new last
      return (← (table.addCount 2).routeLockNode last, last)
    else return (← (table.addCount 1).routeLockNode new, new)

/-! ## Deleting -/

def adopt (child? parent? : Option Nat) : TableRun (RouteTable Info) :=
  match child? with
  | none => .ok table
  | some child => table.write child (Cell.setParent parent?)

def bypass (parent? : Option Nat) (pointer : Nat) (child? : Option Nat) :
    TableRun (RouteTable Info) :=
  match parent? with
  | none => .ok { table with top? := child? }
  | some parent => do
      let side := (← table.node parent).left? != some pointer
      table.write parent (Cell.setLink side child?)

/-- The part of `route_node_delete` that takes a node with one child at most out of the tree. -/
def unlink (pointer : Nat) (node : RouteNode Info) : TableRun (RouteTable Info) := do
  let child? := if node.left?.isSome then node.left? else node.right?
  let table ← table.adopt child? node.parent?
  let table ← table.bypass node.parent? pointer child?
  return { table.free pointer with count := table.count - 1 }

def routeNodeDelete : Nat → Nat → RouteTable Info → TableRun (RouteTable Info)
  | 0, _, _ => .error .endless
  | fuel + 1, pointer, table => do
      let node ← table.node pointer
      if node.value.lock ≠ 0 ∨ node.value.info?.isSome then .error .assertion
      else if node.left?.isSome && node.right?.isSome then return table
      else
        let table ← table.unlink pointer node
        match node.parent? with
        | none => return table
        | some parent =>
          if (← table.node parent).value.lock = 0 then routeNodeDelete fuel parent table
          else return table

def routeUnlockNode (pointer : Nat) : TableRun (RouteTable Info) := do
  let node ← table.node pointer
  if node.value.lock = 0 then .error .assertion
  else
    let table ← table.write pointer
      (Cell.changeValue fun entry => { entry with lock := entry.lock - 1 })
    if node.value.lock = 1 then routeNodeDelete table.bound pointer table else return table

def setInfo (pointer : Nat) (info? : Option Info) : TableRun (RouteTable Info) :=
  table.write pointer (Cell.changeValue fun entry => { entry with info? := info? })

end RouteTable

/-! ## Runs -/

inductive TableEvent (Info : Type) where
  | findMatch (p : Prefix)
  | lookup (p : Prefix)
  | get (p : Prefix)
  | setInfo (pointer : Nat) (info? : Option Info)
  | unlock (pointer : Nat)

def tableStep {Info : Type} : StepFunction (RouteTable Info) (TableEvent Info) TableFault :=
  fun table event => some <|
    match event with
    | .findMatch p => (table.routeNodeMatch p).map Prod.fst
    | .lookup p => (table.routeNodeLookup p).map Prod.fst
    | .get p => (table.routeNodeGet p).map Prod.fst
    | .setInfo pointer info? => table.setInfo pointer info?
    | .unlock pointer => table.routeUnlockNode pointer

/-- The users of a table of one address family hold a lock on a node while they access it, and
keep one while its data is set. -/
def RouteTable.Permits {Info : Type} (afi : Afi) (table : RouteTable Info) :
    TableEvent Info → Prop
  | .findMatch p | .lookup p | .get p => IsOf afi p
  | .setInfo pointer _ => ∃ node, table.nodes pointer = some node ∧ 0 < node.value.lock
  | .unlock pointer => ∃ node, table.nodes pointer = some node ∧
      (2 ≤ node.value.lock ∨ node.value.lock = 1 ∧ node.value.info? = none)

end Quagga.Lib
