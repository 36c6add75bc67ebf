import Quagga.Dbgp.Wiser

/-!
# The table of link costs

A Wiser router fills the table when it first looks for a cost, and again whenever the table is
printed. The table has both directions of every declared link, and keeps the first cost of each.
-/

namespace Quagga.Dbgp

open Foundation List Option

structure DeclaredLink where
  ip1 : Bytes
  ip2 : Bytes
  cost : UInt64
deriving Repr, DecidableEq

def DeclaredLink.joins (ip1 ip2 : Bytes) (link : DeclaredLink) : Bool :=
  (link.ip1 = ip1 ∧ link.ip2 = ip2) ∨ (link.ip1 = ip2 ∧ link.ip2 = ip1)

namespace WiserConfig

def declaredLinks (config : WiserConfig) : List DeclaredLink :=
  (config.topology?.getD []).flatMap fun nodeLink =>
    nodeLink.links.map fun link => ⟨nodeLink.primaryNode, link.adjacentNode, link.linkCost⟩

def firstCost (config : WiserConfig) (ip1 ip2 : Bytes) : Option UInt64 :=
  (config.declaredLinks.find? (·.joins ip1 ip2)).map DeclaredLink.cost

end WiserConfig

/-- `wiser_link_costs_`: the keys of the outer map, and the inner maps. -/
structure LinkCostTable where
  ends : List Bytes
  costs : LinkCosts

namespace LinkCostTable

def empty : LinkCostTable := ⟨[], fun _ _ => none⟩

def addEnd (ip : Bytes) (table : LinkCostTable) : LinkCostTable :=
  if ip ∈ table.ends then table else { table with ends := ip :: table.ends }

def addLink (ip1 : Bytes) (table : LinkCostTable) (link : Link) : LinkCostTable :=
  let table := { table with costs := table.costs.insert ip1 link.adjacentNode link.linkCost }
  let table := table.addEnd link.adjacentNode
  { table with costs := table.costs.insert link.adjacentNode ip1 link.linkCost }

def addNode (table : LinkCostTable) (nodeLink : NodeLink) : LinkCostTable :=
  nodeLink.links.foldl (addLink nodeLink.primaryNode) (table.addEnd nodeLink.primaryNode)

def process (config : WiserConfig) (table : LinkCostTable) : LinkCostTable :=
  (config.topology?.getD []).foldl addNode table

def getLinkCost (config : WiserConfig) (table : LinkCostTable) (ip1 ip2 : Bytes) :
    Int × LinkCostTable :=
  let table := if table.ends = [] then table.process config else table
  match table.costs ip1 ip2 with
  | some cost => (toInt cost.toUInt32, table)
  | none => (-1, table)

end LinkCostTable

inductive WiserCall where
  | getLinkCost (ip1 ip2 : Bytes)
  | linkCostsToString
deriving Repr, DecidableEq

def WiserCall.run (config : WiserConfig) (table : LinkCostTable) : WiserCall → LinkCostTable
  | getLinkCost ip1 ip2 => (table.getLinkCost config ip1 ip2).2
  | linkCostsToString => table.process config

/-! ## What the table has -/

theorem LinkCosts.insert_apply (costs : LinkCosts) (ip1 ip2 first second : Bytes) (cost : UInt64) :
    costs.insert ip1 ip2 cost first second =
      (costs first second).or (if ip1 = first ∧ ip2 = second then some cost else none) := by
  unfold LinkCosts.insert
  cases old : costs ip1 ip2 with
  | some known =>
    by_cases same : ip1 = first ∧ ip2 = second
    · rcases same with ⟨rfl, rfl⟩
      simp [old]
    · simp [same]
  | none =>
    by_cases same : ip1 = first ∧ ip2 = second
    · rcases same with ⟨rfl, rfl⟩
      simp [old]
    · rw [if_neg same]
      by_cases sameFirst : first = ip1
      · subst sameFirst
        have different : second ≠ ip2 := fun sameSecond => same ⟨rfl, sameSecond.symm⟩
        simp [different]
      · simp [sameFirst]

namespace LinkCostTable

variable {config : WiserConfig} {table : LinkCostTable} {first second : Bytes}

theorem addEnd_costs (ip : Bytes) (table : LinkCostTable) :
    (table.addEnd ip).costs = table.costs := by
  unfold addEnd
  split <;> rfl

theorem addLink_costs (ip1 : Bytes) (link : Link) :
    (table.addLink ip1 link).costs first second = (table.costs first second).or
      (if DeclaredLink.joins first second ⟨ip1, link.adjacentNode, link.linkCost⟩ then
        some link.linkCost else none) := by
  simp only [addLink, addEnd_costs, LinkCosts.insert_apply, DeclaredLink.joins]
  grind

theorem foldl_addLink_costs (ip1 : Bytes) (links : List Link) :
    (links.foldl (addLink ip1) table).costs first second = (table.costs first second).or
      (((links.map fun link => (⟨ip1, link.adjacentNode, link.linkCost⟩ : DeclaredLink)).find?
        (·.joins first second)).map DeclaredLink.cost) := by
  induction links generalizing table with
  | nil => simp
  | cons link links induction =>
    rw [foldl_cons, induction, addLink_costs, map_cons]
    split <;> simp_all

theorem process_costs (config : WiserConfig) (table : LinkCostTable) :
    (table.process config).costs first second =
      (table.costs first second).or (config.firstCost first second) := by
  unfold process WiserConfig.firstCost WiserConfig.declaredLinks
  induction config.topology?.getD [] generalizing table with
  | nil => simp
  | cons nodeLink rest induction =>
    rw [foldl_cons, induction, addNode, foldl_addLink_costs, addEnd_costs, Option.or_assoc,
      flatMap_cons, find?_append, map_or]

def Sound (config : WiserConfig) (table : LinkCostTable) : Prop :=
  table = empty ∨ ∀ first second, table.costs first second = config.firstCost first second

section

variable (sound : table.Sound config)
include sound

theorem Sound.process (first second : Bytes) :
    (table.process config).costs first second = config.firstCost first second := by
  rw [process_costs]
  rcases sound with rfl | filled
  · rfl
  · rw [filled, Option.or_self]

theorem Sound.consulted (first second : Bytes) :
    (if table.ends = [] then table.process config else table).costs first second =
      config.firstCost first second := by
  split
  · exact sound.process first second
  · rename_i notEmpty
    rcases sound with rfl | filled
    · exact absurd rfl notEmpty
    · exact filled first second

theorem Sound.run (call : WiserCall) : (call.run config table).Sound config := by
  right
  cases call with
  | linkCostsToString => exact sound.process
  | getLinkCost ip1 ip2 =>
    intro first second
    simp only [WiserCall.run, getLinkCost]
    split <;> exact sound.consulted first second

theorem Sound.runs (calls : List WiserCall) :
    (calls.foldl (WiserCall.run config) table).Sound config := by
  induction calls generalizing table with
  | nil => exact sound
  | cons call calls induction => exact induction (sound.run call)

theorem Sound.getLinkCost_eq (ip1 ip2 : Bytes) :
    (table.getLinkCost config ip1 ip2).1 =
      (config.firstCost ip1 ip2).elim (-1) fun cost => toInt cost.toUInt32 := by
  simp only [getLinkCost, sound.consulted]
  cases config.firstCost ip1 ip2 <;> rfl

end

end LinkCostTable

/-! ## Costs of declared links -/

/-- The cost of the first declared link between two addresses, or `-1`. -/
def WiserConfig.declaredCost (config : WiserConfig) (ip1 ip2 : Bytes) : Int :=
  match config.declaredLinks.find? (·.joins ip1 ip2) with
  | some link => link.cost.toNat
  | none => -1

theorem toInt_toUInt32 {cost : UInt64} (small : cost.toNat < 2 ^ 31) :
    toInt cost.toUInt32 = cost.toNat := by
  have same : cost.toUInt32.toNat = cost.toNat := by
    rw [UInt64.toNat_toUInt32]
    omega
  rw [toInt, BitVec.toInt_eq_toNat_of_lt]
  · exact congrArg Int.ofNat same
  · have below : cost.toUInt32.toBitVec.toNat = cost.toNat := same
    omega

/-- After any calls, a lookup gives the cost of the first link declared between the two addresses,
in either direction. -/
theorem linkCost_declared (config : WiserConfig)
    (small : ∀ link ∈ config.declaredLinks, link.cost.toNat < 2 ^ 31) (calls : List WiserCall)
    (ip1 ip2 : Bytes) :
    let table := calls.foldl (WiserCall.run config) .empty
    (table.getLinkCost config ip1 ip2).1 = config.declaredCost ip1 ip2 ∧
      (table.getLinkCost config ip2 ip1).1 = (table.getLinkCost config ip1 ip2).1 ∧
      ((table.getLinkCost config ip1 ip2).1 = -1 ↔
        ∀ link ∈ config.declaredLinks, link.joins ip1 ip2 = false) := by
  intro table
  have initially : LinkCostTable.Sound config .empty := .inl rfl
  have sound : table.Sound config := initially.runs calls
  have same : config.firstCost ip2 ip1 = config.firstCost ip1 ip2 := by
    simp [WiserConfig.firstCost, DeclaredLink.joins, or_comm]
  rw [sound.getLinkCost_eq, sound.getLinkCost_eq, same, WiserConfig.firstCost,
    WiserConfig.declaredCost]
  cases found : config.declaredLinks.find? (·.joins ip1 ip2) with
  | none =>
    refine ⟨rfl, rfl, fun _ link member => ?_, fun _ => rfl⟩
    simpa using find?_eq_none.mp found link member
  | some link =>
    have member := mem_of_find?_eq_some found
    simp only [map_some, elim_some, toInt_toUInt32 (small link member)]
    refine ⟨trivial, trivial, fun missing => ?_, fun unlinked => ?_⟩
    · omega
    · have joins := find?_some found
      rw [unlinked link member] at joins
      cases joins

/-- A link that is listed from both ends with different costs. -/
theorem twoEnds_linkCost :
    let config : WiserConfig := ⟨some [⟨[1], [⟨[2], 7⟩]⟩, ⟨[2], [⟨[1], 9⟩]⟩]⟩
    ((WiserCall.run config .empty .linkCostsToString).getLinkCost config [2] [1]).1 = 7 :=
  (linkCost_declared ⟨some [⟨[1], [⟨[2], 7⟩]⟩, ⟨[2], [⟨[1], 9⟩]⟩]⟩ (by decide)
    [.linkCostsToString] [2] [1]).1

end Quagga.Dbgp
