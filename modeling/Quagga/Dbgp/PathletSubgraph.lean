import Quagga.Dbgp.PathletExport
import Quagga.Foundation.Loop

/-!
# The pathlets towards a destination

`GetPathletsForDestination` goes forward from a node to find the predecessors of every node it
can reach, and then back from the destination over the predecessors. The way back keeps no record
of the nodes it has passed, so it comes to an end only where it cannot come round to a node again.
-/

namespace Quagga.Dbgp

open Foundation List Relation

variable {calls : Nat}

/-- `pathlet_graph_`: the keys of the outer map, of which some may have no edges, and the edges. -/
structure NestedGraph where
  keys : List Int
  edges : PathletGraph
  present : ∀ edge ∈ edges, edge.1.1 ∈ keys

namespace NestedGraph

def edgesFrom (graph : NestedGraph) (node : Int) : PathletGraph :=
  graph.edges.filter fun edge => edge.1.1 = node

def convertGraphToPathlets (graph : NestedGraph) : Pathlets :=
  ⟨graph.keys.flatMap fun node => (graph.edgesFrom node).map Prod.snd⟩

/-- The subscript operator gives an unknown node an empty map. -/
def subscript (node : Int) (graph : NestedGraph) : NestedGraph where
  keys := if node ∈ graph.keys then graph.keys else graph.keys.orderedInsert (· ≤ ·) node
  edges := graph.edges
  present := by
    intro edge member
    split
    · exact graph.present edge member
    · exact (mem_orderedInsert _).mpr (.inr (graph.present edge member))

def pathletAt (graph : NestedGraph) (node adjacent : Int) : Pathlet :=
  ((graph.edges.find? fun edge => edge.1 = (node, adjacent)).map Prod.snd).getD .empty

end NestedGraph

/-! ## Predecessors -/

structure PredecessorSearch where
  graph : NestedGraph
  visited : List Int
  stack : List Int
  predecessors : Int → List Int

namespace PredecessorSearch

/-- The root has no predecessors. -/
def visit (asNum workingAs : Int) (search : PredecessorSearch) (adjacent : Int) :
    PredecessorSearch where
  graph := search.graph
  visited := if adjacent ∈ search.visited then search.visited else adjacent :: search.visited
  stack := if adjacent ∈ search.visited then search.stack else adjacent :: search.stack
  predecessors :=
    if adjacent = asNum then search.predecessors
    else Function.update search.predecessors adjacent
      ((search.predecessors adjacent).insert workingAs)

def turn (asNum : Int) (search : PredecessorSearch) : Turn PredecessorSearch PredecessorSearch :=
  match search.stack with
  | [] => .leave search
  | workingAs :: stack => .next <|
      ((search.graph.edgesFrom workingAs).map (·.1.2)).foldl (visit asNum workingAs)
        { search with graph := search.graph.subscript workingAs, stack := stack }

/-- The nodes on the stack, and those that may still get there. -/
def size (search : PredecessorSearch) : Nat :=
  search.stack.length + ((search.graph.edges.map (·.1.2)).toFinset \ search.visited.toFinset).card

theorem size_visit {asNum workingAs adjacent : Int} {search : PredecessorSearch}
    (target : adjacent ∈ search.graph.edges.map (·.1.2)) :
    (search.visit asNum workingAs adjacent).size = search.size := by
  unfold size visit
  by_cases visited : adjacent ∈ search.visited
  · simp [visited]
  · have fresh : adjacent ∈ (search.graph.edges.map (·.1.2)).toFinset \ search.visited.toFinset :=
      by simpa [visited] using target
    have less := Finset.card_erase_add_one fresh
    simp only [if_neg visited, length_cons, toFinset_cons, Finset.sdiff_insert]
    omega

theorem size_foldl {asNum workingAs : Int} {adjacents : List Int} {search : PredecessorSearch}
    (targets : adjacents ⊆ search.graph.edges.map (·.1.2)) :
    (adjacents.foldl (visit asNum workingAs) search).size = search.size := by
  induction adjacents generalizing search with
  | nil => rfl
  | cons adjacent adjacents induction =>
    rcases cons_subset.mp targets with ⟨first, rest⟩
    have restSize : (adjacents.foldl (visit asNum workingAs)
        (search.visit asNum workingAs adjacent)).size = _ := induction rest
    rw [foldl_cons, restSize, size_visit first]

def loop (asNum : Int) : Loop PredecessorSearch PredecessorSearch where
  turn := turn asNum
  size := size
  shrinks := by
    intro search following taken
    unfold turn at taken
    split at taken
    · cases taken
    · rename_i workingAs stack popped
      cases taken
      rw [size_foldl, size, size, popped]
      · exact Nat.add_lt_add_right (Nat.lt_succ_self _) _
      · exact map_subset _ (filter_subset_self _)

instance : Inhabited PredecessorSearch := ⟨⟨⟨[], [], nofun⟩, [], [], fun _ => []⟩⟩

end PredecessorSearch

def getPredecessors (graph : NestedGraph) (asNum : Int) : PredecessorSearch :=
  (PredecessorSearch.loop asNum).run ⟨graph, [asNum], [asNum], fun _ => []⟩

/-! ## The way back -/

/-- The order in which a hash set is gone through. -/
structure HashOrder where
  order : List Int → List Int
  perm : ∀ nodes, (order nodes).Perm nodes

/-- The parts of a list one after another, if all are there. -/
def collect {α β : Type} (part : α → Option (List β)) : List α → Option (List β)
  | [] => some []
  | item :: items =>
    match part item, collect part items with
    | some first, some rest => some (first ++ rest)
    | _, _ => none

/-- The number of nested calls is limited. -/
def getAllPrecedingPathlets (hash : HashOrder) (search : PredecessorSearch) :
    Nat → Int → Option (List Pathlet)
  | 0, _ => none
  | calls + 1, startingPt =>
    collect (fun predecessor => (getAllPrecedingPathlets hash search calls predecessor).map
      (search.graph.pathletAt predecessor startingPt :: ·))
      (hash.order (search.predecessors startingPt))

/-- The last edge that carries the destination. Of the edges from one node it is the first. -/
def pickEdge (destination : Bytes) (found : Option (Int × Int))
    (edge : (Int × Int) × Pathlet) : Option (Int × Int) :=
  if edge.2.destination?.getD [] = destination ∧ found.map Prod.fst ≠ some edge.1.1 then
    some edge.1
  else found

def destinationNode (graph : NestedGraph) (destination : Bytes) : Option Int :=
  (graph.edges.foldl (pickEdge destination) none).map Prod.snd

/-- Without an edge that carries the destination, the way back starts anywhere. -/
def getPathletsForDestination (hash : HashOrder) (calls : Nat) (graph : NestedGraph)
    (destination : Bytes) (islandId : UInt32) (asNum uninitialized : Int) :
    Option (Pathlets × NestedGraph) :=
  let search := getPredecessors graph asNum
  let destNode := (destinationNode graph destination).getD uninitialized
  (getAllPrecedingPathlets hash search calls destNode).map fun pathlets =>
    (⟨pathlets.map (.addPathVector [islandId])⟩, search.graph)

/-! ## What the search finds -/

namespace NestedGraph

def Edge (graph : NestedGraph) (node adjacent : Int) : Prop :=
  adjacent ∈ (graph.edgesFrom node).map (·.1.2)

def Reaches (graph : NestedGraph) (node other : Int) : Prop :=
  Relation.ReflTransGen graph.Edge node other

/-- The edges that the way back goes over. -/
def Precedes (graph : NestedGraph) (asNum node adjacent : Int) : Prop :=
  graph.Reaches asNum node ∧ graph.Edge node adjacent ∧ adjacent ≠ asNum

theorem convertGraphToPathlets_subscript (graph : NestedGraph) (node : Int) :
    (graph.subscript node).convertGraphToPathlets = graph.convertGraphToPathlets := by
  have same : ∀ keys : List Int, graph.edgesFrom node = [] →
      ((keys.orderedInsert (· ≤ ·) node).flatMap fun node =>
        (graph.edgesFrom node).map Prod.snd) =
        keys.flatMap fun node => (graph.edgesFrom node).map Prod.snd := by
    intro keys none
    induction keys with
    | nil => simp [none]
    | cons key keys induction =>
      rw [orderedInsert_cons]
      split
      · simp [none]
      · simp [induction]
  unfold convertGraphToPathlets subscript
  dsimp only [edgesFrom] at same ⊢
  split
  · rfl
  · rename_i missing
    rw [same]
    apply filter_eq_nil_iff.mpr
    intro edge member isFrom
    exact missing (of_decide_eq_true isFrom ▸ graph.present edge member)

end NestedGraph

namespace PredecessorSearch

variable {graph : NestedGraph} {asNum : Int} {search : PredecessorSearch}

structure Sound (graph : NestedGraph) (asNum : Int) (search : PredecessorSearch) : Prop where
  edges : search.graph.edges = graph.edges
  converted : search.graph.convertGraphToPathlets = graph.convertGraphToPathlets
  root : asNum ∈ search.visited
  stacked : search.stack ⊆ search.visited
  reached : ∀ node ∈ search.visited, graph.Reaches asNum node
  closed : ∀ node ∈ search.visited, node ∉ search.stack → ∀ adjacent, graph.Edge node adjacent →
    adjacent ∈ search.visited ∧ (adjacent ≠ asNum → node ∈ search.predecessors adjacent)
  preceding : ∀ adjacent, ∀ node ∈ search.predecessors adjacent, graph.Precedes asNum node adjacent

theorem foldl_visit (workingAs : Int) (adjacents : List Int) (search : PredecessorSearch) :
    (adjacents.foldl (visit asNum workingAs) search).graph = search.graph ∧
    (∀ node, node ∈ (adjacents.foldl (visit asNum workingAs) search).visited ↔
      node ∈ search.visited ∨ node ∈ adjacents) ∧
    (∀ node, node ∈ (adjacents.foldl (visit asNum workingAs) search).stack ↔
      node ∈ search.stack ∨ (node ∈ adjacents ∧ node ∉ search.visited)) ∧
    ∀ node adjacent, node ∈ (adjacents.foldl (visit asNum workingAs) search).predecessors adjacent ↔
      node ∈ search.predecessors adjacent ∨
        (node = workingAs ∧ adjacent ∈ adjacents ∧ adjacent ≠ asNum) := by
  induction adjacents generalizing search with
  | nil => simp
  | cons adjacent adjacents induction =>
    rcases induction (search.visit asNum workingAs adjacent) with
      ⟨sameGraph, visited, stacked, preceding⟩
    rw [foldl_cons]
    refine ⟨sameGraph, fun node => ?_, fun node => ?_, fun node other => ?_⟩
    · rw [visit]
      grind
    · rw [visit]
      grind
    · rw [visit]
      grind

theorem Sound.next {following : PredecessorSearch} (sound : search.Sound graph asNum)
    (taken : search.turn asNum = .next following) : following.Sound graph asNum := by
  unfold turn at taken
  split at taken
  · cases taken
  rename_i workingAs stack popped
  cases taken
  have inVisited : workingAs ∈ search.visited := sound.stacked (popped ▸ mem_cons_self)
  have adjacents : ∀ adjacent, adjacent ∈ (search.graph.edgesFrom workingAs).map (·.1.2) ↔
      graph.Edge workingAs adjacent := by
    intro adjacent
    rw [NestedGraph.Edge, NestedGraph.edgesFrom, NestedGraph.edgesFrom, sound.edges]
  rcases foldl_visit workingAs ((search.graph.edgesFrom workingAs).map (·.1.2))
    { search with graph := search.graph.subscript workingAs, stack := stack } with
    ⟨sameGraph, visited, stacked, preceding⟩
  have popped' := sound.stacked
  have closed := sound.closed
  simp only [adjacents] at visited stacked preceding
  refine ⟨?_, ?_, ?_, ?_, ?_, ?_, ?_⟩
  · rw [sameGraph]
    exact sound.edges
  · rw [sameGraph]
    exact (search.graph.convertGraphToPathlets_subscript workingAs).trans sound.converted
  · exact (visited asNum).mpr (.inl sound.root)
  · grind
  · intro node member
    rcases (visited node).mp member with old | new
    · exact sound.reached node old
    · exact (sound.reached workingAs inVisited).tail new
  · intro node member unstacked adjacent edge
    grind
  · intro adjacent node member
    rcases (preceding node adjacent).mp member with old | ⟨rfl, edge, notRoot⟩
    · exact sound.preceding adjacent node old
    · exact ⟨sound.reached node inVisited, edge, notRoot⟩

end PredecessorSearch

/-- What the search leaves: the predecessors of every node, and the graph as it was. -/
structure NestedGraph.Found (graph : NestedGraph) (asNum : Int) (search : PredecessorSearch) :
    Prop where
  edges : search.graph.edges = graph.edges
  converted : search.graph.convertGraphToPathlets = graph.convertGraphToPathlets
  preceding : ∀ node adjacent, node ∈ search.predecessors adjacent ↔
    graph.Precedes asNum node adjacent

theorem getPredecessors_found (graph : NestedGraph) (asNum : Int) :
    graph.Found asNum (getPredecessors graph asNum) := by
  have initially : PredecessorSearch.Sound graph asNum ⟨graph, [asNum], [asNum], fun _ => []⟩ := by
    refine ⟨rfl, rfl, mem_cons_self, fun _ member => member, ?_, ?_, ?_⟩
    · intro node member
      rw [mem_singleton.mp member]
      exact .refl
    · intro node member unstacked
      exact absurd member unstacked
    · intro adjacent node member
      cases member
  refine (PredecessorSearch.loop asNum).run_invariant PredecessorSearch.Sound.next ?_ initially
  intro search result sound taken
  change search.turn asNum = .leave result at taken
  unfold PredecessorSearch.turn at taken
  split at taken
  · rename_i empty
    cases taken
    refine ⟨sound.edges, sound.converted, fun node adjacent =>
      ⟨sound.preceding adjacent node, ?_⟩⟩
    -- With nothing left on the stack, what was visited is closed under edges.
    intro precedes
    have visited : ∀ node, graph.Reaches asNum node → node ∈ search.visited := by
      intro node reaches
      induction reaches with
      | refl => exact sound.root
      | tail _ edge induction => exact (sound.closed _ induction (by simp [empty]) _ edge).1
    exact (sound.closed node (visited node precedes.1) (by simp [empty]) adjacent precedes.2.1).2
      precedes.2.2
  · cases taken

/-! ## What the way back finds -/

section

variable {α β : Type} {part : α → Option (List β)} {items : List α}

theorem collect_isSome : (collect part items).isSome ↔ ∀ item ∈ items, (part item).isSome := by
  induction items with
  | nil => simp [collect]
  | cons item items induction =>
    rw [forall_mem_cons, ← induction, collect]
    cases part item <;> cases collect part items <;> simp

theorem mem_collect {all : List β} (collected : collect part items = some all) (value : β) :
    value ∈ all ↔ ∃ item ∈ items, ∃ values, part item = some values ∧ value ∈ values := by
  induction items generalizing all with
  | nil =>
    cases collected
    simp
  | cons item items induction =>
    unfold collect at collected
    split at collected
    · rename_i first rest isFirst isRest
      cases collected
      simp [induction isRest, isFirst]
    · cases collected

end

section

variable {hash : HashOrder} {search : PredecessorSearch}

theorem getAll_isSome_succ {node : Int} :
    (getAllPrecedingPathlets hash search (calls + 1) node).isSome ↔
      ∀ predecessor ∈ search.predecessors node,
        (getAllPrecedingPathlets hash search calls predecessor).isSome := by
  rw [getAllPrecedingPathlets, collect_isSome]
  simp [(hash.perm _).mem_iff]

theorem getAll_isSome_of_le {more : Nat} (le : calls ≤ more) {node : Int}
    (returns : (getAllPrecedingPathlets hash search calls node).isSome) :
    (getAllPrecedingPathlets hash search more node).isSome := by
  induction calls generalizing more node with
  | zero => cases returns
  | succ calls induction =>
    rcases Nat.exists_eq_add_of_le' (Nat.zero_lt_of_lt le) with ⟨more, rfl⟩
    rw [getAll_isSome_succ] at returns ⊢
    intro predecessor member
    exact induction (Nat.le_of_succ_le_succ le) (returns predecessor member)

theorem getAll_returns_iff {node : Int} :
    (∃ calls, (getAllPrecedingPathlets hash search calls node).isSome) ↔
      Acc (fun predecessor node => predecessor ∈ search.predecessors node) node := by
  constructor
  · intro returning
    rcases returning with ⟨calls, returns⟩
    induction calls generalizing node with
    | zero => cases returns
    | succ calls induction =>
      rw [getAll_isSome_succ] at returns
      exact .intro node fun predecessor member => induction (returns predecessor member)
  · intro accessible
    induction accessible with
    | intro node _ induction =>
      have enough : ∀ nodes ⊆ search.predecessors node, ∃ calls, ∀ predecessor ∈ nodes,
          (getAllPrecedingPathlets hash search calls predecessor).isSome := by
        intro nodes within
        induction nodes with
        | nil => exact ⟨0, by simp⟩
        | cons first rest more =>
          rcases cons_subset.mp within with ⟨firstIn, restIn⟩
          rcases induction first firstIn with ⟨calls, returns⟩
          rcases more restIn with ⟨restCalls, restReturn⟩
          refine ⟨max calls restCalls, forall_mem_cons.mpr ⟨?_, ?_⟩⟩
          · exact getAll_isSome_of_le (le_max_left _ _) returns
          · exact fun other member =>
              getAll_isSome_of_le (le_max_right _ _) (restReturn other member)
      rcases enough _ (List.Subset.refl _) with ⟨calls, returns⟩
      exact ⟨calls + 1, getAll_isSome_succ.mpr returns⟩

theorem mem_getAll {startingPt : Int} {all : List Pathlet}
    (returned : getAllPrecedingPathlets hash search calls startingPt = some all)
    (pathlet : Pathlet) :
    pathlet ∈ all ↔ ∃ node adjacent, node ∈ search.predecessors adjacent ∧
      ReflTransGen (fun node adjacent => node ∈ search.predecessors adjacent) adjacent
        startingPt ∧ pathlet = search.graph.pathletAt node adjacent := by
  induction calls generalizing startingPt all with
  | zero => cases returned
  | succ calls induction =>
    rw [mem_collect returned]
    constructor
    · intro collected
      rcases collected with ⟨predecessor, member, values, isPart, inPart⟩
      rw [(hash.perm _).mem_iff] at member
      rcases Option.map_eq_some_iff.mp isPart with ⟨more, isMore, rfl⟩
      rcases mem_cons.mp inPart with rfl | inMore
      · exact ⟨predecessor, startingPt, member, .refl, rfl⟩
      · rcases (induction isMore).mp inMore with ⟨node, adjacent, edge, way, same⟩
        exact ⟨node, adjacent, edge, way.tail member, same⟩
    · intro preceding
      rcases preceding with ⟨node, adjacent, edge, way, rfl⟩
      have parts := collect_isSome.mp (Option.isSome_of_eq_some returned)
      have startsAt : ∃ predecessor ∈ search.predecessors startingPt, ∀ more,
          getAllPrecedingPathlets hash search calls predecessor = some more →
          search.graph.pathletAt node adjacent ∈
            search.graph.pathletAt predecessor startingPt :: more := by
        rcases Relation.ReflTransGen.cases_tail way with rfl | ⟨predecessor, before, member⟩
        · exact ⟨node, edge, fun more _ => mem_cons_self⟩
        · refine ⟨predecessor, member, fun more isMore => mem_cons_of_mem _ ?_⟩
          exact (induction isMore).mpr ⟨node, adjacent, edge, before, rfl⟩
      rcases startsAt with ⟨predecessor, member, inPart⟩
      have listed := (hash.perm _).mem_iff.mpr member
      rcases Option.isSome_iff_exists.mp (parts predecessor listed) with ⟨values, isPart⟩
      rcases Option.map_eq_some_iff.mp isPart with ⟨more, isMore, rfl⟩
      exact ⟨predecessor, listed, _, isPart, inPart more isMore⟩

end

/-! ## Subgraphs -/

section

variable (hash : HashOrder) (graph : NestedGraph) {destination : Bytes} (islandId : UInt32)
  (asNum uninitialized : Int)

theorem getPathlets_returns_iff {node : Int}
    (labels : destinationNode graph destination = some node) :
    (∃ calls, (getPathletsForDestination hash calls graph destination islandId asNum
      uninitialized).isSome) ↔ Acc (graph.Precedes asNum) node := by
  have same : (fun predecessor node => predecessor ∈
      (getPredecessors graph asNum).predecessors node) = graph.Precedes asNum := by
    funext predecessor node
    exact propext ((getPredecessors_found graph asNum).preceding predecessor node)
  rw [← same, ← @getAll_returns_iff hash]
  simp [getPathletsForDestination, labels]

/-- In a finite graph there is no endless way back exactly if there is no cycle on the way. -/
theorem NestedGraph.acc_precedes_iff {node : Int} :
    Acc (graph.Precedes asNum) node ↔
      ¬ ∃ other, TransGen (graph.Precedes asNum) other other ∧
        ReflTransGen (graph.Precedes asNum) other node := by
  constructor
  · intro accessible cycle
    rcases cycle with ⟨other, round, way⟩
    induction accessible generalizing other with
    | intro node _ induction =>
      rcases Relation.ReflTransGen.cases_tail way with rfl | ⟨predecessor, before, step⟩
      · rcases Relation.TransGen.tail'_iff.mp round with ⟨predecessor, before, step⟩
        exact induction predecessor step _ round before
      · exact induction predecessor step other round before
  · classical
    intro acyclic
    -- Every step back leaves one node fewer to go back to.
    let above (node : Int) : Finset Int := (graph.edges.map (·.1.1)).toFinset.filter
      fun other => TransGen (graph.Precedes asNum) other node
    suffices descent : ∀ size node, (above node).card = size →
        (¬ ∃ other, TransGen (graph.Precedes asNum) other other ∧
          ReflTransGen (graph.Precedes asNum) other node) →
        Acc (graph.Precedes asNum) node from descent _ node rfl acyclic
    intro size
    induction size using Nat.strongRecOn with
    | ind size induction =>
      intro node isSize acyclic
      refine .intro node fun predecessor step => ?_
      refine induction _ ?_ predecessor rfl ?_
      · rw [← isSize]
        apply Finset.card_lt_card
        rw [Finset.ssubset_iff_of_subset]
        · refine ⟨predecessor, ?_, ?_⟩
          · rcases mem_map.mp step.2.1 with ⟨edge, member, _⟩
            rcases mem_filter.mp member with ⟨member, isFrom⟩
            refine Finset.mem_filter.mpr ⟨mem_toFinset.mpr ?_, .single step⟩
            exact of_decide_eq_true isFrom ▸ mem_map_of_mem member
          · intro round
            exact acyclic ⟨predecessor, (Finset.mem_filter.mp round).2, .single step⟩
        · intro other member
          rcases Finset.mem_filter.mp member with ⟨isNode, way⟩
          exact Finset.mem_filter.mpr ⟨isNode, way.tail step⟩
      · intro cycle
        rcases cycle with ⟨other, round, way⟩
        exact acyclic ⟨other, round, way.tail step⟩

/-- The pathlets towards a destination are found exactly if no cycle on the way to it, among the
nodes that can be reached, avoids the first node. -/
theorem subgraph_terminates_iff {node : Int}
    (labels : destinationNode graph destination = some node) :
    (∃ calls, (getPathletsForDestination hash calls graph destination islandId asNum
      uninitialized).isSome) ↔
      ¬ ∃ other, Relation.TransGen (graph.Precedes asNum) other other ∧
        Relation.ReflTransGen (graph.Precedes asNum) other node := by
  rw [getPathlets_returns_iff hash graph islandId asNum uninitialized labels,
    graph.acc_precedes_iff]

variable {graph} in
/-- Where edges ascend towards some nodes, so do the ways. -/
theorem NestedGraph.lt_of_way {Target : Int → Prop}
    (ascends : ∀ first last, graph.Edge first last → Target last → first < last ∧ Target first)
    {first last : Int} (way : TransGen graph.Edge first last) (target : Target last) :
    first < last := by
  induction way with
  | single step => exact (ascends _ _ step target).1
  | tail _ step induction =>
    rcases ascends _ _ step target with ⟨less, before⟩
    exact (induction before).trans less

/-- A way of two edges, an edge off it, and a cycle behind that one. -/
def turning : NestedGraph where
  keys := [1, 2, 4, 5]
  edges := [((1, 2), .empty), ((2, 3), { Pathlet.empty with destination? := some [7] }),
    ((2, 4), .empty), ((4, 5), .empty), ((5, 4), .empty)]
  present := by decide

theorem turning_terminates :
    ∃ calls, (getPathletsForDestination ⟨id, .refl⟩ calls turning [7] 0 1 0).isSome := by
  apply (subgraph_terminates_iff _ _ _ _ _
    (show destinationNode turning [7] = some 3 by decide)).mpr
  have ascends : ∀ first last, turning.Edge first last → last ≤ 3 →
      first < last ∧ first ≤ 3 := by
    simp only [NestedGraph.Edge, NestedGraph.edgesFrom, turning, mem_map, mem_filter, mem_cons]
    grind
  rintro ⟨other, round, way⟩
  have target : other ≤ 3 := by
    rcases reflTransGen_iff_eq_or_transGen.mp way with same | way
    · omega
    · exact (NestedGraph.lt_of_way ascends (way.lift id fun _ _ step => step.2.1) le_rfl).le
  exact (NestedGraph.lt_of_way ascends (round.lift id fun _ _ step => step.2.1) target).false

/-- The edge with the destination leads from its node back to it. -/
def roundTrip : NestedGraph where
  keys := [1, 2]
  edges := [((1, 2), .empty), ((2, 2), { Pathlet.empty with destination? := some [7] })]
  present := by decide

theorem roundTrip_endless : ¬ ∃ calls, (getPathletsForDestination ⟨id, .refl⟩ calls roundTrip [7] 0
    1 0).isSome := by
  rw [getPathlets_returns_iff _ _ _ _ _ (show destinationNode roundTrip [7] = some 2 by decide),
    NestedGraph.acc_precedes_iff, not_not]
  have step : roundTrip.Precedes 1 2 2 := by
    refine ⟨.single ?_, ?_, by decide⟩ <;> simp [NestedGraph.Edge, NestedGraph.edgesFrom, roundTrip]
  exact ⟨2, .single step, .refl⟩

/-! ## Acyclic graphs -/

theorem foldl_pickEdge {node : Int} {edges : PathletGraph}
    (into : ∀ edge ∈ edges, edge.2.destination?.getD [] = destination → edge.1.2 = node)
    {found : Option (Int × Int)} (foundInto : ∀ edge ∈ found, edge.2 = node)
    (carried : found.isSome ∨ ∃ edge ∈ edges, edge.2.destination?.getD [] = destination) :
    (edges.foldl (pickEdge destination) found).map Prod.snd = some node := by
  induction edges generalizing found with
  | nil =>
    rcases carried with isFound | ⟨edge, member, _⟩
    · rcases Option.isSome_iff_exists.mp isFound with ⟨edge, rfl⟩
      exact congrArg some (foundInto edge rfl)
    · cases member
  | cons edge edges induction =>
    rcases forall_mem_cons.mp into with ⟨first, rest⟩
    apply induction rest
    · intro other isPicked
      unfold pickEdge at isPicked
      split at isPicked
      · rename_i carries
        rw [← Option.some.inj isPicked]
        exact first carries.1
      · exact foundInto other isPicked
    · unfold pickEdge
      split
      · exact .inl rfl
      · cases found with
        | some other => exact .inl rfl
        | none => simp_all

theorem NestedGraph.pathletAt_eq (ordered : graph.edges.Ordered) {edge : (Int × Int) × Pathlet}
    (member : edge ∈ graph.edges) : graph.pathletAt edge.1.1 edge.1.2 = edge.2 := by
  unfold pathletAt
  cases found : graph.edges.find? fun other => other.1 = (edge.1.1, edge.1.2) with
  | none =>
    have different := find?_eq_none.mp found edge member
    simp at different
  | some other =>
    have sameLink : other.1 = edge.1 := by simpa using find?_some found
    have stored := mem_of_find?_eq_some found
    rw [inj_on_of_nodup_map (PathletGraph.Ordered.nodup ordered) stored member sameLink]
    rfl

/-- In an acyclic graph with all edges to the destination into one node, the pathlets are those of
the edges between the first node and that node, and the graph is left as it was. -/
theorem subgraph_exact {node : Int} (ordered : graph.edges.Ordered)
    (acyclic : ∀ node, ¬ Relation.TransGen graph.Edge node node)
    (carried : ∃ edge ∈ graph.edges, edge.2.destination?.getD [] = destination)
    (into : ∀ edge ∈ graph.edges, edge.2.destination?.getD [] = destination → edge.1.2 = node) :
    ∃ calls pathlets after, getPathletsForDestination hash calls graph destination islandId asNum
        uninitialized = some (⟨pathlets⟩, after) ∧
      (∀ pathlet, pathlet ∈ pathlets ↔ ∃ edge ∈ graph.edges, graph.Reaches asNum edge.1.1 ∧
        graph.Reaches edge.1.2 node ∧ pathlet = edge.2.addPathVector [islandId]) ∧
      after.convertGraphToPathlets = graph.convertGraphToPathlets := by
  have labels : destinationNode graph destination = some node :=
    foldl_pickEdge into (by simp) (.inr carried)
  have accessible : Acc (graph.Precedes asNum) node := by
    refine (graph.acc_precedes_iff asNum).mpr fun cycle => ?_
    rcases cycle with ⟨other, round, _⟩
    exact acyclic other (round.lift id fun _ _ step => step.2.1)
  rcases (getPathlets_returns_iff hash graph islandId asNum uninitialized labels).mpr accessible
    with ⟨calls, returns⟩
  rcases Option.isSome_iff_exists.mp returns with ⟨result, returned⟩
  have found := getPredecessors_found graph asNum
  simp only [getPathletsForDestination, labels, Option.getD_some, Option.map_eq_some_iff]
    at returned
  rcases returned with ⟨all, isAll, rfl⟩
  refine ⟨calls, all.map (.addPathVector [islandId]), _, ?_, ?_, found.converted⟩
  · simp [getPathletsForDestination, labels, isAll]
  · intro pathlet
    have reaches : ∀ adjacent, graph.Reaches asNum adjacent → (Relation.ReflTransGen
        (graph.Precedes asNum) adjacent node ↔ graph.Reaches adjacent node) := by
      intro adjacent reachable
      constructor
      · intro way
        exact way.lift id fun _ _ step => step.2.1
      · intro way
        induction way using Relation.ReflTransGen.head_induction_on with
        | refl => exact .refl
        | head edge _ induction =>
          refine .head ⟨reachable, edge, ?_⟩ (induction (reachable.tail edge))
          intro isRoot
          exact acyclic _ (isRoot ▸ Relation.TransGen.tail' reachable edge)
    have samePathlet : ∀ node adjacent,
        (getPredecessors graph asNum).graph.pathletAt node adjacent =
          graph.pathletAt node adjacent := by
      intro node adjacent
      rw [NestedGraph.pathletAt, found.edges]
      rfl
    have members := mem_getAll isAll
    simp only [found.preceding, samePathlet] at members
    simp only [mem_map, members]
    constructor
    · intro preceding
      rcases preceding with ⟨_, ⟨from_, adjacent, step, way, rfl⟩, rfl⟩
      rcases mem_map.mp step.2.1 with ⟨edge, member, rfl⟩
      rcases mem_filter.mp member with ⟨stored, isFrom⟩
      rcases of_decide_eq_true isFrom with rfl
      refine ⟨edge, stored, step.1, (reaches _ (step.1.tail step.2.1)).mp way, ?_⟩
      rw [graph.pathletAt_eq ordered stored]
    · intro between
      rcases between with ⟨edge, member, reachable, way, rfl⟩
      have isEdge : graph.Edge edge.1.1 edge.1.2 :=
        mem_map_of_mem (mem_filter.mpr ⟨member, decide_eq_true rfl⟩)
      refine ⟨edge.2, ⟨edge.1.1, edge.1.2, ⟨reachable, isEdge, ?_⟩, ?_, ?_⟩, rfl⟩
      · intro isRoot
        exact acyclic _ (isRoot ▸ Relation.TransGen.tail' reachable isEdge)
      · exact (reaches _ (reachable.tail isEdge)).mpr way
      · rw [graph.pathletAt_eq ordered member]

/-- A way of two edges, and an edge off it. -/
def forked : NestedGraph where
  keys := [1, 2]
  edges := [((1, 2), ⟨some 1, [1, 2], none, [], none⟩),
    ((2, 3), ⟨some 2, [2, 3], some [7], [], none⟩), ((2, 4), ⟨some 3, [2, 4], none, [], none⟩)]
  present := by decide

theorem forked_edge {first last : Int} (edge : forked.Edge first last) :
    (first, last) ∈ [(1, 2), (2, 3), (2, 4)] := by
  simp only [NestedGraph.Edge, NestedGraph.edgesFrom, forked, mem_map, mem_filter, mem_cons]
    at edge ⊢
  grind

theorem forked_exact : ∃ calls pathlets after,
    getPathletsForDestination ⟨id, .refl⟩ calls forked [7] 0 1 0 = some (⟨pathlets⟩, after) ∧
      ∀ pathlet, pathlet ∈ pathlets ↔ pathlet ∈ [⟨some 1, [1, 2], none, [0], none⟩,
        ⟨some 2, [2, 3], some [7], [0], none⟩] := by
  have ascends : ∀ first last, forked.Edge first last → True → first < last ∧ True := by
    intro first last edge _
    have listed := forked_edge edge
    grind
  rcases @subgraph_exact ⟨id, .refl⟩ forked [7] 0 1 0 3
    (by unfold PathletGraph.Ordered PathletGraph.Precedes; decide)
    (fun _ round => (NestedGraph.lt_of_way ascends round trivial).false)
    ⟨_, mem_cons_of_mem _ mem_cons_self, rfl⟩ (by simp [forked]) with
    ⟨calls, pathlets, after, returned, members, _⟩
  refine ⟨calls, pathlets, after, returned, fun pathlet => (members pathlet).trans ?_⟩
  have first : forked.Edge 1 2 := by simp [NestedGraph.Edge, NestedGraph.edgesFrom, forked]
  have second : forked.Edge 2 3 := by simp [NestedGraph.Edge, NestedGraph.edgesFrom, forked]
  have offWay : ¬ forked.Reaches 4 3 := by
    intro way
    rcases way.cases_head with same | ⟨next, edge, _⟩
    · cases same
    · have listed := forked_edge edge
      grind
  constructor
  · rintro ⟨edge, member, _, way, rfl⟩
    rcases mem_cons.mp member with rfl | member
    · exact mem_cons_self
    rcases mem_pair.mp member with rfl | rfl
    · exact mem_cons_of_mem _ mem_cons_self
    · exact absurd way offWay
  · intro member
    rcases mem_pair.mp member with rfl | rfl
    · exact ⟨_, mem_cons_self, .refl, .single second, rfl⟩
    · exact ⟨_, mem_cons_of_mem _ mem_cons_self, .single first, .refl, rfl⟩

end

end Quagga.Dbgp
