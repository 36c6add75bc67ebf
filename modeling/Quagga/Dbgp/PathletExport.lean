import Quagga.Dbgp.PathletAllocation
import Quagga.Foundation.LastWrite

/-!
# Exporting the pathlet graph

The graph of a router has one pathlet for each pair of virtual nodes, and a pathlet that is
inserted replaces the one of its pair. What is exported to other islands is the graph as it
is then: the pathlets that were inserted last for their pair. A destination is a part of a
pathlet, so it is lost when all of its pathlets are replaced.
-/

namespace Quagga.Dbgp

open Foundation Bgp Execution List

/-! ## The graph as a map -/

def Pathlet.link (pathlet : Pathlet) : Int × Int :=
  match pathlet.vnodes with
  | primary :: adjacent :: _ => (toInt primary, toInt adjacent)
  | _ => (0, 0)

variable {writes : List Pathlet}

namespace PathletGraph

def Precedes (link other : Int × Int) : Prop :=
  link.1 < other.1 ∨ (link.1 = other.1 ∧ link.2 < other.2)

def Ordered (graph : PathletGraph) : Prop :=
  graph.Pairwise fun entry other => Precedes entry.1 other.1

theorem Precedes.ne {link other : Int × Int} (precedes : Precedes link other) : other ≠ link := by
  intro same
  rw [Precedes, same] at precedes
  omega

theorem Precedes.trans {first second third : Int × Int} (before : Precedes first second)
    (after : Precedes second third) : Precedes first third := by
  simp only [Precedes] at before after ⊢
  omega

variable {graph : PathletGraph}

theorem Ordered.nodup (ordered : Ordered graph) : (graph.map Prod.fst).Nodup :=
  pairwise_map.mpr (ordered.imp fun before => before.ne.symm)

theorem precedes_of_not {link other : Int × Int} (different : other ≠ link)
    (notBefore : ¬ Precedes link other) : Precedes other link := by
  have apart : ¬ (other.1 = link.1 ∧ other.2 = link.2) :=
    fun same => different (Prod.ext same.1 same.2)
  simp only [Precedes] at notBefore ⊢
  omega

theorem mem_insert (ordered : Ordered graph) (link : Int × Int) (pathlet : Pathlet)
    (entry : (Int × Int) × Pathlet) :
    entry ∈ graph.insert link pathlet ↔
      entry = (link, pathlet) ∨ (entry ∈ graph ∧ entry.1 ≠ link) := by
  induction graph with
  | nil => simp [insert]
  | cons head tail induction =>
    rcases pairwise_cons.mp ordered with ⟨smallest, orderedTail⟩
    rw [insert]
    split_ifs with same before
    · have apart : ∀ other ∈ tail, other.1 ≠ link :=
        fun other mem => same ▸ (smallest other mem).ne
      grind
    · have before : Precedes link head.1 := before
      have apart : ∀ other ∈ head :: tail, other.1 ≠ link :=
        forall_mem_cons.mpr ⟨before.ne, fun other mem => (before.trans (smallest other mem)).ne⟩
      grind
    · rw [mem_cons, induction orderedTail]
      grind

theorem ordered_insert (ordered : Ordered graph) (link : Int × Int) (pathlet : Pathlet) :
    Ordered (graph.insert link pathlet) := by
  induction graph with
  | nil => simp [insert, Ordered]
  | cons head tail induction =>
    rcases pairwise_cons.mp ordered with ⟨smallest, orderedTail⟩
    rw [insert]
    split_ifs with same before
    · exact pairwise_cons.mpr ⟨fun other mem => same ▸ smallest other mem, orderedTail⟩
    · have before : Precedes link head.1 := before
      refine pairwise_cons.mpr ⟨forall_mem_cons.mpr ⟨before, ?_⟩, ordered⟩
      exact fun other mem => before.trans (smallest other mem)
    · refine pairwise_cons.mpr ⟨?_, induction orderedTail⟩
      intro other mem
      rcases (mem_insert orderedTail link pathlet other).mp mem with new | ⟨mem, _⟩
      · rw [new]
        exact precedes_of_not same before
      · exact smallest other mem

/-- The graph has the pathlets that were written last for their link. -/
structure Represents (graph : PathletGraph) (writes : List Pathlet) : Prop where
  ordered : Ordered graph
  entries : ∀ entry, entry ∈ graph ↔ IsLatest Pathlet.link writes entry.2 ∧ entry.1 = entry.2.link

theorem represents_nil : Represents [] [] where
  ordered := List.Pairwise.nil
  entries := by
    intro entry
    constructor
    · intro mem
      cases mem
    · intro latest
      exact absurd latest.1 IsLatest.not_nil

theorem Represents.insert (represents : Represents graph writes) (pathlet : Pathlet) :
    Represents (graph.insert pathlet.link pathlet) (writes ++ [pathlet]) where
  ordered := ordered_insert represents.ordered _ _
  entries := by
    intro entry
    rw [mem_insert represents.ordered, represents.entries, IsLatest.snoc_iff]
    constructor
    · intro mem
      rcases mem with rfl | ⟨⟨latest, key⟩, different⟩
      · exact ⟨.inl rfl, rfl⟩
      · exact ⟨.inr ⟨latest, fun same => different (key.trans same.symm)⟩, key⟩
    · intro latest
      rcases latest with ⟨same | ⟨latest, different⟩, key⟩
      · left
        rw [← same, ← key]
      · exact .inr ⟨⟨latest, key⟩, fun same => different (same.symm.trans key)⟩

theorem Represents.mem_pathlets (represents : Represents graph writes) (pathlet : Pathlet) :
    pathlet ∈ graph.map Prod.snd ↔ IsLatest Pathlet.link writes pathlet := by
  rw [mem_map]
  constructor
  · intro found
    rcases found with ⟨entry, mem, rfl⟩
    exact ((represents.entries entry).mp mem).1
  · intro latest
    exact ⟨(pathlet.link, pathlet), (represents.entries _).mpr ⟨latest, rfl⟩, rfl⟩

end PathletGraph

/-! ## Operations on the pathlet state -/

inductive PathletOperation where
  | getNextIp
  | getNextFid
  /-- What `new_pathlets_input_filter` does for a destination one hop away. -/
  | oneHop (config : Configuration) (peer : Peer) (network : Prefix)
  | insertPathletToSend (associatedIp : Bytes) (pathlet : Pathlet)
  | insertPathletIntoGraph (pathlet : Pathlet)
  | merge (serializedAdvert : Bytes) (islandId : UInt32)

def mergedPathlets (serializedAdvert : Bytes) (islandId : UInt32) : List Pathlet :=
  (islandGraph serializedAdvert islandId).elim [] Pathlets.pathlets

namespace PathletOperation

def apply (state : PathletInternalState) : PathletOperation → Execution PathletInternalState
  | getNextIp => .ok state.getNextIp.2
  | getNextFid => .ok state.getNextFid.2
  | oneHop config peer network =>
    let (newIp, state) := state.getNextIp
    let (freeFid, state) := state.getNextFid
    state.insertPathletToSend newIp (oneHopPathlet config freeFid peer network)
  | insertPathletToSend associatedIp pathlet => state.insertPathletToSend associatedIp pathlet
  | insertPathletIntoGraph pathlet => state.insertPathletIntoGraph pathlet
  | merge serializedAdvert islandId =>
    mergePathletInformationIntoGraph state serializedAdvert islandId

def inserted (state : PathletInternalState) : PathletOperation → List Pathlet
  | getNextIp | getNextFid => []
  | oneHop config peer network => [oneHopPathlet config state.nextFid peer network]
  | insertPathletToSend _ pathlet | insertPathletIntoGraph pathlet => [pathlet]
  | merge serializedAdvert islandId => mergedPathlets serializedAdvert islandId

def sentDestination? : PathletOperation → Option Bytes
  | oneHop config _ network => some (config.prefix2str network)
  | insertPathletToSend _ pathlet => pathlet.destination?
  | _ => none

end PathletOperation

def insertedPathlets : PathletInternalState → List PathletOperation → List Pathlet
  | _, [] => []
  | state, operation :: operations =>
    operation.inserted state ++
      match operation.apply state with
      | .ok next => insertedPathlets next operations
      | .error _ => []

/-- The graph that an advertisement has for the island after
`GenerateExternalPathletControlInfo`. -/
def exportedPathlets (state : PathletInternalState) (islandId : UInt32)
    (serializedAdvert : Bytes) : List Pathlet :=
  (islandGraph (generateExternalPathletControlInfo state islandId serializedAdvert) islandId).elim
    [] Pathlets.pathlets

/-- Every destination that was sent is exported, and nothing but what was inserted. -/
structure Exports (base : UInt32) (operations : List PathletOperation) (exported : List Pathlet) :
    Prop where
  complete : ∀ destination ∈ operations.filterMap PathletOperation.sentDestination?,
    ∃ pathlet ∈ exported, pathlet.destination? = some destination
  sound : ∀ pathlet ∈ exported, pathlet ∈ insertedPathlets (.create base) operations

/-! ## The graph after a sequence of operations -/

theorem exportedPathlets_eq (state : PathletInternalState) (islandId : UInt32)
    (serializedAdvert : Bytes) :
    exportedPathlets state islandId serializedAdvert = state.pathletGraph.map Prod.snd := by
  simp [exportedPathlets, islandGraph, generateExternalPathletControlInfo,
    getProtocolHopDescriptor_setHopValue, getHopDescriptorKeyValue_setKeyValue_same,
    KeyValue.setValue, KeyValue.value, PathletInternalState.convertGraphToPathlets]

section

variable {state after : PathletInternalState}

theorem insertPathletIntoGraph_represents {pathlet : Pathlet}
    (represents : state.pathletGraph.Represents writes)
    (inserted : state.insertPathletIntoGraph pathlet = .ok after) :
    after.pathletGraph.Represents (writes ++ [pathlet]) := by
  have extended := represents.insert pathlet
  unfold PathletInternalState.insertPathletIntoGraph at inserted
  split at inserted
  · rename_i nodes
    cases inserted
    simpa only [Pathlet.link, nodes] using extended
  · cases inserted

theorem insertAll_represents {pathlets writes : List Pathlet}
    (represents : state.pathletGraph.Represents writes)
    (inserted : pathlets.foldlM PathletInternalState.insertPathletIntoGraph state = .ok after) :
    after.pathletGraph.Represents (writes ++ pathlets) := by
  induction pathlets generalizing state writes with
  | nil =>
    cases inserted
    rwa [append_nil]
  | cons pathlet pathlets induction =>
    rw [foldlM_cons, bind_eq_ok] at inserted
    rcases inserted with ⟨next, first, rest⟩
    have extended := induction (insertPathletIntoGraph_represents represents first) rest
    rwa [append_assoc] at extended

theorem merge_represents {advert : Bytes} {islandId : UInt32}
    (represents : state.pathletGraph.Represents writes)
    (merged : mergePathletInformationIntoGraph state advert islandId = .ok after) :
    after.pathletGraph.Represents (writes ++ mergedPathlets advert islandId) := by
  unfold mergePathletInformationIntoGraph at merged
  dsimp only at merged
  simp only [mergedPathlets, islandGraph]
  split at merged
  · rename_i absent
    cases merged
    rwa [absent, Option.bind_none, Option.map_none, Option.elim_none, append_nil]
  · rename_i descriptor found
    split at merged
    · cases merged
    · rename_i keyValue present
      rw [found, Option.bind_some, present, Option.map_some]
      exact insertAll_represents represents merged

theorem PathletOperation.apply_represents {operation : PathletOperation}
    (represents : state.pathletGraph.Represents writes)
    (applied : operation.apply state = .ok after) :
    after.pathletGraph.Represents (writes ++ operation.inserted state) := by
  cases operation with
  | getNextIp | getNextFid =>
    cases applied
    rwa [inserted, append_nil]
  | oneHop config peer network =>
    simp only [apply] at applied
    apply insertPathletIntoGraph_represents _ applied
    exact represents
  | insertPathletToSend ip pathlet =>
    apply insertPathletIntoGraph_represents _ applied
    exact represents
  | insertPathletIntoGraph pathlet => exact insertPathletIntoGraph_represents represents applied
  | merge advert islandId => exact merge_represents represents applied

end

theorem operations_represent {operations : List PathletOperation}
    {state after : PathletInternalState} (represents : state.pathletGraph.Represents writes)
    (executed : operations.foldlM PathletOperation.apply state = .ok after) :
    after.pathletGraph.Represents (writes ++ insertedPathlets state operations) := by
  induction operations generalizing state writes with
  | nil =>
    cases executed
    rwa [insertedPathlets, append_nil]
  | cons operation operations induction =>
    rw [foldlM_cons, bind_eq_ok] at executed
    rcases executed with ⟨next, first, rest⟩
    have extended := induction (PathletOperation.apply_represents represents first) rest
    rw [append_assoc] at extended
    simpa only [insertedPathlets, first] using extended

/-- A destination is exported exactly if one of its pathlets is the last that was inserted
for its pair of virtual nodes. -/
theorem exports_iff {base : UInt32} {operations : List PathletOperation}
    {state : PathletInternalState}
    (executed : operations.foldlM PathletOperation.apply (.create base) = .ok state)
    (islandId : UInt32) (serializedAdvert : Bytes) :
    Exports base operations (exportedPathlets state islandId serializedAdvert) ↔
      ∀ destination ∈ operations.filterMap PathletOperation.sentDestination?,
        ∃ pathlet, pathlet.destination? = some destination ∧
          IsLatest Pathlet.link (insertedPathlets (.create base) operations) pathlet := by
  have represents := operations_represent PathletGraph.represents_nil executed
  rw [exportedPathlets_eq]
  constructor
  · intro exports destination sent
    rcases exports.complete destination sent with ⟨pathlet, mem, isDestination⟩
    exact ⟨pathlet, isDestination, (represents.mem_pathlets pathlet).mp mem⟩
  · intro kept
    constructor
    · intro destination sent
      rcases kept destination sent with ⟨pathlet, isDestination, latest⟩
      exact ⟨pathlet, (represents.mem_pathlets pathlet).mpr latest, isDestination⟩
    · intro pathlet mem
      exact ((represents.mem_pathlets pathlet).mp mem).mem

/-- Two neighbours of the island announce a destination each, and a pathlet of another router
of the island is merged in between. -/
def islandOperations : List PathletOperation :=
  [.oneHop islandEnvironment.config islandPeer ⟨.ip, 16, [192, 168, 0, 0]⟩,
    .merge (generateExternalPathletControlInfo
      ⟨[((4, 5), ⟨some 1, [4, 5], none, [], none⟩)], 1, 0, fun _ => none⟩ 7 []) 7,
    .oneHop islandEnvironment.config { islandPeer with as := 3 } ⟨.ip, 16, [172, 16, 0, 0]⟩]

theorem islandOperations_exports :
    ∃ state, islandOperations.foldlM PathletOperation.apply (.create 0x0A000000) = .ok state ∧
      Exports 0x0A000000 islandOperations (exportedPathlets state 7 []) := by
  have returns : (islandOperations.foldlM PathletOperation.apply
      (.create 0x0A000000)).toOption.isSome = true := by
    decide +kernel
  have inserted : insertedPathlets (.create 0x0A000000) islandOperations =
      [oneHopPathlet islandEnvironment.config 1 islandPeer ⟨.ip, 16, [192, 168, 0, 0]⟩,
        ⟨some 1, [4, 5], none, [], none⟩,
        oneHopPathlet islandEnvironment.config 2 { islandPeer with as := 3 }
          ⟨.ip, 16, [172, 16, 0, 0]⟩] := by
    decide +kernel
  cases executed : islandOperations.foldlM PathletOperation.apply (.create 0x0A000000) with
  | error fault =>
    rw [executed] at returns
    cases returns
  | ok state =>
    refine ⟨state, rfl, (exports_iff executed 7 []).mpr ?_⟩
    rw [inserted]
    intro destination sent
    rcases mem_pair.mp (by exact sent : destination ∈ [_, _]) with rfl | rfl
    · exact ⟨_, rfl, [], [_, _], rfl, by decide⟩
    · exact ⟨_, rfl, [_, _], [], rfl, nofun⟩

/-- The second destination of a neighbour replaces the first one. -/
theorem sameNeighbour_not_exports :
    ∃ state, [PathletOperation.oneHop islandEnvironment.config islandPeer
          ⟨.ip, 16, [192, 168, 0, 0]⟩,
        .oneHop islandEnvironment.config islandPeer ⟨.ip, 16, [172, 16, 0, 0]⟩].foldlM
          PathletOperation.apply (.create 0x0A000000) = .ok state ∧
      ¬ Exports 0x0A000000 [.oneHop islandEnvironment.config islandPeer
          ⟨.ip, 16, [192, 168, 0, 0]⟩,
        .oneHop islandEnvironment.config islandPeer ⟨.ip, 16, [172, 16, 0, 0]⟩]
        (exportedPathlets state 7 []) := by
  apply Exists.intro
  apply And.intro rfl
  intro exports
  rcases exports.complete (islandEnvironment.config.prefix2str ⟨.ip, 16, [192, 168, 0, 0]⟩)
    (by simp [PathletOperation.sentDestination?]) with ⟨pathlet, mem, isDestination⟩
  rw [mem_singleton.mp mem] at isDestination
  exact absurd isDestination (by decide +kernel)

end Quagga.Dbgp
