import Quagga.Dbgp.PathletExport

/-!
# Importing pathlets

A graph that one router exports and another one merges is the same graph again. Pathlets of
another island are imported under addresses of this router, each extended by the AS path, with one
more pathlet across the AS path itself.
-/

namespace Quagga.Dbgp

open Foundation List PathletInternalState

variable {pathlets : List Pathlet} {pathlet : Pathlet}

/-! ## Exporting and merging -/

/-- What inserting a pathlet does if it has its two virtual nodes. -/
def PathletGraph.store (graph : PathletGraph) (pathlet : Pathlet) : PathletGraph :=
  graph.insert pathlet.link pathlet

theorem insertPathletIntoGraph_eq (state : PathletInternalState)
    (nodes : 2 ≤ pathlet.vnodes.length) :
    state.insertPathletIntoGraph pathlet =
      .ok { state with pathletGraph := state.pathletGraph.store pathlet } := by
  rcases listed : pathlet.vnodes with _ | ⟨primary, _ | ⟨adjacent, rest⟩⟩
  · simp [listed] at nodes
  · simp [listed] at nodes
  · simp [insertPathletIntoGraph, PathletGraph.store, Pathlet.link, listed]

theorem insertAll_eq (state : PathletInternalState)
    (nodes : ∀ pathlet ∈ pathlets, 2 ≤ pathlet.vnodes.length) :
    pathlets.foldlM insertPathletIntoGraph state =
      .ok { state with pathletGraph := pathlets.foldl .store state.pathletGraph } := by
  induction pathlets generalizing state with
  | nil => rfl
  | cons pathlet pathlets induction =>
    rcases forall_mem_cons.mp nodes with ⟨first, rest⟩
    rw [foldlM_cons, insertPathletIntoGraph_eq state first, ok_bind, induction _ rest]
    rfl

namespace PathletGraph

variable {graph : PathletGraph} {writes : List Pathlet}

theorem represents_of_stores (represents : graph.Represents writes) (pathlets : List Pathlet) :
    Represents (pathlets.foldl store graph) (writes ++ pathlets) := by
  induction pathlets generalizing graph writes with
  | nil => rwa [append_nil]
  | cons pathlet pathlets induction =>
    have extended := induction (represents.insert pathlet)
    rwa [append_assoc] at extended

theorem Ordered.eq_of_mem_iff {graph other : PathletGraph} (ordered : graph.Ordered)
    (otherOrdered : other.Ordered) (same : ∀ entry, entry ∈ graph ↔ entry ∈ other) :
    graph = other := by
  have irreflexive : Std.Irrefl fun entry other : (Int × Int) × Pathlet =>
      Precedes entry.1 other.1 := ⟨fun entry before => before.ne rfl⟩
  have antisymmetric : Std.Antisymm fun entry other : (Int × Int) × Pathlet =>
      Precedes entry.1 other.1 :=
    ⟨fun entry other before after => absurd rfl (before.trans after).ne⟩
  exact List.Pairwise.eq_of_mem_iff ordered otherOrdered same

theorem Represents.isLatest (represents : graph.Represents writes) (pathlet : Pathlet) :
    IsLatest Pathlet.link (graph.map Prod.snd) pathlet ↔ pathlet ∈ graph.map Prod.snd := by
  have links : (graph.map Prod.snd).map Pathlet.link = graph.map Prod.fst := by
    rw [map_map]
    apply map_congr_left
    intro entry member
    exact ((represents.entries entry).mp member).2.symm
  have distinct : ((graph.map Prod.snd).map Pathlet.link).Nodup := links ▸ represents.ordered.nodup
  constructor
  · exact IsLatest.mem
  · intro member
    rcases append_of_mem member with ⟨earlier, later, split⟩
    rw [split, map_append] at distinct
    refine ⟨earlier, later, split, fun other after same => ?_⟩
    apply (nodup_cons.mp (nodup_append.mp distinct).2.1).1
    exact same ▸ mem_map_of_mem after

theorem Represents.store_all (represents : graph.Represents writes) :
    (graph.map Prod.snd).foldl store [] = graph := by
  have stored := represents_of_stores represents_nil (graph.map Prod.snd)
  apply stored.ordered.eq_of_mem_iff represents.ordered
  intro entry
  rw [stored.entries, nil_append, represents.isLatest, represents.mem_pathlets, represents.entries]

end PathletGraph

/-- Pathlets leave the last one of every link in the graph, and the graph that is exported and
merged into another state is the same. -/
theorem exported_graph_merges {pathlets : List Pathlet}
    (nodes : ∀ pathlet ∈ pathlets, 2 ≤ pathlet.vnodes.length) (base fresh : UInt32)
    (islandId : UInt32) (serializedAdvert : Bytes) :
    ∃ state merged,
      pathlets.foldlM PathletInternalState.insertPathletIntoGraph (.create base) = .ok state ∧
      state.pathletGraph.Represents pathlets ∧
      mergePathletInformationIntoGraph (.create fresh)
        (generateExternalPathletControlInfo state islandId serializedAdvert) islandId = .ok merged ∧
      merged.pathletGraph = state.pathletGraph := by
  have represents := PathletGraph.represents_of_stores PathletGraph.represents_nil pathlets
  have exported : ∀ pathlet ∈ (pathlets.foldl PathletGraph.store []).map Prod.snd,
      2 ≤ pathlet.vnodes.length := by
    intro pathlet member
    exact nodes pathlet ((represents.mem_pathlets pathlet).mp member).mem
  have merges := insertAll_eq (.create fresh) exported
  refine ⟨_, _, insertAll_eq _ nodes, represents, Eq.trans ?_ merges, represents.store_all⟩
  simp only [mergePathletInformationIntoGraph, generateExternalPathletControlInfo,
    MessageCodec.parse_serialize, getProtocolHopDescriptor_setHopValue,
    getHopDescriptorKeyValue_setKeyValue_same, KeyValue.setValue, KeyValue.value,
    Option.getD_some, PathletInternalState.convertGraphToPathlets, PathletInternalState.create]

/-- The second pathlet from node 1 to node 2 is the one that is exported and merged. -/
theorem replaced_pathlet_merges :
    ∃ state merged,
      [(⟨some 1, [1, 2], none, [], none⟩ : Pathlet), ⟨some 2, [1, 2], none, [], none⟩].foldlM
        PathletInternalState.insertPathletIntoGraph (.create 0) = .ok state ∧
      state.pathletGraph.Represents
        [⟨some 1, [1, 2], none, [], none⟩, ⟨some 2, [1, 2], none, [], none⟩] ∧
      mergePathletInformationIntoGraph (.create 0)
        (generateExternalPathletControlInfo state 7 []) 7 = .ok merged ∧
      merged.pathletGraph = state.pathletGraph :=
  exported_graph_merges (by simp) 0 0 7 []

/-! ## Pathlets of another island -/

/-- What `state` has become after `pathlets` were sent under its next addresses. -/
structure SentNext (state : PathletInternalState) (pathlets : List Pathlet)
    (after : PathletInternalState) : Prop where
  nextIp : after.nextIp = pathletAddress state.nextIp pathlets.length
  graph : after.pathletGraph = pathlets.foldl .store state.pathletGraph
  sent : ∀ index pathlet, pathlets[index]? = some pathlet →
    after.ipToPathletToSend (inetNtop (pathletAddress state.nextIp index)) = some pathlet
  others : ∀ ip, (∀ index < pathlets.length, ip ≠ inetNtop (pathletAddress state.nextIp index)) →
    after.ipToPathletToSend ip = state.ipToPathletToSend ip

theorem pathletAddress_injective {base : UInt32} {index other : Nat} (small : index < 2 ^ 32)
    (otherSmall : other < 2 ^ 32) (same : pathletAddress base index = pathletAddress base other) :
    index = other := by
  have numbers := congrArg UInt32.toNat ((UInt32.add_right_inj base).mp same)
  rwa [UInt32.toNat_ofNat_of_lt' small, UInt32.toNat_ofNat_of_lt' otherSmall] at numbers

theorem SentNext.send {state after : PathletInternalState}
    (sentNext : SentNext state pathlets after) (room : pathlets.length < 2 ^ 32)
    (nodes : 2 ≤ pathlet.vnodes.length) :
    ∃ last, createPathletToSend after pathlet =
        .ok (last, announceIp (inetNtop (pathletAddress state.nextIp pathlets.length))) ∧
      SentNext state (pathlets ++ [pathlet]) last ∧ last.nextFid = after.nextFid := by
  simp only [createPathletToSend, MessageCodec.parse_serialize,
    insertPathletToSend, insertPathletIntoGraph_eq _ nodes, getNextIp, sentNext.nextIp]
  refine ⟨_, rfl, ⟨?_, ?_, ?_, ?_⟩, rfl⟩
  · simp [pathletAddress_succ]
  · simp [sentNext.graph]
  · intro index other found
    dsimp only
    rcases Nat.lt_or_ge index pathlets.length with earlier | last
    · rw [getElem?_append_left earlier] at found
      rw [Function.update_of_ne, sentNext.sent index other found]
      intro same
      have equal := pathletAddress_injective (by omega) room (inetNtop_injective same)
      omega
    · have isLast : index = pathlets.length := by
        have bound := (List.getElem?_eq_some_iff.mp found).1
        rw [length_append, length_singleton] at bound
        omega
      rw [isLast, getElem?_concat_length] at found
      rw [isLast, Function.update_self, found]
  · intro ip different
    dsimp only
    rw [Function.update_of_ne (different _ (by simp))]
    apply sentNext.others
    intro index earlier
    exact different index (by rw [length_append]; omega)

theorem SentNext.sendAll {state after : PathletInternalState} {earlier : List Pathlet}
    (sentNext : SentNext state earlier after) (room : earlier.length + pathlets.length < 2 ^ 32)
    (nodes : ∀ pathlet ∈ pathlets, 2 ≤ pathlet.vnodes.length) :
    ∃ last, createPathletsToSend after pathlets =
        .ok (last, addressRange state.nextIp earlier.length pathlets.length) ∧
      SentNext state (earlier ++ pathlets) last ∧ last.nextFid = after.nextFid := by
  induction pathlets generalizing earlier after with
  | nil => exact ⟨after, rfl, by rwa [append_nil], rfl⟩
  | cons pathlet pathlets induction =>
    rcases forall_mem_cons.mp nodes with ⟨first, rest⟩
    rw [length_cons] at room
    rcases sentNext.send (by omega) first with ⟨next, created, extended, sameFid⟩
    rcases induction extended (by simp; omega) rest with ⟨last, createdAll, all, lastFid⟩
    refine ⟨last, ?_, by simpa using all, lastFid.trans sameFid⟩
    simp [createPathletsToSend, created, createdAll, addressRange, range'_succ]

/-- The pathlets of an island's graph go out under the next addresses of this router, each with the
AS path behind its own path, and one more goes across the AS path. -/
theorem createPathletsFromIA_sends (state : PathletInternalState) {serializedAdvert : Bytes}
    {islandId : UInt32} {graph : Pathlets}
    (found : islandGraph serializedAdvert islandId = some graph)
    (nodes : ∀ pathlet ∈ graph.pathlets, 2 ≤ pathlet.vnodes.length)
    (counted : graph.pathlets.length + 1 < 2 ^ 31) (asNum : UInt32) {aspath : List UInt32}
    (long : 2 ≤ aspath.length) :
    ∃ after,
      createPathletsFromIA state serializedAdvert aspath islandId asNum =
        .ok (after, (List.range (graph.pathlets.length + 1)).map fun index =>
          announceIp (inetNtop (pathletAddress state.nextIp index))) ∧
      SentNext state (graph.pathlets.map (.addPathVector aspath) ++
        [crossGulfPathlet state.nextFid asNum aspath[aspath.length - 2] aspath]) after ∧
      after.nextFid = state.nextFid + 1 := by
  have initially : SentNext state [] state :=
    ⟨by simp [pathletAddress], rfl, by simp, fun _ _ => rfl⟩
  have extended : ∀ pathlet ∈ graph.pathlets.map (Pathlet.addPathVector aspath),
      2 ≤ pathlet.vnodes.length := forall_mem_map.mpr nodes
  rcases initially.sendAll (by simp; omega) extended with ⟨sent, created, sentNext, sameFid⟩
  have taken : SentNext state (graph.pathlets.map (.addPathVector aspath)) sent.getNextFid.2 :=
    ⟨sentNext.nextIp, sentNext.graph, sentNext.sent, sentNext.others⟩
  have across : 2 ≤ (crossGulfPathlet state.nextFid asNum aspath[aspath.length - 2]
      aspath).vnodes.length := by simp [crossGulfPathlet]
  rcases taken.send (by simp; omega) across with ⟨last, createdLast, sentLast, lastFid⟩
  refine ⟨last, ?_, sentLast, by rw [lastFid, ← sameFid]; rfl⟩
  have present : aspath[aspath.length - 2]? = some aspath[aspath.length - 2] :=
    getElem?_eq_getElem _
  have newFid : sent.getNextFid.1 = state.nextFid := sameFid
  simp only [createPathletsFromIA, found, created, ok_bind, present, Execution.defined_some,
    if_neg (Nat.not_lt.mpr long), newFid, createdLast]
  simp [addressRange, range_succ, range_eq_range']

/-- One pathlet of island 7 is imported by AS 3 over a path of two ASes. -/
theorem onePathlet_sends :
    ∃ after, SentNext (.create 0x0A000000)
      [⟨some 1, [1, 2], none, [5, 6], none⟩, ⟨some 1, [3, 5], none, [5, 6], none⟩] after := by
  have found : islandGraph (generateExternalPathletControlInfo
      ⟨[((1, 2), ⟨some 1, [1, 2], none, [], none⟩)], 1, 0, fun _ => none⟩ 7 []) 7 =
        some ⟨[⟨some 1, [1, 2], none, [], none⟩]⟩ := by decide +kernel
  have long : 2 ≤ [(5 : UInt32), 6].length := by decide
  rcases createPathletsFromIA_sends (.create 0x0A000000) found (by simp) (by simp) 3 long with
    ⟨after, _, sent, _⟩
  exact ⟨after, sent⟩

end Quagga.Dbgp
