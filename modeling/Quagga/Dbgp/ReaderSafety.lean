import Quagga.Dbgp.Dispatch

/-!
# Reading advertisements of others

An advertisement may come from any implementation. The functions that read one look for a
descriptor before they use it, but not always for a key, for the two ends of a pathlet, or for
the length of the AS path. They return exactly on the advertisements where all these are there.
-/

namespace Quagga.Dbgp

open Foundation Bgp Execution List IntegratedAdvertisement

/-- An advertisement that a router reads, and the pathlets it has learned. -/
structure Reading where
  info : ControlInfo
  pathlets : PathletInternalState

inductive Reader where
  | wiserPathCost
  | lastWiserNode
  | mergePathlets
  | hasPathlets (island : UInt32)
  | createPathlets (island : UInt32)
deriving Repr, DecidableEq

section

variable (bgp : Instance) (aspath : AsPath)

def Reader.apply (reading : Reading) : Reader → Execution Reading
  | .wiserPathCost => do
      let _ ← getWiserPathCost reading.info.integratedAdvertisement
      return reading
  | .lastWiserNode => do
      let _ ← getLastWiserNode reading.info.integratedAdvertisement
      return reading
  | .mergePathlets => do
      let pathlets ← mergePathletInformationIntoGraph reading.pathlets
        reading.info.integratedAdvertisement bgp.islandId
      return { reading with pathlets := pathlets }
  | .hasPathlets island =>
    let _ := hasPathletInformation reading.info.integratedAdvertisement island
    .ok reading
  | .createPathlets island => do
      let (pathlets, _) ← createForIsland bgp.as aspath reading.info.integratedAdvertisement
        reading.pathlets island
      return { reading with pathlets := pathlets }

/-- The islands a router asks for are on the path. -/
def Reader.OnPath : Reader → Prop
  | .hasPathlets island | .createPathlets island => island ∈ aspath.toArray
  | _ => True

/-- Any readers, one after the other, return and leave the advertisement as it is. -/
def ReadersTotal (info : ControlInfo) : Prop :=
  ∀ (readers : List Reader) (pathlets : PathletInternalState),
    (∀ reader ∈ readers, reader.OnPath aspath) →
    ∃ after, readers.foldlM (Reader.apply bgp aspath) ⟨info, pathlets⟩ = .ok after ∧
      after.info = info

/-! ## What the readers take for granted -/

def Pathlet.HasEnds (pathlet : Pathlet) : Prop := 2 ≤ pathlet.vnodes.length

structure Readable (advert : Bytes) : Prop where
  pathCost : ∀ descriptor,
    getProtocolPathGroupDescriptor (IntegratedAdvertisement.codec.parse advert) .wiser =
      some descriptor → (getPathGroupKeyValue descriptor pathCostKey).isSome
  lastWiserNode : ∀ value,
    wiserValue? (IntegratedAdvertisement.codec.parse advert) lastWiserNodeKey = some value →
      ((readInteger value).bind checkInt).isSome
  graph : hasPathletInformation advert bgp.islandId → (islandGraph advert bgp.islandId).isSome
  merged : ∀ graph, islandGraph advert bgp.islandId = some graph →
    ∀ pathlet ∈ graph.pathlets, pathlet.HasEnds
  created : ∀ island ∈ aspath.toArray, ∀ graph, islandGraph advert island = some graph →
    (∀ pathlet ∈ graph.pathlets, pathlet.HasEnds) ∧ 2 ≤ aspath.toArray.length ∧
      graph.pathlets.length < 256

end

/-! ## Each reader -/

section

variable {advert : Bytes} {bgp : Instance} {aspath : AsPath}

theorem getWiserPathCost_returns_iff :
    Returns (getWiserPathCost advert) ↔ ∀ descriptor,
      getProtocolPathGroupDescriptor (codec.parse advert) .wiser =
        some descriptor → (getPathGroupKeyValue descriptor pathCostKey).isSome := by
  rw [getWiserPathCost]
  cases group : getProtocolPathGroupDescriptor (codec.parse advert) .wiser with
  | none => simp
  | some descriptor => cases key : getPathGroupKeyValue descriptor pathCostKey <;> simp [key]

theorem stoi_returns_iff (text : Bytes) :
    Returns (stoi text) ↔ ((readInteger text).bind checkInt).isSome := by
  rw [stoi]
  cases (readInteger text).bind checkInt <;> simp

theorem getLastWiserNode_returns_iff :
    Returns (getLastWiserNode advert) ↔ ∀ value,
      wiserValue? (codec.parse advert) lastWiserNodeKey = some value →
        ((readInteger value).bind checkInt).isSome := by
  rw [getLastWiserNode, wiserValue?]
  cases group : getProtocolPathGroupDescriptor (codec.parse advert) .wiser with
  | none => simp
  | some descriptor =>
    cases key : getPathGroupKeyValue descriptor lastWiserNodeKey with
    | none => simp [key]
    | some keyValue => simp [key, stoi_returns_iff]

section

variable (state : PathletInternalState)

theorem insertPathletIntoGraph_returns_iff (pathlet : Pathlet) :
    Returns (state.insertPathletIntoGraph pathlet) ↔ pathlet.HasEnds := by
  rw [PathletInternalState.insertPathletIntoGraph, Pathlet.HasEnds]
  split
  next ends => simp [ends]
  next short =>
    match vnodes : pathlet.vnodes with
    | [] => simp
    | [_] => simp
    | primary :: adjacent :: rest => exact absurd vnodes (short primary adjacent rest)

theorem mergePathletInformationIntoGraph_returns_iff (island : UInt32) :
    Returns (mergePathletInformationIntoGraph state advert island) ↔
      (hasPathletInformation advert island → (islandGraph advert island).isSome) ∧
      ∀ graph, islandGraph advert island = some graph → ∀ pathlet ∈ graph.pathlets,
        pathlet.HasEnds := by
  rw [mergePathletInformationIntoGraph, hasPathletInformation, islandGraph]
  cases hop : getProtocolHopDescriptor (codec.parse advert) .pathlets
      island with
  | none => simp
  | some descriptor =>
    cases key : getHopDescriptorKeyValue descriptor pathletGraphKey with
    | none => simp [key]
    | some keyValue =>
      simp [key, returns_foldlM_iff insertPathletIntoGraph_returns_iff]

theorem createPathletToSend_returns_iff (pathlet : Pathlet) :
    Returns (createPathletToSend state pathlet) ↔ pathlet.HasEnds := by
  rw [createPathletToSend]
  rw [MessageCodec.parse_serialize]
  exact returns_map_iff.trans (insertPathletIntoGraph_returns_iff _ _)

theorem createPathletsToSend_returns_iff (pathlets : List Pathlet) :
    Returns (createPathletsToSend state pathlets) ↔ ∀ pathlet ∈ pathlets, pathlet.HasEnds := by
  induction pathlets generalizing state with
  | nil => simp [createPathletsToSend]
  | cons pathlet pathlets induction =>
    have rest : ∀ created : PathletInternalState × Bytes,
        Returns (createPathletsToSend created.1 pathlets >>= fun sent =>
          .ok (sent.1, created.2 :: sent.2)) ↔ ∀ pathlet ∈ pathlets, pathlet.HasEnds := by
      intro created
      rw [returns_map_iff, induction]
    rw [forall_mem_cons, ← createPathletToSend_returns_iff state]
    exact returns_bind_iff fun created _ => rest created

end

theorem length_createPathletsToSend {state after : PathletInternalState} {pathlets : List Pathlet}
    {ips : List Bytes} (returned : createPathletsToSend state pathlets = .ok (after, ips)) :
    ips.length = pathlets.length := by
  induction pathlets generalizing state after ips with
  | nil =>
    cases returned
    rfl
  | cons pathlet pathlets induction =>
    rw [createPathletsToSend, bind_eq_ok] at returned
    rcases returned with ⟨created, _, rest⟩
    rw [bind_eq_ok] at rest
    rcases rest with ⟨sent, sentAll, same⟩
    cases same
    rw [length_cons, length_cons, induction sentAll]

theorem createPathletsFromIA_returns_iff (state : PathletInternalState) (path : List UInt32)
    (island asNum : UInt32) {graph : Pathlets} (found : islandGraph advert island = some graph) :
    Returns (createPathletsFromIA state advert path island asNum) ↔
      (∀ pathlet ∈ graph.pathlets, pathlet.HasEnds) ∧ 2 ≤ path.length := by
  rw [createPathletsFromIA, found]
  refine (returns_bind_iff fun created _ => (?_ : Returns _ ↔ 2 ≤ path.length)).trans ?_
  · by_cases short : path.length < 2
    · simp [Execution.defined, short]
    · rw [if_neg short, getElem?_eq_getElem (by omega), defined_some]
      apply iff_of_true _ (Nat.not_lt.mp short)
      apply returns_map_iff.mpr
      rw [createPathletToSend_returns_iff]
      exact Nat.le_refl 2
  · rw [createPathletsToSend_returns_iff]
    simp [Pathlet.HasEnds, Pathlet.addPathVector]

theorem length_createPathletsFromIA {state after : PathletInternalState} {path : List UInt32}
    {island asNum : UInt32} {graph : Pathlets} {ips : List Bytes}
    (found : islandGraph advert island = some graph)
    (returned : createPathletsFromIA state advert path island asNum = .ok (after, ips)) :
    ips.length = graph.pathlets.length + 1 := by
  rw [createPathletsFromIA, found] at returned
  rw [bind_eq_ok] at returned
  rcases returned with ⟨created, sentAll, rest⟩
  rw [bind_eq_ok] at rest
  rcases rest with ⟨sender, _, rest⟩
  rw [bind_eq_ok] at rest
  rcases rest with ⟨crossing, _, same⟩
  cases same
  rw [length_append, length_createPathletsToSend sentAll, length_map, length_singleton]

theorem createForIsland_returns_iff (asNum : UInt32) (pathlets : PathletInternalState)
    (island : UInt32) :
    Returns (createForIsland asNum aspath advert pathlets island) ↔
      ∀ graph, islandGraph advert island = some graph →
        (∀ pathlet ∈ graph.pathlets, pathlet.HasEnds) ∧ 2 ≤ aspath.toArray.length ∧
          graph.pathlets.length < 256 := by
  rw [createForIsland]
  cases found : islandGraph advert island with
  | none =>
    rw [createPathletsFromIA, found]
    split <;> simp
  | some graph =>
    have present : hasPathletInformation advert island := by
      rw [islandGraph, Option.map_eq_some_iff] at found
      rcases found with ⟨keyValue, key, _⟩
      rw [Option.bind_eq_some_iff] at key
      rcases key with ⟨descriptor, hop, _⟩
      rw [hasPathletInformation, hop]
      rfl
    have collected : ∀ created, createPathletsFromIA pathlets advert aspath.toArray island asNum =
        .ok created → (Returns (do
          let announceIps ← Execution.defined
            (if created.2.length ≤ 256 then some created.2 else none)
          return (created.1, announceIps) : Execution (PathletInternalState × List Bytes)) ↔
          graph.pathlets.length < 256) := by
      intro created returned
      rw [length_createPathletsFromIA found returned]
      apply returns_map_iff.trans
      rw [returns_defined_iff]
      split
      next fits => exact iff_of_true rfl (by omega)
      next full => exact iff_of_false nofun (by omega)
    rw [if_pos present, returns_bind_iff collected, createPathletsFromIA_returns_iff _ _ _ _ found]
    simp [and_assoc]

/-! ## All of them -/

/-- When a reader returns, whatever pathlets the router has. -/
def Reader.Fine (bgp : Instance) (aspath : AsPath) (advert : Bytes) : Reader → Prop
  | .wiserPathCost => Returns (getWiserPathCost advert)
  | .lastWiserNode => Returns (getLastWiserNode advert)
  | .mergePathlets =>
    (hasPathletInformation advert bgp.islandId → (islandGraph advert bgp.islandId).isSome) ∧
    ∀ graph, islandGraph advert bgp.islandId = some graph → ∀ pathlet ∈ graph.pathlets,
      pathlet.HasEnds
  | .hasPathlets _ => True
  | .createPathlets island => ∀ graph, islandGraph advert island = some graph →
      (∀ pathlet ∈ graph.pathlets, pathlet.HasEnds) ∧ 2 ≤ aspath.toArray.length ∧
        graph.pathlets.length < 256

theorem Reader.apply_returns_iff (reading : Reading) (reader : Reader) :
    Returns (reader.apply bgp aspath reading) ↔
      reader.Fine bgp aspath reading.info.integratedAdvertisement := by
  cases reader with
  | wiserPathCost | lastWiserNode => exact returns_map_iff
  | mergePathlets =>
    exact returns_map_iff.trans (mergePathletInformationIntoGraph_returns_iff _ _)
  | hasPathlets island => exact iff_of_true (returns_ok _) trivial
  | createPathlets island => exact returns_map_iff.trans (createForIsland_returns_iff _ _ _)

theorem Reader.apply_info {reading after : Reading} {reader : Reader}
    (returned : reader.apply bgp aspath reading = .ok after) : after.info = reading.info := by
  cases reader with
  | hasPathlets island =>
    cases returned
    rfl
  | _ =>
    rw [Reader.apply, bind_eq_ok] at returned
    rcases returned with ⟨_, _, same⟩
    cases same
    rfl

theorem readers_return {info : ControlInfo} (readers : List Reader)
    (fine : ∀ reader ∈ readers, reader.Fine bgp aspath info.integratedAdvertisement)
    (reading : Reading) (same : reading.info = info) :
    ∃ after, readers.foldlM (Reader.apply bgp aspath) reading = .ok after ∧ after.info = info := by
  induction readers generalizing reading with
  | nil => exact ⟨reading, rfl, same⟩
  | cons reader readers induction =>
    rw [forall_mem_cons] at fine
    have returns : Returns (reader.apply bgp aspath reading) := by
      rw [reader.apply_returns_iff, same]
      exact fine.1
    rcases returns with ⟨middle, applied⟩
    rw [foldlM_cons, applied]
    exact induction fine.2 middle ((Reader.apply_info applied).trans same)

theorem readable_iff_fine :
    Readable bgp aspath advert ↔
      ∀ reader : Reader, reader.OnPath aspath → reader.Fine bgp aspath advert := by
  refine ⟨?_, ?_⟩
  · intro readable reader onPath
    cases reader with
    | wiserPathCost => exact getWiserPathCost_returns_iff.mpr readable.pathCost
    | lastWiserNode => exact getLastWiserNode_returns_iff.mpr readable.lastWiserNode
    | mergePathlets => exact ⟨readable.graph, readable.merged⟩
    | hasPathlets island => trivial
    | createPathlets island => exact readable.created island onPath
  · intro fine
    exact {
      pathCost := getWiserPathCost_returns_iff.mp (fine .wiserPathCost trivial)
      lastWiserNode := getLastWiserNode_returns_iff.mp (fine .lastWiserNode trivial)
      graph := (fine .mergePathlets trivial).1
      merged := (fine .mergePathlets trivial).2
      created := fun island onPath => fine (.createPathlets island) onPath }

end

theorem readersTotal_iff (bgp : Instance) (aspath : AsPath) (info : ControlInfo) :
    ReadersTotal bgp aspath info ↔ Readable bgp aspath info.integratedAdvertisement := by
  rw [readable_iff_fine]
  refine ⟨?_, ?_⟩
  · intro total reader onPath
    rcases total [reader] (.create 0) (by simpa using onPath) with ⟨after, returned, _⟩
    rw [foldlM_cons, bind_eq_ok] at returned
    rcases returned with ⟨middle, applied, _⟩
    exact (reader.apply_returns_iff ⟨info, .create 0⟩).mp ⟨middle, applied⟩
  · intro fine readers pathlets onPath
    exact readers_return readers (fun reader mem => fine reader (onPath reader mem)) _ rfl

/-! ## Advertisements that stop a router -/

theorem not_readersTotal_of_fault {bgp : Instance} {aspath : AsPath} {info : ControlInfo}
    (reader : Reader) (onPath : reader.OnPath aspath)
    (fault : (reader.apply bgp aspath ⟨info, .create 0⟩).fault? ≠ none) :
    ¬ ReadersTotal bgp aspath info := by
  intro total
  rcases total [reader] (.create 0) (by simpa using onPath) with ⟨after, returned, _⟩
  rw [foldlM_cons, bind_eq_ok] at returned
  rcases returned with ⟨middle, applied, _⟩
  rw [applied] at fault
  exact fault rfl

def someRouter : Instance := ⟨65001, 0x0A000001, .pathlets, 1⟩

def pathThrough (ases : List UInt32) : AsPath := [⟨.asSequence, ases⟩]

def wiserAdvert (keyValues : List KeyValue) : ControlInfo :=
  .ofBytes (IntegratedAdvertisement.codec.serialize ⟨[⟨some .wiser, keyValues⟩], []⟩)

def pathletAdvert (keyValues : List KeyValue) : ControlInfo :=
  .ofBytes (IntegratedAdvertisement.codec.serialize ⟨[], [⟨some 1, some .pathlets, keyValues⟩]⟩)

def graphOf (pathlets : List Pathlet) : KeyValue :=
  ⟨some pathletGraphKey, some (Pathlets.codec.serialize ⟨pathlets⟩)⟩

/-- A Wiser group without a cost, a last Wiser node that is no number, an island without a graph,
a pathlet with one end, a graph that breaks off before the size of a pathlet, a path of one AS,
and more pathlets than there are places for. -/
theorem readers_not_total :
    ¬ ReadersTotal someRouter (pathThrough [1, 2]) (wiserAdvert []) ∧
    ¬ ReadersTotal someRouter (pathThrough [1, 2])
      (wiserAdvert [⟨some pathCostKey, none⟩, ⟨some lastWiserNodeKey, some (ascii "none")⟩]) ∧
    ¬ ReadersTotal someRouter (pathThrough [1, 2]) (pathletAdvert []) ∧
    ¬ ReadersTotal someRouter (pathThrough [1, 2])
      (pathletAdvert [graphOf [⟨none, [5], none, [], none⟩]]) ∧
    ¬ ReadersTotal someRouter (pathThrough [1, 2])
      (pathletAdvert [⟨some pathletGraphKey, some [0x0A]⟩]) ∧
    ¬ ReadersTotal someRouter (pathThrough [1]) (pathletAdvert [graphOf []]) ∧
    ¬ ReadersTotal someRouter (pathThrough [1, 2])
      (pathletAdvert [graphOf (List.replicate 256 ⟨none, [5, 6], none, [], none⟩)]) := by
  refine ⟨?_, ?_, ?_, ?_, ?_, ?_, ?_⟩
  · exact not_readersTotal_of_fault .wiserPathCost trivial (by decide +kernel)
  · exact not_readersTotal_of_fault .lastWiserNode trivial (by decide +kernel)
  · exact not_readersTotal_of_fault .mergePathlets trivial (by decide +kernel)
  · exact not_readersTotal_of_fault .mergePathlets trivial (by decide +kernel)
  · exact not_readersTotal_of_fault .mergePathlets trivial (by decide +kernel)
  · exact not_readersTotal_of_fault (.createPathlets 1) mem_cons_self (by decide +kernel)
  · exact not_readersTotal_of_fault (.createPathlets 1) mem_cons_self (by decide +kernel)

end Quagga.Dbgp
