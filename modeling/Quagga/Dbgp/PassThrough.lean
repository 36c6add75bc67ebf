import Quagga.Dbgp.AdvertisementFunctions

/-!
# Foreign control information passes through

A router that updates its own protocol's part of an integrated advertisement must carry
everything else unchanged. `PassThrough` says what "everything else" is, at three levels:
the descriptors of the advertisement, the key-values of a descriptor that is edited, and
the key of a key-value that is set.
-/

namespace Quagga.Dbgp

open Foundation MessageCodec

def SameKey (before after : KeyValue) : Prop := after.key? = before.key?

def KeyTargeted (keys : List Bytes) (target : Target KeyValue) : Prop :=
  ∃ key ∈ keys, target = keyTarget key

def PathGroupEdit (keys : List Bytes) (before after : PathGroupDescriptor) : Prop :=
  after.protocol? = before.protocol? ∧
    Frame (KeyTargeted keys) SameKey before.keyValues after.keyValues

def HopEdit (keys : List Bytes) (before after : HopDescriptor) : Prop :=
  after.protocol? = before.protocol? ∧ after.islandId? = before.islandId? ∧
    Frame (KeyTargeted keys) SameKey before.keyValues after.keyValues

def WiserTargeted (target : Target PathGroupDescriptor) : Prop := target = pathGroupTarget .wiser

def PathletsTargeted (islands : List UInt32) (target : Target HopDescriptor) : Prop :=
  ∃ islandId ∈ islands, target = hopTarget .pathlets islandId

/-- What updates for Wiser and for the pathlets of some islands may do to an
advertisement. -/
structure PassThrough (islands : List UInt32) (before after : IntegratedAdvertisement) :
    Prop where
  pathGroups : Frame WiserTargeted (PathGroupEdit [pathCostKey, lastWiserNodeKey])
    before.pathGroupDescriptors after.pathGroupDescriptors
  hops : Frame (PathletsTargeted islands) (HopEdit [pathletGraphKey])
    before.hopDescriptors after.hopDescriptors

theorem keyEdit_isEdit (keys : List Bytes) : IsEdit (KeyTargeted keys) SameKey where
  refl := fun _ => rfl
  trans := fun first second => second.trans first
  matching_eq := by
    rintro _ before after ⟨key, _, rfl⟩ same
    have equal : after.key = before.key := congrArg (Option.getD · []) same
    simp [keyTarget, equal]
  separate := by
    rintro _ _ ⟨key, _, rfl⟩ ⟨other, _, rfl⟩ matched
    have equal : other = key := of_decide_eq_true matched
    rw [equal]

theorem pathGroupEdit_isEdit (keys : List Bytes) :
    IsEdit WiserTargeted (PathGroupEdit keys) where
  refl := fun _ => ⟨rfl, .refl _⟩
  trans := fun first second =>
    ⟨second.1.trans first.1, first.2.trans (keyEdit_isEdit keys) second.2⟩
  matching_eq := by
    rintro _ before after rfl ⟨same, _⟩
    have equal : after.protocol = before.protocol := congrArg (Option.getD · Protocol.unknown) same
    simp [pathGroupTarget, equal]
  separate := by
    rintro _ _ rfl rfl _
    rfl

theorem hopEdit_isEdit (islands : List UInt32) (keys : List Bytes) :
    IsEdit (PathletsTargeted islands) (HopEdit keys) where
  refl := fun _ => ⟨rfl, rfl, .refl _⟩
  trans := fun first second =>
    ⟨second.1.trans first.1, second.2.1.trans first.2.1,
      first.2.2.trans (keyEdit_isEdit keys) second.2.2⟩
  matching_eq := by
    rintro _ before after ⟨islandId, _, rfl⟩ ⟨sameProtocol, sameIsland, _⟩
    have protocol : after.protocol = before.protocol :=
      congrArg (Option.getD · Protocol.unknown) sameProtocol
    have island : after.islandId = before.islandId := congrArg (Option.getD · 0) sameIsland
    simp [hopTarget, protocol, island]
  separate := by
    rintro _ _ ⟨islandId, _, rfl⟩ ⟨other, _, rfl⟩ matched
    have equal : other = islandId := (of_decide_eq_true matched).2
    rw [equal]

theorem PassThrough.refl (islands : List UInt32) (advertisement : IntegratedAdvertisement) :
    PassThrough islands advertisement advertisement :=
  ⟨.refl _, .refl _⟩

variable {islands : List UInt32}

theorem PassThrough.trans {before middle after : IntegratedAdvertisement}
    (first : PassThrough islands before middle) (second : PassThrough islands middle after) :
    PassThrough islands before after :=
  ⟨first.pathGroups.trans (pathGroupEdit_isEdit _) second.pathGroups,
    first.hops.trans (hopEdit_isEdit islands _) second.hops⟩

/-! ## Each update -/

theorem keyValues_frame {keys : List Bytes} {key : Bytes} (member : key ∈ keys) (value : Bytes)
    (keyValues : List KeyValue) :
    Frame (KeyTargeted keys) SameKey keyValues
      (upsertFirst (keyTarget key) (.setValue value) keyValues) := by
  have targeted : KeyTargeted keys (keyTarget key) := ⟨key, member, rfl⟩
  apply Frame.of_upsertFirst targeted
  intro keyValue
  rfl

theorem setPathGroupValue_passThrough (islands : List UInt32) {key : Bytes}
    (member : key ∈ [pathCostKey, lastWiserNodeKey]) (value : Bytes)
    (advertisement : IntegratedAdvertisement) :
    PassThrough islands advertisement
      (advertisement.setPathGroupValue .wiser key value) where
  pathGroups := by
    have targeted : WiserTargeted (pathGroupTarget .wiser) := rfl
    apply Frame.of_upsertFirst targeted
    intro descriptor
    exact ⟨rfl, keyValues_frame member value descriptor.keyValues⟩
  hops := .refl _

theorem setHopValue_passThrough {islandId : UInt32} (member : islandId ∈ islands) (value : Bytes)
    (advertisement : IntegratedAdvertisement) :
    PassThrough islands advertisement
      (advertisement.setHopValue .pathlets islandId pathletGraphKey value) where
  pathGroups := .refl _
  hops := by
    have targeted : PathletsTargeted islands (hopTarget .pathlets islandId) :=
      ⟨islandId, member, rfl⟩
    apply Frame.of_upsertFirst targeted
    intro descriptor
    exact ⟨rfl, rfl, keyValues_frame (by simp) value descriptor.keyValues⟩

/-- The four functions that update an advertisement, with their arguments. The pathlet
state is an argument as well, so that it may be a different one at every call. -/
inductive AdvertisementUpdate where
  | setWiserControlInfo (round : ℚ → ℚ) (additivePathCost : Int) (normalization : ℚ)
  | setLastWiserNode (newLastNode : Int)
  | generateInternalPathletControlInfo (state : PathletInternalState) (ipAddress : Bytes)
      (islandId : UInt32)
  | generateExternalPathletControlInfo (state : PathletInternalState) (islandId : UInt32)

namespace AdvertisementUpdate

def apply (serializedAdvert : Bytes) : AdvertisementUpdate → Option Bytes
  | setWiserControlInfo round additivePathCost normalization =>
    (Dbgp.setWiserControlInfo round serializedAdvert additivePathCost normalization).toOption
  | setLastWiserNode newLastNode => some (Dbgp.setLastWiserNode serializedAdvert newLastNode)
  | generateInternalPathletControlInfo state ipAddress islandId =>
    (Dbgp.generateInternalPathletControlInfo state serializedAdvert ipAddress islandId).1
  | generateExternalPathletControlInfo state islandId =>
    some (Dbgp.generateExternalPathletControlInfo state islandId serializedAdvert)

def applyAll (serializedAdvert : Bytes) (updates : List AdvertisementUpdate) : Option Bytes :=
  updates.foldlM apply serializedAdvert

def island? : AdvertisementUpdate → Option UInt32
  | setWiserControlInfo .. => none
  | setLastWiserNode .. => none
  | generateInternalPathletControlInfo _ _ islandId => some islandId
  | generateExternalPathletControlInfo _ islandId => some islandId

theorem apply_passThrough (update : AdvertisementUpdate)
    (known : ∀ islandId, update.island? = some islandId → islandId ∈ islands)
    (before : IntegratedAdvertisement) {result : Bytes}
    (returned : update.apply (IntegratedAdvertisement.codec.serialize before) = some result) :
    ∃ after, result = IntegratedAdvertisement.codec.serialize after ∧
      PassThrough islands before after := by
  cases update with
  | setWiserControlInfo round additivePathCost normalization =>
    simp only [apply, Dbgp.setWiserControlInfo, parse_serialize] at returned
    cases scaled : scaleCost round
        (decodePathCost ((wiserValue? before pathCostKey).getD [])) normalization
        additivePathCost with
    | none =>
      rw [scaled] at returned
      exact absurd returned (by simp [Execution.defined, Except.toOption])
    | some newCost =>
      rw [scaled] at returned
      refine ⟨_, (Option.some.inj returned).symm, ?_⟩
      exact setPathGroupValue_passThrough islands (by simp) _ before
  | setLastWiserNode newLastNode =>
    simp only [apply, Dbgp.setLastWiserNode, parse_serialize, Option.some.injEq] at returned
    exact ⟨_, returned.symm, setPathGroupValue_passThrough islands (by simp) _ before⟩
  | generateInternalPathletControlInfo state ipAddress islandId =>
    simp only [apply, Dbgp.generateInternalPathletControlInfo, parse_serialize] at returned
    split at returned
    · exact absurd returned (by simp)
    · refine ⟨_, (Option.some.inj returned).symm, ?_⟩
      exact setHopValue_passThrough (known islandId rfl) _ before
  | generateExternalPathletControlInfo state islandId =>
    simp only [apply, Dbgp.generateExternalPathletControlInfo, parse_serialize,
      Option.some.injEq] at returned
    exact ⟨_, returned.symm, setHopValue_passThrough (known islandId rfl) _ before⟩

/-- Any sequence of updates passes foreign control information through. -/
theorem applyAll_passThrough (updates : List AdvertisementUpdate) (before : IntegratedAdvertisement)
    (result : Bytes)
    (returned : applyAll (IntegratedAdvertisement.codec.serialize before) updates = some result) :
    PassThrough (updates.filterMap island?) before
      (IntegratedAdvertisement.codec.parse result) := by
  -- The islands are fixed before the induction: every update keeps to the islands of the
  -- whole sequence.
  have run : ∀ islands : List UInt32, (∀ update ∈ updates, ∀ islandId,
      update.island? = some islandId → islandId ∈ islands) →
      ∃ after, result = IntegratedAdvertisement.codec.serialize after ∧
        PassThrough islands before after := by
    intro islands known
    induction updates generalizing before with
    | nil => exact ⟨before, (Option.some.inj returned).symm, .refl islands before⟩
    | cons update updates induction =>
      rcases Option.bind_eq_some_iff.mp returned with ⟨next, step, rest⟩
      rcases apply_passThrough update (known update (by simp)) before step with
        ⟨middle, rfl, first⟩
      rcases induction middle rest (fun later member => known later (by simp [member])) with
        ⟨after, equal, second⟩
      exact ⟨after, equal, first.trans second⟩
  rcases run (updates.filterMap island?)
      (fun update member islandId island => List.mem_filterMap.mpr ⟨update, member, island⟩)
    with ⟨after, rfl, frame⟩
  rwa [MessageCodec.parse_serialize]

def foreignAdvertisement : IntegratedAdvertisement where
  pathGroupDescriptors :=
    [⟨some .benchmark, [⟨some (ascii "Bytes"), some [0]⟩]⟩, ⟨some .wiser, []⟩,
      ⟨some .wiser, [⟨some pathCostKey, some (encodePathCost 9)⟩]⟩]
  hopDescriptors := [⟨some 4, some .pathlets, []⟩]

theorem applyAll_passThrough_foreign :
    ∃ result, applyAll (IntegratedAdvertisement.codec.serialize foreignAdvertisement)
        [.setLastWiserNode 7, .setWiserControlInfo id 5 1,
          .generateExternalPathletControlInfo (.create 0) 3] = some result ∧
      PassThrough [3] foreignAdvertisement (IntegratedAdvertisement.codec.parse result) := by
  have returns : (applyAll (IntegratedAdvertisement.codec.serialize foreignAdvertisement)
      [.setLastWiserNode 7, .setWiserControlInfo id 5 1,
        .generateExternalPathletControlInfo (.create 0) 3]).isSome = true := by
    decide +kernel
  rcases Option.isSome_iff_exists.mp returns with ⟨result, returned⟩
  exact ⟨result, returned, applyAll_passThrough _ foreignAdvertisement result returned⟩

end AdvertisementUpdate

end Quagga.Dbgp
