import Quagga.Foundation.Rounding
import Quagga.Dbgp.PathletInternalState

/-!
# Reading and updating integrated advertisements

`integrated_advertisement_functions.cpp`. Every update parses the serialized
advertisement, searches for a descriptor and a key in it, creates what is missing, sets
one value and serializes the result. Single-precision arithmetic is a parameter, `round`,
applied to the exact result of each operation.
-/

namespace Quagga.Dbgp

open Foundation Option IntegratedAdvertisement

variable {value key other : Bytes}

/-! ## Searching -/

/-- The path group descriptor of a protocol, created with the protocol alone. -/
def pathGroupTarget (protocol : Protocol) : Target PathGroupDescriptor where
  matching := fun descriptor => descriptor.protocol = protocol
  blank := ⟨some protocol, []⟩
  matching_blank := by simp [PathGroupDescriptor.protocol]

/-- The hop descriptor of a protocol and island, created with these two alone. -/
def hopTarget (protocol : Protocol) (islandId : UInt32) : Target HopDescriptor where
  matching := fun descriptor => descriptor.protocol = protocol ∧ descriptor.islandId = islandId
  blank := ⟨some islandId, some protocol, []⟩
  matching_blank := by simp [HopDescriptor.protocol, HopDescriptor.islandId]

/-- The value of a key, created with the key alone. -/
def keyTarget (key : Bytes) : Target KeyValue where
  matching := fun keyValue => keyValue.key = key
  blank := ⟨some key, none⟩
  matching_blank := by simp [KeyValue.key]

def pathCostKey : Bytes := ascii "PathCost"

def lastWiserNodeKey : Bytes := ascii "LastWiserNode"

def pathletGraphKey : Bytes := ascii "PathletGraph"

def getProtocolPathGroupDescriptor (advertisement : IntegratedAdvertisement)
    (protocol : Protocol) : Option PathGroupDescriptor :=
  advertisement.pathGroupDescriptors.find? (pathGroupTarget protocol).matching

def getProtocolHopDescriptor (advertisement : IntegratedAdvertisement) (protocol : Protocol)
    (islandId : UInt32) : Option HopDescriptor :=
  advertisement.hopDescriptors.find? (hopTarget protocol islandId).matching

def getPathGroupKeyValue (descriptor : PathGroupDescriptor) (searchKey : Bytes) : Option KeyValue :=
  descriptor.keyValues.find? (keyTarget searchKey).matching

def getHopDescriptorKeyValue (descriptor : HopDescriptor) (searchKey : Bytes) : Option KeyValue :=
  descriptor.keyValues.find? (keyTarget searchKey).matching

def KeyValue.setValue (value : Bytes) (keyValue : KeyValue) : KeyValue :=
  { keyValue with value? := some value }

/-- `GetCreateKeyValueFromPathGroupDesc`, and `set_value` on what it returns. -/
def PathGroupDescriptor.setKeyValue (searchKey value : Bytes)
    (descriptor : PathGroupDescriptor) : PathGroupDescriptor :=
  { descriptor with
    keyValues := upsertFirst (keyTarget searchKey) (.setValue value) descriptor.keyValues }

/-- `GetCreateKeyValueFromHopDesc`, and `set_value` on what it returns. -/
def HopDescriptor.setKeyValue (searchKey value : Bytes) (descriptor : HopDescriptor) :
    HopDescriptor :=
  { descriptor with
    keyValues := upsertFirst (keyTarget searchKey) (.setValue value) descriptor.keyValues }

/-- Find or add the path group of a protocol, then find or add a key and set its value. -/
def IntegratedAdvertisement.setPathGroupValue (protocol : Protocol) (key value : Bytes)
    (advertisement : IntegratedAdvertisement) : IntegratedAdvertisement :=
  { advertisement with
    pathGroupDescriptors := upsertFirst (pathGroupTarget protocol) (.setKeyValue key value)
      advertisement.pathGroupDescriptors }

/-- Find or add the hop descriptor of a protocol and island, then find or add a key and set
its value. -/
def IntegratedAdvertisement.setHopValue (protocol : Protocol) (islandId : UInt32)
    (key value : Bytes) (advertisement : IntegratedAdvertisement) : IntegratedAdvertisement :=
  { advertisement with
    hopDescriptors := upsertFirst (hopTarget protocol islandId) (.setKeyValue key value)
      advertisement.hopDescriptors }

/-! ## Wiser -/

def wiserValue? (advertisement : IntegratedAdvertisement) (key : Bytes) : Option Bytes :=
  ((getProtocolPathGroupDescriptor advertisement .wiser).bind
    (getPathGroupKeyValue · key)).map KeyValue.value

def decodePathCost (value : Bytes) : Int := toInt (PathCost.codec.parse value).pathCost

def encodePathCost (cost : Int) : Bytes := PathCost.codec.serialize ⟨some (ofInt cost)⟩

def checkInt (value : Int) : Option Int :=
  if -2 ^ 31 ≤ value ∧ value < 2 ^ 31 then some value else none

/-- `current_cost * normalization + additive_path_cost`, computed in single precision and
converted to an `int`. -/
def scaleCost (round : ℚ → ℚ) (currentCost : Int) (normalization : ℚ)
    (additivePathCost : Int) : Option Int :=
  checkInt (truncate
    (round (round (round currentCost * normalization) + round additivePathCost)))

def setWiserControlInfo (round : ℚ → ℚ) (serializedAdvert : Bytes) (additivePathCost : Int)
    (normalization : ℚ) : Execution Bytes := do
  let working := IntegratedAdvertisement.codec.parse serializedAdvert
  let currentCost := decodePathCost ((wiserValue? working pathCostKey).getD [])
  let newCost ← Execution.defined (scaleCost round currentCost normalization additivePathCost)
  return IntegratedAdvertisement.codec.serialize
    (working.setPathGroupValue .wiser pathCostKey (encodePathCost newCost))

/-- The key is assumed to be there once the path group is: a missing one is dereferenced. -/
def getWiserPathCost (serializedAdvert : Bytes) : Execution Int :=
  let advertisement := IntegratedAdvertisement.codec.parse serializedAdvert
  match getProtocolPathGroupDescriptor advertisement .wiser with
  | none => .ok (-1)
  | some descriptor =>
    match getPathGroupKeyValue descriptor pathCostKey with
    | none => .error .undefined
    | some keyValue => .ok (decodePathCost keyValue.value)

/-- `std::stoi`, which throws when there is no number or it does not fit an `int`. -/
def stoi (text : Bytes) : Execution Int :=
  match (readInteger text).bind checkInt with
  | some value => .ok value
  | none => .error .exception

def getLastWiserNode (serializedAdvert : Bytes) : Execution Int :=
  let advertisement := IntegratedAdvertisement.codec.parse serializedAdvert
  match getProtocolPathGroupDescriptor advertisement .wiser with
  | none => .ok (-1)
  | some descriptor =>
    match getPathGroupKeyValue descriptor lastWiserNodeKey with
    | none => .ok (-1)
    | some keyValue => stoi keyValue.value

def setLastWiserNode (serializedAdvert : Bytes) (newLastNode : Int) : Bytes :=
  IntegratedAdvertisement.codec.serialize
    ((IntegratedAdvertisement.codec.parse serializedAdvert).setPathGroupValue .wiser
      lastWiserNodeKey (decimal newLastNode))

/-! ## Pathlets -/

def generateExternalPathletControlInfo (state : PathletInternalState) (islandId : UInt32)
    (serializedAdvert : Bytes) : Bytes :=
  IntegratedAdvertisement.codec.serialize
    ((IntegratedAdvertisement.codec.parse serializedAdvert).setHopValue .pathlets islandId
      pathletGraphKey (Pathlets.codec.serialize state.convertGraphToPathlets))

/-- `none` is the null pointer that is returned when the address has no pathlet. The state
changes too: asking for an unknown address records an empty pathlet under it. -/
def generateInternalPathletControlInfo (state : PathletInternalState) (serializedAdvert : Bytes)
    (ipAddress : Bytes) (islandId : UInt32) : Option Bytes × PathletInternalState :=
  let (gotten, state) := state.getPathletToSend ipAddress
  if (Pathlet.codec.serialize gotten).length = 0 then (none, state)
  else
    (some (IntegratedAdvertisement.codec.serialize
      ((IntegratedAdvertisement.codec.parse serializedAdvert).setHopValue .pathlets islandId
        pathletGraphKey (Pathlets.codec.serialize ⟨[gotten]⟩))), state)

def hasPathletInformation (serializedAdvert : Bytes) (islandId : UInt32) : Bool :=
  (getProtocolHopDescriptor (IntegratedAdvertisement.codec.parse serializedAdvert) .pathlets
    islandId).isSome

/-- Insert every pathlet of the island's graph into the router's own graph. A hop
descriptor without a graph is dereferenced like one that has it. -/
def mergePathletInformationIntoGraph (state : PathletInternalState) (serializedAdvert : Bytes)
    (islandId : UInt32) : Execution PathletInternalState :=
  let advertisement := IntegratedAdvertisement.codec.parse serializedAdvert
  match getProtocolHopDescriptor advertisement .pathlets islandId with
  | none => .ok state
  | some descriptor =>
    match getHopDescriptorKeyValue descriptor pathletGraphKey with
    | none => .error .undefined
    | some keyValue =>
      (Pathlets.codec.parse keyValue.value).pathlets.foldlM
        PathletInternalState.insertPathletIntoGraph state

/-! ## What the updates leave to be read -/

theorem getProtocolPathGroupDescriptor_setPathGroupValue (protocol : Protocol) (key value : Bytes)
    (advertisement : IntegratedAdvertisement) :
    getProtocolPathGroupDescriptor (advertisement.setPathGroupValue protocol key value)
        protocol =
      some (((getProtocolPathGroupDescriptor advertisement protocol).getD
        (pathGroupTarget protocol).blank).setKeyValue key value) := by
  apply find?_upsertFirst
  intro descriptor matched
  exact matched

theorem getPathGroupKeyValue_setKeyValue_same (key value : Bytes)
    (descriptor : PathGroupDescriptor) :
    getPathGroupKeyValue (descriptor.setKeyValue key value) key =
      some (((getPathGroupKeyValue descriptor key).getD (keyTarget key).blank).setValue
        value) := by
  apply find?_upsertFirst
  intro keyValue matched
  exact matched

theorem getPathGroupKeyValue_setKeyValue_other (different : other ≠ key) (value : Bytes)
    (descriptor : PathGroupDescriptor) :
    getPathGroupKeyValue (descriptor.setKeyValue key value) other =
      getPathGroupKeyValue descriptor other := by
  apply find?_upsertFirst_other
  intro keyValue matched
  have held : keyValue.key = key := of_decide_eq_true matched
  have absent : ¬ keyValue.key = other := fun equal => different (equal.symm.trans held)
  exact ⟨decide_eq_false absent, decide_eq_false absent⟩

theorem setPathGroupValue_eq_self {protocol : Protocol} {advertisement : IntegratedAdvertisement}
    {descriptor : PathGroupDescriptor} {keyValue : KeyValue}
    (group : getProtocolPathGroupDescriptor advertisement protocol = some descriptor)
    (found : getPathGroupKeyValue descriptor key = some keyValue)
    (same : keyValue.value? = some value) :
    advertisement.setPathGroupValue protocol key value = advertisement := by
  have unchanged : descriptor.setKeyValue key value = descriptor := by
    have valueKept : keyValue.setValue value = keyValue := by simp [KeyValue.setValue, ← same]
    simp [PathGroupDescriptor.setKeyValue, upsertFirst_eq_self found valueKept]
  simp [setPathGroupValue, upsertFirst_eq_self group unchanged]

theorem getProtocolHopDescriptor_setHopValue (protocol : Protocol) (islandId : UInt32)
    (key value : Bytes) (advertisement : IntegratedAdvertisement) :
    getProtocolHopDescriptor (advertisement.setHopValue protocol islandId key value) protocol
        islandId =
      some (((getProtocolHopDescriptor advertisement protocol islandId).getD
        (hopTarget protocol islandId).blank).setKeyValue key value) := by
  apply find?_upsertFirst
  intro descriptor matched
  exact matched

theorem getHopDescriptorKeyValue_setKeyValue_same (key value : Bytes) (descriptor : HopDescriptor) :
    getHopDescriptorKeyValue (descriptor.setKeyValue key value) key =
      some (((getHopDescriptorKeyValue descriptor key).getD (keyTarget key).blank).setValue
        value) := by
  apply find?_upsertFirst
  intro keyValue matched
  exact matched

@[simp] theorem wiserValue?_set_same (key value : Bytes) (advertisement : IntegratedAdvertisement) :
    wiserValue? (advertisement.setPathGroupValue .wiser key value) key = some value := by
  simp [wiserValue?, getProtocolPathGroupDescriptor_setPathGroupValue,
    getPathGroupKeyValue_setKeyValue_same, KeyValue.setValue, KeyValue.value]

theorem wiserValue?_set_other (different : other ≠ key) (value : Bytes)
    (advertisement : IntegratedAdvertisement) :
    wiserValue? (advertisement.setPathGroupValue .wiser key value) other =
      wiserValue? advertisement other := by
  simp only [wiserValue?, getProtocolPathGroupDescriptor_setPathGroupValue, bind_some,
    getPathGroupKeyValue_setKeyValue_other different]
  cases getProtocolPathGroupDescriptor advertisement .wiser <;> rfl

section

variable {advertisement : IntegratedAdvertisement}

theorem wiserValue?_of_absent (absent : getProtocolPathGroupDescriptor advertisement .wiser = none)
    (key : Bytes) : wiserValue? advertisement key = none := by
  simp [wiserValue?, absent]

theorem getWiserPathCost_of_value (present : wiserValue? advertisement pathCostKey = some value) :
    getWiserPathCost (codec.serialize advertisement) = .ok (decodePathCost value) := by
  rcases map_eq_some_iff.mp present with ⟨keyValue, found, rfl⟩
  rcases bind_eq_some_iff.mp found with ⟨descriptor, group, key⟩
  simp [getWiserPathCost, group, key]

theorem getLastWiserNode_of_value
    (present : wiserValue? advertisement lastWiserNodeKey = some value) :
    getLastWiserNode (codec.serialize advertisement) = stoi value := by
  rcases map_eq_some_iff.mp present with ⟨keyValue, found, rfl⟩
  rcases bind_eq_some_iff.mp found with ⟨descriptor, group, key⟩
  simp [getLastWiserNode, group, key]

theorem getWiser_of_absent
    (absent : getProtocolPathGroupDescriptor advertisement .wiser = none) :
    getWiserPathCost (codec.serialize advertisement) = .ok (-1) ∧
      getLastWiserNode (codec.serialize advertisement) = .ok (-1) := by
  simp [getWiserPathCost, getLastWiserNode, absent]

end

theorem toInt_ofInt {value : Int} (fits : -2 ^ 31 ≤ value ∧ value < 2 ^ 31) :
    toInt (ofInt value) = value := by
  simp only [toInt, ofInt, BitVec.toInt_ofInt]
  exact Int.bmod_eq_of_le (by omega) (by omega)

theorem toInt_bounds (value : UInt32) : -2 ^ 31 ≤ toInt value ∧ toInt value < 2 ^ 31 := by
  have lower := value.toBitVec.le_toInt
  have upper := value.toBitVec.toInt_lt
  exact ⟨by simpa [toInt] using lower, by simpa [toInt] using upper⟩

theorem toInt_of_lt {value : UInt32} (small : value.toNat < 2 ^ 31) :
    toInt value = value.toNat := by
  rw [toInt, BitVec.toInt_eq_toNat_of_lt (by simpa using (by omega : 2 * value.toNat < 2 ^ 32))]
  rfl

theorem decodePathCost_encodePathCost {cost : Int} (fits : -2 ^ 31 ≤ cost ∧ cost < 2 ^ 31) :
    decodePathCost (encodePathCost cost) = cost := by
  simp [decodePathCost, encodePathCost, PathCost.pathCost, toInt_ofInt fits]

theorem checkInt_of_fits {value : Int} (fits : -2 ^ 31 ≤ value ∧ value < 2 ^ 31) :
    checkInt value = some value :=
  if_pos fits

theorem stoi_decimal {value : Int} (fits : -2 ^ 31 ≤ value ∧ value < 2 ^ 31) :
    stoi (decimal value) = .ok value := by
  simp [stoi, checkInt_of_fits fits]

end Quagga.Dbgp
