import Quagga.Dbgp.Lookup
import Quagga.Dbgp.PassThrough

/-!
# Wiser

`wiser_config.cc` and `wiser.c`. A Wiser router adds the cost of the link an advertisement
came in on, after scaling the cost it carries by the ratio of two counters in the lookup
service: what the neighbour has received from this router, over what this router has
received from the neighbour.
-/

namespace Quagga.Dbgp

open Foundation Execution Option IntegratedAdvertisement ControlInfo

/-! ## Link costs -/

structure Link where
  adjacentNode : Bytes
  linkCost : UInt64
deriving Repr, DecidableEq

structure NodeLink where
  primaryNode : Bytes
  links : List Link
deriving Repr, DecidableEq

structure WiserConfig where
  topology? : Option (List NodeLink)
deriving Repr, DecidableEq

/-- `wiser_link_costs_`, from one end of a link to the other. -/
abbrev LinkCosts := Bytes → Bytes → Option UInt64

/-- `insert` on the inner map keeps an entry that is already there. -/
def LinkCosts.insert (ip1 ip2 : Bytes) (cost : UInt64) (costs : LinkCosts) : LinkCosts :=
  match costs ip1 ip2 with
  | some _ => costs
  | none => Function.update costs ip1 (Function.update (costs ip1) ip2 (some cost))

/-- Both directions of every link, in the order of the configuration. -/
def processWiserTopology (config : WiserConfig) : LinkCosts :=
  (config.topology?.getD []).foldl
    (fun costs nodeLink => nodeLink.links.foldl
      (fun costs link =>
        (costs.insert nodeLink.primaryNode link.adjacentNode link.linkCost).insert
          link.adjacentNode nodeLink.primaryNode link.linkCost)
      costs)
    (fun _ _ => none)

/-- The cost as an `int`, or `-1` if there is no such link. -/
def getLinkCost (config : WiserConfig) (ip1 ip2 : Bytes) : Int :=
  match processWiserTopology config ip1 ip2 with
  | some cost => toInt cost.toUInt32
  | none => -1

/-! ## The update -/

/-- How numbers are computed: the rounding of single-precision operations, and the
conversion of a stored counter to an `int`. -/
structure Arithmetic where
  round : ℚ → ℚ
  readCounter : Int → Int

def Arithmetic.exact : Arithmetic := ⟨id, id⟩

def Arithmetic.machine : Arithmetic := ⟨binary32, fun counter => toInt (ofInt counter)⟩

structure Session where
  localId : UInt32
  remoteId : UInt32
  localAs : UInt32
deriving Repr, DecidableEq

def Session.linkCost (session : Session) (config : WiserConfig) : Int :=
  getLinkCost config (inetNtop session.localId) (inetNtop session.remoteId)

/-- The ratio of two counters. A quotient by zero is infinite or not a number: an infinite
one passes the assertion and cannot be converted to an `int` afterwards. -/
def counterRatio (arithmetic : Arithmetic) (neighborReceived received : Int) : Execution ℚ :=
  if received = 0 ∧ 0 < neighborReceived then .error .undefined
  else do
    let normalization := arithmetic.round
      (arithmetic.round neighborReceived / arithmetic.round received)
    require (0 < normalization) .normalizationPositive
    return normalization

/-- The normalization for an advertisement last updated by `virtualNeighbor`. -/
def normalizationFor (arithmetic : Arithmetic) (service : LookupService)
    (localAs virtualNeighbor : Int) : Execution ℚ :=
  let received := retrieveWiserCosts arithmetic.readCounter service localAs virtualNeighbor
  let neighborReceived :=
    retrieveWiserCosts arithmetic.readCounter service virtualNeighbor localAs
  if neighborReceived = -1 ∨ received = -1 then .ok 1
  else counterRatio arithmetic neighborReceived received

def computeNormalizationForAdvert (arithmetic : Arithmetic) (service : LookupService)
    (info : ControlInfo) (localAs : Int) : Execution ℚ := do
  let virtualNeighbor ← getLastWiserNode info.integratedAdvertisement
  if virtualNeighbor = -1 then return 1
  else normalizationFor arithmetic service localAs virtualNeighbor

def recordReceivedCost (service : LookupService) (info : ControlInfo) (localAs : Int) :
    Execution LookupService := do
  let currentCost ← getWiserPathCost info.integratedAdvertisement
  if currentCost ≠ -1 then
    let lastWiserNode ← getLastWiserNode info.integratedAdvertisement
    require (lastWiserNode ≠ -1) .lastWiserNodeKnown
    return incrementWiserCosts service localAs lastWiserNode currentCost
  else return service

def wiserUpdateControlInfo (arithmetic : Arithmetic) (config : WiserConfig) (session : Session)
    (service : LookupService) (info : ControlInfo) :
    Execution (LookupService × ControlInfo) := do
  let additiveLinkCost := session.linkCost config
  require (additiveLinkCost ≠ -1) .linkCostKnown
  let localAs := toInt session.localAs
  let service ← recordReceivedCost service info localAs
  let normalization ← computeNormalizationForAdvert arithmetic service info localAs
  let advert := setLastWiserNode info.integratedAdvertisement localAs
  let advert ← setWiserControlInfo arithmetic.round advert additiveLinkCost normalization
  return (service, .ofBytes advert)

/-! ## What the update means

An advertisement tells Wiser who updated it last and at which cost, or nothing. On these
two numbers the update is `wiserStep`; on the bytes of the advertisement it is that step
followed by writing the two numbers back. -/

structure WiserInfo where
  lastNode : Int
  cost : Int
deriving Repr, DecidableEq

/-- Both numbers fit an `int`, and neither can be taken for a missing one. -/
def WiserInfo.InRange (info : WiserInfo) : Prop :=
  ((-2 ^ 31 ≤ info.lastNode ∧ info.lastNode < 2 ^ 31) ∧ info.lastNode ≠ -1) ∧
    0 ≤ info.cost ∧ info.cost < 2 ^ 31

def Carries (advertisement : IntegratedAdvertisement) : Option WiserInfo → Prop
  | none => getProtocolPathGroupDescriptor advertisement .wiser = none
  | some info =>
    wiserValue? advertisement lastWiserNodeKey = some (decimal info.lastNode) ∧
      wiserValue? advertisement pathCostKey = some (encodePathCost info.cost)

def IntegratedAdvertisement.withWiser (advertisement : IntegratedAdvertisement)
    (info : WiserInfo) : IntegratedAdvertisement :=
  (advertisement.setPathGroupValue .wiser lastWiserNodeKey
    (decimal info.lastNode)).setPathGroupValue .wiser pathCostKey (encodePathCost info.cost)

def ControlInfo.ofAdvertisement (advertisement : IntegratedAdvertisement) : ControlInfo :=
  .ofBytes (IntegratedAdvertisement.codec.serialize advertisement)

def wiserStep (arithmetic : Arithmetic) (service : LookupService) (localAs linkCost : Int) :
    Option WiserInfo → Execution (LookupService × WiserInfo)
  | none => do
      let cost ← defined (scaleCost arithmetic.round 0 1 linkCost)
      return (service, ⟨localAs, cost⟩)
  | some info => do
      let service := incrementWiserCosts service localAs info.lastNode info.cost
      let normalization ← normalizationFor arithmetic service localAs info.lastNode
      let cost ← defined
        (scaleCost arithmetic.round info.cost normalization linkCost)
      return (service, ⟨localAs, cost⟩)

theorem pathCostKey_ne_lastWiserNodeKey : pathCostKey ≠ lastWiserNodeKey := by
  decide

section

variable (advertisement : IntegratedAdvertisement) (info : WiserInfo)

theorem carries_withWiser : Carries (advertisement.withWiser info) (some info) := by
  refine ⟨?_, ?_⟩
  · rw [withWiser, wiserValue?_set_other pathCostKey_ne_lastWiserNodeKey.symm, wiserValue?_set_same]
  · rw [withWiser, wiserValue?_set_same]

theorem withWiser_self :
    (advertisement.withWiser info).withWiser info = advertisement.withWiser info := by
  have group := getProtocolPathGroupDescriptor_setPathGroupValue .wiser pathCostKey
    (encodePathCost info.cost)
    (advertisement.setPathGroupValue .wiser lastWiserNodeKey (decimal info.lastNode))
  rw [getProtocolPathGroupDescriptor_setPathGroupValue .wiser lastWiserNodeKey] at group
  have node : (advertisement.withWiser info).setPathGroupValue .wiser lastWiserNodeKey
      (decimal info.lastNode) = advertisement.withWiser info := by
    apply setPathGroupValue_eq_self group
    · rw [getPathGroupKeyValue_setKeyValue_other pathCostKey_ne_lastWiserNodeKey.symm]
      exact getPathGroupKeyValue_setKeyValue_same _ _ _
    · rfl
  have cost : (advertisement.withWiser info).setPathGroupValue .wiser pathCostKey
      (encodePathCost info.cost) = advertisement.withWiser info :=
    setPathGroupValue_eq_self group (getPathGroupKeyValue_setKeyValue_same _ _ _) rfl
  calc (advertisement.withWiser info).withWiser info
      = ((advertisement.withWiser info).setPathGroupValue .wiser lastWiserNodeKey
          (decimal info.lastNode)).setPathGroupValue .wiser pathCostKey
          (encodePathCost info.cost) := rfl
    _ = advertisement.withWiser info := by rw [node, cost]

theorem passThrough_withWiser (islands : List UInt32) :
    PassThrough islands advertisement (advertisement.withWiser info) :=
  (setPathGroupValue_passThrough islands (by simp) _ advertisement).trans
    (setPathGroupValue_passThrough islands (by simp) _ _)

end

def WiserInfo.currentCost (info? : Option WiserInfo) : Int := (info?.map WiserInfo.cost).getD 0

variable {advertisement : IntegratedAdvertisement}

variable {info? : Option WiserInfo}

theorem decodePathCost_of_carries (carries : Carries advertisement info?)
    (inRange : ∀ info ∈ info?, info.InRange) :
    decodePathCost ((wiserValue? advertisement pathCostKey).getD []) =
      WiserInfo.currentCost info? := by
  cases info? with
  | none =>
    rw [wiserValue?_of_absent carries]
    rfl
  | some info =>
    have range := (inRange info rfl).2
    rw [carries.2, getD_some, decodePathCost_encodePathCost ⟨by omega, by omega⟩]
    rfl

theorem setWiser_of_carries (round : ℚ → ℚ) (carries : Carries advertisement info?)
    (inRange : ∀ info ∈ info?, info.InRange) (localAs linkCost : Int) (normalization : ℚ) :
    setWiserControlInfo round
        (setLastWiserNode (codec.serialize advertisement) localAs)
        linkCost normalization =
      (defined (scaleCost round (WiserInfo.currentCost info?) normalization
        linkCost)).map fun cost =>
          codec.serialize (advertisement.withWiser ⟨localAs, cost⟩) := by
  simp only [setWiserControlInfo, setLastWiserNode, MessageCodec.parse_serialize,
    wiserValue?_set_other pathCostKey_ne_lastWiserNodeKey,
    decodePathCost_of_carries carries inRange]
  cases scaleCost round (WiserInfo.currentCost info?) normalization linkCost <;> rfl

theorem checkInt_eq_some {value result : Int} :
    checkInt value = some result ↔ value = result ∧ -2 ^ 31 ≤ value ∧ value < 2 ^ 31 := by
  unfold checkInt
  split
  · rename_i fits
    simp only [Option.some.injEq, fits, and_true]
  · rename_i unfit
    simp only [reduceCtorEq, false_iff, not_and]
    intro _
    exact not_and.mp unfit

theorem wiserUpdateControlInfo_writes {arithmetic : Arithmetic} {config : WiserConfig}
    {session : Session} {service service' : LookupService} {info updated : ControlInfo}
    (update : wiserUpdateControlInfo arithmetic config session service info =
      .ok (service', updated)) :
    session.linkCost config ≠ -1 ∧ ∃ cost, (-2 ^ 31 ≤ cost ∧ cost < 2 ^ 31) ∧
      updated = .ofAdvertisement ((codec.parse
        info.integratedAdvertisement).withWiser ⟨toInt session.localAs, cost⟩) := by
  simp only [wiserUpdateControlInfo, bind_eq_ok, require_eq_ok, pure_eq_ok, setWiserControlInfo,
    setLastWiserNode, MessageCodec.parse_serialize, defined_eq_ok, Except.ok.injEq] at update
  rcases update with ⟨_, known, _, _, normalization, _, _, ⟨cost, scaled, rfl⟩, _, rfl⟩
  rcases checkInt_eq_some.mp scaled with ⟨rfl, fits⟩
  exact ⟨known, _, fits, rfl⟩

theorem wiserUpdateControlInfo_refines (arithmetic : Arithmetic) (config : WiserConfig)
    (session : Session) (service : LookupService) (carries : Carries advertisement info?)
    (inRange : ∀ info ∈ info?, info.InRange) (known : session.linkCost config ≠ -1) :
    wiserUpdateControlInfo arithmetic config session service (.ofAdvertisement advertisement) =
      (wiserStep arithmetic service (toInt session.localAs) (session.linkCost config)
        info?).map fun result =>
          (result.1, .ofAdvertisement (advertisement.withWiser result.2)) := by
  have writes := setWiser_of_carries arithmetic.round carries inRange
  cases info? with
  | none =>
    simp only [wiserUpdateControlInfo, ofAdvertisement, ofBytes, recordReceivedCost,
      computeNormalizationForAdvert, getWiser_of_absent carries, require, if_pos known, writes, WiserInfo.currentCost, wiserStep]
    simp only [bind, Except.bind, pure, Except.pure, map_none, getD_none, if_true]
    cases scaleCost arithmetic.round 0 1 (session.linkCost config) <;> rfl
  | some info =>
    rcases inRange info rfl with ⟨⟨lastRange, lastKnown⟩, costRange⟩
    have cost := getWiserPathCost_of_value carries.2
    have lastNode := getLastWiserNode_of_value carries.1
    rw [decodePathCost_encodePathCost ⟨by omega, by omega⟩] at cost
    rw [stoi_decimal lastRange] at lastNode
    have costKnown : info.cost ≠ -1 := by omega
    simp only [wiserUpdateControlInfo, ofAdvertisement, ofBytes,
      recordReceivedCost, computeNormalizationForAdvert, cost, lastNode, require,
      if_pos known, writes, WiserInfo.currentCost, wiserStep]
    simp only [bind, Except.bind, pure, Except.pure, map_some, getD_some,
      if_pos costKnown, if_pos lastKnown, if_neg lastKnown]
    cases normalizationFor arithmetic
        (incrementWiserCosts service (toInt session.localAs) info.lastNode info.cost)
        (toInt session.localAs) info.lastNode with
    | error fault => rfl
    | ok normalization =>
      dsimp only
      cases scaleCost arithmetic.round info.cost normalization (session.linkCost config) <;>
        rfl

/-- The first update of an advertisement, which is still empty. -/
theorem wiserUpdateControlInfo_empty {arithmetic : Arithmetic} {config : WiserConfig}
    {session : Session} (known : session.linkCost config ≠ -1) {cost : Int}
    (scaled : scaleCost arithmetic.round 0 1 (session.linkCost config) = some cost)
    (service : LookupService) :
    wiserUpdateControlInfo arithmetic config session service (.ofBytes []) =
      .ok (service, .ofAdvertisement (IntegratedAdvertisement.empty.withWiser
        ⟨toInt session.localAs, cost⟩)) := by
  have absent : Carries .empty none := rfl
  have refines := wiserUpdateControlInfo_refines arithmetic config session service absent
    (fun _ member => nomatch member) known
  simp only [wiserStep, scaled] at refines
  exact refines

end Quagga.Dbgp
