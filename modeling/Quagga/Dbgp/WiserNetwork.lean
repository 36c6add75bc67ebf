import Quagga.Dbgp.Wiser

/-!
# Networks of Wiser routers

Routers originate routes with empty control information, announce what they hold to their
neighbours, and process what arrives in any order. Wiser routers update the control
information, the others keep it as it is. All share one lookup service.
-/

namespace Quagga.Dbgp

open Foundation List Option ControlInfo

variable {info? : Option WiserInfo}

structure WiserNetwork (Router : Type) where
  routerId : Router → UInt32
  localAs : Router → UInt32
  runsWiser : Router → Bool
  config : Router → WiserConfig
  /-- Whether a router receives announcements from another. -/
  adjacent : Router → Router → Bool
  localAs_lt : ∀ router, (localAs router).toNat < 2 ^ 31
  /-- The topology declares a link for every adjacency of a Wiser router. -/
  declared : ∀ receiver sender, runsWiser receiver = true → adjacent receiver sender = true →
    (processWiserTopology (config receiver) (inetNtop (routerId receiver))
      (inetNtop (routerId sender))).isSome = true

structure Announcement (Router : Type) where
  sender : Router
  receiver : Router
  info : ControlInfo

structure NetworkState (Router : Type) where
  service : LookupService
  rib : Router → List ControlInfo
  inFlight : List (Announcement Router)

inductive NetworkEvent (Router : Type) where
  | originate (router : Router)
  /-- Announce the route at a position of the sender's table. -/
  | announce (sender receiver : Router) (position : Nat)
  /-- Deliver the announcement at a position of those in flight. -/
  | receive (position : Nat)

namespace WiserNetwork

variable {Router : Type} [DecidableEq Router] (network : WiserNetwork Router)

def session (receiver sender : Router) : Session :=
  ⟨network.routerId receiver, network.routerId sender, network.localAs receiver⟩

def linkCost (receiver sender : Router) : Int :=
  (network.session receiver sender).linkCost (network.config receiver)

/-- What the receiver makes of an announcement. Counters are exact integers and the
normalization is an exact rational. -/
def process (service : LookupService) (announcement : Announcement Router) :
    Execution (LookupService × ControlInfo) :=
  if network.runsWiser announcement.receiver then
    wiserUpdateControlInfo .exact (network.config announcement.receiver)
      (network.session announcement.receiver announcement.sender) service announcement.info
  else .ok (service, announcement.info)

def store (state : NetworkState Router) (router : Router) (info : ControlInfo) :
    NetworkState Router :=
  { state with rib := Function.update state.rib router (info :: state.rib router) }

def step : StepFunction (NetworkState Router) (NetworkEvent Router) Fault
  | state, .originate router => some (.ok (store state router (.ofBytes [])))
  | state, .announce sender receiver position =>
    if network.adjacent receiver sender then
      (state.rib sender)[position]?.map fun info =>
        .ok { state with inFlight := state.inFlight ++ [⟨sender, receiver, info⟩] }
    else none
  | state, .receive position =>
    state.inFlight[position]?.map fun announcement =>
      (network.process state.service announcement).map fun result =>
        store { state with
          service := result.1
          inFlight := state.inFlight.eraseIdx position } announcement.receiver result.2

def initial (random : Nat → Fin (2 ^ 31)) : NetworkState Router where
  service := ⟨fun _ => none, fun _ _ => none, random⟩
  rib := fun _ => []
  inFlight := []

end WiserNetwork

/-- The control information some router holds or is about to receive. -/
def NetworkState.Holds {Router : Type} (state : NetworkState Router) (info : ControlInfo) :
    Prop :=
  (∃ router, info ∈ state.rib router) ∨ ∃ announcement ∈ state.inFlight, announcement.info = info

def WiserComplete (info : ControlInfo) : Prop :=
  ∀ descriptor ∈ (IntegratedAdvertisement.codec.parse
      info.integratedAdvertisement).pathGroupDescriptors,
    descriptor.protocol = .wiser →
      (getPathGroupKeyValue descriptor pathCostKey).isSome ∧
        (getPathGroupKeyValue descriptor lastWiserNodeKey).isSome

/-! ## Advertisements of a closed network -/

def wiserAdvertisement : Option WiserInfo → IntegratedAdvertisement
  | none => .empty
  | some info => IntegratedAdvertisement.empty.withWiser info

theorem carries_wiserAdvertisement (info? : Option WiserInfo) :
    Carries (wiserAdvertisement info?) info? := by
  cases info? with
  | none => rfl
  | some info => exact carries_withWiser .empty info

theorem withWiser_wiserAdvertisement (info? : Option WiserInfo) (info : WiserInfo) :
    (wiserAdvertisement info?).withWiser info = wiserAdvertisement (some info) := by
  cases info? with
  | none => rfl
  | some previous => rfl

theorem wiserComplete_wiserAdvertisement (info? : Option WiserInfo) :
    WiserComplete (.ofAdvertisement (wiserAdvertisement info?)) := by
  intro descriptor member _
  simp only [ofAdvertisement, ofBytes, MessageCodec.parse_serialize] at member
  cases info? with
  | none => cases member
  | some info =>
    have single : descriptor = ⟨some .wiser,
        [⟨some lastWiserNodeKey, some (decimal info.lastNode)⟩,
          ⟨some pathCostKey, some (encodePathCost info.cost)⟩]⟩ :=
      mem_singleton.mp member
    subst single
    exact ⟨rfl, rfl⟩

/-! ## Runs with positive link costs -/

/-- The cost a Wiser router computes, before it is truncated: the cost it received, scaled
by the two counters if both exist after the received cost is added, plus the link cost. -/
def nextCost (service : LookupService) (localAs linkCost : Int) : Option WiserInfo → ℚ
  | none => linkCost
  | some info =>
    let received := (service.wiserCosts localAs info.lastNode).getD 0 + info.cost
    let neighborReceived? :=
      if info.lastNode = localAs then some received
      else service.wiserCosts info.lastNode localAs
    match neighborReceived? with
    | none => info.cost + linkCost
    | some neighborReceived => info.cost * ((neighborReceived : ℚ) / received) + linkCost

/-- A Wiser router receives over a link of positive cost, and the new path cost fits an
`int`. Other events are not restricted. -/
def WiserNetwork.Regular {Router : Type} (network : WiserNetwork Router)
    (state : NetworkState Router) : NetworkEvent Router → Prop
  | .originate _ => True
  | .announce _ _ _ => True
  | .receive position => ∀ announcement, state.inFlight[position]? = some announcement →
      network.runsWiser announcement.receiver = true →
      1 ≤ network.linkCost announcement.receiver announcement.sender ∧
        ∀ info?, (∀ info ∈ info?, info.InRange) →
          Carries (IntegratedAdvertisement.codec.parse
            announcement.info.integratedAdvertisement) info? →
          nextCost state.service (toInt (network.localAs announcement.receiver))
            (network.linkCost announcement.receiver announcement.sender) info? < 2 ^ 31

/-- What a regular run keeps true of the counters, and of the numbers in advertisements. -/
def PositiveCounters (service : LookupService) : Prop :=
  ∀ as1 as2 cost, service.wiserCosts as1 as2 = some cost → 0 < cost

def WiserInfo.Positive (info : WiserInfo) : Prop := info.InRange ∧ 1 ≤ info.cost

variable {service : LookupService}

theorem getD_counter_nonneg (positive : PositiveCounters service) (as1 as2 : Int) :
    0 ≤ (service.wiserCosts as1 as2).getD 0 := by
  cases counter : service.wiserCosts as1 as2 with
  | none => simp
  | some cost => exact (positive as1 as2 cost counter).le

theorem incrementWiserCosts_positive (positive : PositiveCounters service) (as1 as2 : Int)
    {cost : Int} (costPositive : 0 < cost) :
    PositiveCounters (incrementWiserCosts service as1 as2 cost) := by
  intro other1 other2 value found
  rw [incrementWiserCosts_apply] at found
  split at found
  · have nonneg := getD_counter_nonneg positive as1 as2
    cases found
    omega
  · exact positive other1 other2 value found

theorem counterRatio_exact {neighborReceived received : Int}
    (neighborPositive : 0 < neighborReceived) (positive : 0 < received) :
    counterRatio .exact neighborReceived received = .ok ((neighborReceived : ℚ) / received) := by
  have ratio : (0 : ℚ) < (neighborReceived : ℚ) / received :=
    div_pos (by exact_mod_cast neighborPositive) (by exact_mod_cast positive)
  have nonzero : ¬ (received = 0 ∧ 0 < neighborReceived) := by omega
  have rounded : Arithmetic.exact.round (Arithmetic.exact.round neighborReceived /
      Arithmetic.exact.round received) = (neighborReceived : ℚ) / received := rfl
  simp only [counterRatio, if_neg nonzero, rounded, Execution.require_pos ratio]
  rfl

theorem normalizationFor_exact (positive : PositiveCounters service) (localAs linkCost : Int)
    {info : WiserInfo} (costPositive : 1 ≤ info.cost) :
    ∃ normalization : ℚ, 0 < normalization ∧
      normalizationFor .exact
        (incrementWiserCosts service localAs info.lastNode info.cost) localAs info.lastNode =
          .ok normalization ∧
      nextCost service localAs linkCost (some info) = info.cost * normalization + linkCost := by
  have nonneg := getD_counter_nonneg positive localAs info.lastNode
  have received : 0 < (service.wiserCosts localAs info.lastNode).getD 0 + info.cost := by omega
  have receivedKnown : (service.wiserCosts localAs info.lastNode).getD 0 + info.cost ≠ -1 := by
    omega
  simp only [normalizationFor, retrieveWiserCosts, incrementWiserCosts_apply, nextCost,
    Arithmetic.exact]
  by_cases same : info.lastNode = localAs
  · have ratio := counterRatio_exact received received
    simp only [same, if_true] at received receivedKnown ratio ⊢
    rw [if_neg (by simp [receivedKnown])]
    have quotient : (0 : ℚ) < ((service.wiserCosts localAs localAs).getD 0 + info.cost : Int) := by
      exact_mod_cast received
    exact ⟨_, div_pos quotient quotient, ratio, rfl⟩
  · simp only [same, if_false]
    cases neighbor : service.wiserCosts info.lastNode localAs with
    | none => exact ⟨1, one_pos, by simp, by simp⟩
    | some neighborReceived =>
      have neighborPositive := positive _ _ _ neighbor
      have neighborKnown : neighborReceived ≠ -1 := by omega
      rw [if_neg (by simp [neighborKnown, receivedKnown])]
      exact ⟨_, div_pos (by exact_mod_cast neighborPositive) (by exact_mod_cast received),
        counterRatio_exact neighborPositive received, rfl⟩

theorem scaleCost_exact {currentCost linkCost : Int} {normalization : ℚ}
    (scaled : 0 ≤ (currentCost : ℚ) * normalization) (positive : 1 ≤ linkCost)
    (fits : (currentCost : ℚ) * normalization + linkCost < 2 ^ 31) :
    ∃ cost, scaleCost id currentCost normalization linkCost = some cost ∧
      1 ≤ cost ∧ cost < 2 ^ 31 := by
  have link : (1 : ℚ) ≤ linkCost := by exact_mod_cast positive
  have lower : (1 : ℤ) ≤ ⌊(currentCost : ℚ) * normalization + linkCost⌋ :=
    Int.le_floor.mpr (by push_cast; linarith)
  have upper : ⌊(currentCost : ℚ) * normalization + linkCost⌋ < 2 ^ 31 :=
    Int.floor_lt.mpr (by exact_mod_cast fits)
  refine ⟨⌊(currentCost : ℚ) * normalization + linkCost⌋, ?_, lower, upper⟩
  simp only [scaleCost, id]
  rw [truncate_of_nonneg (by linarith), checkInt_of_fits ⟨by omega, upper⟩]

theorem wiserStep_regular (positive : PositiveCounters service) {localAs linkCost : Int}
    (asRange : 0 ≤ localAs ∧ localAs < 2 ^ 31) (infoPositive : ∀ info ∈ info?, info.Positive)
    (linkPositive : 1 ≤ linkCost) (fits : nextCost service localAs linkCost info? < 2 ^ 31) :
    ∃ service' info, wiserStep .exact service localAs linkCost info? = .ok (service', info) ∧
      PositiveCounters service' ∧ info.Positive := by
  have asInt : (-2 ^ 31 ≤ localAs ∧ localAs < 2 ^ 31) ∧ localAs ≠ -1 := by omega
  cases info? with
  | none =>
    have start : (0 : ℚ) ≤ ((0 : ℤ) : ℚ) * 1 := by simp
    rcases scaleCost_exact start linkPositive (by simpa [nextCost] using fits) with
      ⟨cost, scaled, lower, upper⟩
    have nonneg : 0 ≤ cost := by omega
    refine ⟨service, ⟨localAs, cost⟩, ?_, positive, ⟨asInt, nonneg, upper⟩, lower⟩
    simp [wiserStep, Arithmetic.exact, scaled]
  | some info =>
    rcases infoPositive info rfl with ⟨inRange, costPositive⟩
    rcases normalizationFor_exact positive localAs linkCost costPositive with
      ⟨normalization, normalizationPositive, computed, next⟩
    rw [next] at fits
    have current : (0 : ℚ) ≤ info.cost := by exact_mod_cast (by omega : (0 : ℤ) ≤ info.cost)
    rcases scaleCost_exact (mul_nonneg current normalizationPositive.le) linkPositive fits with
      ⟨cost, scaled, lower, upper⟩
    have nonneg : 0 ≤ cost := by omega
    refine ⟨_, ⟨localAs, cost⟩, ?_, incrementWiserCosts_positive positive localAs
      info.lastNode (by omega : 0 < info.cost), ⟨asInt, nonneg, upper⟩, lower⟩
    simp only [wiserStep, computed]
    simp [Arithmetic.exact, scaled]

def ClosedAdvertisement (info : ControlInfo) : Prop :=
  ∃ info?, info = .ofAdvertisement (wiserAdvertisement info?) ∧
    ∀ wiser ∈ info?, WiserInfo.Positive wiser

structure NetworkInvariant {Router : Type} (state : NetworkState Router) : Prop where
  counters : PositiveCounters state.service
  held : ∀ info, state.Holds info → ClosedAdvertisement info

namespace WiserNetwork

variable {Router : Type} (network : WiserNetwork Router)

theorem process_regular {state : NetworkState Router} (invariant : NetworkInvariant state)
    {position : Nat} {announcement : Announcement Router}
    (arriving : state.inFlight[position]? = some announcement)
    (regular : network.Regular state (.receive position)) :
    ∃ service info, network.process state.service announcement = .ok (service, info) ∧
      PositiveCounters service ∧ ClosedAdvertisement info := by
  have closed : ClosedAdvertisement announcement.info :=
    invariant.held _ (.inr ⟨announcement, mem_of_getElem? arriving, rfl⟩)
  unfold process
  split
  · rename_i runsWiser
    rcases regular announcement arriving runsWiser with ⟨linkPositive, fits⟩
    rcases closed with ⟨info?, written, positive⟩
    have carries := carries_wiserAdvertisement info?
    have inRange : ∀ info ∈ info?, WiserInfo.InRange info :=
      fun info member => (positive info member).1
    have bound := fits info? inRange (by
      rw [written]
      simpa [ofAdvertisement, ofBytes] using carries)
    have asNumber := toInt_of_lt (network.localAs_lt announcement.receiver)
    have asBound := network.localAs_lt announcement.receiver
    rcases wiserStep_regular invariant.counters (by rw [asNumber]; omega) positive linkPositive
      bound with ⟨service, info, stepped, counters, infoPositive⟩
    refine ⟨service, .ofAdvertisement (wiserAdvertisement (some info)), ?_, counters,
      some info, rfl, fun _ member => ?_⟩
    · rw [written, wiserUpdateControlInfo_refines _ _ _ _ carries inRange
        (by have : network.linkCost announcement.receiver announcement.sender ≠ -1 := by omega
            exact this)]
      rw [← withWiser_wiserAdvertisement info? info]
      exact congrArg (Except.map _) stepped
    · cases member
      exact infoPositive
  · exact ⟨state.service, announcement.info, rfl, invariant.counters, closed⟩

theorem initial_invariant (random : Nat → Fin (2 ^ 31)) :
    NetworkInvariant (initial random : NetworkState Router) where
  counters := fun _ _ _ found => nomatch found
  held := by
    intro info holds
    rcases holds with ⟨_, member⟩ | ⟨_, member, _⟩ <;> cases member

variable [DecidableEq Router]

theorem store_invariant {state : NetworkState Router} (invariant : NetworkInvariant state)
    (router : Router) {info : ControlInfo} (closed : ClosedAdvertisement info) :
    NetworkInvariant (store state router info) where
  counters := invariant.counters
  held := by
    intro other holds
    rcases holds with ⟨holder, member⟩ | inFlight
    · by_cases same : holder = router
      · subst same
        simp only [store, Function.update_self, mem_cons] at member
        rcases member with rfl | old
        · exact closed
        · exact invariant.held other (.inl ⟨holder, old⟩)
      · simp only [store, Function.update_of_ne same] at member
        exact invariant.held other (.inl ⟨holder, member⟩)
    · exact invariant.held other (.inr inFlight)

theorem step_regular {state : NetworkState Router} {event : NetworkEvent Router}
    {result : Execution (NetworkState Router)} (invariant : NetworkInvariant state)
    (regular : network.Regular state event) (stepped : network.step state event = some result) :
    ∃ next, result = .ok next ∧ NetworkInvariant next := by
  cases event with
  | originate router =>
    cases stepped
    exact ⟨_, rfl, store_invariant invariant router ⟨none, rfl, nofun⟩⟩
  | announce sender receiver position =>
    simp only [step] at stepped
    split at stepped
    · rcases map_eq_some_iff.mp stepped with ⟨info, found, rfl⟩
      refine ⟨_, rfl, invariant.counters, ?_⟩
      intro other holds
      rcases holds with routers | ⟨announcement, member, rfl⟩
      · exact invariant.held other (.inl routers)
      · rcases mem_append.mp member with old | new
        · exact invariant.held _ (.inr ⟨announcement, old, rfl⟩)
        · cases mem_singleton.mp new
          exact invariant.held info (.inl ⟨sender, mem_of_getElem? found⟩)
    · cases stepped
  | receive position =>
    rcases map_eq_some_iff.mp stepped with ⟨announcement, arriving, rfl⟩
    rcases network.process_regular invariant arriving regular with
      ⟨service, info, returned, counters, closed⟩
    rw [returned]
    refine ⟨_, rfl, store_invariant ⟨counters, ?_⟩ announcement.receiver closed⟩
    intro other holds
    rcases holds with routers | ⟨message, member, rfl⟩
    · exact invariant.held other (.inl routers)
    · exact invariant.held _ (.inr ⟨message, mem_of_mem_eraseIdx member, rfl⟩)

/-- In every run over positive link costs in which no path cost overflows, Wiser path
groups are complete and no update stops. -/
theorem regular_run_sound (random : Nat → Fin (2 ^ 31)) (events : List (NetworkEvent Router))
    (state : NetworkState Router)
    (run : Guarded network.step network.Regular (initial random) events state) :
    (∀ info, state.Holds info → WiserComplete info) ∧
      ∀ event, network.Regular state event → ∀ fault,
        network.step state event ≠ some (.error fault) := by
  have invariant : NetworkInvariant state := by
    apply run.invariant _ (initial_invariant random)
    intro state event next invariant regular stepped
    rcases network.step_regular invariant regular stepped with ⟨_, same, kept⟩
    cases same
    exact kept
  refine ⟨?_, ?_⟩
  · intro info holds
    rcases invariant.held info holds with ⟨info?, rfl, _⟩
    exact wiserComplete_wiserAdvertisement info?
  · intro event regular fault faulted
    rcases network.step_regular invariant regular faulted with ⟨_, same, _⟩
    cases same

end WiserNetwork

/-! ## A line of four routers -/

def lineNetwork (cost : UInt64) : WiserNetwork (Fin 4) where
  routerId := fun router => UInt32.ofNat router
  localAs := fun router => UInt32.ofNat (router + 1)
  runsWiser := fun router => router = 1 ∨ router = 2
  config := fun _ => ⟨some [⟨inetNtop 1, [⟨inetNtop 0, cost⟩, ⟨inetNtop 2, cost⟩]⟩,
    ⟨inetNtop 2, [⟨inetNtop 3, cost⟩]⟩]⟩
  adjacent := fun receiver sender =>
    receiver.val + 1 = sender.val ∨ sender.val + 1 = receiver.val
  localAs_lt := by decide
  declared := by
    intro receiver sender _ adjacent
    fin_cases receiver <;> fin_cases sender <;> first | rfl | cases adjacent

def crossingEvents : List (NetworkEvent (Fin 4)) :=
  [.originate 0, .announce 0 1 0, .receive 0, .announce 1 2 0, .receive 0,
    .originate 3, .announce 3 2 0, .receive 0, .announce 2 1 0]

def carriedInfo (advertisement : IntegratedAdvertisement) : Option WiserInfo := do
  let lastNode ← (wiserValue? advertisement lastWiserNodeKey).bind readInteger
  let cost ← (wiserValue? advertisement pathCostKey).map decodePathCost
  return ⟨lastNode, cost⟩

theorem Carries.eq_carriedInfo {advertisement : IntegratedAdvertisement}
    (carries : Carries advertisement info?) (inRange : ∀ info ∈ info?, info.InRange) :
    info? = carriedInfo advertisement := by
  cases info? with
  | none => simp [carriedInfo, wiserValue?_of_absent carries]
  | some info =>
    have range := (inRange info rfl).2
    simp [carriedInfo, carries.1, carries.2,
      decodePathCost_encodePathCost ⟨by omega, range.2⟩]

/-- `Regular`, with the numbers that the advertisement carries computed. -/
def WiserNetwork.isRegular {Router : Type} (network : WiserNetwork Router)
    (state : NetworkState Router) : NetworkEvent Router → Bool
  | .receive position => state.inFlight[position]?.all fun announcement =>
      1 ≤ network.linkCost announcement.receiver announcement.sender ∧
        nextCost state.service (toInt (network.localAs announcement.receiver))
          (network.linkCost announcement.receiver announcement.sender)
          (carriedInfo (IntegratedAdvertisement.codec.parse
            announcement.info.integratedAdvertisement)) < 2 ^ 31
  | _ => true

theorem WiserNetwork.regular_of_isRegular {Router : Type} (network : WiserNetwork Router)
    (state : NetworkState Router) (event : NetworkEvent Router)
    (isRegular : network.isRegular state event = true) : network.Regular state event := by
  cases event with
  | originate router => trivial
  | announce sender receiver position => trivial
  | receive position =>
    intro announcement arriving _
    simp only [WiserNetwork.isRegular, arriving, Option.all_some, decide_eq_true_eq] at isRegular
    refine ⟨isRegular.1, ?_⟩
    intro info? inRange carries
    rw [carries.eq_carriedInfo inRange]
    exact isRegular.2

/-- Over links of cost one, routes cross the two Wiser routers in both directions. -/
theorem unitCost_run_sound :
    ∃ state, Guarded (lineNetwork 1).step (lineNetwork 1).Regular
        (WiserNetwork.initial fun _ => 0) (crossingEvents ++ [.receive 0]) state ∧
      (∀ info, state.Holds info → WiserComplete info) ∧
      ∀ event, (lineNetwork 1).Regular state event → ∀ fault,
        (lineNetwork 1).step state event ≠ some (.error fault) := by
  have executed : (execute (fun state event =>
      if (lineNetwork 1).isRegular state event = true then (lineNetwork 1).step state event
      else none) (WiserNetwork.initial fun _ => 0) (crossingEvents ++ [.receive 0])).isSome =
        true := by
    decide +kernel
  rcases isSome_iff_exists.mp executed with ⟨state, run⟩
  have guarded := (guarded_of_execute run).mono (lineNetwork 1).regular_of_isRegular
  exact ⟨state, guarded, (lineNetwork 1).regular_run_sound (fun _ => 0) _ state guarded⟩

/-- Over links of cost zero the counters are zero, and so is every ratio of them. -/
theorem zeroCost_trips_assertion :
    ∃ state, Transitions (lineNetwork 0).step (WiserNetwork.initial fun _ => 0)
        crossingEvents state ∧
      (lineNetwork 0).step state (.receive 0) =
        some (.error (.assertion .normalizationPositive)) := by
  have trips : (execute (lineNetwork 0).step (WiserNetwork.initial fun _ => 0)
      crossingEvents).bind (faultOf (lineNetwork 0).step · (.receive 0)) =
        some (.assertion .normalizationPositive) := by
    decide +kernel
  rcases bind_eq_some_iff.mp trips with ⟨state, executed, faults⟩
  exact ⟨state, transitions_of_execute executed, step_of_faultOf faults⟩

end Quagga.Dbgp
