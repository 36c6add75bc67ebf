import Quagga.Dbgp.Dispatch

/-!
# Wiser along a path

An advertisement travels over a path of Wiser routers and of routers that only pass its
lookup key on. Each router has a memory of its own; the lookup service is shared. Numbers
are computed as the machine does it.
-/

namespace Quagga.Dbgp

open Foundation Bgp List Option WiserInfo

/-! ## A Wiser router -/

variable {service : LookupService}

theorem wiserHooks_of_resolves {env : Environment} (faithful : env.transport = some)
    {peer : Peer} (wiser : peer.bgp.dbgpProtocol = .wiser) (network : Prefix) {world : World}
    {attr : Attr Nat} {info updated : ControlInfo} (resolves : world.Resolves attr info)
    (update : wiserUpdateControlInfo env.arithmetic env.config.wiser peer.session
      world.service info = .ok (service, updated)) :
    ∃ filtered filteredAttr after attr' pointer,
      dbgpInputFilter env peer network world attr = .ok (filtered, filteredAttr, .notFiltered) ∧
      dbgpUpdateControlInfo env peer network filtered filteredAttr = .ok (after, attr') ∧
      attr'.transit? = some pointer ∧
      after.transits.read pointer = some (.ofKey service.nextKey) ∧
      after.service = service.set service.nextKey updated.integratedAdvertisement := by
  have notBenchmark : ProtocolType.wiser ≠ .benchmark := by decide
  rcases getControlInformation_of_resolves notBenchmark resolves with
    ⟨filtered, filteredAttr, pointer, transit, found, present, read, meaning, same⟩
  have again : filtered.Resolves filteredAttr info := by
    simp only [World.Resolves, present]
    exact ⟨transit, read, same ▸ meaning⟩
  rcases getControlInformation_of_resolves notBenchmark again with
    ⟨world', attr', pointer', transit', found', present', read', meaning', same'⟩
  refine ⟨filtered, filteredAttr, { world' with
      service := service.set service.nextKey updated.integratedAdvertisement
      transits := world'.transits.write pointer' (.ofKey service.nextKey) }, attr', pointer', ?_,
    ?_, present', Heap.read_write_same read' _, rfl⟩
  · simp [dbgpInputFilter, wiser, found, World.isLookupServicePath_of_read read,
      meaning.isLookupServicePath]
  · rw [← same, ← same'] at update
    simp only [dbgpUpdateControlInfo, wiser, found', ok_bind,
      World.isLookupServicePath_of_read read', meaning'.isLookupServicePath, update,
      World.setControlInfo_some faithful]
    rfl

/-! ## Paths -/

structure Neighbour where
  as : UInt32
  localId : UInt32
  remoteId : UInt32
deriving Repr, DecidableEq

/-- A router on the path: its configuration and memory when the route arrives, the other
attributes of the route, and the two neighbours it receives the route from and sends it to. -/
structure Hop where
  config : Configuration
  bgp : Instance
  world : World
  network : Prefix
  attr : Attr Nat
  upstream : Neighbour
  downstream : Neighbour

namespace Hop

variable (hop : Hop)

def environment : Environment := ⟨hop.config, .machine, some⟩

def peer (neighbour : Neighbour) : Peer :=
  ⟨hop.bgp, neighbour.as, neighbour.localId, neighbour.remoteId⟩

def linkCost : Int := (hop.peer hop.upstream).session.linkCost hop.config.wiser

def runsWiser : Bool := hop.bgp.dbgpProtocol = .wiser

def receive (service : LookupService) : Option Bytes → World × Attr Nat
  | none => ({ hop.world with service := service }, { hop.attr with transit? := none })
  | some octets =>
    ({ hop.world with
        service := service
        transits := hop.world.transits.allocate (receivedTransit octets) },
      { hop.attr with transit? := some hop.world.transits.next })

/-- Receive the route with a lookup key or without one, update it, and send it on. -/
def forward (service : LookupService) (message : Option Bytes) :
    Execution (LookupService × Option Bytes) := do
  let (world, attr) := hop.receive service message
  let (world, attr, _) ←
    dbgpInputFilter hop.environment (hop.peer hop.upstream) hop.network world attr
  let (world, attr) ←
    dbgpUpdateControlInfo hop.environment (hop.peer hop.upstream) hop.network world attr
  let (world, attr, _) ←
    dbgpOutputFilter hop.environment (hop.peer hop.downstream) hop.network world attr
  match attr.transit? with
  | none => return (world.service, none)
  | some pointer =>
    let transit ← Execution.defined (world.transits.read pointer)
    let octets ← packetLookupKey transit
    return (world.service, some octets)

end Hop

def forwardAll : List Hop → LookupService → Option Bytes →
    Execution (LookupService × Option Bytes)
  | [], service, message => .ok (service, message)
  | hop :: hops, service, message => do
      let (service, message) ← hop.forward service message
      forwardAll hops service message

/-- What a message says: the advertisement under its key, or nothing at all. -/
def Delivers (service : LookupService) (message : Option Bytes)
    (advertisement : IntegratedAdvertisement) : Prop :=
  match message with
  | none => advertisement = .empty
  | some octets => ∃ key : UInt32, key ≠ dbgpLookupSvcPath ∧ octets = bigEndian 4 key.toNat ∧
      service.values key = some (IntegratedAdvertisement.codec.serialize advertisement)

variable {message : Option Bytes} {advertisement : IntegratedAdvertisement}

theorem Hop.receive_resolves (hop : Hop) (delivers : Delivers service message advertisement) :
    (hop.receive service message).1.Resolves (hop.receive service message).2
      (.ofAdvertisement advertisement) ∧
      (hop.receive service message).1.service = service := by
  cases message with
  | none =>
    cases delivers
    exact ⟨rfl, rfl⟩
  | some octets =>
    rcases delivers with ⟨key, different, rfl, found⟩
    refine ⟨⟨_, Heap.read_allocate_next _, ?_⟩, rfl⟩
    rw [receivedTransit_bigEndian]
    exact .key different found

theorem Hop.forward_baseline (hop : Hop) (baseline : hop.bgp.dbgpProtocol = .baseline ∨
    hop.bgp.dbgpProtocol = .baselineSleeper) (delivers : Delivers service message advertisement) :
    hop.forward service message = .ok (service, message) := by
  match message, delivers with
  | none, _ | some _, ⟨_, _, rfl, _⟩ =>
    rcases baseline with protocol | protocol <;>
      simp [Hop.forward, Hop.receive, dbgpInputFilter, dbgpUpdateControlInfo,
        dbgpOutputFilter, Hop.peer, protocol]

theorem Hop.forward_wiser (hop : Hop) (wiser : hop.bgp.dbgpProtocol = .wiser)
    {service service' : LookupService} {advertisement updated : IntegratedAdvertisement}
    (delivers : Delivers service message advertisement)
    (update : wiserUpdateControlInfo .machine hop.config.wiser
      (hop.peer hop.upstream).session service (.ofAdvertisement advertisement) =
        .ok (service', .ofAdvertisement updated)) :
    ∃ stored message', hop.forward service message = .ok (stored, message') ∧
      Delivers stored message' updated ∧ stored.wiserCosts = service'.wiserCosts := by
  rcases hop.receive_resolves delivers with ⟨resolves, same⟩
  have peerWiser : (hop.peer hop.upstream).bgp.dbgpProtocol = .wiser := wiser
  rw [← same] at update
  rcases wiserHooks_of_resolves (rfl : hop.environment.transport = some) peerWiser hop.network
    resolves update with ⟨_, _, _, _, _, filtered, updates, present, read, stored⟩
  refine ⟨_, some (bigEndian 4 service'.nextKey.toNat), ?_,
    ⟨service'.nextKey, service'.nextKey_ne_svcPath, rfl, LookupService.set_values_same _ _ _⟩,
    rfl⟩
  have receiverWiser : (hop.peer hop.downstream).bgp.dbgpProtocol = .wiser := wiser
  simp [Hop.forward, filtered, updates, dbgpOutputFilter, receiverWiser, present, read, stored,
    ControlInfo.ofAdvertisement, ControlInfo.ofBytes]

/-! ## Costs add up -/

def wiserAses (hops : List Hop) : List Int :=
  (hops.filter Hop.runsWiser).map fun hop => toInt hop.bgp.as

def wiserCost (hops : List Hop) : Int := ((hops.filter Hop.runsWiser).map Hop.linkCost).sum

/-- The lookup service has a counter for what `as1` received from `as2`, or will have one
after an advertisement went over `ases`. -/
def Counted (service : LookupService) (ases : List Int) (as1 as2 : Int) : Prop :=
  (service.wiserCosts as1 as2).isSome ∨ (as1, as2) ∈ ases.tail.zip ases

/-- No two routers count what they received from each other. -/
def Unpaired (service : LookupService) (ases : List Int) : Prop :=
  ∀ as1 as2, Counted service ases as1 as2 → ¬ Counted service ases as2 as1

theorem scaleCost_machine {currentCost linkCost : Int} (currentNonneg : 0 ≤ currentCost)
    (linkNonneg : 0 ≤ linkCost) (small : currentCost + linkCost < 2 ^ 24) :
    scaleCost Arithmetic.machine.round currentCost 1 linkCost = some (currentCost + linkCost) := by
  have current : |currentCost| < 2 ^ 24 := by rw [abs_of_nonneg currentNonneg]; omega
  have link : |linkCost| < 2 ^ 24 := by rw [abs_of_nonneg linkNonneg]; omega
  have sum : |currentCost + linkCost| < 2 ^ 24 := by rw [abs_of_nonneg (by omega)]; omega
  have exactSum := binary32_intCast sum
  push_cast at exactSum
  simp only [scaleCost, Arithmetic.machine, binary32_intCast current, binary32_intCast link,
    mul_one, exactSum]
  rw [← Int.cast_add, truncate_intCast, checkInt_of_fits ⟨by omega, by omega⟩]

variable {info? : Option WiserInfo}

theorem wiserStep_machine {localAs linkCost : Int} {later : List Int}
    (unpaired : Unpaired service ((info?.map lastNode).toList ++ localAs :: later))
    (currentNonneg : 0 ≤ WiserInfo.currentCost info?) (linkNonneg : 0 ≤ linkCost)
    (small : WiserInfo.currentCost info? + linkCost < 2 ^ 24) :
    ∃ service', wiserStep .machine service localAs linkCost info? =
        .ok (service', ⟨localAs, WiserInfo.currentCost info? + linkCost⟩) ∧
      Unpaired service' (localAs :: later) := by
  have scaled := scaleCost_machine currentNonneg linkNonneg small
  cases info? with
  | none =>
    refine ⟨service, ?_, unpaired⟩
    simp only [WiserInfo.currentCost, map_none, getD_none] at scaled
    simp [wiserStep, scaled, WiserInfo.currentCost]
  | some info =>
    simp only [WiserInfo.currentCost, map_some, getD_some] at scaled
    have counted : Counted service (info.lastNode :: localAs :: later) localAs
        info.lastNode := .inr (by simp)
    have absent : ¬ Counted service (info.lastNode :: localAs :: later) info.lastNode
        localAs := unpaired _ _ counted
    have noCounter : service.wiserCosts info.lastNode localAs = none := by
      simpa using fun present => absent (.inl present)
    have different : info.lastNode ≠ localAs := by
      intro equal
      rw [equal] at counted absent
      exact absent counted
    refine ⟨incrementWiserCosts service localAs info.lastNode info.cost, ?_, ?_⟩
    · have neighbor : retrieveWiserCosts Arithmetic.machine.readCounter
          (incrementWiserCosts service localAs info.lastNode info.cost) info.lastNode
          localAs = -1 := by
        simp [retrieveWiserCosts, incrementWiserCosts_apply, different, noCounter]
      simp [wiserStep, normalizationFor, neighbor, scaled, WiserInfo.currentCost]
    · -- a counter of the new service is one of the old, or the one just made
      have weaken : ∀ as1 as2,
          Counted (incrementWiserCosts service localAs info.lastNode info.cost)
            (localAs :: later) as1 as2 →
          Counted service (info.lastNode :: localAs :: later) as1 as2 := by
        intro as1 as2 holds
        rcases holds with present | planned
        · rw [incrementWiserCosts_apply] at present
          split at present
          · rename_i made
            rw [made.1, made.2]
            exact counted
          · exact .inl present
        · exact .inr (mem_cons_of_mem _ planned)
      intro as1 as2 forward backward
      exact unpaired as1 as2 (weaken as1 as2 forward) (weaken as2 as1 backward)

theorem Hop.forward_adds_linkCost (hop : Hop) (wiser : hop.bgp.dbgpProtocol = .wiser)
    (link : 0 ≤ hop.linkCost) {later : List Int} (delivers : Delivers service message advertisement)
    (carries : Carries advertisement info?) (inRange : ∀ info ∈ info?, info.InRange)
    (unpaired : Unpaired service
      ((info?.map lastNode).toList ++ toInt hop.bgp.as :: later))
    (currentNonneg : 0 ≤ WiserInfo.currentCost info?)
    (small : WiserInfo.currentCost info? + hop.linkCost < 2 ^ 24) :
    ∃ service' message', hop.forward service message = .ok (service', message') ∧
      Delivers service' message' (advertisement.withWiser
        ⟨toInt hop.bgp.as, WiserInfo.currentCost info? + hop.linkCost⟩) ∧
      Unpaired service' (toInt hop.bgp.as :: later) := by
  rcases wiserStep_machine unpaired currentNonneg link small with ⟨service', stepped, unpaired'⟩
  have known : (hop.peer hop.upstream).session.linkCost hop.config.wiser ≠ -1 := by
    have : hop.linkCost ≠ -1 := by omega
    exact this
  have refines := wiserUpdateControlInfo_refines .machine hop.config.wiser
    (hop.peer hop.upstream).session service carries inRange known
  have sameStep : wiserStep .machine service (toInt (hop.peer hop.upstream).session.localAs)
      ((hop.peer hop.upstream).session.linkCost hop.config.wiser) info? =
        .ok (service', ⟨toInt hop.bgp.as, WiserInfo.currentCost info? + hop.linkCost⟩) :=
    stepped
  rw [sameStep] at refines
  rcases hop.forward_wiser wiser delivers refines with
    ⟨stored, message', forwarded, delivered, counters⟩
  refine ⟨stored, message', forwarded, delivered, ?_⟩
  simp only [Unpaired, Counted, counters]
  exact unpaired'

theorem wiserAses_cons_wiser {hop : Hop} (wiser : hop.bgp.dbgpProtocol = .wiser) (hops : List Hop) :
    wiserAses (hop :: hops) = toInt hop.bgp.as :: wiserAses hops := by
  simp [wiserAses, Hop.runsWiser, wiser]

theorem wiserCost_cons_wiser {hop : Hop} (wiser : hop.bgp.dbgpProtocol = .wiser) (hops : List Hop) :
    wiserCost (hop :: hops) = hop.linkCost + wiserCost hops := by
  simp [wiserCost, Hop.runsWiser, wiser]

theorem wiserHops_cons_other {hop : Hop} (other : hop.bgp.dbgpProtocol ≠ .wiser) (hops : List Hop) :
    wiserAses (hop :: hops) = wiserAses hops ∧ wiserCost (hop :: hops) = wiserCost hops := by
  simp [wiserAses, wiserCost, Hop.runsWiser, other]

theorem wiserCost_nonneg {hops : List Hop}
    (links : ∀ hop ∈ hops, hop.bgp.dbgpProtocol = .wiser → 0 ≤ hop.linkCost) :
    0 ≤ wiserCost hops := by
  apply sum_nonneg
  rw [List.forall_mem_map]
  intro hop kept
  rcases mem_filter.mp kept with ⟨inPath, runsWiser⟩
  exact links hop inPath (by simpa [Hop.runsWiser] using runsWiser)

theorem forwardAll_carries (hops : List Hop)
    (protocols : ∀ hop ∈ hops, hop.bgp.dbgpProtocol = .wiser ∨
      hop.bgp.dbgpProtocol = .baseline ∨ hop.bgp.dbgpProtocol = .baselineSleeper)
    (links : ∀ hop ∈ hops, hop.bgp.dbgpProtocol = .wiser → 0 ≤ hop.linkCost)
    (delivers : Delivers service message advertisement) (carries : Carries advertisement info?)
    (nodes : ∀ info ∈ info?, -2 ^ 31 ≤ info.lastNode ∧ info.lastNode < 2 ^ 31)
    (known : ∀ as ∈ ((info?.map lastNode).toList ++ wiserAses hops).dropLast, as ≠ -1)
    (unpaired : Unpaired service ((info?.map lastNode).toList ++ wiserAses hops))
    (currentNonneg : 0 ≤ WiserInfo.currentCost info?)
    (small : WiserInfo.currentCost info? + wiserCost hops < 2 ^ 24) :
    ∃ service' message' advertisement' info',
      forwardAll hops service message = .ok (service', message') ∧
      Delivers service' message' advertisement' ∧ Carries advertisement' info' ∧
      PassThrough [] advertisement advertisement' ∧
      WiserInfo.currentCost info' = WiserInfo.currentCost info? + wiserCost hops ∧
      info'.map lastNode = ((info?.map lastNode).toList ++ wiserAses hops).getLast? := by
  induction hops generalizing service message advertisement info? with
  | nil =>
    refine ⟨service, message, advertisement, info?, rfl, delivers, carries, .refl _ _, ?_, ?_⟩
    · simp [wiserCost]
    · cases info? <;> simp [wiserAses]
  | cons hop hops induction =>
    rcases List.forall_mem_cons.mp protocols with ⟨protocol, laterProtocols⟩
    rcases List.forall_mem_cons.mp links with ⟨link, laterLinks⟩
    rcases protocol with wiser | baseline
    · have linkNonneg := link wiser
      have restNonneg := wiserCost_nonneg laterLinks
      rw [wiserAses_cons_wiser wiser] at unpaired known
      rw [wiserCost_cons_wiser wiser] at small
      have inRange : ∀ info ∈ info?, info.InRange := by
        intro info member
        cases member
        have lastKnown : info.lastNode ≠ -1 := known _ (by simp)
        simp only [WiserInfo.currentCost, map_some, getD_some] at small currentNonneg
        exact ⟨⟨nodes info rfl, lastKnown⟩, currentNonneg, by omega⟩
      rcases hop.forward_adds_linkCost wiser linkNonneg delivers carries inRange unpaired
        currentNonneg (by omega) with ⟨service', message', forwarded, delivered, unpaired'⟩
      -- the rest of the path starts with what this router wrote
      rcases induction laterProtocols laterLinks delivered (carries_withWiser _ _)
          (by intro info member; cases member; exact toInt_bounds _)
          (by
            intro as member
            apply known as
            rw [dropLast_append_cons]
            exact mem_append_right _ member)
          unpaired' (by simp [WiserInfo.currentCost] at currentNonneg ⊢; omega)
          (by simp [WiserInfo.currentCost] at small ⊢; omega) with
        ⟨service'', message'', advertisement'', info'', rest, delivers'', carries'', passes,
          costs, last⟩
      refine ⟨service'', message'', advertisement'', info'', ?_, delivers'', carries'',
        (passThrough_withWiser advertisement _ []).trans passes, ?_, ?_⟩
      · simp [forwardAll, forwarded, rest]
      · rw [costs, wiserCost_cons_wiser wiser]
        simp [WiserInfo.currentCost]
        omega
      · rw [last, wiserAses_cons_wiser wiser, getLast?_append_cons]
        rfl
    · have notWiser : hop.bgp.dbgpProtocol ≠ .wiser := by
        rcases baseline with protocol | protocol <;> simp [protocol]
      rcases wiserHops_cons_other notWiser hops with ⟨sameAses, sameCost⟩
      rw [sameAses] at known unpaired ⊢
      rw [sameCost] at small ⊢
      rcases induction laterProtocols laterLinks delivers carries nodes known unpaired
        currentNonneg small with
        ⟨service'', message'', advertisement'', info'', rest, delivers'', carries'', passes,
          costs, last⟩
      refine ⟨service'', message'', advertisement'', info'', ?_, delivers'', carries'',
        passes, costs, last⟩
      simp [forwardAll, hop.forward_baseline baseline delivers, rest]

/-- Along every path of Wiser and baseline routers on which no normalization takes place,
the path cost is the sum of the link costs of the Wiser routers, and the last of them is
named. Everything else in the advertisement is as the first router sent it. An AS number
that reads as `-1` may only be that of the last Wiser router. -/
theorem forwardAll_path_cost (hops : List Hop)
    (protocols : ∀ hop ∈ hops, hop.bgp.dbgpProtocol = .wiser ∨
      hop.bgp.dbgpProtocol = .baseline ∨ hop.bgp.dbgpProtocol = .baselineSleeper)
    (links : ∀ hop ∈ hops, hop.bgp.dbgpProtocol = .wiser → 0 ≤ hop.linkCost)
    (known : ∀ as ∈ (wiserAses hops).dropLast, as ≠ -1) (service : LookupService)
    (message : Option Bytes) (advertisement : IntegratedAdvertisement)
    (delivers : Delivers service message advertisement)
    (absent : getProtocolPathGroupDescriptor advertisement .wiser = none)
    (unpaired : Unpaired service (wiserAses hops)) (small : wiserCost hops < 2 ^ 24) :
    ∃ service' message' advertisement',
      forwardAll hops service message = .ok (service', message') ∧
      Delivers service' message' advertisement' ∧
      PassThrough [] advertisement advertisement' ∧
      ∀ last, (wiserAses hops).getLast? = some last →
        getWiserPathCost (IntegratedAdvertisement.codec.serialize advertisement') =
            .ok (wiserCost hops) ∧
          getLastWiserNode (IntegratedAdvertisement.codec.serialize advertisement') = .ok last := by
  have carries : Carries advertisement none := absent
  rcases forwardAll_carries hops protocols links delivers carries (fun _ member => nomatch member)
    known unpaired (Int.le_refl 0) (by simpa [WiserInfo.currentCost] using small) with
    ⟨service', message', advertisement', info', forwarded, delivered, carries', passes, cost, named⟩
  refine ⟨service', message', advertisement', forwarded, delivered, passes, ?_⟩
  intro last lastWiser
  have nonneg := wiserCost_nonneg links
  rw [map_none, toList_none, nil_append, lastWiser] at named
  rcases map_eq_some_iff.mp named with ⟨info, rfl, rfl⟩
  have total : info.cost = wiserCost hops := by
    simpa [WiserInfo.currentCost] using cost
  have nodeRange : -2 ^ 31 ≤ info.lastNode ∧ info.lastNode < 2 ^ 31 := by
    rcases mem_map.mp (mem_of_getLast? lastWiser) with ⟨hop, _, same⟩
    rw [← same]
    exact toInt_bounds _
  refine ⟨?_, ?_⟩
  · rw [getWiserPathCost_of_value carries'.2,
      decodePathCost_encodePathCost ⟨by omega, by omega⟩, total]
  · rw [getLastWiserNode_of_value carries'.1, stoi_decimal nodeRange]

def sampleHop (protocol : ProtocolType) (as : UInt32) (cost : UInt64) : Hop where
  config := ⟨[], 0, ⟨some [⟨inetNtop 2, [⟨inetNtop 1, cost⟩]⟩]⟩, id⟩
  bgp := ⟨as, 2, protocol, 0⟩
  world :=
    ⟨⟨fun _ => none, fun _ _ => none, fun _ => 7⟩, ⟨[]⟩, .create 0, .inLookupservice 0, 0, []⟩
  network := ⟨.ip, 8, [10, 0, 0, 0]⟩
  attr := .zero
  upstream := ⟨0, 2, 1⟩
  downstream := ⟨0, 2, 3⟩

def samplePath : List Hop :=
  [sampleHop .wiser 100 5, sampleHop .baseline 150 0, sampleHop .wiser 200 7]

theorem samplePath_cost :
    ∃ service' message' advertisement',
      forwardAll samplePath ⟨fun _ => none, fun _ _ => none, fun _ => 7⟩ none =
        .ok (service', message') ∧
      Delivers service' message' advertisement' ∧
      PassThrough [] .empty advertisement' ∧
      ∀ last, (wiserAses samplePath).getLast? = some last →
        getWiserPathCost (IntegratedAdvertisement.codec.serialize advertisement') =
            .ok (wiserCost samplePath) ∧
          getLastWiserNode (IntegratedAdvertisement.codec.serialize advertisement') = .ok last := by
  have ases : wiserAses samplePath = [100, 200] := by decide +kernel
  refine forwardAll_path_cost samplePath (by decide +kernel) (by decide +kernel)
    (by rw [ases]; decide) _ none .empty rfl rfl ?_ (by decide +kernel)
  rw [ases]
  intro as1 as2 forward backward
  simp [Counted] at forward backward
  omega

/-- After a Wiser router whose AS number reads as `-1` the next one stops. -/
theorem lastAs_trips_assertion :
    (∀ hop ∈ [sampleHop .wiser 4294967295 5, sampleHop .wiser 200 7],
      hop.bgp.dbgpProtocol = .wiser ∧ 0 ≤ hop.linkCost) ∧
    Unpaired ⟨fun _ => none, fun _ _ => none, fun _ => 7⟩
      (wiserAses [sampleHop .wiser 4294967295 5, sampleHop .wiser 200 7]) ∧
    wiserCost [sampleHop .wiser 4294967295 5, sampleHop .wiser 200 7] < 2 ^ 24 ∧
    forwardAll [sampleHop .wiser 4294967295 5, sampleHop .wiser 200 7]
        ⟨fun _ => none, fun _ _ => none, fun _ => 7⟩ none =
      .error (.assertion .lastWiserNodeKnown) := by
  have ases : wiserAses [sampleHop .wiser 4294967295 5, sampleHop .wiser 200 7] = [-1, 200] := by
    decide +kernel
  refine ⟨by decide +kernel, ?_, by decide +kernel, ?_⟩
  · rw [ases]
    intro as1 as2 forward backward
    simp [Counted] at forward backward
    omega
  · apply Execution.fault?_eq_some.mp
    decide +kernel

end Quagga.Dbgp
