import Quagga.Dbgp.Pathlets
import Quagga.Foundation.Heap

/-!
# The hooks of the daemon

`dbgp.c`: what the BGP code calls when a route comes in, is originated or goes out. The
lookup key of a route lives behind a pointer, and storing control information writes a new
key there, so the hooks work on a heap of transitive attributes. How a stored value travels
to the lookup service is the parameter `transport`.
-/

namespace Quagga.Dbgp

open Foundation Bgp Execution

/-- What a benchmark run uses for every route: an advertisement, or a key of one. -/
inductive BenchmarkData where
  | inMemory (transit : Nat) (info : ControlInfo)
  | inLookupservice (transit : Nat)

structure World where
  service : LookupService
  transits : Heap Transit
  pathlets : PathletInternalState
  benchmark : BenchmarkData
  /-- How many static routes were announced, for `skipped_first`. -/
  skippedFirst : Nat
  /-- The static routes announced so far, oldest first. -/
  staticRoutes : List (Prefix × Attr Nat)

structure Environment where
  config : Configuration
  arithmetic : Arithmetic
  transport : Bytes → Option Bytes

inductive FilteredStatus where
  | filtered
  | notFiltered
deriving Repr, DecidableEq

variable (env : Environment)

/-- The control information of a route, and where its key is. A route without a key gets
an empty place for one. -/
def getControlInformation (protocol : ProtocolType) (world : World) (attr : Attr Nat) :
    Execution (World × Attr Nat × Nat × ControlInfo) :=
  if protocol = .benchmark then
    match world.benchmark with
    | .inMemory pointer info => .ok (world, attr, pointer, info)
    | .inLookupservice pointer => do
        let transit ← defined (world.transits.read pointer)
        let info ← retrieveControlInfo world.service transit
        return (world, attr, pointer, info)
  else
    match attr.transit? with
    | some pointer => do
        let transit ← defined (world.transits.read pointer)
        if 0 < transit.length then
          let info ← retrieveControlInfo world.service transit
          return (world, attr, pointer, info)
        else return (world, attr, pointer, .ofBytes [])
    | none =>
      let pointer := world.transits.next
      .ok ({ world with transits := world.transits.allocate ⟨0, [0, 0, 0, 0]⟩ },
        { attr with transit? := some pointer }, pointer, .ofBytes [])

def World.isLookupServicePath (world : World) (pointer : Nat) : Execution Bool := do
  let transit ← defined (world.transits.read pointer)
  Dbgp.isLookupServicePath transit

/-- `set_control_info` on a pointer: the new key replaces the old one in place. -/
def World.setControlInfo (world : World) (pointer : Nat) (info : ControlInfo) :
    Execution World := do
  let (service, transit) ← Dbgp.setControlInfo env.transport world.service info
  return { world with service := service, transits := world.transits.write pointer transit }

def dbgpUpdateControlInfo (peer : Peer) (network : Prefix) (world : World) (attr : Attr Nat) :
    Execution (World × Attr Nat) :=
  match peer.bgp.dbgpProtocol with
  | .baseline | .baselineSleeper | .benchmark => .ok (world, attr)
  | protocol => do
      let (world, attr, pointer, info) ← getControlInformation protocol world attr
      if ← world.isLookupServicePath pointer then return (world, attr)
      else
        match protocol with
        | .wiser =>
          let (service, info) ← wiserUpdateControlInfo env.arithmetic env.config.wiser
            peer.session world.service info
          let world ← ({ world with service := service }).setControlInfo env pointer info
          return (world, attr)
        | .pathlets =>
          let (pathlets, attr, info) ← newPathletsUpdateControlInfo env.config peer network
            world.pathlets attr info
          let world ← ({ world with pathlets := pathlets }).setControlInfo env pointer info
          return (world, attr)
        | _ => .error (.assertion .supportedProtocol)

def dbgpUpdateControlInfoBgpstruct (bgp : Instance) (network : Prefix) (world : World)
    (attr : Attr Nat) : Execution (World × Attr Nat) :=
  match bgp.dbgpProtocol with
  | .baseline | .baselineSleeper => .ok (world, attr)
  | protocol => do
      let (world, attr, pointer, info) ← getControlInformation protocol world attr
      if ← world.isLookupServicePath pointer then return (world, attr)
      else
        match protocol with
        | .pathlets =>
          let (pathlets, info) ← newPathletsUpdateControlInfoBgpstruct env.config bgp network
            world.pathlets info
          let world ← ({ world with pathlets := pathlets }).setControlInfo env pointer info
          return (world, attr)
        | _ => .error (.assertion .supportedProtocol)

/-! ## Originating static routes -/

/-- `bgp_attr_default_set`, with the multi-exit discriminator of a static route. -/
def staticAttr : Attr Nat :=
  { Attr.zero with
    origin := 0
    aspath? := some []
    weight := 32768
    mpNexthopLen := 16
    flag := {.origin, .asPath, .nextHop, .multiExitDisc} }

/-- `bgp_static_update_main`. The very first static route of a router is announced without
control information. -/
def bgpStaticUpdate (bgp : Instance) (network : Prefix) (world : World) : Execution World := do
  let (world, attr) ←
    if bgp.dbgpProtocol = .pathlets ∧ world.skippedFirst ≠ 0 then
      dbgpUpdateControlInfoBgpstruct env bgp network world staticAttr
    else pure (world, staticAttr)
  return { world with
    skippedFirst := world.skippedFirst + 1
    staticRoutes := world.staticRoutes ++ [(network, attr)] }

/-- `str2prefix_ipv4`. Without a slash the address is that of a host. -/
def str2prefixIpv4 (text : Bytes) : Option Prefix :=
  match text.splitOn (octet '/') with
  | [] => none
  | address :: length? =>
    let plen := (length?.head?.map fun length => (readDigits length).getD 0 % 256).getD 32
    if plen ≤ 32 then
      (inetPton address).map fun address => ⟨.ip, plen, bigEndian 4 address.toNat⟩
    else none

def announceStaticRoute (bgp : Instance) (world : World) (ipAndPrefix : Bytes) :
    Execution World := do
  let network ← defined (str2prefixIpv4 ipAndPrefix)
  bgpStaticUpdate env bgp network world

/-! ## Filters -/

/-- Create and announce the pathlets of one island. -/
def handleIsland (bgp : Instance) (aspath : AsPath) (info : ControlInfo) (world : World)
    (island : UInt32) : Execution World := do
  let (pathlets, announceIps) ← createForIsland bgp.as aspath info.integratedAdvertisement
    world.pathlets island
  announceIps.foldlM (announceStaticRoute env bgp) { world with pathlets := pathlets }

def handleExternalIslandInput (bgp : Instance) (aspath : AsPath) (info : ControlInfo)
    (world : World) : Execution World :=
  aspath.toArray.foldlM (handleIsland env bgp aspath info) world

def oneHopPathlet (config : Configuration) (fid : Int) (peer : Peer) (network : Prefix) :
    Pathlet :=
  ⟨some (ofInt fid), [peer.bgp.as, peer.as], some (config.prefix2str network), [], some 0⟩

def announceOneHopPathlet (peer : Peer) (network : Prefix) (world : World) :
    Execution World := do
  let (newIp, pathlets) := world.pathlets.getNextIp
  let (freeFid, pathlets) := pathlets.getNextFid
  let pathlets ← pathlets.insertPathletToSend newIp
    (oneHopPathlet env.config freeFid peer network)
  announceStaticRoute env peer.bgp { world with pathlets := pathlets } (announceIp newIp)

def newPathletsInputFilter (peer : Peer) (network : Prefix) (world : World) (attr : Attr Nat)
    (info : ControlInfo) : Execution (World × FilteredStatus) := do
  let aspath ← defined attr.aspath?
  if env.config.isPublicPrefix network then
    if env.config.isRemoteAsAnIslandMember (toInt peer.as) = false then
      let world ← handleExternalIslandInput env peer.bgp aspath info world
      return (world, .filtered)
    else if aspath.sizeCustom = 1 then
      let world ← announceOneHopPathlet env peer network world
      return (world, .notFiltered)
    else return (world, .notFiltered)
  else return (world, .notFiltered)

def dbgpInputFilter (peer : Peer) (network : Prefix) (world : World) (attr : Attr Nat) :
    Execution (World × Attr Nat × FilteredStatus) :=
  match peer.bgp.dbgpProtocol with
  | .baseline | .baselineSleeper => .ok (world, attr, .notFiltered)
  | protocol => do
      let (world, attr, pointer, info) ← getControlInformation protocol world attr
      if ← world.isLookupServicePath pointer then return (world, attr, .notFiltered)
      else
        match protocol with
        | .benchmark | .wiser => return (world, attr, .notFiltered)
        | .pathlets =>
          let (world, status) ← newPathletsInputFilter env peer network world attr info
          return (world, attr, status)
        | _ => .error (.assertion .supportedProtocol)

/-- Private addresses stay on the island. A public prefix gets its control information
here, on the route as it is stored. -/
def pathletsOutputFilter (peer : Peer) (network : Prefix) (world : World) (attr : Attr Nat) :
    Execution (World × Attr Nat × FilteredStatus) := do
  let isMember := env.config.isRemoteAsAnIslandMember (toInt peer.as)
  let isPrivateIp := !env.config.isPublicPrefix network
  if isMember = false ∧ isPrivateIp then return (world, attr, .filtered)
  else if isPrivateIp = false ∨ isMember = false then
    let (world, attr) ← dbgpUpdateControlInfo env peer network world attr
    return (world, attr, .notFiltered)
  else return (world, attr, .notFiltered)

def dbgpOutputFilter (peer : Peer) (network : Prefix) (world : World) (attr : Attr Nat) :
    Execution (World × Attr Nat × FilteredStatus) :=
  match peer.bgp.dbgpProtocol with
  | .baseline | .baselineSleeper | .wiser | .benchmark => .ok (world, attr, .notFiltered)
  | .pathlets => pathletsOutputFilter env peer network world attr
  | _ => .error (.assertion .supportedProtocol)

/-! ## Routes with a lookup key -/

/-- What the transitive attribute of a route stands for: nothing yet, or the value of its
key. -/
inductive Transit.Resolves (service : LookupService) : Transit → ControlInfo → Prop
  | blank : Resolves service ⟨0, [0, 0, 0, 0]⟩ (.ofBytes [])
  | key {key : UInt32} {value : Bytes} : key ≠ dbgpLookupSvcPath →
      service.values key = some value → Resolves service (.ofKey key) (.ofBytes value)

def World.Resolves (world : World) (attr : Attr Nat) (info : ControlInfo) : Prop :=
  match attr.transit? with
  | none => info = .ofBytes []
  | some pointer => ∃ transit, world.transits.read pointer = some transit ∧
      transit.Resolves world.service info

variable {world : World} {protocol : ProtocolType} {pointer : Nat} {transit : Transit}
  {info : ControlInfo}

theorem Transit.Resolves.isLookupServicePath {service : LookupService}
    (resolves : transit.Resolves service info) : isLookupServicePath transit = .ok false := by
  cases resolves with
  | blank => decide +kernel
  | key different found => simp [Dbgp.isLookupServicePath, different]

theorem World.isLookupServicePath_of_read (read : world.transits.read pointer = some transit) :
    world.isLookupServicePath pointer = Dbgp.isLookupServicePath transit := by
  simp [World.isLookupServicePath, read]

theorem getControlInformation_of_resolves (notBenchmark : protocol ≠ .benchmark) {attr : Attr Nat}
    (resolves : world.Resolves attr info) :
    ∃ world' attr' pointer transit,
      getControlInformation protocol world attr = .ok (world', attr', pointer, info) ∧
      attr'.transit? = some pointer ∧ world'.transits.read pointer = some transit ∧
      transit.Resolves world.service info ∧ world'.service = world.service := by
  simp only [getControlInformation, if_neg notBenchmark]
  unfold World.Resolves at resolves
  split at resolves
  · rename_i absent
    subst resolves
    refine ⟨{ world with transits := world.transits.allocate ⟨0, [0, 0, 0, 0]⟩ },
      { attr with transit? := some world.transits.next }, world.transits.next, _, ?_, rfl,
      Heap.read_allocate_next _, .blank, rfl⟩
    rw [absent]
  · rename_i pointer present
    rcases resolves with ⟨transit, read, meaning⟩
    refine ⟨world, attr, pointer, transit, ?_, present, read, meaning, rfl⟩
    rw [present]
    cases meaning with
    | blank => simp [read]
    | key different found =>
      simp [read, found, unpackRedisReply]

theorem getControlInformation_cases (notBenchmark : protocol ≠ .benchmark) {world' : World}
    {attr attr' : Attr Nat}
    (returned : getControlInformation protocol world attr = .ok (world', attr', pointer, info)) :
    (attr.transit? = none ∧ pointer = world.transits.next ∧
      world' = { world with transits := world.transits.allocate ⟨0, [0, 0, 0, 0]⟩ } ∧
      attr' = { attr with transit? := some pointer }) ∨
    (attr.transit? = some pointer ∧ world' = world ∧ attr' = attr ∧
      ∃ transit, world.transits.read pointer = some transit ∧
        (0 < transit.length → ∃ key, readKey transit.val = some key ∧
          (world.service.values key).isSome)) := by
  simp only [getControlInformation, if_neg notBenchmark] at returned
  split at returned
  · rename_i place present
    rcases bind_eq_ok.mp returned with ⟨transit, read, rest⟩
    rw [defined_eq_ok] at read
    split at rest
    · rcases bind_eq_ok.mp rest with ⟨found, retrieved, same⟩
      cases same
      refine .inr ⟨present, rfl, rfl, transit, read, ?_⟩
      intro _
      simp only [retrieveControlInfo, bind_eq_ok, defined_eq_ok] at retrieved
      rcases retrieved with ⟨_, _, key, keyRead, unpacked⟩
      refine ⟨key, keyRead, ?_⟩
      cases value : world.service.values key with
      | none => simp [unpackRedisReply, value] at unpacked
      | some _ => rfl
    · rename_i empty
      cases rest
      exact .inr ⟨present, rfl, rfl, transit, read, fun nonempty => absurd nonempty empty⟩
  · rename_i absent
    cases returned
    exact .inl ⟨absent, rfl, rfl, rfl⟩

variable {env}

theorem World.setControlInfo_returned {after : World}
    (returned : world.setControlInfo env pointer info = .ok after) :
    after.transits = world.transits.write pointer (.ofKey world.service.nextKey) := by
  simp only [World.setControlInfo, Dbgp.setControlInfo, bind_eq_ok,
    pure_eq_ok, Except.ok.injEq] at returned
  rcases returned with ⟨_, ⟨_, _, rfl⟩, rfl⟩
  rfl

theorem World.setControlInfo_some (faithful : env.transport = some) (world : World) (pointer : Nat)
    (info : ControlInfo) :
    world.setControlInfo env pointer info = .ok { world with
      service := world.service.set world.service.nextKey info.integratedAdvertisement
      transits := world.transits.write pointer (.ofKey world.service.nextKey) } := by
  simp [World.setControlInfo, faithful, Dbgp.setControlInfo_some]

end Quagga.Dbgp
