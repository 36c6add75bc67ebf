import Quagga.Dbgp.Dispatch

/-!
# Allocation of pathlet addresses

Every pathlet a router creates gets the next address of its private /24 and is announced
under it. What a run of advertisements creates is a list of pathlets, computed here from
the advertisements alone; the daemon's allocator, map and static routes represent it.
-/

namespace Quagga.Dbgp

open Foundation Bgp Execution List PathletInternalState Nat

variable {address : UInt32} {index count : Nat} {bgp : Instance} {next : Int}

/-! ## What advertisements create -/

structure Received where
  peer : Peer
  network : Prefix
  attr : Attr Nat
  info : ControlInfo

/-- The pathlets made of one island's graph, and the next forwarding identifier. -/
def islandPathlets (advert : Bytes) (aspath : List UInt32) (asNum island : UInt32) (fid : Int) :
    List Pathlet × Int :=
  match islandGraph advert island with
  | none => ([], fid)
  | some graph =>
    (graph.pathlets.map (.addPathVector aspath) ++
      [crossGulfPathlet fid asNum (aspath[aspath.length - 2]?.getD 0) aspath], fid + 1)

def islandsPathlets (advert : Bytes) (aspath : List UInt32) (asNum : UInt32) :
    List UInt32 → Int → List Pathlet × Int
  | [], fid => ([], fid)
  | island :: islands, fid =>
    let (first, fid) := islandPathlets advert aspath asNum island fid
    let (rest, fid) := islandsPathlets advert aspath asNum islands fid
    (first ++ rest, fid)

def Received.pathlets (config : Configuration) (event : Received) (fid : Int) :
    List Pathlet × Int :=
  match event.attr.aspath? with
  | none => ([], fid)
  | some aspath =>
    if config.isPublicPrefix event.network then
      if config.isRemoteAsAnIslandMember (toInt event.peer.as) = false then
        islandsPathlets event.info.integratedAdvertisement aspath.toArray event.peer.bgp.as
          aspath.toArray fid
      else if aspath.sizeCustom = 1 then
        ([oneHopPathlet config fid event.peer event.network], fid + 1)
      else ([], fid)
    else ([], fid)

def createdPathlets (config : Configuration) : List Received → Int → List Pathlet
  | [], _ => []
  | event :: events, fid =>
    (event.pathlets config fid).1 ++ createdPathlets config events (event.pathlets config fid).2

/-! ## Representation -/

def pathletAddress (base : UInt32) (index : Nat) : UInt32 := base + UInt32.ofNat index

def hostRoute (address : UInt32) : Prefix := ⟨.ip, 32, bigEndian 4 address.toNat⟩

/-- The allocator has handed out one address for each pathlet, and the map has the pathlet
under it. -/
structure Allocates (base : UInt32) (created : List Pathlet) (fid : Int)
    (state : PathletInternalState) : Prop where
  nextIp : state.nextIp = pathletAddress base created.length
  nextFid : state.nextFid = fid
  sent : ∀ index pathlet, created[index]? = some pathlet →
    state.ipToPathletToSend (inetNtop (pathletAddress base index)) = some pathlet ∧
      2 ≤ pathlet.vnodes.length

/-- The first `count` addresses have been announced as well, in order, and counted. -/
structure Represents (base : UInt32) (created : List Pathlet) (fid : Int) (count : Nat)
    (world : World) : Prop where
  allocates : Allocates base created fid world.pathlets
  announced : world.staticRoutes.map Prod.fst =
    (List.range count).map fun index => hostRoute (pathletAddress base index)
  counted : count ≤ world.skippedFirst

def Settled (base : UInt32) (created : List Pathlet) (fid : Int) (world : World) : Prop :=
  Represents base created fid created.length world

variable {base : UInt32}

theorem pathletAddress_toNat (aligned : base.toNat % 256 = 0) (small : index < 256) :
    (pathletAddress base index).toNat = base.toNat + index := by
  have bound := base.toNat_lt
  simp only [pathletAddress, UInt32.toNat_add, UInt32.toNat_ofNat']
  omega

theorem pathletAddress_inj (aligned : base.toNat % 256 = 0) {other : Nat} (small : index < 256)
    (otherSmall : other < 256) (equal : pathletAddress base index = pathletAddress base other) :
    index = other := by
  have numbers := congrArg UInt32.toNat equal
  rw [pathletAddress_toNat aligned small, pathletAddress_toNat aligned otherSmall] at numbers
  omega

theorem str2prefixIpv4_announceIp (address : UInt32) :
    str2prefixIpv4 (announceIp (inetNtop address)) = some (hostRoute address) := by
  have parts : (announceIp (inetNtop address)).splitOn (octet '/') =
      [inetNtop address, decimal 32] := by
    have joined : announceIp (inetNtop address) =
        [octet '/'].intercalate [inetNtop address, decimal 32] := by
      simp [announceIp, intercalate]
    rw [joined]
    apply splitOn_intercalate
    · simp only [forall_mem_cons, slash_notMem_inetNtop, not_false_eq_true, true_and]
      decide
    · simp
  have length : readDigits (decimal 32) = some 32 := by decide +kernel
  simp [str2prefixIpv4, parts, length, hostRoute]

@[simp] theorem prefix4_hostRoute (address : UInt32) : (hostRoute address).prefix4 = address := by
  have bound : address.toNat < 256 ^ 4 := address.toNat_lt
  have whole : (bigEndian 4 address.toNat).take 4 = bigEndian 4 address.toNat :=
    take_of_length_le (by simp)
  simp [Prefix.prefix4, hostRoute, whole, readBigEndian_bigEndian bound]

theorem testBit_classCNetmask (small : index < 32) :
    Nat.testBit classCNetmask.toNat index = decide (8 ≤ index) := by
  revert index
  decide

theorem ipInSameSubnet_classC {ip1 ip2 : UInt32} (same : ip1.toNat / 256 = ip2.toNat / 256) :
    ipInSameSubnet ip1 ip2 classCNetmask = true := by
  simp only [ipInSameSubnet, decide_eq_true_eq, ← UInt32.toNat_inj, UInt32.toNat_and]
  apply eq_of_testBit_eq
  intro index
  rw [testBit_and, testBit_and]
  by_cases small : index < 32
  · rw [testBit_classCNetmask small]
    by_cases high : 8 ≤ index
    · have shifted := congrArg (fun number => Nat.testBit number (index - 8)) same
      simp only [show (256 : Nat) = 2 ^ 8 from rfl, Nat.testBit_div_two_pow,
        Nat.sub_add_cancel high] at shifted
      rw [shifted]
    · simp [high]
  · have zero : Nat.testBit classCNetmask.toNat index = false := by
      apply Nat.testBit_lt_two_pow
      exact Nat.lt_of_lt_of_le classCNetmask.toNat_lt (Nat.pow_le_pow_right (by decide) (by omega))
    simp [zero]

theorem pathletAddress_inSubnet (aligned : base.toNat % 256 = 0) (small : index < 256) :
    ipInSameSubnet (pathletAddress base index) base classCNetmask = true := by
  apply ipInSameSubnet_classC
  rw [pathletAddress_toNat aligned small]
  omega

theorem pathletAddress_succ (base : UInt32) (index : Nat) :
    pathletAddress base index + 1 = pathletAddress base (index + 1) := by
  simp [pathletAddress, UInt32.add_assoc]

variable {pathlet : Pathlet}

theorem serialize_ne_nil (nodes : 2 ≤ pathlet.vnodes.length) :
    (Pathlet.codec.serialize pathlet).length ≠ 0 := by
  intro empty
  have parsed := Pathlet.codec.parse_serialize pathlet
  rw [eq_nil_of_length_eq_zero empty] at parsed
  have noNodes : (Pathlet.codec.parse []).vnodes.length = 0 := rfl
  rw [parsed] at noNodes
  omega

/-! ## Allocating -/

theorem allocates_create (base : UInt32) : Allocates base [] 1 (.create base) where
  nextIp := by simp [create, pathletAddress]
  nextFid := rfl
  sent := nofun

/-- The states differ at most in the graph, which plays no part in allocation. -/
structure SameAllocation (state result : PathletInternalState) : Prop where
  nextIp : result.nextIp = state.nextIp
  nextFid : result.nextFid = state.nextFid
  ipToPathletToSend : result.ipToPathletToSend = state.ipToPathletToSend

variable {created : List Pathlet} {fid : Int}

theorem Allocates.of_same {state result : PathletInternalState}
    (allocates : Allocates base created fid state) (same : SameAllocation state result) :
    Allocates base created fid result where
  nextIp := same.nextIp.trans allocates.nextIp
  nextFid := same.nextFid.trans allocates.nextFid
  sent := by
    rw [same.ipToPathletToSend]
    exact allocates.sent

theorem insertPathletIntoGraph_safe (state : PathletInternalState) (pathlet : Pathlet) :
    Safe (state.insertPathletIntoGraph pathlet) fun result =>
      2 ≤ pathlet.vnodes.length ∧ SameAllocation state result := by
  unfold insertPathletIntoGraph
  split
  · rename_i nodes
    exact safe_ok ⟨by simp [nodes], rfl, rfl, rfl⟩
  · exact ⟨nofun, nofun⟩

theorem insertPathletIntoGraph_returns (state : PathletInternalState)
    (nodes : 2 ≤ pathlet.vnodes.length) :
    ∃ result, state.insertPathletIntoGraph pathlet = .ok result ∧ SameAllocation state result := by
  unfold insertPathletIntoGraph
  split
  · exact ⟨_, rfl, rfl, rfl, rfl⟩
  · rename_i tooFew
    rcases listed : pathlet.vnodes with _ | ⟨primary, _ | ⟨adjacent, rest⟩⟩
    · simp [listed] at nodes
    · simp [listed] at nodes
    · exact absurd listed (tooFew primary adjacent rest)

variable {state : PathletInternalState}

section

variable (aligned : base.toNat % 256 = 0) (allocates : Allocates base created fid state)
  (room : created.length < 256)
include aligned allocates room

theorem Allocates.insert (next : PathletInternalState) (advanced : next.nextIp = state.nextIp + 1)
    (sameMap : next.ipToPathletToSend = state.ipToPathletToSend) (pathlet : Pathlet) :
    Safe (next.insertPathletToSend (inetNtop state.nextIp) pathlet)
      (Allocates base (created ++ [pathlet]) next.nextFid) := by
  refine (insertPathletIntoGraph_safe _ pathlet).mono ?_
  intro result inserted
  rcases inserted with ⟨nodes, same⟩
  refine ⟨?_, same.nextFid, ?_⟩
  · rw [same.nextIp]
    simp [advanced, allocates.nextIp, pathletAddress_succ]
  · intro index other found
    rw [same.ipToPathletToSend, allocates.nextIp]
    by_cases last : index = created.length
    · subst last
      simp only [getElem?_concat_length, Option.some.injEq] at found
      subst found
      exact ⟨Function.update_self _ _ _, nodes⟩
    · have earlier : index < created.length := by
        have bound := (List.getElem?_eq_some_iff.mp found).1
        simp only [length_append, length_singleton] at bound
        omega
      rw [getElem?_append_left earlier] at found
      have different : inetNtop (pathletAddress base index) ≠
          inetNtop (pathletAddress base created.length) := by
        intro equal
        exact last (pathletAddress_inj aligned (by omega) room (inetNtop_injective equal))
      have before := allocates.sent index other found
      rw [← sameMap] at before
      exact ⟨(Function.update_of_ne different _ _).trans before.1, before.2⟩

theorem createPathletToSend_safe (pathlet : Pathlet) :
    Safe (createPathletToSend state pathlet) fun result =>
      Allocates base (created ++ [pathlet]) fid result.1 ∧
        result.2 = announceIp (inetNtop (pathletAddress base created.length)) := by
  simp only [createPathletToSend, MessageCodec.parse_serialize]
  refine (allocates.insert aligned room state.getNextIp.2 rfl rfl pathlet).bind ?_
  intro next inserted
  have sameFid : state.getNextIp.2.nextFid = fid := allocates.nextFid
  exact safe_ok ⟨sameFid ▸ inserted,
    congrArg (fun address => announceIp (inetNtop address)) allocates.nextIp⟩

end

def addressRange (base : UInt32) (first count : Nat) : List Bytes :=
  (List.range' first count).map fun index => announceIp (inetNtop (pathletAddress base index))

section

variable (aligned : base.toNat % 256 = 0) (allocates : Allocates base created fid state)
  {pathlets : List Pathlet} (room : created.length + pathlets.length ≤ 256)
include aligned allocates room

theorem createPathletsToSend_safe : Safe (createPathletsToSend state pathlets) fun result =>
      Allocates base (created ++ pathlets) fid result.1 ∧
        result.2 = addressRange base created.length pathlets.length := by
  induction pathlets generalizing created state with
  | nil => exact safe_ok ⟨by simpa using allocates, rfl⟩
  | cons pathlet pathlets induction =>
    simp only [length_cons] at room
    refine (createPathletToSend_safe aligned allocates (by omega) pathlet).bind ?_
    intro first created
    rcases created with ⟨allocates, address⟩
    refine (induction allocates (by simp; omega)).bind ?_
    intro rest created
    rcases created with ⟨allocates, addresses⟩
    refine safe_ok ⟨by simpa using allocates, ?_⟩
    simp [address, addresses, addressRange, range'_succ]

variable {advert : Bytes} {asNum island : UInt32}

theorem createPathletsFromIA_safe {aspath : List UInt32}
    (made : islandPathlets advert aspath asNum island fid = (pathlets, next)) :
    Safe (createPathletsFromIA state advert aspath island asNum) fun result =>
      Allocates base (created ++ pathlets) next result.1 ∧
        result.2 = addressRange base created.length pathlets.length := by
  unfold createPathletsFromIA
  cases found : islandGraph advert island with
  | none =>
    simp only [islandPathlets, found] at made
    cases made
    exact safe_ok ⟨by simpa using allocates, rfl⟩
  | some graph =>
    simp only [islandPathlets, found] at made
    cases made
    simp only [length_append, length_map, length_singleton] at room ⊢
    refine (createPathletsToSend_safe aligned allocates (by simp; omega)).bind ?_
    intro made extended
    rcases extended with ⟨allocates, addresses⟩
    refine (safe_defined _).bind ?_
    intro sender present
    have senderGet : aspath[aspath.length - 2]?.getD 0 = sender := by
      split at present
      · cases present
      · rw [present, Option.getD_some]
    have sameFid : made.1.getNextFid.1 = fid := allocates.nextFid
    have taken : Allocates base _ (fid + 1) made.1.getNextFid.2 :=
      ⟨allocates.nextIp, congrArg (· + 1) allocates.nextFid, allocates.sent⟩
    refine (createPathletToSend_safe aligned taken (by simp; omega) _).bind ?_
    intro last across
    rcases across with ⟨allocates, address⟩
    rw [sameFid, ← senderGet] at allocates
    refine safe_ok ⟨by simpa using allocates, ?_⟩
    simp [addresses, address, addressRange, range'_concat]

theorem createForIsland_safe {aspath : AsPath}
    (made : islandPathlets advert aspath.toArray asNum island fid = (pathlets, next)) :
    Safe (createForIsland asNum aspath advert state island) fun result =>
      Allocates base (created ++ pathlets) next result.1 ∧
        result.2 = addressRange base created.length pathlets.length := by
  unfold createForIsland
  split
  · apply (createPathletsFromIA_safe aligned allocates room made).bind
    intro sent created
    apply (safe_defined _).bind
    intro announceIps kept
    split at kept
    · cases kept
      exact safe_ok created
    · cases kept
  · rename_i absent
    have noGraph : islandGraph advert island = none := by
      simp only [hasPathletInformation, Bool.not_eq_true, Option.isSome_eq_false_iff,
        Option.isNone_iff_eq_none] at absent
      simp [islandGraph, absent]
    simp only [islandPathlets, noGraph] at made
    cases made
    exact safe_ok ⟨by simpa using allocates, rfl⟩

end

/-! ## Announcing -/

theorem newPathletsUpdateControlInfoBgpstruct_own (config : Configuration) (bgp : Instance)
    (own : ipInSameSubnet address config.privateIp classCNetmask = true)
    (sent : state.ipToPathletToSend (inetNtop address) = some pathlet)
    (nodes : 2 ≤ pathlet.vnodes.length) (info : ControlInfo) :
    ∃ state' info', newPathletsUpdateControlInfoBgpstruct config bgp (hostRoute address) state
        info = .ok (state', info') ∧ SameAllocation state state' := by
  unfold newPathletsUpdateControlInfoBgpstruct
  split
  · exact ⟨state, info, rfl, rfl, rfl, rfl⟩
  · simp only [addOwnPathlet, prefix4_hostRoute, require_pos own, ok_bind, addAssociatedPathlet,
      generateInternalPathletControlInfo, getPathletToSend, sent, serialize_ne_nil nodes, if_false,
      mergePathletInformationIntoGraph, ControlInfo.ofBytes, MessageCodec.parse_serialize,
      getProtocolHopDescriptor_setHopValue, getHopDescriptorKeyValue_setKeyValue_same,
      KeyValue.setValue, KeyValue.value, Option.getD_some, foldlM_cons]
    rcases insertPathletIntoGraph_returns state nodes with ⟨state', inserted, same⟩
    rw [inserted]
    exact ⟨state', _, rfl, same⟩

theorem World.setControlInfo_safe (env : Environment) (world : World) (pointer : Nat)
    (info : ControlInfo) :
    Safe (world.setControlInfo env pointer info) fun result =>
      result.pathlets = world.pathlets ∧ result.staticRoutes = world.staticRoutes ∧
        result.skippedFirst = world.skippedFirst := by
  simp only [World.setControlInfo, Dbgp.setControlInfo]
  cases env.transport (packDbgpControlInfo info) with
  | none => exact safe_undefined
  | some value => exact safe_ok ⟨rfl, rfl, rfl⟩

variable {world : World}

section

variable (env : Environment)
  (own : ipInSameSubnet address env.config.privateIp classCNetmask = true)
  (sent : world.pathlets.ipToPathletToSend (inetNtop address) = some pathlet)
  (nodes : 2 ≤ pathlet.vnodes.length)
include own sent nodes

theorem dbgpUpdateControlInfoBgpstruct_own (protocol : bgp.dbgpProtocol = .pathlets) :
    ∃ (prepared : World) (pointer : Nat) (info : ControlInfo) (attr : Attr Nat),
      dbgpUpdateControlInfoBgpstruct env bgp (hostRoute address) world staticAttr =
        (prepared.setControlInfo env pointer info >>= fun world => .ok (world, attr)) ∧
      SameAllocation world.pathlets prepared.pathlets ∧
      prepared.staticRoutes = world.staticRoutes ∧
      prepared.skippedFirst = world.skippedFirst := by
  have blank : World.Resolves world staticAttr (.ofBytes []) := rfl
  rcases getControlInformation_of_resolves (by decide : ProtocolType.pathlets ≠ .benchmark)
    blank with ⟨world', attr, pointer, transit, found, _, read, meaning, _⟩
  have kept : world'.pathlets = world.pathlets ∧ world'.staticRoutes = world.staticRoutes ∧
      world'.skippedFirst = world.skippedFirst := by
    cases found
    exact ⟨rfl, rfl, rfl⟩
  rcases newPathletsUpdateControlInfoBgpstruct_own env.config bgp own sent nodes (.ofBytes [])
    with ⟨pathlets, info, updated, same⟩
  refine ⟨{ world' with pathlets := pathlets }, pointer, info, attr, ?_, same, kept.2⟩
  simp only [dbgpUpdateControlInfoBgpstruct, protocol, found, ok_bind,
    World.isLookupServicePath_of_read read, meaning.isLookupServicePath, kept.1, updated]
  rfl

theorem bgpStaticUpdate_own (bgp : Instance) :
    Safe (bgpStaticUpdate env bgp (hostRoute address) world) (fun result =>
      SameAllocation world.pathlets result.pathlets ∧
        result.staticRoutes.map Prod.fst = world.staticRoutes.map Prod.fst ++ [hostRoute address] ∧
        result.skippedFirst = world.skippedFirst + 1) ∧
      (env.transport = some → ∃ result,
        bgpStaticUpdate env bgp (hostRoute address) world = .ok result) := by
  unfold bgpStaticUpdate
  split
  · rename_i updates
    rcases dbgpUpdateControlInfoBgpstruct_own env own sent nodes updates.1 with
      ⟨prepared, pointer, info, attr, stores, same, routes, skipped⟩
    rw [stores, bind_assoc]
    refine ⟨?_, ?_⟩
    · refine (prepared.setControlInfo_safe env pointer info).bind ?_
      intro stored kept
      refine safe_ok ⟨?_, ?_, ?_⟩
      · rw [kept.1]
        exact same
      · simp [kept.2.1, routes]
      · simp [kept.2.2, skipped]
    · intro faithful
      rw [World.setControlInfo_some faithful]
      exact ⟨_, rfl⟩
  · exact ⟨safe_ok ⟨⟨rfl, rfl, rfl⟩, by simp, rfl⟩, fun _ => ⟨_, rfl⟩⟩

end

section Run

variable (env : Environment) (aligned : env.config.privateIp.toNat % 256 = 0)

include aligned

theorem announceStaticRoute_next (bgp : Instance)
    (represents : Represents env.config.privateIp created fid count world)
    (waiting : count < created.length) (room : created.length ≤ 256) :
    Safe (announceStaticRoute env bgp world
        (announceIp (inetNtop (pathletAddress env.config.privateIp count))))
      (Represents env.config.privateIp created fid (count + 1)) ∧
      (env.transport = some → ∃ result, announceStaticRoute env bgp world
        (announceIp (inetNtop (pathletAddress env.config.privateIp count))) = .ok result) := by
  have own := pathletAddress_inSubnet aligned (by omega : count < 256)
  rcases represents.allocates.sent count created[count] (by simp) with ⟨sent, nodes⟩
  have updates := bgpStaticUpdate_own env own sent nodes bgp
  simp only [announceStaticRoute, str2prefixIpv4_announceIp]
  refine ⟨updates.1.mono ?_, updates.2⟩
  intro result kept
  refine ⟨represents.allocates.of_same kept.1, ?_, ?_⟩
  · rw [kept.2.1, represents.announced, range_succ, map_append]
    rfl
  · rw [kept.2.2]
    exact succ_le_succ represents.counted

theorem announceStaticRoutes_safe (bgp : Instance) (room : created.length ≤ 256) (missing : Nat)
    (represents : Represents env.config.privateIp created fid count world)
    (waiting : count + missing ≤ created.length) :
    Safe ((addressRange env.config.privateIp count missing).foldlM
        (announceStaticRoute env bgp) world)
      (Represents env.config.privateIp created fid (count + missing)) := by
  induction missing generalizing count world with
  | zero => exact safe_ok represents
  | succ missing induction =>
    refine (announceStaticRoute_next env aligned bgp represents (by omega) room).1.bind ?_
    intro next advanced
    have rest := induction advanced (by omega)
    rw [show count + 1 + missing = count + (missing + 1) by omega] at rest
    exact rest

theorem handleIsland_safe (bgp : Instance) (aspath : AsPath) (info : ControlInfo)
    (settled : Settled env.config.privateIp created fid world) {island : UInt32}
    {pathlets : List Pathlet}
    (made : islandPathlets info.integratedAdvertisement aspath.toArray bgp.as island fid =
      (pathlets, next)) (room : created.length + pathlets.length ≤ 256) :
    Safe (handleIsland env bgp aspath info world island)
      (Settled env.config.privateIp (created ++ pathlets) next) := by
  apply (createForIsland_safe aligned settled.allocates room made).bind
  intro sent created
  rcases sent with ⟨after, announceIps⟩
  rcases created with ⟨allocates, rfl⟩
  have announces := announceStaticRoutes_safe env aligned bgp (by simpa using room)
    pathlets.length (⟨allocates, settled.announced, settled.counted⟩ :
      Represents env.config.privateIp _ _ _ { world with pathlets := after }) (by simp)
  apply announces.mono
  intro result represents
  simpa [Settled] using represents

theorem handleIslands_safe (bgp : Instance) (aspath : AsPath) (info : ControlInfo)
    {islands : List UInt32} {pathlets : List Pathlet}
    (settled : Settled env.config.privateIp created fid world)
    (made : islandsPathlets info.integratedAdvertisement aspath.toArray bgp.as islands fid =
      (pathlets, next)) (room : created.length + pathlets.length ≤ 256) :
    Safe (islands.foldlM (handleIsland env bgp aspath info) world)
      (Settled env.config.privateIp (created ++ pathlets) next) := by
  induction islands generalizing created fid world pathlets with
  | nil =>
    cases made
    apply safe_ok
    simpa using settled
  | cons island islands induction =>
    cases made
    rw [length_append] at room
    apply (handleIsland_safe env aligned bgp aspath info settled rfl (by omega)).bind
    intro world settled
    apply (induction settled rfl (by simp; omega)).mono
    intro result settled
    simpa using settled

theorem announceOneHopPathlet_safe (peer : Peer) (network : Prefix)
    (settled : Settled env.config.privateIp created fid world) (room : created.length < 256) :
    Safe (announceOneHopPathlet env peer network world)
      (Settled env.config.privateIp (created ++ [oneHopPathlet env.config fid peer network])
        (fid + 1)) ∧
      (env.transport = some → ∃ result,
        announceOneHopPathlet env peer network world = .ok result) := by
  have sameFid : world.pathlets.getNextIp.2.getNextFid.1 = fid := settled.allocates.nextFid
  have nextFid : world.pathlets.getNextIp.2.getNextFid.2.nextFid = fid + 1 :=
    congrArg (· + 1) settled.allocates.nextFid
  have inserts := settled.allocates.insert aligned room
    world.pathlets.getNextIp.2.getNextFid.2 rfl rfl (oneHopPathlet env.config fid peer network)
  rw [nextFid] at inserts
  have nodes : 2 ≤ (oneHopPathlet env.config fid peer network).vnodes.length := le_refl 2
  have announces : ∀ pathlets,
      Allocates env.config.privateIp (created ++ [oneHopPathlet env.config fid peer network])
        (fid + 1) pathlets →
      Safe (announceStaticRoute env peer.bgp { world with pathlets := pathlets }
          (announceIp (inetNtop world.pathlets.nextIp)))
        (Settled env.config.privateIp (created ++ [oneHopPathlet env.config fid peer network])
          (fid + 1)) ∧
        (env.transport = some → ∃ result, announceStaticRoute env peer.bgp
          { world with pathlets := pathlets } (announceIp (inetNtop world.pathlets.nextIp)) =
            .ok result) := by
    intro pathlets allocates
    have represents : Represents env.config.privateIp
        (created ++ [oneHopPathlet env.config fid peer network]) (fid + 1) created.length
        { world with pathlets := pathlets } := ⟨allocates, settled.announced, settled.counted⟩
    have next := announceStaticRoute_next env aligned peer.bgp represents (by simp)
      (by simp; omega)
    rw [settled.allocates.nextIp]
    refine ⟨next.1.mono ?_, next.2⟩
    intro result represents
    simpa [Settled] using represents
  unfold announceOneHopPathlet
  dsimp only
  rw [sameFid]
  refine ⟨inserts.bind fun pathlets allocates => (announces pathlets allocates).1, ?_⟩
  intro faithful
  rcases insertPathletIntoGraph_returns _ nodes with ⟨pathlets, inserted, _⟩
  have allocates := inserts.1 pathlets inserted
  rcases (announces pathlets allocates).2 faithful with ⟨result, announced⟩
  refine ⟨result, ?_⟩
  have returned : world.pathlets.getNextIp.2.getNextFid.2.insertPathletToSend
      (inetNtop world.pathlets.nextIp) (oneHopPathlet env.config fid peer network) =
        .ok pathlets := inserted
  exact (congrArg (· >>= _) returned).trans announced

theorem newPathletsInputFilter_safe (event : Received)
    (settled : Settled env.config.privateIp created fid world)
    (room : created.length + (event.pathlets env.config fid).1.length ≤ 256) :
    Safe (newPathletsInputFilter env event.peer event.network world event.attr
        event.info) fun result =>
      Settled env.config.privateIp (created ++ (event.pathlets env.config fid).1)
        (event.pathlets env.config fid).2 result.1 := by
  apply (safe_defined _).bind
  intro aspath present
  by_cases isPublic : env.config.isPublicPrefix event.network = true
  · by_cases external : env.config.isRemoteAsAnIslandMember (toInt event.peer.as) = false
    · simp only [Received.pathlets, present, isPublic, external] at room ⊢
      apply (handleIslands_safe env aligned event.peer.bgp aspath event.info settled rfl room).bind
      intro result settled
      exact safe_ok settled
    · by_cases oneHop : aspath.sizeCustom = 1
      · simp only [Received.pathlets, present, isPublic, external, oneHop] at room ⊢
        apply (announceOneHopPathlet_safe env aligned event.peer event.network settled
          (by simp at room; omega)).1.bind
        intro result settled
        exact safe_ok settled
      · simp only [Received.pathlets, present, isPublic, external, oneHop]
        apply safe_ok
        simpa using settled
  · simp only [Received.pathlets, present, isPublic]
    apply safe_ok
    simpa using settled

omit aligned in
/-- A run of advertisements handled by the input filter. -/
def receiveStep : StepFunction World Received Fault := fun world event =>
  some ((newPathletsInputFilter env event.peer event.network world event.attr event.info).map
    Prod.fst)

omit aligned in
/-- The addresses handed out so far and those the advertisement needs fit the /24. -/
def AddressesLeft (world : World) (event : Received) : Prop :=
  (world.pathlets.nextIp - env.config.privateIp).toNat +
    (event.pathlets env.config world.pathlets.nextFid).1.length ≤ 256
deriving Decidable

omit aligned in
theorem addressesLeft_iff (settled : Settled env.config.privateIp created fid world)
    (few : created.length ≤ 256) (event : Received) : AddressesLeft env world event ↔
      created.length + (event.pathlets env.config fid).1.length ≤ 256 := by
  have handedOut : (world.pathlets.nextIp - env.config.privateIp).toNat = created.length := by
    rw [settled.allocates.nextIp, pathletAddress, UInt32.add_comm, UInt32.add_sub_cancel]
    simp only [UInt32.toNat_ofNat']
    omega
  rw [AddressesLeft, handedOut, settled.allocates.nextFid]

theorem receiveStep_safe (settled : Settled env.config.privateIp created fid world)
    (few : created.length ≤ 256) {event : Received} (left : AddressesLeft env world event) :
    created.length + (event.pathlets env.config fid).1.length ≤ 256 ∧
      (∀ next, receiveStep env world event = some (.ok next) →
        Settled env.config.privateIp (created ++ (event.pathlets env.config fid).1)
          (event.pathlets env.config fid).2 next) ∧
      ∀ assertion, receiveStep env world event ≠ some (.error (.assertion assertion)) := by
  have room := (addressesLeft_iff env settled few event).mp left
  have safe := newPathletsInputFilter_safe env aligned event settled room
  unfold receiveStep
  cases returned : newPathletsInputFilter env event.peer event.network world event.attr
      event.info with
  | error fault =>
    refine ⟨room, nofun, ?_⟩
    intro assertion failed
    cases failed
    exact safe.2 assertion returned
  | ok result =>
    refine ⟨room, ?_, nofun⟩
    intro next stepped
    cases stepped
    exact safe.1 result returned

theorem run_settled {first last : World} {events : List Received}
    (run : Guarded (receiveStep env) (AddressesLeft env) first events last)
    (settled : Settled env.config.privateIp created fid first) (few : created.length ≤ 256) :
    ∃ fid', Settled env.config.privateIp (created ++ createdPathlets env.config events fid)
        fid' last ∧
      (created ++ createdPathlets env.config events fid).length ≤ 256 := by
  induction run generalizing created fid with
  | nil state => exact ⟨fid, by simpa [createdPathlets] using settled,
      by simpa [createdPathlets] using few⟩
  | @cons first second last event events left stepped rest induction =>
    rcases receiveStep_safe env aligned settled few left with ⟨room, safe, _⟩
    have next := induction (safe second stepped) (by simpa using room)
    simpa [createdPathlets] using next

section

variable (settled : Settled env.config.privateIp created fid world) (few : created.length ≤ 256)
include settled few

theorem announced_nodup : (world.staticRoutes.map Prod.fst).Nodup := by
  rw [settled.announced]
  apply nodup_range.map_on
  intro index member other otherMember equal
  have addresses := congrArg Prefix.prefix4 equal
  rw [prefix4_hostRoute, prefix4_hostRoute] at addresses
  have small := mem_range.mp member
  have otherSmall := mem_range.mp otherMember
  exact pathletAddress_inj aligned (by omega) (by omega) addresses

theorem announced_inSubnet :
    ∀ network ∈ world.staticRoutes.map Prod.fst,
      ipInSameSubnet network.prefix4 env.config.privateIp classCNetmask = true := by
  intro network member
  rw [settled.announced] at member
  rcases mem_map.mp member with ⟨index, inRange, rfl⟩
  have small := mem_range.mp inRange
  rw [prefix4_hostRoute]
  exact pathletAddress_inSubnet aligned (by omega)

end

omit aligned in
theorem announced_sent (settled : Settled env.config.privateIp created fid world) :
    ((world.staticRoutes.map Prod.fst).map fun network =>
      world.pathlets.ipToPathletToSend (inetNtop network.prefix4)) = created.map some := by
  rw [settled.announced]
  apply ext_getElem?
  intro index
  by_cases inside : index < created.length
  · have sent := (settled.allocates.sent index created[index] (by simp)).1
    simp [inside, sent]
  · simp [inside]

/-- In every run from a new allocator in which the addresses suffice, the announced
addresses are distinct, lie in the router's own /24 and lead to the pathlets they were
announced for, and no assertion fails. -/
theorem pathlet_allocation_sound (world : World)
    (fresh : world.pathlets = .create env.config.privateIp) (unannounced : world.staticRoutes = [])
    (events : List Received) (state : World)
    (run : Guarded (receiveStep env) (AddressesLeft env) world events state) :
    (state.staticRoutes.map Prod.fst).Nodup ∧
      (∀ network ∈ state.staticRoutes.map Prod.fst,
        ipInSameSubnet network.prefix4 env.config.privateIp classCNetmask = true) ∧
      ((state.staticRoutes.map Prod.fst).map fun network =>
        state.pathlets.ipToPathletToSend (inetNtop network.prefix4)) =
          (createdPathlets env.config events 1).map some ∧
      ∀ event, AddressesLeft env state event → ∀ assertion,
        receiveStep env state event ≠ some (.error (.assertion assertion)) := by
  have start : Settled env.config.privateIp [] 1 world :=
    ⟨fresh ▸ allocates_create env.config.privateIp, by simp [unannounced], Nat.zero_le _⟩
  rcases run_settled env aligned run start (Nat.zero_le _) with ⟨fid, settled, few⟩
  refine ⟨announced_nodup env aligned settled few, announced_inSubnet env aligned settled few,
    announced_sent env settled, ?_⟩
  intro event left
  exact (receiveStep_safe env aligned settled few left).2.2

end Run

/-! ## A router that learns destinations one hop away -/

def islandEnvironment : Environment := ⟨⟨[2], 0x0A000000, ⟨none⟩, id⟩, .machine, some⟩

def islandWorld : World where
  service := ⟨fun _ => none, fun _ _ => none, fun _ => 7⟩
  transits := ⟨[]⟩
  pathlets := .create 0x0A000000
  benchmark := .inLookupservice 0
  skippedFirst := 0
  staticRoutes := []

def islandPeer : Peer := ⟨⟨1, 1, .pathlets, 7⟩, 2, 1, 2⟩

def oneHopAdvertisement : Received :=
  ⟨islandPeer, ⟨.ip, 16, [192, 168, 0, 0]⟩,
    { Attr.zero with aspath? := some [⟨.asSequence, [2]⟩] }, .ofBytes []⟩

theorem receiveStep_oneHop (world : World) :
    receiveStep islandEnvironment world oneHopAdvertisement =
      some (announceOneHopPathlet islandEnvironment islandPeer oneHopAdvertisement.network
        world) := by
  have samePeer : oneHopAdvertisement.peer = islandPeer := rfl
  simp only [receiveStep, newPathletsInputFilter]
  rw [samePeer]
  cases announceOneHopPathlet islandEnvironment islandPeer oneHopAdvertisement.network world <;>
    rfl

theorem settled_islandWorld : Settled islandEnvironment.config.privateIp [] 1 islandWorld :=
  ⟨allocates_create _, rfl, zero_le _⟩

theorem aligned_island : islandEnvironment.config.privateIp.toNat % 256 = 0 := by
  decide

theorem oneHop_step (settled : Settled islandEnvironment.config.privateIp created fid world)
    (room : created.length < 256) :
    ∃ next pathlet, receiveStep islandEnvironment world oneHopAdvertisement = some (.ok next) ∧
      Settled islandEnvironment.config.privateIp (created ++ [pathlet]) (fid + 1) next := by
  have safe := announceOneHopPathlet_safe islandEnvironment aligned_island islandPeer
    oneHopAdvertisement.network settled room
  rcases safe.2 rfl with ⟨next, returned⟩
  refine ⟨next, _, ?_, safe.1.1 next returned⟩
  rw [receiveStep_oneHop, returned]

/-- Two destinations one hop away, and between them the graph of island 8, which comes over
AS 9 and has two pathlets. -/
def islandAdvertisements : List Received :=
  [oneHopAdvertisement,
    ⟨{ islandPeer with as := 9 }, ⟨.ip, 16, [172, 16, 0, 0]⟩,
      { Attr.zero with aspath? := some [⟨.asSequence, [9, 8]⟩] },
      .ofBytes (generateExternalPathletControlInfo
        ⟨[((4, 5), ⟨some 1, [4, 5], none, [], none⟩),
          ((5, 6), ⟨some 2, [5, 6], some [1], [], none⟩)], 2, 0, fun _ => none⟩ 8 [])⟩,
    { oneHopAdvertisement with network := ⟨.ip, 16, [192, 169, 0, 0]⟩ }]

theorem island_allocation_sound :
    (createdPathlets islandEnvironment.config islandAdvertisements 1).length = 5 ∧
    ∃ state, Guarded (receiveStep islandEnvironment) (AddressesLeft islandEnvironment)
        islandWorld islandAdvertisements state ∧
      (state.staticRoutes.map Prod.fst).Nodup ∧
      (∀ network ∈ state.staticRoutes.map Prod.fst,
        ipInSameSubnet network.prefix4 islandEnvironment.config.privateIp classCNetmask = true) ∧
      ((state.staticRoutes.map Prod.fst).map fun network =>
        state.pathlets.ipToPathletToSend (inetNtop network.prefix4)) =
          (createdPathlets islandEnvironment.config islandAdvertisements 1).map some ∧
      ∀ event, AddressesLeft islandEnvironment state event → ∀ assertion,
        receiveStep islandEnvironment state event ≠ some (.error (.assertion assertion)) := by
  refine ⟨by decide +kernel, ?_⟩
  have executed : (execute (fun state event =>
      if AddressesLeft islandEnvironment state event then receiveStep islandEnvironment state event
      else none) islandWorld islandAdvertisements).isSome = true := by
    decide +kernel
  rcases Option.isSome_iff_exists.mp executed with ⟨state, run⟩
  have guarded := guarded_of_execute run
  exact ⟨state, guarded, pathlet_allocation_sound islandEnvironment aligned_island islandWorld rfl
    rfl islandAdvertisements state guarded⟩

theorem oneHop_run (count : Nat)
    (settled : Settled islandEnvironment.config.privateIp created fid world)
    (room : created.length + count ≤ 256) :
    ∃ last created' fid', Transitions (receiveStep islandEnvironment) world
        (List.replicate count oneHopAdvertisement) last ∧
      Settled islandEnvironment.config.privateIp created' fid' last ∧
      created'.length = created.length + count := by
  induction count generalizing created fid world with
  | zero => exact ⟨world, created, fid, .nil world, settled, rfl⟩
  | succ count induction =>
    rcases oneHop_step settled (by omega) with ⟨next, pathlet, stepped, settled⟩
    rcases induction settled (by simp; omega) with ⟨last, created', fid', run, settled, length⟩
    refine ⟨last, created', fid', .cons stepped run, settled, ?_⟩
    simp only [length_append, length_singleton] at length
    omega

theorem dbgpUpdateControlInfoBgpstruct_outside (env : Environment)
    (protocol : bgp.dbgpProtocol = .pathlets) {network : Prefix}
    (isPrivate : env.config.isPublicPrefix network = false)
    (outside : ¬ ipInSameSubnet network.prefix4 env.config.privateIp classCNetmask = true)
    (world : World) :
    dbgpUpdateControlInfoBgpstruct env bgp network world staticAttr =
      .error (.assertion .privateSubnet) := by
  have blank : World.Resolves world staticAttr (.ofBytes []) := rfl
  rcases getControlInformation_of_resolves (by decide : ProtocolType.pathlets ≠ .benchmark)
    blank with ⟨world', attr, pointer, transit, found, _, read, meaning, _⟩
  simp only [dbgpUpdateControlInfoBgpstruct, protocol, found, ok_bind,
    World.isLookupServicePath_of_read read, meaning.isLookupServicePath,
    newPathletsUpdateControlInfoBgpstruct, isPrivate, addOwnPathlet, require, if_neg outside]
  rfl

theorem announceOneHopPathlet_outside
    (settled : Settled islandEnvironment.config.privateIp created fid world)
    (full : created.length = 256) :
    announceOneHopPathlet islandEnvironment islandPeer oneHopAdvertisement.network world =
      .error (.assertion .privateSubnet) := by
  have address : world.pathlets.nextIp = 0x0A000100 := by
    rw [settled.allocates.nextIp, full]
    decide
  have announced : world.skippedFirst ≠ 0 := by
    have counted := settled.counted
    omega
  have isPathlets : islandPeer.bgp.dbgpProtocol = .pathlets := rfl
  have stops := dbgpUpdateControlInfoBgpstruct_outside islandEnvironment isPathlets
    (by decide +kernel : islandEnvironment.config.isPublicPrefix (hostRoute 0x0A000100) = false)
    (by decide +kernel)
  simp [announceOneHopPathlet, getNextIp, insertPathletToSend, insertPathletIntoGraph,
    oneHopPathlet, announceStaticRoute, address, str2prefixIpv4_announceIp, bgpStaticUpdate,
    isPathlets, announced, stops]

/-- The same destination announced once more than there are addresses. -/
theorem oneHop_exhausts_addresses :
    ∃ state, Transitions (receiveStep islandEnvironment) islandWorld
        (List.replicate 256 oneHopAdvertisement) state ∧
      receiveStep islandEnvironment state oneHopAdvertisement =
        some (.error (.assertion .privateSubnet)) := by
  rcases oneHop_run 256 settled_islandWorld (by decide) with
    ⟨state, created, fid, run, settled, full⟩
  refine ⟨state, run, ?_⟩
  rw [receiveStep_oneHop, announceOneHopPathlet_outside settled full]

end Quagga.Dbgp
