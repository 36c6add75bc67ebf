import Quagga.Bgp.Route

/-!
# Routes that go out

`bgp_announce_check` of `bgp_route.c`: whether a route of the routing table is announced to
a peer, and with which attributes. The output filter of D-BGP gets the attributes in the
table; everything later works on a copy.
-/

namespace Quagga.Bgp

open Foundation Dbgp Execution

variable {network : Prefix} {peer : Peer}

/-- What `bgp_announce_check` reads of the peer it announces to, for one address family. -/
structure Outbound where
  sort : PeerSort
  rserverClient : Bool
  reflectorClient : Bool
  defaultOriginate : Bool
  /-- The prefix list the peer sent, if it has the capability to. -/
  orfPlist? : Option (Prefix → Bool)
  unsuppressMap? : Option RouteMap
  routeMapOut? : Option RouteMap
  medUnchanged : Bool
  nexthopUnchanged : Bool
  nexthopSelf : Bool
  nexthopSelfAll : Bool
  nexthopLocalUnchanged : Bool
  removePrivateAs : Bool
  sharedNetwork : Bool
  nexthopV4 : UInt32
  nexthopV6Global : Bytes
  nexthopV6Local : Bytes
  multiaccessCheck : UInt32 → Bool

/-- The same of `struct bgp`, and whether announcements are switched off. -/
structure OutboundInstance where
  disableAnnounce : Bool
  confedId? : Option UInt32
  noClientToClient : Bool
  defaultLocalPref : UInt32

/-- The same of the peer the route came from, and of the route itself. -/
structure RouteSource where
  /-- The route came from the peer it would be announced to. -/
  isPeer : Bool
  isSelf : Bool
  sort : PeerSort
  remoteId : UInt32
  rserverClient : Bool
  reflectorClient : Bool
  suppressed : Bool

/-- One call of `bgp_announce_check`. -/
structure Announcing where
  bgp : OutboundInstance
  peer : Peer
  outbound : Outbound
  source : RouteSource
  network : Prefix
  safi : Safi

def isUnspecified (address : Bytes) : Bool := address.all (· = 0)

def isLinkLocalAddress (address : Bytes) : Bool := Prefix.isLinkLocal ⟨.ip6, 128, address⟩

namespace Announcing

variable (call : Announcing)

def transparent : Bool := call.outbound.rserverClient && call.source.rserverClient

def reflect : Bool := call.source.sort = .ibgp && call.outbound.sort = .ibgp

def bgpCommunityFilter (community : List UInt32) : Bool :=
  0xFFFFFF02 ∈ community ||
  (call.outbound.sort = .ebgp && 0xFFFFFF01 ∈ community) ||
  ((call.outbound.sort = .ebgp || call.outbound.sort = .confed) && 0xFFFFFF03 ∈ community)

def isDefaultRoute : Bool :=
  match call.network.family with
  | .ip => call.network.prefix4 = 0
  | .ip6 => call.network.prefixlen = 0

/-- The checks before the output filter of D-BGP. -/
def withheld (riattr : Attr Nat) : Bool :=
  call.bgp.disableAnnounce || call.outbound.rserverClient || call.source.isPeer ||
  (call.source.suppressed && call.outbound.unsuppressMap?.isNone) ||
  (call.outbound.defaultOriginate && call.isDefaultRoute) ||
  (!call.transparent && riattr.community?.any call.bgpCommunityFilter) ||
  (.originatorId ∈ riattr.flag && call.peer.remoteId == riattr.originatorId) ||
  call.outbound.orfPlist?.any fun permits => !permits call.network

/-- The checks behind it: the confederation, and what a route reflector passes on. -/
def withheldAfterFilter (riattr : Attr Nat) : Bool :=
  (call.bgp.confedId?.any fun confedId => riattr.loopCheck confedId ≠ 0) ||
  (call.reflect &&
    if call.source.reflectorClient then
      call.bgp.noClientToClient && call.outbound.reflectorClient
    else !call.outbound.reflectorClient)

/-! ## Changes to the copy -/

def setLocalPref (attr : Attr Nat) : Attr Nat :=
  if (call.outbound.sort = .ibgp ∨ call.outbound.sort = .confed) ∧ .localPref ∉ attr.flag then
    { attr with flag := insert .localPref attr.flag, localPref := call.bgp.defaultLocalPref }
  else attr

/-- The code ors the number of the attribute into the flags instead of its bit, which sets
the bits of two others. -/
def setOriginatorId (attr : Attr Nat) : Attr Nat :=
  if call.reflect ∧ .originatorId ∉ attr.flag then
    { attr with
      originatorId := call.source.remoteId
      flag := insert .origin (insert .multiExitDisc attr.flag) }
  else attr

def removeMed (attr : Attr Nat) : Attr Nat :=
  if call.outbound.sort = .ebgp ∧ .multiExitDisc ∈ attr.flag ∧ ¬ call.source.isSelf ∧
      ¬ call.transparent ∧ ¬ call.outbound.medUnchanged then
    { attr with flag := attr.flag.erase .multiExitDisc }
  else attr

def nexthopMissing (attr : Attr Nat) : Bool :=
  match call.network.family with
  | .ip => attr.nexthop = 0
  | .ip6 => isUnspecified attr.mpNexthopGlobal

def setNexthop (attr : Attr Nat) : Attr Nat :=
  if call.transparent || (call.reflect && !call.outbound.nexthopSelfAll) ||
      (call.outbound.nexthopUnchanged && !call.nexthopMissing attr) then attr
  else if call.outbound.nexthopSelf || call.nexthopMissing attr ||
      (call.outbound.sort = .ebgp && !call.outbound.multiaccessCheck attr.nexthop) then
    match call.network.family with
    | .ip =>
      if call.safi = .mplsVpn then { attr with mpNexthopGlobalIn := call.outbound.nexthopV4 }
      else { attr with nexthop := call.outbound.nexthopV4 }
    | .ip6 => { attr with mpNexthopGlobal := call.outbound.nexthopV6Global, mpNexthopLen := 16 }
  else attr

def setNexthopLocal (attr : Attr Nat) : Attr Nat :=
  match call.network.family with
  | .ip => attr
  | .ip6 =>
    if call.outbound.nexthopLocalUnchanged then
      { attr with mpNexthopLen := if isLinkLocalAddress attr.mpNexthopLocal then 32 else 16 }
    else
      let shared := call.outbound.sharedNetwork ∧ ¬ isUnspecified call.outbound.nexthopV6Local
      { attr with
        mpNexthopLocal := if shared then call.outbound.nexthopV6Local else attr.mpNexthopLocal
        mpNexthopLen := if shared ∧ ¬ call.reflect ∧
          isLinkLocalAddress call.outbound.nexthopV6Local then 32 else 16 }

def removePrivateAs (attr : Attr Nat) : Attr Nat :=
  if call.outbound.sort = .ebgp ∧ call.outbound.removePrivateAs ∧
      attr.aspath?.any AsPath.privateAsCheck then
    { attr with aspath? := some [] }
  else attr

/-- A reflected route is only checked by the route map, not changed. -/
def applyRouteMap (attr : Attr Nat) : Option (Attr Nat) :=
  let map? := if call.source.suppressed then call.outbound.unsuppressMap?
    else call.outbound.routeMapOut?
  match map? with
  | none => some attr
  | some map =>
    (map.apply call.network attr).map fun changed => if call.reflect then attr else changed

def announcedAttr (riattr : Attr Nat) : Option (Attr Nat) :=
  call.applyRouteMap (call.removePrivateAs (call.setNexthopLocal (call.setNexthop
    (call.removeMed (call.setOriginatorId (call.setLocalPref riattr))))))

/-- The memory and the attributes in the table afterwards, and the attributes to announce
if the route is announced. -/
def bgpAnnounceCheck (env : Environment) (world : World) (riattr : Attr Nat) :
    Execution (World × Attr Nat × Option (Attr Nat)) :=
  if call.withheld riattr then .ok (world, riattr, none)
  else do
    let (world, riattr, status) ← dbgpOutputFilter env call.peer call.network world riattr
    if status = .filtered ∨ call.withheldAfterFilter riattr then return (world, riattr, none)
    else return (world, riattr, call.announcedAttr riattr)

def announceAll (env : Environment) : List Announcing → World → Attr Nat →
    Execution (World × Attr Nat × List (Option (Attr Nat)))
  | [], world, riattr => .ok (world, riattr, [])
  | call :: calls, world, riattr => do
      let (world, riattr, announced) ← call.bgpAnnounceCheck env world riattr
      let (world, riattr, later) ← announceAll env calls world riattr
      return (world, riattr, announced :: later)

end Announcing

/-! ## What an announcement does to the table -/

def RibKept (world : World) (riattr : Attr Nat) (after : World) (riattr' : Attr Nat) : Prop :=
  riattr' = riattr ∧ ∀ pointer, riattr.transit? = some pointer →
    after.transits.read pointer = world.transits.read pointer

def HasServicePath (world : World) (riattr : Attr Nat) : Prop :=
  ∃ pointer, riattr.transit? = some pointer ∧ world.isLookupServicePath pointer = .ok true

/-- The calls that get to the update of the control information in the output filter. -/
def Announcing.Rewrites (call : Announcing) (env : Environment) (world : World)
    (riattr : Attr Nat) : Prop :=
  call.withheld riattr = false ∧ call.peer.bgp.dbgpProtocol = .pathlets ∧
    env.config.isPublicPrefix call.network = true ∧ ¬ HasServicePath world riattr

theorem newPathletsUpdateControlInfo_transit {config : Configuration}
    {state state' : PathletInternalState} {attr attr' : Attr Nat} {info info' : ControlInfo}
    (returned : newPathletsUpdateControlInfo config peer network state attr info =
      .ok (state', attr', info')) : attr'.transit? = attr.transit? := by
  unfold newPathletsUpdateControlInfo at returned
  split at returned
  · split at returned
    · cases returned
      rfl
    · simp only [handlePublicPrefixForExternal, bind_eq_ok, pure_eq_ok, Except.ok.injEq] at returned
      rcases returned with ⟨_, ⟨_, _, rfl⟩, _, rfl, _⟩
      rfl
  · rcases bind_eq_ok.mp returned with ⟨aspath, _, rest⟩
    split at rest <;>
      (rcases bind_eq_ok.mp rest with ⟨_, _, rest⟩
       rcases bind_eq_ok.mp rest with ⟨_, _, rest⟩
       cases rest
       rfl)

theorem dbgpUpdateControlInfo_pathlets {env : Environment}
    (pathlets : peer.bgp.dbgpProtocol = .pathlets) {world after : World} {riattr riattr' : Attr Nat}
    (fresh : world.service.values world.service.nextKey = none)
    (returned : dbgpUpdateControlInfo env peer network world riattr = .ok (after, riattr')) :
    (HasServicePath world riattr ∧ after = world ∧ riattr' = riattr) ∨
      (¬ HasServicePath world riattr ∧ ¬ RibKept world riattr after riattr') := by
  simp only [dbgpUpdateControlInfo, pathlets] at returned
  rcases bind_eq_ok.mp returned with ⟨⟨world', attr', pointer, info⟩, found, rest⟩
  rcases bind_eq_ok.mp rest with ⟨isPath, tested, rest⟩
  rcases getControlInformation_cases (by decide) found with
    ⟨absent, rfl, rfl, rfl⟩ | ⟨present, rfl, rfl, transit, read, resolves⟩
  · -- the route gets a place for a key, and keeps it
    right
    constructor
    · rintro ⟨_, present, _⟩
      rw [absent] at present
      cases present
    · intro kept
      split at rest
      · cases rest
        have transits := congrArg Attr.transit? kept.1
        rw [absent] at transits
        cases transits
      · rcases bind_eq_ok.mp rest with ⟨⟨_, _, _⟩, updated, rest⟩
        rcases bind_eq_ok.mp rest with ⟨_, _, same⟩
        cases same
        have transits := (newPathletsUpdateControlInfo_transit updated).symm
        dsimp only at transits kept
        rw [kept.1, absent] at transits
        cases transits
  · split at rest
    · rename_i path
      cases rest
      left
      rw [path] at tested
      exact ⟨⟨pointer, present, tested⟩, rfl, rfl⟩
    · rename_i other
      right
      constructor
      · rintro ⟨again, presentAgain, path⟩
        rw [present] at presentAgain
        cases presentAgain
        rw [tested] at path
        exact other (Except.ok.inj path)
      · rcases bind_eq_ok.mp rest with ⟨⟨state, _, _⟩, updated, rest⟩
        rcases bind_eq_ok.mp rest with ⟨stored, set, same⟩
        cases same
        rintro ⟨_, keys⟩
        have key := keys pointer present
        rw [World.setControlInfo_returned set, Heap.read_write_same read, read,
          Option.some.injEq] at key
        -- a key in use is never drawn again
        subst key
        rcases resolves (by simp) with ⟨inUse, keyRead, value⟩
        simp only [Transit.ofKey_val, readKey_keyOctets, Option.some.injEq] at keyRead
        subst keyRead
        rw [fresh] at value
        cases value

theorem dbgpOutputFilter_cases {env : Environment} {world after : World} {riattr riattr' : Attr Nat}
    {status : FilteredStatus}
    (returned : dbgpOutputFilter env peer network world riattr = .ok (after, riattr', status)) :
    (¬ (peer.bgp.dbgpProtocol = .pathlets ∧ env.config.isPublicPrefix network = true) ∧
      after = world ∧ riattr' = riattr) ∨
    (peer.bgp.dbgpProtocol = .pathlets ∧ env.config.isPublicPrefix network = true ∧
      dbgpUpdateControlInfo env peer network world riattr = .ok (after, riattr')) := by
  unfold dbgpOutputFilter at returned
  split at returned
  case h_5 =>
    rename_i pathlets
    unfold pathletsOutputFilter at returned
    cases isPublic : env.config.isPublicPrefix network with
    | false =>
      left
      cases isMember : env.config.isRemoteAsAnIslandMember (toInt peer.as) <;>
        (simp only [isPublic, isMember] at returned
         cases returned
         exact ⟨by simp, rfl, rfl⟩)
    | true =>
      right
      simp only [isPublic, Bool.not_true, Bool.false_eq_true, and_false] at returned
      rcases bind_eq_ok.mp returned with ⟨result, updated, same⟩
      cases same
      exact ⟨pathlets, rfl, updated⟩
  case h_6 => cases returned
  all_goals
    rename_i protocol
    cases returned
    exact .inl ⟨by simp [protocol], rfl, rfl⟩

namespace Announcing

variable {call : Announcing} {env : Environment} {world after : World}
  {riattr riattr' : Attr Nat} {announced : Option (Attr Nat)}

theorem bgpAnnounceCheck_cases (fresh : world.service.values world.service.nextKey = none)
    (returned : call.bgpAnnounceCheck env world riattr = .ok (after, riattr', announced)) :
    (¬ call.Rewrites env world riattr ∧ after = world ∧ riattr' = riattr) ∨
      (call.Rewrites env world riattr ∧ ¬ RibKept world riattr after riattr') := by
  unfold bgpAnnounceCheck at returned
  split at returned
  · rename_i withheld
    cases returned
    exact .inl ⟨fun rewrites => absurd withheld (by simp [rewrites.1]), rfl, rfl⟩
  · rename_i passed
    have notWithheld : call.withheld riattr = false := by simpa using passed
    rcases bind_eq_ok.mp returned with ⟨⟨filtered, filteredAttr, status⟩, filter, rest⟩
    have result : after = filtered ∧ riattr' = filteredAttr := by
      dsimp only at rest
      split at rest <;> (cases rest; exact ⟨rfl, rfl⟩)
    rcases result with ⟨rfl, rfl⟩
    rcases dbgpOutputFilter_cases filter with ⟨other, rfl, rfl⟩ | ⟨pathlets, isPublic, updated⟩
    · exact .inl ⟨fun rewrites => other ⟨rewrites.2.1, rewrites.2.2.1⟩, rfl, rfl⟩
    · rcases dbgpUpdateControlInfo_pathlets pathlets fresh updated with
        ⟨path, rfl, rfl⟩ | ⟨noPath, changed⟩
      · exact .inl ⟨fun rewrites => rewrites.2.2.2 path, rfl, rfl⟩
      · exact .inr ⟨⟨notWithheld, pathlets, isPublic, noPath⟩, changed⟩

theorem announceAll_independent (fresh : world.service.values world.service.nextKey = none)
    {calls : List Announcing} {results : List (Option (Attr Nat))}
    (keep : ∀ call ∈ calls, ¬ call.Rewrites env world riattr)
    (returned : announceAll env calls world riattr = .ok (after, riattr', results)) :
    (after = world ∧ riattr' = riattr) ∧
      List.Forall₂ (fun call announced =>
        call.bgpAnnounceCheck env world riattr = .ok (world, riattr, announced)) calls results := by
  induction calls generalizing results with
  | nil =>
    cases returned
    exact ⟨⟨rfl, rfl⟩, .nil⟩
  | cons call calls induction =>
    rcases bind_eq_ok.mp returned with ⟨⟨next, nextAttr, announced⟩, here, rest⟩
    rcases bind_eq_ok.mp rest with ⟨⟨_, _, later⟩, there, same⟩
    cases same
    rcases List.forall_mem_cons.mp keep with ⟨keepsHere, keepLater⟩
    rcases bgpAnnounceCheck_cases fresh here with ⟨_, rfl, rfl⟩ | ⟨rewrites, _⟩
    · rcases induction keepLater there with ⟨unchanged, laterResults⟩
      exact ⟨unchanged, .cons here laterResults⟩
    · exact absurd rewrites keepsHere

end Announcing

/-- A call leaves the table as it is exactly if it does not get to the update of the control
information; and what is announced to one peer after another, by calls that do not, is what
would be announced to each of them alone. -/
theorem announce_keeps_rib_iff (env : Environment) (world : World) (riattr : Attr Nat)
    (fresh : world.service.values world.service.nextKey = none) :
    (∀ call after riattr' announced,
      Announcing.bgpAnnounceCheck call env world riattr = .ok (after, riattr', announced) →
      (RibKept world riattr after riattr' ↔ ¬ call.Rewrites env world riattr)) ∧
    ∀ calls after riattr' results,
      Announcing.announceAll env calls world riattr = .ok (after, riattr', results) →
      (∀ call ∈ calls, ¬ call.Rewrites env world riattr) →
      (after = world ∧ riattr' = riattr) ∧
        List.Forall₂ (fun call announced =>
          call.bgpAnnounceCheck env world riattr = .ok (world, riattr, announced))
          calls results := by
  constructor
  · intro call after riattr' announced returned
    rcases Announcing.bgpAnnounceCheck_cases fresh returned with
      ⟨keeps, rfl, rfl⟩ | ⟨rewrites, changed⟩
    · exact ⟨fun _ => keeps, fun _ => ⟨rfl, fun _ _ => rfl⟩⟩
    · exact ⟨fun kept => absurd kept changed, fun keeps => absurd rewrites keeps⟩
  · intro calls after riattr' results returned keep
    exact Announcing.announceAll_independent fresh keep returned

/-! A pathlets router of island 1000, whose private addresses are in 10.0.0.0/16, with a
neighbour on the island, AS 3, and one outside, AS 2. -/

def islandConfig : Environment := ⟨⟨[3], 0x0a000000, ⟨none⟩, id⟩, .machine, some⟩

def plainOutbound : Outbound where
  sort := .ebgp
  rserverClient := false
  reflectorClient := false
  defaultOriginate := false
  orfPlist? := none
  unsuppressMap? := none
  routeMapOut? := none
  medUnchanged := false
  nexthopUnchanged := false
  nexthopSelf := false
  nexthopSelfAll := false
  nexthopLocalUnchanged := false
  removePrivateAs := false
  sharedNetwork := false
  nexthopV4 := 0x0a000001
  nexthopV6Global := []
  nexthopV6Local := []
  multiaccessCheck _ := true

def announceTo (remoteAs : UInt32) (network : Prefix) : Announcing where
  bgp := ⟨false, none, false, 100⟩
  peer := ⟨⟨1, 2, .pathlets, 1000⟩, remoteAs, 2, 5⟩
  outbound := plainOutbound
  source := ⟨false, false, .ebgp, 9, false, false, false⟩
  network := network
  safi := .unicast

def publicNetwork : Prefix := ⟨.ip, 8, [20, 0, 0, 0]⟩

def privateNetwork : Prefix := ⟨.ip, 32, [10, 0, 0, 7]⟩

def tableWorld : World :=
  ⟨⟨fun key => if key = 1 then some [] else none, fun _ _ => none, fun _ => 7⟩, ⟨[.ofKey 1]⟩,
    .create 0, .inLookupservice 0, 0, []⟩

def tableAttr : Attr Nat :=
  { (Attr.zero : Attr Nat) with
    aspath? := some [⟨.asSequence, [50]⟩], nexthop := 0x14000001, transit? := some 0 }

theorem privateNetwork_keeps_rib :
    ∃ after riattr' announced, (announceTo 3 privateNetwork).bgpAnnounceCheck islandConfig
        tableWorld tableAttr = .ok (after, riattr', announced) ∧
      RibKept tableWorld tableAttr after riattr' := by
  refine ⟨tableWorld, tableAttr, (announceTo 3 privateNetwork).announcedAttr tableAttr, rfl, ?_⟩
  apply ((announce_keeps_rib_iff islandConfig tableWorld tableAttr rfl).1
    (announceTo 3 privateNetwork) tableWorld tableAttr _ rfl).mpr
  rintro ⟨_, _, isPublic, _⟩
  exact absurd isPublic (by decide)

/-- A public prefix that goes outside: the path in the table becomes that of the island, with
a new key, and the neighbour on the island gets that path if it comes second. -/
theorem publicNetwork_rewrites_rib :
    (∃ result, (announceTo 2 publicNetwork).bgpAnnounceCheck islandConfig tableWorld tableAttr =
        .ok result ∧ ¬ RibKept tableWorld tableAttr result.1 result.2.1 ∧
      result.2.1.aspath? = some [⟨.asSequence, [1000]⟩] ∧
      result.1.transits.read 0 = some (.ofKey 7)) ∧
    (Announcing.announceAll islandConfig [announceTo 3 publicNetwork] tableWorld
        tableAttr).toOption.map (fun result =>
          result.2.2.map fun announced => announced.map Attr.aspath?) =
      some [some (some [⟨.asSequence, [50]⟩])] ∧
    (Announcing.announceAll islandConfig [announceTo 2 publicNetwork, announceTo 3 publicNetwork]
        tableWorld tableAttr).toOption.map (fun result =>
          result.2.2.map fun announced => announced.map Attr.aspath?) =
      some [some (some [⟨.asSequence, [1000]⟩]), some (some [⟨.asSequence, [1000]⟩])] := by
  refine ⟨?_, by decide +kernel⟩
  have changed : ((announceTo 2 publicNetwork).bgpAnnounceCheck islandConfig tableWorld
      tableAttr).toOption.map (fun result => (result.2.1.aspath?, result.1.transits.read 0)) =
        some (some [⟨.asSequence, [1000]⟩], some (.ofKey 7)) := by
    decide +kernel
  cases returned : (announceTo 2 publicNetwork).bgpAnnounceCheck islandConfig tableWorld
      tableAttr with
  | error fault =>
    rw [returned] at changed
    cases changed
  | ok result =>
    rw [returned] at changed
    rcases Prod.mk.inj (Option.some.inj changed) with ⟨path, key⟩
    refine ⟨result, rfl, ?_, path, key⟩
    intro kept
    rw [kept.1] at path
    cases path

end Quagga.Bgp
