import Quagga.Bgp.Nlri
import Quagga.Dbgp.Dispatch
import Quagga.Foundation.Interning

/-!
# Routes that come in

`bgp_update_main` and `bgp_withdraw` of `bgp_route.c` for the routes of one peer, without
route server clients and dampening. The attributes of a route refer to its lookup key by a
pointer: copying and interning attributes keeps the pointer, so every route of an UPDATE
shares one key with the message. The hash key of interned attributes depends on the lookup
key behind the pointer, which may be rewritten while they are in use.
-/

namespace Quagga.Bgp

open Foundation Dbgp

/-- What a route map does to attributes, or that it denies the route. No `set` command
touches the transitive attribute. -/
structure RouteMap where
  apply : Prefix → Attr Nat → Option (Attr Nat)
  keepsTransit : ∀ {network attr result}, apply network attr = some result →
    result.transit? = attr.transit?

def RouteMap.permitAll : RouteMap where
  apply _ attr := some attr
  keepsTransit := by
    intro network attr result applied
    rw [Option.some.inj applied]

structure MaximumPrefix where
  pmax : Nat
  warningOnly : Bool
deriving Repr, DecidableEq

/-- What `bgp_update_main` reads of a peer and of the interfaces, for one address family. -/
structure Inbound where
  sort : PeerSort
  ttl : Nat
  disableConnectedCheck : Bool
  changeLocalAs? : Option UInt32
  localAsNoPrepend : Bool
  allowasIn : Nat
  confedId? : Option UInt32
  clusterId? : Option UInt32
  weight : UInt32
  routeMapIn : RouteMap
  maximumPrefix? : Option MaximumPrefix
  nexthopOnlink : UInt32 → Bool
  nexthopSelf : UInt32 → Bool

def Attr.loopCheck {τ : Type} (attr : Attr τ) (asno : UInt32) : Nat :=
  attr.aspath?.elim 0 (·.loopCheck asno)

def isClassDE (address : UInt32) : Bool := address &&& 0xe0000000 = 0xe0000000

section

variable (inbound : Inbound) (bgp : Instance)

/-- The checks of the attributes as they were received. -/
def isLooped (attr : Attr Nat) : Bool :=
  (inbound.changeLocalAs?.any fun localAs =>
    (if inbound.localAsNoPrepend then 0 else 1) < attr.loopCheck localAs) ||
  inbound.allowasIn < attr.loopCheck bgp.as ||
  (inbound.confedId?.any fun confedId => inbound.allowasIn < attr.loopCheck confedId) ||
  (.originatorId ∈ attr.flag && bgp.routerId == attr.originatorId) ||
  (attr.cluster?.any fun cluster => inbound.clusterId?.getD bgp.routerId ∈ cluster)

def bgpInputModifier (network : Prefix) (attr : Attr Nat) : Option (Attr Nat) :=
  inbound.routeMapIn.apply network
    (if inbound.weight = 0 then attr else { attr with weight := inbound.weight })

def isMartian (afi : Afi) (safi : Safi) (attr : Attr Nat) : Bool :=
  afi = .ip && safi = .unicast &&
    ((inbound.sort = .ebgp && inbound.ttl = 1 && !inbound.nexthopOnlink attr.nexthop &&
        !inbound.disableConnectedCheck) ||
      attr.nexthop = 0 || isClassDE attr.nexthop || inbound.nexthopSelf attr.nexthop)

/-- The attributes a route is taken in with, if no filter before those of D-BGP stops it. -/
def inboundAttr (afi : Afi) (safi : Safi) (network : Prefix) (attr : Attr Nat) :
    Option (Attr Nat) :=
  if isLooped inbound bgp attr then none
  else (bgpInputModifier inbound network attr).filter fun attr =>
    !isMartian inbound afi safi attr

end

theorem inboundAttr_transit {inbound : Inbound} {bgp : Instance} {afi : Afi} {safi : Safi}
    {network : Prefix} {attr newAttr : Attr Nat}
    (admitted : inboundAttr inbound bgp afi safi network attr = some newAttr) :
    newAttr.transit? = attr.transit? := by
  unfold inboundAttr at admitted
  split at admitted
  · cases admitted
  · have mapped := (Option.filter_eq_some_iff.mp admitted).1
    rw [inbound.routeMapIn.keepsTransit mapped]
    split <;> rfl

/-! ## The routing table -/

structure Route where
  attr : Attr Nat
  /-- The interned object that holds the attributes. -/
  object : Nat
  /-- `BGP_INFO_REMOVED`: the route is about to go. -/
  removed : Bool
deriving DecidableEq

/-- The routes of the peer for one address family, with what the peer counts of them. -/
structure RoutingTable where
  routes : Prefix → Option Route
  pcount : Nat
  /-- `PEER_STATUS_PREFIX_LIMIT` -/
  prefixLimit : Bool

/-- `attrhash`. What `attrhash_key_make` mixes into a key includes the octets of the
transitive attribute. -/
structure AttrHash where
  hashKey : Attr Nat → Option Transit → UInt32
  interned : InternTable (Attr Nat)

structure Router where
  world : World
  table : RoutingTable
  attrhash : AttrHash

namespace AttrHash

variable (attrhash : AttrHash) (world : World) (attr : Attr Nat)

def keyMake : UInt32 := attrhash.hashKey attr (attr.transit?.bind world.transits.read)

def bgpAttrIntern : AttrHash × Nat :=
  let (interned, object) := attrhash.interned.intern (attrhash.keyMake world attr) attr
  ({ attrhash with interned := interned }, object)

def bgpAttrUnintern (object : Nat) : Execution AttrHash :=
  match attrhash.interned.unintern (attrhash.keyMake world attr) attr object with
  | none => .error (.assertion .attrReleased)
  | some interned => .ok { attrhash with interned := interned }

/-- The new attributes are interned. Then the old ones are given up, or the new ones again if
the route has the same. -/
def exchange (old? : Option Route) : Execution (AttrHash × Nat) :=
  let (interning, object) := attrhash.bgpAttrIntern world attr
  match old? with
  | none => .ok (interning, object)
  | some route => do
      let released ←
        if route.removed = false ∧ route.attr = attr then
          interning.bgpAttrUnintern world attr object
        else interning.bgpAttrUnintern world route.attr route.object
      return (released, object)

end AttrHash

def maskOctets : Nat → Bytes → Bytes
  | _, [] => []
  | bits, octet :: octets =>
    UInt8.ofNat (octet.toNat / 2 ^ (8 - bits) * 2 ^ (8 - bits)) :: maskOctets (bits - 8) octets

/-- A node of the table is found by the bits of the prefix only. -/
def Prefix.node (network : Prefix) : Prefix :=
  { network with address := maskOctets network.prefixlen network.address }

namespace RoutingTable

variable (table : RoutingTable)

def lookup (network : Prefix) : Option Route := table.routes network.node

def store (network : Prefix) (route : Route) : RoutingTable :=
  { table with routes := Function.update table.routes network.node (some route) }

def remove (network : Prefix) : RoutingTable :=
  match table.lookup network with
  | none => table
  | some route =>
    { table.store network { route with removed := true } with
      pcount := if route.removed then table.pcount else table.pcount - 1 }

def maximumPrefixOverflow (maximum? : Option MaximumPrefix) : RoutingTable × Bool :=
  match maximum? with
  | none => (table, false)
  | some maximum =>
    if maximum.pmax < table.pcount then
      if table.prefixLimit then (table, false)
      else ({ table with prefixLimit := true }, !maximum.warningOnly)
    else ({ table with prefixLimit := false }, false)

/-- The end of `bgp_update_main`: an equal route stays as it is, another one is replaced,
and a new one is counted. -/
def install (maximum? : Option MaximumPrefix) (network : Prefix) (attr : Attr Nat)
    (object : Nat) : RoutingTable × Bool :=
  match table.lookup network with
  | some route =>
    if route.removed = false ∧ route.attr = attr then (table, true)
    else ({ table.store network ⟨attr, object, false⟩ with
      pcount := if route.removed then table.pcount + 1 else table.pcount }, true)
  | none =>
    let added := { table.store network ⟨attr, object, false⟩ with pcount := table.pcount + 1 }
    let (table, overflow) := added.maximumPrefixOverflow maximum?
    (table, !overflow)

theorem lookup_store (network other : Prefix) (route : Route) :
    (table.store network route).lookup other =
      if other.node = network.node then some route else table.lookup other := by
  simp [lookup, store, Function.update_apply]

theorem lookup_remove (network other : Prefix) :
    (table.remove network).lookup other =
      if other.node = network.node then
        (table.lookup network).map fun route => { route with removed := true }
      else table.lookup other := by
  cases found : table.lookup network with
  | none =>
    simp only [remove, found]
    by_cases same : other.node = network.node
    · rw [Option.map_none, ← found]
      simp [lookup, same]
    · rw [if_neg same]
  | some route =>
    simp only [remove, found]
    exact table.lookup_store network other { route with removed := true }

theorem routes_install (maximum? : Option MaximumPrefix) (network : Prefix) (attr : Attr Nat)
    (object : Nat) :
    ∃ kept, (table.install maximum? network attr object).1.routes =
      Function.update table.routes network.node (some ⟨attr, kept, false⟩) := by
  have limited : ∀ added : RoutingTable,
      (added.maximumPrefixOverflow maximum?).1.routes = added.routes := by
    intro added
    unfold maximumPrefixOverflow
    repeat' split
    all_goals rfl
  cases found : table.lookup network with
  | none =>
    simp only [install, found]
    exact ⟨object, limited _⟩
  | some route =>
    simp only [install, found]
    by_cases equal : route.removed = false ∧ route.attr = attr
    · rw [if_pos equal]
      refine ⟨route.object, ?_⟩
      rw [← equal.1, ← equal.2, ← found]
      exact (Function.update_eq_self _ _).symm
    · rw [if_neg equal]
      exact ⟨object, rfl⟩

theorem lookup_install (maximum? : Option MaximumPrefix) (network : Prefix) (attr : Attr Nat)
    (object : Nat) :
    ∃ kept, ∀ other, (table.install maximum? network attr object).1.lookup other =
      if other.node = network.node then some ⟨attr, kept, false⟩ else table.lookup other := by
  rcases table.routes_install maximum? network attr object with ⟨kept, routes⟩
  refine ⟨kept, fun other => ?_⟩
  simp [lookup, routes, Function.update_apply]

theorem install_unlimited (network : Prefix) (attr : Attr Nat) (object : Nat) :
    (table.install none network attr object).2 = true := by
  unfold install
  repeat' split
  all_goals rfl

end RoutingTable

section

variable (env : Environment) (inbound : Inbound) (peer : Peer)

def bgpUpdateMain (afi : Afi) (safi : Safi) (network : Prefix) (attr : Attr Nat)
    (router : Router) : Execution (Router × Bool) :=
  let filtered := fun router : Router =>
    ({ router with table := router.table.remove network }, true)
  match inboundAttr inbound peer.bgp afi safi network attr with
  | none => .ok (filtered router)
  | some newAttr => do
      let (world, newAttr, status) ← dbgpInputFilter env peer network router.world newAttr
      if status = .filtered then return filtered { router with world := world }
      else
        let (world, newAttr) ← dbgpUpdateControlInfo env peer network world newAttr
        let (attrhash, object) ←
          router.attrhash.exchange world newAttr (router.table.lookup network)
        let (table, accepted) :=
          router.table.install inbound.maximumPrefix? network newAttr object
        return (⟨world, table, attrhash⟩, accepted)

def bgpWithdraw (network : Prefix) (router : Router) : Execution Router :=
  .ok { router with table := router.table.remove network }

/-- The routing table as the parsers of reachability information see it. -/
def routeHandler : RouteHandler Router (Attr Nat) where
  update := bgpUpdateMain env inbound peer
  withdraw _ _ := bgpWithdraw

end

end Quagga.Bgp
