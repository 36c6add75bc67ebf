import Quagga.Bgp.PeerFilter
import Quagga.Foundation.Keyed

/-!
# The routing table as its callers change it

The routes of one main table, `bgp->rib[afi][safi]`, with their hold-down flags, and what is
counted over them: the prefix count of each peer, and the contributing routes of each
aggregate. The flag helpers come first, then dampening and aggregates, and then the code that
adds, changes and removes routes. What it learns from elsewhere is part of an event: whether
attributes are equal, whether a next hop is reachable, how a penalty stands to the limits.
-/

namespace Quagga.Bgp

open Foundation

inductive RibPeer where
  | self
  | neighbour (index : Nat)
deriving Repr, DecidableEq

/-- `peer`, `type` and `sub_type` of a route. Redistributed routes keep the type they were
redistributed from, all others are of type `ZEBRA_ROUTE_BGP`. -/
inductive RibSource where
  | neighbour (index : Nat)
  | static
  | redistribute (type : Nat)
  | aggregate
deriving Repr, DecidableEq

def RibSource.peer : RibSource → RibPeer
  | neighbour index => .neighbour index
  | _ => .self

def RibSource.isRedistributed : RibSource → Bool
  | redistribute _ => true
  | _ => false

structure RibNode where
  rd? : Option Bytes
  network : Prefix
deriving Repr, DecidableEq

/-- `lastrecord`; the penalty is what the events of dampening tell. -/
structure DampInfo where
  lastWithdraw : Bool
deriving Repr, DecidableEq

structure InfoExtra where
  suppress : Int
  damp? : Option DampInfo
deriving Repr, DecidableEq

inductive InfoFlag where
  | valid
  | history
  | damped
  | removed
  | stale
  | attrChanged
deriving Repr, DecidableEq

/-- `VALID|UNUSEABLE`: the flags that change whether a route can be used. -/
def InfoFlag.changesUse : InfoFlag → Bool
  | valid | history | damped | removed => true
  | stale | attrChanged => false

/-- `struct bgp_info`. The pointer to it is `id`, and a new one is not `linked` until it is
added to its node. -/
structure RibInfo where
  id : Nat
  node : RibNode
  source : RibSource
  valid : Bool
  history : Bool
  damped : Bool
  removed : Bool
  stale : Bool
  attrChanged : Bool
  counted : Bool
  extra? : Option InfoExtra
  linked : Bool
deriving Repr, DecidableEq

namespace RibInfo

variable (info : RibInfo)

def isHolddown : Bool := !info.valid || info.history || info.damped || info.removed

def put (value : Bool) (info : RibInfo) : InfoFlag → RibInfo
  | .valid => { info with valid := value }
  | .history => { info with history := value }
  | .damped => { info with damped := value }
  | .removed => { info with removed := value }
  | .stale => { info with stale := value }
  | .attrChanged => { info with attrChanged := value }

/-- `bgp_info_extra_get`, which allocates the extra part when it is missing. -/
def extraGet : InfoExtra := info.extra?.getD ⟨0, none⟩

def damp? : Option DampInfo := info.extra?.bind InfoExtra.damp?

def setDamp (damp? : Option DampInfo) : RibInfo :=
  { info with extra? := some { info.extraGet with damp? := damp? } }

def suppress : RibInfo :=
  { info with extra? := some { info.extraGet with suppress := info.extraGet.suppress + 1 } }

/-- Without the extra part nothing is taken back. -/
def unsuppress : RibInfo :=
  match info.extra? with
  | none => info
  | some extra =>
    { info with
      extra? := some { extra with suppress := extra.suppress - 1 }
      attrChanged := info.attrChanged || extra.suppress == 1 }

end RibInfo

/-- `struct bgp_aggregate` and its prefix. The count is an unsigned long that is only compared
with zero, and subtracting before adding can take it below. -/
structure Aggregate where
  network : Prefix
  summaryOnly : Bool
  count : Int
deriving Repr, DecidableEq

structure RibTable where
  afi : Afi
  safi : Safi
deriving Repr, DecidableEq

def RibTable.maxBitlen (table : RibTable) : Nat := maxPrefixlen table.afi.code

def RibTable.has (table : RibTable) (node : RibNode) : Bool :=
  node.network.prefixlen ≤ table.maxBitlen && node.rd?.isSome == (table.safi == .mplsVpn)

/-- The routes of a node stand in the order of its list, the latest first. The aggregates stand
with the longest first, which is the order of the walk from a prefix up the tree of aggregates. -/
@[ext] structure Rib where
  infos : List RibInfo
  nextId : Nat
  pcount : RibPeer → Nat
  aggregates : List Aggregate
  /-- `bgp_pcount_adjust` has warned that a count of zero was to be decremented. -/
  warned : Bool

namespace Rib

def empty : Rib := ⟨[], 0, fun _ => 0, [], false⟩

variable (rib : Rib)

def info? (id : Nat) : Option RibInfo := recordAt RibInfo.id id rib.infos

def change (id : Nat) (change : RibInfo → RibInfo) : Rib :=
  { rib with infos := changeAt RibInfo.id id change rib.infos }

/-! ## Flags -/

def putCounted (id : Nat) (value : Bool) (peer : RibPeer) (count : Nat) : Rib :=
  { rib with
    infos := changeAt RibInfo.id id (fun info => { info with counted := value }) rib.infos
    pcount := Function.update rib.pcount peer count }

/-- `bgp_pcount_adjust` for a node of the main table. A count of zero is not decremented. -/
def pcountAdjust (id : Nat) : Rib :=
  match rib.info? id with
  | none => rib
  | some info =>
    let peer := info.source.peer
    if peer = .self then rib
    else if info.isHolddown && info.counted then
      { rib.putCounted id false peer (rib.pcount peer - 1) with
        warned := rib.warned || rib.pcount peer == 0 }
    else if !info.isHolddown && !info.counted then
      rib.putCounted id true peer (rib.pcount peer + 1)
    else rib

def infoPutFlag (value : Bool) (id : Nat) (flags : List InfoFlag) : Rib :=
  let rib := rib.change id fun info => flags.foldl (RibInfo.put value) info
  if flags.any InfoFlag.changesUse then rib.pcountAdjust id else rib

def infoSetFlag (id : Nat) (flags : List InfoFlag) : Rib := rib.infoPutFlag true id flags

def infoUnsetFlag (id : Nat) (flags : List InfoFlag) : Rib := rib.infoPutFlag false id flags

def infoDelete (id : Nat) : Rib :=
  (rib.infoSetFlag id [.removed]).change id (RibInfo.put false · .valid)

def infoRestore (id : Nat) : Rib :=
  (rib.infoUnsetFlag id [.removed]).change id (RibInfo.put true · .valid)

/-- `bgp_info_new` with the node, the source and the flags that are set directly. -/
def infoNew (node : RibNode) (source : RibSource) (valid : Bool) (extra? : Option InfoExtra) :
    Rib :=
  { rib with
    infos := ⟨rib.nextId, node, source, valid, false, false, false, false, false, false, extra?,
      false⟩ :: rib.infos
    nextId := rib.nextId + 1 }

def infoAdd (id : Nat) : Rib := rib.change id fun info => { info with linked := true }

end Rib

/-! ## Dampening -/

/-- How the penalty of a route stands to `suppress_value`, to `reuse_limit` and to half of
`reuse_limit`. -/
structure Penalty where
  belowSuppress : Bool
  belowReuse : Bool
  forgotten : Bool
  belowReuse_of_forgotten : forgotten = true → belowReuse = true

inductive DampStatus where
  | used
  | suppressed
deriving Repr, DecidableEq

namespace Rib

section

variable (rib : Rib)

def dampInfoFree (id : Nat) (withdraw : Bool) : Rib :=
  match (rib.info? id).bind RibInfo.damp? with
  | none => rib
  | some damp =>
    let rib := (rib.change id (RibInfo.setDamp · none)).infoUnsetFlag id [.history, .damped]
    if damp.lastWithdraw && withdraw then rib.infoDelete id else rib

def dampWithdraw (id : Nat) (penalty : Penalty) : Rib × DampStatus :=
  let rib := (rib.change id (RibInfo.setDamp · (some ⟨true⟩))).infoSetFlag id [.history]
  if (rib.info? id).any RibInfo.damped then (rib, .suppressed)
  else if !penalty.belowSuppress then (rib.infoSetFlag id [.damped], .used)
  else (rib, .used)

def dampReview (id : Nat) (penalty : Penalty) : Rib × DampStatus :=
  let result :=
    if (rib.info? id).any RibInfo.damped then
      if penalty.belowReuse then (rib.infoUnsetFlag id [.damped], DampStatus.used)
      else (rib, .suppressed)
    else if penalty.belowSuppress then (rib, .used)
    else (rib, .suppressed)
  if penalty.forgotten then (result.1.dampInfoFree id false, result.2) else result

def dampUpdate (id : Nat) (penalty : Penalty) : Rib × DampStatus :=
  match (rib.info? id).bind RibInfo.damp? with
  | none => (rib, .used)
  | some _ =>
    let rib := (rib.infoUnsetFlag id [.history]).change id (RibInfo.setDamp · (some ⟨false⟩))
    rib.dampReview id penalty

/-- `bgp_damp_scan`, for a route with dampening information. `expired` is whether it has been
suppressed for the maximal time. -/
def dampScan (id : Nat) (expired : Bool) (penalty : Penalty) : Rib × Bool :=
  match rib.info? id with
  | none => (rib, false)
  | some info =>
    if info.damped then
      if expired then
        (rib.infoUnsetFlag id [.damped], info.damp?.any fun damp => !damp.lastWithdraw)
      else (rib, false)
    else if penalty.forgotten then (rib.dampInfoFree id true, false)
    else (rib, false)

end

/-! ## Aggregates -/

end Rib

/-- The prefix stands above the other one in the tree. -/
def Aggregate.covers (aggregate : Aggregate) (network : Prefix) : Bool :=
  aggregate.network.prefixlen < network.prefixlen && prefixMatch aggregate.network network

def RibInfo.contributes (info : RibInfo) : Bool := !info.isHolddown && info.source != .aggregate

/-- A walk over the nodes below the aggregate comes to the route and counts it. -/
def Aggregate.counts (aggregate : Aggregate) (info : RibInfo) : Bool :=
  info.linked && info.contributes && aggregate.covers info.node.network

/-- The walk of `bgp_aggregate_delete` at one route. -/
def Aggregate.lower (aggregate : Aggregate) (info : RibInfo) : RibInfo :=
  if aggregate.counts info && aggregate.summaryOnly then info.unsuppress else info

/-- The routes the walk of `bgp_aggregate_route` counts, which leaves out `del?`. -/
def Aggregate.countsBut (aggregate : Aggregate) (del? : Option Nat) (info : RibInfo) : Bool :=
  aggregate.counts info && some info.id != del?

def Aggregate.raise (aggregate : Aggregate) (del? : Option Nat) (info : RibInfo) : RibInfo :=
  if aggregate.countsBut del? info && aggregate.summaryOnly then
    info.suppress.put true .attrChanged
  else info

def RibInfo.isAggregateAt (network : Prefix) (info : RibInfo) : Bool :=
  info.linked && info.node == ⟨none, network⟩ && info.source == .aggregate

namespace Rib

section

variable (table : RibTable) (rib : Rib)

def addCount (network : Prefix) (amount : Int) : Rib :=
  { rib with
    aggregates := changeAt Aggregate.network network
      (fun aggregate => { aggregate with count := aggregate.count + amount }) rib.aggregates }

def aggregateDelete (aggregate : Aggregate) : Rib :=
  if aggregate.network.prefixlen = table.maxBitlen then rib
  else
    let rib := { rib.addCount aggregate.network (-(rib.infos.countP aggregate.counts : Int)) with
      infos := rib.infos.map aggregate.lower }
    match rib.infos.find? (RibInfo.isAggregateAt aggregate.network) with
    | none => rib
    | some info => rib.infoDelete info.id

/-- The last part of `bgp_aggregate_route` and `bgp_aggregate_add`. -/
def announceAggregate (network : Prefix) : Rib :=
  match recordAt Aggregate.network network rib.aggregates with
  | none => rib
  | some aggregate =>
    if aggregate.count ≠ 0 then
      (rib.infoNew ⟨none, network⟩ .aggregate true none).infoAdd rib.nextId
    else rib

/-- The first part of `bgp_aggregate_route`. The route `new?` is counted in any case, also when
the walk has come to it. -/
def aggregateWalk (new? del? : Option Nat) (aggregate : Aggregate) : Rib :=
  let rib := { rib.addCount aggregate.network (rib.infos.countP (aggregate.countsBut del?)) with
    infos := rib.infos.map (aggregate.raise del?) }
  match new? with
  | none => rib
  | some id =>
    let rib := rib.addCount aggregate.network 1
    if aggregate.summaryOnly then rib.change id RibInfo.suppress else rib

def aggregateRoute (new? del? : Option Nat) (aggregate : Aggregate) : Rib :=
  (rib.aggregateWalk new? del? aggregate).announceAggregate aggregate.network

/-- `bgp_aggregate_add`, which walks like `bgp_aggregate_route` without a route of its own. -/
def aggregateAdd (aggregate : Aggregate) : Rib :=
  if aggregate.network.prefixlen = table.maxBitlen then rib
  else rib.aggregateRoute none none aggregate

def covering (network : Prefix) : List Aggregate := rib.aggregates.filter (·.covers network)

def aggregateIncrement (network : Prefix) (id : Nat) : Rib :=
  if table.safi = .mplsVpn ∨ network.prefixlen = 0 ∨ (rib.info? id).any RibInfo.isHolddown then rib
  else
    (rib.covering network).foldl (fun rib aggregate =>
      (rib.aggregateDelete table aggregate).aggregateRoute (some id) none aggregate) rib

def aggregateDecrement (network : Prefix) (id : Nat) : Rib :=
  if table.safi = .mplsVpn ∨ network.prefixlen = 0 then rib
  else
    (rib.covering network).foldl (fun rib aggregate =>
      (rib.aggregateDelete table aggregate).aggregateRoute none (some id) aggregate) rib

def aggregateUnset (aggregate : Aggregate) : Rib :=
  let rib := rib.aggregateDelete table aggregate
  { rib with aggregates := rib.aggregates.filter fun other => other.network != aggregate.network }

/-- `bgp_aggregate_set`, which replaces an aggregate of the same prefix. -/
def aggregateSet (network : Prefix) (summaryOnly : Bool) : Rib :=
  let rib := match recordAt Aggregate.network network rib.aggregates with
    | none => rib
    | some old => rib.aggregateUnset table old
  let aggregate := ⟨network, summaryOnly, 0⟩
  let longer := fun other : Aggregate => decide (network.prefixlen ≤ other.network.prefixlen)
  let rib := { rib with
    aggregates := rib.aggregates.filter longer ++ aggregate ::
      rib.aggregates.filter fun other => !longer other }
  rib.aggregateAdd table aggregate

/-! ## Routes of neighbours -/

def search (node : RibNode) (wanted : RibSource → Bool) : Option RibInfo :=
  rib.infos.find? fun info => info.linked && info.node == node && wanted info.source

def ribRemove (info : RibInfo) : Rib :=
  let rib := rib.aggregateDecrement table info.node.network info.id
  if (rib.info? info.id).any fun info => !info.history then rib.infoDelete info.id else rib

def ribWithdraw (info : RibInfo) (dampens : Bool) (penalty : Penalty) : Rib :=
  if dampens then
    match rib.dampWithdraw info.id penalty with
    | (rib, .suppressed) => rib.aggregateDecrement table info.node.network info.id
    | (rib, .used) => rib.ribRemove table info
  else rib.ribRemove table info

end

end Rib

/-- What the check of a next hop finds: whether it is reachable, or need not be, and whether
`bgp_nexthop_lookup` was asked and has a metric for it. -/
structure NexthopCheck where
  valid : Bool
  metric : Bool
deriving Repr, DecidableEq

/-- What `bgp_update_main` finds out about an accepted route: whether the peer is dampened,
whether the attributes are those of the old route, and about the next hop. -/
structure Arrival where
  dampens : Bool
  sameAttr : Bool
  nexthop : NexthopCheck
  withdrawn : Penalty
  updated : Penalty

namespace Rib

section

variable (table : RibTable) (rib : Rib)

def updateSame (info : RibInfo) (arrival : Arrival) : Rib :=
  let rib := rib.infoUnsetFlag info.id [.attrChanged]
  if arrival.dampens && info.history then
    match rib.dampUpdate info.id arrival.updated with
    | (rib, .suppressed) => rib
    | (rib, .used) => rib.aggregateIncrement table info.node.network info.id
  else if info.stale then rib.infoUnsetFlag info.id [.stale]
  else rib

/-- What `bgp_nexthop_lookup` does to a route: the metric is kept in the extra part, which is
allocated for one that is not zero. -/
def nexthopLookup (id : Nat) (check : NexthopCheck) : Rib :=
  if check.valid && check.metric then
    rib.change id fun info => { info with extra? := some info.extraGet }
  else rib

/-- The check of the next hop and what follows it. -/
def updateNexthop (info : RibInfo) (arrival : Arrival) : Rib :=
  let rib := rib.nexthopLookup info.id arrival.nexthop
  let rib := rib.infoPutFlag arrival.nexthop.valid info.id [.valid]
  rib.aggregateIncrement table info.node.network info.id

def updateDampened (info : RibInfo) (arrival : Arrival) : Rib × DampStatus :=
  let rib :=
    if (rib.info? info.id).any fun info => !info.history then
      (rib.dampWithdraw info.id arrival.withdrawn).1
    else rib
  rib.dampUpdate info.id arrival.updated

/-- An implicit withdraw, or a route that comes back before its withdraw was processed. -/
def updateChanged (info : RibInfo) (arrival : Arrival) : Rib :=
  let rib := if info.removed then rib.infoRestore info.id else rib
  let rib := if info.stale then rib.infoUnsetFlag info.id [.stale] else rib
  let rib := rib.infoSetFlag info.id [.attrChanged]
  let rib := rib.aggregateDecrement table info.node.network info.id
  if arrival.dampens then
    match rib.updateDampened info arrival with
    | (rib, .suppressed) => rib
    | (rib, .used) => rib.updateNexthop table info arrival
  else rib.updateNexthop table info arrival

def updateNew (node : RibNode) (peer : Nat) (arrival : Arrival) : Rib :=
  let id := rib.nextId
  -- The MPLS tag of a VPN route is kept in the extra part.
  let extra? := if table.safi = .mplsVpn then some ⟨0, none⟩ else none
  let rib := rib.infoNew node (.neighbour peer) false extra?
  let rib := rib.nexthopLookup id arrival.nexthop
  let rib := rib.infoPutFlag arrival.nexthop.valid id [.valid]
  (rib.aggregateIncrement table node.network id).infoAdd id

/-- `bgp_update_main` for a route that no filter has stopped. -/
def update (node : RibNode) (peer : Nat) (arrival : Arrival) : Rib :=
  match rib.search node (· == .neighbour peer) with
  | none => rib.updateNew table node peer arrival
  | some info =>
    if !info.removed && arrival.sameAttr then rib.updateSame table info arrival
    else rib.updateChanged table info arrival

/-- `bgp_update_main` for a route that a filter has stopped. -/
def updateFiltered (node : RibNode) (peer : Nat) : Rib :=
  match rib.search node (· == .neighbour peer) with
  | none => rib
  | some info => rib.ribRemove table info

def withdraw (node : RibNode) (peer : Nat) (dampens : Bool) (penalty : Penalty) : Rib :=
  match rib.search node (· == .neighbour peer) with
  | none => rib
  | some info => if info.history then rib else rib.ribWithdraw table info dampens penalty

/-- `bgp_clear_route_node`. The routes of a peer that restarts gracefully become stale. -/
def clearRouteNode (node : RibNode) (peer : Nat) (nsf : Bool) : Rib :=
  match rib.search node (· == .neighbour peer) with
  | none => rib
  | some info =>
    if nsf && !info.stale && !(info.history || info.damped || info.removed) then
      rib.infoSetFlag info.id [.stale]
    else rib.ribRemove table info

def clearStaleRoute (node : RibNode) (peer : Nat) : Rib :=
  match rib.search node (· == .neighbour peer) with
  | none => rib
  | some info => if info.stale then rib.ribRemove table info else rib

/-! ## Scanning and reuse -/

def scanValid (info : RibInfo) (nexthop : NexthopCheck) : Rib :=
  let rib := rib.nexthopLookup info.id nexthop
  if nexthop.valid = info.valid then rib
  else if info.valid then
    (rib.aggregateDecrement table info.node.network info.id).infoUnsetFlag info.id [.valid]
  else
    (rib.infoSetFlag info.id [.valid]).aggregateIncrement table info.node.network info.id

def scan (info : RibInfo) (nexthop : NexthopCheck) (dampening expired : Bool)
    (penalty : Penalty) : Rib :=
  let rib := rib.scanValid table info nexthop
  if dampening && info.damp?.isSome then
    match rib.dampScan info.id expired penalty with
    | (rib, true) => rib.aggregateIncrement table info.node.network info.id
    | (rib, false) => rib
  else rib

/-- `bgp_reuse_timer` at one route of the list. -/
def reuse (info : RibInfo) (penalty : Penalty) : Rib :=
  if penalty.belowReuse then
    let rib := rib.infoUnsetFlag info.id [.damped]
    let rib :=
      if info.damp?.any fun damp => !damp.lastWithdraw then
        (rib.infoUnsetFlag info.id [.history]).aggregateIncrement table info.node.network info.id
      else rib
    if penalty.forgotten then rib.dampInfoFree info.id true else rib
  else rib

/-! ## Routes of the router itself -/

/-- The common part of `bgp_static_update_main` and `bgp_redistribute_add`, from the search on. -/
def originate (node : RibNode) (source : RibSource) (wanted : RibSource → Bool) (sameAttr : Bool) :
    Rib :=
  match rib.search node wanted with
  | some info =>
    if sameAttr && !info.removed then rib
    else
      let rib := rib.infoSetFlag info.id [.attrChanged]
      let rib :=
        if info.removed then rib.infoRestore info.id
        else rib.aggregateDecrement table info.node.network info.id
      rib.aggregateIncrement table info.node.network info.id
  | none =>
    let id := rib.nextId
    let rib := rib.infoNew node source true none
    (rib.aggregateIncrement table node.network id).infoAdd id

/-- `bgp_static_update_vpnv4`, which does not look for an old route. -/
def staticUpdateVpnv4 (node : RibNode) : Rib :=
  let id := rib.nextId
  let rib := rib.infoNew node .static true (some ⟨0, none⟩)
  (rib.aggregateIncrement table node.network id).infoAdd id

def staticUpdate (node : RibNode) (sameAttr : Bool) : Rib :=
  if table.safi = .mplsVpn then rib.staticUpdateVpnv4 table node
  else rib.originate table node .static (· == .static) sameAttr

/-- The search takes a redistributed route of any type. -/
def redistributeAdd (node : RibNode) (type : Nat) (sameAttr : Bool) : Rib :=
  rib.originate table node (.redistribute type)
    RibSource.isRedistributed sameAttr

def retract (node : RibNode) (source : RibSource) : Rib :=
  match rib.search node (· == source) with
  | none => rib
  | some info =>
    (rib.aggregateDecrement table info.node.network info.id).infoDelete info.id

def staticWithdraw (node : RibNode) : Rib := rib.retract table node .static

def redistributeDelete (node : RibNode) (type : Nat) : Rib :=
  rib.retract table node (.redistribute type)

/-- `bgp_info_reap`. Freeing the route frees its dampening information. -/
def infoReap (id : Nat) : Rib :=
  let rib := rib.dampInfoFree id false
  { rib with infos := rib.infos.filter fun info => info.id != id }

end

end Rib

/-! ## Runs -/

inductive RibEvent where
  | update (node : RibNode) (peer : Nat) (arrival : Arrival)
  | updateFiltered (node : RibNode) (peer : Nat)
  | withdraw (node : RibNode) (peer : Nat) (dampens : Bool) (penalty : Penalty)
  | clearRouteNode (node : RibNode) (peer : Nat) (nsf : Bool)
  | clearStaleRoute (node : RibNode) (peer : Nat)
  | scan (id : Nat) (nexthop : NexthopCheck) (dampening expired : Bool) (penalty : Penalty)
  | reuse (id : Nat) (penalty : Penalty)
  | clearDampening (id : Nat)
  | staticUpdate (node : RibNode) (sameAttr : Bool)
  | staticWithdraw (node : RibNode)
  | redistributeAdd (node : RibNode) (type : Nat) (sameAttr : Bool)
  | redistributeDelete (node : RibNode) (type : Nat)
  | aggregateSet (network : Prefix) (summaryOnly : Bool)
  | aggregateUnset (network : Prefix)
  | reap (id : Nat)

def RibEvent.node? : RibEvent → Option RibNode
  | update node _ _ | updateFiltered node _ | withdraw node _ _ _ | clearRouteNode node _ _
  | clearStaleRoute node _ | staticUpdate node _ | staticWithdraw node | redistributeAdd node _ _
  | redistributeDelete node _ => some node
  | aggregateSet network _ | aggregateUnset network => some ⟨none, network⟩
  | scan _ _ _ _ _ | reuse _ _ | clearDampening _ | reap _ => none

/-- The route an event is for, in the events that walk over all routes. -/
def Rib.walked (rib : Rib) (id : Nat) (eligible : RibInfo → Bool) (next : RibInfo → Rib) :
    Option (Except Empty Rib) :=
  match rib.info? id with
  | none => none
  | some info => if info.linked && eligible info then some (.ok (next info)) else none

/-- `bgp_scan` looks at the routes of neighbours, the reuse list holds the damped routes, and
`bgp_process` reaps the routes that were removed. -/
def ribAct (table : RibTable) (rib : Rib) : RibEvent → Option (Except Empty Rib)
  | .update node peer arrival => some (.ok (rib.update table node peer arrival))
  | .updateFiltered node peer => some (.ok (rib.updateFiltered table node peer))
  | .withdraw node peer dampens penalty => some (.ok (rib.withdraw table node peer dampens penalty))
  | .clearRouteNode node peer nsf => some (.ok (rib.clearRouteNode table node peer nsf))
  | .clearStaleRoute node peer => some (.ok (rib.clearStaleRoute table node peer))
  | .scan id nexthop dampening expired penalty =>
    rib.walked id (fun info => info.source.peer != .self) fun info =>
      rib.scan table info nexthop dampening expired penalty
  | .reuse id penalty =>
    rib.walked id (fun info => info.damped && info.damp?.isSome) fun info =>
      rib.reuse table info penalty
  | .clearDampening id =>
    rib.walked id (fun info => info.damp?.isSome) fun info => rib.dampInfoFree info.id true
  | .staticUpdate node sameAttr => some (.ok (rib.staticUpdate table node sameAttr))
  | .staticWithdraw node => some (.ok (rib.staticWithdraw table node))
  | .redistributeAdd node type sameAttr =>
    some (.ok (rib.redistributeAdd table node type sameAttr))
  | .redistributeDelete node type => some (.ok (rib.redistributeDelete table node type))
  | .aggregateSet network summaryOnly => some (.ok (rib.aggregateSet table network summaryOnly))
  | .aggregateUnset network =>
    match recordAt Aggregate.network network rib.aggregates with
    | none => none
    | some aggregate => some (.ok (rib.aggregateUnset table aggregate))
  | .reap id => rib.walked id RibInfo.removed fun info => rib.infoReap info.id

def ribStep (table : RibTable) : StepFunction Rib RibEvent Empty := fun rib event =>
  if event.node?.all table.has then ribAct table rib event else none

end Quagga.Bgp
