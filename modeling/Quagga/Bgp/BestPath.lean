import Quagga.Bgp.Attr
import Quagga.Foundation.GroupSelection

/-!
# The decision process

`bgp_info_cmp` of `bgp_common.c` and `bgp_best_selection` of `bgp_route.c`, with one path for
a prefix. The routes of a node are a list in the order of the node's chain, and a pointer to
one of them is its position.
-/

namespace Quagga.Bgp

/-! ## Routes of a node -/

/-- The address families have the numbers 2 and 10. -/
inductive SockUnion where
  | inet (address : UInt32)
  | inet6 (address : Vector UInt8 16)
deriving DecidableEq

inductive RouteSubType where
  | normal
  | static
  | aggregate
  | redistribute
deriving Repr, DecidableEq

structure RoutePeer where
  sort : PeerSort
  remoteId : UInt32
  suRemote : SockUnion
deriving DecidableEq

structure InfoFlags where
  damped : Bool
  history : Bool
  selected : Bool
  valid : Bool
  removed : Bool
  dmedCheck : Bool
  dmedSelected : Bool
deriving Repr, DecidableEq

/-- `struct bgp_info`. A stored route has an AS path without empty segments, and its cluster
list if the flag says so. -/
structure BgpInfo where
  peer : RoutePeer
  attr : Attr Nat
  subType : RouteSubType
  /-- There is a metric only with `extra`. -/
  igpmetric? : Option UInt32
  flags : InfoFlags
  hasAspath : attr.aspath?.isSome = true
  hasAses : ∀ path ∈ attr.aspath?, ∀ segment ∈ path, segment.as ≠ []
  hasCluster : .clusterList ∈ attr.flag → attr.cluster?.isSome = true
deriving DecidableEq

namespace BgpInfo

variable (info : BgpInfo)

def aspath : AsPath := info.attr.aspath?.get info.hasAspath

def holddown : Bool :=
  !info.flags.valid || info.flags.history || info.flags.damped || info.flags.removed

def setDmedCheck (value : Bool) : BgpInfo :=
  { info with flags := { info.flags with dmedCheck := value } }

def setDmedSelected (value : Bool) : BgpInfo :=
  { info with flags := { info.flags with dmedSelected := value } }

end BgpInfo

/-! ## Comparing two routes -/

namespace AsPath

def firstNonConfed (path : AsPath) : Option AsSegment :=
  path.find? fun segment => segment.type ≠ .asConfedSequence && segment.type ≠ .asConfedSet

def cmpLeft (first second : AsPath) : Bool :=
  match first.firstNonConfed, second.firstNonConfed with
  | some ⟨.asSequence, firstAs⟩, some ⟨.asSequence, secondAs⟩ => firstAs.head? = secondAs.head?
  | _, _ => false

def cmpLeftConfed (first second : AsPath) : Bool :=
  match first, second with
  | ⟨.asConfedSequence, firstAs⟩ :: _, ⟨.asConfedSequence, secondAs⟩ :: _ =>
    firstAs.head? = secondAs.head?
  | _, _ => false

end AsPath

def in6addrCmp : List UInt8 → List UInt8 → Ordering
  | first :: firsts, second :: seconds =>
    if first > second then .gt else if first < second then .lt else in6addrCmp firsts seconds
  | _, _ => .eq

def sockunionCmp : SockUnion → SockUnion → Ordering
  | .inet _, .inet6 _ => .lt
  | .inet6 _, .inet _ => .gt
  | .inet first, .inet second =>
    if first = second then .eq else if first > second then .gt else .lt
  | .inet6 first, .inet6 second => in6addrCmp first.toList second.toList

structure BestPath where
  defaultLocalPref : UInt32
  alwaysCompareMed : Bool
  deterministicMed : Bool
  medMissingAsWorst : Bool
  medConfed : Bool
  aspathIgnore : Bool
  aspathConfed : Bool
  compareRouterId : Bool
deriving Repr, DecidableEq

/-- One step of the comparison: the smaller number is preferred, and on a tie the next step
decides. -/
def preferSmaller (new exist : Nat) (next : Bool) : Bool :=
  if new < exist then true else if exist < new then false else next

namespace BestPath

variable (bgp : BestPath)

def medValue (attr : Attr Nat) : UInt32 :=
  if .multiExitDisc ∈ attr.flag then attr.med
  else if bgp.medMissingAsWorst then 4294967295 else 0

def localPref (attr : Attr Nat) : UInt32 :=
  if .localPref ∈ attr.flag then attr.localPref else bgp.defaultLocalPref

def pathLength (path : AsPath) : Nat :=
  if bgp.aspathConfed then path.countHops + path.countConfeds else path.countHops

def comparesMed (new exist : AsPath) : Bool :=
  let internalAsRoute := new.countHops = 0 && exist.countHops = 0
  let confedAsRoute := 0 < new.countConfeds && 0 < exist.countConfeds && internalAsRoute
  bgp.alwaysCompareMed || (bgp.medConfed && confedAsRoute) || new.cmpLeft exist ||
    new.cmpLeftConfed exist || internalAsRoute

end BestPath

namespace BgpInfo

def routerId (info : BgpInfo) : UInt32 :=
  if .originatorId ∈ info.attr.flag then info.attr.originatorId else info.peer.remoteId

def clusterLength (info : BgpInfo) : Nat :=
  if .clusterList ∈ info.attr.flag then 4 * (info.attr.cluster?.getD []).length else 0

end BgpInfo

def bgpInfoCmp (bgp : BestPath) (new : BgpInfo) (exist? : Option BgpInfo) : Bool :=
  match exist? with
  | none => true
  | some exist =>
    preferSmaller exist.attr.weight.toNat new.attr.weight.toNat <|
    preferSmaller (bgp.localPref exist.attr).toNat (bgp.localPref new.attr).toNat <|
    -- Local routes are preferred.
    if new.subType ≠ .normal then true
    else if exist.subType ≠ .normal then false
    else
      (if bgp.aspathIgnore then id
        else preferSmaller (bgp.pathLength new.aspath) (bgp.pathLength exist.aspath)) <|
      preferSmaller new.attr.origin.toNat exist.attr.origin.toNat <|
      (if bgp.comparesMed new.aspath exist.aspath then
        preferSmaller (bgp.medValue new.attr).toNat (bgp.medValue exist.attr).toNat
      else id) <|
      if new.peer.sort = .ebgp && (exist.peer.sort = .ibgp || exist.peer.sort = .confed) then true
      else if exist.peer.sort = .ebgp && (new.peer.sort = .ibgp || new.peer.sort = .confed) then
        false
      else
        preferSmaller (new.igpmetric?.getD 0).toNat (exist.igpmetric?.getD 0).toNat <|
        -- The oldest of external paths, unless router ids are to be compared.
        if !bgp.compareRouterId && new.peer.sort = .ebgp && exist.peer.sort = .ebgp &&
            (new.flags.selected || exist.flags.selected) then new.flags.selected
        else
          preferSmaller new.routerId.toNat exist.routerId.toNat <|
          preferSmaller new.clusterLength exist.clusterLength <|
          sockunionCmp new.peer.suRemote exist.peer.suRemote ≠ .gt

/-! ## Selecting the best route -/

section

variable (bgp : BestPath) (infoCmp : BgpInfo → Option BgpInfo → Bool)

/-- The body of the inner loop with `bgp deterministic-med`: the route at `second` against
the best so far of the group that `ri1` opened. -/
def compareInGroup (ri1 : BgpInfo) (state : List BgpInfo × Nat) (second : Nat) :
    List BgpInfo × Nat :=
  match state.1[second]? with
  | none => state
  | some ri2 =>
    if ri2.flags.dmedCheck || ri2.holddown then state
    else if ri1.aspath.cmpLeft ri2.aspath || ri1.aspath.cmpLeftConfed ri2.aspath then
      let compared : List BgpInfo × Nat :=
        if infoCmp ri2 state.1[state.2]? then
          (state.1.modify state.2 (·.setDmedSelected false), second)
        else state
      (compared.1.modify second (·.setDmedCheck true), compared.2)
    else state

def selectInGroup (routes : List BgpInfo) (first : Nat) : List BgpInfo :=
  match routes[first]? with
  | none => routes
  | some ri1 =>
    if ri1.flags.dmedCheck || ri1.holddown then routes
    else
      let compared := (List.range' (first + 1) (routes.length - (first + 1))).foldl
        (compareInGroup infoCmp ri1) (routes, first)
      compared.1.modify compared.2 fun newSelect =>
        (newSelect.setDmedCheck true).setDmedSelected true

def selectInGroups (routes : List BgpInfo) : List BgpInfo :=
  (List.range' 0 routes.length).foldl (selectInGroup infoCmp) routes

/-- The node's routes, and the positions of `struct bgp_info_pair`. -/
structure InfoPair where
  routes : List BgpInfo
  old? : Option Nat
  new? : Option Nat
deriving DecidableEq

/-- The body of the loop over all routes: `routes` are those before this one that have not
been reaped. -/
def selectAmongGroups (state : InfoPair) (ri : BgpInfo) : InfoPair :=
  let position := state.routes.length
  let old? := if ri.flags.selected then some position else state.old?
  if ri.holddown then
    -- `bgp_info_reap`
    if ri.flags.removed && old? ≠ some position then { state with old? := old? }
    else { state with routes := state.routes ++ [ri], old? := old? }
  else if bgp.deterministicMed && !ri.flags.dmedSelected then
    { state with routes := state.routes ++ [ri.setDmedCheck false], old? := old? }
  else
    let ri := (ri.setDmedCheck false).setDmedSelected false
    { routes := state.routes ++ [ri], old? := old?,
      new? := if infoCmp ri (state.new?.bind (state.routes[·]?)) then some position
        else state.new? }

def bgpBestSelection (routes : List BgpInfo) : InfoPair :=
  let routes := if bgp.deterministicMed then selectInGroups infoCmp routes else routes
  routes.foldl (selectAmongGroups bgp infoCmp) ⟨[], none, none⟩

end

end Quagga.Bgp
