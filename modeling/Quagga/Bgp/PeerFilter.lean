import Quagga.Bgp.Announce
import Quagga.Bgp.SharedKey

/-!
# Filters of a neighbour

A neighbour can be configured with a distribute-list, a prefix-list and an AS-path
filter-list for each direction. `bgp_input_filter` and `bgp_output_filter` evaluate them, but
`bgp_update_main` and `bgp_announce_check` call the filters of D-BGP in their place. So a
prefix that a list denies is stopped by other checks, or not at all.
-/

namespace Quagga.Bgp

open Foundation Dbgp Execution

/-! ## Lists -/

inductive FilterType where
  | deny
  | permit
deriving Repr, DecidableEq

/-- The first rule that matches decides, and without one the answer is to deny. -/
def firstMatchType {ρ : Type} (type : ρ → FilterType) (isMatch : ρ → Bool) (rules : List ρ) :
    FilterType :=
  ((rules.find? isMatch).map type).getD .deny

def maskbit (shift : Nat) : UInt8 := UInt8.ofNat (256 - 2 ^ (8 - shift))

def prefixMatch (network other : Prefix) : Bool :=
  let offset := network.prefixlen / 8
  let shift := network.prefixlen % 8
  network.prefixlen ≤ other.prefixlen &&
    (shift = 0 || maskbit shift &&& (network.address.getD offset 0 ^^^ other.address.getD offset 0)
      = 0) &&
    network.address.take offset = other.address.take offset

def masklen2ip (masklen : Nat) : UInt32 := UInt32.ofNat (2 ^ 32 - 2 ^ (32 - masklen))

inductive AccessMatch where
  | cisco (extended : Bool) (addr addrMask mask maskMask : UInt32)
  | zebra (exact : Bool) (network : Prefix)
deriving Repr, DecidableEq

/-- `filter_match_cisco` and `filter_match_zebra`. -/
def AccessMatch.isMatch (network : Prefix) : AccessMatch → Bool
  | cisco extended addr addrMask mask maskMask =>
    network.prefix4 &&& ~~~addrMask = addr &&
      (!extended || masklen2ip network.prefixlen &&& ~~~maskMask = mask)
  | zebra exact own =>
    own.family = network.family && (!exact || own.prefixlen = network.prefixlen) &&
      prefixMatch own network

structure AccessRule where
  type : FilterType
  rule : AccessMatch
deriving Repr, DecidableEq

/-- A list that does not exist denies. -/
def accessListApply (access? : Option (List AccessRule)) (network : Prefix) : FilterType :=
  access?.elim .deny (firstMatchType AccessRule.type fun rule => rule.rule.isMatch network)

structure PrefixListEntry where
  type : FilterType
  network : Prefix
  le : Nat
  ge : Nat
deriving Repr, DecidableEq

def PrefixListEntry.isMatch (other : Prefix) (entry : PrefixListEntry) : Bool :=
  prefixMatch entry.network other &&
    if entry.le = 0 ∧ entry.ge = 0 then entry.network.prefixlen = other.prefixlen
    else (entry.le = 0 || other.prefixlen ≤ entry.le) &&
      (entry.ge = 0 || entry.ge ≤ other.prefixlen)

/-- A list without entries permits everything. -/
def prefixListApply (plist? : Option (List PrefixListEntry)) (network : Prefix) : FilterType :=
  plist?.elim .deny fun plist =>
    if plist = [] then .permit
    else firstMatchType PrefixListEntry.type (PrefixListEntry.isMatch network) plist

/-- An entry of an AS-path list. The regular expression is applied to the text of the path. -/
structure AsFilter where
  type : FilterType
  isMatch : AsPath → Bool

def asListApply (aslist? : Option (List AsFilter)) (aspath? : Option AsPath) :
    Execution FilterType :=
  match aslist? with
  | none => .ok .deny
  | some aslist =>
    if aslist = [] then .ok .deny
    else do
      let aspath ← Execution.defined aspath?
      return firstMatchType AsFilter.type (fun filter => filter.isMatch aspath) aslist

/-! ## The filters of a neighbour -/

/-- The lists of one direction. A list can be configured by a name that no list has. -/
structure FilterLists where
  distribute? : Option (Option (List AccessRule))
  prefixList? : Option (Option (List PrefixListEntry))
  filterList? : Option (Option (List AsFilter))

structure BgpFilter where
  incoming : FilterLists
  outgoing : FilterLists

def FilterLists.apply (lists : FilterLists) (network : Prefix) (attr : Attr Nat) :
    Execution FilterType :=
  if lists.distribute?.any fun list => accessListApply list network = .deny then .ok .deny
  else if lists.prefixList?.any fun list => prefixListApply list network = .deny then .ok .deny
  else match lists.filterList? with
    | none => .ok .permit
    | some list => asListApply list attr.aspath?

def bgpInputFilter (filter : BgpFilter) (network : Prefix) (attr : Attr Nat) :
    Execution FilterType :=
  filter.incoming.apply network attr

def bgpOutputFilter (filter : BgpFilter) (network : Prefix) (attr : Attr Nat) :
    Execution FilterType :=
  filter.outgoing.apply network attr

/-! ## Enforcement -/

section

variable (env : Environment) (filter : BgpFilter) (inbound : Inbound) (peer : Peer) (afi : Afi)
  (safi : Safi) (network : Prefix) (attr : Attr Nat) (router : Router)

/-- A live route is in the table now that was not there before. -/
def Installs (before after : RoutingTable) (network : Prefix) : Prop :=
  ∃ route, after.lookup network = some route ∧ route.removed = false ∧
    before.lookup network ≠ some route

/-- What the configured lists of a neighbour deny does not come in. -/
def EnforcedIn : Prop :=
  bgpInputFilter filter network attr = .ok .deny → ∀ after accepted,
    bgpUpdateMain env inbound peer afi safi network attr router = .ok (after, accepted) →
      ¬ Installs router.table after.table network

/-- What the configured lists of a neighbour deny does not go out to it. -/
def EnforcedOut (filter : BgpFilter) (call : Announcing) (world : World) (riattr : Attr Nat) :
    Prop :=
  bgpOutputFilter filter call.network riattr = .ok .deny → ∀ after riattr' announced,
    call.bgpAnnounceCheck env world riattr = .ok (after, riattr', announced) → announced = none

/-- What the lists deny is refused by a check of the received attributes: a loop of ASes or of
route reflectors, the route map, or the next hop. -/
def StoppedIn : Prop :=
  bgpInputFilter filter network attr = .ok .deny →
    inboundAttr inbound peer.bgp afi safi network attr = none

/-- What the lists deny is refused by a check before the output filter of D-BGP. One behind it
sees the same attributes unless the router runs pathlets. -/
def StoppedOut (filter : BgpFilter) (call : Announcing) (riattr : Attr Nat) : Prop :=
  bgpOutputFilter filter call.network riattr = .ok .deny →
    call.withheld riattr = true ∨
      (call.peer.bgp.dbgpProtocol ≠ .pathlets ∧ call.withheldAfterFilter riattr = true)

/-- A router without D-BGP, and a prefix that the peer has not announced before. -/
structure PlainIn : Prop where
  protocol : peer.bgp.dbgpProtocol = .baseline ∨ peer.bgp.dbgpProtocol = .baselineSleeper
  new : router.table.lookup network = none

/-- A router whose output filter lets everything pass, and a peer without route maps. -/
structure PlainOut (call : Announcing) : Prop where
  protocol : call.peer.bgp.dbgpProtocol ∈
    [ProtocolType.baseline, .baselineSleeper, .wiser, .benchmark]
  routeMapOut : call.outbound.routeMapOut? = none
  unsuppressMap : call.outbound.unsuppressMap? = none

variable {env filter inbound peer afi safi network attr router}

theorem bgpUpdateMain_stopped (stopped : inboundAttr inbound peer.bgp afi safi network attr = none)
    {after : Router} {accepted : Bool}
    (returned : bgpUpdateMain env inbound peer afi safi network attr router =
      .ok (after, accepted)) : ¬ Installs router.table after.table network := by
  simp only [bgpUpdateMain, stopped] at returned
  cases returned
  rintro ⟨route, found, live, _⟩
  rw [RoutingTable.lookup_remove, if_pos rfl] at found
  rcases Option.map_eq_some_iff.mp found with ⟨old, _, rfl⟩
  cases live

theorem bgpUpdateMain_installs (plain : PlainIn peer network router) {newAttr : Attr Nat}
    (admitted : inboundAttr inbound peer.bgp afi safi network attr = some newAttr) :
    ∃ after accepted, bgpUpdateMain env inbound peer afi safi network attr router =
      .ok (after, accepted) ∧ Installs router.table after.table network := by
  have filter : dbgpInputFilter env peer network router.world newAttr =
      .ok (router.world, newAttr, .notFiltered) := by
    rcases plain.protocol with protocol | protocol
    all_goals simp [dbgpInputFilter, protocol]
  have update : dbgpUpdateControlInfo env peer network router.world newAttr =
      .ok (router.world, newAttr) := by
    rcases plain.protocol with protocol | protocol
    all_goals simp [dbgpUpdateControlInfo, protocol]
  simp only [bgpUpdateMain, admitted, filter, update, plain.new, AttrHash.exchange, ok_bind]
  refine ⟨_, _, rfl, ?_⟩
  rcases router.table.lookup_install inbound.maximumPrefix? network newAttr
    (router.attrhash.bgpAttrIntern router.world newAttr).2 with ⟨kept, found⟩
  refine ⟨_, (found network).trans (if_pos rfl), rfl, ?_⟩
  simp [plain.new]

theorem bgpAnnounceCheck_stopped {call : Announcing} {world after : World}
    {riattr riattr' : Attr Nat} {announced : Option (Attr Nat)}
    (stopped : call.withheld riattr = true ∨
      (call.peer.bgp.dbgpProtocol ≠ .pathlets ∧ call.withheldAfterFilter riattr = true))
    (returned : call.bgpAnnounceCheck env world riattr = .ok (after, riattr', announced)) :
    announced = none := by
  unfold Announcing.bgpAnnounceCheck at returned
  split at returned
  · cases returned
    rfl
  · rename_i passed
    rcases stopped with withheld | ⟨notPathlets, withheld⟩
    · exact absurd withheld passed
    rcases bind_eq_ok.mp returned with ⟨⟨filtered, changed, status⟩, filter, rest⟩
    rcases dbgpOutputFilter_cases filter with ⟨_, rfl, rfl⟩ | ⟨pathlets, _⟩
    · simp only [withheld, or_true, if_true] at rest
      cases rest
      rfl
    · exact absurd pathlets notPathlets

theorem bgpAnnounceCheck_announces {call : Announcing} (plain : PlainOut call) {world : World}
    {riattr : Attr Nat} (passes : call.withheld riattr = false)
    (passesAfter : call.withheldAfterFilter riattr = false) :
    ∃ announced, call.bgpAnnounceCheck env world riattr = .ok (world, riattr, some announced) := by
  have filter : dbgpOutputFilter env call.peer call.network world riattr =
      .ok (world, riattr, .notFiltered) := by
    have protocol := plain.protocol
    simp only [List.mem_cons, List.not_mem_nil, or_false] at protocol
    rcases protocol with protocol | protocol | protocol | protocol
    all_goals simp [dbgpOutputFilter, protocol]
  have unmapped : ∀ attr, call.applyRouteMap attr = some attr := by
    intro attr
    simp [Announcing.applyRouteMap, plain.routeMapOut, plain.unsuppressMap]
  simp only [Announcing.bgpAnnounceCheck, passes, filter, ok_bind, passesAfter,
    Announcing.announcedAttr, unmapped]
  exact ⟨_, rfl⟩

end

/-! ## A list that denies everything -/

def denyAny : FilterLists where
  distribute? := some (some [⟨.deny, .zebra false ⟨.ip, 0, [0, 0, 0, 0]⟩⟩])
  prefixList? := none
  filterList? := none

def baselinePeer : Peer := ⟨⟨1, 2, .baseline, 0⟩, 50, 2, 5⟩

end Quagga.Bgp
