import Quagga.Bgp.Route
import Quagga.Dbgp.WiserRepeat

/-!
# One lookup key for all prefixes of an UPDATE

A Wiser router updates the control information of an UPDATE once for every prefix it takes
in. The routes share the pointer to their lookup key with the message, so each update finds
what the one before it stored, and in the end all of them resolve to the last result.
-/

namespace Quagga.Bgp

open Foundation Dbgp List

/-! ## The key behind a pointer -/

def HasKey (world : World) (pointer : Nat) (info : ControlInfo) : Prop :=
  ∃ key, key ≠ dbgpLookupSvcPath ∧ world.transits.read pointer = some (.ofKey key) ∧
    world.service.values key = some info.integratedAdvertisement

variable {pointer : Nat} {info : ControlInfo}

variable {world : World}

section

variable {attr : Attr Nat} (keyed : HasKey world pointer info)
  (present : attr.transit? = some pointer)
include keyed present

theorem HasKey.resolves : world.Resolves attr info := by
  rcases keyed with ⟨key, different, read, found⟩
  simp only [World.Resolves, present]
  exact ⟨_, read, info.ofBytes_bytes ▸ .key different found⟩

theorem HasKey.unique {other : ControlInfo} (resolves : world.Resolves attr other) :
    other = info := by
  rcases keyed with ⟨key, different, read, found⟩
  simp only [World.Resolves, present] at resolves
  rcases resolves with ⟨transit, readAgain, meaning⟩
  rw [read] at readAgain
  rcases Option.some.inj readAgain with rfl
  generalize held : Transit.ofKey key = transit at meaning
  cases meaning with
  | blank => simp [Transit.ofKey] at held
  | @key otherKey value otherDifferent otherFound =>
    have sameKey := congrArg (fun transit : Transit => readKey transit.val) held
    simp only [Transit.ofKey_val, readKey_keyOctets, Option.some.injEq] at sameKey
    subst sameKey
    rw [found] at otherFound
    rw [← Option.some.inj otherFound]
    exact info.ofBytes_bytes

theorem getControlInformation_of_hasKey {protocol : ProtocolType}
    (notBenchmark : protocol ≠ .benchmark) :
    getControlInformation protocol world attr = .ok (world, attr, pointer, info) ∧
      world.isLookupServicePath pointer = .ok false := by
  rcases keyed with ⟨key, different, read, found⟩
  constructor
  · simp [getControlInformation, notBenchmark, present, read, found, unpackRedisReply]
  · simp [World.isLookupServicePath_of_read read, Dbgp.isLookupServicePath, different]

end

/-! ## One prefix -/

def storeUpdate (world : World) (pointer : Nat) (service : LookupService)
    (updated : ControlInfo) : World :=
  { world with
    service := service.set service.nextKey updated.integratedAdvertisement
    transits := world.transits.write pointer (.ofKey service.nextKey) }

theorem hasKey_storeUpdate (keyed : HasKey world pointer info) (service : LookupService)
    (updated : ControlInfo) :
    HasKey (storeUpdate world pointer service updated) pointer updated := by
  rcases keyed with ⟨key, _, read, _⟩
  exact ⟨service.nextKey, service.nextKey_ne_svcPath, Heap.read_write_same read _,
    LookupService.set_values_same _ _ _⟩

section

variable {env : Environment} {inbound : Inbound} {peer : Peer} {afi : Afi} {safi : Safi}
  {network : Prefix} {attr : Attr Nat}

theorem bgpUpdateMain_admitted (faithful : env.transport = some)
    (unlimited : inbound.maximumPrefix? = none) (wiser : peer.bgp.dbgpProtocol = .wiser)
    {newAttr : Attr Nat}
    (admitted : inboundAttr inbound peer.bgp afi safi network attr = some newAttr) {router : Router}
    (present : attr.transit? = some pointer) (keyed : HasKey router.world pointer info) :
    bgpUpdateMain env inbound peer afi safi network attr router = do
      let (service, updated) ← wiserUpdateControlInfo env.arithmetic env.config.wiser
        peer.session router.world.service info
      let world := storeUpdate router.world pointer service updated
      let (attrhash, object) ← router.attrhash.exchange world newAttr
        (router.table.lookup network)
      return (⟨world, (router.table.install none network newAttr object).1, attrhash⟩, true) := by
  have newPresent : newAttr.transit? = some pointer := (inboundAttr_transit admitted).trans present
  rcases getControlInformation_of_hasKey keyed newPresent
    (by decide : ProtocolType.wiser ≠ .benchmark) with ⟨found, notSvcPath⟩
  have accepted := fun object => router.table.install_unlimited network newAttr object
  have filter : dbgpInputFilter env peer network router.world newAttr =
      .ok (router.world, newAttr, .notFiltered) := by
    simp [dbgpInputFilter, wiser, found, notSvcPath]
  have update : dbgpUpdateControlInfo env peer network router.world newAttr = do
      let (service, updated) ← wiserUpdateControlInfo env.arithmetic env.config.wiser
        peer.session router.world.service info
      return (storeUpdate router.world pointer service updated, newAttr) := by
    simp only [dbgpUpdateControlInfo, wiser, found, ok_bind, notSvcPath,
      World.setControlInfo_some faithful]
    rfl
  simp only [bgpUpdateMain, admitted, filter, update, unlimited, ok_bind]
  cases wiserUpdateControlInfo env.arithmetic env.config.wiser peer.session
      router.world.service info with
  | error fault => rfl
  | ok result => simp [accepted]

end

/-! ## All prefixes of a message -/

section

variable (inbound : Inbound) (bgp : Instance) (afi : Afi) (safi : Safi) (attr : Attr Nat)

def admits (network : Prefix) : Bool := (inboundAttr inbound bgp afi safi network attr).isSome

/-- Prefixes that differ only in bits beyond their length are treated alike. -/
def Consistent (networks : List Prefix) : Prop :=
  ∀ network ∈ networks, ∀ other ∈ networks, network.node = other.node →
    inboundAttr inbound bgp afi safi network attr = inboundAttr inbound bgp afi safi other attr

/-- The table after a prefix was handed to it: a route that was taken in refers to the key
of the message, and no other is left. -/
def Settled (pointer : Nat) (table : RoutingTable) (network : Prefix) : Prop :=
  if admits inbound bgp afi safi attr network then
    ∃ route, table.lookup network = some route ∧ route.removed = false ∧
      route.attr.transit? = some pointer
  else ∀ route, table.lookup network = some route → route.removed = true

end

section

variable {inbound : Inbound} {bgp : Instance} {afi : Afi} {safi : Safi} {attr : Attr Nat}
  {pointer : Nat} {networks : List Prefix} {network : Prefix} {table : RoutingTable}

theorem settled_remove (filtered : admits inbound bgp afi safi attr network = false) :
    Settled inbound bgp afi safi attr pointer (table.remove network) network := by
  rw [Settled, filtered]
  intro route found
  rw [table.lookup_remove, if_pos rfl] at found
  rcases Option.map_eq_some_iff.mp found with ⟨old, _, rfl⟩
  rfl

theorem settled_install (admitted : admits inbound bgp afi safi attr network = true)
    {newAttr : Attr Nat} (present : newAttr.transit? = some pointer) (object : Nat) :
    Settled inbound bgp afi safi attr pointer (table.install none network newAttr object).1
      network := by
  rw [Settled, if_pos admitted]
  rcases table.lookup_install none network newAttr object with ⟨kept, found⟩
  exact ⟨_, (found network).trans (if_pos rfl), rfl, present⟩

theorem Settled.keep (consistent : Consistent inbound bgp afi safi attr networks) {other : Prefix}
    (member : network ∈ networks) (otherMember : other ∈ networks) {after : RoutingTable}
    (settles : Settled inbound bgp afi safi attr pointer after network)
    (frame : other.node ≠ network.node → after.lookup other = table.lookup other)
    (settled : Settled inbound bgp afi safi attr pointer table other) :
    Settled inbound bgp afi safi attr pointer after other := by
  by_cases same : other.node = network.node
  · have alike := consistent other otherMember network member same
    have position : after.lookup other = after.lookup network := by
      simp [RoutingTable.lookup, same]
    rw [Settled, admits, alike, position]
    exact settles
  · rw [Settled, frame same]
    exact settled

end

/-! ## The attributes of the routes that are replaced -/

/-- What the routes that do not share the key of the message refer to. -/
def RoutingTable.refers (table : RoutingTable) (pointer : Nat) (node : Prefix) :
    Option (Nat × Attr Nat) :=
  ((table.routes node).filter fun route => route.attr.transit? ≠ some pointer).map fun route =>
    (route.object, route.attr)

/-- The attributes of these routes are where `attrhash` looks for them. -/
def Router.Accounts (router : Router) (pointer : Nat) : Prop :=
  router.attrhash.interned.Accounts (router.attrhash.keyMake router.world)
    (router.table.refers pointer)

/-- The attributes in the table are consistent: no route has the key of the message, and all
are where `attrhash` looks for them. -/
structure Router.Interned (router : Router) (pointer : Nat) : Prop where
  apart : ∀ node route, router.table.routes node = some route →
    route.attr.transit? ≠ some pointer
  accounts : router.Accounts pointer

namespace RoutingTable

variable {pointer : Nat}

theorem refers_eq_some {table : RoutingTable} {node : Prefix} {object : Nat} {attr : Attr Nat}
    (refers : table.refers pointer node = some (object, attr)) :
    attr.transit? ≠ some pointer := by
  rcases Option.map_eq_some_iff.mp refers with ⟨route, found, same⟩
  rcases Option.filter_eq_some_iff.mp found with ⟨_, different⟩
  cases same
  simpa using different

theorem refers_remove (table : RoutingTable) (network : Prefix) :
    (table.remove network).refers pointer = table.refers pointer := by
  unfold remove
  split
  · rfl
  · rename_i route found
    funext node
    by_cases same : node = network.node
    · rw [refers, refers, same, show table.routes network.node = some route from found]
      simp [store, Option.filter_some]
      split <;> simp
    · simp [refers, store, same]

theorem refers_install (table : RoutingTable) (network : Prefix) {attr : Attr Nat}
    (present : attr.transit? = some pointer) (object : Nat) :
    (table.install none network attr object).1.refers pointer =
      Function.update (table.refers pointer) network.node none := by
  rcases table.routes_install none network attr object with ⟨kept, routes⟩
  funext node
  rw [refers, routes]
  by_cases same : node = network.node
  · simp [same, present]
  · simp [refers, same]

end RoutingTable

section

variable {inbound : Inbound} {bgp : Instance} {afi : Afi} {safi : Safi} {attr : Attr Nat}
  {pointer : Nat} {networks : List Prefix} {network : Prefix} {table : RoutingTable}

theorem Router.Accounts.rekeyed {router : Router} (accounts : router.Accounts pointer)
    (service : LookupService) (updated : ControlInfo) :
    router.attrhash.interned.Accounts
      (router.attrhash.keyMake (storeUpdate router.world pointer service updated))
      (router.table.refers pointer) := by
  apply InternTable.Accounts.rekey accounts
  intro node object attr refers
  have different := RoutingTable.refers_eq_some refers
  unfold AttrHash.keyMake
  cases present : attr.transit? with
  | none => rfl
  | some other =>
    have apart : other ≠ pointer := fun same => different (same ▸ present)
    simp [storeUpdate, Heap.read_write_other apart]

/-- A route with the key of the message came with its prefix. -/
def OwnRoutes (inbound : Inbound) (bgp : Instance) (afi : Afi) (safi : Safi) (attr : Attr Nat)
    (pointer : Nat) (message : List Prefix) (table : RoutingTable) : Prop :=
  ∀ network ∈ message, ∀ route, table.lookup network = some route →
    route.attr.transit? = some pointer →
      route.removed = false ∧ inboundAttr inbound bgp afi safi network attr = some route.attr

section

variable {message : List Prefix} (consistent : Consistent inbound bgp afi safi attr message)
  (member : network ∈ message)
  (own : OwnRoutes inbound bgp afi safi attr pointer message table)
include consistent member own

theorem OwnRoutes.remove (filtered : inboundAttr inbound bgp afi safi network attr = none) :
    OwnRoutes inbound bgp afi safi attr pointer message (table.remove network) := by
  intro other otherMember route found shares
  rw [table.lookup_remove] at found
  split at found
  · rename_i same
    rcases Option.map_eq_some_iff.mp found with ⟨old, stored, rfl⟩
    have position : table.lookup other = table.lookup network := by
      simp [RoutingTable.lookup, same]
    have came := (own other otherMember old (position.trans stored) shares).2
    rw [consistent other otherMember network member same, filtered] at came
    cases came
  · exact own other otherMember route found shares

theorem OwnRoutes.install {newAttr : Attr Nat}
    (admitted : inboundAttr inbound bgp afi safi network attr = some newAttr) (object : Nat) :
    OwnRoutes inbound bgp afi safi attr pointer message
      (table.install none network newAttr object).1 := by
  rcases table.lookup_install none network newAttr object with ⟨kept, lookup⟩
  intro other otherMember route found shares
  rw [lookup] at found
  split at found
  · rename_i same
    rw [consistent other otherMember network member same, admitted]
    cases found
    exact ⟨rfl, rfl⟩
  · exact own other otherMember route found shares

end

/-- Releasing the attributes of the route that is replaced fails no assertion. -/
theorem exchange_returns {router : Router} (accounts : router.Accounts pointer)
    {message : List Prefix}
    (own : OwnRoutes inbound bgp afi safi attr pointer message router.table)
    (member : network ∈ message) {newAttr : Attr Nat}
    (admitted : inboundAttr inbound bgp afi safi network attr = some newAttr)
    (present : newAttr.transit? = some pointer) (service : LookupService) (updated : ControlInfo) :
    ∃ attrhash object, router.attrhash.exchange (storeUpdate router.world pointer service updated)
        newAttr (router.table.lookup network) = .ok (attrhash, object) ∧
      (Router.mk (storeUpdate router.world pointer service updated)
        (router.table.install none network newAttr object).1 attrhash).Accounts pointer := by
  have rekeyed := accounts.rekeyed service updated
  generalize storeUpdate router.world pointer service updated = world at rekeyed
  have interned := rekeyed.intern (router.attrhash.keyMake world newAttr) newAttr
  have kept : router.table.refers pointer network.node = none →
      Function.update (router.table.refers pointer) network.node none =
        router.table.refers pointer :=
    fun unreferred => Function.update_eq_self_iff.mpr unreferred.symm
  simp only [Router.Accounts, router.table.refers_install network present]
  unfold AttrHash.exchange
  cases found : router.table.lookup network with
  | none =>
    have unreferred : router.table.refers pointer network.node = none := by
      simp [RoutingTable.refers, show router.table.routes network.node = none from found]
    rw [kept unreferred]
    exact ⟨_, _, rfl, interned⟩
  | some route =>
    have stored : router.table.routes network.node = some route := found
    by_cases shares : route.attr.transit? = some pointer
    · -- the prefix was in the message before, with the same attributes
      rcases own network member route found shares with ⟨live, same⟩
      rw [admitted, Option.some.injEq] at same
      have unreferred : ∀ node object other,
          router.table.refers pointer node = some (object, other) → other ≠ newAttr := by
        rintro node object other refers rfl
        exact RoutingTable.refers_eq_some refers present
      rcases rekeyed.undo (router.attrhash.keyMake world newAttr) unreferred with
        ⟨after, undone, accounts⟩
      rw [kept (by simp [RoutingTable.refers, stored, shares])]
      refine ⟨⟨router.attrhash.hashKey, after⟩, (router.attrhash.bgpAttrIntern world newAttr).2,
        ?_, accounts⟩
      unfold AttrHash.keyMake at undone
      simp [live, same.symm, AttrHash.bgpAttrIntern, AttrHash.bgpAttrUnintern, AttrHash.keyMake,
        undone]
    · have refers : router.table.refers pointer network.node =
          some (route.object, route.attr) := by
        simp [RoutingTable.refers, stored, shares]
      have other : ¬ (route.removed = false ∧ route.attr = newAttr) :=
        fun same => shares (same.2 ▸ present)
      rcases interned.release refers with ⟨after, released, accounts⟩
      refine ⟨⟨router.attrhash.hashKey, after⟩, (router.attrhash.bgpAttrIntern world newAttr).2,
        ?_, accounts⟩
      unfold AttrHash.keyMake at released
      simp [if_neg other, AttrHash.bgpAttrIntern, AttrHash.bgpAttrUnintern, AttrHash.keyMake,
        released]

/-- What handing over prefixes comes to, given the result of the updates: the same fault, or
a table in which all of them are settled. -/
def Shares (inbound : Inbound) (bgp : Instance) (afi : Afi) (safi : Safi) (attr : Attr Nat)
    (pointer : Nat) (message handed : List Prefix) (before : RoutingTable) :
    Execution (LookupService × ControlInfo) → Execution (Router × Bool) → Prop
  | .error fault, run => run = .error fault
  | .ok (service, updated), run => ∃ router accepted, run = .ok (router, accepted) ∧
      router.world.service = service ∧ HasKey router.world pointer updated ∧
      ∀ network ∈ message,
        network ∈ handed ∨ Settled inbound bgp afi safi attr pointer before network →
        Settled inbound bgp afi safi attr pointer router.table network

theorem Shares.cons {message handed : List Prefix} {before after : RoutingTable}
    {updates : Execution (LookupService × ControlInfo)} {run : Execution (Router × Bool)}
    (consistent : Consistent inbound bgp afi safi attr message) (member : network ∈ message)
    (settles : Settled inbound bgp afi safi attr pointer after network)
    (frame : ∀ other : Prefix, other.node ≠ network.node → after.lookup other = before.lookup other)
    (shares : Shares inbound bgp afi safi attr pointer message handed after updates run) :
    Shares inbound bgp afi safi attr pointer message (network :: handed) before updates run := by
  cases updates with
  | error fault => exact shares
  | ok result =>
    rcases shares with ⟨router, accepted, returned, service, keyed, settled⟩
    refine ⟨router, accepted, returned, service, keyed, ?_⟩
    intro other otherMember reason
    apply settled other otherMember
    rcases reason with listed | earlier
    · rcases mem_cons.mp listed with rfl | later
      · exact .inr settles
      · exact .inl later
    · exact .inr (Settled.keep consistent member otherMember settles (frame other) earlier)

theorem handlePrefixes_shares {env : Environment} {peer : Peer} (faithful : env.transport = some)
    (unlimited : inbound.maximumPrefix? = none) (wiser : peer.bgp.dbgpProtocol = .wiser)
    (present : attr.transit? = some pointer) {message : List Prefix}
    (consistent : Consistent inbound peer.bgp afi safi attr message) (networks : List Prefix)
    (members : ∀ network ∈ handedPrefixes afi safi networks, network ∈ message) {router : Router}
    (accounts : router.Accounts pointer)
    (own : OwnRoutes inbound peer.bgp afi safi attr pointer message router.table)
    (keyed : HasKey router.world pointer info) :
    Shares inbound peer.bgp afi safi attr pointer message (handedPrefixes afi safi networks)
      router.table
      (wiserUpdates env.arithmetic env.config.wiser peer.session
        ((handedPrefixes afi safi networks).countP (admits inbound peer.bgp afi safi attr))
        router.world.service info)
      (handlePrefixes (routeHandler env inbound peer) (some attr) afi safi networks router) := by
  induction networks generalizing router info with
  | nil =>
    exact ⟨router, true, rfl, rfl, keyed, fun _ _ reason => reason.resolve_left not_mem_nil⟩
  | cons network networks induction =>
    by_cases classD : afi = .ip ∧ safi = .unicast ∧ network.isClassD
    · simp only [handedPrefixes, handlePrefixes, if_pos classD, countP_nil]
      exact ⟨router, false, rfl, rfl, keyed, fun _ _ reason => reason.resolve_left not_mem_nil⟩
    by_cases linkLocal : afi = .ip6 ∧ safi = .unicast ∧ network.isLinkLocal
    · simp only [handedPrefixes, handlePrefixes, if_neg classD, if_pos linkLocal] at members ⊢
      exact induction members accounts own keyed
    simp only [handedPrefixes, handlePrefixes, if_neg classD, if_neg linkLocal, routeHandler]
      at members ⊢
    rcases forall_mem_cons.mp members with ⟨member, laterMembers⟩
    cases admitted : inboundAttr inbound peer.bgp afi safi network attr with
    | none =>
      have filtered : admits inbound peer.bgp afi safi attr network = false := by
        simp [admits, admitted]
      rw [countP_cons_of_neg (by simp [filtered])]
      simp only [bgpUpdateMain, admitted]
      apply Shares.cons consistent member (settled_remove filtered)
      · intro other apart
        rw [router.table.lookup_remove, if_neg apart]
      · have still : (Router.mk router.world (router.table.remove network)
            router.attrhash).Accounts pointer := by
          rw [Router.Accounts, router.table.refers_remove]
          exact accounts
        exact induction laterMembers still (own.remove consistent member admitted) keyed
    | some newAttr =>
      have admittedBool : admits inbound peer.bgp afi safi attr network = true := by
        simp [admits, admitted]
      rw [countP_cons_of_pos admittedBool]
      simp only [bgpUpdateMain_admitted faithful unlimited wiser admitted present keyed,
        wiserUpdates]
      cases update : wiserUpdateControlInfo env.arithmetic env.config.wiser peer.session
          router.world.service info with
      | error fault => rfl
      | ok result =>
        have newPresent := (inboundAttr_transit admitted).trans present
        rcases exchange_returns accounts own member admitted newPresent result.1 result.2 with
          ⟨attrhash, object, exchanged, still⟩
        simp only [ok_bind, exchanged]
        apply Shares.cons consistent member (settled_install admittedBool newPresent object)
        · intro other apart
          rcases router.table.lookup_install none network newAttr object with ⟨_, lookup⟩
          rw [lookup, if_neg apart]
        · exact induction laterMembers still (own.install consistent member admitted object)
            (hasKey_storeUpdate keyed result.1 result.2)

end

/-! ## What the routes of a message resolve to -/

section

variable (env : Environment) (inbound : Inbound) (peer : Peer) (packet : Nlri)
  (attr : Attr Nat) (router : Router)

/-- The routes that the prefixes of a message leave in the table resolve to `updated`. -/
def PerPrefix (updated : ControlInfo) : Prop :=
  ∃ after accepted,
    bgpNlriParse (routeHandler env inbound peer) true (some attr) packet router =
      .ok (after, accepted) ∧
    ∀ network ∈ packet.networks, ∀ route, after.table.lookup network = some route →
      route.removed = false → after.world.Resolves route.attr updated

def admittedCount : Nat :=
  packet.networks.countP (admits inbound peer.bgp packet.afi packet.safi attr)

end

section

variable {env : Environment} {inbound : Inbound} {peer : Peer} {packet : Nlri}
  {attr : Attr Nat} {router : Router}

theorem perPrefix_iff_updates (faithful : env.transport = some)
    (unlimited : inbound.maximumPrefix? = none) (wiser : peer.bgp.dbgpProtocol = .wiser)
    (consistent : Consistent inbound peer.bgp packet.afi packet.safi attr packet.networks)
    (present : attr.transit? = some pointer) (interned : router.Interned pointer)
    (keyed : HasKey router.world pointer info) (updated : ControlInfo) :
    PerPrefix env inbound peer packet attr router updated ↔
      ∃ service final, wiserUpdates env.arithmetic env.config.wiser peer.session
          (admittedCount inbound peer packet attr) router.world.service info =
            .ok (service, final) ∧
        (0 < admittedCount inbound peer packet attr → final = updated) := by
  have none : OwnRoutes inbound peer.bgp packet.afi packet.safi attr pointer packet.networks
      router.table :=
    fun network _ route found shares => absurd shares (interned.apart network.node route found)
  have shares := handlePrefixes_shares faithful unlimited wiser present consistent
    (readPrefixes packet.afi packet.nlri).1 (fun _ member => member) interned.accounts none keyed
  unfold PerPrefix
  simp only [bgpNlriParse]
  change Shares inbound peer.bgp packet.afi packet.safi attr pointer packet.networks
    packet.networks router.table (wiserUpdates env.arithmetic env.config.wiser peer.session
      (admittedCount inbound peer packet attr) router.world.service info) _ at shares
  cases updates : wiserUpdates env.arithmetic env.config.wiser peer.session
      (admittedCount inbound peer packet attr) router.world.service info with
  | error fault =>
    rw [updates] at shares
    rw [show handlePrefixes _ _ _ _ _ _ = _ from shares]
    simp
  | ok result =>
    rw [updates] at shares
    rcases shares with ⟨after, accepted, returned, service, rekeyed, settled⟩
    rw [returned]
    constructor
    · rintro ⟨again, _, same, resolves⟩
      refine ⟨result.1, result.2, rfl, ?_⟩
      intro some
      -- the route of any prefix that was taken in tells what the key resolves to
      rcases countP_pos_iff.mp some with ⟨network, member, admitted⟩
      have stored := settled network member (.inl member)
      rw [Settled, if_pos admitted] at stored
      rcases stored with ⟨route, found, live, refers⟩
      cases same
      exact (rekeyed.unique refers (resolves network member route found live)).symm
    · rintro ⟨_, final, same, equal⟩
      cases same
      refine ⟨after, _, rfl, ?_⟩
      intro network member route found live
      have stored := settled network member (.inl member)
      unfold Settled at stored
      split at stored
      · rename_i admitted
        rcases stored with ⟨other, foundOther, _, refers⟩
        rw [found] at foundOther
        cases foundOther
        have some : 0 < admittedCount inbound peer packet attr :=
          countP_pos_iff.mpr ⟨network, member, admitted⟩
        rw [← equal some]
        exact rekeyed.resolves refers
      · rw [stored route found] at live
        cases live

/-- The routes of a message all resolve to a single update of the control information that
came with it exactly if at most one prefix passes the filters, or if updating the result
again, once for every further prefix, changes nothing. -/
theorem perPrefix_iff (env : Environment) (faithful : env.transport = some)
    (machine : env.arithmetic = .machine) (inbound : Inbound)
    (unlimited : inbound.maximumPrefix? = none) (peer : Peer)
    (wiser : peer.bgp.dbgpProtocol = .wiser)
    (linkNonneg : 0 ≤ peer.session.linkCost env.config.wiser) (packet : Nlri) (attr : Attr Nat)
    (consistent : Consistent inbound peer.bgp packet.afi packet.safi attr packet.networks)
    (router : Router) (pointer : Nat) (info : ControlInfo) (present : attr.transit? = some pointer)
    (interned : router.Interned pointer) (keyed : HasKey router.world pointer info)
    (service : LookupService) (updated : ControlInfo)
    (once : wiserUpdateControlInfo env.arithmetic env.config.wiser peer.session
      router.world.service info = .ok (service, updated)) (cost : Int)
    (priced : getWiserPathCost updated.integratedAdvertisement = .ok cost) (nonneg : 0 ≤ cost) :
    PerPrefix env inbound peer packet attr router updated ↔
      admittedCount inbound peer packet attr ≤ 1 ∨
        Repeatable (toInt peer.bgp.as) (peer.session.linkCost env.config.wiser) cost
          (ownCounter service (toInt peer.bgp.as))
          (admittedCount inbound peer packet attr - 1) := by
  rw [perPrefix_iff_updates faithful unlimited wiser consistent present interned keyed]
  rcases wiserUpdateControlInfo_writes once with ⟨declared, written, range, rfl⟩
  have sameCost : written = cost := by
    have value := getWiserPathCost_of_value (carries_withWiser
      (IntegratedAdvertisement.codec.parse info.integratedAdvertisement)
      ⟨toInt peer.session.localAs, written⟩).2
    rw [decodePathCost_encodePathCost range] at value
    exact Except.ok.inj (value.symm.trans priced)
  subst sameCost
  generalize admittedCount inbound peer packet attr = count
  match count with
  | 0 => simp [wiserUpdates]
  | 1 => simp [wiserUpdates, once]
  | times + 2 =>
    rw [machine] at once ⊢
    simp only [wiserUpdates, once]
    constructor
    · rintro ⟨after, final, updates, equal⟩
      rw [equal (by omega)] at updates
      have repeatable := repeatable_of_wiserUpdates declared linkNonneg nonneg range.2 updates
      exact .inr repeatable
    · rintro (impossible | repeatable)
      · omega
      · rw [← ownCounter_set service service.nextKey
          (ControlInfo.ofAdvertisement _).integratedAdvertisement] at repeatable
        rcases wiserUpdates_of_repeatable declared nonneg range.2 repeatable with
          ⟨after, updates⟩
        exact ⟨after, _, updates, fun _ => rfl⟩

end

/-! A Wiser router with a link of cost 5 to the peer. -/

def sampleEnvironment : Environment :=
  ⟨⟨[], 0, ⟨some [⟨inetNtop 2, [⟨inetNtop 1, 5⟩]⟩]⟩, id⟩, .machine, some⟩

def samplePeer : Peer := ⟨⟨100, 2, .wiser, 0⟩, 50, 2, 1⟩

def sampleInbound : Inbound where
  sort := .ebgp
  ttl := 1
  disableConnectedCheck := false
  changeLocalAs? := none
  localAsNoPrepend := false
  allowasIn := 0
  confedId? := none
  clusterId? := none
  weight := 0
  routeMapIn := .permitAll
  maximumPrefix? := none
  nexthopOnlink _ := true
  nexthopSelf _ := false

def sampleService : LookupService :=
  ⟨fun key => if key = 1 then some [] else none, fun _ _ => none, fun index => .ofNat _ (index + 7)⟩

def sampleRouter : Router where
  world := ⟨sampleService, ⟨[.ofKey 1]⟩, .create 0, .inLookupservice 0, 0, []⟩
  table := ⟨fun _ => none, 0, false⟩
  attrhash := ⟨fun _ transit? => transit?.elim 0 fun transit => (readKey transit.val).getD 0,
    ⟨[], fun _ => 0, 0⟩⟩

def sampleAttr : Attr Nat :=
  { (Attr.zero : Attr Nat) with aspath? := some [], nexthop := 0x0a000001, transit? := some 0 }

def onePrefix : Nlri := ⟨.ip, .unicast, [8, 10]⟩

def twoPrefixes : Nlri := ⟨.ip, .unicast, [8, 10, 8, 20]⟩

def sampleUpdated : ControlInfo :=
  .ofAdvertisement (IntegratedAdvertisement.empty.withWiser ⟨100, 5⟩)

theorem sampleUpdate : wiserUpdateControlInfo sampleEnvironment.arithmetic
    sampleEnvironment.config.wiser samplePeer.session sampleService (.ofBytes []) =
      .ok (sampleService, sampleUpdated) := by
  apply wiserUpdateControlInfo_empty
  · decide +kernel
  · decide +kernel

theorem sampleKeyed : HasKey sampleRouter.world 0 (.ofBytes []) := ⟨1, by decide, rfl, rfl⟩

theorem sampleInterned : sampleRouter.Interned 0 where
  apart := nofun
  accounts := by
    refine ⟨nofun, nofun, ?_⟩
    intro object holders refers
    have empty : holders = ∅ := Finset.eq_empty_of_forall_notMem fun holder mem =>
      nomatch refers holder mem
    simp [empty]

theorem onePrefix_perPrefix : PerPrefix sampleEnvironment sampleInbound samplePeer onePrefix
    sampleAttr sampleRouter sampleUpdated := by
  apply (perPrefix_iff sampleEnvironment rfl rfl sampleInbound rfl samplePeer rfl
    (by decide +kernel) onePrefix sampleAttr (by unfold Consistent; decide +kernel) sampleRouter 0
    (.ofBytes []) rfl sampleInterned sampleKeyed sampleService sampleUpdated sampleUpdate 5 _
    (by decide)).mpr
  · exact .inl (by decide +kernel)
  · rfl

/-- With two prefixes both routes have the link cost in their path cost twice. -/
theorem twoPrefixes_not_perPrefix :
    wiserUpdateControlInfo sampleEnvironment.arithmetic sampleEnvironment.config.wiser
      samplePeer.session sampleService (.ofBytes []) = .ok (sampleService, sampleUpdated) ∧
    HasKey sampleRouter.world 0 (.ofBytes []) ∧ sampleAttr.transit? = some 0 ∧
    ¬ PerPrefix sampleEnvironment sampleInbound samplePeer twoPrefixes sampleAttr sampleRouter
      sampleUpdated := by
  refine ⟨sampleUpdate, sampleKeyed, rfl, ?_⟩
  rw [perPrefix_iff_updates rfl rfl rfl (by unfold Consistent; decide +kernel) rfl
    sampleInterned sampleKeyed]
  have count : admittedCount sampleInbound samplePeer twoPrefixes sampleAttr = 2 := by
    decide +kernel
  rw [count]
  rintro ⟨service, final, updates, equal⟩
  have costs : ((wiserUpdates sampleEnvironment.arithmetic sampleEnvironment.config.wiser
      samplePeer.session 2 sampleRouter.world.service (.ofBytes [])).bind fun result =>
        getWiserPathCost result.2.integratedAdvertisement).toOption = some 10 := by
    decide +kernel
  have single : (getWiserPathCost sampleUpdated.integratedAdvertisement).toOption = some 5 := by
    decide +kernel
  rw [updates, equal (by decide)] at costs
  have both := single.symm.trans costs
  cases both

/-- Afterwards each of the two routes cannot be replaced without taking the attributes of the
other from `attrhash`: the second update of one prefix stops the daemon. -/
example :
    ([(twoPrefixes, 0), (onePrefix, 1), (⟨.ip, .unicast, [8, 20]⟩, 2)].foldlM
      (fun router (update : Nlri × Nat) => do
        let (router, _) ← bgpNlriParse (routeHandler sampleEnvironment sampleInbound samplePeer)
          true (some { sampleAttr with transit? := some update.2 }) update.1 router
        return router)
      { sampleRouter with world.transits := ⟨[.ofKey 1, .ofKey 1, .ofKey 1]⟩ }).fault? =
      some (.assertion .attrReleased) := by
  decide +kernel

end Quagga.Bgp
