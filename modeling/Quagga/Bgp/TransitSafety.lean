import Quagga.Bgp.SharedKey
import Quagga.Bgp.UpdateMessage
import Quagga.Dbgp.WiserPath

/-!
# Optional transitive attributes

The lookup key and every unknown attribute that is passed on share one buffer, and whoever
reads it afterwards takes it for a key. This says which sequences of attributes leave a key
there, and that with these an UPDATE goes through the hooks into the routing tables and can
be announced again.
-/

namespace Quagga.Bgp

open Foundation Dbgp Execution List

variable {before : List ParserArgs}

/-! ## What the buffer holds -/

def ParserArgs.isBuffered (args : ParserArgs) : Bool := args.type = 22 || args.isCarried

def lastBuffered (attributes : List ParserArgs) : Option ParserArgs :=
  (attributes.filter ParserArgs.isBuffered).getLast?

def lookupKey (octets : Bytes) : UInt32 := UInt32.ofNat (readBigEndian octets)

def Transit.Holds (transit : Transit) (key : UInt32) : Prop :=
  transit.length = 4 ∧ readKey transit.val = some key

/-- The buffer holds the key of a lookup key attribute, and nothing else. -/
def IsKeyOf (attributes : List ParserArgs) (transit : Transit) : Prop :=
  ∃ args ∈ attributes, args.type = 22 ∧ Transit.Holds transit (lookupKey args.value)

theorem lastBuffered_append (before : List ParserArgs) (args : ParserArgs) :
    lastBuffered (before ++ [args]) =
      if args.isBuffered then some args else lastBuffered before := by
  cases buffered : args.isBuffered <;> simp [lastBuffered, buffered]

/-- What is in the buffer if the last attribute that went there is a lookup key. -/
theorem transitOf_holds {peer : ReceivingPeer} (passing : Passing peer before) {transit : Transit}
    (buffered : transitOf before = some transit) :
    ∃ args ∈ before, lastBuffered before = some args ∧
      (args.type = 22 → Transit.Holds transit (lookupKey args.keyOctets)) := by
  induction passing generalizing transit with
  | nil => cases buffered
  | @snoc before args passing _ induction =>
    rw [lastBuffered_append]
    rw [transitOf_append, ParserArgs.carry] at buffered
    by_cases key : args.type = 22
    · rw [if_pos key] at buffered
      cases buffered
      exact ⟨args, by simp, by simp [ParserArgs.isBuffered, key], fun _ =>
        ⟨rfl, readKey_keyOctets _⟩⟩
    rw [if_neg key] at buffered
    by_cases carried : args.isCarried = true
    · exact ⟨args, by simp, by simp [ParserArgs.isBuffered, carried], fun isKey => absurd isKey key⟩
    · rw [if_neg carried] at buffered
      rcases induction buffered with ⟨last, mem, isLast, holds⟩
      refine ⟨last, mem_append_left _ mem, ?_, holds⟩
      simpa [ParserArgs.isBuffered, key, carried] using isLast

/-! ## What a message hands over -/

section

variable (peer : ReceivingPeer) (behind : Bytes) (message : Message)

/-- The daemon stops at an attribute. -/
def Message.Aborts : Prop :=
  ∃ args rest, message.next? peer behind = some (args, rest) ∧
    fate peer (message.scan peer behind).before args = .aborts

/-- All attributes that are handed over have the transitive attribute of the message. -/
def Message.HandsOver (result : Execution Receipt) : Prop :=
  ∃ receipt, result = .ok receipt ∧ ∀ call ∈ receipt.calls, ∀ attr ∈ call.attr?,
    attr.transit? = transitOf (message.scan peer behind).before

variable {peer behind message}

theorem Message.ReceivedAs.handsOver {result : Execution Receipt}
    (received : message.ReceivedAs peer behind result) (goesOn : ¬ message.Aborts peer behind) :
    message.HandsOver peer behind result := by
  have rejects : Rejected result → message.HandsOver peer behind result := by
    rintro ⟨notifications, _, returned⟩
    exact ⟨_, returned, nofun⟩
  have handsOn : ∀ update, message.HandedOn peer behind update result →
      message.HandsOver peer behind result := by
    rintro update ⟨transit, returned⟩
    refine ⟨_, returned, fun call mem attr given => ?_⟩
    rcases mem_callsOf.mp mem with ⟨absent, _⟩ | ⟨same, _⟩
    · cases absent.symm.trans given
    · cases same.symm.trans given
      exact transit
  unfold Message.ReceivedAs at received
  split at received
  · by_cases accepted : message.checked peer behind ∧ isSane message.nlri = true
    · exact handsOn _ (received.1 accepted)
    · exact rejects (received.2 accepted)
  split at received
  · exact rejects received
  rename_i args rest found
  split at received
  · exact received.elim
  · exact rejects received
  · split at received
    · refine ⟨_, received, fun call mem attr given => ?_⟩
      cases (calls_installsNothing _ call mem).symm.trans given
    · exact rejects received
  · split at received
    · exact handsOn _ received
    · exact rejects received
  · rename_i aborts
    exact absurd ⟨args, rest, found, aborts⟩ goesOn

end

/-! ## From the message to the next neighbour -/

/-- The attributes as the routes have them. All routes of a message share the place of its
transitive attribute. -/
def Attr.refer (attr : Attr Transit) (pointer? : Option Nat) : Attr Nat :=
  { attr with transit? := pointer? }

def World.place (world : World) : Option Transit → World × Option Nat
  | none => (world, none)
  | some transit =>
    ({ world with transits := world.transits.allocate transit }, some world.transits.next)

/-- The part of `bgp_packet_attribute` that writes the transitive attribute. -/
def packetTransit (world : World) (attr : Attr Nat) : Execution Bytes :=
  match attr.transit? with
  | none => .ok []
  | some pointer => do
      let transit ← defined (world.transits.read pointer)
      packetLookupKey transit

abbrev RibId : Type := Afi × Safi × Option Bytes

def Destination.rib (destination : Destination) : RibId :=
  (destination.afi, destination.safi, destination.rd?)

/-- Where a route to the destination is. -/
def Destination.place (destination : Destination) : RibId × Prefix :=
  (destination.rib, destination.network.node)

/-- The routing tables of all families. In a VPN there is one for each distinguisher. -/
structure Ribs where
  world : World
  tables : RibId → RoutingTable
  attrhash : AttrHash

def Ribs.withdraw (ribs : Ribs) (destination : Destination) : Ribs :=
  { ribs with
    tables := Function.update ribs.tables destination.rib
      ((ribs.tables destination.rib).remove destination.network) }

def NlriCall.announced (call : NlriCall) : List Destination :=
  if call.attr?.isSome then call.packet.destinations else []

def Receipt.announced (receipt : Receipt) : List Destination :=
  receipt.calls.flatMap NlriCall.announced

/-- The transitive attribute of what is handed over. -/
def Receipt.transit? (receipt : Receipt) : Option Transit :=
  (receipt.calls.findSome? NlriCall.attr?).bind Attr.transit?

section

variable (env : Environment) (peer : Peer)

section

variable (inbound : Afi → Safi → Inbound)

/-- `bgp_update`, and then the route that it stored is announced. -/
def Ribs.update (attr : Attr Nat) (destination : Destination) (ribs : Ribs) :
    Execution (Ribs × Bool) := do
  let (router, accepted) ← bgpUpdateMain env (inbound destination.afi destination.safi) peer
    destination.afi destination.safi destination.network attr
    ⟨ribs.world, ribs.tables destination.rib, ribs.attrhash⟩
  let route? := (router.table.lookup destination.network).filter fun route => !route.removed
  let _ ← route?.elim (.ok []) fun route => packetTransit router.world route.attr
  return (⟨router.world, Function.update ribs.tables destination.rib router.table,
    router.attrhash⟩, accepted)

/-- The prefixes of a field. A prefix beyond the limit ends it, unless it is one of a VPN. -/
def Ribs.updates (attr : Attr Nat) : List Destination → Ribs → Execution Ribs
  | [], ribs => .ok ribs
  | destination :: destinations, ribs => do
      let (ribs, accepted) ← ribs.update env peer inbound attr destination
      if accepted ∨ destination.safi = .mplsVpn then ribs.updates attr destinations
      else return ribs

def Ribs.handle (pointer? : Option Nat) (ribs : Ribs) (call : NlriCall) : Execution Ribs :=
  match call.attr? with
  | none => .ok (call.packet.destinations.foldl Ribs.withdraw ribs)
  | some attr => ribs.updates env peer inbound (attr.refer pointer?) call.packet.destinations

def Ribs.takeIn (ribs : Ribs) (receipt : Receipt) : Execution Ribs :=
  let (world, pointer?) := World.place ribs.world receipt.transit?
  receipt.calls.foldlM (Ribs.handle env peer inbound pointer?) { ribs with world := world }

/-- The parser returns, what is read as a key was sent as one, and all prefixes come into the
tables and out again. -/
def UpdateSafe (sender : ReceivingPeer) (behind : Bytes) (ribs : Ribs) (body : Bytes) : Prop :=
  ∃ receipt, bgpUpdateReceive sender behind body = .ok receipt ∧
    (∀ transit ∈ receipt.transit?, IsKeyOf ((delimit body).elim [] fun message =>
      (message.scan sender behind).before) transit) ∧
    Returns (ribs.takeIn env peer inbound receipt)

end

/-- The link to the peer has a cost, and it fits an `int`. -/
def HasLinkCost : Prop :=
  peer.session.linkCost env.config.wiser ≠ -1 ∧
    ∃ cost, scaleCost env.arithmetic.round 0 1 (peer.session.linkCost env.config.wiser) = some cost

/-- A Wiser router finds the key, and can update what it finds so many times in a row. -/
def Readable (service : LookupService) (count : Nat) (key : UInt32) : Prop :=
  peer.bgp.dbgpProtocol = .wiser →
    ∃ info, service.values key = some info.integratedAdvertisement ∧
      Returns (wiserUpdates env.arithmetic env.config.wiser peer.session count service info)

/-- The daemon does not stop at an attribute. And the last one in the buffer, if there is any,
is the lookup key, its value stands where it is read, and it is readable. -/
def Message.KeySafe (sender : ReceivingPeer) (behind : Bytes) (service : LookupService)
    (count : Nat) (message : Message) : Prop :=
  ¬ message.Aborts sender behind ∧
    ∀ args, lastBuffered (message.scan sender behind).before = some args →
      args.type = 22 ∧ args.keyOctets = args.value ∧
        Readable env peer service count (lookupKey args.value)

/-! ## The hooks for one prefix -/

/-- The hooks can be run so many times for routes with this transitive attribute. -/
def Ready (world : World) (count : Nat) (pointer? : Option Nat) : Prop :=
  ∀ pointer ∈ pointer?, ∃ transit key, world.transits.read pointer = some transit ∧
    Transit.Holds transit key ∧ Readable env peer world.service count key

/-- The hooks return. The attributes they leave can be announced, and the hooks can be run
again for the message. -/
def Hooked (world : World) (count : Nat) (network : Prefix) (attr : Attr Nat) : Prop :=
  ∃ filtered filteredAttr after attr', dbgpInputFilter env peer network world attr =
      .ok (filtered, filteredAttr, .notFiltered) ∧
    dbgpUpdateControlInfo env peer network filtered filteredAttr = .ok (after, attr') ∧
    Returns (packetTransit after attr') ∧ Ready env peer after count attr.transit?

variable {env peer} {world : World} {fewer count : Nat} {pointer? : Option Nat}

theorem Ready.mono (ready : Ready env peer world count pointer?) (less : fewer ≤ count) :
    Ready env peer world fewer pointer? := by
  intro pointer present
  rcases ready pointer present with ⟨transit, key, read, holds, readable⟩
  refine ⟨transit, key, read, holds, fun wiser => ?_⟩
  rcases readable wiser with ⟨info, known, returns⟩
  exact ⟨info, known, returns_wiserUpdates_of_le less returns⟩

theorem returns_packetTransit {attr : Attr Nat} {pointer : Nat} {transit : Transit} {key : UInt32}
    (present : attr.transit? = some pointer) (read : world.transits.read pointer = some transit)
    (holds : Transit.Holds transit key) : Returns (packetTransit world attr) := by
  simp only [packetTransit, present, read, defined_some, ok_bind, packetLookupKey,
    require_pos holds.1, holds.2]
  exact returns_ok _

variable (network : Prefix) {attr : Attr Nat}

theorem hooked_of_idle (idle : peer.bgp.dbgpProtocol = .baseline ∨
    peer.bgp.dbgpProtocol = .baselineSleeper)
    (ready : Ready env peer world (count + 1) attr.transit?) :
    Hooked env peer world count network attr := by
  refine ⟨world, attr, world, attr, ?_, ?_, ?_, ready.mono (Nat.le_succ count)⟩
  · rcases idle with protocol | protocol <;> simp [dbgpInputFilter, protocol]
  · rcases idle with protocol | protocol <;> simp [dbgpUpdateControlInfo, protocol]
  · cases present : attr.transit? with
    | none =>
      simp only [packetTransit, present]
      exact returns_ok []
    | some pointer =>
      rcases ready pointer present with ⟨transit, key, read, holds, _⟩
      exact returns_packetTransit present read holds

section

variable (faithful : env.transport = some) (wiser : peer.bgp.dbgpProtocol = .wiser)
include faithful wiser

theorem hooked_of_blank (absent : attr.transit? = none) (link : HasLinkCost env peer) :
    Hooked env peer world count network attr := by
  have blank : world.Resolves attr (.ofBytes []) := by
    simp [World.Resolves, absent]
  rcases link with ⟨known, cost, scaled⟩
  rcases wiserHooks_of_resolves faithful wiser network blank
    (wiserUpdateControlInfo_empty known scaled _) with
    ⟨_, _, _, _, pointer, filter, update, present, read, _⟩
  refine ⟨_, _, _, _, filter, update,
    returns_packetTransit present read ⟨rfl, readKey_keyOctets _⟩, ?_⟩
  simp [Ready, absent]

theorem hooked_of_key {pointer : Nat} (present : attr.transit? = some pointer)
    (ready : Ready env peer world (count + 1) attr.transit?) :
    Hooked env peer world count network attr := by
  rcases ready pointer present with ⟨transit, key, read, holds, readable⟩
  rcases readable wiser with ⟨info, known, final, returned⟩
  rcases bind_eq_ok.mp returned with ⟨⟨service, updated⟩, update, again⟩
  have found : getControlInformation .wiser world attr = .ok (world, attr, pointer, info) := by
    simp [getControlInformation, present, read, holds.1, retrieveControlInfo, require, holds.2,
      known, unpackRedisReply]
  have path : world.isLookupServicePath pointer = .ok (key = dbgpLookupSvcPath) := by
    simp [World.isLookupServicePath_of_read read, isLookupServicePath, holds.2]
  have filter : dbgpInputFilter env peer network world attr = .ok (world, attr, .notFiltered) := by
    simp [dbgpInputFilter, wiser, found, path]
  by_cases svcPath : key = dbgpLookupSvcPath
  · refine ⟨_, _, world, attr, filter, ?_, returns_packetTransit present read holds,
      ready.mono (Nat.le_succ count)⟩
    simp [dbgpUpdateControlInfo, wiser, found, path, svcPath]
  · have stored : (storeUpdate world pointer service updated).transits.read pointer =
        some (.ofKey service.nextKey) :=
      Heap.read_write_same read _
    have held : Transit.Holds (.ofKey service.nextKey) service.nextKey :=
      ⟨rfl, readKey_keyOctets _⟩
    refine ⟨_, _, storeUpdate world pointer service updated, attr, filter, ?_,
      returns_packetTransit present stored held, ?_⟩
    · simp [dbgpUpdateControlInfo, wiser, found, path, svcPath, update,
        World.setControlInfo_some faithful, storeUpdate]
    · rw [present]
      rintro _ ⟨⟩
      exact ⟨_, _, stored, held, fun _ =>
        ⟨updated, LookupService.set_values_same _ _ _, final, again⟩⟩

end

/-! ## All prefixes of a message -/

variable {tables : RibId → RoutingTable} {destination : Destination}
  {destinations later : List Destination}

/-- None of the destinations is known. -/
def Unknown (tables : RibId → RoutingTable) (destinations : List Destination) : Prop :=
  ∀ destination ∈ destinations, (tables destination.rib).lookup destination.network = none

theorem Unknown.setTable (unknown : Unknown tables destinations) {table : RoutingTable}
    (kept : ∀ other ∈ destinations, other.rib = destination.rib →
      table.lookup other.network = none) :
    Unknown (Function.update tables destination.rib table) destinations := by
  intro other mem
  by_cases same : other.rib = destination.rib
  · rw [same, Function.update_self]
    exact kept other mem same
  · rw [Function.update_of_ne same]
    exact unknown other mem

variable (env peer) in
structure Prepared (ribs : Ribs) (pointer? : Option Nat) (destinations : List Destination) :
    Prop where
  apart : (destinations.map Destination.place).Nodup
  unknown : Unknown ribs.tables destinations
  ready : Ready env peer ribs.world destinations.length pointer?

variable {ribs : Ribs}

theorem Prepared.sublist (prepared : Prepared env peer ribs pointer? destinations)
    (sublist : later <+ destinations) : Prepared env peer ribs pointer? later :=
  ⟨prepared.apart.sublist (sublist.map _), fun _ mem => prepared.unknown _ (sublist.subset mem),
    prepared.ready.mono sublist.length_le⟩

theorem Prepared.withdraw (prepared : Prepared env peer ribs pointer? later)
    (destinations : List Destination) :
    Prepared env peer (destinations.foldl Ribs.withdraw ribs) pointer? later := by
  induction destinations generalizing ribs with
  | nil => exact prepared
  | cons destination destinations induction =>
    apply induction
    refine ⟨prepared.apart, prepared.unknown.setTable fun other mem same => ?_, prepared.ready⟩
    have unknown := prepared.unknown other mem
    rw [same] at unknown
    rw [RoutingTable.lookup_remove]
    split
    · rename_i node
      rw [RoutingTable.lookup, node] at unknown
      rw [RoutingTable.lookup, unknown, Option.map_none]
    · exact unknown

variable (inbound : Afi → Safi → Inbound) (faithful : env.transport = some)
  (protocol : peer.bgp.dbgpProtocol = .wiser ∧ HasLinkCost env peer ∨
    peer.bgp.dbgpProtocol = .baseline ∨ peer.bgp.dbgpProtocol = .baselineSleeper)
include faithful protocol

theorem Ready.hooked (ready : Ready env peer world (count + 1) attr.transit?) :
    Hooked env peer world count network attr := by
  rcases protocol with ⟨wiser, link⟩ | idle
  · cases present : attr.transit? with
    | none => exact hooked_of_blank network faithful wiser present link
    | some pointer => exact hooked_of_key network faithful wiser present ready
  · exact hooked_of_idle network idle ready

theorem Prepared.update
    (prepared : Prepared env peer ribs attr.transit? (destination :: destinations)) :
    ∃ after accepted, ribs.update env peer inbound attr destination = .ok (after, accepted) ∧
      Prepared env peer after attr.transit? destinations := by
  have unknown := prepared.unknown destination mem_cons_self
  have rest := prepared.sublist (sublist_cons_self destination destinations)
  unfold Ribs.update bgpUpdateMain
  cases admitted : inboundAttr (inbound destination.afi destination.safi) peer.bgp
      destination.afi destination.safi destination.network attr with
  | none =>
    refine ⟨ribs, true, ?_, rest⟩
    simp only [RoutingTable.remove, unknown, ok_bind, Option.filter_none, Option.elim_none,
      Function.update_eq_self]
    rfl
  | some newAttr =>
    have same := inboundAttr_transit admitted
    have ready := prepared.ready
    rw [length_cons, ← same] at ready
    rcases ready.hooked destination.network faithful protocol with
      ⟨filtered, filteredAttr, after, attr', filter, update, ⟨octets, announced⟩, again⟩
    rcases (ribs.tables destination.rib).lookup_install
      (inbound destination.afi destination.safi).maximumPrefix? destination.network attr'
      (ribs.attrhash.bgpAttrIntern after attr').2 with ⟨kept, lookup⟩
    have stored := (lookup destination.network).trans (if_pos rfl)
    simp only [filter, update, ok_bind, AttrHash.exchange, unknown, pure_eq_ok, reduceCtorEq,
      if_false, stored, Option.filter_some, Bool.not_false, if_true, Option.elim_some, announced]
    refine ⟨_, _, rfl, rest.apart, rest.unknown.setTable fun other mem sameRib => ?_,
      same ▸ again⟩
    have elsewhere : other.network.node ≠ destination.network.node := by
      intro node
      apply (nodup_cons.mp prepared.apart).1
      exact mem_map.mpr ⟨other, mem, Prod.ext sameRib node⟩
    rw [lookup, if_neg elsewhere, ← sameRib]
    exact rest.unknown other mem

theorem Prepared.updates (prepared : Prepared env peer ribs attr.transit? (destinations ++ later)) :
    ∃ after, ribs.updates env peer inbound attr destinations = .ok after ∧
      Prepared env peer after attr.transit? later := by
  induction destinations generalizing ribs with
  | nil => exact ⟨ribs, rfl, prepared⟩
  | cons destination destinations induction =>
    rcases prepared.update inbound faithful protocol with ⟨after, accepted, updated, rest⟩
    simp only [Ribs.updates, updated, ok_bind]
    split
    · exact induction rest
    · exact ⟨after, rfl, rest.sublist (sublist_append_right _ _)⟩

theorem Prepared.handle (calls : List NlriCall)
    (prepared : Prepared env peer ribs pointer? (calls.flatMap NlriCall.announced)) :
    Returns (calls.foldlM (Ribs.handle env peer inbound pointer?) ribs) := by
  induction calls generalizing ribs with
  | nil => exact returns_ok ribs
  | cons call calls induction =>
    have handled : ∃ after, ribs.handle env peer inbound pointer? call = .ok after ∧
        Prepared env peer after pointer? (calls.flatMap NlriCall.announced) := by
      rw [flatMap_cons, NlriCall.announced] at prepared
      unfold Ribs.handle
      cases given : call.attr? with
      | none =>
        simp only [given] at prepared
        exact ⟨_, rfl, prepared.withdraw _⟩
      | some attr =>
        simp only [given] at prepared
        have referring : Prepared env peer ribs (attr.refer pointer?).transit?
            (call.packet.destinations ++ calls.flatMap NlriCall.announced) := prepared
        exact referring.updates inbound faithful protocol
    rcases handled with ⟨after, handled, rest⟩
    rw [foldlM_cons, handled]
    exact induction rest

end

/-! ## A lookup key and an unknown attribute -/

def wiserPeer : Peer := ⟨⟨200, 2, .wiser, 0⟩, 100, 2, 1⟩

def sampleRibs : Ribs := ⟨sampleRouter.world, fun _ => sampleRouter.table, sampleRouter.attrhash⟩

def unknownAttribute : Bytes := [0xc0, 99, 2, 5, 5]

/-- Two prefixes with an unknown attribute, and the lookup key after it. -/
def keyedMessage : Message :=
  ⟨[], mandatoryAttributes ++ unknownAttribute ++ [0xd0, 22, 0, 4, 0, 0, 0, 1], [8, 10, 8, 20]⟩

end Quagga.Bgp
