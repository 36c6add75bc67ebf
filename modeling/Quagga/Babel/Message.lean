import Quagga.Foundation.Loop

/-!
# Reading a Babel packet

`parse_packet` goes through the TLVs of a packet. Some of them set defaults for those that follow:
a router id, next hops, and the prefixes from which an update may omit leading octets. What a
packet has the router do is a list of actions. What the parser has gone on with, after its tests
of the lengths, is kept too.

A packet is the memory behind a pointer, and the octets after its end can be anything.
-/

namespace Quagga.Babel

open Foundation

/-! ## Addresses -/

def v4PrefixOctets : List UInt8 := [0, 0, 0, 0, 0, 0, 0, 0, 0, 0, 0xFF, 0xFF, 0, 0, 0, 0]

def llPrefixOctets : List UInt8 := [0xFE, 0x80, 0, 0, 0, 0, 0, 0, 0, 0, 0, 0, 0, 0, 0, 0]

def v4mapped (address : List UInt8) : Bool := address.take 12 = v4PrefixOctets.take 12

def linklocal (address : List UInt8) : Bool := address.take 8 = llPrefixOctets.take 8

def maskPrefix (address : List UInt8) (plen : Nat) : List UInt8 :=
  if 128 ≤ plen then address
  else if plen % 8 = 0 then address.take (plen / 8) ++ List.replicate (16 - plen / 8) 0
  else address.take (plen / 8) ++
    [address.getD (plen / 8) 0 &&& UInt8.ofNat ((0xFF <<< (8 - plen % 8)) &&& 0xFF)] ++
    List.replicate (15 - plen / 8) 0

def octetsAt (pointer : Nat → UInt8) (offset count : Nat) : List UInt8 :=
  (List.range count).map fun index => pointer (offset + index)

def shortAt (pointer : Nat → UInt8) (offset : Nat) : Nat :=
  (pointer offset).toNat * 256 + (pointer (offset + 1)).toNat

/-- `memcpy` into a buffer. -/
def overlay (offset : Nat) (octets buffer : List UInt8) : List UInt8 :=
  buffer.take offset ++ octets ++ buffer.drop (offset + octets.length)

/-- The octets copied from the default prefix if any are omitted. -/
def fromDefault (dp? : Option (List UInt8)) (mapped : Bool) (omitted count : Nat) :
    Option (List UInt8) :=
  if omitted = 0 then some []
  else
    match dp? with
    | none => none
    | some dp => if v4mapped dp = mapped then some (dp.take count) else none

def prefixOctets (ae : Nat) (plen? : Option Nat) : Nat :=
  match plen? with
  | some plen => (plen + 7) / 8
  | none => if ae = 1 then 4 else 16

/-- The encodings with omitted octets. The prefix starts at an offset in the address. A negative
result, which is an error for every caller, is `none`. -/
def compressedPrefix (offset : Nat) (base : List UInt8) (mapped : Bool) (pb omitted bits : Nat)
    (pointer : Nat → UInt8) (dp? : Option (List UInt8)) (len : Nat) : Option (Nat × List UInt8) :=
  if 16 - offset < omitted ∨ 16 - offset < pb ∨ (omitted < pb ∧ len < pb - omitted) then none
  else
    match fromDefault dp? mapped omitted (offset + omitted) with
    | none => none
    | some lead =>
      let network := overlay 0 lead base
      let network := overlay (offset + omitted) (octetsAt pointer 0 (pb - omitted)) network
      if pb < omitted then none else some (pb - omitted, maskPrefix network bits)

def networkPrefix (ae : Nat) (plen? : Option Nat) (omitted : Nat) (pointer : Nat → UInt8)
    (dp? : Option (List UInt8)) (len : Nat) : Option (Nat × List UInt8) :=
  let pb := prefixOctets ae plen?
  let bits := (plen?.map fun plen => if ae = 1 then plen + 96 else plen).getD 128
  if 16 < pb then none
  else
    match ae with
    | 0 => some (0, maskPrefix (List.replicate 16 0) bits)
    | 1 => compressedPrefix 12 v4PrefixOctets true pb omitted bits pointer dp? len
    | 2 => compressedPrefix 0 (List.replicate 16 0) false pb omitted bits pointer dp? len
    | 3 =>
      if 8 < pb ∧ len < pb - 8 then none
      else
        let network := overlay 8 (octetsAt pointer 0 (pb - 8)) llPrefixOctets
        if pb < 8 then none else some (pb - 8, maskPrefix network bits)
    | _ => none

def networkAddress (ae : Nat) (pointer : Nat → UInt8) (len : Nat) : Option (Nat × List UInt8) :=
  networkPrefix ae none 0 pointer none len

/-! ## Route attributes -/

/-- An attribute that has passed the test of its length. -/
structure AttributeRead where
  position : Nat
  len : Nat
  /-- The length of all attributes together. -/
  alen : Nat
deriving Repr, DecidableEq

structure Attributes where
  channels : List UInt8
  reads : List AttributeRead
deriving Repr, DecidableEq, Inhabited

def diversityHops : Nat := 8

section

variable (a : Nat → UInt8) (alen : Nat)

/-- The channels of an attribute of type 2, not more than there is room for. -/
def channelInfo? (i : Nat) : Option (List UInt8) :=
  if a i = 2 then some (octetsAt a (i + 2) (min (a (i + 1)).toNat diversityHops)) else none

/-- How far the next attribute is. The length of type 2 has been cut down to the room. -/
def attributeSkip (i : Nat) : Nat :=
  (if a i = 2 then min (a (i + 1)).toNat diversityHops else (a (i + 1)).toNat) + 2

def attributeTurn (state : Nat × Attributes) : Turn (Nat × Attributes) Attributes :=
  let (i, attributes) := state
  if i < alen then
    if a i = 0 then .next (i + 1, attributes)
    else
      let len := (a (i + 1)).toNat
      if alen < i + len then .leave attributes
      else
        let reads := attributes.reads ++ [⟨i, len, alen⟩]
        if (channelInfo? a i).any (0 ∈ ·) then .leave { attributes with reads := reads }
        else
          .next (i + attributeSkip a i, ⟨(channelInfo? a i).getD attributes.channels, reads⟩)
  else .leave attributes

def attributeLoop : Loop (Nat × Attributes) Attributes where
  turn := attributeTurn a alen
  size state := alen - state.1
  shrinks := by
    rintro ⟨i, attributes⟩ following taken
    rw [attributeTurn] at taken
    dsimp only at taken
    split at taken
    next inside =>
      split at taken
      · cases taken
        dsimp only
        omega
      · split at taken
        · cases taken
        · split at taken
          · cases taken
          · cases taken
            dsimp only [attributeSkip]
            omega
    next => cases taken

end

/-- The channels up to the first 0. -/
def parseRouteAttributes (a : Nat → UInt8) (alen : Nat) (channels : List UInt8) : Attributes :=
  (attributeLoop a alen).run (0, ⟨channels, []⟩)

/-! ## TLVs -/

inductive BabelAction where
  | findNeighbour
  | sendAck (nonce interval : Nat)
  | updateNeighbour (seqno interval : Nat)
  | updateTxcost (txcost interval : Nat)
  | retractNeighbourRoutes
  | updateRoute (id network : List UInt8) (plen seqno metric interval : Nat)
      (nh channels : List UInt8)
  | answerWildcardRequest
  | sendUpdate (network : List UInt8) (plen : Nat)
  | handleRequest (network : List UInt8) (plen hopCount seqno : Nat) (id : List UInt8)
deriving Repr, DecidableEq

/-- What the parser needs to know about its own end. -/
structure BabelReceiver where
  /-- The address of the neighbour. -/
  address : List UInt8
  isInterfaceLlAddress : List UInt8 → Bool
  hasIpv4 : Bool
  faraway : Bool

/-- The local variables of `parse_packet`. -/
structure ParseState where
  routerId : List UInt8
  haveRouterId : Bool
  v4Prefix : List UInt8
  haveV4Prefix : Bool
  v6Prefix : List UInt8
  haveV6Prefix : Bool
  /-- Not in the code: the address encoding of the update that set `v6Prefix`. -/
  v6PrefixAe : Nat
  v4Nh : List UInt8
  haveV4Nh : Bool
  v6Nh : List UInt8
  haveV6Nh : Bool
deriving Repr, DecidableEq

namespace ParseState

def dropPrefixes (state : ParseState) : ParseState :=
  { state with haveV4Prefix := false, haveV6Prefix := false }

def dropNextHops (state : ParseState) : ParseState :=
  { state with haveV4Nh := false, haveV6Nh := false }

/-- The default prefix that an earlier update with the same address encoding has set. -/
def default? (state : ParseState) (ae : Nat) : Option (List UInt8) :=
  if ae = 1 then if state.haveV4Prefix then some state.v4Prefix else none
  else if state.haveV6Prefix ∧ state.v6PrefixAe = ae then some state.v6Prefix else none

end ParseState

/-- An update with omitted octets whose prefix was accepted. -/
structure OmittingUpdate where
  ae : Nat
  plen : Nat
  omitted : Nat
  /-- The octets in the update. -/
  received : List UInt8
  default? : Option (List UInt8)
  network : List UInt8
deriving Repr, DecidableEq

structure TlvReading where
  state : ParseState
  actions : List BabelAction
  attributes : List AttributeRead
  omitting : List OmittingUpdate
deriving Repr, DecidableEq

namespace TlvReading

def nothing (state : ParseState) : TlvReading := ⟨state, [], [], []⟩

def act (state : ParseState) (action : BabelAction) : TlvReading := ⟨state, [action], [], []⟩

end TlvReading

section

variable (receiver : BabelReceiver) (state : ParseState) (message : Nat → UInt8) (len : Nat)

def parseIhu : TlvReading :=
  if len < 6 then .nothing state
  else
    let ae := (message 2).toNat
    match networkAddress ae (fun index => message (8 + index)) (len - 6) with
    | none => .nothing state
    | some (_, address) =>
      if ae = 0 ∨ receiver.isInterfaceLlAddress address then
        .act state (.updateTxcost (shortAt message 4) (shortAt message 6))
      else .nothing state

def parseRouterId : TlvReading :=
  if len < 10 then .nothing { state with haveRouterId := false }
  else .nothing { state with routerId := octetsAt message 4 8, haveRouterId := true }

def parseNh : TlvReading :=
  if len < 2 then .nothing state.dropNextHops
  else
    let ae := (message 2).toNat
    match networkAddress ae (fun index => message (4 + index)) (len - 2) with
    | none => .nothing state.dropNextHops
    | some (_, nh) =>
      if ae = 1 then .nothing { state with v4Nh := nh, haveV4Nh := true }
      else .nothing { state with v6Nh := nh, haveV6Nh := true }

/-! ### Updates -/

/-- The test for a default looks at the flags, in the place of the address encoding. -/
def haveDefault : Bool := if message 3 = 1 then state.haveV4Prefix else state.haveV6Prefix

def updatePrefix : Option (Nat × List UInt8) :=
  let ae := (message 2).toNat
  let omitted := (message 5).toNat
  if omitted = 0 ∨ haveDefault state message then
    networkPrefix ae (some (message 4).toNat) omitted (fun index => message (12 + index))
      (some (if ae = 1 then state.v4Prefix else state.v6Prefix)) (len - 10)
  else none

def noteUpdate (ae flags : Nat) (network : List UInt8) : ParseState :=
  let state :=
    if flags.testBit 7 then
      if ae = 1 then { state with v4Prefix := network, haveV4Prefix := true }
      else { state with v6Prefix := network, haveV6Prefix := true, v6PrefixAe := ae }
    else state
  if flags.testBit 6 then
    { state with
      routerId :=
        if ae = 1 then List.replicate 4 0 ++ (network.drop 12).take 4
        else (network.drop 8).take 8
      haveRouterId := true }
  else state

def updateNextHop (ae : Nat) : Option (List UInt8) :=
  if ae = 1 then if state.haveV4Nh then some state.v4Nh else none
  else if state.haveV6Nh then some state.v6Nh
  else some receiver.address

def updateChannels (metric parsedLen : Nat) : Attributes :=
  if receiver.faraway then ⟨[], []⟩
  else
    let channels := if metric < 256 then [] else [255]
    if parsedLen < len then
      parseRouteAttributes (fun index => message (2 + parsedLen + index)) (len - parsedLen) channels
    else ⟨channels, []⟩

def omittingUpdate (network : List UInt8) : List OmittingUpdate :=
  let ae := (message 2).toNat
  let plen := (message 4).toNat
  let omitted := (message 5).toNat
  if omitted = 0 then []
  else [⟨ae, plen, omitted, octetsAt message 12 (prefixOctets ae (some plen) - omitted),
    state.default? ae, network⟩]

def acceptUpdate (parsed : Nat) (network : List UInt8) : TlvReading :=
  let ae := (message 2).toNat
  let plen := ((message 4).toNat + if ae = 1 then 96 else 0) % 256
  let metric := shortAt message 10
  let omitting := omittingUpdate state message network
  let state := noteUpdate state ae (message 3).toNat network
  if ¬ state.haveRouterId ∧ ae ≠ 0 then ⟨state, [], [], omitting⟩
  else if ae = 0 then
    ⟨state, if metric < 0xFFFF then [] else [.retractNeighbourRoutes], [], omitting⟩
  else
    match updateNextHop receiver state ae with
    | none => ⟨state, [], [], omitting⟩
    | some nh =>
      if ae = 1 ∧ ¬ receiver.hasIpv4 then ⟨state, [], [], omitting⟩
      else
        let attributes := updateChannels receiver message len metric (10 + parsed)
        ⟨state, [.updateRoute state.routerId network plen (shortAt message 8) metric
          (shortAt message 6) nh attributes.channels], attributes.reads, omitting⟩

def parseUpdate : TlvReading :=
  if len < 10 then
    .nothing (if len < 2 ∨ (message 3).toNat.testBit 7 then state.dropPrefixes else state)
  else
    match updatePrefix state message len with
    | none => .nothing (if (message 3).toNat.testBit 7 then state.dropPrefixes else state)
    | some (parsed, network) => acceptUpdate receiver state message len parsed network

/-! ### Requests -/

def requestPlen : Nat := ((message 3).toNat + if message 2 = 1 then 96 else 0) % 256

def parseRequest : TlvReading :=
  if len < 2 then .nothing state
  else
    match networkPrefix (message 2).toNat (some (message 3).toNat) 0
        (fun index => message (4 + index)) none (len - 2) with
    | none => .nothing state
    | some (_, network) =>
      if message 2 = 0 then .act state .answerWildcardRequest
      else .act state (.sendUpdate network (requestPlen message))

def parseMhRequest : TlvReading :=
  if len < 14 then .nothing state
  else
    match networkPrefix (message 2).toNat (some (message 3).toNat) 0
        (fun index => message (16 + index)) none (len - 14) with
    | none => .nothing state
    | some (_, network) =>
      .act state (.handleRequest network (requestPlen message) (message 6).toNat
        (shortAt message 4) (octetsAt message 8 8))

def parseTlv : TlvReading :=
  match (message 0).toNat with
  | 2 =>
    if len < 6 then .nothing state
    else .act state (.sendAck (shortAt message 4) (shortAt message 6))
  | 4 =>
    if len < 6 then .nothing state
    else .act state (.updateNeighbour (shortAt message 4) (shortAt message 6))
  | 5 => parseIhu receiver state message len
  | 6 => parseRouterId state message len
  | 7 => parseNh state message len
  | 8 => parseUpdate receiver state message len
  | 9 => parseRequest state message len
  | 10 => parseMhRequest state message len
  -- `PADN`, `ACK` and unknown types.
  | _ => .nothing state

end

/-! ## Packets -/

structure PacketReading where
  actions : List BabelAction
  /-- Start and length of each TLV that has passed the tests. -/
  tlvs : List (Nat × Nat)
  attributes : List AttributeRead
  omitting : List OmittingUpdate
deriving Repr, DecidableEq, Inhabited

def PacketReading.nothing : PacketReading := ⟨[], [], [], []⟩

def PacketReading.add (packet : PacketReading) (i len : Nat) (tlv : TlvReading) : PacketReading :=
  ⟨packet.actions ++ tlv.actions, packet.tlvs ++ [(i, len)], packet.attributes ++ tlv.attributes,
    packet.omitting ++ tlv.omitting⟩

section

variable (receiver : BabelReceiver) (body : Nat → UInt8) (bodylen : Int)

def messageAt (i : Nat) : Nat → UInt8 := fun offset => body (i + offset)

def lenAt (i : Nat) : Nat := (body (i + 1)).toNat

def tlvAt (state : ParseState) (i : Nat) : TlvReading :=
  parseTlv receiver state (messageAt body i) (lenAt body i)

def packetTurn (turn : Nat × ParseState × PacketReading) :
    Turn (Nat × ParseState × PacketReading) PacketReading :=
  let (i, state, packet) := turn
  if i < bodylen then
    if body i = 0 then .next (i + 1, state, packet)
    else if bodylen < (i + lenAt body i : Nat) then .leave packet
    else
      let tlv := tlvAt receiver body state i
      .next (i + (lenAt body i + 2), tlv.state, packet.add i (lenAt body i) tlv)
  else .leave packet

def packetLoop : Loop (Nat × ParseState × PacketReading) PacketReading where
  turn := packetTurn receiver body bodylen
  size turn := bodylen.toNat - turn.1
  shrinks := by
    rintro ⟨i, state, packet⟩ following taken
    rw [packetTurn] at taken
    split at taken
    next inside =>
      split at taken
      · cases taken
        omega
      · split at taken
        · cases taken
        · cases taken
          omega
    next => cases taken

/-- At the start of a packet the local variables are uninitialised but for their flags. -/
def ParseState.atStart (uninitialised : ParseState) : ParseState :=
  { uninitialised with
    haveRouterId := false
    haveV4Prefix := false
    haveV6Prefix := false
    haveV4Nh := false
    haveV6Nh := false }

/-- The declared length of the body, or what has been received of it. -/
def bodyLength (packet : Nat → UInt8) (packetlen : Int) : Int :=
  min (shortAt packet 2 : Int) (packetlen - 4)

def packetBody (packet : Nat → UInt8) : Nat → UInt8 := fun offset => packet (4 + offset)

def headerAccepted (packet : Nat → UInt8) : Bool :=
  linklocal receiver.address && packet 0 = 42 && packet 1 = 2

def parsePacket (uninitialised : ParseState) (packet : Nat → UInt8) (packetlen : Int) :
    PacketReading :=
  if headerAccepted receiver packet then
    (packetLoop receiver (packetBody packet) (bodyLength packet packetlen)).run
      (0, uninitialised.atStart, ⟨[.findNeighbour], [], [], []⟩)
  else .nothing

end

end Quagga.Babel
