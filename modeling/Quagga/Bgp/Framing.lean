import Quagga.Foundation.Loop
import Quagga.Foundation.Octets

/-!
# Messages out of a byte stream

`bgp_read` and `bgp_read_packet` of `bgp_packet.c`: a header of 19 octets, its checks, and then
the rest of the message. What has been read of a message waits in the input buffer for the
next call.
-/

namespace Quagga.Bgp

open Foundation

/-! ## Reads -/

/-- What a `read` on a connection that is still open can do. -/
inductive ReadResult where
  | wouldBlock
  /-- At least one octet, and at most as many as are asked for. -/
  | upTo (more : Nat)
deriving Repr, DecidableEq

/-- The octets that are still to be delivered, and what the next reads will do. -/
structure Socket where
  pending : Bytes
  reads : List ReadResult
deriving Repr, DecidableEq

def streamReadTry (socket : Socket) (size : Nat) : Bytes × Socket :=
  match socket.reads with
  | [] => ([], socket)
  | .wouldBlock :: reads => ([], { socket with reads := reads })
  | .upTo more :: reads =>
    (socket.pending.take (min (more + 1) size), ⟨socket.pending.drop (min (more + 1) size), reads⟩)

/-- `ibuf` up to its `endp`, and `packet_size`. -/
structure Reader where
  ibuf : Bytes
  packetSize : Nat
deriving Repr, DecidableEq

def Reader.fresh : Reader := ⟨[], 0⟩

/-- `bgp_read_packet`: whether all of the packet is there now. -/
def bgpReadPacket (reader : Reader) (socket : Socket) : Bool × Reader × Socket :=
  let readsize := reader.packetSize - reader.ibuf.length
  if readsize = 0 then (true, reader, socket)
  else
    let (octets, socket) := streamReadTry socket readsize
    let reader := { reader with ibuf := reader.ibuf ++ octets }
    (reader.ibuf.length = reader.packetSize, reader, socket)

/-! ## Headers -/

inductive MessageType where
  | openMsg
  | updateMsg
  | notifyMsg
  | keepaliveMsg
  | routeRefreshNew
  | capabilityMsg
  | routeRefreshOld
deriving Repr, DecidableEq

def MessageType.ofCode? : UInt8 → Option MessageType
  | 1 => some .openMsg
  | 2 => some .updateMsg
  | 3 => some .notifyMsg
  | 4 => some .keepaliveMsg
  | 5 => some .routeRefreshNew
  | 6 => some .capabilityMsg
  | 128 => some .routeRefreshOld
  | _ => none

def bgpHeaderSize : Nat := 19

def bgpMaxPacketSize : Nat := 4096

def MessageType.minSize : MessageType → Nat
  | .openMsg => bgpHeaderSize + 10
  | .updateMsg => bgpHeaderSize + 4
  | .notifyMsg => bgpHeaderSize + 2
  | .keepaliveMsg => bgpHeaderSize
  | .routeRefreshNew => bgpHeaderSize + 4
  | .capabilityMsg => bgpHeaderSize + 3
  | .routeRefreshOld => bgpHeaderSize + 4

def MessageType.sizeFits (type : MessageType) (size : Nat) : Bool :=
  bgpHeaderSize ≤ size && size ≤ bgpMaxPacketSize &&
    if type = .keepaliveMsg then size = type.minSize else type.minSize ≤ size

inductive HeaderError where
  | notSync
  | badMesLen
  | badMesType
deriving Repr, DecidableEq

def messageCode (message : Bytes) : UInt8 := message.getD 18 0

def messageLength (message : Bytes) : Nat := readBigEndian ((message.drop 16).take 2)

/-- The size of the message, or the error with the data of its NOTIFICATION. -/
def checkHeader (header : Bytes) : Except (HeaderError × Bytes) Nat :=
  let code := messageCode header
  let size := messageLength header
  if (code = 1 ∨ code = 4) ∧ ¬ (header.take 16).all (· = 0xff) then .error (.notSync, [])
  else match MessageType.ofCode? code with
    | none => .error (.badMesType, [code])
    | some type =>
      if type.sizeFits size then .ok size
      else .error (.badMesLen, (header.drop 16).take 2)

/-! ## One call -/

inductive ReadEvent where
  | dispatch (type : UInt8) (body : Bytes)
  | notify (error : HeaderError) (data : Bytes)
deriving Repr, DecidableEq

def readBody (reader : Reader) (socket : Socket) : Option ReadEvent × Reader × Socket :=
  match bgpReadPacket reader socket with
  | (false, reader, socket) => (none, reader, socket)
  | (true, reader, socket) =>
    (some (.dispatch (messageCode reader.ibuf) (reader.ibuf.drop bgpHeaderSize)),
      Reader.fresh, socket)

def bgpRead (reader : Reader) (socket : Socket) : Option ReadEvent × Reader × Socket :=
  let reader := if reader.packetSize = 0 then { reader with packetSize := bgpHeaderSize }
    else reader
  if reader.ibuf.length < bgpHeaderSize then
    match bgpReadPacket reader socket with
    | (false, reader, socket) => (none, reader, socket)
    | (true, reader, socket) =>
      match checkHeader reader.ibuf with
      | .error (error, data) => (some (.notify error data), reader, socket)
      | .ok size => readBody { reader with packetSize := size } socket
  else readBody reader socket

/-! ## A connection -/

/-- A connection of a configured peer, or of a temporary one that was accepted. -/
structure Connection where
  acceptPeer : Bool
  reader : Reader
  socket : Socket
  trace : List ReadEvent
  isOpen : Bool
deriving Repr, DecidableEq

/-- A call of `bgp_read` by the event loop. An error closes the connection, and so may the
handler of a message, by what it has got until then. At the end of any call for an accepted
peer it is deleted; only an OPEN hands its connection over to the configured peer before. -/
def readCall (goesOn : List ReadEvent → Bool) (connection : Connection) : Connection :=
  if ¬ connection.isOpen then connection
  else match bgpRead connection.reader connection.socket with
    | (none, reader, socket) =>
      { connection with
        reader := reader
        socket := socket
        isOpen := ¬ connection.acceptPeer }
    | (some event, reader, socket) =>
      let trace := connection.trace ++ [event]
      { acceptPeer := false
        reader := reader
        socket := socket
        trace := trace
        isOpen := match event with
          | .notify _ _ => false
          | .dispatch type _ => goesOn trace && (!connection.acceptPeer || type = 1) }

def connect (acceptPeer : Bool) (stream : Bytes) (reads : List ReadResult) : Connection :=
  ⟨acceptPeer, Reader.fresh, ⟨stream, reads⟩, [], true⟩

/-- Every call reads at least once, so there are not more calls than reads. -/
def readAll (goesOn : List ReadEvent → Bool) (acceptPeer : Bool) (stream : Bytes)
    (reads : List ReadResult) : Connection :=
  (readCall goesOn)^[reads.length] (connect acceptPeer stream reads)

/-- Every read gets all it asks for, as far as there is any. -/
def readAllAtOnce (goesOn : List ReadEvent → Bool) (acceptPeer : Bool) (stream : Bytes) :
    Connection :=
  readAll goesOn acceptPeer stream
    (List.replicate (stream.length + 1) (.upTo bgpMaxPacketSize))

def Connection.Finished (connection : Connection) : Prop :=
  connection.isOpen = false ∨ connection.socket.pending = []

end Quagga.Bgp
