import Quagga.Babel.Message
import Quagga.Foundation.Octets

/-!
# Sending Babel updates

Updates are collected in a buffer of the interface. A router id, a next hop or leading octets of a
prefix that the buffer already holds are not sent again. A flush forgets what the buffer held, and
sends it as a packet unless the token bucket of the interface is empty.
-/

namespace Quagga.Babel

open Foundation

/-- What `really_send_update` is called with. -/
structure BabelUpdate where
  id : List UInt8
  network : List UInt8
  plen : Nat
  seqno : Nat
  metric : Nat
  /-- `none`: the length is -1. -/
  channels? : Option (List UInt8)
  idLength : id.length = 8
  networkLength : network.length = 16
  plenBound : plen ≤ 128
  masked : maskPrefix network plen = network
  seqnoBound : seqno < 2 ^ 16
  metricBound : metric < 2 ^ 16
  channelsBound : ∀ channels, channels? = some channels →
    channels.length ≤ diversityHops ∧ 0 ∉ channels

/-- The interface and the configuration of the sender. The size of the buffer comes from the MTU,
which is taken to be 128 at least and never has more than 16 bits after the headers. -/
structure BabelSender where
  isUp : Bool
  ipv4? : Option (List UInt8)
  ipv4Length : ∀ ipv4, ipv4? = some ipv4 → ipv4.length = 4
  bufsize : Nat
  room : 64 ≤ bufsize
  bufsizeBound : bufsize < 2 ^ 16
  updateInterval : Nat
  diversityChannel : Bool
  /-- What the filter adds to the metric. -/
  outputFilter : List UInt8 → List UInt8 → Nat → Nat

/-- The buffer, what it holds already, the token bucket, the clock in seconds, and the packets that
were sent. -/
structure SendBuffer where
  buffered : List UInt8
  bufferedId? : Option (List UInt8)
  bufferedNh? : Option (List UInt8)
  bufferedPrefix? : Option (List UInt8)
  bucket : Nat
  bucketTime : Int
  babelNow : Int
  packets : List (List UInt8)
deriving Repr, DecidableEq

def SendBuffer.empty (bucket : Nat) (bucketTime : Int) : SendBuffer :=
  ⟨[], none, none, none, bucket, bucketTime, bucketTime, []⟩

def bucketTokensMax : Nat := 200

def bucketTokensPerSec : Nat := 40

/-- An empty bucket gets tokens for the time since it was last found empty. -/
def SendBuffer.refill (buffer : SendBuffer) : SendBuffer :=
  if buffer.bucket = 0 then
    let seconds := buffer.babelNow - buffer.bucketTime
    { buffer with
      bucket :=
        if 0 < seconds then min bucketTokensMax (seconds.toNat * bucketTokensPerSec) else 0
      bucketTime := buffer.babelNow }
  else buffer

def checkBucket (buffer : SendBuffer) : Bool × SendBuffer :=
  let buffer := buffer.refill
  if 0 < buffer.bucket then (true, { buffer with bucket := buffer.bucket - 1 })
  else (false, buffer)

def SendBuffer.forget (buffer : SendBuffer) : SendBuffer :=
  { buffer with buffered := [], bufferedId? := none, bufferedNh? := none, bufferedPrefix? := none }

inductive SendFault where
  | assertion
  | overflow
deriving Repr, DecidableEq

abbrev SendRun (α : Type) := Except SendFault α

def packetHeader (buffered : List UInt8) : List UInt8 := [42, 2] ++ bigEndian 2 buffered.length

section

variable (sender : BabelSender) (buffer : SendBuffer)

def flushbuf : SendRun SendBuffer :=
  if sender.bufsize < buffer.buffered.length then .error .assertion
  else if buffer.buffered = [] then .ok buffer.forget
  else
    let (sends, checked) := checkBucket buffer
    .ok { checked.forget with
      packets :=
        if sends then buffer.packets ++ [packetHeader buffer.buffered ++ buffer.buffered]
        else buffer.packets }

def ensureSpace (space : Nat) : SendRun SendBuffer :=
  if sender.bufsize < buffer.buffered.length + space then flushbuf sender buffer else .ok buffer

def accumulateBytes (octets : List UInt8) : SendRun SendBuffer :=
  if sender.bufsize < buffer.buffered.length + octets.length then .error .overflow
  else .ok { buffer with buffered := buffer.buffered ++ octets }

def startMessage (type len : Nat) : SendRun SendBuffer := do
  let buffer ← ensureSpace sender buffer (len + 2)
  accumulateBytes sender buffer [UInt8.ofNat type, UInt8.ofNat len]

def endMessage (type bytes : Nat) : SendRun SendBuffer :=
  let buffered := buffer.buffered
  if bytes + 2 ≤ buffered.length ∧
      (buffered.getD (buffered.length - bytes - 2) 0).toNat = type ∧
      (buffered.getD (buffered.length - bytes - 1) 0).toNat = bytes then
    .ok buffer
  else .error .assertion

def sendMessage (type len : Nat) (value : List UInt8) : SendRun SendBuffer := do
  let buffer ← startMessage sender buffer type len
  let buffer ← accumulateBytes sender buffer value
  endMessage buffer type len

end

namespace BabelUpdate

variable (update : BabelUpdate)

def isV4 : Bool := 96 ≤ update.plen && v4mapped update.network

def realPlen : Nat := if update.isV4 then update.plen - 96 else update.plen

def realPrefix : List UInt8 := if update.isV4 then update.network.drop 12 else update.network

end BabelUpdate

def commonOctets : Nat → List UInt8 → List UInt8 → Nat
  | limit + 1, first :: firsts, second :: seconds =>
    if first = second then commonOctets limit firsts seconds + 1 else 0
  | _, _, _ => 0

section

variable (sender : BabelSender) (update : BabelUpdate) (buffer : SendBuffer)

def addedMetric : Nat := sender.outputFilter update.id update.network update.plen

def sentMetric : Nat := min (update.metric + addedMetric sender update) 0xFFFF

def sentChannels? : Option (List UInt8) :=
  if sender.diversityChannel then update.channels? else none

def omitCount : Nat :=
  if update.isV4 then 0
  else
    match buffer.bufferedPrefix? with
    | none => 0
    | some default => commonOctets (update.plen / 8) default update.network

/-- The update becomes the default for those after it. -/
def setsDefault : Bool := !update.isV4 && (buffer.bufferedPrefix?.isNone || 48 ≤ update.plen)

/-- The router id is part of the prefix. -/
def carriesId : Bool :=
  buffer.bufferedId? ≠ some update.id && update.realPlen = 128 &&
    update.realPrefix.drop 8 = update.id

def updateFlags : Nat :=
  (if setsDefault update buffer then 0x80 else 0) + if carriesId update buffer then 0x40 else 0

def channelsAttribute : List UInt8 :=
  match sentChannels? sender update with
  | none => []
  | some channels => [2, UInt8.ofNat channels.length] ++ channels

def updateValue (flags omitted : Nat) : List UInt8 :=
  [if update.isV4 then 1 else 2, UInt8.ofNat flags, UInt8.ofNat update.realPlen,
      UInt8.ofNat omitted] ++
    bigEndian 2 ((sender.updateInterval + 5) / 10) ++ bigEndian 2 update.seqno ++
    bigEndian 2 (sentMetric sender update) ++
    ((update.realPrefix.drop omitted).take ((update.realPlen + 7) / 8 - omitted)) ++
    channelsAttribute sender update

def updateLen (omitted : Nat) : Nat :=
  10 + ((update.realPlen + 7) / 8 - omitted) + (channelsAttribute sender update).length

/-- The next hop for IPv4 is sent once. -/
def sendNextHop (ipv4 : List UInt8) : SendRun SendBuffer :=
  if update.isV4 ∧ buffer.bufferedNh? ≠ some ipv4 then do
    let buffer ← sendMessage sender buffer 7 6 ([1, 0] ++ ipv4)
    return { buffer with bufferedNh? := some ipv4 }
  else .ok buffer

/-- A router id that the buffer does not hold is sent, unless it is part of the prefix. -/
def sendRouterId : SendRun SendBuffer :=
  if buffer.bufferedId? = some update.id then .ok buffer
  else if carriesId update buffer then .ok { buffer with bufferedId? := some update.id }
  else do
    let buffer ← sendMessage sender buffer 6 10 ([0, 0] ++ update.id)
    return { buffer with bufferedId? := some update.id }

def isWritten : Bool :=
  sender.isUp && addedMetric sender update < 0xFFFF && (!update.isV4 || sender.ipv4?.isSome)

/-- The messages of an update. The flags and the count are settled before the router id is sent. -/
def writeUpdate (ipv4 : List UInt8) : SendRun SendBuffer := do
  let buffer ← sendNextHop sender update buffer ipv4
  let omitted := omitCount update buffer
  let flags := updateFlags update buffer
  let default := setsDefault update buffer
  let buffer ← sendRouterId sender update buffer
  let buffer ← sendMessage sender buffer 8 (updateLen sender update omitted)
    (updateValue sender update flags omitted)
  return if default then { buffer with bufferedPrefix? := some update.network } else buffer

def reallySendUpdate : SendRun SendBuffer :=
  if sender.isUp = false ∨ 0xFFFF ≤ addedMetric sender update then .ok buffer
  else do
    let buffer ← ensureSpace sender buffer (20 + 12 + 28)
    if update.isV4 ∧ sender.ipv4? = none then return buffer
    else writeUpdate sender update buffer (sender.ipv4?.getD [])

end

/-! ## Runs -/

/-- An event comes with the second in which it happens. -/
inductive SendEvent where
  | update (babelNow : Int) (update : BabelUpdate)
  | flush (babelNow : Int)

def sendEvent (sender : BabelSender) (buffer : SendBuffer) : SendEvent → SendRun SendBuffer
  | .update babelNow update => reallySendUpdate sender update { buffer with babelNow }
  | .flush babelNow => flushbuf sender { buffer with babelNow }

def sendEvents (sender : BabelSender) : SendBuffer → List SendEvent → SendRun SendBuffer
  | buffer, [] => .ok buffer
  | buffer, event :: events => do
      let buffer ← sendEvent sender buffer event
      sendEvents sender buffer events

end Quagga.Babel
