import Quagga.Bgp.AsPath
import Quagga.Foundation.Transitions

/-!
# The finite state machine of a peer

`bgp_fsm.c`, and what the handlers of `bgp_packet.c` do to it: the table of states and events,
the socket, its read and write threads, the timers, the pending events and the output queue.
-/

namespace Quagga.Bgp

open Foundation

inductive FsmStatus where
  | idle
  | connect
  | active
  | openSent
  | openConfirm
  | established
  | clearing
  | deleted
deriving Repr, DecidableEq

inductive FsmEvent where
  | bgpStart
  | bgpStop
  | tcpConnectionOpen
  | tcpConnectionClosed
  | tcpConnectionOpenFailed
  | tcpFatalError
  | connectRetryTimerExpired
  | holdTimerExpired
  | keepAliveTimerExpired
  | receiveOpenMessage
  | receiveKeepaliveMessage
  | receiveUpdateMessage
  | receiveNotificationMessage
  | clearingCompleted
deriving Repr, DecidableEq

inductive Outgoing where
  | openMsg
  | keepaliveMsg
  | notifyMsg (code subcode : UInt8)
  | otherMsg
deriving Repr, DecidableEq

/-- What is configured for the peer. The times are those that are in effect when no session
has negotiated others. -/
structure PeerConfig where
  as : UInt32
  localId : UInt32
  holdtime : Nat
  keepalive : Nat
  passive : Bool
  /-- `peer_active`: some address family is configured. -/
  active : Bool
  /-- `BGP_PEER_START_SUPPRESSED` -/
  startSuppressed : Bool
deriving Repr, DecidableEq

structure FsmPeer where
  config : PeerConfig
  acceptPeer : Bool
  status : FsmStatus
  /-- `none` is the descriptor `-1`. -/
  fd? : Option Nat
  tRead : Bool
  tWrite : Bool
  tStart : Bool
  tConnect : Bool
  tHoldtime : Bool
  tKeepalive : Bool
  tRouteadv : Bool
  vHoldtime : Nat
  vKeepalive : Nat
  obuf : List Outgoing
  events : List FsmEvent
  remoteId : UInt32
  as4Rcv : Bool
  nsfMode : Bool
  nsfWait : Bool
deriving Repr, DecidableEq

def FsmPeer.configured (config : PeerConfig) : FsmPeer where
  config := config
  acceptPeer := false
  status := .idle
  fd? := none
  tRead := false
  tWrite := false
  tStart := config.active && !config.startSuppressed
  tConnect := false
  tHoldtime := false
  tKeepalive := false
  tRouteadv := false
  vHoldtime := config.holdtime
  vKeepalive := config.keepalive
  obuf := []
  events := []
  remoteId := 0
  as4Rcv := false
  nsfMode := false
  nsfWait := false

/-! ## What the functions share -/

def FsmPeer.eventAdd (event : FsmEvent) (peer : FsmPeer) : FsmPeer :=
  if peer.status = .deleted then peer else { peer with events := peer.events ++ [event] }

def FsmPeer.readOn (peer : FsmPeer) : FsmPeer :=
  if peer.status = .deleted then peer else { peer with tRead := true }

def FsmPeer.writeOn (peer : FsmPeer) : FsmPeer :=
  if peer.status = .deleted then peer else { peer with tWrite := true }

def FsmPeer.send (packet : Outgoing) (peer : FsmPeer) : FsmPeer :=
  { peer with obuf := peer.obuf ++ [packet] }.writeOn

def FsmPeer.timersOff (peer : FsmPeer) : FsmPeer :=
  { peer with
    tStart := false
    tConnect := false
    tHoldtime := false
    tKeepalive := false
    tRouteadv := false }

def bgpTimerSet (peer : FsmPeer) : FsmPeer :=
  match peer.status with
  | .idle =>
    { peer.timersOff with tStart := peer.config.active && !peer.config.startSuppressed }
  | .connect => { peer.timersOff with tConnect := true }
  | .active => { peer.timersOff with tConnect := !(peer.config.passive || peer.nsfWait) }
  | .openSent => { peer.timersOff with tHoldtime := peer.vHoldtime ≠ 0 }
  | .openConfirm =>
    { peer.timersOff with tHoldtime := peer.vHoldtime ≠ 0, tKeepalive := peer.vHoldtime ≠ 0 }
  | .established =>
    { peer.timersOff with
      tHoldtime := peer.vHoldtime ≠ 0
      tKeepalive := peer.vHoldtime ≠ 0
      tRouteadv := peer.tRouteadv }
  | .clearing => peer.timersOff
  | .deleted => peer.timersOff

/-- `bgp_stop`. In Clearing, the pending events are kept. -/
def bgpStop (peer : FsmPeer) : FsmPeer :=
  { peer.timersOff with
    events := if peer.status = .clearing then peer.events else []
    nsfMode := peer.nsfMode && (peer.status ≠ .established || peer.nsfWait)
    tRead := false
    tWrite := false
    obuf := []
    fd? := none
    vKeepalive := peer.config.keepalive
    vHoldtime := peer.config.holdtime }

def peerDelete (peer : FsmPeer) : FsmPeer := { (bgpStop peer).timersOff with status := .deleted }

inductive ConnectResult where
  | socketFailed
  | connectError (fd : Nat)
  | connectSuccess (fd : Nat)
  | connectInProgress (fd : Nat)
deriving Repr, DecidableEq

structure Surroundings where
  connect : ConnectResult
  /-- Some octets of a NOTIFICATION have been written. -/
  notifyWritten : Bool
  /-- Graceful restart for some address family. -/
  restartNegotiated : Bool
  /-- ROUTE-REFRESH messages with a filter, when the session comes up. -/
  refreshes : Nat
deriving Repr, DecidableEq

variable (surroundings : Surroundings)

/-- `bgp_notify_send`: the only packet in the queue, written at once. -/
def bgpNotifySend (code subcode : UInt8) (peer : FsmPeer) : FsmPeer :=
  { peer with obuf := [.notifyMsg code subcode], tWrite := false }.eventAdd
    (if surroundings.notifyWritten then .bgpStop else .tcpFatalError)

/-! ## The functions of the table

Each returns whether the state machine proceeds. -/

def bgpStart (peer : FsmPeer) : Bool × FsmPeer :=
  if peer.config.startSuppressed then (false, peer)
  else
    let peer := { peer with remoteId := 0, as4Rcv := false }
    if peer.config.passive then (true, peer.eventAdd .tcpConnectionOpenFailed)
    else match surroundings.connect with
      | .socketFailed => (true, { peer with fd? := none })
      | .connectError fd => (true, { peer with fd? := some fd }.eventAdd .tcpConnectionOpenFailed)
      | .connectSuccess fd => (true, { peer with fd? := some fd }.eventAdd .tcpConnectionOpen)
      | .connectInProgress fd => (true, { peer with fd? := some fd }.readOn.writeOn)

def bgpStopWithNotify (code subcode : UInt8) (peer : FsmPeer) : Bool × FsmPeer :=
  let peer := bgpNotifySend surroundings code subcode peer
  if peer.acceptPeer then (false, peerDelete peer) else (true, bgpStop peer)

/-- Only a configured peer sends its OPEN first. -/
def bgpConnectSuccess (peer : FsmPeer) : Bool × FsmPeer :=
  if peer.fd? = none then (false, peer)
  else if peer.acceptPeer then (true, peer.readOn)
  else (true, peer.readOn.send .openMsg)

def bgpFsmOpen (peer : FsmPeer) : FsmPeer :=
  { peer.send .keepaliveMsg with tHoldtime := false }

def bgpEstablish (peer : FsmPeer) : FsmPeer :=
  let peer := { peer with
    status := .established
    nsfWait := false
    nsfMode := surroundings.restartNegotiated }
  let peer := (FsmPeer.send .otherMsg)^[surroundings.refreshes] peer
  let peer := if peer.vKeepalive ≠ 0 then peer.send .keepaliveMsg else peer
  { peer with tRouteadv := true }

inductive FsmFunction where
  | start
  | stop
  | ignore
  | connectSuccess
  | connectFail
  | reconnect
  | fsmOpen
  | fsmEventError
  | fsmHoldtimeExpire
  | fsmKeepaliveExpire
  | fsmKeepalive
  | fsmUpdate
  | stopWithError
  | establish
  | clearingCompleted
deriving Repr, DecidableEq

/-- `BGP_NOTIFY_HOLD_ERR` is 4 and `BGP_NOTIFY_FSM_ERR` is 5. -/
def FsmFunction.call : FsmFunction → FsmPeer → Bool × FsmPeer
  | .start, peer => bgpStart surroundings peer
  | .stop, peer => (true, bgpStop peer)
  | .ignore, peer => (true, peer)
  | .connectSuccess, peer => bgpConnectSuccess peer
  | .connectFail, peer => (true, bgpStop peer)
  | .reconnect, peer => (true, (bgpStart surroundings (bgpStop peer)).2)
  | .fsmOpen, peer => (true, bgpFsmOpen peer)
  | .fsmEventError, peer => bgpStopWithNotify surroundings 5 0 peer
  | .fsmHoldtimeExpire, peer => bgpStopWithNotify surroundings 4 0 peer
  | .fsmKeepaliveExpire, peer => (true, peer.send .keepaliveMsg)
  | .fsmKeepalive, peer => (true, { peer with tHoldtime := false })
  | .fsmUpdate, peer => (true, { peer with tHoldtime := false })
  | .stopWithError, peer => (true, bgpStop peer)
  | .establish, peer => (true, bgpEstablish surroundings peer)
  | .clearingCompleted, peer => (true, { bgpStop peer with events := [] })

def fsm : FsmStatus → FsmEvent → FsmFunction × FsmStatus
  | .idle, event =>
    match event with
    | .bgpStart => (.start, .connect)
    | .bgpStop | .tcpConnectionOpen | .tcpConnectionClosed | .tcpFatalError => (.stop, .idle)
    | _ => (.ignore, .idle)
  | .connect, event =>
    match event with
    | .bgpStart => (.ignore, .connect)
    | .bgpStop | .tcpConnectionClosed | .receiveNotificationMessage => (.stop, .idle)
    | .tcpConnectionOpen => (.connectSuccess, .openSent)
    | .tcpConnectionOpenFailed => (.connectFail, .active)
    | .tcpFatalError => (.connectFail, .idle)
    | .connectRetryTimerExpired => (.reconnect, .connect)
    | _ => (.ignore, .idle)
  | .active, event =>
    match event with
    | .bgpStart | .tcpConnectionOpenFailed => (.ignore, .active)
    | .bgpStop | .tcpConnectionClosed => (.stop, .idle)
    | .tcpConnectionOpen => (.connectSuccess, .openSent)
    | .connectRetryTimerExpired => (.start, .connect)
    | .receiveNotificationMessage => (.stopWithError, .idle)
    | _ => (.ignore, .idle)
  | .openSent, event =>
    match event with
    | .bgpStart => (.ignore, .openSent)
    | .bgpStop => (.stop, .idle)
    | .tcpConnectionOpen | .tcpConnectionClosed | .tcpConnectionOpenFailed
    | .tcpFatalError => (.stop, .active)
    | .holdTimerExpired => (.fsmHoldtimeExpire, .idle)
    | .receiveOpenMessage => (.fsmOpen, .openConfirm)
    | .receiveKeepaliveMessage | .receiveUpdateMessage => (.fsmEventError, .idle)
    | .receiveNotificationMessage => (.stopWithError, .idle)
    | _ => (.ignore, .idle)
  | .openConfirm, event =>
    match event with
    | .bgpStart | .keepAliveTimerExpired => (.ignore, .openConfirm)
    | .bgpStop | .tcpConnectionOpen | .tcpConnectionClosed | .tcpConnectionOpenFailed
    | .tcpFatalError => (.stop, .idle)
    | .holdTimerExpired => (.fsmHoldtimeExpire, .idle)
    | .receiveKeepaliveMessage => (.establish, .established)
    | .receiveNotificationMessage => (.stopWithError, .idle)
    | _ => (.ignore, .idle)
  | .established, event =>
    match event with
    | .bgpStart => (.ignore, .established)
    | .holdTimerExpired => (.fsmHoldtimeExpire, .clearing)
    | .keepAliveTimerExpired => (.fsmKeepaliveExpire, .established)
    | .receiveKeepaliveMessage => (.fsmKeepalive, .established)
    | .receiveUpdateMessage => (.fsmUpdate, .established)
    | .receiveNotificationMessage => (.stopWithError, .clearing)
    | .clearingCompleted => (.ignore, .idle)
    | _ => (.stop, .clearing)
  | .clearing, event =>
    match event with
    | .bgpStart => (.ignore, .clearing)
    | .clearingCompleted => (.clearingCompleted, .idle)
    | _ => (.stop, .clearing)
  | .deleted, _ => (.ignore, .deleted)

def bgpEvent (event : FsmEvent) (peer : FsmPeer) : FsmPeer :=
  let (function, next) := fsm peer.status event
  match function.call surroundings peer with
  | (false, peer) => peer
  | (true, peer) => bgpTimerSet { peer with status := next }

/-! ## OPEN -/

/-- An OPEN, with the AS of its capability for four octets if it has one, and whether its
optional parameters can be parsed. -/
structure OpenMessage where
  version : UInt8
  remoteAs : UInt32
  holdtime : Nat
  remoteId : UInt32
  as4? : Option UInt32
  optionsValid : Bool
deriving Repr, DecidableEq

inductive OpenError where
  | unsupVersion
  | badPeerAs
  | badBgpIdent
  | unacepHoldtime
deriving Repr, DecidableEq

def OpenError.subcode : OpenError → UInt8
  | .unsupVersion => 1
  | .badPeerAs => 2
  | .badBgpIdent => 3
  | .unacepHoldtime => 6

/-- The AS of the remote speaker, before the peer is looked up. -/
def openRemoteAs (as4Rcv : Bool) (message : OpenMessage) : Except OpenError UInt32 :=
  let as4 := message.as4?.getD 0
  if as4Rcv ∧ as4 = 0 then .error .badPeerAs
  else if message.remoteAs = bgpAsTrans then
    if as4 = bgpAsTrans then .error .badPeerAs
    else .ok (if as4 ≠ 0 then as4 else message.remoteAs)
  else if as4Rcv ∧ as4 ≠ message.remoteAs then .error .badPeerAs
  else .ok message.remoteAs

def ipv4ClassDe (address : UInt32) : Bool := address &&& 0xe0000000 = 0xe0000000

def openErrorSend (error : OpenError) (peer : FsmPeer) : FsmPeer :=
  bgpNotifySend surroundings 2 error.subcode peer

def openFinish (remoteAs : UInt32) (message : OpenMessage) (peer : FsmPeer) : FsmPeer :=
  if message.remoteId = 0 ∨ ipv4ClassDe message.remoteId ∨
      peer.config.localId = message.remoteId then
    openErrorSend surroundings .badBgpIdent peer
  else
    let peer := { peer with remoteId := message.remoteId }
    if message.version ≠ 4 then openErrorSend surroundings .unsupVersion peer
    else if remoteAs ≠ peer.config.as then openErrorSend surroundings .badPeerAs peer
    else if message.holdtime < 3 ∧ message.holdtime ≠ 0 then
      openErrorSend surroundings .unacepHoldtime peer
    else
      let holdtime := min message.holdtime peer.config.holdtime
      let peer := { peer with vHoldtime := holdtime, vKeepalive := holdtime / 3 }
      if ¬ message.optionsValid then openErrorSend surroundings .unacepHoldtime peer
      else { peer with as4Rcv := peer.as4Rcv || message.as4?.isSome }.eventAdd .receiveOpenMessage

/-- What `bgp_collision_detect` does: nothing, close a connection of the configured peer or of
an accepted one in favour of the new connection, or close the new connection. -/
inductive Collision where
  | none
  | closesConfigured
  | closesAccepted
  | closesNew
deriving Repr, DecidableEq

/-- `bgp_open_receive` for a configured peer. `BGP_NOTIFY_CEASE` is 6, and
`BGP_NOTIFY_CEASE_COLLISION_RESOLUTION` is 7. -/
def bgpOpenReceive (collision : Collision) (message : OpenMessage) (peer : FsmPeer) : FsmPeer :=
  let peer := { peer with as4Rcv := peer.as4Rcv || message.as4?.isSome }
  match openRemoteAs peer.as4Rcv message with
  | .error error => openErrorSend surroundings error peer
  | .ok remoteAs =>
    if collision = .closesNew then bgpNotifySend surroundings 6 7 peer
    else openFinish surroundings remoteAs message peer

def FsmPeer.collides (peer : FsmPeer) : Bool :=
  peer.status = .openSent || peer.status = .openConfirm

def transfers (collision : Collision) (peer : FsmPeer) : Bool :=
  if peer.status = .established ∧ peer.nsfMode then true
  else collision ≠ .none || peer.status = .active || peer.collides || peer.status = .connect

/-- `bgp_open_receive` for an accepted peer, in OpenSent, that found the configured peer: what
it does to the configured one. -/
def takeOver (collision : Collision) (fd : Nat) (remoteAs : UInt32) (message : OpenMessage)
    (peer : FsmPeer) : FsmPeer :=
  if collision = .closesNew then peer
  else
    let peer :=
      if collision = .closesConfigured ∧ peer.fd? ≠ none then bgpNotifySend surroundings 6 7 peer
      else peer
    if transfers collision peer then
      let peer :=
        if peer.status = .established ∧ peer.nsfMode then { peer with nsfWait := true } else peer
      let peer := { bgpStop peer with fd? := some fd, status := .openSent }
      openFinish surroundings remoteAs message (peer.send .openMsg).readOn
    else peer

/-! ## Steps -/

inductive Incoming where
  | partialRead
  | closed
  | fatalError
  | headerError (subcode : UInt8)
  | openMsg (collision : Collision) (message : OpenMessage)
  | keepaliveMsg
  /-- An UPDATE, with the code and the subcode of its error if it has one. -/
  | updateMsg (error? : Option (UInt8 × UInt8))
  | notificationMsg
  /-- A ROUTE-REFRESH or a CAPABILITY. -/
  | otherMsg (error? : Option (UInt8 × UInt8))
deriving Repr, DecidableEq

def bgpConnectCheck (outcome : FsmEvent) (peer : FsmPeer) : FsmPeer :=
  { peer with tRead := false, tWrite := false }.eventAdd outcome

/-- The dispatch of `bgp_read`. `BGP_NOTIFY_HEADER_ERR` is 1. -/
def receive (incoming : Incoming) (peer : FsmPeer) : FsmPeer :=
  match incoming with
  | .partialRead => peer
  | .closed => peer.eventAdd .tcpConnectionClosed
  | .fatalError => peer.eventAdd .tcpFatalError
  | .headerError subcode => bgpNotifySend surroundings 1 subcode peer
  | .openMsg collision message => bgpOpenReceive surroundings collision message peer
  | .keepaliveMsg => peer.eventAdd .receiveKeepaliveMessage
  | .updateMsg error? =>
    if peer.status ≠ .established then bgpNotifySend surroundings 5 0 peer
    else match error? with
      | some (code, subcode) => bgpNotifySend surroundings code subcode peer
      | none => bgpTimerSet { peer with tHoldtime := false }
  | .notificationMsg => peer.eventAdd .receiveNotificationMessage
  | .otherMsg error? =>
    match error? with
    | some (code, subcode) => bgpNotifySend surroundings code subcode peer
    | none => peer

structure Written where
  added : List Outgoing
  count : Nat
  failed : Bool
  /-- `bgp_write_proceed` finds advertisements. -/
  pending : Bool
deriving Repr, DecidableEq

def Outgoing.isNotify : Outgoing → Bool
  | .notifyMsg _ _ => true
  | _ => false

/-- The loop of `bgp_write`, which ends with a NOTIFICATION. -/
def writePackets : Nat → List Outgoing → List Outgoing × Bool
  | _, [] => ([], false)
  | 0, packets => (packets, false)
  | count + 1, packet :: packets =>
    if packet.isNotify then (packet :: packets, true) else writePackets count packets

def bgpWrite (written : Written) (peer : FsmPeer) : FsmPeer :=
  let (left, notified) := writePackets written.count (peer.obuf ++ written.added)
  let peer := { peer with tWrite := false, obuf := left }
  if notified then peer.eventAdd .bgpStop
  else if written.failed then peer.eventAdd .tcpFatalError
  else if left ≠ [] ∨ written.pending then peer.writeOn else peer

inductive FsmTimer where
  | start
  | connect
  | holdtime
  | keepalive
deriving Repr, DecidableEq

inductive FsmStep where
  /-- The first pending event. -/
  | next
  | timer (timer : FsmTimer)
  /-- Any other event, from wherever it comes. -/
  | deliver (event : FsmEvent)
  | readable (incoming : Incoming)
  | connectChecked (outcome : FsmEvent)
  | writable (written : Written)
  /-- An accepted peer has got an OPEN. -/
  | accepted (collision : Collision) (fd : Nat) (remoteAs : UInt32) (message : OpenMessage)
  /-- Packets from elsewhere, as from the timer of the advertisements. -/
  | queued (packets : List Outgoing)
  /-- Another configuration, or the end of a graceful restart. -/
  | configure (config : PeerConfig) (nsfWait nsfMode : Bool)
deriving Repr, DecidableEq

def expire (timer : FsmTimer) (peer : FsmPeer) : Option (FsmEvent × FsmPeer) :=
  match timer with
  | .start => if peer.tStart then some (.bgpStart, { peer with tStart := false }) else none
  | .connect =>
    if peer.tConnect then some (.connectRetryTimerExpired, { peer with tConnect := false })
    else none
  | .holdtime =>
    if peer.tHoldtime then some (.holdTimerExpired, { peer with tHoldtime := false }) else none
  | .keepalive =>
    if peer.tKeepalive then some (.keepAliveTimerExpired, { peer with tKeepalive := false })
    else none

def eventOf (peer : FsmPeer) : FsmStep → Option (FsmEvent × FsmPeer)
  | .next =>
    match peer.events with
    | [] => none
    | event :: events => some (event, { peer with events := events })
  | .timer timer => expire timer peer
  | .deliver event => some (event, peer)
  | _ => none

/-- `bgp_collision_detect` for an accepted peer stops at the first connection it finds. -/
def Collision.possible (collision : Collision) (message : OpenMessage) (peer : FsmPeer) : Bool :=
  match collision with
  | .none => !peer.collides
  | .closesConfigured => peer.collides && peer.config.localId < message.remoteId
  | .closesAccepted => peer.config.localId < message.remoteId
  | .closesNew => message.remoteId ≤ peer.config.localId

/-- The steps that do not call `bgp_event`. In Connect, both callbacks of the socket look
whether the connection is there. -/
def callback (peer : FsmPeer) : FsmStep → Option FsmPeer
  | .readable incoming =>
    if peer.tRead ∧ peer.status ≠ .connect then
      if peer.fd? = none then some { peer with tRead := false }
      else some (receive surroundings incoming { peer with tRead := false }.readOn)
    else none
  | .connectChecked outcome =>
    if (peer.tRead ∨ peer.tWrite) ∧ peer.status = .connect ∧
        (outcome = .tcpConnectionOpen ∨ outcome = .tcpConnectionOpenFailed ∨
          outcome = .tcpFatalError) then
      some (bgpConnectCheck outcome peer)
    else none
  | .writable written =>
    if peer.tWrite ∧ peer.status ≠ .connect then some (bgpWrite written peer) else none
  | .accepted collision fd remoteAs message =>
    if collision.possible message peer then
      some (takeOver surroundings collision fd remoteAs message peer)
    else none
  | .queued packets =>
    if peer.status = .established then
      some { peer with obuf := peer.obuf ++ packets }.writeOn
    else none
  | .configure config nsfWait nsfMode =>
    some { peer with config := config, nsfWait := nsfWait, nsfMode := nsfMode }
  | _ => none

def fsmStep : StepFunction FsmPeer (Surroundings × FsmStep) Empty
  | peer, (surroundings, step) =>
    match eventOf peer step with
    | some (event, peer) => some (.ok (bgpEvent surroundings event peer))
    | none => (callback surroundings peer step).map .ok

end Quagga.Bgp
