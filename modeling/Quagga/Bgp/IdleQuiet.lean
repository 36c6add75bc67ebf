import Quagga.Bgp.Fsm

/-!
# A peer in Idle holds no connection

Some entries of the table lead to Idle without `bgp_stop`. Where none of them is taken by a
peer that has a connection, a peer in Idle or Active has none.
-/

namespace Quagga.Bgp

open Foundation Option FsmPeer

structure FsmPeer.Quiet (peer : FsmPeer) : Prop where
  closed : peer.fd? = none
  readOff : peer.tRead = false
  writeOff : peer.tWrite = false
  sent : peer.obuf = []

instance (peer : FsmPeer) : Decidable peer.Quiet :=
  decidable_of_iff
    (peer.fd? = none ∧ peer.tRead = false ∧ peer.tWrite = false ∧ peer.obuf = [])
    ⟨fun ⟨closed, readOff, writeOff, sent⟩ => ⟨closed, readOff, writeOff, sent⟩,
      fun quiet => ⟨quiet.closed, quiet.readOff, quiet.writeOff, quiet.sent⟩⟩

/-- The entries of the table that lead from another state to Idle, and do nothing. -/
def ignoredIntoIdle : FsmStatus → FsmEvent → Bool
  | .connect, event =>
    event = .holdTimerExpired || event = .keepAliveTimerExpired ||
      event = .receiveOpenMessage || event = .receiveKeepaliveMessage ||
      event = .receiveUpdateMessage || event = .clearingCompleted
  | .active, event =>
    event = .tcpFatalError || event = .holdTimerExpired || event = .keepAliveTimerExpired ||
      event = .receiveOpenMessage || event = .receiveKeepaliveMessage ||
      event = .receiveUpdateMessage || event = .clearingCompleted
  | .openSent, event =>
    event = .connectRetryTimerExpired || event = .keepAliveTimerExpired ||
      event = .clearingCompleted
  | .openConfirm, event =>
    event = .connectRetryTimerExpired || event = .receiveOpenMessage ||
      event = .receiveUpdateMessage || event = .clearingCompleted
  | .established, event => event = .clearingCompleted
  | _, _ => false

/-- The step brings one of these events to a peer that has a connection. -/
def LeavesConnection (peer : FsmPeer) (step : FsmStep) : Prop :=
  ∃ event ∈ (eventOf peer step).map Prod.fst, ignoredIntoIdle peer.status event ∧ ¬ peer.Quiet

instance (peer : FsmPeer) (step : FsmStep) : Decidable (LeavesConnection peer step) :=
  decidable_of_iff
    (((eventOf peer step).map Prod.fst).any
      fun event => ignoredIntoIdle peer.status event && !decide peer.Quiet) (by
    simp [LeavesConnection, any_eq_true])

/-! ## The table -/

/-- The functions that end with `bgp_stop`, or with the deletion of the peer. -/
def FsmFunction.stops : FsmFunction → Bool
  | .stop | .connectFail | .stopWithError | .clearingCompleted | .fsmEventError
  | .fsmHoldtimeExpire => true
  | _ => false

theorem ignoredIntoIdle_iff (status : FsmStatus) (event : FsmEvent) :
    ignoredIntoIdle status event = true ↔
      status ≠ .idle ∧ (fsm status event).1 = .ignore ∧ (fsm status event).2 = .idle := by
  cases status <;> cases event <;> decide

theorem fsm_resting (status : FsmStatus) (event : FsmEvent)
    (rests : (fsm status event).2 = .idle ∨ (fsm status event).2 = .active) :
    (fsm status event).1.stops = true ∨ (fsm status event).1 = .ignore ∧
      (status = (fsm status event).2 ∨ ignoredIntoIdle status event = true) := by
  revert rests
  cases status <;> cases event <;> decide

variable {event : FsmEvent}

theorem fsm_start {status : FsmStatus} (starts : (fsm status event).1 = .start) :
    status = .idle ∨ status = .active := by
  revert starts
  cases status <;> cases event <;> decide

/-! ## The functions -/

theorem bgpStop_quiet (peer : FsmPeer) : (bgpStop peer).Quiet := ⟨rfl, rfl, rfl, rfl⟩

theorem FsmPeer.Quiet.of_eq {peer other : FsmPeer} (quiet : peer.Quiet) (fd : other.fd? = peer.fd?)
    (read : other.tRead = peer.tRead) (write : other.tWrite = peer.tWrite)
    (obuf : other.obuf = peer.obuf) : other.Quiet :=
  ⟨fd.trans quiet.closed, read.trans quiet.readOff, write.trans quiet.writeOff,
    obuf.trans quiet.sent⟩

@[simp] theorem bgpTimerSet_status (peer : FsmPeer) : (bgpTimerSet peer).status = peer.status := by
  unfold bgpTimerSet
  split <;> rfl

theorem bgpTimerSet_quiet (peer : FsmPeer) : (bgpTimerSet peer).Quiet ↔ peer.Quiet := by
  unfold bgpTimerSet
  constructor
  · intro quiet
    split at quiet <;> exact quiet.of_eq rfl rfl rfl rfl
  · intro quiet
    split <;> exact quiet.of_eq rfl rfl rfl rfl

@[simp] theorem FsmPeer.eventAdd_status (event : FsmEvent) (peer : FsmPeer) :
    (peer.eventAdd event).status = peer.status := by
  unfold eventAdd
  split <;> rfl

@[simp] theorem FsmPeer.readOn_status (peer : FsmPeer) : peer.readOn.status = peer.status := by
  unfold readOn
  split <;> rfl

@[simp] theorem FsmPeer.writeOn_status (peer : FsmPeer) : peer.writeOn.status = peer.status := by
  unfold writeOn
  split <;> rfl

@[simp] theorem FsmPeer.send_status (packet : Outgoing) (peer : FsmPeer) :
    (peer.send packet).status = peer.status := by
  simp [send]

@[simp] theorem bgpNotifySend_status (surroundings : Surroundings) (code subcode : UInt8)
    (peer : FsmPeer) : (bgpNotifySend surroundings code subcode peer).status = peer.status := by
  simp [bgpNotifySend]

theorem FsmFunction.stops_call {function : FsmFunction} (stops : function.stops = true)
    (surroundings : Surroundings) (peer : FsmPeer) :
    (∃ stopped : FsmPeer, stopped.Quiet ∧ function.call surroundings peer = (true, stopped)) ∨
      ∃ deleted : FsmPeer, deleted.status = .deleted ∧
        function.call surroundings peer = (false, deleted) := by
  have stopsWithNotify : ∀ code subcode,
      (∃ stopped : FsmPeer, stopped.Quiet ∧
        bgpStopWithNotify surroundings code subcode peer = (true, stopped)) ∨
      ∃ deleted : FsmPeer, deleted.status = .deleted ∧
        bgpStopWithNotify surroundings code subcode peer = (false, deleted) := by
    intro code subcode
    unfold bgpStopWithNotify
    dsimp only
    split
    · exact .inr ⟨_, rfl, rfl⟩
    · exact .inl ⟨_, bgpStop_quiet _, rfl⟩
  cases function with
  | stop | connectFail | stopWithError => exact .inl ⟨_, bgpStop_quiet peer, rfl⟩
  | clearingCompleted =>
    exact .inl ⟨{ bgpStop peer with events := [] },
      (bgpStop_quiet peer).of_eq rfl rfl rfl rfl, rfl⟩
  | fsmEventError => exact stopsWithNotify 5 0
  | fsmHoldtimeExpire => exact stopsWithNotify 4 0
  | _ => cases stops

variable {surroundings : Surroundings}

variable {peer next : FsmPeer}

theorem FsmFunction.call_false {function : FsmFunction}
    (called : function.call surroundings peer = (false, next)) :
    next = peer ∨ next.status = .deleted := by
  by_cases stops : function.stops = true
  · rcases stops_call stops surroundings peer with ⟨stopped, _, call⟩ | ⟨deleted, isDeleted, call⟩
    · cases called.symm.trans call
    · cases called.symm.trans call
      exact .inr isDeleted
  · left
    revert called
    fun_cases function.call surroundings peer
    case case1 =>
      fun_cases bgpStart surroundings peer <;> rintro ⟨⟩
      rfl
    case case4 =>
      fun_cases bgpConnectSuccess peer <;> rintro ⟨⟩
      rfl
    all_goals first
      | exact absurd rfl stops
      | exact nofun

/-! ## Steps -/

def FsmPeer.RestsQuiet (peer : FsmPeer) : Prop :=
  peer.status = .idle ∨ peer.status = .active → peer.Quiet

theorem bgpEvent_resting (resting : (bgpEvent surroundings event peer).status = .idle ∨
      (bgpEvent surroundings event peer).status = .active) :
    bgpEvent surroundings event peer = peer ∨
    (bgpEvent surroundings event peer).Quiet ∧ ignoredIntoIdle peer.status event = false ∨
    ((bgpEvent surroundings event peer).Quiet ↔ peer.Quiet) ∧
      (peer.status = (bgpEvent surroundings event peer).status ∨
        ignoredIntoIdle peer.status event = true) := by
  unfold bgpEvent at resting ⊢
  dsimp only at resting ⊢
  split at resting
  · rename_i next called
    rcases FsmFunction.call_false called with unchanged | isDeleted
    · exact .inl unchanged
    · rw [isDeleted] at resting
      exact absurd resting (by decide)
  · rename_i next called
    rw [bgpTimerSet_status] at resting
    rw [bgpTimerSet_quiet, bgpTimerSet_status]
    rcases fsm_resting peer.status event resting with stops | ⟨ignores, source⟩
    · rcases FsmFunction.stops_call stops surroundings peer with
        ⟨stopped, quiet, call⟩ | ⟨deleted, _, call⟩
      · cases called.symm.trans call
        refine .inr (.inl ⟨quiet.of_eq rfl rfl rfl rfl, Bool.eq_false_iff.mpr fun ignored => ?_⟩)
        rw [((ignoredIntoIdle_iff _ _).mp ignored).2.1] at stops
        cases stops
      · cases called.symm.trans call
    · rw [ignores] at called
      cases called
      exact .inr (.inr ⟨⟨fun quiet => quiet.of_eq rfl rfl rfl rfl,
        fun quiet => quiet.of_eq rfl rfl rfl rfl⟩, source⟩)

theorem bgpEvent_restsQuiet {peer : FsmPeer} (rests : peer.RestsQuiet)
    (guarded : ignoredIntoIdle peer.status event = true → peer.Quiet) :
    (bgpEvent surroundings event peer).RestsQuiet := by
  intro resting
  rcases bgpEvent_resting resting with unchanged | ⟨quiet, _⟩ | ⟨quiet, same | ignored⟩
  · rw [unchanged] at resting ⊢
    exact rests resting
  · exact quiet
  · exact quiet.mpr (rests (same ▸ resting))
  · exact quiet.mpr (guarded ignored)

theorem bgpEvent_quiet_iff {peer : FsmPeer} (before : peer.status ≠ .idle)
    (after : (bgpEvent surroundings event peer).status = .idle) :
    (bgpEvent surroundings event peer).Quiet ↔
      ¬ (ignoredIntoIdle peer.status event = true ∧ ¬ peer.Quiet) := by
  rcases bgpEvent_resting (.inl after) with
    unchanged | ⟨quiet, notIgnored⟩ | ⟨quiet, same | ignored⟩
  · exact absurd (unchanged ▸ after) before
  · simp [quiet, notIgnored]
  · exact absurd (same.trans after) before
  · simp [quiet, ignored]

theorem eventOf_same {peer found : FsmPeer} {step : FsmStep}
    (brings : eventOf peer step = some (event, found)) :
    found.status = peer.status ∧ (found.Quiet ↔ peer.Quiet) := by
  have same : found.status = peer.status ∧ found.fd? = peer.fd? ∧ found.tRead = peer.tRead ∧
      found.tWrite = peer.tWrite ∧ found.obuf = peer.obuf := by
    cases step with
    | next =>
      simp only [eventOf] at brings
      split at brings
      · cases brings
      · cases brings
        exact ⟨rfl, rfl, rfl, rfl, rfl⟩
    | timer timer =>
      cases timer <;>
      · simp only [eventOf, expire] at brings
        split at brings
        · cases brings
          exact ⟨rfl, rfl, rfl, rfl, rfl⟩
        · cases brings
    | deliver event =>
      cases brings
      exact ⟨rfl, rfl, rfl, rfl, rfl⟩
    | _ => cases brings
  rcases same with ⟨status, fd, read, write, obuf⟩
  exact ⟨status, fun quiet => quiet.of_eq fd.symm read.symm write.symm obuf.symm,
    fun quiet => quiet.of_eq fd read write obuf⟩

@[simp] theorem openFinish_status (surroundings : Surroundings) (remoteAs : UInt32)
    (message : OpenMessage) (peer : FsmPeer) :
    (openFinish surroundings remoteAs message peer).status = peer.status := by
  unfold openFinish openErrorSend
  dsimp only
  repeat' split
  all_goals simp

@[simp] theorem receive_status (surroundings : Surroundings) (incoming : Incoming)
    (peer : FsmPeer) : (receive surroundings incoming peer).status = peer.status := by
  unfold receive bgpOpenReceive openErrorSend
  dsimp only
  repeat' split
  all_goals simp

@[simp] theorem bgpWrite_status (written : Written) (peer : FsmPeer) :
    (bgpWrite written peer).status = peer.status := by
  unfold bgpWrite
  repeat' split
  all_goals simp

theorem takeOver_cases (surroundings : Surroundings) (collision : Collision) (fd : Nat)
    (remoteAs : UInt32) (message : OpenMessage) (peer : FsmPeer) :
    takeOver surroundings collision fd remoteAs message peer = peer ∨
      (takeOver surroundings collision fd remoteAs message peer).status = .openSent := by
  unfold takeOver
  dsimp only
  split
  · exact .inl rfl
  · split
    · rename_i found
      rw [if_pos (by simp [transfers, found.1])]
      simp
    · split
      · simp
      · exact .inl rfl

theorem callback_resting {step : FsmStep} (taken : callback surroundings peer step = some next)
    (resting : next.status = .idle ∨ next.status = .active) :
    next.status = peer.status ∧ (peer.Quiet → next.Quiet) := by
  revert taken
  fun_cases callback surroundings peer step with
  | case1 incoming reads closed =>
    rintro ⟨⟩
    refine ⟨rfl, fun quiet => ?_⟩
    rw [quiet.readOff] at reads
    cases reads.1
  | case2 incoming reads isOpen =>
    rintro ⟨⟩
    refine ⟨by simp, fun quiet => ?_⟩
    rw [quiet.readOff] at reads
    cases reads.1
  | case4 outcome checks =>
    rintro ⟨⟩
    simp only [bgpConnectCheck, eventAdd_status, checks.2.1] at resting
    exact absurd resting (by decide)
  | case6 written writes =>
    rintro ⟨⟩
    refine ⟨by simp, fun quiet => ?_⟩
    rw [quiet.writeOff] at writes
    cases writes.1
  | case8 collision fd remoteAs message possible =>
    rintro ⟨⟩
    rcases takeOver_cases surroundings collision fd remoteAs message peer with unchanged | sent
    · rw [unchanged]
      exact ⟨rfl, id⟩
    · rw [sent] at resting
      exact absurd resting (by decide)
  | case10 packets established =>
    rintro ⟨⟩
    simp only [writeOn_status, established] at resting
    exact absurd resting (by decide)
  | case12 =>
    rintro ⟨⟩
    exact ⟨rfl, fun quiet => quiet.of_eq rfl rfl rfl rfl⟩
  | _ => exact nofun

theorem fsmStep_restsQuiet {event : Surroundings × FsmStep} (rests : peer.RestsQuiet)
    (guarded : ¬ LeavesConnection peer event.2) (taken : fsmStep peer event = some (.ok next)) :
    next.RestsQuiet := by
  simp only [fsmStep] at taken
  split at taken
  · rename_i event found brings
    cases taken
    rcases eventOf_same brings with ⟨status, quiet⟩
    apply bgpEvent_restsQuiet
    · intro resting
      exact quiet.mpr (rests (status ▸ resting))
    · intro ignored
      by_contra notQuiet
      apply guarded
      exact ⟨event, by simp [brings], status ▸ ignored, fun isQuiet => notQuiet (quiet.mpr isQuiet)⟩
  · intro resting
    rcases map_eq_some_iff.mp taken with ⟨after, called, isNext⟩
    cases isNext
    rcases callback_resting called resting with ⟨status, quiet⟩
    exact quiet (rests (status ▸ resting))

theorem fsmStep_quiet_iff {event : Surroundings × FsmStep}
    (taken : fsmStep peer event = some (.ok next)) (before : peer.status ≠ .idle)
    (after : next.status = .idle) : next.Quiet ↔ ¬ LeavesConnection peer event.2 := by
  simp only [fsmStep] at taken
  split at taken
  · rename_i event found brings
    cases taken
    rcases eventOf_same brings with ⟨status, quiet⟩
    rw [bgpEvent_quiet_iff (status ▸ before) after, status, quiet]
    simp [LeavesConnection, brings]
  · rcases map_eq_some_iff.mp taken with ⟨nextPeer, called, isNext⟩
    cases isNext
    exact absurd ((callback_resting called (.inl after)).1.symm.trans after) before

/-- A step into Idle closes the connection exactly where it does not bring one of the ignored
events to a peer that has one. After a run without such a step, a peer in Idle is quiet, and
`bgp_start` finds no socket. -/
theorem idle_quiet_iff (config : PeerConfig) (events : List (Surroundings × FsmStep))
    (peer : FsmPeer) :
    (∀ (event : Surroundings × FsmStep) (next : FsmPeer),
      fsmStep peer event = some (.ok next) → peer.status ≠ .idle → next.status = .idle →
        (next.Quiet ↔ ¬ LeavesConnection peer event.2)) ∧
    (Guarded fsmStep (fun peer event => ¬ LeavesConnection peer event.2)
        (.configured config) events peer →
      (peer.status = .idle → peer.Quiet) ∧
        ∀ event, (fsm peer.status event).1 = .start → peer.fd? = none) := by
  apply And.intro
  · intro event next taken before after
    exact fsmStep_quiet_iff taken before after
  · intro run
    have rests : peer.RestsQuiet :=
      run.invariant (fun _ _ _ rests guarded taken => fsmStep_restsQuiet rests guarded taken)
        (fun _ => ⟨rfl, rfl, rfl, rfl⟩)
    exact ⟨fun idle => rests (.inl idle), fun event starts => (rests (fsm_start starts)).closed⟩

def neighbourConfig : PeerConfig := ⟨200, 0x0a000001, 180, 60, false, true, false⟩

def neighbourOpen : OpenMessage := ⟨4, 200, 180, 0x0a000002, some 200, true⟩

def neighbourSurroundings (fd : Nat) : Surroundings := ⟨.connectInProgress fd, true, false, 0⟩

def closedSession : List (Surroundings × FsmStep) :=
  [FsmStep.timer .start, .connectChecked .tcpConnectionOpen, .next,
    .readable (.openMsg .none neighbourOpen), .next, .readable .keepaliveMsg, .next,
    .readable .closed, .next, .deliver .clearingCompleted].map (neighbourSurroundings 5, ·)

theorem closedSession_quiet :
    ∃ final, Guarded fsmStep (fun peer event => ¬ LeavesConnection peer event.2)
        (.configured neighbourConfig) closedSession final ∧
      final.status = .idle ∧ final.Quiet := by
  have executed : ((execute (fun peer event => if ¬ LeavesConnection peer event.2
      then fsmStep peer event else none) (.configured neighbourConfig) closedSession).any
        fun final => final.status = .idle) = true := by
    decide +kernel
  rcases (any_eq_true _ _).mp executed with ⟨final, reached, idle⟩
  have run := guarded_of_execute reached
  have isIdle := of_decide_eq_true idle
  exact ⟨_, run, isIdle, ((idle_quiet_iff _ _ _).2 run).1 isIdle⟩

/-- After the OPEN that led to OpenConfirm, a second one on the same connection. -/
def secondOpen : List (Surroundings × FsmStep) :=
  [FsmStep.timer .start, .connectChecked .tcpConnectionOpen, .next,
    .readable (.openMsg .none neighbourOpen), .next,
    .readable (.openMsg .none neighbourOpen), .next].map (neighbourSurroundings 5, ·)

/-- The peer is in Idle with its connection, and the start timer overwrites the descriptor. -/
theorem secondOpen_not_quiet :
    ∃ final next, Transitions fsmStep (.configured neighbourConfig) secondOpen final ∧
      final.status = .idle ∧ final.fd? = some 5 ∧ final.tRead = true ∧ final.tWrite = true ∧
      fsmStep final (neighbourSurroundings 6, .timer .start) = some (.ok next) ∧
      next.fd? = some 6 := by
  have executed : ((execute fsmStep (.configured neighbourConfig) secondOpen).any fun final =>
      decide (final.status = .idle ∧ final.fd? = some 5 ∧ final.tRead = true ∧
        final.tWrite = true) &&
      (execute fsmStep final [(neighbourSurroundings 6, .timer .start)]).any fun next =>
        next.fd? = some 6) = true := by
    decide +kernel
  rcases (any_eq_true _ _).mp executed with ⟨final, reached, checked⟩
  rw [Bool.and_eq_true, decide_eq_true_iff] at checked
  rcases checked with ⟨⟨idle, fd, read, write⟩, overwritten⟩
  rcases (any_eq_true _ _).mp overwritten with ⟨next, starts, other⟩
  cases transitions_of_execute starts with
  | cons taken rest =>
    cases rest
    exact ⟨final, next, transitions_of_execute reached, idle, fd, read, write, taken,
      of_decide_eq_true other⟩

end Quagga.Bgp
