import Mathlib
import Quagga.Foundation.Loop

/-!
# The scheduler

`lib/thread.c`. A priority queue is the list of its threads by expiry. Only on the ready list do
threads of several types stand together, so only there is `add_type` written.
-/

namespace Quagga.Lib

open List Quagga.Foundation

inductive ThreadType
  | read | write | timer | event | background
  deriving DecidableEq

/-- `u` is the descriptor of a read or write thread, and the expiry of a timer. -/
structure Thread (Arg : Type) where
  arg : Arg
  u : Int
  deriving DecidableEq

structure TimerQueue (Arg : Type) where
  threads : List (Thread Arg)
  ordered : threads.Pairwise fun first second => first.u ≤ second.u
  deriving DecidableEq

structure ThreadMaster (Arg : Type) where
  read : List (Thread Arg)
  write : List (Thread Arg)
  timer : TimerQueue Arg
  event : List (Thread Arg)
  background : TimerQueue Arg
  ready : List (ThreadType × Thread Arg)
  deriving DecidableEq

variable {Arg : Type}

/-! ## Fetching a thread -/

/-- `timeval_adjust` turns the time to a timer that is overdue into 0. -/
def threadTimerWait (queue : TimerQueue Arg) (now : Int) : Option Nat :=
  queue.threads.head?.map fun next => (next.u - now).toNat

/-- `thread_timer_process`: the threads that pop, and those that stay. -/
def threadTimerProcess (queue : TimerQueue Arg) (now : Int) : List (Thread Arg) × TimerQueue Arg :=
  (queue.threads.takeWhile (·.u ≤ now),
    ⟨queue.threads.dropWhile (·.u ≤ now), queue.ordered.sublist (dropWhile_sublist _)⟩)

inductive SelectResult
  | interrupted
  | failed
  | returned (readfd writefd : Int → Bool)

/-- What surrounds a call of `select`: the signal handlers that run before it, and the clock.
`slept` is what the call takes from its timeout, which is nothing where it leaves it alone. -/
structure Round (Arg : Type) where
  handlers : ThreadMaster Arg → ThreadMaster Arg
  now : Int
  result : SelectResult
  slept : Nat
  later : Int

namespace ThreadMaster

def timers (m : ThreadMaster Arg) : List (Thread Arg) := m.timer.threads ++ m.background.threads

def timerWait (m : ThreadMaster Arg) (now : Int) : Option Nat :=
  Option.merge min (threadTimerWait m.timer now) (threadTimerWait m.background now)

/-- `thread_process` for the events. -/
def processEvents (m : ThreadMaster Arg) : ThreadMaster Arg :=
  { m with event := [], ready := m.ready ++ m.event.map (.event, ·) }

/-- The threads that `thread_fetch` makes ready once `select` has returned. -/
def processAll (m : ThreadMaster Arg) (now : Int) (readfd writefd : Int → Bool) :
    ThreadMaster Arg :=
  let (timers, timer) := threadTimerProcess m.timer now
  let (reads, read) := m.read.partition (readfd ·.u)
  let (writes, write) := m.write.partition (writefd ·.u)
  let (backgrounds, background) := threadTimerProcess m.background now
  ⟨read, write, timer, m.event, background, m.ready ++ timers.map (.timer, ·) ++
    reads.map (.read, ·) ++ writes.map (.write, ·) ++ backgrounds.map (.background, ·)⟩

def threadRun (m : ThreadMaster Arg) : Option (ThreadType × Thread Arg) × ThreadMaster Arg :=
  (m.ready.head?, { m with ready := m.ready.tail })

end ThreadMaster

/-- The variables of the loop of `thread_fetch`. At a call of `select`, `timerWait` is the
timeout. -/
structure FetchState (Arg : Type) where
  m : ThreadMaster Arg
  timerWait : Option Nat

namespace FetchState

def start (m : ThreadMaster Arg) : FetchState Arg := ⟨m, some 0⟩

/-- The call of `select` in a turn, if there is one. -/
def select (state : FetchState Arg) (round : Round Arg) : Option (FetchState Arg) :=
  let m := round.handlers state.m
  if m.ready.isEmpty then
    let m := m.processEvents
    -- Otherwise the variable keeps what an earlier turn has left in it.
    some ⟨m, if m.ready.isEmpty then m.timerWait round.now else state.timerWait⟩
  else none

def turn (state : FetchState Arg) (round : Round Arg) :
    Turn (FetchState Arg) (Option (ThreadType × Thread Arg) × ThreadMaster Arg) :=
  match state.select round with
  | none => .leave (round.handlers state.m).threadRun
  | some ⟨m, timerWait⟩ =>
    let timerWait := timerWait.map (· - round.slept)
    match round.result with
    | .interrupted => .next ⟨m, timerWait⟩
    | .failed => .leave (none, m)
    | .returned readfd writefd =>
      let m := m.processAll round.later readfd writefd
      if m.ready.isEmpty then .next ⟨m, timerWait⟩ else .leave m.threadRun

/-- The turns that `thread_fetch` makes from a state on. -/
def turns : List (Round Arg) → FetchState Arg → List (FetchState Arg × Round Arg)
  | [], _ => []
  | round :: rounds, state => (state, round) ::
    match state.turn round with
    | .next following => turns rounds following
    | .leave _ => []

/-- A turn does not sleep with a thread ready, and not beyond the first timer. -/
def isPrompt (state : FetchState Arg) (round : Round Arg) : Bool :=
  (state.select round).all fun call =>
    if call.m.ready.isEmpty then
      call.m.timers.all fun thread => call.timerWait.any (· ≤ (thread.u - round.now).toNat)
    else call.timerWait == some 0

def FindsEvent (state : FetchState Arg) (round : Round Arg) : Prop :=
  (round.handlers state.m).ready = [] ∧ (round.handlers state.m).event ≠ []

/-- Over some turns, the last one first, `select` has slept until a timer expired that was pending
when it was last called with nothing ready, or it never was. -/
def reachesTimer : List (FetchState Arg × Round Arg) → (slept : Nat) → Bool
  | [], _ => true
  | (state, round) :: earlier, slept =>
    let m := round.handlers state.m
    if m.ready.isEmpty && m.event.isEmpty then
      m.timers.any fun thread => (thread.u - round.now).toNat ≤ round.slept + slept
    else reachesTimer earlier (round.slept + slept)

end FetchState

theorem threadTimerWait_any (queue : TimerQueue Arg) (now : Int) (limit : Nat) :
    (threadTimerWait queue now).any (· ≤ limit) =
      queue.threads.any fun thread => (thread.u - now).toNat ≤ limit := by
  rcases queue with ⟨_ | ⟨next, rest⟩, ordered⟩
  · rfl
  · have first := (pairwise_cons.mp ordered).1
    rw [Bool.eq_iff_iff]
    simp only [threadTimerWait, head?_cons, Option.map_some, Option.any_some, any_cons,
      Bool.or_eq_true, any_eq_true, decide_eq_true_eq]
    refine ⟨.inl, ?_⟩
    rintro (reached | ⟨thread, later, reached⟩)
    · exact reached
    · have bound := first thread later
      omega

theorem ThreadMaster.timerWait_any (m : ThreadMaster Arg) (now : Int) (limit : Nat) :
    (m.timerWait now).any (· ≤ limit) =
      m.timers.any fun thread => (thread.u - now).toNat ≤ limit := by
  rw [timers, any_append, ← threadTimerWait_any, ← threadTimerWait_any, timerWait]
  cases threadTimerWait m.timer now <;> cases threadTimerWait m.background now <;>
    simp [Option.merge]

namespace FetchState

/-- A turn that sleeps on ready work finds an event, and more than zero in the variable. -/
theorem isPrompt_iff (state : FetchState Arg) (round : Round Arg) :
    state.isPrompt round = true ↔ (state.FindsEvent round → state.timerWait = some 0) := by
  unfold isPrompt select FindsEvent
  generalize round.handlers state.m = m
  cases isReady : m.ready with
  | cons thread ready => simp [isReady]
  | nil =>
    cases isEvent : m.event with
    | nil =>
      have unready : m.processEvents.ready = [] := by
        simp [ThreadMaster.processEvents, isReady, isEvent]
      simp only [isReady, unready, isEmpty_nil, if_true, Option.all_some, all_eq_true,
        ne_eq, not_true, and_false, false_imp_iff, iff_true]
      intro thread pending
      rw [ThreadMaster.timerWait_any]
      exact any_eq_true.mpr ⟨thread, pending, decide_eq_true (Nat.le_refl _)⟩
    | cons event events => simp [ThreadMaster.processEvents, isReady, isEvent]

/-- The variable holds what is left of the timeout that was set last. -/
def Left (earlier : List (FetchState Arg × Round Arg)) (state : FetchState Arg) : Prop :=
  ∀ slept, state.timerWait.any (· ≤ slept) = reachesTimer earlier slept

theorem Left.turn {earlier : List (FetchState Arg × Round Arg)} {state following : FetchState Arg}
    {round : Round Arg} (left : Left earlier state) (goesOn : state.turn round = .next following) :
    Left ((state, round) :: earlier) following := by
  cases called : state.select round with
  | none =>
    rw [FetchState.turn, called] at goesOn
    cases goesOn
  | some call =>
    have subtracted : following.timerWait = call.timerWait.map (· - round.slept) := by
      rw [FetchState.turn, called] at goesOn
      cases ending : round.result with
      | interrupted =>
        simp only [ending] at goesOn
        cases goesOn
        rfl
      | failed =>
        simp only [ending] at goesOn
        cases goesOn
      | returned readfd writefd =>
        simp only [ending] at goesOn
        split at goesOn
        · cases goesOn
          rfl
        · cases goesOn
    intro slept
    have shifted : following.timerWait.any (· ≤ slept) =
        call.timerWait.any (· ≤ round.slept + slept) := by
      rw [subtracted]
      cases call.timerWait <;> simp [Nat.add_comm]
    rw [shifted, reachesTimer]
    simp only [select] at called
    generalize round.handlers state.m = m at called
    split at called
    · rename_i unready
      cases called
      have processed : m.processEvents.ready.isEmpty = m.event.isEmpty := by
        simp [ThreadMaster.processEvents, isEmpty_iff.mp unready]
      dsimp only
      rw [processed, unready, Bool.true_and]
      cases m.event.isEmpty
      · exact left _
      · exact m.timerWait_any _ _
    · cases called

theorem turns_isPrompt {earlier : List (FetchState Arg × Round Arg)} {state : FetchState Arg}
    (left : Left earlier state) (rounds : List (Round Arg)) :
    (∀ turn ∈ turns rounds state, turn.1.isPrompt turn.2 = true) ↔
      ∀ before turn after, turns rounds state = before ++ turn :: after →
        turn.1.FindsEvent turn.2 → reachesTimer (before.reverse ++ earlier) 0 = true := by
  induction rounds generalizing earlier state with
  | nil => simp [turns]
  | cons round rounds induction =>
    have atOnce : state.timerWait = some 0 ↔ reachesTimer earlier 0 = true := by
      rw [← left 0]
      cases state.timerWait <;> simp
    have later :
        (∀ turn ∈ (turns (round :: rounds) state).tail, turn.1.isPrompt turn.2 = true) ↔
        ∀ before turn after, (turns (round :: rounds) state).tail = before ++ turn :: after →
          turn.1.FindsEvent turn.2 →
            reachesTimer (before.reverse ++ (state, round) :: earlier) 0 = true := by
      rw [turns, tail_cons]
      cases goesOn : state.turn round with
      | next following => exact induction (left.turn goesOn)
      | leave result => simp
    rw [turns, tail_cons] at later
    rw [turns, forall_mem_cons, isPrompt_iff, atOnce, later]
    constructor
    · intro prompt before turn after split
      cases before with
      | nil =>
        cases split
        exact prompt.1
      | cons first before =>
        rcases cons.inj split with ⟨rfl, rest⟩
        rw [reverse_cons, append_assoc]
        exact prompt.2 before turn after rest
    · intro reaches
      refine ⟨reaches [] _ _ rfl, ?_⟩
      intro before turn after split
      have whole := reaches ((state, round) :: before) turn after (congrArg _ split)
      rwa [reverse_cons, append_assoc] at whole

/-- Every turn finds no event or nothing left of the timeout. -/
theorem turns_isPrompt_iff (rounds : List (Round Arg)) (m : ThreadMaster Arg) :
    (∀ turn ∈ turns rounds (start m), turn.1.isPrompt turn.2 = true) ↔
      ∀ before turn after, turns rounds (start m) = before ++ turn :: after →
        turn.1.FindsEvent turn.2 → reachesTimer before.reverse 0 = true := by
  have fresh : Left [] (start m) := fun _ => rfl
  simpa using turns_isPrompt fresh rounds

def idle : ThreadMaster Nat := ⟨[], [], ⟨[], .nil⟩, [], ⟨[], .nil⟩, []⟩

/-- A signal interrupts a `select` without timers, and its handler adds an event. -/
theorem signalEvent_sleeps :
    ¬ ∀ turn ∈ turns [⟨id, 0, .interrupted, 0, 0⟩,
        ⟨fun m => { m with event := [⟨7, 0⟩] }, 0, .failed, 0, 0⟩] (start idle),
      turn.1.isPrompt turn.2 = true := by
  decide

end FetchState

/-! ## Cancelling events -/

section

variable [DecidableEq Arg] {α : Type} (argOf : α → Arg)

/-- A loop of `thread_cancel_event`: the threads that stay, and `ret`. -/
def cancelLoop (arg : Arg) : List α → Nat → List α × Nat
  | [], ret => ([], ret)
  | t :: threads, ret =>
    if argOf t = arg then cancelLoop arg threads (ret + 1)
    else
      let (kept, ret) := cancelLoop arg threads ret
      (t :: kept, ret)

theorem cancelLoop_eq (arg : Arg) (threads : List α) (ret : Nat) :
    cancelLoop argOf arg threads ret =
      (threads.filter (argOf · ≠ arg), ret + threads.countP (argOf · = arg)) := by
  induction threads generalizing ret with
  | nil => rfl
  | cons t threads induction =>
    rw [cancelLoop, induction, induction]
    split_ifs with isArg <;> simp [isArg, Nat.add_assoc, Nat.add_comm]

namespace ThreadMaster

def threadCancelEvent (m : ThreadMaster Arg) (arg : Arg) : ThreadMaster Arg × Nat :=
  let (event, ret) := cancelLoop Thread.arg arg m.event 0
  let (ready, ret) := cancelLoop (fun thread => thread.2.arg) arg m.ready ret
  ({ m with event, ready }, ret)

/-- What was added as an event with the argument goes and is counted, and nothing else changes. -/
def CancelsEvents (m : ThreadMaster Arg) (arg : Arg) : Prop :=
  m.threadCancelEvent arg =
    ({ m with
        event := m.event.filter (·.arg ≠ arg)
        ready := m.ready.filter fun thread => ¬ (thread.1 = .event ∧ thread.2.arg = arg) },
      m.event.countP (·.arg = arg) +
        m.ready.countP fun thread => thread.1 = .event ∧ thread.2.arg = arg)

theorem cancelsEvents_iff (m : ThreadMaster Arg) (arg : Arg) :
    m.CancelsEvents arg ↔ ∀ thread ∈ m.ready, thread.2.arg = arg → thread.1 = .event := by
  simp only [CancelsEvents, threadCancelEvent, cancelLoop_eq, Nat.zero_add]
  constructor
  · intro cancels thread isReady isArg
    have members := congrArg (fun result => thread ∈ result.1.ready) cancels
    simpa [isReady, isArg] using members
  · intro events
    have same : ∀ thread ∈ m.ready, thread.2.arg = arg ↔
        thread.1 = .event ∧ thread.2.arg = arg := by
      intro thread isReady
      exact (and_iff_right_of_imp (events thread isReady)).symm
    have counted : m.ready.countP (·.2.arg = arg) =
        m.ready.countP fun thread => thread.1 = .event ∧ thread.2.arg = arg :=
      countP_congr (by simpa using same)
    rw [counted, filter_congr fun thread isReady =>
      decide_eq_decide.mpr (not_congr (same thread isReady))]

end ThreadMaster

end

/-- Two descriptors of one argument become readable together. The function of the first thread is
called while the second one is on the ready list. -/
def bothReadable : ThreadMaster Nat :=
  (({ FetchState.idle with read := [⟨7, 3⟩, ⟨7, 4⟩] } : ThreadMaster Nat).processAll 0
    (fun _ => true) fun _ => false).threadRun.2

theorem bothReadable_cancelled : ¬ bothReadable.CancelsEvents 7 := by
  unfold ThreadMaster.CancelsEvents
  decide

end Quagga.Lib
