/-!
# Runs of a transition system

A system is a function that says, for a state and an event, whether the event can happen
and what it leads to: another state or a fault. `Transitions` are the finite runs without
a fault, `execute` computes them.
-/

namespace Quagga.Foundation

section

variable {ε α β : Type}

@[simp] theorem ok_bind (value : α) (next : α → Except ε β) :
    ((Except.ok value : Except ε α) >>= next) = next value :=
  rfl

@[simp] theorem error_bind (fault : ε) (next : α → Except ε β) :
    ((Except.error fault : Except ε α) >>= next) = .error fault :=
  rfl

@[simp] theorem pure_eq_ok (value : α) : (pure value : Except ε α) = .ok value := rfl

theorem bind_eq_ok_iff {action : Except ε α} {next : α → Except ε β} {result : β} :
    (action >>= next) = .ok result ↔ ∃ value, action = .ok value ∧ next value = .ok result := by
  cases action <;> simp

variable {step : α → β → Except ε α} {start final : α}

theorem foldlM_cons_ok {item : β} {items : List β} :
    (item :: items).foldlM step start = .ok final ↔
      ∃ next, step start item = .ok next ∧ items.foldlM step next = .ok final := by
  exact bind_eq_ok_iff

theorem exists_step_of_foldlM {items : List β} (run : items.foldlM step start = .ok final)
    {item : β} (member : item ∈ items) : ∃ before after, step before item = .ok after := by
  induction items generalizing start with
  | nil => cases member
  | cons head items induction =>
    rcases foldlM_cons_ok.mp run with ⟨next, first, rest⟩
    rcases List.mem_cons.mp member with rfl | later
    · exact ⟨start, next, first⟩
    · exact induction rest later

end

/-- `none`: the event cannot happen in this state. -/
abbrev StepFunction (State Event Fault : Type) := State → Event → Option (Except Fault State)

variable {State Event Fault : Type} (step : StepFunction State Event Fault)

inductive Transitions : State → List Event → State → Prop
  | nil (state : State) : Transitions state [] state
  | cons {first second last : State} {event : Event} {events : List Event} :
      step first event = some (.ok second) →
      Transitions second events last →
      Transitions first (event :: events) last

/-- Every event of the run meets a condition in the state it happens in. -/
inductive Guarded (Condition : State → Event → Prop) : State → List Event → State → Prop
  | nil (state : State) : Guarded Condition state [] state
  | cons {first second last : State} {event : Event} {events : List Event} :
      Condition first event →
      step first event = some (.ok second) →
      Guarded Condition second events last →
      Guarded Condition first (event :: events) last

def execute : State → List Event → Option State
  | state, [] => some state
  | state, event :: events =>
    match step state event with
    | some (.ok next) => execute next events
    | _ => none

def faultOf (state : State) (event : Event) : Option Fault :=
  match step state event with
  | some (.error fault) => some fault
  | _ => none

variable {step}

variable {first last : State} {events : List Event}

theorem transitions_of_execute (executed : execute step first events = some last) :
    Transitions step first events last := by
  induction events generalizing first with
  | nil =>
    cases executed
    exact .nil _
  | cons event events induction =>
    cases taken : step first event with
    | none => simp [execute, taken] at executed
    | some result =>
      cases result with
      | error fault => simp [execute, taken] at executed
      | ok next =>
        simp only [execute, taken] at executed
        exact .cons taken (induction executed)

variable {Condition : State → Event → Prop}

theorem guarded_of_execute [∀ state event, Decidable (Condition state event)]
    (executed : execute (fun state event => if Condition state event then step state event
      else none) first events = some last) : Guarded step Condition first events last := by
  have run := transitions_of_execute executed
  clear executed
  induction run with
  | nil state => exact .nil state
  | @cons first second last event events taken rest induction =>
    by_cases condition : Condition first event
    · rw [if_pos condition] at taken
      exact .cons condition taken induction
    · rw [if_neg condition] at taken
      cases taken

theorem Guarded.mono {Weaker : State → Event → Prop}
    (weaker : ∀ state event, Condition state event → Weaker state event)
    (run : Guarded step Condition first events last) : Guarded step Weaker first events last := by
  induction run with
  | nil state => exact .nil state
  | cons condition taken _ induction => exact .cons (weaker _ _ condition) taken induction

theorem step_of_faultOf {state : State} {event : Event} {fault : Fault}
    (faults : faultOf step state event = some fault) : step state event = some (.error fault) := by
  unfold faultOf at faults
  split at faults
  · rename_i taken
    cases faults
    exact taken
  · cases faults

/-- Steps that preserve an invariant only from states with some property, in runs where all states
have it. -/
theorem Guarded.invariant_of_throughout {Invariant Always : State → Prop}
    (preserved : ∀ state event next, Always state → Invariant state → Condition state event →
      step state event = some (.ok next) → Invariant next)
    (run : Guarded step Condition first events last)
    (throughout : ∀ before state, before <+: events →
      Guarded step Condition first before state → Always state) (initially : Invariant first) :
    Invariant last := by
  induction run with
  | nil state => exact initially
  | @cons first second last event events condition taken rest induction =>
    have always := throughout [] first List.nil_prefix (.nil first)
    apply induction _ (preserved first event second always initially condition taken)
    intro before state begins reached
    apply throughout (event :: before) state
    · rw [List.prefix_cons_inj]
      exact begins
    · exact .cons condition taken reached

theorem Guarded.invariant {Invariant : State → Prop}
    (preserved : ∀ state event next, Invariant state → Condition state event →
      step state event = some (.ok next) → Invariant next)
    (run : Guarded step Condition first events last) (initially : Invariant first) :
    Invariant last := by
  apply run.invariant_of_throughout _ (fun _ _ _ _ => trivial) initially
  intro state event next _ holds condition taken
  exact preserved state event next holds condition taken

end Quagga.Foundation
