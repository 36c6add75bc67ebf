/-!
# Loops that are left early

A loop over a state that shrinks with every turn: a turn goes on with another state or
leaves the loop with a result. Two loops whose turns correspond have results that
correspond.
-/

namespace Quagga.Foundation

universe u v

inductive Turn (σ : Type u) (ρ : Type v) where
  | next (state : σ)
  | leave (result : ρ)

structure Loop (σ : Type u) (ρ : Type v) where
  turn : σ → Turn σ ρ
  size : σ → Nat
  shrinks : ∀ {state following}, turn state = .next following → size following < size state

namespace Loop

variable {σ : Type u} {ρ : Type v} [Inhabited ρ] (loop : Loop σ ρ)

def runWithin : Nat → σ → ρ
  | 0, _ => default
  | fuel + 1, state =>
    match loop.turn state with
    | .leave result => result
    | .next following => runWithin fuel following

/-- No loop has more turns than its first state has size. -/
def run (state : σ) : ρ := loop.runWithin (loop.size state + 1) state

theorem runWithin_of_lt {fuel : Nat} {state : σ} (enough : loop.size state < fuel) :
    loop.runWithin fuel state = loop.run state := by
  suffices ∀ fuel other : Nat, ∀ state : σ, loop.size state < fuel → loop.size state < other →
      loop.runWithin fuel state = loop.runWithin other state from
    this _ _ _ enough (Nat.lt_succ_self _)
  intro fuel
  induction fuel with
  | zero =>
    intro other state none
    exact absurd none (Nat.not_lt_zero _)
  | succ fuel induction =>
    intro other state bound otherBound
    cases other with
    | zero => exact absurd otherBound (Nat.not_lt_zero _)
    | succ other =>
      simp only [runWithin]
      cases taken : loop.turn state with
      | leave result => rfl
      | next following =>
        have smaller := loop.shrinks taken
        exact induction other following (by omega) (by omega)

theorem run_of_leave {state : σ} {result : ρ} (taken : loop.turn state = .leave result) :
    loop.run state = result := by
  simp [run, runWithin, taken]

theorem run_of_next {state following : σ} (taken : loop.turn state = .next following) :
    loop.run state = loop.run following := by
  have smaller := loop.shrinks taken
  rw [run, runWithin]
  simp only [taken]
  exact loop.runWithin_of_lt smaller

theorem run_eq (state : σ) : loop.run state =
    match loop.turn state with
    | .leave result => result
    | .next following => loop.run following := by
  cases taken : loop.turn state with
  | leave result => exact loop.run_of_leave taken
  | next following => exact loop.run_of_next taken

theorem run_invariant {Invariant : σ → Prop} {Result : ρ → Prop}
    (preserved : ∀ {state following}, Invariant state → loop.turn state = .next following →
      Invariant following)
    (left : ∀ {state result}, Invariant state → loop.turn state = .leave result → Result result)
    {first : σ} (initially : Invariant first) : Result (loop.run first) := by
  generalize bound : loop.size first = size
  induction size using Nat.strongRecOn generalizing first with
  | ind size induction =>
    cases taken : loop.turn first with
    | leave result =>
      rw [loop.run_of_leave taken]
      exact left initially taken
    | next following =>
      rw [loop.run_of_next taken]
      exact induction _ (bound ▸ loop.shrinks taken) (preserved initially taken) rfl

end Loop

/-! ## Loops in step -/

variable {σ τ ρ π : Type}

/-- Both turns go on with related states, or both leave with related results. -/
inductive Turn.Related (Relation : σ → τ → Prop) (Outcome : ρ → π → Prop) :
    Turn σ ρ → Turn τ π → Prop
  | next {state : σ} {other : τ} : Relation state other →
      Related Relation Outcome (.next state) (.next other)
  | leave {result : ρ} {other : π} : Outcome result other →
      Related Relation Outcome (.leave result) (.leave other)

theorem Loop.run_related [Inhabited ρ] [Inhabited π] {loop : Loop σ ρ} {abstract : Loop τ π}
    {Relation : σ → τ → Prop} {Outcome : ρ → π → Prop}
    (turns : ∀ {state other}, Relation state other →
      Turn.Related Relation Outcome (loop.turn state) (abstract.turn other)) {first : σ} {other : τ}
    (initially : Relation first other) : Outcome (loop.run first) (abstract.run other) := by
  generalize bound : loop.size first = size
  induction size using Nat.strongRecOn generalizing first other with
  | ind size induction =>
    have related := turns initially
    generalize taken : loop.turn first = turn at related
    generalize otherTaken : abstract.turn other = otherTurn at related
    cases related with
    | leave outcome =>
      rw [loop.run_of_leave taken, abstract.run_of_leave otherTaken]
      exact outcome
    | next again =>
      rw [loop.run_of_next taken, abstract.run_of_next otherTaken]
      exact induction _ (bound ▸ loop.shrinks taken) again rfl

end Quagga.Foundation
