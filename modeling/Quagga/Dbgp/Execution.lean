import Quagga.Foundation.Transitions
import Quagga.Foundation.Wire

/-!
# How a run of the daemon can end early

The C and C++ sources stop on a failed `assert`, on an exception that nobody catches, and
have no defined result after an invalid access. A modelled function that can do so returns
`Execution`, with the reason.
-/

namespace Quagga.Dbgp

open Foundation

/-- The assertions of the modelled functions, named after what each one requires. -/
inductive Assertion where
  /-- `retrieve_control_info`: the transit value is as long as a lookup key. -/
  | lookupKeyLength
  /-- `unpack_redis_reply`: the lookup service has a value for the key. -/
  | lookupReply
  /-- `dbgp_update_control_info`, `dbgp_input_filter` and `dbgp_output_filter`: the
  configured protocol has a case. -/
  | supportedProtocol
  /-- `wiser_update_control_info`: the topology declares the link. -/
  | linkCostKnown
  /-- `wiser_update_control_info`: an advertisement with a cost names its last Wiser node. -/
  | lastWiserNodeKnown
  /-- `ComputeNormalizationForAdvert`: the ratio of the two counters is positive. -/
  | normalizationPositive
  /-- `new_pathlets_update_control_info`: a pathlet address lies in the router's own /24. -/
  | privateSubnet
  /-- `AddAssociatedPathlet` callers: the address has a pathlet. -/
  | associatedPathlet
  /-- `bgp_attr_dbgp`: the attribute is as long as a lookup key. -/
  | dbgpAttributeLength
  /-- `bgp_packet_attribute`: the transit value is as long as a lookup key. -/
  | packetTransitLength
  /-- `bgp_attr_unintern`: attributes that nothing refers to any more are in `attrhash`. -/
  | attrReleased
deriving Repr, DecidableEq

inductive Fault where
  | assertion (failed : Assertion)
  /-- Behaviour that the language leaves undefined: a null or out-of-bounds access, or a
  conversion of a value its target cannot hold. -/
  | undefined
  /-- A C++ exception that leaves the C code that called it. -/
  | exception
deriving Repr, DecidableEq

instance : Inhabited Fault := ⟨.undefined⟩

abbrev Execution (α : Type) := Except Fault α

namespace Execution

variable {α β : Type} {condition : Prop} {failed : Assertion} {Weaker : α → Prop} {Final : β → Prop}

def require (condition : Prop) [Decidable condition] (assertion : Assertion) : Execution Unit :=
  if condition then .ok () else .error (.assertion assertion)

def defined : Option α → Execution α
  | some value => .ok value
  | none => .error .undefined

def fault? : Execution α → Option Fault
  | .ok _ => none
  | .error fault => some fault

variable {action : Execution α}

theorem fault?_eq_some {fault : Fault} : action.fault? = some fault ↔ action = .error fault := by
  cases action <;> simp [fault?]

@[simp] theorem defined_some (value : α) : defined (some value) = .ok value := rfl

variable {next : α → Execution β}

@[simp] theorem bind_eq_ok {result : β} :
    (action >>= next) = .ok result ↔ ∃ value, action = .ok value ∧ next value = .ok result := by
  cases action <;> simp

theorem require_pos [Decidable condition] (holds : condition) (assertion : Assertion) :
    require condition assertion = .ok () :=
  if_pos holds

@[simp] theorem require_eq_ok [Decidable condition] {assertion : Assertion} {result : Unit} :
    require condition assertion = .ok result ↔ condition := by
  by_cases holds : condition <;> simp [require, holds]

@[simp] theorem defined_eq_ok {value : Option α} {result : α} :
    defined value = .ok result ↔ value = some result := by
  cases value <;> simp [defined]

/-! ## Executions that fail no assertion -/

/-- No assertion fails, and what is returned meets a condition. -/
def Safe (action : Execution α) (Condition : α → Prop) : Prop :=
  (∀ value, action = .ok value → Condition value) ∧
    ∀ assertion, action ≠ .error (.assertion assertion)

variable {Condition : α → Prop}

theorem safe_ok {value : α} (holds : Condition value) : Safe (.ok value) Condition :=
  ⟨fun _ returned => Except.ok.inj returned ▸ holds, nofun⟩

theorem safe_undefined : Safe (.error .undefined : Execution α) Condition := ⟨nofun, nofun⟩

theorem safe_defined (value : Option α) :
    Safe (defined value) fun result => value = some result := by
  cases value with
  | none => exact safe_undefined
  | some result => exact safe_ok rfl

theorem Safe.bind (first : Safe action Condition)
    (second : ∀ value, Condition value → Safe (next value) Final) :
    Safe (action >>= next) Final := by
  cases action with
  | ok value => exact second value (first.1 value rfl)
  | error fault =>
    refine ⟨nofun, ?_⟩
    intro assertion failed
    rw [error_bind, Except.error.injEq] at failed
    exact first.2 assertion (congrArg Except.error failed)

theorem Safe.mono (safe : Safe action Condition)
    (weaker : ∀ value, Condition value → Weaker value) : Safe action Weaker :=
  ⟨fun value returned => weaker value (safe.1 value returned), safe.2⟩

/-! ## Executions that return -/

def Returns (action : Execution α) : Prop := ∃ value, action = .ok value

@[simp] theorem returns_ok (value : α) : Returns (.ok value) := ⟨value, rfl⟩

@[simp] theorem not_returns_error (fault : Fault) : ¬ Returns (.error fault : Execution α) := by
  rintro ⟨value, returned⟩
  cases returned

theorem returns_iff_fault? : Returns action ↔ action.fault? = none := by
  cases action <;> simp [fault?]

theorem returns_defined_iff (value : Option α) : Returns (defined value) ↔ value.isSome := by
  cases value <;> simp [defined]

theorem returns_bind_iff {Fine : Prop}
    (second : ∀ value, action = .ok value → (Returns (next value) ↔ Fine)) :
    Returns (action >>= next) ↔ Returns action ∧ Fine := by
  cases action with
  | error fault => simp
  | ok value =>
    rw [ok_bind, second value rfl]
    simp

theorem returns_map_iff {next : α → β} :
    Returns (action >>= fun value => .ok (next value)) ↔ Returns action := by
  cases action <;> simp

theorem returns_foldlM_iff {step : α → β → Execution α} {Fine : β → Prop}
    (returns : ∀ state item, Returns (step state item) ↔ Fine item) (items : List β) (state : α) :
    Returns (items.foldlM step state) ↔ ∀ item ∈ items, Fine item := by
  induction items generalizing state with
  | nil => simp
  | cons item items induction =>
    rw [List.foldlM_cons, returns_bind_iff fun value _ => induction value, returns,
      List.forall_mem_cons]

end Execution

end Quagga.Dbgp
