/-!
# Sequences of self-delimiting records

A field of a message is often a sequence of records of varying length, each of which says
how long it is. `records` reads one after another until the field ends or a record does not
fit into what is left.
-/

namespace Quagga.Foundation

open List

universe u v

/-- A reader of one record. It takes at least one element of its input, and what it reads
does not depend on what follows the record. -/
structure RecordReader (α : Type u) (β : Type v) where
  read : List α → Option (β × List α)
  progress : ∀ {input value rest}, read input = some (value, rest) → rest.length < input.length
  extends_input : ∀ {input value rest} (more : List α), read input = some (value, rest) →
    read (input ++ more) = some (value, rest ++ more)

namespace RecordReader

variable {α : Type u} {β : Type v} (reader : RecordReader α β)

def recordsWithin : Nat → List α → List β × Bool
  | _, [] => ([], true)
  | 0, _ :: _ => ([], false)
  | fuel + 1, head :: tail =>
    match reader.read (head :: tail) with
    | none => ([], false)
    | some (value, rest) =>
      let later := recordsWithin fuel rest
      (value :: later.1, later.2)

/-- The records of a field up to the first that cannot be read, and whether all could. -/
def records (input : List α) : List β × Bool := reader.recordsWithin input.length input

variable {input : List α}

theorem recordsWithin_of_le {fuel : Nat} (enough : input.length ≤ fuel) :
    reader.recordsWithin fuel input = reader.records input := by
  suffices ∀ other, input.length ≤ other →
      reader.recordsWithin fuel input = reader.recordsWithin other input from
    this _ (Nat.le_refl _)
  fun_induction recordsWithin reader fuel input with
  | case1 fuel => simp [recordsWithin]
  | case2 head tail => cases enough
  | case3 fuel head tail unreadable =>
    intro other bound
    cases other with
    | zero => cases bound
    | succ other => simp [recordsWithin, unreadable]
  | case4 fuel head tail value rest result later induction =>
    intro other bound
    cases other with
    | zero => cases bound
    | succ other =>
      have shorter := reader.progress result
      simp [recordsWithin, result, later, induction (by omega) other (by omega)]

@[simp] theorem records_nil : reader.records [] = ([], true) := rfl

theorem records_of_read {value : β} {rest : List α}
    (result : reader.read input = some (value, rest)) :
    reader.records input = (value :: (reader.records rest).1, (reader.records rest).2) := by
  have shorter := reader.progress result
  cases input with
  | nil => simp at shorter
  | cons head tail =>
    have enough : rest.length ≤ tail.length := by
      simp only [length_cons] at shorter
      omega
    rw [records, length_cons, recordsWithin]
    simp [result, reader.recordsWithin_of_le enough]

theorem records_of_unreadable (nonempty : input ≠ []) (result : reader.read input = none) :
    reader.records input = ([], false) := by
  cases input with
  | nil => exact absurd rfl nonempty
  | cons head tail => simp [records, recordsWithin, result]

theorem records_induction {motive : List α → Prop}
    (stops : ∀ input, reader.read input = none → motive input)
    (goesOn : ∀ input value rest, reader.read input = some (value, rest) → motive rest →
      motive input) (input : List α) : motive input := by
  generalize length : input.length = size
  induction size using Nat.strongRecOn generalizing input with
  | ind size induction =>
    cases result : reader.read input with
    | none => exact stops input result
    | some pair =>
      have shorter := reader.progress result
      exact goesOn input pair.1 pair.2 result (induction _ (length ▸ shorter) pair.2 rfl)

def startsWithin : Nat → List α → List (List α)
  | 0, _ => []
  | fuel + 1, input =>
    match reader.read input with
    | none => []
    | some (_, rest) => input :: startsWithin fuel rest

/-- What is left of a field where each of its records starts. -/
def starts (input : List α) : List (List α) := reader.startsWithin (input.length + 1) input

theorem startsWithin_of_lt {fuel : Nat} (enough : input.length < fuel) :
    reader.startsWithin fuel input = reader.starts input := by
  suffices ∀ other, input.length < other →
      reader.startsWithin fuel input = reader.startsWithin other input from
    this _ (Nat.lt_succ_self _)
  fun_induction startsWithin reader fuel input with
  | case1 => cases enough
  | case2 fuel input unreadable =>
    intro other bound
    cases other with
    | zero => cases bound
    | succ other => simp [startsWithin, unreadable]
  | case3 fuel input value rest result induction =>
    intro other bound
    cases other with
    | zero => cases bound
    | succ other =>
      have shorter := reader.progress result
      simp [startsWithin, result, induction (by omega) other (by omega)]

theorem starts_of_read {value : β} {rest : List α}
    (result : reader.read input = some (value, rest)) :
    reader.starts input = input :: reader.starts rest := by
  have shorter := reader.progress result
  rw [starts, startsWithin]
  simp [result, reader.startsWithin_of_lt shorter]

theorem starts_of_unreadable (result : reader.read input = none) : reader.starts input = [] := by
  rw [starts, startsWithin]
  simp [result]

theorem forall_records {Property : β → Prop}
    (each : ∀ {input value rest}, reader.read input = some (value, rest) → Property value)
    (input : List α) : ∀ value ∈ (reader.records input).1, Property value := by
  unfold records
  generalize input.length = fuel
  fun_induction recordsWithin reader fuel input with
  | case1 => simp
  | case2 => simp
  | case3 => simp
  | case4 fuel head tail value rest result later induction =>
    exact forall_mem_cons.mpr ⟨each result, induction⟩

/-! ## Encodings -/

variable {encode : β → List α}

theorem records_flatMap {values : List β}
    (reads : ∀ value ∈ values, ∀ rest, reader.read (encode value ++ rest) = some (value, rest)) :
    reader.records (values.flatMap encode) = (values, true) := by
  induction values with
  | nil => rfl
  | cons value values induction =>
    rcases forall_mem_cons.mp reads with ⟨first, rest⟩
    rw [flatMap_cons, reader.records_of_read (first _), induction rest]

theorem flatMap_of_records (writes : ∀ {input value rest}, reader.read input = some (value, rest) →
      encode value ++ rest = input) (complete : (reader.records input).2 = true) :
    (reader.records input).1.flatMap encode = input := by
  unfold records at complete ⊢
  generalize input.length = fuel at complete ⊢
  fun_induction recordsWithin reader fuel input with
  | case1 => rfl
  | case2 | case3 => cases complete
  | case4 fuel head tail value rest result later induction =>
    rw [flatMap_cons, induction complete, writes result]

end RecordReader

end Quagga.Foundation
