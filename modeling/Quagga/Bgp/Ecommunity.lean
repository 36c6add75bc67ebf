import Quagga.Foundation.Octets
import Mathlib.Data.Finset.Card
import Mathlib.Order.Interval.Finset.Nat

/-!
# Sets of extended communities

`ecommunity_add_val`, `ecommunity_uniq_sort` and `ecommunity_match` of `bgp_ecommunity.c`. A set is
an array of octets with eight for each value. The first two find the values in it by their index,
and `ecommunity_match` by the offset of an octet.
-/

namespace Quagga.Bgp

open Foundation List

/-- `val` is `NULL` as long as there is no value. -/
structure Ecommunity where
  size : Nat
  val? : Option Bytes
deriving Repr, DecidableEq

/-- `struct ecommunity_val`, in the order of `memcmp`. -/
abbrev EcommunityVal := { val : Bytes // val.length = 8 }

def ecommunityNew : Ecommunity := ⟨0, none⟩

/-- The eight octets at `ecom->val + offset`. -/
def Ecommunity.octetsAt (ecom : Ecommunity) (offset : Nat) : Bytes :=
  ((ecom.val?.getD []).drop offset).take 8

/-- The loop of `ecommunity_add_val`: where the value belongs, if it is not there. -/
def addPlace (ecom : Ecommunity) (eval : Bytes) : Nat → Nat → Option Nat
  | 0, c => some c
  | turns + 1, c =>
    if ecom.octetsAt (8 * c) = eval then none
    else if eval < ecom.octetsAt (8 * c) then some c
    else addPlace ecom eval turns (c + 1)

def ecommunityAddVal (ecom : Ecommunity) (eval : Bytes) : Ecommunity × Bool :=
  match ecom.val? with
  | none => (⟨ecom.size + 1, some eval⟩, true)
  | some val =>
    match addPlace ecom eval ecom.size 0 with
    | none => (ecom, false)
    | some c =>
      let moved := (val.drop (8 * c)).take (8 * (ecom.size - c))
      (⟨ecom.size + 1, some (val.take (8 * c) ++ eval ++ moved)⟩, true)

def ecommunityUniqSort (ecom : Ecommunity) : Ecommunity :=
  (range ecom.size).foldl (fun new i => (ecommunityAddVal new (ecom.octetsAt (8 * i))).1)
    ecommunityNew

def ecommunityParse (octets : Bytes) : Option Ecommunity :=
  if octets.length % 8 ≠ 0 then none
  else some (ecommunityUniqSort ⟨octets.length / 8, some octets⟩)

def matchLoop (ecom1 ecom2 : Ecommunity) : Nat → Nat → Nat → Nat
  | 0, _, j => j
  | turns + 1, i, j =>
    if j < ecom2.size then
      matchLoop ecom1 ecom2 turns (i + 1)
        (if ecom1.octetsAt i = ecom2.octetsAt j then j + 1 else j)
    else j

def ecommunityMatch : Option Ecommunity → Option Ecommunity → Bool
  | none, none => true
  | some ecom1, some ecom2 =>
    if ecom1.size < ecom2.size then false
    else matchLoop ecom1 ecom2 ecom1.size 0 0 = ecom2.size
  | _, _ => false

/-! ## Values -/

def Ecommunity.ofValues (values : List EcommunityVal) : Ecommunity :=
  ⟨values.length, values.head?.map fun _ => values.flatMap (·.val)⟩

def addAll (evals : List EcommunityVal) : Ecommunity :=
  evals.foldl (fun ecom eval => (ecommunityAddVal ecom eval.val).1) ecommunityNew

def Ordered (values : List EcommunityVal) : Prop :=
  values.Pairwise fun value later => value.val < later.val

/-- The calls for `evals` make an ordered array of exactly these values, parsing gives the same,
and an ordered array matches if its values are among them. -/
structure SetsRight (evals : List EcommunityVal) : Prop where
  adds : ∃ values, addAll evals = .ofValues values ∧ Ordered values ∧
    ∀ value, value ∈ values ↔ value ∈ evals
  parses : ecommunityParse (evals.flatMap (·.val)) = some (addAll evals)
  matching : ∀ others, Ordered others →
    (ecommunityMatch (some (addAll evals)) (some (.ofValues others)) = true ↔
      ∀ value ∈ others, value ∈ evals)

def number (value : EcommunityVal) : Nat := readBigEndian value.val

variable {value other : EcommunityVal} {values others : List EcommunityVal}

open Ecommunity

theorem lt_iff_number : value.val < other.val ↔ number value < number other :=
  lt_iff_readBigEndian (value.property.trans other.property.symm)

/-! ## Values in the array -/

theorem length_flatMap_val (values : List EcommunityVal) :
    (values.flatMap (·.val)).length = 8 * values.length := by
  induction values with
  | nil => rfl
  | cons value values induction =>
    rw [flatMap_cons, length_append, length_cons]
    omega

theorem window_flatMap_val (before : List EcommunityVal) (value : EcommunityVal)
    (rest : List EcommunityVal) :
    (((before ++ value :: rest).flatMap (·.val)).drop (8 * before.length)).take 8 = value.val := by
  rw [flatMap_append, drop_left' (length_flatMap_val before), flatMap_cons,
    take_left' value.property]

theorem octetsAt_ofValues (values : List EcommunityVal) (offset : Nat) :
    (ofValues values).octetsAt offset = ((values.flatMap (·.val)).drop offset).take 8 := by
  cases values <;> rfl

theorem addPlace_ofValues {before rest : List EcommunityVal} (ordered : Ordered (before ++ rest))
    (passed : ∀ other ∈ before, other.val < value.val) :
    match addPlace (.ofValues (before ++ rest)) value.val rest.length before.length with
    | none => value ∈ before ++ rest
    | some c => ∃ low high, before ++ rest = low ++ high ∧ c = low.length ∧
        Ordered (low ++ value :: high) := by
  induction rest generalizing before with
  | nil =>
    refine ⟨before, [], rfl, rfl, pairwise_append.mpr ⟨?_, pairwise_singleton _ _, ?_⟩⟩
    · rwa [append_nil] at ordered
    · simpa using passed
  | cons first rest induction =>
    rcases pairwise_append.mp ordered with ⟨beforeOrdered, restOrdered, across⟩
    rw [length_cons, addPlace, octetsAt_ofValues, window_flatMap_val]
    split_ifs with same less
    · simp [Subtype.ext same]
    · refine ⟨before, first :: rest, rfl, rfl, pairwise_append.mpr ⟨beforeOrdered, ?_, ?_⟩⟩
      · refine pairwise_cons.mpr ⟨forall_mem_cons.mpr ⟨less, ?_⟩, restOrdered⟩
        intro other member
        exact List.lt_trans less ((pairwise_cons.mp restOrdered).1 other member)
      · intro other member
        exact forall_mem_cons.mpr ⟨passed other member, across other member⟩
    · have ahead : first.val < value.val := by
        have different : number first ≠ number value :=
          fun equal => same (readBigEndian_inj (first.property.trans value.property.symm) equal)
        rw [lt_iff_number] at less ⊢
        omega
      have later := @induction (before ++ [first])
      rw [length_append, append_assoc, singleton_append] at later
      exact later ordered (forall_mem_append.mpr ⟨passed, forall_mem_singleton.mpr ahead⟩)

theorem addVal_ofValues (value : EcommunityVal) (ordered : Ordered values) :
    ∃ new, (ecommunityAddVal (.ofValues values) value.val).1 = .ofValues new ∧ Ordered new ∧
      ∀ other, other ∈ new ↔ other = value ∨ other ∈ values := by
  rcases values with _ | ⟨first, rest⟩
  · exact ⟨[value], by simp [ecommunityAddVal, ofValues], pairwise_singleton _ _,
      by simp⟩
  generalize whole : first :: rest = values at ordered
  have held : (ofValues values).val? = some (values.flatMap (·.val)) := whole ▸ rfl
  have place := @addPlace_ofValues value [] values ordered nofun
  have size : (ofValues values).size = values.length := rfl
  rw [nil_append, ← size] at place
  rw [ecommunityAddVal, held]
  revert place
  cases addPlace (.ofValues values) value.val (ofValues values).size 0 with
  | none =>
    intro member
    refine ⟨values, rfl, ordered, fun other => (or_iff_right_of_imp ?_).symm⟩
    rintro rfl
    exact member
  | some c =>
    rintro ⟨low, high, rfl, rfl, inserted⟩
    refine ⟨low ++ value :: high, ?_, inserted, by simp [or_left_comm]⟩
    have moved : (low ++ high).length - low.length = high.length := by simp
    simp only [moved, ofValues, flatMap_append, take_left' (length_flatMap_val low), drop_left'
      (length_flatMap_val low), take_of_length_le (length_flatMap_val high).le]
    cases low <;> simp [Nat.add_assoc]

theorem addAll_ofValues (evals : List EcommunityVal) (ordered : Ordered values) :
    ∃ new, evals.foldl (fun ecom eval => (ecommunityAddVal ecom eval.val).1) (.ofValues values) =
      .ofValues new ∧ Ordered new ∧ ∀ value, value ∈ new ↔ value ∈ values ∨ value ∈ evals := by
  induction evals generalizing values with
  | nil => exact ⟨values, rfl, ordered, by simp⟩
  | cons eval evals induction =>
    rcases addVal_ofValues eval ordered with ⟨one, added, oneOrdered, oneMembers⟩
    rcases induction oneOrdered with ⟨new, built, newOrdered, members⟩
    refine ⟨new, by rw [foldl_cons, added, built], newOrdered, fun value => ?_⟩
    rw [members, oneMembers, mem_cons, or_assoc, or_left_comm]

theorem parse_flatMap_val (evals : List EcommunityVal) :
    ecommunityParse (evals.flatMap (·.val)) = some (addAll evals) := by
  -- The turns from an index on add the values from there.
  have turns (before rest : List EcommunityVal) (new : Ecommunity) (size : Nat) :
      (range' before.length rest.length).foldl (fun new i => (ecommunityAddVal new
          (octetsAt ⟨size, some ((before ++ rest).flatMap (·.val))⟩ (8 * i))).1) new =
        rest.foldl (fun ecom eval => (ecommunityAddVal ecom eval.val).1) new := by
    induction rest generalizing before new with
    | nil => rfl
    | cons eval rest induction =>
      have later := induction (before ++ [eval])
      rw [length_append, append_assoc, length_singleton, singleton_append] at later
      rw [length_cons, range'_succ, foldl_cons, later, foldl_cons, octetsAt,
        Option.getD_some, window_flatMap_val]
  rw [ecommunityParse, length_flatMap_val, if_neg (by simp), ecommunityUniqSort, range_eq_range',
    Nat.mul_div_cancel_left _ (by decide)]
  exact congrArg some (turns [] evals ecommunityNew _)

/-! ## Matching -/

variable {ecom1 ecom2 : Ecommunity}

theorem matchLoop_eq {ahead turns i j : Nat}
    (windows : ∀ k < ecom2.size, ecom1.octetsAt (ahead + k) = ecom2.octetsAt k)
    (enough : ahead + ecom2.size ≤ i + turns) (behind : i ≤ ahead + j) (within : j ≤ ecom2.size) :
    matchLoop ecom1 ecom2 turns i j = ecom2.size := by
  induction turns generalizing i j with
  | zero =>
    rw [matchLoop]
    omega
  | succ turns induction =>
    rw [matchLoop]
    split_ifs with more same
    · exact induction (by omega) (by omega) more
    · have missed : i ≠ ahead + j := by
        rintro rfl
        exact same (windows j more)
      exact induction (by omega) (by omega) within
    · omega

theorem match_iff : ecommunityMatch (some ecom1) (some ecom2) = true ↔
    ecom2.size ≤ ecom1.size ∧ matchLoop ecom1 ecom2 ecom1.size 0 0 = ecom2.size := by
  simp [ecommunityMatch]

theorem match_of_windows (ahead : Nat) (room : ahead + ecom2.size ≤ ecom1.size)
    (windows : ∀ k < ecom2.size, ecom1.octetsAt (ahead + k) = ecom2.octetsAt k) :
    ecommunityMatch (some ecom1) (some ecom2) = true :=
  match_iff.mpr ⟨by omega, matchLoop_eq windows (by omega) (Nat.zero_le _) (Nat.zero_le _)⟩

theorem exists_fresh (values : List EcommunityVal) {low high : Nat} (bound : high ≤ 256 ^ 8)
    (many : low + values.length < high) :
    ∃ value, value ∉ values ∧ low ≤ number value ∧ number value < high := by
  have fewer : (values.map number).toFinset.card < (Finset.Ico low high).card := by
    have listed := toFinset_card_le (values.map number)
    rw [length_map] at listed
    rw [Nat.card_Ico]
    omega
  rcases Finset.exists_mem_notMem_of_card_lt_card fewer with ⟨key, inside, fresh⟩
  rcases Finset.mem_Ico.mp inside with ⟨above, below⟩
  have fits := readBigEndian_bigEndian (show key < 256 ^ 8 by omega)
  refine ⟨⟨bigEndian 8 key, length_bigEndian 8 key⟩, ?_, by rwa [number, fits],
    by rwa [number, fits]⟩
  intro member
  rw [mem_toFinset] at fresh
  exact fresh (fits ▸ mem_map_of_mem member)

theorem exists_octets (value : EcommunityVal) : ∃ octet octets, value.val = octet :: octets ∧
    octets.length = 7 ∧ number value = octet.toNat * 256 ^ 7 + readBigEndian octets := by
  rcases value with ⟨_ | ⟨octet, octets⟩, sized⟩
  · cases sized
  · have seven : octets.length = 7 := Nat.succ.inj sized
    exact ⟨octet, octets, rfl, seven, by rw [number, readBigEndian_cons, seven]⟩

theorem match_of_shared (reach : Nat) (room : others.length ≤ values.length)
    (inside : others.length + 7 ≤ reach)
    (same : (values.flatMap (·.val)).take reach = (others.flatMap (·.val)).take reach) :
    ecommunityMatch (some (.ofValues values)) (some (.ofValues others)) = true := by
  apply match_of_windows 0
  · rwa [Nat.zero_add]
  · intro k below
    have within : k + 8 ≤ reach := Nat.le_trans (Nat.add_le_add_right below 7) inside
    rw [octetsAt_ofValues, octetsAt_ofValues, Nat.zero_add, take_drop, take_drop,
      ← Nat.min_eq_left within, ← take_take, same, take_take]

/-- Some array with another value matches: one that goes on as the second value begins, one of the
eight octets behind the first, or one with a third value. -/
theorem wrong_of_two {first second : EcommunityVal} {rest : List EcommunityVal}
    (ordered : Ordered (first :: second :: rest)) (fits : rest.length + 2 < 2 ^ 31) :
    ∃ others, Ordered others ∧ (∃ value ∈ others, value ∉ first :: second :: rest) ∧
      ecommunityMatch (some (.ofValues (first :: second :: rest))) (some (.ofValues others)) =
        true := by
  rcases pairwise_cons.mp ordered with ⟨least, -⟩
  have less := lt_iff_number.mp (least second mem_cons_self)
  rcases exists_octets first with ⟨head, tail, firstEq, seven, firstNumber⟩
  rcases exists_octets second with ⟨next, nextTail, secondEq, nextSeven, secondNumber⟩
  have tailBound := readBigEndian_lt tail
  have nextBound := readBigEndian_lt nextTail
  rw [seven] at tailBound
  rw [nextSeven] at nextBound
  have nextOctet := next.toNat_lt
  by_cases room : number first + 1 + (rest.length + 2) < (next.toNat + 1) * 256 ^ 7
  · have many : max (number first + 1) (next.toNat * 256 ^ 7) + (rest.length + 2) <
        (next.toNat + 1) * 256 ^ 7 := by
      rw [max_add]
      exact max_lt room (by omega)
    rcases exists_fresh (first :: second :: rest) (by omega) many with
      ⟨value, fresh, above, below⟩
    rcases exists_octets value with ⟨octet, octets, valueEq, valueSeven, valueNumber⟩
    have valueBound := readBigEndian_lt octets
    rw [valueSeven] at valueBound
    rcases max_le_iff.mp above with ⟨aboveFirst, aboveNext⟩
    have same : octet = next := UInt8.toNat_inj.mp (by omega)
    refine ⟨[first, value], pairwise_pair.mpr (lt_iff_number.mpr aboveFirst),
      ⟨value, by simp, fresh⟩, match_of_shared 9 (by simp) (by simp) ?_⟩
    simp [take_append, first.property, secondEq, valueEq, same]
  let between : EcommunityVal := ⟨tail ++ [next], by simp [seven]⟩
  have betweenNumber : number between = readBigEndian tail * 256 + next.toNat := by
    simp [number, between, readBigEndian]
  by_cases known : between ∉ first :: second :: rest
  · refine ⟨[between], pairwise_singleton _ _, ⟨between, by simp, known⟩,
      match_of_windows 1 ?_ ?_⟩
    · simp [ofValues]
    · intro k inside
      have zero : k = 0 := Nat.lt_one_iff.mp inside
      simp [zero, octetsAt_ofValues, between, firstEq, secondEq, take_append, seven]
  · rw [not_not, mem_cons, mem_cons] at known
    have notLess : number first ≤ number between := by
      rcases known with same | later
      · rw [same]
      · exact (lt_iff_number.mp (least between (mem_cons.mpr later))).le
    have sameHead : head.toNat = next.toNat := by omega
    have third : between ∈ rest := by
      rcases known with same | same | later
      · rw [same] at betweenNumber
        omega
      · rw [same] at betweenNumber
        omega
      · exact later
    rcases exists_fresh (first :: second :: rest) (Nat.le_refl _)
      (show number second + 1 + (rest.length + 2) < 256 ^ 8 by omega) with
      ⟨value, fresh, above, -⟩
    refine ⟨[first, second, value], pairwise_cons.mpr ⟨?_, ?_⟩, ⟨value, by simp, fresh⟩,
      match_of_shared 16 (Nat.add_le_add_right (length_pos_of_mem third) 2) (by simp) ?_⟩
    · simp only [forall_mem_cons, lt_iff_number]
      exact ⟨less, less.trans above, forall_mem_nil _⟩
    · exact pairwise_pair.mpr (lt_iff_number.mpr above)
    · simp [take_append, first.property, second.property]

theorem Ordered.few_iff (ordered : Ordered values) :
    values.length ≤ 1 ↔ ∀ value ∈ values, ∀ other ∈ values, value = other := by
  rcases values with _ | ⟨first, _ | ⟨second, rest⟩⟩
  · simp
  · simp
  · refine iff_of_false (by simp) fun same => ?_
    have less := (pairwise_cons.mp ordered).1 second mem_cons_self
    rw [same first mem_cons_self second (by simp)] at less
    exact List.lt_irrefl _ less

theorem match_of_few (ordered : Ordered values) (few : values.length ≤ 1)
    (othersOrdered : Ordered others) :
    ecommunityMatch (some (.ofValues values)) (some (.ofValues others)) = true ↔
      ∀ value ∈ others, value ∈ values := by
  by_cases many : 1 < others.length
  · refine iff_of_false (fun hit => ?_) fun all =>
      Nat.not_le.mpr many (othersOrdered.few_iff.mpr ?_)
    · exact Nat.not_le.mpr many ((match_iff.mp hit).1.trans few)
    · intro value member other otherMember
      exact ordered.few_iff.mp few value (all value member) other (all other otherMember)
  rcases others with _ | ⟨other, _ | _⟩
  · exact iff_of_true (match_of_windows 0 (Nat.zero_le _) nofun) nofun
  · rcases values with _ | ⟨value, _ | _⟩
    · simp [match_iff, ofValues]
    · have only (value : EcommunityVal) : (ofValues [value]).octetsAt 0 = value.val :=
        (octetsAt_ofValues [value] 0).trans (window_flatMap_val [] value [])
      rw [match_iff, forall_mem_singleton]
      change 1 ≤ 1 ∧ (if _ then 1 else 0) = 1 ↔ _
      simp [only, Subtype.ext_iff, eq_comm]
    · simp at few
  · simp at many

theorem setsRight_iff (evals : List EcommunityVal) (fits : (addAll evals).size < 2 ^ 31) :
    SetsRight evals ↔ ∀ value ∈ evals, ∀ other ∈ evals, value = other := by
  rcases addAll_ofValues evals Pairwise.nil with ⟨values, built, ordered, members⟩
  change addAll evals = .ofValues values at built
  simp only [not_mem_nil, false_or] at members
  simp only [← members]
  rw [← ordered.few_iff]
  constructor
  · intro right
    by_contra many
    rcases values with _ | ⟨first, _ | ⟨second, rest⟩⟩
    · exact many (Nat.zero_le 1)
    · exact many (Nat.le_refl 1)
    · rw [built] at fits
      rcases wrong_of_two ordered fits with ⟨others, othersOrdered, ⟨missing, listed, fresh⟩, hit⟩
      rw [← built, right.matching others othersOrdered] at hit
      exact fresh ((members missing).mpr (hit missing listed))
  · intro few
    refine ⟨⟨values, built, ordered, members⟩, parse_flatMap_val evals, ?_⟩
    intro others othersOrdered
    simp only [← members]
    rw [built]
    exact match_of_few ordered few othersOrdered

def routeTarget (assigned : UInt8) : EcommunityVal := ⟨[0, 2, 0, 1, 0, 0, 0, assigned], rfl⟩

theorem setsRight_repeated : SetsRight [routeTarget 1, routeTarget 1] :=
  (setsRight_iff _ (by decide +kernel)).mpr (by simp)

/-- Looked for from the second octet on, a value that is there is not found. -/
theorem match_misses_second :
    ecommunityMatch (some (addAll [routeTarget 1, routeTarget 2]))
        (some (.ofValues [routeTarget 2])) = false ∧
      ¬ SetsRight [routeTarget 1, routeTarget 2] := by
  have missed : ecommunityMatch (some (addAll [routeTarget 1, routeTarget 2]))
      (some (.ofValues [routeTarget 2])) = false := by decide +kernel
  refine ⟨missed, fun right => ?_⟩
  have found := (right.matching [routeTarget 2] (pairwise_singleton _ _)).mpr (by simp)
  cases found

end Quagga.Bgp
