import Quagga.Foundation.Wire
import Mathlib.Data.Int.ModEq
import Mathlib.Tactic.Linarith
import Mathlib.Tactic.Ring

/-!
# The Fletcher checksum

`fletcher_checksum` of `lib/checksum.c`. The two sums are reduced after every 4102 octets only,
and have to stay within an `int` until then.
-/

namespace Quagga.Lib

open Foundation List Nat

/-- The sum of two `int`s that are not negative, unless it overflows. -/
def addInt (first second : Nat) : Option Nat :=
  if first + second < 2 ^ 31 then some (first + second) else none

def fletcherPart : Bytes → Nat → Nat → Option (Nat × Nat)
  | [], c0, c1 => some (c0, c1)
  | octet :: p, c0, c1 => do
    let c0 ← addInt c0 octet.toNat
    let c1 ← addInt c1 c0
    fletcherPart p c0 c1

def fletcherSums : Bytes → Nat → Nat → Option (Nat × Nat)
  | [], c0, c1 => some (c0, c1)
  | octet :: p, c0, c1 => do
    let (c0, c1) ← fletcherPart ((octet :: p).take 4102) c0 c1
    fletcherSums ((octet :: p).drop 4102) (c0 % 255) (c1 % 255)
termination_by p => p.length
decreasing_by
  rw [length_drop, length_cons]
  omega

/-- The two octets to write. The product is of type `size_t`, and the cast takes its last 32 bits
for a signed number. -/
def checkOctets (len offset c0 c1 : Nat) : Int × Int :=
  let x := (Int.bmod ((len - offset - 1) * c0 - c1) (2 ^ 32)).tmod 255
  let x := if x ≤ 0 then x + 255 else x
  let y := 510 - c0 - x
  (x, if y > 255 then y - 255 else y)

def fletcherChecksumValidate : Nat := 0xffff

/-- The buffer afterwards and the value returned. Without a value the assertion fails, or a sum
overflows. -/
def fletcherChecksum (htons : UInt16 → UInt16) (buffer : Bytes) (offset : Nat) :
    Option (Bytes × UInt16) :=
  if offset = fletcherChecksumValidate then do
    let (c0, c1) ← fletcherSums buffer 0 0
    return (buffer, UInt16.ofNat (c1 * 256 + c0))
  else if offset < buffer.length - 1 then do
    let buffer := (buffer.set offset 0).set (offset + 1) 0
    let (c0, c1) ← fletcherSums buffer 0 0
    let (x, y) := checkOctets buffer.length offset c0 c1
    return ((buffer.set offset (.ofInt x)).set (offset + 1) (.ofInt y),
      htons (UInt16.ofInt (x * 256 + y % 256)))
  else none

/-! ## The sums -/

def octetSum : Bytes → Nat
  | [] => 0
  | octet :: p => octet.toNat + octetSum p

/-- Every octet is counted once for each octet from it on. -/
def weightedSum : Bytes → Nat
  | [] => 0
  | octet :: p => (p.length + 1) * octet.toNat + weightedSum p

theorem sums_append (p q : Bytes) : octetSum (p ++ q) = octetSum p + octetSum q ∧
    weightedSum (p ++ q) = weightedSum p + q.length * octetSum p + weightedSum q := by
  induction p with
  | nil => simp [octetSum, weightedSum]
  | cons octet p induction =>
    simp only [cons_append, octetSum, weightedSum, induction, length_append]
    constructor <;> ring

theorem sums_le (p : Bytes) :
    octetSum p ≤ 255 * p.length ∧ 2 * weightedSum p ≤ 255 * (p.length * (p.length + 1)) := by
  induction p with
  | nil => simp [octetSum, weightedSum]
  | cons octet p induction =>
    have octetBound : octet.toNat ≤ 255 := Nat.le_of_lt_succ octet.toNat_lt
    have product := mul_le_mul_left (p.length + 1) octetBound
    rw [octetSum, weightedSum, length_cons]
    constructor
    · omega
    · linarith

theorem sums_set {p : Bytes} {index : Nat} {octet : UInt8} (found : p[index]? = some octet)
    (other : UInt8) :
    octetSum (p.set index other) + octet.toNat = octetSum p + other.toNat ∧
      weightedSum (p.set index other) + (p.length - index) * octet.toNat =
        weightedSum p + (p.length - index) * other.toNat := by
  induction p generalizing index with
  | nil => cases found
  | cons first p induction =>
    cases index with
    | zero =>
      cases found
      simp only [set_cons_zero, octetSum, weightedSum, length_cons, Nat.sub_zero]
      constructor <;> omega
    | succ index =>
      have later := induction found
      simp only [set_cons_succ, octetSum, weightedSum, length_cons, length_set,
        Nat.add_sub_add_right]
      constructor <;> omega

theorem fletcherPart_eq {p : Bytes} {c0 c1 : Nat} (room : c0 + octetSum p < 2 ^ 31)
    (room1 : c1 + p.length * c0 + weightedSum p < 2 ^ 31) :
    fletcherPart p c0 c1 = some (c0 + octetSum p, c1 + p.length * c0 + weightedSum p) := by
  induction p generalizing c0 c1 with
  | nil => simp [fletcherPart, octetSum, weightedSum]
  | cons octet p induction =>
    have weighted : c1 + (octet :: p).length * c0 + weightedSum (octet :: p) =
        c1 + (c0 + octet.toNat) + p.length * (c0 + octet.toNat) + weightedSum p := by
      rw [weightedSum, length_cons]
      ring
    rw [weighted] at room1 ⊢
    rw [octetSum, ← add_assoc] at room ⊢
    rw [fletcherPart, addInt, if_pos (by omega)]
    change (addInt c1 (c0 + octet.toNat)).bind _ = _
    rw [addInt, if_pos (by omega)]
    exact induction room room1

theorem fletcherSums_eq (p : Bytes) {c0 c1 : Nat} (reduced : c0 < 255) (reduced1 : c1 < 255) :
    fletcherSums p c0 c1 =
      some ((c0 + octetSum p) % 255, (c1 + p.length * c0 + weightedSum p) % 255) := by
  induction p, c0, c1 using fletcherSums.induct with
  | case1 c0 c1 =>
    simp [fletcherSums, octetSum, weightedSum, mod_eq_of_lt, reduced, reduced1]
  | case2 octet p c0 c1 induction =>
    rw [fletcherSums]
    generalize octet :: p = p at induction ⊢
    have bounds := sums_le (p.take 4102)
    have few : (p.take 4102).length ≤ 4102 := length_take_le _ _
    have square : (p.take 4102).length * ((p.take 4102).length + 1) ≤ 4102 * 4103 :=
      Nat.mul_le_mul few (Nat.succ_le_succ few)
    have product := Nat.mul_le_mul few (Nat.le_of_lt_succ reduced)
    rw [fletcherPart_eq (by omega) (by omega)]
    change fletcherSums _ _ _ = _
    rw [induction _ _ (mod_lt _ (by decide)) (mod_lt _ (by decide))]
    have split := take_append_drop 4102 p
    generalize p.take 4102 = first at split
    generalize p.drop 4102 = second at split
    subst split
    rw [(sums_append _ _).1, (sums_append _ _).2, length_append, mod_add_mod, add_assoc]
    congr 2
    have reduce := ((mod_modEq (c1 + first.length * c0 + weightedSum first) 255).add
      ((mod_modEq (c0 + octetSum first) 255).mul_left second.length)).add_right
        (weightedSum second)
    exact reduce.trans (congrArg (· % 255) (by ring))

/-! ## The check -/

variable {htons : UInt16 → UInt16} {buffer : Bytes}

theorem fletcherChecksum_validate (buffer : Bytes) :
    fletcherChecksum htons buffer fletcherChecksumValidate =
      some (buffer, UInt16.ofNat (weightedSum buffer % 255 * 256 + octetSum buffer % 255)) := by
  rw [fletcherChecksum, fletcherSums_eq buffer (by decide) (by decide)]
  simp

theorem validates_iff : fletcherChecksum htons buffer fletcherChecksumValidate = some (buffer, 0) ↔
    255 ∣ octetSum buffer ∧ 255 ∣ weightedSum buffer := by
  rw [fletcherChecksum_validate, Option.some.injEq, Prod.mk.injEq, ← UInt16.toNat_inj,
    UInt16.toNat_ofNat']
  simp only [true_and, UInt16.toNat_zero]
  omega

theorem checkOctets_solve {offset more c0 c1 : Nat} (short : offset + more + 1 < 65535)
    (reduced : c0 < 255) (reduced1 : c1 < 255) {x y : Int}
    (solved : checkOctets (offset + more + 1) offset c0 c1 = (x, y)) :
    255 ∣ c0 + (UInt8.ofInt x).toNat + (UInt8.ofInt y).toNat ∧
      255 ∣ c1 + (more + 1) * (UInt8.ofInt x).toNat + more * (UInt8.ofInt y).toNat := by
  have product : more * c0 ≤ 65534 * 254 := Nat.mul_le_mul (by omega) (by omega)
  have behind : ((offset + more + 1 : Nat) - offset - 1 : Int) = more := by omega
  unfold checkOctets at solved
  rw [behind, ← cast_mul, Int.bmod_eq_of_le (by omega) (by omega)] at solved
  have division := Int.mul_tdiv_add_tmod ((more * c0 : Nat) - c1) 255
  have below := Int.tmod_lt_of_pos ((more * c0 : Nat) - c1) (show 0 < (255 : Int) by decide)
  have above := Int.lt_tmod_of_pos ((more * c0 : Nat) - c1) (show 0 < (255 : Int) by decide)
  rcases Prod.mk.inj solved with ⟨isX, isY⟩
  have octets : (UInt8.ofInt x).toNat = x ∧ (UInt8.ofInt y).toNat = y := by
    rw [UInt8.ofInt, UInt8.ofInt, UInt8.toNat_ofNat', UInt8.toNat_ofNat']
    split_ifs at isX isY <;> omega
  generalize (UInt8.ofInt x).toNat = first at octets ⊢
  generalize (UInt8.ofInt y).toNat = second at octets ⊢
  have sum : first + second + c0 = 510 ∨ first + second + c0 = 255 := by
    split_ifs at isY <;> omega
  have regrouped : c1 + (more + 1) * first + more * second + more * c0 =
      c1 + first + more * (first + second + c0) := by ring
  constructor
  · omega
  · rcases sum with sum | sum <;> rw [sum] at regrouped <;> split_ifs at isX <;> omega

/-- Writing a checksum overflows no sum and makes the buffer valid, and a valid buffer is no longer
one after the change of an octet that is a change modulo 255. -/
theorem fletcherChecksum_sound (htons : UInt16 → UInt16) (buffer : Bytes) :
    (∀ offset, 2 < buffer.length → buffer.length < 65535 → offset < buffer.length - 1 →
      ∃ stored checksum, fletcherChecksum htons buffer offset = some (stored, checksum) ∧
        (∀ index, index ≠ offset → index ≠ offset + 1 → stored[index]? = buffer[index]?) ∧
        fletcherChecksum htons stored fletcherChecksumValidate = some (stored, 0)) ∧
    (fletcherChecksum htons buffer fletcherChecksumValidate = some (buffer, 0) →
      ∀ index octet other, buffer[index]? = some octet → octet.toNat % 255 ≠ other.toNat % 255 →
        ∃ checksum, fletcherChecksum htons (buffer.set index other) fletcherChecksumValidate =
          some (buffer.set index other, checksum) ∧ checksum ≠ 0) := by
  constructor
  · intro offset _ short inside
    rw [fletcherChecksum, if_neg (by rw [fletcherChecksumValidate]; omega), if_pos inside]
    dsimp only
    rw [fletcherSums_eq _ (by decide) (by decide)]
    refine ⟨_, _, rfl, ?_, ?_⟩
    · intro index notFirst notSecond
      simp only [getElem?_set_ne notSecond.symm, getElem?_set_ne notFirst.symm]
    · rcases Nat.exists_eq_add_of_lt (show offset < buffer.length by omega) with ⟨more, size⟩
      have zeroed : ((buffer.set offset 0).set (offset + 1) 0).length = offset + more + 1 := by
        rw [length_set, length_set, size]
      have first : ((buffer.set offset 0).set (offset + 1) 0)[offset]? = some 0 := by
        rw [getElem?_set_ne (by omega), getElem?_set_self (by omega)]
      have second (octet : UInt8) :
          (((buffer.set offset 0).set (offset + 1) 0).set offset octet)[offset + 1]? = some 0 := by
        rw [getElem?_set_ne (by omega), getElem?_set_self (by rw [length_set]; omega)]
      rw [validates_iff, zeroed]
      generalize solved : checkOctets _ _ _ _ = octets
      rcases octets with ⟨x, y⟩
      dsimp only
      have written := sums_set first (.ofInt x)
      have writtenBehind := sums_set (second (.ofInt x)) (.ofInt y)
      rw [length_set, zeroed, show offset + more + 1 - (offset + 1) = more by omega]
        at writtenBehind
      rw [zeroed, show offset + more + 1 - offset = more + 1 by omega] at written
      have sums := checkOctets_solve (by omega) (Nat.mod_lt _ (by decide))
        (Nat.mod_lt _ (by decide)) solved
      simp only [UInt8.toNat_zero] at written writtenBehind
      omega
  · intro valid index octet other found different
    refine ⟨_, fletcherChecksum_validate _, fun zero => ?_⟩
    have changed := @fletcherChecksum_validate htons (buffer.set index other)
    rw [zero, validates_iff] at changed
    rw [validates_iff] at valid
    have sums := (sums_set found other).1
    omega

theorem fletcherChecksum_three : ∃ stored checksum,
    fletcherChecksum id [1, 2, 3] 0 = some (stored, checksum) ∧
      fletcherChecksum id stored fletcherChecksumValidate = some (stored, 0) := by
  rcases (fletcherChecksum_sound id [1, 2, 3]).1 0 (by decide) (by decide) (by decide) with
    ⟨stored, checksum, written, _, valid⟩
  exact ⟨stored, checksum, written, valid⟩

end Quagga.Lib
