import Mathlib
import Quagga.Foundation.Wire

/-!
# Numbers as text

Decimal integers as octets, and the reader that skips white space, takes a sign and
then as many digits as there are.
-/

namespace Quagga.Foundation

open List

def octet (character : Char) : UInt8 := UInt8.ofNat character.toNat

def character (octet : UInt8) : Char := Char.ofNat octet.toNat

def ascii (text : String) : Bytes := text.toList.map octet

theorem character_octet {symbol : Char} (small : symbol.toNat < 256) :
    character (octet symbol) = symbol := by
  have same : (octet symbol).toNat = symbol.toNat := by
    simp only [octet, UInt8.toNat_ofNat']
    omega
  rw [character, same, Char.ofNat_toNat]

/-- An integer in decimal, with a minus sign if it is negative and no leading zeros. -/
def decimal (value : Int) : Bytes :=
  let digits := (Nat.toDigits 10 value.natAbs).map octet
  if value < 0 then octet '-' :: digits else digits

def isSpace (symbol : UInt8) : Bool := symbol = 32 || (9 ≤ symbol && symbol ≤ 13)

/-- The value of the leading digits; `none` if there is none. -/
def readDigits (text : Bytes) : Option Nat :=
  let digits := (text.map character).takeWhile Char.isDigit
  if digits = [] then none else some (Nat.ofDigitChars 10 digits 0)

/-- The integer at the start of a text, ignoring what follows its digits. -/
def readInteger (text : Bytes) : Option Int :=
  match text.dropWhile isSpace with
  | [] => none
  | head :: tail =>
    if head = octet '-' then (readDigits tail).map fun magnitude : Nat => -(magnitude : Int)
    else if head = octet '+' then (readDigits tail).map fun magnitude : Nat => (magnitude : Int)
    else (readDigits (head :: tail)).map fun magnitude : Nat => (magnitude : Int)

theorem isDigit_toNat {symbol : Char} (digit : symbol.isDigit = true) :
    48 ≤ symbol.toNat ∧ symbol.toNat ≤ 57 := by
  simp only [Char.isDigit, Bool.and_eq_true, decide_eq_true_eq, ge_iff_le] at digit
  exact digit

theorem toDigits_isDigit (value : Nat) : ∀ symbol ∈ Nat.toDigits 10 value, symbol.isDigit = true :=
  fun _ member => Nat.isDigit_of_mem_toDigits (by decide) (by decide) member

private theorem characters_of_digits {digits : List Char}
    (allDigits : ∀ symbol ∈ digits, symbol.isDigit = true) :
    (digits.map octet).map character = digits := by
  rw [map_map]
  refine (map_congr_left ?_).trans (map_id digits)
  intro symbol member
  have bounds := isDigit_toNat (allDigits symbol member)
  exact character_octet (by omega)

theorem readDigits_toDigits (value : Nat) :
    readDigits ((Nat.toDigits 10 value).map octet) = some value := by
  have allDigits := toDigits_isDigit value
  have whole : (Nat.toDigits 10 value).takeWhile Char.isDigit = Nat.toDigits 10 value :=
    takeWhile_eq_self_iff.mpr allDigits
  simp [readDigits, characters_of_digits allDigits, whole]

private theorem octet_of_digit {symbol : Char} (digit : symbol.isDigit = true) :
    isSpace (octet symbol) = false ∧ octet symbol ≠ octet '-' ∧ octet symbol ≠ octet '+' := by
  have bounds := isDigit_toNat digit
  have value : (octet symbol).toNat = symbol.toNat := by
    simp only [octet, UInt8.toNat_ofNat']
    omega
  refine ⟨?_, ?_, ?_⟩
  · simp only [isSpace, ← UInt8.toNat_inj, UInt8.le_iff_toNat_le]
    simp
    omega
  all_goals
    intro equal
    have := congrArg UInt8.toNat equal
    rw [value] at this
    simp [octet] at this
    omega

@[simp] theorem readInteger_decimal (value : Int) : readInteger (decimal value) = some value := by
  have digits := readDigits_toDigits value.natAbs
  by_cases negative : value < 0
  · have minus : isSpace (octet '-') = false := by decide
    simp only [readInteger, decimal, negative, if_true, dropWhile_cons, minus,
      Bool.false_eq_true, if_false, digits, Option.map_some, Option.some.injEq]
    omega
  · cases shape : Nat.toDigits 10 value.natAbs with
    | nil => exact absurd shape Nat.toDigits_ne_nil
    | cons head tail =>
      have facts := octet_of_digit (toDigits_isDigit value.natAbs head (by simp [shape]))
      rw [shape, map_cons] at digits
      simp only [readInteger, decimal, negative, if_false, shape, map_cons,
        dropWhile_cons, facts, Bool.false_eq_true, digits, Option.map_some, Option.some.injEq]
      omega

/-! ## Dotted quads -/

def quad (address : UInt32) : List Nat :=
  [address.toNat / 2 ^ 24, address.toNat / 2 ^ 16 % 2 ^ 8, address.toNat / 2 ^ 8 % 2 ^ 8,
    address.toNat % 2 ^ 8]

def inetNtop (address : UInt32) : Bytes :=
  [octet '.'].intercalate ((quad address).map fun part : Nat => decimal part)

/-- An octet in decimal, without leading zeros. -/
def readOctet (text : Bytes) : Option Nat :=
  match readDigits text with
  | some value => if value < 256 ∧ text = decimal value then some value else none
  | none => none

def inetPton (text : Bytes) : Option UInt32 :=
  match (text.splitOn (octet '.')).mapM readOctet with
  | some [first, second, third, fourth] =>
    some (UInt32.ofNat (2 ^ 24 * first + 2 ^ 16 * second + 2 ^ 8 * third + fourth))
  | _ => none

theorem decimal_natCast (value : Nat) : decimal value = (Nat.toDigits 10 value).map octet := by
  simp [decimal]

theorem readOctet_decimal {value : Nat} (small : value < 256) :
    readOctet (decimal value) = some value := by
  have digits : readDigits (decimal value) = some value := by
    rw [decimal_natCast, readDigits_toDigits]
  simp [readOctet, digits, small]

theorem notMem_decimal {mark : UInt8} (below : mark < octet '0') (value : Nat) :
    mark ∉ decimal value := by
  intro member
  rcases mem_map.mp member with ⟨symbol, digit, equal⟩
  have bounds := isDigit_toNat (toDigits_isDigit value symbol digit)
  have same := congrArg UInt8.toNat equal
  simp only [octet, UInt8.toNat_ofNat', UInt8.lt_iff_toNat_lt] at same below
  simp at below
  omega

theorem quad_lt (address : UInt32) : ∀ part ∈ quad address, part < 256 := by
  have bound := address.toNat_lt
  simp only [quad, mem_cons, not_mem_nil, or_false]
  omega

private theorem mapM_readOctet {parts : List Nat} (small : ∀ part ∈ parts, part < 256) :
    (parts.map fun part : Nat => decimal part).mapM readOctet = some parts := by
  induction parts with
  | nil => rfl
  | cons head tail induction =>
    have first := readOctet_decimal (small head (by simp))
    have rest := induction (fun part member => small part (by simp [member]))
    simp [first, rest]

@[simp] theorem inetPton_inetNtop (address : UInt32) :
    inetPton (inetNtop address) = some address := by
  have separated : (inetNtop address).splitOn (octet '.') =
      (quad address).map fun part : Nat => decimal part := by
    apply splitOn_intercalate
    · intro text member
      rcases mem_map.mp member with ⟨part, _, rfl⟩
      exact notMem_decimal (by decide) part
    · simp [quad]
  rw [inetPton, separated, mapM_readOctet (quad_lt address)]
  simp only [quad, Option.some.injEq, ← UInt32.toNat_inj]
  have bound := address.toNat_lt
  simp
  omega

theorem slash_notMem_inetNtop (address : UInt32) : octet '/' ∉ inetNtop address := by
  have digits := fun part : Nat => notMem_decimal (by decide : octet '/' < octet '0') part
  have dot : octet '/' ≠ octet '.' := by decide
  simp only [inetNtop, quad, intercalate, map_cons, map_nil, intersperse_cons_cons,
    intersperse_singleton, mem_flatten, mem_cons, exists_eq_or_imp, not_mem_nil, digits, dot]
  simp

theorem inetNtop_injective : Function.Injective inetNtop := by
  intro first second equal
  have read := congrArg inetPton equal
  simpa using read

end Quagga.Foundation
