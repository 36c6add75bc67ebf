import Quagga.Foundation.Wire
import Mathlib.Data.List.Induction
import Mathlib.Tactic.Ring

/-!
# Numbers in network order

Fixed-width numbers, the most significant octet first.
-/

namespace Quagga.Foundation

open List Nat

def bigEndian : Nat → Nat → Bytes
  | 0, _ => []
  | width + 1, value => UInt8.ofNat (value / 256 ^ width) :: bigEndian width value

def readBigEndian (octets : Bytes) : Nat :=
  octets.foldl (fun value octet => value * 256 + octet.toNat) 0

@[simp] theorem length_bigEndian (width value : Nat) : (bigEndian width value).length = width := by
  induction width with
  | zero => rfl
  | succ width induction => simp [bigEndian, induction]

private theorem foldl_bigEndian (width value start : Nat) :
    (bigEndian width value).foldl (fun value octet => value * 256 + octet.toNat) start =
      start * 256 ^ width + value % 256 ^ width := by
  induction width generalizing start with
  | zero => simp [bigEndian, mod_one]
  | succ width induction =>
    have split : value % 256 ^ (width + 1) =
        value % 256 ^ width + 256 ^ width * (value / 256 ^ width % 256) := by
      rw [pow_succ, mod_mul]
    simp only [bigEndian, foldl_cons, induction, UInt8.toNat_ofNat', split]
    ring

theorem readBigEndian_bigEndian {width value : Nat} (fits : value < 256 ^ width) :
    readBigEndian (bigEndian width value) = value := by
  rw [readBigEndian, foldl_bigEndian, Nat.mod_eq_of_lt fits]
  simp

theorem readBigEndian_lt (octets : Bytes) : readBigEndian octets < 256 ^ octets.length := by
  induction octets using List.reverseRecOn with
  | nil => simp [readBigEndian]
  | append_singleton octets last induction =>
    have bound := last.toNat_lt
    simp only [readBigEndian, foldl_append, foldl_cons, foldl_nil,
      length_append, length_singleton] at induction ⊢
    omega

theorem bigEndian_mod (width value : Nat) :
    bigEndian width (value % 256 ^ width) = bigEndian width value := by
  induction width generalizing value with
  | zero => rfl
  | succ width induction =>
    have first : value % 256 ^ (width + 1) / 256 ^ width = value / 256 ^ width % 256 := by
      rw [pow_succ, mod_mul_right_div_self]
    have rest : value % 256 ^ (width + 1) % 256 ^ width = value % 256 ^ width := by
      rw [pow_succ, mod_mul_right_mod]
    rw [bigEndian, bigEndian, first, ← induction (value % 256 ^ (width + 1)), rest, induction]
    simp [← UInt8.toNat_inj]

theorem readBigEndian_cons (octet : UInt8) (octets : Bytes) :
    readBigEndian (octet :: octets) = octet.toNat * 256 ^ octets.length + readBigEndian octets := by
  induction octets using List.reverseRecOn with
  | nil => simp [readBigEndian]
  | append_singleton octets last induction =>
    simp only [readBigEndian, foldl_append, foldl_cons, foldl_nil, length_append,
      length_singleton] at induction ⊢
    rw [induction]
    ring

theorem bigEndian_readBigEndian (octets : Bytes) :
    bigEndian octets.length (readBigEndian octets) = octets := by
  induction octets with
  | nil => rfl
  | cons octet octets induction =>
    have bound := readBigEndian_lt octets
    rw [length_cons, bigEndian, readBigEndian_cons, ← bigEndian_mod octets.length,
      Nat.add_comm (octet.toNat * _), Nat.add_mul_mod_self_right, Nat.mod_eq_of_lt bound,
      induction, Nat.add_mul_div_right _ _ (Nat.pow_pos (by decide)), Nat.div_eq_of_lt bound]
    simp

theorem readBigEndian_inj {octets other : Bytes} (sameLength : octets.length = other.length)
    (same : readBigEndian octets = readBigEndian other) : octets = other := by
  rw [← bigEndian_readBigEndian octets, ← bigEndian_readBigEndian other, sameLength, same]

theorem lt_iff_readBigEndian {octets other : Bytes} (sameLength : octets.length = other.length) :
    octets < other ↔ readBigEndian octets < readBigEndian other := by
  induction octets generalizing other with
  | nil => simp [length_eq_zero_iff.mp sameLength.symm]
  | cons octet octets induction =>
    rcases other with _ | ⟨first, rest⟩
    · cases sameLength
    · have sameRest : octets.length = rest.length := Nat.succ.inj sameLength
      have bound := readBigEndian_lt octets
      have restBound := readBigEndian_lt rest
      rw [cons_lt_cons_iff, induction sameRest, readBigEndian_cons, readBigEndian_cons, sameRest,
        UInt8.lt_iff_toNat_lt, ← UInt8.toNat_inj]
      rw [sameRest] at bound
      have step {low high : Nat} (less : low < high) :
          low * 256 ^ rest.length + 256 ^ rest.length ≤ high * 256 ^ rest.length := by
        rw [← succ_mul]
        exact mul_le_mul_right _ less
      rcases lt_trichotomy octet.toNat first.toNat with less | same | more
      · have ahead := step less
        omega
      · rw [same]
        omega
      · have behind := step more
        omega

end Quagga.Foundation
