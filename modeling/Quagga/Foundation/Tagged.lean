import Quagga.Foundation.Octets
import Quagga.Foundation.Records

/-!
# Tagged records

Records of a tag, a length in one octet and as many octets.
-/

namespace Quagga.Foundation

open List

/-- The length is cut to one octet, as it is in a program that writes it. -/
def putTagged (record : UInt8 × Bytes) : Bytes :=
  record.1 :: UInt8.ofNat record.2.length :: record.2

def readTagged : Bytes → Option ((UInt8 × Bytes) × Bytes)
  | tag :: length :: octets =>
    if octets.length < length.toNat then none
    else some ((tag, octets.take length.toNat), octets.drop length.toNat)
  | _ => none

theorem readTagged_some {octets data rest : Bytes} {tag : UInt8}
    (result : readTagged octets = some ((tag, data), rest)) :
    ∃ length following, octets = tag :: length :: following ∧
      length.toNat ≤ following.length ∧ data = following.take length.toNat ∧
      rest = following.drop length.toNat := by
  match octets, result with
  | tag :: length :: following, result =>
    simp only [readTagged] at result
    split at result
    · cases result
    · rename_i fits
      cases result
      exact ⟨length, following, rfl, Nat.le_of_not_lt fits, rfl, rfl⟩

def taggedReader : RecordReader UInt8 (UInt8 × Bytes) where
  read := readTagged
  progress := by
    rintro input ⟨tag, data⟩ rest result
    rcases readTagged_some result with ⟨length, following, rfl, _, _, rfl⟩
    simp only [length_drop, length_cons]
    omega
  extends_input := by
    rintro input ⟨tag, data⟩ rest more result
    rcases readTagged_some result with ⟨length, following, rfl, enough, rfl, rfl⟩
    have fits : ¬ (following ++ more).length < length.toNat := by
      rw [length_append]
      omega
    simp only [cons_append, readTagged, if_neg fits,
      take_append_of_le_length enough, drop_append_of_le_length enough]

theorem length_putTagged (record : UInt8 × Bytes) :
    (putTagged record).length = record.2.length + 2 := by
  rfl

theorem readTagged_putTagged {record : UInt8 × Bytes} (short : record.2.length ≤ 255)
    (rest : Bytes) : readTagged (putTagged record ++ rest) = some (record, rest) := by
  have kept : (UInt8.ofNat record.2.length).toNat = record.2.length := by
    exact Nat.mod_eq_of_lt (by omega)
  have fits : ¬ (record.2 ++ rest).length < record.2.length := by
    rw [length_append]
    omega
  simp only [putTagged, cons_append, readTagged, kept, if_neg fits, take_left, drop_left]

theorem records_putTagged {records : List (UInt8 × Bytes)}
    (short : ∀ record ∈ records, record.2.length ≤ 255) :
    taggedReader.records (records.flatMap putTagged) = (records, true) := by
  apply RecordReader.records_flatMap
  intro record member
  exact readTagged_putTagged (short record member)

end Quagga.Foundation
