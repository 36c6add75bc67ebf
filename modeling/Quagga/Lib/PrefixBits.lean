import Quagga.Bgp.PeerFilter
import Quagga.Foundation.PrefixTree

/-!
# Prefixes as bit strings

A prefix stands for the first `prefixlen` bits of its address. Comparing prefixes, taking a bit
of one and computing the part that two have in common are operations on octets, with masks and
shifts. Here they are operations on bit strings.
-/

namespace Quagga.Lib

open Foundation Bgp List Nat

def prefixBit (address : Bytes) (prefixlen : Nat) : Bool :=
  (address.getD (prefixlen / 8) 0 >>> UInt8.ofNat (7 - prefixlen % 8)) &&& 1 = 1

/-- The bits of a network, without those of hosts in it. -/
def networkBits (network : Prefix) : List Bool :=
  (List.range network.prefixlen).map (prefixBit network.address)

@[simp] theorem length_networkBits (network : Prefix) :
    (networkBits network).length = network.prefixlen := by
  simp [networkBits]

/-! ## Octets -/

def octetBit (octet : UInt8) (index : Nat) : Bool := octet.toNat.testBit (7 - index)

theorem shift_and_one (octet : UInt8) {shift : Nat} (small : shift < 8) :
    ((octet >>> UInt8.ofNat shift) &&& 1 = 1) ↔ octet.toNat.testBit shift = true := by
  rw [← UInt8.toNat_inj, UInt8.toNat_and, UInt8.toNat_shiftRight, testBit_eq_decide_div_mod_eq]
  have same : (UInt8.ofNat shift).toNat % 8 = shift := by
    simp
    omega
  rw [same]
  simp [shiftRight_eq_div_pow]

theorem prefixBit_eq (address : Bytes) (index : Nat) :
    prefixBit address index = octetBit (address.getD (index / 8) 0) (index % 8) := by
  unfold prefixBit octetBit
  rw [Bool.eq_iff_iff, decide_eq_true_eq]
  exact shift_and_one _ (by omega)

theorem octetBit_xor (octet other : UInt8) (index : Nat) :
    octetBit (octet ^^^ other) index = (octetBit octet index ^^ octetBit other index) := by
  simp [octetBit]

theorem octetBit_and (octet other : UInt8) (index : Nat) :
    octetBit (octet &&& other) index = (octetBit octet index && octetBit other index) := by
  simp [octetBit]

theorem octetBit_maskbit {shift index : Nat} (small : shift ≤ 8) (inOctet : index < 8) :
    octetBit (maskbit shift) index = decide (index < shift) := by
  interval_cases shift <;> interval_cases index <;> decide

theorem eq_zero_iff_bits (octet : UInt8) :
    octet = 0 ↔ ∀ index < 8, octetBit octet index = false := by
  refine ⟨?_, ?_⟩
  · rintro rfl index _
    simp [octetBit]
  · intro none
    apply UInt8.toBitVec_inj.mp
    ext index inOctet
    have bit := none (7 - index) (by omega)
    rw [octetBit, show 7 - (7 - index) = index by omega] at bit
    exact bit.trans (by simp)

theorem eq_iff_bits (octet other : UInt8) :
    octet = other ↔ ∀ index < 8, octetBit octet index = octetBit other index := by
  rw [← UInt8.xor_eq_zero_iff, eq_zero_iff_bits]
  simp [octetBit_xor]

theorem and_eq_zero_iff_bits {mask : UInt8} {set : Nat → Prop} [DecidablePred set]
    (bits : ∀ index < 8, octetBit mask index = decide (set index)) (octet : UInt8) :
    mask &&& octet = 0 ↔ ∀ index < 8, set index → octetBit octet index = false := by
  rw [eq_zero_iff_bits]
  refine forall₂_congr fun index inOctet => ?_
  rw [octetBit_and, bits index inOctet]
  by_cases isSet : set index <;> simp

theorem maskbit_and_xor_eq_zero (octet other : UInt8) {shift : Nat} (small : shift ≤ 8) :
    maskbit shift &&& (octet ^^^ other) = 0 ↔
      ∀ index < shift, octetBit octet index = octetBit other index := by
  rw [and_eq_zero_iff_bits fun _ => octetBit_maskbit small]
  simp only [octetBit_xor, bne_eq_false_iff_eq]
  exact ⟨fun agree index inMask => agree index (by omega) inMask,
    fun agree index _ inMask => agree index inMask⟩

/-! ## Comparing prefixes -/

theorem bits_agree_iff (first second : Bytes) (count : Nat) :
    (∀ index < count, prefixBit first index = prefixBit second index) ↔
      (∀ octet < count / 8, first.getD octet 0 = second.getD octet 0) ∧
        ∀ index < count % 8, octetBit (first.getD (count / 8) 0) index =
          octetBit (second.getD (count / 8) 0) index := by
  simp only [prefixBit_eq]
  refine ⟨?_, ?_⟩
  · intro agree
    refine ⟨?_, ?_⟩
    · intro octet whole
      rw [eq_iff_bits]
      intro index inOctet
      have bit := agree (octet * 8 + index) (by omega)
      rw [show (octet * 8 + index) / 8 = octet by omega,
        show (octet * 8 + index) % 8 = index by omega] at bit
      exact bit
    · intro index inRest
      have bit := agree (count / 8 * 8 + index) (by omega)
      rw [show (count / 8 * 8 + index) / 8 = count / 8 by omega,
        show (count / 8 * 8 + index) % 8 = index by omega] at bit
      exact bit
  · rintro ⟨octets, rest⟩ index inCount
    by_cases whole : index / 8 < count / 8
    · rw [octets _ whole]
    · rw [show index / 8 = count / 8 by omega]
      exact rest _ (by omega)

/-- A prefix of the family, whatever the bits of its host are. -/
structure IsOf (afi : Afi) (network : Prefix) : Prop where
  family : network.family = afi
  octets : network.address.length = afi.addressOctets
  bounded : network.prefixlen ≤ afi.addressOctets * 8

theorem take_eq_iff {first second : Bytes} (sameLength : first.length = second.length)
    (count : Nat) :
    first.take count = second.take count ↔
      ∀ octet < count, first.getD octet 0 = second.getD octet 0 := by
  refine ⟨?_, ?_⟩
  · intro same octet inTake
    have octets := congrArg (·[octet]?) same
    simp only [getElem?_take_of_lt inTake] at octets
    rw [getD_eq_getElem?_getD, octets, getD_eq_getElem?_getD]
  · intro agree
    apply ext_getElem?
    intro index
    by_cases inTake : index < count
    · grind
    · grind

theorem networkBits_isPrefix (network other : Prefix) :
    networkBits network <+: networkBits other ↔ network.prefixlen ≤ other.prefixlen ∧
      ∀ index < network.prefixlen,
        prefixBit network.address index = prefixBit other.address index := by
  refine ⟨?_, ?_⟩
  · intro begins
    have shorter := begins.length_le
    rw [length_networkBits, length_networkBits] at shorter
    refine ⟨shorter, ?_⟩
    intro index inNetwork
    have same := begins.getElem (i := index) (by simpa using inNetwork)
    simpa [networkBits] using same
  · rintro ⟨shorter, agree⟩
    rw [prefix_iff_getElem?]
    intro index inNetwork
    rw [length_networkBits] at inNetwork
    have inOther : index < other.prefixlen := by omega
    simp [networkBits, inOther, agree index inNetwork]

theorem prefixBit_of_branch {network other : Prefix} {side : Bool}
    (begins : networkBits network ++ [side] <+: networkBits other) :
    prefixBit other.address network.prefixlen = side := by
  have same := begins.getElem (i := network.prefixlen) (by simp)
  simpa [networkBits] using same.symm

theorem prefixMatch_iff {afi : Afi} {network other : Prefix} (isOf : IsOf afi network)
    (otherIsOf : IsOf afi other) :
    prefixMatch network other = true ↔ networkBits network <+: networkBits other := by
  have sameLength := isOf.octets.trans otherIsOf.octets.symm
  rw [networkBits_isPrefix, bits_agree_iff, ← take_eq_iff sameLength]
  unfold prefixMatch
  simp only [Bool.and_eq_true, Bool.or_eq_true, decide_eq_true_eq]
  rw [maskbit_and_xor_eq_zero _ _ (by omega), and_assoc]
  apply and_congr_right
  intro _
  rw [and_comm]
  apply and_congr_right
  intro _
  refine ⟨?_, .inr⟩
  rintro (whole | masked)
  · intro index inRest
    omega
  · exact masked

/-! ## The common part of two prefixes -/

/-- The first loop of `route_common`. -/
def commonOctets : Nat → Bytes → Bytes → Nat
  | limit + 1, octet :: octets, other :: others =>
    if octet = other then commonOctets limit octets others + 1 else 0
  | _, _, _ => 0

/-- The second loop of `route_common`, while there is room for more bits. -/
def commonBits (diff : UInt8) : Nat → UInt8 → Nat
  | 0, _ => 0
  | room + 1, mask => if mask &&& diff = 0 then commonBits diff room (mask >>> 1) + 1 else 0

def routeCommon (node network : Prefix) : Prefix :=
  let octets := commonOctets (network.prefixlen / 8) node.address network.address
  let clear := fun kept : Bytes =>
    kept ++ List.replicate (network.address.length - kept.length) 0
  if octets * 8 = network.prefixlen then
    ⟨network.family, octets * 8, clear (node.address.take octets)⟩
  else
    let octet := node.address.getD octets 0
    let prefixlen := octets * 8 +
      commonBits (octet ^^^ network.address.getD octets 0) (network.prefixlen - octets * 8) 0x80
    ⟨network.family, prefixlen,
      clear (node.address.take octets ++ [octet &&& maskbit (prefixlen % 8)])⟩

theorem commonOctets_spec (limit : Nat) (first second : Bytes) (inFirst : limit ≤ first.length)
    (inSecond : limit ≤ second.length) :
    commonOctets limit first second ≤ limit ∧
      (∀ octet < commonOctets limit first second, first.getD octet 0 = second.getD octet 0) ∧
      (commonOctets limit first second < limit →
        first.getD (commonOctets limit first second) 0 ≠
          second.getD (commonOctets limit first second) 0) := by
  induction limit generalizing first second with
  | zero => simp [commonOctets]
  | succ limit induction =>
    cases first with
    | nil => simp at inFirst
    | cons octet octets =>
      cases second with
      | nil => simp at inSecond
      | cons other others =>
        simp only [length_cons, add_le_add_iff_right] at inFirst inSecond
        rcases induction octets others inFirst inSecond with ⟨bound, agree, differ⟩
        rw [commonOctets]
        split_ifs with same
        · refine ⟨by omega, ?_, ?_⟩
          · intro index inCommon
            cases index with
            | zero => simpa using same
            | succ index => simpa using agree index (by omega)
          · intro inLimit
            simpa using differ (by omega)
        · refine ⟨by omega, by simp, ?_⟩
          intro _
          simpa using same

def maskAt : Nat → UInt8
  | 0 => 0x80
  | index + 1 => maskAt index >>> 1

theorem maskAt_and_eq_zero (diff : UInt8) {index : Nat} (inOctet : index < 8) :
    maskAt index &&& diff = 0 ↔ octetBit diff index = false := by
  have single : ∀ other < 8, octetBit (maskAt index) other = decide (other = index) := by
    intro other otherInOctet
    interval_cases index <;> interval_cases other <;> decide
  rw [and_eq_zero_iff_bits single]
  exact ⟨fun clear => clear index inOctet rfl, fun clear other _ same => same ▸ clear⟩

theorem commonBits_spec (diff : UInt8) (room start : Nat) :
    commonBits diff room (maskAt start) ≤ room ∧
      (∀ index < commonBits diff room (maskAt start), maskAt (start + index) &&& diff = 0) ∧
      (commonBits diff room (maskAt start) < room →
        maskAt (start + commonBits diff room (maskAt start)) &&& diff ≠ 0) := by
  induction room generalizing start with
  | zero => simp [commonBits]
  | succ room induction =>
    rcases induction (start + 1) with ⟨bound, clear, differ⟩
    rw [commonBits]
    split_ifs with masked
    · refine ⟨by exact succ_le_succ bound, ?_, ?_⟩
      · intro index inCommon
        cases index with
        | zero => exact masked
        | succ index =>
          have bit := clear index (by exact lt_of_succ_lt_succ inCommon)
          rw [show start + (index + 1) = start + 1 + index by omega]
          exact bit
      · intro inRoom
        have bit := differ (by exact lt_of_succ_lt_succ inRoom)
        rw [show ∀ count, start + (count + 1) = start + 1 + count by omega]
        exact bit
    · refine ⟨by omega, by simp, ?_⟩
      intro _
      exact masked

/-- What `route_common` computes, for prefixes of one family. -/
structure IsCommon (afi : Afi) (node network common : Prefix) : Prop where
  isOf : IsOf afi common
  shorter : common.prefixlen ≤ network.prefixlen
  agree : ∀ index < common.prefixlen, prefixBit node.address index = prefixBit network.address index
  kept : ∀ index < common.prefixlen,
    prefixBit common.address index = prefixBit network.address index
  differ : common.prefixlen < network.prefixlen →
    prefixBit node.address common.prefixlen ≠ prefixBit network.address common.prefixlen

theorem getD_append_replicate (kept : Bytes) (count index : Nat) :
    (kept ++ List.replicate count 0).getD index 0 = kept.getD index 0 := by
  simp only [getD_eq_getElem?_getD]
  by_cases inKept : index < kept.length
  · rw [getElem?_append_left inKept]
  · rw [getElem?_append_right (by omega), getElem?_eq_none (by omega : kept.length ≤ index)]
    by_cases inRest : index - kept.length < count
    · simp
    · simp

variable {node network : Prefix}

theorem isCommon_of {afi : Afi} (isOf : IsOf afi network) {count : Nat} (more : Nat) (last : Bytes)
    (inNode : count ≤ node.address.length)
    (same : ∀ octet < count, node.address.getD octet 0 = network.address.getD octet 0)
    (small : more < 8) (shorter : count * 8 + more ≤ network.prefixlen)
    (fits : count + last.length ≤ network.address.length)
    (agree : ∀ index < more, octetBit (node.address.getD count 0) index =
      octetBit (network.address.getD count 0) index)
    (kept : ∀ index < more, octetBit (last.getD 0 0) index =
      octetBit (network.address.getD count 0) index)
    (differ : count * 8 + more < network.prefixlen →
      octetBit (node.address.getD count 0) more ≠ octetBit (network.address.getD count 0) more) :
    IsCommon afi node network ⟨network.family, count * 8 + more,
      (node.address.take count ++ last) ++
        List.replicate (network.address.length - (node.address.take count ++ last).length) 0⟩ := by
  have quotient : (count * 8 + more) / 8 = count := by omega
  have remainder : (count * 8 + more) % 8 = more := by omega
  have taken : (node.address.take count).length = count := by
    rw [length_take]
    omega
  refine ⟨⟨isOf.family, ?_, le_trans shorter isOf.bounded⟩, shorter, ?_, ?_, ?_⟩
  · rw [← isOf.octets]
    simp only [length_append, length_replicate]
    omega
  · rw [bits_agree_iff, quotient, remainder]
    exact ⟨same, agree⟩
  · rw [bits_agree_iff, quotient, remainder]
    simp only [getD_append_replicate]
    refine ⟨?_, ?_⟩
    · intro octet inCount
      rw [← same octet inCount]
      simp only [getD_eq_getElem?_getD]
      rw [getElem?_append_left (by omega), getElem?_take_of_lt inCount]
    · have next : (node.address.take count ++ last).getD count 0 = last.getD 0 0 := by
        simp [getElem?_append_right, taken]
      rw [next]
      exact kept
  · intro longer
    rw [prefixBit_eq, prefixBit_eq, quotient, remainder]
    exact differ longer

theorem routeCommon_isCommon {afi : Afi} (nodeIsOf : IsOf afi node) (isOf : IsOf afi network) :
    IsCommon afi node network (routeCommon node network) := by
  have octets := isOf.octets
  have nodeOctets := nodeIsOf.octets
  have bounded := isOf.bounded
  rcases commonOctets_spec (network.prefixlen / 8) node.address network.address (by omega)
    (by omega) with ⟨within, same, differ⟩
  unfold routeCommon
  generalize commonOctets (network.prefixlen / 8) node.address network.address = count
    at within same differ ⊢
  dsimp only
  split_ifs with whole
  · have common := isCommon_of isOf 0 [] (by omega) same (by omega) (by omega)
      (by simp; omega) (by omega) (by omega) (by omega)
    simpa using common
  · rcases commonBits_spec (node.address.getD count 0 ^^^ network.address.getD count 0)
      (network.prefixlen - count * 8) 0 with ⟨room, clear, differs⟩
    rw [show maskAt 0 = 0x80 from rfl] at room clear differs
    generalize commonBits (node.address.getD count 0 ^^^ network.address.getD count 0)
      (network.prefixlen - count * 8) 0x80 = more at room clear differs ⊢
    simp only [zero_add] at clear differs
    -- The loop is left in the octet where the addresses differ, or where the prefix ends.
    have small : more < 8 := by
      by_contra large
      have equal : node.address.getD count 0 = network.address.getD count 0 := by
        rw [← UInt8.xor_eq_zero_iff, eq_zero_iff_bits]
        intro index inOctet
        exact (maskAt_and_eq_zero _ inOctet).mp (clear index (by omega))
      have last : ¬count < network.prefixlen / 8 := fun inLimit => differ inLimit equal
      omega
    have quotient : (count * 8 + more) % 8 = more := by omega
    have agree : ∀ index < more, octetBit (node.address.getD count 0) index =
        octetBit (network.address.getD count 0) index := by
      intro index inMore
      have bit := (maskAt_and_eq_zero _ (by omega)).mp (clear index inMore)
      simpa [octetBit_xor] using bit
    rw [quotient]
    apply isCommon_of isOf more _ (by omega) same small (by omega)
    · simp
      omega
    · exact agree
    · intro index inMore
      rw [← agree index inMore]
      simp [octetBit_and, octetBit_maskbit (by omega : more ≤ 8) (by omega : index < 8), inMore]
    · intro longer equal
      apply differs (by omega)
      rw [maskAt_and_eq_zero _ small, octetBit_xor, equal, Bool.xor_self]

theorem exists_parting {afi : Afi} (nodeIsOf : IsOf afi node) (isOf : IsOf afi network)
    (apart : ¬networkBits node <+: networkBits network) :
    ∃ side, networkBits (routeCommon node network) ++ [side] <+: networkBits node ∧
      ((routeCommon node network).prefixlen = network.prefixlen ∧
          networkBits (routeCommon node network) = networkBits network ∨
        (routeCommon node network).prefixlen ≠ network.prefixlen ∧
          networkBits (routeCommon node network) ++ [!side] <+: networkBits network) := by
  have common := routeCommon_isCommon nodeIsOf isOf
  generalize routeCommon node network = shared at common ⊢
  have begins : networkBits shared <+: networkBits network :=
    (networkBits_isPrefix shared network).mpr ⟨common.shorter, common.kept⟩
  have shorter : shared.prefixlen < node.prefixlen := by
    by_contra longer
    apply apart
    rw [networkBits_isPrefix]
    have within := common.shorter
    exact ⟨by omega, fun index inNode => common.agree index (by omega)⟩
  have nodeBegins : networkBits shared <+: networkBits node := by
    rw [networkBits_isPrefix]
    refine ⟨le_of_lt shorter, ?_⟩
    intro index inShared
    rw [common.kept index inShared, common.agree index inShared]
  have nodeDiffers : networkBits shared ≠ networkBits node := by
    intro same
    have lengths := congrArg List.length same
    simp only [length_networkBits] at lengths
    omega
  rcases exists_branch nodeBegins nodeDiffers with ⟨side, branch⟩
  refine ⟨side, branch, ?_⟩
  by_cases whole : shared.prefixlen = network.prefixlen
  · exact .inl ⟨whole, begins.eq_of_length (by simpa using whole)⟩
  · have differs : networkBits shared ≠ networkBits network := by
      intro same
      apply whole
      simpa using congrArg List.length same
    rcases exists_branch begins differs with ⟨other, otherBranch⟩
    have sides := common.differ (lt_of_le_of_ne common.shorter whole)
    rw [prefixBit_of_branch branch, prefixBit_of_branch otherBranch] at sides
    have opposite : other = !side := by
      cases side <;> cases other <;> simp_all
    exact .inr ⟨whole, opposite ▸ otherBranch⟩

end Quagga.Lib
