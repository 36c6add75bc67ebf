import Quagga.Bgp.Fsm
import Quagga.Bgp.Nlri
import Quagga.Foundation.Strides

/-!
# The parser of a VPNv4 field

`bgp_nlri_parse_vpnv4` of `bgp_mplsvpn.c`. The field is the memory below `lim`, and nothing but its
own tests keeps the parser from reading what lies behind.
-/

namespace Quagga.Bgp

open Foundation List Nat

/-- What `bgp_update` gets of an entry, or `bgp_withdraw` if there are no attributes. -/
structure VpnCall where
  withdraw : Bool
  tag : Bytes
  prd : Bytes
  prefixlen : Nat
  octets : Bytes
deriving Repr, DecidableEq

structure VpnParse where
  ret : Int
  calls : List VpnCall
  /-- Start and end of every piece of memory that is read. -/
  reads : List (Nat × Nat)
deriving Repr, DecidableEq

section

variable (stream : Nat → UInt8) (withdraw : Bool) (lim : Nat)

def copyOctets (pnt size : Nat) : Bytes := (range size).map fun offset => stream (pnt + offset)

def decodeRdType (pnt : Nat) : Nat := readBigEndian (copyOctets stream pnt 2)

/-- The type of the distinguisher is `RD_TYPE_AS` or `RD_TYPE_IP`. -/
def KnownRd (entry : Nat) : Prop := decodeRdType stream (entry + 4) ≤ 1

instance (entry : Nat) : Decidable (KnownRd stream entry) := Nat.decLe _ _

def vpnCall (entry : Nat) : VpnCall where
  withdraw := withdraw
  tag := copyOctets stream (entry + 1) 3
  prd := copyOctets stream (entry + 4) 8
  prefixlen := (stream entry).toNat - 88
  octets := copyOctets stream (entry + 12) (psize (stream entry).toNat - 11)

def parseVpnEntries : Nat → Nat → VpnParse
  | 0, pnt => ⟨if pnt = lim then 0 else -1, [], []⟩
  | fuel + 1, pnt =>
    if pnt < lim then
      let psize := psize (stream pnt).toNat
      if (stream pnt).toNat < 88 then ⟨-1, [], [(pnt, pnt + 1)]⟩
      -- The label and the distinguisher are decoded, and the prefix is copied, before the size of
      -- the entry is compared with what is left of the field.
      else if ¬ KnownRd stream pnt then ⟨-1, [], [(pnt, pnt + 1), (pnt + 1, pnt + 12)]⟩
      else
        let reads := [(pnt, pnt + 1), (pnt + 1, pnt + 12), (pnt + 12, pnt + (1 + psize))]
        if lim < pnt + (1 + psize) then ⟨-1, [], reads⟩
        else
          let rest := parseVpnEntries fuel (pnt + (1 + psize))
          ⟨rest.ret, vpnCall stream withdraw pnt :: rest.calls, reads ++ rest.reads⟩
    else ⟨if pnt = lim then 0 else -1, [], []⟩

def bgpNlriParseVpnv4 (status : FsmStatus) : VpnParse :=
  if status ≠ .established then ⟨0, [], []⟩ else parseVpnEntries stream withdraw lim lim 0

/-- The size of an entry that a VPNv4 route has: the length leaves an IPv4 prefix behind the label
and the distinguisher. -/
def vpnStride (entry : Nat) : Option Nat :=
  if (88 ≤ (stream entry).toNat ∧ (stream entry).toNat ≤ 120) ∧ KnownRd stream entry then
    some (1 + psize (stream entry).toNat)
  else none

/-- The valid entries from a position on, up to the first that is not or does not fit. -/
def vpnEntries (fuel entry : Nat) : List (Nat × Nat) :=
  (strides (vpnStride stream) lim fuel entry).entries.filter (·.2 ≤ lim)

/-- The parser stays in the field, hands on its valid entries and accepts nothing else. -/
@[mk_iff] structure Validates (fuel entry : Nat) (parse : VpnParse) : Prop where
  reads : ∀ read ∈ parse.reads, read.2 ≤ lim
  calls : parse.calls = (vpnEntries stream lim fuel entry).map fun (start, _) =>
    vpnCall stream withdraw start
  prefixlen : ∀ call ∈ parse.calls, call.prefixlen ≤ 32
  ret : parse.ret = 0 ↔ Tiled (vpnStride stream) lim (fun _ => False) entry

/-- The entry is too short, or its distinguisher is in the field and of a type not known. -/
def Refusable (entry : Nat) : Prop :=
  (stream entry).toNat < 88 ∨ entry + 12 ≤ lim ∧ ¬ KnownRd stream entry

end

variable {stream : Nat → UInt8} {withdraw : Bool} {lim fuel entry : Nat}

theorem vpnEntries_of_none (inside : entry < lim) (invalid : vpnStride stream entry = none) :
    vpnEntries stream lim fuel entry = [] := by
  cases fuel <;> simp [vpnEntries, strides, inside, invalid]

theorem validates_atEnd (atEnd : lim ≤ entry) :
    Validates stream withdraw lim fuel entry ⟨if entry = lim then 0 else -1, [], []⟩ where
  reads := nofun
  calls := by cases fuel <;> simp [vpnEntries, strides, not_lt.mpr atEnd]
  prefixlen := nofun
  ret := by
    rw [tiled_of_ge atEnd]
    split <;> simp_all

theorem validates_refused_iff {reads : List (Nat × Nat)} (inside : entry < lim)
    (invalid : vpnStride stream entry = none) :
    Validates stream withdraw lim fuel entry ⟨-1, [], reads⟩ ↔ ∀ read ∈ reads, read.2 ≤ lim := by
  rw [validates_iff, vpnEntries_of_none inside invalid, tiled_of_none inside invalid]
  simp

theorem validates_called_iff {rest : VpnParse} {reads : List (Nat × Nat)} {size : Nat}
    (inside : entry < lim) (valid : vpnStride stream entry = some size) (fits : entry + size ≤ lim)
    (within : ∀ read ∈ reads, read.2 ≤ lim) :
    Validates stream withdraw lim (fuel + 1) entry
        ⟨rest.ret, vpnCall stream withdraw entry :: rest.calls, reads ++ rest.reads⟩ ↔
      Validates stream withdraw lim fuel (entry + size) rest := by
  have entries : vpnEntries stream lim (fuel + 1) entry =
      (entry, entry + size) :: vpnEntries stream lim fuel (entry + size) := by
    simp [vpnEntries, strides, inside, valid, fits]
  have short : (vpnCall stream withdraw entry).prefixlen ≤ 32 := by
    rcases Option.ite_none_right_eq_some.mp valid with ⟨⟨⟨_, bound⟩, _⟩, _⟩
    exact sub_le_of_le_add bound
  rw [validates_iff, validates_iff, entries, tiled_of_some inside valid, forall_mem_append,
    forall_mem_cons, and_iff_right within, and_iff_right short, and_iff_right fits, map_cons,
    cons_inj_right]

theorem vpnStride_of_known (long : ¬ (stream entry).toNat < 88) (known : KnownRd stream entry) :
    vpnStride stream entry = some (1 + psize (stream entry).toNat) ∨
      vpnStride stream entry = none ∧ ¬ Refusable stream lim entry := by
  by_cases bound : (stream entry).toNat ≤ 120
  · exact .inl (if_pos ⟨⟨not_lt.mp long, bound⟩, known⟩)
  · exact .inr ⟨if_neg (bound ·.1.2), not_or.mpr ⟨long, fun unknown => unknown.2 known⟩⟩

theorem parseVpnEntries_validates_iff (start : entry ≤ lim) (enough : lim - entry ≤ fuel) :
    Validates stream withdraw lim fuel entry (parseVpnEntries stream withdraw lim fuel entry) ↔
      Tiled (vpnStride stream) lim (Refusable stream lim) entry := by
  fun_induction parseVpnEntries stream withdraw lim fuel entry with
  | case1 entry =>
    have atEnd : lim ≤ entry := Nat.sub_eq_zero_iff_le.mp (Nat.le_zero.mp enough)
    rw [tiled_of_ge atEnd]
    exact iff_of_true (validates_atEnd atEnd) (Nat.le_antisymm start atEnd)
  | case2 fuel entry inside short =>
    have invalid : vpnStride stream entry = none := if_neg (by omega)
    rw [validates_refused_iff inside invalid, tiled_of_none inside invalid, forall_mem_singleton]
    exact iff_of_true inside (.inl short)
  | case3 fuel entry inside long unknown =>
    have invalid : vpnStride stream entry = none := if_neg (unknown ·.2)
    rw [validates_refused_iff inside invalid, tiled_of_none inside invalid, Refusable,
      or_iff_right long, and_iff_left unknown, forall_mem_cons, forall_mem_singleton]
    exact and_iff_right inside
  | case4 fuel entry inside size long known reads exceeds =>
    refine iff_of_false (fun validates => ?_) (fun tiled => ?_)
    · exact absurd (validates.reads _ (mem_of_getLast? rfl)) (not_le.mpr exceeds)
    · rcases vpnStride_of_known long (not_not.mp known) with valid | ⟨invalid, refuses⟩
      · exact absurd ((tiled_of_some inside valid).mp tiled).1 (not_le.mpr exceeds)
      · exact refuses ((tiled_of_none inside invalid).mp tiled)
  | case5 fuel entry inside size long known reads within rest induction =>
    have fits : entry + (1 + size) ≤ lim := not_lt.mp within
    rcases vpnStride_of_known long (not_not.mp known) with valid | ⟨invalid, refuses⟩
    · have inField : ∀ read ∈ reads, read.2 ≤ lim := by
        have atLeast : 11 ≤ size := by
          simp only [size, psize]
          omega
        simp [reads]
        omega
      rw [validates_called_iff inside valid fits inField, tiled_of_some inside valid,
        and_iff_right fits]
      exact induction fits (by omega)
    · rw [tiled_of_none inside invalid]
      refine iff_of_false (fun validates => ?_) refuses
      have calls := validates.calls
      rw [vpnEntries_of_none inside invalid] at calls
      cases calls
  | case6 fuel entry outside =>
    have atEnd := not_lt.mp outside
    rw [tiled_of_ge atEnd]
    exact iff_of_true (validates_atEnd atEnd) (Nat.le_antisymm start atEnd)

theorem bgpNlriParseVpnv4_validates_iff {status : FsmStatus} :
    Validates stream withdraw lim lim 0 (bgpNlriParseVpnv4 stream withdraw lim status) ↔
      lim = 0 ∨ status = .established ∧ Tiled (vpnStride stream) lim (Refusable stream lim) 0 := by
  rw [bgpNlriParseVpnv4]
  cases lim with
  | zero =>
    have nothing : parseVpnEntries stream withdraw 0 0 0 = ⟨0, [], []⟩ := rfl
    rw [nothing, ite_self]
    exact iff_of_true (validates_atEnd (Nat.le_refl 0)) (.inl rfl)
  | succ last =>
    rw [or_iff_right (Nat.succ_ne_zero last)]
    split
    next down =>
      refine iff_of_false (fun validates => ?_) (down ·.1)
      -- The value says that the field is well formed, so there is an entry without a call.
      cases validates.ret.mp rfl with
      | broken _ _ never => exact never
      | entry _ valid fits =>
        have calls := validates.calls
        simp [vpnEntries, strides, valid] at calls
        omega
    next up =>
      rw [parseVpnEntries_validates_iff (Nat.zero_le _) (Nat.sub_le _ _),
        and_iff_right (not_not.mp up)]

def overlongEntry (offset : Nat) : UInt8 := if offset = 0 then 128 else 0

theorem bgpNlriParseVpnv4_overlong :
    (bgpNlriParseVpnv4 overlongEntry false 17 .established).ret = 0 ∧
      (bgpNlriParseVpnv4 overlongEntry false 17 .established).calls.map VpnCall.prefixlen = [40] ∧
      ¬ Validates overlongEntry false 17 17 0
        (bgpNlriParseVpnv4 overlongEntry false 17 .established) := by
  refine ⟨by decide, by decide, fun validates => ?_⟩
  have bounded : ∀ call ∈ (bgpNlriParseVpnv4 overlongEntry false 17 .established).calls,
      call.prefixlen ≤ 32 := validates.prefixlen
  revert bounded
  decide

end Quagga.Bgp
