import Quagga.Bgp.AttrChecks

/-!
# Lookup keys on the wire

The D-BGP attribute, as a neighbour may write it and as `bgp_packet_attribute` does, in the
parser. `bgp_attr_dbgp` takes the key from the fifth octet of the attribute on.
-/

namespace Quagga.Bgp

open Foundation Dbgp Execution List

/-- The attribute has two octets of length if its flags say so, and one otherwise. -/
def dbgpAttribute (flags : UInt8) (key : Bytes) : Bytes :=
  if hasFlag flags flagExtlen then flags :: 22 :: 0 :: 4 :: key else flags :: 22 :: 4 :: key

def packetDbgp (transit : Transit) : Execution Bytes := do
  return dbgpAttribute 0xd0 (← packetLookupKey transit)

section

variable (peer : ReceivingPeer) (behind : Bytes) (position : ParsePosition)

/-- The octets before the unread ones are read as a key, which is kept in host order, and no more
than them is read. -/
def StoresKey (octets : Bytes) (key : UInt32) : Prop :=
  ∃ following transit,
    parseTurn peer behind { position with unread := octets ++ position.unread } =
      .next following ∧
    following.unread = position.unread ∧ following.state.attr.transit? = some transit ∧
      transit.length = 4 ∧ readKey transit.val = some key

/-- A key arrives with some flags, and what is written of it arrives. -/
def KeyArrives (flags : UInt8) (key : UInt32) : Prop :=
  StoresKey peer behind position (dbgpAttribute flags (bigEndian 4 key.toNat)) key ∧
    ∀ transit : Transit, transit.length = 4 → readKey transit.val = some key →
      ∃ octets, packetDbgp transit = .ok octets ∧ StoresKey peer behind position octets key

/-- There is no key yet, and the buffer that attributes before have left is long enough. -/
def ParsePosition.HasRoom : Prop :=
  22 ∉ position.seen ∧ ∀ transit ∈ position.state.attr.transit?, 4 ≤ transit.val.length

end

variable {peer : ReceivingPeer} {behind : Bytes} {position : ParsePosition} {key : UInt32}

theorem parseTurn_dbgpAttribute (flags : UInt8) {octets : Bytes} (full : octets.length = 4) :
    parseTurn peer behind
        { position with unread := dbgpAttribute flags octets ++ position.unread } =
      if 22 ∈ position.seen then parseError position.state [⟨.malAttr, []⟩]
      else parseReceived peer ⟨⟨flags &&& 0xf0, 22, octets, dbgpAttribute flags octets⟩,
        position.unread ++ behind⟩ ⟨position.unread, 22 :: position.seen, position.state⟩ := by
  have masked : hasFlag (flags &&& 0xf0) flagExtlen = hasFlag flags flagExtlen := by
    rw [hasFlag, UInt8.and_assoc]
    rfl
  match octets, full with
  | [first, second, third, fourth], _ =>
    cases extended : hasFlag flags flagExtlen with
    | true =>
      simp [parseTurn, dbgpAttribute, readHeader, masked, extended, Header.attribute?,
        readBigEndian, Nat.add_assoc]
    | false =>
      simp [parseTurn, dbgpAttribute, readHeader, masked, extended, Header.attribute?,
        Nat.add_assoc]

theorem eq_bigEndian_iff {received : Bytes} (atMost : received.length ≤ 4) :
    received = bigEndian 4 key.toNat ↔
      ¬ received.length < 4 ∧ UInt32.ofNat (readBigEndian received) = key := by
  have fits : readBigEndian (bigEndian 4 key.toNat) = key.toNat :=
    readBigEndian_bigEndian key.toNat_lt
  constructor
  · rintro rfl
    simp [fits]
  · rintro ⟨long, same⟩
    have full : received.length = 4 := by omega
    have bound := readBigEndian_lt received
    rw [full] at bound
    apply readBigEndian_inj (by simp [full])
    rw [fits, ← same, UInt32.toNat_ofNat_of_lt' bound]

theorem storesKey_iff (flags : UInt8) {octets : Bytes} (full : octets.length = 4) :
    StoresKey peer behind position (dbgpAttribute flags octets) key ↔
      position.HasRoom ∧
        ((dbgpAttribute flags octets ++ (position.unread ++ behind)).drop 4).take 4 =
          bigEndian 4 key.toNat := by
  have room : (∀ transit ∈ position.state.attr.transit?, 4 ≤ transit.val.length) ↔
      ¬ (position.state.attr.transit?.getD ⟨0, [0, 0, 0, 0]⟩).val.length < 4 := by
    cases position.state.attr.transit? <;> simp
  rw [StoresKey, parseTurn_dbgpAttribute flags full, ParsePosition.HasRoom, room,
    eq_bigEndian_iff (by simp)]
  by_cases seen : 22 ∈ position.seen
  · simp [seen, parseError]
  have valid : bgpAttrFlagInvalid peer (flags &&& 0xf0) 22 = false := rfl
  simp only [if_neg seen, parseReceived, valid, parseAttribute, bgpAttrDbgp, require_pos full]
  generalize ((dbgpAttribute flags octets ++ (position.unread ++ behind)).drop 4).take 4 = received
  generalize position.state.attr.transit?.getD ⟨0, [0, 0, 0, 0]⟩ = transit
  by_cases blocked : received.length < 4 ∨ transit.val.length < 4
  · simp only [if_pos blocked]
    simp
    omega
  · rcases not_or.mp blocked with ⟨long, enough⟩
    have stored : ∀ key, readKey (keyOctets key ++ transit.val.drop 4) = some key :=
      readKey_keyOctets
    simp [Outcome.read, drop_of_length_le (Nat.le_of_eq full), seen, long, enough, stored]

/-- A key arrives if its attribute has the long header, or if it does not matter that it is read one
octet too far. -/
theorem keyArrives_iff (flags : UInt8) :
    KeyArrives peer behind position flags key ↔ position.HasRoom ∧
      (hasFlag flags flagExtlen = true ∨
        ((bigEndian 4 key.toNat ++ (position.unread ++ behind)).drop 1).take 4 =
          bigEndian 4 key.toNat) := by
  have full := length_bigEndian 4 key.toNat
  have long : ∀ {flags : UInt8}, hasFlag flags flagExtlen = true →
      (StoresKey peer behind position (dbgpAttribute flags (bigEndian 4 key.toNat)) key ↔
        position.HasRoom) := by
    intro flags extended
    rw [storesKey_iff flags full, dbgpAttribute, if_pos extended]
    simp
  have written : position.HasRoom → ∀ transit : Transit, transit.length = 4 →
      readKey transit.val = some key → ∃ octets, packetDbgp transit = .ok octets ∧
        StoresKey peer behind position octets key := by
    intro room transit four held
    refine ⟨dbgpAttribute 0xd0 (bigEndian 4 key.toNat), ?_, (long rfl).mpr room⟩
    simp [packetDbgp, packetLookupKey, require_pos four, held]
  rw [KeyArrives]
  by_cases extended : hasFlag flags flagExtlen = true
  · rw [long extended]
    simp only [extended, true_or, and_true, and_iff_left_iff_imp]
    exact written
  · rw [storesKey_iff flags full, dbgpAttribute]
    simp only [extended, Bool.false_eq_true, false_or]
    exact and_iff_left_of_imp fun stored => written stored.1

/-- Of the key 1 in an attribute with a short header, before the route 10.0.0.0/8, the key 264 is
stored. -/
theorem shortHeader_not_keyArrives :
    ¬ ∃ peer, KeyArrives peer [8, 10] ⟨[], [], .initial⟩ 0xc0 1 := by
  rintro ⟨peer, arrives⟩
  have same := ((storesKey_iff 0xc0 rfl).mp arrives.1).2
  revert same
  decide

end Quagga.Bgp
