import Quagga.Bgp.OpenNegotiation

/-!
# Looking ahead for the AS number

The parameters of an OPEN are read twice: `peek_for_as4_capability` looks for the AS number
before `bgp_open_option_parse` parses them. The first tests lengths against the declared end of
the parameters, the second against the end of the message, which may go on behind them.
-/

namespace Quagga.Bgp

open Foundation List

/-- The octets are what the stream has left. The position is put back at the label `end`, where
every way out of the loop leads. -/
def peekForAs4In (length : UInt8) (octets : Bytes) : UInt32 × Bytes :=
  if octets.length < length.toNat then (0, octets)
  else (peekForAs4Capability (octets.take length.toNat), octets)

/-- The loop of `bgp_open_option_parse`, `left` octets before the declared end. The lengths are
compared with `STREAM_READABLE`. -/
def optionLoop : Nat → Nat → Bytes → Negotiation → Except OptionError (Negotiation × Bytes)
  | fuel + 1, left + 1, octets, state =>
    match readTagged octets with
    | none => .error .lengthError
    | some (option, rest) => do
      let state ← parseOption state option
      optionLoop fuel (left + 1 - (option.2.length + 2)) rest state
  | _, _, octets, state => .ok (state, octets)

/-- Without parameters only the checks behind the loop are made. -/
def bgpOpenOptionParseIn (length : UInt8) (octets : Bytes) (state : Negotiation) :
    Except OptionError (Negotiation × Bytes) := do
  let (state, rest) ← optionLoop length.toNat length.toNat octets state
  let state ← bgpOpenOptionParse [] state
  return (state, rest)

/-- The number in the first of the capabilities for it, or zero. -/
def firstAs4 (capabilities : List (UInt8 × Bytes)) : UInt32 :=
  ((capabilities.find? fun capability => capability.1 = capabilityCodeAs4).map
    fun capability => UInt32.ofNat (readBigEndian capability.2)).getD 0

/-- The number is found and nothing is read behind the declared octets. -/
def PeekAgrees (length : UInt8) (octets rest : Bytes) : Prop :=
  peekForAs4In length octets = (firstAs4 (capabilitiesOf
    (taggedReader.records (octets.take length.toNat)).1), octets) ∧
  octets.length ≤ rest.length + length.toNat

variable {octets rest : Bytes} {state final : Negotiation} {option : UInt8 × Bytes}

theorem length_of_readTagged (result : readTagged octets = some (option, rest)) :
    octets.length = option.2.length + 2 + rest.length := by
  rcases readTagged_some result with ⟨size, following, rfl, fits, same, rfl⟩
  simp [same]
  omega

theorem readTagged_take (result : readTagged octets = some (option, rest)) (count : Nat) :
    readTagged (octets.take count) =
      if option.2.length + 2 ≤ count then
        some (option, rest.take (count - (option.2.length + 2)))
      else none := by
  rcases option with ⟨tag, data⟩
  rcases readTagged_some result with ⟨size, following, rfl, fits, rfl, rfl⟩
  have sized : (following.take size.toNat).length = size.toNat := by simp [fits]
  rcases count with _ | _ | count
  · rfl
  · rfl
  · simp only [take_succ_cons, readTagged, sized]
    by_cases enough : size.toNat ≤ count
    · rw [if_neg (by simp; omega), if_pos (by omega), take_take, Nat.min_eq_left enough, drop_take]
      simp
    · rw [if_pos (by simp; omega), if_neg (by omega)]

theorem optionLoop_ok {fuel left : Nat} (enough : left ≤ fuel)
    (parsed : optionLoop fuel left octets state = .ok (final, rest)) :
    ((taggedReader.records (octets.take left)).2 = true ∧
      octets.length = rest.length + left ∧
      (taggedReader.records (octets.take left)).1.foldlM parseOption state = .ok final) ∨
    ((taggedReader.records (octets.take left)).2 = false ∧ rest.length + left < octets.length) := by
  fun_induction optionLoop fuel left octets state with
  | case1 => cases parsed
  | case2 fuel left octets state option next found induction =>
    rcases bind_eq_ok_iff.mp parsed with ⟨stepped, step, parsed⟩
    have later := induction stepped (by omega) parsed
    have size := length_of_readTagged found
    have start := readTagged_take found left.succ
    by_cases fits : option.2.length + 2 ≤ left.succ
    · rw [if_pos fits] at start
      rw [taggedReader.records_of_read start]
      rcases later with ⟨whole, length, parsed⟩ | ⟨cut, length⟩
      · exact .inl ⟨whole, by omega, foldlM_cons_ok.mpr ⟨stepped, step, parsed⟩⟩
      · exact .inr ⟨cut, by omega⟩
    · rw [if_neg fits] at start
      have nonempty : octets.take left.succ ≠ [] := by
        cases octets <;> simp_all
      rw [taggedReader.records_of_unreadable nonempty start]
      -- Nothing is left to read, so that the loop ends here.
      rcases later with ⟨_, length, _⟩ | ⟨_, length⟩ <;> exact .inr ⟨rfl, by omega⟩
  | case3 fuel left octets state last =>
    cases parsed
    rcases left with _ | left
    · exact .inl ⟨rfl, rfl, rfl⟩
    · rcases fuel with _ | fuel
      · cases enough
      · exact absurd rfl (last fuel left rfl)

theorem parseOption_ok (parsed : parseOption state option = .ok final) :
    (option.1 = bgpOpenOptCap ∧ (taggedReader.records option.2).2 = true) ∧
      (taggedReader.records option.2).1.foldlM parseCapability state = .ok final := by
  revert parsed
  fun_cases parseOption state option with
  | case1 | case3 => exact nofun
  | case2 _ isCap =>
    intro parsed
    rcases bind_eq_ok_iff.mp parsed with ⟨stepped, run, parsed⟩
    split at parsed
    · rename_i complete
      cases parsed
      exact ⟨⟨isCap, complete⟩, run⟩
    · cases parsed

theorem length_of_parseCapability {capability : UInt8 × Bytes}
    (parsed : parseCapability state capability = .ok final)
    (isAs4 : capability.1 = capabilityCodeAs4) : capability.2.length = 4 := by
  rcases capability with ⟨code, data⟩
  subst isAs4
  have asked : parseCapability state (capabilityCodeAs4, data) =
      if data.length < 4 then .error .lengthError
      else if bgpCapabilityAs4 data = 0 then .error .as4Invalid
      else .ok { state with as4Rcv := true } := rfl
  by_contra different
  rw [asked, bgpCapabilityAs4] at parsed
  split at parsed <;> cases parsed

theorem peekForAs4Capability_of_parsed {field : Bytes}
    (whole : (taggedReader.records field).2 = true)
    (parsed : (taggedReader.records field).1.foldlM parseOption state = .ok final) :
    peekForAs4Capability field = firstAs4 (capabilitiesOf (taggedReader.records field).1) := by
  have each : ∀ option ∈ (taggedReader.records field).1, ∃ before after, _ :=
    fun option member => exists_step_of_foldlM parsed member
  rw [peekForAs4Capability, peekForAs4Within_eq (Nat.le_refl _) whole]
  · congr 1
    apply Option.map_congr
    intro capability found
    rcases mem_flatMap.mp (mem_of_find?_eq_some found) with ⟨option, member, inside⟩
    rcases each option member with ⟨before, after, accepted⟩
    rcases exists_step_of_foldlM (parseOption_ok accepted).2 inside with ⟨_, _, read⟩
    have isAs4 := find?_some found
    exact if_pos (length_of_parseCapability read (of_decide_eq_true isAs4))
  · intro option member
    rcases each option member with ⟨before, after, accepted⟩
    exact (parseOption_ok accepted).1

theorem peekAgrees_iff (length : UInt8) (octets : Bytes) (state : Negotiation)
    (accepted : bgpOpenOptionParseIn length octets state = .ok (final, rest)) :
    PeekAgrees length octets rest ↔ (taggedReader.records (octets.take length.toNat)).2 = true := by
  rcases bind_eq_ok_iff.mp accepted with ⟨⟨reached, left⟩, looped, accepted⟩
  rcases bind_eq_ok_iff.mp accepted with ⟨checked, _, returned⟩
  cases returned
  rcases optionLoop_ok (Nat.le_refl _) looped with ⟨whole, size, parsed⟩ | ⟨cut, size⟩
  · refine iff_of_true ⟨?_, by omega⟩ whole
    rw [peekForAs4In, if_neg (by omega), peekForAs4Capability_of_parsed whole parsed]
  · exact iff_of_false (fun agrees => absurd agrees.2 (by omega)) (by simp [cut])

def as4Option : Bytes := [2, 6, 65, 4, 0, 0, 0, 1]

theorem as4Option_peekAgrees : PeekAgrees 8 as4Option [] :=
  (peekAgrees_iff 8 as4Option (.start .empty false false) rfl).mpr (by decide)

theorem header_not_peekAgrees : ∃ final rest,
    bgpOpenOptionParseIn 2 as4Option (.start .empty false false) = .ok (final, rest) ∧
      ¬ PeekAgrees 2 as4Option rest := by
  refine ⟨_, [], rfl, ?_⟩
  intro agrees
  exact absurd agrees.2 (by decide)

end Quagga.Bgp
