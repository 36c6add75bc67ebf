import Quagga.Dbgp.Wiser

/-!
# Updating the same control information again

A router that updates control information which it has stored itself finds its own AS
number as the last Wiser node. The two counters of the normalization are one and the same
then, so the cost is not scaled and only the link cost is added once more.
-/

namespace Quagga.Dbgp

open Foundation Execution Arithmetic ControlInfo

/-- The control information after a number of updates, each of what the last one stored. -/
def wiserUpdates (arithmetic : Arithmetic) (config : WiserConfig) (session : Session) :
    Nat → LookupService → ControlInfo → Execution (LookupService × ControlInfo)
  | 0, service, info => .ok (service, info)
  | count + 1, service, info => do
      let (service, updated) ← wiserUpdateControlInfo arithmetic config session service info
      wiserUpdates arithmetic config session count
        (service.set service.nextKey updated.integratedAdvertisement) updated

theorem returns_wiserUpdates_of_le {arithmetic : Arithmetic} {config : WiserConfig}
    {session : Session} {fewer count : Nat} (less : fewer ≤ count) {service : LookupService}
    {info : ControlInfo}
    (returns : Returns (wiserUpdates arithmetic config session count service info)) :
    Returns (wiserUpdates arithmetic config session fewer service info) := by
  induction fewer generalizing count service info with
  | zero => exact returns_ok _
  | succ fewer induction =>
    cases count with
    | zero => cases less
    | succ count =>
      rcases returns with ⟨final, returned⟩
      rcases bind_eq_ok.mp returned with ⟨result, update, rest⟩
      rcases induction (Nat.le_of_succ_le_succ less) ⟨final, rest⟩ with ⟨earlier, again⟩
      exact ⟨earlier, bind_eq_ok.mpr ⟨result, update, again⟩⟩

theorem normalizationFor_self (service : LookupService) (localAs : Int) :
    normalizationFor .machine service localAs localAs =
      if retrieveWiserCosts machine.readCounter service localAs localAs = 0 then
        .error (.assertion .normalizationPositive)
      else .ok 1 := by
  simp only [normalizationFor, or_self]
  generalize retrieveWiserCosts machine.readCounter service localAs localAs = counter
  by_cases zero : counter = 0
  · have rounded : binary32 0 = 0 := by
      exact_mod_cast binary32_intCast (by decide : |(0 : ℤ)| < 2 ^ 24)
    simp [zero, counterRatio, machine, rounded, require]
  rw [if_neg zero]
  by_cases absent : counter = -1
  · rw [if_pos absent]
  · have one : binary32 1 = 1 := by exact_mod_cast binary32_intCast (by decide : |(1 : ℤ)| < 2 ^ 24)
    have nonzero : binary32 counter ≠ 0 := binary32_intCast_ne_zero zero
    simp [counterRatio, zero, machine, div_self nonzero, one]

def ownCounter (service : LookupService) (localAs : Int) : Int :=
  (service.wiserCosts localAs localAs).getD 0

@[simp] theorem ownCounter_set (service : LookupService) (key : UInt32) (value : Bytes)
    (localAs : Int) : ownCounter (service.set key value) localAs = ownCounter service localAs :=
  rfl

theorem wiserStep_self (service : LookupService) (localAs linkCost cost : Int) :
    wiserStep .machine service localAs linkCost (some ⟨localAs, cost⟩) =
      if machine.readCounter (ownCounter service localAs + cost) = 0 then
        .error (.assertion .normalizationPositive)
      else do
        let cost' ← defined (scaleCost machine.round cost 1 linkCost)
        return (incrementWiserCosts service localAs localAs cost, ⟨localAs, cost'⟩) := by
  have counter : retrieveWiserCosts machine.readCounter
      (incrementWiserCosts service localAs localAs cost) localAs localAs =
        machine.readCounter (ownCounter service localAs + cost) := by
    simp [retrieveWiserCosts, incrementWiserCosts_apply, ownCounter]
  simp only [wiserStep, normalizationFor_self, counter]
  split <;> rfl

/-- The lookup service after a repeated update: the cost is counted and the result stored. -/
def recordUpdate (service : LookupService) (localAs cost : Int)
    (advertisement : IntegratedAdvertisement) : LookupService :=
  let counted := incrementWiserCosts service localAs localAs cost
  counted.set counted.nextKey (IntegratedAdvertisement.codec.serialize advertisement)

theorem ownCounter_recordUpdate (service : LookupService) (localAs cost : Int)
    (advertisement : IntegratedAdvertisement) :
    ownCounter (recordUpdate service localAs cost advertisement) localAs =
      ownCounter service localAs + cost := by
  have counter := incrementWiserCosts_apply service localAs localAs cost localAs localAs
  simp [ownCounter, recordUpdate, LookupService.set, counter]

theorem scaleCost_bounds {cost linkCost result : Int} (costNonneg : 0 ≤ cost)
    (linkNonneg : 0 ≤ linkCost) (scaled : scaleCost machine.round cost 1 linkCost = some result) :
    0 ≤ result ∧ result < 2 ^ 31 := by
  have costRounded : 0 ≤ binary32 cost := binary32_nonneg (by exact_mod_cast costNonneg)
  have linkRounded : 0 ≤ binary32 linkCost := binary32_nonneg (by exact_mod_cast linkNonneg)
  have nonneg : 0 ≤ binary32 (binary32 (binary32 cost * 1) + binary32 linkCost) := by
    apply binary32_nonneg
    rw [mul_one]
    exact add_nonneg (binary32_nonneg costRounded) linkRounded
  rcases checkInt_eq_some.mp scaled with ⟨rfl, _, upper⟩
  refine ⟨?_, upper⟩
  simp only [machine, truncate_of_nonneg nonneg]
  exact Int.floor_nonneg.mpr nonneg

theorem scaleCost_mono {lower upper linkCost lowerResult upperResult : Int} (nonneg : 0 ≤ lower)
    (ordered : lower ≤ upper) (linkNonneg : 0 ≤ linkCost)
    (lowerScaled : scaleCost machine.round lower 1 linkCost = some lowerResult)
    (upperScaled : scaleCost machine.round upper 1 linkCost = some upperResult) :
    lowerResult ≤ upperResult := by
  have lowerRounded : 0 ≤ binary32 lower := binary32_nonneg (by exact_mod_cast nonneg)
  have linkRounded : 0 ≤ binary32 linkCost := binary32_nonneg (by exact_mod_cast linkNonneg)
  have costs : binary32 lower ≤ binary32 upper :=
    binary32_mono (by exact_mod_cast nonneg) (by exact_mod_cast ordered)
  have sumNonneg : 0 ≤ binary32 (binary32 lower) + binary32 linkCost :=
    add_nonneg (binary32_nonneg lowerRounded) linkRounded
  have sums : binary32 (binary32 lower) + binary32 linkCost ≤
      binary32 (binary32 upper) + binary32 linkCost :=
    add_le_add_left (binary32_mono lowerRounded costs) _
  have totals := binary32_mono sumNonneg sums
  have totalNonneg := binary32_nonneg sumNonneg
  rcases checkInt_eq_some.mp lowerScaled with ⟨rfl, _⟩
  rcases checkInt_eq_some.mp upperScaled with ⟨rfl, _⟩
  simp only [machine, mul_one, truncate_of_nonneg totalNonneg,
    truncate_of_nonneg (totalNonneg.trans totals)]
  exact Int.floor_mono totals

/-! ## Many updates in a row -/

/-- Updating control information of this cost again, a number of times, changes nothing: the
link cost is lost in rounding, and no normalization divides by zero. -/
structure Repeatable (localAs linkCost cost counter : Int) (times : Nat) : Prop where
  known : localAs ≠ -1
  absorbed : scaleCost Arithmetic.machine.round cost 1 linkCost = some cost
  counted : ∀ earlier < times, Arithmetic.machine.readCounter (counter + (earlier + 1) * cost) ≠ 0

theorem repeatable_succ {localAs linkCost cost counter : Int} {times : Nat} :
    Repeatable localAs linkCost cost counter (times + 1) ↔
      machine.readCounter (counter + cost) ≠ 0 ∧
        Repeatable localAs linkCost cost (counter + cost) times := by
  have sum : ∀ earlier : Nat, counter + ((earlier + 1 : Nat) + 1) * cost =
      counter + cost + (earlier + 1) * cost := by
    intro earlier
    push_cast
    ring
  constructor
  · intro repeatable
    refine ⟨by simpa using repeatable.counted 0 (Nat.succ_pos times), repeatable.known,
      repeatable.absorbed, ?_⟩
    intro earlier bound
    rw [← sum]
    exact repeatable.counted (earlier + 1) (by omega)
  · rintro ⟨first, later⟩
    refine ⟨later.known, later.absorbed, ?_⟩
    intro earlier bound
    cases earlier with
    | zero => simpa using first
    | succ earlier =>
      rw [sum]
      exact later.counted earlier (by omega)

section

variable {config : WiserConfig} {session : Session} {service service' : LookupService}
  {advertisement : IntegratedAdvertisement} {cost : Int} {updated : ControlInfo}

theorem wiserUpdate_written (declared : session.linkCost config ≠ -1)
    (known : toInt session.localAs ≠ -1) (nonneg : 0 ≤ cost) (fits : cost < 2 ^ 31) :
    wiserUpdateControlInfo .machine config session service
        (.ofAdvertisement (advertisement.withWiser ⟨toInt session.localAs, cost⟩)) =
      (wiserStep .machine service (toInt session.localAs) (session.linkCost config)
        (some ⟨toInt session.localAs, cost⟩)).map fun result =>
          (result.1, .ofAdvertisement ((advertisement.withWiser
            ⟨toInt session.localAs, cost⟩).withWiser result.2)) := by
  apply wiserUpdateControlInfo_refines .machine config session service
    (carries_withWiser advertisement _) _ declared
  intro info member
  cases member
  exact ⟨⟨toInt_bounds _, known⟩, nonneg, fits⟩

theorem wiserUpdates_succ {count : Nat} (declared : session.linkCost config ≠ -1)
    (known : toInt session.localAs ≠ -1) (nonneg : 0 ≤ cost) (fits : cost < 2 ^ 31) :
    wiserUpdates .machine config session (count + 1) service
        (.ofAdvertisement (advertisement.withWiser ⟨toInt session.localAs, cost⟩)) =
          .ok (service', updated) ↔
      machine.readCounter
          (ownCounter service (toInt session.localAs) + cost) ≠ 0 ∧
        ∃ next, scaleCost machine.round cost 1 (session.linkCost config) =
            some next ∧
          let rewritten := (advertisement.withWiser
            ⟨toInt session.localAs, cost⟩).withWiser ⟨toInt session.localAs, next⟩
          wiserUpdates .machine config session count
              (recordUpdate service (toInt session.localAs) cost rewritten)
              (.ofAdvertisement rewritten) = .ok (service', updated) := by
  simp only [wiserUpdates, wiserUpdate_written declared known nonneg fits, wiserStep_self]
  split
  · rename_i zero
    simp [zero, Except.map]
  · rename_i nonzero
    cases scaled : scaleCost machine.round cost 1 (session.linkCost config) with
    | none => simp [defined, Except.map]
    | some next =>
      simp only [nonzero, ne_eq, not_false_eq_true, true_and, Option.some.injEq, exists_eq_left']
      rfl

theorem wiserUpdates_of_repeatable {times : Nat} (declared : session.linkCost config ≠ -1)
    (nonneg : 0 ≤ cost) (fits : cost < 2 ^ 31)
    (repeatable : Repeatable (toInt session.localAs) (session.linkCost config) cost
      (ownCounter service (toInt session.localAs)) times) :
    ∃ service', wiserUpdates .machine config session times service
        (.ofAdvertisement (advertisement.withWiser ⟨toInt session.localAs, cost⟩)) =
      .ok (service', .ofAdvertisement
        (advertisement.withWiser ⟨toInt session.localAs, cost⟩)) := by
  induction times generalizing service with
  | zero => exact ⟨service, rfl⟩
  | succ times induction =>
    rcases repeatable_succ.mp repeatable with ⟨first, later⟩
    rw [← ownCounter_recordUpdate service (toInt session.localAs) cost
      (advertisement.withWiser ⟨toInt session.localAs, cost⟩)] at later
    rcases induction later with ⟨service', updates⟩
    refine ⟨service', (wiserUpdates_succ declared repeatable.known nonneg fits).mpr
      ⟨first, cost, repeatable.absorbed, ?_⟩⟩
    simp only [withWiser_self]
    exact updates

theorem wiserUpdates_direction {count : Nat} {next : Int} (declared : session.linkCost config ≠ -1)
    (linkNonneg : 0 ≤ session.linkCost config) (known : toInt session.localAs ≠ -1)
    (nonneg : 0 ≤ cost)
    (scaled : scaleCost machine.round cost 1 (session.linkCost config) = some next)
    (updates : wiserUpdates .machine config session count service
      (.ofAdvertisement (advertisement.withWiser ⟨toInt session.localAs, next⟩)) =
        .ok (service', updated)) :
    ∃ final, Carries (IntegratedAdvertisement.codec.parse updated.integratedAdvertisement)
        (some ⟨toInt session.localAs, final⟩) ∧ final < 2 ^ 31 ∧
      (cost ≤ next → next ≤ final) ∧ (next ≤ cost → 0 ≤ final ∧ final ≤ next) := by
  induction count generalizing service advertisement cost next with
  | zero =>
    cases updates
    rcases scaleCost_bounds nonneg linkNonneg scaled with ⟨nextNonneg, nextFits⟩
    refine ⟨next, ?_, nextFits, fun _ => Int.le_refl _, fun _ => ⟨nextNonneg, Int.le_refl _⟩⟩
    simp only [ofAdvertisement, ofBytes, MessageCodec.parse_serialize]
    exact carries_withWiser _ _
  | succ count induction =>
    rcases scaleCost_bounds nonneg linkNonneg scaled with ⟨nextNonneg, nextFits⟩
    rcases (wiserUpdates_succ declared known nextNonneg nextFits).mp updates with
      ⟨_, after, scaledAgain, rest⟩
    rcases induction nextNonneg scaledAgain rest with ⟨final, carries, finalFits, up, down⟩
    refine ⟨final, carries, finalFits, ?_, ?_⟩
    · intro rising
      have stillRising := scaleCost_mono nonneg rising linkNonneg scaled scaledAgain
      exact stillRising.trans (up stillRising)
    · intro falling
      have stillFalling := scaleCost_mono nextNonneg falling linkNonneg scaledAgain scaled
      rcases down stillFalling with ⟨finalNonneg, bounded⟩
      exact ⟨finalNonneg, bounded.trans stillFalling⟩

theorem cost_of_carries {info other : WiserInfo} (carries : Carries advertisement (some info))
    (carriesOther : Carries advertisement (some other))
    (fits : -2 ^ 31 ≤ info.cost ∧ info.cost < 2 ^ 31)
    (otherFits : -2 ^ 31 ≤ other.cost ∧ other.cost < 2 ^ 31) : info.cost = other.cost := by
  have values := carries.2.symm.trans carriesOther.2
  have decoded := congrArg decodePathCost (Option.some.inj values)
  rwa [decodePathCost_encodePathCost fits, decodePathCost_encodePathCost otherFits] at decoded

theorem known_of_update (nonneg : 0 ≤ cost) (fits : cost < 2 ^ 31)
    (update : wiserUpdateControlInfo .machine config session service
      (.ofAdvertisement (advertisement.withWiser ⟨toInt session.localAs, cost⟩)) =
        .ok (service', updated)) : toInt session.localAs ≠ -1 := by
  have carries := carries_withWiser advertisement ⟨toInt session.localAs, cost⟩
  have pathCost := getWiserPathCost_of_value carries.2
  have lastNode := getLastWiserNode_of_value carries.1
  rw [decodePathCost_encodePathCost ⟨by omega, fits⟩] at pathCost
  rw [stoi_decimal (toInt_bounds _)] at lastNode
  have costKnown : cost ≠ -1 := by omega
  simp only [wiserUpdateControlInfo, recordReceivedCost, ofAdvertisement, ofBytes, pathCost,
    lastNode, ok_bind, if_pos costKnown, bind_eq_ok, require_eq_ok] at update
  rcases update with ⟨_, _, _, ⟨_, known, _⟩, _⟩
  exact known

section

variable {times : Nat} (declared : session.linkCost config ≠ -1)
  (linkNonneg : 0 ≤ session.linkCost config) (nonneg : 0 ≤ cost) (fits : cost < 2 ^ 31)
  (updates : wiserUpdates .machine config session (times + 1) service
      (.ofAdvertisement (advertisement.withWiser ⟨toInt session.localAs, cost⟩)) =
    .ok (service', .ofAdvertisement (advertisement.withWiser ⟨toInt session.localAs, cost⟩)))
include declared linkNonneg nonneg fits updates

theorem absorbed_of_wiserUpdates :
    toInt session.localAs ≠ -1 ∧
      machine.readCounter (ownCounter service (toInt session.localAs) + cost) ≠ 0 ∧
      scaleCost machine.round cost 1 (session.linkCost config) = some cost ∧
      wiserUpdates .machine config session times
          (recordUpdate service (toInt session.localAs) cost
            (advertisement.withWiser ⟨toInt session.localAs, cost⟩))
          (.ofAdvertisement (advertisement.withWiser ⟨toInt session.localAs, cost⟩)) =
        .ok (service', .ofAdvertisement
          (advertisement.withWiser ⟨toInt session.localAs, cost⟩)) := by
  have known : toInt session.localAs ≠ -1 := by
    rcases bind_eq_ok.mp updates with ⟨result, update, _⟩
    exact known_of_update nonneg fits update
  rcases (wiserUpdates_succ declared known nonneg fits).mp updates with
    ⟨counted, next, scaled, rest⟩
  rcases wiserUpdates_direction declared linkNonneg known nonneg scaled rest with
    ⟨final, carries, finalFits, up, down⟩
  simp only [ofAdvertisement, ofBytes, MessageCodec.parse_serialize]
    at carries
  -- the last cost is the first again, so there was no way up or down
  have unchanged : next = cost := by
    have same : final = cost := cost_of_carries carries (carries_withWiser _ _)
      ⟨by dsimp only; omega, finalFits⟩ ⟨by dsimp only; omega, fits⟩
    rcases le_total cost next with rising | falling
    · omega
    · omega
  subst unchanged
  simp only [withWiser_self] at rest
  exact ⟨known, counted, scaled, rest⟩

theorem repeatable_of_wiserUpdates :
    Repeatable (toInt session.localAs) (session.linkCost config) cost
      (ownCounter service (toInt session.localAs)) (times + 1) := by
  induction times generalizing service with
  | zero =>
    rcases absorbed_of_wiserUpdates declared linkNonneg nonneg fits updates with
      ⟨known, counted, absorbed, _⟩
    apply repeatable_succ.mpr
    exact ⟨counted, known, absorbed, fun _ impossible => absurd impossible (Nat.not_lt_zero _)⟩
  | succ times induction =>
    rcases absorbed_of_wiserUpdates declared linkNonneg nonneg fits updates with
      ⟨_, counted, _, rest⟩
    have later := induction rest
    rw [ownCounter_recordUpdate] at later
    exact repeatable_succ.mpr ⟨counted, later⟩

end

end

end Quagga.Dbgp
