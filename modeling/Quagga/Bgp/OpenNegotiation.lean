import Quagga.Bgp.OpenCapability

/-!
# What an OPEN tells its receiver

The flags that the receiver sets depend on the list of capabilities only through what each of
them names. From that follows which parts of a configuration reach the other side.
-/

namespace Quagga.Bgp

open Foundation List FamilyTable

/-! ## One capability -/

def namesFamily (afi : Afi) (safi : Safi) (capability : UInt8 × Bytes) : Bool :=
  capability.1 = capabilityCodeMp && readFamily capability.2 = some (afi, safi)

def namesOrf (code : UInt8) (isMode : UInt8 → Bool) (afi : Afi) (safi : Safi)
    (capability : UInt8 × Bytes) : Bool :=
  capability.1 = code && readFamily capability.2 = some (afi, safi) && orfFamily afi safi &&
    (readOrfs (capability.2.getD 4 0).toNat (capability.2.drop 5)).any fun orf =>
      orf.1 = orfType code && isMode orf.2

def modeSends (mode : UInt8) : Bool := mode = 2 || mode = 3

def modeReceives (mode : UInt8) : Bool := mode = 1 || mode = 3

def namesRestart (afi : Afi) (safi : Safi) (capability : UInt8 × Bytes) : Bool :=
  capability.1 = capabilityCodeRestart &&
    (readRestartFamilies (capability.2.drop 2)).any fun entry => entry.1 = some (afi, safi)

section

variable {code other : UInt8} {afi : Afi} {safi : Safi} {data : Bytes}

theorem namesFamily_other (different : other ≠ capabilityCodeMp) :
    namesFamily afi safi (other, data) = false := by
  simp [namesFamily, different]

theorem namesOrf_other (different : other ≠ code) {isMode : UInt8 → Bool} :
    namesOrf code isMode afi safi (other, data) = false := by
  simp [namesOrf, different]

theorem namesRestart_other (different : other ≠ capabilityCodeRestart) :
    namesRestart afi safi (other, data) = false := by
  simp [namesRestart, different]

end

structure Learned (state : Negotiation) (capabilities : List (UInt8 × Bytes))
    (final : Negotiation) : Prop where
  afc : final.afc = state.afc
  overrides : final.overrideCapability = state.overrideCapability
  strict : final.strictCapMatch = state.strictCapMatch
  recv : ∀ afi safi, final.afcRecv afi safi = (state.afcRecv afi safi ||
    (!state.overrideCapability && capabilities.any (namesFamily afi safi)))
  nego : ∀ afi safi, final.afcNego afi safi = (state.afcNego afi safi ||
    (!state.overrideCapability && state.afc afi safi && capabilities.any (namesFamily afi safi)))
  sends : ∀ afi safi, final.orfSmRcv afi safi = (state.orfSmRcv afi safi ||
    capabilities.any (namesOrf capabilityCodeOrf modeSends afi safi))
  receives : ∀ afi safi, final.orfRmRcv afi safi = (state.orfRmRcv afi safi ||
    capabilities.any (namesOrf capabilityCodeOrf modeReceives afi safi))
  sendsOld : ∀ afi safi, final.orfSmOldRcv afi safi = (state.orfSmOldRcv afi safi ||
    capabilities.any (namesOrf capabilityCodeOrfOld modeSends afi safi))
  receivesOld : ∀ afi safi, final.orfRmOldRcv afi safi = (state.orfRmOldRcv afi safi ||
    capabilities.any (namesOrf capabilityCodeOrfOld modeReceives afi safi))
  restart : ∀ afi safi, final.restartAfRcv afi safi = (state.restartAfRcv afi safi ||
    (state.afc afi safi && capabilities.any (namesRestart afi safi)))

theorem Learned.nil (state : Negotiation) : Learned state [] state := by
  constructor <;> simp

variable {capability : UInt8 × Bytes}

theorem Learned.cons {state next final : Negotiation} {capabilities : List (UInt8 × Bytes)}
    (first : Learned state [capability] next) (rest : Learned next capabilities final) :
    Learned state (capability :: capabilities) final where
  afc := rest.afc.trans first.afc
  overrides := rest.overrides.trans first.overrides
  strict := rest.strict.trans first.strict
  recv afi safi := by
    rw [rest.recv, first.recv, first.overrides]
    simp [Bool.or_assoc, Bool.and_or_distrib_left]
  nego afi safi := by
    rw [rest.nego, first.nego, first.overrides, first.afc]
    simp [Bool.or_assoc, Bool.and_or_distrib_left]
  sends afi safi := by
    rw [rest.sends, first.sends]
    simp [Bool.or_assoc]
  receives afi safi := by
    rw [rest.receives, first.receives]
    simp [Bool.or_assoc]
  sendsOld afi safi := by
    rw [rest.sendsOld, first.sendsOld]
    simp [Bool.or_assoc]
  receivesOld afi safi := by
    rw [rest.receivesOld, first.receivesOld]
    simp [Bool.or_assoc]
  restart afi safi := by
    rw [rest.restart, first.restart, first.afc]
    simp [Bool.or_assoc, Bool.and_or_distrib_left]

theorem FamilyTable.set_true (table : FamilyTable) (afi otherAfi : Afi) (safi otherSafi : Safi) :
    table.set afi safi true otherAfi otherSafi =
      (table otherAfi otherSafi || decide ((afi, safi) = (otherAfi, otherSafi))) := by
  unfold set
  by_cases same : otherAfi = afi ∧ otherSafi = safi
  · simp [same]
  · rw [if_neg same, decide_eq_false]
    · simp
    · intro equal
      cases equal
      exact same ⟨rfl, rfl⟩

structure OrfLearned (code : UInt8) (afi : Afi) (safi : Safi) (state : Negotiation)
    (orfs : List (UInt8 × UInt8)) (final : Negotiation) : Prop where
  frame : final = { state with
    orfSmRcv := final.orfSmRcv
    orfRmRcv := final.orfRmRcv
    orfSmOldRcv := final.orfSmOldRcv
    orfRmOldRcv := final.orfRmOldRcv }
  sends : ∀ otherAfi otherSafi, final.orfSmRcv otherAfi otherSafi =
    (state.orfSmRcv otherAfi otherSafi || (decide (code = capabilityCodeOrf) &&
      decide ((afi, safi) = (otherAfi, otherSafi)) && orfFamily afi safi &&
      orfs.any fun orf => orf.1 = orfType code && modeSends orf.2))
  receives : ∀ otherAfi otherSafi, final.orfRmRcv otherAfi otherSafi =
    (state.orfRmRcv otherAfi otherSafi || (decide (code = capabilityCodeOrf) &&
      decide ((afi, safi) = (otherAfi, otherSafi)) && orfFamily afi safi &&
      orfs.any fun orf => orf.1 = orfType code && modeReceives orf.2))
  sendsOld : ∀ otherAfi otherSafi, final.orfSmOldRcv otherAfi otherSafi =
    (state.orfSmOldRcv otherAfi otherSafi || (!decide (code = capabilityCodeOrf) &&
      decide ((afi, safi) = (otherAfi, otherSafi)) && orfFamily afi safi &&
      orfs.any fun orf => orf.1 = orfType code && modeSends orf.2))
  receivesOld : ∀ otherAfi otherSafi, final.orfRmOldRcv otherAfi otherSafi =
    (state.orfRmOldRcv otherAfi otherSafi || (!decide (code = capabilityCodeOrf) &&
      decide ((afi, safi) = (otherAfi, otherSafi)) && orfFamily afi safi &&
      orfs.any fun orf => orf.1 = orfType code && modeReceives orf.2))

theorem applyOrf_learned (code : UInt8) (afi : Afi) (safi : Safi) (state : Negotiation)
    (orf : UInt8 × UInt8) :
    OrfLearned code afi safi state [orf] (applyOrf code afi safi state orf) := by
  rcases orf with ⟨type, mode⟩
  by_cases known : mode = 1 ∨ mode = 2 ∨ mode = 3
  · by_cases matching : type = orfType code
    · cases allowed : orfFamily afi safi with
      | false => constructor <;> simp [applyOrf, allowed]
      | true =>
        by_cases isNew : code = capabilityCodeOrf
        all_goals
          constructor
          · simp [applyOrf, known, matching, allowed, isNew]
          all_goals
            intro otherAfi otherSafi
            rcases known with rfl | rfl | rfl <;>
              simp [applyOrf, matching, allowed, isNew, modeSends, modeReceives, set_true]
    · constructor <;> simp [applyOrf, matching]
  · have noMode : modeSends mode = false ∧ modeReceives mode = false := by
      simp only [modeSends, modeReceives]
      grind
    constructor <;> simp [applyOrf, known, noMode]

theorem foldl_applyOrf_learned (code : UInt8) (afi : Afi) (safi : Safi)
    (orfs : List (UInt8 × UInt8)) (state : Negotiation) :
    OrfLearned code afi safi state orfs (orfs.foldl (applyOrf code afi safi) state) := by
  induction orfs generalizing state with
  | nil => constructor <;> simp
  | cons orf orfs induction =>
    have first := applyOrf_learned code afi safi state orf
    have rest := induction (applyOrf code afi safi state orf)
    rw [foldl_cons]
    constructor
    · rw [rest.frame, first.frame]
    all_goals
      intro otherAfi otherSafi
      first
        | rw [rest.sends, first.sends]
        | rw [rest.receives, first.receives]
        | rw [rest.sendsOld, first.sendsOld]
        | rw [rest.receivesOld, first.receivesOld]
      simp [Bool.or_assoc, Bool.and_or_distrib_left]

theorem foldl_applyRestartFamily (entries : List (Option (Afi × Safi) × UInt8))
    (state : Negotiation) :
    ∃ table preserve, entries.foldl applyRestartFamily state =
        { state with restartAfRcv := table, restartAfPreserveRcv := preserve } ∧
      ∀ afi safi, table afi safi = (state.restartAfRcv afi safi ||
        (state.afc afi safi && entries.any fun entry => entry.1 = some (afi, safi))) := by
  induction entries generalizing state with
  | nil => exact ⟨state.restartAfRcv, state.restartAfPreserveRcv, rfl, by simp⟩
  | cons entry entries induction =>
    rcases induction (applyRestartFamily state entry) with ⟨table, preserve, same, marks⟩
    rw [foldl_cons, same]
    rcases entry with ⟨family?, flag⟩
    cases family? with
    | none =>
      refine ⟨table, preserve, rfl, fun afi safi => ?_⟩
      rw [marks]
      simp [applyRestartFamily]
    | some family =>
      rcases family with ⟨ownAfi, ownSafi⟩
      cases enabled : state.afc ownAfi ownSafi with
      | false =>
        have unchanged : applyRestartFamily state (some (ownAfi, ownSafi), flag) = state := by
          simp [applyRestartFamily, enabled]
        refine ⟨table, preserve, by rw [unchanged], fun afi safi => ?_⟩
        rw [marks, unchanged]
        by_cases own : (ownAfi, ownSafi) = (afi, safi)
        · cases own
          simp [enabled]
        · simp [own]
      | true =>
        refine ⟨table, preserve, by simp [applyRestartFamily, enabled], fun afi safi => ?_⟩
        rw [marks]
        simp only [applyRestartFamily, enabled, not_true_eq_false, if_false, set_true]
        by_cases own : (ownAfi, ownSafi) = (afi, safi)
        · cases own
          simp [enabled]
        · simp [own]

variable {state next : Negotiation} {code : UInt8} {data : Bytes}

theorem Learned.of_frame (noMp : code ≠ capabilityCodeMp) (noOrf : code ≠ capabilityCodeOrf)
    (noOrfOld : code ≠ capabilityCodeOrfOld) (noRestart : code ≠ capabilityCodeRestart)
    (frame : next = { state with
      refreshNewRcv := next.refreshNewRcv
      refreshOldRcv := next.refreshOldRcv
      dynamicRcv := next.dynamicRcv
      as4Rcv := next.as4Rcv
      unsupported := next.unsupported }) : Learned state [(code, data)] next := by
  rw [frame]
  constructor <;>
    simp [namesFamily, namesOrf, namesRestart, noMp, noOrf, noOrfOld, noRestart]

theorem mp_learned (state : Negotiation) (data : Bytes) :
    Learned state [(capabilityCodeMp, data)]
      (if state.overrideCapability then { state with mpCapability := true }
        else bgpCapabilityMp data { state with mpCapability := true }) := by
  have noOrf : capabilityCodeMp ≠ capabilityCodeOrf := by decide
  have noOrfOld : capabilityCodeMp ≠ capabilityCodeOrfOld := by decide
  have noRestart : capabilityCodeMp ≠ capabilityCodeRestart := by decide
  cases overrides : state.overrideCapability with
  | true =>
    constructor <;> simp [namesOrf_other noOrf, namesOrf_other noOrfOld,
      namesRestart_other noRestart, overrides]
  | false =>
    cases family : readFamily data with
    | none =>
      constructor <;> simp [bgpCapabilityMp, namesFamily, family, namesOrf_other noOrf,
        namesOrf_other noOrfOld, namesRestart_other noRestart, overrides]
    | some pair =>
      rcases pair with ⟨ownAfi, ownSafi⟩
      have names : ∀ afi safi, namesFamily afi safi (capabilityCodeMp, data) =
          decide ((ownAfi, ownSafi) = (afi, safi)) := by
        intro afi safi
        simp [namesFamily, family]
      constructor
      case nego =>
        intro afi safi
        by_cases own : (ownAfi, ownSafi) = (afi, safi)
        · cases own
          cases enabled : state.afc ownAfi ownSafi <;>
            simp [bgpCapabilityMp, family, names, enabled, overrides, set_true]
        · cases enabled : state.afc ownAfi ownSafi <;>
            simp [bgpCapabilityMp, family, names, enabled, own, set_true]
      all_goals
        cases enabled : state.afc ownAfi ownSafi <;>
          simp [bgpCapabilityMp, family, names, namesOrf_other noOrf, namesOrf_other noOrfOld,
            namesRestart_other noRestart, enabled, overrides, set_true]

theorem orf_learned (isOrf : code = capabilityCodeOrf ∨ code = capabilityCodeOrfOld)
    (parsed : bgpCapabilityOrfEntry code data state = .ok next) :
    Learned state [(code, data)] next := by
  have noMp : code ≠ capabilityCodeMp := by rcases isOrf with rfl | rfl <;> decide
  have noRestart : code ≠ capabilityCodeRestart := by rcases isOrf with rfl | rfl <;> decide
  simp only [bgpCapabilityOrfEntry] at parsed
  cases family : readFamily data with
  | none =>
    simp only [family] at parsed
    cases parsed
    constructor <;> simp [namesFamily_other noMp, namesRestart_other noRestart, namesOrf, family]
  | some pair =>
    rcases pair with ⟨ownAfi, ownSafi⟩
    simp only [family] at parsed
    split at parsed
    · cases parsed
    · cases parsed
      have learned := foldl_applyOrf_learned code ownAfi ownSafi
        (readOrfs (data.getD 4 0).toNat (data.drop 5)) state
      -- the flags of the other code stay
      have names : ∀ (own : UInt8) (isMode : UInt8 → Bool) (afi : Afi) (safi : Safi),
          namesOrf own isMode afi safi (code, data) = (decide (code = own) &&
            decide ((ownAfi, ownSafi) = (afi, safi)) && orfFamily ownAfi ownSafi &&
            (readOrfs (data.getD 4 0).toNat (data.drop 5)).any fun orf =>
              orf.1 = orfType code && isMode orf.2) := by
        intro own isMode afi safi
        simp only [namesOrf, family, Option.some.injEq]
        by_cases isOwn : code = own
        · cases isOwn
          by_cases same : (ownAfi, ownSafi) = (afi, safi)
          · cases same
            rfl
          · simp [same]
        · simp [isOwn]
      have oldIff : decide (code = capabilityCodeOrfOld) = !decide (code = capabilityCodeOrf) := by
        rcases isOrf with rfl | rfl <;> decide
      constructor
      case sends => intro afi safi; rw [learned.sends]; simp [names]
      case receives => intro afi safi; rw [learned.receives]; simp [names]
      case sendsOld => intro afi safi; rw [learned.sendsOld]; simp [names, oldIff]
      case receivesOld => intro afi safi; rw [learned.receivesOld]; simp [names, oldIff]
      all_goals rw [learned.frame]
      all_goals simp [namesFamily_other noMp, namesRestart_other noRestart]

theorem restart_learned (state : Negotiation) (data : Bytes) :
    Learned state [(capabilityCodeRestart, data)] (bgpCapabilityRestart data state) := by
  have noMp : capabilityCodeRestart ≠ capabilityCodeMp := by decide
  have noOrf : capabilityCodeRestart ≠ capabilityCodeOrf := by decide
  have noOrfOld : capabilityCodeRestart ≠ capabilityCodeOrfOld := by decide
  rcases foldl_applyRestartFamily (readRestartFamilies (data.drop 2))
    { state with
      restartRcv := true
      restartBitRcv := state.restartBitRcv || 0x8000 ≤ readBigEndian (data.take 2)
      grRestart := readBigEndian (data.take 2) % 0x1000 } with ⟨table, preserve, same, marks⟩
  rw [bgpCapabilityRestart, same]
  constructor
  case restart =>
    intro afi safi
    show table afi safi = _
    rw [marks]
    simp [namesRestart]
  all_goals simp [namesFamily_other noMp, namesOrf_other noOrf, namesOrf_other noOrfOld]

theorem parseCapability_learned (parsed : parseCapability state capability = .ok next) :
    Learned state [capability] next := by
  revert parsed
  fun_cases parseCapability state capability with
  | case2 data _ marked =>
    rintro ⟨⟩
    exact mp_learned state data
  | case3 | case4 | case7 | case9 =>
    rintro ⟨⟩
    exact .of_frame (by decide) (by decide) (by decide) (by decide) rfl
  | case5 code data _ _ _ _ isOrf => exact orf_learned isOrf
  | case6 data =>
    rintro ⟨⟩
    exact restart_learned state data
  | case10 code data _ noMp _ _ noOrf noRestart | case11 code data _ noMp _ _ noOrf noRestart =>
    rintro ⟨⟩
    rcases not_or.mp noOrf with ⟨notOrf, notOrfOld⟩
    exact .of_frame noMp notOrf notOrfOld noRestart rfl
  | case1 | case8 => exact nofun

variable {state final : Negotiation}

theorem foldlM_learned {capabilities : List (UInt8 × Bytes)}
    (parsed : capabilities.foldlM parseCapability state = .ok final) :
    Learned state capabilities final := by
  induction capabilities generalizing state with
  | nil =>
    cases parsed
    exact .nil _
  | cons capability capabilities induction =>
    rcases foldlM_cons_ok.mp parsed with ⟨next, first, rest⟩
    exact .cons (parseCapability_learned first) (induction rest)

/-! ## The parameters -/

def capabilitiesOf (options : List (UInt8 × Bytes)) : List (UInt8 × Bytes) :=
  options.flatMap fun option => (taggedReader.records option.2).1

theorem peekForAs4Within_eq {fuel : Nat} {field : Bytes} (enough : field.length ≤ fuel)
    (whole : (taggedReader.records field).2 = true)
    (each : ∀ option ∈ (taggedReader.records field).1,
      option.1 = bgpOpenOptCap ∧ (taggedReader.records option.2).2 = true) :
    peekForAs4Within fuel field = ((capabilitiesOf (taggedReader.records field).1).find?
      fun capability => capability.1 = capabilityCodeAs4).map
        fun capability => bgpCapabilityAs4 capability.2 := by
  induction fuel generalizing field with
  | zero =>
    cases length_eq_zero_iff.mp (Nat.le_zero.mp enough)
    rfl
  | succ fuel induction =>
    cases found : readTagged field with
    | none =>
      have empty : field = [] := by
        by_contra nonempty
        simp [taggedReader.records_of_unreadable nonempty found] at whole
      rw [empty]
      rfl
    | some read =>
      rcases read with ⟨⟨tag, data⟩, next⟩
      rw [taggedReader.records_of_read found] at each whole ⊢
      rcases forall_mem_cons.mp each with ⟨⟨isCap, complete⟩, rest⟩
      have shorter := taggedReader.progress found
      have later := induction (by omega) whole rest
      rcases readTagged_some found with ⟨size, following, rfl, fits, rfl, rfl⟩
      rw [peekForAs4Within, if_neg (Nat.not_lt.mpr fits), if_pos isCap]
      dsimp only at complete ⊢
      rw [complete, later, capabilitiesOf, capabilitiesOf, flatMap_cons, find?_append]
      cases (taggedReader.records (following.take size.toNat)).1.find? _ <;> rfl

theorem records_capability (short : capability.2.length ≤ 255) :
    taggedReader.records (putTagged capability) = ([capability], true) := by
  have all := @records_putTagged [capability] (by simpa using short)
  simpa using all

theorem parseOption_capability (short : capability.2.length ≤ 255) (state : Negotiation) :
    parseOption state (bgpOpenOptCap, putTagged capability) = parseCapability state capability := by
  have parsed : parseOption state (bgpOpenOptCap, putTagged capability) =
      bgpCapabilityParse (putTagged capability) state := rfl
  have alone : [capability].foldlM parseCapability state = parseCapability state capability := by
    simp only [foldlM_cons, foldlM_nil, bind_pure]
  rw [parsed, bgpCapabilityParse, records_capability short]
  simp only [alone]
  cases parseCapability state capability <;> rfl

section

variable {capabilities : List (UInt8 × Bytes)}
  (short : ∀ capability ∈ capabilities, capability.2.length ≤ 253)
include short

theorem records_capabilityOptions :
    taggedReader.records (capabilities.flatMap capabilityOption) =
      (capabilities.map fun capability => (bgpOpenOptCap, putTagged capability), true) := by
  have asOptions : capabilities.flatMap capabilityOption =
      (capabilities.map fun capability => (bgpOpenOptCap, putTagged capability)).flatMap
        putTagged := by
    rw [flatMap_map]
    rfl
  rw [asOptions]
  apply records_putTagged
  rw [forall_mem_map]
  intro capability isMember
  have bound := short capability isMember
  rw [length_putTagged]
  omega

theorem foldlM_parseOption (state : Negotiation) :
    (capabilities.map fun capability => (bgpOpenOptCap, putTagged capability)).foldlM parseOption
      state = capabilities.foldlM parseCapability state := by
  induction capabilities generalizing state with
  | nil => rfl
  | cons capability capabilities induction =>
    rcases forall_mem_cons.mp short with ⟨first, rest⟩
    rw [map_cons, foldlM_cons, parseOption_capability (by omega)]
    congr 1
    funext next
    exact induction rest next

theorem capabilitiesOf_options :
    capabilitiesOf (capabilities.map fun capability => (bgpOpenOptCap, putTagged capability)) =
      capabilities := by
  rw [capabilitiesOf, flatMap_map]
  refine (flatMap_congr fun capability member => ?_).trans (flatMap_singleton' _)
  rw [records_capability (Nat.le_trans (short capability member) (by decide))]

end

/-! ## The capabilities of a configuration -/

variable (config : CapabilityConfig)

theorem readFamily_mpData (family : Afi × Safi) : readFamily (mpData family) = some family := by
  rcases family with ⟨afi, safi⟩
  cases afi <;> cases safi <;> decide

theorem any_openCapabilities (names : UInt8 × Bytes → Bool) :
    (openCapabilities config).any names =
      (allFamilies.any (fun family => config.afc family.1 family.2 &&
          names (capabilityCodeMp, mpData family)) ||
        (names (capabilityCodeRefreshOld, []) || (names (capabilityCodeRefresh, []) ||
          names (capabilityCodeAs4, bigEndian 4 config.localAs.toNat))) ||
        allFamilies.any (fun family => config.orf family.1 family.2 &&
          (names (bgpOpenCapabilityOrf config capabilityCodeOrfOld family) ||
            names (bgpOpenCapabilityOrf config capabilityCodeOrf family))) ||
        (config.dynamicCapability && names (capabilityCodeDynamic, [])) ||
        names (capabilityCodeRestart, restartData config)) := by
  have dynamic : (if config.dynamicCapability then [(capabilityCodeDynamic, ([] : Bytes))]
      else []).any names = (config.dynamicCapability && names (capabilityCodeDynamic, [])) := by
    cases config.dynamicCapability <;> simp
  simp only [openCapabilities, any_append, any_map, any_filter, any_flatMap,
    any_cons, any_nil, Bool.or_false, Function.comp_def, dynamic]

theorem any_namesFamily (afi : Afi) (safi : Safi) :
    (openCapabilities config).any (namesFamily afi safi) = config.afc afi safi := by
  rw [any_openCapabilities]
  simp (disch := decide) only [bgpOpenCapabilityOrf, namesFamily_other, Bool.or_false,
    Bool.and_false]
  simp only [namesFamily, readFamily_mpData]
  cases afi <;> cases safi <;> simp [allFamilies]

theorem namesOrf_written (isMode : UInt8 → Bool) (afi : Afi) (safi : Safi) (family : Afi × Safi) :
    namesOrf code isMode afi safi (bgpOpenCapabilityOrf config code family) =
      (decide (family = (afi, safi)) && orfFamily afi safi &&
        isMode (orfMode (config.orfSend family.1 family.2)
          (config.orfReceive family.1 family.2))) := by
  unfold bgpOpenCapabilityOrf
  generalize orfMode (config.orfSend family.1 family.2) (config.orfReceive family.1 family.2) = mode
  have family? : readFamily (mpData family ++ [1, orfType code, mode]) = some family := by
    rw [← readFamily_mpData family]
    rfl
  have orfs : readOrfs ((mpData family ++ [1, orfType code, mode]).getD 4 0).toNat
      ((mpData family ++ [1, orfType code, mode]).drop 5) = [(orfType code, mode)] := rfl
  simp only [namesOrf, family?, orfs, decide_true, Bool.true_and, Option.some.injEq, any_cons,
    any_nil, Bool.or_false]

theorem noFamily : (allFamilies.any fun _ => false) = false := rfl

theorem any_namesOrf (isOrf : code = capabilityCodeOrf ∨ code = capabilityCodeOrfOld)
    (isMode : UInt8 → Bool) (afi : Afi) (safi : Safi) :
    (openCapabilities config).any (namesOrf code isMode afi safi) =
      (orfFamily afi safi && config.orf afi safi &&
        isMode (orfMode (config.orfSend afi safi) (config.orfReceive afi safi))) := by
  have otherOrf : ∀ other family, other ≠ code →
      namesOrf code isMode afi safi (bgpOpenCapabilityOrf config other family) = false :=
    fun _ _ different => namesOrf_other different
  rw [any_openCapabilities]
  rcases isOrf with rfl | rfl
  all_goals
    simp (disch := decide) only [namesOrf_other, otherOrf, namesOrf_written, Bool.and_false,
      Bool.or_false, noFamily, Bool.false_or]
    cases afi <;> cases safi <;> simp [allFamilies, orfFamily]

section

variable (isOrf : code = capabilityCodeOrf ∨ code = capabilityCodeOrfOld) (afi : Afi) (safi : Safi)
include isOrf

theorem any_sends : (openCapabilities config).any (namesOrf code modeSends afi safi) =
    (orfFamily afi safi && config.orfSend afi safi) := by
  rw [any_namesOrf config isOrf, CapabilityConfig.orf]
  cases config.orfSend afi safi <;> cases config.orfReceive afi safi <;>
    simp [modeSends, orfMode]

theorem any_receives : (openCapabilities config).any (namesOrf code modeReceives afi safi) =
    (orfFamily afi safi && config.orfReceive afi safi) := by
  rw [any_namesOrf config isOrf, CapabilityConfig.orf]
  cases config.orfSend afi safi <;> cases config.orfReceive afi safi <;>
    simp [modeReceives, orfMode]

end

theorem readRestartFamilies_written (families : List (Afi × Safi)) :
    readRestartFamilies (families.flatMap fun family =>
      bigEndian 2 family.1.code ++ [family.2.index, 0]) =
        families.map fun family => (some family, 0) := by
  induction families with
  | nil => rfl
  | cons family families induction =>
    rcases family with ⟨afi, safi⟩
    have code : bigEndian 2 afi.code = [0, UInt8.ofNat afi.code] := by
      cases afi <;> decide
    have valid : bgpAfiSafiValidIndices (readBigEndian [0, UInt8.ofNat afi.code])
        safi.index.toNat = some (afi, safi) := by
      cases afi <;> cases safi <;> decide
    have first : ∀ rest, readRestartFamilies
        (bigEndian 2 afi.code ++ [safi.index, 0] ++ rest) =
        (some (afi, safi), 0) :: readRestartFamilies rest := by
      intro rest
      rw [code]
      simp only [cons_append, nil_append, readRestartFamilies, valid]
    rw [flatMap_cons, first, induction, map_cons]

theorem any_namesRestart (afi : Afi) (safi : Safi) :
    (openCapabilities config).any (namesRestart afi safi) =
      (config.gracefulRestart && config.afc afi safi) := by
  have dropped : (restartData config).drop 2 = if config.gracefulRestart then
      (allFamilies.filter fun family => config.afc family.1 family.2).flatMap fun family =>
        bigEndian 2 family.1.code ++ [family.2.index, 0]
      else [] := by
    rw [restartData, drop_left' (length_bigEndian 2 _)]
  rw [any_openCapabilities]
  simp (disch := decide) only [bgpOpenCapabilityOrf, namesRestart_other, Bool.or_false,
    Bool.and_false, noFamily, Bool.false_or]
  simp only [namesRestart, dropped]
  cases config.gracefulRestart with
  | false => rfl
  | true =>
    simp only [if_true, readRestartFamilies_written]
    cases afi <;> cases safi <;> simp [allFamilies]

/-! ## Sizes -/

theorem length_restartData :
    2 ≤ (restartData config).length ∧ (restartData config).length ≤ 26 := by
  have families : (allFamilies.filter fun family =>
      config.afc family.1 family.2).length ≤ 6 := length_filter_le _ _
  have written : ∀ families : List (Afi × Safi), (families.flatMap fun family =>
      bigEndian 2 family.1.code ++ [family.2.index, 0]).length = 4 * families.length := by
    intro families
    simp [Nat.mul_comm]
  rw [restartData, length_append, length_bigEndian]
  split
  · rw [written]
    omega
  · simp

theorem length_mpData (family : Afi × Safi) : (mpData family).length = 4 := by
  simp [mpData]

theorem length_openOptions_le : (openOptions config).length ≤ 255 := by
  have size : ∀ capabilities : List (UInt8 × Bytes),
      (capabilities.flatMap capabilityOption).length =
        (capabilities.map fun capability => capability.2.length + 4).sum := by
    intro capabilities
    simp only [length_flatMap, capabilityOption, length_putTagged]
  have families : (allFamilies.filter fun family =>
      config.afc family.1 family.2).length ≤ 6 := length_filter_le _ _
  have orfs : (allFamilies.filter fun family =>
      config.orf family.1 family.2).length ≤ 6 := length_filter_le _ _
  have orfSize : ∀ families : List (Afi × Safi), ((families.flatMap fun family =>
      [bgpOpenCapabilityOrf config capabilityCodeOrfOld family,
        bgpOpenCapabilityOrf config capabilityCodeOrf family]).map
          fun capability => capability.2.length + 4).sum = 22 * families.length := by
    intro families
    induction families with
    | nil => rfl
    | cons family families induction =>
      simp only [flatMap_cons, map_append, sum_append, induction]
      simp [bgpOpenCapabilityOrf, length_mpData]
      omega
  have mpSize : ∀ families : List (Afi × Safi), ((families.map
      fun family => (capabilityCodeMp, mpData family)).map
        fun capability => capability.2.length + 4).sum = 8 * families.length := by
    intro families
    simp [Function.comp_def, length_mpData, Nat.mul_comm]
  have dynamic : ((if config.dynamicCapability then [(capabilityCodeDynamic, ([] : Bytes))]
      else []).map fun capability : UInt8 × Bytes => capability.2.length + 4).sum ≤ 4 := by
    split <;> simp
  have restart := length_restartData config
  rw [openOptions, size, openCapabilities]
  simp only [map_append, sum_append, mpSize, orfSize, map_cons, map_nil,
    sum_cons, sum_nil, length_nil, length_bigEndian]
  omega

/-! ## What arrives -/

theorem bgpCapabilityAs4_written (as : UInt32) : bgpCapabilityAs4 (bigEndian 4 as.toNat) = as := by
  rw [bgpCapabilityAs4, readBigEndian_bigEndian as.toNat_lt]
  simp

theorem parseCapability_restart (long : 2 ≤ data.length) (state : Negotiation) :
    parseCapability state (capabilityCodeRestart, data) =
      .ok (bgpCapabilityRestart data state) := by
  have enough : ¬ data.length < capMinsize capabilityCodeRestart := Nat.not_lt.mpr long
  rw [parseCapability, if_neg enough]
  rfl

theorem parseCapability_as4 {as : UInt32} (valid : as ≠ 0) (state : Negotiation) :
    parseCapability state (capabilityCodeAs4, bigEndian 4 as.toNat) =
      .ok { state with as4Rcv := true } := by
  have nonzero : ¬ bgpCapabilityAs4 (bigEndian 4 as.toNat) = 0 := by
    rw [bgpCapabilityAs4_written]
    exact valid
  have parsed : parseCapability state (capabilityCodeAs4, bigEndian 4 as.toNat) =
      if bgpCapabilityAs4 (bigEndian 4 as.toNat) = 0 then .error .as4Invalid
      else .ok { state with as4Rcv := true } := rfl
  rw [parsed, if_neg nonzero]

theorem parseCapability_orf (isOrf : code = capabilityCodeOrf ∨ code = capabilityCodeOrfOld)
    (family : Afi × Safi) (state : Negotiation) :
    ∃ next, parseCapability state (bgpOpenCapabilityOrf config code family) = .ok next := by
  have parsed : parseCapability state (bgpOpenCapabilityOrf config code family) =
      bgpCapabilityOrfEntry code (bgpOpenCapabilityOrf config code family).2 state := by
    rcases isOrf with rfl | rfl <;> rfl
  rw [parsed, bgpCapabilityOrfEntry]
  cases readFamily (bgpOpenCapabilityOrf config code family).2 with
  | none => exact ⟨_, rfl⟩
  | some pair => exact ⟨_, rfl⟩

theorem mem_openCapabilities {capability : UInt8 × Bytes}
    (member : capability ∈ openCapabilities config) : capability.2.length ≤ 253 ∧
      (config.localAs ≠ 0 → ∀ state, ∃ next, parseCapability state capability = .ok next) := by
  have restart := length_restartData config
  simp only [openCapabilities, mem_append, mem_map, mem_flatMap, mem_cons,
    not_mem_nil, or_false] at member
  rcases member with (((⟨family, _, rfl⟩ | (rfl | rfl | rfl)) | ⟨family, _, (rfl | rfl)⟩) |
    dynamic) | rfl
  · exact ⟨by simp [length_mpData], fun _ state => ⟨_, rfl⟩⟩
  · exact ⟨by simp, fun _ state => ⟨_, rfl⟩⟩
  · exact ⟨by simp, fun _ state => ⟨_, rfl⟩⟩
  · exact ⟨by simp, fun valid state => ⟨_, parseCapability_as4 valid state⟩⟩
  · exact ⟨by simp [bgpOpenCapabilityOrf, length_mpData],
      fun _ => parseCapability_orf config (.inr rfl) family⟩
  · exact ⟨by simp [bgpOpenCapabilityOrf, length_mpData],
      fun _ => parseCapability_orf config (.inl rfl) family⟩
  · split at dynamic
    · simp only [mem_cons, not_mem_nil, or_false] at dynamic
      rw [dynamic]
      exact ⟨by simp, fun _ state => ⟨_, rfl⟩⟩
    · cases dynamic
  · exact ⟨le_trans restart.2 (by decide),
      fun _ state => ⟨_, parseCapability_restart restart.1 state⟩⟩

theorem openCapabilities_short (capability : UInt8 × Bytes)
    (member : capability ∈ openCapabilities config) : capability.2.length ≤ 253 :=
  (mem_openCapabilities config member).1

theorem peekForAs4Capability_openOptions :
    peekForAs4Capability (openOptions config) = config.localAs := by
  have found : (openCapabilities config).find?
      (fun capability => capability.1 = capabilityCodeAs4) =
        some (capabilityCodeAs4, bigEndian 4 config.localAs.toNat) := by
    have families : ((allFamilies.filter fun family => config.afc family.1 family.2).map
        fun family => (capabilityCodeMp, mpData family)).find?
          (fun capability => capability.1 = capabilityCodeAs4) = none := by
      rw [find?_eq_none, forall_mem_map]
      intro family _
      simp only [decide_eq_true_eq]
      decide
    simp only [openCapabilities, find?_append, families]
    rfl
  have short := openCapabilities_short config
  have records := records_capabilityOptions short
  rw [← openOptions] at records
  have each : ∀ option ∈ (taggedReader.records (openOptions config)).1,
      option.1 = bgpOpenOptCap ∧ (taggedReader.records option.2).2 = true := by
    rw [records, forall_mem_map]
    intro capability sent
    rw [records_capability (Nat.le_trans (short capability sent) (by decide))]
    exact ⟨rfl, rfl⟩
  rw [peekForAs4Capability, peekForAs4Within_eq (Nat.le_refl _) (by rw [records]) each, records,
    capabilitiesOf_options short, found]
  exact bgpCapabilityAs4_written config.localAs

theorem foldlM_openCapabilities (valid : config.localAs ≠ 0) (state : Negotiation) :
    ∃ final, (openCapabilities config).foldlM parseCapability state = .ok final := by
  have each : ∀ capability ∈ openCapabilities config, ∀ state,
      ∃ next, parseCapability state capability = .ok next :=
    fun _ member => (mem_openCapabilities config member).2 valid
  generalize openCapabilities config = capabilities at each
  induction capabilities generalizing state with
  | nil => exact ⟨state, rfl⟩
  | cons capability capabilities induction =>
    rcases forall_mem_cons.mp each with ⟨here, later⟩
    rcases here state with ⟨next, first⟩
    rcases induction next later with ⟨final, rest⟩
    exact ⟨final, foldlM_cons_ok.mpr ⟨next, first, rest⟩⟩

theorem localAs_of_foldlM
    (parsed : (openCapabilities config).foldlM parseCapability state = .ok final) :
    config.localAs ≠ 0 := by
  intro zero
  have sent : (capabilityCodeAs4, bigEndian 4 0) ∈ openCapabilities config := by
    simp [openCapabilities, zero]
  rcases exists_step_of_foldlM parsed sent with ⟨before, after, accepted⟩
  cases accepted

theorem bgpOpenOptionParse_openOptions (lenient : state.strictCapMatch = false) :
    bgpOpenOptionParse (openOptions config) state = .ok final ↔
      (openCapabilities config).foldlM parseCapability state = .ok final ∧
        ¬ (final.mpCapability = true ∧ ¬ final.overrideCapability = true ∧
          ¬ families.any (fun family => final.afcNego family.1 family.2) = true) := by
  rw [bgpOpenOptionParse, openOptions, records_capabilityOptions (openCapabilities_short config)]
  simp only [foldlM_parseOption (openCapabilities_short config)]
  cases run : (openCapabilities config).foldlM parseCapability state with
  | error error => exact ⟨nofun, fun both => nomatch both.1⟩
  | ok reached =>
    have strict := (foldlM_learned run).strict.trans lenient
    simp only [bind, Except.bind, strict, Bool.false_eq_true, false_and, if_false,
      not_true_eq_false]
    split_ifs with refused
    · refine ⟨nofun, ?_⟩
      rintro ⟨⟨⟩, accepted⟩
      exact absurd refused accepted
    · refine ⟨?_, And.left⟩
      rintro ⟨⟩
      exact ⟨rfl, refused⟩

/-- The length octet is right, the AS number is found, and the receiver accepts the parameters
and knows the families, the filters and the restart families of the sender. -/
def OpenUnderstood (config : CapabilityConfig) (receiver : Negotiation) : Prop :=
  ∃ length options, bgpOpenCapability config = length :: options ∧
    length.toNat = options.length ∧ peekForAs4Capability options = config.localAs ∧
    ∃ final, bgpOpenOptionParse options receiver = .ok final ∧
      final.afcRecv = config.afc ∧
      final.orfSmRcv = config.orfSend ∧ final.orfRmRcv = config.orfReceive ∧
      final.orfSmOldRcv = config.orfSend ∧ final.orfRmOldRcv = config.orfReceive ∧
      final.restartAfRcv = config.afc

theorem orfFamily_and_iff (table : FamilyTable) (noVpn : ∀ afi, table afi .mplsVpn = false) :
    (∀ afi safi, (orfFamily afi safi && table afi safi) = table afi safi) ↔
      table .ip6 .multicast = false := by
  constructor
  · intro same
    exact (same .ip6 .multicast).symm
  · intro noMulticast6 afi safi
    cases afi <;> cases safi <;> simp [orfFamily, noVpn, noMulticast6]

/-- With a receiver that is not strict and shares a family with the sender, an OPEN is
understood exactly where the sender has an AS number and no filter for IPv6 multicast, and
announces a graceful restart, and the receiver does not override capabilities and has all
families of the sender. -/
theorem open_negotiation_iff (config : CapabilityConfig) (afc : FamilyTable)
    (overrideCapability : Bool)
    (shared : ∃ afi safi, config.afc afi safi = true ∧ afc afi safi = true) :
    OpenUnderstood config (.start afc overrideCapability false) ↔
      config.localAs ≠ 0 ∧ overrideCapability = false ∧
        config.orfSend .ip6 .multicast = false ∧ config.orfReceive .ip6 .multicast = false ∧
        ∀ afi safi, config.afc afi safi = true →
          config.gracefulRestart = true ∧ afc afi safi = true := by
  rcases shared with ⟨sharedAfi, sharedSafi, sent, had⟩
  have noVpnSend := fun afi => (config.noVpnOrf afi).1
  have noVpnReceive := fun afi => (config.noVpnOrf afi).2
  constructor
  · rintro ⟨length, options, isField, _, _, final, parsed, recv, sends, receives, _, _, restart⟩
    cases isField
    have folded := ((bgpOpenOptionParse_openOptions config rfl).mp parsed).1
    have learned := foldlM_learned folded
    refine ⟨localAs_of_foldlM config folded, ?_, ?_, ?_, ?_⟩
    · have known := learned.recv sharedAfi sharedSafi
      rw [recv, any_namesFamily, sent] at known
      simpa [Negotiation.start, FamilyTable.empty] using known
    · apply (orfFamily_and_iff config.orfSend noVpnSend).mp
      intro afi safi
      have known := learned.sends afi safi
      rw [sends, any_sends config (.inl rfl)] at known
      simpa [Negotiation.start, FamilyTable.empty] using known.symm
    · apply (orfFamily_and_iff config.orfReceive noVpnReceive).mp
      intro afi safi
      have known := learned.receives afi safi
      rw [receives, any_receives config (.inl rfl)] at known
      simpa [Negotiation.start, FamilyTable.empty] using known.symm
    · intro afi safi has
      have known := learned.restart afi safi
      rw [restart, any_namesRestart, has] at known
      simp only [Bool.and_true] at known
      have both := Bool.and_eq_true_iff.mp known.symm
      exact ⟨both.2, both.1⟩
  · rintro ⟨valid, notOverridden, noSend6, noReceive6, restarts⟩
    rcases foldlM_openCapabilities config valid (.start afc overrideCapability false) with
      ⟨final, folded⟩
    have learned := foldlM_learned folded
    have nego : final.afcNego sharedAfi sharedSafi = true := by
      rw [learned.nego, any_namesFamily, sent]
      simp [Negotiation.start, notOverridden, had]
    have isFamily : (sharedAfi, sharedSafi) ∈ families := by
      have noVpn6 := config.noVpn6
      cases sharedAfi <;> cases sharedSafi <;> first | decide | simp [noVpn6] at sent
    have length : (UInt8.ofNat (openOptions config).length).toNat =
        (openOptions config).length := by
      exact Nat.mod_eq_of_lt (Nat.lt_succ_of_le (length_openOptions_le config))
    refine ⟨_, _, rfl, length, peekForAs4Capability_openOptions config, final,
      (bgpOpenOptionParse_openOptions config rfl).mpr ⟨folded, fun refused =>
        refused.2.2 (any_eq_true.mpr ⟨_, isFamily, nego⟩)⟩, ?_, ?_, ?_, ?_, ?_, ?_⟩
    · funext afi safi
      rw [learned.recv, any_namesFamily]
      simp [Negotiation.start, FamilyTable.empty, notOverridden]
    · funext afi safi
      rw [learned.sends, any_sends config (.inl rfl),
        (orfFamily_and_iff config.orfSend noVpnSend).mpr noSend6]
      rfl
    · funext afi safi
      rw [learned.receives, any_receives config (.inl rfl),
        (orfFamily_and_iff config.orfReceive noVpnReceive).mpr noReceive6]
      rfl
    · funext afi safi
      rw [learned.sendsOld, any_sends config (.inr rfl),
        (orfFamily_and_iff config.orfSend noVpnSend).mpr noSend6]
      rfl
    · funext afi safi
      rw [learned.receivesOld, any_receives config (.inr rfl),
        (orfFamily_and_iff config.orfReceive noVpnReceive).mpr noReceive6]
      rfl
    · funext afi safi
      rw [learned.restart, any_namesRestart]
      cases has : config.afc afi safi with
      | false => simp [Negotiation.start, FamilyTable.empty]
      | true =>
        rcases restarts afi safi has with ⟨graceful, enabled⟩
        simp [Negotiation.start, graceful, enabled]

def dualStack (filtered : Afi) : CapabilityConfig where
  afc := fun _ safi => safi ≠ .mplsVpn
  orfSend := FamilyTable.empty.set filtered .multicast true
  orfReceive := .empty
  dynamicCapability := true
  gracefulRestart := true
  startup := false
  restartTime := 120
  localAs := 65550
  noVpn6 := rfl
  noVpnOrf := by
    intro afi
    cases afi <;> cases filtered <;> exact ⟨rfl, rfl⟩

theorem dualStack_understood :
    OpenUnderstood (dualStack .ip) (.start (fun _ safi => safi ≠ .mplsVpn) false false) :=
  (open_negotiation_iff _ _ false ⟨.ip, .unicast, rfl, rfl⟩).mpr
    ⟨by decide, rfl, rfl, rfl, fun _ _ enabled => ⟨rfl, enabled⟩⟩

/-- A filter for IPv6 multicast is announced, and not noted by the receiver. -/
theorem multicastOrf_not_understood :
    (dualStack .ip6).orfSend .ip6 .multicast = true ∧
      ((bgpOpenOptionParse (openOptions (dualStack .ip6))
        (.start (fun _ safi => safi ≠ .mplsVpn) false false)).toOption.map
          fun final => final.orfSmRcv .ip6 .multicast) = some false := by
  decide +kernel

end Quagga.Bgp
