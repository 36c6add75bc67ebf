import Quagga.Bgp.AggregateLedger

/-!
# Aggregates around a change of one route

What each operation on a route leaves of the books of `AggregateLedger`. While no aggregate
accounts for the route, its flags may change at will. Before that it must have been subtracted or
not contribute, and afterwards it must be added again or not contribute. The operations keep to
this under conditions that are stated here for each of them.
-/

namespace Quagga.Bgp

open Rib.Stage
open Foundation List

variable {extra? : Option InfoExtra} {edit : RibInfo → RibInfo} {arrival : Arrival}
  {damp : DampInfo} {penalty : Penalty} {network : Prefix} {node : RibNode}
  {nexthop : NexthopCheck}

/-! ## One route -/

namespace Standing

variable (standing : Standing)

def put (value : Bool) (standing : Standing) : InfoFlag → Standing
  | .valid => { standing with valid := value }
  | .history => { standing with history := value }
  | .damped => { standing with damped := value }
  | .removed => { standing with removed := value }
  | .stale | .attrChanged => standing

def isUsable : Bool := standing.valid && !standing.history && !standing.damped && !standing.removed

def delete : Standing := (standing.put true .removed).put false .valid

def restore : Standing := (standing.put false .removed).put true .valid

def dampInfoFree (withdraw : Bool) : Standing :=
  match standing.damp? with
  | none => standing
  | some damp =>
    let standing := { standing with damp? := none, history := false, damped := false }
    if damp.lastWithdraw && withdraw then standing.delete else standing

def dampWithdraw (penalty : Penalty) : Standing × DampStatus :=
  let standing := { standing with damp? := some ⟨true⟩, history := true }
  if standing.damped then (standing, .suppressed)
  else if !penalty.belowSuppress then ({ standing with damped := true }, .used)
  else (standing, .used)

def dampReview (penalty : Penalty) : Standing × DampStatus :=
  let result :=
    if standing.damped then
      if penalty.belowReuse then ({ standing with damped := false }, DampStatus.used)
      else (standing, .suppressed)
    else if penalty.belowSuppress then (standing, .used)
    else (standing, .suppressed)
  if penalty.forgotten then (result.1.dampInfoFree false, result.2) else result

def dampUpdate (penalty : Penalty) : Standing × DampStatus :=
  match standing.damp? with
  | none => (standing, .used)
  | some _ => { standing with history := false, damp? := some ⟨false⟩ }.dampReview penalty

def dampScan (expired : Bool) (penalty : Penalty) : Standing × Bool :=
  if standing.damped then
    if expired then
      ({ standing with damped := false }, standing.damp?.any fun damp => !damp.lastWithdraw)
    else (standing, false)
  else if penalty.forgotten then (standing.dampInfoFree true, false)
  else (standing, false)

/-- A dampened update of the route that is suppressed finds it damped, or damps it. -/
def isModerate (arrival : Arrival) : Bool :=
  standing.damped || (!standing.history && !arrival.withdrawn.belowSuppress) ||
    arrival.updated.belowSuppress

end Standing

theorem RibInfo.standing_foldl_put (value : Bool) (info : RibInfo) (flags : List InfoFlag) :
    (flags.foldl (RibInfo.put value) info).standing =
      flags.foldl (Standing.put value) info.standing := by
  induction flags generalizing info with
  | nil => rfl
  | cons flag flags induction =>
    rw [foldl_cons, foldl_cons, induction]
    cases flag <;> rfl

theorem foldl_put_fields (value : Bool) (info : RibInfo) (flags : List InfoFlag) :
    (flags.foldl (RibInfo.put value) info).id = info.id ∧
      (flags.foldl (RibInfo.put value) info).node = info.node ∧
      (flags.foldl (RibInfo.put value) info).source = info.source ∧
      (flags.foldl (RibInfo.put value) info).linked = info.linked ∧
      (flags.foldl (RibInfo.put value) info).extra? = info.extra? := by
  induction flags generalizing info with
  | nil => exact ⟨rfl, rfl, rfl, rfl, rfl⟩
  | cons flag flags induction =>
    have rest := induction (info.put value flag)
    cases flag <;> exact rest

def Subject.to (subject : Subject) (standing : Standing) : Subject :=
  { subject with standing := standing }

variable {info : RibInfo}

namespace Rib

variable {table : RibTable} {id : Nat} {accounting : Prefix → Bool} {rib after : Rib}
  {subject : Subject} {extra : Bool} {kinds : List (Prefix × Bool)} {standing : Standing}

/-- What the books hold of a route, before and after a change of it. -/
structure Booked (accounting : Prefix → Nat → Bool) (info after : RibInfo) : Prop where
  id : after.id = info.id
  node : after.node = info.node
  suppress : after.suppressCount = info.suppressCount
  accounts : ∀ aggregate : Aggregate,
    aggregate.accounts accounting after = aggregate.accounts accounting info
  isAggregateAt : ∀ network, after.isAggregateAt network = info.isAggregateAt network
  isLiveAt : ∀ network, after.isLiveAt network = info.isLiveAt network
  aggregate : after.source = .aggregate → after = info

theorem Booked.refl (accounting : Prefix → Nat → Bool) (info : RibInfo) :
    Booked accounting info info :=
  ⟨rfl, rfl, rfl, fun _ => rfl, fun _ => rfl, fun _ => rfl, fun _ => rfl⟩

theorem Balance.of_map {accounting : Prefix → Nat → Bool}
    (balance : rib.Balance table id accounting) (infos : after.infos = rib.infos.map edit)
    (nextId : after.nextId = rib.nextId) (aggregates : after.aggregates = rib.aggregates)
    (booked : ∀ info ∈ rib.infos, Booked accounting info (edit info))
    (others : ∀ info ∈ rib.infos, info.id ≠ id → edit info = info) :
    after.Balance table id accounting := by
  rcases after with ⟨_, _, _, _, _⟩
  subst infos nextId aggregates
  have ids : (rib.infos.map edit).map RibInfo.id = rib.infos.map RibInfo.id := by
    rw [map_map]
    exact map_congr_left fun info present => (booked info present).id
  have unchanged : ∀ info ∈ rib.infos, (edit info).id ≠ id → edit info = info := by
    intro info present different
    exact others info present ((booked info present).id ▸ different)
  refine ⟨ids ▸ balance.distinct, forall_mem_map.mpr ?_, forall_mem_map.mpr ?_,
    forall_mem_map.mpr ?_, forall_mem_map.mpr ?_, forall_mem_map.mpr ?_, balance.networks,
    balance.vpn, ?_, forall_mem_map.mpr ?_, ?_, forall_mem_map.mpr ?_, forall_mem_map.mpr ?_⟩
  · intro info present
    rw [(booked info present).id]
    exact balance.fresh info present
  · intro info present different
    have same := unchanged info present different
    rw [same] at different ⊢
    exact balance.linked info present different
  · intro info present different
    have same := unchanged info present different
    rw [same] at different ⊢
    exact balance.recorded info present different
  · intro info present isAggregate
    have same := (booked info present).aggregate isAggregate
    rw [same] at isAggregate ⊢
    exact balance.undamped info present isAggregate
  · intro info present
    rw [(booked info present).node]
    exact balance.bounded info present
  · intro aggregate isIn
    rw [balance.count aggregate isIn, countP_map]
    congr 1
    exact countP_eq_of_mem fun info present => ((booked info present).accounts aggregate).symm
  · intro info present
    rw [(booked info present).suppress, balance.suppress info present]
    simp [(booked info present).accounts]
  · intro aggregate isIn
    rw [balance.live aggregate isIn]
    simp only [mem_map, exists_exists_and_eq_and]
    refine exists_congr fun info => and_congr_right fun present => ?_
    rw [(booked info present).isLiveAt]
  · intro info present network live
    have tests : ∀ other ∈ rib.infos, (RibInfo.isAggregateAt network ∘ edit) other =
        other.isAggregateAt network := by
      intro other otherPresent
      exact (booked other otherPresent).isAggregateAt network
    rw [(booked info present).isLiveAt] at live
    rw [find?_map, find?_congr tests, balance.first info present network live]
    rfl
  · intro info present network live
    rw [(booked info present).isLiveAt] at live
    exact balance.configured info present network live

theorem isAggregateAt_eq_false (notAggregate : info.source ≠ .aggregate) (network : Prefix) :
    info.isAggregateAt network = false := by
  simp [RibInfo.isAggregateAt, notAggregate]

theorem extra_of_damp (found : info.damp? = some damp) : info.extra?.isSome = true := by
  cases extra : info.extra? with
  | none => simp [RibInfo.damp?, extra] at found
  | some value => rfl

section

variable (stage : rib.Stage table id subject extra kinds accounting)
include stage

/-- A change of the route `id`. It may become usable or not only while no aggregate accounts for
it. -/
theorem Stage.change (next : Subject) {nextExtra : Bool}
    (infos : after.infos = changeAt RibInfo.id id edit rib.infos)
    (nextId : after.nextId = rib.nextId) (aggregates : after.aggregates = rib.aggregates)
    (edits : ∀ info ∈ rib.infos, info.id = id → (edit info).id = id ∧
      (edit info).suppressCount = info.suppressCount ∧ (edit info).subject = next ∧
      (nextExtra = true → (edit info).extra?.isSome = true)) (node : next.node = subject.node)
    (source : next.source = subject.source) (notAggregate : subject.source ≠ .aggregate)
    (free : (∀ network, accounting network = false) ∨ next.contributes = subject.contributes) :
    after.Stage table id next nextExtra kinds accounting := by
  have booked : ∀ info ∈ rib.infos, info.id = id →
      Booked (partly id accounting) info (edit info) := by
    intro info present named
    rcases edits info present named with ⟨sameId, suppress, isNext, _⟩
    have isSubject := (stage.subject_eq present named).1
    have sameNode : (edit info).node = info.node := by
      calc (edit info).node = next.node := congrArg Subject.node isNext
        _ = subject.node := node
        _ = info.node := (congrArg Subject.node isSubject).symm
    have infoNot : info.source ≠ .aggregate := by
      rw [show info.source = subject.source from congrArg Subject.source isSubject]
      exact notAggregate
    have editNot : (edit info).source ≠ .aggregate := by
      rw [show (edit info).source = next.source from congrArg Subject.source isNext, source]
      exact notAggregate
    refine ⟨sameId.trans named.symm, sameNode, suppress, ?_, ?_, ?_,
      fun isAggregate => absurd isAggregate editNot⟩
    · intro aggregate
      rw [Aggregate.accounts, Aggregate.accounts, sameId, named, sameNode, partly_self]
      rcases free with nobody | same
      · rw [nobody]
        simp
      · rw [RibInfo.contributes_eq, RibInfo.contributes_eq, isNext, isSubject, same]
    · intro network
      rw [isAggregateAt_eq_false editNot, isAggregateAt_eq_false infoNot]
    · intro network
      rw [RibInfo.isLiveAt, RibInfo.isLiveAt, isAggregateAt_eq_false editNot,
        isAggregateAt_eq_false infoNot]
      rfl
  refine ⟨?_, ?_, ?_⟩
  · apply stage.balance.of_map infos nextId aggregates
    · intro info present
      by_cases named : info.id = id
      · rw [if_pos named]
        exact booked info present named
      · rw [if_neg named]
        exact .refl _ info
    · intro info present different
      exact if_neg different
  · rcases stage.holds with ⟨info, present, named, _, _⟩
    rcases edits info present named with ⟨sameId, _, isNext, hasExtra⟩
    refine ⟨edit info, ?_, sameId, isNext, hasExtra⟩
    rw [infos]
    exact mem_map.mpr ⟨info, present, if_pos named⟩
  · rw [aggregates]
    exact stage.kinds

section

variable (notAggregate : subject.source ≠ .aggregate)
include notAggregate

theorem Stage.pcountAdjust :
    (rib.pcountAdjust id).Stage table id subject extra kinds accounting := by
  rcases pcountAdjust_infos rib id with ⟨counted, infos, nextId, aggregates⟩
  apply stage.change subject infos nextId aggregates _ rfl rfl notAggregate (.inr rfl)
  intro info present named
  exact ⟨named, rfl, (stage.subject_eq present named).1, (stage.subject_eq present named).2⟩

theorem Stage.infoPutFlag (value : Bool) (flags : List InfoFlag)
    (free : (∀ network, accounting network = false) ∨
      (subject.to (flags.foldl (Standing.put value) subject.standing)).contributes =
        subject.contributes) :
    (rib.infoPutFlag value id flags).Stage table id
      (subject.to (flags.foldl (Standing.put value) subject.standing)) extra kinds accounting := by
  have flagged : (rib.change id fun info => flags.foldl (RibInfo.put value) info).Stage table id
      (subject.to (flags.foldl (Standing.put value) subject.standing)) extra kinds accounting := by
    refine stage.change (subject.to (flags.foldl (Standing.put value) subject.standing)) (by rfl)
      (by rfl) (by rfl) ?_ rfl rfl notAggregate free
    intro info present named
    have keeps := foldl_put_fields value info flags
    have isSubject := (stage.subject_eq present named).1
    refine ⟨keeps.1.trans named, ?_, ?_, ?_⟩
    · rw [RibInfo.suppressCount, keeps.2.2.2.2]
      rfl
    · rw [RibInfo.subject, keeps.2.1, keeps.2.2.1, keeps.2.2.2.1, RibInfo.standing_foldl_put,
        ← isSubject]
      rfl
    · rw [keeps.2.2.2.2]
      exact (stage.subject_eq present named).2
  unfold Rib.infoPutFlag
  split_ifs
  · exact flagged.pcountAdjust notAggregate
  · exact flagged

theorem Stage.setDamp (damp? : Option DampInfo) :
    (rib.change id (RibInfo.setDamp · damp?)).Stage table id
      (subject.to { subject.standing with damp? := damp? }) true kinds accounting := by
  refine stage.change (subject.to { subject.standing with damp? := damp? }) (by rfl) (by rfl)
    (by rfl) ?_ rfl rfl notAggregate (.inr rfl)
  intro info present named
  have isSubject := (stage.subject_eq present named).1
  refine ⟨named, ?_, ?_, fun _ => rfl⟩
  · cases found : info.extra? <;>
      simp [RibInfo.suppressCount, RibInfo.setDamp, RibInfo.extraGet, found]
  · rw [← isSubject]
    rfl

theorem Stage.nexthopLookup (nexthop : NexthopCheck) :
    (rib.nexthopLookup id nexthop).Stage table id subject
      (extra || (nexthop.valid && nexthop.metric)) kinds accounting := by
  unfold Rib.nexthopLookup
  split_ifs with hasMetric
  · refine stage.change subject (by rfl) (by rfl) (by rfl) ?_ rfl rfl notAggregate (.inr rfl)
    intro info present named
    rw [← (stage.subject_eq present named).1]
    refine ⟨named, ?_, ?_, fun _ => rfl⟩
    · cases found : info.extra? <;> simp [RibInfo.suppressCount, RibInfo.extraGet, found]
    · cases found : info.extra? <;>
        simp [RibInfo.subject, RibInfo.standing, RibInfo.damp?, RibInfo.extraGet, found]
  · rw [Bool.eq_false_iff.mpr hasMetric, Bool.or_false]
    exact stage

end

theorem Stage.info?_eq : ∃ info, rib.info? id = some info ∧ info.subject = subject := by
  rcases stage.holds with ⟨info, present, named, isSubject, _⟩
  exact ⟨info, recordAt_of_mem stage.balance.distinct present named, isSubject⟩

theorem Stage.damp?_eq : (rib.info? id).bind RibInfo.damp? = subject.standing.damp? := by
  rcases stage.info?_eq with ⟨info, found, rfl⟩
  rw [found]
  rfl

theorem Stage.damped_eq : (rib.info? id).any RibInfo.damped = subject.standing.damped := by
  rcases stage.info?_eq with ⟨info, found, rfl⟩
  rw [found]
  rfl

theorem Stage.history_eq :
    (rib.info? id).any (fun info => !info.history) = !subject.standing.history := by
  rcases stage.info?_eq with ⟨info, found, rfl⟩
  rw [found]
  rfl

theorem Stage.equipped (found : subject.standing.damp? = some damp) :
    rib.Stage table id subject true kinds accounting := by
  rcases stage.holds with ⟨info, present, named, rfl, _⟩
  exact ⟨stage.balance, ⟨info, present, named, rfl, fun _ => extra_of_damp found⟩, stage.kinds⟩

end

/-! ## A route that no aggregate accounts for -/

section

variable (stage : rib.Unaccounted table id subject extra kinds)
  (notAggregate : subject.source ≠ .aggregate)
include stage notAggregate

theorem Unaccounted.infoPutFlag (value : Bool) (flags : List InfoFlag) :
    (rib.infoPutFlag value id flags).Unaccounted table id
      (subject.to (flags.foldl (Standing.put value) subject.standing)) extra kinds :=
  Stage.infoPutFlag stage notAggregate value flags (.inl fun _ => rfl)

theorem Unaccounted.putValid (value : Bool) :
    (rib.change id (RibInfo.put value · .valid)).Unaccounted table id
      (subject.to (subject.standing.put value .valid)) extra kinds := by
  refine Stage.change stage (subject.to (subject.standing.put value .valid)) (by rfl) (by rfl)
    (by rfl) ?_ rfl rfl notAggregate (.inl fun _ => rfl)
  intro info present named
  rcases subject_eq stage present named with ⟨isSubject, hasExtra⟩
  refine ⟨named, rfl, ?_, hasExtra⟩
  rw [← isSubject]
  rfl

theorem Unaccounted.infoDelete :
    (rib.infoDelete id).Unaccounted table id (subject.to subject.standing.delete) extra kinds :=
  (stage.infoPutFlag notAggregate true [.removed]).putValid notAggregate false

theorem Unaccounted.infoRestore :
    (rib.infoRestore id).Unaccounted table id (subject.to subject.standing.restore) extra kinds :=
  (stage.infoPutFlag notAggregate false [.removed]).putValid notAggregate true

end

theorem Stage.of_extra (stage : rib.Stage table id subject true kinds accounting) (extra : Bool) :
    rib.Stage table id subject extra kinds accounting := by
  rcases stage.holds with ⟨info, present, named, isSubject, hasExtra⟩
  exact ⟨stage.balance, ⟨info, present, named, isSubject, fun _ => hasExtra rfl⟩, stage.kinds⟩

section

variable (stage : rib.Unaccounted table id subject extra kinds)
  (notAggregate : subject.source ≠ .aggregate)
include stage notAggregate

theorem Unaccounted.dampInfoFree (withdraw : Bool) :
    (rib.dampInfoFree id withdraw).Unaccounted table id
      (subject.to (subject.standing.dampInfoFree withdraw)) extra kinds := by
  unfold Rib.dampInfoFree Standing.dampInfoFree
  rw [damp?_eq stage]
  cases subject.standing.damp? with
  | none => exact stage
  | some damp =>
    have freed : ((rib.change id (RibInfo.setDamp · none)).infoUnsetFlag id
        [.history, .damped]).Unaccounted table id (subject.to { subject.standing with
          damp? := none, history := false, damped := false }) extra kinds :=
      of_extra (Unaccounted.infoPutFlag (setDamp stage notAggregate none) notAggregate
        false [.history, .damped]) extra
    dsimp only
    split_ifs
    · exact freed.infoDelete notAggregate
    · exact freed

theorem Unaccounted.dampWithdraw (penalty : Penalty) :
    (rib.dampWithdraw id penalty).1.Unaccounted table id
        (subject.to (subject.standing.dampWithdraw penalty).1) true kinds ∧
      (rib.dampWithdraw id penalty).2 = (subject.standing.dampWithdraw penalty).2 := by
  have recorded : ((rib.change id (RibInfo.setDamp · (some ⟨true⟩))).infoSetFlag id
      [.history]).Unaccounted table id (subject.to { subject.standing with
        damp? := some ⟨true⟩, history := true }) true kinds :=
    Unaccounted.infoPutFlag (setDamp stage notAggregate (some ⟨true⟩)) notAggregate true
      [.history]
  have damped : (((rib.change id (RibInfo.setDamp · (some ⟨true⟩))).infoSetFlag id
      [.history]).info? id).any RibInfo.damped = subject.standing.damped := by
    rw [damped_eq recorded]
    rfl
  unfold Rib.dampWithdraw Standing.dampWithdraw
  dsimp only
  rw [damped]
  split_ifs
  · exact ⟨recorded, rfl⟩
  · exact ⟨recorded.infoPutFlag notAggregate true [.damped], rfl⟩
  · exact ⟨recorded, rfl⟩

theorem Unaccounted.dampReview (penalty : Penalty) :
    (rib.dampReview id penalty).1.Unaccounted table id
        (subject.to (subject.standing.dampReview penalty).1) extra kinds ∧
      (rib.dampReview id penalty).2 = (subject.standing.dampReview penalty).2 := by
  have undamped : (rib.infoUnsetFlag id [.damped]).Unaccounted table id
      (subject.to { subject.standing with damped := false }) extra kinds :=
    stage.infoPutFlag notAggregate false [.damped]
  unfold Rib.dampReview Standing.dampReview
  rw [damped_eq stage]
  split_ifs
  all_goals first
    | exact ⟨stage, rfl⟩
    | exact ⟨stage.dampInfoFree notAggregate false, rfl⟩
    | exact ⟨undamped, rfl⟩
    | exact ⟨undamped.dampInfoFree notAggregate false, rfl⟩

theorem Unaccounted.dampUpdate (penalty : Penalty) :
    (rib.dampUpdate id penalty).1.Unaccounted table id
        (subject.to (subject.standing.dampUpdate penalty).1) extra kinds ∧
      (rib.dampUpdate id penalty).2 = (subject.standing.dampUpdate penalty).2 := by
  unfold Rib.dampUpdate Standing.dampUpdate
  rw [damp?_eq stage]
  cases subject.standing.damp? with
  | none => exact ⟨stage, rfl⟩
  | some damp =>
    have recorded : ((rib.infoUnsetFlag id [.history]).change id
        (RibInfo.setDamp · (some ⟨false⟩))).Unaccounted table id (subject.to
          { subject.standing with history := false, damp? := some ⟨false⟩ }) extra kinds :=
      of_extra (setDamp (stage.infoPutFlag notAggregate false [.history])
        notAggregate (some ⟨false⟩)) extra
    exact recorded.dampReview notAggregate penalty

theorem Unaccounted.dampScan (expired : Bool) (penalty : Penalty) :
    (rib.dampScan id expired penalty).1.Unaccounted table id
        (subject.to (subject.standing.dampScan expired penalty).1) extra kinds ∧
      (rib.dampScan id expired penalty).2 = (subject.standing.dampScan expired penalty).2 := by
  rcases info?_eq stage with ⟨info, found, isSubject⟩
  have damped : info.damped = subject.standing.damped :=
    congrArg (fun subject => subject.standing.damped) isSubject
  have damp? : info.damp? = subject.standing.damp? :=
    congrArg (fun subject => subject.standing.damp?) isSubject
  unfold Rib.dampScan Standing.dampScan
  rw [found]
  dsimp only
  rw [damped, damp?]
  split_ifs
  · exact ⟨stage.infoPutFlag notAggregate false [.damped], rfl⟩
  · exact ⟨stage, rfl⟩
  · exact ⟨stage.dampInfoFree notAggregate true, rfl⟩
  · exact ⟨stage, rfl⟩

end

/-! ## Opening and closing the books -/

/-- The books between two events: every aggregate accounts for every route it covers. -/
def Books (table : RibTable) (rib : Rib) : Prop := rib.Balance table rib.nextId fun _ _ => true

theorem partly_true (id : Nat) : partly id (fun _ => true) = fun _ _ => true := by
  funext network other
  simp [partly]

def aggregateKinds (rib : Rib) : List (Prefix × Bool) := rib.aggregates.map Aggregate.kind

section

variable (books : rib.Books table) {info : RibInfo} (present : info ∈ rib.infos)
include books present

theorem Books.linked : info.linked = true :=
  Balance.linked books info present (Balance.fresh books info present).ne

theorem Books.recorded (notAggregate : info.source ≠ .aggregate) : info.standing.IsRecorded :=
  Balance.recorded books info present (Balance.fresh books info present).ne notAggregate

theorem Books.accounted :
    rib.Accounted table info.id info.subject info.extra?.isSome rib.aggregateKinds := by
  refine ⟨?_, ⟨info, present, rfl, rfl, fun some => some⟩, rfl⟩
  rw [partly_true]
  exact { (show rib.Balance table rib.nextId fun _ _ => true from books) with
    linked := fun other otherPresent _ => books.linked otherPresent
    recorded := fun other otherPresent _ => books.recorded otherPresent }

end

theorem Accounted.books (accounted : rib.Accounted table id subject extra kinds)
    (linked : subject.linked = true) (recorded : subject.standing.IsRecorded) :
    rib.Books table := by
  have balance := accounted.balance
  rw [partly_true] at balance
  refine { balance with linked := ?_, recorded := ?_ }
  · intro info present _
    by_cases named : info.id = id
    · rw [← linked, ← (subject_eq accounted present named).1]
      rfl
    · exact balance.linked info present named
  · intro info present _ notAggregate
    by_cases named : info.id = id
    · rw [← (subject_eq accounted present named).1] at recorded
      exact recorded
    · exact balance.recorded info present named notAggregate

def Uncovered (kinds : List (Prefix × Bool)) (network : Prefix) : Prop :=
  ∀ aggregate : Aggregate, aggregate.kind ∈ kinds → ¬aggregate.covers network = true

theorem Stage.of_idle {other : Prefix → Bool}
    (stage : rib.Stage table id subject extra kinds accounting)
    (idle : subject.contributes = false ∨ Uncovered kinds subject.node.network) :
    rib.Stage table id subject extra kinds other := by
  apply stage.of_agree
  intro contributes aggregate isIn covers
  rcases idle with holddown | uncovered
  · rw [contributes] at holddown
    cases holddown
  · exact absurd covers (uncovered aggregate isIn)

theorem contributes_of_not_usable (subject : Subject)
    (unusable : subject.standing.isUsable = false) : subject.contributes = false := by
  rw [Subject.contributes]
  unfold Standing.isUsable at unusable
  rw [unusable]
  rfl

theorem Unaccounted.close (stage : rib.Unaccounted table id subject extra kinds)
    (idle : subject.standing.isUsable = false ∨ Uncovered kinds subject.node.network) :
    rib.Accounted table id subject extra kinds :=
  of_idle stage (idle.imp_left (contributes_of_not_usable subject))

theorem Accounted.release (stage : rib.Accounted table id subject extra kinds)
    (idle : subject.standing.isUsable = false ∨ Uncovered kinds subject.node.network) :
    rib.Unaccounted table id subject extra kinds :=
  of_idle stage (idle.imp_left (contributes_of_not_usable subject))

/-! ## Dampening keeps its records -/

end Rib

namespace Standing

variable {standing : Standing}

theorem IsRecorded.delete (recorded : standing.IsRecorded) : standing.delete.IsRecorded := recorded

theorem IsRecorded.restore (recorded : standing.IsRecorded) : standing.restore.IsRecorded :=
  recorded

theorem IsRecorded.dampInfoFree (recorded : standing.IsRecorded) (withdraw : Bool) :
    (standing.dampInfoFree withdraw).IsRecorded := by
  unfold Standing.dampInfoFree
  cases standing.damp? with
  | none => exact recorded
  | some damp =>
    dsimp only
    split_ifs <;> exact nofun

theorem dampWithdraw_recorded (standing : Standing) (penalty : Penalty) :
    (standing.dampWithdraw penalty).1.IsRecorded := by
  have recorded : ∀ damped, Standing.IsRecorded ⟨standing.valid, true, damped, standing.removed,
      some ⟨true⟩⟩ := by
    intro damped damp same
    cases same
    rfl
  unfold Standing.dampWithdraw
  dsimp only
  split_ifs <;> exact recorded _

theorem IsRecorded.dampReview (recorded : standing.IsRecorded) (penalty : Penalty) :
    (standing.dampReview penalty).1.IsRecorded := by
  have undamped : Standing.IsRecorded { standing with damped := false } := recorded
  unfold Standing.dampReview
  split_ifs
  all_goals first
    | exact recorded
    | exact recorded.dampInfoFree false
    | exact undamped
    | exact undamped.dampInfoFree false

theorem IsRecorded.dampUpdate (recorded : standing.IsRecorded) (penalty : Penalty) :
    (standing.dampUpdate penalty).1.IsRecorded := by
  unfold Standing.dampUpdate
  cases standing.damp? with
  | none => exact recorded
  | some damp =>
    apply IsRecorded.dampReview
    intro other same
    cases same
    rfl

theorem IsRecorded.dampScan (recorded : standing.IsRecorded) (expired : Bool) (penalty : Penalty) :
    (standing.dampScan expired penalty).1.IsRecorded := by
  unfold Standing.dampScan
  split_ifs
  · exact recorded
  · exact recorded
  · exact recorded.dampInfoFree true
  · exact recorded

theorem dampWithdraw_history (standing : Standing) (penalty : Penalty) :
    (standing.dampWithdraw penalty).1.history = true := by
  unfold Standing.dampWithdraw
  dsimp only
  split_ifs <;> rfl

theorem dampWithdraw_damped (standing : Standing) (penalty : Penalty) :
    (standing.dampWithdraw penalty).1.damped = (standing.damped || !penalty.belowSuppress) := by
  unfold Standing.dampWithdraw
  cases standing.damped <;> cases penalty.belowSuppress <;> rfl

theorem dampUpdate_suppressed (moderate : standing.damped = true ∨ penalty.belowSuppress = true)
    (suppressed : (standing.dampUpdate penalty).2 = .suppressed) :
    (standing.dampUpdate penalty).1.isUsable = false := by
  unfold Standing.dampUpdate at suppressed ⊢
  cases found : standing.damp? with
  | none => simp [found] at suppressed
  | some damp =>
    simp only [found] at suppressed ⊢
    have forgets := penalty.belowReuse_of_forgotten
    revert suppressed moderate forgets
    unfold Standing.dampReview
    cases standing.damped <;> cases penalty.belowReuse <;> cases penalty.belowSuppress <;>
      cases penalty.forgotten <;> simp [isUsable]

end Standing

structure Subject.IsRoute (subject : Subject) (info : RibInfo) : Prop where
  node : subject.node = info.node
  linked : subject.linked = true
  source : subject.source ≠ .aggregate

structure Subject.IsSound (subject : Subject) (info : RibInfo) : Prop
    extends subject.IsRoute info where
  recorded : subject.standing.IsRecorded

theorem Subject.IsSound.to {subject : Subject} (sound : subject.IsSound info) {standing : Standing}
    (recorded : standing.IsRecorded) : (subject.to standing).IsSound info :=
  ⟨⟨sound.node, sound.linked, sound.source⟩, recorded⟩

namespace Rib

variable {table : RibTable} {id : Nat} {accounting : Prefix → Bool} {rib after : Rib}
  {subject : Subject} {extra : Bool} {kinds : List (Prefix × Bool)} {standing : Standing}

/-! ## Removing a route -/

theorem unusable_of_history (history : standing.history = true) : standing.isUsable = false := by
  simp [Standing.isUsable, history]

theorem unusable_of_damped (damped : standing.damped = true) : standing.isUsable = false := by
  simp [Standing.isUsable, damped]

theorem unusable_of_removed (removed : standing.removed = true) : standing.isUsable = false := by
  simp [Standing.isUsable, removed]

theorem unusable_of_flags (unusable : (standing.valid && !standing.removed) = false) :
    standing.isUsable = false := by
  simp only [Bool.and_eq_false_iff, Bool.not_eq_false'] at unusable
  rcases unusable with invalid | removed
  · simp [Standing.isUsable, invalid]
  · exact unusable_of_removed removed

theorem unusable_delete (standing : Standing) : standing.delete.isUsable = false := by
  simp [Standing.isUsable, Standing.delete, Standing.put]

section

variable (accounted : rib.Accounted table info.id subject extra kinds)
  (sound : subject.IsSound info)
include accounted sound

theorem Accounted.retractRoute :
    ((rib.aggregateDecrement table info.node.network info.id).infoDelete info.id).Books table := by
  have decremented := accounted.aggregateDecrement sound.source sound.linked
  rw [sound.node] at decremented
  have deleted := decremented.infoDelete sound.source
  exact (deleted.close (.inl (unusable_delete _))).books sound.linked sound.recorded.delete

theorem Accounted.ribRemove : (rib.ribRemove table info).Books table := by
  have decremented := accounted.aggregateDecrement sound.source sound.linked
  rw [sound.node] at decremented
  unfold Rib.ribRemove
  dsimp only
  rw [history_eq decremented]
  split_ifs with current
  · exact accounted.retractRoute sound
  · have historical := unusable_of_history (by simpa using current)
    exact (decremented.close (.inl historical)).books sound.linked sound.recorded

theorem Accounted.ribWithdraw {dampens : Bool} (penalty : Penalty) (undampened : dampens = true →
      subject.contributes = false ∨ Uncovered kinds subject.node.network) :
    (rib.ribWithdraw table info dampens penalty).Books table := by
  unfold Rib.ribWithdraw
  split_ifs with isDampened
  · have released : rib.Unaccounted table info.id subject extra kinds :=
      of_idle accounted (undampened isDampened)
    have dampened := released.dampWithdraw sound.source penalty
    have idle := unusable_of_history (subject.standing.dampWithdraw_history penalty)
    have withdrawnSound := sound.to (subject.standing.dampWithdraw_recorded penalty)
    generalize rib.dampWithdraw info.id penalty = result at dampened ⊢
    rcases result with ⟨withdrawn, status⟩
    have closed := dampened.1.close (.inl idle)
    cases status with
    | suppressed =>
      have decremented := closed.aggregateDecrement withdrawnSound.source withdrawnSound.linked
      rw [withdrawnSound.node] at decremented
      exact (decremented.close (.inl idle)).books sound.linked withdrawnSound.recorded
    | used => exact closed.ribRemove withdrawnSound
  · exact accounted.ribRemove sound

end

/-! ## Routes that become usable -/

/-- The route has its extra part if a summary-only aggregate covers it. -/
def Prepared (kinds : List (Prefix × Bool)) (network : Prefix) (extra : Bool) : Prop :=
  ∀ aggregate : Aggregate, aggregate.kind ∈ kinds → aggregate.covers network = true →
    aggregate.summaryOnly = true → extra = true

section

variable (stage : rib.Unaccounted table info.id subject extra kinds) (sound : subject.IsSound info)
include stage sound

theorem Unaccounted.increment
    (prepared : Prepared kinds subject.node.network extra ∨ subject.standing.isUsable = false) :
    (rib.aggregateIncrement table info.node.network info.id).Books table := by
  rw [← sound.node]
  apply Accounted.books (stage.aggregateIncrement sound.source ?_) sound.linked sound.recorded
  intro contributes _ aggregate isIn covers summary
  rcases prepared with ready | unusable
  · exact ready aggregate isIn covers summary
  · rw [contributes_of_not_usable subject unusable] at contributes
    cases contributes

theorem Unaccounted.updateNexthop
    (prepared : Prepared kinds subject.node.network
        (extra || (arrival.nexthop.valid && arrival.nexthop.metric)) ∨
      (subject.standing.put arrival.nexthop.valid .valid).isUsable = false) :
    (rib.updateNexthop table info arrival).Books table := by
  have looked := Stage.nexthopLookup stage sound.source arrival.nexthop
  have flagged := Unaccounted.infoPutFlag looked sound.source arrival.nexthop.valid [.valid]
  exact flagged.increment (sound.to sound.recorded) prepared

/-- Dampening gives the route its extra part, unless it has no information on a historical
route. -/
theorem Unaccounted.updateDampened (arrival : Arrival) :
    ∃ standing equipped, standing.IsRecorded ∧
      (rib.updateDampened info arrival).1.Unaccounted table info.id (subject.to standing) equipped
        kinds ∧ (equipped = true ∨ standing.history = true) ∧
      (subject.standing.isModerate arrival = true →
        (rib.updateDampened info arrival).2 = .suppressed → standing.isUsable = false) := by
  unfold Rib.updateDampened
  rw [history_eq stage]
  cases history : subject.standing.history with
  | false =>
    have withdrawn := (stage.dampWithdraw sound.source arrival.withdrawn).1
    have updated := withdrawn.dampUpdate sound.source arrival.updated
    refine ⟨_, true, ?_, updated.1, .inl rfl, ?_⟩
    · exact (subject.standing.dampWithdraw_recorded arrival.withdrawn).dampUpdate arrival.updated
    · intro moderate
      rw [Bool.not_false, if_pos rfl, updated.2]
      apply Standing.dampUpdate_suppressed
      simpa [Standing.isModerate, Subject.to, Standing.dampWithdraw_damped, history] using moderate
  | true =>
    have updated := stage.dampUpdate sound.source arrival.updated
    have recorded := sound.recorded.dampUpdate arrival.updated
    have suppressed : subject.standing.isModerate arrival = true →
        (rib.dampUpdate info.id arrival.updated).2 = .suppressed →
        (subject.standing.dampUpdate arrival.updated).1.isUsable = false := by
      intro moderate
      rw [updated.2]
      apply Standing.dampUpdate_suppressed
      simpa [Standing.isModerate, history] using moderate
    cases found : subject.standing.damp? with
    | some damp =>
      have equipped := Unaccounted.dampUpdate (Stage.equipped stage found) sound.source
        arrival.updated
      exact ⟨_, true, recorded, equipped.1, .inl rfl, suppressed⟩
    | none =>
      refine ⟨_, extra, recorded, updated.1, .inr ?_, suppressed⟩
      rw [Standing.dampUpdate, found]
      exact history

end

theorem Uncovered.prepared (uncovered : Uncovered kinds network) (extra : Bool) :
    Prepared kinds network extra := by
  intro aggregate isIn covers
  exact absurd covers (uncovered aggregate isIn)

theorem Accounted.infoPutFlag (stage : rib.Accounted table id subject extra kinds)
    (notAggregate : subject.source ≠ .aggregate) (value : Bool) {flags : List InfoFlag}
    (same : flags.foldl (Standing.put value) subject.standing = subject.standing) :
    (rib.infoPutFlag value id flags).Accounted table id subject extra kinds := by
  have flagged := Stage.infoPutFlag stage notAggregate value flags (.inr (by rw [same]; rfl))
  rw [same] at flagged
  exact flagged

theorem Books.sound (books : rib.Books table) (present : info ∈ rib.infos)
    (notAggregate : info.source ≠ .aggregate) : info.subject.IsSound info :=
  ⟨⟨rfl, books.linked present, notAggregate⟩, books.recorded present notAggregate⟩

/-- When an update may be processed: no aggregate covers the route, or it does not come back from
being removed only, does not become usable without its extra part and is not suppressed without
being damped. -/
def UpdateSafe (kinds : List (Prefix × Bool)) (info : RibInfo) (arrival : Arrival) : Prop :=
  Uncovered kinds info.node.network ∨
    ((info.removed = true → info.history = true ∨ info.damped = true) ∧
      (arrival.dampens = true ∨ (arrival.nexthop.valid = true → arrival.nexthop.metric = false →
        info.history = false → info.damped = false →
        Prepared kinds info.node.network info.extra?.isSome)) ∧
      (arrival.dampens = true → info.standing.isModerate arrival = true))

theorem UpdateSafe.prepared (safe : UpdateSafe kinds info arrival)
    (undampened : arrival.dampens = false) (history : standing.history = info.history)
    (damped : standing.damped = info.damped) :
    Prepared kinds info.node.network
        (info.extra?.isSome || (arrival.nexthop.valid && arrival.nexthop.metric)) ∨
      (standing.put arrival.nexthop.valid .valid).isUsable = false := by
  rcases safe with uncovered | ⟨_, ready, _⟩
  · exact .inl (uncovered.prepared _)
  · rw [undampened] at ready
    rcases ready with impossible | ready
    · cases impossible
    · cases isValid : arrival.nexthop.valid with
      | false => exact .inr rfl
      | true =>
        cases hasMetric : arrival.nexthop.metric with
        | true => exact .inl fun _ _ _ _ => Bool.or_true _
        | false =>
          cases isHistory : info.history with
          | true => exact .inr (unusable_of_history (history.trans isHistory))
          | false =>
            cases isDamped : info.damped with
            | true => exact .inr (unusable_of_damped (damped.trans isDamped))
            | false =>
              have equipped := ready isValid hasMetric isHistory isDamped
              rw [← Bool.or_false info.extra?.isSome] at equipped
              exact .inl equipped

theorem Accounted.updateChanged
    (accounted : rib.Accounted table info.id info.subject info.extra?.isSome kinds)
    (sound : info.subject.IsSound info) (safe : UpdateSafe kinds info arrival) :
    (rib.updateChanged table info arrival).Books table := by
  have restored : ∃ standing : Standing, standing.IsRecorded ∧
      standing.history = info.history ∧ standing.damped = info.damped ∧
      (if info.removed then rib.infoRestore info.id else rib).Accounted table info.id
        (info.subject.to standing) info.extra?.isSome kinds := by
    split_ifs with removed
    · have released := accounted.release (.inl (unusable_of_removed removed))
      refine ⟨info.standing.restore, sound.recorded.restore, rfl, rfl, ?_⟩
      apply (released.infoRestore sound.source).close
      rcases safe with uncovered | ⟨held, _⟩
      · exact .inr uncovered
      · apply Or.inl
        rcases held removed with history | damped
        · exact unusable_of_history history
        · exact unusable_of_damped damped
    · exact ⟨info.standing, sound.recorded, rfl, rfl, accounted⟩
  rcases restored with ⟨standing, standingRecorded, sameHistory, sameDamped, restored⟩
  have soundTo := sound.to standingRecorded
  unfold Rib.updateChanged
  dsimp only
  generalize (if info.removed then rib.infoRestore info.id else rib) = after at restored ⊢
  have refreshed : (if info.stale then after.infoUnsetFlag info.id [.stale] else after).Accounted
      table info.id (info.subject.to standing) info.extra?.isSome kinds := by
    split_ifs
    · exact restored.infoPutFlag soundTo.source false rfl
    · exact restored
  generalize (if info.stale then after.infoUnsetFlag info.id [.stale] else after) = after
    at refreshed ⊢
  have marked : (after.infoSetFlag info.id [.attrChanged]).Accounted table info.id
      (info.subject.to standing) info.extra?.isSome kinds :=
    refreshed.infoPutFlag soundTo.source true rfl
  have decremented := marked.aggregateDecrement soundTo.source soundTo.linked
  rw [soundTo.node] at decremented
  generalize (after.infoSetFlag info.id [.attrChanged]).aggregateDecrement table
    info.node.network info.id = after at decremented ⊢
  split_ifs with dampens
  · rcases decremented.updateDampened soundTo arrival with
      ⟨final, equipped, finalRecorded, dampened, ready, suppressed⟩
    generalize after.updateDampened info arrival = result at dampened suppressed ⊢
    rcases result with ⟨after, status⟩
    cases status with
    | suppressed =>
      refine Accounted.books (dampened.close ?_) sound.linked finalRecorded
      rcases safe with uncovered | ⟨_, _, moderate⟩
      · exact .inr uncovered
      · apply Or.inl
        apply suppressed _ rfl
        rw [← moderate dampens]
        simp only [Standing.isModerate, Subject.to, sameHistory, sameDamped]
        rfl
    | used =>
      apply dampened.updateNexthop (soundTo.to finalRecorded)
      rcases ready with rfl | history
      · exact .inl fun _ _ _ _ => rfl
      · exact .inr (unusable_of_history history)
  · have undampened : arrival.dampens = false := by simpa using dampens
    exact decremented.updateNexthop soundTo (safe.prepared undampened sameHistory sameDamped)

theorem Accounted.updateSame
    (accounted : rib.Accounted table info.id info.subject info.extra?.isSome kinds)
    (sound : info.subject.IsSound info) (safe : arrival.dampens = true → info.history = true →
      Uncovered kinds info.node.network ∨ info.damped = true ∨
        arrival.updated.belowSuppress = true) :
    (rib.updateSame table info arrival).Books table := by
  have unset : (rib.infoUnsetFlag info.id [.attrChanged]).Accounted table info.id info.subject
      info.extra?.isSome kinds := accounted.infoPutFlag sound.source false rfl
  unfold Rib.updateSame
  dsimp only
  split_ifs with dampens stale
  · simp only [Bool.and_eq_true] at dampens
    have unusable : info.standing.isUsable = false := unusable_of_history dampens.2
    have updated := (unset.release (.inl unusable)).dampUpdate sound.source arrival.updated
    have updatedSound := sound.to (sound.recorded.dampUpdate arrival.updated)
    have suppressed : info.damped = true ∨ arrival.updated.belowSuppress = true →
        (info.subject.standing.dampUpdate arrival.updated).2 = .suppressed →
        (info.subject.standing.dampUpdate arrival.updated).1.isUsable = false := by
      intro moderate suppressed
      exact Standing.dampUpdate_suppressed moderate suppressed
    have prepared : Prepared kinds info.node.network info.extra?.isSome ∨
        (info.subject.standing.dampUpdate arrival.updated).1.isUsable = false := by
      cases found : info.damp? with
      | some damp => exact .inl fun _ _ _ _ => extra_of_damp found
      | none =>
        have same : (info.subject.standing.dampUpdate arrival.updated).1 = info.standing := by
          have missing : info.subject.standing.damp? = none := found
          rw [Standing.dampUpdate, missing]
          rfl
        rw [same]
        exact .inr unusable
    rw [← updated.2] at suppressed
    generalize (rib.infoUnsetFlag info.id [.attrChanged]).dampUpdate info.id arrival.updated =
      result at updated suppressed ⊢
    rcases result with ⟨after, status⟩
    cases status with
    | suppressed =>
      refine Accounted.books (updated.1.close ?_) sound.linked updatedSound.recorded
      rcases safe dampens.1 dampens.2 with uncovered | moderate
      · exact .inr uncovered
      · exact .inl (suppressed moderate rfl)
    | used => exact updated.1.increment updatedSound prepared
  · exact (unset.infoPutFlag sound.source false rfl).books sound.linked sound.recorded
  · exact unset.books sound.linked sound.recorded

/-! ## New routes -/

theorem Books.infoNew (books : rib.Books table) (node : RibNode)
    (bounded : node.network.prefixlen ≤ table.maxBitlen) (source : RibSource)
    (notAggregate : source ≠ .aggregate) (valid : Bool)
    (blank : extra? = none ∨ extra? = some ⟨0, none⟩) :
    (rib.infoNew node source valid extra?).Unaccounted table rib.nextId
      ⟨node, source, false, valid, false, false, false, none⟩ false rib.aggregateKinds := by
  have isOld : ∀ info ∈ rib.infos, info.id ≠ rib.nextId := fun info present =>
    (Balance.fresh books info present).ne
  let new : RibInfo := ⟨rib.nextId, node, source, valid, false, false, false, false, false, false,
    extra?, false⟩
  have newNot : ∀ network, new.isAggregateAt network = false := isAggregateAt_eq_false notAggregate
  have newDead : ∀ network, new.isLiveAt network = false := by
    intro network
    rfl
  have newUnaccounted : ∀ aggregate : Aggregate,
      aggregate.accounts (partly rib.nextId fun _ => false) new = false := by
    intro aggregate
    rw [Aggregate.accounts, partly_self, Bool.and_false]
  have oldAccounted : ∀ info ∈ rib.infos, ∀ aggregate : Aggregate,
      aggregate.accounts (partly rib.nextId fun _ => false) info =
        aggregate.accounts (fun _ _ => true) info := by
    intro info present aggregate
    rw [Aggregate.accounts, Aggregate.accounts, partly_of_ne (isOld info present)]
  have networks := Balance.networks books
  have vpn := Balance.vpn books
  have unborn : ∀ {Result : Prop} {network}, new.isLiveAt network = true → Result := by
    intro _ network live
    cases (newDead network).symm.trans live
  refine ⟨⟨?_, forall_mem_cons.mpr ⟨Nat.lt_succ_self _, ?_⟩,
    forall_mem_cons.mpr ⟨fun different => absurd rfl different, fun _ old _ => books.linked old⟩,
    forall_mem_cons.mpr ⟨fun different => absurd rfl different, fun _ old _ => books.recorded old⟩,
    forall_mem_cons.mpr ⟨fun isAggregate => absurd isAggregate notAggregate,
      Balance.undamped books⟩,
    forall_mem_cons.mpr ⟨bounded, Balance.bounded books⟩, networks, vpn, ?_,
    forall_mem_cons.mpr ⟨?_, ?_⟩, ?_,
    forall_mem_cons.mpr ⟨fun _ => unborn, ?_⟩,
    forall_mem_cons.mpr ⟨fun _ => unborn, Balance.configured books⟩⟩,
    ⟨new, mem_cons_self, rfl, ?_, Bool.false_ne_true.elim⟩, rfl⟩
  · simp only [Rib.infoNew, map_cons, nodup_cons]
    refine ⟨?_, Balance.distinct books⟩
    intro taken
    rcases mem_map.mp taken with ⟨info, present, same⟩
    exact isOld info present same
  · exact fun info old => Nat.lt_succ_of_lt (Balance.fresh books info old)
  · intro aggregate isIn
    have counted := Balance.count books aggregate isIn
    have same : rib.infos.countP (aggregate.accounts (partly rib.nextId fun _ => false)) =
        rib.infos.countP (aggregate.accounts fun _ _ => true) :=
      countP_eq_of_mem fun info present => oldAccounted info present aggregate
    rw [counted, ← same]
    exact congrArg Nat.cast
      (countP_cons_of_neg (by rw [newUnaccounted]; exact Bool.false_ne_true)).symm
  · have none : rib.aggregates.countP (fun aggregate => aggregate.summaryOnly &&
        aggregate.accounts (partly rib.nextId fun _ => false) new) = 0 := by
      rw [countP_eq_zero]
      intro aggregate _
      simp [newUnaccounted]
    have zero : new.suppressCount = 0 := by
      rcases blank with rfl | rfl <;> rfl
    exact zero.trans (congrArg Nat.cast none.symm)
  · intro info old
    rw [Balance.suppress books info old]
    simp only [oldAccounted info old]
    rfl
  · intro aggregate isIn
    rw [Balance.live books aggregate isIn]
    exact ((exists_mem_cons_iff _ new _).trans (or_iff_right unborn)).symm
  · intro info old network live
    have passed := Balance.first books info old network live
    rwa [← find?_cons_of_neg (by rw [newNot]; exact Bool.false_ne_true)] at passed
  · rcases blank with rfl | rfl <;> rfl

theorem Accounted.infoAdd (accounted : rib.Accounted table id subject extra kinds)
    (notAggregate : subject.source ≠ .aggregate) (recorded : subject.standing.IsRecorded) :
    (rib.infoAdd id).Books table := by
  have added : (rib.infoAdd id).Accounted table id { subject with linked := true } extra kinds := by
    refine Stage.change accounted { subject with linked := true } (by rfl) (by rfl) (by rfl) ?_
      rfl rfl notAggregate (.inr rfl)
    intro info present named
    rcases subject_eq accounted present named with ⟨isSubject, hasExtra⟩
    refine ⟨named, rfl, ?_, hasExtra⟩
    rw [← isSubject]
    rfl
  exact added.books rfl recorded

theorem Unaccounted.addNew (stage : rib.Unaccounted table id subject extra kinds)
    (node : subject.node.network = network) (notAggregate : subject.source ≠ .aggregate)
    (loose : subject.linked = false) (recorded : subject.standing.IsRecorded) :
    ((rib.aggregateIncrement table network id).infoAdd id).Books table := by
  rw [← node]
  apply Accounted.infoAdd (stage.aggregateIncrement notAggregate _) notAggregate recorded
  intro _ linked
  rw [loose] at linked
  cases linked

theorem blank_recorded (valid : Bool) : Standing.IsRecorded ⟨valid, false, false, false, none⟩ := by
  intro damp impossible
  cases impossible

theorem Books.updateNew (books : rib.Books table) (has : table.has node = true) (peer : Nat)
    (arrival : Arrival) : (rib.updateNew table node peer arrival).Books table := by
  have bounded : node.network.prefixlen ≤ table.maxBitlen := by
    simp only [RibTable.has, Bool.and_eq_true, decide_eq_true_eq] at has
    exact has.1
  have blank : (if table.safi = .mplsVpn then some ⟨0, none⟩ else none : Option InfoExtra) = none ∨
      (if table.safi = .mplsVpn then some ⟨0, none⟩ else none : Option InfoExtra) =
        some ⟨0, none⟩ := by
    split_ifs
    · exact .inr rfl
    · exact .inl rfl
  have new := books.infoNew node bounded (.neighbour peer) (by simp) false blank
  have looked := Stage.nexthopLookup new (by simp) arrival.nexthop
  have flagged := Unaccounted.infoPutFlag looked (by simp) arrival.nexthop.valid [.valid]
  exact flagged.addNew rfl (by simp [Subject.to]) rfl (blank_recorded _)

/-! ## Scanning and reuse -/

theorem Accounted.scanValid
    (accounted : rib.Accounted table info.id info.subject info.extra?.isSome kinds)
    (sound : info.subject.IsSound info) (prepared : nexthop.valid = true →
      nexthop.metric = false → info.valid = false →
      (info.standing.put true .valid).isUsable = true →
      Prepared kinds info.node.network info.extra?.isSome) :
    (rib.scanValid table info nexthop).Accounted table info.id
      (info.subject.to (info.standing.put nexthop.valid .valid))
      (info.extra?.isSome || (nexthop.valid && nexthop.metric)) kinds := by
  have looked : (rib.nexthopLookup info.id nexthop).Accounted table info.id info.subject
      (info.extra?.isSome || (nexthop.valid && nexthop.metric)) kinds :=
    Stage.nexthopLookup accounted sound.source nexthop
  unfold Rib.scanValid
  split_ifs with same wasValid
  · rw [same] at looked ⊢
    exact looked
  · have isInvalid : nexthop.valid = false := by
      rw [wasValid] at same
      simpa using same
    have decremented := looked.aggregateDecrement sound.source sound.linked
    have unset := decremented.infoPutFlag sound.source false [.valid]
    have closed := unset.close (.inl rfl)
    rw [isInvalid] at closed ⊢
    exact closed
  · have isValid : nexthop.valid = true := by
      simpa [wasValid] using same
    have wasInvalid : info.valid = false := by simpa using wasValid
    have idle : info.subject.standing.isUsable = false := by
      simp [Standing.isUsable, RibInfo.subject, RibInfo.standing, wasInvalid]
    have set := (looked.release (.inl idle)).infoPutFlag sound.source true [.valid]
    rw [isValid] at set ⊢
    apply set.aggregateIncrement sound.source
    intro contributes _ aggregate isIn covers summary
    cases hasMetric : nexthop.metric with
    | true => simp
    | false =>
      simp only [Subject.contributes, Bool.and_eq_true] at contributes
      have usable : (info.standing.put true .valid).isUsable = true := by
        simp only [Standing.isUsable, Bool.and_eq_true]
        exact contributes.1
      rw [prepared isValid hasMetric wasInvalid usable aggregate isIn covers summary]
      rfl

section

variable (accounted : rib.Accounted table id subject extra kinds)
  (notAggregate : subject.source ≠ .aggregate) (recorded : subject.standing.IsRecorded)
include accounted notAggregate recorded

/-- Freeing dampening information, except that of a damped route that was announced last and has
nothing else against it. -/
theorem Accounted.dampInfoFree
    (safe : Uncovered kinds subject.node.network ∨ subject.standing.damped = false ∨
      subject.standing.history = true ∨
        (subject.standing.valid && !subject.standing.removed) = false) :
    (rib.dampInfoFree id true).Accounted table id
      (subject.to (subject.standing.dampInfoFree true)) extra kinds := by
  have released : ∀ idle : subject.standing.isUsable = false ∨ Uncovered kinds subject.node.network,
      (rib.dampInfoFree id true).Unaccounted table id
        (subject.to (subject.standing.dampInfoFree true)) extra kinds := fun idle =>
    (accounted.release idle).dampInfoFree notAggregate true
  cases history : subject.standing.history with
  | true =>
    apply (released (.inl (unusable_of_history history))).close
    apply Or.inl
    cases found : subject.standing.damp? with
    | none =>
      have same : subject.standing.dampInfoFree true = subject.standing := by
        rw [Standing.dampInfoFree, found]
      rw [same]
      exact unusable_of_history history
    | some damp =>
      have withdrawn : damp.lastWithdraw = true := (recorded damp found).trans history
      simp [Subject.to, Standing.dampInfoFree, found, withdrawn, unusable_delete]
  | false =>
    rcases safe with uncovered | undamped | impossible | unusable
    · exact (released (.inr uncovered)).close (.inr uncovered)
    · unfold Rib.dampInfoFree Standing.dampInfoFree
      rw [damp?_eq accounted]
      cases found : subject.standing.damp? with
      | none => exact accounted
      | some damp =>
        have updated : damp.lastWithdraw = false := (recorded damp found).trans history
        have cleared := setDamp accounted notAggregate none
        have freed := Stage.infoPutFlag cleared notAggregate false [.history, .damped] (.inr
          (by simp [Subject.to, Standing.put, history, undamped]))
        simp only [updated]
        exact freed.of_extra extra
    · rw [history] at impossible
      cases impossible
    · have idle := unusable_of_flags unusable
      apply (released (.inl idle)).close
      apply Or.inl
      unfold Standing.dampInfoFree
      cases subject.standing.damp? with
      | none => exact idle
      | some damp =>
        dsimp only [Subject.to]
        split_ifs
        · exact unusable_delete _
        · exact unusable_of_flags unusable

theorem Accounted.dampScan_undamped (undamped : subject.standing.damped = false) (expired : Bool)
    (penalty : Penalty) :
    (rib.dampScan id expired penalty).2 = false ∧ ∃ standing : Standing, standing.IsRecorded ∧
      (rib.dampScan id expired penalty).1.Accounted table id (subject.to standing) extra kinds := by
  rcases info?_eq accounted with ⟨info, found, isSubject⟩
  have infoUndamped : info.damped = false :=
    (congrArg (fun subject => subject.standing.damped) isSubject).trans undamped
  unfold Rib.dampScan
  simp only [found, infoUndamped, Bool.false_eq_true, if_false]
  split_ifs
  · exact ⟨rfl, _, recorded.dampInfoFree true,
      accounted.dampInfoFree notAggregate recorded (.inr (.inl undamped))⟩
  · exact ⟨rfl, subject.standing, recorded, accounted⟩

end

theorem Unaccounted.dampScan_damped (stage : rib.Unaccounted table info.id subject true kinds)
    (sound : subject.IsSound info) (damped : subject.standing.damped = true)
    (found : subject.standing.damp? = some damp) (expired : Bool) (penalty : Penalty) :
    (if (rib.dampScan info.id expired penalty).2 then
      (rib.dampScan info.id expired penalty).1.aggregateIncrement table info.node.network info.id
    else (rib.dampScan info.id expired penalty).1).Books table := by
  have scanned := stage.dampScan sound.source expired penalty
  have scannedRecorded := sound.recorded.dampScan expired penalty
  rw [scanned.2]
  split_ifs with reused
  · exact scanned.1.increment (sound.to scannedRecorded) (.inl fun _ _ _ _ => rfl)
  · apply Accounted.books (scanned.1.close (.inl ?_)) sound.linked scannedRecorded
    have last := sound.recorded damp found
    revert reused
    simp only [Standing.dampScan, damped, found, Subject.to]
    cases expired with
    | false => simp [Standing.isUsable, damped]
    | true =>
      intro isWithdraw
      apply unusable_of_history
      simpa [last] using isWithdraw

theorem scan_eq (rib : Rib) (info : RibInfo) (nexthop : NexthopCheck) (dampening expired : Bool)
    (penalty : Penalty) :
    rib.scan table info nexthop dampening expired penalty =
      if dampening && info.damp?.isSome then
        if ((rib.scanValid table info nexthop).dampScan info.id expired penalty).2 then
          ((rib.scanValid table info nexthop).dampScan info.id expired penalty).1.aggregateIncrement
            table info.node.network info.id
        else ((rib.scanValid table info nexthop).dampScan info.id expired penalty).1
      else rib.scanValid table info nexthop := by
  unfold Rib.scan
  dsimp only
  generalize (rib.scanValid table info nexthop).dampScan info.id expired penalty = result
  rcases result with ⟨after, reused⟩
  cases reused <;> rfl

section

variable (accounted : rib.Accounted table info.id info.subject info.extra?.isSome kinds)
  (sound : info.subject.IsSound info)
include accounted sound

theorem Accounted.scan (prepared : nexthop.valid = true → nexthop.metric = false →
      info.valid = false → (info.standing.put true .valid).isUsable = true →
      Prepared kinds info.node.network info.extra?.isSome) (dampening expired : Bool)
    (penalty : Penalty) : (rib.scan table info nexthop dampening expired penalty).Books table := by
  have checked := accounted.scanValid sound prepared
  have checkedRecorded : (info.standing.put nexthop.valid .valid).IsRecorded := sound.recorded
  rw [scan_eq]
  cases scans : dampening && info.damp?.isSome with
  | false =>
    exact checked.books sound.linked checkedRecorded
  | true =>
    simp only [Bool.and_eq_true] at scans
    rcases Option.isSome_iff_exists.mp scans.2 with ⟨damp, found⟩
    rw [extra_of_damp found, Bool.true_or] at checked
    cases damped : info.damped with
    | true =>
      have idle : (info.standing.put nexthop.valid .valid).isUsable = false :=
        unusable_of_damped damped
      have released := checked.release (.inl idle)
      exact released.dampScan_damped (sound.to checkedRecorded) damped found expired penalty
    | false =>
      rcases checked.dampScan_undamped sound.source checkedRecorded damped expired penalty with
        ⟨unused, standing, standingRecorded, scanned⟩
      rw [if_neg (Bool.eq_false_iff.mp unused)]
      exact scanned.books sound.linked standingRecorded

theorem Accounted.reuse (damped : info.damped = true) (found : info.damp? = some damp)
    (penalty : Penalty) : (rib.reuse table info penalty).Books table := by
  have released := accounted.release (.inl (unusable_of_damped damped))
  have undamped : (rib.infoUnsetFlag info.id [.damped]).Unaccounted table info.id
      (info.subject.to { info.standing with damped := false }) info.extra?.isSome kinds :=
    released.infoPutFlag sound.source false [.damped]
  have history : damp.lastWithdraw = info.history := sound.recorded damp found
  unfold Rib.reuse
  cases penalty.belowReuse with
  | false => exact accounted.books sound.linked sound.recorded
  | true =>
    have reused : ∃ standing : Standing, standing.IsRecorded ∧ standing.damped = false ∧
        (if info.damp?.any fun damp => !damp.lastWithdraw then
          ((rib.infoUnsetFlag info.id [.damped]).infoUnsetFlag info.id
            [.history]).aggregateIncrement table info.node.network info.id
        else rib.infoUnsetFlag info.id [.damped]).Accounted table info.id
          (info.subject.to standing) info.extra?.isSome kinds := by
      rw [found, Option.any_some]
      cases last : damp.lastWithdraw with
      | true =>
        refine ⟨{ info.standing with damped := false }, sound.recorded, rfl, ?_⟩
        exact undamped.close (.inl (unusable_of_history (history.symm.trans last)))
      | false =>
        refine ⟨{ info.standing with damped := false, history := false }, ?_, rfl, ?_⟩
        · intro other same
          have isDamp : some damp = some other := found.symm.trans same
          cases isDamp
          exact last
        · have current := undamped.infoPutFlag sound.source false [.history]
          apply current.aggregateIncrement sound.source
          intro _ _ _ _ _ _
          exact extra_of_damp found
    rcases reused with ⟨standing, standingRecorded, free, reused⟩
    have kept := reused.books sound.linked standingRecorded
    have freed := (reused.dampInfoFree sound.source standingRecorded (.inr (.inl free))).books
      sound.linked (standingRecorded.dampInfoFree true)
    rw [if_pos rfl]
    split_ifs at kept freed ⊢
    all_goals assumption

end

/-! ## Routes of the router itself -/

/-- A usable route that a summary-only aggregate accounts for has its extra part. -/
theorem Accounted.prepared (accounted : rib.Accounted table id subject extra kinds)
    (notAggregate : subject.source ≠ .aggregate) :
    ∃ equipped, rib.Accounted table id subject equipped kinds ∧
      (Prepared kinds subject.node.network equipped ∨ subject.standing.isUsable = false) := by
  rcases accounted.holds with ⟨info, present, named, rfl, _⟩
  refine ⟨info.extra?.isSome,
    ⟨accounted.balance, ⟨info, present, named, rfl, fun isSome => isSome⟩, accounted.kinds⟩, ?_⟩
  cases usable : info.subject.standing.isUsable with
  | false => exact .inr rfl
  | true =>
    refine .inl fun aggregate isIn covers summary => ?_
    rcases mem_of_kind accounted isIn with ⟨old, oldIn, sameNetwork, sameKind⟩
    apply accounted.balance.extra_of_accounts present oldIn (sameKind.trans summary)
    have contributes : info.contributes = true := by
      rw [RibInfo.contributes_eq, Subject.contributes]
      unfold Standing.isUsable at usable
      rw [usable, Bool.true_and]
      exact bne_iff_ne.mpr notAggregate
    rw [Aggregate.accounts, partly_true, contributes, Aggregate.covers, sameNetwork]
    exact (Bool.and_true _).trans covers

theorem Accounted.originateAgain
    (accounted : rib.Accounted table info.id info.subject info.extra?.isSome kinds)
    (sound : info.subject.IsSound info)
    (prepared : info.removed = true → info.history = false → info.damped = false →
      Prepared kinds info.node.network info.extra?.isSome) :
    ((if info.removed then (rib.infoSetFlag info.id [.attrChanged]).infoRestore info.id
      else (rib.infoSetFlag info.id [.attrChanged]).aggregateDecrement table info.node.network
        info.id).aggregateIncrement table info.node.network info.id).Books table := by
  have marked : (rib.infoSetFlag info.id [.attrChanged]).Accounted table info.id info.subject
      info.extra?.isSome kinds := accounted.infoPutFlag sound.source true rfl
  split_ifs with removed
  · have released := marked.release (.inl (unusable_of_removed removed))
    have restored := released.infoRestore sound.source
    apply restored.increment (sound.to sound.recorded.restore)
    cases isHistory : info.history with
    | true => exact .inr (unusable_of_history isHistory)
    | false =>
      cases isDamped : info.damped with
      | true => exact .inr (unusable_of_damped isDamped)
      | false => exact .inl (prepared removed isHistory isDamped)
  · rcases marked.prepared sound.source with ⟨equipped, ready, usable⟩
    have decremented := ready.aggregateDecrement sound.source sound.linked
    exact Unaccounted.increment decremented sound usable

theorem Books.originateNew (books : rib.Books table) (has : table.has node = true)
    (source : RibSource) (notAggregate : source ≠ .aggregate)
    (blank : extra? = none ∨ extra? = some ⟨0, none⟩) :
    (((rib.infoNew node source true extra?).aggregateIncrement table node.network
      rib.nextId).infoAdd rib.nextId).Books table := by
  have bounded : node.network.prefixlen ≤ table.maxBitlen := by
    simp only [RibTable.has, Bool.and_eq_true, decide_eq_true_eq] at has
    exact has.1
  have new := books.infoNew node bounded source notAggregate true blank
  exact new.addNew rfl notAggregate rfl (blank_recorded _)

end Rib

end Quagga.Bgp
