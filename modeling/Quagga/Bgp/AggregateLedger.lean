import Quagga.Bgp.PrefixCount

/-!
# What the aggregates account for

The count of an aggregate and the suppress counts of the routes are kept by subtracting every
contribution and adding it again, around a change of one route. `Rib.Balance` says what they hold
while the route with a given id is accounted for by some of the aggregates only. Each turn of
`bgp_aggregate_decrement` and `bgp_aggregate_increment` moves one aggregate from one side to the
other.
-/

namespace Quagga.Bgp

open Foundation List Function RibInfo Aggregate

variable {old : Aggregate} {turn : Rib → Aggregate → Rib}

namespace RibInfo

/-- The suppress count, which is zero while there is no extra part. -/
def suppressCount (info : RibInfo) : Int := info.extra?.elim 0 InfoExtra.suppress

def isLiveAt (network : Prefix) (info : RibInfo) : Bool :=
  info.isAggregateAt network && !info.removed

/-- Alike in what an aggregate sees of a route. -/
structure Alike (info other : RibInfo) : Prop where
  id : info.id = other.id
  node : info.node = other.node
  source : info.source = other.source
  linked : info.linked = other.linked
  contributes : info.contributes = other.contributes

theorem Alike.refl (info : RibInfo) : info.Alike info := ⟨rfl, rfl, rfl, rfl, rfl⟩

theorem Alike.trans {first second third : RibInfo} (left : first.Alike second)
    (right : second.Alike third) : first.Alike third :=
  ⟨left.id.trans right.id, left.node.trans right.node, left.source.trans right.source,
    left.linked.trans right.linked, left.contributes.trans right.contributes⟩

theorem Alike.isAggregateAt {info other : RibInfo} (alike : info.Alike other) (network : Prefix) :
    info.isAggregateAt network = other.isAggregateAt network := by
  rw [RibInfo.isAggregateAt, RibInfo.isAggregateAt, alike.linked, alike.node, alike.source]

end RibInfo

namespace Aggregate

variable (aggregate : Aggregate)

/-- The aggregate accounts for the route, where `accounting` says which aggregate may account for
which route. -/
def accounts (accounting : Prefix → Nat → Bool) (info : RibInfo) : Bool :=
  info.contributes && aggregate.covers info.node.network && accounting aggregate.network info.id

variable {aggregate}

theorem accounts_of_alike {accounting : Prefix → Nat → Bool} {info other : RibInfo}
    (alike : info.Alike other) :
    aggregate.accounts accounting info = aggregate.accounts accounting other := by
  rw [accounts, accounts, alike.id, alike.contributes, alike.node]

end Aggregate

/-- What the edits of the aggregates leave of a route that is not an aggregate route itself. -/
structure Standing where
  valid : Bool
  history : Bool
  damped : Bool
  removed : Bool
  damp? : Option DampInfo

def RibInfo.standing (info : RibInfo) : Standing :=
  ⟨info.valid, info.history, info.damped, info.removed, info.damp?⟩

/-- The last record of dampening is a withdraw while the route is historical. -/
def Standing.IsRecorded (standing : Standing) : Prop :=
  ∀ damp, standing.damp? = some damp → damp.lastWithdraw = standing.history

/-- The books are balanced, where `accounting` says which aggregate may account for which route.
The route `id` need not be in the table yet. -/
structure Rib.Balance (table : RibTable) (id : Nat) (accounting : Prefix → Nat → Bool) (rib : Rib) :
    Prop where
  distinct : (rib.infos.map RibInfo.id).Nodup
  fresh : ∀ info ∈ rib.infos, info.id < rib.nextId
  linked : ∀ info ∈ rib.infos, info.id ≠ id → info.linked = true
  recorded : ∀ info ∈ rib.infos, info.id ≠ id → info.source ≠ .aggregate → info.standing.IsRecorded
  undamped : ∀ info ∈ rib.infos, info.source = .aggregate → info.damped = false ∧ info.damp? = none
  bounded : ∀ info ∈ rib.infos, info.node.network.prefixlen ≤ table.maxBitlen
  networks : (rib.aggregates.map Aggregate.network).Nodup
  vpn : table.safi = .mplsVpn → rib.aggregates = []
  count : ∀ aggregate ∈ rib.aggregates,
    aggregate.count = rib.infos.countP (aggregate.accounts accounting)
  suppress : ∀ info ∈ rib.infos, info.suppressCount =
    rib.aggregates.countP fun aggregate =>
      aggregate.summaryOnly && aggregate.accounts accounting info
  live : ∀ aggregate ∈ rib.aggregates,
    aggregate.count ≠ 0 ↔ ∃ info ∈ rib.infos, info.isLiveAt aggregate.network = true
  first : ∀ info ∈ rib.infos, ∀ network, info.isLiveAt network = true →
    rib.infos.find? (RibInfo.isAggregateAt network) = some info
  configured : ∀ info ∈ rib.infos, ∀ network, info.isLiveAt network = true →
    ∃ aggregate ∈ rib.aggregates, aggregate.network = network

namespace Rib

variable {table : RibTable} {id : Nat} {accounting : Prefix → Nat → Bool} {rib : Rib}

/-! ## Deleting the contributions of an aggregate -/

theorem pcountAdjust_own (own : rib.IsOwn id) : rib.pcountAdjust id = rib := by
  unfold Rib.pcountAdjust
  cases found : rib.info? id with
  | none => rfl
  | some info =>
    rcases mem_of_recordAt found with ⟨present, named⟩
    exact if_pos (own info present named)

theorem infoDelete_own (own : rib.IsOwn id) :
    rib.infoDelete id =
      rib.change id fun info => { info with removed := true, valid := false } := by
  have marked : (rib.change id (put true · .removed)).IsOwn id := by
    intro info present named
    rcases mem_changeAt present with ⟨old, oldPresent, ⟨same, rfl⟩ | ⟨different, rfl⟩⟩
    · exact own old oldPresent same
    · exact own info oldPresent named
  have adjusted : rib.infoSetFlag id [.removed] = rib.change id (put true · .removed) :=
    pcountAdjust_own marked
  rw [infoDelete, adjusted]
  simp only [change, changeAt, map_map]
  congr 1
  apply map_congr_left
  intro info present
  by_cases named : info.id = id
  · simp [named, put]
  · simp [named]

end Rib

/-- One route before and after a walk for `aggregate`. -/
structure RibInfo.Walked (aggregate : Aggregate) (info after : RibInfo) : Prop where
  alike : after.Alike info
  standing : info.source ≠ .aggregate → after.standing = info.standing
  dampening : after.damped = info.damped ∧ after.damp? = info.damp?
  extra : info.extra?.isSome = true → after.extra?.isSome = true
  live : ∀ network, network ≠ aggregate.network → after.isLiveAt network = info.isLiveAt network

namespace RibInfo

variable {aggregate : Aggregate} {info : RibInfo}

theorem Walked.refl (aggregate : Aggregate) (info : RibInfo) : info.Walked aggregate info :=
  ⟨.refl info, fun _ => rfl, ⟨rfl, rfl⟩, fun some => some, fun _ _ => rfl⟩

theorem Walked.trans {middle last : RibInfo} (left : info.Walked aggregate middle)
    (right : middle.Walked aggregate last) : info.Walked aggregate last where
  alike := right.alike.trans left.alike
  standing := by
    intro notAggregate
    rw [right.standing (left.alike.source ▸ notAggregate), left.standing notAggregate]
  dampening := ⟨right.dampening.1.trans left.dampening.1, right.dampening.2.trans left.dampening.2⟩
  extra := fun some => right.extra (left.extra some)
  live := by
    intro network different
    rw [right.live network different, left.live network different]

theorem unsuppress_walked : info.Walked aggregate info.unsuppress := by
  unfold unsuppress
  cases found : info.extra? with
  | none => exact .refl aggregate info
  | some extra =>
    refine ⟨⟨rfl, rfl, rfl, rfl, rfl⟩, ?_, ⟨rfl, ?_⟩, fun _ => rfl, fun _ _ => rfl⟩
    · intro notAggregate
      simp [standing, damp?, found]
    · simp [damp?, found]

theorem suppress_walked : info.Walked aggregate info.suppress := by
  have same : info.suppress.damp? = info.damp? := by
    cases found : info.extra? <;> simp [damp?, suppress, extraGet, found]
  refine ⟨⟨rfl, rfl, rfl, rfl, rfl⟩, ?_, ⟨rfl, same⟩, fun _ => rfl, fun _ _ => rfl⟩
  intro notAggregate
  rw [standing, same]
  rfl

theorem suppressCount_unsuppress : info.unsuppress.suppressCount =
    info.suppressCount - if info.extra?.isSome then 1 else 0 := by
  unfold unsuppress
  cases found : info.extra? <;> simp [suppressCount, found]

theorem suppressCount_suppress : info.suppress.suppressCount = info.suppressCount + 1 := by
  cases found : info.extra? <;> simp [suppressCount, suppress, extraGet, found]

theorem lower_walked : info.Walked aggregate (aggregate.lower info) := by
  unfold Aggregate.lower
  split_ifs
  · exact unsuppress_walked
  · exact .refl aggregate info

theorem suppressCount_lower : (aggregate.lower info).suppressCount = info.suppressCount -
    if aggregate.counts info && aggregate.summaryOnly && info.extra?.isSome then 1 else 0 := by
  unfold Aggregate.lower
  cases chosen : aggregate.counts info && aggregate.summaryOnly with
  | true => rw [if_pos rfl, suppressCount_unsuppress, Bool.true_and]
  | false => simp

theorem isLiveAt_lower (network : Prefix) :
    (aggregate.lower info).isLiveAt network = info.isLiveAt network := by
  unfold Aggregate.lower
  split_ifs
  · unfold unsuppress
    cases info.extra? <;> rfl
  · rfl

theorem raise_walked {del? : Option Nat} : info.Walked aggregate (aggregate.raise del? info) := by
  unfold Aggregate.raise
  split_ifs
  · refine suppress_walked.trans
      ⟨⟨rfl, rfl, rfl, rfl, rfl⟩, fun _ => rfl, ⟨rfl, rfl⟩, fun some => some, ?_⟩
    intro network different
    rfl
  · exact .refl aggregate info

theorem suppressCount_raise {del? : Option Nat} :
    (aggregate.raise del? info).suppressCount = info.suppressCount +
      if aggregate.countsBut del? info && aggregate.summaryOnly then 1 else 0 := by
  unfold Aggregate.raise
  split_ifs
  · exact suppressCount_suppress
  · simp

theorem isLiveAt_raise {del? : Option Nat} (network : Prefix) :
    (aggregate.raise del? info).isLiveAt network = info.isLiveAt network := by
  unfold Aggregate.raise
  split_ifs <;> rfl

end RibInfo

variable {info : RibInfo}

namespace Rib

variable {table : RibTable} {id : Nat} {accounting : Prefix → Nat → Bool} {rib : Rib}

structure Lowered (aggregate : Aggregate) (rib after : Rib) : Prop where
  nextId : after.nextId = rib.nextId
  aggregates : after.aggregates =
    (rib.addCount aggregate.network (-(rib.infos.countP aggregate.counts : Int))).aggregates
  infos : ∃ edit : RibInfo → RibInfo, after.infos = rib.infos.map edit ∧ ∀ info ∈ rib.infos,
    info.Walked aggregate (edit info) ∧
    (edit info).isLiveAt aggregate.network = false ∧
    (edit info).suppressCount = info.suppressCount -
      if aggregate.counts info && aggregate.summaryOnly && info.extra?.isSome then 1 else 0

theorem withdrawn_walked {aggregate : Aggregate}
    (isAggregate : info.isAggregateAt aggregate.network = true) :
    info.Walked aggregate { info with removed := true, valid := false } := by
  have fields := isAggregate
  simp only [RibInfo.isAggregateAt, Bool.and_eq_true, beq_iff_eq] at fields
  refine ⟨⟨rfl, rfl, rfl, rfl, ?_⟩, ?_, ⟨rfl, rfl⟩, fun some => some, ?_⟩
  · simp [RibInfo.contributes, fields.2]
  · intro notAggregate
    exact absurd fields.2 notAggregate
  · intro network different
    have elsewhere : info.node ≠ ⟨none, network⟩ := by
      rw [fields.1.2]
      intro same
      exact different (congrArg RibNode.network same).symm
    simp [RibInfo.isLiveAt, RibInfo.isAggregateAt, elsewhere]

theorem aggregateDelete_lowered (distinct : (rib.infos.map RibInfo.id).Nodup)
    {aggregate : Aggregate} (first : ∀ info ∈ rib.infos, info.isLiveAt aggregate.network = true →
      rib.infos.find? (RibInfo.isAggregateAt aggregate.network) = some info)
    (short : aggregate.network.prefixlen ≠ table.maxBitlen) :
    Lowered aggregate rib (rib.aggregateDelete table aggregate) := by
  have found : (rib.infos.map aggregate.lower).find? (RibInfo.isAggregateAt aggregate.network) =
      (rib.infos.find? (RibInfo.isAggregateAt aggregate.network)).map aggregate.lower := by
    rw [find?_map]
    congr 2
    funext info
    exact lower_walked.alike.isAggregateAt aggregate.network
  unfold Rib.aggregateDelete
  rw [if_neg short]
  cases present : rib.infos.find? (RibInfo.isAggregateAt aggregate.network) with
  | none =>
    simp only [found, present]
    refine ⟨rfl, rfl, aggregate.lower, rfl, ?_⟩
    intro info member
    have other : info.isAggregateAt aggregate.network = false := by
      simpa using find?_eq_none.mp present info member
    refine ⟨lower_walked, ?_, suppressCount_lower⟩
    rw [RibInfo.isLiveAt, lower_walked.alike.isAggregateAt, other]
    rfl
  | some old =>
    simp only [found, present, Option.map_some]
    have isAggregate := find?_some present
    have member := mem_of_find?_eq_some present
    have isOld : ∀ info ∈ rib.infos, (aggregate.lower info).id = (aggregate.lower old).id →
        info = old := by
      intro info infoMember same
      rw [lower_walked.alike.id, lower_walked.alike.id] at same
      exact inj_on_of_nodup_map distinct infoMember member same
    rw [infoDelete_own]
    · refine ⟨rfl, rfl, _, map_map, ?_⟩
      intro info infoMember
      by_cases same : (aggregate.lower info).id = (aggregate.lower old).id
      · have lowered : (aggregate.lower info).isAggregateAt aggregate.network = true := by
          rw [lower_walked.alike.isAggregateAt, isOld info infoMember same]
          exact isAggregate
        simp only [comp_apply, if_pos same]
        refine ⟨lower_walked.trans (withdrawn_walked lowered), ?_, ?_⟩
        · simp [RibInfo.isLiveAt]
        · exact suppressCount_lower
      · simp only [comp_apply, if_neg same]
        refine ⟨lower_walked, ?_, suppressCount_lower⟩
        apply Bool.eq_false_iff.mpr
        intro live
        rw [isLiveAt_lower] at live
        have isFirst := first info infoMember live
        rw [present] at isFirst
        cases isFirst
        exact same rfl
    · intro info infoMember same
      rcases mem_map.mp infoMember with ⟨before, beforeMember, rfl⟩
      rw [isOld before beforeMember same, lower_walked.alike.source]
      simp only [RibInfo.isAggregateAt, Bool.and_eq_true, beq_iff_eq] at isAggregate
      rw [isAggregate.2]
      rfl

/-! ## Adding the contributions of an aggregate -/

theorem addCount_addCount (rib : Rib) (network : Prefix) (first second : Int) :
    (rib.addCount network first).addCount network second =
      rib.addCount network (first + second) := by
  simp only [addCount, changeAt, map_map]
  congr 1
  apply map_congr_left
  intro aggregate member
  by_cases named : aggregate.network = network
  · simp [named, Int.add_assoc]
  · simp [named]

def aggregateInfo (id : Nat) (network : Prefix) : RibInfo :=
  ⟨id, ⟨none, network⟩, .aggregate, true, false, false, false, false, false, false, none, true⟩

def announcement (id : Nat) (network : Prefix) (count : Int) : List RibInfo :=
  if count ≠ 0 then [aggregateInfo id network] else []

variable {network : Prefix}

theorem announceAggregate_eq (rib : Rib) (fresh : ∀ info ∈ rib.infos, info.id < rib.nextId)
    {aggregate : Aggregate}
    (found : recordAt Aggregate.network network rib.aggregates = some aggregate) :
    (rib.announceAggregate network).infos =
        announcement rib.nextId network aggregate.count ++ rib.infos ∧
      (rib.announceAggregate network).aggregates = rib.aggregates ∧
      rib.nextId ≤ (rib.announceAggregate network).nextId ∧
      ∀ info ∈ announcement rib.nextId network aggregate.count,
        info.id < (rib.announceAggregate network).nextId := by
  have old : ∀ info ∈ rib.infos, info.id ≠ rib.nextId := fun info member => (fresh info member).ne
  simp only [announceAggregate, found, announcement]
  split_ifs with none
  · refine ⟨?_, rfl, Nat.le_succ _, ?_⟩
    · simp only [infoAdd, infoNew, change, changeAt, map_cons]
      congr 1
      exact changeAt_of_missing old
    · intro info member
      rw [mem_singleton.mp member]
      exact Nat.lt_succ_self _
  · exact ⟨rfl, rfl, Nat.le_refl _, fun _ member => absurd member not_mem_nil⟩

def raisedBy (aggregate : Aggregate) (new? del? : Option Nat) (rib : Rib) : Int :=
  rib.infos.countP (aggregate.countsBut del?) + if new?.isSome then 1 else 0

structure Raised (aggregate : Aggregate) (count : Int) (new? del? : Option Nat) (rib after : Rib) :
    Prop where
  aggregates : after.aggregates =
    (rib.addCount aggregate.network (raisedBy aggregate new? del? rib)).aggregates
  nextId : rib.nextId ≤ after.nextId
  fresh : ∀ info ∈ announcement rib.nextId aggregate.network
    (count + raisedBy aggregate new? del? rib), info.id < after.nextId
  infos : ∃ edit : RibInfo → RibInfo,
    after.infos = announcement rib.nextId aggregate.network
      (count + raisedBy aggregate new? del? rib) ++ rib.infos.map edit ∧
    ∀ info ∈ rib.infos,
      info.Walked aggregate (edit info) ∧
      (∀ network, (edit info).isLiveAt network = info.isLiveAt network) ∧
      (edit info).suppressCount = info.suppressCount +
        (if aggregate.countsBut del? info && aggregate.summaryOnly then 1 else 0) +
        if new? = some info.id ∧ aggregate.summaryOnly = true then 1 else 0

/-- The route that is counted in any case. -/
def raiseNew (aggregate : Aggregate) (new? del? : Option Nat) (info : RibInfo) : RibInfo :=
  if new? = some info.id ∧ aggregate.summaryOnly = true then (aggregate.raise del? info).suppress
  else aggregate.raise del? info

section

variable {aggregate : Aggregate} {new? del? : Option Nat} {info : RibInfo}

theorem raiseNew_walked : info.Walked aggregate (raiseNew aggregate new? del? info) := by
  unfold raiseNew
  split_ifs
  · exact raise_walked.trans suppress_walked
  · exact raise_walked

theorem isLiveAt_raiseNew (network : Prefix) :
    (raiseNew aggregate new? del? info).isLiveAt network = info.isLiveAt network := by
  unfold raiseNew
  split_ifs
  · exact isLiveAt_raise network
  · exact isLiveAt_raise network

theorem suppressCount_raiseNew :
    (raiseNew aggregate new? del? info).suppressCount = info.suppressCount +
      (if aggregate.countsBut del? info && aggregate.summaryOnly then 1 else 0) +
      if new? = some info.id ∧ aggregate.summaryOnly = true then 1 else 0 := by
  unfold raiseNew
  by_cases isNew : new? = some info.id ∧ aggregate.summaryOnly = true
  · rw [if_pos isNew, if_pos isNew, suppressCount_suppress, suppressCount_raise]
  · rw [if_neg isNew, if_neg isNew, suppressCount_raise, Int.add_zero]

end

theorem aggregateWalk_eq (rib : Rib) (aggregate : Aggregate) (new? del? : Option Nat) :
    rib.aggregateWalk new? del? aggregate =
      { rib.addCount aggregate.network (raisedBy aggregate new? del? rib) with
        infos := rib.infos.map (raiseNew aggregate new? del?) } := by
  cases new? with
  | none =>
    have unchanged : raiseNew aggregate none del? = aggregate.raise del? := by
      funext info
      simp [raiseNew]
    simp [aggregateWalk, unchanged, raisedBy]
  | some id =>
    have aggregates := congrArg Rib.aggregates (addCount_addCount rib aggregate.network
      (rib.infos.countP (aggregate.countsBut del?)) 1)
    cases summary : aggregate.summaryOnly with
    | false =>
      simp only [aggregateWalk, summary]
      apply Rib.ext
      · apply map_congr_left
        intro info member
        simp [raiseNew, summary]
      · rfl
      · rfl
      · exact aggregates
      · rfl
    | true =>
      simp only [aggregateWalk, summary]
      apply Rib.ext
      · simp only [addCount, change, changeAt, map_map]
        apply map_congr_left
        intro info member
        have kept : (aggregate.raise del? info).id = info.id := raise_walked.alike.id
        by_cases isNew : info.id = id
        · simp [raiseNew, summary, kept, isNew]
        · simp [raiseNew, kept, isNew, Ne.symm isNew]
      · rfl
      · rfl
      · exact aggregates
      · rfl

theorem recordAt_addCount (found : recordAt Aggregate.network network rib.aggregates = some old)
    (amount : Int) :
    recordAt Aggregate.network network (rib.addCount network amount).aggregates =
      some { old with count := old.count + amount } := by
  rw [addCount, recordAt_changeAt (by intro record; rfl), found]
  rfl

theorem aggregateRoute_raised (fresh : ∀ info ∈ rib.infos, info.id < rib.nextId)
    {aggregate : Aggregate} (new? del? : Option Nat)
    (found : recordAt Aggregate.network aggregate.network rib.aggregates = some old) :
    Raised aggregate old.count new? del? rib (rib.aggregateRoute new? del? aggregate) := by
  have walkedFresh : ∀ info ∈ rib.infos.map (raiseNew aggregate new? del?),
      info.id < rib.nextId := by
    simpa only [forall_mem_map, raiseNew_walked.alike.id] using fresh
  have announced := announceAggregate_eq
    { rib.addCount aggregate.network (raisedBy aggregate new? del? rib) with
      infos := rib.infos.map (raiseNew aggregate new? del?) } walkedFresh
    (recordAt_addCount found (raisedBy aggregate new? del? rib))
  unfold aggregateRoute
  rw [aggregateWalk_eq]
  rcases announced with ⟨infos, aggregates, nextId, announcedFresh⟩
  refine ⟨aggregates, nextId, announcedFresh, raiseNew aggregate new? del?, infos, ?_⟩
  intro info member
  exact ⟨raiseNew_walked, isLiveAt_raiseNew, suppressCount_raiseNew⟩

/-! ## Counting again -/

/-- What one turn of `bgp_aggregate_increment` or `bgp_aggregate_decrement` leaves: the count of
the aggregate grows by `amount`, and the suppress count of each route by `share`. -/
structure Recounted (aggregate : Aggregate) (count amount : Int) (share : RibInfo → Int)
    (rib after : Rib) : Prop where
  aggregates : after.aggregates = (rib.addCount aggregate.network amount).aggregates
  nextId : rib.nextId ≤ after.nextId
  fresh : ∀ info ∈ announcement rib.nextId aggregate.network (count + amount),
    info.id < after.nextId
  infos : ∃ edit : RibInfo → RibInfo,
    after.infos = announcement rib.nextId aggregate.network (count + amount) ++ rib.infos.map edit ∧
    ∀ info ∈ rib.infos,
      info.Walked aggregate (edit info) ∧
      (edit info).isLiveAt aggregate.network = false ∧
      (edit info).suppressCount = info.suppressCount + share info

theorem mem_announcement {id : Nat} {count : Int} (member : info ∈ announcement id network count) :
    count ≠ 0 ∧ info = aggregateInfo id network := by
  unfold announcement at member
  split_ifs at member with nonzero
  · exact ⟨nonzero, mem_singleton.mp member⟩
  · cases member

theorem aggregateInfo_elsewhere {id : Nat} {network other : Prefix} (different : other ≠ network) :
    (aggregateInfo id network).isAggregateAt other = false := by
  simp [RibInfo.isAggregateAt, aggregateInfo, different.symm]

theorem countP_announcement (other : Aggregate) (info : Nat) (network : Prefix) (count : Int) :
    (announcement info network count).countP (other.accounts accounting) = 0 := by
  rw [countP_eq_zero]
  intro info member
  rw [(mem_announcement member).2]
  exact Bool.false_ne_true

theorem accounts_of_network {first second : Aggregate} (same : first.network = second.network) :
    first.accounts accounting = second.accounts accounting := by
  funext info
  rw [Aggregate.accounts, Aggregate.accounts, Aggregate.covers, Aggregate.covers, same]

theorem accounts_of_agree {first second : Prefix → Nat → Bool} {aggregate : Aggregate}
    (agree : first aggregate.network = second aggregate.network) :
    aggregate.accounts first = aggregate.accounts second := by
  funext info
  rw [Aggregate.accounts, Aggregate.accounts, agree]

section

variable {aggregate : Aggregate} {count amount : Int} {share : RibInfo → Int} {after : Rib}
  {next : Prefix → Nat → Bool}

section

variable (recounted : Recounted aggregate count amount share rib after)
include recounted

theorem Recounted.mem (present : info ∈ after.infos) :
    (count + amount ≠ 0 ∧ info = aggregateInfo rib.nextId aggregate.network) ∨
      ∃ old ∈ rib.infos, old.Walked aggregate info ∧
        info.isLiveAt aggregate.network = false ∧
        info.suppressCount = old.suppressCount + share old := by
  rcases recounted.infos with ⟨edit, infos, edits⟩
  rw [infos] at present
  rcases mem_append.mp present with announced | walked
  · exact .inl (mem_announcement announced)
  · rcases mem_map.mp walked with ⟨old, oldPresent, rfl⟩
    exact .inr ⟨old, oldPresent, edits old oldPresent⟩

theorem Recounted.countP (other : Aggregate) :
    after.infos.countP (other.accounts accounting) =
      rib.infos.countP (other.accounts accounting) := by
  rcases recounted.infos with ⟨edit, infos, edits⟩
  rw [infos, countP_append, countP_announcement, Nat.zero_add, countP_map]
  exact countP_eq_of_mem fun info present =>
    accounts_of_alike (edits info present).1.alike

theorem Recounted.mem_aggregates {other : Aggregate} (present : other ∈ after.aggregates) :
    ∃ old ∈ rib.aggregates, old.network = other.network ∧ old.summaryOnly = other.summaryOnly ∧
      other.count = old.count + if other.network = aggregate.network then amount else 0 := by
  rw [recounted.aggregates] at present
  rcases mem_changeAt present with ⟨old, oldPresent, ⟨named, rfl⟩ | ⟨different, rfl⟩⟩
  · exact ⟨old, oldPresent, rfl, rfl, by simp [named]⟩
  · exact ⟨other, oldPresent, rfl, rfl, by simp [different]⟩

theorem Recounted.networks :
    after.aggregates.map Aggregate.network = rib.aggregates.map Aggregate.network := by
  rw [recounted.aggregates]
  exact map_key_changeAt (by intro record; rfl) rib.aggregates

theorem Recounted.countP_aggregates (info : RibInfo) :
    after.aggregates.countP (fun other => other.summaryOnly && other.accounts accounting info) =
      rib.aggregates.countP fun other => other.summaryOnly && other.accounts accounting info := by
  rw [recounted.aggregates, addCount, changeAt, countP_map]
  apply countP_congr
  intro other present
  by_cases named : other.network = aggregate.network
  · simp only [comp_apply, if_pos named]
    rfl
  · simp [if_neg named]

theorem Recounted.exists_live_iff :
    (∃ info ∈ after.infos, info.isLiveAt aggregate.network = true) ↔ count + amount ≠ 0 := by
  refine ⟨?_, ?_⟩
  · rintro ⟨info, present, live⟩
    rcases recounted.mem present with ⟨nonzero, _⟩ | ⟨_, _, _, dead, _⟩
    · exact nonzero
    · rw [dead] at live
      cases live
  · intro nonzero
    rcases recounted.infos with ⟨edit, infos, _⟩
    refine ⟨aggregateInfo rib.nextId aggregate.network, ?_, ?_⟩
    · rw [infos]
      exact mem_append_left _ (by simp [announcement, nonzero])
    · simp [RibInfo.isLiveAt, RibInfo.isAggregateAt, aggregateInfo]

end

theorem not_isLiveAt_aggregateInfo {id : Nat} {network other : Prefix}
    (different : other ≠ network) : (aggregateInfo id network).isLiveAt other = false := by
  rw [RibInfo.isLiveAt, aggregateInfo_elsewhere different]
  rfl

section

variable (recounted : Recounted aggregate count amount share rib after)
include recounted

theorem Recounted.exists_live_elsewhere (different : network ≠ aggregate.network) :
    (∃ info ∈ after.infos, info.isLiveAt network = true) ↔
      ∃ info ∈ rib.infos, info.isLiveAt network = true := by
  refine ⟨?_, ?_⟩
  · rintro ⟨info, present, live⟩
    rcases recounted.mem present with ⟨_, rfl⟩ | ⟨old, oldPresent, walked, _⟩
    · rw [not_isLiveAt_aggregateInfo different] at live
      cases live
    · exact ⟨old, oldPresent, walked.live network different ▸ live⟩
  · rintro ⟨info, present, live⟩
    rcases recounted.infos with ⟨edit, infos, edits⟩
    refine ⟨edit info, ?_, ?_⟩
    · rw [infos]
      exact mem_append_right _ (mem_map.mpr ⟨info, present, rfl⟩)
    · rw [(edits info present).1.live network different, live]

theorem Recounted.first (first : ∀ info ∈ rib.infos, ∀ network, info.isLiveAt network = true →
      rib.infos.find? (RibInfo.isAggregateAt network) = some info) (present : info ∈ after.infos)
    (live : info.isLiveAt network = true) :
    after.infos.find? (RibInfo.isAggregateAt network) = some info := by
  have isAggregate : info.isAggregateAt network = true := by
    simp only [RibInfo.isLiveAt, Bool.and_eq_true] at live
    exact live.1
  rcases recounted.infos with ⟨edit, infos, edits⟩
  rw [infos, find?_append]
  rw [infos] at present
  by_cases same : network = aggregate.network
  · subst same
    rcases mem_append.mp present with announced | walked
    · rcases mem_announcement announced with ⟨nonzero, rfl⟩
      simp [announcement, nonzero, isAggregate]
    · rcases mem_map.mp walked with ⟨old, oldPresent, rfl⟩
      rw [(edits old oldPresent).2.1] at live
      cases live
  · have skipped : (announcement rib.nextId aggregate.network (count + amount)).find?
        (RibInfo.isAggregateAt network) = none := by
      rw [find?_eq_none]
      intro other announced
      rw [(mem_announcement announced).2, aggregateInfo_elsewhere same]
      exact Bool.false_ne_true
    rcases mem_append.mp present with announced | walked
    · rw [(mem_announcement announced).2, aggregateInfo_elsewhere same] at isAggregate
      cases isAggregate
    · rcases mem_map.mp walked with ⟨old, oldPresent, rfl⟩
      have tests : ∀ other ∈ rib.infos, (RibInfo.isAggregateAt network ∘ edit) other =
          other.isAggregateAt network := by
        intro other otherPresent
        exact (edits other otherPresent).1.alike.isAggregateAt network
      rw [skipped, find?_map, find?_congr tests,
        first old oldPresent network ((edits old oldPresent).1.live network same ▸ live)]
      rfl

theorem Recounted.distinct (distinct : (rib.infos.map RibInfo.id).Nodup)
    (fresh : ∀ info ∈ rib.infos, info.id < rib.nextId) : (after.infos.map RibInfo.id).Nodup := by
  rcases recounted.infos with ⟨edit, infos, edits⟩
  have ids : (rib.infos.map edit).map RibInfo.id = rib.infos.map RibInfo.id := by
    rw [map_map]
    apply map_congr_left
    intro info present
    exact (edits info present).1.alike.id
  rw [infos, map_append, ids]
  unfold announcement
  split_ifs
  · simp only [map_cons, map_nil, singleton_append, nodup_cons]
    refine ⟨?_, distinct⟩
    intro taken
    rcases mem_map.mp taken with ⟨info, present, same⟩
    exact absurd same (fresh info present).ne
  · exact distinct

end

theorem Balance.recount (balance : rib.Balance table id accounting) (isIn : old ∈ rib.aggregates)
    (named : old.network = aggregate.network) (sameKind : old.summaryOnly = aggregate.summaryOnly)
    (short : old.count + amount ≠ 0 → aggregate.network.prefixlen ≤ table.maxBitlen)
    (recounted : Recounted aggregate old.count amount share rib after)
    (elsewhere : ∀ network, network ≠ aggregate.network → next network = accounting network)
    (isAmount : amount = rib.infos.countP (aggregate.accounts next) -
      (rib.infos.countP (aggregate.accounts accounting) : Int))
    (isShare : ∀ info ∈ rib.infos, share info = if aggregate.summaryOnly then
      ((aggregate.accounts next info).toNat -
        ((aggregate.accounts accounting info).toNat : Int)) else 0) :
    after.Balance table id next := by
  have isOld : ∀ other ∈ rib.aggregates, other.network = aggregate.network → other = old := by
    intro other present same
    exact inj_on_of_nodup_map balance.networks present isIn (same.trans named.symm)
  have routes : ∀ info ∈ after.infos, info.id < after.nextId ∧
      (info.id ≠ id → info.linked = true) ∧
      (info.id ≠ id → info.source ≠ .aggregate → info.standing.IsRecorded) ∧
      (info.source = .aggregate → info.damped = false ∧ info.damp? = none) ∧
      info.node.network.prefixlen ≤ table.maxBitlen := by
    intro info present
    rcases recounted.mem present with ⟨nonzero, rfl⟩ | ⟨before, isBefore, walked, _⟩
    · exact ⟨recounted.fresh _ (by simp [announcement, nonzero]), fun _ => rfl,
        fun _ notAggregate => absurd rfl notAggregate, fun _ => ⟨rfl, rfl⟩, short nonzero⟩
    · rw [walked.alike.id, walked.alike.linked, walked.alike.source, walked.alike.node,
        walked.dampening.1, walked.dampening.2]
      refine ⟨Nat.lt_of_lt_of_le (balance.fresh before isBefore) recounted.nextId,
        balance.linked before isBefore, ?_, balance.undamped before isBefore,
        balance.bounded before isBefore⟩
      intro different notAggregate
      rw [walked.standing notAggregate]
      exact balance.recorded before isBefore different notAggregate
  refine ⟨recounted.distinct balance.distinct balance.fresh,
    fun info present => (routes info present).1, fun info present => (routes info present).2.1,
    fun info present => (routes info present).2.2.1,
    fun info present => (routes info present).2.2.2.1,
    fun info present => (routes info present).2.2.2.2, ?_, ?_, ?_, ?_, ?_, ?_, ?_⟩
  · rw [recounted.networks]
    exact balance.networks
  · intro isVpn
    rw [recounted.aggregates, addCount, balance.vpn isVpn]
    rfl
  · intro other present
    rcases recounted.mem_aggregates present with ⟨before, beforePresent, network, _, counted⟩
    rw [counted, recounted.countP, balance.count before beforePresent, accounts_of_network network]
    by_cases same : other.network = aggregate.network
    · rw [if_pos same, accounts_of_network same, accounts_of_network same]
      omega
    · rw [if_neg same, accounts_of_agree (elsewhere other.network same).symm, Int.add_zero]
  · intro info present
    rw [recounted.countP_aggregates]
    rcases recounted.mem present with ⟨_, rfl⟩ | ⟨before, beforePresent, walked, _, suppressed⟩
    · have none : rib.aggregates.countP (fun other => other.summaryOnly &&
          other.accounts next (aggregateInfo rib.nextId aggregate.network)) = 0 := by
        rw [countP_eq_zero]
        intro other _
        simp [Aggregate.accounts, RibInfo.contributes, aggregateInfo]
      rw [none]
      rfl
    · simp only [accounts_of_alike walked.alike]
      rw [suppressed, balance.suppress before beforePresent, isShare before beforePresent]
      have agree : ∀ other ∈ rib.aggregates, other.network ≠ aggregate.network →
          (other.summaryOnly && other.accounts next before) =
            (other.summaryOnly && other.accounts accounting before) := by
        intro other _ different
        rw [accounts_of_agree (elsewhere other.network different)]
      have differ := countP_differ balance.networks isIn named _ _ agree
      rw [sameKind, accounts_of_network named, accounts_of_network named] at differ
      revert differ
      cases aggregate.summaryOnly <;> cases aggregate.accounts next before <;>
        cases aggregate.accounts accounting before <;> simp <;> omega
  · intro other present
    rcases recounted.mem_aggregates present with ⟨before, beforePresent, network, _, counted⟩
    by_cases same : other.network = aggregate.network
    · rw [same, recounted.exists_live_iff, counted, if_pos same,
        isOld before beforePresent (network.trans same)]
    · rw [recounted.exists_live_elsewhere same, counted, if_neg same, Int.add_zero, ← network]
      exact balance.live before beforePresent
  · intro info present network live
    exact recounted.first balance.first present live
  · intro info present network live
    have kept : network ∈ rib.aggregates.map Aggregate.network := by
      rcases recounted.mem present with ⟨_, rfl⟩ | ⟨before, beforePresent, walked, _⟩
      · have same : network = aggregate.network := by
          by_contra different
          rw [not_isLiveAt_aggregateInfo different] at live
          cases live
        exact mem_map.mpr ⟨old, isIn, named.trans same.symm⟩
      · by_cases same : network = aggregate.network
        · exact mem_map.mpr ⟨old, isIn, named.trans same.symm⟩
        · rw [walked.live network same] at live
          exact mem_map.mpr (balance.configured before beforePresent network live)
    rw [← recounted.networks] at kept
    exact mem_map.mp kept

def turnAmount (aggregate : Aggregate) (new? del? : Option Nat) (rib : Rib) : Int :=
  raisedBy aggregate new? del? rib - rib.infos.countP aggregate.counts

def turnShare (aggregate : Aggregate) (new? del? : Option Nat) (info : RibInfo) : Int :=
  (if aggregate.countsBut del? info && aggregate.summaryOnly then 1 else 0) +
  (if new? = some info.id ∧ aggregate.summaryOnly = true then 1 else 0) -
  if aggregate.counts info && aggregate.summaryOnly && info.extra?.isSome then 1 else 0

theorem recounted_of {middle : Rib} {new? del? : Option Nat}
    (lowered : Lowered aggregate rib middle)
    (raised : Raised aggregate (count - rib.infos.countP aggregate.counts) new? del? middle after) :
    Recounted aggregate count (turnAmount aggregate new? del? rib)
      (turnShare aggregate new? del?) rib after := by
  rcases lowered.infos with ⟨lower, lowerInfos, lowers⟩
  rcases raised.infos with ⟨raise, raiseInfos, raises⟩
  have countsBut : ∀ info ∈ rib.infos,
      aggregate.countsBut del? (lower info) = aggregate.countsBut del? info := by
    intro info present
    have alike := (lowers info present).1.alike
    rw [Aggregate.countsBut, Aggregate.countsBut, counts, counts, alike.linked,
      alike.contributes, alike.node, alike.id]
  have raisedBy_eq : raisedBy aggregate new? del? middle = raisedBy aggregate new? del? rib := by
    rw [raisedBy, lowerInfos, countP_map]
    congr 2
    exact countP_eq_of_mem countsBut
  have total : count - rib.infos.countP aggregate.counts + raisedBy aggregate new? del? middle =
      count + turnAmount aggregate new? del? rib := by
    rw [turnAmount]
    omega
  rw [lowered.nextId, total] at raiseInfos
  refine ⟨?_, ?_, ?_, fun info => raise (lower info), ?_, ?_⟩
  · have twice := congrArg Rib.aggregates (addCount_addCount rib aggregate.network
      (-(rib.infos.countP aggregate.counts : Int)) (raisedBy aggregate new? del? middle))
    rw [raisedBy_eq, Int.add_comm] at twice
    rw [raised.aggregates, addCount, lowered.aggregates, raisedBy_eq]
    exact twice
  · rw [← lowered.nextId]
    exact raised.nextId
  · rw [← lowered.nextId, ← total]
    exact raised.fresh
  · rw [raiseInfos, lowerInfos, map_map]
    rfl
  · intro info present
    have isMiddle : lower info ∈ middle.infos := by
      rw [lowerInfos]
      exact mem_map.mpr ⟨info, present, rfl⟩
    rcases lowers info present with ⟨walkedDown, dead, downCount⟩
    rcases raises (lower info) isMiddle with ⟨walkedUp, live, upCount⟩
    refine ⟨walkedDown.trans walkedUp, ?_, ?_⟩
    · rw [live, dead]
    · rw [upCount, countsBut info present, walkedDown.alike.id, turnShare]
      omega

section

variable (balance : rib.Balance table id accounting)
include balance

theorem turn_recounted (isIn : old ∈ rib.aggregates) (named : old.network = aggregate.network)
    (short : aggregate.network.prefixlen ≠ table.maxBitlen) (new? del? : Option Nat) :
    Recounted aggregate old.count (turnAmount aggregate new? del? rib)
      (turnShare aggregate new? del?) rib
      ((rib.aggregateDelete table aggregate).aggregateRoute new? del? aggregate) := by
  have lowered := aggregateDelete_lowered balance.distinct
    (fun info present => balance.first info present aggregate.network) short
  have fresh : ∀ info ∈ (rib.aggregateDelete table aggregate).infos,
      info.id < (rib.aggregateDelete table aggregate).nextId := by
    rcases lowered.infos with ⟨lower, infos, lowers⟩
    rw [infos, lowered.nextId, forall_mem_map]
    intro info present
    rw [(lowers info present).1.alike.id]
    exact balance.fresh info present
  have found : recordAt Aggregate.network aggregate.network
      (rib.aggregateDelete table aggregate).aggregates =
        some { old with count := old.count - rib.infos.countP aggregate.counts } := by
    rw [lowered.aggregates]
    exact recordAt_addCount (recordAt_of_mem balance.networks isIn named) _
  exact recounted_of lowered (aggregateRoute_raised fresh new? del? found)

theorem Balance.congr
    (agree : ∀ info ∈ rib.infos, info.contributes = true → ∀ aggregate ∈ rib.aggregates,
      aggregate.covers info.node.network = true →
        next aggregate.network info.id = accounting aggregate.network info.id) :
    rib.Balance table id next := by
  have same : ∀ info ∈ rib.infos, ∀ aggregate ∈ rib.aggregates,
      aggregate.accounts next info = aggregate.accounts accounting info := by
    intro info present aggregate isIn
    unfold Aggregate.accounts
    cases contributes : info.contributes with
    | false => rfl
    | true =>
      cases covers : aggregate.covers info.node.network with
      | false => rfl
      | true => rw [agree info present contributes aggregate isIn covers]
  refine { balance with count := ?_, suppress := ?_ }
  · intro aggregate isIn
    rw [balance.count aggregate isIn]
    congr 1
    exact countP_eq_of_mem fun info present => (same info present aggregate isIn).symm
  · intro info present
    rw [balance.suppress info present]
    congr 1
    apply countP_eq_of_mem
    intro aggregate isIn
    rw [same info present aggregate isIn]

theorem Balance.extra_of_accounts (present : info ∈ rib.infos) (isIn : old ∈ rib.aggregates)
    (summary : old.summaryOnly = true) (accounted : old.accounts accounting info = true) :
    info.extra?.isSome = true := by
  have positive : 0 < rib.aggregates.countP fun aggregate =>
      aggregate.summaryOnly && aggregate.accounts accounting info := by
    rw [countP_pos_iff]
    exact ⟨old, isIn, by simp [summary, accounted]⟩
  have count := balance.suppress info present
  cases found : info.extra? with
  | some extra => rfl
  | none =>
    have zero : info.suppressCount = 0 := by simp [RibInfo.suppressCount, found]
    omega

end

theorem lowering_eq (extraPart : aggregate.summaryOnly = true → aggregate.counts info = true →
      info.extra?.isSome = true) :
    (if aggregate.counts info && aggregate.summaryOnly && info.extra?.isSome then 1 else 0 : Int) =
      if aggregate.summaryOnly then (aggregate.counts info).toNat else 0 := by
  cases summary : aggregate.summaryOnly with
  | false => simp
  | true =>
    cases counted : aggregate.counts info with
    | false => simp
    | true => simp [extraPart summary counted]

theorem Balance.lowering_eq (balance : rib.Balance table id accounting) (present : info ∈ rib.infos)
    (isIn : old ∈ rib.aggregates) (named : old.network = aggregate.network)
    (sameKind : old.summaryOnly = aggregate.summaryOnly)
    (accounted : aggregate.accounts accounting info = aggregate.counts info) :
    (if aggregate.counts info && aggregate.summaryOnly && info.extra?.isSome then 1 else 0 : Int) =
      if aggregate.summaryOnly then (aggregate.counts info).toNat else 0 := by
  apply Rib.lowering_eq
  intro summary counted
  apply balance.extra_of_accounts present isIn (sameKind.trans summary)
  rw [accounts_of_network named, accounted, counted]

end

end Rib

/-- What stays of the route that is being changed while the aggregates count again. -/
structure Subject where
  node : RibNode
  source : RibSource
  linked : Bool
  standing : Standing

def RibInfo.subject (info : RibInfo) : Subject :=
  ⟨info.node, info.source, info.linked, info.standing⟩

def Subject.contributes (subject : Subject) : Bool :=
  subject.standing.valid && !subject.standing.history && !subject.standing.damped &&
    !subject.standing.removed && subject.source != .aggregate

theorem RibInfo.contributes_eq (info : RibInfo) : info.contributes = info.subject.contributes := by
  simp [RibInfo.contributes, isHolddown, Subject.contributes, RibInfo.subject, RibInfo.standing]

def Rib.Holds (id : Nat) (subject : Subject) (extra : Bool) (rib : Rib) : Prop :=
  ∃ info ∈ rib.infos, info.id = id ∧ info.subject = subject ∧
    (extra = true → info.extra?.isSome = true)

def Aggregate.kind (aggregate : Aggregate) : Prefix × Bool :=
  (aggregate.network, aggregate.summaryOnly)

/-- The route `id` may be accounted for by the aggregates of `accounting` only, every other route
by all. -/
def partly (id : Nat) (accounting : Prefix → Bool) : Prefix → Nat → Bool :=
  fun network other => other != id || accounting network

theorem partly_of_ne {id other : Nat} (different : other ≠ id) (accounting : Prefix → Bool)
    (network : Prefix) : partly id accounting network other = true := by
  simp [partly, different]

theorem partly_self (id : Nat) (accounting : Prefix → Bool) (network : Prefix) :
    partly id accounting network id = accounting network := by
  simp [partly]

/-- The books while the aggregates count again around a change of the route `id`. -/
structure Rib.Stage (table : RibTable) (id : Nat) (subject : Subject) (extra : Bool)
    (kinds : List (Prefix × Bool)) (accounting : Prefix → Bool) (rib : Rib) : Prop where
  balance : rib.Balance table id (partly id accounting)
  holds : rib.Holds id subject extra
  kinds : rib.aggregates.map Aggregate.kind = kinds

namespace Rib

variable {table : RibTable} {id : Nat} {accounting : Prefix → Bool} {rib : Rib}
  {aggregate : Aggregate} {count amount : Int} {share : RibInfo → Int} {after : Rib}
  {subject : Subject} {extra : Bool} {kinds : List (Prefix × Bool)}

theorem Recounted.holds (recounted : Recounted aggregate count amount share rib after)
    (notAggregate : subject.source ≠ .aggregate) (holds : rib.Holds id subject extra) :
    after.Holds id subject extra := by
  rcases holds with ⟨info, present, named, rfl, hasExtra⟩
  rcases recounted.infos with ⟨edit, infos, edits⟩
  have walked := (edits info present).1
  refine ⟨edit info, ?_, walked.alike.id.trans named, ?_, fun some => walked.extra (hasExtra some)⟩
  · rw [infos]
    exact mem_append_right _ (mem_map.mpr ⟨info, present, rfl⟩)
  · rw [RibInfo.subject, RibInfo.subject, walked.alike.node, walked.alike.source,
      walked.alike.linked, walked.standing notAggregate]

theorem Recounted.map_kind (recounted : Recounted aggregate count amount share rib after) :
    after.aggregates.map kind = rib.aggregates.map kind := by
  rw [recounted.aggregates, addCount, changeAt, map_map]
  apply map_congr_left
  intro other present
  by_cases named : other.network = aggregate.network
  · simp [named, kind]
  · simp [named]

section

variable (stage : rib.Stage table id subject extra kinds accounting)
include stage

theorem Stage.subject_eq (present : info ∈ rib.infos) (named : info.id = id) :
    info.subject = subject ∧ (extra = true → info.extra?.isSome = true) := by
  rcases stage.holds with ⟨held, heldPresent, heldNamed, isSubject, hasExtra⟩
  rw [inj_on_of_nodup_map stage.balance.distinct present heldPresent
    (named.trans heldNamed.symm)]
  exact ⟨isSubject, hasExtra⟩

theorem Stage.mem_of_kind (isIn : aggregate.kind ∈ kinds) : ∃ old ∈ rib.aggregates,
      old.network = aggregate.network ∧ old.summaryOnly = aggregate.summaryOnly := by
  rw [← stage.kinds] at isIn
  rcases mem_map.mp isIn with ⟨old, oldIn, same⟩
  exact ⟨old, oldIn, congrArg Prod.fst same, congrArg Prod.snd same⟩

theorem Stage.lt_maxBitlen (covers : aggregate.covers subject.node.network = true) :
    aggregate.network.prefixlen < table.maxBitlen := by
  rcases stage.holds with ⟨info, present, _, isSubject, _⟩
  have bounded := stage.balance.bounded info present
  have sameNode : info.node = subject.node := congrArg Subject.node isSubject
  rw [sameNode] at bounded
  simp only [Aggregate.covers, Bool.and_eq_true, decide_eq_true_eq] at covers
  omega

theorem Stage.decrementTurn (notAggregate : subject.source ≠ .aggregate)
    (linked : subject.linked = true) (isIn : aggregate.kind ∈ kinds)
    (covers : aggregate.covers subject.node.network = true)
    (accounted : accounting aggregate.network = true) :
    ((rib.aggregateDelete table aggregate).aggregateRoute none (some id) aggregate).Stage table id
      subject extra kinds (Function.update accounting aggregate.network false) := by
  rcases stage.mem_of_kind isIn with ⟨old, oldIn, named, sameKind⟩
  have short := stage.lt_maxBitlen covers
  have recounted := turn_recounted stage.balance oldIn named short.ne none (some id)
  have allLinked : ∀ info ∈ rib.infos, info.linked = true := by
    intro info present
    by_cases isId : info.id = id
    · rw [← linked, ← (stage.subject_eq present isId).1]
      rfl
    · exact stage.balance.linked info present isId
  have before : ∀ info ∈ rib.infos,
      aggregate.accounts (partly id accounting) info = aggregate.counts info := by
    intro info present
    have always : partly id accounting aggregate.network info.id = true := by
      simp [partly, accounted]
    rw [Aggregate.accounts, counts, allLinked info present, always]
    simp
  have afterwards : ∀ info ∈ rib.infos,
      aggregate.accounts (partly id (Function.update accounting aggregate.network false)) info =
        aggregate.countsBut (some id) info := by
    intro info present
    rw [Aggregate.accounts, Aggregate.countsBut, counts, allLinked info present]
    by_cases isId : info.id = id
    · rw [isId, partly_self]
      simp
    · have otherPointer : (some info.id != some id) = true := by simpa using isId
      rw [partly_of_ne isId, otherPointer]
      simp
  refine ⟨?_, recounted.holds notAggregate stage.holds, recounted.map_kind.trans stage.kinds⟩
  apply stage.balance.recount oldIn named sameKind (fun _ => short.le) recounted
  · intro network different
    funext other
    rw [partly, partly, update_of_ne different]
  · rw [countP_eq_of_mem before, countP_eq_of_mem afterwards]
    simp [turnAmount, raisedBy]
  · intro info present
    rw [before info present, afterwards info present, turnShare,
      stage.balance.lowering_eq present oldIn named sameKind (before info present)]
    cases aggregate.summaryOnly <;> cases aggregate.countsBut (some id) info <;> simp

/-- One turn of `bgp_aggregate_increment`: the aggregate accounts for the route. The walk takes a
contribution of the route back before it adds it twice, if the route is in the table and has its
extra part. -/
theorem Stage.incrementTurn (contributes : subject.contributes = true)
    (prepared : subject.linked = true → aggregate.summaryOnly = true → extra = true)
    (isIn : aggregate.kind ∈ kinds) (covers : aggregate.covers subject.node.network = true)
    (unaccounted : accounting aggregate.network = false) :
    ((rib.aggregateDelete table aggregate).aggregateRoute (some id) none aggregate).Stage table id
      subject extra kinds (Function.update accounting aggregate.network true) := by
  rcases stage.mem_of_kind isIn with ⟨old, oldIn, named, sameKind⟩
  have short := stage.lt_maxBitlen covers
  have recounted := turn_recounted stage.balance oldIn named short.ne (some id) none
  have notAggregate : subject.source ≠ .aggregate := by
    intro isAggregate
    simp [Subject.contributes, isAggregate] at contributes
  have countsBut : aggregate.countsBut none = aggregate.counts := by
    funext info
    simp [Aggregate.countsBut]
  have others : ∀ info ∈ rib.infos, info.id ≠ id →
      aggregate.accounts (partly id (Function.update accounting aggregate.network true)) info =
          aggregate.counts info ∧
        aggregate.accounts (partly id accounting) info = aggregate.counts info := by
    intro info present different
    rw [Aggregate.accounts, Aggregate.accounts, counts,
      stage.balance.linked info present different, partly_of_ne different, partly_of_ne different]
    simp
  have own : ∀ info ∈ rib.infos, info.id = id →
      aggregate.accounts (partly id (Function.update accounting aggregate.network true)) info =
          true ∧
        aggregate.accounts (partly id accounting) info = false := by
    intro info present isId
    have isSubject := (stage.subject_eq present isId).1
    have infoContributes : info.contributes = true := by
      rw [contributes_eq, isSubject, contributes]
    have infoCovers : aggregate.covers info.node.network = true := by
      rw [show info.node = subject.node from congrArg Subject.node isSubject, covers]
    simp [Aggregate.accounts, infoContributes, infoCovers, unaccounted, isId, partly]
  refine ⟨?_, recounted.holds notAggregate stage.holds, recounted.map_kind.trans stage.kinds⟩
  apply stage.balance.recount oldIn named sameKind (fun _ => short.le) recounted
  · intro network different
    funext other
    rw [partly, partly, update_of_ne different]
  · rcases stage.holds with ⟨info, present, isId, _⟩
    have agree : ∀ info ∈ rib.infos, info.id ≠ id →
        aggregate.accounts (partly id (Function.update accounting aggregate.network true)) info =
          aggregate.accounts (partly id accounting) info := by
      intro info present different
      rw [(others info present different).1, (others info present different).2]
    have differ := countP_differ stage.balance.distinct present isId _ _ agree
    rw [(own info present isId).1, (own info present isId).2] at differ
    rw [turnAmount, raisedBy, countsBut]
    simp at differ ⊢
    omega
  · intro info present
    rw [turnShare, countsBut]
    by_cases isId : info.id = id
    · rcases stage.subject_eq present isId with ⟨isSubject, hasExtra⟩
      have infoLinked : info.linked = subject.linked := congrArg Subject.linked isSubject
      rw [(own info present isId).1, (own info present isId).2, lowering_eq]
      · cases aggregate.summaryOnly <;> cases aggregate.counts info <;> simp [isId]
      · intro summary counted
        simp only [counts, Bool.and_eq_true] at counted
        exact hasExtra (prepared (infoLinked ▸ counted.1.1) summary)
    · rcases others info present isId with ⟨afterwards, before⟩
      rw [afterwards, before, stage.balance.lowering_eq present oldIn named sameKind before]
      cases aggregate.summaryOnly <;> cases aggregate.counts info <;> simp [Ne.symm isId]

end

theorem Stage.foldl {value : Bool} {aggregates : List Aggregate}
    (step : ∀ aggregate ∈ aggregates, ∀ (rib : Rib) (accounting : Prefix → Bool),
      rib.Stage table id subject extra kinds accounting → accounting aggregate.network = !value →
      (turn rib aggregate).Stage table id subject extra kinds
        (Function.update accounting aggregate.network value))
    (distinct : (aggregates.map Aggregate.network).Nodup)
    (stage : rib.Stage table id subject extra kinds accounting)
    (start : ∀ aggregate ∈ aggregates, accounting aggregate.network = !value) :
    ∃ final, (aggregates.foldl turn rib).Stage table id subject extra kinds final ∧
      ∀ network, final network =
        if network ∈ aggregates.map Aggregate.network then value else accounting network := by
  induction aggregates generalizing rib accounting with
  | nil => exact ⟨accounting, stage, fun network => by simp⟩
  | cons aggregate aggregates induction =>
    simp only [map_cons, nodup_cons] at distinct
    have turned := step aggregate mem_cons_self rib accounting stage
      (start aggregate mem_cons_self)
    have rest : ∀ other ∈ aggregates,
        Function.update accounting aggregate.network value other.network = !value := by
      intro other member
      have different : other.network ≠ aggregate.network := by
        intro same
        exact distinct.1 (mem_map.mpr ⟨other, member, same⟩)
      rw [update_of_ne different]
      exact start other (mem_cons_of_mem _ member)
    rcases induction (fun other member => step other (mem_cons_of_mem _ member)) distinct.2
      turned rest with ⟨final, reached, finalIs⟩
    refine ⟨final, reached, ?_⟩
    intro network
    rw [finalIs network]
    by_cases same : network = aggregate.network
    · subst same
      simp
    · simp [same]

theorem Stage.of_agree (stage : rib.Stage table id subject extra kinds accounting)
    {next : Prefix → Bool}
    (agree : subject.contributes = true → ∀ aggregate : Aggregate, aggregate.kind ∈ kinds →
      aggregate.covers subject.node.network = true → next aggregate.network =
        accounting aggregate.network) : rib.Stage table id subject extra kinds next := by
  refine ⟨stage.balance.congr ?_, stage.holds, stage.kinds⟩
  intro info present contributes aggregate isIn covers
  by_cases isId : info.id ≠ id
  · rw [partly_of_ne isId, partly_of_ne isId]
  rw [not_not] at isId
  rw [isId, partly_self, partly_self]
  have isSubject := (stage.subject_eq present isId).1
  rw [contributes_eq, isSubject] at contributes
  rw [show info.node = subject.node from congrArg Subject.node isSubject] at covers
  apply agree contributes aggregate _ covers
  rw [← stage.kinds]
  exact mem_map.mpr ⟨aggregate, isIn, rfl⟩

theorem Stage.turns (value : Bool) (step : ∀ aggregate : Aggregate, aggregate.kind ∈ kinds →
      aggregate.covers subject.node.network = true → ∀ (rib : Rib) (accounting : Prefix → Bool),
      rib.Stage table id subject extra kinds accounting → accounting aggregate.network = !value →
      (turn rib aggregate).Stage table id subject extra kinds
        (Function.update accounting aggregate.network value))
    (stage : rib.Stage table id subject extra kinds fun _ => !value) :
    ((rib.covering subject.node.network).foldl turn rib).Stage table id subject extra kinds
      fun _ => value := by
  have covering : ∀ aggregate ∈ rib.covering subject.node.network,
      aggregate.kind ∈ kinds ∧ aggregate.covers subject.node.network = true := by
    intro aggregate member
    rcases mem_filter.mp member with ⟨isIn, covers⟩
    rw [← stage.kinds]
    exact ⟨mem_map.mpr ⟨aggregate, isIn, rfl⟩, covers⟩
  have distinct : ((rib.covering subject.node.network).map Aggregate.network).Nodup :=
    stage.balance.networks.sublist (filter_sublist.map _)
  rcases Stage.foldl (fun aggregate member => step aggregate (covering aggregate member).1
    (covering aggregate member).2) distinct stage fun _ _ => rfl with ⟨final, reached, finalIs⟩
  apply reached.of_agree
  intro _ aggregate isIn covers
  rcases stage.mem_of_kind isIn with ⟨old, oldIn, named, _⟩
  have oldCovers : old.covers subject.node.network = true := by
    rw [Aggregate.covers, named]
    exact covers
  have member : aggregate.network ∈ (rib.covering subject.node.network).map Aggregate.network :=
    mem_map.mpr ⟨old, mem_filter.mpr ⟨oldIn, oldCovers⟩, named⟩
  rw [finalIs, if_pos member]

theorem Stage.not_covered (stage : rib.Stage table id subject extra kinds accounting)
    (excluded : table.safi = .mplsVpn ∨ subject.node.network.prefixlen = 0)
    (isIn : aggregate.kind ∈ kinds) : ¬aggregate.covers subject.node.network = true := by
  rcases excluded with isVpn | isDefault
  · rw [← stage.kinds, stage.balance.vpn isVpn] at isIn
    cases isIn
  · simp [Aggregate.covers, isDefault]

def Unaccounted (table : RibTable) (id : Nat) (subject : Subject) (extra : Bool)
    (kinds : List (Prefix × Bool)) (rib : Rib) : Prop :=
  rib.Stage table id subject extra kinds fun _ => false

def Accounted (table : RibTable) (id : Nat) (subject : Subject) (extra : Bool)
    (kinds : List (Prefix × Bool)) (rib : Rib) : Prop :=
  rib.Stage table id subject extra kinds fun _ => true

theorem Accounted.aggregateDecrement (accounted : rib.Accounted table id subject extra kinds)
    (notAggregate : subject.source ≠ .aggregate) (linked : subject.linked = true) :
    (rib.aggregateDecrement table subject.node.network id).Unaccounted table id subject extra
      kinds := by
  unfold Rib.aggregateDecrement
  split_ifs with excluded
  · apply Stage.of_agree accounted
    intro _ aggregate isIn covers
    exact absurd covers (Stage.not_covered accounted excluded isIn)
  · apply Stage.turns false _ accounted
    intro aggregate isIn covers rib accounting stage isAccounted
    exact stage.decrementTurn notAggregate linked isIn covers isAccounted

theorem Holds.any_isHolddown (distinct : (rib.infos.map RibInfo.id).Nodup)
    (holds : rib.Holds id subject extra) (notAggregate : subject.source ≠ .aggregate) :
    (rib.info? id).any isHolddown = !subject.contributes := by
  rcases holds with ⟨info, present, named, rfl, _⟩
  rw [info?, recordAt_of_mem distinct present named, ← contributes_eq, RibInfo.contributes]
  have source : info.source ≠ .aggregate := notAggregate
  simp [source]

theorem Unaccounted.aggregateIncrement (unaccounted : rib.Unaccounted table id subject extra kinds)
    (notAggregate : subject.source ≠ .aggregate)
    (prepared : subject.contributes = true → subject.linked = true →
      ∀ aggregate : Aggregate, aggregate.kind ∈ kinds →
        aggregate.covers subject.node.network = true → aggregate.summaryOnly = true →
        extra = true) :
    (rib.aggregateIncrement table subject.node.network id).Accounted table id subject extra
      kinds := by
  unfold Rib.aggregateIncrement
  rw [unaccounted.holds.any_isHolddown unaccounted.balance.distinct notAggregate]
  split_ifs with excluded
  · apply Stage.of_agree unaccounted
    intro contributes aggregate isIn covers
    rw [contributes, ← or_assoc] at excluded
    rcases excluded with unsupported | holddown
    · exact absurd covers (Stage.not_covered unaccounted unsupported isIn)
    · cases holddown
  · have contributes : subject.contributes = true := by
      simp only [not_or] at excluded
      simpa using excluded.2.2
    apply Stage.turns true _ unaccounted
    intro aggregate isIn covers rib accounting stage isUnaccounted
    exact stage.incrementTurn contributes
      (fun linked summary => prepared contributes linked aggregate isIn covers summary) isIn covers
      isUnaccounted

end Rib

end Quagga.Bgp
