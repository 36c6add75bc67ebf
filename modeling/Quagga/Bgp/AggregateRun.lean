import Quagga.Bgp.AggregateCount

/-!
# Aggregates over whole runs

The counts of the aggregates, the aggregate routes and the suppress counts are right in every
state of a run as long as no event meets one of five situations: a route that comes back before
its withdraw was processed, a dampened withdraw, a route that becomes usable without its extra
part under a summary-only aggregate, an update that is suppressed and leaves the route undamped,
and dampening information that is cleared while it damps a route. The third needs a next hop
without a metric, which a connected one and the lookup that is switched off are. The fourth needs
a suppress value below the reuse limit, which the configuration allows.
-/

namespace Quagga.Bgp

open Foundation List Option RibInfo Rib Aggregate Bool

variable {peer : Nat} {penalty : Penalty} {count : Int}

namespace Rib

variable {table : RibTable} {id : Nat} {rib after : Rib} {network : Prefix}

/-! ## Configuring aggregates -/

/-- The aggregate of `network` accounts for no route, the others for all. -/
def excluding (network : Prefix) : Prefix → Nat → Bool := fun other _ => other != network

theorem excluding_of_ne {other : Prefix} (different : other ≠ network) :
    excluding network other = fun _ => true := by
  funext id
  simpa [excluding] using different

variable {aggregate : Aggregate}

theorem accounts_excluding_self (named : aggregate.network = network) (info : RibInfo) :
    aggregate.accounts (excluding network) info = false := by
  simp [accounts, excluding, named]

theorem accounts_excluding_of_ne (different : aggregate.network ≠ network) :
    aggregate.accounts (excluding network) = aggregate.accounts fun _ _ => true :=
  accounts_of_agree (excluding_of_ne different)

theorem countP_excluding (named : aggregate.network = network) (infos : List RibInfo) :
    infos.countP (aggregate.accounts (excluding network)) = 0 := by
  rw [countP_eq_zero]
  intro info _
  rw [accounts_excluding_self named]
  exact Bool.false_ne_true

variable {info : RibInfo}

theorem Balance.not_live_of_excluding (balance : rib.Balance table id (excluding network))
    (present : info ∈ rib.infos) : info.isLiveAt network = false := by
  apply eq_false_iff.mpr
  intro live
  rcases balance.configured info present network live with ⟨aggregate, isIn, named⟩
  have counted := (balance.live aggregate isIn).mpr ⟨info, present, named ▸ live⟩
  rw [balance.count aggregate isIn, countP_excluding named] at counted
  exact counted rfl

theorem Balance.dropAggregate (balance : rib.Balance table id (excluding network)) :
    ({ rib with aggregates := rib.aggregates.filter (·.network != network) } : Rib).Balance table
      id fun _ _ => true := by
  have kept : ∀ aggregate ∈ rib.aggregates.filter (·.network != network),
      aggregate ∈ rib.aggregates ∧ aggregate.network ≠ network := by
    intro aggregate isIn
    rcases mem_filter.mp isIn with ⟨wasIn, different⟩
    exact ⟨wasIn, bne_iff_ne.mp different⟩
  refine { balance with
    networks := ?_
    vpn := ?_
    count := ?_
    suppress := ?_
    live := ?_
    configured := ?_ }
  · exact balance.networks.sublist (filter_sublist.map _)
  · intro isVpn
    rw [balance.vpn isVpn]
    rfl
  · intro aggregate isIn
    rw [balance.count aggregate (kept aggregate isIn).1,
      accounts_excluding_of_ne (kept aggregate isIn).2]
  · intro info present
    rw [balance.suppress info present, countP_filter]
    congr 1
    apply countP_congr
    intro aggregate _
    by_cases named : aggregate.network = network
    · rw [accounts_excluding_self named]
      simp [named]
    · rw [accounts_excluding_of_ne named]
      simp [named]
  · intro aggregate isIn
    exact balance.live aggregate (kept aggregate isIn).1
  · intro info present other live
    rcases balance.configured info present other live with ⟨aggregate, isIn, rfl⟩
    refine ⟨aggregate, mem_filter.mpr ⟨isIn, bne_iff_ne.mpr ?_⟩, rfl⟩
    intro named
    rw [named, balance.not_live_of_excluding present] at live
    cases live

theorem Balance.not_covers_of_longest {accounting : Prefix → Nat → Bool}
    (balance : rib.Balance table id accounting)
    (longest : aggregate.network.prefixlen = table.maxBitlen) (present : info ∈ rib.infos) :
    ¬aggregate.covers info.node.network = true := by
  have bounded := balance.bounded info present
  simp only [Aggregate.covers, and_eq_true, decide_eq_true_eq]
  omega

section

variable {accounting : Prefix → Nat → Bool} (balance : rib.Balance table rib.nextId accounting)

include balance

theorem Balance.all_linked (present : info ∈ rib.infos) : info.linked = true :=
  balance.linked info present (balance.fresh info present).ne

theorem Balance.anew (id : Nat) : rib.Balance table id accounting :=
  { balance with
    linked := fun _ present _ => balance.all_linked present
    recorded := fun info present _ =>
      balance.recorded info present (balance.fresh info present).ne }

theorem Balance.accounts_eq_counts (aggregate : Aggregate) (present : info ∈ rib.infos) :
    aggregate.accounts (fun _ _ => true) info = aggregate.counts info := by
  rw [accounts, Aggregate.counts, balance.all_linked present, Bool.and_true,
    Bool.true_and]

theorem Balance.countP_counts (aggregate : Aggregate) :
    rib.infos.countP (aggregate.accounts fun _ _ => true) = rib.infos.countP aggregate.counts := by
  exact countP_eq_of_mem fun info present => balance.accounts_eq_counts aggregate present

end

theorem Lowered.recounted (lowered : Lowered aggregate rib after)
    (counted : count = rib.infos.countP aggregate.counts) :
    Recounted aggregate count (-(rib.infos.countP aggregate.counts : Int))
      (fun info =>
        -if aggregate.counts info && aggregate.summaryOnly && info.extra?.isSome then 1 else 0)
      rib after := by
  have nothing : announcement rib.nextId aggregate.network
      (count + -(rib.infos.countP aggregate.counts : Int)) = [] := by
    rw [counted, Int.add_right_neg]
    rfl
  rcases lowered.infos with ⟨edit, infos, edits⟩
  refine ⟨lowered.aggregates, lowered.nextId.ge, ?_, edit, ?_, edits⟩
  · rw [nothing]
    exact fun _ member => absurd member not_mem_nil
  · rw [nothing]
    exact infos

theorem Books.aggregateDelete (books : rib.Books table) (isIn : aggregate ∈ rib.aggregates)
    (id : Nat) :
    (rib.aggregateDelete table aggregate).Balance table id (excluding aggregate.network) := by
  have settled : rib.Balance table rib.nextId fun _ _ => true := books
  have balance := settled.anew id
  by_cases longest : aggregate.network.prefixlen = table.maxBitlen
  · rw [Rib.aggregateDelete, if_pos longest]
    apply balance.congr
    intro info present _ other _ covers
    by_cases named : other.network = aggregate.network
    · exact absurd covers (balance.not_covers_of_longest (named ▸ longest) present)
    · rw [excluding_of_ne named]
  · have lowered := aggregateDelete_lowered balance.distinct
      (fun info present => balance.first info present aggregate.network) longest
    have counted : aggregate.count = rib.infos.countP aggregate.counts := by
      rw [balance.count aggregate isIn, settled.countP_counts]
    apply balance.recount isIn rfl rfl _ (lowered.recounted counted)
    · intro other different
      exact excluding_of_ne different
    · rw [settled.countP_counts, countP_excluding rfl]
      simp
    · intro info present
      have counts := settled.accounts_eq_counts aggregate present
      rw [accounts_excluding_self rfl, counts, settled.lowering_eq present isIn rfl rfl counts]
      cases aggregate.summaryOnly <;> simp
    · intro nonzero
      rw [counted, Int.add_right_neg] at nonzero
      exact absurd rfl nonzero

theorem Books.insertAggregate (books : rib.Books table) (unicast : table.safi ≠ .mplsVpn)
    (new : ∀ aggregate ∈ rib.aggregates, aggregate.network ≠ network) (summaryOnly : Bool)
    {aggregates : List Aggregate}
    (inserted : aggregates.Perm (⟨network, summaryOnly, 0⟩ :: rib.aggregates)) :
    ({ rib with aggregates := aggregates } : Rib).Balance table rib.nextId
      (excluding network) := by
  have balance : rib.Balance table rib.nextId fun _ _ => true := books
  have dead : ∀ info ∈ rib.infos, ¬info.isLiveAt network = true := by
    intro info present live
    rcases balance.configured info present network live with ⟨aggregate, isIn, named⟩
    exact new aggregate isIn named
  have member : ∀ aggregate ∈ aggregates, aggregate = ⟨network, summaryOnly, 0⟩ ∨
      aggregate ∈ rib.aggregates ∧ aggregate.network ≠ network := by
    intro aggregate isIn
    rcases mem_cons.mp (inserted.mem_iff.mp isIn) with same | wasIn
    · exact .inl same
    · exact .inr ⟨wasIn, new aggregate wasIn⟩
  refine { balance with
    networks := ?_
    vpn := fun isVpn => absurd isVpn unicast
    count := ?_
    suppress := ?_
    live := ?_
    configured := ?_ }
  · rw [(inserted.map Aggregate.network).nodup_iff, map_cons, nodup_cons]
    refine ⟨?_, balance.networks⟩
    intro taken
    rcases mem_map.mp taken with ⟨aggregate, isIn, named⟩
    exact new aggregate isIn named
  · intro aggregate isIn
    rcases member aggregate isIn with rfl | ⟨wasIn, different⟩
    · exact congrArg Nat.cast (countP_excluding rfl rib.infos).symm
    · rw [balance.count aggregate wasIn, accounts_excluding_of_ne different]
  · intro info present
    rw [balance.suppress info present, inserted.countP_eq, countP_cons_of_neg]
    · congr 1
      apply countP_eq_of_mem
      intro aggregate isIn
      rw [accounts_excluding_of_ne (new aggregate isIn)]
    · rw [accounts_excluding_self rfl, Bool.and_false]
      exact Bool.false_ne_true
  · intro aggregate isIn
    rcases member aggregate isIn with rfl | ⟨wasIn, _⟩
    · refine ⟨fun nonzero => absurd rfl nonzero, ?_⟩
      rintro ⟨info, present, live⟩
      exact absurd live (dead info present)
    · exact balance.live aggregate wasIn
  · intro info present other live
    rcases balance.configured info present other live with ⟨aggregate, isIn, named⟩
    exact ⟨aggregate, inserted.mem_iff.mpr (mem_cons_of_mem _ isIn), named⟩

theorem Raised.recounted (raised : Raised aggregate count none none rib after)
    (dead : ∀ info ∈ rib.infos, info.isLiveAt aggregate.network = false) :
    Recounted aggregate count (rib.infos.countP aggregate.counts)
      (fun info => if aggregate.counts info && aggregate.summaryOnly then 1 else 0) rib after := by
  have countsBut : aggregate.countsBut none = aggregate.counts := by
    funext info
    simp [Aggregate.countsBut]
  have amount : raisedBy aggregate none none rib = rib.infos.countP aggregate.counts := by
    simp [raisedBy, countsBut]
  rcases raised with ⟨aggregates, nextId, fresh, edit, infos, edits⟩
  rw [amount] at aggregates fresh infos
  refine ⟨aggregates, nextId, fresh, edit, infos, ?_⟩
  intro info present
  rcases edits info present with ⟨walked, live, suppress⟩
  refine ⟨walked, (live aggregate.network).trans (dead info present), ?_⟩
  rw [suppress, countsBut]
  simp

theorem Balance.aggregateAdd (balance : rib.Balance table rib.nextId (excluding aggregate.network))
    (isIn : aggregate ∈ rib.aggregates) (bounded : aggregate.network.prefixlen ≤ table.maxBitlen) :
    (rib.aggregateAdd table aggregate).Books table := by
  unfold Rib.aggregateAdd
  split_ifs with longest
  · apply balance.congr
    intro info present _ other _ covers
    by_cases named : other.network = aggregate.network
    · exact absurd covers (balance.not_covers_of_longest (named ▸ longest) present)
    · rw [excluding_of_ne named]
  · have raised := aggregateRoute_raised balance.fresh none none
      (recordAt_of_mem balance.networks isIn rfl)
    have recounted := raised.recounted fun info present => balance.not_live_of_excluding present
    apply (balance.anew _).recount isIn rfl rfl (fun _ => bounded) recounted
    · intro other different
      exact (excluding_of_ne different).symm
    · rw [balance.countP_counts, countP_excluding rfl]
      simp
    · intro info present
      rw [accounts_excluding_self rfl, balance.accounts_eq_counts aggregate present]
      cases aggregate.summaryOnly <;> cases aggregate.counts info <;> simp

theorem Books.aggregateUnset (books : rib.Books table) (isIn : aggregate ∈ rib.aggregates) :
    (rib.aggregateUnset table aggregate).Books table :=
  Balance.dropAggregate (books.aggregateDelete isIn _)

theorem Books.insertAndAdd (books : rib.Books table) (has : table.has ⟨none, network⟩ = true)
    (new : ∀ aggregate ∈ rib.aggregates, aggregate.network ≠ network) (summaryOnly : Bool)
    (longer : Aggregate → Bool) :
    (Rib.aggregateAdd table { rib with
      aggregates := rib.aggregates.filter longer ++ ⟨network, summaryOnly, 0⟩ ::
        rib.aggregates.filter fun other => !longer other }
      ⟨network, summaryOnly, 0⟩).Books table := by
  have bounded : network.prefixlen ≤ table.maxBitlen ∧ table.safi ≠ .mplsVpn := by
    simpa [RibTable.has] using has
  have inserted := perm_middle.trans
    ((filter_append_perm longer rib.aggregates).cons ⟨network, summaryOnly, 0⟩)
  apply Balance.aggregateAdd (books.insertAggregate bounded.2 new summaryOnly inserted)
  · exact mem_append_right _ mem_cons_self
  · exact bounded.1

theorem Books.aggregateSet (books : rib.Books table) (has : table.has ⟨none, network⟩ = true)
    (summaryOnly : Bool) : (rib.aggregateSet table network summaryOnly).Books table := by
  unfold Rib.aggregateSet
  cases found : recordAt Aggregate.network network rib.aggregates with
  | none =>
    exact books.insertAndAdd has (fun aggregate isIn => key_ne_of_recordAt found isIn)
      summaryOnly _
  | some old =>
    rcases mem_of_recordAt found with ⟨isIn, named⟩
    apply (books.aggregateUnset isIn).insertAndAdd has _ summaryOnly _
    intro aggregate kept
    rw [← named]
    exact bne_iff_ne.mp (mem_filter.mp kept).2

/-! ## Reaping -/

theorem Balance.leaveOut {accounting : Prefix → Nat → Bool}
    (balance : rib.Balance table id accounting) {left : Nat}
    (idle : ∀ info ∈ rib.infos, info.id = left →
      info.contributes = false ∧ ∀ network, info.isLiveAt network = false)
    (infos : after.infos = rib.infos.filter fun info => info.id != left)
    (nextId : after.nextId = rib.nextId) (aggregates : after.aggregates = rib.aggregates) :
    after.Balance table id accounting := by
  rcases after with ⟨_, _, _, _, _⟩
  subst infos nextId aggregates
  have kept : ∀ {Result : RibInfo → Prop}, (∀ info ∈ rib.infos, Result info) →
      ∀ info ∈ rib.infos.filter fun info => info.id != left, Result info :=
    fun all info present => all info (mem_of_mem_filter present)
  have stays : ∀ info ∈ rib.infos, ∀ network, info.isLiveAt network = true →
      (info.id != left) = true := by
    intro info present network live
    apply bne_iff_ne.mpr
    intro named
    rw [(idle info present named).2 network] at live
    cases live
  refine ⟨balance.distinct.sublist (filter_sublist.map _), kept balance.fresh, kept balance.linked,
    kept balance.recorded, kept balance.undamped, kept balance.bounded, balance.networks,
    balance.vpn, ?_, kept balance.suppress, ?_, kept ?_, kept balance.configured⟩
  · intro aggregate isIn
    rw [balance.count aggregate isIn, countP_filter]
    congr 1
    apply countP_congr
    intro info present
    by_cases named : info.id = left
    · simp [accounts, (idle info present named).1]
    · simp [named]
  · intro aggregate isIn
    rw [balance.live aggregate isIn]
    refine ⟨?_, ?_⟩
    · rintro ⟨info, present, live⟩
      exact ⟨info, mem_filter.mpr ⟨present, stays info present _ live⟩, live⟩
    · rintro ⟨info, present, live⟩
      exact ⟨info, mem_of_mem_filter present, live⟩
  · intro info present network live
    rcases find?_eq_some_iff_append.mp (balance.first info present network live) with
      ⟨isAggregate, before, behind, same, none⟩
    have skipped : (before.filter fun info => info.id != left).find?
        (isAggregateAt network) = .none := by
      rw [find?_eq_none]
      intro other isBefore
      simpa using none other (mem_of_mem_filter isBefore)
    rw [same, filter_append, find?_append, skipped, none_or, filter_cons,
      if_pos (stays info present network live), find?_cons_of_pos isAggregate]

theorem infoPutFlag_elsewhere (rib : Rib) (value : Bool) (id : Nat) (flags : List InfoFlag) :
    (rib.infoPutFlag value id flags).infos.filter (fun info => info.id != id) =
        rib.infos.filter (fun info => info.id != id) ∧
      (rib.infoPutFlag value id flags).nextId = rib.nextId ∧
      (rib.infoPutFlag value id flags).aggregates = rib.aggregates := by
  have changed := filter_changeAt id (fun info => flags.foldl (put value) info)
    (fun info => (foldl_put_fields value info flags).1) rib.infos
  rcases pcountAdjust_infos (rib.change id fun info => flags.foldl (put value) info) id with
    ⟨counted, infos, nextId, aggregates⟩
  unfold infoPutFlag
  split_ifs
  · rw [infos, nextId, aggregates]
    refine ⟨?_, rfl, rfl⟩
    rw [filter_changeAt id _ (by intro info; rfl)]
    exact changed
  · exact ⟨changed, rfl, rfl⟩

theorem Books.infoReap (books : rib.Books table) (present : info ∈ rib.infos)
    (removed : info.removed = true) : (rib.infoReap info.id).Books table := by
  have freed : (rib.dampInfoFree info.id false).infos.filter (fun other => other.id != info.id) =
        rib.infos.filter (fun other => other.id != info.id) ∧
      (rib.dampInfoFree info.id false).nextId = rib.nextId ∧
      (rib.dampInfoFree info.id false).aggregates = rib.aggregates := by
    unfold dampInfoFree
    cases (rib.info? info.id).bind damp? with
    | none => exact ⟨rfl, rfl, rfl⟩
    | some damp =>
      simp only [Bool.and_false]
      rcases infoPutFlag_elsewhere (rib.change info.id (setDamp · none)) false info.id
        [.history, .damped] with ⟨infos, nextId, aggregates⟩
      refine ⟨infos.trans ?_, nextId, aggregates⟩
      exact filter_changeAt info.id (setDamp · none) (by intro other; rfl) rib.infos
  have idle : ∀ other ∈ rib.infos, other.id = info.id →
      other.contributes = false ∧ ∀ network, other.isLiveAt network = false := by
    intro other otherPresent named
    rw [inj_on_of_nodup_map (Balance.distinct books) otherPresent present named]
    simp [RibInfo.contributes, isHolddown, isLiveAt, removed]
  have reaped : (rib.infoReap info.id).Balance table rib.nextId fun _ _ => true :=
    Balance.leaveOut books idle freed.1 freed.2.1 freed.2.2
  unfold Books
  rw [show (rib.infoReap info.id).nextId = rib.nextId from freed.2.1]
  exact reaped

/-! ## Events -/

def isCovered (rib : Rib) (info : RibInfo) : Bool := rib.aggregates.any (·.covers info.node.network)

def lacksExtra (rib : Rib) (info : RibInfo) : Bool :=
  info.extra?.isNone &&
    rib.aggregates.any fun aggregate => aggregate.summaryOnly && aggregate.covers info.node.network

/-- A dampened update gives a route its extra part, as a next hop with a metric does. -/
def permitsUpdate (rib : Rib) (info : RibInfo) (arrival : Arrival) : Bool :=
  let isModerate := !arrival.dampens || info.standing.isModerate arrival
  let becomesUsable := arrival.nexthop.valid && !(info.history || info.damped)
  !rib.isCovered info ||
    if !info.removed && arrival.sameAttr then !info.history || isModerate
    else (!info.removed || info.history || info.damped) && isModerate &&
      !(rib.lacksExtra info && becomesUsable && !arrival.dampens && !arrival.nexthop.metric)

/-- The search for a route of the router itself. -/
def permitsOriginate (rib : Rib) (node : RibNode) (wanted : RibSource → Bool) : Bool :=
  (rib.search node wanted).all fun info =>
    !(info.removed && !(info.history || info.damped) && rib.lacksExtra info)

/-- The event does not meet one of the situations in which the books go wrong. -/
def permits (rib : Rib) : RibEvent → Bool
  | .update node peer arrival =>
    (rib.search node (· == .neighbour peer)).all fun info => rib.permitsUpdate info arrival
  | .withdraw node peer dampens _ =>
    (rib.search node (· == .neighbour peer)).all fun info =>
      !(dampens && info.contributes && rib.isCovered info)
  | .scan id nexthop _ _ _ =>
    (rib.info? id).all fun info =>
      !(nexthop.valid && !nexthop.metric && !info.valid &&
        !(info.history || info.damped || info.removed) && rib.lacksExtra info)
  | .clearDampening id =>
    (rib.info? id).all fun info =>
      !(info.damped && !info.history && info.valid && !info.removed && rib.isCovered info)
  | .staticUpdate node _ => rib.permitsOriginate node (· == .static)
  | .redistributeAdd node _ _ => rib.permitsOriginate node RibSource.isRedistributed
  | _ => true

theorem uncovered_of (rib : Rib) (free : rib.isCovered info = false) :
    Uncovered rib.aggregateKinds info.node.network := by
  intro aggregate isIn covers
  rcases mem_map.mp isIn with ⟨old, oldIn, same⟩
  have named : old.network = aggregate.network := congrArg Prod.fst same
  have none := any_eq_false.mp free old oldIn
  rw [Aggregate.covers, named] at none
  exact none covers

theorem prepared_of (rib : Rib) (equipped : rib.lacksExtra info = false) :
    Prepared rib.aggregateKinds info.node.network info.extra?.isSome := by
  intro aggregate isIn covers summary
  rcases mem_map.mp isIn with ⟨old, oldIn, same⟩
  have named : old.network = aggregate.network := congrArg Prod.fst same
  have sameKind : old.summaryOnly = aggregate.summaryOnly := congrArg Prod.snd same
  have isNeeded : (rib.aggregates.any fun aggregate =>
      aggregate.summaryOnly && aggregate.covers info.node.network) = true := by
    apply any_eq_true.mpr
    refine ⟨old, oldIn, ?_⟩
    rw [sameKind, summary, Aggregate.covers, named]
    exact covers
  rw [lacksExtra, isNeeded] at equipped
  simpa using equipped

section

variable (books : rib.Books table)
include books

variable {node : RibNode}

theorem Books.found (found : rib.search node (· == .neighbour peer) = some info) :
    rib.Accounted table info.id info.subject info.extra?.isSome rib.aggregateKinds ∧
      info.subject.IsSound info := by
  rcases mem_of_search found with ⟨present, isSource⟩
  exact ⟨books.accounted present, books.sound present (by simp [eq_of_beq isSource])⟩

theorem Books.remove_found (found : rib.search node (· == .neighbour peer) = some info) :
    (rib.ribRemove table info).Books table := by
  rcases books.found found with ⟨accounted, sound⟩
  exact accounted.ribRemove sound

theorem Books.update (has : table.has node = true) {arrival : Arrival}
    (permitted : rib.permits (.update node peer arrival) = true) :
    (rib.update table node peer arrival).Books table := by
  unfold Rib.update
  cases found : rib.search node (· == .neighbour peer) with
  | none => exact books.updateNew has peer arrival
  | some info =>
    rcases books.found found with ⟨accounted, sound⟩
    simp only [permits, found, all_some, permitsUpdate, or_eq_true,
      Bool.not_eq_true'] at permitted
    dsimp only
    split_ifs at permitted ⊢ with isSame
    · apply accounted.updateSame sound
      intro dampens history
      rcases permitted with free | moderate
      · exact .inl (uncovered_of rib free)
      · right
        simpa [Standing.isModerate, standing, dampens, history] using moderate
    · apply accounted.updateChanged sound
      rcases permitted with free | permitted
      · exact .inl (uncovered_of rib free)
      · simp only [and_eq_true, Bool.not_eq_true'] at permitted
        rcases permitted with ⟨⟨held, moderate⟩, equipped⟩
        refine .inr ⟨?_, ?_, ?_⟩
        · intro removed
          simpa [removed] using held
        · cases dampens : arrival.dampens with
          | true => exact .inl rfl
          | false =>
            refine .inr fun isValid noMetric history damped => prepared_of rib ?_
            simpa [dampens, isValid, noMetric, history, damped] using equipped
        · intro dampens
          simpa [dampens] using moderate

theorem Books.updateFiltered (node : RibNode) (peer : Nat) :
    (rib.updateFiltered table node peer).Books table := by
  unfold Rib.updateFiltered
  cases found : rib.search node (· == .neighbour peer) with
  | none => exact books
  | some info => exact books.remove_found found

theorem Books.withdraw {dampens : Bool}
    (permitted : rib.permits (.withdraw node peer dampens penalty) = true) :
    (rib.withdraw table node peer dampens penalty).Books table := by
  unfold Rib.withdraw
  cases found : rib.search node (· == .neighbour peer) with
  | none => exact books
  | some info =>
    rcases books.found found with ⟨accounted, sound⟩
    dsimp only
    split_ifs
    · exact books
    · apply accounted.ribWithdraw sound
      intro isDampened
      simp only [permits, found, all_some, isDampened, Bool.true_and, Bool.not_eq_true',
        Bool.and_eq_false_iff] at permitted
      rw [← contributes_eq]
      exact permitted.imp_right (uncovered_of rib)

theorem Books.clearRouteNode (node : RibNode) (peer : Nat) (nsf : Bool) :
    (rib.clearRouteNode table node peer nsf).Books table := by
  unfold Rib.clearRouteNode
  cases found : rib.search node (· == .neighbour peer) with
  | none => exact books
  | some info =>
    rcases books.found found with ⟨accounted, sound⟩
    dsimp only
    split_ifs
    · have marked : (rib.infoSetFlag info.id [.stale]).Accounted table info.id info.subject
          info.extra?.isSome rib.aggregateKinds :=
        accounted.infoPutFlag sound.source true rfl
      exact marked.books sound.linked sound.recorded
    · exact books.remove_found found

theorem Books.clearStaleRoute (node : RibNode) (peer : Nat) :
    (rib.clearStaleRoute table node peer).Books table := by
  unfold Rib.clearStaleRoute
  cases found : rib.search node (· == .neighbour peer) with
  | none => exact books
  | some info =>
    dsimp only
    split_ifs
    · exact books.remove_found found
    · exact books

theorem Books.scan {id : Nat} (found : rib.info? id = some info)
    (foreign : info.source.peer ≠ .self) {nexthop : NexthopCheck} {dampening expired : Bool}
    (permitted : rib.permits (.scan id nexthop dampening expired penalty) = true) :
    (rib.scan table info nexthop dampening expired penalty).Books table := by
  have present := (mem_of_recordAt found).1
  have notAggregate : info.source ≠ .aggregate := by
    intro isAggregate
    rw [isAggregate] at foreign
    exact foreign rfl
  apply (books.accounted present).scan (books.sound present notAggregate)
  intro isValid noMetric wasInvalid usable
  apply prepared_of rib
  simp only [Standing.isUsable, Standing.put, standing, and_eq_true,
    Bool.not_eq_true'] at usable
  simpa [permits, found, isValid, noMetric, wasInvalid, usable] using permitted

theorem Books.not_aggregate_of_damp (present : info ∈ rib.infos)
    (dampens : info.damp?.isSome = true) : info.source ≠ .aggregate := by
  intro isAggregate
  rw [(Balance.undamped books info present isAggregate).2] at dampens
  cases dampens

theorem Books.reuse (present : info ∈ rib.infos) (damped : info.damped = true)
    (dampens : info.damp?.isSome = true) (penalty : Penalty) :
    (rib.reuse table info penalty).Books table := by
  have notAggregate := books.not_aggregate_of_damp present dampens
  rcases isSome_iff_exists.mp dampens with ⟨damp, found⟩
  exact (books.accounted present).reuse (books.sound present notAggregate) damped found penalty

theorem Books.clearDampening {id : Nat} (found : rib.info? id = some info)
    (dampens : info.damp?.isSome = true) (permitted : rib.permits (.clearDampening id) = true) :
    (rib.dampInfoFree info.id true).Books table := by
  have present := (mem_of_recordAt found).1
  have notAggregate := books.not_aggregate_of_damp present dampens
  have recorded := books.recorded present notAggregate
  have freed := (books.accounted present).dampInfoFree notAggregate recorded (by
    simp only [permits, found, all_some, Bool.not_eq_true', Bool.and_eq_false_iff,
      not_eq_false'] at permitted
    rcases permitted with (((undamped | history) | invalid) | removed) | free
    · exact .inr (.inl undamped)
    · exact .inr (.inr (.inl history))
    · exact .inr (.inr (.inr (by simp [subject, standing, invalid])))
    · exact .inr (.inr (.inr (by simp [subject, standing, removed])))
    · exact .inl (uncovered_of rib free))
  exact freed.books (books.linked present) (recorded.dampInfoFree true)

theorem Books.originate (has : table.has node = true) {source : RibSource}
    {wanted : RibSource → Bool} (sameAttr : Bool) (notAggregate : source ≠ .aggregate)
    (wantsNone : wanted .aggregate = false)
    (permitted : rib.permitsOriginate node wanted = true) :
    (rib.originate table node source wanted sameAttr).Books table := by
  unfold Rib.originate
  cases found : rib.search node wanted with
  | none => exact books.originateNew has source notAggregate (.inl rfl)
  | some info =>
    rcases mem_of_search found with ⟨present, isWanted⟩
    have infoNot : info.source ≠ .aggregate := by
      intro isAggregate
      rw [isAggregate, wantsNone] at isWanted
      cases isWanted
    have again := (books.accounted present).originateAgain (books.sound present infoNot) (by
      intro removed history damped
      apply prepared_of rib
      simpa [permitsOriginate, found, removed, history, damped] using permitted)
    dsimp only
    split_ifs at again ⊢
    · exact books
    · exact books
    · exact again
    · exact again

theorem Books.staticUpdate (has : table.has node = true) {sameAttr : Bool}
    (permitted : rib.permits (.staticUpdate node sameAttr) = true) :
    (rib.staticUpdate table node sameAttr).Books table := by
  unfold Rib.staticUpdate
  split_ifs
  · exact books.originateNew has .static (by simp) (.inr rfl)
  · exact books.originate has sameAttr (by simp) rfl permitted

theorem Books.retract (node : RibNode) {source : RibSource} (notAggregate : source ≠ .aggregate) :
    (rib.retract table node source).Books table := by
  unfold Rib.retract
  cases found : rib.search node (· == source) with
  | none => exact books
  | some info =>
    rcases mem_of_search found with ⟨present, isSource⟩
    rw [← eq_of_beq isSource] at notAggregate
    exact (books.accounted present).retractRoute (books.sound present notAggregate)

end

theorem books_empty (table : RibTable) : empty.Books table := by
  refine ⟨nodup_nil, ?_, ?_, ?_, ?_, ?_, nodup_nil, fun _ => rfl, ?_, ?_, ?_, ?_, ?_⟩
  all_goals exact forall_mem_nil _

end Rib

/-! ## Runs -/

theorem ribAct_books {table : RibTable} {rib after : Rib} {event : RibEvent}
    (books : rib.Books table) (has : event.node?.all table.has = true)
    (permitted : rib.permits event = true) (stepped : ribAct table rib event = some (.ok after)) :
    after.Books table := by
  cases event with
  | update node peer arrival =>
    cases stepped
    exact books.update has permitted
  | updateFiltered node peer =>
    cases stepped
    exact books.updateFiltered node peer
  | withdraw node peer dampens penalty =>
    cases stepped
    exact books.withdraw permitted
  | clearRouteNode node peer nsf =>
    cases stepped
    exact books.clearRouteNode node peer nsf
  | clearStaleRoute node peer =>
    cases stepped
    exact books.clearStaleRoute node peer
  | scan id nexthop dampening expired penalty =>
    apply of_walked _ stepped
    intro info found foreign
    exact books.scan found (bne_iff_ne.mp foreign) permitted
  | reuse id penalty =>
    apply of_walked _ stepped
    intro info found eligible
    simp only [and_eq_true] at eligible
    exact books.reuse (mem_of_recordAt found).1 eligible.1 eligible.2 penalty
  | clearDampening id =>
    apply of_walked _ stepped
    intro info found dampens
    exact books.clearDampening found dampens permitted
  | staticUpdate node sameAttr =>
    cases stepped
    exact books.staticUpdate has permitted
  | staticWithdraw node =>
    cases stepped
    exact books.retract node (by simp)
  | redistributeAdd node type sameAttr =>
    cases stepped
    exact books.originate has sameAttr (by simp) rfl permitted
  | redistributeDelete node type =>
    cases stepped
    exact books.retract node (by simp)
  | aggregateSet network summaryOnly =>
    cases stepped
    exact books.aggregateSet has summaryOnly
  | aggregateUnset network =>
    cases found : recordAt Aggregate.network network rib.aggregates with
    | none => simp [ribAct, found] at stepped
    | some aggregate =>
      simp only [ribAct, found] at stepped
      cases stepped
      exact books.aggregateUnset (mem_of_recordAt found).1
  | reap id =>
    apply of_walked _ stepped
    intro info found removed
    exact books.infoReap (mem_of_recordAt found).1 removed

theorem books_of_run {table : RibTable} {first last : Rib} {events : List RibEvent}
    (run : Guarded (ribStep table) (fun rib event => rib.permits event = true) first events last)
    (books : first.Books table) : last.Books table := by
  apply run.invariant _ books
  intro rib event next books permitted stepped
  unfold ribStep at stepped
  split_ifs at stepped with has
  exact ribAct_books books has permitted stepped

structure Rib.AggregatesAgree (rib : Rib) : Prop where
  count : ∀ aggregate ∈ rib.aggregates, aggregate.count = rib.infos.countP aggregate.counts
  route : ∀ aggregate ∈ rib.aggregates,
    (∃ info ∈ rib.infos, info.isLiveAt aggregate.network = true) ↔
      0 < rib.infos.countP aggregate.counts
  suppress : ∀ info ∈ rib.infos, info.linked = true → info.contributes = true →
    info.suppressCount = rib.aggregates.countP fun aggregate =>
      aggregate.summaryOnly && aggregate.covers info.node.network

theorem Rib.Books.aggregatesAgree {table : RibTable} {rib : Rib} (books : rib.Books table) :
    rib.AggregatesAgree := by
  have balance : rib.Balance table rib.nextId fun _ _ => true := books
  have count : ∀ aggregate ∈ rib.aggregates,
      aggregate.count = rib.infos.countP aggregate.counts := by
    intro aggregate isIn
    rw [balance.count aggregate isIn, balance.countP_counts]
  refine ⟨count, ?_, ?_⟩
  · intro aggregate isIn
    rw [← balance.live aggregate isIn, count aggregate isIn]
    omega
  · intro info present _ contributes
    rw [balance.suppress info present]
    simp [accounts, contributes]

/-- The books of the aggregates are right after every run whose events are all permitted. -/
theorem aggregates_agree (table : RibTable) {events : List RibEvent} {rib : Rib}
    (run : Guarded (ribStep table) (fun rib event => rib.permits event = true) Rib.empty events
      rib) : rib.AggregatesAgree :=
  (books_of_run run (Rib.books_empty table)).aggregatesAgree

def tenOneNetwork : RibNode := ⟨none, .ip, 16, [10, 1, 0, 0]⟩

/-- A route comes and goes below a summary-only aggregate, and the aggregate is taken away. -/
def comeAndGo : List RibEvent :=
  [.aggregateSet tenNetwork.network true, .update tenOneNetwork 1 plainArrival,
    .withdraw tenOneNetwork 1 false decayed, .reap 0, .update tenOneNetwork 1 plainArrival,
    .aggregateUnset tenNetwork.network]

theorem comeAndGo_agrees : ∃ rib,
    Guarded (ribStep ipv4Unicast) (fun rib event => rib.permits event = true) Rib.empty comeAndGo
      rib ∧ rib.AggregatesAgree := by
  have executed : (execute (fun rib event => if rib.permits event = true then
      ribStep ipv4Unicast rib event else none) Rib.empty comeAndGo).isSome = true := by
    decide +kernel
  have run := guarded_of_execute (some_get executed).symm
  exact ⟨_, run, aggregates_agree ipv4Unicast run⟩

/-- The number the aggregates hold, the number of routes they should hold, and whether there is
an aggregate route. -/
def Rib.summary (rib : Rib) : List (Int × Nat × Bool) :=
  rib.aggregates.map fun aggregate => (aggregate.count, rib.infos.countP aggregate.counts,
    rib.infos.any (RibInfo.isLiveAt aggregate.network))

/-- A route that comes back before its withdraw was processed is subtracted without having been
added. A dampened withdraw marks the route as historical first, and then does not subtract it. -/
theorem comesBack_disagrees :
    (execute (ribStep ipv4Unicast) Rib.empty
      [.aggregateSet tenNetwork.network false, .update tenOneNetwork 1 plainArrival,
        .withdraw tenOneNetwork 1 false decayed, .update tenOneNetwork 1 plainArrival]).map
      Rib.summary = some [(0, 1, false)] ∧
    (execute (ribStep ipv4Unicast) Rib.empty
      [.aggregateSet tenNetwork.network false, .update tenOneNetwork 1 plainArrival,
        .withdraw tenOneNetwork 1 true decayed]).map
      Rib.summary = some [(1, 0, true)] := by
  decide +kernel

end Quagga.Bgp
