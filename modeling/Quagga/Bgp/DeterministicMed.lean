import Quagga.Bgp.BestSelection

/-!
# Deterministic MED

With `bgp deterministic-med` and `bgp bestpath compare-routerid` the route selected for a node
depends neither on the order of its routes nor on which of them was selected before. The
flags the first loop of `bgp_best_selection` works with are gone when it returns, so every
run of a node starts the selection without them.
-/

namespace Quagga.Bgp

open Foundation List Option BgpInfo

variable {change : BgpInfo → BgpInfo} {state : List BgpInfo × Nat} {position : Nat}
  {info best : BgpInfo}

/-! ## Flags of the first loop -/

/-- A route that is held down carries no flag of the first loop. -/
def MarksUsable (routes : List BgpInfo) : Prop :=
  ∀ info ∈ routes, info.holddown = true → info.Unmarked

def UsableAt (routes : List BgpInfo) (position : Nat) : Prop :=
  ∀ info, routes[position]? = some info → info.holddown = false

section

variable {bgp : BestPath} {infoCmp : BgpInfo → Option BgpInfo → Bool} {routes : List BgpInfo}

theorem UsableAt.of_getElem? (found : routes[position]? = some info)
    (kept : ¬(info.flags.dmedCheck || info.holddown) = true) : UsableAt routes position := by
  rw [Bool.not_eq_true, Bool.or_eq_false_iff] at kept
  intro other foundOther
  cases found.symm.trans foundOther
  exact kept.2

theorem UsableAt.modify {other : Nat} (usable : UsableAt routes other)
    (keeps : ∀ info, (change info).holddown = info.holddown) :
    UsableAt (routes.modify position change) other := by
  intro info found
  rw [getElem?_modify] at found
  rcases map_eq_some_iff.mp found with ⟨original, foundOriginal, rfl⟩
  have isUsable := usable original foundOriginal
  split
  · rw [keeps, isUsable]
  · exact isUsable

theorem MarksUsable.modify (marksUsable : MarksUsable routes) (usable : UsableAt routes position)
    (keeps : ∀ info, (change info).holddown = info.holddown) :
    MarksUsable (routes.modify position change) := by
  intro info member held
  rcases mem_iff_getElem?.mp member with ⟨other, found⟩
  rw [getElem?_modify] at found
  rcases map_eq_some_iff.mp found with ⟨original, foundOriginal, rfl⟩
  by_cases same : position = other
  · subst same
    rw [if_pos rfl, keeps, usable original foundOriginal] at held
    cases held
  · rw [if_neg same] at held ⊢
    exact marksUsable original (mem_of_getElem? foundOriginal) held

/-- Only usable routes are marked, and the best route of the group so far is one. -/
structure PointsUsable (state : List BgpInfo × Nat) : Prop where
  marks : MarksUsable state.1
  best : UsableAt state.1 state.2

theorem PointsUsable.modify (points : PointsUsable state) (usable : UsableAt state.1 position)
    (keeps : ∀ info, (change info).holddown = info.holddown) :
    PointsUsable (state.1.modify position change, state.2) :=
  ⟨points.marks.modify usable keeps, points.best.modify keeps⟩

theorem compareInGroup_pointsUsable {ri1 : BgpInfo} {second : Nat} (points : PointsUsable state) :
    PointsUsable (compareInGroup infoCmp ri1 state second) := by
  unfold compareInGroup
  cases found : state.1[second]? with
  | none => exact points
  | some ri2 =>
    dsimp only
    split_ifs with skipped
    · exact points
    · -- The loser and the new best route are both usable.
      have replaced : PointsUsable (state.1.modify state.2 (·.setDmedSelected false), second) :=
        ⟨points.marks.modify points.best fun _ => rfl,
          (UsableAt.of_getElem? found skipped).modify fun _ => rfl⟩
      exact replaced.modify replaced.best fun _ => rfl
    · exact points.modify (.of_getElem? found skipped) fun _ => rfl
    · exact points

theorem selectInGroup_marksUsable (marksUsable : MarksUsable routes) (first : Nat) :
    MarksUsable (selectInGroup infoCmp routes first) := by
  unfold selectInGroup
  cases found : routes[first]? with
  | none => exact marksUsable
  | some ri1 =>
    dsimp only
    split_ifs with skipped
    · exact marksUsable
    · have start : PointsUsable (routes, first) := ⟨marksUsable, .of_getElem? found skipped⟩
      have compared := @foldl_range'_invariant _ (fun _ => PointsUsable) _
        (compareInGroup infoCmp ri1) (first + 1) (routes.length - (first + 1)) start
        (fun position state _ _ points => compareInGroup_pointsUsable points)
      exact compared.marks.modify compared.best fun _ => rfl

theorem selectInGroups_marksUsable (marksUsable : MarksUsable routes) :
    MarksUsable (selectInGroups infoCmp routes) :=
  @foldl_range'_invariant _ (fun _ => MarksUsable) _ (selectInGroup infoCmp) 0 routes.length
    marksUsable (fun first _ _ _ marksUsable => selectInGroup_marksUsable marksUsable first)

theorem selectAmongGroups_unmarked {pair : InfoPair} {ri : BgpInfo}
    (unmarked : ∀ info ∈ pair.routes, info.Unmarked)
    (marksUsable : ri.holddown = true → ri.Unmarked) :
    ∀ info ∈ (selectAmongGroups bgp infoCmp pair ri).routes, info.Unmarked := by
  have snoc : ∀ {last : BgpInfo}, last.Unmarked → ∀ info ∈ pair.routes ++ [last],
      info.Unmarked :=
    fun isUnmarked => forall_mem_append.mpr ⟨unmarked, forall_mem_singleton.mpr isUnmarked⟩
  unfold selectAmongGroups
  dsimp only
  generalize (if ri.flags.selected then some pair.routes.length else pair.old?) = old?
  split_ifs with held removed passed
  · exact unmarked
  · exact snoc (marksUsable held)
  · rw [Bool.and_eq_true, Bool.not_eq_true'] at passed
    exact snoc ⟨rfl, passed.2⟩
  all_goals exact snoc ⟨rfl, rfl⟩

theorem bgpBestSelection_unmarked (unmarked : ∀ info ∈ routes, info.Unmarked) :
    ∀ info ∈ (bgpBestSelection bgp infoCmp routes).routes, info.Unmarked := by
  have fresh : MarksUsable routes := fun info member _ => unmarked info member
  have scan : ∀ (rest : List BgpInfo) (pair : InfoPair), MarksUsable rest →
      (∀ info ∈ pair.routes, info.Unmarked) →
      ∀ info ∈ (rest.foldl (selectAmongGroups bgp infoCmp) pair).routes, info.Unmarked := by
    intro rest
    induction rest with
    | nil => exact fun pair _ isUnmarked => isUnmarked
    | cons ri rest induction =>
      intro pair marksUsable isUnmarked
      apply induction
      · exact fun info member => marksUsable info (mem_cons_of_mem ri member)
      · exact selectAmongGroups_unmarked isUnmarked (marksUsable ri mem_cons_self)
  apply scan _ _ _ (fun info member => absurd member not_mem_nil)
  split
  · exact selectInGroups_marksUsable fresh
  · exact fresh

end

/-! ## Runs of a node -/

/-- What happens to the routes of a node: a new route, whose flags are those of fresh memory
but for the ones of its user, a change of a route, which leaves the flags of the first loop
alone, the removal of a route, and the selection of the best one. -/
inductive NodeOperation where
  | infoAdd (info : BgpInfo)
  | change (position : Nat) (replacement : BgpInfo)
  | infoReap (position : Nat)
  | bestSelection (bgp : BestPath) (infoCmp : BgpInfo → Option BgpInfo → Bool)

def NodeOperation.apply (operation : NodeOperation) (routes : List BgpInfo) : List BgpInfo :=
  match operation with
  | .infoAdd info => info.mark false false :: routes
  | .change position replacement => routes.modify position fun info =>
    replacement.mark info.flags.dmedCheck info.flags.dmedSelected
  | .infoReap position => routes.eraseIdx position
  | .bestSelection bgp infoCmp => (bgpBestSelection bgp infoCmp routes).routes

def nodeRoutes (operations : List NodeOperation) : List BgpInfo :=
  operations.foldl (fun routes operation => operation.apply routes) []

theorem NodeOperation.apply_unmarked (operation : NodeOperation) {routes : List BgpInfo}
    (unmarked : ∀ info ∈ routes, info.Unmarked) :
    ∀ info ∈ operation.apply routes, info.Unmarked := by
  cases operation with
  | infoAdd added =>
    intro info member
    rcases mem_cons.mp member with rfl | earlier
    · exact ⟨rfl, rfl⟩
    · exact unmarked info earlier
  | change position replacement =>
    intro info member
    rcases mem_iff_getElem?.mp member with ⟨other, found⟩
    rw [apply, getElem?_modify] at found
    rcases map_eq_some_iff.mp found with ⟨original, foundOriginal, rfl⟩
    have isUnmarked := unmarked original (mem_of_getElem? foundOriginal)
    split
    · exact isUnmarked
    · exact isUnmarked
  | infoReap position =>
    intro info member
    exact unmarked info (mem_of_mem_eraseIdx member)
  | bestSelection bgp infoCmp => exact bgpBestSelection_unmarked unmarked

theorem nodeRoutes_unmarked (operations : List NodeOperation) :
    ∀ info ∈ nodeRoutes operations, info.Unmarked := by
  induction operations using List.reverseRecOn with
  | nil => exact fun info member => absurd member not_mem_nil
  | append_singleton operations operation induction =>
    rw [nodeRoutes, foldl_append, foldl_cons]
    exact operation.apply_unmarked induction

/-! ## Order independence -/

def BgpInfo.unselected (info : BgpInfo) : BgpInfo :=
  { info with flags := { info.flags with selected := false } }

/-- The same routes in another order, with another one selected before. -/
def Arranges (routes arrangement : List BgpInfo) : Prop :=
  (arrangement.map BgpInfo.unselected).Perm (routes.map BgpInfo.unselected)

/-- The route that wins its group and beats the winners of the other groups. -/
def IsChosen (bgp : BestPath) (routes : List BgpInfo) (best : BgpInfo) : Prop :=
  GroupWinner bgp routes best ∧ ∀ other, GroupWinner bgp routes other → other ≠ best →
    bgpInfoCmp bgp best (some other) = true

section

variable {bgp : BestPath} {routes arrangement : List BgpInfo}

variable {first second : BgpInfo}

section

variable (settings : bgp.Deterministic) (comparable : Comparable routes)
include settings comparable

theorem exists_groupWinner (some_route : routes ≠ []) : ∃ info, GroupWinner bgp routes info := by
  -- The route of the smallest rank wins its group, whichever that is.
  have nonempty : routes.toFinset.Nonempty := toFinset_nonempty_iff routes |>.mpr some_route
  rcases Finset.exists_min_image routes.toFinset (groupRank bgp) nonempty with
    ⟨info, inRoutes, smallest⟩
  have member := mem_toFinset.mp inRoutes
  refine ⟨info, member, ?_⟩
  intro other inOther same different
  have distinct := comparable.distinct.forall member inOther (Ne.symm different)
  rw [bgpInfoCmp_sameNeighbour settings (comparable.learned info member)
    (comparable.learned other inOther) distinct same]
  exact lt_of_le_of_ne (smallest other (mem_toFinset.mpr inOther))
    (distinct.rank_ne true true)

section

variable (winsFirst : GroupWinner bgp routes first) (winsSecond : GroupWinner bgp routes second)
  (different : first ≠ second)
include winsFirst winsSecond different

theorem GroupWinner.otherNeighbour : first.aspath.cmpLeft second.aspath = false := by
  rw [Bool.eq_false_iff]
  intro same
  have sameBack : second.aspath.cmpLeft first.aspath = true := by
    rw [AsPath.cmpLeft_eq_true] at same ⊢
    exact ⟨same.1.symm, same.1 ▸ same.2⟩
  have distinct := comparable.distinct.forall winsFirst.1 winsSecond.1 different
  have before := winsFirst.2 second winsSecond.1 same (Ne.symm different)
  have after := winsSecond.2 first winsFirst.1 sameBack different
  rw [bgpInfoCmp_sameNeighbour settings (comparable.learned first winsFirst.1)
    (comparable.learned second winsSecond.1) distinct same] at before
  rw [bgpInfoCmp_sameNeighbour settings (comparable.learned second winsSecond.1)
    (comparable.learned first winsFirst.1) (symm distinct) sameBack] at after
  exact lt_asymm before after

theorem groupWinner_cmp_iff :
    bgpInfoCmp bgp first (some second) = true ↔ first.winnerRank bgp < second.winnerRank bgp :=
  bgpInfoCmp_otherNeighbour settings (comparable.learned first winsFirst.1)
    (comparable.learned second winsSecond.1)
    (comparable.distinct.forall winsFirst.1 winsSecond.1 different)
    (winsFirst.otherNeighbour settings comparable winsSecond different)

end

theorem IsChosen.unique (chosenFirst : IsChosen bgp routes first)
    (chosenSecond : IsChosen bgp routes second) : first = second := by
  by_contra different
  have before := chosenFirst.2 second chosenSecond.1 (Ne.symm different)
  have after := chosenSecond.2 first chosenFirst.1 different
  rw [groupWinner_cmp_iff settings comparable chosenFirst.1 chosenSecond.1 different] at before
  rw [groupWinner_cmp_iff settings comparable chosenSecond.1 chosenFirst.1
    (Ne.symm different)] at after
  exact lt_asymm before after

theorem bgpBestSelection_chosen (unmarked : ∀ info ∈ routes, info.Unmarked)
    (some_route : routes ≠ []) :
    ∃ best, (bgpBestSelection bgp (bgpInfoCmp bgp) routes).newRoute? = some best ∧
      IsChosen bgp routes best := by
  have winners := selectInGroups_winners settings comparable unmarked
  have usable : ∀ info ∈ selectInGroups (bgpInfoCmp bgp) routes, info.holddown = false := by
    intro info member
    rw [selectInGroups_marked ignoresMarks_bgpInfoCmp unmarked] at member
    rcases mem_iff_getElem?.mp member with ⟨position, found⟩
    rw [getElem?_marked] at found
    rcases map_eq_some_iff.mp found with ⟨original, foundOriginal, rfl⟩
    exact (comparable.learned original (mem_of_getElem? foundOriginal)).usable
  have ranked : Ranked (bgpInfoCmp bgp) (winnerRank bgp)
      (winnersOf (selectInGroups (bgpInfoCmp bgp) routes)) := by
    constructor
    · intro info
      rfl
    · intro new inNew exist inExist different
      exact groupWinner_cmp_iff settings comparable ((winners new).mp inNew)
        ((winners exist).mp inExist) different
    · intro new inNew exist inExist different
      exact (comparable.distinct.forall ((winners new).mp inNew).1 ((winners exist).mp inExist).1
        different).rank_ne _ _
  have selecting := foldl_selectAmongGroups_selecting settings.deterministicMed usable ranked
  have best := selecting.best
  have unfolded : bgpBestSelection bgp (bgpInfoCmp bgp) routes =
      (selectInGroups (bgpInfoCmp bgp) routes).foldl
        (selectAmongGroups bgp (bgpInfoCmp bgp)) ⟨[], none, none⟩ := by
    rw [bgpBestSelection, settings.deterministicMed]
    rfl
  rw [unfolded]
  generalize ((selectInGroups (bgpInfoCmp bgp) routes).foldl
    (selectAmongGroups bgp (bgpInfoCmp bgp)) ⟨[], none, none⟩).newRoute? = newRoute? at best ⊢
  cases newRoute? with
  | none =>
    rcases exists_groupWinner settings comparable some_route with ⟨info, wins⟩
    have empty : winnersOf (selectInGroups (bgpInfoCmp bgp) routes) = [] := best
    have member := (winners info).mpr wins
    rw [empty] at member
    exact absurd member not_mem_nil
  | some route =>
    refine ⟨route, rfl, (winners route).mp best.1, ?_⟩
    intro other wins different
    exact best.2 other ((winners other).mpr wins) different

end

theorem bgpInfoCmp_unselected (settings : bgp.Deterministic) (new exist : BgpInfo) :
    bgpInfoCmp bgp new.unselected (some exist.unselected) = bgpInfoCmp bgp new (some exist) := by
  unfold bgpInfoCmp
  rw [settings.compareRouterId]
  rfl

theorem comparable_unselected : Comparable (routes.map unselected) ↔ Comparable routes := by
  have pairs : (routes.map unselected).Pairwise BgpInfo.Distinct ↔
      routes.Pairwise BgpInfo.Distinct := pairwise_map
  constructor
  · intro comparable
    refine ⟨fun info member => ?_, pairs.mp comparable.distinct⟩
    have learned := comparable.learned info.unselected (mem_map_of_mem member)
    exact ⟨learned.usable, learned.normal, learned.neighbour, learned.noConfed⟩
  · intro comparable
    refine ⟨forall_mem_map.mpr fun info member => ?_, pairs.mpr comparable.distinct⟩
    have learned := comparable.learned info member
    exact ⟨learned.usable, learned.normal, learned.neighbour, learned.noConfed⟩

theorem Comparable.perm (comparable : Comparable routes) (permuted : arrangement.Perm routes) :
    Comparable arrangement :=
  ⟨fun info member => comparable.learned info (permuted.mem_iff.mp member),
    permuted.symm.pairwise comparable.distinct (fun distinct => symm distinct)⟩

theorem Comparable.unselected_ne (comparable : Comparable routes) (inFirst : first ∈ routes)
    (inSecond : second ∈ routes) (different : first ≠ second) :
    first.unselected ≠ second.unselected := by
  have distinct := comparable.distinct.forall inFirst inSecond different
  have kept : first.unselected.Distinct second.unselected := distinct
  exact kept.ne

theorem groupWinner_unselected (settings : bgp.Deterministic) (comparable : Comparable routes)
    (member : info ∈ routes) :
    GroupWinner bgp (routes.map unselected) info.unselected ↔ GroupWinner bgp routes info := by
  constructor
  · intro wins
    refine ⟨member, ?_⟩
    intro other inOther same different
    rw [← bgpInfoCmp_unselected settings]
    exact wins.2 other.unselected (mem_map_of_mem inOther) same
      (comparable.unselected_ne inOther member different)
  · intro wins
    refine ⟨mem_map_of_mem member, ?_⟩
    intro other inOther same different
    rcases mem_map.mp inOther with ⟨original, inOriginal, rfl⟩
    rw [bgpInfoCmp_unselected settings]
    exact wins.2 original inOriginal same fun equal => different (congrArg _ equal)

theorem IsChosen.unselected (settings : bgp.Deterministic) (comparable : Comparable routes)
    (chosen : IsChosen bgp routes best) : IsChosen bgp (routes.map unselected) best.unselected := by
  refine ⟨(groupWinner_unselected settings comparable chosen.1.1).mpr chosen.1, ?_⟩
  intro other wins different
  rcases mem_map.mp wins.1 with ⟨original, inOriginal, rfl⟩
  rw [bgpInfoCmp_unselected settings]
  exact chosen.2 original ((groupWinner_unselected settings comparable inOriginal).mp wins)
    fun equal => different (congrArg _ equal)

theorem IsChosen.perm (chosen : IsChosen bgp arrangement best)
    (permuted : arrangement.Perm routes) : IsChosen bgp routes best := by
  have winners : ∀ info, GroupWinner bgp routes info ↔ GroupWinner bgp arrangement info := by
    intro info
    unfold GroupWinner
    simp [permuted.mem_iff]
  refine ⟨(winners best).mpr chosen.1, ?_⟩
  intro other wins
  exact chosen.2 other ((winners other).mp wins)

/-- The route selected for a node is the same for every order of its routes and for every
route that was selected before. -/
theorem bestSelection_order_independent (settings : bgp.Deterministic)
    {operations : List NodeOperation} (some_route : nodeRoutes operations ≠ [])
    (comparable : Comparable (nodeRoutes operations))
    (arranges : Arranges (nodeRoutes operations) arrangement) :
    let first := bgpBestSelection bgp (bgpInfoCmp bgp) (nodeRoutes operations)
    let second := bgpBestSelection bgp (bgpInfoCmp bgp) arrangement
    (∃ best ∈ (nodeRoutes operations).map BgpInfo.unselected,
      first.newRoute?.map BgpInfo.unselected = some best ∧
      second.newRoute?.map BgpInfo.unselected = some best) ∧
    (∀ info ∈ first.routes, info.Unmarked) ∧ (∀ info ∈ second.routes, info.Unmarked) := by
  have unmarked := nodeRoutes_unmarked operations
  have arrangedComparable : Comparable arrangement :=
    comparable_unselected.mp ((comparable_unselected.mpr comparable).perm arranges)
  have arrangedUnmarked : ∀ info ∈ arrangement, info.Unmarked := by
    intro info member
    rcases mem_map.mp (arranges.mem_iff.mp (mem_map_of_mem member)) with
      ⟨original, inRoutes, same⟩
    have isUnmarked : original.unselected.Unmarked := unmarked original inRoutes
    rw [same] at isUnmarked
    exact isUnmarked
  have arrangedSome : arrangement ≠ [] := by
    intro empty
    subst empty
    exact some_route (map_eq_nil_iff.mp (nil_perm.mp arranges))
  rcases bgpBestSelection_chosen settings comparable unmarked some_route with
    ⟨best, isNew, chosen⟩
  rcases bgpBestSelection_chosen settings arrangedComparable arrangedUnmarked arrangedSome with
    ⟨other, isOther, chosenOther⟩
  have same : other.unselected = best.unselected :=
    ((chosenOther.unselected settings arrangedComparable).perm arranges).unique settings
      (comparable_unselected.mpr comparable) (chosen.unselected settings comparable)
  refine ⟨⟨best.unselected, mem_map_of_mem chosen.1.1, ?_, ?_⟩,
    bgpBestSelection_unmarked unmarked, bgpBestSelection_unmarked arrangedUnmarked⟩
  · rw [isNew]
    rfl
  · rw [isOther, map_some, same]

end

/-- Routes of two neighbouring ASes whose order by MED and router id is a cycle: the first
beats the second by its router id, the second the third, and the third the first by its
MED. -/
def medCycle : List BgpInfo :=
  let learned := fun (asno med remoteId : UInt32) =>
    ({ peer := ⟨.ebgp, remoteId, .inet remoteId⟩
       attr := { (Attr.zero : Attr Nat) with
         aspath? := some [⟨.asSequence, [asno]⟩], med := med, flag := {.multiExitDisc} }
       subType := .normal
       igpmetric? := none
       flags := ⟨false, false, false, true, false, false, false⟩
       hasAspath := rfl
       hasAses := by simp
       hasCluster := by simp } : BgpInfo)
  [learned 100 20 1, learned 200 30 2, learned 100 10 3]

def medSettings : BestPath where
  defaultLocalPref := 100
  alwaysCompareMed := false
  deterministicMed := true
  medMissingAsWorst := false
  medConfed := false
  aspathIgnore := false
  aspathConfed := false
  compareRouterId := true

theorem medCycle_order_independent :
    let operations := medCycle.map NodeOperation.infoAdd
    let first := bgpBestSelection medSettings (bgpInfoCmp medSettings) (nodeRoutes operations)
    let second := bgpBestSelection medSettings (bgpInfoCmp medSettings) medCycle
    (∃ best ∈ (nodeRoutes operations).map BgpInfo.unselected,
      first.newRoute?.map BgpInfo.unselected = some best ∧
      second.newRoute?.map BgpInfo.unselected = some best) ∧
    (∀ info ∈ first.routes, info.Unmarked) ∧ (∀ info ∈ second.routes, info.Unmarked) := by
  have comparable : Comparable (nodeRoutes (medCycle.map NodeOperation.infoAdd)) := by
    have learned : ∀ info ∈ nodeRoutes (medCycle.map NodeOperation.infoAdd),
        info.holddown = false ∧ info.subType = .normal ∧ info.peer.sort ≠ .internal ∧
          info.aspath.confedCheck = false := by decide +kernel
    have distinct : (nodeRoutes (medCycle.map NodeOperation.infoAdd)).Pairwise
        fun first second => first.routerId ≠ second.routerId := by decide +kernel
    refine ⟨fun info member => ?_, distinct.imp .inl⟩
    rcases learned info member with ⟨usable, normal, neighbour, noConfed⟩
    exact ⟨usable, normal, neighbour, noConfed⟩
  have arranges : Arranges (nodeRoutes (medCycle.map NodeOperation.infoAdd)) medCycle := by
    unfold Arranges
    decide +kernel
  exact bestSelection_order_independent ⟨rfl, rfl, rfl, rfl⟩ (by decide +kernel) comparable arranges

end Quagga.Bgp
