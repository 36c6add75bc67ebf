import Quagga.Bgp.BestPathOrder

/-!
# Best path selection does not depend on the order of the routes

With `bgp deterministic-med` the first loop of `bgp_best_selection` finds the winner of each
group of routes of one neighbouring AS, and the second loop the one of them that beats the
others. Both are determined by the set of the routes.
-/

namespace Quagga.Bgp

open Foundation GroupSelection List Option Function

/-! ## The first loop -/

namespace BgpInfo

def mark (checked selected : Bool) (info : BgpInfo) : BgpInfo :=
  (info.setDmedCheck checked).setDmedSelected selected

def Unmarked (info : BgpInfo) : Prop :=
  info.flags.dmedCheck = false ∧ info.flags.dmedSelected = false

theorem Unmarked.mark_eq {info : BgpInfo} (unmarked : info.Unmarked) :
    info.mark false false = info := by
  rcases info with ⟨peer, attr, subType, igpmetric, flags, _, _, _⟩
  rcases flags with ⟨damped, history, selected, valid, removed, check, dmedSelected⟩
  rcases unmarked with ⟨rfl, rfl⟩
  rfl

end BgpInfo

/-- The routes with the flags of the first loop set as the marks say. -/
def marked (routes : List BgpInfo) (marks : Marks) : List BgpInfo :=
  routes.mapIdx fun position info =>
    info.mark (marks.checked position) (marks.selected position)

section

variable (infoCmp : BgpInfo → Option BgpInfo → Bool) (routes : List BgpInfo)

def eligibleAt (position : Nat) : Bool := routes[position]?.any fun info => !info.holddown

def relatedAt (first second : Nat) : Bool :=
  routes[first]?.any fun ri1 => routes[second]?.any fun ri2 =>
    ri1.aspath.cmpLeft ri2.aspath || ri1.aspath.cmpLeftConfed ri2.aspath

def betterAt (new exist : Nat) : Bool := routes[new]?.any fun ri => infoCmp ri routes[exist]?

variable {infoCmp routes} {marks : Marks}

theorem getElem?_marked (position : Nat) :
    (marked routes marks)[position]? =
      routes[position]?.map (BgpInfo.mark (marks.checked position) (marks.selected position)) := by
  rw [marked, getElem?_mapIdx]

theorem modify_marked {change : BgpInfo → BgpInfo} {position : Nat} {check selected : Bool}
    (changes : ∀ info : BgpInfo,
      change (info.mark (marks.checked position) (marks.selected position)) =
        info.mark check selected) :
    (marked routes marks).modify position change =
      marked routes ⟨update marks.checked position check,
        update marks.selected position selected⟩ := by
  apply ext_getElem?
  intro other
  rw [getElem?_modify, getElem?_marked, getElem?_marked]
  cases routes[other]? with
  | none => rfl
  | some info =>
    by_cases same : position = other
    · subst same
      simp [changes]
    · simp [same, update_of_ne (Ne.symm same)]

/-- The flags of the first loop do not count in the comparison. -/
def IgnoresMarks (infoCmp : BgpInfo → Option BgpInfo → Bool) : Prop :=
  ∀ (new : BgpInfo) (exist? : Option BgpInfo) (newCheck newSelected check selected : Bool),
    infoCmp (new.mark newCheck newSelected) (exist?.map (BgpInfo.mark check selected)) =
      infoCmp new exist?

theorem compareInGroup_marked (ignores : IgnoresMarks infoCmp) {first second best : Nat}
    {ri1 : BgpInfo} (found : routes[first]? = some ri1) (checked selected : Bool) :
    compareInGroup infoCmp (ri1.mark checked selected) (marked routes marks, best) second =
      let state := compareStep (eligibleAt routes) (relatedAt routes) (betterAt infoCmp routes)
        first (marks, best) second
      (marked routes state.1, state.2) := by
  unfold compareInGroup compareStep
  rw [getElem?_marked]
  cases foundSecond : routes[second]? with
  | none =>
    have ineligible : eligibleAt routes second = false := by
      rw [eligibleAt, foundSecond, any_none]
    simp [ineligible]
  | some ri2 =>
    have eligible : eligibleAt routes second = !ri2.holddown := by
      rw [eligibleAt, foundSecond, any_some]
    have related : relatedAt routes first second =
        (ri1.aspath.cmpLeft ri2.aspath || ri1.aspath.cmpLeftConfed ri2.aspath) := by
      rw [relatedAt, found, foundSecond, any_some, any_some]
    have better : betterAt infoCmp routes second best =
        infoCmp (ri2.mark (marks.checked second) (marks.selected second))
          (marked routes marks)[best]? := by
      rw [betterAt, foundSecond, any_some, getElem?_marked, ignores]
    have unselect : (marked routes marks).modify best (·.setDmedSelected false) =
        marked routes { marks with selected := update marks.selected best false } := by
      rw [modify_marked (fun _ => rfl), update_eq_self]
    have check : ∀ marks : Marks, (marked routes marks).modify second (·.setDmedCheck true) =
        marked routes { marks with checked := update marks.checked second true } := by
      intro marks
      rw [modify_marked (fun _ => rfl), update_eq_self]
    rw [eligible, related, better, Bool.not_not]
    change (if (marks.checked second || ri2.holddown) = true then _
      else if (ri1.aspath.cmpLeft ri2.aspath || ri1.aspath.cmpLeftConfed ri2.aspath) = true then _
      else _) = _
    split_ifs
    · rfl
    · dsimp only
      rw [unselect, check]
    · dsimp only
      rw [check]
    · rfl

theorem marked_none (unmarked : ∀ info ∈ routes, info.Unmarked) : marked routes .none = routes := by
  apply ext_getElem?
  intro position
  rw [getElem?_marked]
  cases found : routes[position]? with
  | none => rfl
  | some info =>
    exact congrArg some (unmarked info (mem_of_getElem? found)).mark_eq

theorem selectInGroup_marked (ignores : IgnoresMarks infoCmp) (first : Nat) :
    selectInGroup infoCmp (marked routes marks) first = marked routes
      (groupStep (eligibleAt routes) (relatedAt routes) (betterAt infoCmp routes) routes.length
        marks first) := by
  unfold selectInGroup groupStep
  rw [getElem?_marked]
  cases found : routes[first]? with
  | none =>
    have ineligible : eligibleAt routes first = false := by
      rw [eligibleAt, found, any_none]
    simp [ineligible]
  | some ri1 =>
    have eligible : eligibleAt routes first = !ri1.holddown := by
      rw [eligibleAt, found, any_some]
    have length : (marked routes marks).length = routes.length := length_mapIdx
    rw [eligible, Bool.not_not, length]
    by_cases skipped : (marks.checked first || ri1.holddown) = true
    · rw [if_pos skipped]
      exact if_pos skipped
    · rw [if_neg skipped]
      apply (if_neg skipped).trans
      -- Both loops go through the same positions.
      have loops := foldl_rel
        (l := List.range' (first + 1) (routes.length - (first + 1)))
        (r := fun (state : List BgpInfo × Nat) (abstract : Marks × Nat) =>
          state = (marked routes abstract.1, abstract.2))
        (f := compareInGroup infoCmp
          (ri1.mark (marks.checked first) (marks.selected first)))
        (g := compareStep (eligibleAt routes) (relatedAt routes) (betterAt infoCmp routes) first)
        (a := (marked routes marks, first)) (b := (marks, first)) rfl
        (by
          intro second _ state abstract same
          rw [same]
          exact compareInGroup_marked ignores found _ _)
      rw [loops]
      rw [modify_marked (fun _ => rfl)]

theorem selectInGroups_marked (ignores : IgnoresMarks infoCmp)
    (unmarked : ∀ info ∈ routes, info.Unmarked) :
    selectInGroups infoCmp routes = marked routes
      (groups (eligibleAt routes) (relatedAt routes) (betterAt infoCmp routes) routes.length) := by
  have loops := foldl_rel (l := List.range' 0 routes.length)
    (r := fun (state : List BgpInfo) (marks : Marks) => state = marked routes marks)
    (f := selectInGroup infoCmp)
    (g := groupStep (eligibleAt routes) (relatedAt routes) (betterAt infoCmp routes)
      routes.length)
    (a := routes) (b := Marks.none) (marked_none unmarked).symm
    (by
      intro first _ state marks same
      rw [same]
      exact selectInGroup_marked ignores first)
  exact loops

end

/-! ## The winners of the groups -/

structure Comparable (routes : List BgpInfo) : Prop where
  learned : ∀ info ∈ routes, info.Learned
  distinct : routes.Pairwise BgpInfo.Distinct

/-- The routes the second loop compares, without their flags of the first one. -/
def winnersOf (routes : List BgpInfo) : List BgpInfo :=
  (routes.filter (·.flags.dmedSelected)).map (BgpInfo.mark false false)

instance : Std.Symm BgpInfo.Distinct := ⟨fun _ _ distinct => distinct.imp Ne.symm Ne.symm⟩

theorem BgpInfo.Distinct.ne {first second : BgpInfo} (distinct : first.Distinct second) :
    first ≠ second := by
  intro same
  subst same
  exact distinct.elim (fun ids => ids rfl) (fun addresses => addresses rfl)

section

variable {bgp : BestPath} {routes : List BgpInfo}

theorem Comparable.nodup (comparable : Comparable routes) : routes.Nodup :=
  comparable.distinct.imp BgpInfo.Distinct.ne

theorem Comparable.ne_of_positions (comparable : Comparable routes) {first second : Nat}
    {ri1 ri2 : BgpInfo} (foundFirst : routes[first]? = some ri1)
    (foundSecond : routes[second]? = some ri2) (different : first ≠ second) : ri1 ≠ ri2 := by
  intro same
  have bound : first < routes.length := (List.getElem?_eq_some_iff.mp foundFirst).1
  apply different
  apply (getElem?_inj bound comparable.nodup).mp
  rw [foundFirst, foundSecond, same]

theorem relatedAt_eq_true (comparable : Comparable routes) {first second : Nat} :
    relatedAt routes first second = true ↔ ∃ ri1 ri2, routes[first]? = some ri1 ∧
      routes[second]? = some ri2 ∧ ri1.aspath.cmpLeft ri2.aspath = true := by
  unfold relatedAt
  cases foundFirst : routes[first]? with
  | none => simp
  | some ri1 =>
    have noConfed := (comparable.learned ri1 (mem_of_getElem? foundFirst)).noConfed
    cases routes[second]? with
    | none => simp
    | some ri2 => simp [AsPath.cmpLeftConfed_eq_false noConfed]

theorem Comparable.orders (settings : bgp.Deterministic) (comparable : Comparable routes) :
    Orders (relatedAt routes) (betterAt (bgpInfoCmp bgp) routes)
      (fun position => routes[position]?.elim [] (BgpInfo.groupRank bgp)) := by
  constructor
  · intro first second related
    rw [relatedAt_eq_true comparable] at related ⊢
    rcases related with ⟨ri1, ri2, foundFirst, foundSecond, same⟩
    refine ⟨ri2, ri1, foundSecond, foundFirst, ?_⟩
    rw [AsPath.cmpLeft_eq_true] at same ⊢
    exact ⟨same.1.symm, same.1 ▸ same.2⟩
  · intro first second third relatedFirst relatedSecond
    rw [relatedAt_eq_true comparable] at relatedFirst relatedSecond ⊢
    rcases relatedFirst with ⟨ri1, ri2, foundFirst, foundSecond, same⟩
    rcases relatedSecond with ⟨ri2', ri3, foundSecond', foundThird, same'⟩
    cases foundSecond.symm.trans foundSecond'
    refine ⟨ri1, ri3, foundFirst, foundThird, ?_⟩
    rw [AsPath.cmpLeft_eq_true] at same same' ⊢
    exact ⟨same.1.trans same'.1, same.2⟩
  · intro first second related different
    rcases (relatedAt_eq_true comparable).mp related with
      ⟨ri1, ri2, foundFirst, foundSecond, same⟩
    have inFirst := mem_of_getElem? foundFirst
    have inSecond := mem_of_getElem? foundSecond
    have distinct := comparable.distinct.forall inFirst inSecond
      (comparable.ne_of_positions foundFirst foundSecond different)
    rw [betterAt, foundFirst, foundSecond]
    exact bgpInfoCmp_sameNeighbour settings (comparable.learned ri1 inFirst)
      (comparable.learned ri2 inSecond) distinct same
  · intro first second related different
    rcases (relatedAt_eq_true comparable).mp related with
      ⟨ri1, ri2, foundFirst, foundSecond, same⟩
    have distinct := comparable.distinct.forall (mem_of_getElem? foundFirst)
      (mem_of_getElem? foundSecond)
      (comparable.ne_of_positions foundFirst foundSecond different)
    rw [foundFirst, foundSecond]
    exact distinct.rank_ne true true

def GroupWinner (bgp : BestPath) (routes : List BgpInfo) (info : BgpInfo) : Prop :=
  info ∈ routes ∧ ∀ other ∈ routes, info.aspath.cmpLeft other.aspath = true → other ≠ info →
    bgpInfoCmp bgp info (some other) = true

theorem isWinner_iff_groupWinner (comparable : Comparable routes) {position : Nat} {info : BgpInfo}
    (found : routes[position]? = some info) :
    IsWinner (eligibleAt routes) (relatedAt routes) (betterAt (bgpInfoCmp bgp) routes)
      routes.length position ↔ GroupWinner bgp routes info := by
  have member := mem_of_getElem? found
  have eligible : ∀ {position : Nat} {info : BgpInfo}, routes[position]? = some info →
      eligibleAt routes position = true := by
    intro position info found
    rw [eligibleAt, found, any_some, (comparable.learned info (mem_of_getElem? found)).usable]
    rfl
  constructor
  · intro winner
    refine ⟨member, ?_⟩
    intro other inOther same different
    rcases mem_iff_getElem?.mp inOther with ⟨otherPosition, foundOther⟩
    have bound : otherPosition < routes.length := (List.getElem?_eq_some_iff.mp foundOther).1
    have apart : otherPosition ≠ position := by
      intro equal
      rw [equal, found] at foundOther
      exact different (Option.some.inj foundOther).symm
    have beats := winner.2 otherPosition bound (eligible foundOther)
      ((relatedAt_eq_true comparable).mpr ⟨info, other, found, foundOther, same⟩) apart
    rw [betterAt, found, foundOther] at beats
    exact beats
  · intro winner
    refine ⟨eligible found, ?_⟩
    intro otherPosition bound _ related apart
    rcases (relatedAt_eq_true comparable).mp related with
      ⟨info', other, found', foundOther, same⟩
    cases found.symm.trans found'
    rw [betterAt, found, foundOther]
    exact winner.2 other (mem_of_getElem? foundOther) same
      (comparable.ne_of_positions foundOther found apart)

theorem ignoresMarks_bgpInfoCmp : IgnoresMarks (bgpInfoCmp bgp) := by
  intro new exist? newCheck newSelected check selected
  cases exist? <;> rfl

theorem selectInGroups_winners (settings : bgp.Deterministic) (comparable : Comparable routes)
    (unmarked : ∀ info ∈ routes, info.Unmarked) (info : BgpInfo) :
    info ∈ winnersOf (selectInGroups (bgpInfoCmp bgp) routes) ↔ GroupWinner bgp routes info := by
  rw [selectInGroups_marked ignoresMarks_bgpInfoCmp unmarked]
  generalize selection : groups (eligibleAt routes) (relatedAt routes)
    (betterAt (bgpInfoCmp bgp) routes) routes.length = marks
  have selected : ∀ {position : Nat} {info : BgpInfo}, routes[position]? = some info →
      (marks.selected position = true ↔ GroupWinner bgp routes info) := by
    intro position info found
    rw [← selection, groups_selected (comparable.orders settings)
      (List.getElem?_eq_some_iff.mp found).1]
    exact isWinner_iff_groupWinner comparable found
  constructor
  · intro member
    rcases mem_map.mp member with ⟨winner, inFilter, rfl⟩
    rcases mem_filter.mp inFilter with ⟨inMarked, isSelected⟩
    rcases mem_iff_getElem?.mp inMarked with ⟨position, found⟩
    rw [getElem?_marked] at found
    rcases map_eq_some_iff.mp found with ⟨original, foundOriginal, rfl⟩
    have unchanged : (original.mark (marks.checked position) (marks.selected position)).mark
        false false = original :=
      (unmarked original (mem_of_getElem? foundOriginal)).mark_eq
    rw [unchanged]
    exact (selected foundOriginal).mp isSelected
  · intro winner
    rcases List.mem_iff_getElem?.mp winner.1 with ⟨position, found⟩
    apply List.mem_map.mpr
    refine ⟨info.mark (marks.checked position) (marks.selected position), ?_,
      (unmarked info winner.1).mark_eq⟩
    apply mem_filter.mpr
    refine ⟨?_, (selected found).mpr winner⟩
    apply mem_iff_getElem?.mpr
    exact ⟨position, by rw [getElem?_marked, found, map_some]⟩

end

/-! ## The second loop -/

def InfoPair.newRoute? (pair : InfoPair) : Option BgpInfo := pair.new?.bind (pair.routes[·]?)

/-- There is a best route unless there is no route, and it beats all others. -/
def IsBestOf (infoCmp : BgpInfo → Option BgpInfo → Bool) (winners : List BgpInfo) :
    Option BgpInfo → Prop
  | none => winners = []
  | some best => best ∈ winners ∧ ∀ other ∈ winners, other ≠ best → infoCmp best (some other) = true

structure Ranked {Rank : Type} [LinearOrder Rank] (infoCmp : BgpInfo → Option BgpInfo → Bool)
    (rank : BgpInfo → Rank) (winners : List BgpInfo) : Prop where
  first : ∀ info, infoCmp info none = true
  cmp_iff : ∀ new ∈ winners, ∀ exist ∈ winners, new ≠ exist →
    (infoCmp new (some exist) = true ↔ rank new < rank exist)
  rank_ne : ∀ new ∈ winners, ∀ exist ∈ winners, new ≠ exist → rank new ≠ rank exist

/-- What holds of the second loop after some routes. -/
structure Selecting (infoCmp : BgpInfo → Option BgpInfo → Bool) (seen : List BgpInfo)
    (pair : InfoPair) : Prop where
  kept : pair.routes = seen.map (BgpInfo.mark false false)
  within : ∀ position, pair.new? = some position → position < pair.routes.length
  best : IsBestOf infoCmp (winnersOf seen) pair.newRoute?

section

variable {Rank : Type} [LinearOrder Rank] {rank : BgpInfo → Rank}
  {bgp : BestPath} {infoCmp : BgpInfo → Option BgpInfo → Bool} {seen : List BgpInfo}
  {pair : InfoPair}

theorem Selecting.newRoute?_append (selecting : Selecting infoCmp seen pair) (ri : BgpInfo)
    (old? : Option Nat) :
    InfoPair.newRoute? ⟨pair.routes ++ [ri], old?, pair.new?⟩ = pair.newRoute? := by
  unfold InfoPair.newRoute?
  cases points : pair.new? with
  | none => rfl
  | some position => exact getElem?_append_left (selecting.within position points)

theorem isBestOf_snoc {winners : List BgpInfo} {ri : BgpInfo} {best? : Option BgpInfo}
    (ranked : Ranked infoCmp rank (winners ++ [ri])) (best : IsBestOf infoCmp winners best?) :
    IsBestOf infoCmp (winners ++ [ri]) (if infoCmp ri best? then some ri else best?) := by
  have last : ri ∈ winners ++ [ri] := mem_append_right winners (mem_singleton_self ri)
  cases best? with
  | none =>
    rw [if_pos (ranked.first ri)]
    refine ⟨last, ?_⟩
    intro other member different
    have empty : winners = [] := best
    rw [empty, nil_append, mem_singleton] at member
    exact absurd member different
  | some current =>
    have early : ∀ info ∈ winners, info ∈ winners ++ [ri] :=
      fun info member => mem_append_left [ri] member
    have inCurrent := early current best.1
    by_cases beats : infoCmp ri (some current) = true
    · rw [if_pos beats]
      refine ⟨last, ?_⟩
      intro other member different
      have inWinners := (mem_append.mp member).resolve_right
        (fun single => different (mem_singleton.mp single))
      by_cases same : other = current
      · rw [same]
        exact beats
      · by_cases equal : ri = current
        · rw [equal]
          exact best.2 other inWinners same
        · rw [ranked.cmp_iff ri last other member (Ne.symm different)]
          exact lt_trans ((ranked.cmp_iff ri last current inCurrent equal).mp beats)
            ((ranked.cmp_iff current inCurrent other member (Ne.symm same)).mp
              (best.2 other inWinners same))
    · rw [if_neg beats]
      refine ⟨inCurrent, ?_⟩
      intro other member different
      rcases mem_append.mp member with inWinners | single
      · exact best.2 other inWinners different
      · have isLast := mem_singleton.mp single
        subst isLast
        rw [ranked.cmp_iff other last current inCurrent different, not_lt] at beats
        rw [ranked.cmp_iff current inCurrent other last (Ne.symm different)]
        exact lt_of_le_of_ne beats
          (ranked.rank_ne current inCurrent other last (Ne.symm different))

theorem selectAmongGroups_selecting (deterministic : bgp.deterministicMed = true) {ri : BgpInfo}
    (usable : ri.holddown = false) (ranked : Ranked infoCmp rank (winnersOf (seen ++ [ri])))
    (selecting : Selecting infoCmp seen pair) :
    Selecting infoCmp (seen ++ [ri]) (selectAmongGroups bgp infoCmp pair ri) := by
  have longer : ∀ position, pair.new? = some position →
      position < (pair.routes ++ [ri.mark false false]).length := by
    intro position points
    rw [length_append]
    exact Nat.lt_add_right 1 (selecting.within position points)
  have kept : pair.routes ++ [ri.mark false false] =
      (seen ++ [ri]).map (BgpInfo.mark false false) := by
    rw [selecting.kept, map_append, map_singleton]
  unfold selectAmongGroups
  rw [usable, deterministic, Bool.true_and]
  cases isSelected : ri.flags.dmedSelected with
  | false =>
    have unselected : ri.setDmedCheck false = ri.mark false false := by
      rw [BgpInfo.mark, ← isSelected]
      rfl
    have winners : winnersOf (seen ++ [ri]) = winnersOf seen := by
      simp [winnersOf, isSelected]
    simp only [Bool.false_eq_true, if_false, Bool.not_false, if_true]
    rw [unselected]
    refine ⟨kept, longer, ?_⟩
    rw [winners, selecting.newRoute?_append]
    exact selecting.best
  | true =>
    have winners : winnersOf (seen ++ [ri]) = winnersOf seen ++ [ri.mark false false] := by
      simp [winnersOf, isSelected]
    rw [winners] at ranked
    have best := isBestOf_snoc ranked selecting.best
    simp only [Bool.false_eq_true, if_false, Bool.not_true]
    have compared : infoCmp ((ri.setDmedCheck false).setDmedSelected false)
        (pair.new?.bind (pair.routes[·]?)) = infoCmp (ri.mark false false) pair.newRoute? := rfl
    rw [compared]
    by_cases beats : infoCmp (ri.mark false false) pair.newRoute? = true
    · rw [if_pos beats] at best ⊢
      refine ⟨kept, ?_, ?_⟩
      · intro position points
        rw [← Option.some.inj points, length_append]
        exact Nat.lt_succ_self _
      · have last : InfoPair.newRoute? ⟨pair.routes ++ [ri.mark false false],
            if ri.flags.selected then some pair.routes.length else pair.old?,
            some pair.routes.length⟩ = some (ri.mark false false) :=
          getElem?_concat_length
        rw [winners]
        exact last ▸ best
    · rw [if_neg beats] at best ⊢
      refine ⟨kept, longer, ?_⟩
      rw [winners]
      exact (selecting.newRoute?_append (ri.mark false false) _).symm ▸ best

theorem foldl_selectAmongGroups_selecting (deterministic : bgp.deterministicMed = true)
    {routes : List BgpInfo} (usable : ∀ info ∈ routes, info.holddown = false)
    (ranked : Ranked infoCmp rank (winnersOf routes)) :
    Selecting infoCmp routes (routes.foldl (selectAmongGroups bgp infoCmp) ⟨[], none, none⟩) := by
  induction routes using List.reverseRecOn with
  | nil => exact ⟨rfl, (fun position points => nomatch points), rfl⟩
  | append_singleton seen ri induction =>
    have fewer : Ranked infoCmp rank (winnersOf seen) := by
      have early : ∀ info ∈ winnersOf seen, info ∈ winnersOf (seen ++ [ri]) := by
        intro info member
        rw [winnersOf, filter_append, map_append]
        exact mem_append_left _ member
      exact ⟨ranked.first,
        fun new inNew exist inExist => ranked.cmp_iff new (early new inNew) exist
          (early exist inExist),
        fun new inNew exist inExist => ranked.rank_ne new (early new inNew) exist
          (early exist inExist)⟩
    rw [foldl_append, foldl_cons]
    apply selectAmongGroups_selecting deterministic (usable ri (by simp)) ranked
    exact induction (fun info member => usable info (mem_append_left [ri] member)) fewer

end

end Quagga.Bgp
