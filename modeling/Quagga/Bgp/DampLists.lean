import Quagga.Bgp.Damp

/-!
# The lists of dampening information

Between the events every dampening information is on the list that the flag of its route and its
index name, and the lists hold nothing else. This needs that the reuse timer frees nothing: a
member of the list it has detached is on no list when it is freed.
-/

namespace Quagga.Bgp

open Foundation Function List Option

variable {binfo other : Nat}

namespace Dampening

def valueAt (damp : Dampening) (pointer : Nat) : Option BgpDampInfo :=
  (damp.lists.cells pointer).map ListCell.value

def placeOf (damp : Dampening) (info : BgpDampInfo) : Option DampList :=
  if (damp.routes info.binfo).damped then info.index?.map .reuseList else some .noReuseList

/-- Every information is where it belongs, but for those in `out`, which are on no list. -/
structure Kept (config : DampConfig) (out : List Nat) (contents : DampList → List Nat)
    (damp : Dampening) : Prop where
  represents : damp.lists.Represents contents
  placed : ∀ pointer list, pointer ∈ contents list ↔
    pointer ∉ out ∧ ∃ info, damp.valueAt pointer = some info ∧ damp.placeOf info = some list
  hasPlace : ∀ pointer info, damp.valueAt pointer = some info → pointer ∉ out →
    damp.placeOf info ≠ none
  inRange : ∀ pointer info index, damp.valueAt pointer = some info → info.index? = some index →
    index < config.reuseListSize
  paired : ∀ pointer info, damp.valueAt pointer = some info →
    (damp.routes info.binfo).dampInfo? = some pointer
  owned : ∀ binfo pointer, (damp.routes binfo).dampInfo? = some pointer →
    ∃ info, damp.valueAt pointer = some info ∧ info.binfo = binfo
  flagged : ∀ binfo, (damp.routes binfo).damped = true → (damp.routes binfo).dampInfo? ≠ none
  fresh : ∀ pointer info, damp.valueAt pointer = some info → pointer < damp.next

def Keeps (config : DampConfig) (run : DampRun Dampening) : Prop :=
  ∃ after contents, run = .ok after ∧ Kept config [] contents after

variable {config : DampConfig} {out : List Nat} {contents : DampList → List Nat}
  {damp : Dampening} {pointer : Nat} {list : DampList} {info : BgpDampInfo}

theorem exists_cell (found : damp.valueAt pointer = some info) :
    ∃ cell, damp.lists.cells pointer = some cell ∧ cell.value = info :=
  map_eq_some_iff.mp found

theorem initial_kept (config : DampConfig) : Kept config [] (fun _ => []) initial where
  represents := LinkedLists.empty_represents
  placed _ _ := ⟨nofun, by rintro ⟨_, _, found, _⟩; cases found⟩
  hasPlace _ _ := nofun
  inRange _ _ _ := nofun
  paired _ _ := nofun
  owned _ _ := nofun
  flagged _ := nofun
  fresh _ _ := nofun

variable {lists : LinkedLists DampList BgpDampInfo}

structure KeptAt (config : DampConfig) (out : List Nat) (contents : DampList → List Nat)
    (damp : Dampening) (pointer : Nat) : Prop where
  placed : ∀ list, pointer ∈ contents list ↔
    pointer ∉ out ∧ ∃ info, damp.valueAt pointer = some info ∧ damp.placeOf info = some list
  valid : ∀ info, damp.valueAt pointer = some info →
    (pointer ∉ out → damp.placeOf info ≠ none) ∧
    (∀ index, info.index? = some index → index < config.reuseListSize) ∧
    (damp.routes info.binfo).dampInfo? = some pointer ∧ pointer < damp.next

structure KeptRoute (damp : Dampening) (binfo : Nat) : Prop where
  owned : ∀ pointer, (damp.routes binfo).dampInfo? = some pointer →
    ∃ info, damp.valueAt pointer = some info ∧ info.binfo = binfo
  flagged : (damp.routes binfo).damped = true → (damp.routes binfo).dampInfo? ≠ none

theorem kept_iff : Kept config out contents damp ↔ damp.lists.Represents contents ∧
    (∀ pointer, KeptAt config out contents damp pointer) ∧ ∀ binfo, KeptRoute damp binfo := by
  refine ⟨?_, ?_⟩
  · intro kept
    refine ⟨kept.represents, ?_, fun binfo => ⟨kept.owned binfo, kept.flagged binfo⟩⟩
    intro pointer
    refine ⟨kept.placed pointer, fun info found => ⟨kept.hasPlace pointer info found, ?_,
      kept.paired pointer info found, kept.fresh pointer info found⟩⟩
    exact fun index => kept.inRange pointer info index found
  · rintro ⟨represents, pointers, routes⟩
    have valid := fun pointer => (pointers pointer).valid
    exact ⟨represents, fun pointer => (pointers pointer).placed,
      fun pointer info found => (valid pointer info found).1,
      fun pointer info index found => (valid pointer info found).2.1 index,
      fun pointer info found => (valid pointer info found).2.2.1,
      fun binfo => (routes binfo).owned, fun binfo => (routes binfo).flagged,
      fun pointer info found => (valid pointer info found).2.2.2⟩

variable {after : Dampening} {newOut : List Nat} {newContents : DampList → List Nat}

theorem KeptAt.congr (kept : KeptAt config out contents damp pointer)
    (value : after.valueAt pointer = damp.valueAt pointer)
    (routes : ∀ info, damp.valueAt pointer = some info →
      (pointer ∉ out → after.placeOf info = damp.placeOf info) ∧
      (after.routes info.binfo).dampInfo? = (damp.routes info.binfo).dampInfo?)
    (outs : pointer ∈ newOut ↔ pointer ∈ out)
    (members : ∀ list, pointer ∈ newContents list ↔ pointer ∈ contents list)
    (next : damp.next ≤ after.next) : KeptAt config newOut newContents after pointer := by
  refine ⟨?_, ?_⟩
  · intro list
    rw [members, kept.placed, outs, value]
    apply and_congr_right
    intro notOut
    apply exists_congr
    intro info
    apply and_congr_right
    intro found
    rw [(routes info found).1 notOut]
  · intro info found
    rw [value] at found
    rcases kept.valid info found with ⟨hasPlace, inRange, paired, fresh⟩
    refine ⟨?_, inRange, (routes info found).2.trans paired, Nat.lt_of_lt_of_le fresh next⟩
    intro notOut
    rw [outs] at notOut
    rw [(routes info found).1 notOut]
    exact hasPlace notOut

section

variable (kept : Kept config out contents damp)
include kept

theorem Kept.binfo_iff (found : damp.valueAt pointer = some info) {otherInfo : BgpDampInfo}
    (otherFound : damp.valueAt other = some otherInfo) :
    otherInfo.binfo = info.binfo ↔ other = pointer := by
  refine ⟨?_, ?_⟩
  · intro same
    have paired := kept.paired other otherInfo otherFound
    rw [same, kept.paired pointer info found] at paired
    exact (Option.some.inj paired).symm
  · rintro rfl
    cases found.symm.trans otherFound
    rfl

theorem Kept.transfer (represents : after.lists.Represents newContents)
    (own : ∀ other info, damp.valueAt other = some info → (info.binfo = binfo ↔ other = pointer))
    (values : ∀ other, other ≠ pointer → after.valueAt other = damp.valueAt other)
    (routes : ∀ other, other ≠ binfo → after.routes other = damp.routes other)
    (outs : ∀ other, other ≠ pointer → (other ∈ newOut ↔ other ∈ out))
    (members : ∀ other list, other ≠ pointer →
      (other ∈ newContents list ↔ other ∈ contents list)) (next : damp.next ≤ after.next)
    (here : KeptAt config newOut newContents after pointer) (route : KeptRoute after binfo) :
    Kept config newOut newContents after := by
  refine kept_iff.mpr ⟨represents, ?_, ?_⟩
  · intro other
    by_cases same : other = pointer
    · rw [same]
      exact here
    · apply ((kept_iff.mp kept).2.1 other).congr (values other same) _ (outs other same)
        (fun list => members other list same) next
      intro info found
      have unchanged := routes info.binfo fun isRoute => same ((own other info found).mp isRoute)
      exact ⟨fun _ => by rw [placeOf, unchanged, placeOf], congrArg DampRoute.dampInfo? unchanged⟩
  · intro other
    by_cases same : other = binfo
    · rw [same]
      exact route
    · have unchanged := routes other same
      refine ⟨?_, ?_⟩
      · intro held has
        rw [unchanged] at has
        rcases kept.owned other held has with ⟨info, found, isOwn⟩
        refine ⟨info, (values held ?_).trans found, isOwn⟩
        intro isPointer
        exact same (isOwn.symm.trans ((own held info found).mpr isPointer))
      · rw [unchanged]
        exact kept.flagged other

theorem Kept.relink (found : damp.valueAt pointer = some info) (same : lists.SameValues damp.lists)
    (represents : lists.Represents newContents)
    (outs : ∀ other, other ≠ pointer → (other ∈ newOut ↔ other ∈ out))
    (members : ∀ other list, other ≠ pointer → (other ∈ newContents list ↔ other ∈ contents list))
    (placed : ∀ list, pointer ∈ newContents list ↔ pointer ∉ newOut ∧ damp.placeOf info = some list)
    (hasPlace : pointer ∉ newOut → damp.placeOf info ≠ none) :
    Kept config newOut newContents { damp with lists := lists } := by
  have stillFound : valueAt { damp with lists := lists } pointer = some info :=
    (same pointer).trans found
  refine kept.transfer represents (fun _ _ => kept.binfo_iff found) (fun other _ => same other)
    (fun _ _ => rfl) outs members (Nat.le_refl _) ?_ ?_
  · refine ⟨?_, ?_⟩
    · intro list
      rw [placed, stillFound]
      simp only [Option.some.injEq, exists_eq_left']
      rfl
    · intro other otherFound
      cases stillFound.symm.trans otherFound
      exact ⟨hasPlace, fun index => kept.inRange pointer info index found,
        kept.paired pointer info found, kept.fresh pointer info found⟩
  · refine ⟨?_, kept.flagged info.binfo⟩
    intro other has
    rcases kept.owned _ other has with ⟨otherInfo, otherFound, isOwn⟩
    exact ⟨otherInfo, (same other).trans otherFound, isOwn⟩

theorem Kept.pull (isIn : pointer ∈ contents list) :
    ∃ lists newContents, damp.lists.unlink list pointer = some lists ∧
      lists.SameValues damp.lists ∧
      Kept config (pointer :: out) newContents { damp with lists := lists } := by
  rcases append_of_mem isIn with ⟨front, back, split⟩
  rcases LinkedLists.unlink_represents kept.represents split with
    ⟨lists, unlinked, represents, same, _⟩
  rcases (kept.placed pointer list).mp isIn with ⟨notOut, info, found, place⟩
  have notTwice : pointer ∉ front ++ back := by
    have distinct := kept.represents.distinct list
    rw [split, nodup_middle] at distinct
    exact (nodup_cons.mp distinct).1
  refine ⟨lists, _, unlinked, same, kept.relink found same represents ?_ ?_ ?_ ?_⟩
  · intro other different
    simp [different]
  · intro other otherList different
    by_cases sameList : otherList = list
    · rw [sameList, split]
      simp [different]
    · rw [update_of_ne sameList]
  · intro otherList
    refine ⟨fun still => absurd still ?_, fun impossible => absurd mem_cons_self impossible.1⟩
    by_cases sameList : otherList = list
    · rw [sameList, update_self]
      exact notTwice
    · rw [update_of_ne sameList]
      intro isThere
      rcases (kept.placed pointer otherList).mp isThere with ⟨_, own, ownFound, ownPlace⟩
      cases found.symm.trans ownFound
      exact sameList (Option.some.inj (ownPlace.symm.trans place))
  · exact fun impossible => absurd mem_cons_self impossible

end

theorem Kept.put (kept : Kept config (pointer :: out) contents damp) (notOut : pointer ∉ out)
    (found : damp.valueAt pointer = some info) (place : damp.placeOf info = some list) :
    ∃ lists newContents, damp.lists.pushFront list pointer = some lists ∧
      lists.SameValues damp.lists ∧ Kept config out newContents { damp with lists := lists } ∧
      ∀ other ∈ out, lists.cells other = damp.lists.cells other := by
  have offList : ∀ other ∈ pointer :: out, ∀ any, other ∉ contents any := by
    intro other isOut any isIn
    exact ((kept.placed other any).mp isIn).1 isOut
  rcases exists_cell found with ⟨cell, cellFound, rfl⟩
  rcases LinkedLists.pushFront_represents kept.represents list cellFound
    (offList pointer mem_cons_self) with ⟨lists, pushed, represents, same, elsewhere⟩
  refine ⟨lists, _, pushed, same, kept.relink found same represents ?_ ?_ ?_ ?_, ?_⟩
  · intro other different
    simp [different]
  · intro other otherList different
    by_cases sameList : otherList = list
    · rw [sameList]
      simp [different]
    · rw [update_of_ne sameList]
  · intro otherList
    rw [place]
    by_cases sameList : otherList = list
    · simp [sameList, notOut]
    · simp [update_of_ne sameList, offList pointer mem_cons_self otherList, Ne.symm sameList]
  · intro _
    rw [place]
    exact some_ne_none _
  · intro other isOut
    apply elsewhere other
    · rintro rfl
      exact notOut isOut
    · exact offList other (mem_cons_of_mem _ isOut) list

/-! ## Flags and values -/

theorem changeRoute_self (binfo : Nat) (edit : DampRoute → DampRoute) :
    (damp.changeRoute binfo edit).routes binfo = edit (damp.routes binfo) :=
  update_self _ _ _

theorem changeRoute_of_ne (different : other ≠ binfo) (edit : DampRoute → DampRoute) :
    (damp.changeRoute binfo edit).routes other = damp.routes other :=
  update_of_ne different _ _

theorem Kept.changeRoute (kept : Kept config out contents damp) (binfo : Nat)
    (edit : DampRoute → DampRoute)
    (sameInfo : (edit (damp.routes binfo)).dampInfo? = (damp.routes binfo).dampInfo?)
    (free : (edit (damp.routes binfo)).damped = (damp.routes binfo).damped ∨
      ∃ pointer ∈ out, (damp.routes binfo).dampInfo? = some pointer) :
    Kept config out contents (damp.changeRoute binfo edit) := by
  have infos : ∀ other, ((damp.changeRoute binfo edit).routes other).dampInfo? =
      (damp.routes other).dampInfo? := by
    intro other
    by_cases same : other = binfo
    · rw [same, changeRoute_self, sameInfo]
    · rw [changeRoute_of_ne same]
  -- Where the others belong does not depend on this route.
  have places : ∀ pointer info, damp.valueAt pointer = some info → pointer ∉ out →
      (damp.changeRoute binfo edit).placeOf info = damp.placeOf info := by
    intro pointer info found notOut
    unfold placeOf
    by_cases same : info.binfo = binfo
    · rcases free with sameFlag | ⟨own, isOut, hasOwn⟩
      · rw [same, changeRoute_self, sameFlag]
      · have paired := kept.paired pointer info found
        rw [same, hasOwn] at paired
        exact absurd (Option.some.inj paired ▸ isOut) notOut
    · rw [changeRoute_of_ne same]
  refine kept_iff.mpr ⟨kept.represents, ?_, ?_⟩
  · intro pointer
    refine ((kept_iff.mp kept).2.1 pointer).congr rfl ?_ Iff.rfl (fun _ => Iff.rfl) (Nat.le_refl _)
    intro info found
    exact ⟨places pointer info found, infos info.binfo⟩
  · intro other
    refine ⟨?_, ?_⟩
    · rw [infos]
      exact kept.owned other
    · intro isDamped
      rw [infos]
      by_cases same : other = binfo
      · subst same
        rw [changeRoute_self] at isDamped
        rcases free with sameFlag | ⟨own, _, hasOwn⟩
        · exact kept.flagged other (sameFlag ▸ isDamped)
        · rw [hasOwn]
          exact some_ne_none own
      · rw [changeRoute_of_ne same] at isDamped
        exact kept.flagged other isDamped

theorem Kept.write (kept : Kept config out contents damp) (found : damp.valueAt pointer = some info)
    (edit : BgpDampInfo → BgpDampInfo) (sameRoute : (edit info).binfo = info.binfo)
    (free : (edit info).index? = info.index? ∨
      pointer ∈ out ∧ ∀ index, (edit info).index? = some index → index < config.reuseListSize) :
    ∃ lists, damp.write pointer edit = .ok { damp with lists := lists } ∧
      Kept config out contents { damp with lists := lists } ∧
      valueAt { damp with lists := lists } pointer = some (edit info) ∧
      ∀ other, other ≠ pointer → lists.cells other = damp.lists.cells other := by
  rcases exists_cell found with ⟨cell, cellFound, rfl⟩
  let lists : LinkedLists DampList BgpDampInfo :=
    { damp.lists with
      cells := update damp.lists.cells pointer (some (cell.changeValue edit)) }
  have here : valueAt { damp with lists := lists } pointer = some (edit cell.value) := by
    simp [valueAt, lists, ListCell.changeValue]
  have elsewhere : ∀ other, other ≠ pointer →
      valueAt { damp with lists := lists } other = damp.valueAt other := by
    intro other different
    simp [valueAt, lists, update_of_ne different]
  refine ⟨lists, ?_, ?_, here, fun other different => update_of_ne different _ _⟩
  · rw [Dampening.write, LinkedLists.change_of_some cellFound]
    rfl
  · have place : pointer ∉ out → damp.placeOf (edit cell.value) = damp.placeOf cell.value := by
      intro notOut
      rcases free with sameIndex | ⟨isOut, _⟩
      · rw [placeOf, sameRoute, sameIndex, placeOf]
      · exact absurd isOut notOut
    refine kept.transfer (kept.represents.changeValue cellFound edit)
      (fun _ _ => kept.binfo_iff found) elsewhere (fun _ _ => rfl) (fun _ _ => Iff.rfl)
      (fun _ _ _ => Iff.rfl) (Nat.le_refl _) ?_ ?_
    · refine ⟨?_, ?_⟩
      · intro list
        rw [kept.placed, here, found]
        apply and_congr_right
        intro notOut
        simp only [Option.some.injEq, exists_eq_left']
        rw [← place notOut]
        rfl
      · intro other otherFound
        cases here.symm.trans otherFound
        refine ⟨?_, ?_, ?_, kept.fresh pointer _ found⟩
        · intro notOut
          have hasPlace := kept.hasPlace pointer _ found notOut
          rw [← place notOut] at hasPlace
          exact hasPlace
        · intro index hasIndex
          rcases free with sameIndex | ⟨_, bounded⟩
          · exact kept.inRange pointer _ index found (sameIndex ▸ hasIndex)
          · exact bounded index hasIndex
        · rw [sameRoute]
          exact kept.paired pointer _ found
    · refine ⟨?_, kept.flagged cell.value.binfo⟩
      intro other has
      have isPointer : other = pointer :=
        Option.some.inj (has.symm.trans (kept.paired pointer _ found))
      rw [isPointer]
      exact ⟨_, here, sameRoute⟩

/-! ## Allocation -/

theorem Kept.discard (kept : Kept config (pointer :: out) contents damp)
    (found : damp.valueAt pointer = some info) (route : DampRoute) (noInfo : route.dampInfo? = none)
    (notDamped : route.damped = false) :
    Kept config out contents { damp with
      lists := damp.lists.free pointer
      routes := update damp.routes info.binfo route } := by
  have offList : ∀ any, pointer ∉ contents any := fun any isIn =>
    ((kept.placed pointer any).mp isIn).1 mem_cons_self
  have gone : valueAt { damp with lists := damp.lists.free pointer } pointer = none := by
    simp [valueAt, LinkedLists.free]
  have noneHere : ∀ other, some other ≠ valueAt { damp with lists := damp.lists.free pointer }
      pointer := by
    simp [gone]
  apply kept.transfer (kept.represents.update offList none) (fun _ _ => kept.binfo_iff found)
  · intro other different
    simp [valueAt, LinkedLists.free, update_of_ne different]
  · exact fun other different => update_of_ne different _ _
  · intro other different
    simp [different]
  · exact fun _ _ _ => Iff.rfl
  · exact Nat.le_refl _
  · refine ⟨?_, fun other otherFound => absurd otherFound.symm (noneHere other)⟩
    intro list
    refine ⟨fun isIn => absurd isIn (offList list), ?_⟩
    rintro ⟨_, other, otherFound, _⟩
    exact absurd otherFound.symm (noneHere other)
  · refine ⟨?_, ?_⟩
    · intro other has
      simp [noInfo] at has
    · intro isDamped
      simp [notDamped] at isDamped

theorem Kept.allocate (kept : Kept config [] contents damp)
    (noInfo : (damp.routes binfo).dampInfo? = none) {new : BgpDampInfo} (own : new.binfo = binfo)
    (noIndex : new.index? = none) {route : DampRoute} (hasInfo : route.dampInfo? = some damp.next) :
    Kept config [damp.next] contents { damp with
      lists := damp.lists.allocate damp.next new
      routes := update damp.routes binfo route
      next := damp.next + 1 } := by
  have unused : damp.valueAt damp.next = none := by
    cases found : damp.valueAt damp.next with
    | none => rfl
    | some info => exact absurd (kept.fresh _ info found) (Nat.lt_irrefl _)
  have offList : ∀ any, damp.next ∉ contents any := by
    intro any isIn
    rcases (kept.placed _ any).mp isIn with ⟨_, info, found, _⟩
    rw [unused] at found
    cases found
  have here : valueAt { damp with lists := damp.lists.allocate damp.next new } damp.next =
      some new := by
    simp [valueAt, LinkedLists.allocate]
  have others : ∀ other info, damp.valueAt other = some info →
      (info.binfo = binfo ↔ other = damp.next) := by
    intro other info found
    refine ⟨?_, ?_⟩
    · intro same
      have paired := kept.paired other info found
      rw [same, noInfo] at paired
      cases paired
    · rintro rfl
      rw [unused] at found
      cases found
  have keeps : (update damp.routes binfo route binfo).dampInfo? = some damp.next := by
    rw [update_self, hasInfo]
  apply kept.transfer (kept.represents.update offList _) others
  · intro other different
    simp [valueAt, LinkedLists.allocate, update_of_ne different]
  · exact fun other different => update_of_ne different _ _
  · intro other different
    simp [different]
  · exact fun _ _ _ => Iff.rfl
  · exact Nat.le_succ _
  · refine ⟨fun list => by simp [offList list], ?_⟩
    intro info found
    cases here.symm.trans found
    refine ⟨fun impossible => absurd mem_cons_self impossible, ?_, own ▸ keeps, Nat.lt_succ_self _⟩
    intro index hasIndex
    rw [noIndex] at hasIndex
    cases hasIndex
  · refine ⟨?_, fun _ => keeps ▸ some_ne_none _⟩
    intro pointer has
    cases keeps.symm.trans has
    exact ⟨new, here, own⟩

/-! ## The functions -/

theorem info_of_valueAt (found : damp.valueAt pointer = some info) :
    ∃ cell, damp.info pointer = .ok cell ∧ cell.value = info := by
  rcases exists_cell found with ⟨cell, cellFound, same⟩
  exact ⟨cell, by rw [Dampening.info, cellFound], same⟩

section

variable (kept : Kept config (pointer :: out) contents damp) (notOut : pointer ∉ out)
  (found : damp.valueAt pointer = some info)
include kept notOut found

theorem Kept.bgpReuseListAdd (isDamped : (damp.routes info.binfo).damped = true) :
    ∃ lists newContents, damp.bgpReuseListAdd config pointer = .ok { damp with lists := lists } ∧
      Kept config out newContents { damp with lists := lists } ∧
      ∀ other ∈ out, lists.cells other = damp.lists.cells other := by
  rcases info_of_valueAt found with ⟨cell, read, rfl⟩
  have bounded : damp.bgpReuseIndex config cell.value.penalty < config.reuseListSize :=
    Nat.mod_lt _ config.hasLists
  let placedAt : BgpDampInfo → BgpDampInfo := fun info =>
    { info with index? := some (damp.bgpReuseIndex config cell.value.penalty) }
  have free : ∀ index, (placedAt cell.value).index? = some index →
      index < config.reuseListSize := by
    rintro index ⟨⟩
    exact bounded
  rcases kept.write found placedAt rfl (.inr ⟨mem_cons_self, free⟩) with
    ⟨written, write, writtenKept, here, elsewhere⟩
  have place : placeOf { damp with lists := written } (placedAt cell.value) =
      some (.reuseList (damp.bgpReuseIndex config cell.value.penalty)) := by
    exact if_pos isDamped
  rcases writtenKept.put notOut here place with ⟨lists, newContents, pushed, _, putKept, frame⟩
  refine ⟨lists, newContents, ?_, putKept, ?_⟩
  · rw [Dampening.bgpReuseListAdd, read]
    change (damp.write pointer placedAt >>= _) = _
    rw [write]
    change onLists _ (written.pushFront _ pointer) = _
    rw [pushed]
    rfl
  · intro other isOut
    rw [frame other isOut]
    apply elsewhere
    rintro rfl
    exact notOut isOut

theorem Kept.dampListAdd (notDamped : (damp.routes info.binfo).damped = false) :
    ∃ lists newContents, damp.dampListAdd pointer = .ok { damp with lists := lists } ∧
      lists.SameValues damp.lists ∧ Kept config out newContents { damp with lists := lists } ∧
      ∀ other ∈ out, lists.cells other = damp.lists.cells other := by
  have place : damp.placeOf info = some .noReuseList := by
    rw [placeOf, notDamped]
    rfl
  rcases kept.put notOut found place with ⟨lists, newContents, pushed, same, putKept, frame⟩
  refine ⟨lists, newContents, ?_, same, putKept, frame⟩
  rw [Dampening.dampListAdd, pushed]
  rfl

end

section

variable (kept : Kept config [] contents damp) (found : damp.valueAt pointer = some info)
include kept found

theorem Kept.unlinkByFlag :
    ∃ lists newContents, lists.SameValues damp.lists ∧
      Kept config [pointer] newContents { damp with lists := lists } ∧
      ∀ routes : Nat → DampRoute,
        ((damp.routes info.binfo).damped = true →
          bgpReuseListDelete { damp with routes := routes } pointer =
            .ok { damp with routes := routes, lists := lists }) ∧
        ((damp.routes info.binfo).damped = false →
          dampListDel { damp with routes := routes } pointer =
            .ok { damp with routes := routes, lists := lists }) := by
  have hasPlace := kept.hasPlace pointer info found not_mem_nil
  cases place : damp.placeOf info with
  | none => exact absurd place hasPlace
  | some list =>
    have isIn := (kept.placed pointer list).mpr ⟨not_mem_nil, info, found, place⟩
    rcases kept.pull isIn with ⟨lists, newContents, unlinked, same, pulled⟩
    refine ⟨lists, newContents, same, pulled, ?_⟩
    intro routes
    refine ⟨?_, ?_⟩
    · intro isDamped
      rw [placeOf, isDamped] at place
      rcases map_eq_some_iff.mp place with ⟨index, hasIndex, rfl⟩
      rcases @info_of_valueAt { damp with routes := routes } _ _ found with ⟨cell, read, rfl⟩
      simp [bgpReuseListDelete, read, hasIndex, unlinked, onLists]
    · intro notDamped
      rw [placeOf, notDamped] at place
      cases place
      rw [dampListDel, unlinked]
      rfl

theorem Kept.bgpDampInfoFree (withdraw : Bool) :
    Keeps config (damp.bgpDampInfoFree pointer withdraw) := by
  rcases info_of_valueAt found with ⟨cell, read, rfl⟩
  rcases kept.unlinkByFlag found with ⟨lists, newContents, same, pulled, unlink⟩
  have stillFound : valueAt { damp with lists := lists } pointer = some cell.value :=
    (same pointer).trans found
  let gone : DampRoute := ⟨false, false, (damp.routes cell.value.binfo).removed ||
    (withdraw && cell.value.lastrecord = .withdraw), none⟩
  refine ⟨_, newContents, ?_, pulled.discard stillFound gone rfl rfl⟩
  rw [Dampening.bgpDampInfoFree, read]
  let cleared := damp.changeRoute cell.value.binfo fun route => { route with dampInfo? := none }
  have unlinked : cleared.unlinkByFlag cell.value.binfo pointer =
      .ok { cleared with lists := lists } := by
    rw [Dampening.unlinkByFlag, changeRoute_self]
    cases flag : (damp.routes cell.value.binfo).damped with
    | false => exact (unlink cleared.routes).2 flag
    | true => exact (unlink cleared.routes).1 flag
  change (cleared.unlinkByFlag cell.value.binfo pointer >>= _) = _
  rw [unlinked]
  simp [Dampening.changeRoute, cleared, gone]

theorem Kept.unsuppress (isDamped : (damp.routes info.binfo).damped = true)
    (edit : BgpDampInfo → BgpDampInfo) (sameRoute : (edit info).binfo = info.binfo)
    (sameIndex : (edit info).index? = info.index?) :
    ∃ after newContents, damp.unsuppress info.binfo pointer edit = .ok after ∧
      Kept config [] newContents after ∧ after.valueAt pointer = some (edit info) := by
  rcases kept.unlinkByFlag found with ⟨unlinked, _, same, pulled, unlink⟩
  have unlinkedFound : valueAt { damp with lists := unlinked } pointer = some info :=
    (same pointer).trans found
  have clearedKept := pulled.changeRoute info.binfo
    (fun route => { route with damped := false }) rfl
    (.inr ⟨pointer, mem_singleton.mpr rfl, kept.paired pointer info found⟩)
  let cleared := Dampening.changeRoute { damp with lists := unlinked } info.binfo
    fun route => { route with damped := false }
  have notDamped : (cleared.routes info.binfo).damped = false := by
    rw [changeRoute_self]
  rcases clearedKept.dampListAdd not_mem_nil unlinkedFound notDamped with
    ⟨linked, _, add, sameLinked, linkedKept, _⟩
  have linkedFound : valueAt { cleared with lists := linked } pointer = some info :=
    (sameLinked pointer).trans unlinkedFound
  rcases linkedKept.write linkedFound edit sameRoute (.inl sameIndex) with
    ⟨written, write, writtenKept, here, _⟩
  refine ⟨_, _, ?_, writtenKept, here⟩
  change (bgpReuseListDelete { damp with routes := cleared.routes } pointer >>= _) = _
  rw [(unlink cleared.routes).1 isDamped]
  change (Dampening.dampListAdd cleared pointer >>= _) = _
  rw [add]
  exact write

theorem Kept.reconsider (penalty : Nat) :
    ∃ after newContents otherInfo, damp.reconsider config info.binfo pointer penalty = .ok after ∧
      Kept config [] newContents after ∧ after.valueAt pointer = some otherInfo := by
  rw [Dampening.reconsider]
  by_cases used : ((damp.routes info.binfo).damped && decide (penalty < config.reuseLimit)) = true
  · rw [if_pos used]
    rcases kept.unsuppress found (Bool.and_eq_true_iff.mp used).1
      (fun info => { info with suppressTime := 0 }) rfl rfl with ⟨after, _, done, afterKept, here⟩
    exact ⟨after, _, _, done, afterKept, here⟩
  · rw [if_neg used]
    exact ⟨damp, contents, info, rfl, kept, found⟩

end

theorem Kept.withdrawInfo (kept : Kept config [] contents damp) (binfo : Nat) (attrChange : Bool)
    (now : Int) :
    ∃ after newContents pointer info lastPenalty,
      damp.withdrawInfo config binfo attrChange now = .ok (after, pointer, lastPenalty) ∧
      Kept config [] newContents after ∧ after.valueAt pointer = some info ∧
      info.binfo = binfo := by
  cases has : (damp.routes binfo).dampInfo? with
  | none =>
    let new : BgpDampInfo := ⟨flapPenalty attrChange, 0, 0, binfo, none, .withdraw⟩
    let route : DampRoute := { damp.routes binfo with dampInfo? := some damp.next }
    let allocated : Dampening := { damp with
      lists := damp.lists.allocate damp.next new
      routes := update damp.routes binfo route
      next := damp.next + 1 }
    have allocatedKept : Kept config [damp.next] contents allocated := kept.allocate has rfl rfl rfl
    have here : allocated.valueAt damp.next = some new := by
      simp [valueAt, allocated, LinkedLists.allocate]
    -- A suppressed route has an information.
    have notDamped : (allocated.routes binfo).damped = false := by
      have flagged := kept.flagged binfo
      rw [has] at flagged
      simpa [allocated] using flagged
    rcases allocatedKept.dampListAdd not_mem_nil here notDamped with
      ⟨linked, newContents, add, same, linkedKept, _⟩
    refine ⟨{ allocated with lists := linked }, newContents, damp.next, new, 0, ?_, linkedKept,
      (same damp.next).trans here, rfl⟩
    rw [Dampening.withdrawInfo, has]
    change (Dampening.dampListAdd allocated damp.next >>= _) = _
    rw [add]
    rfl
  | some pointer =>
    rcases kept.owned binfo pointer has with ⟨info, found, own⟩
    rcases info_of_valueAt found with ⟨cell, read, rfl⟩
    let raised : BgpDampInfo → BgpDampInfo := fun info => { info with
      penalty := min (config.decay (now - cell.value.tUpdated) cell.value.penalty +
        flapPenalty attrChange) config.ceiling }
    rcases kept.write found raised rfl (.inl rfl) with ⟨lists, write, writtenKept, here, _⟩
    refine ⟨_, contents, pointer, raised cell.value, cell.value.penalty, ?_, writtenKept, here, own⟩
    rw [Dampening.withdrawInfo, has]
    dsimp only
    rw [read, ok_bind, write]
    rfl

theorem write_of_routes {edit : BgpDampInfo → BgpDampInfo}
    (written : damp.write pointer edit = .ok { damp with lists := lists })
    (routes : Nat → DampRoute) :
    Dampening.write { damp with routes := routes } pointer edit =
      .ok { damp with routes := routes, lists := lists } := by
  unfold Dampening.write onLists at written ⊢
  cases changed : damp.lists.change pointer (.changeValue edit) with
  | none =>
    rw [changed] at written
    cases written
  | some changedLists =>
    rw [changed] at written
    have same : changedLists = lists := congrArg Dampening.lists (Except.ok.inj written)
    rw [same]

section

variable (kept : Kept config [] contents damp)
include kept

theorem Kept.reindex (found : damp.valueAt pointer = some info)
    (isDamped : (damp.routes info.binfo).damped = true) :
    Keeps config (damp.bgpReuseListDelete pointer >>= fun unlinked =>
      unlinked.bgpReuseListAdd config pointer) := by
  rcases kept.unlinkByFlag found with ⟨unlinked, _, same, pulled, unlink⟩
  have unlinkedFound : valueAt { damp with lists := unlinked } pointer = some info :=
    (same pointer).trans found
  rcases pulled.bgpReuseListAdd not_mem_nil unlinkedFound isDamped with
    ⟨linked, newContents, add, linkedKept, _⟩
  refine ⟨_, newContents, ?_, linkedKept⟩
  rw [(unlink damp.routes).1 isDamped]
  exact add

theorem Kept.suppress (found : damp.valueAt pointer = some info)
    (notDamped : (damp.routes info.binfo).damped = false) (now : Int) :
    Keeps config (
      (damp.changeRoute info.binfo fun route => { route with damped := true }).write pointer
        (fun info => { info with suppressTime := now }) >>= fun written =>
      written.dampListDel pointer >>= fun unlinked =>
      unlinked.bgpReuseListAdd config pointer) := by
  rcases kept.write found (fun info => { info with suppressTime := now }) rfl (.inl rfl) with
    ⟨lists, write, writtenKept, here, _⟩
  rcases writtenKept.unlinkByFlag here with ⟨unlinked, _, same, pulled, unlink⟩
  have setKept := pulled.changeRoute info.binfo (fun route => { route with damped := true }) rfl
    (.inr ⟨pointer, mem_singleton.mpr rfl, kept.paired pointer info found⟩)
  let set := Dampening.changeRoute { damp with lists := unlinked } info.binfo
    fun route => { route with damped := true }
  have isDamped : (set.routes info.binfo).damped = true := by
    rw [changeRoute_self]
  rcases setKept.bgpReuseListAdd not_mem_nil ((same pointer).trans here) isDamped with
    ⟨linked, newContents, add, linkedKept, _⟩
  refine ⟨_, newContents, ?_, linkedKept⟩
  change (Dampening.write { damp with routes := set.routes } pointer _ >>= _) = _
  rw [write_of_routes write set.routes, ok_bind, (unlink set.routes).2 notDamped]
  exact add

theorem Kept.bgpDampWithdraw (binfo : Nat) (attrChange : Bool) (now : Int) :
    Keeps config (damp.bgpDampWithdraw config binfo attrChange now) := by
  rcases kept.withdrawInfo binfo attrChange now with
    ⟨noted, notedContents, pointer, info, lastPenalty, note, notedKept, found, rfl⟩
  rcases info_of_valueAt found with ⟨cell, read, rfl⟩
  let recorded : BgpDampInfo → BgpDampInfo := fun info =>
    { info with lastrecord := .withdraw, tUpdated := now }
  rcases notedKept.write found recorded rfl (.inl rfl) with ⟨lists, write, writtenKept, here, _⟩
  have historyKept := writtenKept.changeRoute cell.value.binfo
    (fun route => { route with history := true }) rfl (.inl rfl)
  rw [Dampening.bgpDampWithdraw, note]
  change Keeps config (noted.info pointer >>= _)
  rw [read]
  change Keeps config (if cell.value.binfo ≠ cell.value.binfo then _ else _)
  rw [if_neg (fun different => different rfl), write]
  change Keeps config (if _ then _ else _)
  split
  next isDamped =>
    split
    next => exact historyKept.reindex here isDamped
    next => exact ⟨_, _, rfl, historyKept⟩
  next notDamped =>
    split
    next => exact historyKept.suppress here (Bool.eq_false_iff.mpr notDamped) now
    next => exact ⟨_, _, rfl, historyKept⟩

theorem Kept.bgpDampUpdate (binfo : Nat) (now : Int) :
    Keeps config (damp.bgpDampUpdate config binfo now) := by
  cases has : (damp.routes binfo).dampInfo? with
  | none =>
    rw [Dampening.bgpDampUpdate, has]
    exact ⟨damp, contents, rfl, kept⟩
  | some pointer =>
    rcases kept.owned binfo pointer has with ⟨info, found, rfl⟩
    have seenKept := kept.changeRoute info.binfo (fun route => { route with history := false })
      rfl (.inl rfl)
    let seen := damp.changeRoute info.binfo fun route => { route with history := false }
    have seenFound : seen.valueAt pointer = some info := found
    rcases info_of_valueAt seenFound with ⟨cell, read, rfl⟩
    let penalty := config.decay (now - cell.value.tUpdated) cell.value.penalty
    let recorded : BgpDampInfo → BgpDampInfo := fun info =>
      { info with lastrecord := .update, penalty := penalty }
    rcases seenKept.write seenFound recorded rfl (.inl rfl) with
      ⟨lists, write, writtenKept, here, _⟩
    rcases writtenKept.reconsider here penalty with
      ⟨considered, _, newInfo, consider, consideredKept, consideredFound⟩
    rw [Dampening.bgpDampUpdate, has]
    change Keeps config (seen.info pointer >>= _)
    rw [read]
    change Keeps config (Dampening.write seen pointer recorded >>= _)
    rw [write, ok_bind, consider]
    split
    next =>
      rcases consideredKept.write consideredFound (fun info => { info with tUpdated := now }) rfl
        (.inl rfl) with ⟨final, finish, finalKept, _⟩
      exact ⟨_, _, finish, finalKept⟩
    next => exact consideredKept.bgpDampInfoFree consideredFound false

theorem Kept.bgpDampScan (has : (damp.routes binfo).dampInfo? = some pointer) (now : Int) :
    Keeps config (damp.bgpDampScan config binfo now) := by
  rcases kept.owned binfo pointer has with ⟨info, found, rfl⟩
  rcases info_of_valueAt found with ⟨cell, read, rfl⟩
  rw [Dampening.bgpDampScan, has]
  dsimp only
  rw [read]
  change Keeps config (if _ then _ else _)
  split
  next isDamped =>
    split
    next =>
      rcases kept.unsuppress found isDamped (fun info =>
        { info with penalty := config.reuseLimit, suppressTime := 0, tUpdated := now }) rfl rfl with
        ⟨after, newContents, done, afterKept, _⟩
      exact ⟨after, newContents, done, afterKept⟩
    next => exact ⟨damp, contents, rfl, kept⟩
  next =>
    let penalty := config.decay (now - cell.value.tUpdated) cell.value.penalty
    rcases kept.write found (fun info => { info with penalty := penalty }) rfl (.inl rfl) with
      ⟨lists, write, writtenKept, here, _⟩
    rw [write]
    split
    next => exact writtenKept.bgpDampInfoFree here true
    next =>
      rcases writtenKept.write here (fun info => { info with tUpdated := now }) rfl (.inl rfl) with
        ⟨final, finish, finalKept, _⟩
      exact ⟨_, _, finish, finalKept⟩

end

end Dampening

end Quagga.Bgp
