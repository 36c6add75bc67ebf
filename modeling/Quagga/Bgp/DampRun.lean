import Quagga.Bgp.DampLists

/-!
# The reuse timer and whole runs of dampening

The timer detaches the reuse list that is due. Its members are then on no list, but they are still
linked with each other. Freeing one of them would unlink it from the list its flag names, on which
it is not. In runs where the timer frees nothing all lists are right.
-/

namespace Quagga.Bgp

open Foundation List Function

namespace Dampening

variable {config : DampConfig} {out : List Nat} {contents : DampList → List Nat}
  {damp : Dampening} {pointer : Nat} {info : BgpDampInfo}

/-- A member of the list that is due is on no list. It goes to another one, unless its penalty has
become so small that it is freed. -/
theorem Kept.reuse (kept : Kept config (pointer :: out) contents damp) (notOut : pointer ∉ out)
    (found : damp.valueAt pointer = some info) (isDamped : (damp.routes info.binfo).damped = true)
    {now : Int} (stays : config.reuseLimit < 2 * config.decay (now - info.tUpdated) info.penalty) :
    ∃ after newContents, damp.reuse config now pointer = .ok after ∧
      Kept config out newContents after ∧
      (∀ other ∈ out, after.lists.cells other = damp.lists.cells other) ∧
      ∀ binfo, binfo ≠ info.binfo → after.routes binfo = damp.routes binfo := by
  rcases info_of_valueAt found with ⟨cell, read, rfl⟩
  let penalty := config.decay (now - cell.value.tUpdated) cell.value.penalty
  have others : ∀ other ∈ out, other ≠ pointer := by
    rintro other isOut rfl
    exact notOut isOut
  rcases kept.write found (fun info => { info with penalty := penalty, tUpdated := now }) rfl
    (.inl rfl) with ⟨lists, write, writtenKept, here, elsewhere⟩
  by_cases used : penalty < config.reuseLimit
  · let edit : DampRoute → DampRoute := fun route =>
      { route with
        damped := false
        history := route.history && cell.value.lastrecord ≠ .update }
    have clearedKept := writtenKept.changeRoute cell.value.binfo edit rfl
      (.inr ⟨pointer, mem_cons_self, kept.paired pointer _ found⟩)
    rcases clearedKept.write here (fun info => { info with suppressTime := 0 }) rfl (.inl rfl) with
      ⟨timed, writeTime, timedKept, timedFound, timedElsewhere⟩
    let cleared := Dampening.changeRoute { damp with lists := timed } cell.value.binfo edit
    have notDamped : (cleared.routes cell.value.binfo).damped = false := by
      rw [changeRoute_self]
    rcases timedKept.dampListAdd notOut timedFound notDamped with
      ⟨linked, newContents, add, _, linkedKept, frame⟩
    refine ⟨{ cleared with lists := linked }, newContents, ?_, linkedKept, ?_, ?_⟩
    · rw [reuse, read]
      change (damp.write pointer _ >>= _) = _
      rw [write]
      change (if penalty < config.reuseLimit then _ else _) = _
      rw [if_pos used, writeTime, ok_bind, if_neg (Nat.not_le.mpr stays)]
      exact add
    · intro other isOut
      have different := others other isOut
      exact (frame other isOut).trans ((timedElsewhere other different).trans
        (elsewhere other different))
    · intro binfo different
      exact changeRoute_of_ne different edit
  · rcases writtenKept.bgpReuseListAdd notOut here isDamped with
      ⟨linked, newContents, add, linkedKept, frame⟩
    refine ⟨{ damp with lists := linked }, newContents, ?_, linkedKept, ?_, fun _ _ => rfl⟩
    · rw [reuse, read]
      change (damp.write pointer _ >>= _) = _
      rw [write]
      change (if penalty < config.reuseLimit then _ else _) = _
      rw [if_neg used]
      exact add
    · intro other isOut
      exact (frame other isOut).trans (elsewhere other (others other isOut))

/-- The members of the detached list that the timer has not come to yet. -/
structure Due (config : DampConfig) (now : Int) (prev? : Option Nat) (due : List Nat)
    (damp : Dampening) : Prop where
  linked : LinkedLists.Segment damp.lists.cells prev? due none
  distinct : due.Nodup
  suppressed : ∀ pointer ∈ due, ∃ info, damp.valueAt pointer = some info ∧
    (damp.routes info.binfo).damped = true ∧
    config.reuseLimit < 2 * config.decay (now - info.tUpdated) info.penalty

theorem Kept.reuseLoop {now : Int} {prev? : Option Nat} {due : List Nat} {fuel : Nat}
    (kept : Kept config due contents damp) (isDue : Due config now prev? due damp)
    (enough : due.length ≤ fuel) : Keeps config (reuseLoop config now fuel due.head? damp) := by
  induction due generalizing damp contents prev? fuel with
  | nil =>
    cases fuel with
    | zero => exact ⟨damp, contents, rfl, kept⟩
    | succ fuel => exact ⟨damp, contents, rfl, kept⟩
  | cons pointer rest induction =>
    cases fuel with
    | zero => exact absurd enough (Nat.not_succ_le_zero _)
    | succ fuel =>
      rcases nodup_cons.mp isDue.distinct with ⟨notOut, restDistinct⟩
      rcases isDue.linked with ⟨⟨value, cellFound⟩, restLinked⟩
      rcases isDue.suppressed pointer mem_cons_self with ⟨info, found, isDamped, stays⟩
      rcases kept.reuse notOut found isDamped stays with
        ⟨after, newContents, reused, afterKept, sameCells, sameRoutes⟩
      have afterDue : Due config now (some pointer) rest after := by
        refine ⟨restLinked.frame sameCells, restDistinct, ?_⟩
        intro other isIn
        rcases isDue.suppressed other (mem_cons_of_mem _ isIn) with
          ⟨otherInfo, otherFound, otherDamped, otherStays⟩
        have different : otherInfo.binfo ≠ info.binfo := by
          intro same
          exact notOut ((kept.binfo_iff found otherFound).mp same ▸ isIn)
        refine ⟨otherInfo, ?_, ?_, otherStays⟩
        · rw [valueAt, sameCells other isIn]
          exact otherFound
        · rw [sameRoutes _ different]
          exact otherDamped
      have read : damp.info pointer = .ok ⟨value, rest.head?, prev?⟩ := by
        rw [Dampening.info, cellFound, Option.or_none]
      rw [head?_cons, reuseLoop, read, reused]
      exact induction afterKept afterDue (Nat.le_of_succ_le_succ enough)

theorem Kept.length_le (kept : Kept config [] contents damp) (list : DampList) :
    (contents list).length ≤ damp.next := by
  have bounded : contents list ⊆ List.range damp.next := by
    intro pointer isIn
    rcases (kept.placed pointer list).mp isIn with ⟨_, info, found, _⟩
    exact mem_range.mpr (kept.fresh pointer info found)
  have within := (subperm_of_subset (kept.represents.distinct list) bounded).length_le
  rwa [length_range] at within

def TimerFreesNothing (config : DampConfig) (damp : Dampening) (now : Int) : Prop :=
  ∀ pointer < damp.next, ∀ info ∈ damp.valueAt pointer,
    damp.placeOf info = some (.reuseList damp.reuseOffset) →
    config.reuseLimit < 2 * config.decay (now - info.tUpdated) info.penalty

instance (config : DampConfig) (damp : Dampening) (now : Int) :
    Decidable (TimerFreesNothing config damp now) := by
  unfold TimerFreesNothing
  infer_instance

theorem Kept.detach (kept : Kept config [] contents damp) (list : DampList) :
    Kept config (contents list) (update contents list [])
      { damp with lists := damp.lists.setHead list none } := by
  refine ⟨kept.represents.detach list, ?_, ?_, kept.inRange, kept.paired, kept.owned, kept.flagged,
    kept.fresh⟩
  · intro pointer other
    change _ ↔ _ ∧ ∃ info, damp.valueAt pointer = some info ∧ damp.placeOf info = some other
    by_cases isList : other = list
    · subst isList
      rw [kept.placed]
      simp
    · rw [update_of_ne isList, kept.placed]
      refine ⟨?_, fun belongs => ⟨not_mem_nil, belongs.2⟩⟩
      rintro ⟨_, info, found, place⟩
      refine ⟨?_, info, found, place⟩
      intro isIn
      rcases (kept.placed pointer list).mp isIn with ⟨_, own, ownFound, ownPlace⟩
      cases found.symm.trans ownFound
      exact isList (Option.some.inj (place.symm.trans ownPlace))
  · intro pointer info found _
    exact kept.hasPlace pointer info found not_mem_nil

section

variable (kept : Kept config [] contents damp) {now : Int}
  (freesNothing : TimerFreesNothing config damp now)
include kept freesNothing

theorem Kept.due : Due config now none (contents (.reuseList damp.reuseOffset)) damp := by
  refine ⟨kept.represents.linked _, kept.represents.distinct _, ?_⟩
  intro pointer isIn
  rcases (kept.placed pointer _).mp isIn with ⟨_, info, found, place⟩
  refine ⟨info, found, ?_, freesNothing pointer (kept.fresh pointer info found) info found place⟩
  by_contra notDamped
  rw [placeOf, if_neg notDamped] at place
  cases place

theorem Kept.bgpReuseTimer : Keeps config (damp.bgpReuseTimer config now) := by
  have detached := kept.detach (.reuseList damp.reuseOffset)
  have isDue := kept.due freesNothing
  let rotated : Dampening := { damp with
    lists := damp.lists.setHead (.reuseList damp.reuseOffset) none
    reuseOffset := (damp.reuseOffset + 1) % config.reuseListSize }
  have rotatedKept : Kept config (contents (.reuseList damp.reuseOffset))
      (update contents (.reuseList damp.reuseOffset) []) rotated :=
    ⟨detached.represents, detached.placed, detached.hasPlace, detached.inRange, detached.paired,
      detached.owned, detached.flagged, detached.fresh⟩
  have rotatedDue : Due config now none (contents (.reuseList damp.reuseOffset)) rotated :=
    ⟨isDue.linked, isDue.distinct, isDue.suppressed⟩
  rw [Dampening.bgpReuseTimer, kept.represents.first]
  exact rotatedKept.reuseLoop rotatedDue (kept.length_le _)

end

end Dampening

/-! ## Runs -/

/-- What the lists are to be between the events. The links of every list are consistent. Each
information is on one list, the one that the flag of its route and its index name, and this list
exists. What is reachable from a head has not been freed. -/
structure ListsConsistent (config : DampConfig) (contents : DampList → List Nat)
    (damp : Dampening) : Prop where
  linked : damp.lists.Represents contents
  onItsList : ∀ pointer info, damp.valueAt pointer = some info →
    ∃ list, damp.placeOf info = some list ∧ ∀ other, pointer ∈ contents other ↔ other = list
  inTable : ∀ pointer index, pointer ∈ contents (.reuseList index) → index < config.reuseListSize
  live : ∀ list, ∀ pointer ∈ contents list, (damp.lists.cells pointer).isSome

def Permitted (config : DampConfig) (damp : Dampening) : DampEvent → Prop
  | .reuseTimer now => damp.TimerFreesNothing config now
  | _ => True

instance (config : DampConfig) (damp : Dampening) (event : DampEvent) :
    Decidable (Permitted config damp event) := by
  cases event <;> unfold Permitted <;> infer_instance

variable {config : DampConfig} {contents : DampList → List Nat} {damp : Dampening}

open Dampening

theorem Dampening.Kept.listsConsistent (kept : Kept config [] contents damp) :
    ListsConsistent config contents damp where
  linked := kept.represents
  onItsList pointer info found := by
    cases place : damp.placeOf info with
    | none => exact absurd place (kept.hasPlace pointer info found not_mem_nil)
    | some list =>
      refine ⟨list, rfl, ?_⟩
      intro other
      rw [kept.placed]
      refine ⟨?_, ?_⟩
      · rintro ⟨_, own, ownFound, ownPlace⟩
        cases found.symm.trans ownFound
        exact Option.some.inj (ownPlace.symm.trans place)
      · rintro rfl
        exact ⟨not_mem_nil, info, found, place⟩
  inTable pointer index isIn := by
    rcases (kept.placed pointer _).mp isIn with ⟨_, info, found, place⟩
    by_cases isDamped : (damp.routes info.binfo).damped = true
    · rw [placeOf, if_pos isDamped] at place
      rcases Option.map_eq_some_iff.mp place with ⟨own, hasIndex, same⟩
      cases same
      exact kept.inRange pointer info index found hasIndex
    · rw [placeOf, if_neg isDamped] at place
      cases place
  live list pointer isIn := by
    rcases kept.represents.exists_cell isIn with ⟨cell, found⟩
    rw [found]
    rfl

theorem Dampening.Kept.dampStep (kept : Kept config [] contents damp) {event : DampEvent}
    (permitted : Permitted config damp event) {result : Except DampFault Dampening}
    (taken : Bgp.dampStep config damp event = some result) : Keeps config result := by
  cases event with
  | withdraw binfo attrChange now =>
    cases taken
    exact kept.bgpDampWithdraw binfo attrChange now
  | update binfo now =>
    cases taken
    exact kept.bgpDampUpdate binfo now
  | scan binfo now =>
    rw [Bgp.dampStep] at taken
    cases has : (damp.routes binfo).dampInfo? with
    | none =>
      rw [has] at taken
      cases taken
    | some pointer =>
      rw [has] at taken
      cases taken
      exact kept.bgpDampScan has now
  | reuseTimer now =>
    cases taken
    exact kept.bgpReuseTimer permitted
  | free pointer withdraw =>
    rw [Bgp.dampStep] at taken
    cases found : damp.lists.cells pointer with
    | none =>
      rw [found] at taken
      cases taken
    | some cell =>
      rw [found] at taken
      cases taken
      exact kept.bgpDampInfoFree (by rw [valueAt, found, Option.map_some]) withdraw

/-- In runs where the timer frees nothing the lists are consistent after every event, and no event
goes wrong. -/
theorem listsConsistent_of_run (config : DampConfig) {events : List DampEvent}
    (run : Guarded (dampStep config) (Permitted config) .initial events damp) :
    (∃ contents, ListsConsistent config contents damp) ∧
      ∀ event fault, Permitted config damp event →
        dampStep config damp event ≠ some (.error fault) := by
  have kept : ∃ contents, Kept config [] contents damp := by
    apply run.invariant _ ⟨_, initial_kept config⟩
    intro state event next isKept permitted taken
    rcases isKept with ⟨contents, kept⟩
    rcases kept.dampStep permitted taken with ⟨after, newContents, same, afterKept⟩
    cases same
    exact ⟨newContents, afterKept⟩
  rcases kept with ⟨contents, kept⟩
  refine ⟨⟨contents, kept.listsConsistent⟩, ?_⟩
  intro event fault permitted taken
  rcases kept.dampStep permitted taken with ⟨_, _, same, _⟩
  cases same

def shortMemory : DampConfig where
  suppressValue := 2000
  reuseLimit := 750
  maxSuppressTime := 3600
  ceiling := 12000
  decay elapsed penalty := if elapsed < 90 then penalty else 0
  reuseIndex _ := 0
  reuseListSize := 256
  hasLists := by decide

def suppressOne : List DampEvent := [.withdraw 1 false 0, .withdraw 0 false 0, .withdraw 0 false 0]

theorem suppressOne_listsConsistent :
    ∃ damp, Guarded (dampStep shortMemory) (Permitted shortMemory) .initial
        (suppressOne ++ [.reuseTimer 60, .update 0 70]) damp ∧
      ∃ contents, ListsConsistent shortMemory contents damp := by
  have runs : (execute (fun damp event => if Permitted shortMemory damp event then
      dampStep shortMemory damp event else none) .initial
      (suppressOne ++ [.reuseTimer 60, .update 0 70])).isSome = true := by
    decide +kernel
  rcases Option.isSome_iff_exists.mp runs with ⟨damp, executed⟩
  have run := guarded_of_execute executed
  exact ⟨damp, run, (listsConsistent_of_run shortMemory run).1⟩

theorem not_listsConsistent_of_lost {pointer : Nat} {info : BgpDampInfo}
    (empty : damp.lists.heads .noReuseList = none) (found : damp.valueAt pointer = some info)
    (notDamped : (damp.routes info.binfo).damped = false) :
    ¬ ListsConsistent config contents damp := by
  intro consistent
  rcases consistent.onItsList pointer info found with ⟨list, place, isOn⟩
  rw [placeOf, notDamped] at place
  cases place
  have isIn := (isOn .noReuseList).mpr rfl
  have first := consistent.linked.first .noReuseList
  rw [empty] at first
  rw [head?_eq_none_iff.mp first.symm] at isIn
  cases isIn

/-- The timer frees the information of route 0, which is on no list. That empties the list with
the information of route 1. -/
theorem reuseTimer_loses_noReuseList :
    (∀ earlier later penalty, earlier ≤ later →
      shortMemory.decay later penalty ≤ shortMemory.decay earlier penalty) ∧
    ∃ damp, Transitions (dampStep shortMemory) .initial (suppressOne ++ [.reuseTimer 100]) damp ∧
      ∀ contents, ¬ ListsConsistent shortMemory contents damp := by
  refine ⟨?_, ?_⟩
  · intro earlier later penalty notAfter
    simp only [shortMemory]
    split <;> split <;> omega
  · have runs : (execute (dampStep shortMemory) .initial (suppressOne ++ [.reuseTimer 100])).map
        (fun damp => (damp.lists.heads .noReuseList, damp.valueAt 0, (damp.routes 1).damped)) =
        some (none, some ⟨1000, 0, 0, 1, none, .withdraw⟩, false) := by
      decide +kernel
    rcases Option.map_eq_some_iff.mp runs with ⟨damp, executed, read⟩
    simp only [Prod.mk.injEq] at read
    rcases read with ⟨empty, found, notDamped⟩
    refine ⟨damp, transitions_of_execute executed, ?_⟩
    intro contents
    exact not_listsConsistent_of_lost empty found notDamped

end Quagga.Bgp
