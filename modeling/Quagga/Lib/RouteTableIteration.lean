import Quagga.Lib.RouteTableOrder
import Quagga.Lib.RouteTableRun

/-!
# Runs of an iteration

An iterator over a table that its users change returns prefixes in increasing order, and every
node that was there all the time.
-/

namespace Quagga.Lib

open Foundation Bgp List RouteTable

variable {Info : Type} {afi : Afi} {tree : RouteTree Info}

namespace RouteTable

/-! ## Changes while a lock is held -/

variable {table : RouteTable Info} {current pointer : Nat} {value : RouteEntry Info}

def Remains (current : Nat) (value : RouteEntry Info) (after : RouteTree Info) : Prop :=
  ∃ entry, (current, entry) ∈ after.entries ∧ entry.p = value.p ∧ Releasable entry

theorem Grown.remains {after : RouteTree Info} (grown : Grown tree after)
    (member : (current, value) ∈ tree.entries) (releasable : Releasable value) :
    Remains current value after := by
  rcases grown _ member with ⟨lock, more, isIn⟩
  refine ⟨_, isIn, rfl, ?_⟩
  rcases releasable with shared | ⟨once, noInfo⟩
  · exact .inl (Nat.le_trans shared more)
  · rcases Nat.lt_or_eq_of_le more with greater | same
    · left
      change value.lock < lock at greater
      change 2 ≤ lock
      omega
    · exact .inr ⟨same.symm.trans once, noInfo⟩

/-- The table as its users see it who do not count on the lock of the holder. -/
def without (table : RouteTable Info) (current : Nat) : RouteTable Info :=
  { table with nodes := table.nodes.change current (Cell.changeValue released) }

theorem without_self {node : RouteNode Info} (found : table.nodes current = some node) :
    (table.without current).nodes current = some (node.changeValue released) :=
  Store.change_self found _

theorem without_of_ne (different : pointer ≠ current) :
    (table.without current).nodes pointer = table.nodes pointer :=
  Store.change_of_ne different _ _

section

variable (shaped : table.Shaped afi tree) (member : (current, value) ∈ tree.entries)
  (releasable : Releasable value)
include shaped member releasable

theorem Shaped.setInfo_remains {info? : Option Info}
    (permits : (table.without current).Permits afi (.setInfo pointer info?)) :
    ∃ after afterTree, table.setInfo pointer info? = .ok after ∧ after.Shaped afi afterTree ∧
      Remains current value afterTree := by
  rcases permits with ⟨node, found, isHeld⟩
  by_cases same : pointer = current
  · subst same
    rcases shaped.layout.exists_node member with ⟨context, left, right, rfl, own⟩
    rw [without_self own] at found
    cases found
    have shared : 2 ≤ value.lock := by
      change 0 < value.lock - 1 at isHeld
      omega
    rcases shaped.setInfo (Nat.lt_of_lt_of_le Nat.zero_lt_two shared) info? with
      ⟨after, taken, afterShaped⟩
    exact ⟨after, _, taken, afterShaped, _, mem_entries_plug _ _ _ _ _, rfl, .inl shared⟩
  · rw [without_of_ne same] at found
    rcases shaped.layout.exists_node (shaped.layout.mem_entries found) with
      ⟨context, left, right, rfl, _⟩
    rcases shaped.setInfo isHeld info? with ⟨after, taken, afterShaped⟩
    refine ⟨after, _, taken, afterShaped, value, ?_, rfl, releasable⟩
    rw [mem_entries_changed (fun equal => same (congrArg Prod.fst equal).symm)
      (fun equal => same (congrArg Prod.fst equal).symm)]
    exact member

theorem Shaped.unlock_remains (permits : (table.without current).Permits afi (.unlock pointer)) :
    ∃ after afterTree, table.routeUnlockNode pointer = .ok after ∧ after.Shaped afi afterTree ∧
      Remains current value afterTree := by
  rcases permits with ⟨node, found, isHeld⟩
  by_cases same : pointer = current
  · subst same
    rcases shaped.layout.exists_node member with ⟨context, left, right, _, own⟩
    rw [without_self own] at found
    cases found
    have still : Releasable (released value) := isHeld
    have shared : 2 ≤ value.lock := by
      have positive := still.isHeld
      change 0 < value.lock - 1 at positive
      omega
    rcases shaped.unlockAt member (.inl shared) with ⟨after, afterTree, taken, afterShaped, prune⟩
    exact ⟨after, afterTree, taken, afterShaped, released value,
      prune.held _ (mem_changeAt_self member released) still.isHeld, rfl, still⟩
  · rw [without_of_ne same] at found
    rcases shaped.unlockAt (shaped.layout.mem_entries found) isHeld with
      ⟨after, afterTree, taken, afterShaped, prune⟩
    refine ⟨after, afterTree, taken, afterShaped, value, ?_, rfl, releasable⟩
    exact prune.held _ (mem_changeAt_of_ne member (Ne.symm same) released) releasable.isHeld

theorem Shaped.step_remains {event : TableEvent Info}
    (permits : (table.without current).Permits afi event) :
    ∃ after afterTree, tableStep table event = some (.ok after) ∧ after.Shaped afi afterTree ∧
      Remains current value afterTree := by
  cases event with
  | findMatch p =>
    rcases shaped.longest permits with ⟨after, _, afterTree, taken, afterShaped, _, grown, _⟩
    exact ⟨after, afterTree, by rw [tableStep, taken]; rfl, afterShaped,
      grown.remains member releasable⟩
  | lookup p =>
    rcases shaped.lookup permits with ⟨after, _, afterTree, taken, afterShaped, _, grown, _⟩
    exact ⟨after, afterTree, by rw [tableStep, taken]; rfl, afterShaped,
      grown.remains member releasable⟩
  | get p =>
    rcases shaped.get permits with
      ⟨after, _, taken, ⟨afterTree, _, afterShaped, _, grown, _⟩, _⟩
    exact ⟨after, afterTree, by rw [tableStep, taken]; rfl, afterShaped,
      grown.remains member releasable⟩
  | setInfo pointer info? =>
    rcases shaped.setInfo_remains member releasable permits with
      ⟨after, afterTree, taken, afterShaped, remains⟩
    exact ⟨after, afterTree, congrArg some taken, afterShaped, remains⟩
  | unlock pointer =>
    rcases shaped.unlock_remains member releasable permits with
      ⟨after, afterTree, taken, afterShaped, remains⟩
    exact ⟨after, afterTree, congrArg some taken, afterShaped, remains⟩

end

end RouteTable

namespace Iteration

/-! ## Where an iterator stands -/

/-- What the state of an iterator says about the last prefix it returned. -/
inductive Place (afi : Afi) (tree : RouteTree Info) : RouteTableIter → Option Prefix → Prop where
  | init : Place afi tree .init none
  | iterating (pointer : Nat) (value : RouteEntry Info) (member : (pointer, value) ∈ tree.entries)
      (releasable : RouteTable.Releasable value) :
      Place afi tree (.iterating pointer) (some value.p)
  | paused (p : Prefix) (isOf : IsOf afi p) : Place afi tree (.paused p) (some p)
  | done (last? : Option Prefix) : Place afi tree .done last?

structure Sound (afi : Afi) (tree : RouteTree Info) (iteration : Iteration Info) : Prop where
  shaped : iteration.table.Shaped afi tree
  place : Place afi tree iteration.iter iteration.returned.getLast?
  family : ∀ p ∈ iteration.returned, IsOf afi p
  sorted : (iteration.returned.map networkBits).Pairwise (· < ·)

def isAbove (last? : Option Prefix) (bits : List Bool) : Bool :=
  last?.all fun last => decide (networkBits last < bits)

/-- The entry the iterator goes to next. -/
def nextEntry (tree : RouteTree Info) (last? : Option Prefix) : Option (Nat × RouteEntry Info) :=
  tree.entries.find? fun entry => isAbove last? entry.2.bits

variable {iteration : Iteration Info}

theorem Sound.advance (sound : iteration.Sound afi tree) (going : iteration.iter ≠ .done) :
    ∃ after afterTree,
      iteration.iter.advance iteration.table =
        .ok (after, (nextEntry tree iteration.returned.getLast?).map Prod.fst) ∧
      RouteTable.Arrived afi tree (nextEntry tree iteration.returned.getLast?) after afterTree := by
  rcases iteration with ⟨table, iter, returned⟩
  have place := sound.place
  generalize returned.getLast? = last? at place
  cases place with
  | init =>
    have first : nextEntry tree none = tree.entries.head? := by
      rw [nextEntry]
      cases tree.entries <;> rfl
    rw [first]
    exact sound.shaped.routeTop
  | iterating pointer value member releasable => exact sound.shaped.routeNext member releasable
  | paused p isOf => exact sound.shaped.getNext isOf
  | done last? => exact absurd rfl going

variable {last? : Option Prefix}

theorem nextEntry_spec {entry : Nat × RouteEntry Info} (ordered : tree.Ordered RouteEntry.bits)
    (found : nextEntry tree last? = some entry) :
    entry ∈ tree.entries ∧ isAbove last? entry.2.bits = true ∧
      ∃ lower higher : List (Nat × RouteEntry Info), tree.entries = lower ++ entry :: higher ∧
        (∀ other ∈ lower, isAbove last? other.2.bits = false ∧ other.2.bits < entry.2.bits) ∧
        ∀ other ∈ higher, entry.2.bits < other.2.bits := by
  rcases find?_eq_some_iff_append.mp found with ⟨above, lower, higher, split, notAbove⟩
  have sorted := ordered.sorted
  rw [split, pairwise_append, pairwise_cons] at sorted
  refine ⟨mem_of_find?_eq_some found, above, lower, higher, split, ?_, sorted.2.1.1⟩
  intro other isLower
  exact ⟨by simpa using notAbove other isLower, sorted.2.2 other isLower entry mem_cons_self⟩

theorem isAbove_of_lt {bits more : List Bool} (above : isAbove last? bits = true)
    (less : bits < more) : isAbove last? more = true := by
  cases last? with
  | none => rfl
  | some last =>
    simp only [isAbove, Option.all_some, decide_eq_true_eq] at above ⊢
    exact lt_trans above less

variable {bits : List Bool}

theorem exists_last_of_not_isAbove (notAbove : isAbove last? bits = false) :
    ∃ last ∈ last?, bits ≤ networkBits last := by
  cases last? with
  | none => cases notAbove
  | some last =>
    simpa [isAbove] using notAbove

/-! ## The next node -/

/-- The ways `route_table_iter_next` can end. -/
inductive Moves (tree : RouteTree Info) (iteration next : Iteration Info) : Prop where
  | stays (isDone : iteration.iter = .done) (same : next = iteration)
  | ends (going : iteration.iter ≠ .done)
      (none : nextEntry tree iteration.returned.getLast? = none) (isDone : next.iter = .done)
      (same : next.returned = iteration.returned)
  | goes (entry : Nat × RouteEntry Info) (going : iteration.iter ≠ .done)
      (found : nextEntry tree iteration.returned.getLast? = some entry)
      (iterating : next.iter = .iterating entry.1)
      (more : next.returned = iteration.returned ++ [entry.2.p])

theorem sorted_concat {returned : List Prefix} {p : Prefix}
    (sorted : (returned.map networkBits).Pairwise (· < ·))
    (above : isAbove returned.getLast? (networkBits p) = true) :
    ((returned ++ [p]).map networkBits).Pairwise (· < ·) := by
  rw [map_append, pairwise_append]
  refine ⟨sorted, pairwise_singleton _ _, ?_⟩
  intro bits isIn other isNew
  cases mem_singleton.mp isNew
  -- All are at most the last one, which is below the new one.
  cases returned using List.reverseRecOn with
  | nil => cases isIn
  | append_singleton earlier last =>
    have less : networkBits last < networkBits p := by simpa [isAbove] using above
    rw [map_append, pairwise_append] at sorted
    rw [map_append, mem_append] at isIn
    rcases isIn with isEarlier | isLast
    · exact lt_trans (sorted.2.2 bits isEarlier _ (by simp)) less
    · cases mem_singleton.mp isLast
      exact less

theorem routeTableIterNext_of_none {after : RouteTable Info}
    (advanced : iteration.iter.advance iteration.table = .ok (after, none)) :
    iteration.routeTableIterNext = .ok ⟨after, .done, iteration.returned⟩ := by
  rw [routeTableIterNext, advanced]
  rfl

section

variable (sound : iteration.Sound afi tree)
include sound

theorem Sound.next :
    ∃ next afterTree, iteration.routeTableIterNext = .ok next ∧ next.Sound afi afterTree ∧
      (keysOf afterTree).Sublist (keysOf tree) ∧ Moves tree iteration next := by
  by_cases going : iteration.iter = .done
  · refine ⟨iteration, tree, ?_, sound, .refl _, .stays going rfl⟩
    have advanced : iteration.iter.advance iteration.table = .ok (iteration.table, none) := by
      rw [going]
      rfl
    rw [routeTableIterNext_of_none advanced, ← going]
  · rcases sound.advance going with ⟨after, afterTree, advanced, arrived⟩
    cases found : nextEntry tree iteration.returned.getLast? with
    | none =>
      rw [found] at advanced
      exact ⟨_, afterTree, routeTableIterNext_of_none advanced,
        ⟨arrived.shaped, .done _, sound.family, sound.sorted⟩, arrived.keys,
        .ends going found rfl rfl⟩
    | some entry =>
      rcases nextEntry_spec sound.shaped.ordered found with ⟨isIn, above, _⟩
      rw [found] at advanced arrived
      rcases arrived.target entry rfl with ⟨value, member, sameNetwork, releasable⟩
      rcases arrived.shaped.layout.exists_node member with ⟨context, left, right, _, node⟩
      refine ⟨⟨after, .iterating entry.1, iteration.returned ++ [value.p]⟩, afterTree, ?_, ?_,
        arrived.keys, .goes entry going found rfl (by rw [sameNetwork])⟩
      · simp [routeTableIterNext, advanced, node_of_some node]
      refine ⟨arrived.shaped, ?_, ?_, ?_⟩
      · rw [getLast?_concat]
        exact .iterating entry.1 value member releasable
      · apply forall_mem_append.mpr ⟨sound.family, forall_mem_singleton.mpr _⟩
        rw [sameNetwork]
        exact sound.shaped.family entry isIn
      · apply sorted_concat sound.sorted
        rw [sameNetwork]
        exact above

/-! ## Pauses -/

theorem Sound.pause :
    ∃ next afterTree, iteration.routeTableIterPause = .ok next ∧ next.Sound afi afterTree ∧
      (keysOf afterTree).Sublist (keysOf tree) ∧
      next.returned = iteration.returned ∧ (next.iter = .done ↔ iteration.iter = .done) := by
  rcases iteration with ⟨table, iter, returned⟩
  have place := sound.place
  generalize remembered : returned.getLast? = last? at place
  cases place with
  | init | paused | done => exact ⟨_, tree, rfl, sound, .refl _, rfl, Iff.rfl⟩
  | iterating pointer value member releasable =>
    rcases sound with ⟨shaped, _, family, sorted⟩
    rcases shaped.layout.exists_node member with ⟨context, left, right, _, node⟩
    rcases shaped.unlockAt member releasable with ⟨after, afterTree, unlock, afterShaped, prune⟩
    refine ⟨⟨after, .paused value.p, returned⟩, afterTree, ?_,
      ⟨afterShaped, remembered ▸ .paused value.p (shaped.family _ member), family, sorted⟩,
      prune.keys, rfl, nofun, nofun⟩
    change (table.node pointer >>= fun node => table.routeUnlockNode pointer >>= _) = _
    rw [node_of_some node, unlock]
    rfl

/-! ## Changes of the table -/

theorem Sound.change {event : TableEvent Info} (permits : iteration.withoutLock.Permits afi event) :
    ∃ table afterTree, tableStep iteration.table event = some (.ok table) ∧
      Sound afi afterTree { iteration with table := table } := by
  rcases iteration with ⟨table, iter, returned⟩
  rcases sound with ⟨shaped, place, family, sorted⟩
  generalize remembered : returned.getLast? = last? at place
  cases place with
  | init | paused | done =>
    rcases shaped.step permits with ⟨after, afterTree, taken, afterShaped, _⟩
    refine ⟨after, afterTree, taken, afterShaped, ?_, family, sorted⟩
    rw [remembered]
    constructor
    all_goals assumption
  | iterating pointer value member releasable =>
    rcases shaped.step_remains member releasable permits with
      ⟨after, afterTree, taken, afterShaped, entry, isIn, sameNetwork, still⟩
    refine ⟨after, afterTree, taken, afterShaped, ?_, family, sorted⟩
    rw [remembered, ← sameNetwork]
    exact .iterating pointer entry isIn still

theorem Sound.step {event : IterationEvent Info} (permits : iteration.Permits afi event) :
    ∃ next afterTree, iterationStep iteration event = some (.ok next) ∧
      next.Sound afi afterTree := by
  cases event with
  | next =>
    rcases sound.next with ⟨next, afterTree, taken, nextSound, _⟩
    exact ⟨next, afterTree, congrArg some taken, nextSound⟩
  | pause =>
    rcases sound.pause with ⟨next, afterTree, taken, nextSound, _⟩
    exact ⟨next, afterTree, congrArg some taken, nextSound⟩
  | change event =>
    rcases sound.change permits with ⟨table, afterTree, taken, nextSound⟩
    exact ⟨_, afterTree, by rw [iterationStep, taken]; rfl, nextSound⟩

end

/-! ## Completeness -/

/-- A network that the iterator has passed was returned. -/
def Covered (bits : List Bool) (iteration : Iteration Info) : Prop :=
  (iteration.iter = .done ∨ ∃ last ∈ iteration.returned.getLast?, bits ≤ networkBits last) →
    bits ∈ iteration.returned.map networkBits

variable {next : Iteration Info}

theorem Moves.covered (ordered : tree.Ordered RouteEntry.bits) (present : bits ∈ keysOf tree)
    (moves : Moves tree iteration next) (covered : iteration.Covered bits) : next.Covered bits := by
  rcases mem_map.mp present with ⟨own, isIn, rfl⟩
  cases moves with
  | stays isDone same => exact same ▸ covered
  | ends going none isDone same =>
    intro _
    rw [same]
    apply covered
    have notAbove := find?_eq_none.mp none own isIn
    exact .inr (exists_last_of_not_isAbove (by simpa using notAbove))
  | goes entry going found iterating more =>
    rcases nextEntry_spec ordered found with
      ⟨_, above, lower, higher, split, lowerBelow, higherAbove⟩
    rintro (isDone | ⟨last, isLast, atMost⟩)
    · rw [iterating] at isDone
      cases isDone
    · rw [more, getLast?_concat] at isLast
      cases isLast
      rw [more, map_append, mem_append]
      rw [split, mem_append, mem_cons] at isIn
      rcases isIn with isLower | rfl | isHigher
      · left
        apply covered
        exact .inr (exists_last_of_not_isAbove (lowerBelow own isLower).1)
      · exact .inr (by simp [RouteEntry.bits])
      · exact absurd (higherAbove own isHigher) (not_lt_of_ge atMost)

/-! ## Termination -/

def isNext : IterationEvent Info → Bool
  | .next => true
  | _ => false

def ahead (tree : RouteTree Info) (iteration : Iteration Info) : Nat :=
  (RouteTable.keysOf tree).countP (isAbove iteration.returned.getLast?)

theorem countP_lt {α : Type} {test other : α → Bool} {elements : List α} {element : α}
    (isIn : element ∈ elements) (passed : test element = true) (failed : other element = false)
    (less : ∀ element, other element = true → test element = true) :
    elements.countP other < elements.countP test := by
  rcases append_of_mem isIn with ⟨front, back, rfl⟩
  have inFront := front.countP_mono_left fun element _ => less element
  have inBack := back.countP_mono_left fun element _ => less element
  rw [countP_append, countP_append, countP_cons_of_pos passed,
    countP_cons_of_neg (by simp [failed])]
  omega

theorem Moves.ahead_lt {afterTree : RouteTree Info} (ordered : tree.Ordered RouteEntry.bits)
    (keys : (keysOf afterTree).Sublist (keysOf tree)) (moves : Moves tree iteration next) :
    next.iter = .done ∨ ahead afterTree next < ahead tree iteration := by
  cases moves with
  | stays isDone same => exact .inl (same ▸ isDone)
  | ends going none isDone same => exact .inl isDone
  | goes entry going found iterating more =>
    right
    rcases nextEntry_spec ordered found with ⟨isIn, above, _⟩
    rw [ahead, more]
    apply Nat.lt_of_le_of_lt keys.countP_le
    apply countP_lt (mem_map_of_mem isIn) above (by simp [isAbove, RouteEntry.bits])
    intro bits further
    exact isAbove_of_lt above (by simpa [isAbove, RouteEntry.bits] using further)

theorem Sound.ends (sound : iteration.Sound afi tree) {events : List (IterationEvent Info)}
    (quiet : ∀ event ∈ events, event = .next ∨ event = .pause)
    (enough : iteration.iter = .done ∨ ahead tree iteration < events.countP isNext) :
    ∃ last, Guarded iterationStep (Iteration.Permits afi) iteration events last ∧
      last.iter = .done := by
  induction events generalizing iteration tree with
  | nil =>
    rcases enough with isDone | none
    · exact ⟨iteration, .nil _, isDone⟩
    · cases none
  | cons event events induction =>
    rcases forall_mem_cons.mp quiet with ⟨isQuiet, rest⟩
    rcases isQuiet with rfl | rfl
    · rcases sound.next with ⟨next, afterTree, taken, nextSound, keys, moves⟩
      have closer := moves.ahead_lt sound.shaped.ordered keys
      have still : next.iter = .done ∨ ahead afterTree next < events.countP isNext := by
        rcases closer with isDone | less
        · exact .inl isDone
        · rcases enough with isDone | more
          · cases moves with
            | stays _ same => exact .inl (same ▸ isDone)
            | ends going _ _ _ => exact absurd isDone going
            | goes _ going _ _ _ => exact absurd isDone going
          · rw [countP_cons_of_pos rfl] at more
            exact .inr (by omega)
      rcases induction nextSound rest still with ⟨last, run, isDone⟩
      exact ⟨last, .cons trivial (congrArg some taken) run, isDone⟩
    · rcases sound.pause with ⟨next, afterTree, taken, nextSound, keys, same, done⟩
      have still : next.iter = .done ∨ ahead afterTree next < events.countP isNext := by
        apply enough.imp done.mpr
        intro more
        apply Nat.lt_of_le_of_lt _ more
        rw [ahead, same]
        exact keys.countP_le
      rcases induction nextSound rest still with ⟨last, run, isDone⟩
      exact ⟨last, .cons trivial (congrArg some taken) run, isDone⟩

/-! ## Whole iterations -/

def Holds (iteration : Iteration Info) (bits : List Bool) : Prop :=
  ∃ pointer node, iteration.table.nodes pointer = some node ∧ networkBits node.value.p = bits

/-- What holds of an iteration at any time. -/
structure Iterates (afi : Afi) (iteration : Iteration Info) : Prop where
  increasing : iteration.returned.Pairwise fun first second =>
    routeTablePrefixIterCmp first second = .ok (-1)
  present : ∀ next pointer, iteration.routeTableIterNext = .ok next →
    next.iter = .iterating pointer → ∃ node nextNode, iteration.table.nodes pointer = some node ∧
      next.table.nodes pointer = some nextNode ∧ nextNode.value.p = node.value.p ∧
      next.returned = iteration.returned ++ [node.value.p]
  safe : ∀ event, iteration.Permits afi event →
    ∃ next, iterationStep iteration event = some (.ok next)
  ends : ∀ events, (∀ event ∈ events, event = .next ∨ event = .pause) →
    iteration.table.count < events.countP isNext →
    ∃ last, Guarded iterationStep (Iteration.Permits afi) iteration events last ∧ last.iter = .done

section

variable (sound : iteration.Sound afi tree)
include sound

theorem Sound.holds_iff (bits : List Bool) : iteration.Holds bits ↔ bits ∈ keysOf tree := by
  rw [keysOf, mem_map]
  refine ⟨?_, ?_⟩
  · rintro ⟨pointer, node, found, same⟩
    exact ⟨(pointer, node.value), sound.shaped.layout.mem_entries found, same⟩
  · rintro ⟨⟨pointer, value⟩, member, same⟩
    rcases sound.shaped.layout.mem_iff.mp member with ⟨node, found, rfl⟩
    exact ⟨pointer, node, found, same⟩

theorem Sound.present {pointer : Nat} (taken : iteration.routeTableIterNext = .ok next)
    (iterating : next.iter = .iterating pointer) :
    ∃ node nextNode, iteration.table.nodes pointer = some node ∧
      next.table.nodes pointer = some nextNode ∧ nextNode.value.p = node.value.p ∧
      next.returned = iteration.returned ++ [node.value.p] := by
  rcases sound.next with ⟨same, afterTree, sameTaken, nextSound, _, moves⟩
  cases taken.symm.trans sameTaken
  cases moves with
  | stays isDone equal =>
    rw [equal, isDone] at iterating
    cases iterating
  | ends _ _ isDone _ =>
    rw [isDone] at iterating
    cases iterating
  | goes entry _ found here more =>
    rw [here] at iterating
    cases iterating
    rcases nextEntry_spec sound.shaped.ordered found with ⟨isIn, _⟩
    rcases sound.shaped.layout.exists_node isIn with ⟨_, _, _, _, node⟩
    have place := nextSound.place
    rw [here, more, getLast?_concat] at place
    generalize remembered : some entry.2.p = last? at place
    cases place with
    | iterating _ value member releasable =>
      rcases nextSound.shaped.layout.exists_node member with ⟨_, _, _, _, nextNode⟩
      exact ⟨_, _, node, nextNode, (Option.some.inj remembered).symm, more⟩

theorem Sound.increasing :
    iteration.returned.Pairwise fun first second =>
      routeTablePrefixIterCmp first second = .ok (-1) := by
  apply (pairwise_map.mp sound.sorted).imp_of_mem
  intro first second isFirst isSecond less
  rw [iterCmp_spec (sound.family first isFirst) (sound.family second isSecond), if_pos less]

theorem Sound.iterates : iteration.Iterates afi where
  increasing := sound.increasing
  present _ _ := sound.present
  safe event permits := by
    rcases sound.step permits with ⟨next, _, taken, _⟩
    exact ⟨next, taken⟩
  ends events quiet enough := by
    apply sound.ends quiet
    right
    apply Nat.lt_of_le_of_lt _ enough
    rw [sound.shaped.count, LinkedTree.pointers, length_map]
    exact countP_le_length.trans (by rw [keysOf, length_map])

end

theorem Sound.covered_step (sound : iteration.Sound afi tree) (holds : iteration.Holds bits)
    (covered : iteration.Covered bits) {event : IterationEvent Info}
    (taken : iterationStep iteration event = some (.ok next)) : next.Covered bits := by
  cases event with
  | next =>
    rcases sound.next with ⟨same, _, sameTaken, _, _, moves⟩
    cases (Option.some.inj taken).symm.trans sameTaken
    exact moves.covered sound.shaped.ordered ((sound.holds_iff bits).mp holds) covered
  | pause =>
    rcases sound.pause with ⟨same, _, sameTaken, _, _, returned, done⟩
    cases (Option.some.inj taken).symm.trans sameTaken
    unfold Covered
    rw [returned, done]
    exact covered
  | change event =>
    rw [iterationStep] at taken
    rcases Option.map_eq_some_iff.mp taken with ⟨result, _, changed⟩
    cases result with
    | error fault => cases changed
    | ok table =>
      cases changed
      exact covered

end Iteration

/-- An iteration over a table that its users change whenever they like: the prefixes it returns
increase, what it returns is in the table, nothing fails, it ends when the changes do, and a
network that was in the table from the start to the end was returned once. -/
theorem iteration_iterates {building : List (TableEvent Info)} {table : RouteTable Info}
    (built : Guarded tableStep (RouteTable.Permits afi) RouteTable.empty building table)
    {events : List (IterationEvent Info)} {iteration : Iteration Info}
    (run : Guarded iterationStep (Iteration.Permits afi) (.start table) events iteration) :
    iteration.Iterates afi ∧
      ∀ bits, (∀ before state, before <+: events →
        Guarded iterationStep (Iteration.Permits afi) (.start table) before state →
          state.Holds bits) →
        iteration.iter = .done → (iteration.returned.map networkBits).count bits = 1 := by
  rcases shaped_of_run built with ⟨tree, shaped⟩
  have initially : ∃ tree, (Iteration.start table).Sound afi tree :=
    ⟨tree, shaped, .init, nofun, .nil⟩
  have preserved : ∀ (state : Iteration Info) event next, (∃ tree, state.Sound afi tree) →
      state.Permits afi event → iterationStep state event = some (.ok next) →
      ∃ tree, next.Sound afi tree := by
    rintro state event next ⟨tree, sound⟩ permits taken
    rcases sound.step permits with ⟨same, afterTree, sameTaken, nextSound⟩
    cases taken.symm.trans sameTaken
    exact ⟨afterTree, nextSound⟩
  rcases run.invariant preserved initially with ⟨lastTree, sound⟩
  refine ⟨sound.iterates, ?_⟩
  intro bits throughout isDone
  have covered : (∃ tree, iteration.Sound afi tree) ∧ iteration.Covered bits := by
    apply run.invariant_of_throughout _ throughout
    · refine ⟨initially, ?_⟩
      rintro (isDone | ⟨last, isLast, _⟩)
      · cases isDone
      · cases isLast
    · rintro state event next holds ⟨⟨tree, stateSound⟩, before⟩ permits taken
      exact ⟨preserved state event next ⟨tree, stateSound⟩ permits taken,
        stateSound.covered_step holds before taken⟩
  exact count_eq_one_of_mem (sound.sorted.imp ne_of_lt) (covered.2 (.inl isDone))

instance (iteration : Iteration Info) (event : IterationEvent Info) :
    Decidable (iteration.Permits afi event) :=
  match event with
  | .next | .pause => inferInstanceAs (Decidable True)
  | .change event => inferInstanceAs (Decidable (iteration.withoutLock.Permits afi event))

def threeNetworks : List (TableEvent Nat) :=
  [.get ⟨.ip, 8, [10, 0, 0, 0]⟩, .get ⟨.ip, 16, [10, 64, 0, 0]⟩, .get ⟨.ip, 16, [10, 80, 0, 0]⟩]

def pauseAndLeave : List (IterationEvent Nat) :=
  [.next, .next, .next, .pause, .change (.unlock 1), .next, .next]

theorem pauseAndLeave_iterates : ∃ (table : RouteTable Nat) (iteration : Iteration Nat),
    Guarded tableStep (RouteTable.Permits .ip) RouteTable.empty threeNetworks table ∧
      Guarded iterationStep (Iteration.Permits .ip) (.start table) pauseAndLeave iteration ∧
      iteration.Iterates .ip ∧ iteration.iter = .done ∧ iteration.returned.length = 4 := by
  have summary : (do
      let table ← execute (fun table event => if RouteTable.Permits .ip table event then
        tableStep table event else none) RouteTable.empty threeNetworks
      let iteration ← execute (fun iteration event => if Iteration.Permits .ip iteration event then
        iterationStep iteration event else none) (.start table) pauseAndLeave
      return (iteration.iter, iteration.returned.length)) = some (.done, 4) := by
    decide +kernel
  rcases Option.bind_eq_some_iff.mp summary with ⟨table, built, rest⟩
  rcases Option.bind_eq_some_iff.mp rest with ⟨iteration, executed, same⟩
  have builtRun := guarded_of_execute built
  have run := guarded_of_execute executed
  rw [Option.pure_def, Option.some.injEq, Prod.mk.injEq] at same
  exact ⟨table, iteration, builtRun, run, (iteration_iterates builtRun run).1, same.1, same.2⟩

end Quagga.Lib
