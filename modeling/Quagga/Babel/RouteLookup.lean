import Quagga.Foundation.Search

/-!
# The best Babel route

The routes stand in slots ordered by prefix, each a list of the routes to one prefix with the
installed one, if any, at its head. `find_best_route` finds the slot by binary search and scans
it from its head, which it does not test.
-/

namespace Quagga.Babel

open Foundation List

def infinity : UInt16 := 65535

def sourceGcTime : Int := 200

structure Source where
  seqno : UInt16
  metric : UInt16
  time : Int
deriving Repr, DecidableEq

structure BabelRoute where
  src : Source
  refmetric : UInt16
  cost : UInt16
  addMetric : UInt16
  seqno : UInt16
  neigh : Nat
  time : Int
  holdTime : UInt16
deriving Repr, DecidableEq

def seqnoCompare (s1 s2 : UInt16) : Int :=
  if s1 = s2 then 0 else if (s2 - s1) &&& 0x8000 ≠ 0 then 1 else -1

def routeMetric (route : BabelRoute) : Nat :=
  min (route.refmetric.toNat + route.cost.toNat + route.addMetric.toNat) infinity.toNat

def updateFeasible (now : Int) (src : Source) (seqno refmetric : UInt16) : Bool :=
  if src.time < now - sourceGcTime then true
  else if refmetric ≥ infinity then true
  else seqnoCompare seqno src.seqno > 0 || (src.seqno == seqno && refmetric < src.metric)

def routeFeasible (now : Int) (route : BabelRoute) : Bool :=
  updateFeasible now route.src route.seqno route.refmetric

def routeExpired (now : Int) (route : BabelRoute) : Bool := route.time < now - route.holdTime.toNat

/-- The prefix is that of the sources of all routes in the slot. -/
structure Slot where
  network : List UInt8
  plen : UInt8
  head : BabelRoute
  next : List BabelRoute

def routeCompare (network : List UInt8) (plen : UInt8) (slot : Slot) : Ordering :=
  -- `memcmp` first
  if network < slot.network then .lt
  else if network > slot.network then .gt
  else if plen < slot.plen then .lt
  else if plen > slot.plen then .gt
  else .eq

structure RouteSlots where
  slots : List Slot
  ordered : slots.Pairwise fun first second =>
    routeCompare first.network first.plen second = .lt

variable (table : RouteSlots) (network : List UInt8) (plen : UInt8)

def findRouteSlot : Option Nat :=
  bisect (routeCompare network plen) table.slots table.slots.length 0 (table.slots.length - 1)

/-- What the scan asks of the routes behind the head, apart from their metric. -/
def isCandidate (now : Int) (feasible : Bool) (exclude? : Option Nat) (route : BabelRoute) : Bool :=
  !routeExpired now route && (!feasible || routeFeasible now route) &&
    exclude?.all (route.neigh != ·)

def findBestRoute (now : Int) (feasible : Bool) (exclude? : Option Nat) : Option BabelRoute :=
  match findRouteSlot table network plen with
  | none => none
  | some index => (table.slots[index]?).map fun slot =>
    scanBest (isCandidate now feasible exclude?) routeMetric slot.head slot.next

def RouteSlots.slotsTo : List Slot :=
  table.slots.filter fun slot => slot.network == network && slot.plen == plen

def RouteSlots.routesTo : List BabelRoute :=
  (table.slotsTo network plen).flatMap fun slot => slot.head :: slot.next

/-- An admissible route of the smallest metric, or none when no route is admissible. -/
@[mk_iff] structure IsBest (routes : List BabelRoute) (admissible : BabelRoute → Bool)
    (result? : Option BabelRoute) : Prop where
  none_iff : result? = none ↔ ∀ route ∈ routes, admissible route = false
  best : ∀ route, result? = some route → route ∈ routes ∧ admissible route = true ∧
    ∀ other ∈ routes, admissible other = true → routeMetric route ≤ routeMetric other

/-! ## The slot -/

section

variable {table network plen} {slot : Slot} {index : Nat}

theorem routeCompare_eq_iff :
    routeCompare network plen slot = .eq ↔
      (slot.network == network && slot.plen == plen) = true := by
  unfold routeCompare
  grind

theorem routeCompare_sides {other : Slot}
    (before : routeCompare slot.network slot.plen other = .lt) :
    routeCompare network plen slot = .gt ∨ routeCompare network plen other = .lt := by
  unfold routeCompare at *
  grind

theorem findRouteSlot_of_place (place : table.slots[index]? = some slot)
    (isEqual : routeCompare network plen slot = .eq) :
    findRouteSlot table network plen = some index := by
  have ordered : IsOrdered (routeCompare network plen) table.slots :=
    table.ordered.imp routeCompare_sides
  have bound := (List.getElem?_eq_some_iff.mp place).1
  apply ordered.bisect place isEqual <;> omega

theorem mem_slotsTo :
    slot ∈ table.slotsTo network plen ↔ ∃ index,
      findRouteSlot table network plen = some index ∧ table.slots[index]? = some slot := by
  rw [RouteSlots.slotsTo, mem_filter, ← routeCompare_eq_iff]
  constructor
  · intro isTo
    rcases getElem?_of_mem isTo.1 with ⟨index, place⟩
    exact ⟨index, findRouteSlot_of_place place isTo.2, place⟩
  · rintro ⟨index, found, place⟩
    have isEqual := order_of_bisect found
    rw [place, Option.map_some, Option.some.injEq] at isEqual
    exact ⟨mem_of_getElem? place, isEqual⟩

end

/-! ## The scan -/

theorem scanBest_isBest_iff (admissible : BabelRoute → Bool) (head : BabelRoute)
    (next : List BabelRoute) :
    IsBest (head :: next) admissible (some (scanBest admissible routeMetric head next)) ↔
      admissible head = true ∨ ∃ route ∈ next, admissible route = true ∧
        routeMetric route < routeMetric head := by
  generalize scanned : scanBest admissible routeMetric head next = result
  rcases scanBest_spec scanned with ⟨origin, least⟩
  constructor
  · intro isBest
    have good := (isBest.best result rfl).2.1
    rcases origin with rfl | ⟨isNext, _, smaller⟩
    · exact .inl good
    · exact .inr ⟨result, isNext, good, smaller⟩
  · intro started
    have good : admissible result = true := by
      rcases origin with rfl | ⟨_, good, _⟩
      · rcases started with good | ⟨route, isNext, good, smaller⟩
        · exact good
        · exact absurd (least route isNext good) (by omega)
      · exact good
    have isRoute : result ∈ head :: next := mem_cons.mpr (origin.imp_right And.left)
    refine ⟨⟨nofun, fun none => absurd (none result isRoute) (by simp [good])⟩, ?_⟩
    rintro _ ⟨⟩
    refine ⟨isRoute, good, forall_mem_cons.mpr ⟨fun _ => ?_, least⟩⟩
    rcases origin with rfl | ⟨_, _, smaller⟩
    · exact le_rfl
    · exact le_of_lt smaller

/-- The lookup is right exactly when the head of the slot is admissible itself or is replaced. -/
theorem findBestRoute_isBest_iff (now : Int) (feasible : Bool) (exclude? : Option Nat) :
    IsBest (table.routesTo network plen) (isCandidate now feasible exclude?)
        (findBestRoute table network plen now feasible exclude?) ↔
      ∀ slot ∈ table.slotsTo network plen,
        isCandidate now feasible exclude? slot.head = true ∨
          ∃ route ∈ slot.next, isCandidate now feasible exclude? route = true ∧
            routeMetric route < routeMetric slot.head := by
  unfold findBestRoute
  cases found : findRouteSlot table network plen with
  | none => simp [isBest_iff, RouteSlots.routesTo, mem_slotsTo, found]
  | some index =>
    cases place : table.slots[index]? with
    | none => simp [isBest_iff, RouteSlots.routesTo, mem_slotsTo, found, place]
    | some slot =>
      have only : ∀ other, other ∈ table.slotsTo network plen ↔ slot = other := by
        simp [mem_slotsTo, found, place]
      simp only [place, Option.map_some, only, forall_eq', ← scanBest_isBest_iff]
      simp only [isBest_iff, RouteSlots.routesTo, mem_flatMap, only, exists_eq_left']

/-- The only route has expired. -/
def staleTable : RouteSlots :=
  ⟨[⟨[32, 1], 16, ⟨⟨1, 512, 0⟩, 256, 96, 0, 1, 0, 0, 15⟩, []⟩], by decide⟩

theorem staleTable_not_isBest :
    ¬IsBest (staleTable.routesTo [32, 1] 16) (isCandidate 1000 true none)
      (findBestRoute staleTable [32, 1] 16 1000 true none) := by
  intro isBest
  have none := isBest.none_iff.mpr (by decide)
  exact absurd none (by decide)

end Quagga.Babel
