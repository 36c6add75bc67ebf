import Quagga.Bgp.BestPath
import Quagga.Bgp.AsPathElements

/-!
# The decision process as an order

Because MEDs are compared among the routes of one neighbouring AS only, the comparison of
routes is not transitive. It is an order where the condition of the MED check does not
change: within a group of routes of one neighbouring AS, and between routes of different
ones.
-/

namespace Quagga.Bgp

open List

/-! ## The comparison as an order -/

section

variable {new exist : Nat} {next : Bool} {newRest existRest : List Nat}

theorem preferSmaller_eq_true :
    preferSmaller new exist next = true ↔ new < exist ∨ (new = exist ∧ next = true) := by
  unfold preferSmaller
  by_cases smaller : new < exist
  · simp [smaller]
  · by_cases larger : exist < new
    · simp [larger]
      omega
    · simp [smaller]
      omega

theorem preferSmaller_iff_lt (rest : next = true ↔ newRest < existRest) :
    preferSmaller new exist next = true ↔ new :: newRest < exist :: existRest := by
  rw [preferSmaller_eq_true, cons_lt_cons_iff, rest]

theorem preferLarger_iff_lt {bound : Nat} (newBound : new < bound) (existBound : exist < bound)
    (rest : next = true ↔ newRest < existRest) :
    preferSmaller exist new next = true ↔
      (bound - new) :: newRest < (bound - exist) :: existRest := by
  rw [preferSmaller_eq_true, cons_lt_cons_iff, rest]
  have order : exist < new ↔ bound - new < bound - exist := by omega
  have equal : exist = new ↔ bound - new = bound - exist := by omega
  rw [order, equal]

theorem preferSmaller_if_iff_lt {applies : Bool} (rest : next = true ↔ newRest < existRest) :
    (if applies then preferSmaller new exist else id) next = true ↔
      (if applies then new else 0) :: newRest < (if applies then exist else 0) :: existRest := by
  cases applies with
  | false => simpa using rest
  | true => exact preferSmaller_iff_lt rest

theorem preferExternal_iff_lt {newSort existSort : PeerSort} (newNeighbour : newSort ≠ .internal)
    (existNeighbour : existSort ≠ .internal) (rest : next = true ↔ newRest < existRest) :
    (if newSort = .ebgp && (existSort = .ibgp || existSort = .confed) then true
      else if existSort = .ebgp && (newSort = .ibgp || newSort = .confed) then false
      else next) = true ↔
      (if newSort = .ebgp then 0 else 1) :: newRest <
        (if existSort = .ebgp then 0 else 1) :: existRest := by
  rw [cons_lt_cons_iff]
  cases newSort <;> cases existSort <;> simp_all

end

def SockUnion.rank : SockUnion → List Nat
  | .inet address => [2, address.toNat]
  | .inet6 address => 10 :: address.toList.map UInt8.toNat

theorem in6addrCmp_ne_gt {new exist : List UInt8} (lengths : new.length = exist.length)
    (different : new ≠ exist) :
    in6addrCmp new exist ≠ .gt ↔ new.map UInt8.toNat < exist.map UInt8.toNat := by
  induction new generalizing exist with
  | nil =>
    have empty := eq_nil_of_length_eq_zero lengths.symm
    exact absurd empty.symm different
  | cons first firsts induction =>
    cases exist with
    | nil => cases lengths
    | cons second seconds =>
      rw [map_cons, map_cons, cons_lt_cons_iff, in6addrCmp]
      by_cases larger : first > second
      · have order : second.toNat < first.toNat := larger
        rw [if_pos larger]
        simp
        omega
      · rw [if_neg larger]
        by_cases smaller : first < second
        · have order : first.toNat < second.toNat := smaller
          simp [smaller, order]
        · have same : first = second := by
            apply UInt8.toNat_inj.mp
            have notLarger : ¬ second.toNat < first.toNat := larger
            have notSmaller : ¬ first.toNat < second.toNat := smaller
            omega
          subst same
          have rest := induction (by simpa using lengths) (by simpa using different)
          simp [rest]

theorem sockunionCmp_ne_gt {new exist : SockUnion} (different : new ≠ exist) :
    sockunionCmp new exist ≠ .gt ↔ new.rank < exist.rank := by
  cases new with
  | inet first =>
    cases exist with
    | inet second =>
      have unequal : first ≠ second := fun same => different (congrArg _ same)
      have numbers : first.toNat ≠ second.toNat := fun same => unequal (UInt32.toNat_inj.mp same)
      by_cases larger : first > second
      · have order : second.toNat < first.toNat := larger
        simp [sockunionCmp, SockUnion.rank, unequal, larger, cons_lt_cons_iff]
        omega
      · have order : ¬ second.toNat < first.toNat := larger
        simp [sockunionCmp, SockUnion.rank, unequal, larger, cons_lt_cons_iff]
        omega
    | inet6 second => simp [sockunionCmp, SockUnion.rank, cons_lt_cons_iff]
  | inet6 first =>
    cases exist with
    | inet second => simp [sockunionCmp, SockUnion.rank, cons_lt_cons_iff]
    | inet6 second =>
      have unequal : first.toList ≠ second.toList := by
        intro same
        exact different (congrArg _ (Vector.toList_inj.mp same))
      rw [sockunionCmp, SockUnion.rank, SockUnion.rank, in6addrCmp_ne_gt (by simp) unequal]
      simp

def BgpInfo.rank (bgp : BestPath) (compareMed : Bool) (info : BgpInfo) : List Nat :=
  (2 ^ 32 - info.attr.weight.toNat) ::
  (2 ^ 32 - (bgp.localPref info.attr).toNat) ::
  info.aspath.countHops ::
  info.attr.origin.toNat ::
  (if compareMed then (bgp.medValue info.attr).toNat else 0) ::
  (if info.peer.sort = .ebgp then 0 else 1) ::
  (info.igpmetric?.getD 0).toNat ::
  info.routerId.toNat ::
  info.clusterLength ::
  info.peer.suRemote.rank

/-- The settings under which the decision is to be deterministic. -/
structure BestPath.Deterministic (bgp : BestPath) : Prop where
  deterministicMed : bgp.deterministicMed = true
  compareRouterId : bgp.compareRouterId = true
  alwaysCompareMed : bgp.alwaysCompareMed = false
  aspathIgnore : bgp.aspathIgnore = false

/-- A usable route learned from a neighbour. `BGP_PEER_INTERNAL` is the sort of the peer of
the local routes, and of no neighbour. -/
structure BgpInfo.Learned (info : BgpInfo) : Prop where
  usable : info.holddown = false
  normal : info.subType = .normal
  neighbour : info.peer.sort ≠ .internal
  noConfed : info.aspath.confedCheck = false

def BgpInfo.Distinct (first second : BgpInfo) : Prop :=
  first.routerId ≠ second.routerId ∨ first.peer.suRemote ≠ second.peer.suRemote

namespace AsPath

theorem cmpLeftConfed_eq_false {first second : AsPath} (noConfed : first.confedCheck = false) :
    first.cmpLeftConfed second = false := by
  unfold cmpLeftConfed
  split
  · simp [confedCheck] at noConfed
  · rfl

def leftmost (path : AsPath) : Option (Option UInt32) :=
  match path.firstNonConfed with
  | some ⟨.asSequence, as⟩ => some as.head?
  | _ => none

theorem cmpLeft_eq_true {first second : AsPath} :
    first.cmpLeft second = true ↔
      first.leftmost = second.leftmost ∧ first.leftmost.isSome = true := by
  unfold cmpLeft leftmost
  rcases first.firstNonConfed with _ | ⟨firstType, firstAs⟩
  · simp
  · rcases second.firstNonConfed with _ | ⟨secondType, secondAs⟩
    · cases firstType <;> simp
    · cases firstType <;> cases secondType <;> simp

end AsPath

section

variable {bgp : BestPath} {new exist : BgpInfo}

def BgpInfo.comparesMed (new exist : BgpInfo) : Bool :=
  new.aspath.cmpLeft exist.aspath || (new.aspath.countHops = 0 && exist.aspath.countHops = 0)

theorem bgpInfoCmp_eq_true (settings : bgp.Deterministic) (newLearned : new.Learned)
    (existLearned : exist.Learned) (distinct : new.Distinct exist) :
    bgpInfoCmp bgp new (some exist) = true ↔
      new.rank bgp (new.comparesMed exist) < exist.rank bgp (new.comparesMed exist) := by
  have lengthNew : bgp.pathLength new.aspath = new.aspath.countHops := by
    simp [BestPath.pathLength, AsPath.countConfeds_eq_zero newLearned.noConfed]
  have lengthExist : bgp.pathLength exist.aspath = exist.aspath.countHops := by
    simp [BestPath.pathLength, AsPath.countConfeds_eq_zero existLearned.noConfed]
  have medCondition : bgp.comparesMed new.aspath exist.aspath = new.comparesMed exist := by
    simp [BestPath.comparesMed, BgpInfo.comparesMed, settings.alwaysCompareMed,
      AsPath.countConfeds_eq_zero newLearned.noConfed,
      AsPath.cmpLeftConfed_eq_false newLearned.noConfed]
  simp only [bgpInfoCmp, lengthNew, lengthExist, medCondition, newLearned.normal,
    existLearned.normal, settings.aspathIgnore, settings.compareRouterId, if_false,
    Bool.false_eq_true, Bool.not_true, Bool.false_and]
  apply preferLarger_iff_lt (UInt32.toNat_lt _) (UInt32.toNat_lt _)
  apply preferLarger_iff_lt (UInt32.toNat_lt _) (UInt32.toNat_lt _)
  apply preferSmaller_iff_lt
  apply preferSmaller_iff_lt
  apply preferSmaller_if_iff_lt
  apply preferExternal_iff_lt newLearned.neighbour existLearned.neighbour
  apply preferSmaller_iff_lt
  by_cases sameId : new.routerId = exist.routerId
  · have otherAddress := distinct.resolve_left (not_not_intro sameId)
    apply preferSmaller_iff_lt
    apply preferSmaller_iff_lt
    rw [decide_eq_true_iff]
    exact sockunionCmp_ne_gt otherAddress
  · -- Different router ids decide, whatever the later steps say.
    have numbers : new.routerId.toNat ≠ exist.routerId.toNat :=
      fun same => sameId (UInt32.toNat_inj.mp same)
    rw [preferSmaller_eq_true, cons_lt_cons_iff]
    simp [numbers]

theorem SockUnion.rank_injective : Function.Injective SockUnion.rank := by
  intro first second same
  cases first with
  | inet first =>
    cases second with
    | inet second =>
      simp only [rank, List.cons.injEq, true_and, and_true] at same
      rw [UInt32.toNat_inj.mp same]
    | inet6 second => simp [rank] at same
  | inet6 first =>
    cases second with
    | inet second => simp [rank] at same
    | inet6 second =>
      simp only [rank, List.cons.injEq, true_and] at same
      have octets := map_injective_iff.mpr (fun _ _ => UInt8.toNat_inj.mp) same
      rw [Vector.toList_inj.mp octets]

theorem BgpInfo.Distinct.rank_ne (distinct : new.Distinct exist) (newMed existMed : Bool) :
    new.rank bgp newMed ≠ exist.rank bgp existMed := by
  intro same
  simp only [BgpInfo.rank, List.cons.injEq] at same
  rcases same with ⟨_, _, _, _, _, _, _, ids, _, addresses⟩
  rcases distinct with otherId | otherAddress
  · exact otherId (UInt32.toNat_inj.mp ids)
  · exact otherAddress (SockUnion.rank_injective addresses)

def BgpInfo.groupRank (bgp : BestPath) (info : BgpInfo) : List Nat := info.rank bgp true

/-- The order of the winners of the groups, where MEDs only matter for internal routes. -/
def BgpInfo.winnerRank (bgp : BestPath) (info : BgpInfo) : List Nat :=
  info.rank bgp (info.aspath.countHops = 0)

section

variable (settings : bgp.Deterministic) (newLearned : new.Learned) (existLearned : exist.Learned)
  (distinct : new.Distinct exist)
include settings newLearned existLearned distinct

theorem bgpInfoCmp_sameNeighbour (same : new.aspath.cmpLeft exist.aspath = true) :
    bgpInfoCmp bgp new (some exist) = true ↔ new.groupRank bgp < exist.groupRank bgp := by
  have compares : new.comparesMed exist = true := by
    rw [BgpInfo.comparesMed, same, Bool.true_or]
  rw [bgpInfoCmp_eq_true settings newLearned existLearned distinct, compares]
  rfl

theorem bgpInfoCmp_otherNeighbour (other : new.aspath.cmpLeft exist.aspath = false) :
    bgpInfoCmp bgp new (some exist) = true ↔ new.winnerRank bgp < exist.winnerRank bgp := by
  have compares : new.comparesMed exist =
      (new.aspath.countHops = 0 && exist.aspath.countHops = 0 : Bool) := by
    rw [BgpInfo.comparesMed, other, Bool.false_or]
  rw [bgpInfoCmp_eq_true settings newLearned existLearned distinct, compares]
  unfold BgpInfo.winnerRank BgpInfo.rank
  -- The MEDs only count when the lengths of the paths tie.
  by_cases lengths : new.aspath.countHops = exist.aspath.countHops
  · rw [lengths, Bool.and_self]
  · simp [cons_lt_cons_iff, lengths]

end

end

end Quagga.Bgp
