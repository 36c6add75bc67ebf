import Quagga.Bgp.AsPath

/-!
# AS paths as lists of elements

A path is the same whether a long sequence is one segment or several. Its elements are the
ASes of its sequences and its other segments, one by one; normalising a path is grouping
them.
-/

namespace Quagga.Bgp

open List AsSegment

inductive PathElement where
  | hop (asno : UInt32)
  | segment (segment : AsSegment)
deriving Repr, DecidableEq

def AsSegment.elements (segment : AsSegment) : List PathElement :=
  match segment.type with
  | .asSequence => segment.as.map .hop
  | _ => [.segment segment.sortSet]

def AsPath.elements (path : AsPath) : List PathElement := path.flatMap AsSegment.elements

def pathOf : List PathElement → AsPath
  | [] => []
  | .hop asno :: elements =>
    match pathOf elements with
    | ⟨.asSequence, as⟩ :: path => ⟨.asSequence, asno :: as⟩ :: path
    | path => ⟨.asSequence, [asno]⟩ :: path
  | .segment segment :: elements => segment :: pathOf elements

def AsPath.HasAses (path : AsPath) : Prop := ∀ segment ∈ path, segment.as ≠ []

instance (path : AsPath) : Decidable path.HasAses :=
  inferInstanceAs (Decidable (∀ segment ∈ path, segment.as ≠ []))

theorem AsPath.elements_cons (segment : AsSegment) (path : AsPath) :
    AsPath.elements (segment :: path) = segment.elements ++ path.elements :=
  flatMap_cons

theorem AsPath.elements_append (first second : AsPath) :
    AsPath.elements (first ++ second) = first.elements ++ second.elements :=
  flatMap_append

theorem pathOf_hops {as : List UInt32} (nonempty : as ≠ []) (elements : List PathElement) :
    pathOf (as.map .hop ++ elements) =
      match pathOf elements with
      | ⟨.asSequence, more⟩ :: path => ⟨.asSequence, as ++ more⟩ :: path
      | path => ⟨.asSequence, as⟩ :: path := by
  induction as with
  | nil => exact absurd rfl nonempty
  | cons asno as induction =>
    cases as with
    | nil => rfl
    | cons second as =>
      rw [map_cons, cons_append, pathOf, induction (by simp)]
      generalize pathOf elements = path
      rcases path with _ | ⟨⟨type, more⟩, path⟩
      · rfl
      · cases type <;> rfl

variable {path : AsPath}

theorem assegmentNormalise_eq (hasAses : path.HasAses) :
    assegmentNormalise path = pathOf path.elements := by
  induction path with
  | nil => rfl
  | cons segment path induction =>
    rcases forall_mem_cons.mp hasAses with ⟨nonempty, later⟩
    rcases segment with ⟨type, as⟩
    rw [assegmentNormalise, induction later]
    cases type with
    | asSequence =>
      have split : AsPath.elements (⟨.asSequence, as⟩ :: path) =
          as.map .hop ++ AsPath.elements path := rfl
      rw [split, pathOf_hops nonempty]
      generalize pathOf (AsPath.elements path) = merged
      rcases merged with _ | ⟨⟨type, more⟩, merged⟩
      · rfl
      · cases type <;> rfl
    | asSet => rfl
    | asConfedSequence => rfl
    | asConfedSet => rfl

theorem AsSegment.sortSet_type (segment : AsSegment) : segment.sortSet.type = segment.type := by
  unfold sortSet
  split <;> rfl

theorem AsSegment.sortSet_sortSet (segment : AsSegment) :
    segment.sortSet.sortSet = segment.sortSet := by
  have again : ∀ as : List UInt32,
      (((as.insertionSort (· ≤ ·)).destutter (· ≠ ·)).insertionSort (· ≤ ·)).destutter (· ≠ ·) =
        (as.insertionSort (· ≤ ·)).destutter (· ≠ ·) := by
    intro as
    have sorted : ((as.insertionSort (· ≤ ·)).destutter (· ≠ ·)).Pairwise (· ≤ ·) :=
      (pairwise_insertionSort _ as).sublist (destutter_sublist _ _)
    rw [sorted.insertionSort_eq]
    exact (destutter_eq_self_iff _ _).mpr (isChain_destutter _ _)
  rcases segment with ⟨type, as⟩
  cases type with
  | asSet => exact congrArg (mk .asSet) (again as)
  | asConfedSet => exact congrArg (mk .asConfedSet) (again as)
  | asSequence => rfl
  | asConfedSequence => rfl

def PathElement.Proper : PathElement → Prop
  | .hop _ => True
  | .segment whole => whole.type ≠ .asSequence ∧ whole.sortSet = whole

theorem AsPath.elements_proper (path : AsPath) : ∀ element ∈ path.elements, element.Proper := by
  intro element member
  rcases mem_flatMap.mp member with ⟨segment, _, inSegment⟩
  rcases segment with ⟨type, as⟩
  cases type with
  | asSequence =>
    rcases mem_map.mp inSegment with ⟨asno, _, rfl⟩
    trivial
  | asSet | asConfedSequence | asConfedSet =>
    cases mem_singleton.mp inSegment
    exact ⟨by simp [sortSet_type], sortSet_sortSet _⟩

variable {segment : AsSegment}

theorem AsSegment.elements_of_ne (other : segment.type ≠ .asSequence) :
    segment.elements = [.segment segment.sortSet] := by
  unfold elements
  split
  · contradiction
  · rfl

theorem elements_pathOf {elements : List PathElement}
    (proper : ∀ element ∈ elements, element.Proper) : (pathOf elements).elements = elements := by
  induction elements with
  | nil => rfl
  | cons element elements induction =>
    rcases forall_mem_cons.mp proper with ⟨isProper, later⟩
    have rest := induction later
    cases element with
    | hop asno =>
      rw [pathOf]
      generalize pathOf elements = path at rest
      rcases path with _ | ⟨⟨type, as⟩, path⟩
      · rw [← rest]
        rfl
      · rw [← rest]
        cases type <;> rfl
    | segment segment =>
      rw [pathOf, AsPath.elements, flatMap_cons, elements_of_ne isProper.1, isProper.2]
      exact congrArg (PathElement.segment segment :: ·) rest

/-- A path as the parser leaves it: no empty segments, sorted sets, and no two sequences in a
row. -/
structure AsPath.Normalised (path : AsPath) : Prop where
  hasAses : path.HasAses
  fixed : assegmentNormalise path = path

theorem AsPath.Normalised.eq_pathOf (normalised : path.Normalised) :
    pathOf path.elements = path := by
  rw [← assegmentNormalise_eq normalised.hasAses, normalised.fixed]

theorem AsSegment.sortSet_ne_nil (nonempty : segment.as ≠ []) : segment.sortSet.as ≠ [] := by
  have sorted : (segment.as.insertionSort (· ≤ ·)).destutter (· ≠ ·) ≠ [] := by
    rw [ne_eq, destutter_eq_nil, ← length_eq_zero_iff, length_insertionSort, length_eq_zero_iff]
    exact nonempty
  unfold sortSet
  split
  · exact sorted
  · exact sorted
  · exact nonempty
  · exact nonempty

theorem hasAses_assegmentNormalise (hasAses : path.HasAses) :
    AsPath.HasAses (assegmentNormalise path) := by
  induction path with
  | nil => exact hasAses
  | cons first rest induction =>
    rcases forall_mem_cons.mp hasAses with ⟨nonempty, later⟩
    have kept := induction later
    rw [assegmentNormalise]
    split
    · rename_i as merged sequence normalised
      rw [normalised] at kept
      exact forall_mem_cons.mpr
        ⟨append_ne_nil_of_left_ne_nil nonempty as, (forall_mem_cons.mp kept).2⟩
    · exact forall_mem_cons.mpr ⟨sortSet_ne_nil nonempty, kept⟩

theorem normalised_pathOf (hasAses : path.HasAses) : AsPath.Normalised (pathOf path.elements) := by
  have kept : AsPath.HasAses (pathOf path.elements) := by
    rw [← assegmentNormalise_eq hasAses]
    exact hasAses_assegmentNormalise hasAses
  refine ⟨kept, ?_⟩
  rw [assegmentNormalise_eq kept, elements_pathOf path.elements_proper]

theorem mem_pathOf {elements : List PathElement} (member : segment ∈ pathOf elements)
    (other : segment.type ≠ .asSequence) : .segment segment ∈ elements := by
  induction elements with
  | nil => cases member
  | cons element elements induction =>
    cases element with
    | hop asno =>
      rw [pathOf] at member
      apply mem_cons_of_mem
      split at member
      · rename_i as path grouped
        rcases mem_cons.mp member with rfl | later
        · exact absurd rfl other
        · exact induction (grouped ▸ mem_cons_of_mem _ later)
      · rcases mem_cons.mp member with rfl | later
        · exact absurd rfl other
        · exact induction later
    | segment whole =>
      rcases mem_cons.mp member with rfl | later
      · exact mem_cons_self
      · exact mem_cons_of_mem _ (induction later)

def PathElement.ases : PathElement → List UInt32
  | .hop asno => [asno]
  | .segment whole => whole.as

theorem AsSegment.mem_of_mem_elements {element : PathElement} {asno : UInt32}
    (member : element ∈ segment.elements) (inElement : asno ∈ element.ases) :
    asno ∈ segment.as := by
  have sorted : ∀ as : List UInt32,
      asno ∈ (as.insertionSort (· ≤ ·)).destutter (· ≠ ·) → asno ∈ as :=
    fun as inSorted => (mem_insertionSort _).mp ((destutter_sublist _ _).subset inSorted)
  rcases segment with ⟨type, as⟩
  cases type with
  | asSequence =>
    rcases mem_map.mp member with ⟨hop, inAs, rfl⟩
    rw [mem_singleton.mp inElement]
    exact inAs
  | asSet =>
    cases mem_singleton.mp member
    exact sorted as inElement
  | asConfedSequence =>
    cases mem_singleton.mp member
    exact inElement
  | asConfedSet =>
    cases mem_singleton.mp member
    exact sorted as inElement

theorem toArray_pathOf (elements : List PathElement) :
    (pathOf elements).toArray = elements.flatMap PathElement.ases := by
  induction elements with
  | nil => rfl
  | cons element elements induction =>
    rw [flatMap_cons, ← induction]
    cases element with
    | hop asno =>
      rw [pathOf]
      split
      · rename_i as path grouped
        rw [grouped]
        rfl
      · rfl
    | segment whole => rfl

/-! ## Prepending -/

theorem AsPath.Normalised.addSeq (normalised : path.Normalised) (asno : UInt32) :
    (path.addSeq asno).Normalised ∧ (path.addSeq asno).elements = .hop asno :: path.elements := by
  have grouped : path.addSeq asno = pathOf (.hop asno :: path.elements) := by
    rw [pathOf, normalised.eq_pathOf]
    rcases path with _ | ⟨⟨type, as⟩, path⟩
    · rfl
    · have nonempty := normalised.hasAses _ mem_cons_self
      cases as with
      | nil => exact absurd rfl nonempty
      | cons first as => cases type <;> rfl
  have proper : ∀ element ∈ PathElement.hop asno :: path.elements, element.Proper :=
    forall_mem_cons.mpr ⟨trivial, path.elements_proper⟩
  have kept : (path.addSeq asno).HasAses := by
    have hasAses := normalised.hasAses
    unfold AsPath.addSeq
    split
    case h_3 => exact forall_mem_cons.mpr ⟨cons_ne_nil _ _, hasAses⟩
    all_goals exact forall_mem_cons.mpr ⟨cons_ne_nil _ _, (forall_mem_cons.mp hasAses).2⟩
  have same : (path.addSeq asno).elements = .hop asno :: path.elements := by
    rw [grouped, elements_pathOf proper]
  refine ⟨⟨kept, ?_⟩, same⟩
  rw [assegmentNormalise_eq kept, same, grouped]

/-! ## Confederation segments -/

def PathElement.isConfed : PathElement → Bool
  | .hop _ => false
  | .segment whole => whole.type = .asConfedSet || whole.type = .asConfedSequence

theorem AsPath.confedCheck_eq (path : AsPath) :
    path.confedCheck = path.elements.any PathElement.isConfed := by
  rw [confedCheck, elements, any_flatMap]
  congr 1
  funext segment
  rcases segment with ⟨type, as⟩
  cases type <;>
    simp [AsSegment.elements, PathElement.isConfed, AsSegment.sortSet]

/-! ## Hops -/

namespace AsPath

theorem noConfed_cons :
    confedCheck (segment :: path) = false ↔
      (segment.type = .asSequence ∨ segment.type = .asSet) ∧ path.confedCheck = false := by
  rcases segment with ⟨type, as⟩
  cases type <;> simp [confedCheck]

theorem countHops_eq_length (noConfed : path.confedCheck = false) :
    path.countHops = path.elements.length := by
  induction path with
  | nil => rfl
  | cons segment path induction =>
    rcases noConfed_cons.mp noConfed with ⟨type, rest⟩
    have later := induction rest
    rw [countHops] at later ⊢
    rw [map_cons, sum_cons, later, elements_cons, length_append]
    rcases segment with ⟨_, as⟩
    rcases type with rfl | rfl
    · simp [AsSegment.elements]
    · simp [AsSegment.elements]

theorem elements_takeHops (noConfed : path.confedCheck = false) (hops : Int) :
    (takeHops hops path).elements = path.elements.take hops.toNat := by
  induction path generalizing hops with
  | nil => simp [takeHops, elements]
  | cons segment path induction =>
    rcases noConfed_cons.mp noConfed with ⟨type, rest⟩
    rw [takeHops]
    by_cases done : hops ≤ 0
    · rw [if_pos done, Int.toNat_of_nonpos done]
      rfl
    · rw [if_neg done]
      rcases segment with ⟨_, as⟩
      rcases type with rfl | rfl
      · have later := induction rest (hops - as.length)
        rw [elements_cons, elements_cons, later]
        simp [AsSegment.elements, take_append]
      · have later := induction rest (hops - 1)
        have left : hops.toNat = (hops - 1).toNat + 1 := by omega
        rw [elements_cons, elements_cons, later, left]
        simp [AsSegment.elements]

theorem hasAses_takeHops (hasAses : path.HasAses) (hops : Int) : HasAses (takeHops hops path) := by
  induction path generalizing hops with
  | nil => exact hasAses
  | cons first rest induction =>
    rcases forall_mem_cons.mp hasAses with ⟨nonempty, later⟩
    rw [takeHops]
    by_cases done : hops ≤ 0
    · rw [if_pos done]
      exact nofun
    · have some : first.as.take hops.toNat ≠ [] := by
        rw [ne_eq, take_eq_nil_iff]
        exact not_or.mpr ⟨by omega, nonempty⟩
      rw [if_neg done]
      split
      case h_4 => exact forall_mem_cons.mpr ⟨some, induction later _⟩
      all_goals exact forall_mem_cons.mpr ⟨nonempty, induction later _⟩

theorem countConfeds_eq_zero (noConfed : path.confedCheck = false) : path.countConfeds = 0 := by
  induction path with
  | nil => rfl
  | cons segment path induction =>
    rw [confedCheck, any_cons, Bool.or_eq_false_iff] at noConfed
    rw [countConfeds, map_cons]
    have rest : countConfeds path = 0 := induction noConfed.2
    unfold countConfeds at rest
    cases type : segment.type <;> simp_all

/-- `aspath_reconcile_as4` on paths without confederation segments: as many hops of the first
path as it has more, and then the second path. -/
theorem Normalised.reconcileAs4 {path as4Path : AsPath} (normalised : path.Normalised)
    (as4Normalised : as4Path.Normalised) (noConfed : path.confedCheck = false)
    (as4NoConfed : as4Path.confedCheck = false)
    (shorter : as4Path.elements.length ≤ path.elements.length) :
    path.reconcileAs4 as4Path = pathOf
      (path.elements.take (path.elements.length - as4Path.elements.length) ++
        as4Path.elements) := by
  have confeds : path.countConfeds = 0 := countConfeds_eq_zero noConfed
  unfold AsPath.reconcileAs4
  have notLess : ¬ ((path.elements.length : Int) + (0 : Nat) - as4Path.elements.length < 0) := by
    omega
  rw [countHops_eq_length noConfed, countHops_eq_length as4NoConfed, confeds]
  simp only [notLess, if_false]
  by_cases same : path.elements.length = as4Path.elements.length
  · rw [if_pos (by omega), same, Nat.sub_self, take_zero, nil_append, as4Normalised.eq_pathOf]
  · rw [if_neg (by omega)]
    have kept : HasAses (takeHops ((path.elements.length : Int) + (0 : Nat) -
        (as4Path.elements.length : Int)) path ++ as4Path) :=
      forall_mem_append.mpr
        ⟨hasAses_takeHops normalised.hasAses _, as4Normalised.hasAses⟩
    rw [assegmentNormalise_eq kept, elements_append, elements_takeHops noConfed]
    congr 3
    omega

end AsPath

end Quagga.Bgp
