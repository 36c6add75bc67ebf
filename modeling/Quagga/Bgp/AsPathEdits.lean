import Quagga.Bgp.AsPath

/-!
# Joining and thinning AS paths

`aspath_prepend` and `aspath_filter_exclude` of `bgp_aspath.c`.
-/

namespace Quagga.Bgp

open List

/-- `assegment_append_asns`. The length of a segment is an `unsigned short`. -/
def AsSegment.appendAsns (segment : AsSegment) (asnos : List UInt32) : AsSegment :=
  { segment with
    as := (segment.as ++ asnos).take ((segment.as.length + asnos.length) % 2 ^ 16) }

namespace AsPath

/-- `aspath_prepend`: both paths as it leaves them. Where `aspath_delete_confed_seq` has freed the
first segment of the second path, that segment is still read, which is `none`. -/
def prepend (as1 as2 : AsPath) : Option (AsPath × AsPath) :=
  match as1.getLast?, as2 with
  | _, [] => some (as1, as1)
  | none, as2 => some (as1, as2)
  | some seg1, seg2 :: rest =>
    if seg1.type = .asSequence ∧ seg2.type = .asConfedSequence then none
    else if seg1.type ≠ seg2.type then some (as1, as1 ++ as2)
    else if seg1.type = .asSequence then
      some (as1, as1.dropLast ++ seg1.appendAsns seg2.as :: rest)
    else some (as1, as1 ++ as2)

/-- Every AS of the exclusion list is dropped, and every segment that has none left. -/
def filterExclude (exclude : AsPath) : AsPath → AsPath
  | [] => []
  | segment :: rest =>
    let kept := segment.as.filter fun asno => asno ∉ exclude.toArray
    if kept = [] then filterExclude exclude rest
    else { segment with as := kept } :: filterExclude exclude rest

def flattened (path : AsPath) : List (SegmentType × UInt32) :=
  path.flatMap fun segment => segment.as.map fun asno => (segment.type, asno)

theorem flattened_cons (segment : AsSegment) (path : AsPath) : flattened (segment :: path) =
    segment.as.map (fun asno => (segment.type, asno)) ++ path.flattened :=
  flatMap_cons

theorem countHops_cons (segment : AsSegment) (path : AsPath) :
    countHops (segment :: path) = countHops [segment] + path.countHops := by
  simp [countHops]

/-! ## Joining two paths -/

def endsInSequence (path : AsPath) : Bool :=
  path.getLast?.any fun segment => segment.type = .asSequence

/-- The second path follows the first one, which stays as it is. Behind a sequence, the
confederation sequences at the front of the second path are left out. -/
def Prepends (as1 as2 : AsPath) : Prop :=
  ∃ result, as1.prepend as2 = some (as1, result) ∧
    result.flattened = as1.flattened ++ flattened (if as1.endsInSequence then
      as2.dropWhile fun segment => segment.type = .asConfedSequence else as2) ∧
    result.countHops = as1.countHops + as2.countHops

theorem appendAsns_as_iff (segment : AsSegment) (asnos : List UInt32) :
    (segment.appendAsns asnos).as = segment.as ++ asnos ↔
      segment.as.length + asnos.length < 2 ^ 16 := by
  simp only [AsSegment.appendAsns, take_eq_self_iff, length_append]
  omega

/-- Two paths can be joined unless the first one ends in a sequence, and the second one starts
with a confederation sequence or with a sequence that makes the joined one too long. -/
theorem prepends_iff (as1 as2 : AsPath) :
    as1.Prepends as2 ↔ ∀ seg1 ∈ as1.getLast?, ∀ seg2 ∈ as2.head?, seg1.type = .asSequence →
      seg2.type ≠ .asConfedSequence ∧
        (seg2.type = .asSequence → seg1.as.length + seg2.as.length < 2 ^ 16) := by
  cases as2 with
  | nil => simp [Prepends, prepend, flattened, countHops]
  | cons seg2 rest =>
    rcases eq_nil_or_concat' as1 with rfl | ⟨front, seg1, rfl⟩
    · simp [Prepends, prepend, flattened, countHops, endsInSequence]
    · simp only [Prepends, prepend, getLast?_concat, endsInSequence, Option.mem_def,
        Option.some.injEq, forall_eq', head?_cons, Option.any_some]
      by_cases sequence : seg1.type = .asSequence
      · by_cases confed : seg2.type = .asConfedSequence
        · simp [sequence, confed]
        · by_cases joined : seg2.type = .asSequence
          · have type : (seg1.appendAsns seg2.as).type = .asSequence := sequence
            have whole := appendAsns_as_iff seg1 seg2.as
            constructor
            · rintro ⟨result, found, same, _⟩
              simp [sequence, joined] at found
              subst found
              simp [sequence, joined, flattened, type] at same
              rw [← append_assoc, append_cancel_right_eq, ← map_append] at same
              intro _
              refine ⟨confed, fun _ => whole.mp ?_⟩
              exact map_injective_iff.mpr (Prod.mk_right_injective _) same
            · intro short
              have same := whole.mpr ((short sequence).2 joined)
              simp [sequence, joined, flattened, countHops, type, same, Nat.add_assoc]
          · simp [sequence, confed, joined, Ne.symm joined, flattened, countHops, Nat.add_assoc]
      · simp [sequence, flattened, countHops, Nat.add_assoc]

/-- Behind a sequence, a confederation sequence is freed and then read. A sequence that comes to
65536 ASes has none. -/
theorem not_prepends :
    ¬ Prepends [⟨.asSequence, [1]⟩] [⟨.asConfedSequence, [2]⟩] ∧
      ∃ as : List UInt32, as.length = 65535 ∧
        ¬ Prepends [⟨.asSequence, as⟩] [⟨.asSequence, [2]⟩] := by
  constructor
  · rintro ⟨result, found, _⟩
    cases found
  · refine ⟨replicate 65535 1, length_replicate, ?_⟩
    generalize long : replicate 65535 (1 : UInt32) = as
    have length : as.length = 65535 := by rw [← long, length_replicate]
    rintro ⟨result, found, _, hops⟩
    simp [prepend, AsSegment.appendAsns, length] at found
    subst found
    simp [countHops] at hops

/-! ## Leaving ASes out -/

theorem countHops_normalise (path : AsPath) :
    countHops (assegmentNormalise path) = path.countHops := by
  induction path with
  | nil => rfl
  | cons segment rest induction =>
    rw [assegmentNormalise]
    split
    · rename_i sequence merged
      rw [countHops_cons segment, ← induction, merged]
      simp [countHops, sequence, Nat.add_assoc]
    · have hops : countHops [segment.sortSet] = countHops [segment] := by
        rcases segment with ⟨type, as⟩
        cases type <;> rfl
      rw [countHops_cons, induction, hops, ← countHops_cons]

def without (exclude : AsPath) (segment : AsSegment) : AsSegment :=
  { segment with as := segment.as.filter fun asno => asno ∉ exclude.toArray }

/-- The path that `aspath_parse` makes of the ASes that are not excluded, each in its segment. -/
def builtWithout (exclude source : AsPath) : AsPath :=
  assegmentNormalise ((source.map exclude.without).filter fun segment => segment.as ≠ [])

theorem filterExclude_eq (exclude source : AsPath) : filterExclude exclude source =
    (source.map exclude.without).filter fun segment => segment.as ≠ [] := by
  induction source with
  | nil => rfl
  | cons segment rest induction =>
    rw [filterExclude, map_cons, filter_cons, induction]
    by_cases none : (exclude.without segment).as = []
    · simp only [none, ne_eq, not_true, decide_false, Bool.false_eq_true, if_false]
      exact if_pos none
    · simp only [none, ne_eq, not_false_eq_true, decide_true, if_true]
      exact if_neg none

theorem countHops_without (exclude : AsPath) (segment : AsSegment) :
    countHops (if (exclude.without segment).as = [] then [] else [exclude.without segment]) =
      segment.as.countP (fun asno => segment.type = .asSequence ∧ asno ∉ exclude.toArray) +
        if segment.type = .asSet ∧ ∃ asno ∈ segment.as, asno ∉ exclude.toArray then 1 else 0 := by
  rcases segment with ⟨type, as⟩
  by_cases none : ∀ asno ∈ as, asno ∈ exclude.toArray
  · have nothing : (exclude.without ⟨type, as⟩).as = [] := by simpa [without] using none
    have uncounted : as.countP (fun asno => type = .asSequence ∧ asno ∉ exclude.toArray) = 0 := by
      simpa [countP_eq_zero] using fun asno member _ => none asno member
    rw [if_pos nothing, uncounted, if_neg]
    · rfl
    · rintro ⟨_, asno, member, left⟩
      exact left (none asno member)
  · have something : (exclude.without ⟨type, as⟩).as ≠ [] := by simpa [without] using none
    rw [if_neg something]
    push Not at none
    cases type <;> simp [countHops, without, none, countP_eq_length_filter]

/-- The ASes that are left in sequences are hops, and so are the sets that have one left. -/
theorem countHops_filterExclude (exclude source : AsPath) :
    (filterExclude exclude source).countHops =
      source.flattened.countP (fun hop => hop.1 = .asSequence ∧ hop.2 ∉ exclude.toArray) +
        source.countP fun segment =>
          segment.type = .asSet ∧ ∃ asno ∈ segment.as, asno ∉ exclude.toArray := by
  induction source with
  | nil => rfl
  | cons segment rest induction =>
    have first := countHops_without exclude segment
    have split : (filterExclude exclude (segment :: rest)).countHops =
        countHops (if (exclude.without segment).as = [] then [] else [exclude.without segment]) +
          (filterExclude exclude rest).countHops := by
      rw [filterExclude]
      change countHops (if (exclude.without segment).as = [] then _ else _ :: _) = _
      split_ifs
      · exact (Nat.zero_add _).symm
      · exact countHops_cons _ _
    rw [split, first, induction, flattened_cons, countP_append, countP_cons, countP_map]
    simp only [decide_eq_true_eq, Function.comp_def]
    omega

/-- What is left of a path, and its hops. -/
theorem filterExclude_spec (source exclude : AsPath) :
    (filterExclude exclude source).flattened =
        source.flattened.filter (fun hop => hop.2 ∉ exclude.toArray) ∧
      (∀ segment ∈ filterExclude exclude source, segment.as ≠ []) ∧
      (filterExclude exclude source).countHops = (builtWithout exclude source).countHops ∧
      (filterExclude exclude source).countHops =
        source.flattened.countP (fun hop => hop.1 = .asSequence ∧ hop.2 ∉ exclude.toArray) +
          source.countP fun segment =>
            segment.type = .asSet ∧ ∃ asno ∈ segment.as, asno ∉ exclude.toArray := by
  refine ⟨?_, ?_, ?_, countHops_filterExclude exclude source⟩
  · induction source with
    | nil => rfl
    | cons segment rest induction =>
      have kept : (segment.as.map fun asno => (segment.type, asno)).filter
          (fun hop => hop.2 ∉ exclude.toArray) =
          (segment.as.filter fun asno => asno ∉ exclude.toArray).map fun asno =>
            (segment.type, asno) :=
        filter_map
      rw [flattened_cons, filter_append, ← induction, kept, filterExclude]
      split_ifs with none
      · rw [none, map_nil, nil_append]
      · rw [flattened_cons]
  · intro segment member
    rw [filterExclude_eq] at member
    simpa using (mem_filter.mp member).2
  · rw [builtWithout, countHops_normalise, filterExclude_eq]

end AsPath

end Quagga.Bgp
