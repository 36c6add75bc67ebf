import Quagga.Bgp.AsPathElements

/-!
# AS paths that go out

`aspath_put` of `bgp_aspath.c`, and what `aspath_parse` makes of what it writes. A segment is
written in parts of at most 255 ASes, and a segment that does not fit into the stream ends
the path.
-/

namespace Quagga.Bgp

open Foundation List AsSegment AsPath

/-! ## Writing a path -/

def SegmentType.code : SegmentType → UInt8
  | .asSet => 1
  | .asSequence => 2
  | .asConfedSequence => 3
  | .asConfedSet => 4

@[simp] theorem SegmentType.ofCode?_code (type : SegmentType) : ofCode? type.code = some type := by
  cases type <;> rfl

def asConveyed (use32bit : Bool) (asno : UInt32) : UInt32 :=
  if use32bit || asno ≤ 65535 then asno else bgpAsTrans

def asOctets (use32bit : Bool) (asno : UInt32) : Bytes :=
  bigEndian (asValueSize use32bit) (asConveyed use32bit asno).toNat

def assegmentSize (use32bit : Bool) (count : Nat) : Nat := 2 + count * asValueSize use32bit

/-- `assegment_header_put` and `assegment_data_put`. -/
def assegmentPut (use32bit : Bool) (type : SegmentType) (length : Nat) (as : List UInt32) :
    Bytes :=
  type.code :: UInt8.ofNat length :: as.flatMap (asOctets use32bit)

def AsSegment.packable (segment next : AsSegment) : Bool :=
  segment.type = .asSequence && next.type = .asSequence && segment.as.length + next.as.length ≤ 255

/-- How many full parts are written before the last one. -/
def AsSegment.splits (segment : AsSegment) : Nat := (segment.as.length - 1) / 255

def AsSegment.lastPart (segment : AsSegment) : List UInt32 := segment.as.drop (255 * segment.splits)

/-- One turn of the loop of `aspath_put`. Every full part holds the first 255 ASes of the
segment, and the header of the last part counts only the last of the segments packed into
it. -/
def segmentPut (use32bit : Bool) (segment : AsSegment) (packed : List AsSegment) : Bytes :=
  (List.replicate segment.splits
    (assegmentPut use32bit segment.type 255 (segment.as.take 255))).flatten ++
  assegmentPut use32bit segment.type
    (segment.lastPart.length + packed.getLast?.elim 0 (·.as.length))
    (segment.lastPart ++ packed.flatMap AsSegment.as)

/-- What the turn adds to the number of octets that `aspath_put` returns: each full part is
counted with all parts before it. -/
def segmentCount (use32bit : Bool) (segment : AsSegment) (packed : List AsSegment) : Nat :=
  ((List.range segment.splits).map fun turn => assegmentSize use32bit (255 * (turn + 1))).sum +
  assegmentSize use32bit (segment.lastPart ++ packed.flatMap AsSegment.as).length

/-- The loop of `aspath_put` on a stream with some room left. `none` is the failed assertion
of a write that does not fit. -/
def aspathPutWithin (use32bit : Bool) : Nat → Nat → AsPath → Option (Bytes × Nat)
  | _, _, [] => some ([], 0)
  | 0, _, _ :: _ => some ([], 0)
  | fuel + 1, room, segment :: rest =>
    if room < assegmentSize use32bit segment.as.length then some ([], 0)
    else
      let packed := rest.takeWhile segment.packable
      let octets := segmentPut use32bit segment packed
      if room < octets.length then none
      else do
        let (later, count) ← aspathPutWithin use32bit fuel (room - octets.length)
          (rest.dropWhile segment.packable)
        return (octets ++ later, segmentCount use32bit segment packed + count)

def aspathPut (use32bit : Bool) (room : Nat) (path : AsPath) : Option (Bytes × Nat) :=
  match path with
  | ⟨_, []⟩ :: _ => some ([], 0)
  | _ => aspathPutWithin use32bit path.length room path

/-- `aspath_parse` on a stream with some octets: it cannot read more than there is. -/
def aspathRead (use32bit : Bool) (octets : Bytes) (length : Nat) : Option AsPath :=
  if octets.length < length then none else aspathParse (octets.take length) use32bit

/-! ## Reading back what was written -/

def AsSegment.parts (segment : AsSegment) : List AsSegment :=
  List.replicate segment.splits ⟨segment.type, segment.as.take 255⟩ ++
    [⟨segment.type, segment.lastPart⟩]

def AsSegment.octets (use32bit : Bool) (part : AsSegment) : Bytes :=
  assegmentPut use32bit part.type part.as.length part.as

def AsSegment.conveyed (use32bit : Bool) (part : AsSegment) : AsSegment :=
  { part with as := part.as.map (asConveyed use32bit) }

section

variable {use32bit : Bool} {segment : AsSegment}

theorem length_asOctets (asno : UInt32) : (asOctets use32bit asno).length = asValueSize use32bit :=
  length_bigEndian _ _

theorem length_flatMap_asOctets (as : List UInt32) :
    (as.flatMap (asOctets use32bit)).length = as.length * asValueSize use32bit := by
  induction as with
  | nil => simp
  | cons asno as induction =>
    rw [flatMap_cons, length_append, induction, length_asOctets, length_cons]
    ring

theorem AsSegment.length_octets (part : AsSegment) :
    (part.octets use32bit).length = assegmentSize use32bit part.as.length := by
  simp only [octets, assegmentPut, assegmentSize, length_cons, length_flatMap_asOctets]
  omega

theorem asConveyed_fits (asno : UInt32) :
    (asConveyed use32bit asno).toNat < 256 ^ asValueSize use32bit := by
  unfold asConveyed
  cases use32bit with
  | true => exact asno.toNat_lt
  | false =>
    by_cases small : asno ≤ 65535
    · have bound : asno.toNat ≤ 65535 := small
      simp only [small, Bool.false_or, decide_true, if_true, asValueSize, Bool.false_eq_true,
        if_false]
      omega
    · simp only [small, Bool.false_or, decide_false, Bool.false_eq_true, if_false]
      decide

theorem readAsNumbers_flatMap (as : List UInt32) (rest : Bytes) :
    readAsNumbers use32bit as.length (as.flatMap (asOctets use32bit) ++ rest) =
      as.map (asConveyed use32bit) := by
  induction as with
  | nil => rfl
  | cons asno as induction =>
    have length : (asOctets use32bit asno).length = asValueSize use32bit := length_asOctets asno
    rw [flatMap_cons, append_assoc, length_cons, readAsNumbers,
      take_left' length, drop_left' length, induction, asOctets,
      readBigEndian_bigEndian (asConveyed_fits asno), UInt32.ofNat_toNat, map_cons]

theorem assegmentParse_octets (nonempty : segment.as ≠ []) (short : segment.as.length ≤ 255)
    (rest : Bytes) :
    assegmentParse use32bit (segment.octets use32bit ++ rest) =
      some (segment.conveyed use32bit, rest) := by
  have positive : 0 < segment.as.length := length_pos_iff.mpr nonempty
  have count : (UInt8.ofNat segment.as.length).toNat = segment.as.length := by
    rw [UInt8.toNat_ofNat']
    omega
  have notZero : UInt8.ofNat segment.as.length ≠ 0 := by
    intro zero
    rw [zero] at count
    simp at count
    omega
  have data := @length_flatMap_asOctets use32bit segment.as
  unfold AsSegment.octets assegmentPut
  rw [cons_append, cons_append, assegmentParse, count]
  rw [if_neg (by simp only [length_append, notZero, or_false]; omega),
    readAsNumbers_flatMap, drop_left' data, SegmentType.ofCode?_code]
  rfl

theorem assegmentsParseWithin_of_parse {fuel : Nat} {octets rest : Bytes}
    (parsed : assegmentParse use32bit octets = some (segment, rest)) :
    assegmentsParseWithin use32bit (fuel + 1) octets =
      (assegmentsParseWithin use32bit fuel rest).map (segment :: ·) := by
  cases octets with
  | nil => cases parsed
  | cons head tail =>
    rw [assegmentsParseWithin, parsed]
    · cases later : assegmentsParseWithin use32bit fuel rest <;> simp [later]
    · exact cons_ne_nil head tail

theorem assegmentsParseWithin_octets {parts : List AsSegment}
    (sizes : ∀ part ∈ parts, part.as ≠ [] ∧ part.as.length ≤ 255) {fuel : Nat}
    (enough : parts.length ≤ fuel) :
    assegmentsParseWithin use32bit fuel (parts.flatMap (AsSegment.octets use32bit)) =
      some (parts.map (AsSegment.conveyed use32bit)) := by
  induction parts generalizing fuel with
  | nil => cases fuel <;> rfl
  | cons part parts induction =>
    have size := sizes part mem_cons_self
    cases fuel with
    | zero => simp at enough
    | succ fuel =>
      rw [flatMap_cons, assegmentsParseWithin_of_parse (assegmentParse_octets size.1 size.2 _)]
      simp [induction (forall_mem_cons.mp sizes).2 (Nat.le_of_succ_le_succ enough)]

/-! ### The parts of a segment -/

section

variable (nonempty : segment.as ≠ [])
include nonempty

theorem AsSegment.length_lastPart :
    segment.lastPart.length + 255 * segment.splits = segment.as.length ∧
      0 < segment.lastPart.length ∧ segment.lastPart.length ≤ 255 := by
  have positive : 0 < segment.as.length := length_pos_iff.mpr nonempty
  simp only [lastPart, splits, length_drop]
  omega

theorem AsSegment.parts_sizes : ∀ part ∈ segment.parts, part.as ≠ [] ∧ part.as.length ≤ 255 := by
  intro part member
  rcases mem_append.mp member with full | last
  · rw [eq_of_mem_replicate full]
    refine ⟨?_, by simp⟩
    rw [ne_eq, take_eq_nil_iff]
    exact fun empty => empty.elim (by simp) nonempty
  · rw [mem_singleton.mp last]
    have bounds := length_lastPart nonempty
    exact ⟨ne_nil_of_length_pos bounds.2.1, bounds.2.2⟩

theorem AsSegment.length_take_of_splits {turns : Nat} (splits : segment.splits = turns + 1) :
    (segment.as.take 255).length = 255 := by
  have bounds := length_lastPart nonempty
  rw [length_take]
  omega

theorem segmentPut_eq :
    segmentPut use32bit segment [] = segment.parts.flatMap (AsSegment.octets use32bit) := by
  rw [segmentPut, AsSegment.parts, flatMap_append, flatMap_replicate]
  congr 1
  · cases splits : segment.splits with
    | zero => rfl
    | succ turns => rw [AsSegment.octets, length_take_of_splits nonempty splits]
  · simp [AsSegment.octets]

theorem length_segmentPut :
    (segmentPut use32bit segment []).length =
      segment.splits * assegmentSize use32bit 255 +
        assegmentSize use32bit segment.lastPart.length := by
  rw [segmentPut_eq nonempty, AsSegment.parts, flatMap_append, flatMap_replicate, flatMap_singleton,
    length_append, length_flatten, map_replicate, sum_replicate_nat, length_octets, length_octets]
  cases splits : segment.splits with
  | zero => simp
  | succ turns => rw [length_take_of_splits nonempty splits]

theorem segmentCount_eq (few : segment.splits ≤ 1) :
    segmentCount use32bit segment [] = (segmentPut use32bit segment []).length := by
  rw [length_segmentPut nonempty, segmentCount]
  cases splits : segment.splits with
  | zero => simp
  | succ turns =>
    have none : turns = 0 := by omega
    subst none
    simp

theorem segmentCount_gt (many : 1 < segment.splits) :
    (segmentPut use32bit segment []).length < segmentCount use32bit segment [] := by
  have atLeast : ∀ turns, turns * assegmentSize use32bit 255 ≤
      ((List.range turns).map fun turn => assegmentSize use32bit (255 * (turn + 1))).sum := by
    intro turns
    induction turns with
    | zero => simp
    | succ turns induction =>
      have more : assegmentSize use32bit 255 ≤ assegmentSize use32bit (255 * (turns + 1)) := by
        unfold assegmentSize
        gcongr
        omega
      rw [range_succ, map_append, sum_append, Nat.add_mul]
      simp only [map_cons, map_nil, sum_singleton]
      omega
  rw [length_segmentPut nonempty, segmentCount]
  rcases Nat.exists_eq_add_of_lt many with ⟨turns, splits⟩
  have strictly : assegmentSize use32bit 255 < assegmentSize use32bit (255 * (1 + turns + 1)) := by
    have width : 0 < asValueSize use32bit := by cases use32bit <;> decide
    unfold assegmentSize
    gcongr
    omega
  have before := atLeast (1 + turns)
  rw [splits, range_succ, map_append, sum_append, Nat.add_mul (1 + turns)]
  simp only [map_cons, map_nil, sum_singleton, flatMap_nil, append_nil]
  omega

end

def AsSegment.Writable (segment : AsSegment) : Prop :=
  segment.as.length ≤ if segment.type = .asSequence then 510 else 255

instance (segment : AsSegment) : Decidable segment.Writable :=
  inferInstanceAs (Decidable (segment.as.length ≤ _))

theorem AsSegment.Writable.splits_le (writable : segment.Writable) : segment.splits ≤ 1 := by
  unfold Writable at writable
  unfold splits
  split at writable <;> omega

theorem AsPath.elements_parts (writable : segment.Writable) :
    AsPath.elements (segment.parts.map (AsSegment.conveyed use32bit)) =
      (segment.conveyed use32bit).elements := by
  unfold AsSegment.Writable at writable
  by_cases sequence : segment.type = .asSequence
  · rw [if_pos sequence] at writable
    have few : segment.splits = 0 ∨ segment.splits = 1 := by
      unfold AsSegment.splits
      omega
    rcases segment with ⟨type, as⟩
    cases sequence
    rcases few with none | one
    · simp [AsSegment.parts, AsSegment.lastPart, none, AsPath.elements]
    · simp [AsSegment.parts, AsSegment.lastPart, one, AsPath.elements, AsSegment.elements,
        AsSegment.conveyed]
  · rw [if_neg sequence] at writable
    have none : segment.splits = 0 := by
      unfold AsSegment.splits
      omega
    simp [AsSegment.parts, AsSegment.lastPart, none, AsPath.elements]

end

/-! ### The parts of a path -/

def AsPath.Separate (path : AsPath) : Prop :=
  path.IsChain fun segment next => segment.packable next = false

theorem separate_pathOf {elements : List PathElement}
    (proper : ∀ element ∈ elements, element.Proper) : (pathOf elements).Separate := by
  induction elements with
  | nil => exact .nil
  | cons element elements induction =>
    have rest := induction fun other member => proper other (mem_cons_of_mem _ member)
    cases element with
    | hop asno =>
      rw [pathOf]
      generalize pathOf elements = path at rest
      rcases path with _ | ⟨⟨type, as⟩, path⟩
      · exact .singleton _
      · -- A sequence in front takes the AS in; otherwise the AS is a sequence of its own.
        cases type with
        | asSequence =>
          cases path with
          | nil => exact .singleton _
          | cons next path =>
            rcases isChain_cons_cons.mp rest with ⟨apart, later⟩
            refine isChain_cons_cons.mpr ⟨?_, later⟩
            simp only [packable, Bool.and_eq_false_iff, decide_eq_false_iff_not, length_cons]
              at apart ⊢
            exact apart.imp id fun long => by omega
        | asSet | asConfedSequence | asConfedSet => exact isChain_cons_cons.mpr ⟨rfl, rest⟩
    | segment segment =>
      have other := (proper (.segment segment) mem_cons_self).1
      rw [pathOf]
      cases following : pathOf elements with
      | nil => exact .singleton _
      | cons next path =>
        refine isChain_cons_cons.mpr ⟨?_, following ▸ rest⟩
        simp [packable, other]

theorem AsPath.Normalised.separate {path : AsPath} (normalised : path.Normalised) :
    path.Separate := by
  rw [← normalised.eq_pathOf]
  exact separate_pathOf path.elements_proper

def writtenSegments (use32bit : Bool) : Nat → AsPath → AsPath
  | _, [] => []
  | room, segment :: rest =>
    if room < assegmentSize use32bit segment.as.length then []
    else segment :: writtenSegments use32bit (room - (segmentPut use32bit segment []).length) rest

def pathOctets (use32bit : Bool) (path : AsPath) : Bytes :=
  path.flatMap fun segment => segmentPut use32bit segment []

def pathCount (use32bit : Bool) (path : AsPath) : Nat :=
  (path.map fun segment => segmentCount use32bit segment []).sum

section

variable {use32bit : Bool} {path : AsPath}

variable {segment : AsSegment}

theorem pathOctets_cons : pathOctets use32bit (segment :: path) =
    segmentPut use32bit segment [] ++ pathOctets use32bit path := rfl

theorem pathCount_cons : pathCount use32bit (segment :: path) =
    segmentCount use32bit segment [] + pathCount use32bit path := rfl

theorem AsPath.Separate.packed_nil {rest : AsPath} (separate : Separate (segment :: rest)) :
    rest.takeWhile segment.packable = [] ∧ rest.dropWhile segment.packable = rest := by
  cases rest with
  | nil => exact ⟨rfl, rfl⟩
  | cons next rest =>
    have apart := (isChain_cons_cons.mp separate).1
    rw [takeWhile_cons, dropWhile_cons, apart]
    exact ⟨rfl, rfl⟩

theorem aspathPutWithin_eq (separate : path.Separate) {fuel room : Nat}
    (enough : path.length ≤ fuel) :
    aspathPutWithin use32bit fuel room path =
      if (pathOctets use32bit (writtenSegments use32bit room path)).length ≤ room then
        some (pathOctets use32bit (writtenSegments use32bit room path),
          pathCount use32bit (writtenSegments use32bit room path))
      else none := by
  induction path generalizing fuel room with
  | nil =>
    rw [aspathPutWithin]
    exact (if_pos (Nat.zero_le room)).symm
  | cons segment rest induction =>
    cases fuel with
    | zero => simp at enough
    | succ fuel =>
      rw [aspathPutWithin, separate.packed_nil.1, separate.packed_nil.2, writtenSegments]
      by_cases large : room < assegmentSize use32bit segment.as.length
      · rw [if_pos large, if_pos large]
        exact (if_pos (Nat.zero_le room)).symm
      · rw [if_neg large, if_neg large, pathOctets_cons, length_append]
        dsimp only
        rw [induction separate.tail (Nat.le_of_succ_le_succ enough)]
        split_ifs <;> first | omega | rfl

theorem assegmentSize_le_length (nonempty : segment.as ≠ []) :
    assegmentSize use32bit segment.as.length ≤ (segmentPut use32bit segment []).length := by
  have bounds := length_lastPart nonempty
  have total : assegmentSize use32bit segment.as.length =
      segment.splits * (255 * asValueSize use32bit) +
        assegmentSize use32bit segment.lastPart.length := by
    rw [← bounds.1]
    unfold assegmentSize
    ring
  rw [total, length_segmentPut nonempty]
  gcongr
  unfold assegmentSize
  omega

theorem writtenSegments_self (hasAses : path.HasAses) {room : Nat}
    (fits : (pathOctets use32bit path).length ≤ room) :
    writtenSegments use32bit room path = path := by
  induction path generalizing room with
  | nil => rfl
  | cons segment rest induction =>
    have size := @assegmentSize_le_length use32bit segment (hasAses segment mem_cons_self)
    rw [pathOctets_cons, length_append] at fits
    rw [writtenSegments, if_neg (by omega), induction (forall_mem_cons.mp hasAses).2 (by omega)]

theorem writtenSegments_starts (room : Nat) : writtenSegments use32bit room path <+: path := by
  induction path generalizing room with
  | nil => exact prefix_rfl
  | cons segment rest induction =>
    rw [writtenSegments]
    split
    · exact nil_prefix
    · exact cons_prefix_cons.mpr ⟨rfl, induction _⟩

theorem aspathPut_eq (hasAses : path.HasAses) (room : Nat) :
    aspathPut use32bit room path = aspathPutWithin use32bit path.length room path := by
  unfold aspathPut
  split
  · rename_i type rest
    exact absurd rfl (hasAses ⟨type, []⟩ mem_cons_self)
  · rfl

def readBack (use32bit : Bool) (path : AsPath) : AsPath :=
  assegmentNormalise ((path.flatMap AsSegment.parts).map (AsSegment.conveyed use32bit))

theorem pathOctets_eq (hasAses : path.HasAses) :
    pathOctets use32bit path =
      (path.flatMap AsSegment.parts).flatMap (AsSegment.octets use32bit) := by
  rw [flatMap_assoc]
  apply flatMap_congr
  intro segment member
  exact segmentPut_eq (hasAses segment member)

theorem parts_sizes (hasAses : path.HasAses) :
    ∀ part ∈ path.flatMap AsSegment.parts, part.as ≠ [] ∧ part.as.length ≤ 255 := by
  intro part member
  rcases mem_flatMap.mp member with ⟨segment, inPath, inParts⟩
  exact AsSegment.parts_sizes (hasAses segment inPath) part inParts

theorem length_flatMap_octets_even (parts : List AsSegment) :
    (parts.flatMap (AsSegment.octets use32bit)).length % 2 = 0 := by
  induction parts with
  | nil => rfl
  | cons part parts induction =>
    have even : assegmentSize use32bit part.as.length % 2 = 0 := by
      cases use32bit with
      | false => simp [assegmentSize, asValueSize]
      | true =>
        simp only [assegmentSize, asValueSize, if_true]
        omega
    rw [flatMap_cons, length_append, length_octets]
    omega

theorem length_le_flatMap_octets (parts : List AsSegment) :
    parts.length ≤ (parts.flatMap (AsSegment.octets use32bit)).length := by
  induction parts with
  | nil => exact Nat.le_refl 0
  | cons part parts induction =>
    rw [flatMap_cons, length_append, length_octets, length_cons]
    unfold assegmentSize
    omega

section

variable (hasAses : path.HasAses)
include hasAses

theorem aspathParse_pathOctets :
    aspathParse (pathOctets use32bit path) use32bit = some (readBack use32bit path) := by
  have even := @length_flatMap_octets_even use32bit (path.flatMap AsSegment.parts)
  rw [aspathParse, pathOctets_eq hasAses, if_neg (by omega),
    assegmentsParseWithin_octets (parts_sizes hasAses) (length_le_flatMap_octets _)]
  rfl

theorem length_pathOctets_le_pathCount :
    (pathOctets use32bit path).length ≤ pathCount use32bit path ∧
      ((pathOctets use32bit path).length = pathCount use32bit path ↔
        ∀ segment ∈ path, segment.splits ≤ 1) := by
  induction path with
  | nil => simp [pathOctets, pathCount]
  | cons segment rest induction =>
    rcases forall_mem_cons.mp hasAses with ⟨nonempty, restAses⟩
    have later := induction restAses
    rw [pathOctets_cons, length_append, pathCount_cons, forall_mem_cons, ← later.2]
    by_cases few : segment.splits ≤ 1
    · have same := @segmentCount_eq use32bit segment nonempty few
      omega
    · have more := @segmentCount_gt use32bit segment nonempty (by omega)
      omega

theorem aspathRead_eq_some {result : AsPath} :
    aspathRead use32bit (pathOctets use32bit path) (pathCount use32bit path) = some result ↔
      (∀ segment ∈ path, segment.splits ≤ 1) ∧ result = readBack use32bit path := by
  have counts := @length_pathOctets_le_pathCount use32bit path hasAses
  unfold aspathRead
  by_cases exact : (pathOctets use32bit path).length = pathCount use32bit path
  · rw [if_neg (by omega), ← exact, take_length, aspathParse_pathOctets hasAses]
    rw [Option.some.injEq, eq_comm]
    exact (and_iff_right (counts.2.mp exact)).symm
  · rw [if_pos (by omega)]
    exact iff_of_false nofun fun both => exact (counts.2.mpr both.1)

theorem AsPath.HasAses.conveyed : HasAses (path.map (AsSegment.conveyed use32bit)) := by
  simpa [HasAses, AsSegment.conveyed] using hasAses

theorem hasAses_parts :
    HasAses ((path.flatMap AsSegment.parts).map (AsSegment.conveyed use32bit)) :=
  AsPath.HasAses.conveyed fun part member => (parts_sizes hasAses part member).1

theorem readBack_eq (writable : ∀ segment ∈ path, segment.Writable) :
    readBack use32bit path = pathOf (AsPath.elements (path.map (AsSegment.conveyed use32bit))) := by
  rw [readBack, assegmentNormalise_eq (hasAses_parts hasAses)]
  congr 1
  rw [map_flatMap, AsPath.elements, AsPath.elements, flatMap_assoc, flatMap_map]
  apply flatMap_congr
  intro segment member
  exact elements_parts (writable segment member)

end

theorem AsSegment.length_sortSet_le (segment : AsSegment) :
    segment.sortSet.as.length ≤ segment.as.length := by
  rcases segment with ⟨type, as⟩
  cases type with
  | asSet | asConfedSet =>
    exact (destutter_sublist _ _).length_le.trans (Nat.le_of_eq (length_insertionSort _ _))
  | asSequence | asConfedSequence => exact Nat.le_refl _

theorem normalised_readBack (hasAses : path.HasAses) : (readBack use32bit path).Normalised := by
  rw [readBack, assegmentNormalise_eq (hasAses_parts hasAses)]
  exact normalised_pathOf (hasAses_parts hasAses)

theorem elements_readBack_parts (hasAses : path.HasAses) :
    (readBack use32bit path).elements = AsPath.elements
      ((path.flatMap AsSegment.parts).map (AsSegment.conveyed use32bit)) := by
  rw [readBack, assegmentNormalise_eq (hasAses_parts hasAses),
    elements_pathOf (elements_proper _)]

theorem readBack_short (hasAses : path.HasAses)
    (member : .segment segment ∈ (readBack use32bit path).elements) : segment.as.length ≤ 255 := by
  rw [elements_readBack_parts hasAses] at member
  rcases mem_flatMap.mp member with ⟨conveyed, isConveyed, inElements⟩
  rcases mem_map.mp isConveyed with ⟨part, isPart, rfl⟩
  have short := (parts_sizes hasAses part isPart).2
  by_cases sequence : part.type = .asSequence
  · have hops : (part.conveyed use32bit).elements =
        (part.as.map (asConveyed use32bit)).map .hop := by
      simp [AsSegment.elements, AsSegment.conveyed, sequence]
    rw [hops] at inElements
    rcases mem_map.mp inElements with ⟨asno, _, impossible⟩
    cases impossible
  · have whole : (part.conveyed use32bit).elements = [.segment (part.conveyed use32bit).sortSet] :=
      elements_of_ne sequence
    rw [whole] at inElements
    cases mem_singleton.mp inElements
    apply (length_sortSet_le _).trans
    rw [AsSegment.conveyed, length_map]
    exact short

/-! ### Sizes -/

def AsPath.wireSize (use32bit : Bool) (path : AsPath) : Nat :=
  (path.map fun segment =>
    2 * ((segment.as.length + 254) / 255) + segment.as.length * asValueSize use32bit).sum

theorem length_pathOctets (hasAses : path.HasAses) :
    (pathOctets use32bit path).length = path.wireSize use32bit := by
  rw [pathOctets, length_flatMap]
  congr 1
  apply map_congr_left
  intro segment member
  have nonempty := hasAses segment member
  have bounds := length_lastPart nonempty
  have count : (segment.as.length + 254) / 255 = segment.splits + 1 := by omega
  rw [length_segmentPut nonempty, count, ← bounds.1]
  unfold assegmentSize
  ring

theorem length_segmentPut_mono (nonempty : segment.as ≠ []) :
    (segmentPut false segment []).length ≤ (segmentPut true segment []).length := by
  rw [length_segmentPut nonempty, length_segmentPut nonempty]
  unfold assegmentSize
  gcongr <;> decide

theorem writtenSegments_mono (hasAses : path.HasAses) {room more : Nat} (atMost : room ≤ more) :
    writtenSegments true room path <+: writtenSegments false more path := by
  induction path generalizing room more with
  | nil => exact prefix_rfl
  | cons segment rest induction =>
    have size := length_segmentPut_mono (hasAses segment mem_cons_self)
    have header : assegmentSize false segment.as.length ≤ assegmentSize true segment.as.length := by
      unfold assegmentSize
      gcongr
      decide
    rw [writtenSegments, writtenSegments]
    by_cases large : room < assegmentSize true segment.as.length
    · rw [if_pos large]
      exact nil_prefix
    · rw [if_neg large, if_neg (by omega)]
      exact cons_prefix_cons.mpr ⟨rfl, induction (forall_mem_cons.mp hasAses).2 (by omega)⟩

end

end Quagga.Bgp
