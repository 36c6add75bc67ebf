import Quagga.Bgp.AsPathWire
import Quagga.Bgp.UpdateMessage

/-!
# AS paths across two-octet speakers

A peer that only knows AS numbers of two octets gets the path with `AS_TRANS` for the others,
and the path itself as AS4_PATH. A speaker behind it puts the two together again by the
number of their hops.
-/

namespace Quagga.Bgp

open Foundation List AsPath AsSegment

variable {written : AsPath}

def AsPath.hasAs4 (path : AsPath) : Bool := path.toArray.any fun asno => 65535 < asno

/-- What is written for a peer of two octets: the octets and the length of each path. -/
structure OldEncoding where
  asPath : Bytes × Nat
  as4Path? : Option (Bytes × Nat)

/-- Both paths go to one stream, with the octets of other attributes between them. -/
def encodeOld (room between : Nat) (path : AsPath) : Option OldEncoding := do
  let asPath ← aspathPut false room path
  if path.hasAs4 then
    let as4Path ← aspathPut true (room - asPath.1.length - between) path
    return ⟨asPath, some as4Path⟩
  else return ⟨asPath, none⟩

def receivedPaths (asPath : AsPath) (as4Path? : Option AsPath) : ParseState :=
  { ParseState.initial with
    as4Path? := as4Path?
    attr := { (Attr.zero : Attr Dbgp.Transit) with
      aspath? := some asPath
      flag := if as4Path?.isSome then {.asPath, .as4Path} else {.asPath} } }

def AsPath.prependAll (prepended : List UInt32) (path : AsPath) : AsPath :=
  prepended.foldr (fun asno path => path.addSeq asno) path

/-- What a speaker makes of the two paths, after others have prepended to the first. -/
def decodeOld (peer : ReceivingPeer) (prepended : List UInt32) (encoding : OldEncoding) :
    Option AsPath := do
  let asPath ← aspathRead false encoding.asPath.1 encoding.asPath.2
  let asPath := asPath.prependAll prepended
  match encoding.as4Path? with
  | none => (bgpAttrMungeAs4Attrs peer (receivedPaths asPath none) asPath).aspath?
  | some (octets, length) =>
    let as4Path ← aspathRead true octets length
    (bgpAttrMungeAs4Attrs peer (receivedPaths asPath (some as4Path)) asPath).aspath?

/-- Whatever two-octet speakers are between, the path arrives behind their ASes. -/
def IsTransparent (peer : ReceivingPeer) (room between : Nat) (path : AsPath) : Prop :=
  ∀ prepended : List UInt32, (∀ asno ∈ prepended, asno ≤ 65535) →
    ∃ encoding, encodeOld room between path = some encoding ∧
      decodeOld peer prepended encoding = some (path.prependAll prepended)

/-! ## What is read back -/

section

variable {use32bit : Bool} {path : AsPath}

theorem AsPath.Normalised.prependAll (normalised : path.Normalised) (prepended : List UInt32) :
    (path.prependAll prepended).Normalised ∧
      (path.prependAll prepended).elements = prepended.map .hop ++ path.elements := by
  induction prepended with
  | nil => exact ⟨normalised, rfl⟩
  | cons asno prepended induction =>
    have added := induction.1.addSeq asno
    refine ⟨added.1, ?_⟩
    rw [map_cons, cons_append, ← induction.2]
    exact added.2

theorem confedCheck_flatMap_parts (path : AsPath) :
    confedCheck ((path.flatMap parts).map (AsSegment.conveyed use32bit)) =
      path.confedCheck := by
  rw [confedCheck, any_map, any_flatMap]
  congr 1
  funext segment
  rcases segment with ⟨type, as⟩
  cases type <;> simp [parts, AsSegment.conveyed]

theorem AsPath.HasAses.of_starts (hasAses : path.HasAses) (starts : written <+: path) :
    written.HasAses :=
  fun segment member => hasAses segment (starts.subset member)

theorem confedCheck_readBack (hasAses : path.HasAses) :
    (readBack use32bit path).confedCheck = path.confedCheck := by
  rw [confedCheck_eq, elements_readBack_parts hasAses, ← confedCheck_eq, confedCheck_flatMap_parts]

theorem elements_readBack (hasAses : path.HasAses) (writable : ∀ segment ∈ path, segment.Writable) :
    (readBack use32bit path).elements =
      AsPath.elements (path.map (AsSegment.conveyed use32bit)) := by
  rw [readBack_eq hasAses writable, elements_pathOf (elements_proper _)]

theorem map_conveyed (small : use32bit = false → path.hasAs4 = false) :
    path.map (AsSegment.conveyed use32bit) = path := by
  refine (map_congr_left fun segment member => ?_).trans (map_id path)
  have same : segment.as.map (asConveyed use32bit) = segment.as := by
    refine (map_congr_left fun asno inSegment => ?_).trans (map_id segment.as)
    cases use32bit with
    | true => rfl
    | false =>
      have notLarge := any_eq_false.mp (small rfl) asno
        (mem_flatMap.mpr ⟨segment, member, inSegment⟩)
      simp_all [asConveyed]
  rw [AsSegment.conveyed, same]
  rfl

theorem length_elements_conveyed (path : AsPath) :
    (AsPath.elements (path.map (AsSegment.conveyed use32bit))).length = path.elements.length := by
  induction path with
  | nil => rfl
  | cons segment path induction =>
    rw [map_cons, elements_cons, elements_cons, length_append, length_append, induction]
    rcases segment with ⟨type, as⟩
    cases type <;> simp [AsSegment.elements, AsSegment.conveyed]

theorem eq_of_prefix_of_length (starts : written <+: path) (hasAses : path.HasAses)
    (same : path.elements.length ≤ written.elements.length) : written = path := by
  rcases starts with ⟨rest, rfl⟩
  cases rest with
  | nil => rw [append_nil]
  | cons segment rest =>
    have nonempty := hasAses segment (mem_append_right _ mem_cons_self)
    have positive : 0 < segment.elements.length := by
      rcases segment with ⟨type, as⟩
      cases type <;> simp_all [AsSegment.elements, length_pos_iff]
    rw [elements_append, elements_cons, length_append, length_append] at same
    omega

theorem writable_of_splits (few : ∀ segment ∈ path, segment.splits ≤ 1)
    (short : ∀ segment ∈ path, segment.type ≠ .asSequence → segment.as.length ≤ 255) :
    ∀ segment ∈ path, segment.Writable := by
  intro segment member
  unfold Writable
  split
  · have bound := few segment member
    unfold splits at bound
    omega
  · exact short segment member ‹_›

end

/-! ## The two paths together -/

theorem mungeAs4_eq {peer : ReceivingPeer} (old : peer.as4Rcv = false) (path : AsPath)
    (as4Path? : Option AsPath) :
    (bgpAttrMungeAs4Attrs peer (receivedPaths path as4Path?) path).aspath? =
      some (as4Path?.elim path path.reconcileAs4) := by
  unfold bgpAttrMungeAs4Attrs receivedPaths
  rw [old]
  cases as4Path? <;> rfl

theorem decodeOld_eq_some_iff {peer : ReceivingPeer} (old : peer.as4Rcv = false)
    {prepended : List UInt32} {encoding : OldEncoding} {result : AsPath} :
    decodeOld peer prepended encoding = some result ↔
      ∃ asPath, aspathRead false encoding.asPath.1 encoding.asPath.2 = some asPath ∧
        match encoding.as4Path? with
        | none => asPath.prependAll prepended = result
        | some as4 => ∃ as4Path, aspathRead true as4.1 as4.2 = some as4Path ∧
            (asPath.prependAll prepended).reconcileAs4 as4Path = result := by
  rw [decodeOld, Option.bind_eq_bind, Option.bind_eq_some_iff]
  cases encoding.as4Path? with
  | none => simp only [mungeAs4_eq old, Option.elim_none, Option.some.injEq]
  | some as4 =>
    simp only [mungeAs4_eq old, Option.elim_some, Option.bind_eq_some_iff, Option.some.injEq]

/-- What is put in front of a list of large and small elements is small, and moves the list:
then there are no large ones. -/
theorem not_of_shifted {α : Type*} {Large : α → Prop} {elements small : List α} {shift : Nat}
    (positive : 0 < shift) (allSmall : ∀ element ∈ small, ¬ Large element)
    (enough : shift ≤ small.length)
    (shifted : elements = small.take shift ++ elements.take (elements.length - shift)) :
    ∀ element ∈ elements, ¬ Large element := by
  have atIndex : ∀ (index : Nat) (element : α), elements[index]? = some element →
      ¬ Large element := by
    intro index
    induction index using Nat.strong_induction_on with
    | _ index induction =>
      intro element found
      rw [shifted] at found
      by_cases first : index < shift
      · rw [getElem?_append_left (by rw [length_take]; omega)] at found
        exact allSmall element (mem_of_mem_take (mem_of_getElem? found))
      · rw [getElem?_append_right (by rw [length_take]; omega)] at found
        have before := List.getElem?_eq_some_iff.mp found
        rcases before with ⟨bound, same⟩
        rw [getElem_take] at same
        apply induction (index - (small.take shift).length)
        · rw [length_take] at *
          omega
        · rw [List.getElem?_eq_some_iff]
          exact ⟨_, same⟩
  intro element member
  rcases mem_iff_getElem?.mp member with ⟨index, found⟩
  exact atIndex index element found

/-! ## When a path is conveyed -/

/-- Every segment can be written, and both paths fit into the stream. -/
structure AsPath.Conveyable (room between : Nat) (path : AsPath) : Prop where
  writable : ∀ segment ∈ path, segment.Writable
  fits : path.wireSize false ≤ room
  as4Fits : path.hasAs4 = true → path.wireSize false + between + path.wireSize true ≤ room

section

variable {peer : ReceivingPeer} {room between : Nat} {path : AsPath}

variable {use32bit : Bool}

section

variable (normalised : path.Normalised)
include normalised

theorem aspathPut_of_fits (fits : path.wireSize use32bit ≤ room) :
    aspathPut use32bit room path = some (pathOctets use32bit path, pathCount use32bit path) := by
  rw [← length_pathOctets normalised.hasAses] at fits
  rw [aspathPut_eq normalised.hasAses, aspathPutWithin_eq normalised.separate (Nat.le_refl _),
    writtenSegments_self normalised.hasAses fits, if_pos fits]

theorem readBack_self (writable : ∀ segment ∈ path, segment.Writable)
    (small : use32bit = false → path.hasAs4 = false) : readBack use32bit path = path := by
  rw [readBack_eq normalised.hasAses writable, map_conveyed small, normalised.eq_pathOf]

theorem confedCheck_prependAll (noConfed : path.confedCheck = false) (prepended : List UInt32) :
    (path.prependAll prepended).confedCheck = false := by
  rw [confedCheck_eq, (normalised.prependAll prepended).2, any_append, ← confedCheck_eq, noConfed]
  simp [PathElement.isConfed]

theorem reconcileAs4_prependAll (noConfed : path.confedCheck = false)
    (writable : ∀ segment ∈ path, segment.Writable) (prepended : List UInt32) :
    ((readBack false path).prependAll prepended).reconcileAs4 path = path.prependAll prepended := by
  have read := @normalised_readBack false path normalised.hasAses
  have readNoConfed : (readBack false path).confedCheck = false := by
    rw [confedCheck_readBack normalised.hasAses, noConfed]
  have longer := read.prependAll prepended
  have hops : ((readBack false path).prependAll prepended).elements.length =
      prepended.length + path.elements.length := by
    rw [longer.2, length_append, length_map,
      elements_readBack normalised.hasAses writable, length_elements_conveyed]
  have original := normalised.prependAll prepended
  rw [longer.1.reconcileAs4 normalised (confedCheck_prependAll read readNoConfed prepended)
      noConfed (by omega), hops, Nat.add_sub_cancel, longer.2, take_left' (length_map _),
    ← original.2, original.1.eq_pathOf]

end

theorem AsPath.Conveyable.transparent (conveyable : path.Conveyable room between)
    (normalised : path.Normalised) (noConfed : path.confedCheck = false)
    (old : peer.as4Rcv = false) : IsTransparent peer room between path := by
  have few : ∀ segment ∈ path, segment.splits ≤ 1 :=
    fun segment member => (conveyable.writable segment member).splits_le
  have read : ∀ use32bit, aspathRead use32bit (pathOctets use32bit path)
      (pathCount use32bit path) = some (readBack use32bit path) :=
    fun use32bit => (aspathRead_eq_some normalised.hasAses).mpr ⟨few, rfl⟩
  have put := @aspathPut_of_fits room path false normalised conveyable.fits
  intro prepended _
  cases large : path.hasAs4 with
  | false =>
    refine ⟨⟨(pathOctets false path, pathCount false path), none⟩, ?_, ?_⟩
    · rw [encodeOld, put, large]
      rfl
    · refine (decodeOld_eq_some_iff old).mpr ⟨_, read false, ?_⟩
      rw [readBack_self normalised conveyable.writable fun _ => large]
  | true =>
    have fits := conveyable.as4Fits large
    have put4 := @aspathPut_of_fits (room - path.wireSize false - between) path true normalised
      (by omega)
    refine ⟨⟨(pathOctets false path, pathCount false path),
      some (pathOctets true path, pathCount true path)⟩, ?_, ?_⟩
    · rw [encodeOld, put, large]
      simp only [Option.bind_eq_bind, Option.bind_some]
      rw [length_pathOctets normalised.hasAses, put4]
      rfl
    · refine (decodeOld_eq_some_iff old).mpr ⟨_, read false, _, read true, ?_⟩
      have same4 : readBack true path = path := readBack_self normalised conveyable.writable nofun
      rw [same4, reconcileAs4_prependAll normalised noConfed conveyable.writable]

/-! ### What is conveyed can be written -/

theorem AsPath.Normalised.segment_mem (normalised : path.Normalised) {segment : AsSegment}
    (member : segment ∈ path) (other : segment.type ≠ .asSequence) :
    .segment segment ∈ path.elements := by
  rw [← normalised.eq_pathOf] at member
  exact mem_pathOf member other

theorem written_of_aspathPut (normalised : path.Normalised) {encoded : Bytes × Nat}
    (put : aspathPut use32bit room path = some encoded) :
    encoded = (pathOctets use32bit (writtenSegments use32bit room path),
        pathCount use32bit (writtenSegments use32bit room path)) ∧
      encoded.1.length ≤ room := by
  rw [aspathPut_eq normalised.hasAses, aspathPutWithin_eq normalised.separate (Nat.le_refl _),
    Option.ite_none_right_eq_some] at put
  rcases put with ⟨fits, ⟨⟩⟩
  exact ⟨rfl, fits⟩

theorem length_elements_readBack_mono {more : AsPath} (starts : written <+: more)
    (hasAses : more.HasAses) :
    (readBack true written).elements.length ≤ (readBack false more).elements.length := by
  rw [elements_readBack_parts (hasAses.of_starts starts), elements_readBack_parts hasAses,
    length_elements_conveyed, length_elements_conveyed]
  rcases starts with ⟨rest, rfl⟩
  rw [flatMap_append, elements_append, length_append]
  exact Nat.le_add_right _ _

theorem wireSize_le_of_written (normalised : path.Normalised)
    (fits : (pathOctets use32bit (writtenSegments use32bit room path)).length ≤ room)
    (same : path.elements.length ≤ (writtenSegments use32bit room path).elements.length) :
    writtenSegments use32bit room path = path ∧ path.wireSize use32bit ≤ room := by
  have whole := eq_of_prefix_of_length (writtenSegments_starts room) normalised.hasAses same
  rw [whole, length_pathOctets normalised.hasAses] at fits
  exact ⟨whole, fits⟩

theorem not_large_conveyed (path : AsPath) :
    ∀ element ∈ AsPath.elements (path.map (AsSegment.conveyed false)),
      ¬ ∃ asno ∈ element.ases, 65535 < asno := by
  have small : ∀ asno, asConveyed false asno ≤ 65535 := by
    intro asno
    unfold asConveyed
    split
    · rename_i fits
      simpa using fits
    · decide
  intro element member large
  rcases large with ⟨asno, inElement, large⟩
  rcases mem_flatMap.mp member with ⟨conveyed, isConveyed, inSegment⟩
  rcases mem_map.mp isConveyed with ⟨segment, _, rfl⟩
  rcases mem_map.mp (mem_of_mem_elements inSegment inElement) with
    ⟨original, _, rfl⟩
  exact absurd (small original) (UInt32.not_le.mpr large)

theorem exists_large (normalised : path.Normalised) (large : path.hasAs4 = true) :
    ∃ element ∈ path.elements, ∃ asno ∈ element.ases, 65535 < asno := by
  rcases any_eq_true.mp large with ⟨asno, inPath, isLarge⟩
  rw [← normalised.eq_pathOf, toArray_pathOf] at inPath
  rcases mem_flatMap.mp inPath with ⟨element, member, inElement⟩
  exact ⟨element, member, asno, inElement, of_decide_eq_true isLarge⟩

theorem writable_of_asPath (normalised : path.Normalised) (starts : written <+: path)
    (few : ∀ segment ∈ written, segment.splits ≤ 1) (read : path = readBack use32bit written) :
    (∀ segment ∈ written, segment.Writable) ∧ path.elements.length ≤ written.elements.length := by
  have hasAses := normalised.hasAses.of_starts starts
  have writable := writable_of_splits few fun segment member other => by
    have inPath := normalised.segment_mem (starts.subset member) other
    rw [read] at inPath
    exact readBack_short hasAses inPath
  refine ⟨writable, ?_⟩
  rw [read, elements_readBack hasAses writable, length_elements_conveyed]

/-- A path with AS4_PATH: the path itself has all its segments only if AS4_PATH has, since
what AS4_PATH does not have comes with `AS_TRANS`. -/
theorem writable_of_reconciled {written4 : AsPath} (normalised : path.Normalised)
    (noConfed : path.confedCheck = false) (large : path.hasAs4 = true) (starts : written <+: path)
    (starts4 : written4 <+: written) (few : ∀ segment ∈ written, segment.splits ≤ 1)
    (read : path = (readBack false written).reconcileAs4 (readBack true written4)) :
    (∀ segment ∈ written, segment.Writable) ∧
      path.elements.length ≤ written.elements.length ∧
      path.elements.length ≤ written4.elements.length := by
  have hasAses := normalised.hasAses.of_starts starts
  have hasAses4 := hasAses.of_starts starts4
  have noConfedOf : ∀ use32bit {part : AsPath}, part <+: path →
      (readBack use32bit part).confedCheck = false := by
    intro use32bit part isPart
    rw [confedCheck_readBack (normalised.hasAses.of_starts isPart)]
    apply any_eq_false.mpr
    exact fun segment member => any_eq_false.mp noConfed segment (isPart.subset member)
  have elements : path.elements =
      (readBack false written).elements.take ((readBack false written).elements.length -
        (readBack true written4).elements.length) ++ (readBack true written4).elements := by
    have reconciled := (normalised_readBack hasAses).reconcileAs4 (normalised_readBack hasAses4)
      (noConfedOf false starts) (noConfedOf true (starts4.trans starts))
      (length_elements_readBack_mono starts4 hasAses)
    rw [read, reconciled]
    apply elements_pathOf
    intro element member
    rcases mem_append.mp member with first | second
    · exact elements_proper _ element (mem_of_mem_take first)
    · exact elements_proper _ element second
  have writable := writable_of_splits few fun segment member other => by
    have inPath := normalised.segment_mem (starts.subset member) other
    rw [elements] at inPath
    rcases mem_append.mp inPath with first | second
    · exact readBack_short hasAses (mem_of_mem_take first)
    · exact readBack_short hasAses4 second
  have writable4 : ∀ segment ∈ written4, segment.Writable :=
    fun segment member => writable segment (starts4.subset member)
  have shorter : written4.elements.length ≤ written.elements.length := by
    have mono := length_elements_readBack_mono starts4 hasAses
    rw [elements_readBack hasAses writable, elements_readBack hasAses4 writable4,
      length_elements_conveyed, length_elements_conveyed] at mono
    exact mono
  have same4 : written4.map (AsSegment.conveyed true) = written4 := map_conveyed nofun
  rw [elements_readBack hasAses writable, elements_readBack hasAses4 writable4,
    length_elements_conveyed, same4] at elements
  have total : path.elements.length = written.elements.length := by
    rw [elements, length_append, length_take, length_elements_conveyed]
    omega
  refine ⟨writable, Nat.le_of_eq total, ?_⟩
  apply Nat.le_of_not_lt
  intro missing
  rcases exists_large normalised large with ⟨element, member, isLarge⟩
  have first4 : written4.elements = path.elements.take written4.elements.length := by
    rcases starts4.trans starts with ⟨rest, rfl⟩
    rw [elements_append, take_left']
    rfl
  have shifted : path.elements =
      (AsPath.elements (written.map (AsSegment.conveyed false))).take
        (path.elements.length - written4.elements.length) ++
      path.elements.take (path.elements.length -
        (path.elements.length - written4.elements.length)) := by
    rw [Nat.sub_sub_self (Nat.le_of_lt missing), ← first4, total]
    exact elements
  exact not_of_shifted (by omega) (not_large_conveyed written)
    (by rw [length_elements_conveyed]; omega) shifted element member isLarge

theorem wireSize_pos (use32bit : Bool) (hasAses : path.HasAses) (large : path.hasAs4 = true) :
    0 < path.wireSize use32bit := by
  cases path with
  | nil => cases large
  | cons segment rest =>
    have nonempty : 0 < segment.as.length := length_pos_iff.mpr (hasAses segment mem_cons_self)
    rw [wireSize, map_cons, sum_cons]
    omega

theorem IsTransparent.conveyable (transparent : IsTransparent peer room between path)
    (normalised : path.Normalised) (noConfed : path.confedCheck = false)
    (old : peer.as4Rcv = false) : path.Conveyable room between := by
  have starts := @writtenSegments_starts false path room
  have hasAses := normalised.hasAses.of_starts starts
  rcases transparent [] (fun asno member => absurd member not_mem_nil) with
    ⟨encoding, encoded, decoded⟩
  rw [encodeOld, Option.bind_eq_bind, Option.bind_eq_some_iff] at encoded
  rcases encoded with ⟨asPath, put, encoded⟩
  rcases written_of_aspathPut normalised put with ⟨rfl, fits⟩
  rcases (decodeOld_eq_some_iff old).mp decoded with ⟨read, readPath, rest⟩
  cases large : path.hasAs4 with
  | false =>
    rw [large] at encoded
    cases Option.some.inj encoded
    rcases (aspathRead_eq_some hasAses).mp readPath with ⟨few, rfl⟩
    rcases writable_of_asPath normalised starts few rest.symm with ⟨writable, all⟩
    rcases wireSize_le_of_written normalised fits all with ⟨whole, size⟩
    rw [whole] at writable
    exact ⟨writable, size, fun impossible => absurd impossible (by simp [large])⟩
  | true =>
    rw [large, if_pos rfl, Option.bind_eq_some_iff] at encoded
    rcases encoded with ⟨as4Path, put4, encoded⟩
    rcases written_of_aspathPut normalised put4 with ⟨rfl, fits4⟩
    cases Option.some.inj encoded
    rcases rest with ⟨read4, readPath4, same⟩
    rcases (aspathRead_eq_some hasAses).mp readPath with ⟨few, rfl⟩
    rcases (aspathRead_eq_some (normalised.hasAses.of_starts (writtenSegments_starts _))).mp
      readPath4 with ⟨_, rfl⟩
    have starts4 : writtenSegments true (room - (pathOctets false
        (writtenSegments false room path)).length - between) path <+:
        writtenSegments false room path :=
      writtenSegments_mono normalised.hasAses (by omega)
    rcases writable_of_reconciled normalised noConfed large starts starts4 few same.symm with
      ⟨writable, all, all4⟩
    rcases wireSize_le_of_written normalised fits all with ⟨whole, size⟩
    rcases wireSize_le_of_written normalised fits4 all4 with ⟨_, size4⟩
    rw [whole] at writable size4
    rw [length_pathOctets normalised.hasAses] at size4
    have positive := wireSize_pos true normalised.hasAses large
    exact ⟨writable, size, fun _ => by omega⟩

/-- A path crosses speakers of two octets exactly if its sequences have at most 510 ASes, its
sets at most 255, and both paths fit into the message. -/
theorem transparent_iff (normalised : path.Normalised) (noConfed : path.confedCheck = false)
    (old : peer.as4Rcv = false) :
    IsTransparent peer room between path ↔ path.Conveyable room between :=
  ⟨fun transparent => transparent.conveyable normalised noConfed old,
    fun conveyable => conveyable.transparent normalised noConfed old⟩

end

def mixedPath : AsPath := [⟨.asSequence, [70000, 200]⟩, ⟨.asSet, [300, 80000]⟩]

theorem mixedPath_transparent :
    mixedPath.Normalised ∧ mixedPath.confedCheck = false ∧ externalPeer.as4Rcv = false ∧
      IsTransparent externalPeer 4096 0 mixedPath := by
  have normalised : mixedPath.Normalised := ⟨by decide +kernel, by decide +kernel⟩
  refine ⟨normalised, rfl, rfl, (transparent_iff normalised rfl rfl).mpr ⟨?_, ?_, ?_⟩⟩
  · decide +kernel
  · decide +kernel
  · decide +kernel

/-- The length that `aspath_put` returns for 511 ASes is more than it writes. -/
theorem longSequence_not_transparent :
    AsPath.Normalised [⟨.asSequence, List.replicate 511 100⟩] ∧
      AsPath.confedCheck [⟨.asSequence, List.replicate 511 100⟩] = false ∧
      ¬ IsTransparent externalPeer 4096 0 [⟨.asSequence, List.replicate 511 100⟩] := by
  have lost : (encodeOld 4096 0 [⟨.asSequence, List.replicate 511 100⟩]).bind
      (decodeOld externalPeer []) = none := by
    decide +kernel
  refine ⟨⟨by decide +kernel, by decide +kernel⟩, by decide +kernel, ?_⟩
  intro transparent
  rcases transparent [] (fun asno member => absurd member not_mem_nil) with
    ⟨encoding, encoded, decoded⟩
  rw [encoded, Option.bind_some, decoded] at lost
  cases lost

end Quagga.Bgp
