import Quagga.Foundation.Octets
import Quagga.Foundation.Text

/-!
# AS paths

`bgp_aspath.c`: the segments of a path, their wire format and their text.
-/

namespace Quagga.Bgp

open Foundation

inductive SegmentType where
  | asSet
  | asSequence
  | asConfedSequence
  | asConfedSet
deriving Repr, DecidableEq

structure AsSegment where
  type : SegmentType
  as : List UInt32
deriving Repr, DecidableEq

abbrev AsPath := List AsSegment

namespace AsPath

def toArray (path : AsPath) : List UInt32 := path.flatMap AsSegment.as

def sizeCustom (path : AsPath) : Nat := (path.map fun segment => segment.as.length).sum

def loopCheck (path : AsPath) (asno : UInt32) : Nat := path.toArray.count asno

def privateAsCheck (path : AsPath) : Bool :=
  !path.isEmpty && path.toArray.all fun asno => 64512 ≤ asno && asno ≤ 65535

end AsPath

/-! ## Wire format -/

def SegmentType.ofCode? : UInt8 → Option SegmentType
  | 1 => some .asSet
  | 2 => some .asSequence
  | 3 => some .asConfedSequence
  | 4 => some .asConfedSet
  | _ => none

def AsSegment.sortSet (segment : AsSegment) : AsSegment :=
  match segment.type with
  | .asSet | .asConfedSet =>
    { segment with as := (segment.as.insertionSort (· ≤ ·)).destutter (· ≠ ·) }
  | .asSequence | .asConfedSequence => segment

/-- Sort the sets, and merge every run of sequences into one. -/
def assegmentNormalise : List AsSegment → List AsSegment
  | [] => []
  | segment :: rest =>
    match segment.type, assegmentNormalise rest with
    | .asSequence, ⟨.asSequence, as⟩ :: merged => ⟨.asSequence, segment.as ++ as⟩ :: merged
    | _, merged => segment.sortSet :: merged

/-- `BGP_AS_TRANS`, which stands for a number that does not fit into two octets. -/
def bgpAsTrans : UInt32 := 23456

def asValueSize (use32bit : Bool) : Nat := if use32bit then 4 else 2

def readAsNumbers (use32bit : Bool) : Nat → Bytes → List UInt32
  | 0, _ => []
  | count + 1, octets =>
    UInt32.ofNat (readBigEndian (octets.take (asValueSize use32bit))) ::
      readAsNumbers use32bit count (octets.drop (asValueSize use32bit))

/-- One segment: its type, its number of ASes, which is not zero, and the ASes. -/
def assegmentParse (use32bit : Bool) : Bytes → Option (AsSegment × Bytes)
  | type :: count :: rest =>
    let size := count.toNat * asValueSize use32bit
    if rest.length < size ∨ count = 0 then none
    else (SegmentType.ofCode? type).map fun type =>
      (⟨type, readAsNumbers use32bit count.toNat rest⟩, rest.drop size)
  | _ => none

/-- The loop of `assegments_parse`, which ends with all octets read. A segment is longer
than its two header octets, so the fuel can be the number of octets. -/
def assegmentsParseWithin (use32bit : Bool) : Nat → Bytes → Option (List AsSegment)
  | _, [] => some []
  | 0, _ :: _ => none
  | fuel + 1, octets => do
      let (segment, rest) ← assegmentParse use32bit octets
      let segments ← assegmentsParseWithin use32bit fuel rest
      return segment :: segments

/-- `none` is the null pointer of a malformed path. -/
def aspathParse (octets : Bytes) (use32bit : Bool) : Option AsPath :=
  if octets.length % 2 = 1 then none
  else (assegmentsParseWithin use32bit octets.length octets).map assegmentNormalise

/-! ## Checks and changes on reception -/

namespace AsPath

/-- `aspath_count_hops`: the ASes of sequences, and one for each set. -/
def countHops (path : AsPath) : Nat :=
  (path.map fun segment => match segment.type with
    | .asSequence => segment.as.length
    | .asSet => 1
    | _ => 0).sum

def countConfeds (path : AsPath) : Nat :=
  (path.map fun segment => match segment.type with
    | .asConfedSequence => segment.as.length
    | .asConfedSet => 1
    | _ => 0).sum

def confedCheck (path : AsPath) : Bool :=
  path.any fun segment => segment.type = .asConfedSet || segment.type = .asConfedSequence

def leftConfedCheck (path : AsPath) : Bool :=
  path.head?.any fun segment => segment.type = .asConfedSequence || segment.type = .asConfedSet

def firstasCheck (path : AsPath) (asno : UInt32) : Bool :=
  path.head?.any fun segment => segment.type = .asSequence && segment.as.head? = some asno

def addSeq (path : AsPath) (asno : UInt32) : AsPath :=
  match path with
  | ⟨.asSequence, as⟩ :: rest => ⟨.asSequence, asno :: as⟩ :: rest
  | ⟨_, []⟩ :: rest => ⟨.asSequence, [asno]⟩ :: rest
  | path => ⟨.asSequence, [asno]⟩ :: path

/-- The segments at the front that make up a number of hops. A confederation sequence is
never cut. -/
def takeHops : Int → AsPath → AsPath
  | _, [] => []
  | hops, segment :: rest =>
    if hops ≤ 0 then []
    else match segment.type with
      | .asSet | .asConfedSet => segment :: takeHops (hops - 1) rest
      | .asConfedSequence =>
        segment :: takeHops (max hops segment.as.length - segment.as.length) rest
      | .asSequence =>
        { segment with as := segment.as.take hops.toNat } ::
          takeHops (hops - segment.as.length) rest

/-- `aspath_reconcile_as4`: what the two-octet path has in front of the four-octet one. -/
def reconcileAs4 (path as4Path : AsPath) : AsPath :=
  let difference : Int := path.countHops + path.countConfeds - as4Path.countHops
  let hops : Int := if difference < 0 then path.countHops else difference
  if hops = 0 then as4Path
  else assegmentNormalise (takeHops hops path ++ as4Path)

end AsPath

/-! ## Text -/

inductive AsToken where
  | asval (asno : UInt32)
  | setStart
  | setEnd
  | confedSeqStart
  | confedSeqEnd
  | confedSetStart
  | confedSetEnd
  | unknown
deriving Repr, DecidableEq

def isDigitOctet (symbol : UInt8) : Bool := 48 ≤ symbol && symbol ≤ 57

/-- The next token and the text after it; `none` at the end. -/
def aspathGettoken (text : Bytes) : Option (AsToken × Bytes) :=
  match text.dropWhile fun symbol => isSpace symbol || symbol = octet ',' with
  | [] => none
  | head :: tail =>
    if head = octet '\x7b' then some (.setStart, tail)
    else if head = octet '\x7d' then some (.setEnd, tail)
    else if head = octet '(' then some (.confedSeqStart, tail)
    else if head = octet ')' then some (.confedSeqEnd, tail)
    else if head = octet '[' then some (.confedSetStart, tail)
    else if head = octet ']' then some (.confedSetEnd, tail)
    else if isDigitOctet head then
      some (.asval (((head :: tail).takeWhile isDigitOctet).foldl
        (fun value digit => value * 10 + (digit.toUInt32 - 48)) 0),
        (head :: tail).dropWhile isDigitOctet)
    else some (.unknown, head :: tail)

def AsPath.asAdd (asno : UInt32) (path : AsPath) : AsPath :=
  path.modify (path.length - 1) fun segment => { segment with as := segment.as ++ [asno] }

def AsPath.segmentAdd (type : SegmentType) (path : AsPath) : AsPath := path ++ [⟨type, []⟩]

/-- The loop of `aspath_str2aspath` over the tokens. `needtype` says that the next AS
number starts a sequence of its own. -/
def aspathOfTokens : Nat → Bytes → Bool → AsPath → Option AsPath
  | 0, _, _, path => some path
  | fuel + 1, text, needtype, path =>
    match aspathGettoken text with
    | none => some path
    | some (token, rest) =>
      match token with
      | .asval asno =>
        let path := if needtype then path.segmentAdd .asSequence else path
        aspathOfTokens fuel rest false (path.asAdd asno)
      | .setStart => aspathOfTokens fuel rest false (path.segmentAdd .asSet)
      | .confedSeqStart => aspathOfTokens fuel rest false (path.segmentAdd .asConfedSequence)
      | .confedSetStart => aspathOfTokens fuel rest false (path.segmentAdd .asConfedSet)
      | .setEnd | .confedSeqEnd | .confedSetEnd => aspathOfTokens fuel rest true path
      | .unknown => none

/-- Every token but an unknown one, which ends the loop, is at least one octet long. -/
def aspathStr2Aspath (text : Bytes) : Option AsPath := aspathOfTokens (text.length + 1) text true []

example : aspathStr2Aspath (ascii "100") = some [⟨.asSequence, [100]⟩] := by decide +kernel

example : aspathStr2Aspath (ascii "-5") = none := by decide +kernel

end Quagga.Bgp
