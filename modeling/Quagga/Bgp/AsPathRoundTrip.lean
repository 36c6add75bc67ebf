import Quagga.Bgp.AsPathTransparency

/-!
# AS paths that are read back

What `aspath_put` and `aspath_make_str_count` write of a path, given to `aspath_parse` and
`aspath_str2aspath`.
-/

namespace Quagga.Bgp

open Foundation List Nat

def aspathCmp : AsPath → AsPath → Bool
  | [], [] => true
  | seg1 :: as1, seg2 :: as2 => seg1.type = seg2.type && seg1.as = seg2.as && aspathCmp as1 as2
  | _, _ => false

theorem aspathCmp_iff {as1 as2 : AsPath} : aspathCmp as1 as2 = true ↔ as1 = as2 := by
  induction as1 generalizing as2 with
  | nil => cases as2 <;> simp [aspathCmp]
  | cons seg1 as1 induction =>
    cases as2 with
    | nil => simp [aspathCmp]
    | cons seg2 as2 =>
      rcases seg1
      rcases seg2
      simp [aspathCmp, induction]

/-! ## Octets -/

section

variable {use32bit : Bool} {room : Nat} {path : AsPath}

/-- The path is written into a stream with some room, in as many octets as `aspath_put` says, and
read back. -/
def AsPath.ReadsBack (use32bit : Bool) (room : Nat) (path : AsPath) : Prop :=
  ∃ octets result, aspathPut use32bit room path = some (octets, octets.length) ∧
    aspathParse octets use32bit = some result ∧ aspathCmp result path = true

theorem readsBack_iff (normalised : path.Normalised)
    (small : use32bit = false → path.hasAs4 = false) :
    path.ReadsBack use32bit room ↔
      (∀ segment ∈ path, segment.Writable) ∧ path.wireSize use32bit ≤ room := by
  constructor
  · rintro ⟨octets, result, put, parsed, same⟩
    rcases written_of_aspathPut normalised put with ⟨written, fits⟩
    cases (Prod.mk.inj written).1
    have hasAses := normalised.hasAses.of_starts (@writtenSegments_starts use32bit path room)
    have few := (length_pathOctets_le_pathCount hasAses).2.mp (Prod.mk.inj written).2
    rw [aspathParse_pathOctets hasAses, Option.some.injEq] at parsed
    rw [aspathCmp_iff, ← parsed] at same
    rcases writable_of_asPath normalised (writtenSegments_starts room) few same.symm with
      ⟨writable, all⟩
    rcases wireSize_le_of_written normalised fits all with ⟨whole, size⟩
    rw [whole] at writable
    exact ⟨writable, size⟩
  · rintro ⟨writable, fits⟩
    have counts := @length_pathOctets_le_pathCount use32bit path normalised.hasAses
    have few : ∀ segment ∈ path, segment.splits ≤ 1 :=
      fun segment member => (writable segment member).splits_le
    refine ⟨pathOctets use32bit path, readBack use32bit path, ?_,
      aspathParse_pathOctets normalised.hasAses, aspathCmp_iff.mpr ?_⟩
    · rw [counts.2.mpr few]
      exact aspathPut_of_fits normalised fits
    · exact readBack_self normalised writable small

theorem mixedPath_readsBack :
    mixedPath.Normalised ∧ (true = false → mixedPath.hasAs4 = false) ∧
      mixedPath.ReadsBack true 4096 := by
  have normalised : mixedPath.Normalised := ⟨by decide +kernel, by decide +kernel⟩
  have small : true = false → mixedPath.hasAs4 = false := nofun
  exact ⟨normalised, small, (readsBack_iff normalised small).mpr ⟨by decide +kernel, by decide⟩⟩

/-- A set of 256 ASes comes back as two sets. -/
theorem largeSet_not_readsBack :
    ¬ AsPath.ReadsBack true 4096 [⟨.asSet, (range 256).map UInt32.ofNat⟩] := by
  rintro ⟨octets, result, put, parsed, same⟩
  rw [aspathCmp_iff.mp same] at parsed
  have lost : (aspathPut true 4096 [⟨.asSet, (range 256).map UInt32.ofNat⟩]).bind
      (fun written => aspathParse written.1 true) ≠
        some [⟨.asSet, (range 256).map UInt32.ofNat⟩] := by
    decide +kernel
  rw [put] at lost
  exact lost parsed

end

/-! ## Text -/

/-- The delimiters and the separator of `aspath_make_str_count`. -/
def SegmentType.delimited (numbers : UInt8 → Bytes) : SegmentType → Bytes
  | .asSet => octet '\x7b' :: numbers (octet ',') ++ [octet '\x7d']
  | .asConfedSet => octet '[' :: numbers (octet ',') ++ [octet ']']
  | .asConfedSequence => octet '(' :: numbers (octet ' ') ++ [octet ')']
  | .asSequence => numbers (octet ' ')

def separated (separator : UInt8) : List Bytes → Bytes
  | [] => []
  | first :: rest => first ++ rest.flatMap fun text => separator :: text

def asText (asno : UInt32) : Bytes := decimal asno.toNat

def AsSegment.str (segment : AsSegment) : Bytes :=
  segment.type.delimited fun separator => separated separator (segment.as.map asText)

def aspathMakeStrCount (path : AsPath) : Bytes := separated (octet ' ') (path.map AsSegment.str)

/-- No digit of a number stands in front of the text. -/
def EndsToken (text : Bytes) : Prop := ∀ symbol ∈ text.head?, isDigitOctet symbol = false

theorem toNat_octet {digit : Char} (isDigit : digit.isDigit = true) :
    (octet digit).toNat = digit.toNat := by
  have bounds := isDigit_toNat isDigit
  rw [octet, UInt8.toNat_ofNat']
  omega

theorem foldl_digits {digits : List Char} (allDigits : ∀ digit ∈ digits, digit.isDigit = true)
    (value : Nat) :
    (digits.map octet).foldl (fun value digit => value * 10 + (digit.toUInt32 - 48))
      (UInt32.ofNat value) = UInt32.ofNat (ofDigitChars 10 digits value) := by
  induction digits generalizing value with
  | nil => rfl
  | cons digit digits induction =>
    rcases forall_mem_cons.mp allDigits with ⟨isDigit, rest⟩
    have bounds := isDigit_toNat isDigit
    have next : UInt32.ofNat value * 10 + ((octet digit).toUInt32 - 48) =
        UInt32.ofNat (10 * value + (digit.toNat - '0'.toNat)) := by
      rw [← UInt32.toNat_inj]
      simp [UInt32.toNat_sub, toNat_octet isDigit]
      omega
    rw [map_cons, foldl_cons, next]
    exact induction rest _

theorem gettoken_digit {head : UInt8} (digit : isDigitOctet head = true) (tail : Bytes) :
    aspathGettoken (head :: tail) =
      some (.asval (((head :: tail).takeWhile isDigitOctet).foldl
        (fun value digit => value * 10 + (digit.toUInt32 - 48)) 0),
        (head :: tail).dropWhile isDigitOctet) := by
  have different : ∀ other, isDigitOctet other = false → head ≠ other := by
    rintro other notDigit rfl
    rw [digit] at notDigit
    cases notDigit
  have notSpace : isSpace head = false := by
    simp only [isDigitOctet, UInt8.le_iff_toNat_le] at digit
    simp only [isSpace, ← UInt8.toNat_inj, UInt8.le_iff_toNat_le]
    simp at digit ⊢
    omega
  simp [aspathGettoken, notSpace, digit, different (octet ',') rfl, different (octet '\x7b') rfl,
    different (octet '\x7d') rfl, different (octet '(') rfl, different (octet ')') rfl,
    different (octet '[') rfl, different (octet ']') rfl]

theorem asText_eq (asno : UInt32) : asText asno = (toDigits 10 asno.toNat).map octet :=
  decimal_natCast asno.toNat

theorem asText_ne_nil (asno : UInt32) : asText asno ≠ [] := by
  rw [asText_eq, Ne, map_eq_nil_iff]
  exact toDigits_ne_nil

theorem gettoken_asText (asno : UInt32) {rest : Bytes} (stops : EndsToken rest) :
    aspathGettoken (asText asno ++ rest) = some (.asval asno, rest) := by
  have allDigits := toDigits_isDigit asno.toNat
  have octets : ∀ symbol ∈ asText asno, isDigitOctet symbol = true := by
    intro symbol member
    rcases mem_map.mp member with ⟨digit, isIn, rfl⟩
    have bounds := isDigit_toNat (allDigits digit isIn)
    simp only [isDigitOctet, Bool.and_eq_true, decide_eq_true_eq, UInt8.le_iff_toNat_le,
      toNat_octet (allDigits digit isIn)]
    exact bounds
  have none : rest.takeWhile isDigitOctet = [] ∧ rest.dropWhile isDigitOctet = rest := by
    cases rest with
    | nil => exact ⟨rfl, rfl⟩
    | cons symbol rest => simp [stops symbol rfl]
  have value := foldl_digits allDigits 0
  rw [ofDigitChars_ten_toDigits, UInt32.ofNat_toNat, ← asText_eq] at value
  cases shape : asText asno with
  | nil => exact absurd shape (asText_ne_nil asno)
  | cons head tail =>
    rw [shape] at octets value
    rw [cons_append, gettoken_digit (octets head mem_cons_self), ← cons_append,
      takeWhile_append_of_pos octets, dropWhile_append_of_pos octets, none.1, none.2, append_nil]
    exact congrArg (fun asno => some (AsToken.asval asno, rest)) value

/-- The text makes the path grow as it should, with a token for each octet at most. -/
def Lexes (text : Bytes) (before after : Bool × AsPath) : Prop :=
  ∃ count ≤ text.length, ∀ fuel rest, EndsToken rest →
    aspathOfTokens (fuel + count) (text ++ rest) before.1 before.2 =
      aspathOfTokens fuel rest after.1 after.2

section

variable {text more : Bytes} {before middle after : Bool × AsPath} {symbol : UInt8}

theorem Lexes.trans (first : Lexes text before middle)
    (second : Lexes (symbol :: more) middle after) (stops : isDigitOctet symbol = false) :
    Lexes (text ++ symbol :: more) before after := by
  rcases first with ⟨count, few, lexes⟩
  rcases second with ⟨other, otherFew, otherLexes⟩
  refine ⟨other + count, ?_, ?_⟩
  · rw [length_append]
    omega
  · intro fuel rest restEnds
    have stopsHere : EndsToken (symbol :: more ++ rest) := by
      intro first isFirst
      cases isFirst
      exact stops
    rw [append_assoc, ← add_assoc, lexes _ _ stopsHere, otherLexes _ _ restEnds]

theorem Lexes.separator (lexes : Lexes text before after)
    (skipped : symbol = octet ' ' ∨ symbol = octet ',') : Lexes (symbol :: text) before after := by
  have skips : ∀ text, aspathGettoken (symbol :: text) = aspathGettoken text := by
    intro text
    rcases skipped with rfl | rfl
    · rfl
    · rfl
  rcases lexes with ⟨count, few, lexes⟩
  refine ⟨count, Nat.le_succ_of_le few, ?_⟩
  intro fuel rest stops
  rw [← lexes fuel rest stops, cons_append]
  cases fuel + count with
  | zero => rfl
  | succ fuel => rw [aspathOfTokens, aspathOfTokens, skips]

theorem Lexes.nil (state : Bool × AsPath) : Lexes [] state state :=
  ⟨0, le_refl _, fun _ _ _ => rfl⟩

theorem Lexes.cons
    (turn : ∀ fuel rest, aspathOfTokens (fuel + 1) (symbol :: rest) before.1 before.2 =
      aspathOfTokens fuel rest middle.1 middle.2) (lexes : Lexes text middle after) :
    Lexes (symbol :: text) before after := by
  rcases lexes with ⟨count, few, lexes⟩
  refine ⟨count + 1, succ_le_succ few, ?_⟩
  intro fuel rest stops
  rw [cons_append, ← add_assoc, turn, lexes fuel rest stops]

theorem Lexes.enclosed {opening closing : UInt8} {needtype : Bool} {path done : AsPath}
    (lexes : Lexes text middle (false, done))
    (opens : ∀ fuel rest, aspathOfTokens (fuel + 1) (opening :: rest) needtype path =
      aspathOfTokens fuel rest middle.1 middle.2)
    (closes : ∀ fuel rest, aspathOfTokens (fuel + 1) (closing :: rest) false done =
      aspathOfTokens fuel rest true done) (notDigit : isDigitOctet closing = false) :
    Lexes (opening :: text ++ [closing]) (needtype, path) (true, done) :=
  .cons opens (lexes.trans (.cons closes (.nil _)) notDigit)

end

theorem lexes_asText (asno : UInt32) (needtype : Bool) (path : AsPath) :
    Lexes (asText asno) (needtype, path)
      (false, (if needtype then path.segmentAdd .asSequence else path).asAdd asno) := by
  refine ⟨1, length_pos_iff.mpr (asText_ne_nil asno), ?_⟩
  intro fuel rest stops
  rw [aspathOfTokens, gettoken_asText asno stops]

theorem asAdd_append (path : AsPath) (type : SegmentType) (as : List UInt32) (asno : UInt32) :
    AsPath.asAdd asno (path ++ [⟨type, as⟩]) = path ++ [⟨type, as ++ [asno]⟩] := by
  induction path with
  | nil => rfl
  | cons segment path induction => simpa [AsPath.asAdd] using induction

section

variable {text : Bytes} {before : Bool × AsPath} {separator : UInt8}

theorem Lexes.numbers (skipped : separator = octet ' ' ∨ separator = octet ',') {path : AsPath}
    {type : SegmentType} {done : List UInt32} (as : List UInt32)
    (lexes : Lexes text before (false, path ++ [⟨type, done⟩])) :
    Lexes (text ++ (as.map asText).flatMap fun text => separator :: text) before
      (false, path ++ [⟨type, done ++ as⟩]) := by
  induction as generalizing text done with
  | nil => simpa using lexes
  | cons asno as induction =>
    have notDigit : isDigitOctet separator = false := by
      rcases skipped with rfl | rfl <;> rfl
    have more := lexes.trans ((lexes_asText asno false _).separator skipped) notDigit
    rw [if_neg Bool.false_ne_true, asAdd_append] at more
    simpa using induction more

end

/-- After a sequence a number goes on with it. -/
def needsType (path : AsPath) : Bool := path.getLast?.all fun segment => segment.type ≠ .asSequence

theorem lexes_segment {segment : AsSegment} (nonempty : segment.as ≠ []) {path : AsPath}
    (apart : segment.type = .asSequence → needsType path = true) :
    Lexes segment.str (needsType path, path)
      (needsType (path ++ [segment]), path ++ [segment]) := by
  rcases segment with ⟨type, as⟩
  cases as with
  | nil => exact absurd rfl nonempty
  | cons first as =>
    have begun : ∀ separator, separator = octet ' ' ∨ separator = octet ',' →
        Lexes (separated separator ((first :: as).map asText)) (false, path.segmentAdd type)
          (false, path ++ [⟨type, first :: as⟩]) := by
      intro separator skipped
      have one := lexes_asText first false (path.segmentAdd type)
      rw [if_neg Bool.false_ne_true, AsPath.segmentAdd, asAdd_append] at one
      exact one.numbers skipped as
    have needs : needsType (path ++ [⟨type, first :: as⟩]) = decide (type ≠ .asSequence) := by
      simp [needsType]
    rw [needs]
    cases type with
    | asSet | asConfedSet =>
      exact (begun _ (.inr rfl)).enclosed (fun _ _ => rfl) (fun _ _ => rfl) rfl
    | asConfedSequence => exact (begun _ (.inl rfl)).enclosed (fun _ _ => rfl) (fun _ _ => rfl) rfl
    | asSequence =>
      have one := lexes_asText first true path
      rw [if_pos rfl, AsPath.segmentAdd, asAdd_append] at one
      rw [apart rfl]
      exact one.numbers (.inl rfl) as

def noRun (path : AsPath) : Prop :=
  path.IsChain fun segment next => segment.type = .asSequence → next.type ≠ .asSequence

theorem noRun_normalise (path : AsPath) : noRun (assegmentNormalise path) := by
  induction path with
  | nil => exact .nil
  | cons segment path induction =>
    rw [assegmentNormalise]
    split
    · rename_i sequence merged
      rw [merged] at induction
      exact isChain_cons.mpr (isChain_cons.mp induction)
    · rename_i apart
      refine isChain_cons.mpr ⟨?_, induction⟩
      intro next isNext sequence nextSequence
      rw [AsSegment.sortSet_type] at sequence
      rcases next with ⟨type, as⟩
      cases nextSequence
      rcases head?_eq_some_iff.mp isNext with ⟨merged, shape⟩
      exact apart as merged sequence shape

theorem Lexes.segments {text : Bytes} {before : Bool × AsPath} {done path : AsPath}
    {segment : AsSegment} (hasAses : path.HasAses) (apart : noRun (segment :: path))
    (lexes : Lexes text before (needsType (done ++ [segment]), done ++ [segment])) :
    Lexes (text ++ (path.map AsSegment.str).flatMap fun text => octet ' ' :: text) before
      (needsType (done ++ segment :: path), done ++ segment :: path) := by
  induction path generalizing text done segment with
  | nil => simpa using lexes
  | cons next path induction =>
    rcases isChain_cons_cons.mp apart with ⟨apartHere, apartLater⟩
    rcases forall_mem_cons.mp hasAses with ⟨nonempty, laterAses⟩
    have needs : next.type = .asSequence → needsType (done ++ [segment]) = true := by
      intro sequence
      have different : segment.type ≠ .asSequence := fun same => apartHere same sequence
      simp [needsType, different]
    have more := lexes.trans ((lexes_segment nonempty needs).separator (.inl rfl)) rfl
    simpa using induction laterAses apartLater more

theorem Lexes.reads {text : Bytes} {needtype : Bool} {path : AsPath}
    (lexes : Lexes text (true, []) (needtype, path)) : aspathStr2Aspath text = some path := by
  rcases lexes with ⟨count, few, lexes⟩
  have read := lexes (text.length + 1 - count) [] nofun
  rw [append_nil, Nat.sub_add_cancel (Nat.le_succ_of_le few)] at read
  rw [aspathStr2Aspath, read]
  cases text.length + 1 - count <;> rfl

/-- The text of a path is read as the path it was made of. -/
theorem str2Aspath_makeStr {path : AsPath} (normalised : path.Normalised) :
    ∃ result, aspathStr2Aspath (aspathMakeStrCount path) = some result ∧
      aspathCmp result path = true ∧ aspathMakeStrCount result = aspathMakeStrCount path := by
  refine ⟨path, ?_, aspathCmp_iff.mpr rfl, rfl⟩
  have apart := noRun_normalise path
  rw [normalised.fixed] at apart
  cases path with
  | nil => rfl
  | cons segment path =>
    rcases forall_mem_cons.mp normalised.hasAses with ⟨nonempty, laterAses⟩
    have one := @lexes_segment segment nonempty [] fun _ => rfl
    exact Lexes.reads (one.segments laterAses apart)

theorem mixedPath_str2Aspath :
    mixedPath.Normalised ∧ ∃ result, aspathStr2Aspath (aspathMakeStrCount mixedPath) = some result ∧
      aspathCmp result mixedPath = true ∧
      aspathMakeStrCount result = aspathMakeStrCount mixedPath := by
  have normalised : mixedPath.Normalised := ⟨by decide +kernel, by decide +kernel⟩
  exact ⟨normalised, str2Aspath_makeStr normalised⟩

/-! ## The buffer of the text -/

/-- `str_buf` and its size, with `len` characters written. -/
structure StrBuf where
  size : Nat
  text : Bytes

namespace StrBuf

/-- A character that `snprintf` writes, with the zero behind it, or none if it is cut off. -/
def put (buf : StrBuf) (char : UInt8) : Option StrBuf :=
  if buf.text.length + 1 < buf.size then some { buf with text := buf.text ++ [char] } else none

def grow (buf : StrBuf) (segment : AsSegment) : StrBuf :=
  { buf with size := max buf.size (buf.text.length + (segment.as.length * 11 + 2 + 1 + 1)) }

/-- What is written in one turn of the loop. -/
def turn (segment : AsSegment) (rest : AsPath) : Bytes :=
  segment.str ++ if rest.isEmpty then [] else [octet ' ']

/-- The loop of `aspath_make_str_count` and the assertion behind it. -/
def makeSegments : AsPath → StrBuf → Option StrBuf
  | [], buf => if buf.text.length < buf.size then some buf else none
  | segment :: path, buf => do
    makeSegments path (← (turn segment path).foldlM put (buf.grow segment))

def make (path : AsPath) : Option StrBuf :=
  if path.isEmpty then some ⟨1, []⟩
  else makeSegments path ⟨max (path.sizeCustom * 11 + 2 + 1) 32, []⟩

theorem length_separated_le {texts : List Bytes} (short : ∀ text ∈ texts, text.length ≤ 10)
    (separator : UInt8) : (separated separator texts).length ≤ texts.length * 11 := by
  cases texts with
  | nil => rfl
  | cons first rest =>
    rcases forall_mem_cons.mp short with ⟨firstShort, restShort⟩
    have each : ∀ size ∈ rest.map fun text => (separator :: text).length, size ≤ 11 := by
      simpa [Nat.lt_succ_iff] using restShort
    have total := sum_le_card_nsmul _ 11 each
    rw [length_map, smul_eq_mul] at total
    rw [separated, length_append, length_flatMap, length_cons]
    omega

theorem length_str_le (segment : AsSegment) : segment.str.length ≤ segment.as.length * 11 + 2 := by
  have short : ∀ text ∈ segment.as.map asText, text.length ≤ 10 := by
    rw [forall_mem_map]
    intro asno _
    rw [asText_eq, length_map]
    exact toDigits_length 10 _ 10 (by decide) (asno.toNat_lt.trans (by decide))
  have numbers := length_separated_le short
  rw [length_map] at numbers
  unfold AsSegment.str
  cases segment.type <;> simp [SegmentType.delimited, numbers, (numbers _).trans]

theorem foldlM_put {chars : Bytes} {buf : StrBuf}
    (room : buf.text.length + chars.length < buf.size) :
    chars.foldlM put buf = some { buf with text := buf.text ++ chars } := by
  induction chars generalizing buf with
  | nil => simp
  | cons char chars induction =>
    rw [length_cons] at room
    rw [foldlM_cons, put, if_pos (by omega)]
    refine (induction (by simp; omega)).trans ?_
    simp

theorem makeSegments_text {path : AsPath} {buf : StrBuf} (room : buf.text.length < buf.size) :
    (makeSegments path buf).map text = some (buf.text ++ aspathMakeStrCount path) := by
  induction path generalizing buf with
  | nil => simp [makeSegments, room, aspathMakeStrCount, separated]
  | cons segment path induction =>
    have short : (turn segment path).length ≤ segment.as.length * 11 + 2 + 1 := by
      rw [turn, length_append]
      exact Nat.add_le_add (length_str_le segment) (by split_ifs <;> simp)
    have size : buf.text.length + (segment.as.length * 11 + 2 + 1 + 1) ≤ (buf.grow segment).size :=
      Nat.le_max_right _ _
    have fits : (buf.grow segment).text.length + (turn segment path).length <
        (buf.grow segment).size := by
      change buf.text.length + _ < _
      omega
    rw [makeSegments, foldlM_put fits]
    refine (induction (by rwa [← length_append] at fits)).trans ?_
    cases path <;> simp [aspathMakeStrCount, separated, turn, grow]

/-- The assertion holds, and no `snprintf` cuts the text off. -/
theorem make_text (path : AsPath) : (make path).map text = some (aspathMakeStrCount path) := by
  unfold make
  cases path with
  | nil => rfl
  | cons segment path => exact makeSegments_text (by simp)

end StrBuf

end Quagga.Bgp
