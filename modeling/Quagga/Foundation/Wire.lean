import Mathlib.Algebra.Group.Nat.Defs
import Mathlib.Data.List.Basic

/-!
# Tagged wire format

A message is a sequence of numbered fields, each a base-128 number or a byte string with
its length in front. A reader changes the message field by field. It passes over fields that it
does not know, and where the input goes wrong the message stays as it is then, half read.
`MessageCodec` is what a message type has to provide: its fields in the order they are written,
and what a field that was read does to a message. Reading back what was written then returns the
message, for every type at once.
-/

namespace Quagga.Foundation

open Function

abbrev Bytes := List UInt8

/-! ## Base-128 numbers -/

private def varintWithin : Nat → Nat → Bytes
  | 0, value => [UInt8.ofNat value]
  | fuel + 1, value =>
    if value < 128 then [UInt8.ofNat value]
    else UInt8.ofNat (value % 128 + 128) :: varintWithin fuel (value / 128)

/-- Seven bits an octet, the lowest first; every octet but the last has its top bit set. -/
def varint (value : Nat) : Bytes := varintWithin value value

/-- A number of at most `most` octets, and what follows it. -/
def readVarintWithin : Nat → Bytes → Option (Nat × Bytes)
  | 0, _ => none
  | _ + 1, [] => none
  | most + 1, octet :: rest =>
    if octet.toNat < 128 then some (octet.toNat, rest)
    else
      match readVarintWithin most rest with
      | none => none
      | some (high, rest) => some (octet.toNat - 128 + 128 * high, rest)

def readVarint (bytes : Bytes) : Option (Nat × Bytes) := readVarintWithin 10 bytes

/-- The bits above the lowest 32 are read and dropped. -/
def readVarint32 (bytes : Bytes) : Option (Nat × Bytes) :=
  (readVarint bytes).map fun read => (read.1 % 2 ^ 32, read.2)

/-- The size of what follows. No input has more octets than an `int` can count; if one had, its
sizes would be read in full, so that a message is read back whatever its size. -/
def readSize (bytes : Bytes) : Option (Nat × Bytes) :=
  if bytes.length < 2 ^ 31 then readVarint32 bytes else readVarintWithin bytes.length bytes

private theorem readVarintWithin_varintWithin {fuel value most : Nat} (rest : Bytes)
    (enough : value ≤ fuel) (fits : (varintWithin fuel value).length ≤ most) :
    readVarintWithin most (varintWithin fuel value ++ rest) = some (value, rest) := by
  induction fuel generalizing value most with
  | zero =>
    obtain ⟨most, rfl⟩ : ∃ smaller, most = smaller + 1 := Nat.exists_eq_succ_of_ne_zero (by
      rintro rfl
      cases fits)
    obtain rfl : value = 0 := by omega
    rfl
  | succ fuel induction =>
    unfold varintWithin at fits ⊢
    split_ifs at fits ⊢ with small
    · obtain ⟨most, rfl⟩ : ∃ smaller, most = smaller + 1 := Nat.exists_eq_succ_of_ne_zero (by
        rintro rfl
        cases fits)
      have octet : (UInt8.ofNat value).toNat = value := by
        simp; omega
      simp [readVarintWithin, small, octet]
    · obtain ⟨most, rfl⟩ : ∃ smaller, most = smaller + 1 := Nat.exists_eq_succ_of_ne_zero (by
        rintro rfl
        cases fits)
      have octet : (UInt8.ofNat (value % 128 + 128)).toNat = value % 128 + 128 := by
        simp; omega
      have shorter : (varintWithin fuel (value / 128)).length ≤ most := by simpa using fits
      simp only [List.cons_append, readVarintWithin, octet, induction (by omega) shorter]
      rw [if_neg (by omega)]
      simp only [Option.some.injEq, Prod.mk.injEq, and_true]
      omega

private theorem length_varintWithin_le {fuel value octets : Nat} (enough : value ≤ fuel)
    (small : value < 128 ^ (octets + 1)) : (varintWithin fuel value).length ≤ octets + 1 := by
  induction octets generalizing fuel value with
  | zero =>
    cases fuel with
    | zero => exact Nat.le_refl 1
    | succ fuel => rw [varintWithin, if_pos (by simpa using small)]; exact Nat.le_refl 1
  | succ octets induction =>
    cases fuel with
    | zero => exact Nat.le_add_left 1 _
    | succ fuel =>
      unfold varintWithin
      split_ifs with oneOctet
      · exact Nat.le_add_left 1 _
      · rw [List.length_cons, Nat.succ_le_succ_iff]
        apply induction (by omega)
        rw [Nat.div_lt_iff_lt_mul (by decide)]
        rwa [Nat.pow_succ] at small

theorem readVarintWithin_varint {value most : Nat} (rest : Bytes)
    (fits : (varint value).length ≤ most) :
    readVarintWithin most (varint value ++ rest) = some (value, rest) :=
  readVarintWithin_varintWithin rest (Nat.le_refl value) fits

theorem readVarint32_varint {value : Nat} (rest : Bytes) (small : value < 2 ^ 32) :
    readVarint32 (varint value ++ rest) = some (value, rest) := by
  have short : (varint value).length ≤ 4 + 1 :=
    length_varintWithin_le (Nat.le_refl value) (Nat.lt_of_lt_of_le small (by decide))
  rw [readVarint32, readVarint, readVarintWithin_varint rest (by omega), Option.map_some,
    Nat.mod_eq_of_lt small]

theorem readSize_varint (bytes rest : Bytes) :
    readSize (varint bytes.length ++ (bytes ++ rest)) = some (bytes.length, bytes ++ rest) := by
  unfold readSize
  split_ifs with small
  · rw [List.length_append, List.length_append] at small
    exact readVarint32_varint _ (by omega)
  · exact readVarintWithin_varint _ (by rw [List.length_append]; omega)

/-! ## Fields -/

inductive WireValue where
  | number (value : Nat)
  | delimited (bytes : Bytes)
deriving Repr, DecidableEq

structure WireField where
  number : Nat
  value : WireValue
deriving Repr, DecidableEq

def WireField.tag (field : WireField) : Nat :=
  match field.value with
  | .number _ => field.number * 8
  | .delimited _ => field.number * 8 + 2

def writeField (field : WireField) : Bytes :=
  match field.value with
  | .number value => varint field.tag ++ varint value
  | .delimited bytes => varint field.tag ++ varint bytes.length ++ bytes

def writeFields (fields : List WireField) : Bytes := fields.flatMap writeField

def numberField (number : Nat) (value : Nat) : WireField := ⟨number, .number value⟩

def delimitedField (number : Nat) (bytes : Bytes) : WireField := ⟨number, .delimited bytes⟩

/-! ## Fields that a reader does not know -/

/-- The value of a field that is no group, by its wire type. -/
def skipValue (wireType : Nat) (bytes : Bytes) : Option Bytes :=
  match wireType with
  | 0 => (readVarint bytes).map Prod.snd
  | 1 => if 8 ≤ bytes.length then some (bytes.drop 8) else none
  | 2 =>
    match readSize bytes with
    | none => none
    | some (size, rest) => if size ≤ rest.length then some (rest.drop size) else none
  | 5 => if 4 ≤ bytes.length then some (bytes.drop 4) else none
  | _ => none

/-- What follows the groups that are open, the innermost first, which are at most `budget`. -/
def skipGroups (budget : Nat) : Nat → List Nat → Bytes → Option Bytes
  | 0, _, _ => none
  | fuel + 1, groups, bytes =>
    match readVarint32 bytes with
    | none => none
    | some (tag, rest) =>
      if tag = 0 then none
      else if tag % 8 = 3 then
        if groups.length < budget then skipGroups budget fuel (tag / 8 :: groups) rest else none
      else if tag % 8 = 4 then
        match groups with
        | [] => none
        | group :: groups =>
          if tag / 8 ≠ group then none
          else if groups.isEmpty then some rest
          else skipGroups budget fuel groups rest
      else (skipValue (tag % 8) rest).bind (skipGroups budget fuel groups)

/-- A tag of zero and the end of a group that was not opened end the reading. -/
def skipField (budget tag : Nat) (bytes : Bytes) : Option Bytes :=
  if tag = 0 then none
  else if tag % 8 = 3 then
    if 0 < budget then skipGroups budget bytes.length [tag / 8] bytes else none
  else skipValue (tag % 8) bytes

/-! ## Reading a message -/

/-- What a field that is read does to a message. -/
inductive FieldReader (α : Type) where
  | number (store : UInt32 → α → α)
  | packed (store : UInt32 → α → α)
  /-- The text counts as present before it is read. -/
  | text (current : α → Bytes) (store : Bytes → α → α)
  /-- A message inside the message is there before its size is read. The function is given how
  deep messages may go on, and the octets of the message if they are known. -/
  | message (merge : Nat → Option Bytes → α → α × Bool)

def readPacked {α : Type} (store : UInt32 → α → α) : Nat → Bytes → α → α × Bool
  | _, [], message => (message, true)
  | 0, _ :: _, message => (message, false)
  | fuel + 1, bytes, message =>
    match readVarint32 bytes with
    | none => (message, false)
    | some (value, rest) => readPacked store fuel rest (store (.ofNat value) message)

namespace FieldReader

variable {α : Type}

/-- The message after the field, and the octets after it unless the reading ends there. A size
that goes beyond the input is cut for packed numbers and for messages. -/
def read (budget : Nat) (bytes : Bytes) (message : α) : FieldReader α → α × Option Bytes
  | .number store =>
    match readVarint32 bytes with
    | none => (message, none)
    | some (value, rest) => (store (.ofNat value) message, some rest)
  | .packed store =>
    match readSize bytes with
    | none => (message, none)
    | some (size, rest) =>
      let (message, whole) := readPacked store size (rest.take size) message
      (message, if whole then some (rest.drop size) else none)
  | .text current store =>
    match readSize bytes with
    | none => (store (current message) message, none)
    | some (size, rest) =>
      if size ≤ rest.length then (store (rest.take size) message, some (rest.drop size))
      -- The size is an `int`, and nothing is read for a negative one.
      else if size < 2 ^ 31 then (store rest message, none)
      else (store (current message) message, none)
  | .message merge =>
    match readSize bytes with
    | none => ((merge budget none message).1, none)
    | some (size, rest) =>
      match budget with
      | 0 => ((merge 0 none message).1, none)
      | budget + 1 =>
        let (message, whole) := merge budget (some (rest.take size)) message
        (message, if whole then some (rest.drop size) else none)

end FieldReader

section

variable {α : Type} (reader : Nat → Option (FieldReader α)) (budget : Nat)

/-- The fields of a message up to the end of the input, where the reader has the fields that it
knows by their tags. The result is the message and whether the end was reached. -/
def readMessage : Nat → Bytes → α → α × Bool
  | _, [], message => (message, true)
  | 0, _ :: _, message => (message, false)
  | fuel + 1, bytes, message =>
    match readVarint32 bytes with
    | none => (message, false)
    | some (tag, rest) =>
      match reader tag with
      | some field =>
        match field.read budget rest message with
        | (message, none) => (message, false)
        | (message, some rest) => readMessage fuel rest message
      | none =>
        match skipField budget tag rest with
        | none => (message, false)
        | some rest => readMessage fuel rest message

/-- What reading a field that was written does to a message. -/
def storeField (message : α) (field : WireField) : Option α :=
  if 128 ≤ field.tag then none
  else
    match field.value, reader field.tag with
    | .number value, some (.number store) =>
      if value < 2 ^ 32 then some (store (.ofNat value) message) else none
    | .delimited bytes, some (.text _ store) => some (store bytes message)
    | .delimited bytes, some (.message merge) =>
      match budget with
      | 0 => none
      | budget + 1 =>
        match merge budget (some bytes) message with
        | (message, true) => some message
        | (_, false) => none
    | _, _ => none

/-- Reading the fields as they were written takes one message to the other. -/
def Stores (fields : List WireField) (message after : α) : Prop :=
  fields.foldlM (storeField reader budget) message = some after

theorem varint_ne_nil (value : Nat) : varint value ≠ [] := by
  unfold varint
  cases value with
  | zero => exact List.cons_ne_nil _ _
  | succ value =>
    unfold varintWithin
    split_ifs <;> exact List.cons_ne_nil _ _

variable {reader budget}

/-- The field is read by a reader that knows it, and leaves the octets behind it. -/
theorem read_writeField {message after : α} {field : WireField} (rest : Bytes)
    (stored : storeField reader budget message field = some after) :
    ∃ body known, writeField field ++ rest = varint field.tag ++ body ∧ field.tag < 2 ^ 32 ∧
      reader field.tag = some known ∧ known.read budget body message = (after, some rest) := by
  unfold storeField at stored
  split_ifs at stored with large
  have small : field.tag < 2 ^ 32 := by omega
  split at stored
  next value store isNumber known =>
    split_ifs at stored with fits
    cases stored
    refine ⟨varint value ++ rest, _, ?_, small, known, ?_⟩
    · rw [writeField, isNumber, List.append_assoc]
    · rw [FieldReader.read, readVarint32_varint rest fits]
  next bytes current store isDelimited known =>
    cases stored
    refine ⟨varint bytes.length ++ (bytes ++ rest), _, ?_, small, known, ?_⟩
    · rw [writeField, isDelimited, List.append_assoc, List.append_assoc]
    · rw [FieldReader.read, readSize_varint]
      simp
  next bytes merge isDelimited known =>
    cases budget with
    | zero => cases stored
    | succ budget =>
      refine ⟨varint bytes.length ++ (bytes ++ rest), _, ?_, small, known, ?_⟩
      · rw [writeField, isDelimited, List.append_assoc, List.append_assoc]
      · rw [FieldReader.read, readSize_varint]
        simp only [List.take_left, List.drop_left] at stored ⊢
        generalize merge budget (some bytes) message = merged at stored ⊢
        rcases merged with ⟨merged, _ | _⟩
        · cases stored
        · cases stored
          rfl
  next => cases stored

theorem readMessage_writeFields {fields : List WireField} {message after : α} {fuel : Nat}
    (stored : Stores reader budget fields message after)
    (enough : (writeFields fields).length ≤ fuel) :
    readMessage reader budget fuel (writeFields fields) message = (after, true) := by
  induction fields generalizing message fuel with
  | nil =>
    cases stored
    cases fuel <;> rfl
  | cons field fields induction =>
    rw [Stores, List.foldlM_cons, Option.bind_eq_bind, Option.bind_eq_some_iff] at stored
    rcases stored with ⟨middle, storedFirst, storedRest⟩
    rcases read_writeField (writeFields fields) storedFirst with
      ⟨body, known, split, small, isKnown, reads⟩
    have written : writeFields (field :: fields) = varint field.tag ++ body := split
    have shorter : (writeFields fields).length < (writeFields (field :: fields)).length := by
      have positive : 0 < (writeField field).length := by
        apply List.length_pos_iff.mpr
        unfold writeField
        cases field.value <;> simp [varint_ne_nil]
      simp only [writeFields, List.flatMap_cons, List.length_append]
      omega
    rw [written] at enough shorter ⊢
    cases fuel with
    | zero => omega
    | succ fuel =>
      rw [readMessage, readVarint32_varint body small]
      · simp only [isKnown, reads]
        exact induction storedRest (by omega)
      · intro empty
        exact varint_ne_nil _ (List.append_eq_nil_iff.mp empty).1

end

/-! ## Messages -/

/-- How deep messages and groups may lie in each other. -/
def recursionLimit : Nat := 100

/-- A message type as the wire format sees it. Messages lie in each other to the depth `levels`
in it. -/
structure MessageCodec (α : Type) where
  empty : α
  fields : α → List WireField
  reader : Nat → Option (FieldReader α)
  levels : Nat
  shallow : levels ≤ recursionLimit
  stores_fields : ∀ message budget, levels ≤ budget →
    Stores reader budget (fields message) empty message

namespace MessageCodec

variable {α β : Type} (codec : MessageCodec α)

def serialize (message : α) : Bytes := writeFields (codec.fields message)

def merge (budget : Nat) (bytes : Bytes) : α × Bool :=
  readMessage codec.reader budget bytes.length bytes codec.empty

/-- The message as it is after the reading, which may have ended early. -/
def parse (bytes : Bytes) : α := (codec.merge recursionLimit bytes).1

theorem merge_serialize {budget : Nat} (deep : codec.levels ≤ budget) (message : α) :
    codec.merge budget (codec.serialize message) = (message, true) :=
  readMessage_writeFields (codec.stores_fields message budget deep) (Nat.le_refl _)

@[simp] theorem parse_serialize (message : α) : codec.parse
    (codec.serialize message) = message := by
  rw [parse, merge_serialize codec codec.shallow]

end MessageCodec

/-! ## Repeated fields -/

/-- A list that is a part of a message. -/
structure Part (α β : Type) where
  get : α → List β
  put : List β → α → α
  get_put : ∀ values message, get (put values message) = values := by intros; rfl
  put_put : ∀ values others message, put values (put others message) = put values message := by
    intros; rfl
  put_get : ∀ message, put (get message) message = message := by intros; rfl

section

variable {α β : Type} (part : Part α β)

def Part.append (value : β) (message : α) : α := part.put (part.get message ++ [value]) message

/-- A message of a repeated field. -/
def MessageCodec.element (codec : MessageCodec β) : FieldReader α :=
  .message fun budget bytes? message =>
    match bytes? with
    | none => (part.append codec.empty message, false)
    | some bytes =>
      let (value, whole) := codec.merge budget bytes
      (part.append value message, whole)

variable {reader : Nat → Option (FieldReader α)} {budget : Nat}

theorem stores_append {first second : List WireField} {message middle after : α}
    (storesFirst : Stores reader budget first message middle)
    (storesSecond : Stores reader budget second middle after) :
    Stores reader budget (first ++ second) message after := by
  rw [Stores, List.foldlM_append, storesFirst]
  exact storesSecond

theorem stores_repeated {write : β → WireField}
    (stores : ∀ value message,
      storeField reader budget message (write value) = some (part.append value message))
    (values : List β) (message : α) :
    Stores reader budget (values.map write) message
      (part.put (part.get message ++ values) message) := by
  induction values generalizing message with
  | nil => simp [Stores, part.put_get]
  | cons value values induction =>
    have rest := induction (part.append value message)
    rw [Part.append, part.get_put, part.put_put, List.append_assoc] at rest
    rw [Stores, List.map_cons, List.foldlM_cons, stores]
    exact rest

theorem stores_optional {write : β → WireField} {store : β → α → α}
    (stores : ∀ value message,
      storeField reader budget message (write value) = some (store value message))
    {value? : Option β} {message after : α}
    (result : value?.elim message (store · message) = after) :
    Stores reader budget (value?.toList.map write) message after := by
  subst result
  cases value? with
  | none => rfl
  | some value => simp [Stores, stores]

theorem stores_elements {codec : MessageCodec β} {number : Nat} (small : number < 15)
    (known : reader (number * 8 + 2) = some (codec.element part)) (deep : codec.levels < budget)
    (values : List β) (message : α) :
    Stores reader budget (values.map fun value => delimitedField number (codec.serialize value))
      message (part.put (part.get message ++ values) message) := by
  apply stores_repeated
  intro value message
  cases budget with
  | zero => cases deep
  | succ budget =>
    have merged := codec.merge_serialize (Nat.le_of_lt_succ deep) value
    have tag : (delimitedField number (codec.serialize value)).tag = number * 8 + 2 := rfl
    rw [storeField, tag, if_neg (by omega), known]
    simp [delimitedField, MessageCodec.element, merged]

theorem storeField_number {store : UInt32 → α → α} {number : Nat} (small : number < 16)
    (known : reader (number * 8) = some (.number store)) (value : UInt32) (message : α) :
    storeField reader budget message (numberField number value.toNat) =
      some (store value message) := by
  have tag : (numberField number value.toNat).tag = number * 8 := rfl
  rw [storeField, tag, if_neg (by omega), known]
  simp [numberField, value.toNat_lt]

end

end Quagga.Foundation
