import Quagga.Foundation.Wire
import Quagga.Foundation.FirstMatch

/-!
# The integrated advertisement

The messages of `integrated_advertisement.proto`. Optional fields are `Option`s; reading
an unset one gives the default of the generated accessor (`P_UNKNOWN`, `0`, the empty
string). Fields that a reader does not know are passed over and not represented. Nothing
asks whether a message could be read to its end.
-/

namespace Quagga.Dbgp

open Foundation Function

inductive Protocol where
  | unknown
  | wiser
  | pathlets
  | benchmark
  | baseline
deriving Repr, DecidableEq

namespace Protocol

def toNumber : Protocol → Nat
  | unknown => 0
  | wiser => 1
  | pathlets => 2
  | benchmark => 3
  | baseline => 4

/-- `Protocol_IsValid` followed by the cast to the enumeration. -/
def ofNumber? : Nat → Option Protocol
  | 0 => some unknown
  | 1 => some wiser
  | 2 => some pathlets
  | 3 => some benchmark
  | 4 => some baseline
  | _ => none

end Protocol

structure KeyValue where
  key? : Option Bytes
  value? : Option Bytes
deriving Repr, DecidableEq

structure PathGroupDescriptor where
  protocol? : Option Protocol
  keyValues : List KeyValue
deriving Repr, DecidableEq

structure HopDescriptor where
  islandId? : Option UInt32
  protocol? : Option Protocol
  keyValues : List KeyValue
deriving Repr, DecidableEq

structure IntegratedAdvertisement where
  pathGroupDescriptors : List PathGroupDescriptor
  hopDescriptors : List HopDescriptor
deriving Repr, DecidableEq

structure PathCost where
  pathCost? : Option UInt32
deriving Repr, DecidableEq

structure Pathlet where
  fid? : Option UInt32
  vnodes : List UInt32
  destination? : Option Bytes
  pathVector : List UInt32
  isTwoHop? : Option UInt32
deriving Repr, DecidableEq

structure Pathlets where
  pathlets : List Pathlet
deriving Repr, DecidableEq

def KeyValue.key (keyValue : KeyValue) : Bytes := keyValue.key?.getD []

def KeyValue.value (keyValue : KeyValue) : Bytes := keyValue.value?.getD []

def PathGroupDescriptor.protocol (descriptor : PathGroupDescriptor) : Protocol :=
  descriptor.protocol?.getD .unknown

def HopDescriptor.protocol (descriptor : HopDescriptor) : Protocol :=
  descriptor.protocol?.getD .unknown

def HopDescriptor.islandId (descriptor : HopDescriptor) : UInt32 := descriptor.islandId?.getD 0

def PathCost.pathCost (cost : PathCost) : UInt32 := cost.pathCost?.getD 0

def IntegratedAdvertisement.empty : IntegratedAdvertisement := ⟨[], []⟩

def Pathlet.empty : Pathlet := ⟨none, [], none, [], none⟩

/-! ## Serialization

The readers have the cases of the generated `MergePartialFromCodedStream`, by tag. -/

def KeyValue.fieldReader : Nat → Option (FieldReader KeyValue)
  | 10 => some (.text KeyValue.key fun key message => { message with key? := some key })
  | 18 => some (.text KeyValue.value fun value message => { message with value? := some value })
  | _ => none

def KeyValue.codec : MessageCodec KeyValue where
  empty := ⟨none, none⟩
  fields := fun message =>
    message.key?.toList.map (delimitedField 1) ++ message.value?.toList.map (delimitedField 2)
  reader := KeyValue.fieldReader
  levels := 0
  shallow := Nat.zero_le _
  stores_fields := by
    rintro ⟨key?, value?⟩ budget _
    cases key? <;> cases value? <;> rfl

/-- A number that is none of the enumeration goes to the unknown fields. -/
def storeProtocol (store : Protocol → α → α) (value : UInt32) (message : α) : α :=
  match Protocol.ofNumber? value.toNat with
  | none => message
  | some protocol => store protocol message

theorem storeField_protocol {reader : Nat → Option (FieldReader α)} {budget number : Nat}
    {store : Protocol → α → α} (small : number < 16)
    (known : reader (number * 8) = some (.number (storeProtocol store))) (protocol : Protocol)
    (message : α) :
    storeField reader budget message (numberField number protocol.toNumber) =
      some (store protocol message) := by
  have stored := @storeField_number _ _ budget _ _ small known (.ofNat protocol.toNumber) message
  cases protocol <;> exact stored

def PathGroupDescriptor.keyValuesPart : Part PathGroupDescriptor KeyValue where
  get := PathGroupDescriptor.keyValues
  put := fun keyValues message => { message with keyValues := keyValues }

def PathGroupDescriptor.fieldReader : Nat → Option (FieldReader PathGroupDescriptor)
  | 8 => some (.number (storeProtocol fun protocol message =>
      { message with protocol? := some protocol }))
  | 18 => some (KeyValue.codec.element keyValuesPart)
  | _ => none

def PathGroupDescriptor.codec : MessageCodec PathGroupDescriptor where
  empty := ⟨none, []⟩
  fields := fun message =>
    message.protocol?.toList.map (fun protocol => numberField 1 protocol.toNumber) ++
      message.keyValues.map fun keyValue => delimitedField 2 (KeyValue.codec.serialize keyValue)
  reader := fieldReader
  levels := 1
  shallow := by decide
  stores_fields := by
    rintro ⟨protocol?, keyValues⟩ budget deep
    have protocol : Stores fieldReader budget
        (protocol?.toList.map fun protocol => numberField 1 protocol.toNumber) ⟨none, []⟩
        ⟨protocol?, []⟩ :=
      stores_optional (storeField_protocol (by decide) rfl) (by cases protocol? <;> rfl)
    exact stores_append protocol (stores_elements keyValuesPart (by decide) rfl deep _ _)

def HopDescriptor.keyValuesPart : Part HopDescriptor KeyValue where
  get := HopDescriptor.keyValues
  put := fun keyValues message => { message with keyValues := keyValues }

def HopDescriptor.fieldReader : Nat → Option (FieldReader HopDescriptor)
  | 8 => some (.number fun value message => { message with islandId? := some value })
  | 16 => some (.number (storeProtocol fun protocol message =>
      { message with protocol? := some protocol }))
  | 26 => some (KeyValue.codec.element keyValuesPart)
  | _ => none

def HopDescriptor.codec : MessageCodec HopDescriptor where
  empty := ⟨none, none, []⟩
  fields := fun message =>
    message.islandId?.toList.map (fun islandId => numberField 1 islandId.toNat) ++
      message.protocol?.toList.map (fun protocol => numberField 2 protocol.toNumber) ++
      message.keyValues.map fun keyValue => delimitedField 3 (KeyValue.codec.serialize keyValue)
  reader := fieldReader
  levels := 1
  shallow := by decide
  stores_fields := by
    rintro ⟨islandId?, protocol?, keyValues⟩ budget deep
    have island : Stores fieldReader budget
        (islandId?.toList.map fun islandId => numberField 1 islandId.toNat) ⟨none, none, []⟩
        ⟨islandId?, none, []⟩ :=
      stores_optional (storeField_number (by decide) rfl) (by cases islandId? <;> rfl)
    have protocol : Stores fieldReader budget
        (protocol?.toList.map fun protocol => numberField 2 protocol.toNumber)
        ⟨islandId?, none, []⟩ ⟨islandId?, protocol?, []⟩ :=
      stores_optional (storeField_protocol (by decide) rfl) (by cases protocol? <;> rfl)
    exact stores_append (stores_append island protocol)
      (stores_elements keyValuesPart (by decide) rfl deep _ _)

def IntegratedAdvertisement.pathGroupsPart :
    Part IntegratedAdvertisement PathGroupDescriptor where
  get := IntegratedAdvertisement.pathGroupDescriptors
  put := fun descriptors message => { message with pathGroupDescriptors := descriptors }

def IntegratedAdvertisement.hopsPart : Part IntegratedAdvertisement HopDescriptor where
  get := IntegratedAdvertisement.hopDescriptors
  put := fun descriptors message => { message with hopDescriptors := descriptors }

def IntegratedAdvertisement.fieldReader : Nat → Option (FieldReader IntegratedAdvertisement)
  | 10 => some (PathGroupDescriptor.codec.element pathGroupsPart)
  | 18 => some (HopDescriptor.codec.element hopsPart)
  | _ => none

def IntegratedAdvertisement.codec : MessageCodec IntegratedAdvertisement where
  empty := .empty
  fields := fun message =>
    message.pathGroupDescriptors.map (fun descriptor =>
        delimitedField 1 (PathGroupDescriptor.codec.serialize descriptor)) ++
      message.hopDescriptors.map fun descriptor =>
        delimitedField 2 (HopDescriptor.codec.serialize descriptor)
  reader := fieldReader
  levels := 2
  shallow := by decide
  stores_fields := by
    rintro ⟨pathGroups, hops⟩ budget deep
    exact stores_append (stores_elements pathGroupsPart (by decide) rfl deep _ _)
      (stores_elements hopsPart (by decide) rfl deep _ _)

def PathCost.fieldReader : Nat → Option (FieldReader PathCost)
  | 8 => some (.number fun value message => { message with pathCost? := some value })
  | _ => none

def PathCost.codec : MessageCodec PathCost where
  empty := ⟨none⟩
  fields := fun message =>
    message.pathCost?.toList.map fun pathCost => numberField 1 pathCost.toNat
  reader := fieldReader
  levels := 0
  shallow := Nat.zero_le _
  stores_fields := by
    rintro ⟨pathCost?⟩ budget _
    exact stores_optional (storeField_number (by decide) rfl) (by cases pathCost? <;> rfl)

def Pathlet.vnodesPart : Part Pathlet UInt32 where
  get := Pathlet.vnodes
  put := fun vnodes message => { message with vnodes := vnodes }

def Pathlet.pathVectorPart : Part Pathlet UInt32 where
  get := Pathlet.pathVector
  put := fun pathVector message => { message with pathVector := pathVector }

/-- Repeated numbers are read one by one and packed. -/
def Pathlet.fieldReader : Nat → Option (FieldReader Pathlet)
  | 8 => some (.number fun value message => { message with fid? := some value })
  | 16 => some (.number vnodesPart.append)
  | 18 => some (.packed vnodesPart.append)
  | 26 => some (.text (fun message => message.destination?.getD []) fun destination message =>
      { message with destination? := some destination })
  | 32 => some (.number pathVectorPart.append)
  | 34 => some (.packed pathVectorPart.append)
  | 40 => some (.number fun value message => { message with isTwoHop? := some value })
  | _ => none

def Pathlet.codec : MessageCodec Pathlet where
  empty := .empty
  fields := fun message =>
    message.fid?.toList.map (fun fid => numberField 1 fid.toNat) ++
      message.vnodes.map (fun vnode => numberField 2 vnode.toNat) ++
      message.destination?.toList.map (delimitedField 3) ++
      message.pathVector.map (fun entry => numberField 4 entry.toNat) ++
      message.isTwoHop?.toList.map fun isTwoHop => numberField 5 isTwoHop.toNat
  reader := fieldReader
  levels := 0
  shallow := Nat.zero_le _
  stores_fields := by
    rintro ⟨fid?, vnodes, destination?, pathVector, isTwoHop?⟩ budget _
    have fid : Stores fieldReader budget (fid?.toList.map fun fid => numberField 1 fid.toNat)
        .empty ⟨fid?, [], none, [], none⟩ :=
      stores_optional (storeField_number (by decide) rfl) (by cases fid? <;> rfl)
    have vnode : Stores fieldReader budget (vnodes.map fun vnode => numberField 2 vnode.toNat)
        ⟨fid?, [], none, [], none⟩ ⟨fid?, vnodes, none, [], none⟩ :=
      stores_repeated vnodesPart (storeField_number (by decide) rfl) _ _
    have destination : Stores fieldReader budget (destination?.toList.map (delimitedField 3))
        ⟨fid?, vnodes, none, [], none⟩ ⟨fid?, vnodes, destination?, [], none⟩ := by
      cases destination? <;> rfl
    have entry : Stores fieldReader budget (pathVector.map fun entry => numberField 4 entry.toNat)
        ⟨fid?, vnodes, destination?, [], none⟩ ⟨fid?, vnodes, destination?, pathVector, none⟩ :=
      stores_repeated pathVectorPart (storeField_number (by decide) rfl) _ _
    have isTwoHop : Stores fieldReader budget
        (isTwoHop?.toList.map fun isTwoHop => numberField 5 isTwoHop.toNat)
        ⟨fid?, vnodes, destination?, pathVector, none⟩
        ⟨fid?, vnodes, destination?, pathVector, isTwoHop?⟩ :=
      stores_optional (storeField_number (by decide) rfl) (by cases isTwoHop? <;> rfl)
    exact stores_append (stores_append (stores_append (stores_append fid vnode) destination) entry)
      isTwoHop

def Pathlets.pathletsPart : Part Pathlets Pathlet where
  get := Pathlets.pathlets
  put := fun pathlets _ => ⟨pathlets⟩

def Pathlets.fieldReader : Nat → Option (FieldReader Pathlets)
  | 10 => some (Pathlet.codec.element pathletsPart)
  | _ => none

def Pathlets.codec : MessageCodec Pathlets where
  empty := ⟨[]⟩
  fields := fun message =>
    message.pathlets.map fun pathlet => delimitedField 1 (Pathlet.codec.serialize pathlet)
  reader := fieldReader
  levels := 1
  shallow := by decide
  stores_fields := by
    rintro ⟨pathlets⟩ budget deep
    exact stores_elements pathletsPart (by decide) rfl deep _ _

/-- A pathlet is there before its size is read. Its numbers may be packed, and a field of fixed
width before them is passed over. -/
example : Pathlets.codec.parse [0x0A] = ⟨[.empty]⟩ ∧
    Pathlets.codec.parse [0x0A, 9, 0x35, 0, 0, 0, 0, 0x12, 2, 5, 6] =
      ⟨[{ Pathlet.empty with vnodes := [5, 6] }]⟩ := by
  decide +kernel

end Quagga.Dbgp
