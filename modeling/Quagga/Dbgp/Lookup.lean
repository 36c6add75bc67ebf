import Quagga.Dbgp.Execution
import Quagga.Dbgp.IntegratedAdvertisement
import Quagga.Foundation.Octets
import Quagga.Foundation.Text

/-!
# The lookup service

`dbgp_lookup.c`. A route carries a four-octet key in its transitive attribute, and the
control information itself is a value of a redis server under that key. The same server
holds the Wiser cost counters, under keys of another form (`as1-as2`), so the two are
separate maps here.
-/

namespace Quagga.Dbgp

open Foundation Execution

/-! ## Lookup keys in a transitive attribute -/

/-- `DBGP_LOOKUP_SVC_PATH`, the key of a path to the lookup service itself. -/
def dbgpLookupSvcPath : UInt32 := 0xDEADBEEF

/-- A lookup key in the memory order of the host. -/
def keyOctets (key : UInt32) : Bytes :=
  [UInt8.ofNat key.toNat, UInt8.ofNat (key.toNat / 2 ^ 8), UInt8.ofNat (key.toNat / 2 ^ 16),
    UInt8.ofNat (key.toNat / 2 ^ 24)]

/-- `*(dbgp_lookup_key_t *) val`; `none` if the buffer is shorter than a key. -/
def readKey : Bytes → Option UInt32
  | first :: second :: third :: fourth :: _ =>
    some (UInt32.ofNat (first.toNat + 2 ^ 8 * second.toNat + 2 ^ 16 * third.toNat +
      2 ^ 24 * fourth.toNat))
  | _ => none

@[simp] theorem readKey_keyOctets (key : UInt32) : readKey (keyOctets key) = some key := by
  simp only [readKey, keyOctets, Option.some.injEq, ← UInt32.toNat_inj]
  have bound := key.toNat_lt
  simp
  omega

/-- `struct transit`. The buffer may be longer than `length`, which counts the octets that
have been filled. -/
structure Transit where
  length : Nat
  val : Bytes
deriving Repr, DecidableEq

def Transit.ofKey (key : UInt32) : Transit := ⟨4, keyOctets key⟩

@[simp] theorem Transit.ofKey_length (key : UInt32) : (Transit.ofKey key).length = 4 := rfl

@[simp] theorem Transit.ofKey_val (key : UInt32) : (Transit.ofKey key).val = keyOctets key := rfl

def isLookupServicePath (transit : Transit) : Execution Bool := do
  let key ← defined (readKey transit.val)
  return key = dbgpLookupSvcPath

/-! ## Lookup keys on the wire -/

/-- What `bgp_packet_attribute` writes: the key in network order. -/
def packetLookupKey (transit : Transit) : Execution Bytes := do
  require (transit.length = 4) .packetTransitLength
  let key ← defined (readKey transit.val)
  return bigEndian 4 key.toNat

def receivedTransit (octets : Bytes) : Transit := .ofKey (UInt32.ofNat (readBigEndian octets))

@[simp] theorem packetLookupKey_ofKey (key : UInt32) :
    packetLookupKey (.ofKey key) = .ok (bigEndian 4 key.toNat) := by
  simp [packetLookupKey, require]

@[simp] theorem receivedTransit_bigEndian (key : UInt32) :
    receivedTransit (bigEndian 4 key.toNat) = .ofKey key := by
  have bound : key.toNat < 256 ^ 4 := key.toNat_lt
  simp [receivedTransit, readBigEndian_bigEndian bound]

/-! ## Control information -/

/-- `dbgp_control_info_t`: a block of memory and its size. -/
structure ControlInfo where
  integratedAdvertisement : Bytes
  integratedAdvertisementSize : Nat
  sized : integratedAdvertisementSize = integratedAdvertisement.length
deriving Repr, DecidableEq

def ControlInfo.ofBytes (bytes : Bytes) : ControlInfo := ⟨bytes, bytes.length, rfl⟩

@[simp] theorem ControlInfo.ofBytes_bytes (info : ControlInfo) :
    .ofBytes info.integratedAdvertisement = info := by
  rcases info with ⟨bytes, size, sized⟩
  subst sized
  rfl

theorem ControlInfo.ofBytes_inj {bytes : Bytes} {info : ControlInfo} :
    ControlInfo.ofBytes bytes = info ↔ bytes = info.integratedAdvertisement := by
  constructor
  · rintro rfl
    rfl
  · rintro rfl
    exact info.ofBytes_bytes

/-- The server, and the values `rand` is going to return. They are below `2 ^ 31`. -/
structure LookupService where
  values : UInt32 → Option Bytes
  wiserCosts : Int → Int → Option Int
  random : Nat → Fin (2 ^ 31)

instance drawsNeZero : NeZero (2 ^ 31) := ⟨by decide⟩

namespace LookupService

/-- The key of the next `set_control_info`. Its loop draws again only for
`DBGP_LOOKUP_SVC_PATH`, which is above everything `rand` returns. -/
def nextKey (service : LookupService) : UInt32 := UInt32.ofNat (service.random 0)

theorem nextKey_ne_svcPath (service : LookupService) : service.nextKey ≠ dbgpLookupSvcPath := by
  intro equal
  have drawn := congrArg UInt32.toNat equal
  simp [nextKey, dbgpLookupSvcPath] at drawn
  omega

def set (service : LookupService) (key : UInt32) (value : Bytes) : LookupService :=
  { service with
    values := Function.update service.values key (some value)
    random := fun index => service.random (index + 1) }

@[simp] theorem set_values_same (service : LookupService) (key : UInt32) (value : Bytes) :
    (service.set key value).values key = some value := by
  simp [set]

end LookupService

/-- The argument that `%s` makes of a buffer: its octets up to the first zero. There is no
such argument if the readable memory ends before a zero. -/
def cString : Bytes → Option Bytes
  | [] => none
  | head :: tail => if head = 0 then some [] else (cString tail).map (head :: ·)

/-- What of a packed value arrives at the server when `stack` is the memory that follows
`packed_val`. -/
def commandArgument (stack packed : Bytes) : Option Bytes := cString (packed ++ stack)

/-- `pack_dbgp_control_info`: exactly `integrated_advertisement_size` octets. -/
def packDbgpControlInfo (info : ControlInfo) : Bytes :=
  info.integratedAdvertisement.take info.integratedAdvertisementSize

/-- Store under a new key and put the key in the transitive attribute, in place. How the
value travels to the server is the parameter `transport`; `some` is a faithful one. -/
def setControlInfo (transport : Bytes → Option Bytes) (service : LookupService)
    (info : ControlInfo) : Execution (LookupService × Transit) := do
  let value ← defined (transport (packDbgpControlInfo info))
  return (service.set service.nextKey value, .ofKey service.nextKey)

def unpackRedisReply (reply : Option Bytes) : Execution ControlInfo :=
  match reply with
  | none => .error (.assertion .lookupReply)
  | some value => .ok (.ofBytes value)

def retrieveControlInfo (service : LookupService) (transit : Transit) :
    Execution ControlInfo := do
  require (transit.length = 4) .lookupKeyLength
  let key ← defined (readKey transit.val)
  unpackRedisReply (service.values key)

@[simp] theorem packDbgpControlInfo_eq (info : ControlInfo) :
    packDbgpControlInfo info = info.integratedAdvertisement := by
  simp [packDbgpControlInfo, info.sized]

@[simp] theorem retrieveControlInfo_ofKey (service : LookupService) (key : UInt32) :
    retrieveControlInfo service (.ofKey key) = unpackRedisReply (service.values key) := by
  simp [retrieveControlInfo, require]

theorem setControlInfo_some (service : LookupService) (info : ControlInfo) :
    setControlInfo some service info =
      .ok (service.set service.nextKey info.integratedAdvertisement, .ofKey service.nextKey) := by
  simp [setControlInfo]

/-! ## Wiser cost counters -/

/-- `INCRBY as1-as2 increment_by`. -/
def incrementWiserCosts (service : LookupService) (as1 as2 incrementBy : Int) : LookupService :=
  { service with
    wiserCosts := Function.update service.wiserCosts as1
      (Function.update (service.wiserCosts as1) as2
        (some ((service.wiserCosts as1 as2).getD 0 + incrementBy))) }

theorem incrementWiserCosts_apply (service : LookupService) (as1 as2 cost other1 other2 : Int) :
    (incrementWiserCosts service as1 as2 cost).wiserCosts other1 other2 =
      if other1 = as1 ∧ other2 = as2 then some ((service.wiserCosts as1 as2).getD 0 + cost)
      else service.wiserCosts other1 other2 := by
  by_cases first : other1 = as1
  · subst first
    by_cases second : other2 = as2 <;> simp [incrementWiserCosts, second]
  · simp [incrementWiserCosts, first]

/-- `GET as1-as2`, with `-1` for an absent counter; `readCounter` is the conversion of the
stored number to an `int`. -/
def retrieveWiserCosts (readCounter : Int → Int) (service : LookupService) (as1 as2 : Int) :
    Int :=
  match service.wiserCosts as1 as2 with
  | none => -1
  | some cost => readCounter cost

/-! ## Storing and retrieving -/

theorem cString_append_eq_some_self {value memory : Bytes} :
    cString (value ++ memory) = some value ↔ 0 ∉ value ∧ memory.head? = some 0 := by
  induction value with
  | nil =>
    cases memory with
    | nil => simp [cString]
    | cons head tail =>
      by_cases zero : head = 0
      · simp [cString]
      · simp [cString]
  | cons head tail induction =>
    by_cases zero : head = 0
    · simp [cString, zero]
    · have nonzero : ¬ 0 = head := fun equal => zero equal.symm
      simp [cString, if_neg zero, induction, nonzero]

/-- `set_control_info` followed by `retrieve_control_info` on the same transitive attribute
returns the control information that was stored. -/
def RoundTrips (stack : Bytes) (service : LookupService) (info : ControlInfo) : Prop :=
  ∃ service' transit, setControlInfo (commandArgument stack) service info =
    .ok (service', transit) ∧ retrieveControlInfo service' transit = .ok info

/-- Only a value without a zero octet, in front of a zero octet in memory, survives. -/
theorem roundTrips_iff (stack : Bytes) (service : LookupService) (info : ControlInfo) :
    RoundTrips stack service info ↔ 0 ∉ info.integratedAdvertisement ∧ stack.head? = some 0 := by
  rw [← cString_append_eq_some_self, RoundTrips]
  simp only [setControlInfo, packDbgpControlInfo_eq, commandArgument]
  cases argument : cString (info.integratedAdvertisement ++ stack) with
  | none => simp
  | some value =>
    simp [unpackRedisReply, ControlInfo.ofBytes_inj]

def zeroCostAdvertisement : IntegratedAdvertisement where
  pathGroupDescriptors :=
    [⟨some .wiser, [⟨some (ascii "PathCost"), some (PathCost.codec.serialize ⟨some 0⟩)⟩]⟩]
  hopDescriptors := []

/-- Even with a zero octet behind the buffer the path cost loses its last octet. -/
theorem zeroCost_not_roundTrips :
    ¬ RoundTrips [0] ⟨fun _ => none, fun _ _ => none, fun _ => 7⟩
      (.ofBytes (IntegratedAdvertisement.codec.serialize zeroCostAdvertisement)) := by
  rintro ⟨service', transit, stored, retrieved⟩
  have packed : cString (IntegratedAdvertisement.codec.serialize zeroCostAdvertisement ++ [0]) =
      some (IntegratedAdvertisement.codec.serialize zeroCostAdvertisement).dropLast := by
    decide +kernel
  have truncated : (IntegratedAdvertisement.codec.serialize zeroCostAdvertisement).dropLast ≠
      IntegratedAdvertisement.codec.serialize zeroCostAdvertisement := by
    decide +kernel
  rcases stored with ⟨rfl, rfl⟩
  rw [retrieveControlInfo_ofKey, LookupService.set_values_same] at retrieved
  simp only [unpackRedisReply, Except.ok.injEq, ControlInfo.ofBytes_inj] at retrieved
  exact truncated retrieved

end Quagga.Dbgp
