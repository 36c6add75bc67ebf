import Quagga.Bgp.NlriField

/-!
# Routes on their way to zebra

A client writes a route with `zapi_ipv4_route` or `zapi_ipv6_route`, and zebra reads it with
`zread_ipv4_add` or `zread_ipv6_add`. The reader for IPv6 has room for one address and one
interface only.
-/

namespace Quagga.Zebra

open Foundation Bgp List

/-! ## Writing -/

/-- `struct zapi_ipv4` or `struct zapi_ipv6`. -/
structure ZapiRoute where
  type : UInt8
  flags : UInt8
  message : UInt8
  safi : UInt8
  nexthop : List Bytes
  ifindex : List UInt32
  distance : UInt8
  metric : UInt32

def checkFlag (value flag : UInt8) : Bool := value &&& flag != 0

/-- `ZEBRA_HEADER_MARKER` is 255 and `ZSERV_VERSION` is 2. -/
def zclientMessage (command : UInt16) (body : Bytes) : Bytes :=
  bigEndian 2 (6 + body.length) ++ 255 :: 2 :: (bigEndian 2 command.toNat ++ body)

namespace ZapiRoute

variable (api : ZapiRoute)

def isBlackhole : Bool := checkFlag api.flags 4

def putNexthopNum : Bytes := [UInt8.ofNat (api.nexthop.length + api.ifindex.length)]

/-- `ZEBRA_NEXTHOP_IFINDEX` is 1. -/
def putNexthops (nexthopType : UInt8) : Bytes :=
  api.nexthop.flatMap (nexthopType :: ·) ++
    api.ifindex.flatMap fun index => 1 :: bigEndian 4 index.toNat

/-- The common part of both writers. -/
def put (p : Prefix) (nexthops : Bytes) : Bytes :=
  api.type :: api.flags :: api.message :: (bigEndian 2 api.safi.toNat ++ (putEntry p.entry ++
    ((if checkFlag api.message 1 then nexthops else []) ++
      ((if checkFlag api.message 4 then [api.distance] else []) ++
        if checkFlag api.message 8 then bigEndian 4 api.metric.toNat else []))))

/-- `ZEBRA_NEXTHOP_BLACKHOLE` is 9. -/
def zapiIpv4Route (command : UInt16) (p : Prefix) : Bytes :=
  zclientMessage command (api.put p
    ((if api.isBlackhole then [1, 9] else api.putNexthopNum) ++ api.putNexthops 3))

def zapiIpv6Route (command : UInt16) (p : Prefix) : Bytes :=
  zclientMessage command (api.put p (api.putNexthopNum ++ api.putNexthops 6))

end ZapiRoute

/-! ## Reading -/

/-- What is left of a stream. Reading past its end is an error. -/
abbrev StreamReader := StateT Bytes Option

def streamGetc : StreamReader UInt8
  | [] => none
  | octet :: octets => some (octet, octets)

def streamGet (count : Nat) : StreamReader Bytes := fun octets =>
  if octets.length < count then none else some (octets.take count, octets.drop count)

def streamGetw : StreamReader Nat := do
  return readBigEndian (← streamGet 2)

def streamGetl : StreamReader UInt32 := do
  return UInt32.ofNat (readBigEndian (← streamGet 4))

inductive Nexthop
  | ifindex (index : UInt32)
  | ipv4 (gate : Bytes)
  | ipv4Ifindex (gate : Bytes) (index : UInt32)
  | ipv6 (gate : Bytes)
  | ipv6Ifindex (gate : Bytes) (index : UInt32)
  | blackhole
deriving DecidableEq

/-- What the RIB is handed. -/
structure RibRoute where
  type : UInt8
  flags : UInt8
  safi : UInt8
  p : Prefix
  nexthops : List Nexthop
  distance : UInt8
  metric : UInt32

def readTimes {α : Type} (read : α → StreamReader α) : Nat → α → StreamReader α
  | 0, value => return value
  | count + 1, value => do readTimes read count (← read value)

def readCounted {α : Type} (read : α → StreamReader α) (value : α) : StreamReader α := do
  readTimes read (← streamGetc).toNat value

def readWhen {α : Type} (condition : Bool) (read : StreamReader α) (otherwise : α) :
    StreamReader α :=
  if condition then read else return otherwise

def zreadIpv4Nexthop (nexthops : List Nexthop) : StreamReader (List Nexthop) := do
  match (← streamGetc).toNat with
  | 1 => return nexthops ++ [.ifindex (← streamGetl)]
  | 2 =>
    let _ ← streamGet (← streamGetc).toNat
    return nexthops
  | 3 => return nexthops ++ [.ipv4 (← streamGet 4)]
  | 4 =>
    let gate ← streamGet 4
    return nexthops ++ [.ipv4Ifindex gate (← streamGetl)]
  | 6 =>
    let _ ← streamGet 16
    return nexthops
  | 9 => return nexthops ++ [.blackhole]
  | _ => return nexthops

/-- The address and the interface, each of which is overwritten by the next one. -/
def zreadIpv6Nexthop (found : Bytes × UInt32) : StreamReader (Bytes × UInt32) := do
  match (← streamGetc).toNat with
  | 6 => return (← streamGet 16, found.2)
  | 1 => return (found.1, ← streamGetl)
  | _ => return found

def unspecified : Bytes := List.replicate 16 0

/-- The next hop that `rib_add_ipv6` makes of an address and an interface. -/
def ribAddIpv6 (found : Bytes × UInt32) : Nexthop :=
  if found.1 = unspecified then .ifindex found.2
  else if found.2 ≠ 0 then .ipv6Ifindex found.1 found.2
  else .ipv6 found.1

/-- The common part of both readers. -/
def zreadAdd {α : Type} (afi : Afi) (nexthop : α → StreamReader α) (none : α)
    (nexthops : α → List Nexthop) : StreamReader RibRoute := do
  let type ← streamGetc
  let flags ← streamGetc
  let message ← streamGetc
  let safi ← streamGetw
  let prefixlen ← streamGetc
  let address ← streamGet (psize prefixlen.toNat)
  let found ← readWhen (checkFlag message 1) (readCounted nexthop none) none
  let distance ← readWhen (checkFlag message 4) streamGetc 0
  let metric ← readWhen (checkFlag message 8) streamGetl 0
  -- `nexthop_blackhole_add` sets the flag of the route too.
  let flags := if .blackhole ∈ nexthops found then flags ||| 4 else flags
  return ⟨type, flags, UInt8.ofNat safi, .ofEntry afi (prefixlen.toNat, address), nexthops found,
    distance, metric⟩

def zreadIpv4Add : StreamReader RibRoute := zreadAdd .ip zreadIpv4Nexthop [] id

def zreadIpv6Add : StreamReader RibRoute :=
  zreadAdd .ip6 zreadIpv6Nexthop (unspecified, 0) fun found => [ribAddIpv6 found]

/-! ## What is read back -/

@[simp] theorem streamGetc_cons (octet : UInt8) (rest : Bytes) :
    streamGetc (octet :: rest) = some (octet, rest) := rfl

theorem streamGet_append {octets : Bytes} {count : Nat} (length : octets.length = count)
    (rest : Bytes) : streamGet count (octets ++ rest) = some (octets, rest) := by
  simp [streamGet, ← length]

@[simp] theorem streamGetw_append (value : UInt8) (rest : Bytes) :
    streamGetw (bigEndian 2 value.toNat ++ rest) = some (value.toNat, rest) := by
  have fits : value.toNat < 256 ^ 2 := Nat.lt_trans value.toNat_lt (by decide)
  simp [streamGetw, bind, StateT.bind, pure, StateT.pure, streamGet_append,
    readBigEndian_bigEndian fits]

@[simp] theorem streamGetl_append (value : UInt32) (rest : Bytes) :
    streamGetl (bigEndian 4 value.toNat ++ rest) = some (value, rest) := by
  have fits : value.toNat < 256 ^ 4 := value.toNat_lt
  simp [streamGetl, bind, StateT.bind, pure, StateT.pure, streamGet_append,
    readBigEndian_bigEndian fits]

theorem readTimes_flatMap {α β : Type} {read : α → StreamReader α} {put : β → Bytes}
    {step : α → β → α} {items : List β}
    (reads : ∀ item ∈ items, ∀ value rest, read value (put item ++ rest) =
      some (step value item, rest)) (more : Nat) (value : α) (rest : Bytes) :
    readTimes read (items.length + more) value (items.flatMap put ++ rest) =
      readTimes read more (items.foldl step value) rest := by
  induction items generalizing value with
  | nil => rw [length_nil, Nat.zero_add]; rfl
  | cons item items induction =>
    rw [forall_mem_cons] at reads
    rw [length_cons, Nat.add_right_comm, flatMap_cons, append_assoc, readTimes]
    simp only [bind, StateT.bind, reads.1]
    exact induction reads.2 _

theorem zreadAdd_put {α : Type} {nexthop : α → StreamReader α} {none found : α}
    {nexthops : α → List Nexthop} {afi : Afi} {api : ZapiRoute} {p : Prefix} (isOf : p.IsOf afi)
    {octets : Bytes} (reads : ∀ rest, readWhen (checkFlag api.message 1)
      (readCounted nexthop none) none ((if checkFlag api.message 1 then octets else []) ++ rest) =
        some (found, rest)) :
    zreadAdd afi nexthop none nexthops (api.put p octets) =
      some (⟨api.type, if .blackhole ∈ nexthops found then api.flags ||| 4 else api.flags, api.safi,
        .ofEntry afi p.entry, nexthops found, if checkFlag api.message 4 then api.distance else 0,
        if checkFlag api.message 8 then api.metric else 0⟩, []) := by
  rcases isOf with ⟨_, octets, short⟩
  have prefixlen : (UInt8.ofNat p.prefixlen).toNat = p.prefixlen := by
    apply Nat.mod_eq_of_lt
    cases afi <;> simp [Afi.addressOctets] at short <;> omega
  have address : (p.address.take (psize p.prefixlen)).length = psize p.prefixlen := by
    rw [length_take, psize]
    omega
  have distance : ∀ rest, readWhen (checkFlag api.message 4) streamGetc 0
      ((if checkFlag api.message 4 then [api.distance] else []) ++ rest) =
        some (if checkFlag api.message 4 then api.distance else 0, rest) := by
    intro rest
    cases checkFlag api.message 4 <;> rfl
  have metric : readWhen (checkFlag api.message 8) streamGetl 0
      (if checkFlag api.message 8 then bigEndian 4 api.metric.toNat else []) =
        some (if checkFlag api.message 8 then api.metric else 0, []) := by
    cases checkFlag api.message 8 with
    | false => rfl
    | true => simpa [readWhen] using streamGetl_append api.metric []
  simp only [zreadAdd, ZapiRoute.put, putEntry, Prefix.entry, cons_append, bind, StateT.bind,
    streamGetc_cons, streamGetw_append, Option.bind_some, prefixlen, streamGet_append address,
    reads, distance, metric]
  simp [pure, StateT.pure]

/-- The addresses and then the interfaces, as one list. -/
def ZapiRoute.elements (api : ZapiRoute) : List (Bytes ⊕ UInt32) :=
  api.nexthop.map .inl ++ api.ifindex.map .inr

section

variable {α : Type} {read : α → StreamReader α} {step : α → Bytes ⊕ UInt32 → α} {api : ZapiRoute}
  {nexthopType : UInt8}

theorem readCounted_put (few : api.nexthop.length + api.ifindex.length ≤ 255)
    (reads : ∀ item ∈ api.elements, ∀ value rest, read value (Sum.elim (nexthopType :: ·)
      (fun index => 1 :: bigEndian 4 index.toNat) item ++ rest) = some (step value item, rest))
    (value : α) (rest : Bytes) :
    readCounted read value (api.putNexthopNum ++ api.putNexthops nexthopType ++ rest) =
      some (api.elements.foldl step value, rest) := by
  have count : (UInt8.ofNat (api.nexthop.length + api.ifindex.length)).toNat =
      api.elements.length := by
    rw [UInt8.toNat_ofNat', Nat.mod_eq_of_lt (by omega), ZapiRoute.elements]
    simp
  have octets : api.putNexthops nexthopType = api.elements.flatMap (Sum.elim (nexthopType :: ·)
      fun index => 1 :: bigEndian 4 index.toNat) := by
    simp [ZapiRoute.putNexthops, ZapiRoute.elements, flatMap_map]
  have all := readTimes_flatMap reads 0 value rest
  simp only [readCounted, ZapiRoute.putNexthopNum, cons_append, bind,
    StateT.bind, streamGetc_cons, Option.bind_some, count, octets]
  exact all

end

def zapiRoute : Afi → ZapiRoute → UInt16 → Prefix → Bytes
  | .ip => ZapiRoute.zapiIpv4Route
  | .ip6 => ZapiRoute.zapiIpv6Route

def zreadAddOf : Afi → StreamReader RibRoute
  | .ip => zreadIpv4Add
  | .ip6 => zreadIpv6Add

def ZapiRoute.sentNexthops (api : ZapiRoute) (afi : Afi) : List Nexthop :=
  if api.isBlackhole then [.blackhole]
  else if checkFlag api.message 1 then
    api.elements.map (Sum.elim (if afi = .ip then .ipv4 else .ipv6) .ifindex)
  else []

/-- The values that the messages are made for. The buffer of a client has 4096 octets. -/
structure ZapiRoute.Valid (afi : Afi) (command : UInt16) (p : Prefix) (api : ZapiRoute) : Prop where
  isOf : p.IsOf afi
  addresses : ∀ gate ∈ api.nexthop, gate.length = afi.addressOctets
  few : api.nexthop.length + api.ifindex.length ≤ 255
  bare : api.isBlackhole → api.nexthop = [] ∧ api.ifindex = []
  room : (zapiRoute afi api command p).length ≤ 4096

structure RibRoute.IsOf (afi : Afi) (p : Prefix) (api : ZapiRoute) (route : RibRoute) : Prop where
  type : route.type = api.type
  flags : route.flags = api.flags
  safi : route.safi = api.safi
  prefixlen : route.p.prefixlen = p.prefixlen
  address : route.p.address.take (psize p.prefixlen) = p.address.take (psize p.prefixlen)
  nexthops : route.nexthops = api.sentNexthops afi
  distance : route.distance = api.distance
  metric : route.metric = api.metric

/-- The length field is right, and the route is read back from all that follows the header. -/
def Arrives (afi : Afi) (command : UInt16) (p : Prefix) (api : ZapiRoute) : Prop :=
  readBigEndian ((zapiRoute afi api command p).take 2) = (zapiRoute afi api command p).length ∧
    ∃ route, zreadAddOf afi ((zapiRoute afi api command p).drop 6) = some (route, []) ∧
      route.IsOf afi p api

/-- What is not sent is zero. -/
def ZapiRoute.Complete (api : ZapiRoute) : Prop :=
  (checkFlag api.message 4 ∨ api.distance = 0) ∧ (checkFlag api.message 8 ∨ api.metric = 0)

def ZapiRoute.HasNexthops (api : ZapiRoute) : Afi → Prop
  | .ip => api.isBlackhole → checkFlag api.message 1
  | .ip6 => checkFlag api.message 1 ∧ api.isBlackhole = false ∧
      ((∃ gate ≠ unspecified, api.nexthop = [gate] ∧ api.ifindex = []) ∨
        ∃ index, api.nexthop = [] ∧ api.ifindex = [index])

section

variable {command : UInt16} {p : Prefix} {api : ZapiRoute}

theorem ZapiRoute.Valid.length_of_mem {afi : Afi} (valid : api.Valid afi command p) {gate : Bytes}
    (member : .inl gate ∈ api.elements) : gate.length = afi.addressOctets := by
  apply valid.addresses gate
  simpa [ZapiRoute.elements] using member

theorem ipv4_reads (valid : api.Valid .ip command p) (rest : Bytes) :
    readWhen (checkFlag api.message 1) (readCounted zreadIpv4Nexthop []) []
      ((if checkFlag api.message 1 then
        (if api.isBlackhole then [1, 9] else api.putNexthopNum) ++ api.putNexthops 3 else []) ++
          rest) =
      some (if checkFlag api.message 1 then api.sentNexthops .ip else [], rest) := by
  cases given : checkFlag api.message 1 with
  | false => rfl
  | true =>
    cases blackhole : api.isBlackhole with
    | true =>
      rcases valid.bare blackhole with ⟨noNexthop, noIfindex⟩
      simp [ZapiRoute.putNexthops, ZapiRoute.sentNexthops, noNexthop, noIfindex, blackhole]
      rfl
    | false =>
      have reads : ∀ item ∈ api.elements, ∀ nexthops rest, zreadIpv4Nexthop nexthops
          (Sum.elim (3 :: ·) (fun index => 1 :: bigEndian 4 index.toNat) item ++ rest) =
            some (nexthops ++ [Sum.elim .ipv4 .ifindex item], rest) := by
        intro item member nexthops rest
        cases item with
        | inl gate =>
          have length : gate.length = 4 := valid.length_of_mem member
          simp [zreadIpv4Nexthop, bind, StateT.bind, pure, StateT.pure, streamGet_append length]
        | inr index => simp [zreadIpv4Nexthop, bind, StateT.bind, pure, StateT.pure]
      have all := readCounted_put valid.few reads [] rest
      rw [foldl_append_eq_append, ← flatMap_def, ← map_eq_flatMap] at all
      simpa [readWhen, ZapiRoute.sentNexthops, given, blackhole] using all

def keepLast (found : Bytes × UInt32) : Bytes ⊕ UInt32 → Bytes × UInt32
  | .inl gate => (gate, found.2)
  | .inr index => (found.1, index)

theorem ipv6_reads (valid : api.Valid .ip6 command p) (rest : Bytes) :
    readWhen (checkFlag api.message 1) (readCounted zreadIpv6Nexthop (unspecified, 0))
      (unspecified, 0) ((if checkFlag api.message 1 then
        api.putNexthopNum ++ api.putNexthops 6 else []) ++ rest) =
      some (if checkFlag api.message 1 then api.elements.foldl keepLast (unspecified, 0)
        else (unspecified, 0), rest) := by
  cases checkFlag api.message 1 with
  | false => rfl
  | true =>
    apply readCounted_put valid.few
    intro item member found rest
    cases item with
    | inl gate =>
      have length : gate.length = 16 := valid.length_of_mem member
      simp [zreadIpv6Nexthop, keepLast, bind, StateT.bind, pure, StateT.pure,
        streamGet_append length]
    | inr index => simp [zreadIpv6Nexthop, keepLast, bind, StateT.bind, pure, StateT.pure]

theorem ribAddIpv6_iff :
    [ribAddIpv6 (if checkFlag api.message 1 then api.elements.foldl keepLast (unspecified, 0)
      else (unspecified, 0))] = api.sentNexthops .ip6 ↔ api.HasNexthops .ip6 := by
  unfold ZapiRoute.sentNexthops ZapiRoute.HasNexthops
  cases api.isBlackhole with
  | true =>
    simp [ribAddIpv6]
    split_ifs <;> simp
  | false =>
    cases checkFlag api.message 1 with
    | false => simp
    | true =>
      unfold ZapiRoute.elements
      rcases api.nexthop with _ | ⟨gate, _ | ⟨_, _⟩⟩ <;>
        rcases api.ifindex with _ | ⟨index, _ | ⟨_, _⟩⟩ <;>
        simp [keepLast, ribAddIpv6]

theorem blackhole_flag (flags : UInt8) (isSet : checkFlag flags 4 = true) :
    flags ||| 4 = flags := by
  have bits : ∀ bits : BitVec 8, bits &&& 4 ≠ 0 → bits ||| 4 = bits := by decide +kernel
  apply UInt8.toBitVec_inj.mp
  apply bits flags.toBitVec
  intro cleared
  have zero : flags &&& 4 = 0 := UInt8.toBitVec_inj.mp cleared
  simp [checkFlag, zero] at isSet

theorem arrives_iff {afi : Afi} {body : Bytes} {nexthops : List Nexthop}
    (valid : api.Valid afi command p) (message : zapiRoute afi api command p =
      zclientMessage command body) (reads : zreadAddOf afi body = some (⟨api.type,
      if .blackhole ∈ nexthops then api.flags ||| 4 else api.flags, api.safi, .ofEntry afi p.entry,
      nexthops, if checkFlag api.message 4 then api.distance else 0,
      if checkFlag api.message 8 then api.metric else 0⟩, [])) :
    Arrives afi command p api ↔ api.Complete ∧ nexthops = api.sentNexthops afi := by
  have length : (zclientMessage command body).length = 6 + body.length := by
    simp [zclientMessage]
    omega
  have room := valid.room
  rw [message] at room
  have field : readBigEndian ((zclientMessage command body).take 2) =
      (zclientMessage command body).length := by
    rw [length, zclientMessage, take_left' (length_bigEndian 2 _), readBigEndian_bigEndian]
    omega
  have rest : (zclientMessage command body).drop 6 = body := rfl
  rw [Arrives, message, rest, reads]
  constructor
  · rintro ⟨_, route, isRead, isOf⟩
    cases isRead
    have distance := isOf.distance
    have metric := isOf.metric
    refine ⟨⟨?_, ?_⟩, isOf.nexthops⟩
    · grind
    · grind
  · rintro ⟨⟨distance, metric⟩, same⟩
    refine ⟨field, _, rfl, rfl, ?_, rfl, rfl, ?_, same, ?_, ?_⟩
    · dsimp only
      split_ifs with sent
      · apply blackhole_flag
        rw [same, ZapiRoute.sentNexthops] at sent
        cases blackhole : api.isBlackhole with
        | true => exact blackhole
        | false => cases afi <;> cases checkFlag api.message 1 <;> simp [blackhole] at sent
      · rfl
    · rcases valid.isOf with ⟨_, octets, short⟩
      apply take_left'
      rw [Prefix.entry, length_take, psize]
      omega
    · grind
    · grind

theorem route_arrives_iff (afi : Afi) (valid : api.Valid afi command p) :
    Arrives afi command p api ↔ api.Complete ∧ api.HasNexthops afi := by
  cases afi with
  | ip =>
    rw [arrives_iff valid rfl (zreadAdd_put valid.isOf (ipv4_reads valid))]
    unfold ZapiRoute.HasNexthops ZapiRoute.sentNexthops
    cases checkFlag api.message 1 <;> cases api.isBlackhole <;> simp
  | ip6 =>
    rw [arrives_iff valid rfl (zreadAdd_put valid.isOf (ipv6_reads valid)), ribAddIpv6_iff]

end

/-- Two gateways and two interfaces. -/
def multipath : ZapiRoute := ⟨9, 0, 15, 1, [[10, 0, 0, 1], [10, 0, 0, 2]], [3, 4], 20, 100⟩

theorem multipath_arrives : Arrives .ip 7 ⟨.ip, 8, [10, 0, 0, 0]⟩ multipath := by
  apply (route_arrives_iff .ip _).mpr
  · exact ⟨⟨.inl rfl, .inl rfl⟩, fun _ => rfl⟩
  · exact ⟨⟨rfl, rfl, by decide⟩, by decide, by decide, nofun, by decide +kernel⟩

def twoGates : ZapiRoute := ⟨9, 0, 1, 1, [List.replicate 16 1, List.replicate 16 2], [], 0, 0⟩

/-- Only the second of two next hops reaches the RIB. -/
theorem twoGates_lost : twoGates.Valid .ip6 9 ⟨.ip6, 0, unspecified⟩ ∧
    ¬ Arrives .ip6 9 ⟨.ip6, 0, unspecified⟩ twoGates := by
  constructor
  · exact ⟨⟨rfl, rfl, by decide⟩, by decide, by decide, nofun, by decide +kernel⟩
  · rintro ⟨_, route, read, isOf⟩
    have nexthops : (zreadAddOf .ip6 ((zapiRoute .ip6 twoGates 9
        ⟨.ip6, 0, unspecified⟩).drop 6)).map (·.1.nexthops) =
          some [.ipv6 (List.replicate 16 2)] := by
      decide +kernel
    rw [read, Option.map_some, isOf.nexthops] at nexthops
    exact absurd nexthops (by decide +kernel)

end Quagga.Zebra
