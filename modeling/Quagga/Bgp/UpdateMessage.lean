import Quagga.Bgp.AttrScan
import Quagga.Bgp.UpdateReceive

/-!
# What becomes of an UPDATE

The three fields of an UPDATE, the prefixes it is about, and what `bgp_update_receive` does
with them by the fate of the attributes.
-/

namespace Quagga.Bgp

open Foundation Dbgp List

variable {destination : Destination} {reader : Bytes → Option MpNlri} {plain body : Bytes}
  {call : NlriCall} {field : MpNlri} {packet : Nlri} {code : UInt8}

/-- The fields of an UPDATE as their lengths delimit them. -/
structure Message where
  withdraw : Bytes
  attributes : Bytes
  nlri : Bytes
deriving Repr, DecidableEq

def delimit (body : Bytes) : Option Message := do
  let (withdraw, rest) ← readSized body
  let (attributes, nlri) ← readSized rest
  return ⟨withdraw, attributes, nlri⟩

def fieldsIn (code : UInt8) (reader : Bytes → Option MpNlri) (attributes : List Attribute) :
    List MpNlri :=
  (attributes.filter fun received => received.type = code).filterMap fun received =>
    reader received.value

def reachOf (attributes : List Attribute) : List MpNlri := fieldsIn 14 mpReach? attributes

def unreachOf (attributes : List Attribute) : List MpNlri := fieldsIn 15 mpUnreach? attributes

def Message.received (message : Message) : List Attribute :=
  (attributeReader.records message.attributes).1

/-! ## Fields of prefixes -/

section

variable (peer : ReceivingPeer)

/-- The fields of a family: plain prefixes, which are IPv4 unicast, and those of attributes. -/
def fieldsOfFamily (plain : Bytes) (multiprotocol : List MpNlri) (family : Afi × Safi) :
    List Nlri :=
  if peer.afc family.1 family.2 then
    (if family = (.ip, .unicast) then plainField plain else []) ++
      multiprotocol.flatMap fun field => field.ofFamily family.1 family.2
  else []

def fieldsOf (plain : Bytes) (multiprotocol : List MpNlri) : List Nlri :=
  families.flatMap (fieldsOfFamily peer plain multiprotocol)

def Message.announced (message : Message) : List Destination :=
  (fieldsOf peer message.nlri (reachOf message.received)).flatMap Nlri.encoded

def Message.withdrawn (message : Message) : List Destination :=
  (fieldsOf peer message.withdraw (unreachOf message.received)).flatMap Nlri.encoded

def callsOf (attr? : Option (Attr Transit)) (withdraw update : Bytes)
    (mpUpdate mpWithdraw : MpNlri) : List NlriCall :=
  families.flatMap (familyCalls peer attr? withdraw update mpUpdate mpWithdraw)

variable {peer}

section

variable {attr? : Option (Attr Transit)} {withdraw update : Bytes} {mpUpdate mpWithdraw : MpNlri}

theorem mem_familyCalls {family : Afi × Safi} :
    call ∈ familyCalls peer attr? withdraw update mpUpdate mpWithdraw family ↔
      (call.attr? = none ∧ call.packet ∈ fieldsOfFamily peer withdraw [mpWithdraw] family) ∨
        (call.attr? = attr? ∧ call.packet ∈ fieldsOfFamily peer update [mpUpdate] family) := by
  rcases call with ⟨callAttr, packet⟩
  have mem_map : ∀ (attr? : Option (Attr Transit)) (fields : List Nlri),
      (⟨callAttr, packet⟩ : NlriCall) ∈ fields.map (NlriCall.mk attr?) ↔
        callAttr = attr? ∧ packet ∈ fields := by
    intro attr? fields
    grind
  cases configured : peer.afc family.1 family.2 with
  | false => simp [familyCalls, fieldsOfFamily, configured]
  | true =>
    simp only [familyCalls, fieldsOfFamily, configured, if_true, mem_append, mem_map, flatMap_cons]
    tauto

theorem mem_callsOf :
    call ∈ callsOf peer attr? withdraw update mpUpdate mpWithdraw ↔
      (call.attr? = none ∧ call.packet ∈ fieldsOf peer withdraw [mpWithdraw]) ∨
        (call.attr? = attr? ∧ call.packet ∈ fieldsOf peer update [mpUpdate]) := by
  simp only [callsOf, fieldsOf, mem_flatMap, mem_familyCalls]
  grind

end

theorem fieldsOf_subset {other : Bytes} {multiprotocol others : List MpNlri}
    (plainSame : plain = [] ∨ plain = other)
    (included : ∀ field ∈ multiprotocol, field.nlri = [] ∨ field ∈ others) :
    fieldsOf peer plain multiprotocol ⊆ fieldsOf peer other others := by
  intro packet mem
  simp only [fieldsOf, mem_flatMap, fieldsOfFamily] at mem ⊢
  rcases mem with ⟨family, known, mem⟩
  refine ⟨family, known, ?_⟩
  cases configured : peer.afc family.1 family.2 with
  | false => simp [configured] at mem
  | true =>
    simp only [configured, if_true, mem_append, mem_flatMap] at mem ⊢
    rcases mem with mem | ⟨field, isField, mem⟩
    · left
      rcases plainSame with rfl | rfl
      · simp [plainField] at mem
      · exact mem
    · right
      rcases included field isField with empty | isOther
      · simp [MpNlri.ofFamily, empty] at mem
      · exact ⟨field, isOther, mem⟩

end

def Receipt.InstallsNothing (receipt : Receipt) : Prop := ∀ call ∈ receipt.calls, call.attr? = none

def Receipt.withdrawn (receipt : Receipt) : List Destination :=
  (receipt.calls.filter fun call => call.attr?.isNone).flatMap fun call =>
    call.packet.destinations

theorem Receipt.mem_withdrawn {receipt : Receipt} :
    destination ∈ receipt.withdrawn ↔
      ∃ call ∈ receipt.calls, call.attr? = none ∧ destination ∈ call.packet.destinations := by
  simp [Receipt.withdrawn, and_assoc]

/-! ## The checks after the last attribute -/

section

variable {peer : ReceivingPeer}

theorem bgpAttrMungeAs4Attrs_transit (state : ParseState) (aspath : AsPath) :
    (bgpAttrMungeAs4Attrs peer state aspath).transit? = state.attr.transit? := by
  unfold bgpAttrMungeAs4Attrs
  dsimp only
  repeat' split
  all_goals rfl

theorem checkAttributes_cases (state : ParseState) :
    ((checkAttributes peer state).ret = .error ∧ (checkAttributes peer state).notifications ≠ []) ∨
      ∃ attr, attr.transit? = state.attr.transit? ∧
        checkAttributes peer state = ⟨.proceed, { state with attr := attr }, [], []⟩ := by
  fun_cases checkAttributes peer state with
  | case4 nothing present aspath found attr checked accepted =>
    right
    refine ⟨_, ?_, rfl⟩
    exact bgpAttrMungeAs4Attrs_transit state aspath
  | case5 nothing absent => exact .inr ⟨state.attr, rfl, rfl⟩
  | _ => exact .inl ⟨rfl, by simp⟩

end

/-! ## By the fate of the attributes -/

def Rejected (result : Execution Receipt) : Prop :=
  ∃ notifications, notifications ≠ [] ∧ result = .ok (.rejected notifications)

section

variable (peer : ReceivingPeer) (behind : Bytes) (message : Message)

def Message.scan : Scanned := Bgp.scan peer (message.nlri ++ behind) message.attributes

/-- The attribute that the scan stops at, and what of the section follows it. -/
def Message.next? : Option (ParserArgs × Bytes) :=
  (message.scan peer behind).next? (message.nlri ++ behind)

/-- The checks after the last attribute, which an empty section does not get. -/
def Message.checked : Prop :=
  message.attributes = [] ∨
    (checkAttributes peer (described peer (message.scan peer behind).before)).ret = .proceed

theorem Message.scan_scans : Scans peer message.attributes (message.scan peer behind) :=
  Bgp.scan_scans message.attributes

def Message.calls (attr? : Option (Attr Transit)) (update : Bytes) : List NlriCall :=
  let state := described peer (message.scan peer behind).before
  callsOf peer attr? message.withdraw update state.mpUpdate state.mpWithdraw

def Message.handed (update : Bytes) : List Destination :=
  let before := (message.scan peer behind).before.map ParserArgs.toAttribute
  (fieldsOf peer message.withdraw (unreachOf before) ++
    fieldsOf peer update (reachOf before)).flatMap Nlri.destinations

def Message.attr : Attr Transit :=
  let state := described peer (message.scan peer behind).before
  if (message.scan peer behind).unread = [] ∧ message.attributes ≠ [] then
    (checkAttributes peer state).state.attr
  else state.attr

def Message.HandedOn (update : Bytes) (result : Execution Receipt) : Prop :=
  (message.attr peer behind).transit? = transitOf (message.scan peer behind).before ∧
    result = .ok ⟨true, [], message.calls peer behind (some (message.attr peer behind)) update⟩

/-- What `bgp_update_receive` does with a message whose withdrawn prefixes are well formed.
It takes for prefixes whatever follows the attribute it stopped at. -/
def Message.ReceivedAs (result : Execution Receipt) : Prop :=
  if (message.scan peer behind).unread = [] then
    (message.checked peer behind ∧ isSane message.nlri = true →
      message.HandedOn peer behind message.nlri result) ∧
    (¬ (message.checked peer behind ∧ isSane message.nlri = true) → Rejected result)
  else match message.next? peer behind with
    | none => Rejected result
    | some (args, rest) =>
      match fate peer (message.scan peer behind).before args with
      | .passes => False
      | .notified => Rejected result
      | .withdrawn =>
        if isSane (rest ++ message.nlri) then
          result = .ok ⟨true, [], message.calls peer behind none (rest ++ message.nlri)⟩
        else Rejected result
      | .unnoticed =>
        if isSane (rest ++ message.nlri) then
          message.HandedOn peer behind (rest ++ message.nlri) result
        else Rejected result
      | .aborts => ∃ fault, result = .error fault

theorem receiveAttributes_receivedAs :
    message.ReceivedAs peer behind
      (receiveAttributes peer behind message.withdraw message.attributes message.nlri) := by
  by_cases empty : message.attributes = []
  · have nothing : message.scan peer behind = ⟨[], []⟩ := by
      rw [Message.scan, empty, scan_nil]
    simp only [Message.ReceivedAs, Message.checked, Message.HandedOn, Message.calls, Message.attr,
      nothing, receiveAttributes, empty, ok_bind, nil_append, true_or, true_and]
    constructor
    · intro sane
      simp only [sane]
      exact ⟨rfl, rfl⟩
    · intro insane
      simp only [insane]
      exact ⟨_, by simp, rfl⟩
  have ends := @parseLoop_ends peer (message.nlri ++ behind) message.attributes
  have scans := message.scan_scans peer behind
  change Ends peer (message.nlri ++ behind) _ (message.scan peer behind) at ends
  simp only [receiveAttributes, if_neg empty, bgpAttrParse]
  unfold Message.ReceivedAs Message.next? Message.checked Message.HandedOn Message.calls
    Message.attr
  generalize message.scan peer behind = scanned at ends scans
  generalize (parseLoop peer (message.nlri ++ behind)).run
    ⟨message.attributes, [], .initial⟩ = result at ends
  cases ends with
  | @finished before =>
    have transit := described_transit scans.passing
    simp only [ok_bind, if_true, pure_eq_ok, empty, false_or, ne_eq]
    rcases @checkAttributes_cases peer (described peer before) with ⟨failed, notified⟩ |
      ⟨attr, kept, checked⟩
    · simp only [failed, reduceCtorEq, false_and, not_false_eq_true, true_implies,
        false_implies, true_and]
      exact ⟨_, notified, rfl⟩
    · simp only [checked, nil_append, true_and]
      constructor
      · intro sane
        simp only [sane]
        exact ⟨kept.trans transit, rfl⟩
      · intro insane
        simp only [insane]
        exact ⟨_, by simp, rfl⟩
  | @notified scanned state unread notifications nonempty notified some =>
    simp only [if_neg nonempty]
    have rejected : Rejected (.ok (.rejected notifications)) := ⟨_, some, rfl⟩
    split
    · exact rejected
    · rename_i args rest found
      rw [notified args rest found]
      exact rejected
  | @withdrawn scanned args rest state found decided mpUpdate mpWithdraw =>
    simp only [ok_bind, reduceCtorEq, if_false, pure_eq_ok, found,
      decided, mpUpdate, mpWithdraw, if_neg (Scanned.nonempty found)]
    cases sane : isSane (rest ++ message.nlri) with
    | true => rfl
    | false => exact ⟨_, by simp, rfl⟩
  | @unnoticed scanned args rest found decided =>
    simp only [ok_bind, reduceCtorEq, if_false, pure_eq_ok, found, decided, Scanned.nonempty found]
    cases sane : isSane (rest ++ message.nlri) with
    | true => exact ⟨described_transit scans.passing, rfl⟩
    | false => exact ⟨_, by simp, rfl⟩
  | @aborts scanned args rest fault found decided =>
    simp only [found, decided, if_neg (Scanned.nonempty found)]
    exact ⟨fault, rfl⟩

/-! ## Delimiting the fields -/

variable {peer behind message}

theorem bgpUpdateReceive_delimited (established : peer.established = true)
    (delimited : delimit body = some message) :
    bgpUpdateReceive peer behind body =
      if isSane message.withdraw then
        receiveAttributes peer behind message.withdraw message.attributes message.nlri
      else .ok (.rejected [⟨.invalNetwork, []⟩]) := by
  simp only [delimit, bind, Option.bind_eq_some_iff, pure, Option.some.injEq] at delimited
  rcases delimited with ⟨⟨withdraw, rest⟩, first, ⟨attributes, nlri⟩, second, rfl⟩
  simp only [bgpUpdateReceive, established, first, second]
  cases isSane withdraw with
  | true => rfl
  | false => rfl

theorem bgpUpdateReceive_undelimited (established : peer.established = true)
    (undelimited : delimit body = none) : Rejected (bgpUpdateReceive peer behind body) := by
  unfold bgpUpdateReceive
  simp only [established, not_true_eq_false, if_false]
  split
  · exact ⟨_, by simp, rfl⟩
  · rename_i withdraw rest first
    split
    · exact ⟨_, by simp, rfl⟩
    split
    · exact ⟨_, by simp, rfl⟩
    · rename_i attributes nlri second
      simp [delimit, first, second] at undelimited

/-! ## The prefixes of the attributes that passed -/

theorem mem_fieldsIn {attributes : List Attribute} :
    field ∈ fieldsIn code reader attributes ↔
      ∃ received ∈ attributes, received.type = code ∧ reader received.value = some field := by
  simp [fieldsIn, and_assoc]

variable {before : List ParserArgs}

theorem mem_fieldsOf_described
    (filled : (∀ args ∈ before, args.type = code → reader args.value = some field) ∧
      ((∀ args ∈ before, args.type ≠ code) → field = .zero)) :
    packet ∈ fieldsOf peer plain [field] ↔
      packet ∈ fieldsOf peer plain
        (fieldsIn code reader (before.map ParserArgs.toAttribute)) := by
  constructor
  · apply fieldsOf_subset (.inr rfl)
    intro other same
    rw [mem_singleton] at same
    subst same
    by_cases some : ∃ args ∈ before, args.type = code
    · rcases some with ⟨args, mem, type⟩
      right
      exact mem_fieldsIn.mpr
        ⟨args.toAttribute, mem_map_of_mem mem, type, filled.1 args mem type⟩
    · left
      rw [filled.2 fun args mem type => some ⟨args, mem, type⟩]
      rfl
  · apply fieldsOf_subset (.inr rfl)
    intro other mem
    rcases mem_fieldsIn.mp mem with ⟨received, isReceived, type, read⟩
    rcases mem_map.mp isReceived with ⟨args, isBefore, rfl⟩
    right
    rw [filled.1 args isBefore type] at read
    rw [mem_singleton, ← Option.some.inj read]

theorem mem_fieldsOf_mpUpdate (passing : Passing peer before) :
    packet ∈ fieldsOf peer plain [(described peer before).mpUpdate] ↔
      packet ∈ fieldsOf peer plain (reachOf (before.map ParserArgs.toAttribute)) :=
  mem_fieldsOf_described (described_mpUpdate passing)

theorem calls_installsNothing (update : Bytes) :
    (⟨true, [], message.calls peer behind none update⟩ : Receipt).InstallsNothing := by
  intro call mem
  rcases mem_callsOf.mp mem with ⟨none, _⟩ | ⟨none, _⟩
  · exact none
  · exact none

theorem mem_withdrawn {attr? : Option (Attr Transit)} {update : Bytes} :
    destination ∈ (⟨true, [], message.calls peer behind attr? update⟩ : Receipt).withdrawn ↔
      let before := (message.scan peer behind).before.map ParserArgs.toAttribute
      destination ∈ (fieldsOf peer message.withdraw (unreachOf before)).flatMap
          Nlri.destinations ∨
        attr? = none ∧
          destination ∈ (fieldsOf peer update (reachOf before)).flatMap Nlri.destinations := by
  have passing := (message.scan_scans peer behind).passing
  rw [Receipt.mem_withdrawn]
  simp only [Message.calls, mem_callsOf, mem_flatMap,
    mem_fieldsOf_described (described_mpWithdraw passing), mem_fieldsOf_mpUpdate passing]
  constructor
  · rintro ⟨call, ⟨_, mem⟩ | ⟨same, mem⟩, none, isDestination⟩
    · exact .inl ⟨call.packet, mem, isDestination⟩
    · exact .inr ⟨same.symm.trans none, call.packet, mem, isDestination⟩
  · rintro (⟨packet, mem, isDestination⟩ | ⟨rfl, packet, mem, isDestination⟩)
    · exact ⟨⟨none, packet⟩, .inl ⟨rfl, mem⟩, rfl, isDestination⟩
    · exact ⟨⟨none, packet⟩, .inr ⟨rfl, mem⟩, rfl, isDestination⟩

theorem mem_withdrawn_calls {update : Bytes} :
    destination ∈ (⟨true, [], message.calls peer behind none update⟩ : Receipt).withdrawn ↔
      destination ∈ message.handed peer behind update := by
  rw [mem_withdrawn]
  simp [Message.handed]

end

/-! ## A small message -/

def externalPeer : ReceivingPeer where
  sort := .ebgp
  as := 100
  as4Rcv := false
  restartRcv := false
  enforceFirstAs := false
  changeLocalAs? := none
  localAsNoPrepend := false
  afc _ _ := true
  established := true
  beyondTable := 0

def mandatoryAttributes : Bytes :=
  [0x40, 1, 1, 0] ++ [0x40, 2, 4, 2, 1, 0, 100] ++ [0x40, 3, 4, 10, 0, 0, 1]

def announcement (attributes : Bytes) : Message := ⟨[], attributes, [24, 10, 1, 2]⟩

def Message.octets (message : Message) : Bytes :=
  bigEndian 2 message.withdraw.length ++ message.withdraw ++
    bigEndian 2 message.attributes.length ++ message.attributes ++ message.nlri

end Quagga.Bgp
