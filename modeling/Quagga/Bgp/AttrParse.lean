import Quagga.Bgp.Nlri
import Quagga.Dbgp.Lookup
import Quagga.Foundation.Loop

/-!
# Parsing the attributes of an UPDATE

`bgp_attr_parse` of `bgp_attr.c` with everything it calls. The stream is the list of octets
that are still to be read; a parser of one attribute gets the value of the attribute and
says how much of it is left unread.
-/

namespace Quagga.Bgp

open Foundation Dbgp

/-- What the parser reads of a peer. The table of attribute flags is read at an index right
behind its end, where `beyondTable` is. -/
structure ReceivingPeer where
  sort : PeerSort
  as : UInt32
  as4Rcv : Bool
  restartRcv : Bool
  enforceFirstAs : Bool
  changeLocalAs? : Option UInt32
  localAsNoPrepend : Bool
  /-- The address families that are configured for the peer. -/
  afc : Afi → Safi → Bool
  established : Bool
  beyondTable : UInt8

/-- `BGP_NOTIFY_FSM_ERR`, and the subcodes of `BGP_NOTIFY_UPDATE_ERR`. -/
inductive NotifyError where
  | fsmErr
  | malAttr
  | unrecAttr
  | missAttr
  | attrFlagErr
  | attrLengErr
  | invalOrigin
  | invalNextHop
  | optAttrErr
  | invalNetwork
  | malAsPath
deriving Repr, DecidableEq

structure Notification where
  error : NotifyError
  data : Bytes
deriving Repr, DecidableEq

inductive ParseReturn where
  | proceed
  | error
  | withdraw
  | errorNotifypls
deriving Repr, DecidableEq

/-- Multiprotocol reachability as it is on the wire; all zero when there is none. -/
structure MpNlri where
  afi : Nat
  safi : Nat
  nlri : Bytes
deriving Repr, DecidableEq

def MpNlri.zero : MpNlri := ⟨0, 0, []⟩

structure ParseState where
  attr : Attr Transit
  as4Path? : Option AsPath
  as4Aggregator : UInt32
  as4AggregatorAddr : UInt32
  mpUpdate : MpNlri
  mpWithdraw : MpNlri

def ParseState.initial : ParseState := ⟨.zero, none, 0, 0, .zero, .zero⟩

/-- An attribute on the wire; `octets` is the whole of it with its header. -/
structure Attribute where
  flags : UInt8
  type : UInt8
  value : Bytes
  octets : Bytes
deriving Repr, DecidableEq

/-- `struct bgp_attr_parser_args`. The pointer `startp` leads to the attribute and to what
follows it in the buffer. -/
structure ParserArgs extends Attribute where
  following : Bytes
deriving Repr, DecidableEq

structure Outcome where
  ret : ParseReturn
  state : ParseState
  unread : Bytes
  notifications : List Notification

/-! ## Flags -/

def flagOptional : UInt8 := 0x80

def flagTrans : UInt8 := 0x40

def flagPartial : UInt8 := 0x20

def flagExtlen : UInt8 := 0x10

def hasFlag (flags flag : UInt8) : Bool := flags &&& flag ≠ 0

def flagsOptionalTrans : UInt8 := 0xc0

/-- `attr_flags_values`. Types 0, 11, 12 and 13 have no entry. -/
def attrFlagsValues (beyondTable type : UInt8) : UInt8 :=
  match type with
  | 1 | 2 | 3 | 5 | 6 => flagTrans
  | 4 | 9 | 10 | 14 | 15 => flagOptional
  | 7 | 8 | 16 | 17 | 18 => flagsOptionalTrans
  | 19 => beyondTable
  | _ => 0

/-- The bound of the table is one too large, so type 19 is looked up as well. -/
def bgpAttrFlagInvalid (peer : ReceivingPeer) (flags type : UInt8) : Bool :=
  let isOptional := hasFlag flags flagOptional
  let isTrans := hasFlag flags flagTrans
  let desired := attrFlagsValues peer.beyondTable type
  if 19 < type ∨ desired = 0 then false
  else if !isOptional && !isTrans then true
  else if hasFlag flags flagPartial && !(isOptional && isTrans) then true
  else
    let mask := if isOptional && isTrans then flagExtlen ||| flagPartial else flagExtlen
    flags &&& ~~~mask ≠ desired

/-- A malformed attribute: the peer is notified, the attribute is skipped, or the routes are
withdrawn. What is left of the stream begins after the attribute. -/
def bgpAttrMalformed (peer : ReceivingPeer) (args : Attribute) (error : NotifyError)
    (data : Bytes) : ParseReturn × List Notification :=
  if peer.sort ≠ .ebgp then (.error, [⟨error, data⟩])
  else match args.type with
    | 6 | 7 | 18 => (.proceed, [])
    | 1 | 2 | 3 | 4 | 5 | 8 | 9 | 10 | 14 | 15 | 16 => (.error, [⟨error, data⟩])
    | _ =>
      if hasFlag args.flags flagTrans && hasFlag args.flags flagOptional &&
          hasFlag args.flags flagPartial then (.withdraw, [])
      else (.errorNotifypls, [])

/-! ## Single attributes -/

section

variable (peer : ReceivingPeer) (args : ParserArgs) (state : ParseState)

def Outcome.malformed (error : NotifyError) (data : Bytes) : Outcome :=
  let (ret, notifications) := bgpAttrMalformed peer args.toAttribute error data
  ⟨ret, state, [], notifications⟩

def Outcome.read (count : Nat) (attr : Attr Transit) : Outcome :=
  ⟨.proceed, { state with attr := attr }, args.value.drop count, []⟩

def Outcome.notifypls (notifications : List Notification) : Outcome :=
  ⟨.errorNotifypls, state, [], notifications⟩

def ParserArgs.getl (position : Nat) : UInt32 :=
  UInt32.ofNat (readBigEndian ((args.value.drop position).take 4))

def ParserArgs.getw (position : Nat) : Nat := readBigEndian ((args.value.drop position).take 2)

def ParserArgs.getc (position : Nat) : Nat := readBigEndian ((args.value.drop position).take 1)

def setFlag (type : AttributeType) (attr : Attr Transit) : Attr Transit :=
  { attr with flag := insert type attr.flag }

def bgpAttrOrigin : Outcome :=
  if args.value.length ≠ 1 then .malformed peer args state .attrLengErr args.octets
  else
    let attr := { state.attr with origin := UInt8.ofNat (args.getc 0) }
    if 2 < args.getc 0 then
      .malformed peer args { state with attr := attr } .invalOrigin args.octets
    else .read args state 1 (setFlag .origin attr)

def bgpAttrAspath : Outcome :=
  match aspathParse args.value peer.as4Rcv with
  | none =>
    .malformed peer args { state with attr := { state.attr with aspath? := none } } .malAsPath []
  | some aspath =>
    .read args state args.value.length (setFlag .asPath { state.attr with aspath? := some aspath })

def bgpAttrAs4Path : Outcome :=
  match aspathParse args.value true with
  | none => .malformed peer args { state with as4Path? := none } .malAsPath []
  | some aspath =>
    .read args { state with as4Path? := some aspath } args.value.length
      (setFlag .as4Path state.attr)

/-- `IPV4_NET0`, `IPV4_NET127` and `IPV4_CLASS_DE`. -/
def isMartianNexthop (nexthop : UInt32) : Bool :=
  nexthop &&& 0xff000000 = 0 || nexthop &&& 0xff000000 = 0x7f000000 ||
    nexthop &&& 0xe0000000 = 0xe0000000

def bgpAttrNexthop : Outcome :=
  if args.value.length ≠ 4 then .malformed peer args state .attrLengErr args.octets
  else if isMartianNexthop (args.getl 0) then
    .malformed peer args state .invalNextHop args.octets
  else .read args state 4 (setFlag .nextHop { state.attr with nexthop := args.getl 0 })

def bgpAttrMed : Outcome :=
  if args.value.length ≠ 4 then .malformed peer args state .attrLengErr args.octets
  else .read args state 4 (setFlag .multiExitDisc { state.attr with med := args.getl 0 })

/-- An external peer has no say in the local preference. -/
def bgpAttrLocalPref : Outcome :=
  if args.value.length ≠ 4 then .malformed peer args state .attrLengErr args.octets
  else if peer.sort = .ebgp then .read args state 4 state.attr
  else .read args state 4 (setFlag .localPref { state.attr with localPref := args.getl 0 })

def bgpAttrAtomic : Outcome :=
  if args.value.length ≠ 0 then .malformed peer args state .attrLengErr args.octets
  else .read args state 0 (setFlag .atomicAggregate state.attr)

def bgpAttrAggregator : Outcome :=
  let size := if peer.as4Rcv then 4 else 2
  if args.value.length ≠ size + 4 then .malformed peer args state .attrLengErr args.octets
  else .read args state (size + 4) (setFlag .aggregator { state.attr with
    aggregatorAs := UInt32.ofNat (readBigEndian (args.value.take size))
    aggregatorAddr := args.getl size })

def bgpAttrAs4Aggregator : Outcome :=
  if args.value.length ≠ 8 then .malformed peer args state .attrLengErr []
  else .read args { state with as4Aggregator := args.getl 0, as4AggregatorAddr := args.getl 4 } 8
    (setFlag .as4Aggregator state.attr)

def words (octets : Bytes) : List UInt32 :=
  (List.range (octets.length / 4)).map fun index =>
    UInt32.ofNat (readBigEndian ((octets.drop (4 * index)).take 4))

/-- Sorted and without repetition. -/
def bgpAttrCommunity : Outcome :=
  if args.value.length = 0 then .read args state 0 { state.attr with community? := none }
  else if args.value.length % 4 ≠ 0 then
    .malformed peer args { state with attr := { state.attr with community? := none } } .optAttrErr
      args.octets
  else .read args state args.value.length (setFlag .communities { state.attr with
    community? := some (((words args.value).insertionSort (· ≤ ·)).destutter (· ≠ ·)) })

def bgpAttrOriginatorId : Outcome :=
  if args.value.length ≠ 4 then .malformed peer args state .attrLengErr args.octets
  else .read args state 4 (setFlag .originatorId { state.attr with originatorId := args.getl 0 })

def bgpAttrClusterList : Outcome :=
  if args.value.length % 4 ≠ 0 then .malformed peer args state .attrLengErr args.octets
  else .read args state args.value.length (setFlag .clusterList
    { state.attr with cluster? := some (words args.value) })

/-- The eight octets of each extended community, sorted and without repetition. -/
def bgpAttrExtCommunities : Outcome :=
  if args.value.length = 0 then .read args state 0 { state.attr with ecommunity? := none }
  else if args.value.length % 8 ≠ 0 then
    .malformed peer args { state with attr := { state.attr with ecommunity? := none } } .optAttrErr
      args.octets
  else
    let values := (List.range (args.value.length / 8)).map fun index =>
      (args.value.drop (8 * index)).take 8
    .read args state args.value.length (setFlag .extCommunities { state.attr with
      ecommunity? := some ((values.insertionSort (· ≤ ·)).destutter (· ≠ ·)) })

/-- The next hop of a multiprotocol attribute, if its length is one of those that are known. -/
def mpNexthop (length : Nat) (octets : Bytes) (attr : Attr Transit) : Option (Attr Transit) :=
  let address := fun position => UInt32.ofNat (readBigEndian ((octets.drop position).take 4))
  match length with
  | 4 => some { attr with
      mpNexthopGlobalIn := address 0
      nexthop := if attr.nexthop = 0 then address 0 else attr.nexthop }
  | 12 => some { attr with mpNexthopGlobalIn := address 8 }
  | 16 => some { attr with mpNexthopGlobal := octets.take 16 }
  | 32 =>
    let second := (octets.drop 16).take 16
    some { attr with
      mpNexthopGlobal := octets.take 16
      mpNexthopLocal := second
      mpNexthopLen := if Prefix.isLinkLocal ⟨.ip6, 128, second⟩ then 32 else 16 }
  | _ => none

/-- `SAFI_MPLS_LABELED_VPN`, whose prefixes are not checked. -/
def safiMplsLabeledVpn : Nat := 128

def bgpMpReachParse : Outcome :=
  if args.value.length < 5 then .notifypls state []
  else
    let length := args.getc 3
    let left := args.value.drop 4
    let attr := { state.attr with mpNexthopLen := length }
    if left.length < length then .notifypls { state with attr := attr } []
    else match mpNexthop length left attr with
      | none => .notifypls { state with attr := attr } []
      | some attr =>
        let state := { state with attr := attr }
        -- One octet for the SNPAs nobody uses, then the prefixes.
        let nlri := left.drop (length + 1)
        if nlri = [] then .notifypls state []
        else if args.getc 2 ≠ safiMplsLabeledVpn ∧ ¬ bgpNlriSanityCheck (args.getw 0) nlri then
          .notifypls state [⟨.invalNetwork, []⟩]
        else .read args { state with mpUpdate := ⟨args.getw 0, args.getc 2, nlri⟩ }
          args.value.length (setFlag .mpReachNlri attr)

def bgpMpUnreachParse : Outcome :=
  if args.value.length < 3 then .notifypls state []
  else
    let nlri := args.value.drop 3
    if args.getc 2 ≠ safiMplsLabeledVpn ∧ ¬ bgpNlriSanityCheck (args.getw 0) nlri then
      .notifypls state [⟨.invalNetwork, []⟩]
    else .read args { state with mpWithdraw := ⟨args.getw 0, args.getc 2, nlri⟩ }
      args.value.length (setFlag .mpUnreachNlri state.attr)

/-- The lookup key is taken from the fifth octet of the attribute on, which is where the
value starts only if the header has the long form. -/
def bgpAttrDbgp : Execution Outcome := do
  Execution.require (args.value.length = 4) .dbgpAttributeLength
  let transit := state.attr.transit?.getD ⟨0, [0, 0, 0, 0]⟩
  let received := ((args.octets ++ args.following).drop 4).take 4
  if received.length < 4 ∨ transit.val.length < 4 then .error .undefined
  else
    let key := UInt32.ofNat (readBigEndian received)
    return .read args state 4
      { state.attr with transit? := some ⟨4, keyOctets key ++ transit.val.drop 4⟩ }

/-- `SET_FLAG (*startp, BGP_ATTR_FLAG_PARTIAL)` -/
def markPartial : Bytes → Bytes
  | [] => []
  | first :: rest => (first ||| flagPartial) :: rest

/-- Attributes that are not known but are to be passed on are collected in one buffer. -/
def appendTransit (octets : Bytes) : Option Transit → Transit
  | none => ⟨octets.length, octets⟩
  | some transit => ⟨transit.length + octets.length, transit.val.take transit.length ++ octets⟩

def bgpAttrUnknown : Outcome :=
  if !hasFlag args.flags flagOptional then .malformed peer args state .unrecAttr args.octets
  else if !hasFlag args.flags flagTrans then .read args state args.value.length state.attr
  else .read args state args.value.length
    { state.attr with
      transit? := some (appendTransit (markPartial args.octets) state.attr.transit?) }

def parseAttribute : Execution Outcome :=
  match args.type with
  | 1 => .ok (bgpAttrOrigin peer args state)
  | 2 => .ok (bgpAttrAspath peer args state)
  | 3 => .ok (bgpAttrNexthop peer args state)
  | 4 => .ok (bgpAttrMed peer args state)
  | 5 => .ok (bgpAttrLocalPref peer args state)
  | 6 => .ok (bgpAttrAtomic peer args state)
  | 7 => .ok (bgpAttrAggregator peer args state)
  | 8 => .ok (bgpAttrCommunity peer args state)
  | 9 => .ok (bgpAttrOriginatorId peer args state)
  | 10 => .ok (bgpAttrClusterList peer args state)
  | 14 => .ok (bgpMpReachParse args state)
  | 15 => .ok (bgpMpUnreachParse args state)
  | 16 => .ok (bgpAttrExtCommunities peer args state)
  | 17 => .ok (bgpAttrAs4Path peer args state)
  | 18 => .ok (bgpAttrAs4Aggregator peer args state)
  | 22 => bgpAttrDbgp args state
  | _ => .ok (bgpAttrUnknown peer args state)

end

/-! ## Attributes on the wire -/

structure Header where
  flags : UInt8
  type : UInt8
  length : Nat
  /-- How many octets the header itself has. -/
  size : Nat
deriving Repr, DecidableEq

/-- Two octets of length if the flags say so, one otherwise. The lower half of the flags is
ignored. -/
def readHeader : Bytes → Option Header
  | first :: type :: length :: rest =>
    let flags := first &&& 0xf0
    if hasFlag flags flagExtlen then
      rest.head?.map fun low => ⟨flags, type, readBigEndian [length, low], 4⟩
    else some ⟨flags, type, length.toNat, 3⟩
  | _ => none

/-- The attribute with a header, unless it is longer than what there is. -/
def Header.attribute? (header : Header) (octets : Bytes) : Option (Attribute × Bytes) :=
  let total := header.size + header.length
  if octets.length < total then none
  else some (⟨header.flags, header.type, (octets.take total).drop header.size,
    octets.take total⟩, octets.drop total)

theorem readHeader_size {octets : Bytes} {header : Header}
    (found : readHeader octets = some header) : 0 < header.size := by
  revert found
  fun_cases readHeader octets with
  | case1 first type high rest flags extended =>
    intro found
    rcases Option.map_eq_some_iff.mp found with ⟨low, _, rfl⟩
    exact Nat.succ_pos _
  | case2 first type length rest flags short =>
    intro found
    cases found
    exact Nat.succ_pos _
  | case3 => exact nofun

theorem Header.attribute?_eq_some {header : Header} {octets rest : Bytes} {received : Attribute} :
    header.attribute? octets = some (received, rest) ↔
      header.size + header.length ≤ octets.length ∧
        received = ⟨header.flags, header.type,
          (octets.take (header.size + header.length)).drop header.size,
          octets.take (header.size + header.length)⟩ ∧
        rest = octets.drop (header.size + header.length) := by
  unfold Header.attribute?
  dsimp only
  split
  · simp only [reduceCtorEq, false_iff]
    intro long
    omega
  · rename_i long
    simp only [Option.some.injEq, Prod.mk.injEq, Nat.le_of_not_lt long, true_and, eq_comm]

/-! ## The attribute section -/

structure ParsePosition where
  unread : Bytes
  seen : List UInt8
  state : ParseState

/-- What `bgp_attr_parse` returns; `unread` is the part of the section behind the position
of the stream. -/
structure ParseResult where
  ret : ParseReturn
  state : ParseState
  unread : Bytes
  notifications : List Notification

section

variable (peer : ReceivingPeer) (behind : Bytes)

def parseError (state : ParseState) (notifications : List Notification) :
    Turn ParsePosition (Execution ParseResult) :=
  .leave (.ok ⟨.error, state, [], notifications⟩)

def parseReceived (args : ParserArgs) (next : ParsePosition) :
    Turn ParsePosition (Execution ParseResult) :=
  if bgpAttrFlagInvalid peer args.flags args.type then
    -- Only here `BGP_ATTR_PARSE_ERROR_NOTIFYPLS` reaches the caller.
    match bgpAttrMalformed peer args.toAttribute .attrFlagErr args.octets with
    | (.proceed, _) => .next next
    | (ret, notifications) => .leave (.ok ⟨ret, next.state, next.unread, notifications⟩)
  else
    match parseAttribute peer args next.state with
    | .error fault => .leave (.error fault)
    | .ok outcome =>
      match outcome.ret with
      | .errorNotifypls =>
        parseError outcome.state (outcome.notifications ++ [⟨.malAttr, []⟩])
      | .error => parseError outcome.state outcome.notifications
      | .withdraw =>
        .leave (.ok ⟨.withdraw, outcome.state, next.unread, outcome.notifications⟩)
      | .proceed =>
        if outcome.unread = [] then .next { next with state := outcome.state }
        else parseError outcome.state [⟨.attrLengErr, []⟩]

/-- One attribute of the section. The octets `behind` it are those of the buffer after the
section. -/
def parseTurn (position : ParsePosition) : Turn ParsePosition (Execution ParseResult) :=
  if position.unread = [] then .leave (.ok ⟨.proceed, position.state, [], []⟩)
  else
    match readHeader position.unread with
    | none => parseError position.state [⟨.attrLengErr, []⟩]
    | some header =>
      if header.type ∈ position.seen then parseError position.state [⟨.malAttr, []⟩]
      else
        match header.attribute? position.unread with
        | none => parseError position.state [⟨.attrLengErr, []⟩]
        | some (received, rest) =>
          parseReceived peer ⟨received, rest ++ behind⟩
            ⟨rest, header.type :: position.seen, position.state⟩

theorem parseReceived_next {args : ParserArgs} {next following : ParsePosition}
    (taken : parseReceived peer args next = .next following) : following.unread = next.unread := by
  revert taken
  fun_cases parseReceived peer args next <;> intro taken <;> cases taken <;> rfl

theorem parseTurn_shrinks {position following : ParsePosition}
    (taken : parseTurn peer behind position = .next following) :
    following.unread.length < position.unread.length := by
  revert taken
  fun_cases parseTurn peer behind position with
  | case5 nonempty header found unseen received rest fits =>
    intro taken
    rw [parseReceived_next peer taken]
    have positive := readHeader_size found
    rcases Header.attribute?_eq_some.mp fits with ⟨long, _, rfl⟩
    rw [List.length_drop]
    omega
  | _ => exact nofun

def parseLoop : Loop ParsePosition (Execution ParseResult) where
  turn := parseTurn peer behind
  size position := position.unread.length
  shrinks := parseTurn_shrinks peer behind

/-- The well-known attribute that is missing, if one is: the last one that is checked. -/
def missingAttribute (flag : Finset AttributeType) : Option UInt8 :=
  if peer.restartRcv ∧ flag = ∅ then none
  else if flag = {.mpUnreachNlri} then none
  else if peer.sort = .ibgp ∧ .localPref ∉ flag then some 5
  else if .nextHop ∉ flag ∧ .mpReachNlri ∉ flag then some 3
  else if .asPath ∉ flag then some 2
  else if .origin ∉ flag then some 1
  else none

/-- An old peer sends the numbers that do not fit in attributes of their own. -/
def bgpAttrMungeAs4Attrs (state : ParseState) (aspath : AsPath) : Attr Transit :=
  let attr := state.attr
  if peer.as4Rcv then attr
  else
    let (attr, ignoreAs4Path) :=
      if .as4Aggregator ∈ attr.flag then
        if .aggregator ∈ attr.flag then
          if attr.aggregatorAs ≠ bgpAsTrans then (attr, true)
          else ({ attr with
            aggregatorAs := state.as4Aggregator
            aggregatorAddr := state.as4AggregatorAddr }, false)
        else (setFlag .aggregator { attr with aggregatorAs := state.as4Aggregator }, false)
      else (attr, false)
    match state.as4Path? with
    | some as4Path =>
      if ¬ ignoreAs4Path ∧ .as4Path ∈ attr.flag then
        { attr with aspath? := some (aspath.reconcileAs4 as4Path) }
      else attr
    | none => attr

/-- The path as it goes on, unless it is not one such a peer may send. -/
def bgpAttrAspathCheck (aspath : AsPath) : Option AsPath :=
  if (peer.sort = .confed ∧ ¬ aspath.leftConfedCheck) ∨
      (peer.sort = .ebgp ∧ aspath.confedCheck) then none
  else if peer.enforceFirstAs ∧ peer.sort = .ebgp ∧ ¬ aspath.firstasCheck peer.as then none
  else match peer.changeLocalAs? with
    | some localAs => if peer.localAsNoPrepend then some aspath else some (aspath.addSeq localAs)
    | none => some aspath

/-- What is checked once all attributes have been read. -/
def checkAttributes (state : ParseState) : ParseResult :=
  match missingAttribute peer state.attr.flag with
  | some type => ⟨.error, state, [], [⟨.missAttr, [type]⟩]⟩
  | none =>
    if .asPath ∈ state.attr.flag then
      match state.attr.aspath? with
      | none => ⟨.error, state, [], [⟨.malAttr, []⟩]⟩
      | some aspath =>
        let attr := bgpAttrMungeAs4Attrs peer state aspath
        match attr.aspath?.bind (bgpAttrAspathCheck peer) with
        | none => ⟨.error, { state with attr := attr }, [], [⟨.malAsPath, []⟩]⟩
        | some aspath =>
          ⟨.proceed, { state with attr := { attr with aspath? := some aspath } }, [], []⟩
    else ⟨.proceed, state, [], []⟩

/-- The final comparison of the position with the end of the section never fails, since the
loop ends there. -/
def bgpAttrParse (octets : Bytes) : Execution ParseResult := do
  let result ← (parseLoop peer behind).run ⟨octets, [], .initial⟩
  if result.ret = .proceed then return checkAttributes peer result.state
  else return result

end

end Quagga.Bgp
