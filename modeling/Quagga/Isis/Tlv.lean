import Mathlib
import Quagga.Foundation.Loop
import Quagga.Foundation.Strides

/-!
# The variable part of an IS-IS packet

`parse_tlvs` gets a pointer into memory and a size. It records pointers to what it finds. A
pointer is an offset here, and an entry is recorded with the end the parser has measured for it.
The offsets the parser reads and the steps of its cursor are kept too.
-/

namespace Quagga.Isis

open Foundation

inductive TlvType where
  | areaAddresses
  | isNeighbours
  | esNeighbours
  | lanNeighbours
  | padding
  | lspEntries
  | authInfo
  | checksum
  | teIsNeighbours
  | ipv4IntReachability
  | protocolsSupported
  | ipv4ExtReachability
  | ipv4Addr
  | teRouterId
  | teIpv4Reachability
  | dynamicHostname
  | gracefulRestart
  | ipv6Addr
  | ipv6Reachability
  | way3Hello
  | unsupported
deriving Repr, DecidableEq

namespace TlvType

def ofCode : Nat → TlvType
  | 1 => areaAddresses
  | 2 => isNeighbours
  | 3 => esNeighbours
  | 6 => lanNeighbours
  | 8 => padding
  | 9 => lspEntries
  | 10 => authInfo
  | 12 => checksum
  | 22 => teIsNeighbours
  | 128 => ipv4IntReachability
  | 129 => protocolsSupported
  | 130 => ipv4ExtReachability
  | 132 => ipv4Addr
  | 134 => teRouterId
  | 135 => teIpv4Reachability
  | 137 => dynamicHostname
  | 211 => gracefulRestart
  | 232 => ipv6Addr
  | 236 => ipv6Reachability
  | 240 => way3Hello
  | _ => unsupported

/-- The bit `TLVFLAG_…` in the masks. -/
def flag? : TlvType → Option Nat
  | areaAddresses => some 0
  | isNeighbours => some 1
  | esNeighbours => some 2
  | lanNeighbours => some 5
  | padding => none
  | lspEntries => some 6
  | authInfo => some 8
  | checksum => some 20
  | teIsNeighbours => some 16
  | ipv4IntReachability => some 9
  | protocolsSupported => some 10
  | ipv4ExtReachability => some 11
  | ipv4Addr => some 12
  | teRouterId => some 19
  | teIpv4Reachability => some 17
  | dynamicHostname => some 13
  | gracefulRestart => some 21
  | ipv6Addr => some 14
  | ipv6Reachability => some 15
  | way3Hello => some 18
  | unsupported => none

def isExpected (expected : Nat) (type : TlvType) : Bool := type.flag?.any expected.testBit

def addTo (found : Nat) (type : TlvType) : Nat := found ||| (type.flag?.map (2 ^ ·)).getD 0

end TlvType

/-- An entry of one of the lists of `struct tlvs`; the list is that of the type. -/
structure TlvEntry where
  type : TlvType
  start : Nat
  stop : Nat
deriving Repr, DecidableEq

structure IsisPasswd where
  type : UInt8
  len : Nat
  passwd : List UInt8
deriving Repr, DecidableEq

/-- `struct tlvs`, with all lists in one. -/
structure Tlvs where
  entries : List TlvEntry
  checksum? : Option Nat
  hostname? : Option Nat
  nlpids? : Option Nat
  routerId? : Option Nat
  authInfo? : Option IsisPasswd
deriving Repr, DecidableEq

def Tlvs.empty : Tlvs := ⟨[], none, none, none, none, none⟩

inductive IsisResult where
  | ok
  | warning
deriving Repr, DecidableEq

structure TlvParse where
  retval : IsisResult
  found : Nat
  tlvs : Tlvs
  authTlvOffset : Nat
  reads : List Nat
  /-- Where a TLV starts, and where the cursor is after it. -/
  moves : List (Nat × Nat)
deriving Repr, DecidableEq

def TlvParse.empty : TlvParse := ⟨.ok, 0, .empty, 0, [], []⟩

instance : Inhabited TlvParse := ⟨.empty⟩

structure Handled where
  /-- `none`: the parser returns. -/
  cursor? : Option Nat
  reads : List Nat
  entries : List TlvEntry
  retval : IsisResult
  note : Tlvs → Tlvs
  authTlvOffset : Nat

namespace Handled

def skip (cursor : Nat) : Handled := ⟨some cursor, [], [], .ok, id, 0⟩

end Handled

section

variable (stream : Nat → UInt8)

/-! ## Entries -/

/-- How the entries of a TLV are measured: by an octet of the entry, if any. -/
structure EntryLayout where
  look? : Option Nat
  /-- `none`: the octet is invalid, and the loop is left. -/
  size? : Nat → Option Nat

namespace EntryLayout

def fixed (size : Nat) : EntryLayout := ⟨none, fun _ => some size⟩

def areaAddr : EntryLayout := ⟨some 0, fun addrLen => some (addrLen + 1)⟩

def isNeigh : EntryLayout := fixed 11

def teIsNeigh : EntryLayout := ⟨some 10, fun subTlvsLength => some (11 + subTlvsLength)⟩

def esNeighId : EntryLayout := fixed 6

def lanNeigh : EntryLayout := fixed 6

def lspEntry : EntryLayout := fixed 16

def ipv4Addr : EntryLayout := fixed 4

def ipv4Reach : EntryLayout := fixed 12

def teIpv4Reach : EntryLayout :=
  ⟨some 4, fun control =>
    let length := control &&& 0x3F
    if 32 < length then none
    else some (5 + if length ≠ 0 then (length - 1) / 8 + 1 else 0)⟩

def ipv6Addr : EntryLayout := fixed 16

def ipv6Reach : EntryLayout :=
  ⟨some 5, fun prefixLen => if 128 < prefixLen then none else some ((prefixLen + 7) / 8 + 6)⟩

variable (layout : EntryLayout)

def stride (position : Nat) : Option Nat :=
  layout.size? (stream (position + layout.look?.getD 0)).toNat

/-- `while (length > value_len)`. Every entry has an octet at least. -/
def loop (limit position : Nat) : Strides :=
  strides (layout.stride stream) limit (limit - position) position

def looks (walk : Strides) : List Nat :=
  match layout.look? with
  | none => []
  | some look =>
    (walk.entries.map fun entry => entry.1 + look) ++
      if walk.broken then [walk.cursor + look] else []

end EntryLayout

def recordEntries (type : TlvType) (layout : EntryLayout) (limit pnt : Nat) : Handled :=
  let walk := layout.loop stream limit pnt
  { cursor? := some walk.cursor
    reads := layout.looks walk
    entries := walk.entries.map fun entry => ⟨type, entry.1, entry.2⟩
    retval := if walk.broken then .warning else .ok
    note := id
    authTlvOffset := 0 }

/-- The virtual flag comes before the entries. -/
def recordIsNeighs (limit pnt : Nat) : Handled :=
  let entries := recordEntries stream .isNeighbours .isNeigh limit (pnt + 1)
  { entries with reads := pnt :: entries.reads }

/-- The neighbours share the metrics and are one entry. -/
def recordEsNeighs (limit pnt : Nat) : Handled :=
  let walk := EntryLayout.esNeighId.loop stream limit (pnt + 4)
  { cursor? := some walk.cursor
    reads := []
    entries := [⟨.esNeighbours, pnt, walk.cursor⟩]
    retval := .ok
    note := id
    authTlvOffset := 0 }

def recordAuthInfo (length pnt : Nat) : Handled :=
  let type := stream pnt
  if length = 0 then
    { cursor? := none
      reads := [pnt]
      entries := []
      retval := .warning
      note := fun tlvs =>
        { tlvs with authInfo? := some { (tlvs.authInfo?.getD ⟨0, 0, []⟩) with type := type } }
      authTlvOffset := 0 }
  else
    let passwd := (List.range (length - 1)).map (pnt + 1 + ·)
    { cursor? := some (pnt + 1 + (length - 1))
      reads := pnt :: passwd
      entries := []
      retval := .ok
      note := fun tlvs => { tlvs with authInfo? := some ⟨type, length - 1, passwd.map stream⟩ }
      authTlvOffset := pnt + 1 - 3 }

def recordPointer (length pnt : Nat) (note : Tlvs → Tlvs) : Handled :=
  { Handled.skip (pnt + length) with note := note }

/-- The cases of the `switch` for a type the caller asks for. `pnt` is behind the header. -/
def handleExpected (type : TlvType) (length pnt : Nat) : Handled :=
  let limit := pnt + length
  match type with
  | .areaAddresses => recordEntries stream type .areaAddr limit pnt
  | .isNeighbours => recordIsNeighs stream limit pnt
  | .teIsNeighbours => recordEntries stream type .teIsNeigh limit pnt
  | .esNeighbours => recordEsNeighs stream limit pnt
  | .lanNeighbours => recordEntries stream type .lanNeigh limit pnt
  | .lspEntries => recordEntries stream type .lspEntry limit pnt
  | .checksum => recordPointer length pnt fun tlvs => { tlvs with checksum? := some pnt }
  | .protocolsSupported =>
    recordPointer length pnt fun tlvs => { tlvs with nlpids? := some (pnt - 1) }
  | .ipv4Addr => recordEntries stream type .ipv4Addr limit pnt
  | .authInfo => recordAuthInfo stream length pnt
  | .dynamicHostname =>
    recordPointer length pnt fun tlvs => { tlvs with hostname? := some (pnt - 1) }
  | .teRouterId => recordPointer length pnt fun tlvs => { tlvs with routerId? := some pnt }
  | .ipv4IntReachability => recordEntries stream type .ipv4Reach limit pnt
  | .ipv4ExtReachability => recordEntries stream type .ipv4Reach limit pnt
  | .teIpv4Reachability =>
    { recordEntries stream type .teIpv4Reach limit pnt with cursor? := some limit }
  | .ipv6Addr => recordEntries stream type .ipv6Addr limit pnt
  | .ipv6Reachability =>
    { recordEntries stream type .ipv6Reach limit pnt with cursor? := some limit }
  -- The loop of `WAY3_HELLO` takes the whole value at once.
  | .way3Hello | .gracefulRestart | .padding | .unsupported => Handled.skip limit

def handle (expected : Nat) (type : TlvType) (length pnt : Nat) : Handled :=
  if type.isExpected expected then handleExpected stream type length pnt
  else Handled.skip (pnt + length)

/-! ## The loop over the TLVs -/

def typeAt (tlv : Nat) : TlvType := .ofCode (stream tlv).toNat

def lengthAt (tlv : Nat) : Nat := (stream (tlv + 1)).toNat

def handleAt (expected tlv : Nat) : Handled :=
  handle stream expected (typeAt stream tlv) (lengthAt stream tlv) (tlv + 2)

def TlvParse.add (parse : TlvParse) (tlv : Nat) (handled : Handled) : TlvParse :=
  { retval := if handled.retval = .warning then .warning else parse.retval
    found := (typeAt stream tlv).addTo parse.found
    tlvs := { handled.note parse.tlvs with entries := parse.tlvs.entries ++ handled.entries }
    authTlvOffset := parse.authTlvOffset + handled.authTlvOffset
    reads := parse.reads ++ handled.reads
    moves := parse.moves ++ (handled.cursor?.map fun cursor => (tlv, cursor)).toList }

variable (size : Int) (expected : Nat)

def parseTurn (state : Nat × TlvParse) : Turn (Nat × TlvParse) TlvParse :=
  let (tlv, parse) := state
  if tlv < size - 2 then
    let parse := { parse with reads := parse.reads ++ [tlv, tlv + 1] }
    if size < (tlv + 2 + lengthAt stream tlv : Nat) then .leave { parse with retval := .warning }
    else
      let handled := handleAt stream expected tlv
      let parse := parse.add stream tlv handled
      match handled.cursor? with
      | none => .leave parse
      | some cursor => .next (cursor, parse)
  else .leave parse

variable {stream expected}

theorem le_cursor_of_handle {type : TlvType} {length pnt cursor : Nat}
    (moved : (handle stream expected type length pnt).cursor? = some cursor) : pnt ≤ cursor := by
  have walked : ∀ type layout limit start, pnt ≤ start →
      (recordEntries stream type layout limit start).cursor? = some cursor → pnt ≤ cursor := by
    rintro type layout limit start behind ⟨⟩
    exact Nat.le_trans behind le_strides_cursor
  rw [handle] at moved
  split at moved
  · cases type
    case isNeighbours =>
      exact walked .isNeighbours .isNeigh (pnt + length) (pnt + 1) (Nat.le_succ _) moved
    case esNeighbours =>
      cases moved
      exact Nat.le_trans (Nat.le_add_right _ 4) le_strides_cursor
    case authInfo =>
      rw [handleExpected, recordAuthInfo] at moved
      split at moved
      · cases moved
      · cases moved
        omega
    case teIpv4Reachability | ipv6Reachability =>
      cases moved
      exact Nat.le_add_right _ _
    case checksum | protocolsSupported | dynamicHostname | teRouterId =>
      cases moved
      exact Nat.le_add_right _ _
    case way3Hello | gracefulRestart | padding | unsupported =>
      cases moved
      exact Nat.le_add_right _ _
    all_goals exact walked _ _ _ pnt (Nat.le_refl _) moved
  · cases moved
    exact Nat.le_add_right _ _

variable (stream expected)

def parseLoop : Loop (Nat × TlvParse) TlvParse where
  turn := parseTurn stream size expected
  size state := size.toNat - state.1
  shrinks := by
    rintro ⟨tlv, parse⟩ following taken
    rw [parseTurn] at taken
    dsimp only at taken
    split at taken
    next inside =>
      split at taken
      · cases taken
      · split at taken
        · cases taken
        · rename_i cursor moved
          cases taken
          have behind := le_cursor_of_handle moved
          omega
    next => cases taken

def parseTlvs : TlvParse := (parseLoop stream size expected).run (0, .empty)

end

end Quagga.Isis
