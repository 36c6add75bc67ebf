import Quagga.Bgp.Capability
import Quagga.Foundation.Tagged

/-!
# Capabilities in an OPEN

The optional parameters of an OPEN in `bgp_open.c`: how `bgp_open_capability` writes them, and
how `peek_for_as4_capability` and `bgp_open_option_parse` read them.
-/

namespace Quagga.Bgp

open Foundation

/-! ## Writing -/

/-- What the configuration of a peer says about its capabilities. VPN is for IPv4 only, and
prefix filters cannot be configured for it. -/
structure CapabilityConfig where
  afc : FamilyTable
  orfSend : FamilyTable
  orfReceive : FamilyTable
  dynamicCapability : Bool
  gracefulRestart : Bool
  startup : Bool
  restartTime : Nat
  localAs : UInt32
  noVpn6 : afc .ip6 .mplsVpn = false
  noVpnOrf : ∀ afi, orfSend afi .mplsVpn = false ∧ orfReceive afi .mplsVpn = false

def CapabilityConfig.orf (config : CapabilityConfig) (afi : Afi) (safi : Safi) : Bool :=
  config.orfSend afi safi || config.orfReceive afi safi

def allFamilies : List (Afi × Safi) :=
  [(.ip, .unicast), (.ip, .multicast), (.ip, .mplsVpn),
    (.ip6, .unicast), (.ip6, .multicast), (.ip6, .mplsVpn)]

def Safi.index : Safi → UInt8
  | .unicast => 1
  | .multicast => 2
  | .mplsVpn => 4

/-- AFI, a reserved octet and SAFI. -/
def mpData (family : Afi × Safi) : Bytes :=
  bigEndian 2 family.1.code ++ [0, UInt8.ofNat family.2.code]

def orfMode (send receive : Bool) : UInt8 :=
  if send && receive then 3 else if send then 2 else 1

def orfType (code : UInt8) : UInt8 := if code = capabilityCodeOrf then 64 else 128

def bgpOpenCapabilityOrf (config : CapabilityConfig) (code : UInt8) (family : Afi × Safi) :
    UInt8 × Bytes :=
  (code, mpData family ++
    [1, orfType code, orfMode (config.orfSend family.1 family.2)
      (config.orfReceive family.1 family.2)])

/-- `RESTART_R_BIT` is the bit 15. -/
def restartData (config : CapabilityConfig) : Bytes :=
  bigEndian 2 (if config.startup then config.restartTime ||| 0x8000 else config.restartTime) ++
    if config.gracefulRestart then
      (allFamilies.filter fun family => config.afc family.1 family.2).flatMap fun family =>
        bigEndian 2 family.1.code ++ [family.2.index, 0]
    else []

def openCapabilities (config : CapabilityConfig) : List (UInt8 × Bytes) :=
  ((allFamilies.filter fun family => config.afc family.1 family.2).map
    fun family => (capabilityCodeMp, mpData family)) ++
  [(capabilityCodeRefreshOld, []), (capabilityCodeRefresh, []),
    (capabilityCodeAs4, bigEndian 4 config.localAs.toNat)] ++
  ((allFamilies.filter fun family => config.orf family.1 family.2).flatMap fun family =>
    [bgpOpenCapabilityOrf config capabilityCodeOrfOld family,
      bgpOpenCapabilityOrf config capabilityCodeOrf family]) ++
  (if config.dynamicCapability then [(capabilityCodeDynamic, [])] else []) ++
  [(capabilityCodeRestart, restartData config)]

/-- Each capability stands in a parameter of its own. -/
def capabilityOption (capability : UInt8 × Bytes) : Bytes :=
  putTagged (bgpOpenOptCap, putTagged capability)

def openOptions (config : CapabilityConfig) : Bytes :=
  (openCapabilities config).flatMap capabilityOption

def bgpOpenCapability (config : CapabilityConfig) : Bytes :=
  UInt8.ofNat (openOptions config).length :: openOptions config

/-! ## Reading -/

/-- What the receiver has negotiated so far, beside what it is configured for. -/
structure Negotiation where
  afc : FamilyTable
  overrideCapability : Bool
  strictCapMatch : Bool
  afcRecv : FamilyTable
  afcNego : FamilyTable
  orfSmRcv : FamilyTable
  orfRmRcv : FamilyTable
  orfSmOldRcv : FamilyTable
  orfRmOldRcv : FamilyTable
  restartAfRcv : FamilyTable
  restartAfPreserveRcv : FamilyTable
  refreshNewRcv : Bool
  refreshOldRcv : Bool
  dynamicRcv : Bool
  restartRcv : Bool
  restartBitRcv : Bool
  as4Rcv : Bool
  grRestart : Nat
  mpCapability : Bool
  unsupported : Bytes

def Negotiation.start (afc : FamilyTable) (overrideCapability strictCapMatch : Bool) :
    Negotiation where
  afc := afc
  overrideCapability := overrideCapability
  strictCapMatch := strictCapMatch
  afcRecv := .empty
  afcNego := .empty
  orfSmRcv := .empty
  orfRmRcv := .empty
  orfSmOldRcv := .empty
  orfRmOldRcv := .empty
  restartAfRcv := .empty
  restartAfPreserveRcv := .empty
  refreshNewRcv := false
  refreshOldRcv := false
  dynamicRcv := false
  restartRcv := false
  restartBitRcv := false
  as4Rcv := false
  grRestart := 0
  mpCapability := false
  unsupported := []

/-- Why the parameters are refused. Only the last but one sends no NOTIFICATION. -/
inductive OptionError where
  | lengthError
  | authFailure
  | unsupParam
  | as4Invalid
  | unsupCapability (data : Bytes)
deriving Repr, DecidableEq

def readFamily (data : Bytes) : Option (Afi × Safi) :=
  bgpAfiSafiValidIndices (readBigEndian (data.take 2)) (data.getD 3 0).toNat

/-- `bgp_capability_mp`, and the data of an unsupported capability. -/
def bgpCapabilityMp (data : Bytes) (state : Negotiation) : Negotiation :=
  let refused := { state with
    unsupported := state.unsupported ++ putTagged (capabilityCodeMp, data) }
  match readFamily data with
  | none => refused
  | some (afi, safi) =>
    let received := state.afcRecv.set afi safi true
    if state.afc afi safi then
      { state with afcRecv := received, afcNego := state.afcNego.set afi safi true }
    else { refused with afcRecv := received }

def readOrfs : Nat → Bytes → List (UInt8 × UInt8)
  | count + 1, type :: mode :: rest => (type, mode) :: readOrfs count rest
  | _, _ => []

def orfFamily (afi : Afi) (safi : Safi) : Bool :=
  afi = .ip && safi = .unicast || afi = .ip && safi = .multicast || afi = .ip6 && safi = .unicast

/-- One type and mode of a family, for the code of the capability. -/
def applyOrf (code : UInt8) (afi : Afi) (safi : Safi) (state : Negotiation)
    (orf : UInt8 × UInt8) : Negotiation :=
  let (type, mode) := orf
  if ¬ (mode = 1 ∨ mode = 2 ∨ mode = 3) then state
  else if type ≠ orfType code then state
  else if ¬ orfFamily afi safi then state
  else
    let sends := mode = 2 ∨ mode = 3
    let receives := mode = 1 ∨ mode = 3
    if code = capabilityCodeOrf then
      { state with
        orfSmRcv := if sends then state.orfSmRcv.set afi safi true else state.orfSmRcv
        orfRmRcv := if receives then state.orfRmRcv.set afi safi true else state.orfRmRcv }
    else
      { state with
        orfSmOldRcv := if sends then state.orfSmOldRcv.set afi safi true else state.orfSmOldRcv
        orfRmOldRcv :=
          if receives then state.orfRmOldRcv.set afi safi true else state.orfRmOldRcv }

def bgpCapabilityOrfEntry (code : UInt8) (data : Bytes) (state : Negotiation) :
    Except OptionError Negotiation :=
  let number := (data.getD 4 0).toNat
  match readFamily data with
  | none => .ok state
  | some (afi, safi) =>
    if data.length < 5 + number * 2 then .error .lengthError
    else .ok ((readOrfs number (data.drop 5)).foldl (applyOrf code afi safi) state)

/-- The families of a restart capability, with their flags. -/
def readRestartFamilies : Bytes → List (Option (Afi × Safi) × UInt8)
  | high :: low :: safi :: flag :: rest =>
    (bgpAfiSafiValidIndices (readBigEndian [high, low]) safi.toNat, flag) ::
      readRestartFamilies rest
  | _ => []

/-- `RESTART_F_BIT` is the bit 7. -/
def applyRestartFamily (state : Negotiation) (entry : Option (Afi × Safi) × UInt8) :
    Negotiation :=
  match entry.1 with
  | none => state
  | some (afi, safi) =>
    if ¬ state.afc afi safi then state
    else { state with
      restartAfRcv := state.restartAfRcv.set afi safi true
      restartAfPreserveRcv :=
        if 0x80 ≤ entry.2 then state.restartAfPreserveRcv.set afi safi true
        else state.restartAfPreserveRcv }

def bgpCapabilityRestart (data : Bytes) (state : Negotiation) : Negotiation :=
  let flagTime := readBigEndian (data.take 2)
  (readRestartFamilies (data.drop 2)).foldl applyRestartFamily
    { state with
      restartRcv := true
      restartBitRcv := state.restartBitRcv || 0x8000 ≤ flagTime
      grRestart := flagTime % 0x1000 }

/-- `bgp_capability_as4`: zero stands for an error. -/
def bgpCapabilityAs4 (data : Bytes) : UInt32 :=
  if data.length = 4 then UInt32.ofNat (readBigEndian data) else 0

def capMinsize (code : UInt8) : Nat :=
  if code = capabilityCodeMp ∨ code = capabilityCodeAs4 then 4
  else if code = capabilityCodeOrf ∨ code = capabilityCodeOrfOld then 5
  else if code = capabilityCodeRestart then 2
  else 0

def parseCapability (state : Negotiation) (capability : UInt8 × Bytes) :
    Except OptionError Negotiation :=
  let (code, data) := capability
  if data.length < capMinsize code then .error .lengthError
  else if code = capabilityCodeMp then
    let state := { state with mpCapability := true }
    .ok (if state.overrideCapability then state else bgpCapabilityMp data state)
  else if code = capabilityCodeRefreshOld then .ok { state with refreshOldRcv := true }
  else if code = capabilityCodeRefresh then .ok { state with refreshNewRcv := true }
  else if code = capabilityCodeOrf ∨ code = capabilityCodeOrfOld then
    bgpCapabilityOrfEntry code data state
  else if code = capabilityCodeRestart then .ok (bgpCapabilityRestart data state)
  else if code = capabilityCodeDynamic then .ok { state with dynamicRcv := true }
  else if code = capabilityCodeAs4 then
    if bgpCapabilityAs4 data = 0 then .error .as4Invalid else .ok { state with as4Rcv := true }
  else if 128 < code then .ok state
  else .ok { state with unsupported := state.unsupported ++ putTagged (code, data) }

def bgpCapabilityParse (octets : Bytes) (state : Negotiation) : Except OptionError Negotiation :=
  do
    let capabilities := taggedReader.records octets
    let state ← capabilities.1.foldlM parseCapability state
    if capabilities.2 then return state else .error .lengthError

/-- `BGP_OPEN_OPT_AUTH` is 1. -/
def parseOption (state : Negotiation) (option : UInt8 × Bytes) : Except OptionError Negotiation :=
  if option.1 = 1 then .error .authFailure
  else if option.1 = bgpOpenOptCap then bgpCapabilityParse option.2 state
  else .error .unsupParam

/-- `bgp_open_option_parse`. The parameters end the message. -/
def bgpOpenOptionParse (octets : Bytes) (state : Negotiation) : Except OptionError Negotiation :=
  do
    let options := taggedReader.records octets
    let state ← options.1.foldlM parseOption state
    if ¬ options.2 then .error .lengthError
    else if state.strictCapMatch ∧ state.unsupported ≠ [] then
      .error (.unsupCapability state.unsupported)
    else if state.strictCapMatch ∧
        ¬ allFamilies.all (fun family =>
          state.afc family.1 family.2 = state.afcNego family.1 family.2) then
      .error (.unsupCapability [])
    else if state.mpCapability ∧ ¬ state.overrideCapability ∧
        ¬ families.any (fun family => state.afcNego family.1 family.2) then
      .error (.unsupCapability state.unsupported)
    else return state

/-- The loop of `peek_for_as4_capability`. Parameters that are not capabilities are not
skipped, only their headers are. -/
def peekForAs4Within : Nat → Bytes → Option UInt32
  | fuel + 1, type :: length :: octets =>
    if octets.length < length.toNat then none
    else if type = bgpOpenOptCap then
      let capabilities := taggedReader.records (octets.take length.toNat)
      match capabilities.1.find? fun capability => capability.1 = capabilityCodeAs4 with
      | some capability => some (bgpCapabilityAs4 capability.2)
      | none =>
        if capabilities.2 then peekForAs4Within fuel (octets.drop length.toNat) else none
    else peekForAs4Within fuel octets
  | _, _ => none

def peekForAs4Capability (octets : Bytes) : UInt32 := (peekForAs4Within octets.length octets).getD 0

end Quagga.Bgp
