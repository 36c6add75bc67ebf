import Quagga.Bgp.Attr
import Quagga.Dbgp.Wiser

/-!
# Pathlets

`pathlets.c`, and `CreatePathletsFromIA`. A router of a pathlet island announces pathlets
to the other routers of the island, each under an address of its own private /24, and the
whole graph of pathlets to the outside. Addresses are in host order.
-/

namespace Quagga.Dbgp

open Foundation Bgp

/-! ## Configuration -/

/-- `dbgp_protocol_t`. -/
inductive ProtocolType where
  | baseline
  | wiser
  | baselineSleeper
  | benchmark
  | replacementNone
  | scion
  | pathlets
deriving Repr, DecidableEq

structure Configuration where
  islandMemberAses : List Int
  privateIp : UInt32
  wiser : WiserConfig
  inetNtop6 : Bytes → Bytes

structure Instance where
  as : UInt32
  routerId : UInt32
  dbgpProtocol : ProtocolType
  islandId : UInt32
deriving Repr, DecidableEq

structure Peer where
  bgp : Instance
  as : UInt32
  localId : UInt32
  remoteId : UInt32
deriving Repr, DecidableEq

def Peer.session (peer : Peer) : Session := ⟨peer.localId, peer.remoteId, peer.bgp.as⟩

def Configuration.isRemoteAsAnIslandMember (config : Configuration) (remoteAs : Int) : Bool :=
  remoteAs ∈ config.islandMemberAses

def Configuration.prefix2str (config : Configuration) (network : Prefix) : Bytes :=
  (match network.family with
    | .ip => inetNtop network.prefix4
    | .ip6 => config.inetNtop6 network.address) ++ octet '/' :: decimal network.prefixlen

def classBNetmask : UInt32 := 0xFFFF0000

def classCNetmask : UInt32 := 0xFFFFFF00

def ipInSameSubnet (ip1 ip2 netmask : UInt32) : Bool := ip1 &&& netmask = ip2 &&& netmask

/-- Outside the /16 that the islands take their private addresses from. -/
def Configuration.isPublicPrefix (config : Configuration) (network : Prefix) : Bool :=
  !ipInSameSubnet network.prefix4 config.privateIp classBNetmask

/-! ## Updating control information -/

def addAssociatedPathlet (state : PathletInternalState) (associatedIp : Bytes)
    (islandId : UInt32) (info : ControlInfo) : Execution (PathletInternalState × ControlInfo) :=
  match generateInternalPathletControlInfo state info.integratedAdvertisement associatedIp
      islandId with
  | (none, _) => .error (.assertion .associatedPathlet)
  | (some advert, state) => .ok (state, .ofBytes advert)

/-- What both updates do for an address this router announces: it has to be one of the
router's own, and its pathlet goes into the advertisement. -/
def addOwnPathlet (config : Configuration) (islandId : UInt32) (network : Prefix)
    (state : PathletInternalState) (info : ControlInfo) :
    Execution (PathletInternalState × ControlInfo) := do
  Execution.require (ipInSameSubnet network.prefix4 config.privateIp classCNetmask = true)
    .privateSubnet
  addAssociatedPathlet state (inetNtop network.prefix4) islandId info

/-- Add the pathlet graph, and replace the AS path by the island. The island goes through
a text that is negative from `2 ^ 31` on, and then there is no path. -/
def handlePublicPrefixForExternal {τ : Type} (state : PathletInternalState) (peer : Peer)
    (attr : Attr τ) (info : ControlInfo) : Execution (Attr τ × ControlInfo) := do
  let advert := generateExternalPathletControlInfo state peer.bgp.islandId
    info.integratedAdvertisement
  let aspath ← Execution.defined (aspathStr2Aspath (decimal (toInt peer.bgp.islandId)))
  return ({ attr with aspath? := some aspath }, .ofBytes advert)

def newPathletsUpdateControlInfo {τ : Type} (config : Configuration) (peer : Peer)
    (network : Prefix) (state : PathletInternalState) (attr : Attr τ) (info : ControlInfo) :
    Execution (PathletInternalState × Attr τ × ControlInfo) := do
  if config.isPublicPrefix network then
    if config.isRemoteAsAnIslandMember (toInt peer.as) then return (state, attr, info)
    else
      let (attr, info) ← handlePublicPrefixForExternal state peer attr info
      return (state, attr, info)
  else
    let aspath ← Execution.defined attr.aspath?
    let (state, info) ← if aspath.sizeCustom = 0 then
        addOwnPathlet config peer.bgp.islandId network state info
      else pure (state, info)
    let state ← mergePathletInformationIntoGraph state info.integratedAdvertisement
      peer.bgp.islandId
    return (state, attr, info)

def newPathletsUpdateControlInfoBgpstruct (config : Configuration) (bgp : Instance)
    (network : Prefix) (state : PathletInternalState) (info : ControlInfo) :
    Execution (PathletInternalState × ControlInfo) := do
  if config.isPublicPrefix network then return (state, info)
  else
    let (state, info) ← addOwnPathlet config bgp.islandId network state info
    let state ← mergePathletInformationIntoGraph state info.integratedAdvertisement bgp.islandId
    return (state, info)

/-! ## Creating pathlets -/

/-- `snprintf(announce_ip, 256, "%s/%d", new_ip, 32)` -/
def announceIp (newIp : Bytes) : Bytes := newIp ++ octet '/' :: decimal 32

/-- Send a pathlet under the next address. The pathlet is serialized and parsed on the way. -/
def createPathletToSend (state : PathletInternalState) (pathlet : Pathlet) :
    Execution (PathletInternalState × Bytes) := do
  let (newIp, state) := state.getNextIp
  let state ← state.insertPathletToSend newIp
    (Pathlet.codec.parse (Pathlet.codec.serialize pathlet))
  return (state, announceIp newIp)

def createPathletsToSend (state : PathletInternalState) :
    List Pathlet → Execution (PathletInternalState × List Bytes)
  | [] => .ok (state, [])
  | pathlet :: pathlets => do
      let (state, announceIp) ← createPathletToSend state pathlet
      let (state, announceIps) ← createPathletsToSend state pathlets
      return (state, announceIp :: announceIps)

def islandGraph (serializedAdvert : Bytes) (islandId : UInt32) : Option Pathlets :=
  ((getProtocolHopDescriptor (IntegratedAdvertisement.codec.parse serializedAdvert) .pathlets
    islandId).bind (getHopDescriptorKeyValue · pathletGraphKey)).map fun keyValue =>
      Pathlets.codec.parse keyValue.value

def Pathlet.addPathVector (aspath : List UInt32) (pathlet : Pathlet) : Pathlet :=
  { pathlet with pathVector := pathlet.pathVector ++ aspath }

def crossGulfPathlet (fid : Int) (asNum sender : UInt32) (aspath : List UInt32) : Pathlet :=
  ⟨some (ofInt fid), [asNum, sender], none, aspath, none⟩

/-- Every pathlet of the island's graph, extended by the AS path, under an address of this
router; then one more across the AS path itself. -/
def createPathletsFromIA (state : PathletInternalState) (serializedAdvert : Bytes)
    (aspath : List UInt32) (islandId asNum : UInt32) :
    Execution (PathletInternalState × List Bytes) :=
  match islandGraph serializedAdvert islandId with
  | none => .ok (state, [])
  | some graph => do
      let (state, announceIps) ← createPathletsToSend state
        (graph.pathlets.map (.addPathVector aspath))
      let (newFid, state) := state.getNextFid
      -- found without a look at the length of the path
      let sender ← Execution.defined
        (if aspath.length < 2 then none else aspath[aspath.length - 2]?)
      let (state, announceIp) ← createPathletToSend state
        (crossGulfPathlet newFid asNum sender aspath)
      return (state, announceIps ++ [announceIp])

/-- The pathlets of one island, if the advertisement has some. The addresses are collected in an
array of 256. -/
def createForIsland (asNum : UInt32) (aspath : AsPath) (advert : Bytes)
    (state : PathletInternalState) (island : UInt32) :
    Execution (PathletInternalState × List Bytes) :=
  if hasPathletInformation advert island then do
    let (state, announceIps) ← createPathletsFromIA state advert aspath.toArray island asNum
    let announceIps ← Execution.defined
      (if announceIps.length ≤ 256 then some announceIps else none)
    return (state, announceIps)
  else .ok (state, [])

end Quagga.Dbgp
