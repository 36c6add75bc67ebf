import Quagga.Bgp.AttrParse

/-!
# Receiving an UPDATE

`bgp_update_receive` of `bgp_packet.c`. It delimits the three fields of the message, parses
the attributes and hands every field of prefixes to the routing table, with the attributes
or without. What the routing table does has no influence on which fields it gets, so the
result here is the list of these calls.
-/

namespace Quagga.Bgp

open Foundation Dbgp

/-- A call of `bgp_nlri_parse` or `bgp_nlri_parse_vpnv4`. Without attributes the prefixes
are withdrawn. -/
structure NlriCall where
  attr? : Option (Attr Transit)
  packet : Nlri
deriving DecidableEq

/-- What comes of an UPDATE: whether it was taken, the notifications that are queued for the
peer, and the calls in their order. -/
structure Receipt where
  accepted : Bool
  notifications : List Notification
  calls : List NlriCall
deriving DecidableEq

def Receipt.rejected (notifications : List Notification) : Receipt := ⟨false, notifications, []⟩

def Safi.code : Safi → Nat
  | .unicast => 1
  | .multicast => 2
  | .mplsVpn => safiMplsLabeledVpn

def MpNlri.ofFamily (field : MpNlri) (afi : Afi) (safi : Safi) : List Nlri :=
  if field.nlri ≠ [] ∧ field.afi = afi.code ∧ field.safi = safi.code then
    [⟨afi, safi, field.nlri⟩]
  else []

def plainField (octets : Bytes) : List Nlri :=
  if octets = [] then [] else [⟨.ip, .unicast, octets⟩]

/-- The fields of one family, if the peer is configured for it. Plain IPv4 unicast prefixes
stand in fields of their own. -/
def familyCalls (peer : ReceivingPeer) (attr? : Option (Attr Transit)) (withdraw update : Bytes)
    (mpUpdate mpWithdraw : MpNlri) (family : Afi × Safi) : List NlriCall :=
  let (afi, safi) := family
  let plain := fun octets => if family = (.ip, .unicast) then plainField octets else []
  if peer.afc afi safi then
    (plain withdraw).map (NlriCall.mk none) ++ (plain update).map (NlriCall.mk attr?) ++
      (mpUpdate.ofFamily afi safi).map (NlriCall.mk attr?) ++
      (mpWithdraw.ofFamily afi safi).map (NlriCall.mk none)
  else []

def families : List (Afi × Safi) :=
  [(.ip, .unicast), (.ip, .multicast), (.ip6, .unicast), (.ip6, .multicast), (.ip, .mplsVpn)]

/-- A field of two octets that says how long the next one is, that field, and the rest. -/
def readSized (octets : Bytes) : Option (Bytes × Bytes) :=
  let length := readBigEndian (octets.take 2)
  if octets.length < 2 ∨ (octets.drop 2).length < length then none
  else some ((octets.drop 2).take length, (octets.drop 2).drop length)

/-- An empty field of prefixes is not checked. -/
def isSane (octets : Bytes) : Bool := octets = [] || bgpNlriSanityCheck Afi.ip.code octets

/-- From the attributes on. The prefixes start where the parser of the attributes stopped. -/
def receiveAttributes (peer : ReceivingPeer) (behind withdraw attributes nlri : Bytes) :
    Execution Receipt := do
  let parsed ←
    if attributes = [] then .ok ⟨.proceed, .initial, [], []⟩
    else bgpAttrParse peer (nlri ++ behind) attributes
  if parsed.ret = .error then return .rejected parsed.notifications
  else
    let update := parsed.unread ++ nlri
    if ¬ isSane update then
      return .rejected (parsed.notifications ++ [⟨.invalNetwork, []⟩])
    else
      let attr? := if parsed.ret = .withdraw then none else some parsed.state.attr
      return ⟨true, parsed.notifications, families.flatMap
        (familyCalls peer attr? withdraw update parsed.state.mpUpdate parsed.state.mpWithdraw)⟩

/-- `behind` is what the input buffer holds after the message. -/
def bgpUpdateReceive (peer : ReceivingPeer) (behind body : Bytes) : Execution Receipt :=
  if ¬ peer.established then .ok (.rejected [⟨.fsmErr, []⟩])
  else match readSized body with
    | none => .ok (.rejected [⟨.malAttr, []⟩])
    | some (withdraw, rest) =>
      if ¬ isSane withdraw then .ok (.rejected [⟨.invalNetwork, []⟩])
      else match readSized rest with
        | none => .ok (.rejected [⟨.malAttr, []⟩])
        | some (attributes, nlri) => receiveAttributes peer behind withdraw attributes nlri

end Quagga.Bgp
