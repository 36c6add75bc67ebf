import Quagga.Bgp.UpdateReceive

/-!
# Capabilities

What the parsers of capabilities in `bgp_open.c` and `bgp_packet.c` share: the families a
capability can be about, and tables over them.
-/

namespace Quagga.Bgp

abbrev FamilyTable := Afi → Safi → Bool

def FamilyTable.set (table : FamilyTable) (afi : Afi) (safi : Safi) (value : Bool) :
    FamilyTable :=
  fun otherAfi otherSafi =>
    if otherAfi = afi ∧ otherSafi = safi then value else table otherAfi otherSafi

def FamilyTable.empty : FamilyTable := fun _ _ => false

/-- The address families as indices of a table. VPN has a number of its own on the wire. -/
def bgpAfiSafiValidIndices (afi safi : Nat) : Option (Afi × Safi) := do
  let afi ← if afi = 1 then some Afi.ip else if afi = 2 then some .ip6 else none
  let safi ← if safi = 1 then some Safi.unicast else if safi = 2 then some .multicast
    else if safi = 4 ∨ safi = safiMplsLabeledVpn then some .mplsVpn else none
  return (afi, safi)

/-- The codes of the capabilities, and of the parameter of an OPEN they stand in. -/
def capabilityCodeMp : UInt8 := 1
def capabilityCodeRefresh : UInt8 := 2
def capabilityCodeOrf : UInt8 := 3
def capabilityCodeRestart : UInt8 := 64
def capabilityCodeAs4 : UInt8 := 65
def capabilityCodeDynamic : UInt8 := 66
def capabilityCodeRefreshOld : UInt8 := 128
def capabilityCodeOrfOld : UInt8 := 130
def bgpOpenOptCap : UInt8 := 2

end Quagga.Bgp
