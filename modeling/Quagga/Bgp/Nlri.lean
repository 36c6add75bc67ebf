import Quagga.Bgp.Attr
import Quagga.Dbgp.Execution
import Quagga.Foundation.Records

/-!
# Network layer reachability information

`bgp_nlri_parse` and `bgp_nlri_sanity_check` of `bgp_route.c`. What happens to a prefix is
up to the routing table; `RouteHandler` is what the parser calls there.
-/

namespace Quagga.Bgp

open Foundation Dbgp List

inductive Safi where
  | unicast
  | multicast
  | mplsVpn
deriving Repr, DecidableEq

def Afi.code : Afi → Nat
  | .ip => 1
  | .ip6 => 2

def Afi.addressOctets : Afi → Nat
  | .ip => 4
  | .ip6 => 16

/-- The longest prefix of an address family. Families that are not known have no limit. -/
def maxPrefixlen (afi : Nat) : Nat :=
  if afi = 1 then 32 else if afi = 2 then 128 else 255

def psize (prefixlen : Nat) : Nat := (prefixlen + 7) / 8

structure Nlri where
  afi : Afi
  safi : Safi
  nlri : Bytes
deriving Repr, DecidableEq

/-- One entry of a field: the length of a prefix in bits, and as many octets as these take. -/
def readEntry (limit : Nat) : Bytes → Option ((Nat × Bytes) × Bytes)
  | [] => none
  | prefixlen :: octets =>
    let size := psize prefixlen.toNat
    if limit < prefixlen.toNat ∨ octets.length < size then none
    else some ((prefixlen.toNat, octets.take size), octets.drop size)

def entryReader (limit : Nat) : RecordReader UInt8 (Nat × Bytes) where
  read := readEntry limit
  progress := by
    intro input entry rest result
    cases input with
    | nil => simp [readEntry] at result
    | cons prefixlen octets =>
      simp only [readEntry] at result
      split at result
      · simp at result
      · cases result
        simp only [length_drop, length_cons]
        omega
  extends_input := by
    intro input entry rest more result
    cases input with
    | nil => simp [readEntry] at result
    | cons prefixlen octets =>
      simp only [readEntry] at result
      split at result
      · simp at result
      · rename_i fits
        cases result
        have enough : psize prefixlen.toNat ≤ octets.length := by omega
        have stillFits : ¬ (limit < prefixlen.toNat ∨
            (octets ++ more).length < psize prefixlen.toNat) := by
          simp only [length_append]
          omega
        simp only [cons_append, readEntry, if_neg stillFits,
          take_append_of_le_length enough, drop_append_of_le_length enough]

def bgpNlriSanityCheck (afi : Nat) (octets : Bytes) : Bool :=
  ((entryReader (maxPrefixlen afi)).records octets).2

/-- The rest of the address is zero. -/
def Prefix.ofEntry (afi : Afi) (entry : Nat × Bytes) : Prefix :=
  ⟨afi, entry.1, entry.2 ++ List.replicate (afi.addressOctets - entry.2.length) 0⟩

def readPrefixes (afi : Afi) (octets : Bytes) : List Prefix × Bool :=
  let entries := (entryReader (maxPrefixlen afi.code)).records octets
  (entries.1.map (Prefix.ofEntry afi), entries.2)

def Prefix.isClassD (network : Prefix) : Bool := network.prefix4 &&& 0xf0000000 = 0xe0000000

def Prefix.isLinkLocal (network : Prefix) : Bool :=
  match network.address with
  | first :: second :: _ => first = 0xfe ∧ second &&& 0xc0 = 0x80
  | _ => false

def handedPrefixes (afi : Afi) (safi : Safi) : List Prefix → List Prefix
  | [] => []
  | network :: networks =>
    if afi = .ip ∧ safi = .unicast ∧ network.isClassD then []
    else if afi = .ip6 ∧ safi = .unicast ∧ network.isLinkLocal then
      handedPrefixes afi safi networks
    else network :: handedPrefixes afi safi networks

def Nlri.networks (packet : Nlri) : List Prefix :=
  handedPrefixes packet.afi packet.safi (readPrefixes packet.afi packet.nlri).1

/-- One entry of a VPNv4 field: the routing distinguisher, and the prefix behind a label and
the distinguisher. -/
def readVpnEntry : Bytes → Option ((Bytes × Nat × Bytes) × Bytes)
  | [] => none
  | prefixlen :: octets =>
    let size := psize prefixlen.toNat
    let rd := (octets.drop 3).take 8
    if prefixlen.toNat < 88 ∨ octets.length < size ∨ 1 < readBigEndian (rd.take 2) then none
    else some ((rd, prefixlen.toNat - 88, (octets.take size).drop 11), octets.drop size)

def vpnEntryReader : RecordReader UInt8 (Bytes × Nat × Bytes) where
  read := readVpnEntry
  progress := by
    intro input entry rest result
    cases input with
    | nil => simp [readVpnEntry] at result
    | cons prefixlen octets =>
      simp only [readVpnEntry] at result
      split at result
      · simp at result
      · cases result
        simp only [length_drop, length_cons]
        omega
  extends_input := by
    intro input entry rest more result
    cases input with
    | nil => simp [readVpnEntry] at result
    | cons prefixlen octets =>
      simp only [readVpnEntry] at result
      split at result
      · simp at result
      · rename_i fits
        cases result
        have atLeast : 11 ≤ psize prefixlen.toNat := by
          unfold psize
          omega
        have enough : psize prefixlen.toNat ≤ octets.length := by omega
        have sameRd : ((octets ++ more).drop 3).take 8 = (octets.drop 3).take 8 := by
          rw [drop_append_of_le_length (by omega), take_append_of_le_length (by simp; omega)]
        have stillFits : ¬ (prefixlen.toNat < 88 ∨
            (octets ++ more).length < psize prefixlen.toNat ∨
            1 < readBigEndian (((octets.drop 3).take 8).take 2)) := by
          simp only [length_append]
          omega
        simp only [cons_append, readVpnEntry, sameRd, if_neg stillFits,
          take_append_of_le_length enough, drop_append_of_le_length enough]

/-- A prefix with the address family it belongs to and, in a VPN, its distinguisher. -/
structure Destination where
  afi : Afi
  safi : Safi
  rd? : Option Bytes
  network : Prefix
deriving Repr, DecidableEq

/-- The prefixes that a VPNv4 field encodes, which has a format of its own. -/
def vpnDestinations (octets : Bytes) : List Destination :=
  (vpnEntryReader.records octets).1.map fun (rd, entry) =>
    ⟨.ip, .mplsVpn, some rd, .ofEntry .ip entry⟩

def Nlri.encoded (packet : Nlri) : List Destination :=
  match packet.safi with
  | .mplsVpn => vpnDestinations packet.nlri
  | safi => (readPrefixes packet.afi packet.nlri).1.map fun network =>
    ⟨packet.afi, safi, none, network⟩

def Nlri.destinations (packet : Nlri) : List Destination :=
  match packet.safi with
  | .mplsVpn => vpnDestinations packet.nlri
  | safi => packet.networks.map fun network => ⟨packet.afi, safi, none, network⟩

/-- The parser of the field neither stops at one of its prefixes nor passes over it, nor
copies one that does not fit. -/
def Nlri.Routable (packet : Nlri) : Prop :=
  match packet.safi with
  | .mplsVpn => ∀ entry ∈ (vpnEntryReader.records packet.nlri).1, entry.2.1 ≤ 32
  | safi => ∀ network ∈ (readPrefixes packet.afi packet.nlri).1,
      ¬ (packet.afi = .ip ∧ safi = .unicast ∧ network.isClassD = true) ∧
        ¬ (packet.afi = .ip6 ∧ safi = .unicast ∧ network.isLinkLocal = true)

theorem handedPrefixes_of_routable {afi : Afi} {safi : Safi} {networks : List Prefix}
    (routable : ∀ network ∈ networks,
      ¬ (afi = .ip ∧ safi = .unicast ∧ network.isClassD = true) ∧
        ¬ (afi = .ip6 ∧ safi = .unicast ∧ network.isLinkLocal = true)) :
    handedPrefixes afi safi networks = networks := by
  induction networks with
  | nil => rfl
  | cons network networks induction =>
    rcases forall_mem_cons.mp routable with ⟨first, rest⟩
    rw [handedPrefixes, if_neg first.1, if_neg first.2, induction rest]

theorem Nlri.destinations_of_routable {packet : Nlri} (routable : packet.Routable) :
    packet.destinations = packet.encoded := by
  rcases packet with ⟨afi, safi, octets⟩
  cases safi with
  | mplsVpn => rfl
  | unicast | multicast => simp only [Nlri.destinations, Nlri.encoded, Nlri.networks,
      handedPrefixes_of_routable routable]

/-- What the parsers of reachability information call in the routing table. -/
structure RouteHandler (σ α : Type) where
  /-- `bgp_update`, and whether its return value is not negative. -/
  update : Afi → Safi → Prefix → α → σ → Execution (σ × Bool)
  /-- `bgp_withdraw`, which always returns zero. -/
  withdraw : Afi → Safi → Prefix → σ → Execution σ

section

variable {σ α : Type} (handler : RouteHandler σ α)

def handlePrefixes (attr? : Option α) (afi : Afi) (safi : Safi) :
    List Prefix → σ → Execution (σ × Bool)
  | [], state => .ok (state, true)
  | network :: networks, state =>
    if afi = .ip ∧ safi = .unicast ∧ network.isClassD then .ok (state, false)
    else if afi = .ip6 ∧ safi = .unicast ∧ network.isLinkLocal then
      handlePrefixes attr? afi safi networks state
    else
      match attr? with
      | some attr => do
          let (state, accepted) ← handler.update afi safi network attr state
          if accepted then handlePrefixes attr? afi safi networks state
          else return (state, false)
      | none => do
          let state ← handler.withdraw afi safi network state
          handlePrefixes attr? afi safi networks state

/-- Without attributes the prefixes are withdrawn. -/
def bgpNlriParse (established : Bool) (attr? : Option α) (packet : Nlri) (state : σ) :
    Execution (σ × Bool) :=
  if established then do
    let (networks, complete) := readPrefixes packet.afi packet.nlri
    let (state, accepted) ← handlePrefixes handler attr? packet.afi packet.safi networks state
    return (state, accepted && complete)
  else .ok (state, true)

end

end Quagga.Bgp
