import Quagga.Foundation.LastWrite
import Quagga.Foundation.Transitions

/-!
# Adj-RIB-Out

`bgp_advertise.c` and the packets that `bgp_packet.c` makes of what waits there: for one peer
and one address family, the adjacencies of the nodes of the table, the two FIFOs, and the
advertisements with one attribute, which go into one UPDATE.
-/

namespace Quagga.Bgp

open Foundation Function

/-- `struct bgp_advertise`. The attribute is that of its `bgp_advertise_attr`, which a
withdrawal does not have. -/
structure Advertise (α ι : Type) where
  baa? : Option α
  binfo? : Option ι

/-- `struct bgp_adj_out`: the attribute the peer has, and what waits to be sent. -/
structure AdjOut (α ι : Type) where
  attr? : Option α
  adv? : Option (Advertise α ι)

/-- What is written to the peer. The prefixes of the packet are kept next to its octets. -/
inductive Packet (ν α π : Type) where
  | update (attr : α) (prefixes : List ν) (octets : π)
  | withdraw (prefixes : List ν) (octets : π)

/-- Adjacencies and FIFOs. A node has one adjacency with the peer, and that has one
advertisement, so the advertisement is known by its node. -/
structure AdjRibOut (ν α ι π : Type) where
  adjOut : ν → Option (AdjOut α ι)
  update : List ν
  withdraw : List ν
  /-- The advertisements of every `bgp_advertise_attr`, the latest first. -/
  baa : α → List ν
  scount : Int
  obuf : List (Packet ν α π)

def AdjRibOut.empty {ν α ι π : Type} : AdjRibOut ν α ι π where
  adjOut _ := none
  update := []
  withdraw := []
  baa _ := []
  scount := 0
  obuf := []

section

variable {ν α ι π : Type} [DecidableEq ν] [DecidableEq α]

/-! ## Queueing -/

/-- Takes the advertisement out of its lists, and finds the next one with its attribute. -/
def bgpAdvertiseClean (rib : AdjRibOut ν α ι π) (rn : ν) (adj : AdjOut α ι)
    (adv : Advertise α ι) : Option ν × AdjRibOut ν α ι π :=
  let baa := match adv.baa? with
    | some attr => update rib.baa attr ((rib.baa attr).erase rn)
    | none => rib.baa
  (adv.baa?.bind fun attr => (baa attr).head?,
    { rib with
      baa := baa
      update := rib.update.erase rn
      withdraw := rib.withdraw.erase rn
      adjOut := update rib.adjOut rn (some { adj with adv? := none }) })

def cleanPending (rib : AdjRibOut ν α ι π) (rn : ν) (adj : AdjOut α ι) : AdjRibOut ν α ι π :=
  match adj.adv? with
  | some adv => (bgpAdvertiseClean rib rn adj adv).2
  | none => rib

def bgpAdjOutSet (rib : AdjRibOut ν α ι π) (rn : ν) (attr : α) (binfo : ι) : AdjRibOut ν α ι π :=
  let adj := (rib.adjOut rn).getD ⟨none, none⟩
  let rib := cleanPending rib rn adj
  { rib with
    adjOut := update rib.adjOut rn
      (some { adj with adv? := some ⟨some attr, some binfo⟩ })
    baa := update rib.baa attr (rn :: rib.baa attr)
    update := rib.update ++ [rn] }

def bgpAdjOutUnset (rib : AdjRibOut ν α ι π) (rn : ν) : AdjRibOut ν α ι π :=
  match rib.adjOut rn with
  | none => rib
  | some adj =>
    let rib := cleanPending rib rn adj
    if adj.attr?.isSome then
      { rib with
        adjOut := update rib.adjOut rn (some { adj with adv? := some ⟨none, none⟩ })
        withdraw := rib.withdraw ++ [rn] }
    else { rib with adjOut := update rib.adjOut rn none }

def bgpAdjOutRemove (rib : AdjRibOut ν α ι π) (rn : ν) (adj : AdjOut α ι) : AdjRibOut ν α ι π :=
  let rib := cleanPending rib rn adj
  { rib with adjOut := update rib.adjOut rn none }

/-! ## Packets -/

/-- How the octets of a packet are written: whether the prefix of a node has no place left in
it, its header with the attributes, and one more prefix. `none` is a failed assertion of a
stream. -/
structure PacketWriter (ν α ι π : Type) where
  updateFull : Option π → ν → Bool
  attributes : α → Option ι → Option π
  addPrefix : π → α → ν → Option ι → Option π
  withdrawFull : Option π → ν → Bool
  addWithdrawn : Option π → ν → Option π

structure OpenUpdate (ν α π : Type) where
  attr : α
  prefixes : List ν
  octets : π

variable (writer : PacketWriter ν α ι π)

def openUpdate (update? : Option (OpenUpdate ν α π)) (attr : α) (binfo? : Option ι) :
    Option (OpenUpdate ν α π) :=
  match update? with
  | some update => some update
  | none => (writer.attributes attr binfo?).map fun octets => ⟨attr, [], octets⟩

/-- The loop of `bgp_update_packet`. Its `adv` is the head of the FIFO at first and then what
`bgp_advertise_clean` finds. A turn takes an advertisement out of the FIFO, which bounds the
turns. -/
def updateWithin : Nat → AdjRibOut ν α ι π → Option ι → Option (OpenUpdate ν α π) → Option ν →
    Option (AdjRibOut ν α ι π × Option (OpenUpdate ν α π))
  | _, rib, _, update?, none => some (rib, update?)
  | 0, _, _, _, some _ => none
  | fuel + 1, rib, binfo?, update?, some rn =>
    match rib.adjOut rn with
    | some ⟨sent?, some ⟨some attr, advBinfo?⟩⟩ =>
      let binfo? := advBinfo? <|> binfo?
      if writer.updateFull (update?.map (·.octets)) rn then some (rib, update?)
      else do
        let update ← openUpdate writer update? attr binfo?
        let octets ← writer.addPrefix update.octets update.attr rn binfo?
        let rib := { rib with
          scount := if sent?.isSome then rib.scount else rib.scount + 1 }
        let (next?, rib) := bgpAdvertiseClean rib rn ⟨some attr, none⟩ ⟨some attr, advBinfo?⟩
        updateWithin fuel rib binfo?
          (some { update with prefixes := update.prefixes ++ [rn], octets := octets }) next?
    | _ => none

def bgpUpdatePacket (rib : AdjRibOut ν α ι π) : Option (AdjRibOut ν α ι π) := do
  let (rib, update?) ←
    updateWithin writer (rib.update.length + 1) rib none none rib.update.head?
  match update? with
  | some update =>
    return { rib with obuf := rib.obuf ++ [.update update.attr update.prefixes update.octets] }
  | none => return rib

def withdrawWithin : Nat → AdjRibOut ν α ι π → List ν → Option π →
    Option (AdjRibOut ν α ι π × List ν × Option π)
  | 0, _, _, _ => none
  | fuel + 1, rib, prefixes, octets? =>
    match rib.withdraw.head? with
    | none => some (rib, prefixes, octets?)
    | some rn =>
      if writer.withdrawFull octets? rn then some (rib, prefixes, octets?)
      else match rib.adjOut rn with
        | none => none
        | some adj => do
            let octets ← writer.addWithdrawn octets? rn
            let rib := { rib with scount := rib.scount - 1 }
            withdrawWithin fuel (bgpAdjOutRemove rib rn adj) (prefixes ++ [rn]) (some octets)

def bgpWithdrawPacket (rib : AdjRibOut ν α ι π) : Option (AdjRibOut ν α ι π) := do
  let (rib, prefixes, octets?) ← withdrawWithin writer (rib.withdraw.length + 1) rib [] none
  match octets? with
  | some octets => return { rib with obuf := rib.obuf ++ [.withdraw prefixes octets] }
  | none => return rib

/-! ## Runs -/

inductive AdjOutEvent (ν α ι : Type) where
  | set (rn : ν) (attr : α) (binfo : ι)
  | unset (rn : ν)
  | updatePacket
  | withdrawPacket

inductive Aborted where
  | assertion
deriving DecidableEq

def adjOutStep : StepFunction (AdjRibOut ν α ι π) (AdjOutEvent ν α ι) Aborted
  | rib, .set rn attr binfo => some (.ok (bgpAdjOutSet rib rn attr binfo))
  | rib, .unset rn => some (.ok (bgpAdjOutUnset rib rn))
  | rib, .updatePacket => some ((bgpUpdatePacket writer rib).elim (.error .assertion) .ok)
  | rib, .withdrawPacket => some ((bgpWithdrawPacket writer rib).elim (.error .assertion) .ok)

end

end Quagga.Bgp
