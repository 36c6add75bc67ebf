import Quagga.Bgp.AsPath

/-!
# Attributes of a route

`struct prefix` and `struct attr` with its `attr_extra`. What a route
carries is independent of where its transitive attribute lives, so `Attr` is generic in how
it refers to it: a buffer while an UPDATE is parsed, a pointer once the route is stored.
-/

namespace Quagga.Bgp

open Foundation

/-! ## Prefixes -/

inductive Afi where
  | ip
  | ip6
deriving Repr, DecidableEq

/-- The address has the four or sixteen octets of its family. -/
structure Prefix where
  family : Afi
  prefixlen : Nat
  address : Bytes
deriving Repr, DecidableEq

/-- `u.prefix4`, which is the start of the address whatever the family is. -/
def Prefix.prefix4 (network : Prefix) : UInt32 :=
  UInt32.ofNat (readBigEndian (network.address.take 4))

inductive PeerSort where
  | ibgp
  | ebgp
  | internal
  | confed
deriving Repr, DecidableEq

/-! ## Attributes -/

inductive AttributeType where
  | origin
  | asPath
  | nextHop
  | multiExitDisc
  | localPref
  | atomicAggregate
  | aggregator
  | communities
  | originatorId
  | clusterList
  | mpReachNlri
  | mpUnreachNlri
  | extCommunities
  | as4Path
  | as4Aggregator
deriving Repr, DecidableEq

/-- `struct attr`. A field of `attr_extra` that was never set has its zero value. -/
structure Attr (τ : Type) where
  aspath? : Option AsPath
  community? : Option (List UInt32)
  /-- The attributes whose bit is set in `flag`. -/
  flag : Finset AttributeType
  nexthop : UInt32
  med : UInt32
  localPref : UInt32
  origin : UInt8
  ecommunity? : Option (List Bytes)
  cluster? : Option (List UInt32)
  transit? : Option τ
  aggregatorAddr : UInt32
  aggregatorAs : UInt32
  originatorId : UInt32
  weight : UInt32
  mpNexthopLen : Nat
  mpNexthopGlobalIn : UInt32
  mpNexthopGlobal : Bytes
  mpNexthopLocal : Bytes
deriving DecidableEq

def Attr.zero {τ : Type} : Attr τ where
  aspath? := none
  community? := none
  flag := ∅
  nexthop := 0
  med := 0
  localPref := 0
  origin := 0
  ecommunity? := none
  cluster? := none
  transit? := none
  aggregatorAddr := 0
  aggregatorAs := 0
  originatorId := 0
  weight := 0
  mpNexthopLen := 0
  mpNexthopGlobalIn := 0
  mpNexthopGlobal := []
  mpNexthopLocal := []

end Quagga.Bgp
