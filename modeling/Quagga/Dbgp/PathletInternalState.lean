import Quagga.Dbgp.Execution
import Quagga.Dbgp.IntegratedAdvertisement
import Quagga.Foundation.Text

/-!
# Pathlet state of a router

`PathletInternalState`: the graph of known pathlets, the pathlets a router announces under
addresses of its own, and the two counters its addresses and forwarding identifiers are
taken from.
-/

namespace Quagga.Dbgp

open Foundation

/-- A value of an unsigned field read into an `int`. -/
def toInt (value : UInt32) : Int := value.toBitVec.toInt

/-- An `int` written to an unsigned field. -/
def ofInt (value : Int) : UInt32 := .ofBitVec (.ofInt 32 value)

/-- The entries of `pathlet_graph_`, from one virtual node to an adjacent one. The list is
in the order in which the nested maps are traversed. -/
abbrev PathletGraph := List ((Int × Int) × Pathlet)

/-- `pathlet_graph_[primary][adjacent] = pathlet`. -/
def PathletGraph.insert (link : Int × Int) (pathlet : Pathlet) : PathletGraph → PathletGraph
  | [] => [(link, pathlet)]
  | head :: tail =>
    if head.1 = link then (link, pathlet) :: tail
    else if link.1 < head.1.1 ∨ (link.1 = head.1.1 ∧ link.2 < head.1.2) then
      (link, pathlet) :: head :: tail
    else head :: insert link pathlet tail

structure PathletInternalState where
  pathletGraph : PathletGraph
  nextFid : Int
  nextIp : UInt32
  ipToPathletToSend : Bytes → Option Pathlet

namespace PathletInternalState

/-- `PathletInternalState(ip_slash_24)`, with the address already in binary. -/
def create (ipSlash24 : UInt32) : PathletInternalState where
  pathletGraph := []
  nextFid := 1
  nextIp := ipSlash24
  ipToPathletToSend := fun _ => none

/-- Reads the two virtual nodes of the pathlet without looking at how many there are. -/
def insertPathletIntoGraph (state : PathletInternalState) (pathlet : Pathlet) :
    Execution PathletInternalState :=
  match pathlet.vnodes with
  | primary :: adjacent :: _ =>
    .ok { state with
      pathletGraph := state.pathletGraph.insert (toInt primary, toInt adjacent) pathlet }
  | _ => .error .undefined

def insertPathletToSend (state : PathletInternalState) (associatedIp : Bytes)
    (pathlet : Pathlet) : Execution PathletInternalState :=
  insertPathletIntoGraph { state with
    ipToPathletToSend := Function.update state.ipToPathletToSend associatedIp (some pathlet) }
    pathlet

/-- The subscript operator of the map inserts an empty pathlet under an unknown address. -/
def getPathletToSend (state : PathletInternalState) (associatedIp : Bytes) :
    Pathlet × PathletInternalState :=
  match state.ipToPathletToSend associatedIp with
  | some pathlet => (pathlet, state)
  | none => (.empty, { state with
      ipToPathletToSend := Function.update state.ipToPathletToSend associatedIp (some .empty) })

def convertGraphToPathlets (state : PathletInternalState) : Pathlets :=
  ⟨state.pathletGraph.map Prod.snd⟩

def getNextFid (state : PathletInternalState) : Int × PathletInternalState :=
  (state.nextFid, { state with nextFid := state.nextFid + 1 })

def getNextIp (state : PathletInternalState) : Bytes × PathletInternalState :=
  (inetNtop state.nextIp, { state with nextIp := state.nextIp + 1 })

end PathletInternalState

end Quagga.Dbgp
