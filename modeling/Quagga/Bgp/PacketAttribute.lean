import Quagga.Bgp.AsPathTransparency

/-!
# Attributes that go out

`bgp_packet_attribute` of `bgp_attr.c`, in what it does with the path. A path that is changed
for the peer is a copy, but the confederation segments that AS4_PATH must not have are deleted
from whatever path was written.
-/

namespace Quagga.Bgp

open Foundation Dbgp List

namespace AsPath

def startsInConfed (path : AsPath) : Bool :=
  path.head?.any fun segment => segment.type = .asConfedSequence

def deleteConfedSeq (path : AsPath) : AsPath :=
  if path.startsInConfed then
    path.dropWhile fun segment => segment.type = .asConfedSequence || segment.type = .asConfedSet
  else path

def addConfedSeq (path : AsPath) (asno : UInt32) : AsPath :=
  match path with
  | ⟨.asConfedSequence, as⟩ :: rest => ⟨.asConfedSequence, asno :: as⟩ :: rest
  | ⟨_, []⟩ :: rest => ⟨.asConfedSequence, [asno]⟩ :: rest
  | path => ⟨.asConfedSequence, [asno]⟩ :: path

theorem deleteConfedSeq_eq_self_iff (path : AsPath) :
    path.deleteConfedSeq = path ↔ path.startsInConfed = false := by
  rw [deleteConfedSeq]
  cases starts : path.startsInConfed with
  | false => simp
  | true =>
    cases path with
    | nil => cases starts
    | cons segment rest =>
      have isConfed : segment.type = .asConfedSequence := by simpa [startsInConfed] using starts
      have shorter : _ ≤ rest.length := (dropWhile_suffix fun segment : AsSegment =>
        segment.type = .asConfedSequence || segment.type = .asConfedSet).length_le
      simp only [if_true, isConfed, decide_true, Bool.true_or, dropWhile_cons_of_pos,
        Bool.true_eq_false, iff_false]
      intro same
      rw [same, length_cons] at shorter
      omega

end AsPath

/-- A peer, with what is written for it of the prefix and the other attributes: before, between and
behind the two paths. -/
structure PacketPeer where
  sort : PeerSort
  as4Rcv : Bool
  asPathUnchanged : Bool
  rserverClient : Bool
  confedId? : Option UInt32
  localAs : UInt32
  changeLocalAs? : Option UInt32
  localAsReplaceAs : Bool
  before : Attr Transit → Bytes
  between : Attr Transit → Bytes
  behind : Attr Transit → Bytes

namespace PacketPeer

variable (peer : PacketPeer) (path : AsPath)

def prepends : Bool :=
  peer.sort = .ebgp && (!peer.asPathUnchanged || path.isEmpty) && !peer.rserverClient

/-- The path that is written is the one of the route, and not a copy. -/
def sharesPath : Bool := !peer.prepends path && peer.sort ≠ .confed

def sentPath : AsPath :=
  if peer.prepends path then
    match peer.confedId?, peer.changeLocalAs? with
    | some confedId, _ => path.deleteConfedSeq.addSeq confedId
    | none, some localAs =>
      (if peer.localAsReplaceAs then path else path.addSeq peer.localAs).addSeq localAs
    | none, none => path.addSeq peer.localAs
  else if peer.sort = .confed then path.addConfedSeq peer.localAs
  else path

def sendsAs4Path : Bool := !peer.as4Rcv && (peer.sentPath path).hasAs4

/-- The path of the route loses its first segments. -/
def EditsPath : Prop :=
  peer.sharesPath path = true ∧ peer.as4Rcv = false ∧ path.hasAs4 = true ∧
    path.startsInConfed = true

theorem sentPath_of_sharesPath {peer : PacketPeer} {path : AsPath}
    (shares : peer.sharesPath path = true) : peer.sentPath path = path := by
  simp only [sharesPath, Bool.and_eq_true, Bool.not_eq_true', decide_eq_true_eq] at shares
  simp [sentPath, shares]

end PacketPeer

def pathAttribute (type : Bytes) (path : Bytes × Nat) : Bytes :=
  type ++ bigEndian 2 path.2 ++ path.1

def as4PathPut (sends : Bool) (room : Nat) (path : AsPath) : Option Bytes :=
  if sends then (aspathPut true room path).map (pathAttribute [0xd0, 17]) else some []

/-- What is written to a stream with room for the paths, and what becomes of the attributes. -/
def packetAttribute (peer : PacketPeer) (room : Nat) (attr : Attr Transit) :
    Option (Bytes × Attr Transit) := do
  let path ← attr.aspath?
  let sent := peer.sentPath path
  let asPath ← aspathPut peer.as4Rcv room sent
  let as4Path ← as4PathPut (peer.sendsAs4Path path)
    (room - (asPath.1.length + (peer.between attr).length + 4)) sent.deleteConfedSeq
  -- the segments have been deleted in place
  let after := if peer.sendsAs4Path path && peer.sharesPath path then
    { attr with aspath? := some sent.deleteConfedSeq } else attr
  return (peer.before attr ++ pathAttribute [0x50, 2] asPath ++ peer.between attr ++ as4Path ++
    peer.behind after, after)

/-- Neither peer changes the attributes, so each gets what it would get alone. -/
def LeavesUntouched (first second : PacketPeer) (attr : Attr Transit) : Prop :=
  ∀ peer ∈ [first, second], ∀ room octets after,
    packetAttribute peer room attr = some (octets, after) →
      after = attr ∧ ∀ other ∈ [first, second], ∀ room,
        packetAttribute other room after = packetAttribute other room attr

variable {peer : PacketPeer} {attr : Attr Transit} {path : AsPath}

theorem aspathPut_zero (use32bit : Bool) (path : AsPath) :
    aspathPut use32bit 0 path = some ([], 0) := by
  rcases path with _ | ⟨⟨type, _ | ⟨asno, as⟩⟩, rest⟩
  · rfl
  · rfl
  · exact if_pos (Nat.lt_add_right _ Nat.zero_lt_two)

theorem exists_packetAttribute (peer : PacketPeer) (held : attr.aspath? = some path) :
    ∃ room octets after, packetAttribute peer room attr = some (octets, after) := by
  refine ⟨0, ?_⟩
  cases sends : peer.sendsAs4Path path <;>
    simp [packetAttribute, as4PathPut, held, aspathPut_zero, sends]

theorem after_eq_iff {room : Nat} {octets : Bytes} {after : Attr Transit}
    (returned : packetAttribute peer room attr = some (octets, after))
    (held : attr.aspath? = some path) : after = attr ↔ ¬ peer.EditsPath path := by
  simp only [packetAttribute, held, Option.bind_eq_bind, Option.bind_some,
    Option.bind_eq_some_iff] at returned
  rcases returned with ⟨_, _, _, _, _, rfl⟩
  rw [PacketPeer.EditsPath, PacketPeer.sendsAs4Path, ← Bool.not_eq_false path.startsInConfed,
    ← path.deleteConfedSeq_eq_self_iff]
  by_cases edited : (!peer.as4Rcv && (peer.sentPath path).hasAs4 && peer.sharesPath path) = true
  · rw [if_pos edited]
    simp only [Bool.and_eq_true, Bool.not_eq_true'] at edited
    rcases edited with ⟨⟨old, large⟩, shares⟩
    rw [PacketPeer.sentPath_of_sharesPath shares] at large ⊢
    simp only [shares, old, large, true_and, not_not]
    constructor
    · intro same
      exact Option.some.inj ((congrArg Attr.aspath? same).trans held)
    · intro same
      rw [same, ← held]
  · rw [if_neg edited]
    refine ⟨fun _ edits => edited ?_, fun _ => rfl⟩
    simp [PacketPeer.sentPath_of_sharesPath edits.1, edits.1, edits.2.1, edits.2.2.1]

theorem leavesUntouched_iff (first second : PacketPeer) (attr : Attr Transit) :
    LeavesUntouched first second attr ↔
      ∀ peer ∈ [first, second], ∀ path ∈ attr.aspath?, ¬ peer.EditsPath path := by
  constructor
  · intro untouched peer member path held
    rcases exists_packetAttribute peer held with ⟨room, octets, after, returned⟩
    exact (after_eq_iff returned held).mp (untouched peer member room octets after returned).1
  · intro spared peer member room octets after returned
    cases held : attr.aspath? with
    | none => simp [packetAttribute, held] at returned
    | some path =>
      have same := (after_eq_iff returned held).mpr (spared peer member path held)
      exact ⟨same, fun other _ room => by rw [same]⟩

/-- An internal peer of two octets is sent a path that begins with a confederation. -/
theorem confedPath_not_leavesUntouched :
    ∃ (peer : PacketPeer) (attr after : Attr Transit) (octets : Bytes), peer.sort = .ibgp ∧
      attr.aspath? = some [⟨.asConfedSequence, [65002]⟩, ⟨.asSequence, [70000]⟩] ∧
      packetAttribute peer 4096 attr = some (octets, after) ∧
      after.aspath? = some [⟨.asSequence, [70000]⟩] ∧ ¬ LeavesUntouched peer peer attr := by
  let attr : Attr Transit :=
    { Attr.zero with aspath? := some [⟨.asConfedSequence, [65002]⟩, ⟨.asSequence, [70000]⟩] }
  refine ⟨⟨.ibgp, false, false, false, none, 1, none, false, fun _ => [], fun _ => [], fun _ => []⟩,
    attr, _, _, rfl, rfl, rfl, rfl, fun untouched => ?_⟩
  have same := (untouched _ mem_cons_self 4096 _ _ rfl).1
  exact absurd (congrArg Attr.aspath? same) (by decide)

end Quagga.Bgp
