import Quagga.Bgp.Framing

/-!
# Framing and segmentation

Which messages a byte stream is made of does not depend on how it is read, as long as what has
been read so far is kept. For an accepted peer it is not kept.
-/

namespace Quagga.Bgp

open Foundation List

variable {rest : Bytes} {size : Nat}

/-! ## The messages of a byte stream -/

/-- The message at the start of some octets, and the octets after it. -/
def nextMessage (octets : Bytes) : Option (ReadEvent × Bytes) :=
  if octets.length < bgpHeaderSize then none
  else match checkHeader (octets.take bgpHeaderSize) with
    | .error (error, data) => some (.notify error data, octets.drop bgpHeaderSize)
    | .ok size =>
      if octets.length < size then none
      else some (.dispatch (messageCode octets) ((octets.take size).drop bgpHeaderSize),
        octets.drop size)

def ReadEvent.isDispatch : ReadEvent → Bool
  | .dispatch _ _ => true
  | .notify _ _ => false

theorem size_of_checkHeader {header : Bytes} (checked : checkHeader header = .ok size) :
    bgpHeaderSize ≤ size ∧ size ≤ bgpMaxPacketSize := by
  revert checked
  fun_cases checkHeader header with
  | case3 code size synced type known fits =>
    intro checked
    rw [← Except.ok.inj checked]
    simp only [MessageType.sizeFits, Bool.and_eq_true, decide_eq_true_eq] at fits
    exact fits.1
  | _ => exact nofun

theorem nextMessage_shrinks {octets : Bytes} {event : ReadEvent}
    (message : nextMessage octets = some (event, rest)) : rest.length < octets.length := by
  revert message
  have positive : 0 < bgpHeaderSize := by decide
  fun_cases nextMessage octets with
  | case2 long error data refused =>
    rintro ⟨⟩
    rw [length_drop]
    omega
  | case4 long size checked whole =>
    rintro ⟨⟩
    have atLeast := (size_of_checkHeader checked).1
    rw [length_drop]
    omega
  | _ => exact nofun

/-- The messages one after the other, until an error or until a handler closes the
connection. -/
def framing (goesOn : List ReadEvent → Bool) : Loop (List ReadEvent × Bytes) (List ReadEvent) where
  turn state := match nextMessage state.2 with
    | none => .leave state.1
    | some (event, rest) =>
      if event.isDispatch && goesOn (state.1 ++ [event]) then .next (state.1 ++ [event], rest)
      else .leave (state.1 ++ [event])
  size state := state.2.length
  shrinks := by
    intro state following taken
    split at taken
    · cases taken
    · rename_i event rest message
      split at taken
      · cases taken
        exact nextMessage_shrinks message
      · cases taken

section

variable {goesOn : List ReadEvent → Bool} {trace : List ReadEvent} {octets : Bytes}

theorem framing_eq : (framing goesOn).run (trace, octets) =
    match nextMessage octets with
    | none => trace
    | some (event, rest) =>
      if event.isDispatch && goesOn (trace ++ [event]) then
        (framing goesOn).run (trace ++ [event], rest)
      else trace ++ [event] := by
  rw [Loop.run_eq]
  simp only [framing]
  cases nextMessage octets with
  | none => rfl
  | some next =>
    by_cases further : (next.1.isDispatch && goesOn (trace ++ [next.1])) = true
    · simp only [if_pos further]
    · simp only [if_neg further]

end

/-! ## What a call keeps -/

/-- A message that is not there as a whole: part of its header, or part of its body. -/
inductive Reader.Waits : Reader → Prop
  | fresh : Waits Reader.fresh
  | header {ibuf : Bytes} : ibuf.length < bgpHeaderSize → Waits ⟨ibuf, bgpHeaderSize⟩
  | body {ibuf : Bytes} {size : Nat} : bgpHeaderSize ≤ ibuf.length → ibuf.length < size →
      checkHeader (ibuf.take bgpHeaderSize) = .ok size → Waits ⟨ibuf, size⟩

theorem Reader.Waits.nextMessage_none {reader : Reader} (waits : reader.Waits) :
    nextMessage reader.ibuf = none := by
  unfold nextMessage
  cases waits with
  | fresh => rfl
  | header short => rw [if_pos short]
  | body header short checked =>
    rw [if_neg (Nat.not_lt.mpr header), checked]
    dsimp only
    rw [if_pos short]

theorem streamReadTry_spec (socket : Socket) (size : Nat) :
    (streamReadTry socket size).1 ++ (streamReadTry socket size).2.pending = socket.pending ∧
      (streamReadTry socket size).1.length ≤ size := by
  unfold streamReadTry
  split
  · exact ⟨rfl, Nat.zero_le _⟩
  · exact ⟨rfl, Nat.zero_le _⟩
  · refine ⟨take_append_drop _ _, ?_⟩
    rw [length_take]
    omega

structure Socket.Prompt (socket : Socket) : Prop where
  delivers : ∀ read ∈ socket.reads, read ≠ .wouldBlock
  enough : socket.pending.length ≤ socket.reads.length

theorem streamReadTry_prompt {socket : Socket} (prompt : socket.Prompt) (positive : 0 < size) :
    (streamReadTry socket size).2.Prompt ∧
      (streamReadTry socket size).2.reads.length = socket.reads.length - 1 := by
  rcases socket with ⟨pending, reads⟩
  rcases prompt with ⟨delivers, enough⟩
  unfold streamReadTry
  rcases reads with _ | ⟨_ | more, rest⟩
  · exact ⟨⟨delivers, enough⟩, rfl⟩
  · exact absurd rfl (delivers _ mem_cons_self)
  · dsimp only at enough ⊢
    refine ⟨⟨fun read member => delivers read (mem_cons_of_mem _ member), ?_⟩, rfl⟩
    rw [length_cons] at enough
    dsimp only
    rw [length_drop]
    omega

/-- A socket that delivers leads to one that delivers and has used up some of the reads. -/
def Socket.LeadsTo (socket left : Socket) (used : Nat) : Prop :=
  socket.Prompt → left.Prompt ∧ left.reads.length ≤ socket.reads.length - used

section

variable {reader : Reader} {socket : Socket}

theorem bgpReadPacket_spec (socket : Socket) (room : reader.ibuf.length ≤ reader.packetSize) :
    ∃ octets left, bgpReadPacket reader socket =
        (decide ((reader.ibuf ++ octets).length = reader.packetSize),
          { reader with ibuf := reader.ibuf ++ octets }, left) ∧
      octets ++ left.pending = socket.pending ∧
      (reader.ibuf ++ octets).length ≤ reader.packetSize ∧
      socket.LeadsTo left (if reader.ibuf.length < reader.packetSize then 1 else 0) := by
  unfold bgpReadPacket
  dsimp only
  split
  next =>
    have full : reader.ibuf.length = reader.packetSize := by omega
    refine ⟨[], socket, ?_, rfl, ?_, fun prompt => ⟨prompt, by simp [full]⟩⟩
    · simp [full]
    · rw [append_nil]
      exact room
  next missing =>
    have read := streamReadTry_spec socket (reader.packetSize - reader.ibuf.length)
    refine ⟨_, _, rfl, read.1, ?_, fun prompt => ?_⟩
    · rw [length_append]
      omega
    · rcases streamReadTry_prompt prompt (Nat.pos_of_ne_zero missing) with ⟨left, fewer⟩
      rw [if_pos (by omega)]
      exact ⟨left, fewer.le⟩

/-- What a call leaves behind: either nothing has happened but that more octets are in the
buffer, or the message at the start has been taken. -/
def ReadsOn (reader : Reader) (socket : Socket) :
    Option ReadEvent × Reader × Socket → Prop
  | (none, next, left) =>
    next.Waits ∧ next.ibuf ++ left.pending = reader.ibuf ++ socket.pending
  | (some event, next, left) =>
    nextMessage (reader.ibuf ++ socket.pending) = some (event, left.pending) ∧
      (event.isDispatch = true → next = Reader.fresh)

theorem nextMessage_of_body {message : Bytes} (header : bgpHeaderSize ≤ message.length)
    (checked : checkHeader (message.take bgpHeaderSize) = .ok message.length) :
    nextMessage (message ++ rest) =
      some (.dispatch (messageCode message) (message.drop bgpHeaderSize), rest) := by
  have code : messageCode (message ++ rest) = messageCode message := by
    unfold messageCode
    unfold bgpHeaderSize at header
    rw [getD_eq_getElem?_getD, getD_eq_getElem?_getD, getElem?_append_left (by omega)]
  unfold nextMessage
  rw [if_neg (by rw [length_append]; omega), take_append_of_le_length header, checked]
  dsimp only
  rw [if_neg (by rw [length_append]; omega), code, take_left, drop_left]

theorem readBody_spec (header : bgpHeaderSize ≤ reader.ibuf.length)
    (room : reader.ibuf.length ≤ reader.packetSize)
    (checked : checkHeader (reader.ibuf.take bgpHeaderSize) = .ok reader.packetSize) :
    ReadsOn reader socket (readBody reader socket) ∧
      socket.LeadsTo (readBody reader socket).2.2
        (if reader.ibuf.length < reader.packetSize then 1 else 0) := by
  rcases bgpReadPacket_spec socket room with ⟨octets, left, result, taken, atMost, leads⟩
  have sameHeader : (reader.ibuf ++ octets).take bgpHeaderSize =
      reader.ibuf.take bgpHeaderSize := take_append_of_le_length header
  have longer : bgpHeaderSize ≤ (reader.ibuf ++ octets).length := by
    rw [length_append]
    omega
  unfold readBody
  rw [result]
  by_cases full : (reader.ibuf ++ octets).length = reader.packetSize
  · rw [decide_eq_true full]
    refine ⟨⟨?_, fun _ => rfl⟩, leads⟩
    rw [← taken, ← append_assoc]
    apply nextMessage_of_body longer
    rw [sameHeader, checked, full]
  · rw [decide_eq_false full]
    refine ⟨⟨.body longer (by omega) (by rw [sameHeader, checked]), ?_⟩, leads⟩
    rw [append_assoc, taken]

theorem Reader.Waits.bgpRead (waits : reader.Waits) (socket : Socket) :
    ReadsOn reader socket (Quagga.Bgp.bgpRead reader socket) ∧
      socket.LeadsTo (Quagga.Bgp.bgpRead reader socket).2.2 1 := by
  have ofHeader : ∀ {ibuf : Bytes}, ibuf.length < bgpHeaderSize →
      ReadsOn ⟨ibuf, bgpHeaderSize⟩ socket (Quagga.Bgp.bgpRead ⟨ibuf, bgpHeaderSize⟩ socket) ∧
        socket.LeadsTo (Quagga.Bgp.bgpRead ⟨ibuf, bgpHeaderSize⟩ socket).2.2 1 := by
    intro ibuf short
    rcases @bgpReadPacket_spec ⟨ibuf, bgpHeaderSize⟩ socket (Nat.le_of_lt short) with
      ⟨octets, left, result, taken, atMost, leads⟩
    dsimp only at result atMost leads
    rw [if_pos short] at leads
    unfold Quagga.Bgp.bgpRead
    have notZero : bgpHeaderSize ≠ 0 := by decide
    simp only [notZero, if_false, short]
    rw [result]
    by_cases full : (ibuf ++ octets).length = bgpHeaderSize
    · rw [decide_eq_true full]
      dsimp only
      have whole : (ibuf ++ octets).take bgpHeaderSize = ibuf ++ octets := take_of_length_le atMost
      cases checked : checkHeader (ibuf ++ octets) with
      | error report =>
        refine ⟨⟨?_, fun impossible => nomatch impossible⟩, leads⟩
        dsimp only
        rw [← taken, ← append_assoc]
        unfold nextMessage
        rw [if_neg (by rw [length_append]; omega),
          take_append_of_le_length (Nat.le_of_eq full.symm), whole, checked,
          drop_left' full]
      | ok size =>
        have atLeast := (size_of_checkHeader checked).1
        rcases @readBody_spec ⟨ibuf ++ octets, size⟩ left (Nat.le_of_eq full.symm)
          (by dsimp only; omega) (by dsimp only; rw [whole, checked]) with ⟨body, later⟩
        have same : (ibuf ++ octets) ++ left.pending = ibuf ++ socket.pending := by
          rw [append_assoc, taken]
        unfold ReadsOn at body ⊢
        rw [same] at body
        refine ⟨body, fun prompt => ?_⟩
        rcases leads prompt with ⟨stays, fewer⟩
        exact (later stays).imp_right fun least => least.trans ((Nat.sub_le _ _).trans fewer)
    · rw [decide_eq_false full]
      refine ⟨⟨.header (by omega), ?_⟩, leads⟩
      rw [append_assoc, taken]
  cases waits with
  | fresh => exact ofHeader (by decide)
  | header short => exact ofHeader short
  | @body ibuf size header short checked =>
    have positive : size ≠ 0 := by omega
    unfold Quagga.Bgp.bgpRead
    simp only [positive, if_false, Nat.not_lt.mpr header]
    have body := @readBody_spec ⟨ibuf, size⟩ socket header (Nat.le_of_lt short) checked
    rwa [if_pos short] at body

end

/-! ## Connections of configured peers -/

/-- What is still to come makes, with what has been, the messages of the whole stream. -/
structure Connection.Follows (goesOn : List ReadEvent → Bool) (messages : List ReadEvent)
    (connection : Connection) : Prop where
  configured : connection.acceptPeer = false
  whileOpen : connection.isOpen = true → connection.reader.Waits ∧
    (framing goesOn).run (connection.trace, connection.reader.ibuf ++ connection.socket.pending) =
      messages
  closed : connection.isOpen = false → connection.trace = messages

section

variable {goesOn : List ReadEvent → Bool} {messages : List ReadEvent} {connection : Connection}

theorem follows_of_message {trace : List ReadEvent} {octets : Bytes} {event : ReadEvent}
    {next : Reader} {left : Socket} (message : nextMessage octets = some (event, left.pending))
    (cleared : event.isDispatch = true → next = Reader.fresh)
    (framed : (framing goesOn).run (trace, octets) = messages) :
    Connection.Follows goesOn messages ⟨false, next, left, trace ++ [event],
      event.isDispatch && goesOn (trace ++ [event])⟩ := by
  rw [framing_eq, message] at framed
  dsimp only at framed
  refine ⟨rfl, ?_, ?_⟩
  · intro further
    rw [if_pos further] at framed
    have fresh := cleared (Bool.and_eq_true_iff.mp further).1
    rw [fresh]
    exact ⟨.fresh, framed⟩
  · intro stops
    dsimp only at stops
    rw [stops] at framed
    exact framed

section

variable (follows : connection.Follows goesOn messages)
include follows

theorem Connection.Follows.readCall : (readCall goesOn connection).Follows goesOn messages := by
  unfold Quagga.Bgp.readCall
  cases isOpen : connection.isOpen with
  | false => simpa using follows
  | true =>
    rcases follows.whileOpen isOpen with ⟨waits, framed⟩
    have call := (waits.bgpRead connection.socket).1
    generalize bgpRead connection.reader connection.socket = result at call
    rcases result with ⟨_ | event, next, left⟩
    · refine ⟨follows.configured, fun _ => ⟨call.1, ?_⟩, ?_⟩
      · exact (congrArg (fun octets => (framing goesOn).run (connection.trace, octets))
          call.2).trans framed
      · simp [follows.configured]
    · have taken := follows_of_message call.1 call.2 framed
      cases event with
      | notify error data => exact taken
      | dispatch type body =>
        simpa [ReadEvent.isDispatch, follows.configured] using taken

theorem Connection.Follows.iterate (calls : Nat) :
    ((Quagga.Bgp.readCall goesOn)^[calls] connection).Follows goesOn messages := by
  induction calls generalizing connection with
  | zero => exact follows
  | succ calls induction => exact induction follows.readCall

theorem Connection.Follows.trace_eq (finished : connection.Finished) :
    connection.trace = messages := by
  cases isOpen : connection.isOpen with
  | false => exact follows.closed isOpen
  | true =>
    rcases follows.whileOpen isOpen with ⟨waits, framed⟩
    rcases finished with closed | nothing
    · rw [isOpen] at closed
      cases closed
    · rw [nothing, append_nil, framing_eq, waits.nextMessage_none] at framed
      exact framed

end

theorem follows_connect (stream : Bytes) (reads : List ReadResult) :
    (connect false stream reads).Follows goesOn ((framing goesOn).run ([], stream)) :=
  ⟨rfl, fun _ => ⟨.fresh, rfl⟩, fun impossible => nomatch impossible⟩

end

/-! ## Connections of accepted peers -/

/-- The reads of the first call deliver the first message as a whole, if there is one: its
header with the first read, and its body with the second. -/
def FirstReadsWhole (stream : Bytes) (reads : List ReadResult) : Prop :=
  match nextMessage stream with
  | none => True
  | some (.notify _ _, _) => ∃ more rest, reads = .upTo more :: rest ∧ bgpHeaderSize ≤ more + 1
  | some (.dispatch _ body, _) =>
    ∃ more rest, reads = .upTo more :: rest ∧ bgpHeaderSize ≤ more + 1 ∧
      (body = [] ∨ ∃ further last, rest = .upTo further :: last ∧ body.length ≤ further + 1)

section

variable {reader : Reader} {pending stream : Bytes} {reads : List ReadResult}

theorem bgpReadPacket_cases (missing : reader.ibuf.length < reader.packetSize)
    (delivered : reader.packetSize - reader.ibuf.length ≤ pending.length) :
    (∃ more rest, reads = .upTo more :: rest ∧
      reader.packetSize - reader.ibuf.length ≤ more + 1 ∧
      bgpReadPacket reader ⟨pending, reads⟩ = (true,
        { reader with
          ibuf := reader.ibuf ++ pending.take (reader.packetSize - reader.ibuf.length) },
        ⟨pending.drop (reader.packetSize - reader.ibuf.length), rest⟩)) ∨
    (¬ ∃ more rest, reads = .upTo more :: rest ∧
      reader.packetSize - reader.ibuf.length ≤ more + 1) ∧
      ∃ next left, bgpReadPacket reader ⟨pending, reads⟩ = (false, next, left) := by
  have notZero : ¬ reader.packetSize - reader.ibuf.length = 0 := by omega
  by_cases comes : ∃ more rest, reads = .upTo more :: rest ∧
      reader.packetSize - reader.ibuf.length ≤ more + 1
  · rcases comes with ⟨more, rest, rfl, enough⟩
    have full : (reader.ibuf ++ pending.take (reader.packetSize - reader.ibuf.length)).length =
        reader.packetSize := by
      rw [length_append, length_take]
      omega
    refine .inl ⟨more, rest, rfl, enough, ?_⟩
    simp only [bgpReadPacket, notZero, if_false, streamReadTry, Nat.min_eq_right enough, full,
      decide_true]
  · refine .inr ⟨comes, _, _, Prod.ext ?_ rfl⟩
    simp only [bgpReadPacket, notZero, if_false, decide_eq_false_iff_not, length_append]
    rcases reads with _ | ⟨_ | more, rest⟩
    · simp only [streamReadTry, length_nil]
      omega
    · simp only [streamReadTry, length_nil]
      omega
    · have less : ¬ reader.packetSize - reader.ibuf.length ≤ more + 1 := fun enough =>
        comes ⟨more, rest, rfl, enough⟩
      simp only [streamReadTry, length_take]
      omega

theorem readBody_isSome (header : bgpHeaderSize ≤ size) (delivered : size ≤ stream.length)
    (reads : List ReadResult) :
    (readBody ⟨stream.take bgpHeaderSize, size⟩ ⟨stream.drop bgpHeaderSize, reads⟩).1.isSome ↔
      size = bgpHeaderSize ∨ ∃ further last, reads = .upTo further :: last ∧
        size - bgpHeaderSize ≤ further + 1 := by
  have length : (stream.take bgpHeaderSize).length = bgpHeaderSize := by
    rw [length_take]
    omega
  unfold readBody
  by_cases only : size = bgpHeaderSize
  · have all : bgpReadPacket ⟨stream.take bgpHeaderSize, size⟩
        ⟨stream.drop bgpHeaderSize, reads⟩ =
        (true, ⟨stream.take bgpHeaderSize, size⟩, ⟨stream.drop bgpHeaderSize, reads⟩) := by
      simp [bgpReadPacket, length, only]
    rw [all]
    simp [only]
  · have missing : (stream.take bgpHeaderSize).length < size := by omega
    rcases @bgpReadPacket_cases ⟨stream.take bgpHeaderSize, size⟩ (stream.drop bgpHeaderSize)
      reads missing (by dsimp only; rw [length_drop]; omega) with
      ⟨further, last, rfl, enough, whole⟩ | ⟨comes, next, left, part⟩
    · rw [length] at enough
      rw [whole]
      simp only [Option.isSome_some, true_iff]
      exact .inr ⟨further, last, rfl, enough⟩
    · rw [length] at comes
      rw [part]
      simp only [Option.isSome_none, Bool.false_eq_true, false_iff, not_or]
      exact ⟨only, comes⟩

theorem firstCall_isSome {event : ReadEvent} (message : nextMessage stream = some (event, rest))
    (reads : List ReadResult) :
    (bgpRead Reader.fresh ⟨stream, reads⟩).1.isSome ↔ FirstReadsWhole stream reads := by
  have unread : 0 < bgpHeaderSize := by decide
  have long : bgpHeaderSize ≤ stream.length := by
    by_contra short
    unfold nextMessage at message
    rw [if_pos (by omega)] at message
    cases message
  unfold FirstReadsWhole
  rw [message]
  rcases @bgpReadPacket_cases ⟨[], bgpHeaderSize⟩ stream reads (by decide) long with
    ⟨more, last, rfl, enough, whole⟩ | ⟨comes, next, left, part⟩
  · simp only [bgpRead, Reader.fresh, if_true, length_nil, unread, whole, nil_append, Nat.sub_zero]
    unfold nextMessage at message
    rw [if_neg (by omega)] at message
    cases checked : checkHeader (stream.take bgpHeaderSize) with
    | error report =>
      rw [checked] at message
      cases Option.some.inj message
      simp only [Option.isSome_some, true_iff]
      exact ⟨more, last, rfl, enough⟩
    | ok size =>
      have header := (size_of_checkHeader checked).1
      rw [checked] at message
      dsimp only at message
      split at message
      · cases message
      · cases Option.some.inj message
        rw [readBody_isSome header (by omega) last]
        have empty : (stream.take size).drop bgpHeaderSize = [] ↔ size = bgpHeaderSize := by
          rw [← length_eq_zero_iff, length_drop, length_take]
          omega
        have length : ((stream.take size).drop bgpHeaderSize).length = size - bgpHeaderSize := by
          rw [length_drop, length_take]
          omega
        simp only [empty, length]
        constructor
        · exact fun body => ⟨more, last, rfl, enough, body⟩
        · intro first
          rcases first with ⟨_, _, same, _, body⟩
          cases same
          exact body
  · simp only [bgpRead, Reader.fresh, if_true, length_nil, unread, part, Option.isSome_none,
      Bool.false_eq_true, false_iff]
    cases event with
    | notify error data => exact comes
    | dispatch type body =>
      intro first
      rcases first with ⟨more, last, same, enough, _⟩
      exact comes ⟨more, last, same, enough⟩

end

/-- Only an OPEN makes a configured peer out of an accepted one. -/
def ReadEvent.isOpenMsg : ReadEvent → Bool
  | .dispatch type _ => type = 1
  | .notify _ _ => false

/-- The messages of an accepted peer's connection when nothing gets lost. -/
def acceptedMessages (goesOn : List ReadEvent → Bool) (stream : Bytes) : List ReadEvent :=
  match nextMessage stream with
  | none => []
  | some (event, rest) =>
    if event.isOpenMsg && goesOn [event] then (framing goesOn).run ([event], rest) else [event]

section

variable {goesOn : List ReadEvent → Bool} {stream : Bytes} {reads : List ReadResult}

theorem framing_ne_nil {trace : List ReadEvent} (nonempty : trace ≠ []) (octets : Bytes) :
    (framing goesOn).run (trace, octets) ≠ [] := by
  refine @Loop.run_invariant _ _ _ (framing goesOn) (fun state => state.1 ≠ [])
    (fun result => result ≠ []) ?_ ?_ (trace, octets) nonempty
  · intro state following _ taken
    simp only [framing] at taken
    split at taken
    · cases taken
    · split at taken <;> cases taken
      simp
  · intro state result nonempty taken
    simp only [framing] at taken
    split at taken
    · cases taken
      exact nonempty
    · split at taken <;> cases taken
      simp

theorem firstCall_none (nothing : (bgpRead Reader.fresh ⟨stream, reads⟩).1 = none) :
    (readCall goesOn (connect true stream reads)).isOpen = false ∧
      (readCall goesOn (connect true stream reads)).trace = [] := by
  unfold readCall connect
  generalize bgpRead Reader.fresh ⟨stream, reads⟩ = result at nothing
  rcases result with ⟨event?, next, left⟩
  cases nothing
  exact ⟨rfl, rfl⟩

theorem firstCall_some {event : ReadEvent}
    (taken : (bgpRead Reader.fresh ⟨stream, reads⟩).1 = some event) :
    (∃ rest, nextMessage stream = some (event, rest)) ∧
      (readCall goesOn (connect true stream reads)).Follows goesOn
        (acceptedMessages goesOn stream) := by
  have call := (Reader.Waits.fresh.bgpRead ⟨stream, reads⟩).1
  unfold readCall connect
  generalize bgpRead Reader.fresh ⟨stream, reads⟩ = result at taken call
  rcases result with ⟨event?, next, left⟩
  cases taken
  rcases call with ⟨message, cleared⟩
  have first : nextMessage stream = some (event, left.pending) := message
  refine ⟨⟨_, first⟩, ?_⟩
  rw [acceptedMessages, first]
  cases event with
  | notify error data => exact ⟨rfl, (fun impossible => nomatch impossible), fun _ => rfl⟩
  | dispatch type body =>
    have fresh : next = Reader.fresh := cleared rfl
    have order : (goesOn [.dispatch type body] && (!true || decide (type = 1))) =
        (ReadEvent.isOpenMsg (.dispatch type body) && goesOn [.dispatch type body]) := by
      rw [Bool.and_comm]
      rfl
    refine ⟨rfl, ?_, ?_⟩
    · intro further
      have opens := order.symm.trans further
      rw [fresh]
      dsimp only
      rw [if_pos opens]
      exact ⟨.fresh, rfl⟩
    · intro stops
      have closes := order.symm.trans stops
      dsimp only
      rw [closes]
      rfl

theorem iterate_of_closed {connection : Connection} (closed : connection.isOpen = false)
    (calls : Nat) : (readCall goesOn)^[calls] connection = connection := by
  have same : readCall goesOn connection = connection := by
    unfold readCall
    rw [closed]
    rfl
  exact Function.iterate_fixed same calls

theorem accepted_trace (finished : (readAll goesOn true stream reads).Finished) :
    (FirstReadsWhole stream reads →
      (readAll goesOn true stream reads).trace = acceptedMessages goesOn stream) ∧
    (¬ FirstReadsWhole stream reads → (readAll goesOn true stream reads).trace = []) := by
  unfold readAll at finished ⊢
  cases reads with
  | nil =>
    -- Without any read the connection is finished only if there was nothing to read.
    rcases finished with closed | nothing
    · cases closed
    · have empty : stream = [] := nothing
      subst empty
      exact ⟨fun _ => rfl, fun _ => rfl⟩
  | cons read rest =>
    rw [length_cons, Function.iterate_succ_apply] at finished ⊢
    cases taken : (bgpRead Reader.fresh ⟨stream, read :: rest⟩).1 with
    | none =>
      rcases @firstCall_none goesOn _ _ taken with ⟨closed, trace⟩
      rw [iterate_of_closed closed, trace]
      refine ⟨?_, fun _ => rfl⟩
      intro whole
      cases message : nextMessage stream with
      | none => rw [acceptedMessages, message]
      | some first =>
        have isSome := (firstCall_isSome message (read :: rest)).mpr whole
        rw [taken] at isSome
        cases isSome
    | some event =>
      rcases @firstCall_some goesOn _ _ _ taken with ⟨⟨later, message⟩, follows⟩
      refine ⟨fun _ => (follows.iterate rest.length).trace_eq finished, ?_⟩
      intro notWhole
      have isSome : (bgpRead Reader.fresh ⟨stream, read :: rest⟩).1.isSome := by rw [taken]; rfl
      exact absurd ((firstCall_isSome message (read :: rest)).mp isSome) notWhole

end

/-! ## Everything at once -/

section

variable {goesOn : List ReadEvent → Bool} {connection : Connection}

def Connection.Prompt (connection : Connection) (left : Nat) : Prop :=
  connection.isOpen = false ∨
    (connection.reader.Waits ∧ connection.socket.Prompt ∧ connection.socket.reads.length ≤ left)

theorem Connection.Prompt.readCall {left : Nat} (prompt : connection.Prompt left) :
    (readCall goesOn connection).Prompt (left - 1) := by
  unfold Quagga.Bgp.readCall
  cases isOpen : connection.isOpen with
  | false =>
    left
    simpa using isOpen
  | true =>
    rcases prompt with closed | ⟨waits, stays, atMost⟩
    · rw [isOpen] at closed
      cases closed
    · rcases waits.bgpRead connection.socket with ⟨call, leads⟩
      have fewer := leads stays
      generalize bgpRead connection.reader connection.socket = result at call fewer
      rcases result with ⟨_ | event, next, socket⟩
      · exact .inr ⟨call.1, fewer.1, fewer.2.trans (by omega)⟩
      · cases event with
        | notify error data => exact .inl rfl
        | dispatch type body =>
          refine .inr ⟨?_, fewer.1, fewer.2.trans (by omega)⟩
          rw [call.2 rfl]
          exact .fresh

theorem Connection.Prompt.iterate {left : Nat} (prompt : connection.Prompt left) (calls : Nat) :
    ((Quagga.Bgp.readCall goesOn)^[calls] connection).Prompt (left - calls) := by
  induction calls generalizing connection left with
  | zero => exact prompt
  | succ calls induction =>
    have once : (Quagga.Bgp.readCall goesOn connection).Prompt (left - 1) := prompt.readCall
    have later := induction once
    rw [Nat.sub_sub, Nat.add_comm] at later
    exact later

theorem finished_at_once (acceptPeer : Bool) (stream : Bytes) :
    (readAllAtOnce goesOn acceptPeer stream).Finished := by
  unfold readAllAtOnce readAll
  have prompt : (connect acceptPeer stream
      (List.replicate (stream.length + 1) (.upTo bgpMaxPacketSize))).Prompt
        (stream.length + 1) := by
    refine .inr ⟨.fresh, ⟨?_, ?_⟩, ?_⟩
    · intro read member same
      rw [eq_of_mem_replicate member] at same
      cases same
    · simp [connect]
    · simp [connect]
  have last := @Connection.Prompt.iterate goesOn _ _ prompt (stream.length + 1)
  rw [length_replicate]
  rcases last with closed | ⟨_, stays, none⟩
  · exact .inl closed
  · right
    apply eq_nil_of_length_eq_zero
    have enough := stays.enough
    omega

theorem firstReadsWhole_at_once (stream : Bytes) :
    FirstReadsWhole stream (List.replicate (stream.length + 1) (.upTo bgpMaxPacketSize)) := by
  unfold FirstReadsWhole
  split
  · trivial
  · exact ⟨_, _, replicate_succ, by decide⟩
  · rename_i type body rest message
    refine ⟨_, _, replicate_succ, by decide, ?_⟩
    revert message
    fun_cases nextMessage stream
    case case4 =>
      rename_i long size checked delivered
      intro message
      cases Option.some.inj message
      right
      have positive : stream.length = (stream.length - 1) + 1 := by
        unfold bgpHeaderSize at long
        omega
      have atMost := (size_of_checkHeader checked).2
      rw [positive]
      refine ⟨_, _, replicate_succ, ?_⟩
      rw [length_drop, length_take]
      omega
    all_goals exact nofun

theorem acceptedMessages_ne_nil {stream : Bytes} {event : ReadEvent}
    (message : nextMessage stream = some (event, rest)) : acceptedMessages goesOn stream ≠ [] := by
  rw [acceptedMessages, message]
  dsimp only
  split
  · exact framing_ne_nil (cons_ne_nil _ _) rest
  · exact cons_ne_nil _ _

/-- The messages do not depend on how the stream is cut into reads, unless the peer is an
accepted one: then the first call has to get the first message as a whole. -/
theorem segmentation_iff (acceptPeer : Bool) (stream : Bytes) (reads : List ReadResult)
    (finished : (readAll goesOn acceptPeer stream reads).Finished) :
    (readAll goesOn acceptPeer stream reads).trace =
        (readAllAtOnce goesOn acceptPeer stream).trace ↔
      (acceptPeer = true → FirstReadsWhole stream reads) := by
  have finishedAtOnce := @finished_at_once goesOn acceptPeer stream
  cases acceptPeer with
  | false =>
    have split := ((follows_connect stream reads).iterate reads.length).trace_eq finished
    have once := ((follows_connect stream _).iterate _).trace_eq finishedAtOnce
    unfold readAllAtOnce readAll
    rw [split, once]
    simp
  | true =>
    have once := (accepted_trace finishedAtOnce).1 (firstReadsWhole_at_once stream)
    rcases accepted_trace finished with ⟨whole, nothing⟩
    rw [readAllAtOnce, once]
    constructor
    · intro same _
      by_contra notWhole
      rw [nothing notWhole] at same
      cases message : nextMessage stream with
      | none =>
        apply notWhole
        rw [FirstReadsWhole, message]
        trivial
      | some first => exact acceptedMessages_ne_nil message same.symm
    · intro first
      exact whole (first rfl)

end

def smallOpen : Bytes := List.replicate 16 0xff ++ [0, 29, 1] ++ [4, 0, 100, 0, 180, 10, 0, 0, 1, 0]

theorem smallOpen_configured :
    (readAll (fun _ => true) false smallOpen [.upTo 4, .wouldBlock, .upTo 40, .upTo 40]).trace =
      (readAllAtOnce (fun _ => true) false smallOpen).trace :=
  (segmentation_iff false smallOpen _ (.inr (by decide +kernel))).mpr
    (fun impossible => nomatch impossible)

/-- An accepted peer is gone after a read of 18 octets, and the OPEN with it. -/
theorem smallOpen_accepted_lost :
    (readAll (fun _ => true) true smallOpen [.upTo 17, .upTo 40, .upTo 40]).Finished ∧
      (readAll (fun _ => true) true smallOpen [.upTo 17, .upTo 40, .upTo 40]).trace = [] ∧
      (readAllAtOnce (fun _ => true) true smallOpen).trace =
        [.dispatch 1 [4, 0, 100, 0, 180, 10, 0, 0, 1, 0]] :=
  ⟨.inl (by decide +kernel), by decide +kernel, by decide +kernel⟩

end Quagga.Bgp
