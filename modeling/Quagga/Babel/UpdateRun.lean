import Quagga.Babel.UpdateCodec

/-!
# Runs of the sender

The packets so far and the buffer hold, for the receiver, all the updates that were written. Each
message keeps this, and a flush moves what is pending into a packet of its own. A packet that the
token bucket stops is lost with its updates, but as many packets pass as there are tokens.
-/

namespace Quagga.Babel

open Foundation List

def Decodes (receiver : BabelReceiver) (packet : List UInt8) (updates : List RouteUpdate) : Prop :=
  ∀ uninitialised memory, Starts memory packet →
    (parsePacket receiver uninitialised memory packet.length).actions.filterMap routeUpdate? =
      updates

section

variable {receiver : BabelReceiver}

theorem decodes_of_reads {octets : List UInt8} {updates : List RouteUpdate}
    (isLinklocal : linklocal receiver.address) (bound : octets.length < 2 ^ 16)
    (reads : ∀ uninitialised, ∃ state,
      Reads receiver (ParseState.atStart uninitialised) octets state updates) :
    Decodes receiver (packetHeader octets ++ octets) updates := by
  intro uninitialised memory starts
  rcases reads uninitialised with ⟨state, reads⟩
  have header : (packetHeader octets).length = 4 := by simp [packetHeader]
  have long : 4 ≤ (packetHeader octets ++ octets).length := by
    rw [length_append]
    omega
  have magic : memory 0 = 42 := starts 0 (by omega)
  have version : memory 1 = 2 := starts 1 (by omega)
  have declared : shortAt memory 2 = octets.length := by
    apply shortAt_of_octets bound
    · simpa [packetHeader, bigEndian] using starts 2 (by omega)
    · simpa [packetHeader, bigEndian] using starts 3 (by omega)
  have body : Starts (packetBody memory) octets := by
    have after := starts.append.2
    exact after
  have length : bodyLength memory (packetHeader octets ++ octets).length = octets.length := by
    rw [bodyLength, length_append]
    omega
  have accepted : headerAccepted receiver memory := by
    simp [headerAccepted, isLinklocal, magic, version]
  rw [parsePacket, if_pos accepted, length]
  rcases reads.run body (Int.le_refl _) ⟨[.findNeighbour], [], [], []⟩ with ⟨after, run, sent⟩
  rw [run, packetLoop_eq, if_neg (by omega), sent]
  rfl

/-- The receiver of the buffer so far has what the sender takes it to have. -/
structure Mirrors (state : ParseState) (buffer : SendBuffer) : Prop where
  id : ∀ id, buffer.bufferedId? = some id → state.haveRouterId ∧ state.routerId = id
  nextHop : ∀ nh, buffer.bufferedNh? = some nh → state.haveV4Nh
  default : ∀ default, buffer.bufferedPrefix? = some default → state.haveV6Prefix ∧
    state.v6Prefix = default ∧ default.length = 16 ∧ v4mapped default = false

/-- The updates of each packet, with whether it was sent. Of the first `tokens` packets, each
was. -/
structure Delivers (receiver : BabelReceiver) (tokens : Nat) (buffer : SendBuffer)
    (groups : List (Bool × List RouteUpdate)) : Prop where
  decoded : List.Forall₂ (Decodes receiver) buffer.packets ((groups.filter (·.1)).map (·.2))
  first : ∀ group ∈ groups.take tokens, group.1 = true
  left : groups.length < tokens → tokens ≤ groups.length + buffer.bucket

def Holds (receiver : BabelReceiver) (tokens : Nat) (buffer : SendBuffer)
    (updates : List RouteUpdate) : Prop :=
  ∃ groups pending, Delivers receiver tokens buffer groups ∧
    (∀ uninitialised, ∃ state,
      Reads receiver (ParseState.atStart uninitialised) buffer.buffered state pending ∧
        Mirrors state buffer) ∧
    (groups.map (·.2)).flatten ++ pending = updates

variable {sender : BabelSender} {buffer after : SendBuffer} {updates own : List RouteUpdate}
  {update : BabelUpdate} {tokens : Nat}

theorem mirrors_flushed {state : ParseState} (id : buffer.bufferedId? = none)
    (nextHop : buffer.bufferedNh? = none) (default : buffer.bufferedPrefix? = none) :
    Mirrors state buffer := by
  constructor <;> simp [id, nextHop, default]

theorem holds_empty (receiver : BabelReceiver) (bucket : Nat) (bucketTime : Int) :
    Holds receiver bucket (.empty bucket bucketTime) [] := by
  refine ⟨[], [], ⟨.nil, ?_, fun _ => Nat.le_add_left _ _⟩, ?_, rfl⟩
  · simp
  · intro uninitialised
    exact ⟨_, .nil, mirrors_flushed rfl rfl rfl⟩

theorem Holds.message {type len : UInt8} {value : List UInt8}
    (holds : Holds receiver tokens buffer updates) (packets : after.packets = buffer.packets)
    (bucket : after.bucket = buffer.bucket)
    (octets : after.buffered = buffer.buffered ++ (type :: len :: value))
    (reads : ∀ state, Mirrors state buffer → ∃ next,
      TlvReads receiver state type len value next own ∧ Mirrors next after) :
    Holds receiver tokens after (updates ++ own) := by
  rcases holds with ⟨groups, pending, delivers, buffered, all⟩
  refine ⟨groups, pending ++ own, ?_, ?_, ?_⟩
  · exact ⟨packets ▸ delivers.decoded, delivers.first, bucket ▸ delivers.left⟩
  · intro uninitialised
    rcases buffered uninitialised with ⟨state, before, mirrors⟩
    rcases reads state mirrors with ⟨next, tlv, mirrored⟩
    exact ⟨next, octets ▸ .tlv before tlv, mirrored⟩
  · rw [← append_assoc, all]

theorem Holds.forget (holds : Holds receiver tokens buffer updates)
    (packets : after.packets = buffer.packets) (bucket : after.bucket = buffer.bucket)
    (octets : after.buffered = buffer.buffered)
    (weaker : ∀ state, Mirrors state buffer → Mirrors state after) :
    Holds receiver tokens after updates := by
  rcases holds with ⟨groups, pending, delivers, buffered, all⟩
  refine ⟨groups, pending, ?_, ?_, all⟩
  · exact ⟨packets ▸ delivers.decoded, delivers.first, bucket ▸ delivers.left⟩
  · intro uninitialised
    rcases buffered uninitialised with ⟨state, before, mirrors⟩
    exact ⟨state, octets ▸ before, weaker state mirrors⟩

theorem Reads.eq_nil {start state : ParseState} (reads : Reads receiver start [] state updates) :
    updates = [] := by
  generalize empty : ([] : List UInt8) = octets at reads
  cases reads with
  | nil => rfl
  | tlv => simp at empty

theorem checkBucket_spec (buffer : SendBuffer) :
    ((checkBucket buffer).1 = true ∨ buffer.bucket = 0) ∧
      buffer.bucket ≤ (checkBucket buffer).2.bucket + 1 := by
  by_cases none : buffer.bucket = 0
  · exact ⟨.inr none, by omega⟩
  · have full : 0 < buffer.bucket := Nat.pos_of_ne_zero none
    have kept : buffer.refill = buffer := if_neg none
    simp only [checkBucket, kept, if_pos full, true_or, true_and]
    omega

/-- A packet is sent if the bucket had a token, and may be lost otherwise. -/
theorem Delivers.packet {sends : Bool} {octets : List UInt8} {pending : List RouteUpdate}
    {groups : List (Bool × List RouteUpdate)} (delivers : Delivers receiver tokens buffer groups)
    (decodes : Decodes receiver octets pending)
    (packets : after.packets = if sends then buffer.packets ++ [octets] else buffer.packets)
    (token : sends = true ∨ buffer.bucket = 0) (spent : buffer.bucket ≤ after.bucket + 1) :
    Delivers receiver tokens after (groups ++ [(sends, pending)]) := by
  have left := delivers.left
  constructor
  · rw [packets, filter_append, map_append]
    cases sends with
    | false => simpa using delivers.decoded
    | true => exact rel_append delivers.decoded (.cons decodes .nil)
  · by_cases earlier : groups.length < tokens
    · have sent : sends = true := token.resolve_right (by omega)
      rw [take_of_length_le (by rw [length_append, length_singleton]; omega)]
      intro group member
      rcases mem_append.mp member with old | new
      · exact delivers.first group (by rwa [take_of_length_le (by omega)])
      · rw [mem_singleton.mp new]
        exact sent
    · rw [take_append_of_le_length (by omega)]
      exact delivers.first
  · rw [length_append, length_singleton]
    omega

theorem flushbuf_holds (isLinklocal : linklocal receiver.address)
    (fits : buffer.buffered.length ≤ sender.bufsize)
    (holds : Holds receiver tokens buffer updates) :
    ∃ after, flushbuf sender buffer = .ok after ∧ Holds receiver tokens after updates ∧
      after.buffered = [] := by
  rcases holds with ⟨groups, pending, delivers, buffered, all⟩
  have bound := sender.bufsizeBound
  rw [flushbuf, if_neg (by omega)]
  split
  next none =>
    refine ⟨_, rfl, ⟨groups, [], ?_, ?_, ?_⟩, rfl⟩
    · exact ⟨delivers.decoded, delivers.first, delivers.left⟩
    · exact fun _ => ⟨_, .nil, mirrors_flushed rfl rfl rfl⟩
    · rcases buffered someBuffers with ⟨_, reads, _⟩
      rw [none] at reads
      rwa [reads.eq_nil] at all
  next =>
    have decodes : Decodes receiver (packetHeader buffer.buffered ++ buffer.buffered) pending := by
      apply decodes_of_reads isLinklocal (by omega)
      intro uninitialised
      rcases buffered uninitialised with ⟨state, reads, _⟩
      exact ⟨state, reads⟩
    have bucket := checkBucket_spec buffer
    refine ⟨_, rfl, ⟨groups ++ [((checkBucket buffer).1, pending)], [], ?_, ?_, ?_⟩, rfl⟩
    · exact delivers.packet decodes rfl bucket.1 bucket.2
    · exact fun _ => ⟨_, .nil, mirrors_flushed rfl rfl rfl⟩
    · simpa using all

theorem ensureSpace_holds (isLinklocal : linklocal receiver.address) {space : Nat}
    (roomy : space ≤ sender.bufsize) (fits : buffer.buffered.length ≤ sender.bufsize)
    (holds : Holds receiver tokens buffer updates) :
    ∃ after, ensureSpace sender buffer space = .ok after ∧ Holds receiver tokens after updates ∧
      after.buffered.length + space ≤ sender.bufsize := by
  unfold ensureSpace
  split
  next =>
    rcases flushbuf_holds isLinklocal fits holds with ⟨after, flushed, kept, empty⟩
    exact ⟨after, flushed, kept, by simpa [empty] using roomy⟩
  next room => exact ⟨buffer, rfl, holds, by omega⟩

/-! ## One update -/

theorem sendNextHop_holds {ipv4 : List UInt8} (length : update.isV4 → ipv4.length = 4)
    (room : buffer.buffered.length + 8 ≤ sender.bufsize)
    (holds : Holds receiver tokens buffer updates) :
    ∃ after, sendNextHop sender update buffer ipv4 = .ok after ∧
      Holds receiver tokens after updates ∧
      after.buffered.length ≤ buffer.buffered.length + 8 ∧
      (update.isV4 → after.bufferedNh?.isSome) := by
  unfold sendNextHop
  split
  next missing =>
    have length := length missing.1
    rw [sendMessage_of_room (by decide) (by decide) (by simp [length]) room]
    refine ⟨_, rfl, ?_, by simp [length], fun _ => rfl⟩
    rw [← append_nil updates]
    refine holds.message rfl rfl rfl ?_
    intro state mirrors
    refine ⟨_, nextHop_reads length state, ?_, ?_, ?_⟩
    · exact mirrors.id
    · exact fun _ _ => rfl
    · exact mirrors.default
  next already =>
    rw [not_and, not_not] at already
    exact ⟨buffer, rfl, holds, by omega, fun isV4 => already isV4 ▸ rfl⟩

def beforeUpdate (carries : Bool) (buffer : SendBuffer) : SendBuffer :=
  if carries then { buffer with bufferedId? := none } else buffer

section

variable (carries : Bool) (buffer : SendBuffer)

@[simp] theorem beforeUpdate_buffered :
    (beforeUpdate carries buffer).buffered = buffer.buffered := by
  cases carries <;> rfl

@[simp] theorem beforeUpdate_packets : (beforeUpdate carries buffer).packets = buffer.packets := by
  cases carries <;> rfl

@[simp] theorem beforeUpdate_bucket : (beforeUpdate carries buffer).bucket = buffer.bucket := by
  cases carries <;> rfl

@[simp] theorem beforeUpdate_bufferedNh :
    (beforeUpdate carries buffer).bufferedNh? = buffer.bufferedNh? := by
  cases carries <;> rfl

@[simp] theorem beforeUpdate_bufferedPrefix :
    (beforeUpdate carries buffer).bufferedPrefix? = buffer.bufferedPrefix? := by
  cases carries <;> rfl

end

theorem sendRouterId_holds (room : buffer.buffered.length + 12 ≤ sender.bufsize)
    (holds : Holds receiver tokens buffer updates) :
    ∃ after, sendRouterId sender update buffer = .ok after ∧
      Holds receiver tokens (beforeUpdate (carriesId update buffer) after) updates ∧
      after.buffered.length ≤ buffer.buffered.length + 12 ∧
      after.bufferedId? = some update.id ∧ after.bufferedNh? = buffer.bufferedNh? ∧
      after.bufferedPrefix? = buffer.bufferedPrefix? := by
  unfold sendRouterId
  split
  next held =>
    have apart : carriesId update buffer = false := by simp [carriesId, held]
    rw [apart]
    exact ⟨buffer, rfl, holds, by omega, held, rfl, rfl⟩
  next =>
    split
    next carries =>
      refine ⟨_, rfl, ?_, by simp, rfl, rfl, rfl⟩
      rw [carries]
      refine holds.forget rfl rfl rfl ?_
      intro state mirrors
      exact ⟨fun _ held => (nomatch held), mirrors.nextHop, mirrors.default⟩
    next apart =>
      rw [sendMessage_of_room (by decide) (by decide) (by simp [update.idLength]) room]
      refine ⟨_, rfl, ?_, by simp [update.idLength], rfl, rfl, rfl⟩
      rw [Bool.not_eq_true] at apart
      rw [apart, ← append_nil updates]
      refine holds.message rfl rfl rfl ?_
      intro state mirrors
      refine ⟨_, routerId_reads update.idLength state, ?_, mirrors.nextHop, mirrors.default⟩
      intro id same
      exact ⟨rfl, Option.some.inj same⟩

theorem omitCount_spec (update : BabelUpdate) (buffer : SendBuffer) :
    omitCount update buffer ≤ update.realPlen / 8 ∧ (update.isV4 → omitCount update buffer = 0) ∧
      (omitCount update buffer ≠ 0 → ∃ default, buffer.bufferedPrefix? = some default ∧
        default.take (omitCount update buffer) =
          update.network.take (omitCount update buffer)) := by
  unfold omitCount
  cases isV4 : update.isV4 with
  | true => simp
  | false =>
    have realPlen : update.realPlen = update.plen := by
      rw [BabelUpdate.realPlen, if_neg (by simp [isV4])]
    rw [realPlen]
    cases held : buffer.bufferedPrefix? with
    | none => simp
    | some default =>
      refine ⟨commonOctets_le _ _ _, by simp, ?_⟩
      intro _
      exact ⟨default, rfl, take_commonOctets _ _ _⟩

theorem elides_of_mirrors {state : ParseState} {carries : Bool}
    (mirrors : Mirrors state (beforeUpdate carries buffer))
    (held : buffer.bufferedId? = some update.id) (nextHop : update.isV4 → buffer.bufferedNh?.isSome)
    (carried : carries → update.realPlen = 128 ∧ update.realPrefix.drop 8 = update.id) :
    Elides state update (setsDefault update buffer) carries (omitCount update buffer) := by
  have octets := omitCount_spec update buffer
  refine ⟨octets.1, octets.2.1, ?_, carried, ?_, ?_, ?_⟩
  · intro omits
    rcases octets.2.2 omits with ⟨default, buffered, agrees⟩
    rcases mirrors.default default (by simpa using buffered) with ⟨known, rfl, length, notMapped⟩
    exact ⟨known, length, notMapped, agrees⟩
  · intro apart
    subst apart
    exact mirrors.id update.id held
  · intro sets
    simp only [setsDefault, Bool.and_eq_true, Bool.not_eq_true'] at sets
    exact sets.1
  · intro isV4
    rcases Option.isSome_iff_exists.mp (nextHop isV4) with ⟨nh, buffered⟩
    exact mirrors.nextHop nh (by simpa using buffered)

theorem setsDefault_network (sets : setsDefault update buffer) :
    v4mapped update.network = false := by
  simp only [setsDefault, Bool.and_eq_true] at sets
  by_cases short : update.plen < 96
  · exact not_v4mapped_of_masked update.masked update.networkLength short
  · have isV6 := sets.1
    have long : 96 ≤ update.plen := by omega
    simpa [BabelUpdate.isV4, long] using isV6

def afterUpdate (sender : BabelSender) (update : BabelUpdate) (carries : Bool)
    (buffer : SendBuffer) : SendBuffer :=
  { buffer with
    buffered := buffer.buffered ++
      ([UInt8.ofNat 8, UInt8.ofNat (updateLen sender update (omitCount update buffer))] ++
        updateValue sender update (flagsOf (setsDefault update buffer) carries)
          (omitCount update buffer))
    bufferedPrefix? :=
      if setsDefault update buffer then some update.network else buffer.bufferedPrefix? }

theorem afterUpdate_holds {carries : Bool} (hasIpv4 : receiver.hasIpv4)
    (holds : Holds receiver tokens (beforeUpdate carries buffer) updates)
    (held : buffer.bufferedId? = some update.id) (nextHop : update.isV4 → buffer.bufferedNh?.isSome)
    (carried : carries → update.realPlen = 128 ∧ update.realPrefix.drop 8 = update.id) :
    Holds receiver tokens (afterUpdate sender update carries buffer)
      (updates ++ [routeUpdateOf sender update]) := by
  refine holds.message (by rw [beforeUpdate_packets]; rfl) (by rw [beforeUpdate_bucket]; rfl)
    (by rw [beforeUpdate_buffered]; rfl) ?_
  intro state mirrors
  have elides := elides_of_mirrors mirrors held nextHop carried
  refine ⟨_, update_reads hasIpv4 elides, ?_⟩
  rw [notedUpdate_eq elides]
  refine ⟨?_, ?_, ?_⟩
  · intro id same
    rw [afterUpdate, held] at same
    exact ⟨rfl, Option.some.inj same⟩
  · intro nh buffered
    exact mirrors.nextHop nh (by simpa [afterUpdate] using buffered)
  · intro default buffered
    dsimp only [afterUpdate] at buffered ⊢
    split at buffered
    next sets =>
      cases buffered
      rw [sets]
      exact ⟨rfl, rfl, update.networkLength, setsDefault_network sets⟩
    next keeps =>
      rcases mirrors.default default (by simpa using buffered) with ⟨known, same⟩
      rw [if_neg keeps, known]
      exact ⟨Bool.or_true _, same⟩

theorem carriesId_spec (carries : carriesId update buffer) :
    update.realPlen = 128 ∧ update.realPrefix.drop 8 = update.id := by
  simp only [carriesId, Bool.and_eq_true, decide_eq_true_eq] at carries
  exact ⟨carries.1.2, carries.2⟩

theorem sendMessage_afterUpdate {carries : Bool}
    (room : buffer.buffered.length + 38 ≤ sender.bufsize) :
    (do
      let buffer' ← sendMessage sender buffer 8 (updateLen sender update (omitCount update buffer))
        (updateValue sender update (flagsOf (setsDefault update buffer) carries)
          (omitCount update buffer))
      return if setsDefault update buffer then
          { buffer' with bufferedPrefix? := some update.network }
        else buffer' : SendRun SendBuffer) = .ok (afterUpdate sender update carries buffer) := by
  have len := updateLen_le sender update (omitCount update buffer)
  have length : (updateValue sender update (flagsOf (setsDefault update buffer) carries)
      (omitCount update buffer)).length = updateLen sender update (omitCount update buffer) :=
    length_updateValue (omitCount_spec update buffer).1 _
  rw [sendMessage_of_room (by decide) (by omega) length (by omega)]
  rw [afterUpdate]
  split <;> rfl

theorem writeUpdate_holds {ipv4 : List UInt8} (hasIpv4 : receiver.hasIpv4)
    (length : update.isV4 → ipv4.length = 4) (room : buffer.buffered.length + 60 ≤ sender.bufsize)
    (holds : Holds receiver tokens buffer updates) :
    ∃ after, writeUpdate sender update buffer ipv4 = .ok after ∧
      after.buffered.length ≤ sender.bufsize ∧
      Holds receiver tokens after (updates ++ [routeUpdateOf sender update]) := by
  have roomNextHop : buffer.buffered.length + 8 ≤ sender.bufsize := by omega
  rcases sendNextHop_holds length roomNextHop holds with
    ⟨first, next, firstHolds, firstLength, known⟩
  have roomId : first.buffered.length + 12 ≤ sender.bufsize := by omega
  rcases sendRouterId_holds roomId firstHolds with
    ⟨second, sent, secondHolds, secondLength, held, sameNh, samePrefix⟩
  have omitted : omitCount update first = omitCount update second := by
    rw [omitCount, omitCount, samePrefix]
  have default : setsDefault update first = setsDefault update second := by
    rw [setsDefault, setsDefault, samePrefix]
  have flags : updateFlags update first =
      flagsOf (setsDefault update second) (carriesId update first) := by
    rw [updateFlags, flagsOf, default]
  refine ⟨afterUpdate sender update (carriesId update first) second, ?_, ?_, ?_⟩
  · rw [writeUpdate, next]
    change (sendRouterId sender update first >>= _) = _
    rw [sent, omitted, flags, default]
    exact sendMessage_afterUpdate (by omega)
  · have len := updateLen_le sender update (omitCount update second)
    simp only [afterUpdate, length_append, length_cons, length_nil,
      length_updateValue (omitCount_spec update second).1]
    omega
  · exact afterUpdate_holds hasIpv4 secondHolds held (sameNh ▸ known) carriesId_spec

theorem reallySendUpdate_holds (isLinklocal : linklocal receiver.address)
    (hasIpv4 : receiver.hasIpv4) (fits : buffer.buffered.length ≤ sender.bufsize)
    (holds : Holds receiver tokens buffer updates) (update : BabelUpdate) :
    ∃ after, reallySendUpdate sender update buffer = .ok after ∧
      after.buffered.length ≤ sender.bufsize ∧
      Holds receiver tokens after (updates ++
        if isWritten sender update then [routeUpdateOf sender update] else []) := by
  have roomy := sender.room
  unfold reallySendUpdate
  split
  next dropped =>
    have notWritten : isWritten sender update = false := by
      rcases dropped with down | filtered
      · simp [isWritten, down]
      · simp [isWritten, Nat.not_lt.mpr filtered]
    exact ⟨buffer, rfl, fits, by simpa [notWritten] using holds⟩
  next passed =>
    rcases ensureSpace_holds isLinklocal (by omega : 60 ≤ sender.bufsize) fits holds with
      ⟨spaced, ensured, spacedHolds, spacedFits⟩
    rw [ensured]
    split
    next noAddress =>
      have notWritten : isWritten sender update = false := by
        simp [isWritten, noAddress.1, noAddress.2]
      exact ⟨spaced, rfl, by omega, by simpa [notWritten] using spacedHolds⟩
    next addressed =>
      have written : isWritten sender update := by
        simp only [not_or, Bool.not_eq_false, not_le] at passed
        rw [isWritten, passed.1, decide_eq_true passed.2]
        cases isV4 : update.isV4 with
        | true =>
          simpa [Option.isSome_iff_ne_none] using fun none => addressed ⟨isV4, none⟩
        | false => rfl
      have length : update.isV4 → (sender.ipv4?.getD []).length = 4 := by
        intro isV4
        cases address : sender.ipv4? with
        | none => exact absurd ⟨isV4, address⟩ addressed
        | some ipv4 => exact sender.ipv4Length ipv4 address
      rw [if_pos written]
      exact writeUpdate_holds hasIpv4 length spacedFits spacedHolds

end

/-! ## Runs -/

def writtenUpdates (sender : BabelSender) : List SendEvent → List RouteUpdate
  | [] => []
  | .update _ update :: events =>
    (if isWritten sender update then [routeUpdateOf sender update] else []) ++
      writtenUpdates sender events
  | .flush _ :: events => writtenUpdates sender events

section

variable {receiver : BabelReceiver} {sender : BabelSender} {tokens : Nat}

theorem Holds.atTime {buffer : SendBuffer} {updates : List RouteUpdate}
    (holds : Holds receiver tokens buffer updates) (babelNow : Int) :
    Holds receiver tokens { buffer with babelNow } updates := by
  refine holds.forget rfl rfl rfl ?_
  intro state mirrors
  exact ⟨mirrors.id, mirrors.nextHop, mirrors.default⟩

theorem sendEvents_holds (isLinklocal : linklocal receiver.address) (hasIpv4 : receiver.hasIpv4)
    (events : List SendEvent) (last : Int) {buffer : SendBuffer} {updates : List RouteUpdate}
    (fits : buffer.buffered.length ≤ sender.bufsize)
    (holds : Holds receiver tokens buffer updates) :
    ∃ after, sendEvents sender buffer (events ++ [.flush last]) = .ok after ∧
      after.buffered = [] ∧
      Holds receiver tokens after (updates ++ writtenUpdates sender events) := by
  induction events generalizing buffer updates with
  | nil =>
    rcases flushbuf_holds isLinklocal (by exact fits) (holds.atTime last) with
      ⟨after, sent, afterHolds, empty⟩
    refine ⟨after, ?_, empty, by simpa [writtenUpdates] using afterHolds⟩
    rw [nil_append, sendEvents, sendEvent, sent]
    rfl
  | cons event events induction =>
    cases event with
    | update babelNow update =>
      rcases reallySendUpdate_holds isLinklocal hasIpv4 (by exact fits) (holds.atTime babelNow)
        update with ⟨middle, sent, middleFits, middleHolds⟩
      rcases induction middleFits middleHolds with ⟨after, run, empty, afterHolds⟩
      refine ⟨after, ?_, empty, ?_⟩
      · rw [cons_append, sendEvents, sendEvent, sent]
        exact run
      · rw [writtenUpdates, ← append_assoc]
        exact afterHolds
    | flush babelNow =>
      rcases flushbuf_holds isLinklocal (by exact fits) (holds.atTime babelNow) with
        ⟨middle, sent, middleHolds, flushed⟩
      rcases induction (by simp [flushed]) middleHolds with ⟨after, run, empty, afterHolds⟩
      refine ⟨after, ?_, empty, afterHolds⟩
      rw [cons_append, sendEvents, sendEvent, sent]
      exact run

end

def someSender : BabelSender where
  isUp := true
  ipv4? := some [192, 0, 2, 1]
  ipv4Length := by
    intro ipv4 same
    cases same
    rfl
  bufsize := 1000
  room := by decide
  bufsizeBound := by decide
  updateInterval := 2000
  diversityChannel := false
  outputFilter _ _ _ := 10

def someUpdate (network : List UInt8) (plen : Nat) (length : network.length = 16)
    (bound : plen ≤ 128) (masked : maskPrefix network plen = network) : BabelUpdate where
  id := [1, 2, 3, 4, 5, 6, 7, 8]
  network := network
  plen := plen
  seqno := 7
  metric := 96
  channels? := none
  idLength := rfl
  networkLength := length
  plenBound := bound
  masked := masked
  seqnoBound := by decide
  metricBound := by decide
  channelsBound := by
    intro channels same
    cases same

def someV6 : BabelUpdate :=
  someUpdate [0x20, 0x01, 0x0D, 0xB8, 0, 1, 0, 0, 0, 0, 0, 0, 0, 0, 0, 0] 48 rfl (by decide)
    (by decide +kernel)

def someV4 : BabelUpdate :=
  someUpdate [0, 0, 0, 0, 0, 0, 0, 0, 0, 0, 0xFF, 0xFF, 10, 0, 0, 0] 104 rfl (by decide)
    (by decide +kernel)

def someEvents : List SendEvent :=
  [.update 0 someV6, .update 0 someV4, .flush 0, .update 1 someV6]

/-- Each update is flushed on its own, all in one second. -/
def busySecond (count : Nat) : List SendEvent :=
  (replicate count [.update 0 someV6, .flush 0]).flatten

def somePacket : List UInt8 :=
  let buffered := [6, 10, 0, 0] ++ someV6.id ++ [8, 16] ++ updateValue someSender someV6 0x80 0
  packetHeader buffered ++ buffered

theorem length_of_somePackets {groups : List (List RouteUpdate)} {count : Nat}
    (decoded : List.Forall₂ (Decodes someReceiver) (replicate count somePacket) groups) :
    groups.flatten.length = count := by
  induction count generalizing groups with
  | zero =>
    cases decoded
    rfl
  | succ count induction =>
    rcases decoded with _ | ⟨decodes, rest⟩
    rename_i group groups
    have starts : Starts (somePacket.getD · 0) somePacket := fun _ _ => rfl
    have one : group.length = 1 := by
      rw [← decodes someBuffers _ starts]
      decide +kernel
    rw [flatten_cons, length_append, one, induction rest, Nat.add_comm]

end Quagga.Babel
