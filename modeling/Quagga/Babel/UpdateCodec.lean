import Quagga.Babel.MessageSound
import Quagga.Babel.Send
import Mathlib.Data.List.GetD
import Mathlib.Data.List.TakeDrop
import Mathlib.Data.List.Forall2

/-!
# Babel updates survive the wire

The sender leaves out what its buffer already holds, and the receiver has kept exactly that. While
an update is written the buffer is not flushed, because room for all its messages was made before.
-/

namespace Quagga.Babel

open Foundation List Option Nat

/-! ## Masks -/

theorem maskPrefix_congr {first second : List UInt8} {plen : Nat} (short : plen ≤ 128)
    (firstLength : first.length = 16) (secondLength : second.length = 16)
    (agree : first.take ((plen + 7) / 8) = second.take ((plen + 7) / 8)) :
    maskPrefix first plen = maskPrefix second plen := by
  unfold maskPrefix
  split
  next whole =>
    rw [take_of_length_le (by omega), take_of_length_le (by omega)] at agree
    exact agree
  next =>
    have shorter : first.take (plen / 8) = second.take (plen / 8) := by
      have cut := congrArg (List.take (plen / 8)) agree
      rw [take_take, take_take, min_eq_left (by omega)] at cut
      exact cut
    split
    next => rw [shorter]
    next partly =>
      have octet : first.getD (plen / 8) 0 = second.getD (plen / 8) 0 := by
        have inside : plen / 8 < (plen + 7) / 8 := by omega
        rw [getD_eq_getElem?_getD, getD_eq_getElem?_getD,
          ← getElem?_take_of_lt inside, agree, getElem?_take_of_lt inside]
      rw [shorter, octet]

theorem maskOctet_ne {plen : Nat} (partly : plen % 8 ≠ 0) (octet : UInt8) :
    octet &&& UInt8.ofNat ((0xFF <<< (8 - plen % 8)) &&& 0xFF) ≠ 0xFF := by
  have small : ∀ bits < 8, bits ≠ 0 →
      (UInt8.ofNat ((0xFF <<< (8 - bits)) &&& 0xFF)).toNat < 255 := by
    decide
  have below := small (plen % 8) (mod_lt _ (by decide)) partly
  intro full
  have value := congrArg UInt8.toNat full
  exact not_le.mpr below (value.symm.le.trans and_le_right)

theorem not_v4mapped_of_masked {network : List UInt8} {plen : Nat}
    (masked : maskPrefix network plen = network) (length : network.length = 16)
    (short : plen < 96) : v4mapped network = false := by
  rw [v4mapped, decide_eq_false_iff_not]
  intro mapped
  have last : network[11]? = some 0xFF := by
    have cut := congrArg (fun octets => octets[11]?) mapped
    simpa [v4PrefixOctets] using cut
  rw [← masked, maskPrefix, if_neg (by omega)] at last
  have inside : (network.take (plen / 8)).length = plen / 8 := by
    rw [length_take]
    omega
  split at last
  next =>
    rw [getElem?_append_right (by omega), getElem?_replicate] at last
    split at last <;> cases last
  next partly =>
    rw [append_assoc, getElem?_append_right (by omega), inside] at last
    cases offset : 11 - plen / 8 with
    | zero =>
      rw [offset] at last
      exact maskOctet_ne partly _ (Option.some.inj last)
    | succ rest =>
      rw [offset, singleton_append, getElem?_cons_succ, getElem?_replicate] at last
      split at last <;> cases last

/-! ## Common octets -/

theorem commonOctets_le (limit : Nat) (first second : List UInt8) :
    commonOctets limit first second ≤ limit := by
  fun_induction commonOctets limit first second with
  | case1 limit first second octet induction => exact succ_le_succ induction
  | case2 | case3 => exact zero_le _

theorem take_commonOctets (limit : Nat) (first second : List UInt8) :
    first.take (commonOctets limit first second) =
      second.take (commonOctets limit first second) := by
  fun_induction commonOctets limit first second with
  | case1 limit first second octet induction => rw [take_succ_cons, take_succ_cons, induction]
  | case2 => rfl
  | case3 => rfl

/-! ## Messages in the buffer -/

theorem toNat_octet {value : Nat} (bound : value < 256) : (UInt8.ofNat value).toNat = value := by
  exact mod_eq_of_lt bound

section

variable {sender : BabelSender} {buffer : SendBuffer}

theorem sendMessage_of_room {type len : Nat} {value : List UInt8} (typeBound : type < 256)
    (lenBound : len < 256) (length : value.length = len)
    (room : buffer.buffered.length + (len + 2) ≤ sender.bufsize) :
    sendMessage sender buffer type len value = .ok { buffer with
      buffered := buffer.buffered ++ ([UInt8.ofNat type, UInt8.ofNat len] ++ value) } := by
  let started := buffer.buffered ++ [UInt8.ofNat type, UInt8.ofNat len]
  have enough : ensureSpace sender buffer (len + 2) = .ok buffer := by
    rw [ensureSpace, if_neg (not_lt.mpr room)]
  have headed : accumulateBytes sender buffer [UInt8.ofNat type, UInt8.ofNat len] =
      .ok { buffer with buffered := started } := by
    rw [accumulateBytes, if_neg (by simp; omega)]
  have filled : accumulateBytes sender { buffer with buffered := started } value =
      .ok { buffer with buffered := started ++ value } := by
    rw [accumulateBytes, if_neg (by simp [started]; omega)]
  have total : (started ++ value).length = buffer.buffered.length + 2 + len := by
    simp [started]
    omega
  have typeIndex : buffer.buffered.length + 2 + len - len - 2 = buffer.buffered.length := by omega
  have lenIndex : buffer.buffered.length + 2 + len - len - 1 = buffer.buffered.length + 1 := by
    omega
  simp only [sendMessage, bind, Except.bind, startMessage, enough, headed, filled, endMessage,
    total, typeIndex, lenIndex]
  have ended : len + 2 ≤ buffer.buffered.length + 2 + len ∧
      ((started ++ value).getD buffer.buffered.length 0).toNat = type ∧
      ((started ++ value).getD (buffer.buffered.length + 1) 0).toNat = len := by
    refine ⟨by omega, ?_, ?_⟩
    · simpa [started] using toNat_octet typeBound
    · simpa [started] using toNat_octet lenBound
  rw [if_pos ended, append_assoc]

end

/-! ## What the receiver makes of the buffer -/

/-- The arguments of `update_route` that the sender decides on. -/
structure RouteUpdate where
  id : List UInt8
  network : List UInt8
  plen : Nat
  seqno : Nat
  metric : Nat
deriving Repr, DecidableEq

def routeUpdate? : BabelAction → Option RouteUpdate
  | .updateRoute id network plen seqno metric _ _ _ => some ⟨id, network, plen, seqno, metric⟩
  | _ => none

def Starts (memory : Nat → UInt8) (octets : List UInt8) : Prop :=
  ∀ offset < octets.length, memory offset = octets.getD offset 0

/-- A TLV takes the parser from one state to another and makes it call `update_route`, whatever
comes after it. -/
structure TlvReads (receiver : BabelReceiver) (before : ParseState) (type len : UInt8)
    (value : List UInt8) (after : ParseState) (updates : List RouteUpdate) : Prop where
  notPad : type ≠ 0
  length : value.length = len.toNat
  state : ∀ message, Starts message (type :: len :: value) →
    (parseTlv receiver before message len.toNat).state = after
  updates : ∀ message, Starts message (type :: len :: value) →
    (parseTlv receiver before message len.toNat).actions.filterMap routeUpdate? = updates

inductive Reads (receiver : BabelReceiver) (start : ParseState) :
    List UInt8 → ParseState → List RouteUpdate → Prop
  | nil : Reads receiver start [] start []
  | tlv {octets value : List UInt8} {type len : UInt8} {before after : ParseState}
      {updates own : List RouteUpdate} : Reads receiver start octets before updates →
      TlvReads receiver before type len value after own →
      Reads receiver start (octets ++ (type :: len :: value)) after (updates ++ own)

section

variable {receiver : BabelReceiver} {start state : ParseState} {octets : List UInt8}
  {updates : List RouteUpdate}

theorem Starts.append {memory : Nat → UInt8} {first second : List UInt8}
    (starts : Starts memory (first ++ second)) :
    Starts memory first ∧ Starts (fun offset => memory (first.length + offset)) second := by
  refine ⟨?_, ?_⟩
  · intro offset inside
    rw [starts offset (by rw [length_append]; omega), getD_append _ _ _ _ inside]
  · intro offset inside
    dsimp only
    rw [starts (first.length + offset) (by rw [length_append]; omega),
      getD_append_right _ _ _ _ (Nat.le_add_right _ _), Nat.add_sub_cancel_left]

theorem Reads.run (reads : Reads receiver start octets state updates) {body : Nat → UInt8}
    {bodylen : Int} (starts : Starts body octets) (fits : (octets.length : Int) ≤ bodylen)
    (packet : PacketReading) :
    ∃ after, (packetLoop receiver body bodylen).run (0, start, packet) =
        (packetLoop receiver body bodylen).run (octets.length, state, after) ∧
      after.actions.filterMap routeUpdate? = packet.actions.filterMap routeUpdate? ++ updates := by
  induction reads generalizing packet with
  | nil => exact ⟨packet, rfl, (append_nil _).symm⟩
  | @tlv octets value type len before after updates own reads tlv induction =>
    rcases starts.append with ⟨startsBefore, startsTlv⟩
    rw [length_append, length_cons, length_cons, tlv.length] at fits
    rcases induction startsBefore (by omega) packet with ⟨middle, run, sent⟩
    have type' : body octets.length = type := startsTlv 0 (by simp)
    have len' : lenAt body octets.length = len.toNat := congrArg UInt8.toNat (startsTlv 1 (by simp))
    have message : Starts (messageAt body octets.length) (type :: len :: value) := startsTlv
    have tlvState : (tlvAt receiver body before octets.length).state = after := by
      rw [tlvAt, len']
      exact tlv.state _ message
    have tlvUpdates : (tlvAt receiver body before octets.length).actions.filterMap routeUpdate? =
        own := by
      rw [tlvAt, len']
      exact tlv.updates _ message
    refine ⟨middle.add octets.length len.toNat (tlvAt receiver body before octets.length), ?_, ?_⟩
    · rw [run, packetLoop_eq, if_pos (by omega), if_neg (type' ▸ tlv.notPad), len',
        if_neg (by omega), tlvState]
      simp [tlv.length]
    · change (middle.actions ++ _).filterMap routeUpdate? = _
      rw [filterMap_append, sent, tlvUpdates, append_assoc]

theorem octetsAt_of_starts {message : Nat → UInt8} (starts : Starts message octets)
    {offset count : Nat} (inside : offset + count ≤ octets.length) :
    octetsAt message offset count = (octets.drop offset).take count := by
  apply ext_getElem
  · rw [length_octetsAt, length_take, length_drop]
    omega
  · intro index first second
    rw [length_octetsAt] at first
    have octet := starts (offset + index) (by omega)
    rw [getD_eq_getElem _ _ (by omega)] at octet
    simp [octetsAt, octet]

theorem TlvReads.of_nothing {before after : ParseState} {type len : UInt8} {value : List UInt8}
    (notPad : type ≠ 0) (length : value.length = len.toNat)
    (parsed : ∀ message, Starts message (type :: len :: value) →
      parseTlv receiver before message len.toNat = .nothing after) :
    TlvReads receiver before type len value after [] := by
  refine ⟨notPad, length, ?_, ?_⟩
  · intro message starts
    rw [parsed message starts, TlvReading.nothing]
  · intro message starts
    rw [parsed message starts, TlvReading.nothing, filterMap_nil]

/-! ## The messages of an update -/

theorem nextHop_reads {ipv4 : List UInt8} (length : ipv4.length = 4) (before : ParseState) :
    TlvReads receiver before 7 6 ([1, 0] ++ ipv4)
      { before with v4Nh := v4PrefixOctets.take 12 ++ ipv4, haveV4Nh := true } [] := by
  apply TlvReads.of_nothing (by decide) (by simp [length])
  intro message starts
  have type : message 0 = 7 := starts 0 (by simp)
  have ae : message 2 = 1 := starts 2 (by simp)
  have octets : octetsAt (fun index => message (4 + index)) 0 4 = ipv4 := by
    rw [octetsAt_shift, octetsAt_of_starts starts (by simp [length])]
    simp [length]
  have address : networkAddress 1 (fun index => message (4 + index)) 4 =
      some (4, v4PrefixOctets.take 12 ++ ipv4) := by
    simp [networkAddress, networkPrefix, prefixOctets, compressedPrefix, fromDefault, octets,
      maskPrefix, overlay, v4PrefixOctets, length]
  simp [parseTlv, type, parseNh, ae, address]

theorem routerId_reads {id : List UInt8} (length : id.length = 8) (before : ParseState) :
    TlvReads receiver before 6 10 ([0, 0] ++ id)
      { before with routerId := id, haveRouterId := true } [] := by
  apply TlvReads.of_nothing (by decide) (by simp [length])
  intro message starts
  have type : message 0 = 6 := starts 0 (by simp)
  have octets : octetsAt message 4 8 = id := by
    rw [octetsAt_of_starts starts (by simp [length])]
    simp [length]
  simp [parseTlv, type, parseRouterId, octets]

theorem compressedPrefix_of_agrees {offset pb omitted bits len : Nat}
    {base lead network : List UInt8} {mapped : Bool} {pointer : Nat → UInt8}
    {dp? : Option (List UInt8)} (baseLength : base.length = 16)
    (networkLength : network.length = 16) (masked : maskPrefix network bits = network)
    (bitsBound : bits ≤ 128) (ends : (bits + 7) / 8 = offset + pb) (omittedBound : omitted ≤ pb)
    (fits : pb - omitted ≤ len)
    (taken : fromDefault dp? mapped omitted (offset + omitted) = some lead)
    (leadLength : lead.length ≤ 16)
    (leads : (overlay 0 lead base).take (offset + omitted) = network.take (offset + omitted))
    (octets : octetsAt pointer 0 (pb - omitted) =
      (network.drop (offset + omitted)).take (pb - omitted)) :
    compressedPrefix offset base mapped pb omitted bits pointer dp? len =
      some (pb - omitted, network) := by
  have leadOverlay : (overlay 0 lead base).length = 16 := by
    rw [length_overlay (by omega), baseLength]
  have rest : (octetsAt pointer 0 (pb - omitted)).length = pb - omitted := length_octetsAt _ _ _
  have filled : (overlay (offset + omitted) (octetsAt pointer 0 (pb - omitted))
      (overlay 0 lead base)).take (offset + pb) = network.take (offset + pb) := by
    have whole : offset + pb = offset + omitted + (pb - omitted) := by omega
    rw [overlay, leads, octets, ← take_add, ← whole]
    apply take_left'
    rw [length_take]
    omega
  rw [compressedPrefix, if_neg (by omega), taken]
  dsimp only
  rw [if_neg (by omega), maskPrefix_congr bitsBound _ networkLength, masked]
  · rw [ends, filled]
  · rw [length_overlay (by rw [rest]; omega), leadOverlay]

end

/-! ### The update itself -/

section

variable {receiver : BabelReceiver} {state : ParseState} {sender : BabelSender}
  {update : BabelUpdate} {message : Nat → UInt8} {omitted : Nat}

def BabelUpdate.ae (update : BabelUpdate) : UInt8 := if update.isV4 then 1 else 2

def flagsOf (default carries : Bool) : Nat :=
  (if default then 0x80 else 0) + if carries then 0x40 else 0

def routeUpdateOf (sender : BabelSender) (update : BabelUpdate) : RouteUpdate :=
  ⟨update.id, update.network, update.plen, update.seqno, sentMetric sender update⟩

/-- What the sender leaves out is what the receiver has. -/
structure Elides (state : ParseState) (update : BabelUpdate) (default carries : Bool)
    (omitted : Nat) : Prop where
  omittedBound : omitted ≤ update.realPlen / 8
  omittedV4 : update.isV4 → omitted = 0
  omittedHeld : omitted ≠ 0 → state.haveV6Prefix ∧ state.v6Prefix.length = 16 ∧
    v4mapped state.v6Prefix = false ∧ state.v6Prefix.take omitted = update.network.take omitted
  idCarried : carries → update.realPlen = 128 ∧ update.realPrefix.drop 8 = update.id
  idHeld : carries = false → state.haveRouterId ∧ state.routerId = update.id
  defaultV6 : default → update.isV4 = false
  nextHopHeld : update.isV4 → state.haveV4Nh

theorem BabelUpdate.mapped_of_isV4 (isV4 : update.isV4) :
    96 ≤ update.plen ∧ update.network.take 12 = v4PrefixOctets.take 12 := by
  simpa [BabelUpdate.isV4, v4mapped] using isV4

theorem BabelUpdate.length_realPrefix (update : BabelUpdate) :
    (update.realPlen + 7) / 8 ≤ update.realPrefix.length := by
  have length := update.networkLength
  have bound := update.plenBound
  unfold realPlen realPrefix
  split
  next => rw [length_drop]; omega
  next => omega

theorem length_updateValue (bound : omitted ≤ update.realPlen / 8) (flags : Nat) :
    (updateValue sender update flags omitted).length = updateLen sender update omitted := by
  have length := update.length_realPrefix
  simp [updateValue, updateLen]
  omega

theorem length_channelsAttribute (sender : BabelSender) (update : BabelUpdate) :
    (channelsAttribute sender update).length ≤ 10 := by
  unfold channelsAttribute
  split
  next => exact zero_le _
  next channels sent =>
    have given : update.channels? = some channels := by
      unfold sentChannels? at sent
      split at sent
      · exact sent
      · cases sent
    have short := (update.channelsBound channels given).1
    simp [diversityHops] at short ⊢
    omega

theorem realPlen_le (update : BabelUpdate) : update.realPlen ≤ 128 := by
  have bound := update.plenBound
  unfold BabelUpdate.realPlen
  split <;> omega

theorem updateLen_le (sender : BabelSender) (update : BabelUpdate) (omitted : Nat) :
    updateLen sender update omitted ≤ 36 := by
  have channels := length_channelsAttribute sender update
  have plen := realPlen_le update
  unfold updateLen
  omega

theorem shortAt_of_octets {value offset : Nat} (bound : value < 2 ^ 16)
    (first : message offset = UInt8.ofNat (value / 256))
    (second : message (offset + 1) = UInt8.ofNat value) : shortAt message offset = value := by
  rw [shortAt, first, second, UInt8.toNat_ofNat', UInt8.toNat_ofNat']
  omega

structure UpdateFields (sender : BabelSender) (update : BabelUpdate) (flags omitted : Nat)
    (message : Nat → UInt8) : Prop where
  type : message 0 = 8
  ae : message 2 = update.ae
  flags : message 3 = UInt8.ofNat flags
  plen : (message 4).toNat = update.realPlen
  omitting : (message 5).toNat = omitted
  seqno : shortAt message 8 = update.seqno
  metric : shortAt message 10 = sentMetric sender update
  octets : octetsAt message 12 ((update.realPlen + 7) / 8 - omitted) =
    (update.realPrefix.drop omitted).take ((update.realPlen + 7) / 8 - omitted)

theorem updateFields_of_starts {flags : Nat} {len : UInt8} (bound : omitted ≤ update.realPlen / 8)
    (starts : Starts message (8 :: len :: updateValue sender update flags omitted)) :
    UpdateFields sender update flags omitted message := by
  have plen := realPlen_le update
  have length := update.length_realPrefix
  have metricBound : sentMetric sender update < 2 ^ 16 := by
    unfold sentMetric
    omega
  have total : (8 :: len :: updateValue sender update flags omitted).length =
      12 + ((update.realPlen + 7) / 8 - omitted) + (channelsAttribute sender update).length := by
    rw [length_cons, length_cons, length_updateValue bound, updateLen]
    omega
  refine ⟨starts 0 (by omega), starts 2 (by omega), starts 3 (by omega), ?_, ?_, ?_, ?_, ?_⟩
  · rw [show message 4 = UInt8.ofNat update.realPlen from starts 4 (by omega),
      toNat_octet (by omega)]
  · rw [show message 5 = UInt8.ofNat omitted from starts 5 (by omega), toNat_octet (by omega)]
  · apply shortAt_of_octets update.seqnoBound
    · simpa [updateValue, bigEndian] using starts 8 (by omega)
    · simpa [updateValue, bigEndian] using starts 9 (by omega)
  · apply shortAt_of_octets metricBound
    · simpa [updateValue, bigEndian] using starts 10 (by omega)
    · simpa [updateValue, bigEndian] using starts 11 (by omega)
  · rw [octetsAt_of_starts starts (by omega)]
    simp only [updateValue, bigEndian, cons_append, nil_append]
    apply take_left'
    rw [length_take, length_drop]
    omega

variable {default carries : Bool}

theorem networkPrefix_of_fields {flags len : Nat}
    (elides : Elides state update default carries omitted)
    (fields : UpdateFields sender update flags omitted message)
    (fits : (update.realPlen + 7) / 8 - omitted ≤ len) :
    networkPrefix update.ae.toNat (some update.realPlen) omitted (fun index => message (12 + index))
        (some (if update.ae.toNat = 1 then state.v4Prefix else state.v6Prefix)) len =
      some ((update.realPlen + 7) / 8 - omitted, update.network) := by
  have octets := fields.octets
  have plen := realPlen_le update
  have bound := elides.omittedBound
  rw [← octetsAt_shift] at octets
  cases isV4 : update.isV4 with
  | true =>
    have none := elides.omittedV4 isV4
    have mapped := BabelUpdate.mapped_of_isV4 isV4
    have ae : update.ae.toNat = 1 := by rw [BabelUpdate.ae, isV4]; rfl
    have realPlen : update.realPlen = update.plen - 96 := by
      rw [BabelUpdate.realPlen, if_pos isV4]
    have realPrefix : update.realPrefix = update.network.drop 12 := by
      rw [BabelUpdate.realPrefix, if_pos isV4]
    rw [realPrefix] at octets
    have whole : update.realPlen + 96 = update.plen := by omega
    simp only [networkPrefix, ae, prefixOctets, map_some, if_true]
    rw [if_neg (by omega), whole]
    subst none
    apply compressedPrefix_of_agrees (by decide) update.networkLength update.masked
      update.plenBound (by omega) (by omega) fits rfl (by decide) _ octets
    exact mapped.2.symm
  | false =>
    have ae : update.ae.toNat = 2 := by rw [BabelUpdate.ae, isV4]; rfl
    have realPlen : update.realPlen = update.plen := by
      rw [BabelUpdate.realPlen, if_neg (by simp [isV4])]
    have realPrefix : update.realPrefix = update.network := by
      rw [BabelUpdate.realPrefix, if_neg (by simp [isV4])]
    rw [realPrefix] at octets
    simp only [networkPrefix, ae, prefixOctets, map_some, getD_some]
    rw [if_neg (by omega), if_neg (by decide), realPlen]
    rw [realPlen] at octets fits
    by_cases none : omitted = 0
    · subst none
      exact compressedPrefix_of_agrees (by decide) update.networkLength update.masked
        update.plenBound (by omega) (by omega) fits rfl (by decide) rfl octets
    · rcases elides.omittedHeld none with ⟨_, length, notMapped, agrees⟩
      have copied : fromDefault (some state.v6Prefix) false omitted (0 + omitted) =
          some (state.v6Prefix.take omitted) := by
        rw [fromDefault, if_neg none]
        simp [notMapped]
      have taken : (state.v6Prefix.take omitted).length = omitted := by
        rw [length_take]
        omega
      apply compressedPrefix_of_agrees (by decide) update.networkLength update.masked
        update.plenBound (by omega) (by omega) fits copied (by omega) _ (by rw [octets]; simp)
      rw [overlay, zero_add, take_zero, nil_append, agrees]
      apply take_left'
      rw [← agrees, taken]

theorem testBit_flagsOf (default carries : Bool) :
    (flagsOf default carries).testBit 7 = default ∧ (flagsOf default carries).testBit 6 = carries ∧
      UInt8.ofNat (flagsOf default carries) ≠ 1 := by
  cases default <;> cases carries <;> decide

def notedUpdate (state : ParseState) (update : BabelUpdate) (default carries : Bool) : ParseState :=
  noteUpdate state update.ae.toNat (flagsOf default carries) update.network

theorem notedUpdate_eq (elides : Elides state update default carries omitted) :
    notedUpdate state update default carries = { state with
      v6Prefix := if default then update.network else state.v6Prefix
      haveV6Prefix := default || state.haveV6Prefix
      v6PrefixAe := if default then 2 else state.v6PrefixAe
      routerId := update.id
      haveRouterId := true } := by
  have bits := testBit_flagsOf default carries
  have isDefault : default → update.ae.toNat = 2 := by
    intro set
    rw [BabelUpdate.ae, elides.defaultV6 set]
    rfl
  have isCarried : carries → update.ae.toNat = 2 ∧ (update.network.drop 8).take 8 = update.id := by
    intro set
    rcases elides.idCarried set with ⟨long, id⟩
    have isV6 : update.isV4 = false := by
      rw [Bool.eq_false_iff]
      intro isV4
      rw [BabelUpdate.realPlen, if_pos isV4] at long
      have bound := update.plenBound
      omega
    rw [BabelUpdate.realPrefix, if_neg (by simp [isV6])] at id
    rw [BabelUpdate.ae, isV6, id, take_of_length_le (by rw [update.idLength])]
    exact ⟨rfl, rfl⟩
  rw [notedUpdate, noteUpdate, bits.1, bits.2.1]
  cases carries with
  | true =>
    have carried := isCarried rfl
    cases default with
    | true => simp [carried]
    | false => simp [carried]
  | false =>
    have known : { state with routerId := update.id, haveRouterId := true } = state := by
      rcases elides.idHeld rfl with ⟨held, same⟩
      rw [← same, ← held]
    cases default with
    | true =>
      rw [← known]
      simp [isDefault rfl]
    | false => simp [known]

theorem updateNextHop_isSome (elides : Elides state update default carries omitted) :
    (updateNextHop receiver (notedUpdate state update default carries) update.ae.toNat).isSome := by
  rw [notedUpdate_eq elides, updateNextHop]
  split
  next isV4 =>
    have held : state.haveV4Nh := by
      apply elides.nextHopHeld
      by_contra isV6
      rw [BabelUpdate.ae, if_neg isV6] at isV4
      cases isV4
    simp [held]
  next =>
    cases state.haveV6Nh <;> rfl

theorem plen_of_fields {flags : Nat} (fields : UpdateFields sender update flags omitted message) :
    ((message 4).toNat + if (message 2).toNat = 1 then 96 else 0) % 256 = update.plen := by
  have bound := update.plenBound
  rw [fields.plen, fields.ae, BabelUpdate.ae, BabelUpdate.realPlen]
  split
  next isV4 =>
    have long := (BabelUpdate.mapped_of_isV4 isV4).1
    rw [if_pos (by rfl)]
    omega
  next =>
    rw [if_neg (by decide)]
    omega

theorem acceptUpdate_of_fields {len parsed : Nat} (hasIpv4 : receiver.hasIpv4)
    (elides : Elides state update default carries omitted)
    (fields : UpdateFields sender update (flagsOf default carries) omitted message) :
    (acceptUpdate receiver state message len parsed update.network).state =
        notedUpdate state update default carries ∧
      (acceptUpdate receiver state message len parsed update.network).actions.filterMap
        routeUpdate? = [routeUpdateOf sender update] := by
  have flags : (message 3).toNat = flagsOf default carries := by
    rw [fields.flags]
    cases default <;> cases carries <;> rfl
  have noted : noteUpdate state (message 2).toNat (message 3).toNat update.network =
      notedUpdate state update default carries := by
    rw [fields.ae, flags, notedUpdate]
  have known : (notedUpdate state update default carries).haveRouterId = true ∧
      (notedUpdate state update default carries).routerId = update.id := by
    rw [notedUpdate_eq elides]
    exact ⟨rfl, rfl⟩
  have encoded : (message 2).toNat ≠ 0 := by
    rw [fields.ae, BabelUpdate.ae]
    split <;> decide
  rcases isSome_iff_exists.mp (updateNextHop_isSome elides) with ⟨nh, nextHop⟩
  rw [← fields.ae] at nextHop
  rw [acceptUpdate]
  rw [noted, if_neg (by simp [known.1]), if_neg encoded, nextHop]
  dsimp only
  rw [if_neg (by simp [hasIpv4])]
  refine ⟨rfl, ?_⟩
  rw [known.2, plen_of_fields fields, fields.seqno, fields.metric]
  rfl

theorem update_reads (hasIpv4 : receiver.hasIpv4)
    (elides : Elides state update default carries omitted) :
    TlvReads receiver state 8 (UInt8.ofNat (updateLen sender update omitted))
      (updateValue sender update (flagsOf default carries) omitted)
      (notedUpdate state update default carries)
      [routeUpdateOf sender update] := by
  have short := updateLen_le sender update omitted
  have len : (UInt8.ofNat (updateLen sender update omitted)).toNat =
      updateLen sender update omitted := toNat_octet (by omega)
  have long : 10 ≤ updateLen sender update omitted := by
    unfold updateLen
    omega
  have parsed : ∀ message, Starts message
      (8 :: UInt8.ofNat (updateLen sender update omitted) ::
        updateValue sender update (flagsOf default carries) omitted) →
      (parseTlv receiver state message (updateLen sender update omitted)).state =
        notedUpdate state update default carries ∧
      (parseTlv receiver state message
        (updateLen sender update omitted)).actions.filterMap routeUpdate? =
          [routeUpdateOf sender update] := by
    intro message starts
    have fields := updateFields_of_starts elides.omittedBound starts
    have found : updatePrefix state message (updateLen sender update omitted) =
        some ((update.realPlen + 7) / 8 - omitted, update.network) := by
      unfold updatePrefix
      rw [fields.ae, fields.omitting, fields.plen, if_pos]
      · apply networkPrefix_of_fields elides fields
        unfold updateLen
        omega
      · by_cases none : omitted = 0
        · exact Or.inl none
        · rw [haveDefault, fields.flags, if_neg (testBit_flagsOf default carries).2.2]
          exact Or.inr (elides.omittedHeld none).1
    rw [parseTlv_of_update fields.type, parseUpdate, if_neg (by omega), found]
    exact acceptUpdate_of_fields hasIpv4 elides fields
  refine ⟨by decide, by rw [len, length_updateValue elides.omittedBound], ?_, ?_⟩
  · intro message starts
    rw [len]
    exact (parsed message starts).1
  · intro message starts
    rw [len]
    exact (parsed message starts).2

end

end Quagga.Babel
