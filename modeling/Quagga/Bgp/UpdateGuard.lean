import Quagga.Bgp.UpdateMessage

/-!
# Routes from attribute sections that were not fully parsed

Routes should be installed only from a section whose attributes were all accepted and that
has the mandatory ones. `bgp_update_receive` hands on attributes in other cases too: it
knows two of the four return values of `bgp_attr_parse`, does not call it for an empty
section, and `bgp_attr_check` lets some sections pass without knowing of the prefixes that
follow.
-/

namespace Quagga.Bgp

open Foundation Dbgp List ParserArgs Message

variable {before : List ParserArgs} {type : AttributeType} {args : ParserArgs} {update : Bytes}
  {code : UInt8}

section

variable (peer : ReceivingPeer) (behind : Bytes) (message : Message)

/-- The section consists of attributes that are accepted, or may be ignored, and has the
mandatory ones; NEXT_HOP is mandatory with plain prefixes only. -/
structure Message.Complete : Prop where
  whole : (attributeReader.records message.attributes).2 = true
  checked : ∀ received ∈ message.received,
    received.isAccepted peer = true ∨ received.type ∈ [6, 7, 18]
  origin : ∃ received ∈ message.received, received.type = 1
  asPath : ∃ received ∈ message.received, received.type = 2
  nextHop : message.nlri ≠ [] → ∃ received ∈ message.received, received.type = 3

/-- Routes come from a complete section only; otherwise nothing is installed and the peer is
notified or the prefixes are withdrawn. -/
def Guards (body : Bytes) (result : Execution Receipt) : Prop :=
  ∃ receipt, result = .ok receipt ∧
    ((∃ message, delimit body = some message ∧ message.Complete peer) ∨
      (receipt.InstallsNothing ∧
        (receipt.notifications ≠ [] ∨ ∀ message, delimit body = some message →
          message.announced peer ⊆ receipt.withdrawn)))

def Message.Has (type : AttributeType) : Prop :=
  ∃ received ∈ message.received, received.isAccepted peer = true ∧ flagOf peer received = some type

/-- The path that the attributes describe is one the peer may send. -/
def ParseState.PathAccepted (state : ParseState) : Prop :=
  ∃ aspath, state.attr.aspath? = some aspath ∧
    ((bgpAttrMungeAs4Attrs peer state aspath).aspath?.bind (bgpAttrAspathCheck peer)).isSome = true

/-- The reasons for which a section passes without the mandatory attributes: it is empty, or
has no attribute with a flag and the peer can restart gracefully, or withdraws only, or has
multiprotocol prefixes. -/
def Message.Excused : Prop :=
  message.attributes = [] ∨
    (peer.restartRcv = true ∧ ∀ type, ¬ message.Has peer type) ∨
    (∀ type, message.Has peer type ↔ type = .mpUnreachNlri) ∨
    (message.Has peer .mpReachNlri ∧ message.Has peer .origin ∧ message.Has peer .asPath ∧
      (peer.sort = .ibgp → message.Has peer .localPref) ∧
      (described peer (message.scan peer behind).before).PathAccepted peer)

/-- The message is not what routes may come from, and is taken all the same or stops the
daemon. -/
def Message.Leaks : Prop :=
  let before := (message.scan peer behind).before.map ParserArgs.toAttribute
  if (message.scan peer behind).unread = [] then
    ¬ message.Complete peer ∧ message.Excused peer behind ∧ isSane message.nlri = true ∧
      fieldsOf peer message.nlri (reachOf message.received) ≠ []
  else match message.next? peer behind with
    | none => False
    | some (args, rest) =>
      match fate peer (message.scan peer behind).before args with
      | .aborts => True
      | .unnoticed => isSane (rest ++ message.nlri) = true ∧
          (fieldsOf peer (rest ++ message.nlri) (reachOf before) ≠ [] ∨
            ¬ message.announced peer ⊆
              (fieldsOf peer message.withdraw (unreachOf before)).flatMap Nlri.destinations)
      -- an announced prefix is neither read from the octets behind the attribute nor in a
      -- field in front of it
      | .withdrawn => isSane (rest ++ message.nlri) = true ∧
          ∃ destination ∈ message.announced peer,
            destination ∉ (fieldsOf peer (rest ++ message.nlri) (reachOf before)).flatMap
              Nlri.destinations ∧
            destination ∉ (fieldsOf peer message.withdraw (unreachOf before)).flatMap
              Nlri.destinations
      | .passes | .notified => False

end

section

variable {peer : ReceivingPeer} {behind : Bytes} {message : Message}

/-! ## The checks after the last attribute -/

theorem missingAttribute_eq_none {flag : Finset AttributeType} :
    missingAttribute peer flag = none ↔
      (peer.restartRcv = true ∧ flag = ∅) ∨ flag = {.mpUnreachNlri} ∨
        ((peer.sort = .ibgp → .localPref ∈ flag) ∧ (.nextHop ∈ flag ∨ .mpReachNlri ∈ flag) ∧
          .asPath ∈ flag ∧ .origin ∈ flag) := by
  fun_cases missingAttribute peer flag with
  | case7 noRestart notOnly => simp only [notOnly]; tauto
  | _ => simp_all

theorem checkAttributes_proceed {state : ParseState} :
    (checkAttributes peer state).ret = .proceed ↔
      missingAttribute peer state.attr.flag = none ∧
        (.asPath ∈ state.attr.flag → state.PathAccepted peer) := by
  unfold ParseState.PathAccepted
  fun_cases checkAttributes peer state with
  | case3 nothing present aspath found attr refused =>
    simp [present, found, show (bgpAttrMungeAs4Attrs peer state aspath).aspath?.bind
      (bgpAttrAspathCheck peer) = none from refused]
  | case4 nothing present aspath found attr checked accepted =>
    simp [nothing, found, show (bgpAttrMungeAs4Attrs peer state aspath).aspath?.bind
      (bgpAttrAspathCheck peer) = some checked from accepted]
  | _ => simp [*]

/-! ## Sections that are read to their end -/

theorem flagOf_mandatory (mandatory : (code, type) ∈ [(1, .origin), (2, .asPath), (3, .nextHop)])
    (received : Attribute) : flagOf peer received = some type ↔ received.type = code := by
  simp only [mem_cons, not_mem_nil, or_false, Prod.mk.injEq] at mandatory
  unfold flagOf
  constructor
  · intro flag
    rcases mandatory with ⟨rfl, rfl⟩ | ⟨rfl, rfl⟩ | ⟨rfl, rfl⟩
    all_goals split at flag
    all_goals first
      | assumption
      | cases flag
      | split at flag <;> cases flag
  · rintro rfl
    rcases mandatory with ⟨isCode, rfl⟩ | ⟨isCode, rfl⟩ | ⟨isCode, rfl⟩
    · simp [isCode]
    · simp [isCode]
    · simp [isCode]

theorem Passing.accepted (passing : Passing peer before) :
    ∀ args ∈ before, args.isAccepted peer = true ∨ args.type ∈ [6, 7, 18] := by
  induction passing with
  | nil => nofun
  | snoc passing passes induction =>
    apply forall_mem_append.mpr ⟨induction, forall_mem_singleton.mpr _⟩
    rcases take_cases (described_transit passing) passes with ⟨accepted, _⟩ | ⟨_, ignorable, _⟩
    · exact .inl accepted
    · exact .inr ignorable

section

variable (finished : (message.scan peer behind).unread = [])

include finished

theorem finished_records : attributeReader.records message.attributes =
    ((message.scan peer behind).before.map toAttribute, true) := by
  rw [(message.scan_scans peer behind).records, finished]
  simp

theorem finished_received :
    message.received = (message.scan peer behind).before.map toAttribute := by
  rw [Message.received, finished_records finished]

theorem mem_flag_iff_has (type : AttributeType) :
    type ∈ (described peer (message.scan peer behind).before).attr.flag ↔
      message.Has peer type := by
  rw [described_flag (message.scan_scans peer behind).passing]
  simp [Has, finished_received finished]

theorem finished_accepted : ∀ received ∈ message.received,
    received.isAccepted peer = true ∨ received.type ∈ [6, 7, 18] := by
  intro received mem
  rw [finished_received finished] at mem
  rcases mem_map.mp mem with ⟨args, isBefore, rfl⟩
  exact (message.scan_scans peer behind).passing.accepted args isBefore

theorem has_mandatory (mandatory : (code, type) ∈ [(1, .origin), (2, .asPath), (3, .nextHop)]) :
    message.Has peer type ↔ ∃ received ∈ message.received, received.type = code := by
  constructor
  · rintro ⟨received, mem, _, flag⟩
    exact ⟨received, mem, (flagOf_mandatory mandatory received).mp flag⟩
  · rintro ⟨received, mem, isCode⟩
    rcases finished_accepted finished received mem with accepted | ignorable
    · exact ⟨received, mem, accepted, (flagOf_mandatory mandatory received).mpr isCode⟩
    · have counts : ∀ pair ∈ [((1 : UInt8), AttributeType.origin), (2, .asPath), (3, .nextHop)],
          pair.1 ∉ [(6 : UInt8), 7, 18] := by
        decide
      exact absurd (isCode ▸ ignorable) (counts _ mandatory)

theorem finished_complete_iff :
    message.Complete peer ↔ message.Has peer .origin ∧ message.Has peer .asPath ∧
      (message.nlri ≠ [] → message.Has peer .nextHop) := by
  simp only [has_mandatory finished (by decide : ((1 : UInt8), AttributeType.origin) ∈ _),
    has_mandatory finished (by decide : ((2 : UInt8), AttributeType.asPath) ∈ _),
    has_mandatory finished (by decide : ((3 : UInt8), AttributeType.nextHop) ∈ _)]
  constructor
  · intro complete
    exact ⟨complete.origin, complete.asPath, complete.nextHop⟩
  · rintro ⟨origin, asPath, nextHop⟩
    exact ⟨by rw [finished_records finished], finished_accepted finished, origin, asPath, nextHop⟩

theorem checked_of_excused (excused : message.Excused peer behind) :
    message.checked peer behind := by
  rcases excused with empty | ⟨restart, none⟩ | only | ⟨reach, origin, asPath, localPref, path⟩
  · exact .inl empty
  all_goals
    right
    rw [checkAttributes_proceed, missingAttribute_eq_none]
    simp [Finset.ext_iff, mem_flag_iff_has finished]
  · exact ⟨.inl ⟨restart, none⟩, fun asPath => absurd asPath (none _)⟩
  · exact ⟨.inr (.inl only), fun asPath => absurd ((only _).mp asPath) (by decide)⟩
  · exact ⟨.inr (.inr ⟨localPref, .inr reach, asPath, origin⟩), fun _ => path⟩

theorem complete_or_excused (checked : message.checked peer behind) :
    message.Complete peer ∨ message.Excused peer behind := by
  rcases checked with empty | proceeds
  · exact .inr (.inl empty)
  rw [checkAttributes_proceed, missingAttribute_eq_none] at proceeds
  simp only [Finset.ext_iff, Finset.mem_singleton, Finset.notMem_empty, iff_false,
    mem_flag_iff_has finished] at proceeds
  rcases proceeds with ⟨restart | only | ⟨localPref, nextHop | reach, asPath, origin⟩, path⟩
  · exact .inr (.inr (.inl restart))
  · exact .inr (.inr (.inr (.inl only)))
  · exact .inl ((finished_complete_iff finished).mpr ⟨origin, asPath, fun _ => nextHop⟩)
  · exact .inr (.inr (.inr (.inr ⟨reach, origin, asPath, localPref, path asPath⟩)))

end

/-! ## Sections that are not -/

theorem malformedFate_ignorable {received : Attribute} (ignorable : received.type ∈ [6, 7, 18]) :
    malformedFate peer received = .passes ∨ malformedFate peer received = .notified := by
  unfold malformedFate
  split
  · exact .inr rfl
  · simp only [mem_cons, not_mem_nil, or_false] at ignorable
    left
    rcases ignorable with type | type | type
    · simp [type]
    · simp [type]
    · simp [type]

theorem fate_refused
    (decided : fate peer before args = .withdrawn ∨ fate peer before args = .unnoticed) :
    ¬ (args.isAccepted peer = true ∨ args.type ∈ [6, 7, 18]) := by
  rintro (accepted | ignorable)
  · simp only [Attribute.isAccepted, Bool.and_eq_true] at accepted
    revert decided
    fun_cases fate peer before args <;> simp_all
  · have verdict := @malformedFate_ignorable peer _ ignorable
    revert decided
    fun_cases fate peer before args <;> simp_all
    all_goals rcases verdict with verdict | verdict <;> simp [verdict]

theorem not_complete {rest : Bytes} (found : message.next? peer behind = some (args, rest))
    (decided : fate peer (message.scan peer behind).before args = .withdrawn ∨
      fate peer (message.scan peer behind).before args = .unnoticed) : ¬ message.Complete peer := by
  intro complete
  have read := (Scanned.next?_eq_some.mp found).1
  have mem : args.toAttribute ∈ message.received := by
    rw [Message.received, (message.scan_scans peer behind).records,
      attributeReader.records_of_read read]
    simp
  exact fate_refused decided (complete.checked _ mem)

theorem installsNothing_calls {attr : Attr Transit} :
    (⟨true, [], message.calls peer behind (some attr) update⟩ : Receipt).InstallsNothing ↔
      fieldsOf peer update
        (reachOf ((message.scan peer behind).before.map toAttribute)) = [] := by
  have passing := (message.scan_scans peer behind).passing
  simp only [eq_nil_iff_forall_not_mem, Receipt.InstallsNothing, calls, mem_callsOf,
    mem_fieldsOf_mpUpdate passing]
  constructor
  · intro none packet mem
    have installed := none ⟨some attr, packet⟩ (.inr ⟨rfl, mem⟩)
    cases installed
  · rintro none call (⟨isNone, _⟩ | ⟨_, mem⟩)
    · exact isNone
    · exact absurd mem (none _)

/-! ## Guards and leaks -/

def Message.Guards (peer : ReceivingPeer) (message : Message) (result : Execution Receipt) :
    Prop :=
  ∃ receipt, result = .ok receipt ∧
    (message.Complete peer ∨ (receipt.InstallsNothing ∧
      (receipt.notifications ≠ [] ∨ message.announced peer ⊆ receipt.withdrawn)))

theorem guards_of_rejected {result : Execution Receipt} (rejected : Rejected result) :
    message.Guards peer result := by
  rcases rejected with ⟨notifications, notified, rfl⟩
  exact ⟨_, rfl, .inr ⟨nofun, .inl notified⟩⟩

theorem guards_handedOn {result : Execution Receipt}
    (handedOn : message.HandedOn peer behind update result) :
    message.Guards peer result ↔ message.Complete peer ∨
      (fieldsOf peer update
          (reachOf ((message.scan peer behind).before.map toAttribute)) = [] ∧
        message.announced peer ⊆ (fieldsOf peer message.withdraw (unreachOf
          ((message.scan peer behind).before.map toAttribute))).flatMap
            Nlri.destinations) := by
  rcases handedOn with ⟨_, rfl⟩
  simp [Message.Guards, installsNothing_calls, subset_def, mem_withdrawn]

theorem message_guards_iff :
    message.Guards peer
        (receiveAttributes peer behind message.withdraw message.attributes message.nlri) ↔
      ¬ message.Leaks peer behind := by
  have received := receiveAttributes_receivedAs peer behind message
  generalize receiveAttributes peer behind message.withdraw message.attributes message.nlri =
    result at received
  unfold ReceivedAs at received
  unfold Leaks
  split at received
  · rename_i finished
    rw [if_pos finished]
    by_cases accepted : message.checked peer behind ∧ isSane message.nlri = true
    · rw [guards_handedOn (received.1 accepted), ← finished_received finished]
      constructor
      · rintro (complete | ⟨nothing, _⟩) ⟨incomplete, _, _, announces⟩
        · exact incomplete complete
        · exact announces nothing
      · intro tight
        rcases complete_or_excused finished accepted.1 with complete | excused
        · exact .inl complete
        by_cases complete : message.Complete peer
        · exact .inl complete
        · have nothing : fieldsOf peer message.nlri (reachOf message.received) = [] := by
            by_contra announces
            exact tight ⟨complete, excused, accepted.2, announces⟩
          simp [announced, nothing]
    · simp only [guards_of_rejected (received.2 accepted), true_iff]
      rintro ⟨_, excused, sane, _⟩
      exact accepted ⟨checked_of_excused finished excused, sane⟩
  · rename_i unfinished
    rw [if_neg unfinished]
    cases found : message.next? peer behind with
    | none =>
      simp only [found] at received
      simp [guards_of_rejected received]
    | some next =>
      rcases next with ⟨args, rest⟩
      simp only [found] at received
      cases decided : fate peer (message.scan peer behind).before args with
      | passes => simp [decided] at received
      | notified =>
        simp only [decided] at received ⊢
        simp [guards_of_rejected received]
      | withdrawn =>
        simp only [decided] at received ⊢
        by_cases sane : isSane (rest ++ message.nlri) = true
        · rw [if_pos sane] at received
          simp only [received, Message.Guards, not_complete found (.inl decided), sane, subset_def,
            mem_withdrawn, calls_installsNothing, Except.ok.injEq, exists_eq_left', false_or,
            true_and, ne_eq, not_true_eq_false]
          grind
        · rw [if_neg sane] at received
          simp [guards_of_rejected received, sane]
      | unnoticed =>
        simp only [decided] at received ⊢
        by_cases sane : isSane (rest ++ message.nlri) = true
        · rw [if_pos sane] at received
          rw [guards_handedOn received]
          simp [not_complete found (.inr decided), sane]
        · rw [if_neg sane] at received
          simp [guards_of_rejected received, sane]
      | aborts =>
        simp only [decided] at received ⊢
        rcases received with ⟨fault, rfl⟩
        simp [Message.Guards]

/-- Routes come from fully parsed attribute sections, with the attributes that are mandatory,
exactly for messages that are not one of the leaks. -/
theorem guards_iff (established : peer.established = true) (body : Bytes) :
    Guards peer body (bgpUpdateReceive peer behind body) ↔
      ¬ ∃ message, delimit body = some message ∧ isSane message.withdraw = true ∧
        message.Leaks peer behind := by
  cases delimited : delimit body with
  | none =>
    rcases bgpUpdateReceive_undelimited established delimited with ⟨notifications, notified, same⟩
    simp only [reduceCtorEq, false_and, exists_false, not_false_eq_true, iff_true]
    exact ⟨_, same, .inr ⟨nofun, .inl notified⟩⟩
  | some message =>
    have ofMessage : Guards peer body (bgpUpdateReceive peer behind body) ↔
        message.Guards peer (bgpUpdateReceive peer behind body) := by
      simp [Bgp.Guards, delimited, Message.Guards]
    rw [ofMessage, bgpUpdateReceive_delimited established delimited]
    simp only [Option.some.injEq, exists_eq_left']
    by_cases sane : isSane message.withdraw = true
    · rw [if_pos sane, message_guards_iff]
      simp [sane]
    · simp only [sane, false_and, not_false_eq_true, iff_true, Bool.false_eq_true]
      exact guards_of_rejected ⟨_, by simp, rfl⟩

end

/-! ## A flag error that goes unnoticed -/

def wellKnownAs4Path : Bytes := [0x40, 17, 0]

theorem mandatory_guards :
    Guards externalPeer (announcement mandatoryAttributes).octets
      (bgpUpdateReceive externalPeer [] (announcement mandatoryAttributes).octets) := by
  apply (guards_iff rfl _).mpr
  rintro ⟨message, delimited, _, leaks⟩
  have isMessage : delimit (announcement mandatoryAttributes).octets =
      some (announcement mandatoryAttributes) := by
    decide +kernel
  rw [isMessage] at delimited
  cases delimited
  have complete : (announcement mandatoryAttributes).Complete externalPeer := by
    refine ⟨?_, ?_, ?_, ?_, fun _ => ?_⟩
    all_goals decide +kernel
  exact leaks.1 complete

/-- The route is installed without the attribute, and the peer is not notified. -/
theorem wellKnownAs4Path_not_guards :
    ¬ Guards externalPeer (announcement (mandatoryAttributes ++ wellKnownAs4Path)).octets
      (bgpUpdateReceive externalPeer []
        (announcement (mandatoryAttributes ++ wellKnownAs4Path)).octets) := by
  rintro ⟨receipt, received, ⟨message, delimited, complete⟩ | ⟨nothing, _⟩⟩
  · have refused : ∃ message, delimit (announcement (mandatoryAttributes ++
        wellKnownAs4Path)).octets = some message ∧ ¬ ∀ received ∈ message.received,
          received.isAccepted externalPeer = true ∨ received.type ∈ [6, 7, 18] :=
      ⟨announcement (mandatoryAttributes ++ wellKnownAs4Path), by decide +kernel,
        by decide +kernel⟩
    rcases refused with ⟨other, same, refused⟩
    rw [delimited] at same
    cases same
    exact refused complete.checked
  · have installed : (bgpUpdateReceive externalPeer [] (announcement (mandatoryAttributes ++
        wellKnownAs4Path)).octets).toOption.map (fun receipt =>
          receipt.calls.all fun call => call.attr?.isNone) = some false := by
      decide +kernel
    rw [received] at installed
    have all : receipt.calls.all (fun call => call.attr?.isNone) = true := by
      rw [all_eq_true]
      intro call mem
      rw [nothing call mem]
      rfl
    simp [Except.toOption, all] at installed

end Quagga.Bgp
