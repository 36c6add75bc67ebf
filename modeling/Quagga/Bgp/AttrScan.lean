import Quagga.Bgp.AttrChecks

/-!
# What an attribute section amounts to

`scan` goes through the attributes of a section as long as they pass. The loop of
`bgp_attr_parse` does exactly what the scan and the fate of the next attribute say, and what
it has then filled in follows from the attributes that passed.
-/

namespace Quagga.Bgp

open Foundation Dbgp List

structure Scanned where
  before : List ParserArgs
  unread : Bytes
deriving DecidableEq

instance : Inhabited Scanned := ⟨[], []⟩

section

variable (peer : ReceivingPeer) (behind : Bytes)

def Scanned.next? (scanned : Scanned) : Option (ParserArgs × Bytes) :=
  (readAttribute scanned.unread).map fun (received, rest) => (⟨received, rest ++ behind⟩, rest)

def scanTurn (scanned : Scanned) : Turn Scanned Scanned :=
  match scanned.next? behind with
  | none => .leave scanned
  | some (args, rest) =>
    if fate peer scanned.before args = .passes then .next ⟨scanned.before ++ [args], rest⟩
    else .leave scanned

variable {peer behind}

variable {scanned : Scanned} {args : ParserArgs}

variable {rest : Bytes}

theorem Scanned.next?_eq_some :
    scanned.next? behind = some (args, rest) ↔
      readAttribute scanned.unread = some (args.toAttribute, rest) ∧
        args.following = rest ++ behind := by
  unfold Scanned.next?
  rw [Option.map_eq_some_iff]
  constructor
  · rintro ⟨⟨received, after⟩, read, same⟩
    cases same
    exact ⟨read, rfl⟩
  · rintro ⟨read, following⟩
    exact ⟨_, read, by simp only [← following]⟩

theorem Scanned.nonempty (found : scanned.next? behind = some (args, rest)) :
    scanned.unread ≠ [] := by
  intro empty
  simp [Scanned.next?, empty, readAttribute, readHeader] at found

theorem scanTurn_next {scanned following : Scanned}
    (taken : scanTurn peer behind scanned = .next following) :
    ∃ args, scanned.next? behind = some (args, following.unread) ∧
      fate peer scanned.before args = .passes ∧
      following.before = scanned.before ++ [args] := by
  revert taken
  fun_cases scanTurn peer behind scanned
  case case2 =>
    rename_i args rest found passes
    rintro ⟨⟩
    exact ⟨args, found, passes, rfl⟩
  all_goals exact nofun

variable (peer behind)

def scanLoop : Loop Scanned Scanned where
  turn := scanTurn peer behind
  size scanned := scanned.unread.length
  shrinks := by
    intro scanned following taken
    rcases scanTurn_next taken with ⟨args, found, _, _⟩
    exact attributeReader.progress (Scanned.next?_eq_some.mp found).1

def scan (octets : Bytes) : Scanned := (scanLoop peer behind).run ⟨[], octets⟩

def ParseState.take (state : ParseState) (args : ParserArgs) : ParseState :=
  if bgpAttrFlagInvalid peer args.flags args.type then state
  else match parseAttribute peer args state with
    | .ok outcome => outcome.state
    | .error _ => state

def described (attributes : List ParserArgs) : ParseState :=
  attributes.foldl (ParseState.take peer) .initial

@[simp] theorem described_append (attributes : List ParserArgs) (args : ParserArgs) :
    described peer (attributes ++ [args]) = (described peer attributes).take peer args := by
  simp [described]

/-- How the loop of the parser ends where a scan does. -/
inductive Ends : Execution ParseResult → Scanned → Prop
  | finished {before : List ParserArgs} :
      Ends (.ok ⟨.proceed, described peer before, [], []⟩) ⟨before, []⟩
  | notified {scanned : Scanned} {state : ParseState} {unread : Bytes}
      {notifications : List Notification} :
      scanned.unread ≠ [] →
      (∀ args rest, scanned.next? behind = some (args, rest) →
        fate peer scanned.before args = .notified) →
      notifications ≠ [] → Ends (.ok ⟨.error, state, unread, notifications⟩) scanned
  | withdrawn {scanned : Scanned} {args : ParserArgs} {rest : Bytes} {state : ParseState} :
      scanned.next? behind = some (args, rest) →
      fate peer scanned.before args = .withdrawn →
      state.mpUpdate = (described peer scanned.before).mpUpdate →
      state.mpWithdraw = (described peer scanned.before).mpWithdraw →
      Ends (.ok ⟨.withdraw, state, rest, []⟩) scanned
  | unnoticed {scanned : Scanned} {args : ParserArgs} {rest : Bytes} :
      scanned.next? behind = some (args, rest) →
      fate peer scanned.before args = .unnoticed →
      Ends (.ok ⟨.errorNotifypls, described peer scanned.before, rest, []⟩) scanned
  | aborts {scanned : Scanned} {args : ParserArgs} {rest : Bytes} {fault : Fault} :
      scanned.next? behind = some (args, rest) →
      fate peer scanned.before args = .aborts → Ends (.error fault) scanned

/-- Where the loop is while the scan is somewhere. -/
structure Follows (position : ParsePosition) (scanned : Scanned) : Prop where
  unread : position.unread = scanned.unread
  seen : ∀ type, type ∈ position.seen ↔ type ∈ scanned.before.map fun earlier => earlier.type
  state : position.state = described peer scanned.before
  transit : (described peer scanned.before).attr.transit? = transitOf scanned.before

abbrev TurnRelated (turn : Turn ParsePosition (Execution ParseResult)) (scanned : Scanned) : Prop :=
  turn.Related (Follows peer) (Ends peer behind) (scanTurn peer behind scanned)

variable {peer behind}

theorem transitOf_append (before : List ParserArgs) (args : ParserArgs) :
    transitOf (before ++ [args]) = args.carry (transitOf before) := by
  simp [transitOf]

theorem Follows.next {seen : List UInt8} {state next : ParseState}
    (follows : Follows peer ⟨scanned.unread, seen, state⟩ scanned)
    (taken : state.take peer args = next)
    (transit : next.attr.transit? = args.carry state.attr.transit?) :
    Follows peer ⟨rest, args.type :: seen, next⟩ ⟨scanned.before ++ [args], rest⟩ := by
  have sameState : state = described peer scanned.before := follows.state
  have nextState : next = described peer (scanned.before ++ [args]) := by
    rw [described_append, ← sameState, taken]
  refine ⟨rfl, ?_, nextState, ?_⟩
  · intro type
    have seenBefore := follows.seen type
    simp only [mem_cons, map_append, map_cons, map_nil, mem_append,
      not_mem_nil, or_false] at seenBefore ⊢
    rw [seenBefore, or_comm]
  · rw [← nextState, transit, transitOf_append, sameState, follows.transit]

theorem carry_of_ignorable (ignorable : args.type ∈ [6, 7, 18]) (transit? : Option Transit) :
    args.carry transit? = transit? := by
  have known : ∀ type ∈ [6, 7, (18 : UInt8)], type ≠ 22 ∧ type ∈ knownTypes := by
    decide +kernel
  rcases known args.type ignorable with ⟨notKey, isKnown⟩
  simp [ParserArgs.carry, notKey, Attribute.isCarried, isKnown]

section

variable {args : ParserArgs} {rest : Bytes} {seen : List UInt8} {state : ParseState}
  {scanned : Scanned} (follows : Follows peer ⟨scanned.unread, seen, state⟩ scanned)
  (found : scanned.next? behind = some (args, rest))
  (fresh : args.type ∉ scanned.before.map fun earlier => earlier.type)

include found

theorem Ends.ofNotified (decided : fate peer scanned.before args = .notified) {ended : ParseState}
    {unread : Bytes} {notifications : List Notification} (notified : notifications ≠ []) :
    Ends peer behind (.ok ⟨.error, ended, unread, notifications⟩) scanned := by
  apply Ends.notified
  · exact Scanned.nonempty found
  · intro other after again
    rw [found] at again
    cases again
    exact decided
  · exact notified

include follows fresh

theorem parseReceived_flags (invalid : bgpAttrFlagInvalid peer args.flags args.type = true) :
    TurnRelated peer behind (parseReceived peer args ⟨rest, args.type :: seen, state⟩) scanned := by
  have sameState : state = described peer scanned.before := follows.state
  have decided : fate peer scanned.before args = malformedFate peer args.toAttribute := by
    rw [fate, if_neg fresh, if_pos invalid]
  have unchanged : state.take peer args = state := if_pos invalid
  simp only [TurnRelated, scanTurn, found, parseReceived, if_pos invalid, bgpAttrMalformed_eq]
  rw [decided]
  cases verdict : malformedFate peer args.toAttribute with
  | passes =>
    have ignorable := malformedFate_passes verdict
    exact .next (follows.next unchanged (carry_of_ignorable ignorable _).symm)
  | notified => exact .leave (.ofNotified found (decided.trans verdict) (by simp))
  | withdrawn =>
    exact .leave (.withdrawn found (decided.trans verdict) (by rw [sameState])
      (by rw [sameState]))
  | unnoticed =>
    have result := Ends.unnoticed found (decided.trans verdict)
    rw [← sameState] at result
    exact .leave result
  | aborts => exact absurd verdict (malformedFate_ne_aborts _ _)

theorem parseReceived_key (valid : ¬ bgpAttrFlagInvalid peer args.flags args.type = true)
    (key : args.type = 22) :
    TurnRelated peer behind (parseReceived peer args ⟨rest, args.type :: seen, state⟩) scanned := by
  have transit : state.attr.transit? = transitOf scanned.before := by
    rw [← follows.transit, ← follows.state]
  have parser : parseAttribute peer args state = bgpAttrDbgp args state := by
    simp [parseAttribute, key]
  have decided : fate peer scanned.before args =
      if keyCopied scanned.before args then .passes else .aborts := by
    rw [fate, if_neg fresh, if_neg valid, if_pos key]
  simp only [TurnRelated, scanTurn, found, parseReceived, if_neg valid, parser]
  cases copied : keyCopied scanned.before args with
  | true =>
    rcases @bgpAttrDbgp_copied _ peer _ _ key transit copied with ⟨next, parsed, effect⟩
    have taken : state.take peer args = next := by
      rw [ParseState.take, if_neg valid, parser, parsed]
    simp only [decided, copied, parsed]
    exact .next (follows.next taken effect.transit)
  | false =>
    rcases bgpAttrDbgp_aborts transit copied with ⟨fault, failed⟩
    simp only [decided, copied, failed]
    exact .leave (.aborts found (by simp [decided, copied]))

theorem parseReceived_value (valid : ¬ bgpAttrFlagInvalid peer args.flags args.type = true)
    (notKey : args.type ≠ 22) :
    TurnRelated peer behind (parseReceived peer args ⟨rest, args.type :: seen, state⟩) scanned := by
  have sameState : state = described peer scanned.before := follows.state
  have decided : fate peer scanned.before args = _ :=
    (if_neg fresh).trans ((if_neg valid).trans (if_neg notKey))
  rcases @parseAttribute_checks peer args state notKey with ⟨outcome, parsed, checks⟩
  have taken : state.take peer args = outcome.state := by
    rw [ParseState.take, if_neg valid, parsed]
  simp only [TurnRelated, scanTurn, found, parseReceived, if_neg valid, parsed]
  generalize accepted : valueAccepted peer args.toAttribute = isAccepted at checks
  cases checks with
  | complete effect =>
    simp only [decided, accepted]
    exact .next (follows.next taken effect.transit)
  | malformed error data mpUpdate mpWithdraw ignored =>
    simp only [accepted] at decided
    simp only [Outcome.malformed, bgpAttrMalformed_eq]
    cases verdict : malformedFate peer args.toAttribute <;> rw [verdict] at decided <;>
      simp only [decided, Fate.malformed]
    case passes =>
      have ignorable := malformedFate_passes verdict
      apply Turn.Related.next
      apply follows.next taken
      rw [carry_of_ignorable ignorable, ← ignored ignorable]
      rfl
    case notified | unnoticed => exact .leave (.ofNotified found decided (by simp))
    case withdrawn =>
      exact .leave (.withdrawn found decided (by rw [mpUpdate, sameState])
        (by rw [mpWithdraw, sameState]))
    case aborts => exact absurd verdict (malformedFate_ne_aborts _ _)
  | notifypls next notifications multiprotocol =>
    simp only [accepted, malformedFate_multiprotocol multiprotocol] at decided
    simp only [decided]
    exact .leave (.ofNotified found decided (by simp))

end

theorem parseReceived_related {seen : List UInt8} {state : ParseState}
    (follows : Follows peer ⟨scanned.unread, seen, state⟩ scanned)
    (found : scanned.next? behind = some (args, rest)) (fresh : args.type ∉ seen) :
    TurnRelated peer behind (parseReceived peer args ⟨rest, args.type :: seen, state⟩) scanned := by
  have notBefore := mt (follows.seen args.type).mpr fresh
  by_cases invalid : bgpAttrFlagInvalid peer args.flags args.type = true
  · exact parseReceived_flags follows found notBefore invalid
  · by_cases key : args.type = 22
    · exact parseReceived_key follows found notBefore invalid key
    · exact parseReceived_value follows found notBefore invalid key

theorem parseTurn_related {position : ParsePosition} (follows : Follows peer position scanned) :
    TurnRelated peer behind (parseTurn peer behind position) scanned := by
  rcases position with ⟨unread, seen, state⟩
  rcases scanned with ⟨before, octets⟩
  have same : unread = octets := follows.unread
  subst same
  unfold parseTurn
  by_cases empty : unread = []
  · subst empty
    have state := follows.state
    subst state
    exact .leave .finished
  rw [if_neg empty]
  -- Without another attribute, or with one for the second time, the peer is notified.
  have unreadable : readAttribute unread = none → ∀ notification,
      TurnRelated peer behind (parseError state [notification]) ⟨before, unread⟩ := by
    intro none notification
    have noNext : Scanned.next? behind ⟨before, unread⟩ = .none := by
      simp [Scanned.next?, none]
    simp only [TurnRelated, scanTurn, noNext]
    exact .leave (.notified empty (by simp [noNext]) (by simp))
  cases front : readHeader unread with
  | none => exact unreadable (by simp [readAttribute, front]) _
  | some header =>
    dsimp only
    cases fits : header.attribute? unread with
    | none => split_ifs <;> exact unreadable (by simp [readAttribute, front, fits]) _
    | some pair =>
      rcases pair with ⟨received, rest⟩
      have next : Scanned.next? behind ⟨before, unread⟩ =
          some (⟨received, rest ++ behind⟩, rest) := by
        simp [Scanned.next?, readAttribute, front, fits]
      have sameType : header.type = received.type := by
        rw [(Header.attribute?_eq_some.mp fits).2.1]
      rw [sameType]
      split_ifs with duplicate
      · have again : fate peer before ⟨received, rest ++ behind⟩ = .notified :=
          if_pos ((follows.seen _).mp duplicate)
        simp only [TurnRelated, scanTurn, next, again]
        exact .leave (.ofNotified next again (by simp))
      · exact parseReceived_related follows next duplicate

theorem parseLoop_ends (octets : Bytes) :
    Ends peer behind ((parseLoop peer behind).run ⟨octets, [], .initial⟩)
      (scan peer behind octets) := by
  apply Loop.run_related parseTurn_related
  exact ⟨rfl, by simp, rfl, rfl⟩

/-! ## Attributes that pass -/

variable (peer)

/-- Each attribute passes after the ones before it. -/
inductive Passing : List ParserArgs → Prop
  | nil : Passing []
  | snoc {before : List ParserArgs} {args : ParserArgs} : Passing before →
      fate peer before args = .passes → Passing (before ++ [args])

def Attribute.isAccepted (received : Attribute) : Bool :=
  !bgpAttrFlagInvalid peer received.flags received.type && valueAccepted peer received

variable {peer}

section

variable {before : List ParserArgs}

theorem take_cases {state : ParseState} (transit : state.attr.transit? = transitOf before)
    (passes : fate peer before args = .passes) :
    (args.isAccepted peer = true ∧ Effect peer args state (state.take peer args)) ∨
      (args.isAccepted peer = false ∧ args.type ∈ [6, 7, 18] ∧ state.take peer args = state) := by
  unfold fate at passes
  split at passes
  · cases passes
  split at passes
  · rename_i invalid
    right
    exact ⟨by simp [Attribute.isAccepted, invalid], malformedFate_passes passes, if_pos invalid⟩
  rename_i valid
  split at passes
  · rename_i key
    split at passes
    · rename_i copied
      rcases @bgpAttrDbgp_copied _ peer _ _ key transit copied with ⟨next, parsed, effect⟩
      have full : args.value.length = 4 := by
        simp only [keyCopied, Bool.and_eq_true, decide_eq_true_eq] at copied
        exact copied.1.1
      left
      constructor
      · rw [Attribute.isAccepted, Bool.eq_false_of_not_eq_true valid]
        simp [valueAccepted, key, full]
      · rw [ParseState.take]
        simp only [parseAttribute, key, parsed]
        exact effect
    · cases passes
  · rename_i notKey
    rcases @parseAttribute_checks peer args state notKey with ⟨outcome, parsed, checks⟩
    have taken : state.take peer args = outcome.state := by
      rw [ParseState.take, if_neg valid, parsed]
    rw [taken]
    generalize accepted : valueAccepted peer args.toAttribute = isAccepted at checks passes
    cases checks with
    | complete effect =>
      left
      exact ⟨by simp [Attribute.isAccepted, valid, accepted], effect⟩
    | malformed error data mpUpdate mpWithdraw ignored =>
      right
      have verdict : malformedFate peer args.toAttribute = .passes := by
        cases decided : malformedFate peer args.toAttribute <;> simp_all
      have ignorable := malformedFate_passes verdict
      exact ⟨by simp [Attribute.isAccepted, accepted], ignorable, ignored ignorable⟩
    | notifypls next notifications multiprotocol =>
      simp [malformedFate_multiprotocol multiprotocol] at passes

theorem described_transit (passing : Passing peer before) :
    (described peer before).attr.transit? = transitOf before := by
  induction passing with
  | nil => rfl
  | snoc passing passes induction =>
    rw [described_append, transitOf_append, ← induction]
    rcases take_cases induction passes with ⟨_, effect⟩ | ⟨_, ignorable, same⟩
    · exact effect.transit
    · rw [same, carry_of_ignorable ignorable]

theorem described_flag (passing : Passing peer before) (type : AttributeType) :
    type ∈ (described peer before).attr.flag ↔
      ∃ args ∈ before, args.isAccepted peer = true ∧ flagOf peer args.toAttribute = some type := by
  induction passing with
  | nil => simp [described, ParseState.initial, Attr.zero]
  | @snoc before args passing passes induction =>
    rw [described_append]
    simp only [mem_append, mem_singleton, or_and_right, exists_or, exists_eq_left, ← induction]
    rcases take_cases (described_transit passing) passes with ⟨accepted, effect⟩ |
      ⟨refused, _, same⟩
    · rw [effect.flag]
      simp only [accepted]
      cases flagOf peer args.toAttribute with
      | none => simp
      | some other => simp [or_comm, eq_comm]
    · simp [same, refused]

theorem passes_fresh (passes : fate peer before args = .passes) {earlier : ParserArgs}
    (mem : earlier ∈ before) : earlier.type ≠ args.type := by
  intro same
  rw [fate, if_pos (same ▸ mem_map_of_mem mem)] at passes
  cases passes

end

variable {before : List ParserArgs}

theorem described_field {code : UInt8} {reader : Bytes → Option MpNlri}
    {field : ParseState → MpNlri} (initially : field .initial = .zero)
    (effects : ∀ {args state next}, Effect peer args state next → field next =
      if args.type = code then (reader args.value).getD (field state) else field state)
    (accepts : ∀ {received}, received.type = code → valueAccepted peer received = true →
      (reader received.value).isSome = true) (counts : code ∉ [6, 7, 18])
    (passing : Passing peer before) :
    (∀ args ∈ before, args.type = code →
        reader args.value = some (field (described peer before))) ∧
      ((∀ args ∈ before, args.type ≠ code) → field (described peer before) = .zero) := by
  induction passing with
  | nil => exact ⟨nofun, fun _ => initially⟩
  | @snoc before args passing passes induction =>
    rw [described_append]
    simp only [mem_append, mem_singleton, or_imp, forall_and, forall_eq]
    by_cases type : args.type = code
    · rcases take_cases (described_transit passing) passes with ⟨accepted, effect⟩ |
        ⟨_, ignorable, _⟩
      · have valid : valueAccepted peer args.toAttribute = true := by
          simp only [Attribute.isAccepted, Bool.and_eq_true] at accepted
          exact accepted.2
        rcases Option.isSome_iff_exists.mp (accepts type valid) with ⟨value, read⟩
        have written : field ((described peer before).take peer args) = value := by
          rw [effects effect, if_pos type, read, Option.getD_some]
        rw [written]
        refine ⟨⟨?_, fun _ => read⟩, fun none => absurd type none.2⟩
        intro earlier mem earlierType
        exact absurd (earlierType.trans type.symm) (passes_fresh passes mem)
      · exact absurd (type ▸ ignorable) counts
    · have unchanged : field ((described peer before).take peer args) =
          field (described peer before) := by
        rcases take_cases (described_transit passing) passes with ⟨_, effect⟩ | ⟨_, _, same⟩
        · rw [effects effect, if_neg type]
        · rw [same]
      rw [unchanged]
      exact ⟨⟨induction.1, fun reached => absurd reached type⟩, fun none => induction.2 none.1⟩

theorem described_mpUpdate (passing : Passing peer before) :
    (∀ args ∈ before, args.type = 14 →
        mpReach? args.value = some (described peer before).mpUpdate) ∧
      ((∀ args ∈ before, args.type ≠ 14) → (described peer before).mpUpdate = .zero) := by
  apply described_field rfl Effect.mpUpdate _ (by decide) passing
  intro received type accepted
  simpa only [valueAccepted, type] using accepted

theorem described_mpWithdraw (passing : Passing peer before) :
    (∀ args ∈ before, args.type = 15 →
        mpUnreach? args.value = some (described peer before).mpWithdraw) ∧
      ((∀ args ∈ before, args.type ≠ 15) → (described peer before).mpWithdraw = .zero) := by
  apply described_field rfl Effect.mpWithdraw _ (by decide) passing
  intro received type accepted
  simpa only [valueAccepted, type] using accepted

/-! ## What a scan finds -/

variable (peer)

/-- The attributes that pass come first among those of the section. -/
structure Scans (octets : Bytes) (scanned : Scanned) : Prop where
  passing : Passing peer scanned.before
  records : attributeReader.records octets =
    (scanned.before.map ParserArgs.toAttribute ++ (attributeReader.records scanned.unread).1,
      (attributeReader.records scanned.unread).2)

variable {peer}

theorem scanTurn_leave {scanned result : Scanned}
    (left : scanTurn peer behind scanned = .leave result) : result = scanned := by
  revert left
  fun_cases scanTurn peer behind scanned <;> rintro ⟨⟩
  · rfl
  · rfl

theorem Scans.next {octets : Bytes} {scanned following : Scanned}
    (scans : Scans peer octets scanned) (taken : scanTurn peer behind scanned = .next following) :
    Scans peer octets following := by
  rcases scanTurn_next taken with ⟨args, found, passes, extended⟩
  have read := (Scanned.next?_eq_some.mp found).1
  refine ⟨extended ▸ .snoc scans.passing passes, ?_⟩
  rw [scans.records, attributeReader.records_of_read read, extended]
  simp

@[simp] theorem scan_nil : scan peer behind [] = ⟨[], []⟩ := rfl

theorem scan_scans (octets : Bytes) : Scans peer octets (scan peer behind octets) := by
  apply (scanLoop peer behind).run_invariant Scans.next
  · intro scanned result scans left
    exact scanTurn_leave left ▸ scans
  · exact ⟨.nil, by simp⟩

end

end Quagga.Bgp
