import Quagga.Bgp.UpdateMessage

/-!
# Treating an UPDATE as a withdrawal

A malformed attribute that is optional, transitive and partial does not reset the session:
`bgp_attr_parse` stops there, and the prefixes of the message are withdrawn. The prefixes are
taken to start at the octet behind the malformed attribute, so that other attributes after it
are read as prefixes, and multiprotocol prefixes after it are not read at all.
-/

namespace Quagga.Bgp

open Foundation Dbgp List

section

variable (peer : ReceivingPeer) (behind : Bytes) (message : Message)

/-- The prefixes of the message itself are withdrawn, those it announces and maybe those it
withdraws, and nothing else happens. -/
def Message.WithdrawsOwn (result : Execution Receipt) : Prop :=
  ∃ receipt, result = .ok receipt ∧ receipt.notifications = [] ∧ receipt.InstallsNothing ∧
    message.announced peer ⊆ receipt.withdrawn ∧
    receipt.withdrawn ⊆ message.announced peer ++ message.withdrawn peer

/-- Every field of prefixes of the message is well formed. -/
structure Message.WellFormed : Prop where
  withdraw : isSane message.withdraw = true
  nlri : isSane message.nlri = true
  announced : ∀ packet ∈ fieldsOf peer message.nlri (reachOf message.received), packet.Routable
  withdrawn : ∀ packet ∈ fieldsOf peer message.withdraw (unreachOf message.received),
    packet.Routable

/-- The attribute behind the malformed one, if there is any, is marked optional or transitive.
Every attribute has to be. -/
def Message.NextMarked : Prop :=
  ∀ malformed flags rest, message.next? peer behind = some (malformed, flags :: rest) →
    hasFlag flags flagsOptionalTrans = true

/-- The malformed attribute is the last one of the section. -/
def Message.EndsMalformed : Prop := ∃ malformed, message.next? peer behind = some (malformed, [])

end

section

variable {peer : ReceivingPeer} {behind : Bytes} {message : Message}

theorem bgpAttrParse_withdraw {result : ParseResult}
    (parsed : bgpAttrParse peer (message.nlri ++ behind) message.attributes = .ok result)
    (withdraw : result.ret = .withdraw) :
    ∃ malformed trailing, message.next? peer behind = some (malformed, trailing) ∧
      fate peer (message.scan peer behind).before malformed = .withdrawn := by
  have ends := @parseLoop_ends peer (message.nlri ++ behind) message.attributes
  change Ends peer (message.nlri ++ behind) _ (message.scan peer behind) at ends
  rcases Execution.bind_eq_ok.mp parsed with ⟨final, ran, returned⟩
  rw [ran] at ends
  split at returned
  · cases returned
    rcases @checkAttributes_cases peer final.state with ⟨failed, _⟩ | ⟨attr, _, checked⟩
    · rw [failed] at withdraw
      cases withdraw
    · rw [checked] at withdraw
      cases withdraw
  · cases returned
    unfold Message.next?
    generalize message.scan peer behind = scanned at ends
    cases ends with
    | finished | notified => cases withdraw
    | withdrawn found decided => exact ⟨_, _, found, decided⟩
    | unnoticed => cases withdraw

theorem fate_withdrawn_type {before : List ParserArgs} {args : ParserArgs}
    (decided : fate peer before args = .withdrawn) : args.type ∉ [14, 15] := by
  intro multiprotocol
  unfold fate at decided
  rw [malformedFate_multiprotocol multiprotocol] at decided
  repeat' split at decided
  all_goals cases decided

theorem handed_of_last {malformed : ParserArgs} (wellFormed : message.WellFormed peer)
    (found : message.next? peer behind = some (malformed, []))
    (decided : fate peer (message.scan peer behind).before malformed = .withdrawn) :
    message.handed peer behind message.nlri = message.withdrawn peer ++ message.announced peer := by
  have records := (message.scan_scans peer behind).records
  have read := (Scanned.next?_eq_some.mp found).1
  have received : message.received =
      (message.scan peer behind).before.map ParserArgs.toAttribute ++ [malformed.toAttribute] := by
    rw [Message.received, records, attributeReader.records_of_read read]
    simp
  have type := fate_withdrawn_type decided
  simp only [mem_cons, not_or] at type
  have reach : reachOf message.received =
      reachOf ((message.scan peer behind).before.map ParserArgs.toAttribute) := by
    simp [received, reachOf, fieldsIn, type.1]
  have unreach : unreachOf message.received =
      unreachOf ((message.scan peer behind).before.map ParserArgs.toAttribute) := by
    simp [received, unreachOf, fieldsIn, type.2]
  rw [Message.handed, Message.withdrawn, Message.announced, flatMap_append, reach, unreach]
  have announced := wellFormed.announced
  have withdrawn := wellFormed.withdrawn
  rw [reach] at announced
  rw [unreach] at withdrawn
  congr 1
  · apply flatMap_congr
    intro packet mem
    exact Nlri.destinations_of_routable (withdrawn packet mem)
  · apply flatMap_congr
    intro packet mem
    exact Nlri.destinations_of_routable (announced packet mem)

theorem le_of_hasFlag {flags : UInt8} (marked : hasFlag flags flagsOptionalTrans = true) :
    64 ≤ flags.toNat := by
  rcases flags with ⟨bits⟩
  revert bits
  decide

/-- The flags of an attribute are no length of an IPv4 prefix. -/
theorem not_isSane_of_marked {flags : UInt8} {octets : Bytes}
    (marked : hasFlag flags flagsOptionalTrans = true) : isSane (flags :: octets) = false := by
  have unreadable : (entryReader (maxPrefixlen Afi.ip.code)).read (flags :: octets) = none := by
    have tooLong := le_of_hasFlag marked
    apply if_pos
    left
    change 32 < flags.toNat
    omega
  simp [isSane, bgpNlriSanityCheck, RecordReader.records_of_unreadable _ _ unreadable]

end

/-! ## The last attribute, and another one -/

def malformedAs4Path : Bytes := [0xe0, 17, 1, 0]

end Quagga.Bgp
