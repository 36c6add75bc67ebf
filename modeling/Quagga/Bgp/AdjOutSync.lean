import Quagga.Bgp.AdjOut
import Mathlib.Data.Finset.Card

/-!
# What the peer holds

The peer applies the packets in order. What it holds then is what the adjacencies say it has
been sent, and what is due to it is what was set last.
-/

namespace Quagga.Bgp

open Foundation Function List Option

section

variable {ν α ι π : Type}

/-- What a packet tells the peer, prefix by prefix. -/
def Packet.changes : Packet ν α π → List (ν × Option α)
  | .update attr prefixes _ => prefixes.map fun rn => (rn, some attr)
  | .withdraw prefixes _ => prefixes.map fun rn => (rn, none)

def received (packets : List (Packet ν α π)) : List (ν × Option α) := packets.flatMap Packet.changes

/-- What the operations on the nodes of the table ask for. -/
def AdjOutEvent.operation? : AdjOutEvent ν α ι → Option (ν × Option α)
  | .set rn attr _ => some (rn, some attr)
  | .unset rn => some (rn, none)
  | .updatePacket => none
  | .withdrawPacket => none

def operations (events : List (AdjOutEvent ν α ι)) : List (ν × Option α) :=
  events.filterMap AdjOutEvent.operation?

theorem received_snoc (packets : List (Packet ν α π)) (packet : Packet ν α π) :
    received (packets ++ [packet]) = received packets ++ packet.changes := by
  rw [received, flatMap_append, flatMap_singleton]
  rfl

/-! ## The lists and the adjacencies -/

def pending (adj? : Option (AdjOut α ι)) : Option (Option α) :=
  adj?.bind fun adj => adj.adv?.map (·.baa?)

/-- The advertisements in the lists are those of the adjacencies. -/
structure AdjRibOut.Linked (rib : AdjRibOut ν α ι π) : Prop where
  updateNodup : rib.update.Nodup
  withdrawNodup : rib.withdraw.Nodup
  baaNodup : ∀ attr, (rib.baa attr).Nodup
  mem_update : ∀ rn, rn ∈ rib.update ↔ ∃ attr, pending (rib.adjOut rn) = some (some attr)
  mem_withdraw : ∀ rn, rn ∈ rib.withdraw ↔ pending (rib.adjOut rn) = some none
  mem_baa : ∀ rn attr, rn ∈ rib.baa attr ↔ pending (rib.adjOut rn) = some (some attr)

theorem AdjRibOut.Linked.keep {rib : AdjRibOut ν α ι π} (linked : rib.Linked) (scount : Int)
    (obuf : List (Packet ν α π)) : AdjRibOut.Linked { rib with scount := scount, obuf := obuf } :=
  ⟨linked.updateNodup, linked.withdrawNodup, linked.baaNodup, linked.mem_update,
    linked.mem_withdraw, linked.mem_baa⟩

variable [DecidableEq ν] [DecidableEq α]

def requeue (rn : ν) (queued : Bool) (queue : List ν) : List ν :=
  if queued then queue.erase rn ++ [rn] else queue.erase rn

theorem mem_requeue {rn other : ν} {queued : Bool} {queue : List ν} (nodup : queue.Nodup) :
    other ∈ requeue rn queued queue ↔ if other = rn then queued = true else other ∈ queue := by
  unfold requeue
  by_cases same : other = rn
  · subst same
    cases queued with
    | true => simp
    | false => simp [nodup.not_mem_erase]
  · cases queued with
    | true | false => simp [same]

theorem nodup_requeue {queue : List ν} (nodup : queue.Nodup) (rn : ν) (queued : Bool) :
    (requeue rn queued queue).Nodup := by
  unfold requeue
  split
  · rw [nodup_append]
    refine ⟨nodup.erase rn, nodup_singleton rn, ?_⟩
    intro other member last isLast same
    rw [same, mem_singleton.mp isLast] at member
    exact nodup.not_mem_erase member
  · exact nodup.erase rn

/-- Whatever is done with a node gives it another adjacency, and takes its advertisement out of
the lists before the new one is put there. -/
def relink (rib : AdjRibOut ν α ι π) (rn : ν) (adj? : Option (AdjOut α ι)) : AdjRibOut ν α ι π :=
  { rib with
    adjOut := update rib.adjOut rn adj?
    update := requeue rn ((pending adj?).any Option.isSome) rib.update
    withdraw := requeue rn (pending adj? = some none) rib.withdraw
    baa := fun attr =>
      if pending adj? = some (some attr) then rn :: (rib.baa attr).erase rn
      else (rib.baa attr).erase rn }

omit [DecidableEq α] in
theorem any_isSome_iff (value : Option (Option α)) :
    value.any Option.isSome = true ↔ ∃ attr, value = some (some attr) := by
  rcases value with _ | _ | attr <;> simp

variable {rib : AdjRibOut ν α ι π} {rn : ν}

theorem AdjRibOut.Linked.relink (linked : rib.Linked) (rn : ν) (adj? : Option (AdjOut α ι)) :
    (relink rib rn adj?).Linked where
  updateNodup := nodup_requeue linked.updateNodup rn _
  withdrawNodup := nodup_requeue linked.withdrawNodup rn _
  baaNodup attr := by
    have nodup := linked.baaNodup attr
    unfold Quagga.Bgp.relink
    dsimp only
    split
    · exact nodup_cons.mpr ⟨nodup.not_mem_erase, nodup.erase rn⟩
    · exact nodup.erase rn
  mem_update other := by
    unfold Quagga.Bgp.relink
    dsimp only
    rw [mem_requeue linked.updateNodup, any_isSome_iff, update_apply]
    split
    · rfl
    · exact linked.mem_update other
  mem_withdraw other := by
    unfold Quagga.Bgp.relink
    dsimp only
    rw [mem_requeue linked.withdrawNodup, decide_eq_true_iff, update_apply]
    split
    · rfl
    · exact linked.mem_withdraw other
  mem_baa other attr := by
    unfold Quagga.Bgp.relink
    dsimp only
    rw [update_apply]
    by_cases same : other = rn
    · subst same
      rw [if_pos rfl]
      split
      · rename_i waits
        simp [waits]
      · rename_i other
        simp [other, (linked.baaNodup attr).not_mem_erase]
    · rw [if_neg same, ← linked.mem_baa other attr]
      split
      · rw [mem_cons, mem_erase_of_ne same]
        simp [same]
      · rw [mem_erase_of_ne same]

omit [DecidableEq α] in
theorem AdjRibOut.Linked.erase_eq (linked : rib.Linked) (idle : pending (rib.adjOut rn) = none) :
    rib.update.erase rn = rib.update ∧ rib.withdraw.erase rn = rib.withdraw ∧
      (fun attr => (rib.baa attr).erase rn) = rib.baa := by
  refine ⟨erase_of_not_mem ?_, erase_of_not_mem ?_, funext fun attr => erase_of_not_mem ?_⟩
  · simp [linked.mem_update, idle]
  · simp [linked.mem_withdraw, idle]
  · simp [linked.mem_baa, idle]

theorem erase_baa (linked : rib.Linked) {attr : α}
    (waits : pending (rib.adjOut rn) = some (some attr)) :
    update rib.baa attr ((rib.baa attr).erase rn) =
      fun attr => (rib.baa attr).erase rn := by
  funext other
  rw [update_apply]
  split
  · rename_i same
    rw [same]
  · rename_i different
    rw [erase_of_not_mem]
    rw [linked.mem_baa, waits]
    intro same
    exact different (Option.some.inj (Option.some.inj same)).symm

theorem bgpAdvertiseClean_eq (linked : rib.Linked) {adv : Advertise α ι}
    (waits : pending (rib.adjOut rn) = some adv.baa?) (adj : AdjOut α ι) :
    bgpAdvertiseClean rib rn adj adv =
      (adv.baa?.bind fun attr => ((rib.baa attr).erase rn).head?,
        relink rib rn (some { adj with adv? := none })) := by
  rcases adv with ⟨_ | attr, binfo?⟩
  · have absent : ∀ attr, rn ∉ rib.baa attr := by
      intro attr
      rw [linked.mem_baa, waits]
      exact fun same => nomatch same
    have same : (fun attr => (rib.baa attr).erase rn) = rib.baa :=
      funext fun attr => erase_of_not_mem (absent attr)
    simp [bgpAdvertiseClean, relink, pending, requeue, same]
  · simp [bgpAdvertiseClean, relink, pending, requeue, erase_baa linked waits]

@[simp] theorem cleanPending_obuf (rib : AdjRibOut ν α ι π) (rn : ν) (adj : AdjOut α ι) :
    (cleanPending rib rn adj).obuf = rib.obuf := by
  unfold cleanPending
  split <;> rfl

theorem linked_cleanPending (linked : rib.Linked) (rn : ν) (adj : AdjOut α ι)
    (found : (rib.adjOut rn).getD ⟨none, none⟩ = adj) :
    (cleanPending rib rn adj).Linked ∧ pending ((cleanPending rib rn adj).adjOut rn) = none ∧
      (cleanPending rib rn adj).scount = rib.scount ∧
      ∀ adj?, update (cleanPending rib rn adj).adjOut rn adj? = update rib.adjOut rn adj? := by
  have waits : pending (rib.adjOut rn) = adj.adv?.map (·.baa?) := by
    rw [← found]
    cases rib.adjOut rn <;> rfl
  unfold cleanPending
  rcases adj with ⟨attr?, _ | adv⟩
  · exact ⟨linked, waits, rfl, fun _ => rfl⟩
  · dsimp only
    rw [bgpAdvertiseClean_eq linked waits]
    refine ⟨linked.relink rn _, ?_, rfl, ?_⟩
    · simp [relink, pending]
    · intro adj?
      exact update_idem _ _ _

section

variable (linked : rib.Linked) (idle : pending (rib.adjOut rn) = none)
include linked idle

theorem link_update_eq (attr? : Option α) (attr : α) (binfo? : Option ι) :
    { rib with
      adjOut := update rib.adjOut rn (some ⟨attr?, some ⟨some attr, binfo?⟩⟩)
      baa := update rib.baa attr (rn :: rib.baa attr)
      update := rib.update ++ [rn] } = relink rib rn (some ⟨attr?, some ⟨some attr, binfo?⟩⟩) := by
  have erased := linked.erase_eq idle
  have baa : update rib.baa attr (rn :: rib.baa attr) = fun other =>
      if attr = other then rn :: (rib.baa other).erase rn else (rib.baa other).erase rn := by
    funext other
    rw [update_apply, congrFun erased.2.2 other]
    by_cases same : other = attr
    · simp [same]
    · rw [if_neg same, if_neg (Ne.symm same)]
  simp [relink, pending, requeue, baa, erased]

theorem link_withdraw_eq (attr? : Option α) (binfo? : Option ι) :
    { rib with
      adjOut := update rib.adjOut rn (some ⟨attr?, some ⟨none, binfo?⟩⟩)
      withdraw := rib.withdraw ++ [rn] } = relink rib rn (some ⟨attr?, some ⟨none, binfo?⟩⟩) := by
  simp [relink, pending, requeue, linked.erase_eq idle]

theorem unlink_eq : { rib with adjOut := update rib.adjOut rn none } = relink rib rn none := by
  simp [relink, pending, requeue, linked.erase_eq idle]

end

/-! ## What is sent and what is due -/

/-- What the peer will hold once the node's advertisement has been sent. -/
def due (adj? : Option (AdjOut α ι)) : Option α := (pending adj?).getD (adj?.bind AdjOut.attr?)

structure Synced (requested changes : List (ν × Option α)) (rib : AdjRibOut ν α ι π) : Prop where
  linked : rib.Linked
  sent : ∀ rn, (rib.adjOut rn).bind AdjOut.attr? = tableAfter changes rn
  due : ∀ rn, due (rib.adjOut rn) = tableAfter requested rn
  known : ∀ rn, pending (rib.adjOut rn) = some none → (tableAfter changes rn).isSome
  present : RemovesPresent changes
  counted : ∃ holding : Finset ν, (∀ rn, rn ∈ holding ↔ (tableAfter changes rn).isSome) ∧
    rib.scount = holding.card

variable {requested changes : List (ν × Option α)} {other : AdjRibOut ν α ι π}

omit [DecidableEq α] in
theorem Synced.request (synced : Synced requested changes rib) (adj? : Option (AdjOut α ι))
    (linked : other.Linked) (adjOut : other.adjOut = update rib.adjOut rn adj?)
    (scount : other.scount = rib.scount)
    (kept : adj?.bind AdjOut.attr? = (rib.adjOut rn).bind AdjOut.attr?)
    (known : pending adj? = some none → (adj?.bind AdjOut.attr?).isSome) :
    Synced (requested ++ [(rn, Quagga.Bgp.due adj?)]) changes other where
  linked := linked
  sent node := by
    rw [adjOut, update_apply]
    split
    · rename_i same
      rw [kept, same]
      exact synced.sent rn
    · exact synced.sent node
  due node := by
    rw [adjOut, update_apply]
    split
    · rename_i same
      rw [same, tableAfter_snoc_self]
    · rename_i different
      rw [tableAfter_snoc_of_ne _ _ different]
      exact synced.due node
  known node := by
    rw [adjOut, update_apply]
    split
    · rename_i same
      rw [same, ← synced.sent rn, ← kept]
      exact known
    · exact synced.known node
  present := synced.present
  counted := scount ▸ synced.counted

omit [DecidableEq α] in
theorem Synced.send (synced : Synced requested changes rib) (adj? : Option (AdjOut α ι))
    {value : Option α} (waits : pending (rib.adjOut rn) = some value) (linked : other.Linked)
    (adjOut : other.adjOut = update rib.adjOut rn adj?) (sent : adj?.bind AdjOut.attr? = value)
    (idle : pending adj? = none)
    (scount : other.scount = rib.scount + (if value.isSome then 1 else 0) -
      (if ((rib.adjOut rn).bind AdjOut.attr?).isSome then 1 else 0)) :
    Synced requested (changes ++ [(rn, value)]) other where
  linked := linked
  sent node := by
    rw [adjOut, update_apply]
    split
    · rename_i same
      rw [same, tableAfter_snoc_self, sent]
    · rename_i different
      rw [tableAfter_snoc_of_ne _ _ different]
      exact synced.sent node
  due node := by
    rw [adjOut, update_apply]
    split
    · rename_i same
      have before := synced.due rn
      rw [Quagga.Bgp.due, waits] at before
      rw [same, ← before, Quagga.Bgp.due, idle, sent]
      rfl
    · exact synced.due node
  known node := by
    rw [adjOut, update_apply]
    split
    · rw [idle]
      exact fun impossible => nomatch impossible
    · rename_i different
      rw [tableAfter_snoc_of_ne _ _ different]
      exact synced.known node
  present := synced.present.snoc fun removes => synced.known rn (removes ▸ waits)
  counted := by
    rcases synced.counted with ⟨holding, members, count⟩
    have wasHeld := members rn
    rw [synced.sent rn] at scount
    simp only [← wasHeld] at scount
    cases value with
    | some attr =>
      refine ⟨insert rn holding, ?_, ?_⟩
      · intro node
        rw [Finset.mem_insert]
        by_cases same : node = rn
        · simp [same]
        · simp [same, members node, tableAfter_snoc_of_ne _ _ same]
      · rw [scount, count]
        by_cases held : rn ∈ holding
        · simp [held]
        · simp [held]
    | none =>
      have held : rn ∈ holding := wasHeld.mpr (synced.known rn waits)
      refine ⟨holding.erase rn, ?_, ?_⟩
      · intro node
        rw [Finset.mem_erase]
        by_cases same : node = rn
        · simp [same]
        · simp [same, members node, tableAfter_snoc_of_ne _ _ same]
      · have positive := Finset.card_pos.mpr ⟨rn, held⟩
        rw [scount, count]
        simp [held]
        omega

/-! ## Every step keeps the two in step -/

section

variable (synced : Synced requested changes rib)
include synced

theorem Synced.set (rn : ν) (attr : α) (binfo : ι) :
    Synced (requested ++ [(rn, some attr)]) changes (bgpAdjOutSet rib rn attr binfo) := by
  rcases linked_cleanPending synced.linked rn _ rfl with ⟨linked, idle, scount, adjOut⟩
  unfold bgpAdjOutSet
  rw [link_update_eq linked idle]
  exact synced.request (some ⟨_, some ⟨some attr, some binfo⟩⟩) (linked.relink rn _) (adjOut _)
    scount (by cases rib.adjOut rn <;> rfl) (by simp [pending])

theorem Synced.unset (rn : ν) :
    Synced (requested ++ [(rn, none)]) changes (bgpAdjOutUnset rib rn) := by
  unfold bgpAdjOutUnset
  cases found : rib.adjOut rn with
  | none =>
    have same : rib.adjOut = update rib.adjOut rn none := by
      rw [← found, update_eq_self]
    exact synced.request none synced.linked same rfl (by rw [found]) (by simp [pending])
  | some adj =>
    rcases linked_cleanPending synced.linked rn adj (by rw [found]; rfl) with
      ⟨linked, idle, scount, adjOut⟩
    dsimp only
    split
    · rename_i held
      rw [link_withdraw_eq linked idle]
      exact synced.request (some ⟨adj.attr?, some ⟨none, none⟩⟩) (linked.relink rn _)
        (adjOut _) scount (by rw [found]; rfl) (fun _ => held)
    · rename_i notHeld
      have nothing : adj.attr? = none := by simpa using notHeld
      rw [unlink_eq linked idle]
      exact synced.request none (linked.relink rn _) (adjOut _) scount
        (by rw [found]; exact nothing.symm) (by simp [pending])

theorem Synced.withdrawn {adj : AdjOut α ι} (found : rib.adjOut rn = some adj)
    (waits : rn ∈ rib.withdraw) :
    Synced requested (changes ++ [(rn, none)])
      (bgpAdjOutRemove { rib with scount := rib.scount - 1 } rn adj) := by
  have isPending := (synced.linked.mem_withdraw rn).mp waits
  have held := synced.known rn isPending
  rw [← synced.sent rn] at held
  have counted := synced.linked.keep (rib.scount - 1) rib.obuf
  rcases linked_cleanPending counted rn adj (by rw [found]; rfl) with
    ⟨linked, idle, scount, adjOut⟩
  have removed := unlink_eq linked idle
  unfold bgpAdjOutRemove
  rw [removed]
  exact synced.send none isPending (linked.relink rn _) (adjOut _) rfl rfl (by
    rw [held]
    simpa [relink] using scount)

theorem Synced.advertised {sent? : Option α} {attr : α} {binfo? : Option ι}
    (found : rib.adjOut rn = some ⟨sent?, some ⟨some attr, binfo?⟩⟩) :
    let turn := bgpAdvertiseClean
      { rib with scount := if sent?.isSome then rib.scount else rib.scount + 1 } rn
      ⟨some attr, none⟩ ⟨some attr, binfo?⟩
    Synced requested (changes ++ [(rn, some attr)]) turn.2 ∧
      (∀ next, turn.1 = some next → pending (turn.2.adjOut next) = some (some attr)) ∧
      turn.2.update.length < rib.update.length ∧ turn.2.obuf = rib.obuf := by
  have waits : pending (rib.adjOut rn) = some (some attr) := by rw [found]; rfl
  have linked := synced.linked.keep
    (if sent?.isSome then rib.scount else rib.scount + 1) rib.obuf
  intro turn
  have clean : turn = _ := @bgpAdvertiseClean_eq _ _ _ _ _ _ _ rn linked ⟨some attr, binfo?⟩
    waits ⟨some attr, none⟩
  have relinked := linked.relink rn (some ⟨some attr, none⟩)
  rw [clean]
  refine ⟨?_, ?_, ?_, rfl⟩
  · apply synced.send (some ⟨some attr, none⟩) waits relinked rfl rfl rfl
    rw [found]
    cases sent? <;> simp [relink]
  · intro next isNext
    rw [← relinked.mem_baa next attr]
    have inList := mem_of_head? isNext
    exact inList
  · have member : rn ∈ rib.update := (synced.linked.mem_update rn).mpr ⟨attr, waits⟩
    have shorter := length_erase_of_mem member
    have positive := length_pos_of_mem member
    simp only [relink, pending, requeue, bind_some, map_none, any_none,
      Bool.false_eq_true, if_false]
    omega

end

/-! ## Packets -/

variable {writer : PacketWriter ν α ι π}

def openChanges (update? : Option (OpenUpdate ν α π)) : List (ν × Option α) :=
  update?.elim [] fun update => update.prefixes.map fun rn => (rn, some update.attr)

omit [DecidableEq ν] [DecidableEq α] in
@[simp] theorem openChanges_none : openChanges (none : Option (OpenUpdate ν α π)) = [] := rfl

omit [DecidableEq ν] [DecidableEq α] in
theorem openUpdate_eq_some {update? : Option (OpenUpdate ν α π)} {attr : α} {binfo? : Option ι}
    (same : ∀ update, update? = some update → update.attr = attr) {update : OpenUpdate ν α π}
    (opened : openUpdate writer update? attr binfo? = some update) :
    update.attr = attr ∧ openChanges update? = update.prefixes.map fun rn => (rn, some attr) := by
  cases update? with
  | some earlier =>
    cases Option.some.inj opened
    have isAttr := same update rfl
    rw [← isAttr]
    exact ⟨rfl, rfl⟩
  | none =>
    rcases map_eq_some_iff.mp opened with ⟨octets, _, rfl⟩
    exact ⟨rfl, rfl⟩

theorem Synced.updateWithin {fuel : Nat} {binfo? : Option ι}
    {update? result? : Option (OpenUpdate ν α π)} {adv? : Option ν}
    (synced : Synced requested (changes ++ openChanges update?) rib)
    (same : ∀ update rn, update? = some update → adv? = some rn →
      pending (rib.adjOut rn) = some (some update.attr))
    (ran : updateWithin writer fuel rib binfo? update? adv? = some (other, result?)) :
    Synced requested (changes ++ openChanges result?) other ∧ other.obuf = rib.obuf := by
  fun_induction Quagga.Bgp.updateWithin writer fuel rib binfo? update? adv? with
  | case1 fuel rib binfo? update? =>
    cases Option.some.inj ran
    exact ⟨synced, rfl⟩
  | case2 => cases ran
  | case3 fuel rib binfo? update? rn sent? attr advBinfo? found full =>
    cases Option.some.inj ran
    exact ⟨synced, rfl⟩
  | case4 fuel rib _ update? rn sent? attr advBinfo? found binfo? notFull induction =>
    have waits : pending (rib.adjOut rn) = some (some attr) := by rw [found]; rfl
    simp only [bind_eq_bind, bind_eq_some_iff] at ran
    rcases ran with ⟨update, opened, octets, _, ran⟩
    have isAttr : ∀ update, update? = some update → update.attr = attr := by
      intro update isOpen
      have both := (same update rn isOpen rfl).symm.trans waits
      exact Option.some.inj (Option.some.inj both)
    rcases openUpdate_eq_some isAttr opened with ⟨attrOf, changesOf⟩
    rcases synced.advertised found with ⟨next, nextWaits, _, obuf⟩
    rw [changesOf] at next
    have grown : changes ++ openChanges (some { update with
        prefixes := update.prefixes ++ [rn], octets := octets }) =
        changes ++ (update.prefixes.map fun rn => (rn, some attr)) ++ [(rn, some attr)] := by
      simp [openChanges, attrOf]
    rw [← grown] at next
    rcases induction update octets _ _ next (by
      intro open' rn' isOpen isNext
      cases Option.some.inj isOpen
      rw [attrOf]
      exact nextWaits rn' isNext) ran with ⟨done, doneObuf⟩
    exact ⟨done, doneObuf.trans obuf⟩
  | case5 => cases ran

omit [DecidableEq α] in
theorem Synced.emit (synced : Synced requested changes rib) (obuf : List (Packet ν α π)) :
    Synced requested changes { rib with obuf := obuf } :=
  ⟨synced.linked.keep rib.scount obuf, synced.sent, synced.due, synced.known, synced.present,
    synced.counted⟩

theorem Synced.updatePacket (synced : Synced requested (received rib.obuf) rib)
    (ran : bgpUpdatePacket writer rib = some other) :
    Synced requested (received other.obuf) other := by
  unfold bgpUpdatePacket at ran
  simp only [bind_eq_bind, bind_eq_some_iff] at ran
  rcases ran with ⟨⟨sent, update?⟩, looped, ran⟩
  have start : Synced requested
      (received rib.obuf ++ openChanges (none : Option (OpenUpdate ν α π))) rib := by
    simpa using synced
  rcases start.updateWithin (fun _ _ isOpen => nomatch isOpen) looped with ⟨done, obuf⟩
  cases update? with
  | none =>
    cases Option.some.inj ran
    rw [obuf]
    simpa using done
  | some update =>
    cases Option.some.inj ran
    rw [received_snoc, obuf]
    exact done.emit _

theorem Synced.withdrawWithin {fuel : Nat} {prefixes result : List ν}
    {octets? resultOctets? : Option π}
    (synced : Synced requested (changes ++ prefixes.map fun rn => (rn, none)) rib)
    (empty : octets? = none → prefixes = [])
    (ran : withdrawWithin writer fuel rib prefixes octets? = some (other, result, resultOctets?)) :
    Synced requested (changes ++ result.map fun rn => (rn, none)) other ∧
      other.obuf = rib.obuf ∧ (resultOctets? = none → result = []) := by
  fun_induction Quagga.Bgp.withdrawWithin writer fuel rib prefixes octets? with
  | case1 => cases ran
  | case2 fuel rib prefixes octets? nothing =>
    cases Option.some.inj ran
    exact ⟨synced, rfl, empty⟩
  | case3 fuel rib prefixes octets? rn isHead full =>
    cases Option.some.inj ran
    exact ⟨synced, rfl, empty⟩
  | case4 => cases ran
  | case5 fuel rib prefixes octets? rn isHead notFull adj found induction =>
    simp only [bind_eq_bind, bind_eq_some_iff] at ran
    rcases ran with ⟨octets, _, ran⟩
    have next := synced.withdrawn found (mem_of_head? isHead)
    have grown : (changes ++ prefixes.map fun rn => (rn, none)) ++ [(rn, none)] =
        changes ++ (prefixes ++ [rn]).map fun rn => (rn, (none : Option α)) := by
      simp
    rw [grown] at next
    rcases induction octets next (by simp) ran with ⟨done, obuf, stillEmpty⟩
    exact ⟨done, obuf.trans (cleanPending_obuf _ rn adj), stillEmpty⟩

theorem Synced.withdrawPacket (synced : Synced requested (received rib.obuf) rib)
    (ran : bgpWithdrawPacket writer rib = some other) :
    Synced requested (received other.obuf) other := by
  unfold bgpWithdrawPacket at ran
  simp only [bind_eq_bind, bind_eq_some_iff] at ran
  rcases ran with ⟨⟨sent, prefixes, octets?⟩, looped, ran⟩
  have start : Synced requested (received rib.obuf ++
      ([] : List ν).map fun rn => (rn, none)) rib := by
    simpa using synced
  rcases start.withdrawWithin (fun _ => rfl) looped with ⟨done, obuf, empty⟩
  cases octets? with
  | none =>
    cases Option.some.inj ran
    rw [obuf]
    simpa [empty rfl] using done
  | some octets =>
    cases Option.some.inj ran
    rw [received_snoc, obuf]
    exact done.emit _

/-! ## Runs -/

theorem bgpAdjOutUnset_obuf (rn : ν) : (bgpAdjOutUnset rib rn).obuf = rib.obuf := by
  unfold bgpAdjOutUnset
  split
  · rfl
  · split
    · exact cleanPending_obuf _ _ _
    · exact cleanPending_obuf _ _ _

omit [DecidableEq ν] [DecidableEq α] in
theorem eq_some_of_step {made : Option (AdjRibOut ν α ι π)}
    (stepped : some (made.elim (Except.error Aborted.assertion) .ok) = some (.ok other)) :
    made = some other := by
  cases made with
  | none => cases stepped
  | some result =>
    cases stepped
    rfl

theorem Synced.step {event : AdjOutEvent ν α ι} (synced : Synced requested (received rib.obuf) rib)
    (stepped : adjOutStep writer rib event = some (.ok other)) :
    Synced (requested ++ operations [event]) (received other.obuf) other := by
  cases event with
  | set rn attr binfo =>
    cases Except.ok.inj (Option.some.inj stepped)
    have kept : (bgpAdjOutSet rib rn attr binfo).obuf = rib.obuf := by simp [bgpAdjOutSet]
    rw [kept]
    exact synced.set rn attr binfo
  | unset rn =>
    cases Except.ok.inj (Option.some.inj stepped)
    rw [bgpAdjOutUnset_obuf]
    exact synced.unset rn
  | updatePacket =>
    rw [operations, filterMap_cons_none rfl, filterMap_nil, append_nil]
    exact synced.updatePacket (eq_some_of_step stepped)
  | withdrawPacket =>
    rw [operations, filterMap_cons_none rfl, filterMap_nil, append_nil]
    exact synced.withdrawPacket (eq_some_of_step stepped)

theorem Synced.run {events : List (AdjOutEvent ν α ι)}
    (synced : Synced requested (received rib.obuf) rib)
    (run : Transitions (adjOutStep writer) rib events other) :
    Synced (requested ++ operations events) (received other.obuf) other := by
  induction run generalizing requested with
  | nil rib =>
    rw [operations, filterMap_nil, append_nil]
    exact synced
  | @cons first second last event events stepped rest induction =>
    have all : operations (event :: events) = operations [event] ++ operations events :=
      filterMap_append (l := [event])
    rw [all, ← append_assoc]
    exact induction (synced.step stepped)

omit [DecidableEq α] in
theorem synced_empty : Synced [] (received (AdjRibOut.empty : AdjRibOut ν α ι π).obuf)
    (AdjRibOut.empty : AdjRibOut ν α ι π) where
  linked := ⟨.nil, .nil, fun _ => .nil, by simp [AdjRibOut.empty, pending],
    by simp [AdjRibOut.empty, pending], by simp [AdjRibOut.empty, pending]⟩
  sent _ := rfl
  due _ := rfl
  known _ impossible := nomatch impossible
  present before key after split := by simp [AdjRibOut.empty, received] at split
  counted := ⟨∅, by simp [AdjRibOut.empty, received, tableAfter], rfl⟩

omit [DecidableEq α] in
theorem Synced.drained (synced : Synced requested changes rib) (noUpdate : rib.update = [])
    (noWithdraw : rib.withdraw = []) : tableAfter changes = tableAfter requested := by
  funext rn
  have idle : pending (rib.adjOut rn) = none := by
    have notUpdate := synced.linked.mem_update rn
    have notWithdraw := synced.linked.mem_withdraw rn
    rw [noUpdate] at notUpdate
    rw [noWithdraw] at notWithdraw
    rcases waits : pending (rib.adjOut rn) with _ | _ | attr
    · rfl
    · exact absurd (notWithdraw.mpr waits) not_mem_nil
    · exact absurd (notUpdate.mpr ⟨attr, waits⟩) not_mem_nil
  have isDue := synced.due rn
  rw [Quagga.Bgp.due, idle] at isDue
  rw [← synced.sent rn, ← isDue]
  rfl

/-! ## Convergence -/

end

def pairWriter : PacketWriter Nat Nat Nat Nat where
  updateFull octets? _ := octets? = some 2
  attributes _ _ := some 0
  addPrefix octets _ _ _ := some (octets + 1)
  withdrawFull octets? _ := octets? = some 2
  addWithdrawn octets? _ := some (octets?.getD 0 + 1)

def busyEvents : List (AdjOutEvent Nat Nat Nat) :=
  [.set 1 7 0, .set 2 7 0, .set 3 7 0, .set 3 8 0, .updatePacket, .unset 1, .updatePacket,
    .withdrawPacket]

end Quagga.Bgp
