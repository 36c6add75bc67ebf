import Quagga.Bgp.Rib

/-!
# Prefix counts

`pcount` of a peer is kept by `bgp_pcount_adjust` alone, from the flag `COUNTED` of each route.
Every helper leaves the counter equal to the number of routes with that flag. The flag follows
the hold-down state of a route except between `bgp_info_restore`, which sets `VALID` directly,
and the next change of a flag. `bgp_update_main` makes one before it returns.
-/

namespace Quagga.Bgp

open Foundation List

variable {wanted : RibSource → Bool} {flags : List InfoFlag} {source : RibSource} {value : Bool}

/-- The flag `COUNTED` is as `bgp_pcount_adjust` leaves it. -/
def RibInfo.IsSound (info : RibInfo) : Prop :=
  info.counted = (info.source.peer != .self && !info.isHolddown)

def RibInfo.isUsableOf (peer : RibPeer) (info : RibInfo) : Bool :=
  info.linked && info.source.peer == peer && !info.isHolddown

/-- Alike in what only `bgp_pcount_adjust` and `bgp_info_add` change. -/
structure RibInfo.Keeps (info other : RibInfo) : Prop where
  id : info.id = other.id
  source : info.source = other.source
  counted : info.counted = other.counted
  linked : info.linked = other.linked

structure RibInfo.KeepsUse (info other : RibInfo) : Prop extends info.Keeps other where
  isHolddown : info.isHolddown = other.isHolddown

/-- Every count agrees with the flags `COUNTED`. The flag of a route is right unless the route
is `pending`, and the route is in the table unless it is `loose`. -/
structure Rib.Counting (pending loose : List Nat) (rib : Rib) : Prop where
  distinct : (rib.infos.map RibInfo.id).Nodup
  fresh : ∀ info ∈ rib.infos, info.id < rib.nextId
  tally : ∀ peer, rib.pcount peer =
    rib.infos.countP fun info => info.counted && info.source.peer == peer
  self : ∀ info ∈ rib.infos, info.source.peer = .self → info.counted = false
  sound : ∀ info ∈ rib.infos, info.id ∉ pending → info.IsSound
  linked : ∀ info ∈ rib.infos, info.id ∉ loose → info.linked = true
  silent : rib.warned = false

@[mk_iff] structure RibInfo.Fits (pending loose : List Nat) (nextId : Nat)
    (info : RibInfo) : Prop where
  fresh : info.id < nextId
  self : info.source.peer = .self → info.counted = false
  sound : info.id ∉ pending → info.IsSound
  linked : info.id ∉ loose → info.linked = true

namespace RibInfo

theorem Keeps.refl (info : RibInfo) : info.Keeps info := ⟨rfl, rfl, rfl, rfl⟩

theorem Keeps.trans {first second third : RibInfo} (left : first.Keeps second)
    (right : second.Keeps third) : first.Keeps third :=
  ⟨left.id.trans right.id, left.source.trans right.source, left.counted.trans right.counted,
    left.linked.trans right.linked⟩

theorem KeepsUse.refl (info : RibInfo) : info.KeepsUse info := ⟨.refl info, rfl⟩

theorem put_keeps (value : Bool) (info : RibInfo) (flag : InfoFlag) :
    (info.put value flag).Keeps info := by
  cases flag <;> exact ⟨rfl, rfl, rfl, rfl⟩

theorem foldl_put_keeps (value : Bool) (info : RibInfo) (flags : List InfoFlag) :
    (flags.foldl (put value) info).Keeps info := by
  induction flags generalizing info with
  | nil => exact .refl info
  | cons flag flags induction => exact (induction _).trans (put_keeps value info flag)

theorem isHolddown_foldl_put (value : Bool) (info : RibInfo) (flags : List InfoFlag)
    (harmless : flags.any InfoFlag.changesUse = false) :
    (flags.foldl (put value) info).isHolddown = info.isHolddown := by
  induction flags generalizing info with
  | nil => rfl
  | cons flag flags induction =>
    simp only [any_cons, Bool.or_eq_false_iff] at harmless
    rw [foldl_cons, induction _ harmless.2]
    cases flag
    case stale => rfl
    case attrChanged => rfl
    all_goals exact absurd harmless.1 (by decide)

theorem IsSound.of_keeps {info other : RibInfo} (keeps : info.KeepsUse other)
    (sound : other.IsSound) : info.IsSound := by
  rw [IsSound, keeps.counted, keeps.source, keeps.isHolddown]
  exact sound

end RibInfo

namespace Rib

variable {pending loose : List Nat} {rib : Rib} {table : RibTable} {id : Nat}

/-! ## Edits -/

section

variable (counting : rib.Counting pending loose)
include counting

theorem Counting.fits {info : RibInfo} (present : info ∈ rib.infos) :
    info.Fits pending loose rib.nextId :=
  ⟨counting.fresh info present, counting.self info present, counting.sound info present,
    counting.linked info present⟩

omit counting in
theorem Counting.of_fits (distinct : (rib.infos.map RibInfo.id).Nodup)
    (tally : ∀ peer, rib.pcount peer =
      rib.infos.countP fun info => info.counted && info.source.peer == peer)
    (fits : ∀ info ∈ rib.infos, info.Fits pending loose rib.nextId)
    (silent : rib.warned = false) : rib.Counting pending loose :=
  ⟨distinct, fun info present => (fits info present).fresh, tally,
    fun info present => (fits info present).self, fun info present => (fits info present).sound,
    fun info present => (fits info present).linked, silent⟩

section

variable (after : Rib) (edit : RibInfo → RibInfo) (infos : after.infos = rib.infos.map edit)
  (nextId : after.nextId = rib.nextId) (pcount : after.pcount = rib.pcount)
  (warned : after.warned = rib.warned)
include edit infos nextId pcount warned

theorem Counting.of_map {unsettled : List Nat} (keeps : ∀ info ∈ rib.infos, (edit info).Keeps info)
    (sound : ∀ info ∈ rib.infos, info.id ∉ unsettled → (edit info).IsSound) :
    after.Counting unsettled loose := by
  have ids : after.infos.map RibInfo.id = rib.infos.map RibInfo.id := by
    rw [infos, map_map]
    apply map_congr_left
    intro info present
    exact (keeps info present).id
  apply Counting.of_fits (ids ▸ counting.distinct)
  · intro peer
    rw [pcount, counting.tally peer, infos, countP_map]
    apply countP_congr
    intro info present
    simp [(keeps info present).counted, (keeps info present).source]
  · intro info present
    rw [infos] at present
    rcases mem_map.mp present with ⟨old, oldPresent, rfl⟩
    rcases counting.fits oldPresent with ⟨fresh, self, _, linked⟩
    have kept := keeps old oldPresent
    rw [RibInfo.fits_iff, kept.id, kept.source, kept.counted, kept.linked, nextId]
    exact ⟨fresh, self, sound old oldPresent, linked⟩
  · exact warned.trans counting.silent

theorem Counting.of_quiet (keeps : ∀ info ∈ rib.infos, (edit info).KeepsUse info) :
    after.Counting pending loose := by
  apply counting.of_map after edit infos nextId pcount warned fun info present =>
    (keeps info present).toKeeps
  intro info present settled
  exact (counting.sound info present settled).of_keeps (keeps info present)

end

theorem Counting.change (id : Nat) (edit : RibInfo → RibInfo)
    (keeps : ∀ info ∈ rib.infos, info.id = id → (edit info).KeepsUse info) :
    (rib.change id edit).Counting pending loose := by
  apply counting.of_quiet (rib.change id edit) _ rfl rfl rfl rfl
  intro info present
  by_cases named : info.id = id
  · rw [if_pos named]
    exact keeps info present named
  · rw [if_neg named]
    exact .refl info

theorem Counting.change_pending (isPending : id ∈ pending) (edit : RibInfo → RibInfo)
    (keeps : ∀ info, (edit info).Keeps info) : (rib.change id edit).Counting pending loose := by
  apply counting.of_map (rib.change id edit) _ rfl rfl rfl rfl
  · intro info present
    by_cases named : info.id = id
    · rw [if_pos named]
      exact keeps info
    · rw [if_neg named]
      exact .refl info
  · intro info present settled
    have different : info.id ≠ id := by
      intro same
      exact settled (same ▸ isPending)
    rw [if_neg different]
    exact counting.sound info present settled

end

theorem Counting.settle (counting : rib.Counting (id :: pending) loose)
    (settled : ∀ info ∈ rib.infos, info.id = id → info.IsSound) : rib.Counting pending loose := by
  refine ⟨counting.distinct, counting.fresh, counting.tally, counting.self, ?_, counting.linked,
    counting.silent⟩
  intro info present elsewhere
  by_cases named : info.id = id
  · exact settled info present named
  · exact counting.sound info present (by simp [named, elsewhere])

variable {info : RibInfo}

section

variable (counting : rib.Counting pending loose)
include counting

theorem Counting.weaken (id : Nat) : rib.Counting (id :: pending) loose := by
  refine ⟨counting.distinct, counting.fresh, counting.tally, counting.self, ?_, counting.linked,
    counting.silent⟩
  intro info present elsewhere
  exact counting.sound info present (fun member => elsewhere (mem_cons_of_mem _ member))

theorem Counting.pcount_pos (present : info ∈ rib.infos) (counted : info.counted = true) :
    0 < rib.pcount info.source.peer := by
  rw [counting.tally, countP_pos_iff]
  exact ⟨info, present, by simp [counted]⟩

end

/-! ## The helpers -/

theorem Counting.put_counted (counting : rib.Counting (id :: pending) loose)
    (present : info ∈ rib.infos) (named : info.id = id) (notSelf : info.source.peer ≠ .self)
    (follows : value = !info.isHolddown) (changed : info.counted = !value) {count : Nat}
    (adjusted : count + (!value).toNat = rib.pcount info.source.peer + value.toNat) :
    (rib.putCounted id value info.source.peer count).Counting pending loose := by
  have isInfo : ∀ other ∈ rib.infos, other.id = id → other = info := by
    intro other otherPresent same
    exact inj_on_of_nodup_map counting.distinct otherPresent present (same.trans named.symm)
  have ids : (rib.putCounted id value info.source.peer count).infos.map RibInfo.id =
      rib.infos.map RibInfo.id := map_key_changeAt (by intro record; rfl) rib.infos
  apply Counting.of_fits (ids ▸ counting.distinct)
  · intro peer
    have counted := countP_changeAt counting.distinct present named
      (fun info => { info with counted := value })
      (fun info => info.counted && info.source.peer == peer)
    have before := counting.tally peer
    simp only [putCounted]
    by_cases same : peer = info.source.peer
    · rw [same] at before counted ⊢
      rw [Function.update_self]
      cases value <;> simp [changed] at counted adjusted <;> omega
    · have different : (info.source.peer == peer) = false := by
        simpa using fun equal => same equal.symm
      rw [Function.update_of_ne same, before]
      simpa [different] using counted.symm
  · intro other otherPresent
    rcases mem_changeAt otherPresent with ⟨old, oldPresent, ⟨same, rfl⟩ | ⟨elsewhere, rfl⟩⟩
    · rw [isInfo old oldPresent same]
      have fits := counting.fits present
      refine ⟨fits.fresh, fun isSelf => absurd isSelf notSelf, ?_, fits.linked⟩
      simp [RibInfo.IsSound, notSelf, follows, RibInfo.isHolddown]
    · have fits := counting.fits oldPresent
      refine ⟨fits.fresh, fits.self, ?_, fits.linked⟩
      intro settled
      exact fits.sound (by simp [elsewhere, settled])
  · exact counting.silent

theorem Counting.pcountAdjust (counting : rib.Counting (id :: pending) loose) :
    (rib.pcountAdjust id).Counting pending loose := by
  have settled : (∀ info, rib.info? id = some info → info.IsSound) →
      rib.Counting pending loose := by
    intro sound
    apply counting.settle
    intro info present named
    exact sound info (recordAt_of_mem counting.distinct present named)
  fun_cases Rib.pcountAdjust rib id with
  | case1 missing => exact settled (by simp [missing])
  | case2 info found peer isSelf =>
    apply settled
    rw [found]
    simp [RibInfo.IsSound, counting.self info (mem_of_recordAt found).1 isSelf,
      show info.source.peer = .self from isSelf]
  | case3 info found peer notSelf lowers =>
    rw [Bool.and_eq_true] at lowers
    rcases mem_of_recordAt found with ⟨present, named⟩
    have count := counting.pcount_pos present lowers.2
    have put : (rib.putCounted id false peer (rib.pcount peer - 1)).Counting pending loose := by
      apply counting.put_counted present named notSelf
      · rw [lowers.1, Bool.not_true]
      · exact lowers.2
      · exact Nat.sub_add_cancel count
    refine ⟨put.distinct, put.fresh, put.tally, put.self, put.sound, put.linked, ?_⟩
    simp [counting.silent, count.ne', peer]
  | case4 info found peer notSelf counted raises =>
    rw [Bool.and_eq_true, Bool.not_eq_true'] at raises
    rcases mem_of_recordAt found with ⟨present, named⟩
    apply counting.put_counted present named notSelf
    · rw [raises.1, Bool.not_false]
    · simpa using raises.2
    · rfl
  | case5 info found peer notSelf keeps stays =>
    apply settled
    rw [found]
    have other : info.source.peer ≠ .self := notSelf
    revert keeps stays
    cases down : info.isHolddown <;> cases counted : info.counted <;>
      simp [RibInfo.IsSound, other, down, counted]

theorem pcountAdjust_infos (rib : Rib) (id : Nat) : ∃ counted : RibInfo → Bool,
    (rib.pcountAdjust id).infos =
        changeAt RibInfo.id id (fun info => { info with counted := counted info }) rib.infos ∧
      (rib.pcountAdjust id).nextId = rib.nextId ∧
      (rib.pcountAdjust id).aggregates = rib.aggregates := by
  have unchanged : rib.infos =
      changeAt RibInfo.id id (fun info => { info with counted := info.counted }) rib.infos := by
    simp [changeAt]
  fun_cases Rib.pcountAdjust rib id with
  | case3 => exact ⟨fun _ => false, rfl, rfl, rfl⟩
  | case4 => exact ⟨fun _ => true, rfl, rfl, rfl⟩
  | _ => exact ⟨RibInfo.counted, unchanged, rfl, rfl⟩

theorem Counting.infoPutFlag (counting : rib.Counting pending loose) (value : Bool) (id : Nat)
    (flags : List InfoFlag) : (rib.infoPutFlag value id flags).Counting pending loose := by
  unfold Rib.infoPutFlag
  cases harmless : flags.any InfoFlag.changesUse with
  | true =>
    apply Counting.pcountAdjust
    exact (counting.weaken id).change_pending mem_cons_self _
      fun info => info.foldl_put_keeps value flags
  | false =>
    apply counting.change id
    intro info present named
    exact ⟨info.foldl_put_keeps value flags, info.isHolddown_foldl_put value flags harmless⟩

theorem Counting.infoPutFlag_settles (counting : rib.Counting (id :: pending) loose) (value : Bool)
    (uses : flags.any InfoFlag.changesUse = true) :
    (rib.infoPutFlag value id flags).Counting pending loose := by
  unfold Rib.infoPutFlag
  rw [if_pos uses]
  apply Counting.pcountAdjust
  exact counting.change_pending mem_cons_self _ fun info => info.foldl_put_keeps value flags

theorem mem_infoPutFlag (present : info ∈ (rib.infoPutFlag value id flags).infos) :
    ∃ old ∈ rib.infos,
    (old.id = id ∧ ∃ counted, info = { flags.foldl (RibInfo.put value) old with counted }) ∨
      (old.id ≠ id ∧ info = old) := by
  have kept : ∀ old : RibInfo, (flags.foldl (RibInfo.put value) old).id = old.id :=
    fun old => (old.foldl_put_keeps value flags).id
  have changed : ∀ {info : RibInfo},
      info ∈ (rib.change id fun info => flags.foldl (RibInfo.put value) info).infos →
      ∃ old ∈ rib.infos, (old.id = id ∧ info = flags.foldl (RibInfo.put value) old) ∨
        (old.id ≠ id ∧ info = old) := mem_changeAt
  unfold Rib.infoPutFlag at present
  cases uses : flags.any InfoFlag.changesUse with
  | false =>
    rw [uses] at present
    rcases changed present with ⟨old, oldPresent, ⟨named, rfl⟩ | unchanged⟩
    · exact ⟨old, oldPresent, .inl ⟨named, _, rfl⟩⟩
    · exact ⟨old, oldPresent, .inr unchanged⟩
  | true =>
    rw [uses, if_pos rfl] at present
    rcases pcountAdjust_infos (rib.change id fun info => flags.foldl (RibInfo.put value) info) id
      with ⟨counted, infos, _⟩
    rw [infos] at present
    rcases mem_changeAt present with ⟨middle, middlePresent, ⟨named, rfl⟩ | ⟨different, rfl⟩⟩
    · rcases changed middlePresent with ⟨old, oldPresent, ⟨oldNamed, rfl⟩ | ⟨different, rfl⟩⟩
      · exact ⟨old, oldPresent, .inl ⟨oldNamed, _, rfl⟩⟩
      · exact absurd named different
    · rcases changed middlePresent with ⟨old, oldPresent, ⟨oldNamed, rfl⟩ | unchanged⟩
      · exact absurd ((kept old).trans oldNamed) different
      · exact ⟨old, oldPresent, .inr unchanged⟩

section

variable (counting : rib.Counting pending loose)
include counting

theorem Counting.infoDelete (id : Nat) : (rib.infoDelete id).Counting pending loose := by
  apply (counting.infoPutFlag true id [.removed]).change id
  intro info present named
  -- The flag that was set keeps the route in hold-down.
  have removed : info.removed = true := by
    rcases mem_infoPutFlag present with ⟨old, _, ⟨_, counted, rfl⟩ | ⟨different, rfl⟩⟩
    · rfl
    · exact absurd named different
  exact ⟨info.put_keeps false .valid, by simp [RibInfo.isHolddown, RibInfo.put, removed]⟩

theorem Counting.infoRestore (id : Nat) : (rib.infoRestore id).Counting (id :: pending) loose := by
  exact ((counting.infoPutFlag false id [.removed]).weaken id).change_pending mem_cons_self _
    fun info => info.put_keeps true .valid

theorem Counting.infoNew (node : RibNode) {valid : Bool} (extra? : Option InfoExtra)
    (uncounted : source.peer = .self ∨ valid = false) :
    (rib.infoNew node source valid extra?).Counting pending (rib.nextId :: loose) := by
  have isNew : ∀ info ∈ rib.infos, info.id ≠ rib.nextId := by
    intro info present
    exact (counting.fresh info present).ne
  apply Counting.of_fits
  · simp only [Rib.infoNew, map_cons, nodup_cons]
    refine ⟨?_, counting.distinct⟩
    intro taken
    rcases mem_map.mp taken with ⟨info, present, same⟩
    exact isNew info present same
  · intro peer
    simpa [Rib.infoNew] using counting.tally peer
  · intro info present
    rcases mem_cons.mp present with rfl | old
    · refine ⟨Nat.lt_succ_self _, fun _ => rfl, fun _ => ?_, ?_⟩
      · rcases uncounted with isSelf | invalid
        · simp [RibInfo.IsSound, isSelf]
        · simp [RibInfo.IsSound, RibInfo.isHolddown, invalid]
      · exact fun settled => absurd mem_cons_self settled
    · have fits := counting.fits old
      refine ⟨Nat.lt_succ_of_lt fits.fresh, fits.self, fits.sound, ?_⟩
      exact fun settled => fits.linked fun member => settled (mem_cons_of_mem _ member)
  · exact counting.silent

end

theorem Counting.infoAdd (counting : rib.Counting pending (id :: loose)) :
    (rib.infoAdd id).Counting pending loose := by
  have ids : (rib.infoAdd id).infos.map RibInfo.id = rib.infos.map RibInfo.id :=
    map_key_changeAt (by intro record; rfl) rib.infos
  apply Counting.of_fits (ids ▸ counting.distinct)
  · intro peer
    rw [show (rib.infoAdd id).pcount = rib.pcount from rfl, counting.tally peer]
    simp only [Rib.infoAdd, Rib.change, changeAt, countP_map]
    apply countP_congr
    intro info present
    by_cases named : info.id = id <;> simp [named]
  · intro info present
    rcases mem_changeAt present with ⟨old, oldPresent, ⟨_, rfl⟩ | ⟨different, rfl⟩⟩
    · have fits := counting.fits oldPresent
      exact ⟨fits.fresh, fits.self, fits.sound, fun _ => rfl⟩
    · have fits := counting.fits oldPresent
      refine ⟨fits.fresh, fits.self, fits.sound, ?_⟩
      intro settled
      exact fits.linked (by simp [different, settled])
  · exact counting.silent

/-! ## Dampening -/

theorem Counting.setDamp (counting : rib.Counting pending loose) (id : Nat)
    (damp? : Option DampInfo) : (rib.change id (RibInfo.setDamp · damp?)).Counting pending loose :=
  counting.change id _ fun _ _ _ => ⟨⟨rfl, rfl, rfl, rfl⟩, rfl⟩

theorem Counting.dampInfoFree (counting : rib.Counting pending loose) (id : Nat) (withdraw : Bool) :
    (rib.dampInfoFree id withdraw).Counting pending loose := by
  unfold Rib.dampInfoFree
  cases (rib.info? id).bind RibInfo.damp? with
  | none => exact counting
  | some damp =>
    have freed := (counting.setDamp id none).infoPutFlag false id [.history, .damped]
    dsimp only
    split_ifs
    · exact freed.infoDelete id
    · exact freed

theorem Counting.dampWithdraw (counting : rib.Counting (id :: pending) loose) (penalty : Penalty) :
    (rib.dampWithdraw id penalty).1.Counting pending loose := by
  have recorded : ((rib.change id (RibInfo.setDamp · (some ⟨true⟩))).infoSetFlag id
      [.history]).Counting pending loose :=
    (counting.setDamp id _).infoPutFlag_settles true rfl
  unfold Rib.dampWithdraw
  dsimp only
  split_ifs
  · exact recorded
  · exact recorded.infoPutFlag true id [.damped]
  · exact recorded

theorem Counting.dampReview (counting : rib.Counting pending loose) (id : Nat) (penalty : Penalty) :
    (rib.dampReview id penalty).1.Counting pending loose := by
  unfold Rib.dampReview
  have undamped := counting.infoPutFlag false id [.damped]
  split_ifs
  all_goals first
    | exact counting
    | exact counting.dampInfoFree id false
    | exact undamped
    | exact undamped.dampInfoFree id false

theorem Counting.dampUpdate (counting : rib.Counting pending loose) (id : Nat) (penalty : Penalty) :
    (rib.dampUpdate id penalty).1.Counting pending loose := by
  unfold Rib.dampUpdate
  cases (rib.info? id).bind RibInfo.damp? with
  | none => exact counting
  | some damp =>
    apply Counting.dampReview
    exact (counting.infoPutFlag false id [.history]).setDamp id _

theorem Counting.dampUpdate_settles (counting : rib.Counting (id :: pending) loose)
    (penalty : Penalty) (suppressed : (rib.dampUpdate id penalty).2 = .suppressed) :
    (rib.dampUpdate id penalty).1.Counting pending loose := by
  unfold Rib.dampUpdate at suppressed ⊢
  cases found : (rib.info? id).bind RibInfo.damp? with
  | none => simp [found] at suppressed
  | some damp =>
    apply Counting.dampReview
    have settled : (rib.infoUnsetFlag id [.history]).Counting pending loose :=
      counting.infoPutFlag_settles false rfl
    exact settled.setDamp id _

theorem Counting.dampScan (counting : rib.Counting pending loose) (id : Nat) (expired : Bool)
    (penalty : Penalty) : (rib.dampScan id expired penalty).1.Counting pending loose := by
  unfold Rib.dampScan
  cases rib.info? id with
  | none => exact counting
  | some info =>
    dsimp only
    split_ifs
    · exact counting.infoPutFlag false id [.damped]
    · exact counting
    · exact counting.dampInfoFree id true
    · exact counting

/-! ## Aggregates -/

theorem Counting.addCount (counting : rib.Counting pending loose) (network : Prefix)
    (amount : Int) : (rib.addCount network amount).Counting pending loose :=
  ⟨counting.distinct, counting.fresh, counting.tally, counting.self, counting.sound,
    counting.linked, counting.silent⟩

theorem unsuppress_keeps (info : RibInfo) : info.unsuppress.KeepsUse info := by
  unfold RibInfo.unsuppress
  cases info.extra? <;> exact ⟨⟨rfl, rfl, rfl, rfl⟩, rfl⟩

theorem Counting.walk (counting : rib.Counting pending loose) {edit : RibInfo → RibInfo}
    (keeps : ∀ info, (edit info).KeepsUse info) (aggregates : List Aggregate) :
    ({ rib with infos := rib.infos.map edit, aggregates := aggregates } : Rib).Counting
      pending loose :=
  counting.of_quiet _ edit rfl rfl rfl rfl fun info _ => keeps info

theorem lower_keeps (aggregate : Aggregate) (info : RibInfo) :
    (aggregate.lower info).KeepsUse info := by
  unfold Aggregate.lower
  split_ifs
  · exact unsuppress_keeps info
  · exact .refl info

theorem raise_keeps (aggregate : Aggregate) (del? : Option Nat) (info : RibInfo) :
    (aggregate.raise del? info).KeepsUse info := by
  unfold Aggregate.raise
  split_ifs
  · exact ⟨⟨rfl, rfl, rfl, rfl⟩, rfl⟩
  · exact .refl info

section

variable (counting : rib.Counting pending loose)
include counting

theorem Counting.aggregateDelete (aggregate : Aggregate) :
    (rib.aggregateDelete table aggregate).Counting pending loose := by
  unfold Rib.aggregateDelete
  split_ifs
  · exact counting
  · have walked := counting.walk (lower_keeps aggregate)
      (rib.addCount aggregate.network (-(rib.infos.countP aggregate.counts : Int))).aggregates
    dsimp only
    split
    · exact walked
    · exact walked.infoDelete _

theorem Counting.announceAggregate (network : Prefix) :
    (rib.announceAggregate network).Counting pending loose := by
  unfold Rib.announceAggregate
  split
  · exact counting
  · split_ifs
    · apply Counting.infoAdd
      exact counting.infoNew ⟨none, network⟩ none (.inl rfl)
    · exact counting

theorem Counting.aggregateRoute (new? del? : Option Nat) (aggregate : Aggregate) :
    (rib.aggregateRoute new? del? aggregate).Counting pending loose := by
  have walked := counting.walk (raise_keeps aggregate del?)
    (rib.addCount aggregate.network (rib.infos.countP (aggregate.countsBut del?))).aggregates
  apply Counting.announceAggregate
  unfold Rib.aggregateWalk
  cases new? with
  | none => exact walked
  | some id =>
    have added := walked.addCount aggregate.network 1
    split_ifs
    · exact added.change id _ fun _ _ _ => ⟨⟨rfl, rfl, rfl, rfl⟩, rfl⟩
    · exact added

theorem Counting.turns (new? del? : Option Nat) (aggregates : List Aggregate) :
    (aggregates.foldl (fun rib aggregate =>
      (rib.aggregateDelete table aggregate).aggregateRoute new? del? aggregate) rib).Counting
        pending loose := by
  induction aggregates generalizing rib with
  | nil => exact counting
  | cons aggregate aggregates induction =>
    exact induction (counting.aggregateDelete aggregate |>.aggregateRoute new? del? aggregate)

theorem Counting.aggregateIncrement (network : Prefix) (id : Nat) :
    (rib.aggregateIncrement table network id).Counting pending loose := by
  unfold Rib.aggregateIncrement
  split_ifs
  · exact counting
  · exact counting.turns _ _ _

theorem Counting.aggregateDecrement (network : Prefix) (id : Nat) :
    (rib.aggregateDecrement table network id).Counting pending loose := by
  unfold Rib.aggregateDecrement
  split_ifs
  · exact counting
  · exact counting.turns _ _ _

theorem Counting.with_aggregates (aggregates : List Aggregate) :
    ({ rib with aggregates := aggregates } : Rib).Counting pending loose :=
  ⟨counting.distinct, counting.fresh, counting.tally, counting.self, counting.sound,
    counting.linked, counting.silent⟩

theorem Counting.aggregateUnset (aggregate : Aggregate) :
    (rib.aggregateUnset table aggregate).Counting pending loose :=
  (counting.aggregateDelete aggregate).with_aggregates _

theorem Counting.aggregateAdd (aggregate : Aggregate) :
    (rib.aggregateAdd table aggregate).Counting pending loose := by
  unfold Rib.aggregateAdd
  split_ifs
  · exact counting
  · exact counting.aggregateRoute none none _

theorem Counting.aggregateSet (network : Prefix) (summaryOnly : Bool) :
    (rib.aggregateSet table network summaryOnly).Counting pending loose := by
  apply Counting.aggregateAdd
  apply Counting.with_aggregates
  split
  · exact counting
  · exact counting.aggregateUnset _

/-! ## Callers -/

theorem Counting.ribRemove (info : RibInfo) :
    (rib.ribRemove table info).Counting pending loose := by
  have decremented : (rib.aggregateDecrement table info.node.network info.id).Counting
      pending loose := counting.aggregateDecrement _ _
  unfold Rib.ribRemove
  dsimp only
  split_ifs
  · exact decremented.infoDelete info.id
  · exact decremented

theorem Counting.ribWithdraw (info : RibInfo) (dampens : Bool) (penalty : Penalty) :
    (rib.ribWithdraw table info dampens penalty).Counting pending loose := by
  have dampened := (counting.weaken info.id).dampWithdraw penalty
  unfold Rib.ribWithdraw
  split_ifs
  · generalize rib.dampWithdraw info.id penalty = result at dampened ⊢
    rcases result with ⟨after, status⟩
    cases status with
    | suppressed => exact dampened.aggregateDecrement _ _
    | used => exact dampened.ribRemove info
  · exact counting.ribRemove info

theorem Counting.updateSame (info : RibInfo) (arrival : Arrival) :
    (rib.updateSame table info arrival).Counting pending loose := by
  have unset : (rib.infoUnsetFlag info.id [.attrChanged]).Counting pending loose :=
    counting.infoPutFlag false info.id _
  have dampened := unset.dampUpdate info.id arrival.updated
  unfold Rib.updateSame
  dsimp only
  split_ifs
  · generalize (rib.infoUnsetFlag info.id [.attrChanged]).dampUpdate info.id arrival.updated =
      result at dampened ⊢
    rcases result with ⟨after, status⟩
    cases status with
    | suppressed => exact dampened
    | used => exact dampened.aggregateIncrement _ _
  · exact unset.infoPutFlag false info.id _
  · exact unset

end

theorem Counting.nexthopLookup (counting : rib.Counting pending loose) (id : Nat)
    (check : NexthopCheck) : (rib.nexthopLookup id check).Counting pending loose := by
  unfold Rib.nexthopLookup
  split_ifs
  · exact counting.change id _ fun _ _ _ => ⟨⟨rfl, rfl, rfl, rfl⟩, rfl⟩
  · exact counting

theorem Counting.updateNexthop (counting : rib.Counting (info.id :: pending) loose)
    (arrival : Arrival) : (rib.updateNexthop table info arrival).Counting pending loose :=
  ((counting.nexthopLookup info.id arrival.nexthop).infoPutFlag_settles arrival.nexthop.valid
    rfl).aggregateIncrement _ _

theorem Counting.updateDampened (counting : rib.Counting (info.id :: pending) loose)
    (arrival : Arrival) :
    (rib.updateDampened info arrival).1.Counting (info.id :: pending) loose ∧
      ((rib.updateDampened info arrival).2 = .suppressed →
        (rib.updateDampened info arrival).1.Counting pending loose) := by
  have withdrawn := counting.dampWithdraw arrival.withdrawn
  unfold Rib.updateDampened
  split_ifs
  · have updated := withdrawn.dampUpdate info.id arrival.updated
    exact ⟨updated.weaken info.id, fun _ => updated⟩
  · exact ⟨counting.dampUpdate info.id arrival.updated, counting.dampUpdate_settles arrival.updated⟩

theorem Counting.updateChanged (counting : rib.Counting pending loose) (info : RibInfo)
    (arrival : Arrival) : (rib.updateChanged table info arrival).Counting pending loose := by
  have restored : (if info.removed then rib.infoRestore info.id else rib).Counting
      (info.id :: pending) loose := by
    split_ifs
    · exact counting.infoRestore info.id
    · exact counting.weaken info.id
  unfold Rib.updateChanged
  dsimp only
  generalize (if info.removed then rib.infoRestore info.id else rib) = after at restored ⊢
  have refreshed : (if info.stale then after.infoUnsetFlag info.id [.stale] else after).Counting
      (info.id :: pending) loose := by
    split_ifs
    · exact restored.infoPutFlag false info.id _
    · exact restored
  generalize (if info.stale then after.infoUnsetFlag info.id [.stale] else after) = after
    at refreshed ⊢
  have decremented : ((after.infoSetFlag info.id [.attrChanged]).aggregateDecrement table
      info.node.network info.id).Counting (info.id :: pending) loose :=
    (refreshed.infoPutFlag true info.id _).aggregateDecrement _ _
  generalize (after.infoSetFlag info.id [.attrChanged]).aggregateDecrement table
    info.node.network info.id = after at decremented ⊢
  split_ifs
  · have dampened := decremented.updateDampened arrival
    generalize after.updateDampened info arrival = result at dampened ⊢
    rcases result with ⟨after, status⟩
    cases status with
    | suppressed => exact dampened.2 rfl
    | used => exact dampened.1.updateNexthop arrival
  · exact decremented.updateNexthop arrival

section

variable (counting : rib.Counting pending loose) (node : RibNode) (peer : Nat)
include counting

theorem Counting.updateNew (arrival : Arrival) :
    (rib.updateNew table node peer arrival).Counting pending loose := by
  apply Counting.infoAdd
  apply Counting.aggregateIncrement
  apply Counting.infoPutFlag
  apply Counting.nexthopLookup
  exact counting.infoNew node _ (.inr rfl)

theorem Counting.update (arrival : Arrival) :
    (rib.update table node peer arrival).Counting pending loose := by
  unfold Rib.update
  split
  · exact counting.updateNew node peer arrival
  · split_ifs
    · exact counting.updateSame _ arrival
    · exact counting.updateChanged _ arrival

theorem Counting.withdraw (dampens : Bool) (penalty : Penalty) :
    (rib.withdraw table node peer dampens penalty).Counting pending loose := by
  unfold Rib.withdraw
  split
  · exact counting
  · split_ifs
    · exact counting
    · exact counting.ribWithdraw _ dampens penalty

theorem Counting.updateFiltered : (rib.updateFiltered table node peer).Counting pending loose := by
  unfold Rib.updateFiltered
  split
  · exact counting
  · exact counting.ribRemove _

theorem Counting.clearRouteNode (nsf : Bool) :
    (rib.clearRouteNode table node peer nsf).Counting pending loose := by
  unfold Rib.clearRouteNode
  split
  · exact counting
  · split_ifs
    · exact counting.infoPutFlag true _ _
    · exact counting.ribRemove _

theorem Counting.clearStaleRoute :
    (rib.clearStaleRoute table node peer).Counting pending loose := by
  unfold Rib.clearStaleRoute
  split
  · exact counting
  · split_ifs
    · exact counting.ribRemove _
    · exact counting

end

theorem Counting.scan (counting : rib.Counting pending loose) (info : RibInfo)
    (nexthop : NexthopCheck) (dampening expired : Bool) (penalty : Penalty) :
    (rib.scan table info nexthop dampening expired penalty).Counting pending loose := by
  have checked : (rib.scanValid table info nexthop).Counting pending loose := by
    have looked := counting.nexthopLookup info.id nexthop
    unfold Rib.scanValid
    dsimp only
    split_ifs
    · exact looked
    · exact (looked.aggregateDecrement _ _).infoPutFlag false _ _
    · exact (looked.infoPutFlag true _ _).aggregateIncrement _ _
  have scanned := checked.dampScan info.id expired penalty
  unfold Rib.scan
  dsimp only
  split_ifs
  · generalize (rib.scanValid table info nexthop).dampScan info.id expired penalty = result
      at scanned ⊢
    rcases result with ⟨after, usable⟩
    cases usable with
    | true => exact scanned.aggregateIncrement _ _
    | false => exact scanned
  · exact checked

theorem Counting.reuse (counting : rib.Counting pending loose) (info : RibInfo)
    (penalty : Penalty) : (rib.reuse table info penalty).Counting pending loose := by
  have undamped : (rib.infoUnsetFlag info.id [.damped]).Counting pending loose :=
    counting.infoPutFlag false _ _
  have usable : ((rib.infoUnsetFlag info.id [.damped]).infoUnsetFlag info.id [.history]
      |>.aggregateIncrement table info.node.network info.id).Counting pending loose :=
    (undamped.infoPutFlag false _ _).aggregateIncrement _ _
  unfold Rib.reuse
  dsimp only
  split_ifs
  · exact usable.dampInfoFree info.id true
  · exact undamped.dampInfoFree info.id true
  · exact usable
  · exact undamped
  · exact counting

/-- The routes with an id that all belong to the router itself. -/
def IsOwn (id : Nat) (rib : Rib) : Prop :=
  ∀ info ∈ rib.infos, info.id = id → info.source.peer = .self

theorem IsOwn.infoPutFlag (own : rib.IsOwn id) (value : Bool) (other : Nat)
    (flags : List InfoFlag) : (rib.infoPutFlag value other flags).IsOwn id := by
  intro info present named
  rcases mem_infoPutFlag present with ⟨old, oldPresent, ⟨_, counted, rfl⟩ | ⟨_, rfl⟩⟩
  · have keeps := old.foldl_put_keeps value flags
    have oldSelf := own old oldPresent (keeps.id.symm.trans named)
    rw [← keeps.source] at oldSelf
    exact oldSelf
  · exact own info oldPresent named

theorem Counting.infoRestore_own (counting : rib.Counting pending loose) (own : rib.IsOwn id) :
    (rib.infoRestore id).Counting pending loose := by
  have restored := counting.infoRestore id
  apply restored.settle
  intro info present named
  have isSelf : info.source.peer = .self := by
    rcases mem_changeAt present with ⟨old, oldPresent, ⟨same, rfl⟩ | ⟨different, rfl⟩⟩
    · exact own.infoPutFlag false id [.removed] old oldPresent same
    · exact absurd named different
  simp [RibInfo.IsSound, isSelf, restored.self info present isSelf]

theorem mem_of_search {node : RibNode} (found : rib.search node wanted = some info) :
    info ∈ rib.infos ∧ wanted info.source = true := by
  have matched := find?_some found
  simp only [Bool.and_eq_true] at matched
  exact ⟨mem_of_find?_eq_some found, matched.2⟩

section

variable (counting : rib.Counting pending loose) (node : RibNode)
include counting

theorem Counting.originate (sameAttr : Bool) (isSelf : source.peer = .self)
    (areSelf : ∀ source, wanted source = true → source.peer = .self) :
    (rib.originate table node source wanted sameAttr).Counting pending loose := by
  unfold Rib.originate
  cases found : rib.search node wanted with
  | some info =>
    rcases mem_of_search found with ⟨present, isWanted⟩
    have own : rib.IsOwn info.id := by
      intro other otherPresent same
      rw [inj_on_of_nodup_map counting.distinct otherPresent present same]
      exact areSelf info.source isWanted
    dsimp only
    split_ifs
    · exact counting
    · apply Counting.aggregateIncrement
      exact (counting.infoPutFlag true _ _).infoRestore_own (own.infoPutFlag true _ _)
    · apply Counting.aggregateIncrement
      apply Counting.aggregateDecrement
      exact counting.infoPutFlag true _ _
  | none =>
    apply Counting.infoAdd
    apply Counting.aggregateIncrement
    exact counting.infoNew node none (.inl isSelf)

theorem Counting.staticUpdate (sameAttr : Bool) :
    (rib.staticUpdate table node sameAttr).Counting pending loose := by
  unfold Rib.staticUpdate
  split_ifs
  · apply Counting.infoAdd
    apply Counting.aggregateIncrement
    exact counting.infoNew node _ (.inl rfl)
  · apply counting.originate node sameAttr rfl
    intro source isStatic
    rw [eq_of_beq isStatic]
    rfl

theorem Counting.redistributeAdd (type : Nat) (sameAttr : Bool) :
    (rib.redistributeAdd table node type sameAttr).Counting pending loose := by
  apply counting.originate node sameAttr rfl
  intro source isRedistributed
  cases source with
  | redistribute type => rfl
  | neighbour index => cases isRedistributed
  | static => rfl
  | aggregate => rfl

theorem Counting.retract (source : RibSource) :
    (rib.retract table node source).Counting pending loose := by
  unfold Rib.retract
  split
  · exact counting
  · exact (counting.aggregateDecrement _ _).infoDelete _

end

theorem Counting.infoReap (counting : rib.Counting [] loose) (present : info ∈ rib.infos)
    (removed : info.removed = true) : (rib.infoReap info.id).Counting [] loose := by
  have freed := counting.dampInfoFree info.id false
  have stillRemoved : ∀ other ∈ (rib.dampInfoFree info.id false).infos, other.id = info.id →
      other.removed = true := by
    intro other otherPresent named
    unfold Rib.dampInfoFree at otherPresent
    cases found : (rib.info? info.id).bind RibInfo.damp? with
    | none =>
      simp only [found] at otherPresent
      rw [inj_on_of_nodup_map counting.distinct otherPresent present named]
      exact removed
    | some damp =>
      simp only [found, Bool.and_false, Bool.false_eq_true, if_false] at otherPresent
      rcases mem_infoPutFlag otherPresent with
        ⟨middle, middlePresent, ⟨same, counted, rfl⟩ | ⟨different, rfl⟩⟩
      · rcases mem_changeAt middlePresent with ⟨old, oldPresent, ⟨same, rfl⟩ | ⟨different, rfl⟩⟩
        · rw [← inj_on_of_nodup_map counting.distinct oldPresent present same] at removed
          exact removed
        · exact absurd same different
      · exact absurd named different
  have uncounted : ∀ other ∈ (rib.dampInfoFree info.id false).infos, other.id = info.id →
      other.counted = false := by
    intro other otherPresent named
    rw [freed.sound other otherPresent not_mem_nil]
    simp [RibInfo.isHolddown, stillRemoved other otherPresent named]
  unfold Rib.infoReap
  apply Counting.of_fits (freed.distinct.sublist (filter_sublist.map _))
  · intro peer
    rw [freed.tally peer, countP_filter]
    apply countP_congr
    intro other otherPresent
    by_cases named : other.id = info.id
    · simp [uncounted other otherPresent named]
    · simp [named]
  · intro other kept
    exact freed.fits (mem_of_mem_filter kept)
  · exact freed.silent

theorem of_walked {eligible : RibInfo → Bool} {next : RibInfo → Rib} {after : Rib}
    {Result : Rib → Prop}
    (reached : ∀ info, rib.info? id = some info → eligible info = true → Result (next info))
    (stepped : rib.walked id eligible next = some (.ok after)) : Result after := by
  unfold Rib.walked at stepped
  cases found : rib.info? id with
  | none => simp [found] at stepped
  | some info =>
    simp only [found] at stepped
    split_ifs at stepped with isEligible
    cases stepped
    simp only [Bool.and_eq_true] at isEligible
    exact reached info found isEligible.2

end Rib

/-! ## Runs -/

theorem ribAct_counting {table : RibTable} {rib after : Rib} {event : RibEvent}
    (counting : rib.Counting [] []) (stepped : ribAct table rib event = some (.ok after)) :
    after.Counting [] [] := by
  cases event with
  | update node peer arrival =>
    cases stepped
    exact counting.update node peer arrival
  | updateFiltered node peer =>
    cases stepped
    exact counting.updateFiltered node peer
  | withdraw node peer dampens penalty =>
    cases stepped
    exact counting.withdraw node peer dampens penalty
  | clearRouteNode node peer nsf =>
    cases stepped
    exact counting.clearRouteNode node peer nsf
  | clearStaleRoute node peer =>
    cases stepped
    exact counting.clearStaleRoute node peer
  | scan id nexthop dampening expired penalty =>
    apply Rib.of_walked _ stepped
    intro info found eligible
    exact counting.scan info nexthop dampening expired penalty
  | reuse id penalty =>
    apply Rib.of_walked _ stepped
    intro info found eligible
    exact counting.reuse info penalty
  | clearDampening id =>
    apply Rib.of_walked _ stepped
    intro info found eligible
    exact counting.dampInfoFree info.id true
  | staticUpdate node sameAttr =>
    cases stepped
    exact counting.staticUpdate node sameAttr
  | staticWithdraw node =>
    cases stepped
    exact counting.retract node _
  | redistributeAdd node type sameAttr =>
    cases stepped
    exact counting.redistributeAdd node type sameAttr
  | redistributeDelete node type =>
    cases stepped
    exact counting.retract node _
  | aggregateSet network summaryOnly =>
    cases stepped
    exact counting.aggregateSet network summaryOnly
  | aggregateUnset network =>
    cases found : recordAt Aggregate.network network rib.aggregates with
    | none => simp [ribAct, found] at stepped
    | some aggregate =>
      simp only [ribAct, found] at stepped
      cases stepped
      exact counting.aggregateUnset aggregate
  | reap id =>
    apply Rib.of_walked _ stepped
    intro info found removed
    exact counting.infoReap (mem_of_recordAt found).1 removed

theorem Rib.counting_empty : Rib.empty.Counting [] [] :=
  ⟨nodup_nil, forall_mem_nil _, fun _ => rfl, forall_mem_nil _, forall_mem_nil _, forall_mem_nil _,
    rfl⟩

theorem counting_of_run {table : RibTable} {first last : Rib} {events : List RibEvent}
    (run : Transitions (ribStep table) first events last) (counting : first.Counting [] []) :
    last.Counting [] [] := by
  induction run with
  | nil rib => exact counting
  | cons stepped rest induction =>
    apply induction
    unfold ribStep at stepped
    split_ifs at stepped
    exact ribAct_counting counting stepped

theorem Rib.Counting.pcount_eq {rib : Rib} (counting : rib.Counting [] []) {peer : RibPeer}
    (notSelf : peer ≠ .self) : rib.pcount peer = rib.infos.countP (RibInfo.isUsableOf peer) := by
  rw [counting.tally peer]
  apply countP_congr
  intro info present
  have sound : info.counted = (info.source.peer != .self && !info.isHolddown) :=
    counting.sound info present not_mem_nil
  have linked := counting.linked info present not_mem_nil
  by_cases same : info.source.peer = peer
  · simp [RibInfo.isUsableOf, sound, linked, same, notSelf]
  · simp [RibInfo.isUsableOf, same]

/-- Between any two events the count of a peer is the number of its routes that are not in
hold-down, for every peer but the router itself, and no call of `bgp_pcount_adjust` in one of the
events has found a count of zero to decrement. -/
theorem pcount_counts (table : RibTable) {events : List RibEvent} {rib : Rib}
    (run : Transitions (ribStep table) Rib.empty events rib) {peer : RibPeer}
    (notSelf : peer ≠ .self) :
    rib.pcount peer = rib.infos.countP (RibInfo.isUsableOf peer) ∧ rib.warned = false ∧
      ∀ info ∈ rib.infos, info.counted = true → 0 < rib.pcount info.source.peer := by
  have counting := counting_of_run run Rib.counting_empty
  exact ⟨counting.pcount_eq notSelf, counting.silent,
    fun info present => counting.pcount_pos present⟩

def ipv4Unicast : RibTable := ⟨.ip, .unicast⟩

def tenNetwork : RibNode := ⟨none, .ip, 8, [10, 0, 0, 0]⟩

def decayed : Penalty := ⟨true, true, true, fun _ => rfl⟩

def plainArrival : Arrival := ⟨false, false, ⟨true, false⟩, decayed, decayed⟩

def announceAndWithdraw : List RibEvent :=
  [.update tenNetwork 1 plainArrival, .withdraw tenNetwork 1 false decayed]

theorem announceAndWithdraw_counts : ∃ rib,
    Transitions (ribStep ipv4Unicast) Rib.empty announceAndWithdraw rib ∧
      rib.pcount (.neighbour 1) = rib.infos.countP (RibInfo.isUsableOf (.neighbour 1)) := by
  have executed : (execute (ribStep ipv4Unicast) Rib.empty announceAndWithdraw).isSome = true := rfl
  have run := transitions_of_execute (Option.some_get executed).symm
  exact ⟨_, run, (pcount_counts ipv4Unicast run (by decide)).1⟩

/-- The routes of the router itself are not counted, and `bgp_info_restore` makes a route usable
that is not counted yet. -/
theorem ownRoute_uncounted :
    (execute (ribStep ipv4Unicast) Rib.empty [.staticUpdate tenNetwork false]).map (fun rib =>
      (rib.pcount .self, rib.infos.countP (RibInfo.isUsableOf .self))) = some (0, 1) ∧
    (execute (ribStep ipv4Unicast) Rib.empty announceAndWithdraw).map (fun rib =>
      ((rib.infoRestore 0).pcount (.neighbour 1),
        (rib.infoRestore 0).infos.countP (RibInfo.isUsableOf (.neighbour 1)))) = some (0, 1) := by
  decide +kernel

end Quagga.Bgp
