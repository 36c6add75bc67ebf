import Mathlib.Data.Finset.Card
import Mathlib.Logic.Function.Basic

/-!
# Interned objects

A table of objects with equal contents kept once, and counted by reference. A bucket stands
under the hash key its contents had when they came in. Contents that are changed afterwards
have another key, and are then not found when their last reference goes.
-/

namespace Quagga.Foundation

open List

/-- An object in the table, under the key it came in with. -/
structure Bucket (δ : Type) where
  key : UInt32
  object : Nat
  data : δ
deriving Repr, DecidableEq

structure InternTable (δ : Type) where
  buckets : List (Bucket δ)
  refcnt : Nat → Nat
  /-- The next object that is allocated. It has no references yet. -/
  next : Nat

namespace InternTable

variable {δ ι : Type} [DecidableEq δ] (table : InternTable δ) (key : UInt32) (data : δ)

def find? : Option (Bucket δ) :=
  table.buckets.find? fun bucket => bucket.key = key ∧ bucket.data = data

def count (object refcnt : Nat) : InternTable δ :=
  { table with refcnt := Function.update table.refcnt object refcnt }

/-- One more reference to an object with these contents, which is made if there is none. -/
def intern : InternTable δ × Nat :=
  match table.find? key data with
  | some bucket => (table.count bucket.object (table.refcnt bucket.object + 1), bucket.object)
  | none =>
    ({ table.count table.next (table.refcnt table.next + 1) with
      buckets := ⟨key, table.next, data⟩ :: table.buckets
      next := table.next + 1 }, table.next)

/-- One reference less. The last one takes a bucket with these contents away, if there is one
under the key. -/
def unintern (object : Nat) : Option (InternTable δ) :=
  let counted := table.count object (table.refcnt object - 1)
  if table.refcnt object - 1 = 0 then
    (table.find? key data).map fun bucket =>
      { counted with buckets := table.buckets.erase bucket }
  else some counted

variable {table key data}

theorem exists_find? {bucket : Bucket δ} (mem : bucket ∈ table.buckets) :
    ∃ found, table.find? bucket.key bucket.data = some found := by
  apply Option.isSome_iff_exists.mp
  rw [find?, find?_isSome]
  exact ⟨bucket, mem, by simp⟩

theorem mem_of_find? {bucket : Bucket δ} (found : table.find? key data = some bucket) :
    bucket ∈ table.buckets ∧ bucket.key = key ∧ bucket.data = data :=
  ⟨mem_of_find?_eq_some found, by simpa using find?_some found⟩

theorem intern_refcnt : (table.intern key data).1.refcnt =
    Function.update table.refcnt (table.intern key data).2
      (table.refcnt (table.intern key data).2 + 1) := by
  unfold intern
  split
  · rfl
  · rfl

theorem exists_find?_intern :
    ∃ found, (table.intern key data).1.find? key data = some found := by
  unfold intern
  split
  · rename_i bucket isFound
    exact ⟨bucket, isFound⟩
  · exact ⟨_, find?_cons_of_pos (by simp)⟩

omit [DecidableEq δ] in
theorem update_none_eq_some [DecidableEq ι] {refer : ι → Option (Nat × δ)} {holder other : ι}
    {pair : Nat × δ} : Function.update refer holder none other = some pair ↔
      other ≠ holder ∧ refer other = some pair := by
  by_cases same : other = holder
  · simp [same]
  · simp [same]

/-- What refers to the objects of the table is counted, and what it refers to stands in the
table under its present key. -/
structure Accounts (table : InternTable δ) (keyOf : δ → UInt32) (refer : ι → Option (Nat × δ)) :
    Prop where
  bucket : ∀ {holder object data}, refer holder = some (object, data) →
    ⟨keyOf data, object, data⟩ ∈ table.buckets
  distinct : ∀ {bucket other}, bucket ∈ table.buckets → other ∈ table.buckets →
    bucket.key = other.key → bucket.data = other.data → bucket = other
  counted : ∀ object (holders : Finset ι),
    (∀ holder ∈ holders, ∃ data, refer holder = some (object, data)) →
      holders.card ≤ table.refcnt object

namespace Accounts

variable {keyOf : δ → UInt32} {refer : ι → Option (Nat × δ)} (accounts : Accounts table keyOf refer)
include accounts

omit [DecidableEq δ] in
theorem rekey {newKeyOf : δ → UInt32}
    (same : ∀ holder object data, refer holder = some (object, data) → newKeyOf data = keyOf data) :
    Accounts table newKeyOf refer where
  bucket refers := by
    rw [same _ _ _ refers]
    exact accounts.bucket refers
  distinct := accounts.distinct
  counted := accounts.counted

theorem intern (key : UInt32) (data : δ) : Accounts (table.intern key data).1 keyOf refer := by
  refine ⟨?_, ?_, ?_⟩
  · unfold InternTable.intern
    split
    · exact accounts.bucket
    · exact fun refers => mem_cons_of_mem _ (accounts.bucket refers)
  · unfold InternTable.intern
    split
    · exact accounts.distinct
    · rename_i absent
      have new : ∀ {other}, other ∈ table.buckets → key = other.key → data ≠ other.data := by
        rintro other mem rfl rfl
        rcases exists_find? mem with ⟨found, isFound⟩
        rw [isFound] at absent
        cases absent
      intro bucket other mem otherMem sameKey sameData
      rcases mem_cons.mp mem with rfl | mem
      · rcases mem_cons.mp otherMem with rfl | otherMem
        · rfl
        · exact absurd sameData (new otherMem sameKey)
      · rcases mem_cons.mp otherMem with rfl | otherMem
        · exact absurd sameData.symm (new mem sameKey.symm)
        · exact accounts.distinct mem otherMem sameKey sameData
  · intro object holders refers
    have counted := accounts.counted object holders refers
    rw [intern_refcnt, Function.update_apply]
    split
    · rename_i same
      rw [← same]
      omega
    · exact counted

/-- A reference that was just taken can be given up again. -/
theorem undo (key : UInt32)
    (unreferred : ∀ holder object other, refer holder = some (object, other) → other ≠ data) :
    ∃ after, (table.intern key data).1.unintern key data (table.intern key data).2 = some after ∧
      Accounts after keyOf refer := by
  have interned := accounts.intern key data
  have counted : Function.update (table.intern key data).1.refcnt (table.intern key data).2
      ((table.intern key data).1.refcnt (table.intern key data).2 - 1) = table.refcnt := by
    simp [intern_refcnt]
  unfold unintern count
  rw [counted]
  split
  · rcases @exists_find?_intern _ _ table key data with ⟨found, isFound⟩
    rcases mem_of_find? isFound with ⟨_, _, sameData⟩
    rw [isFound]
    refine ⟨_, rfl, ?_, fun mem other =>
      interned.distinct (mem_of_mem_erase mem) (mem_of_mem_erase other), accounts.counted⟩
    intro holder object other refers
    apply (mem_erase_of_ne _).mpr (interned.bucket refers)
    rintro rfl
    exact unreferred _ _ _ refers sameData
  · exact ⟨_, rfl, interned.bucket, interned.distinct, accounts.counted⟩

variable [DecidableEq ι] {holder : ι} {object : Nat}

omit [DecidableEq δ] in
theorem counted_release (refers : refer holder = some (object, data)) (other : Nat)
    (holders : Finset ι)
    (others : ∀ member ∈ holders, ∃ data,
      Function.update refer holder none member = some (other, data)) :
    holders.card ≤ Function.update table.refcnt object (table.refcnt object - 1) other := by
  have kept : ∀ member ∈ holders, member ≠ holder ∧ ∃ data, refer member = some (other, data) := by
    intro member mem
    rcases others member mem with ⟨data, found⟩
    rcases update_none_eq_some.mp found with ⟨different, found⟩
    exact ⟨different, data, found⟩
  by_cases same : other = object
  · subst same
    have all := accounts.counted other (insert holder holders) (by
      intro member mem
      rcases Finset.mem_insert.mp mem with rfl | mem
      · exact ⟨data, refers⟩
      · exact (kept member mem).2)
    rw [Finset.card_insert_of_notMem fun mem => (kept holder mem).1 rfl] at all
    rw [Function.update_self]
    omega
  · rw [Function.update_of_ne same]
    exact accounts.counted other holders fun member mem => (kept member mem).2

/-- A reference to contents that are in the table can be given up, also the last one. -/
theorem release (refers : refer holder = some (object, data)) :
    ∃ after, table.unintern (keyOf data) data object = some after ∧
      Accounts after keyOf (Function.update refer holder none) := by
  have fewer := accounts.counted_release refers
  have isBucket := accounts.bucket refers
  unfold unintern
  by_cases last : table.refcnt object - 1 = 0
  · rcases exists_find? isBucket with ⟨found, isFound⟩
    rcases mem_of_find? isFound with ⟨mem, sameKey, sameData⟩
    simp only [if_pos last, isFound, Option.map_some]
    refine ⟨_, rfl, ?_, fun mem other =>
      accounts.distinct (mem_of_mem_erase mem) (mem_of_mem_erase other), fewer⟩
    intro other otherObject otherData others
    rcases update_none_eq_some.mp others with ⟨different, refersOther⟩
    apply (mem_erase_of_ne _).mpr (accounts.bucket refersOther)
    -- the bucket that goes is not that of another holder, whose reference would be left
    rintro rfl
    injection accounts.distinct mem isBucket sameKey sameData with _ sameObject _
    subst sameObject
    have one := fewer otherObject {other} (by
      intro member mem
      rw [Finset.mem_singleton.mp mem]
      exact ⟨otherData, others⟩)
    rw [Function.update_self, last, Finset.card_singleton] at one
    omega
  · refine ⟨_, if_neg last, ?_, accounts.distinct, fewer⟩
    intro other otherObject otherData others
    exact accounts.bucket (update_none_eq_some.mp others).2

end Accounts

end InternTable

end Quagga.Foundation
