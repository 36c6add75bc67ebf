/-!
# Objects behind pointers

A heap is a list of objects and a pointer a position in it. Objects are never freed, so a
pointer that was once valid stays so.
-/

namespace Quagga.Foundation

structure Heap (α : Type) where
  objects : List α
deriving Repr, DecidableEq

namespace Heap

variable {α : Type} (heap : Heap α)

def read (pointer : Nat) : Option α := heap.objects[pointer]?

def write (pointer : Nat) (object : α) : Heap α := ⟨heap.objects.set pointer object⟩

def next : Nat := heap.objects.length

def allocate (object : α) : Heap α := ⟨heap.objects ++ [object]⟩

variable {heap}

theorem lt_next_of_read {pointer : Nat} {object : α} (found : heap.read pointer = some object) :
    pointer < heap.next := by
  rcases List.getElem?_eq_some_iff.mp found with ⟨bound, _⟩
  exact bound

theorem read_write_same {pointer : Nat} {old : α} (found : heap.read pointer = some old)
    (object : α) : (heap.write pointer object).read pointer = some object := by
  exact List.getElem?_set_self (lt_next_of_read found)

theorem read_write_other {pointer other : Nat} (different : other ≠ pointer) (object : α) :
    (heap.write pointer object).read other = heap.read other := by
  simp [read, write, different.symm]

@[simp] theorem read_allocate_next (object : α) :
    (heap.allocate object).read heap.next = some object := by
  simp [read, allocate, next]

end Heap

end Quagga.Foundation
