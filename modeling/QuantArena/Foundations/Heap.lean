import Mathlib.Data.List.GetD

/-! Objects behind references. A reference is the place an object was created at,
and it is never reused, so two references are equal exactly when the objects are one. -/

set_option autoImplicit false

namespace QuantArena.Foundations

abbrev Ref := Nat

structure Heap (α : Type) where
  cells : List α
deriving DecidableEq, Repr

namespace Heap

variable {α : Type}

def empty : Heap α := ⟨[]⟩

def size (heap : Heap α) : Nat := heap.cells.length

/-- Where the next object goes. -/
def fresh (heap : Heap α) : Ref := heap.size

def alloc (heap : Heap α) (object : α) : Heap α := ⟨heap.cells ++ [object]⟩

def write (heap : Heap α) (ref : Ref) (object : α) : Heap α := ⟨heap.cells.set ref object⟩

/-- A reference that was never handed out reads as the default object. -/
def read [Inhabited α] (heap : Heap α) (ref : Ref) : α := heap.cells.getD ref default

@[simp] theorem size_alloc (heap : Heap α) (object : α) :
    (heap.alloc object).size = heap.size + 1 := by
  simp [size, alloc]

@[simp] theorem size_write (heap : Heap α) (ref : Ref) (object : α) :
    (heap.write ref object).size = heap.size := by
  simp [size, write]

variable [Inhabited α]

@[simp] theorem read_alloc_fresh (heap : Heap α) (object : α) :
    (heap.alloc object).read heap.fresh = object := by
  simp [read, alloc, fresh, size]

theorem read_alloc_of_lt {heap : Heap α} {ref : Ref} (object : α) (allocated : ref < heap.size) :
    (heap.alloc object).read ref = heap.read ref :=
  List.getD_append _ _ _ _ allocated

theorem read_write_self {heap : Heap α} {ref : Ref} (object : α) (allocated : ref < heap.size) :
    (heap.write ref object).read ref = object := by
  rw [read, write, List.getD_eq_getElem?_getD, List.getElem?_set_self allocated, Option.getD_some]

theorem read_write_of_ne (heap : Heap α) {ref other : Ref} (object : α) (different : other ≠ ref) :
    (heap.write ref object).read other = heap.read other := by
  simp only [read, write, List.getD_eq_getElem?_getD, List.getElem?_set_ne different.symm]

/-! ## What holds of every object -/

variable {holds : α → Prop} {heap : Heap α}

theorem forall_alloc (every : ∀ ref, holds (heap.read ref)) {object : α} (new : holds object)
    (ref : Ref) : holds ((heap.alloc object).read ref) := by
  obtain old | rfl | beyond := Nat.lt_trichotomy ref heap.size
  · rw [read_alloc_of_lt object old]
    exact every ref
  · exact (read_alloc_fresh heap object).symm ▸ new
  · have unallocated : (heap.alloc object).read ref = heap.read ref := by
      rw [read, read, List.getD_eq_default _ _ (Nat.le_of_lt beyond), List.getD_eq_default]
      simpa [alloc, size] using Nat.succ_le_of_lt beyond
    rw [unallocated]
    exact every ref

theorem forall_write (every : ∀ ref, holds (heap.read ref)) {object : α} (new : holds object)
    (target ref : Ref) : holds ((heap.write target object).read ref) := by
  by_cases same : ref = target
  · subst same
    by_cases allocated : ref < heap.size
    · rw [read_write_self object allocated]
      exact new
    · have unallocated : heap.write ref object = heap := by
        simp [write, List.set_eq_of_length_le (Nat.le_of_not_lt allocated)]
      rw [unallocated]
      exact every ref
  · rw [read_write_of_ne heap object same]
    exact every ref

end Heap

end QuantArena.Foundations
