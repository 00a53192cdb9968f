import Mathlib.Data.Finset.Erase
import Mathlib.Data.Finset.Insert
import QuantArena.Foundations.Dict

/-! An index: under each key the set of its holders, with no entry for a key that nobody holds. -/

set_option autoImplicit false

namespace QuantArena.Foundations

variable {κ ι : Type} [DecidableEq κ] [DecidableEq ι]

abbrev Index (κ ι : Type) := Dict κ (Finset ι)

namespace Index

def holders (index : Index κ ι) (key : κ) : Finset ι := index.getD key ∅

/-- One more holder, under a key that need not have an entry yet. -/
def enter (index : Index κ ι) (key : κ) (holder : ι) : Index κ ι :=
  index.set key (insert holder (index.holders key))

/-- One holder less. The last one takes the entry along. -/
def leave (index : Index κ ι) (key : κ) (holder : ι) : Index κ ι :=
  index.alter key fun held => if held.erase holder = ∅ then none else some (held.erase holder)

def enterAll (index : Index κ ι) (keys : List κ) (holder : ι) : Index κ ι :=
  keys.foldl (fun index key => index.enter key holder) index

def leaveAll (index : Index κ ι) (keys : List κ) (holder : ι) : Index κ ι :=
  keys.foldl (fun index key => index.leave key holder) index

/-- No entry is empty. -/
def Tidy (index : Index κ ι) : Prop := ∀ key held, index.get? key = some held → held ≠ ∅

variable {index : Index κ ι} {key other : κ} {holder one : ι} {keys : List κ}

omit [DecidableEq ι] in
@[simp] theorem holders_empty (key : κ) : holders (Dict.empty : Index κ ι) key = ∅ := rfl

omit [DecidableEq ι] in
theorem tidy_empty : Tidy (Dict.empty : Index κ ι) := by simp [Tidy]

omit [DecidableEq ι] in
theorem mem_holders_iff :
    one ∈ index.holders key ↔ ∃ held, index.get? key = some held ∧ one ∈ held := by
  rw [holders, Dict.getD]
  cases index.get? key <;> simp

theorem mem_holders_enter : one ∈ (index.enter key holder).holders other ↔
    one ∈ index.holders other ∨ other = key ∧ one = holder := by
  rw [holders, enter, Dict.getD_set]
  split
  · rename_i same
    rw [Finset.mem_insert, same]
    simp [or_comm]
  · rename_i different
    simp [different, holders]

theorem Tidy.enter (tidy : index.Tidy) (key : κ) (holder : ι) : (index.enter key holder).Tidy := by
  intro other held found
  rw [Index.enter, Dict.get?_set] at found
  split at found
  · cases found
    exact Finset.insert_ne_empty _ _
  · exact tidy other held found

theorem mem_holders_leave : one ∈ (index.leave key holder).holders other ↔
    one ∈ index.holders other ∧ ¬ (other = key ∧ one = holder) := by
  by_cases same : other = key
  · rw [same, holders, leave, Dict.getD, Dict.get?_alter, if_pos rfl, holders, Dict.getD]
    cases found : Dict.get? index key with
    | none => simp
    | some held =>
        by_cases last : held.erase holder = ∅
        · have only : one ∈ held → one = holder := fun member => by
            by_contra different
            exact (Finset.eq_empty_iff_forall_notMem.mp last one)
              (Finset.mem_erase.mpr ⟨different, member⟩)
          simpa [last] using only
        · simp [last, and_comm]
  · simp [holders, leave, Dict.getD, Dict.get?_alter, same]

theorem Tidy.leave (tidy : index.Tidy) (key : κ) (holder : ι) : (index.leave key holder).Tidy := by
  intro other held found
  rw [Index.leave, Dict.get?_alter] at found
  split at found
  · obtain ⟨before, -, kept⟩ := Option.bind_eq_some_iff.mp found
    split at kept
    · cases kept
    · cases kept
      assumption
  · exact tidy other held found

theorem mem_holders_enterAll : one ∈ (index.enterAll keys holder).holders other ↔
    one ∈ index.holders other ∨ other ∈ keys ∧ one = holder := by
  induction keys generalizing index with
  | nil => simp [enterAll]
  | cons key rest ih =>
      rw [enterAll, List.foldl_cons, ← enterAll, ih, mem_holders_enter, List.mem_cons]
      tauto

theorem Tidy.enterAll (tidy : index.Tidy) (keys : List κ) (holder : ι) :
    (index.enterAll keys holder).Tidy := by
  induction keys generalizing index with
  | nil => exact tidy
  | cons key rest ih => exact ih (tidy.enter key holder)

theorem mem_holders_leaveAll : one ∈ (index.leaveAll keys holder).holders other ↔
    one ∈ index.holders other ∧ ¬ (other ∈ keys ∧ one = holder) := by
  induction keys generalizing index with
  | nil => simp [leaveAll]
  | cons key rest ih =>
      rw [leaveAll, List.foldl_cons, ← leaveAll, ih, mem_holders_leave, List.mem_cons]
      tauto

theorem Tidy.leaveAll (tidy : index.Tidy) (keys : List κ) (holder : ι) :
    (index.leaveAll keys holder).Tidy := by
  induction keys generalizing index with
  | nil => exact tidy
  | cons key rest ih => exact ih (tidy.leave key holder)

end Index

end QuantArena.Foundations
