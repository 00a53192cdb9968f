import Mathlib.Algebra.BigOperators.Group.Finset.Basic
import QuantArena.Ledger.Conservation
import QuantArena.Ledger.ProcessProperties

/-! Cash in the tables is conserved, and so are holdings, at every moment of the ledger process. -/

set_option autoImplicit false

namespace QuantArena.Ledger

open Foundations Contracts Exchange

/-- What the tables hold adds up to the deposits, and every symbol's holdings to nothing. -/
structure Database.Balanced (database : Database) (deposits : Int) : Prop where
  cash : ∃ users : Finset Int, (∀ userId, database.accounts userId ≠ none ↔ userId ∈ users) ∧
    (users.sum fun userId => (database.accounts userId).getD 0) + database.houseFees.getD 0 = deposits
  positions : ∀ symbolId,
    ((database.positions.filter fun row => row.1.2 = symbolId).map (·.2)).sum = 0

theorem blank_balanced : blank.Balanced 0 :=
  ⟨⟨∅, by simp [blank], rfl⟩, fun _ => rfl⟩

variable {ledger : Ledger} {deposits : Int}

/-- Holdings of zero, which have no row, make no difference. -/
theorem sum_rows (entries : List ((Int × Int) × Int)) (symbolId : Int) :
    (((entries.filter fun entry => entry.2 ≠ 0).filter fun row => row.1.2 = symbolId).map
      (·.2)).sum = (entries.map fun entry => if entry.1.2 = symbolId then entry.2 else 0).sum := by
  induction entries with
  | nil => rfl
  | cons entry rest ih =>
      rw [List.map_cons, List.sum_cons, ← ih]
      by_cases held : entry.2 = 0
      · simp [held]
      · by_cases same : entry.1.2 = symbolId
        · simp [held, same]
        · simp [held, same]

theorem sum_heldRows (ledger : Ledger) (symbolId : Int) :
    ((ledger.heldRows.filter fun row => row.1.2 = symbolId).map (·.2)).sum =
      ledger.netPosition symbolId := by
  rw [heldRows, Multiset.filter_coe, Multiset.map_coe, Multiset.sum_coe]
  exact sum_rows ledger.positions.entries symbolId

theorem sum_accounts (dict : Dict Int Int) :
    (dict.keys.toFinset.sum fun userId => (dict.get? userId).getD 0) = dict.values.sum := by
  have distinct : dict.keys.Nodup := dict.unique
  rw [List.sum_toFinset _ distinct, Dict.keys, Dict.values, List.map_map]
  congr 1
  refine List.map_congr_left fun entry member => ?_
  have found : dict.get? entry.1 = some entry.2 := Dict.get?_eq_some_iff.mpr member
  rw [Function.comp_apply, found, Option.getD_some]

/-- The tables of a ledger that balances. -/
theorem Balanced.written {entries : List (StreamId × Outbound)}
    (balanced : (projection.fold entries).Balanced deposits) :
    (written blank entries).Balanced deposits := by
  rw [Ledger.written, flush_everything_eq]
  refine ⟨⟨(projection.fold entries).cashBalances.keys.toFinset, fun userId => ?_, ?_⟩,
    fun symbolId => ?_⟩
  · rw [List.mem_toFinset, Dict.mem_keys_iff, ← Option.ne_none_iff_exists']
    simp [blank]
  · have cash := balanced.cash
    rw [totalSystemCash, totalUserCash, ← sum_accounts] at cash
    simpa [blank] using cash
  · exact (sum_heldRows _ symbolId).trans (balanced.positions symbolId)

namespace System

/-- At every moment of every run the tables balance, for the deposits among some first records. -/
theorem tables_always_balance (settings : Settings) (actions : List Action)
    (distinct : ((start blank).run settings actions).Distinct)
    (lawful : CreatedFirst ((start blank).run settings actions).outbound.records) :
    ∃ count ≤ ((start blank).run settings actions).outbound.entries.length,
      ((start blank).run settings actions).database.Balanced
        (((((start blank).run settings actions).outbound.records.take count).map deposit).sum) := by
  obtain ⟨count, -, sound⟩ := run_sound (start_sound blank) settings distinct
  generalize (start blank).run settings actions = system at sound lawful
  refine ⟨count, sound.within, ?_⟩
  cases sound.shows with
  | inl shown =>
      rw [shown]
      have events : ((system.outbound.entries.take count).map fun item =>
          (item.2, some item.1)).map (·.1) = system.outbound.records.take count := by
        rw [Stream.records, ← List.map_take, List.map_map]
        rfl
      have early : CreatedFirst (((system.outbound.entries.take count).map fun item =>
          (item.2, some item.1)).map (·.1)) := by
        rw [events]
        exact lawful.sublist (List.take_sublist _ _)
      have balanced := (applyAll_balanced _ early).1
      rw [← fold_eq] at balanced
      have paid : paidIn ((system.outbound.entries.take count).map fun item =>
          (item.2, some item.1)) = ((system.outbound.records.take count).map deposit).sum := by
        rw [← events, List.map_map]
        rfl
      rw [← paid]
      exact balanced.written
  | inr untouched =>
      rw [untouched.1, untouched.2]
      exact blank_balanced

theorem troubled_balances :
    ∃ count ≤ ((start blank).run twoAtATime troubled).outbound.entries.length,
      ((start blank).run twoAtATime troubled).database.Balanced
        (((((start blank).run twoAtATime troubled).outbound.records.take count).map deposit).sum) :=
  tables_always_balance twoAtATime troubled (by unfold Store.Distinct; decide +kernel) (by
    have records : ((start blank).run twoAtATime troubled).outbound.records =
        [.accountCreated ⟨1, 1, 7, 100000⟩, .accountCreated ⟨2, 1, 8, 100000⟩,
          .orderAccepted ⟨1, 1, 7, 4, 100, 5, 1, 2, 1⟩,
          .fill ⟨2, 1, 2, 7, 8, 100, 5, 1, sideCode .buy⟩] := by decide +kernel
    rw [records]
    simp [CreatedFirst, MovesCash])

end System

end QuantArena.Ledger
