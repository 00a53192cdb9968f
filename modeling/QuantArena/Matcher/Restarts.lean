import QuantArena.Matcher.EngineAgreement
import QuantArena.Matcher.SnapshotCodec

/-! A restored engine cannot be told from the one its snapshot was taken of: not by
the records it writes from there on, nor by the snapshots it takes. -/

set_option autoImplicit false

namespace QuantArena.Matcher

open Foundations Foundations.PriceTime Contracts Exchange Engine.Cpp

/-- Two matchers of one market answer alike for good. -/
theorem NaiveMatcher.Represents.applyAll_same {left right : NaiveMatcher} {market : Market}
    (leftRepresents : left.Represents market) (rightRepresents : right.Represents market)
    (sameCash : right.initialCashTicks = left.initialCashTicks) (valid : market.Valid)
    (records : List Inbound) :
    ∃ leftFinal rightFinal outputs, left.applyAll records = .ok (leftFinal, outputs) ∧
      right.applyAll records = .ok (rightFinal, outputs) ∧
      leftFinal.snapshot = rightFinal.snapshot := by
  obtain ⟨leftFinal, leftFinished, leftLast, -⟩ :=
    NaiveMatcher.applyAll_ok leftRepresents valid records
  obtain ⟨rightFinal, rightFinished, rightLast, -⟩ :=
    NaiveMatcher.applyAll_ok rightRepresents valid records
  rw [sameCash] at rightFinished rightLast
  refine ⟨leftFinal, rightFinal, _, leftFinished, rightFinished, ?_⟩
  rw [leftLast.snapshot_eq, rightLast.snapshot_eq]

theorem StreamEngine.Represents.applyAll_same {left right : StreamEngine} {market : Market}
    (leftRepresents : left.Represents market) (rightRepresents : right.Represents market)
    (sameCash : right.initialCashTicks = left.initialCashTicks) (valid : market.Valid)
    (records : List Inbound)
    (numbered : (market.run left.initialCashTicks records).1.tape.nextOrderId ≤ 256 ^ 8) :
    ∃ leftFinal rightFinal outputs, left.applyAll records = .ok (leftFinal, outputs) ∧
      right.applyAll records = .ok (rightFinal, outputs) ∧
      leftFinal.snapshot = rightFinal.snapshot := by
  obtain ⟨leftFinal, leftFinished, leftLast, -⟩ :=
    StreamEngine.applyAll_ok leftRepresents valid records numbered
  obtain ⟨rightFinal, rightFinished, rightLast, -⟩ :=
    StreamEngine.applyAll_ok rightRepresents valid records (by rwa [sameCash])
  rw [sameCash] at rightFinished rightLast
  refine ⟨leftFinal, rightFinal, _, leftFinished, rightFinished, ?_⟩
  rw [leftLast.snapshot_eq, rightLast.snapshot_eq]

theorem restarts_are_invisible (initialCashTicks : Int) (first second : List Inbound)
    (wire : ∀ record ∈ first, OnWire record) :
    (∃ matcher emitted, (NaiveMatcher.new 1 initialCashTicks).applyAll first =
        .ok (matcher, emitted) ∧
      (matcher.nextOrderId < 2 ^ 64 → matcher.byOrderId.values.length < 2 ^ 32 →
        ∃ data, matcher.snapshot = .ok data) ∧
      ∀ data, matcher.snapshot = .ok data → ∃ restored final restoredFinal outputs,
        NaiveMatcher.restore data initialCashTicks = .ok restored ∧
        matcher.applyAll second = .ok (final, outputs) ∧
        restored.applyAll second = .ok (restoredFinal, outputs) ∧
        final.snapshot = restoredFinal.snapshot) ∧
    ((Market.submissions first).length < 2 ^ 64 - 1 →
      (Market.submissions (first ++ second)).length < 2 ^ 64 →
      ∃ engine emitted, (StreamEngine.new initialCashTicks).applyAll first =
          .ok (engine, emitted) ∧
        (engine.live.size < 2 ^ 32 → ∃ data restored final restoredFinal outputs,
          engine.snapshot = .ok data ∧
          (StreamEngine.new initialCashTicks).restore data = .ok restored ∧
          engine.applyAll second = .ok (final, outputs) ∧
          restored.applyAll second = .ok (restoredFinal, outputs) ∧
          final.snapshot = restoredFinal.snapshot)) := by
  have valid := Market.run_valid initialCashTicks Market.fresh_valid first
  have laterWire := fresh_onWire initialCashTicks wire
  have start : Market.fresh.tape.nextOrderId = 1 := rfl
  constructor
  · obtain ⟨matcher, finished, represents, cash⟩ := NaiveMatcher.fresh_run initialCashTicks first
    refine ⟨matcher, _, finished, ?_, ?_⟩
    · intro room counted
      rw [represents.nextOrderId] at room
      rw [represents.live_length] at counted
      have fits := marketSnapshot_fits valid laterWire room (by omega)
      have packed := (EngineSnapshot.pack_eq_ok (marketSnapshot_ordered valid)).mpr ⟨fits, rfl⟩
      exact ⟨_, represents.snapshot_eq.trans packed⟩
    · intro data taken
      obtain ⟨restored, loaded, restoredCash, again⟩ :=
        NaiveMatcher.restore_ok represents valid taken initialCashTicks
      obtain ⟨final, restoredFinal, outputs, continued, resumed, same⟩ :=
        represents.applyAll_same again (restoredCash.trans cash.symm) valid second
      exact ⟨restored, final, restoredFinal, outputs, loaded, continued, resumed, same⟩
  · intro fewer numbered
    have most := (Market.run_nextOrderId initialCashTicks .fresh first).2
    have mostLater := (Market.run_nextOrderId initialCashTicks .fresh (first ++ second)).2
    simp only [Market.run_append] at mostLater
    obtain ⟨engine, finished, represents, cash⟩ := fresh_engine_run initialCashTicks first (by omega)
    refine ⟨engine, _, finished, ?_⟩
    intro counted
    have length : engine.live.size =
        (Market.fresh.run initialCashTicks first).1.tape.live.length := by
      rw [OrderedMap.size, represents.holds.live, List.length_map]
    generalize (Market.fresh.run initialCashTicks first).1 = market at *
    have fits := marketSnapshot_fits valid laterWire (by omega) (by omega)
    obtain ⟨restored, loaded, restoredCash, again⟩ :=
      StreamEngine.restore_ok valid fits initialCashTicks
    obtain ⟨final, restoredFinal, outputs, continued, resumed, same⟩ :=
      StreamEngine.Represents.applyAll_same represents again (restoredCash.trans cash.symm) valid
        second (by
          rw [cash]
          omega)
    exact ⟨_, restored, final, restoredFinal, outputs, represents.snapshot_of_fits fits, loaded,
      continued, resumed, same⟩

/-- More orders than the format can count make a snapshot that is refused. -/
theorem smallBids_unrestorable (count : Nat) (many : 2 ^ 32 ≤ count) (numbered : count < 2 ^ 64) :
    ∃ engine outputs data, (StreamEngine.new 0).applyAll
        (List.replicate count (.submitOrder smallBid)) = .ok (engine, outputs) ∧
      engine.snapshot = .ok data ∧
      ∀ restored, (StreamEngine.new 0).restore data ≠ .ok restored := by
  obtain ⟨engine, finished, represents, -⟩ := fresh_engine_run 0
    (List.replicate count (.submitOrder smallBid)) (by rwa [submissions_smallBids])
  obtain ⟨-, length, -⟩ := smallBids_run 0 count
  refine ⟨engine, _, _, finished, represents.snapshot_eq, cpp_refuses_many ?_ 0⟩
  rw [marketSnapshot, List.length_map, length]
  omega

/-- With 2^32 live orders the engine refuses the snapshot it has just taken. -/
theorem restart_refused :
    ∃ engine outputs data, (StreamEngine.new 0).applyAll
        (List.replicate (2 ^ 32) (.submitOrder smallBid)) = .ok (engine, outputs) ∧
      engine.snapshot = .ok data ∧
      ∀ restored, (StreamEngine.new 0).restore data ≠ .ok restored :=
  smallBids_unrestorable (2 ^ 32) le_rfl (by norm_num)

/-- A restart between a small bid and the order that trades with it. -/
theorem restart_before_a_trade :
    (∃ matcher emitted, (NaiveMatcher.new 1 1000).applyAll [.submitOrder smallBid] =
        .ok (matcher, emitted) ∧
      (matcher.nextOrderId < 2 ^ 64 → matcher.byOrderId.values.length < 2 ^ 32 →
        ∃ data, matcher.snapshot = .ok data) ∧
      ∀ data, matcher.snapshot = .ok data → ∃ restored final restoredFinal outputs,
        NaiveMatcher.restore data 1000 = .ok restored ∧
        matcher.applyAll [.submitOrder { smallBid with side := sideCode .sell }] =
          .ok (final, outputs) ∧
        restored.applyAll [.submitOrder { smallBid with side := sideCode .sell }] =
          .ok (restoredFinal, outputs) ∧
        final.snapshot = restoredFinal.snapshot) ∧
    ∃ engine emitted, (StreamEngine.new 1000).applyAll [.submitOrder smallBid] =
        .ok (engine, emitted) ∧
      (engine.live.size < 2 ^ 32 → ∃ data restored final restoredFinal outputs,
        engine.snapshot = .ok data ∧
        (StreamEngine.new 1000).restore data = .ok restored ∧
        engine.applyAll [.submitOrder { smallBid with side := sideCode .sell }] =
          .ok (final, outputs) ∧
        restored.applyAll [.submitOrder { smallBid with side := sideCode .sell }] =
          .ok (restoredFinal, outputs) ∧
        final.snapshot = restoredFinal.snapshot) := by
  obtain ⟨naive, engine⟩ := restarts_are_invisible 1000 [.submitOrder smallBid]
    [.submitOrder { smallBid with side := sideCode .sell }] (by
      intro record member
      rw [List.mem_singleton.mp member]
      constructor <;> decide)
  exact ⟨naive, engine (by decide) (by decide)⟩

end QuantArena.Matcher
