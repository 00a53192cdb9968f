import QuantArena.Backtest.Runner
import QuantArena.Foundations.Fold

/-! What one bar can do to a run, and that what was filled on the bars so far does not depend
on anything later: two series that agree up to a bar's open agree on every fill up to it. -/

set_option autoImplicit false

namespace QuantArena.Backtest

open Foundations

variable {strategy : Strategy} {bar : Bar} {state next : RunState} {intent : OrderIntent}
  {initialCashTicks : Int} {bars : List Bar} {place : Nat}

namespace RunState

/-! ## One round -/

/-- An intent is refused, or traded. -/
theorem fillIntent_cases (filled : state.fillIntent bar intent = .ok next) :
    (state.portfolio.take bar.openTicks intent = .ok none ∧
      next = { state with
        refused := state.refused + 1
        settled := state.settled ++ [(intent, none)] }) ∨
      ∃ portfolio trade, state.portfolio.take bar.openTicks intent = .ok (some (portfolio, trade)) ∧
        next = { state with
          portfolio
          trades := state.trades ++ [{ trade with barIndex := bar.index }]
          firstTradeBar := state.firstTradeBar.or (some bar.index)
          settled := state.settled ++ [(intent, some { trade with barIndex := bar.index })] } := by
  rw [fillIntent] at filled
  obtain ⟨outcome, took, rest⟩ := Fault.bind_eq_ok.mp filled
  cases outcome with
  | none =>
      cases rest
      exact .inl ⟨took, rfl⟩
  | some traded =>
      cases rest
      exact .inr ⟨traded.1, traded.2, took, rfl⟩

/-- A later state has the earlier one's trades first, and at least its refusals. -/
structure Grows (indexes : List Int) (state next : RunState) : Prop where
  trades : ∃ later, next.trades = state.trades ++ later ∧ ∀ trade ∈ later, trade.barIndex ∈ indexes
  refused : state.refused ≤ next.refused

theorem Grows.refl (indexes : List Int) (state : RunState) : Grows indexes state state :=
  ⟨⟨[], by simp, by simp⟩, le_rfl⟩

theorem Grows.trans {indexes : List Int} {first second third : RunState}
    (early : Grows indexes first second) (late : Grows indexes second third) :
    Grows indexes first third := by
  obtain ⟨some, split, own⟩ := early.trades
  obtain ⟨more, grown, others⟩ := late.trades
  refine ⟨⟨some ++ more, by rw [grown, split, List.append_assoc], fun trade member => ?_⟩,
    early.refused.trans late.refused⟩
  exact (List.mem_append.mp member).elim (own trade) (others trade)

theorem fillIntent_grows {indexes : List Int} (inside : bar.index ∈ indexes)
    (filled : state.fillIntent bar intent = .ok next) : Grows indexes state next := by
  rcases fillIntent_cases filled with ⟨-, rfl⟩ | ⟨portfolio, trade, -, rfl⟩
  · exact ⟨⟨[], by simp, by simp⟩, by simp⟩
  · exact ⟨⟨[_], rfl, by simpa using inside⟩, le_rfl⟩

theorem fillPending_grows {indexes : List Int} (inside : bar.index ∈ indexes)
    (filled : state.fillPending bar = .ok next) : Grows indexes state next := by
  obtain ⟨after, ran, same⟩ := Fault.bind_eq_ok.mp filled
  cases same
  have grown : Grows indexes state after :=
    foldlM_invariant (fun _ _ _ _ grown filled => grown.trans (fillIntent_grows inside filled))
      (Grows.refl indexes state) ran
  exact ⟨grown.trades, grown.refused⟩

theorem step_grows {indexes : List Int} (inside : bar.index ∈ indexes)
    (stepped : state.step strategy bar = .ok next) : Grows indexes state next := by
  obtain ⟨filled, pending, same⟩ := Fault.bind_eq_ok.mp stepped
  cases same
  have grown := fillPending_grows inside pending
  exact ⟨grown.trades, grown.refused⟩

theorem foldlM_grows {indexes : List Int} (inside : ∀ bar ∈ bars, bar.index ∈ indexes)
    (ran : bars.foldlM (step strategy) state = .ok next) : Grows indexes state next :=
  foldlM_invariant
    (fun _ other member _ grown stepped => grown.trans (step_grows (inside other member) stepped))
    (Grows.refl indexes state) ran

/-! ## Up to a bar's open -/

/-- The loop up to the fills of one bar, before the strategy is shown it. -/
def filledThrough (strategy : Strategy) (initialCashTicks : Int) (bars : List Bar) (place : Nat) :
    Except Fault RunState := do
  let state ← loop strategy initialCashTicks (bars.take place)
  match bars[place]? with
  | none => pure state
  | some bar => state.fillPending bar

/-- Pending intents see the open of a bar and its index, and nothing else of it. -/
theorem fillPending_congr {left right : Bar} (index : left.index = right.index)
    (opens : left.openTicks = right.openTicks) (state : RunState) :
    state.fillPending left = state.fillPending right := by
  have same : fillIntent left = fillIntent right := by
    funext state intent
    rw [fillIntent, fillIntent, index, opens]
  rw [fillPending, fillPending, same]

theorem loop_split (here : bars[place]? = some bar) :
    loop strategy initialCashTicks bars =
      filledThrough strategy initialCashTicks bars place >>= fun filled =>
        (bars.drop (place + 1)).foldlM (step strategy) ((filled.showBar strategy bar).mark bar) := by
  obtain ⟨inside, -⟩ := List.getElem?_eq_some_iff.mp here
  have parts : bars = bars.take place ++ bar :: bars.drop (place + 1) := by
    rw [← (List.getElem?_eq_some_iff.mp here).2, List.getElem_cons_drop, List.take_append_drop]
  conv_lhs => rw [loop, parts, List.foldlM_append]
  rw [filledThrough, here, loop, bind_assoc]
  refine bind_congr fun state => ?_
  rw [List.foldlM_cons, step, bind_assoc]
  rfl

/-- What the result keeps of the fills up to a bar. -/
structure Continues (bars : List Bar) (place : Nat) (state : RunState) (result : Result) : Prop where
  early : ∀ trade ∈ state.trades, trade.barIndex ∈ (bars.take (place + 1)).map (·.index)
  trades : ∃ later, result.trades = state.trades ++ later ∧
    ∀ trade ∈ later, trade.barIndex ∈ (bars.drop (place + 1)).map (·.index)
  refused : state.refused ≤ result.refusedIntents

theorem filledThrough_early (here : bars[place]? = some bar)
    (filled : filledThrough strategy initialCashTicks bars place = .ok state) :
    ∀ trade ∈ state.trades, trade.barIndex ∈ (bars.take (place + 1)).map (·.index) := by
  have inside : ∀ other ∈ bars.take place, other.index ∈ (bars.take (place + 1)).map (·.index) :=
    fun other member => List.mem_map_of_mem (List.take_subset_take_left _ (Nat.le_succ _) member)
  have own : bar.index ∈ (bars.take (place + 1)).map (·.index) :=
    List.mem_map_of_mem (by rw [List.take_add_one, here]; simp)
  rw [filledThrough, here] at filled
  obtain ⟨before, ran, pending⟩ := Fault.bind_eq_ok.mp filled
  obtain ⟨trades, split, indexed⟩ := ((foldlM_grows inside ran).trans
    (fillPending_grows own pending)).trades
  rw [split]
  exact fun trade member => indexed trade (by simpa [start] using member)

theorem continues_of_run (here : bars[place]? = some bar) {result : Result}
    (ran : run strategy bars initialCashTicks = .ok result) :
    ∃ state, filledThrough strategy initialCashTicks bars place = .ok state ∧
      Continues bars place state result := by
  rw [run] at ran
  split at ran
  · cases ran
  · rw [loop_split here] at ran
    obtain ⟨last, looped, same⟩ := Fault.bind_eq_ok.mp ran
    obtain ⟨state, filled, rest⟩ := Fault.bind_eq_ok.mp looped
    cases same
    have grown := foldlM_grows (fun other member => List.mem_map_of_mem member) rest
    exact ⟨state, filled, filledThrough_early here filled, grown.trades, grown.refused⟩

end RunState

/-- No fill up to a bar depends on that bar's prices after the open, or on a later bar. -/
theorem no_lookahead (strategy : Strategy) (initialCashTicks : Int) {left right : List Bar}
    {place : Nat} {leftBar rightBar : Bar}
    (leftHere : left[place]? = some leftBar) (rightHere : right[place]? = some rightBar)
    (before : left.take place = right.take place) (index : leftBar.index = rightBar.index)
    (opens : leftBar.openTicks = rightBar.openTicks) :
    RunState.filledThrough strategy initialCashTicks left place =
        RunState.filledThrough strategy initialCashTicks right place ∧
      (∀ result, run strategy left initialCashTicks = .ok result →
        ∃ state, RunState.filledThrough strategy initialCashTicks left place = .ok state ∧
          RunState.Continues left place state result) ∧
      ∀ result, run strategy right initialCashTicks = .ok result →
        ∃ state, RunState.filledThrough strategy initialCashTicks right place = .ok state ∧
          RunState.Continues right place state result := by
  refine ⟨?_, fun _ => RunState.continues_of_run leftHere, fun _ =>
    RunState.continues_of_run rightHere⟩
  rw [RunState.filledThrough, RunState.filledThrough, leftHere, rightHere, before]
  exact bind_congr fun state => RunState.fillPending_congr index opens state

theorem no_lookahead_crash :
    let always : Strategy := fun _ => [⟨1, 1⟩]
    let first : Bar := ⟨0, 0, 100, 100, 100, 100⟩
    RunState.filledThrough always 1000 [first, ⟨1, 1, 110, 500, 110, 500⟩, ⟨2, 2, 500, 500, 500, 500⟩] 1 =
      RunState.filledThrough always 1000 [first, ⟨1, 1, 110, 110, 1, 1⟩] 1 :=
  (no_lookahead _ _ rfl rfl rfl rfl rfl).1

end QuantArena.Backtest
