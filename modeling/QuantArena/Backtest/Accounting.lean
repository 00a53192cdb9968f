import Mathlib.Tactic.Linarith
import Mathlib.Tactic.Ring
import QuantArena.Backtest.Lookahead

/-! The books of a backtest: with prices and quantities that are positive nothing raises, cash
and position stay where they can be, and every tick and every intent is accounted for. -/

set_option autoImplicit false

namespace QuantArena.Backtest

open Foundations Contracts Ledger

variable {strategy : Strategy} {bar : Bar} {state next : RunState} {intent : OrderIntent}
  {initialCashTicks priceTicks qty : Int} {bars : List Bar} {portfolio : Portfolio}

/-! ## One trade -/

/-- The fee is less than what is paid. -/
theorem takerFee_le (price : 0 < priceTicks) (units : 0 < qty) :
    Portfolio.takerFee priceTicks qty ≤ priceTicks * qty := by
  have notional : 0 < priceTicks * qty := Int.mul_pos price units
  have bound : priceTicks * qty * takerFeeBps ≤ priceTicks * qty * bpsDenominator :=
    Int.mul_le_mul_of_nonneg_left (by decide) notional.le
  exact (Int.ediv_le_ediv (by decide) bound).trans_eq (Int.mul_ediv_cancel _ (by decide))

namespace Portfolio

/-- Neither cash that is not there nor units that are not held. -/
def Solvent (portfolio : Portfolio) : Prop := 0 ≤ portfolio.cashTicks ∧ 0 ≤ portfolio.position

/-- What a trade does to cash and to the position, whichever side it is on. -/
structure Books (portfolio after : Portfolio) (trade : Trade) : Prop where
  solvent : after.Solvent
  side : trade.side = sideCode .buy ∨ trade.side = sideCode .sell
  cash : after.cashTicks = portfolio.cashTicks - trade.feeTicks +
    if trade.side = sideCode .buy then -(trade.priceTicks * trade.qty)
    else trade.priceTicks * trade.qty
  position : after.position = portfolio.position +
    if trade.side = sideCode .buy then trade.qty else -trade.qty

/-- With positive numbers an intent never raises, and a trade is booked as it says. -/
theorem take_books (solvent : portfolio.Solvent) (price : 0 < priceTicks)
    (units : 0 < intent.qty) :
    portfolio.take priceTicks intent = .ok none ∨
      ∃ after trade, portfolio.take priceTicks intent = .ok (some (after, trade)) ∧
        portfolio.Books after trade ∧ trade.priceTicks = priceTicks ∧ trade.qty = intent.qty ∧
          (trade.side = sideCode .buy ↔ intent.side = sideCode .buy) := by
  have fee := takerFee_le price units
  obtain ⟨cash, held⟩ := solvent
  by_cases buys : intent.side = sideCode .buy
  · rw [take, if_pos buys, buy]
    by_cases short : portfolio.cashTicks < priceTicks * intent.qty + takerFee priceTicks intent.qty
    · exact .inl (if_pos short)
    · have some : portfolio.position + intent.qty ≠ 0 := by omega
      refine .inr ⟨_, _, by rw [if_neg short, if_neg some], ⟨⟨?_, ?_⟩, .inl rfl, ?_, ?_⟩, rfl, rfl,
        iff_of_true rfl buys⟩
      · show 0 ≤ portfolio.cashTicks - _
        omega
      · show 0 ≤ portfolio.position + intent.qty
        omega
      · simp only [if_true]
        ring
      · simp only [if_true]
  · rw [take, if_neg buys, sell]
    by_cases short : portfolio.position < intent.qty
    · exact .inl (by rw [if_pos short])
    · have other : ¬ sideCode .sell = sideCode .buy := by decide
      refine .inr ⟨_, _, by rw [if_neg short], ⟨⟨?_, ?_⟩, .inr rfl, ?_, ?_⟩, rfl,
        rfl, iff_of_false other buys⟩
      · show 0 ≤ portfolio.cashTicks + _
        omega
      · show 0 ≤ portfolio.position - intent.qty
        omega
      · simp only [other, if_false]
        ring
      · simp only [other, if_false]
        ring

end Portfolio

/-! ## The totals of a run -/

/-- What the trades of one side paid or brought in, before fees. -/
def notionals (side : PriceTime.Side) (trades : List Trade) : Int :=
  ((trades.filter fun trade => trade.side = sideCode side).map
    fun trade => trade.priceTicks * trade.qty).sum

def fees (trades : List Trade) : Int := (trades.map (·.feeTicks)).sum

/-- The units that the trades leave held. -/
def held (trades : List Trade) : Int :=
  ((trades.filter fun trade => trade.side = sideCode .buy).map (·.qty)).sum -
    ((trades.filter fun trade => trade.side = sideCode .sell).map (·.qty)).sum

/-- Everything that the strategy has asked for, bar after bar. -/
def asked (strategy : Strategy) (shown : List (Bar × PortfolioView)) : List OrderIntent :=
  (List.range shown.length).flatMap fun count => strategy (shown.take (count + 1))

theorem asked_snoc (strategy : Strategy) (shown : List (Bar × PortfolioView))
    (last : Bar × PortfolioView) :
    asked strategy (shown ++ [last]) = asked strategy shown ++ strategy (shown ++ [last]) := by
  rw [asked, List.length_append, List.length_singleton, List.range_succ, List.flatMap_append,
    List.flatMap_singleton, asked]
  congr 1
  · refine List.flatMap_congr fun count inside => ?_
    have short := List.mem_range.mp inside
    rw [List.take_append_of_le_length short]
  · rw [List.take_of_length_le (by simp)]

/-- The totals as they stand in a state of the loop. -/
structure Accounted (initialCashTicks : Int) (state : RunState) : Prop where
  solvent : state.portfolio.Solvent
  cash : state.portfolio.cashTicks = initialCashTicks - notionals .buy state.trades +
    notionals .sell state.trades - fees state.trades
  position : state.portfolio.position = held state.trades
  trades : state.trades = state.settled.filterMap (·.2)
  refused : state.refused = (state.settled.filter (·.2.isNone)).length
  matched : ∀ settled ∈ state.settled, ∀ trade ∈ settled.2, trade.qty = settled.1.qty ∧
    (trade.side = sideCode .buy ↔ settled.1.side = sideCode .buy)

theorem start_accounted (cash : 0 ≤ initialCashTicks) :
    Accounted initialCashTicks (.start initialCashTicks) where
  solvent := ⟨cash, le_rfl⟩
  cash := by simp [RunState.start, Portfolio.new, notionals, fees]
  position := by simp [RunState.start, Portfolio.new, held]
  trades := rfl
  refused := rfl
  matched := by simp [RunState.start]

/-- One more trade in the totals. -/
theorem totals_snoc (trades : List Trade) {trade : Trade}
    (side : trade.side = sideCode .buy ∨ trade.side = sideCode .sell) :
    notionals .sell (trades ++ [trade]) - notionals .buy (trades ++ [trade]) =
        notionals .sell trades - notionals .buy trades +
          (if trade.side = sideCode .buy then -(trade.priceTicks * trade.qty)
          else trade.priceTicks * trade.qty) ∧
      fees (trades ++ [trade]) = fees trades + trade.feeTicks ∧
      held (trades ++ [trade]) = held trades +
        if trade.side = sideCode .buy then trade.qty else -trade.qty := by
  have other : ¬ sideCode .sell = sideCode .buy := by decide
  cases side with
  | inl buys =>
      refine ⟨?_, by simp [fees], ?_⟩ <;>
        simp only [notionals, held, List.filter_append, List.filter_singleton, buys, Ne.symm other,
          decide_true, decide_false, cond_true, cond_false, List.map_append, List.sum_append,
          List.map_cons, List.map_nil, List.sum_cons, List.sum_nil, List.append_nil, if_true] <;>
        ring
  | inr sells =>
      refine ⟨?_, by simp [fees], ?_⟩ <;>
        simp only [notionals, held, List.filter_append, List.filter_singleton, sells, other,
          decide_true, decide_false, cond_true, cond_false, List.map_append, List.sum_append,
          List.map_cons, List.map_nil, List.sum_cons, List.sum_nil, List.append_nil, if_false] <;>
        ring

/-! ## One bar -/

/-- What a round on one bar leaves alone, and the intents it has settled. -/
structure Settles (intents : List OrderIntent) (state next : RunState) : Prop where
  settled : next.settled.map (·.1) = state.settled.map (·.1) ++ intents
  shown : next.shown = state.shown
  pending : next.pending = state.pending
  equityCurve : next.equityCurve = state.equityCurve

theorem Accounted.fillIntent (accounted : Accounted initialCashTicks state)
    (price : 0 < bar.openTicks) (units : 0 < intent.qty) :
    ∃ next, state.fillIntent bar intent = .ok next ∧ Accounted initialCashTicks next ∧
      Settles [intent] state next := by
  rcases Portfolio.take_books accounted.solvent price units with
    refused | ⟨after, trade, traded, books, -, own, side⟩
  · have filled : state.fillIntent bar intent = .ok { state with
        refused := state.refused + 1
        settled := state.settled ++ [(intent, none)] } := by
      rw [RunState.fillIntent, refused]
      rfl
    refine ⟨_, filled, ?_, by simp, rfl, rfl, rfl⟩
    refine ⟨accounted.solvent, accounted.cash, accounted.position, ?_, ?_, ?_⟩
    · simp [accounted.trades]
    · simp [accounted.refused]
    · intro settled member trade inside
      cases List.mem_append.mp member with
      | inl old => exact accounted.matched settled old trade inside
      | inr new =>
          rw [List.mem_singleton.mp new] at inside
          cases inside
  · have filled : state.fillIntent bar intent = .ok { state with
        portfolio := after
        trades := state.trades ++ [{ trade with barIndex := bar.index }]
        firstTradeBar := state.firstTradeBar.or (some bar.index)
        settled := state.settled ++ [(intent, some { trade with barIndex := bar.index })] } := by
      rw [RunState.fillIntent, traded]
      rfl
    refine ⟨_, filled, ?_, by simp, rfl, rfl, rfl⟩
    have totals := @totals_snoc state.trades { trade with barIndex := bar.index } books.side
    have cash := books.cash
    have position := books.position
    rw [accounted.cash] at cash
    rw [accounted.position] at position
    refine ⟨books.solvent, ?_, ?_, ?_, ?_, ?_⟩
    · show after.cashTicks = _
      linarith [totals.1, totals.2.1]
    · show after.position = _
      linarith [totals.2.2]
    · simp [accounted.trades]
    · simp [accounted.refused]
    · intro settled member trade' inside
      cases List.mem_append.mp member with
      | inl old => exact accounted.matched settled old trade' inside
      | inr new =>
          rw [List.mem_singleton.mp new] at inside ⊢
          cases inside
          exact ⟨own, side⟩

theorem Accounted.fillIntents (accounted : Accounted initialCashTicks state)
    (price : 0 < bar.openTicks) {intents : List OrderIntent}
    (units : ∀ intent ∈ intents, 0 < intent.qty) :
    ∃ next, intents.foldlM (RunState.fillIntent bar) state = .ok next ∧
      Accounted initialCashTicks next ∧ Settles intents state next := by
  induction intents generalizing state with
  | nil => exact ⟨state, rfl, accounted, by simp, rfl, rfl, rfl⟩
  | cons intent rest ih =>
      obtain ⟨first, filled, kept, settles⟩ := accounted.fillIntent price
        (units intent List.mem_cons_self)
      obtain ⟨next, ran, held, later⟩ := ih kept fun other member =>
        units other (List.mem_cons_of_mem _ member)
      refine ⟨next, by rw [List.foldlM_cons, filled, Fault.ok_bind, ran], held, ?_,
        later.shown.trans settles.shown, later.pending.trans settles.pending,
        later.equityCurve.trans settles.equityCurve⟩
      rw [later.settled, settles.settled, List.append_assoc]
      rfl

/-- A state between two bars. -/
structure Balanced (strategy : Strategy) (initialCashTicks : Int) (bars : List Bar)
    (state : RunState) : Prop where
  accounted : Accounted initialCashTicks state
  shown : state.shown.map (·.1) = bars
  requested : asked strategy state.shown = state.settled.map (·.1) ++ state.pending
  units : ∀ intent ∈ state.pending, 0 < intent.qty
  equity : state.equityCurve.getLast? = bars.getLast?.map fun bar =>
    state.portfolio.equity bar.closeTicks

theorem Balanced.step (balanced : Balanced strategy initialCashTicks bars state)
    (positive : ∀ shown, ∀ intent ∈ strategy shown, 0 < intent.qty) (price : 0 < bar.openTicks) :
    ∃ next, state.step strategy bar = .ok next ∧
      Balanced strategy initialCashTicks (bars ++ [bar]) next := by
  obtain ⟨filled, ran, accounted, settles⟩ := balanced.accounted.fillIntents price balanced.units
  refine ⟨_, by rw [RunState.step, RunState.fillPending, ran]; rfl, ?_⟩
  refine ⟨⟨accounted.solvent, accounted.cash, accounted.position, accounted.trades,
    accounted.refused, accounted.matched⟩, ?_, ?_, fun intent => positive _ intent, ?_⟩
  · simp [RunState.showBar, RunState.mark, settles.shown, balanced.shown]
  · show asked strategy (filled.shown ++ [_]) = filled.settled.map (·.1) ++ _
    rw [asked_snoc, settles.shown, balanced.requested, settles.settled]
    rfl
  · simp [RunState.showBar, RunState.mark]

theorem loop_balanced (positive : ∀ shown, ∀ intent ∈ strategy shown, 0 < intent.qty)
    (cash : 0 ≤ initialCashTicks) (prices : ∀ bar ∈ bars, 0 < bar.openTicks) :
    ∃ state, RunState.loop strategy initialCashTicks bars = .ok state ∧
      Balanced strategy initialCashTicks bars state := by
  induction bars using List.reverseRecOn with
  | nil => exact ⟨_, rfl, start_accounted cash, rfl, rfl, by simp [RunState.start], rfl⟩
  | append_singleton before bar ih =>
      obtain ⟨state, ran, balanced⟩ := ih fun other member =>
        prices other (List.mem_append_left _ member)
      obtain ⟨next, stepped, kept⟩ := balanced.step positive (prices bar (by simp))
      refine ⟨next, ?_, kept⟩
      rw [RunState.loop] at ran ⊢
      rw [List.foldlM_append, ran, Fault.ok_bind, List.foldlM_cons, stepped]
      rfl

/-! ## The whole run -/

/-- The portfolio after so many pending intents of one bar, if it is reached. -/
def partway (strategy : Strategy) (initialCashTicks : Int) (bars : List Bar) (place count : Nat) :
    Except Fault RunState := do
  let state ← RunState.loop strategy initialCashTicks (bars.take place)
  match bars[place]? with
  | none => pure state
  | some bar => (state.pending.take count).foldlM (RunState.fillIntent bar) state

theorem partway_solvent (positive : ∀ shown, ∀ intent ∈ strategy shown, 0 < intent.qty)
    (cash : 0 ≤ initialCashTicks) (prices : ∀ bar ∈ bars, 0 < bar.openTicks) (place count : Nat) :
    ∃ state, partway strategy initialCashTicks bars place count = .ok state ∧
      state.portfolio.Solvent := by
  obtain ⟨state, ran, balanced⟩ := loop_balanced positive cash fun bar member =>
    prices bar (List.mem_of_mem_take (i := place) member)
  rw [partway, ran, Fault.ok_bind]
  cases here : bars[place]? with
  | none => exact ⟨state, rfl, balanced.accounted.solvent⟩
  | some bar =>
      obtain ⟨next, filled, accounted, -⟩ := balanced.accounted.fillIntents
        (prices bar (List.mem_of_getElem? here)) fun intent member =>
          balanced.units intent (List.mem_of_mem_take (i := count) member)
      exact ⟨next, filled, accounted.solvent⟩

/-- A backtest's result accounts for every tick and for every intent. -/
theorem accounting_closes (positive : ∀ shown, ∀ intent ∈ strategy shown, 0 < intent.qty)
    (cash : 0 ≤ initialCashTicks) (several : 2 ≤ bars.length)
    (prices : ∀ bar ∈ bars, 0 < bar.openTicks) :
    (∀ place count, ∃ state, partway strategy initialCashTicks bars place count = .ok state ∧
        0 ≤ state.portfolio.cashTicks ∧ 0 ≤ state.portfolio.position) ∧
      ∃ state result last, RunState.loop strategy initialCashTicks bars = .ok state ∧
        run strategy bars initialCashTicks = .ok result ∧ bars.getLast? = some last ∧
        result.finalEquityTicks = initialCashTicks - notionals .buy result.trades +
          notionals .sell result.trades - result.feesPaidTicks +
          held result.trades * last.closeTicks ∧
        state.shown.map (·.1) = bars ∧
        asked strategy state.shown = state.settled.map (·.1) ++ state.pending ∧
        result.trades = state.settled.filterMap (·.2) ∧
        result.refusedIntents = (state.settled.filter (·.2.isNone)).length ∧
        result.unfilledAtEnd = state.pending.length ∧
        ∀ one ∈ state.settled, ∀ trade ∈ one.2, trade.qty = one.1.qty ∧
          (trade.side = sideCode .buy ↔ one.1.side = sideCode .buy) := by
  refine ⟨partway_solvent positive cash prices, ?_⟩
  obtain ⟨state, ran, balanced⟩ := loop_balanced positive cash prices
  obtain ⟨last, final⟩ : ∃ last, bars.getLast? = some last := by
    cases found : bars.getLast? with
    | none => simp [List.getLast?_eq_none_iff.mp found] at several
    | some last => exact ⟨last, rfl⟩
  have equity := balanced.equity
  rw [final, Option.map_some] at equity
  refine ⟨state, state.result initialCashTicks, last, ran, ?_, final, ?_, balanced.shown,
    balanced.requested, balanced.accounted.trades, balanced.accounted.refused, rfl,
    balanced.accounted.matched⟩
  · rw [run, if_neg (by omega), ran]
    rfl
  · show (state.equityCurve.getLast?).getD initialCashTicks = _
    rw [equity, Option.getD_some, Portfolio.equity, balanced.accounted.position,
      balanced.accounted.cash]
    rfl

theorem accounting_closes_two_bars :
    ∃ state, partway (fun _ => [⟨1, 1⟩, ⟨2, 1⟩]) 150
        [⟨0, 0, 100, 100, 100, 100⟩, ⟨1, 1, 110, 110, 110, 110⟩] 1 2 = .ok state ∧
      0 ≤ state.portfolio.cashTicks ∧ 0 ≤ state.portfolio.position :=
  (accounting_closes (by simp) (by decide) (by decide) (by simp)).1 1 2

end QuantArena.Backtest
