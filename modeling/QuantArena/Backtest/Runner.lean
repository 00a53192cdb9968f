import QuantArena.Foundations.Fault
import QuantArena.Ledger.Ledger

/-! The backtest runner: bars in, a result out. A strategy is a function of what it has been
shown so far, oldest first. -/

set_option autoImplicit false

namespace QuantArena.Backtest

open Foundations Contracts Ledger

structure Bar where
  /-- The bar's ordinal in the run. -/
  index : Int
  firstMinute : Int
  openTicks : Int
  highTicks : Int
  lowTicks : Int
  closeTicks : Int
deriving DecidableEq, Repr

/-- What the strategy may know of itself. -/
structure PortfolioView where
  cashTicks : Int
  position : Int
  barIndex : Int
deriving DecidableEq, Repr

structure OrderIntent where
  side : Int
  qty : Int
deriving DecidableEq, Repr

abbrev Strategy := List (Bar × PortfolioView) → List OrderIntent

/-- One filled order. -/
structure Trade where
  barIndex : Int
  side : Int
  qty : Int
  priceTicks : Int
  feeTicks : Int
  realisedPnlTicks : Int
deriving DecidableEq, Repr

/-- `_Portfolio`. -/
structure Portfolio where
  cashTicks : Int
  position : Int
  /-- Ticks per unit, averaged over the open position. -/
  costBasis : Int
deriving DecidableEq, Repr

namespace Portfolio

def new (cashTicks : Int) : Portfolio := ⟨cashTicks, 0, 0⟩

def takerFee (priceTicks qty : Int) : Int := (calculateFees priceTicks qty).takerFeeTicks

/-- `ZeroDivisionError`, which only a quantity that is not positive can cause. -/
def noUnits : Fault := .raised "integer division or modulo by zero"

/-- The new portfolio and the trade, or nothing if the cash does not cover it. -/
def buy (portfolio : Portfolio) (priceTicks qty : Int) :
    Except Fault (Option (Portfolio × Trade)) :=
  let fee := takerFee priceTicks qty
  let outlay := priceTicks * qty + fee
  if portfolio.cashTicks < outlay then .ok none
  else
    let totalCost := portfolio.costBasis * portfolio.position + priceTicks * qty
    let position := portfolio.position + qty
    if position = 0 then .error noUnits
    else .ok (some (⟨portfolio.cashTicks - outlay, position, totalCost.fdiv position⟩,
      ⟨-1, sideCode .buy, qty, priceTicks, fee, 0⟩))

/-- The new portfolio and the trade, or nothing if that much is not held. -/
def sell (portfolio : Portfolio) (priceTicks qty : Int) : Option (Portfolio × Trade) :=
  if portfolio.position < qty then none
  else
    let fee := takerFee priceTicks qty
    let position := portfolio.position - qty
    some (⟨portfolio.cashTicks + (priceTicks * qty - fee), position,
        if position = 0 then 0 else portfolio.costBasis⟩,
      ⟨-1, sideCode .sell, qty, priceTicks, fee, (priceTicks - portfolio.costBasis) * qty - fee⟩)

def equity (portfolio : Portfolio) (markTicks : Int) : Int :=
  portfolio.cashTicks + portfolio.position * markTicks

/-- One intent at one price. -/
def take (portfolio : Portfolio) (priceTicks : Int) (intent : OrderIntent) :
    Except Fault (Option (Portfolio × Trade)) :=
  if intent.side = sideCode .buy then portfolio.buy priceTicks intent.qty
  else .ok (portfolio.sell priceTicks intent.qty)

end Portfolio

/-- The local variables of `run`. -/
structure RunState where
  portfolio : Portfolio
  trades : List Trade
  equityCurve : List Int
  pending : List OrderIntent
  refused : Int
  firstTradeBar : Option Int
  /-- What the strategy has been shown, from which it may answer. -/
  shown : List (Bar × PortfolioView)
  /-- What became of every intent that was not left pending. No code reads it. -/
  settled : List (OrderIntent × Option Trade)

namespace RunState

def start (initialCashTicks : Int) : RunState :=
  ⟨.new initialCashTicks, [], [], [], 0, none, [], []⟩

/-- One pending intent, at the open of the bar. -/
def fillIntent (bar : Bar) (state : RunState) (intent : OrderIntent) : Except Fault RunState := do
  match ← state.portfolio.take bar.openTicks intent with
  | none => pure { state with
      refused := state.refused + 1
      settled := state.settled ++ [(intent, none)] }
  | some (portfolio, filled) =>
      let trade := { filled with barIndex := bar.index }
      pure { state with
        portfolio
        trades := state.trades ++ [trade]
        firstTradeBar := state.firstTradeBar.or (some bar.index)
        settled := state.settled ++ [(intent, some trade)] }

/-- Yesterday's decisions, at today's open. -/
def fillPending (bar : Bar) (state : RunState) : Except Fault RunState := do
  let filled ← state.pending.foldlM (fillIntent bar) state
  pure { filled with pending := [] }

/-- One bar, and what the strategy asks for next. -/
def showBar (strategy : Strategy) (bar : Bar) (state : RunState) : RunState :=
  let view : PortfolioView := ⟨state.portfolio.cashTicks, state.portfolio.position, bar.index⟩
  { state with
    shown := state.shown ++ [(bar, view)]
    pending := strategy (state.shown ++ [(bar, view)]) }

def mark (bar : Bar) (state : RunState) : RunState :=
  { state with equityCurve := state.equityCurve ++ [state.portfolio.equity bar.closeTicks] }

def step (strategy : Strategy) (state : RunState) (bar : Bar) : Except Fault RunState := do
  let filled ← state.fillPending bar
  pure ((filled.showBar strategy bar).mark bar)

/-- The loop over the bars. -/
def loop (strategy : Strategy) (initialCashTicks : Int) (bars : List Bar) :
    Except Fault RunState :=
  bars.foldlM (step strategy) (start initialCashTicks)

end RunState

/-- `Result`, with the whole numbers of `Metrics`. -/
structure Result where
  initialCashTicks : Int
  finalEquityTicks : Int
  pnlTicks : Int
  feesPaidTicks : Int
  trades : List Trade
  refusedIntents : Int
  unfilledAtEnd : Nat
  firstTradeBarIndex : Option Int
deriving DecidableEq, Repr

/-- `compute`, less the ratios. -/
def RunState.result (initialCashTicks : Int) (state : RunState) : Result :=
  let finalEquity := state.equityCurve.getLast?.getD initialCashTicks
  { initialCashTicks
    finalEquityTicks := finalEquity
    pnlTicks := finalEquity - initialCashTicks
    feesPaidTicks := (state.trades.map (·.feeTicks)).sum
    trades := state.trades
    refusedIntents := state.refused
    unfilledAtEnd := state.pending.length
    firstTradeBarIndex := state.firstTradeBar }

def run (strategy : Strategy) (bars : List Bar) (initialCashTicks : Int) : Except Fault Result :=
  if bars.length < 2 then
    .error (.raised "a backtest needs at least two bars")
  else do
    let state ← RunState.loop strategy initialCashTicks bars
    pure (state.result initialCashTicks)

end QuantArena.Backtest
