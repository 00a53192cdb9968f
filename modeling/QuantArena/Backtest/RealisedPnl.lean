import QuantArena.Backtest.Accounting
import QuantArena.Foundations.Run

/-! Realised profit and loss from flat to flat. With first-in-first-out lots it is what came in
less what was paid. With the averaged cost basis it is that and the ticks that rounding lost. -/

set_option autoImplicit false

namespace QuantArena.Backtest

open Foundations Contracts Ledger

/-- A buy or a sell, as `_Portfolio` is asked for one. -/
structure Deal where
  side : PriceTime.Side
  priceTicks : Int
  qty : Int
deriving DecidableEq, Repr

namespace Portfolio

/-- A deal that is accepted, and neither refused nor raises. -/
def accept (portfolio : Portfolio) (deal : Deal) : Option (Portfolio × Trade) :=
  match deal.side with
  | .buy => ((portfolio.buy deal.priceTicks deal.qty).toOption).join
  | .sell => portfolio.sell deal.priceTicks deal.qty

def acceptAll (portfolio : Portfolio) : List Deal → Option (Portfolio × List Trade)
  | [] => some (portfolio, [])
  | deal :: rest => do
      let (next, trade) ← portfolio.accept deal
      let (final, trades) ← acceptAll next rest
      some (final, trade :: trades)

/-- Where a deal leaves the portfolio. -/
def after (portfolio : Portfolio) (deal : Deal) : Portfolio :=
  ((portfolio.accept deal).map (·.1)).getD portfolio

/-- What the open position has cost, as the basis has it. -/
def book (portfolio : Portfolio) : Int := portfolio.costBasis * portfolio.position

/-- What a buy makes of that, before it is averaged. -/
def totalCost (portfolio : Portfolio) (deal : Deal) : Int :=
  portfolio.book + deal.priceTicks * deal.qty

/-- The ticks of it that the average leaves out. -/
def remainder (portfolio : Portfolio) (deal : Deal) : Int :=
  match deal.side with
  | .buy => (portfolio.totalCost deal).fmod (portfolio.position + deal.qty)
  | .sell => 0

/-- All the ticks that the averages of a sequence leave out. -/
def remainders (portfolio : Portfolio) : List Deal → Int
  | [] => 0
  | deal :: rest => portfolio.remainder deal + (portfolio.after deal).remainders rest

/-- The average cost of a unit is a whole number of ticks. -/
def Whole (portfolio : Portfolio) (deal : Deal) : Prop :=
  deal.side = .buy → portfolio.position + deal.qty ∣ portfolio.totalCost deal

end Portfolio

def realised (trades : List Trade) : Int := (trades.map (·.realisedPnlTicks)).sum

/-- The taker fees of the sells. -/
def sellFees (trades : List Trade) : Int :=
  ((trades.filter fun trade => trade.side = sideCode .sell).map (·.feeTicks)).sum

/-- Proceeds less notionals less the fees of the sells. -/
def net (trades : List Trade) : Int :=
  notionals .sell trades - notionals .buy trades - sellFees trades

/-! ## First in, first out -/

/-- Units bought together, and their price. -/
structure Lot where
  qty : Int
  priceTicks : Int
deriving DecidableEq, Repr

/-- So many units off the front: what they cost, and the lots that are left. -/
def takeLots : List Lot → Int → Int × List Lot
  | [], _ => (0, [])
  | lot :: rest, qty =>
      if qty ≤ 0 then (0, lot :: rest)
      else if qty < lot.qty then
        (lot.priceTicks * qty, { lot with qty := lot.qty - qty } :: rest)
      else
        let taken := takeLots rest (qty - lot.qty)
        (lot.priceTicks * lot.qty + taken.1, taken.2)

/-- The total realised over a sequence of deals, with first-in-first-out lots. -/
def fifoRealised (lots : List Lot) : List Deal → Int
  | [] => 0
  | deal :: rest =>
      match deal.side with
      | .buy => fifoRealised (lots ++ [⟨deal.qty, deal.priceTicks⟩]) rest
      | .sell =>
          let taken := takeLots lots deal.qty
          deal.priceTicks * deal.qty - taken.1 - Portfolio.takerFee deal.priceTicks deal.qty +
            fifoRealised taken.2 rest

/-- The lots that a sequence of deals leaves. -/
def lotsAfter (lots : List Lot) : List Deal → List Lot
  | [] => lots
  | deal :: rest =>
      match deal.side with
      | .buy => lotsAfter (lots ++ [⟨deal.qty, deal.priceTicks⟩]) rest
      | .sell => lotsAfter (takeLots lots deal.qty).2 rest

def lotUnits (lots : List Lot) : Int := (lots.map (·.qty)).sum

def lotBook (lots : List Lot) : Int := (lots.map fun lot => lot.priceTicks * lot.qty).sum

@[simp] theorem lotUnits_cons (lot : Lot) (rest : List Lot) :
    lotUnits (lot :: rest) = lot.qty + lotUnits rest := by simp [lotUnits]

@[simp] theorem lotBook_cons (lot : Lot) (rest : List Lot) :
    lotBook (lot :: rest) = lot.priceTicks * lot.qty + lotBook rest := by simp [lotBook]

theorem takeLots_cost (lots : List Lot) (qty : Int) :
    (takeLots lots qty).1 = lotBook lots - lotBook (takeLots lots qty).2 := by
  induction lots generalizing qty with
  | nil => rfl
  | cons lot rest ih =>
      rw [takeLots]
      split
      · simp
      · split
        · simp only [lotBook_cons]
          ring
        · simp only [ih, lotBook_cons]
          ring

theorem takeLots_units {lots : List Lot} (positive : ∀ lot ∈ lots, 0 < lot.qty) {qty : Int}
    (some : 0 ≤ qty) (enough : qty ≤ lotUnits lots) :
    lotUnits (takeLots lots qty).2 = lotUnits lots - qty ∧
      ∀ lot ∈ (takeLots lots qty).2, 0 < lot.qty := by
  induction lots generalizing qty with
  | nil =>
      have none : lotUnits [] = 0 := rfl
      exact ⟨by simp only [takeLots]; omega, by simp [takeLots]⟩
  | cons lot rest ih =>
      have own := positive lot List.mem_cons_self
      have others := fun other member => positive other (List.mem_cons_of_mem lot member)
      rw [lotUnits_cons] at enough
      rw [takeLots]
      by_cases none : qty ≤ 0
      · rw [if_pos none]
        exact ⟨by rw [lotUnits_cons]; omega, positive⟩
      · by_cases part : qty < lot.qty
        · rw [if_neg none, if_pos part]
          refine ⟨by simp only [lotUnits_cons]; omega, fun other member => ?_⟩
          cases member with
          | head => exact Int.sub_pos_of_lt part
          | tail _ inside => exact others other inside
        · rw [if_neg none, if_neg part]
          obtain ⟨units, left⟩ := @ih others (qty - lot.qty) (by omega) (by omega)
          exact ⟨by rw [units, lotUnits_cons]; ring, left⟩

theorem lots_empty {lots : List Lot} (positive : ∀ lot ∈ lots, 0 < lot.qty)
    (none : lotUnits lots = 0) : lots = [] := by
  cases lots with
  | nil => rfl
  | cons lot rest =>
      have own := positive lot List.mem_cons_self
      have others : 0 ≤ lotUnits rest := List.sum_nonneg fun units member => by
        obtain ⟨other, inside, rfl⟩ := List.mem_map.mp member
        exact (positive other (List.mem_cons_of_mem _ inside)).le
      rw [lotUnits_cons] at none
      omega

/-! ## One deal -/

variable {portfolio next final : Portfolio} {deal : Deal} {deals : List Deal} {trade : Trade}
  {trades : List Trade} {lots : List Lot}

/-- What a trade adds to `net`. -/
def Deal.net (deal : Deal) : Int :=
  match deal.side with
  | .buy => -(deal.priceTicks * deal.qty)
  | .sell => deal.priceTicks * deal.qty - Portfolio.takerFee deal.priceTicks deal.qty

/-- An accepted deal: its trade, and where it leaves position and book. -/
structure Accepted (portfolio : Portfolio) (deal : Deal) (next : Portfolio) (trade : Trade) :
    Prop where
  net : ∀ trades, net (trade :: trades) = deal.net + Backtest.net trades
  position : next.position = match deal.side with
    | .buy => portfolio.position + deal.qty
    | .sell => portfolio.position - deal.qty
  some : deal.side = .buy → next.position ≠ 0
  enough : deal.side = .sell → deal.qty ≤ portfolio.position
  realised : trade.realisedPnlTicks =
    deal.net + (next.book - portfolio.book) + portfolio.remainder deal

theorem net_cons_buy {trade : Trade} (side : trade.side = sideCode .buy) (trades : List Trade) :
    net (trade :: trades) = -(trade.priceTicks * trade.qty) + net trades := by
  have other : ¬ sideCode .buy = sideCode .sell := by decide
  simp only [net, notionals, sellFees, List.filter_cons, side, other, decide_true, decide_false,
    if_true, Bool.false_eq_true, if_false, List.map_cons, List.sum_cons]
  ring

theorem net_cons_sell {trade : Trade} (side : trade.side = sideCode .sell) (trades : List Trade) :
    net (trade :: trades) = trade.priceTicks * trade.qty - trade.feeTicks + net trades := by
  have other : ¬ sideCode .sell = sideCode .buy := by decide
  simp only [net, notionals, sellFees, List.filter_cons, side, other, decide_true, decide_false,
    if_true, Bool.false_eq_true, if_false, List.map_cons, List.sum_cons]
  ring

theorem accepted_of_accept (accepted : portfolio.accept deal = some (next, trade)) :
    Accepted portfolio deal next trade := by
  obtain ⟨side, priceTicks, qty⟩ := deal
  cases side with
  | buy =>
      simp only [Portfolio.accept, Portfolio.buy] at accepted
      split at accepted
      · cases accepted
      · split at accepted
        · cases accepted
        · rename_i _ units
          cases accepted
          refine ⟨net_cons_buy rfl, rfl, fun _ => units,
            (fun sells => by cases sells), ?_⟩
          have divided := Int.mul_fdiv_add_fmod
            (portfolio.costBasis * portfolio.position + priceTicks * qty) (portfolio.position + qty)
          simp only [Deal.net, Portfolio.book, Portfolio.remainder, Portfolio.totalCost]
          linarith
  | sell =>
      simp only [Portfolio.accept, Portfolio.sell] at accepted
      split at accepted
      · cases accepted
      · rename_i enough
        cases accepted
        refine ⟨net_cons_sell rfl, rfl, (fun buys => by cases buys), fun _ => not_lt.mp enough, ?_⟩
        simp only [Deal.net, Portfolio.book, Portfolio.remainder]
        by_cases flat : portfolio.position - qty = 0
        · rw [if_pos flat, show portfolio.position = qty by omega]
          ring
        · rw [if_neg flat]
          ring

theorem acceptAll_cons (accepted : portfolio.acceptAll (deal :: deals) = some (final, trades)) :
    ∃ next trade later, Accepted portfolio deal next trade ∧ portfolio.after deal = next ∧
      next.acceptAll deals = some (final, later) ∧ trades = trade :: later := by
  rw [Portfolio.acceptAll] at accepted
  obtain ⟨⟨next, trade⟩, first, rest⟩ := Option.bind_eq_some_iff.mp accepted
  obtain ⟨⟨last, later⟩, others, same⟩ := Option.bind_eq_some_iff.mp rest
  cases same
  exact ⟨next, trade, later, accepted_of_accept first, by simp [Portfolio.after, first], others, rfl⟩

/-! ## A sequence of deals -/

/-- The code's total: what came in less what was paid, what is still on the books, and what
the averages left out. -/
theorem realised_eq (accepted : portfolio.acceptAll deals = some (final, trades)) :
    realised trades =
      net trades + (final.book - portfolio.book) + portfolio.remainders deals := by
  induction deals generalizing portfolio trades with
  | nil =>
      cases accepted
      simp [realised, net, notionals, sellFees, Portfolio.remainders]
  | cons deal rest ih =>
      obtain ⟨next, trade, later, first, after, others, rfl⟩ := acceptAll_cons accepted
      have own := first.realised
      have total := ih others
      rw [first.net, Portfolio.remainders, after]
      simp only [realised, List.map_cons, List.sum_cons] at total ⊢
      linarith

/-- The lots' total: the same, without what the averages leave out. -/
theorem fifoRealised_eq (accepted : portfolio.acceptAll deals = some (final, trades))
    (lots : List Lot) :
    fifoRealised lots deals = net trades + (lotBook (lotsAfter lots deals) - lotBook lots) := by
  induction deals generalizing portfolio trades lots with
  | nil =>
      cases accepted
      simp [fifoRealised, lotsAfter, net, notionals, sellFees]
  | cons deal rest ih =>
      obtain ⟨next, trade, later, first, -, others, rfl⟩ := acceptAll_cons accepted
      rw [first.net, Deal.net, fifoRealised, lotsAfter]
      cases deal.side with
      | buy =>
          have book : lotBook (lots ++ [⟨deal.qty, deal.priceTicks⟩]) =
              lotBook lots + deal.priceTicks * deal.qty := by simp [lotBook]
          have total := ih others (lots ++ [⟨deal.qty, deal.priceTicks⟩])
          simp only [total, book]
          ring
      | sell =>
          have total := ih others (takeLots lots deal.qty).2
          have cost := takeLots_cost lots deal.qty
          simp only [total, cost]
          ring

/-- With quantities that are positive the lots hold what the position says. -/
theorem lotUnits_lotsAfter (accepted : portfolio.acceptAll deals = some (final, trades))
    (positive : ∀ deal ∈ deals, 0 < deal.qty) (held : lotUnits lots = portfolio.position)
    (lotsPositive : ∀ lot ∈ lots, 0 < lot.qty) :
    lotUnits (lotsAfter lots deals) = final.position ∧
      ∀ lot ∈ lotsAfter lots deals, 0 < lot.qty := by
  induction deals generalizing portfolio trades lots with
  | nil =>
      cases accepted
      exact ⟨held, lotsPositive⟩
  | cons deal rest ih =>
      obtain ⟨next, trade, later, first, -, others, rfl⟩ := acceptAll_cons accepted
      have own := positive deal List.mem_cons_self
      have rest := fun other member => positive other (List.mem_cons_of_mem deal member)
      have position := first.position
      have enough := first.enough
      rw [lotsAfter]
      cases side : deal.side with
      | buy =>
          simp only [side] at position
          refine ih others rest ?_ fun lot member => ?_
          · simp only [lotUnits, List.map_append, List.map_cons, List.map_nil, List.sum_append,
              List.sum_cons, List.sum_nil] at held ⊢
            omega
          · cases List.mem_append.mp member with
            | inl old => exact lotsPositive lot old
            | inr new => rwa [List.mem_singleton.mp new]
      | sell =>
          simp only [side] at position
          obtain ⟨units, left⟩ := takeLots_units lotsPositive own.le
            (held.symm ▸ enough side)
          exact ih others rest (by omega) left

/-! ## Where rounding loses nothing -/

theorem remainder_nonneg (accepted : Accepted portfolio deal next trade)
    (held : 0 ≤ portfolio.position) (units : 0 < deal.qty) :
    0 ≤ portfolio.remainder deal ∧
      (portfolio.remainder deal = 0 ↔ portfolio.Whole deal) ∧ 0 ≤ next.position := by
  have position := accepted.position
  rw [Portfolio.remainder, Portfolio.Whole]
  cases side : deal.side with
  | buy =>
      simp only [side] at position
      have positive : 0 < portfolio.position + deal.qty := by omega
      refine ⟨?_, ?_, by omega⟩
      · exact Int.fmod_nonneg_of_pos _ positive
      · rw [← Int.dvd_iff_fmod_eq_zero]
        exact ⟨fun whole _ => whole, fun whole => whole rfl⟩
  | sell =>
      simp only [side] at position
      have enough := accepted.enough side
      exact ⟨le_rfl, ⟨fun _ buys => (by cases buys), fun _ => rfl⟩, by omega⟩

/-- With quantities that are positive nothing is lost in sum only where nothing is lost at all. -/
theorem remainders_eq_zero_iff (accepted : portfolio.acceptAll deals = some (final, trades))
    (held : 0 ≤ portfolio.position) (positive : ∀ deal ∈ deals, 0 < deal.qty) :
    0 ≤ portfolio.remainders deals ∧ (portfolio.remainders deals = 0 ↔
      Along Portfolio.after Portfolio.Whole portfolio deals) := by
  induction deals generalizing portfolio trades with
  | nil => exact ⟨le_rfl, iff_of_true rfl trivial⟩
  | cons deal rest ih =>
      obtain ⟨next, trade, later, first, after, others, rfl⟩ := acceptAll_cons accepted
      obtain ⟨own, whole, kept⟩ := remainder_nonneg first held (positive deal List.mem_cons_self)
      obtain ⟨rest, exact⟩ := ih others kept fun other member =>
        positive other (List.mem_cons_of_mem _ member)
      rw [Portfolio.remainders, Along, after, ← exact, ← whole]
      constructor <;> omega

/-- From flat to flat the realised total is what came in less what was paid, and what lots would
give, exactly where the averages leave nothing out. -/
theorem realised_adds_up_iff (accepted : portfolio.acceptAll deals = some (final, trades))
    (flat : portfolio.position = 0) (closed : final.position = 0) :
    (realised trades = net trades ∧
        ((∀ deal ∈ deals, 0 < deal.qty) → realised trades = fifoRealised [] deals) ↔
      portfolio.remainders deals = 0) ∧
    ((∀ deal ∈ deals, 0 < deal.qty) → (portfolio.remainders deals = 0 ↔
      Along Portfolio.after Portfolio.Whole portfolio deals)) := by
  have total := realised_eq accepted
  have before : portfolio.book = 0 := by rw [Portfolio.book, flat, Int.mul_zero]
  have after : final.book = 0 := by rw [Portfolio.book, closed, Int.mul_zero]
  have lots : (∀ deal ∈ deals, 0 < deal.qty) → fifoRealised [] deals = net trades := by
    intro positive
    obtain ⟨units, left⟩ := lotUnits_lotsAfter accepted positive
      (show lotUnits [] = portfolio.position from flat.symm) (by simp)
    have empty := lots_empty left (units.trans closed)
    rw [fifoRealised_eq accepted, empty]
    simp [lotBook]
  refine ⟨⟨fun adds => ?_, fun none => ⟨?_, fun positive => ?_⟩⟩, fun positive =>
    (remainders_eq_zero_iff accepted flat.ge positive).2⟩
  · linarith [adds.1]
  · linarith
  · linarith [lots positive]

theorem realised_adds_up_even :
    let deals : List Deal := [⟨.buy, 100, 1⟩, ⟨.buy, 102, 1⟩, ⟨.sell, 110, 2⟩]
    (realised [⟨-1, 1, 1, 100, 0, 0⟩, ⟨-1, 1, 1, 102, 0, 0⟩, ⟨-1, 2, 2, 110, 0, 18⟩] =
        net [⟨-1, 1, 1, 100, 0, 0⟩, ⟨-1, 1, 1, 102, 0, 0⟩, ⟨-1, 2, 2, 110, 0, 18⟩] ∧
      ((∀ deal ∈ deals, 0 < deal.qty) →
        realised [⟨-1, 1, 1, 100, 0, 0⟩, ⟨-1, 1, 1, 102, 0, 0⟩, ⟨-1, 2, 2, 110, 0, 18⟩] =
          fifoRealised [] deals) ↔ (Portfolio.new 1000).remainders deals = 0) :=
  (@realised_adds_up_iff (.new 1000) ⟨1018, 0, 0⟩
    [⟨.buy, 100, 1⟩, ⟨.buy, 102, 1⟩, ⟨.sell, 110, 2⟩] _ (by decide) rfl rfl).1

/-- A tick of the second buy is averaged away and comes back as profit. -/
theorem average_cost_loses_tick :
    ∃ deals : List Deal, ∃ final trades,
      (Portfolio.new 1000).acceptAll deals = some (final, trades) ∧ final.position = 0 ∧
        realised trades ≠ net trades ∧ realised trades ≠ fifoRealised [] deals :=
  ⟨[⟨.buy, 100, 1⟩, ⟨.buy, 101, 1⟩, ⟨.sell, 101, 2⟩], ⟨1001, 0, 0⟩,
    [⟨-1, 1, 1, 100, 0, 0⟩, ⟨-1, 1, 1, 101, 0, 0⟩, ⟨-1, 2, 2, 101, 0, 2⟩], by decide, rfl,
    by decide, by decide⟩

end QuantArena.Backtest
