import QuantArena.Matcher.Runs
import QuantArena.Web.PortfolioSteps

/-! The browser's portfolio beside the ledger, over the stream that an engine produces. -/

set_option autoImplicit false

namespace QuantArena.Web

open Foundations Contracts Exchange Fanout Matcher

/-- From the first record that concerns a user, the messages for that user give what the
ledger holds for it after each record, where no symbol has the name of an inherited member. -/
theorem portfolio_is_the_ledgers {symbols : SymbolTable} (plain : PlainNames symbols)
    (userId initialCashTicks : Int) (clock : Nat → Option Int) (inbound : List Inbound) :
    ∃ matcher outputs, (NaiveMatcher.new 1 initialCashTicks).applyAll inbound = .ok (matcher, outputs) ∧
      ∀ earlier read rest : List (Outbound × Option StreamId),
        (earlier ++ read ++ rest).map (·.1) = outputs →
        owed symbols userId (earlier.map (·.1)) = [] →
        (∀ event ∈ earlier ++ read, Configured symbols event.1) →
        ExactAll clock emptyPortfolio (owed symbols userId (read.map (·.1))) →
        Shows symbols userId
          (receivedAll clock emptyPortfolio (owed symbols userId (read.map (·.1))))
          (Ledger.new.applyAll (earlier ++ read)) := by
  obtain ⟨matcher, finished, -⟩ := NaiveMatcher.fresh_run initialCashTicks inbound
  refine ⟨matcher, _, finished, fun earlier read rest published silent configured exact_ => ?_⟩
  have lawful := (Market.run_lawful initialCashTicks Market.fresh_valid inbound).1
  rw [← published, List.map_append, Tape.lawfulAll_append] at lawful
  have messages : owed symbols userId ((earlier ++ read).map (·.1)) =
      owed symbols userId (read.map (·.1)) := by
    rw [owed, List.map_append, List.flatMap_append]
    exact congrArg (· ++ _) silent
  have dispatched : Dispatched emptyPortfolio (owed symbols userId ((earlier ++ read).map (·.1)))
      (receivedAll clock emptyPortfolio (owed symbols userId (read.map (·.1)))) := by
    rw [messages]
    exact dispatched_receivedAll exact_
  have start := emptyPortfolio_shows plain userId
  refine ⟨start.toShowsHoldings.records plain Ledger.new_keyed Ledger.new_follows
    Exchange.Tape.blank_valid lawful.1 configured dispatched, ?_⟩
  rw [records_cash Ledger.new configured, dispatched.cash]
  rfl

def soleSymbol : SymbolTable :=
  ⟨[⟨1, "QAA".toList⟩], List.nodup_singleton _, List.nodup_singleton _⟩

/-- A user that trades with itself is told so twice. -/
theorem self_trade_shown :
    let created : Outbound := .accountCreated ⟨0, 1, 5, 100000⟩
    let bid : Outbound := .orderAccepted ⟨1, 1, 1, 5, 5000, 2, 1, 1, 1⟩
    let ask : Outbound := .orderAccepted ⟨2, 2, 2, 5, 5000, 1, 1, 2, 1⟩
    let trade : Outbound := .fill ⟨2, 1, 2, 5, 5, 5000, 1, 1, 2⟩
    let read : List (Outbound × Option StreamId) := [(created, none), (bid, none), (ask, none), (trade, none)]
    Shows soleSymbol 5
      (receivedAll (fun _ => none) emptyPortfolio (owed soleSymbol 5 (read.map (·.1))))
      (Ledger.new.applyAll read) := by
  intro created bid ask trade read
  obtain ⟨matcher, outputs, finished, shown⟩ := @portfolio_is_the_ledgers soleSymbol
    (by decide +kernel) 5 100000 (fun _ => none) [.createAccount ⟨0, 1, 5⟩,
      .submitOrder ⟨1, 1, 5, 5000, 2, 1, 1, 1⟩, .submitOrder ⟨2, 2, 5, 5000, 1, 1, 2, 1⟩]
  have produced : outputs = [created, bid, ask, trade] :=
    (congrArg Prod.snd (Except.ok.inj finished)).symm
  exact shown [] read [] produced.symm rfl (by decide +kernel) (by decide +kernel)

def inheritedSymbol : SymbolTable :=
  ⟨[⟨1, "constructor".toList⟩], List.nodup_singleton _, List.nodup_singleton _⟩

/-- On this stream of an engine, a browser that begins after the earlier records does not show
the ledger. -/
def Departs (symbols : SymbolTable) (userId : Int) (inbound : List Inbound)
    (earlier read : List Outbound) : Prop :=
  (∃ matcher, (NaiveMatcher.new 1 100000).applyAll inbound = .ok (matcher, earlier ++ read)) ∧
    (∀ record ∈ earlier ++ read, Configured symbols record) ∧
    ExactAll (fun _ => none) emptyPortfolio (owed symbols userId read) ∧
    ¬ Shows symbols userId (receivedAll (fun _ => none) emptyPortfolio (owed symbols userId read))
      (Ledger.new.applyAll ((earlier ++ read).map fun record => (record, none)))

/-- An order accepted before its user's account is created is not known to a browser that begins
with the creation; and a position under the name of an inherited member is no number. -/
theorem portfolio_departs :
    Departs soleSymbol 5 [.submitOrder ⟨0, 1, 5, 5000, 2, 1, 1, 1⟩, .createAccount ⟨1, 2, 5⟩]
        [.orderAccepted ⟨0, 1, 1, 5, 5000, 2, 1, 1, 1⟩] [.accountCreated ⟨1, 2, 5, 100000⟩] ∧
      Departs inheritedSymbol 5 [.createAccount ⟨0, 1, 5⟩,
          .submitOrder ⟨1, 1, 5, 5000, 1, 1, 1, 1⟩, .submitOrder ⟨2, 2, 6, 5000, 1, 1, 2, 1⟩]
        [] [.accountCreated ⟨0, 1, 5, 100000⟩, .orderAccepted ⟨1, 1, 1, 5, 5000, 1, 1, 1, 1⟩,
          .orderAccepted ⟨2, 2, 2, 6, 5000, 1, 1, 2, 1⟩, .fill ⟨2, 1, 2, 5, 6, 5000, 1, 1, 2⟩] := by
  constructor
  · refine ⟨⟨_, rfl⟩, by decide +kernel, by decide +kernel, fun shown => ?_⟩
    have order := shown.openOrders 1
    revert order
    decide +kernel
  · refine ⟨⟨_, rfl⟩, by decide +kernel, by decide +kernel, fun shown => ?_⟩
    have position := shown.positions 1
    revert position
    decide +kernel

end QuantArena.Web
