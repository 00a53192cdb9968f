import Mathlib.Data.Finset.Insert
import Mathlib.Data.List.Sort
import QuantArena.Fanout.Bars
import QuantArena.Fanout.Book

/-! Everything fan-out knows: the books, the trade tape and the bars of every symbol
seen on the outbound stream. -/

set_option autoImplicit false

namespace QuantArena.Fanout

open Foundations Contracts

structure MarketState where
  barWidths : List BarWidth
  books : Dict Int Book
  bars : Dict Int BarSet
  tape : Tape
  lastSeq : StreamId
  recordsApplied : Int
  /-- Symbols whose book moved since the tick last looked. -/
  dirty : Finset Int
  /-- Bars that closed since the last drain. -/
  closedBars : List Bar

namespace MarketState

def new (barWidths : List BarWidth) : MarketState :=
  ⟨barWidths, .empty, .empty, .new, .start, 0, ∅, []⟩

/-- `book(symbol_id)`, which creates the book on first sight. -/
def book (state : MarketState) (symbolId : Int) : Book :=
  state.books.getD symbolId (.new symbolId)

/-- The symbols that have a book, in a stable order. -/
def symbols (state : MarketState) : List Int := state.books.keys.insertionSort (· ≤ ·)

def barSet (state : MarketState) (symbolId : Int) : BarSet :=
  state.bars.getD symbolId (.new symbolId state.barWidths)

/-- What all three branches do to the book of the record's symbol. -/
def withBook (state : MarketState) (symbolId : Int) (change : Book → Book) : MarketState :=
  { state with
    dirty := insert symbolId state.dirty
    books := state.books.set symbolId (change (state.book symbolId)) }

/-- The print and the bars of a fill. `seq` is the record's own id, if it came with one. -/
def withTrade (state : MarketState) (fill : Fill) (seq : StreamId) : MarketState :=
  let (bars, closed) :=
    (state.barSet fill.symbolId).add fill.priceTicks fill.qty fill.timestampNs
  { state with
    tape := state.tape.record
      ⟨fill.symbolId, fill.priceTicks, fill.qty, fill.aggressorSide, fill.timestampNs, seq⟩
    bars := state.bars.set fill.symbolId bars
    closedBars := state.closedBars ++ closed }

/-- `apply`, past the lines that count the record. -/
def applyRecord (state : MarketState) : Outbound → MarketState
  | .orderAccepted accepted => state.withBook accepted.symbolId fun book =>
      book.accept accepted.orderId accepted.side accepted.priceTicks accepted.qty
  | .fill fill =>
      (state.withBook fill.symbolId fun book =>
        (book.fill fill.makerOrderId fill.qty).fill fill.takerOrderId fill.qty).withTrade fill
          state.lastSeq
  | .orderCancelled cancelled => state.withBook cancelled.symbolId fun book =>
      book.cancel cancelled.orderId
  | _ => state

def apply (state : MarketState) (record : Outbound) (streamId : Option StreamId) : MarketState :=
  { state with
    lastSeq := streamId.getD state.lastSeq
    recordsApplied := state.recordsApplied + 1 }.applyRecord record

def applyAll (state : MarketState) (events : List (Outbound × Option StreamId)) : MarketState :=
  events.foldl (fun state event => state.apply event.1 event.2) state

end MarketState

end QuantArena.Fanout
