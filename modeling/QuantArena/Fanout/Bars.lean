import QuantArena.Foundations.Dict
import QuantArena.Foundations.Stream

/-! OHLCV bars, cut by the trades themselves, and the trade tape. -/

set_option autoImplicit false

namespace QuantArena.Fanout

open Foundations

def nsPerSecond : Int := 1000000000

structure Trade where
  symbolId : Int
  priceTicks : Int
  qty : Int
  aggressorSide : Int
  timestampNs : Int
  seq : StreamId
deriving DecidableEq

structure Bar where
  symbolId : Int
  bucketSeconds : Int
  barOpenNs : Int
  openTicks : Int
  highTicks : Int
  lowTicks : Int
  closeTicks : Int
  volume : Int
deriving DecidableEq, Repr

def Bar.extend (bar : Bar) (priceTicks qty : Int) : Bar :=
  { bar with
    highTicks := max bar.highTicks priceTicks
    lowTicks := min bar.lowTicks priceTicks
    closeTicks := priceTicks
    volume := bar.volume + qty }

/-- Trades since the last drain, per symbol. -/
structure Tape where
  pending : Dict Int (List Trade)
  total : Int

namespace Tape

def new : Tape := ⟨.empty, 0⟩

def record (tape : Tape) (trade : Trade) : Tape where
  pending := tape.pending.set trade.symbolId (tape.pending.getD trade.symbolId [] ++ [trade])
  total := tape.total + 1

def drain (tape : Tape) (symbolId : Int) : Tape × List Trade :=
  ({ tape with pending := tape.pending.erase symbolId }, tape.pending.getD symbolId [])

end Tape

/-- A bar width that `BarBuilder` does not refuse, in seconds. -/
abbrev BarWidth := { seconds : Int // 1 ≤ seconds }

structure BarBuilder where
  symbolId : Int
  bucketSeconds : BarWidth
  current : Option Bar
  closed : List Bar

namespace BarBuilder

def new (symbolId : Int) (bucketSeconds : BarWidth) : BarBuilder := ⟨symbolId, bucketSeconds, none, []⟩

def widthNs (builder : BarBuilder) : Int := builder.bucketSeconds * nsPerSecond

def bucketStart (builder : BarBuilder) (timestampNs : Int) : Int :=
  timestampNs / builder.widthNs * builder.widthNs

/-- The bar a trade opens. -/
def opened (builder : BarBuilder) (priceTicks qty timestampNs : Int) : Bar where
  symbolId := builder.symbolId
  bucketSeconds := builder.bucketSeconds
  barOpenNs := builder.bucketStart timestampNs
  openTicks := priceTicks
  highTicks := priceTicks
  lowTicks := priceTicks
  closeTicks := priceTicks
  volume := qty

/-- Folds one trade in. The answer is the bar it closed, if any. -/
def add (builder : BarBuilder) (priceTicks qty timestampNs : Int) : BarBuilder × Option Bar :=
  match builder.current with
  | some bar =>
      if builder.bucketStart timestampNs = bar.barOpenNs then
        ({ builder with current := some (bar.extend priceTicks qty) }, none)
      else
        ({ builder with
            current := some (builder.opened priceTicks qty timestampNs)
            closed := builder.closed ++ [bar] }, some bar)
  | none => ({ builder with current := some (builder.opened priceTicks qty timestampNs) }, none)

/-- Closes the open bar, where no later trade is coming. -/
def flush (builder : BarBuilder) : BarBuilder × Option Bar :=
  ({ builder with current := none, closed := builder.closed ++ builder.current.toList },
    builder.current)

end BarBuilder

/-- Every configured width, for one symbol. -/
structure BarSet where
  symbolId : Int
  builders : Dict BarWidth BarBuilder

namespace BarSet

def new (symbolId : Int) (widths : List BarWidth) : BarSet :=
  ⟨symbolId, widths.foldl (fun builders width => builders.set width (.new symbolId width)) .empty⟩

def add (bars : BarSet) (priceTicks qty timestampNs : Int) : BarSet × List Bar :=
  ({ bars with builders := bars.builders.mapValues fun _ builder =>
      (builder.add priceTicks qty timestampNs).1 },
    bars.builders.values.filterMap fun builder => (builder.add priceTicks qty timestampNs).2)

end BarSet

end QuantArena.Fanout
