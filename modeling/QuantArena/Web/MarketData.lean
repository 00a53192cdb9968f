import Mathlib.Data.List.DropRight
import QuantArena.Web.Buffer
import QuantArena.Web.Client

/-! The rest of the browser's buffer, in doubles. A book overwrites, a print accumulates, and the
symbols written to since the last frame are the only thing that is kept of how often. -/

set_option autoImplicit false

namespace QuantArena.Web

open Foundations Fanout

/-- How many prints the tape keeps. -/
def tapeLimit : Nat := 200

/-- The bar width the trading screen charts. -/
def chartBarWidth : Name := "1m".toList

structure BookView where
  bids : List (Int × Int)
  asks : List (Int × Int)
  tsNs : Int
  seq : StreamId
deriving DecidableEq

structure TradeView where
  priceTicks : Int
  qty : Int
  aggressorSide : Int
  tsNs : Int
  seq : StreamId
deriving DecidableEq

/-! ## Frames as the page reads them

`JSON.parse` makes a double of every number. An id is text. -/

def parseLevels (levels : List (Int × Int)) : List (Int × Int) :=
  levels.map fun level => (Double.ofInt level.1, Double.ofInt level.2)

def parseBook (seq : StreamId) (tsNs : Int) (bids asks : List (Int × Int)) : BookView :=
  ⟨parseLevels bids, parseLevels asks, Double.ofInt tsNs, seq⟩

def parseTrade (seq : StreamId) (tsNs priceTicks qty aggressorSide : Int) : TradeView :=
  ⟨Double.ofInt priceTicks, Double.ofInt qty, Double.ofInt aggressorSide, Double.ofInt tsNs, seq⟩

def parseBar (seq : StreamId) (openTicks highTicks lowTicks closeTicks volume barOpenNs : Int) :
    BarView :=
  ⟨Double.ofInt openTicks, Double.ofInt highTicks, Double.ofInt lowTicks, Double.ofInt closeTicks,
    Double.ofInt volume, Double.ofInt barOpenNs, seq⟩

/-- Levels of this size are read as they were written. -/
theorem parseLevels_of_small {levels : List (Int × Int)}
    (small : ∀ level ∈ levels, |level.1| < 2 ^ 53 ∧ |level.2| < 2 ^ 53) :
    parseLevels levels = levels := by
  refine (List.map_congr_left fun level member => ?_).trans (List.map_id levels)
  obtain ⟨price, qty⟩ := small level member
  exact Prod.ext (Double.ofInt_of_small price) (Double.ofInt_of_small qty)

/-! ## The buffer -/

/-- `MarketBuffer` with its books and its prints. -/
structure MarketData extends MarketBuffer where
  books : Dict Name BookView
  tapes : Dict Name (List TradeView)
  lastTrades : Dict Name TradeView

namespace MarketData

def new : MarketData := ⟨.new, .empty, .empty, .empty⟩

def writeBook (data : MarketData) (symbol : Name) (view : BookView) : MarketData :=
  { data with
    books := data.books.set symbol view
    changed := insert symbol data.changed
    writes := data.writes + 1 }

/-- Trimmed from the front, so that the newest prints survive. -/
def trimTape (tape : List TradeView) : List TradeView := tape.drop (tape.length - tapeLimit)

def writeTrade (data : MarketData) (symbol : Name) (trade : TradeView) : MarketData :=
  { data with
    tapes := data.tapes.set symbol (trimTape (data.tapes.getD symbol [] ++ [trade]))
    lastTrades := data.lastTrades.set symbol trade
    changed := insert symbol data.changed
    writes := data.writes + 1 }

def writeBar (data : MarketData) (symbol width : Name) (bar : BarView) : MarketData :=
  { data with toMarketBuffer := data.toMarketBuffer.writeBar symbol width bar }

def book (data : MarketData) (symbol : Name) : Option BookView := data.books.get? symbol

/-- Newest last. -/
def tape (data : MarketData) (symbol : Name) : List TradeView := data.tapes.getD symbol []

def lastTrade (data : MarketData) (symbol : Name) : Option TradeView := data.lastTrades.get? symbol

def barSeries (data : MarketData) (symbol width : Name) : List BarView :=
  data.toMarketBuffer.barSeries symbol width

/-- The symbols written to since the last call. -/
def takeChanged (data : MarketData) : Finset Name × MarketData :=
  (data.changed, { data with changed := ∅ })

/-- What the client writes. A message is of the shape that its channel names. -/
def apply (data : MarketData) : Effect → MarketData
  | .writeBook symbol (.book _ seq tsNs bids asks) =>
      data.writeBook symbol (parseBook seq tsNs bids asks)
  | .writeTrade symbol (.tapePrint _ seq tsNs priceTicks qty aggressorSide) =>
      data.writeTrade symbol (parseTrade seq tsNs priceTicks qty aggressorSide)
  | .writeBar symbol width
      (.barClose _ seq openTicks highTicks lowTicks closeTicks volume barOpenNs) =>
      data.writeBar symbol width
        (parseBar seq openTicks highTicks lowTicks closeTicks volume barOpenNs)
  | _ => data

def applyAll (data : MarketData) (effects : List Effect) : MarketData := effects.foldl apply data

end MarketData

/-! ## What each call writes -/

namespace Effect

def bookOf (symbol : Name) : Effect → Option BookView
  | .writeBook name (.book _ seq tsNs bids asks) =>
      if name = symbol then some (parseBook seq tsNs bids asks) else none
  | _ => none

def tradeOf (symbol : Name) : Effect → Option TradeView
  | .writeTrade name (.tapePrint _ seq tsNs priceTicks qty aggressorSide) =>
      if name = symbol then some (parseTrade seq tsNs priceTicks qty aggressorSide) else none
  | _ => none

def barOf : Effect → Option (Name × Name × BarView)
  | .writeBar symbol width
      (.barClose _ seq openTicks highTicks lowTicks closeTicks volume barOpenNs) =>
      some (symbol, width, parseBar seq openTicks highTicks lowTicks closeTicks volume barOpenNs)
  | _ => none

/-- The width is a part of a channel's name. -/
def Plain : Effect → Prop
  | .writeBar _ width _ => ':' ∉ width
  | _ => True

end Effect

namespace MarketData

variable {data : MarketData} {effects : List Effect} {effect : Effect} {symbol : Name}

theorem applyAll_snoc (data : MarketData) (effects : List Effect) (effect : Effect) :
    data.applyAll (effects ++ [effect]) = (data.applyAll effects).apply effect := by
  simp [applyAll]

theorem applyAll_append (data : MarketData) (first second : List Effect) :
    data.applyAll (first ++ second) = (data.applyAll first).applyAll second := by
  simp [applyAll]

theorem book_apply (data : MarketData) (effect : Effect) (symbol : Name) :
    (data.apply effect).book symbol = (effect.bookOf symbol).or (data.book symbol) := by
  unfold apply
  split
  · rename_i name ch seq tsNs bids asks
    by_cases same : name = symbol
    · subst same
      simp [book, writeBook, Effect.bookOf]
    · simp [book, writeBook, Effect.bookOf, same, Dict.get?_set_of_ne _ _ (Ne.symm same)]
  · rfl
  · rfl
  · rename_i other _ _
    cases effect with
    | writeBook name message =>
        cases message with
        | book ch seq tsNs bids asks => exact absurd rfl (other name ch seq tsNs bids asks)
        | _ => rfl
    | _ => rfl

theorem trades_apply (data : MarketData) (effect : Effect) (symbol : Name) :
    (data.apply effect).tape symbol =
        (match effect.tradeOf symbol with
        | some trade => trimTape (data.tape symbol ++ [trade])
        | none => data.tape symbol) ∧
      (data.apply effect).lastTrade symbol = (effect.tradeOf symbol).or (data.lastTrade symbol) := by
  unfold apply
  split
  · exact ⟨rfl, rfl⟩
  · rename_i name ch seq tsNs priceTicks qty aggressorSide
    by_cases same : name = symbol
    · subst same
      simp [tape, lastTrade, writeTrade, Effect.tradeOf, Dict.getD]
    · simp [tape, lastTrade, writeTrade, Effect.tradeOf, same, Dict.getD,
        Dict.get?_set_of_ne _ _ (Ne.symm same)]
  · exact ⟨rfl, rfl⟩
  · rename_i _ other _
    cases effect with
    | writeTrade name message =>
        cases message with
        | tapePrint ch seq tsNs priceTicks qty side =>
            exact absurd rfl (other name ch seq tsNs priceTicks qty side)
        | _ => exact ⟨rfl, rfl⟩
    | _ => exact ⟨rfl, rfl⟩

theorem bars_apply (data : MarketData) (effect : Effect) :
    (data.apply effect).bars =
      match effect.barOf with
      | some call => (data.toMarketBuffer.writeBar call.1 call.2.1 call.2.2).bars
      | none => data.bars := by
  unfold apply
  split
  · rfl
  · rfl
  · rfl
  · rename_i _ _ other
    cases effect with
    | writeBar name width message =>
        cases message with
        | barClose ch seq o h l c v t => exact absurd rfl (other name width ch seq o h l c v t)
        | _ => rfl
    | _ => rfl

/-! ## After every call of a sequence -/

theorem book_applyAll (effects : List Effect) (symbol : Name) :
    (new.applyAll effects).book symbol = (effects.filterMap (Effect.bookOf symbol)).getLast? := by
  induction effects using List.reverseRecOn with
  | nil => rfl
  | append_singleton before effect ih =>
      rw [applyAll_snoc, book_apply, ih, List.filterMap_append]
      cases written : effect.bookOf symbol with
      | none => simp [written]
      | some view => simp [written]

theorem lastTrade_applyAll (effects : List Effect) (symbol : Name) :
    (new.applyAll effects).lastTrade symbol =
      (effects.filterMap (Effect.tradeOf symbol)).getLast? := by
  induction effects using List.reverseRecOn with
  | nil => rfl
  | append_singleton before effect ih =>
      rw [applyAll_snoc, (trades_apply _ _ _).2, ih, List.filterMap_append]
      cases written : effect.tradeOf symbol with
      | none => simp [written]
      | some trade => simp [written]

/-- Trimming at every print leaves what trimming once would. -/
theorem rtake_snoc_rtake {α : Type} (items : List α) (item : α) (count : Nat) :
    (items.rtake (count + 1) ++ [item]).rtake (count + 1) =
      (items ++ [item]).rtake (count + 1) := by
  have shorter : (items.rtake (count + 1)).rtake count = items.rtake count := by
    simp [List.rtake_eq_reverse_take_reverse, List.take_take]
  rw [List.rtake_concat_succ, List.rtake_concat_succ, shorter]

theorem tape_applyAll (effects : List Effect) (symbol : Name) :
    (new.applyAll effects).tape symbol =
      (effects.filterMap (Effect.tradeOf symbol)).rtake tapeLimit := by
  induction effects using List.reverseRecOn with
  | nil => exact (List.rtake_nil _).symm
  | append_singleton before effect ih =>
      rw [applyAll_snoc, (trades_apply _ _ _).1, ih, List.filterMap_append]
      cases written : effect.tradeOf symbol with
      | none => simp [written]
      | some trade =>
          simp only [List.filterMap_cons, written, List.filterMap_nil]
          exact rtake_snoc_rtake _ trade 199

theorem bars_applyAll (effects : List Effect) :
    (new.applyAll effects).bars =
      (MarketBuffer.new.writeBars (effects.filterMap Effect.barOf)).bars := by
  induction effects using List.reverseRecOn with
  | nil => rfl
  | append_singleton before effect ih =>
      rw [applyAll_snoc, bars_apply, List.filterMap_append]
      cases written : effect.barOf with
      | none => simp [written, ih]
      | some call =>
          simp only [List.filterMap_cons, written, List.filterMap_nil, writeBars_snoc]
          simp only [MarketBuffer.writeBar, ih]

end MarketData

end QuantArena.Web
