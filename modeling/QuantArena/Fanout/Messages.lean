import QuantArena.Contracts.Records
import QuantArena.Fanout.Book
import QuantArena.Fanout.Subscribers
import QuantArena.Fanout.Bars
import QuantArena.Foundations.Json

/-! The browser wire: the channels' names and the messages the hub encodes. A frame
stands for the message it is the text of. -/

set_option autoImplicit false

namespace QuantArena.Fanout

open Foundations Contracts

/-- A symbol's name, or any other part of a channel's. -/
abbrev Name := List Char

structure Symbol where
  symbolId : Int
  name : Name
deriving DecidableEq

/-- The listed symbols. The configuration is refused if it repeats an id or a name. -/
structure SymbolTable where
  listed : List Symbol
  ids : (listed.map (·.symbolId)).Nodup
  names : (listed.map (·.name)).Nodup

structure Settings where
  symbols : SymbolTable
  bookDepth : Nat
  barBucketSeconds : List BarWidth
  realSecondsPerSimulatedMinute : Int

/-! ## Channels -/

inductive Tier where
  | l1
  | l2
deriving DecidableEq, Repr

namespace Tier

def all : List Tier := [.l1, .l2]

def suffix : Tier → Name
  | .l1 => "l1".toList
  | .l2 => "l2".toList

end Tier

/-- The parts of a channel's name, as one text. -/
def channelOf (parts : List Name) : Channel := [':'].intercalate parts

/-- The widths that have a name of their own, in simulated minutes. -/
def simulatedMinutesSuffix (minutes : Int) : Option Name :=
  if minutes = 1 then some "1m".toList
  else if minutes = 5 then some "5m".toList
  else if minutes = 15 then some "15m".toList
  else if minutes = 60 then some "1h".toList
  else if minutes = 240 then some "4h".toList
  else if minutes = 1440 then some "1d".toList
  else none

def widthLabel (bucketSeconds realSecondsPerSimulatedMinute : Int) : Name :=
  let minutes := bucketSeconds / max 1 realSecondsPerSimulatedMinute
  if minutes < 1 then Json.writeInt bucketSeconds ++ ['s']
  else (simulatedMinutesSuffix minutes).getD (Json.writeInt minutes ++ ['m'])

def bookChannel (symbol : Symbol) (tier : Tier) : Channel :=
  channelOf ["book".toList, symbol.name, tier.suffix]

def tapeChannel (symbol : Symbol) : Channel := channelOf ["tape".toList, symbol.name]

def barsChannel (symbol : Symbol) (bucketSeconds realSecondsPerSimulatedMinute : Int) : Channel :=
  channelOf ["bars".toList, symbol.name, widthLabel bucketSeconds realSecondsPerSimulatedMinute]

/-- Every channel a client may subscribe to. -/
def knownChannels (settings : Settings) : List Channel :=
  settings.symbols.listed.flatMap fun symbol =>
    [bookChannel symbol .l1, bookChannel symbol .l2, tapeChannel symbol] ++
      settings.barBucketSeconds.map fun width =>
        barsChannel symbol width settings.realSecondsPerSimulatedMinute

/-! ## Messages -/

inductive Role where
  | maker
  | taker
deriving DecidableEq, Repr

/-- A private message past its envelope, by the type of its record. A symbol that is not
listed has no name. -/
inductive PrivateBody where
  | orderAccepted (orderId clientOrderId : Int) (symbol : Option Name)
      (priceTicks qty side tif : Int)
  | orderRejected (clientOrderId : Int) (symbol : Option Name) (reason : RejectReason)
  | fill (orderId : Int) (symbol : Option Name) (priceTicks qty aggressorSide : Int) (role : Role)
  | orderCancelled (orderId clientOrderId : Int) (symbol : Option Name) (remainingQty : Int)
      (reason : CancelReason)
  | accountCreated (initialCashTicks : Int)
  | cashCredited (amountTicks : Int)
deriving DecidableEq, Repr

inductive ErrorCode where
  | unauthenticated
  | unknownChannel
  | slowConsumer
  | halted
  | resumed
deriving DecidableEq, Repr

inductive Message where
  | book (ch : Channel) (seq : StreamId) (tsNs : Int) (bids asks : List (Int × Int))
  | tapePrint (ch : Channel) (seq : StreamId) (tsNs priceTicks qty aggressorSide : Int)
  | barClose (ch : Channel) (seq : StreamId)
      (openTicks highTicks lowTicks closeTicks volume barOpenNs : Int)
  | privateMessage (seq : Int) (tsNs : Int) (body : PrivateBody)
  | error (code : ErrorCode) (detail : String)
deriving DecidableEq

namespace Messages

/-- `detail or reason or "exchange halted"`. -/
def halted (reason detail : Option String) : Message :=
  let given : Option String → Option String := Option.filter (· ≠ "")
  .error .halted (((given detail).or (given reason)).getD "exchange halted")

def resumed : Message := .error .resumed "exchange accepting orders"

def bookL2 (symbol : Symbol) (book : Book) (depth : Nat) (seq : StreamId) (tsNs : Int) : Message :=
  .book (bookChannel symbol .l2) seq tsNs
    (book.levels (sideCode .buy) depth) (book.levels (sideCode .sell) depth)

def bookL1 (symbol : Symbol) (book : Book) (seq : StreamId) (tsNs : Int) : Message :=
  .book (bookChannel symbol .l1) seq tsNs
    (book.best (sideCode .buy)).toList (book.best (sideCode .sell)).toList

def tapePrint (symbol : Symbol) (trade : Trade) : Message :=
  .tapePrint (tapeChannel symbol) trade.seq trade.timestampNs trade.priceTicks trade.qty
    trade.aggressorSide

def barClose (symbol : Symbol) (bar : Bar) (seq : StreamId)
    (realSecondsPerSimulatedMinute : Int) : Message :=
  .barClose (barsChannel symbol bar.bucketSeconds realSecondsPerSimulatedMinute) seq
    bar.openTicks bar.highTicks bar.lowTicks bar.closeTicks bar.volume bar.barOpenNs

end Messages

end QuantArena.Fanout
