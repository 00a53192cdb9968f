import QuantArena.Ledger.ReadModel
import QuantArena.Web.Client
import QuantArena.Web.PortfolioSteps

/-! One user's browser tab, what fan-out sends it, and the tables it re-synchronises from. The
outbound stream is given whole, and everyone reads as much of it as they have got to. -/

set_option autoImplicit false

namespace QuantArena.Web

open Foundations Contracts Fanout

/-! ## The tab -/

/-- An answer from the tables, with the number of records that they then stood for. -/
structure TableRead (α : Type) where
  flushed : Nat
  answer : α

/-- A request that is out, or has failed, or has its answer. -/
inductive Fetch (α : Type) where
  | out
  | failed
  | answered (read : TableRead α)

def Fetch.read? {α : Type} : Fetch α → Option (TableRead α)
  | .answered read => some read
  | _ => none

def Fetch.isOut {α : Type} : Fetch α → Bool
  | .out => true
  | _ => false

/-- The two requests of a resync. `GET /portfolio` makes two queries, the cash first. -/
structure Fetches where
  openOrders : Fetch (List OpenOrderItemDto)
  cash : Option (TableRead Int)
  positions : Fetch (List (Int × Int))
  /-- Whether the stream client waits for the resync. -/
  awaited : Bool

structure Tab where
  client : StreamClient
  portfolio : PortfolioState
  /-- The resync that is running. -/
  resyncing : Option Fetches

namespace Tab

def new : Tab := ⟨.new, emptyPortfolio, none⟩

/-- `resync`, up to its first `await`. One that is not needed has settled at once. -/
def resync (tab : Tab) (awaited : Bool) : Tab :=
  match tab.resyncing with
  | some _ => if awaited then { tab with client := tab.client.resynced } else tab
  | none => { tab with resyncing := some ⟨.out, none, .out, awaited⟩ }

/-- What the session does at a call of the stream client. -/
def perform (atMs : Int) (tab : Tab) : Effect → Tab
  | .onState .connected => tab.resync false
  | .onResync => tab.resync true
  | .onPrivate (.privateMessage _ _ body) =>
      { tab with portfolio := reduce tab.portfolio (.privateMessage (parsed body) (some atMs)) }
  | _ => tab

def take (atMs : Int) (tab : Tab) (result : StreamClient × List Effect) : Tab :=
  result.2.foldl (perform atMs) { tab with client := result.1 }

/-- The three answers of a resync of which nothing has failed. -/
def answers (tab : Tab) :
    Option (TableRead (List OpenOrderItemDto) × TableRead Int × TableRead (List (Int × Int))) := do
  let fetches ← tab.resyncing
  let openOrders ← fetches.openOrders.read?
  let cash ← fetches.cash
  let positions ← fetches.positions.read?
  some (openOrders, cash, positions)

/-- `resync`, past both requests. One that fails leaves the state as it is. -/
def settle (userId : Int) (nameById : Int → Option Name) (atMs : Int) (tab : Tab) : Tab :=
  match tab.resyncing with
  | none => tab
  | some fetches =>
      if fetches.openOrders.isOut || fetches.positions.isOut then tab
      else
        let ended := { tab with
          resyncing := none
          client := if fetches.awaited then tab.client.resynced else tab.client }
        match tab.answers with
        | none => ended
        | some (openOrders, cash, positions) =>
            { ended with
              portfolio := reduce tab.portfolio (.resync
                (openOrders.answer.map OpenOrderItemDto.parsed)
                (PortfolioDto.parsed ⟨userId, cash.answer, positions.answer⟩) nameById
                (some atMs)) }

end Tab

/-! ## The tables -/

def openOrderItem (order : Ledger.OpenOrderRecord) : OpenOrderItemDto where
  orderId := order.orderId
  clientOrderId := order.clientOrderId
  userId := order.userId
  symbolId := order.symbolId
  side := order.side
  priceTicks := order.priceTicks
  qty := order.qty
  remainingQty := order.remainingQty
  tif := order.tif
  createdAtNs := order.createdAtNs

/-- `GET /orders/open`, of a table that has rows for no other order ids. -/
def getOpenOrders (database : Ledger.Database) (orderIds : List Int) (userId : Int) :
    List OpenOrderItemDto :=
  (((orderIds.insertionSort (· ≤ ·)).filterMap database.openOrders).filter
    (·.userId = userId)).map openOrderItem

/-- The cash of `GET /portfolio`: nothing, without an account. -/
def getCash (database : Ledger.Database) (userId : Int) : Int :=
  (database.accounts userId).getD 0

/-- The positions of `GET /portfolio`, by symbol id and in any order. -/
def getPositions (database : Ledger.Database) (userId : Int) : Multiset (Int × Int) :=
  (database.positions.filter fun row => row.1.1 = userId ∧ row.2 ≠ 0).map
    fun row => (row.1.2, row.2)

/-! ## All of it -/

/-- A user, the symbols, and the outbound stream. -/
structure Viewer where
  symbols : SymbolTable
  userId : Int
  outbound : List (StreamId × Outbound)

/-- The messages owed to the user for the first records. -/
def Viewer.owedBy (viewer : Viewer) (count : Nat) : List PrivateBody :=
  owed viewer.symbols viewer.userId ((viewer.outbound.take count).map (·.2))

structure Viewing where
  tab : Tab
  /-- How many records fan-out has routed. -/
  routed : Nat
  /-- The last number it gave to a message of the user. -/
  lastSeq : Int
  connected : Bool
  /-- Sent and not yet received, each with its place among all messages owed to the user. -/
  wire : List (Message × Nat)
  consumer : Ledger.Consumer
  /-- How many records the ledger has applied. -/
  applied : Nat
  /-- How many records the tables stand for. -/
  flushed : Nat

inductive Happening where
  | connect (atMs : Int)
  | disconnect (atMs : Int)
  | route
  | deliver (atMs : Int)
  /-- A message is lost on its way. -/
  | lose (place : Nat)
  | notice (code : ErrorCode) (atMs : Int)
  | batch (count : Nat) (outcome : Ledger.Consumer.Outcome)
  | ledgerFails
  | ledgerRestarts (more : Nat)
  | readOpenOrders
  | readCash
  | readPositions (answer : List (Int × Int))
  | openOrdersFail
  | portfolioFails
  | settle (atMs : Int)

namespace Viewing

def start : Viewing where
  tab := .new
  routed := 0
  lastSeq := 0
  connected := false
  wire := []
  consumer := .recover ⟨fun _ => none, 0, fun _ => none, none⟩ []
  applied := 0
  flushed := 0

/-- Fan-out numbers and sends the messages of a record, if the user is connected. -/
def route (viewer : Viewer) (viewing : Viewing) : Viewing :=
  match viewer.outbound[viewing.routed]? with
  | none => viewing
  | some (_, record) =>
      let routed := { viewing with routed := viewing.routed + 1 }
      if viewing.connected then
        let messages := owedTo viewer.symbols viewer.userId record
        { routed with
          lastSeq := viewing.lastSeq + messages.length
          wire := viewing.wire ++ (numbered viewing.lastSeq messages).zipIdx
            (viewer.owedBy viewing.routed).length }
      else routed

def deliver (atMs : Int) (viewing : Viewing) : Viewing :=
  match viewing.wire with
  | [] => viewing
  | (message, _) :: rest =>
      { viewing with wire := rest, tab := viewing.tab.take atMs (viewing.tab.client.receive message) }

/-- The socket opens. What the last one had under way is gone. -/
def connect (atMs : Int) (viewing : Viewing) : Viewing :=
  if viewing.connected then viewing
  else { viewing with connected := true, tab := viewing.tab.take atMs viewing.tab.client.opened }

def disconnect (atMs : Int) (viewing : Viewing) : Viewing :=
  { viewing with
    connected := false
    wire := []
    tab := viewing.tab.take atMs (viewing.tab.client.setState .reconnecting) }

/-- A frame that tells of a halt, or of its end. -/
def notice (code : ErrorCode) (atMs : Int) (viewing : Viewing) : Viewing :=
  if viewing.connected then
    { viewing with tab := viewing.tab.take atMs (viewing.tab.client.receive (.error code "")) }
  else viewing

/-- The ledger's consumer reads a batch and flushes it. -/
def batch (viewer : Viewer) (count : Nat) (outcome : Ledger.Consumer.Outcome) (viewing : Viewing) :
    Viewing :=
  let items := (viewer.outbound.drop viewing.applied).take count
  let applied := viewing.applied + items.length
  { viewing with
    consumer := viewing.consumer.step (.batch items outcome)
    applied := applied
    flushed := if items = [] ∨ outcome = .rolledBack then viewing.flushed else applied }

/-- The ledger's consumer replays the stream as far as it had got, or further. -/
def restartLedger (viewer : Viewer) (more : Nat) (viewing : Viewing) : Viewing :=
  let count := min (viewing.applied + more) viewer.outbound.length
  { viewing with
    consumer := .recover viewing.consumer.database (viewer.outbound.take count)
    applied := count
    flushed := count }

/-- A request of the resync that is running gets further. -/
def fetching (change : Fetches → Fetches) (viewing : Viewing) : Viewing :=
  { viewing with tab := { viewing.tab with resyncing := viewing.tab.resyncing.map change } }

def readOpenOrders (viewer : Viewer) (viewing : Viewing) (fetches : Fetches) : Fetches :=
  if fetches.openOrders.isOut then
    { fetches with openOrders := .answered ⟨viewing.flushed, getOpenOrders
      viewing.consumer.database (Exchange.Tape.acceptedIds (viewer.outbound.map (·.2)))
      viewer.userId⟩ }
  else fetches

def readCash (viewer : Viewer) (viewing : Viewing) (fetches : Fetches) : Fetches :=
  if fetches.positions.isOut ∧ fetches.cash.isNone then
    { fetches with cash := some ⟨viewing.flushed, getCash viewing.consumer.database viewer.userId⟩ }
  else fetches

def readPositions (viewer : Viewer) (viewing : Viewing) (answer : List (Int × Int))
    (fetches : Fetches) : Fetches :=
  if fetches.positions.isOut ∧ fetches.cash.isSome ∧
      (answer : Multiset (Int × Int)) = getPositions viewing.consumer.database viewer.userId then
    { fetches with positions := .answered ⟨viewing.flushed, answer⟩ }
  else fetches

def failOpenOrders (fetches : Fetches) : Fetches :=
  if fetches.openOrders.isOut then { fetches with openOrders := .failed } else fetches

def failPortfolio (fetches : Fetches) : Fetches :=
  if fetches.positions.isOut then { fetches with positions := .failed } else fetches

def step (viewer : Viewer) (viewing : Viewing) : Happening → Viewing
  | .connect atMs => viewing.connect atMs
  | .disconnect atMs => viewing.disconnect atMs
  | .route => viewing.route viewer
  | .deliver atMs => viewing.deliver atMs
  | .lose place => { viewing with wire := viewing.wire.eraseIdx place }
  | .notice code atMs => viewing.notice code atMs
  | .batch count outcome => viewing.batch viewer count outcome
  | .ledgerFails => { viewing with consumer := viewing.consumer.step .failed }
  | .ledgerRestarts more => viewing.restartLedger viewer more
  | .readOpenOrders => viewing.fetching (viewing.readOpenOrders viewer)
  | .readCash => viewing.fetching (viewing.readCash viewer)
  | .readPositions answer => viewing.fetching (viewing.readPositions viewer answer)
  | .openOrdersFail => viewing.fetching failOpenOrders
  | .portfolioFails => viewing.fetching failPortfolio
  | .settle atMs => { viewing with
      tab := viewing.tab.settle viewer.userId viewer.symbols.symbolName atMs }

/-! ## When a resync is aligned -/

/-- Where the tab has got to: before the first message on its way, past all that were lost. -/
def place (viewer : Viewer) (viewing : Viewing) : Nat :=
  match viewing.wire with
  | [] => (viewer.owedBy viewing.routed).length
  | (_, place) :: _ => place

/-- On their way are all that have been routed since, and none is missing. -/
def Whole (viewer : Viewer) (viewing : Viewing) : Prop :=
  viewing.wire.map (·.2) = List.range' (viewing.place viewer) viewing.wire.length ∧
    viewing.place viewer + viewing.wire.length = (viewer.owedBy viewing.routed).length

/-- How many messages owed to the user a step loses. -/
def lost (viewer : Viewer) (viewing : Viewing) : Happening → Nat
  | .disconnect _ => viewing.wire.length
  | .lose place => if place < viewing.wire.length then 1 else 0
  | .route =>
      if viewing.connected then 0
      else (viewer.owedBy (viewing.routed + 1)).length - (viewer.owedBy viewing.routed).length
  | _ => 0

/-- The integers that a step reads or computes in the tab. -/
def numbers (viewing : Viewing) : Happening → List Int
  | .deliver _ =>
      match viewing.wire with
      | (.privateMessage seq _ body, _) :: _ => seq :: involved viewing.tab.portfolio body
      | _ => []
  | .settle _ =>
      match viewing.tab.answers with
      | some (openOrders, cash, positions) =>
          openOrders.answer.flatMap (fun item => [item.orderId, item.clientOrderId, item.userId,
            item.symbolId, item.side, item.priceTicks, item.qty, item.remainingQty, item.tif,
            item.createdAtNs]) ++
          cash.answer :: positions.answer.flatMap fun position => [position.1, position.2]
      | none => []
  | _ => []

/-- How far the tables were, at each read of a resync that the step dispatches. -/
def readings (viewing : Viewing) : Happening → List Nat
  | .settle _ =>
      match viewing.tab.answers with
      | some (openOrders, cash, positions) => [openOrders.flushed, cash.flushed, positions.flushed]
      | none => []
  | _ => []

/-- A double holds all of them. -/
def Fits (viewing : Viewing) (happening : Happening) : Prop :=
  ∀ n ∈ viewing.numbers happening, |n| < 2 ^ 53

/-- The tables stood for the very messages that the tab has got. -/
def Aligned (viewer : Viewer) (viewing : Viewing) (happening : Happening) : Prop :=
  ∀ flushed ∈ viewing.readings happening,
    (viewer.owedBy flushed).length = viewing.place viewer

/-- A step that loses no message, finds its numbers exact, and dispatches only aligned resyncs. -/
def Kept (viewer : Viewer) (viewing : Viewing) (happening : Happening) : Prop :=
  viewing.lost viewer happening = 0 ∧ viewing.Fits happening ∧ viewing.Aligned viewer happening

/-- A step that puts an aligned resync in place of whatever was there before. -/
def Renews (viewer : Viewer) (viewing : Viewing) (happening : Happening) : Prop :=
  viewing.readings happening ≠ [] ∧ viewing.Fits happening ∧
    viewing.Aligned viewer happening ∧ viewing.Whole viewer

instance (viewer : Viewer) (viewing : Viewing) (happening : Happening) :
    Decidable (viewing.Kept viewer happening) :=
  inferInstanceAs (Decidable (_ = 0 ∧ (∀ n ∈ viewing.numbers happening, |n| < 2 ^ 53) ∧
    ∀ flushed ∈ viewing.readings happening, (viewer.owedBy flushed).length = viewing.place viewer))

instance (viewer : Viewer) (viewing : Viewing) (happening : Happening) :
    Decidable (viewing.Renews viewer happening) :=
  inferInstanceAs (Decidable (_ ≠ [] ∧ (∀ n ∈ viewing.numbers happening, |n| < 2 ^ 53) ∧
    (∀ flushed ∈ viewing.readings happening,
      (viewer.owedBy flushed).length = viewing.place viewer) ∧ _ = _ ∧ _ = _))

/-! ## What is to hold in the end -/

/-- Everything is delivered and flushed, and no resync is running. -/
structure Quiet (viewer : Viewer) (viewing : Viewing) : Prop where
  routed : viewing.routed = viewer.outbound.length
  wire : viewing.wire = []
  flushed : viewing.flushed = viewer.outbound.length
  resyncing : viewing.tab.resyncing = none

end Viewing

namespace Viewer

/-- The stream as the ledger is handed it. -/
def events (viewer : Viewer) : List (Outbound × Option StreamId) :=
  viewer.outbound.map fun item => (item.2, some item.1)

/-- The tab has the ledger's cash, positions and open orders. -/
def Agrees (viewer : Viewer) (viewing : Viewing) : Prop :=
  ShowsHoldings viewer.symbols viewer.userId viewing.tab.portfolio
      (Ledger.new.applyAll viewer.events) ∧
    viewing.tab.portfolio.cashTicks.getD 0 =
      (Ledger.new.applyAll viewer.events).getBalance viewer.userId

end Viewer

end QuantArena.Web
