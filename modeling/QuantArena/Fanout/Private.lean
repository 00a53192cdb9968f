import QuantArena.Fanout.Hub

/-! The private stream: the messages a record owes to the users it concerns, and the
counter that numbers them for each user. -/

set_option autoImplicit false

namespace QuantArena.Fanout

open Foundations Contracts

/-- The name under which a symbol id is listed. -/
def SymbolTable.symbolName (symbols : SymbolTable) (symbolId : Int) : Option Name :=
  (symbols.listed.find? (·.symbolId = symbolId)).map (·.name)

/-- `messages_for`: the user and the body of every message a record owes. -/
def messagesFor (symbols : SymbolTable) : Outbound → List (Int × PrivateBody)
  | .orderAccepted accepted => [(accepted.userId, .orderAccepted accepted.orderId
      accepted.clientOrderId (symbols.symbolName accepted.symbolId) accepted.priceTicks
      accepted.qty accepted.side accepted.tif)]
  | .orderRejected rejected => [(rejected.userId, .orderRejected rejected.clientOrderId
      (symbols.symbolName rejected.symbolId) rejected.reason)]
  | .fill fill =>
      [(fill.makerUserId, .fill fill.makerOrderId (symbols.symbolName fill.symbolId)
        fill.priceTicks fill.qty fill.aggressorSide .maker),
      (fill.takerUserId, .fill fill.takerOrderId (symbols.symbolName fill.symbolId)
        fill.priceTicks fill.qty fill.aggressorSide .taker)]
  | .orderCancelled cancelled => [(cancelled.userId, .orderCancelled cancelled.orderId
      cancelled.clientOrderId (symbols.symbolName cancelled.symbolId) cancelled.remainingQty
      cancelled.reason)]
  | .accountCreated created => [(created.userId, .accountCreated created.initialCashTicks)]
  | .cashCredited credited => [(credited.userId, .cashCredited credited.amountTicks)]
  | .bookChanged _ => []
  | .replayConfigured _ => []

structure PrivateRouter where
  seq : Dict Int Int
  delivered : Nat

namespace PrivateRouter

def new : PrivateRouter := ⟨.empty, 0⟩

def nextSeq (router : PrivateRouter) (userId : Int) : PrivateRouter × Int :=
  let next := router.seq.getD userId 0 + 1
  ({ router with seq := router.seq.set userId next }, next)

/-- One message to whichever connections its user has. Nobody's message is not numbered. -/
def routeOne (tsNs : Int) (state : PrivateRouter × Hub) (addressed : Int × PrivateBody) :
    PrivateRouter × Hub :=
  let (router, hub) := state
  if hub.hasUser addressed.1 then
    let (router, seq) := router.nextSeq addressed.1
    let (hub, frame) := hub.encode (.privateMessage seq tsNs addressed.2)
    let (hub, delivered) := hub.toUser addressed.1 frame
    ({ router with delivered := router.delivered + delivered }, hub)
  else (router, hub)

def route (symbols : SymbolTable) (router : PrivateRouter) (hub : Hub) (record : Outbound) :
    PrivateRouter × Hub :=
  (messagesFor symbols record).foldl (routeOne record.timestampNs) (router, hub)

end PrivateRouter

end QuantArena.Fanout
