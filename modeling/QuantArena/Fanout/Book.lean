import QuantArena.Contracts.Records
import QuantArena.Foundations.Dict

/-! One symbol's order book, told from the outbound stream. -/

set_option autoImplicit false

namespace QuantArena.Fanout

open Foundations Contracts

structure RestingOrder where
  orderId : Int
  side : Int
  priceTicks : Int
  remainingQty : Int
deriving DecidableEq, Repr

structure Book where
  symbolId : Int
  orders : Dict Int RestingOrder

/-- What is left of a resting order after a fill of `qty`: nothing, if that was the rest. -/
def RestingOrder.less (qty : Int) (order : RestingOrder) : Option RestingOrder :=
  if order.remainingQty - qty ≤ 0 then none
  else some { order with remainingQty := order.remainingQty - qty }

namespace Book

def new (symbolId : Int) : Book := ⟨symbolId, .empty⟩

def accept (book : Book) (orderId side priceTicks qty : Int) : Book :=
  { book with orders := book.orders.set orderId ⟨orderId, side, priceTicks, qty⟩ }

/-- Silent on an order this book has never heard of. -/
def fill (book : Book) (orderId qty : Int) : Book :=
  { book with orders := book.orders.alter orderId (·.less qty) }

def cancel (book : Book) (orderId : Int) : Book :=
  { book with orders := book.orders.erase orderId }

/-- The quantity at each price of one side. -/
def totals (book : Book) (side : Int) : Dict Int Int :=
  book.orders.values.foldl (fun totals order =>
    if order.side = side ∧ order.remainingQty > 0 then
      totals.add order.priceTicks order.remainingQty
    else totals) .empty

/-- Which of two levels a side shows first. Two levels never share a price. -/
def before (side : Int) (left right : Int × Int) : Bool :=
  if side = sideCode .buy then right.1 ≤ left.1 else left.1 ≤ right.1

def levels (book : Book) (side : Int) (depth : Nat) : List (Int × Int) :=
  ((book.totals side).entries.mergeSort (before side)).take depth

def best (book : Book) (side : Int) : Option (Int × Int) := (book.levels side 1).head?

/-- Every order as `(order_id, side, price_ticks, remaining_qty)`, by order id. -/
def resting (book : Book) : List RestingOrder :=
  book.orders.values.mergeSort fun left right => left.orderId ≤ right.orderId

end Book

end QuantArena.Fanout
