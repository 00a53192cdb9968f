import QuantArena.Engine.Cpp.OrderBookProperties
import QuantArena.Exchange.MarketProperties

/-! A C++ book queues a list of orders, and each operation on it does to that
list what the market does to a symbol's live orders. -/

set_option autoImplicit false

namespace QuantArena.Engine.Cpp

open Foundations Foundations.PriceTime

/-- A book that queues these orders, told through a naive book that it agrees with. -/
structure Queues (book : OrderBook) (naive : NaiveModel.OrderBook)
    (orders : List Exchange.LiveOrder) (nextOrderId : Int) : Prop where
  agrees : book.Agrees naive
  shaped : naive.Shaped
  resting : naive.resting = orders.map Resting.bare
  arrivals : (naive.nextArrivalSequence : Int) < nextOrderId
  created : ∀ order ∈ orders,
    ∃ held ∈ naive.orders, held.orderId = order.id ∧ held.createdAt = order.ticket.createdAtNs

namespace Queues

variable {book : OrderBook} {naive : NaiveModel.OrderBook} {orders : List Exchange.LiveOrder}
  {nextOrderId : Int}

theorem mem_resting (queues : Queues book naive orders nextOrderId) {order : Exchange.LiveOrder}
    (member : order ∈ orders) : ∃ held ∈ naive.orders, naive.view held = order.bare := by
  have shown : order.bare ∈ naive.resting := by
    rw [queues.resting]
    exact List.mem_map_of_mem member
  exact List.mem_map.mp shown

theorem mem_orders (queues : Queues book naive orders nextOrderId) {held : NaiveModel.Order}
    (member : held ∈ naive.orders) : ∃ order ∈ orders, naive.view held = order.bare := by
  have shown : naive.view held ∈ naive.resting := List.mem_map_of_mem member
  rw [queues.resting] at shown
  obtain ⟨order, orderMember, same⟩ := List.mem_map.mp shown
  exact ⟨order, orderMember, same.symm⟩

/-- A queued order is on the book, with its remaining quantity and creation time. -/
theorem getOrder (queues : Queues book naive orders nextOrderId) {order : Exchange.LiveOrder}
    (member : order ∈ orders) : ∃ held, book.getOrder (toLong order.id) = some held ∧
      held.remainingQuantity = order.remaining ∧ held.createdAt = order.ticket.createdAtNs := by
  obtain ⟨held, heldMember, sameId, sameCreation⟩ := queues.created order member
  obtain ⟨other, otherMember, view⟩ := queues.mem_resting member
  have otherId : other.orderId = order.id := congrArg Resting.id view
  have same : other = held :=
    queues.shaped.eq_of_orderId otherMember heldMember (otherId.trans sameId.symm)
  refine ⟨OrderBook.mirror naive held, ?_, ?_, sameCreation⟩
  · rw [← sameId]
    exact queues.agrees.find?_order queues.shaped heldMember
  · rw [← same]
    exact congrArg Resting.remaining view

theorem getOrder_absent (queues : Queues book naive orders nextOrderId) {orderId : Int}
    (range : InRange orderId) (absent : ∀ order ∈ orders, order.id ≠ orderId) :
    book.getOrder (toLong orderId) = none := by
  rw [OrderBook.getOrder, queues.agrees.orders orderId range]
  cases found : naive.ordersById.get? orderId with
  | none => rfl
  | some held =>
      have heldMember := NaiveModel.OrderBook.mem_orders_of_get? found
      obtain ⟨order, member, view⟩ := queues.mem_orders heldMember
      have sameId : held.orderId = order.id := congrArg Resting.id view
      exact absurd (sameId.symm.trans (queues.shaped.keyed _ _ found)) (absent order member)

theorem onBook_iff (queues : Queues book naive orders nextOrderId) {orderId : Int}
    (range : InRange orderId) :
    (book.getOrder (toLong orderId)).isSome ↔ ∃ order ∈ orders, order.id = orderId := by
  constructor
  · intro present
    by_contra absent
    rw [queues.getOrder_absent range fun order member same => absent ⟨order, member, same⟩] at present
    cases present
  · intro queued
    obtain ⟨order, member, rfl⟩ := queued
    obtain ⟨held, found, -⟩ := queues.getOrder member
    rw [found]
    rfl

theorem mono (queues : Queues book naive orders nextOrderId) {later : Int}
    (after : nextOrderId ≤ later) : Queues book naive orders later :=
  { queues with arrivals := lt_of_lt_of_le queues.arrivals after }

/-! ## Entering and leaving -/

theorem older (queues : Queues book naive orders nextOrderId)
    (issued : ∀ order ∈ orders, order.id < nextOrderId) :
    ∀ earlier ∈ naive.orders, earlier.orderId < nextOrderId := by
  intro earlier member
  obtain ⟨order, orderMember, view⟩ := queues.mem_orders member
  have sameId : earlier.orderId = order.id := congrArg Resting.id view
  rw [sameId]
  exact issued order orderMember

theorem removed (queues : Queues book naive orders nextOrderId) {order : Exchange.LiveOrder}
    (member : order ∈ orders) :
    ∃ after, Queues (book.cancelOrder (toLong order.id)) after (remove order.id orders)
      nextOrderId := by
  obtain ⟨held, heldMember, view⟩ := queues.mem_resting member
  have sameId : held.orderId = order.id := congrArg Resting.id view
  obtain ⟨after, removed, shaped, resting, kept, -⟩ :=
    NaiveModel.OrderBook.removeOrder_resting queues.shaped heldMember
  rw [sameId] at removed resting kept
  have range : InRange order.id := sameId ▸ queues.agrees.inRange held heldMember
  refine ⟨after, (OrderBook.removeOrder_agrees queues.agrees queues.shaped range removed).1, shaped,
    ?_, ?_, ?_⟩
  · rw [resting, queues.resting, remove, remove, List.filter_map]
    rfl
  · rw [NaiveModel.OrderBook.removeOrder_next removed]
    exact queues.arrivals
  · intro other otherMember
    obtain ⟨old, different⟩ := List.mem_filter.mp otherMember
    obtain ⟨otherHeld, heldOld, otherId, created⟩ := queues.created other old
    refine ⟨otherHeld, (kept otherHeld).mpr ⟨heldOld, ?_⟩, otherId, created⟩
    rw [otherId]
    simpa using different

/-- A new order as the book stores it. -/
def fresh (order : Exchange.LiveOrder) : NaiveModel.Order :=
  ⟨order.id, order.ticket.userId, toString order.ticket.symbolId, order.side, order.price,
    order.remaining, order.ticket.createdAtNs⟩

theorem added (queues : Queues book naive orders nextOrderId)
    (issued : ∀ order ∈ orders, order.id < nextOrderId) {order : Exchange.LiveOrder}
    (latest : nextOrderId ≤ order.id) (range : InRange order.id) (priced : 0 < order.price) :
    ∃ next after, naive.insertOrder (fresh order) = .ok after ∧
      book.addOrder ⟨toLong order.id, toLong order.ticket.userId, toString order.ticket.symbolId,
        order.side, order.price, order.remaining, order.ticket.createdAtNs, order.remaining⟩ =
        .ok next ∧
      Queues next after (orders ++ [order]) (order.id + 1) := by
  have freshPriced : 0 < (fresh order).price := priced
  have freshRange : InRange (fresh order).orderId := range
  obtain ⟨after, inserted, shaped, added, resting, -⟩ := NaiveModel.OrderBook.insertOrder_resting
    queues.shaped freshPriced
    (fun earlier member => lt_of_lt_of_le (queues.older issued earlier member) latest)
  have arrivals := queues.arrivals
  have room := range.2
  obtain ⟨next, entered, agrees⟩ := OrderBook.addOrder_agrees queues.agrees queues.shaped
    freshRange (by omega) inserted
  refine ⟨next, after, inserted, entered, agrees, shaped, ?_, ?_, ?_⟩
  · rw [resting, queues.resting, List.map_append]
    rfl
  · rw [NaiveModel.OrderBook.insertOrder_next inserted]
    push_cast
    omega
  · intro other member
    rw [added]
    cases List.mem_append.mp member with
    | inl old =>
        obtain ⟨held, heldMember, facts⟩ := queues.created other old
        exact ⟨held, List.mem_append_left _ heldMember, facts⟩
    | inr new =>
        rw [List.mem_singleton.mp new]
        exact ⟨fresh order, by simp, rfl, rfl⟩

variable {taker final : Exchange.LiveOrder} {trades : List (Trade Int Int Exchange.Ticket)}
  {left : List Exchange.LiveOrder}

/-- The newest order enters and is matched until it rests or is spent. -/
theorem matched (queues : Queues book naive orders taker.id)
    (issued : ∀ order ∈ orders, order.id < taker.id) (range : InRange taker.id)
    (priced : 0 < taker.price) (counted : 0 < taker.remaining) (valid : WellFormed orders)
    (quiet : Uncrossed orders) (run : Executes taker orders trades final left) :
    ∃ entered next after reported,
      book.addOrder ⟨toLong taker.id, toLong taker.ticket.userId, toString taker.ticket.symbolId,
        taker.side, taker.price, taker.remaining, taker.ticket.createdAtNs, taker.remaining⟩ =
        .ok entered ∧
      entered.matchBook = .ok (next, reported.map OrderBook.mirrorFill) ∧
      List.Forall₂ (NaiveModel.OrderBook.Reports taker.bare) reported (trades.map Trade.bare) ∧
      Queues next after (left ++ final.standing) (taker.id + 1) := by
  obtain ⟨entered, enteredNaive, inserted, added, enteredQueues⟩ :=
    queues.added issued le_rfl range priced
  have bareRun := run.map_bare
  rw [← queues.resting] at bareRun
  have size := enteredQueues.agrees.orders_length_le enteredQueues.shaped
  have length : enteredNaive.orders.length = naive.orders.length + 1 := by
    have whole := congrArg List.length enteredQueues.resting
    have before := congrArg List.length queues.resting
    simp only [NaiveModel.OrderBook.resting, List.length_map, List.length_append,
      List.length_singleton] at whole before
    omega
  have freshPriced : 0 < (fresh taker).price := priced
  obtain ⟨again, after, reported, insertedAgain, -, -, enteredValid, finished, shaped, resting,
    reports, kept, -, -⟩ := NaiveModel.OrderBook.enter_ok queues.shaped freshPriced
    counted (queues.older issued) (by rw [queues.resting]; exact valid.map_bare)
    (by rw [queues.resting]; exact quiet.map_bare) bareRun
    (show naive.orders.length < entered.ordersById.size + 1 by omega)
  cases inserted.symm.trans insertedAgain
  obtain ⟨next, matched, agrees⟩ := OrderBook.matchLoop_agrees (entered.ordersById.size + 1)
    enteredQueues.agrees enteredQueues.shaped enteredValid finished
  have restingEq : after.resting = (left ++ final.standing).map Resting.bare := by
    rw [resting, List.map_append]
    congr 1
    unfold Resting.standing
    split <;> simp_all [Resting.bare]
  refine ⟨entered, next, after, reported, added, matched, reports, agrees, shaped, restingEq, ?_, ?_⟩
  · rw [NaiveModel.OrderBook.matchLoop_next _ finished]
    exact enteredQueues.arrivals
  · intro other member
    have shown : other.bare ∈ after.resting := by
      rw [restingEq]
      exact List.mem_map_of_mem member
    obtain ⟨held, heldMember, view⟩ := List.mem_map.mp shown
    have sameId : held.orderId = other.id := congrArg Resting.id view
    refine ⟨held, heldMember, sameId, ?_⟩
    -- What is left of an order keeps the ticket it entered with.
    have origin : ∃ before ∈ orders ++ [taker], before.id = other.id ∧ before.ticket = other.ticket := by
      cases List.mem_append.mp member with
      | inl old =>
          rw [run.book_eq] at old
          obtain ⟨before, beforeMember, same⟩ := Exchange.Market.mem_settle_origin old
          exact ⟨before, List.mem_append_left _ beforeMember, by rw [same], by rw [same]⟩
      | inr new =>
          obtain ⟨rfl, -⟩ := Exchange.Market.mem_standing.mp new
          exact ⟨taker, by simp, by rw [run.taker_eq], by rw [run.taker_eq]⟩
    obtain ⟨before, beforeMember, beforeId, sameTicket⟩ := origin
    obtain ⟨entering, enteringMember, enteringId, created⟩ :=
      enteredQueues.created before beforeMember
    have present : held ∈ enteredNaive.orders := by
      obtain ⟨third, insertedThird, -, thirdOrders, -⟩ :=
        NaiveModel.OrderBook.insertOrder_resting queues.shaped freshPriced
          (queues.older issued)
      cases inserted.symm.trans insertedThird
      rw [thirdOrders]
      simpa using kept held heldMember
    have same : held = entering := enteredQueues.shaped.eq_of_orderId present enteringMember
      (by rw [sameId, enteringId, beforeId])
    rw [same, created, sameTicket]

end Queues

end QuantArena.Engine.Cpp

