import QuantArena.Engine.Cpp.OrderBookQueues
import QuantArena.Engine.Cpp.StreamEngine
import QuantArena.Matcher.SnapshotProperties

/-! The C++ engine holds a market just as the naive matcher does, so that each
record is answered by both as the market answers it. -/

set_option autoImplicit false

namespace QuantArena.Engine.Cpp

open Foundations Foundations.PriceTime Contracts

/-- A live order of the market as `live_` stores it. -/
def liveOf (order : Exchange.LiveOrder) : LiveOrder :=
  ⟨order.id, order.ticket.clientOrderId, order.ticket.userId, order.ticket.symbolId,
    sideCode order.side, order.price⟩

namespace StreamEngine

/-- `live_` and `client_to_order_` list these orders under this index. -/
structure Lists (engine : StreamEngine) (orders : List Exchange.LiveOrder)
    (indexed : Int × Int → Option Int) : Prop where
  live : engine.live.entries = orders.map fun order => (order.id, liveOf order)
  index : ∀ name, engine.clientToOrder.find? (clientKey name.1 name.2) = indexed name

/-- Everything but the id counter, which a restore sets last. -/
structure Holds (engine : StreamEngine) (market : Exchange.Market) : Prop
    extends Lists engine market.tape.live market.indexed where
  books : ∀ symbolId, ∃ naive, Queues (engine.book symbolId) naive
    (Exchange.onSymbol symbolId market.tape.live) market.tape.nextOrderId

/-- The id counter wraps around at its width. -/
structure Represents (engine : StreamEngine) (market : Exchange.Market) : Prop where
  nextOrderId : engine.nextOrderId = market.tape.nextOrderId % 256 ^ 8
  holds : engine.Holds market

theorem new_represents (initialCashTicks : Int) : (new initialCashTicks).Represents .fresh where
  nextOrderId := rfl
  holds := {
    live := rfl
    index := fun _ => rfl
    books := fun _ => ⟨NaiveModel.OrderBook.new, {
      agrees := OrderBook.new_agrees
      shaped := NaiveModel.OrderBook.new_shaped
      resting := rfl
      arrivals := by decide
      created := fun order member => by
        simp [Exchange.onSymbol, Exchange.Market.fresh, Exchange.Tape.blank] at member }⟩ }

variable {engine : StreamEngine} {market : Exchange.Market} {orders : List Exchange.LiveOrder}
  {indexed : Int × Int → Option Int}

theorem book_setBook (engine : StreamEngine) (symbolId other : Int) (book : OrderBook) :
    (engine.setBook symbolId book).book other =
      if other = symbolId then book else engine.book other := by
  simp only [setBook, StreamEngine.book, OrderedMap.find?_insert]
  split <;> rfl

theorem Lists.find? (lists : engine.Lists orders indexed) {order : Exchange.LiveOrder}
    (member : order ∈ orders) : engine.live.find? order.id = some (liveOf order) := by
  rw [OrderedMap.find?_eq_some_iff, lists.live]
  exact List.mem_map_of_mem member

theorem Lists.find?_absent (lists : engine.Lists orders indexed) {orderId : Int}
    (absent : ∀ order ∈ orders, order.id ≠ orderId) : engine.live.find? orderId = none := by
  rw [OrderedMap.find?_eq_none_iff, lists.live]
  intro live member
  obtain ⟨order, orderMember, same⟩ := List.mem_map.mp member
  exact absent order orderMember (congrArg Prod.fst same)

theorem Holds.getOrder (holds : engine.Holds market) {order : Exchange.LiveOrder}
    (member : order ∈ market.tape.live) :
    ∃ held, (engine.book order.ticket.symbolId).getOrder (toLong order.id) = some held ∧
      held.remainingQuantity = order.remaining ∧ held.createdAt = order.ticket.createdAtNs := by
  obtain ⟨naive, queues⟩ := holds.books order.ticket.symbolId
  exact queues.getOrder (Exchange.mem_onSymbol.mpr ⟨member, rfl⟩)

/-! ## Snapshot -/

theorem Holds.snapshotOrders_eq (holds : engine.Holds market)
    {orders : List Exchange.LiveOrder} (within : ∀ order ∈ orders, order ∈ market.tape.live) :
    engine.snapshotOrders (orders.map fun order => (order.id, liveOf order)) =
      .ok ((orders.map (Matcher.marketOrder market)).flatMap Matcher.SnapshotOrder.layout) := by
  induction orders with
  | nil => rfl
  | cons order rest ih =>
      obtain ⟨held, found, remaining, created⟩ := holds.getOrder (within order List.mem_cons_self)
      have later := ih fun other member => within other (List.mem_cons_of_mem _ member)
      have onBook : (engine.book (liveOf order).symbolId).getOrder (toLong order.id) = some held :=
        found
      have flag : engine.indexedFlag (liveOf order) order.id =
          Matcher.indexedCode (Matcher.marketOrder market order).indexed := by
        have indexed := holds.index (Exchange.key order)
        simp only [indexedFlag, Matcher.indexedCode, Matcher.marketOrder, decide_eq_true_iff]
        rw [← indexed]
        rfl
      simp only [List.map_cons, snapshotOrders, onBook, later, Fault.ok_bind, flag, remaining,
        created]
      rfl

/-- The engine writes its orders and its counter, cut to the layout where something does not fit. -/
theorem Holds.snapshot_eq (holds : engine.Holds market) :
    engine.snapshot = .ok (Matcher.EngineSnapshot.layout
      ⟨engine.nextOrderId, (Matcher.marketSnapshot market).orders⟩) := by
  have parts := holds.snapshotOrders_eq fun _ member => member
  have size : engine.live.size = (Matcher.marketSnapshot market).orders.length := by
    rw [OrderedMap.size, holds.live]
    simp [Matcher.marketSnapshot]
  rw [snapshot, holds.live, parts, size]
  rfl

theorem Represents.snapshot_eq (represents : engine.Represents market) :
    engine.snapshot = .ok (Matcher.EngineSnapshot.layout
      ⟨market.tape.nextOrderId % 256 ^ 8, (Matcher.marketSnapshot market).orders⟩) := by
  rw [represents.holds.snapshot_eq, represents.nextOrderId]

theorem Represents.snapshot_of_fits (represents : engine.Represents market)
    (fits : (Matcher.marketSnapshot market).Fits) :
    engine.snapshot = .ok (Matcher.marketSnapshot market).layout := by
  have next : market.tape.nextOrderId % 256 ^ 8 = market.tape.nextOrderId :=
    Int.emod_eq_of_lt fits.nextOrderId.1 fits.nextOrderId.2
  rw [represents.snapshot_eq, next]
  rfl

/-! ## Forgetting -/

/-- An order leaves `live_`, and its key leaves `client_to_order_`. -/
theorem Lists.erased (lists : engine.Lists orders indexed) (unique : WellFormed orders)
    {order : Exchange.LiveOrder} (member : order ∈ orders) {after : StreamEngine}
    (live : after.live = engine.live.erase order.id)
    (keys : after.clientToOrder = engine.clientToOrder.erase
      (clientKey order.ticket.userId order.ticket.clientOrderId)) :
    after.Lists (remove order.id orders)
      (Exchange.Market.freed orders (remove order.id orders) indexed) where
  live := by
    have entries : after.live.entries = engine.live.entries.filter (·.1 ≠ order.id) :=
      congrArg OrderedMap.entries live
    rw [entries, lists.live, remove, List.filter_map]
    rfl
  index name := by
    rw [keys, OrderedMap.find?_erase, lists.index, Exchange.Market.freed_remove unique member]
    have sameKey : clientKey name.1 name.2 =
        clientKey order.ticket.userId order.ticket.clientOrderId ↔ name = Exchange.key order := by
      simp [clientKey, Exchange.key, Prod.ext_iff]
    simp only [sameKey]

/-- An order that `forget_if_filled` leaves alone: not named, or still on the book. -/
def Stays (engine : StreamEngine) (symbolId : Int) (orderIds : List Int)
    (order : Exchange.LiveOrder) : Prop :=
  order.id ∈ orderIds → ((engine.book symbolId).getOrder (toLong order.id)).isSome

instance (engine : StreamEngine) (symbolId : Int) (orderIds : List Int) :
    DecidablePred (engine.Stays symbolId orderIds) := fun _ => inferInstanceAs (Decidable (_ → _))

/-- The books and the counter are as before. -/
structure SameBooks (before after : StreamEngine) : Prop where
  books : after.books = before.books
  nextOrderId : after.nextOrderId = before.nextOrderId
  initialCashTicks : after.initialCashTicks = before.initialCashTicks

theorem forgetIfFilled_lists (lists : engine.Lists orders indexed) (unique : WellFormed orders)
    (symbolId orderId : Int) :
    SameBooks engine (engine.forgetIfFilled symbolId orderId) ∧
      (engine.forgetIfFilled symbolId orderId).Lists
        (orders.filter (engine.Stays symbolId [orderId]))
        (Exchange.Market.freed orders (orders.filter (engine.Stays symbolId [orderId])) indexed) := by
  have untouched : (∀ order ∈ orders, engine.Stays symbolId [orderId] order) →
      engine.Lists (orders.filter (engine.Stays symbolId [orderId]))
        (Exchange.Market.freed orders (orders.filter (engine.Stays symbolId [orderId])) indexed) := by
    intro stay
    rw [List.filter_eq_self.mpr (by simpa using stay), Exchange.Market.freed_self]
    exact lists
  unfold forgetIfFilled
  cases onBook : (engine.book symbolId).getOrder (toLong orderId) with
  | some held =>
      rw [Option.isSome_some, if_pos rfl]
      refine ⟨⟨rfl, rfl, rfl⟩, untouched ?_⟩
      intro order _ named
      rw [List.mem_singleton.mp named, onBook]
      rfl
  | none =>
      rw [Option.isSome_none, if_neg Bool.false_ne_true]
      cases found : engine.live.find? orderId with
      | none =>
          refine ⟨⟨rfl, rfl, rfl⟩, untouched ?_⟩
          intro order member named
          have present := lists.find? member
          rw [List.mem_singleton.mp named, found] at present
          cases present
      | some live =>
          rw [OrderedMap.find?_eq_some_iff, lists.live] at found
          obtain ⟨order, member, same⟩ := List.mem_map.mp found
          cases same
          have leaves : orders.filter (engine.Stays symbolId [order.id]) = remove order.id orders := by
            apply List.filter_congr
            intro other _
            rw [decide_eq_decide]
            unfold Stays
            rw [List.mem_singleton]
            constructor
            · intro stays same
              have present := stays same
              rw [same, onBook] at present
              cases present
            · intro different same
              exact absurd same different
          rw [leaves]
          exact ⟨⟨rfl, rfl, rfl⟩, lists.erased unique member rfl rfl⟩

theorem SameBooks.book {before after : StreamEngine} (same : SameBooks before after)
    (symbolId : Int) : after.book symbolId = before.book symbolId := by
  rw [StreamEngine.book, StreamEngine.book, same.books]

theorem forgetAll_lists (symbolId : Int) (orderIds : List Int) :
    ∀ {engine : StreamEngine} {orders : List Exchange.LiveOrder}
      {indexed : Int × Int → Option Int}, engine.Lists orders indexed → WellFormed orders →
      SameBooks engine (orderIds.foldl (fun engine => engine.forgetIfFilled symbolId) engine) ∧
      (orderIds.foldl (fun engine => engine.forgetIfFilled symbolId) engine).Lists
        (orders.filter (engine.Stays symbolId orderIds))
        (Exchange.Market.freed orders (orders.filter (engine.Stays symbolId orderIds)) indexed) := by
  induction orderIds with
  | nil =>
      intro engine orders indexed lists unique
      have all : orders.filter (engine.Stays symbolId []) = orders :=
        List.filter_eq_self.mpr fun order _ => by simp [Stays]
      rw [all, Exchange.Market.freed_self]
      exact ⟨⟨rfl, rfl, rfl⟩, lists⟩
  | cons orderId rest ih =>
      intro engine orders indexed lists unique
      obtain ⟨same, first⟩ := forgetIfFilled_lists lists unique symbolId orderId
      obtain ⟨later, whole⟩ := ih first (unique.filter _)
      have both : (orders.filter (engine.Stays symbolId [orderId])).filter
          ((engine.forgetIfFilled symbolId orderId).Stays symbolId rest) =
          orders.filter (engine.Stays symbolId (orderId :: rest)) := by
        rw [List.filter_filter]
        apply List.filter_congr
        intro order _
        simp only [Stays, same.book symbolId, List.mem_cons, List.not_mem_nil, or_false]
        rw [← Bool.decide_and, decide_eq_decide]
        exact ⟨fun stays named => named.elim stays.2 stays.1,
          fun stays => ⟨fun named => stays (.inr named), fun named => stays (.inl named)⟩⟩
      rw [both, Exchange.Market.freed_freed unique
        (fun order member => ⟨order, List.mem_of_mem_filter member, rfl, rfl⟩)
        (by rw [← both]; exact fun _ => List.mem_of_mem_filter)] at whole
      exact ⟨⟨later.books.trans same.books, later.nextOrderId.trans same.nextOrderId,
        later.initialCashTicks.trans same.initialCashTicks⟩, whole⟩

/-- The ids `submit` offers to `forget_if_filled`. -/
def parties (fills : List Fill) : List Int :=
  fills.flatMap fun fill => [toUnsigned fill.buyOrderId, toUnsigned fill.sellOrderId]

theorem forgetFilled_eq (symbolId : Int) (fills : List Fill) : ∀ engine : StreamEngine,
    engine.forgetFilled symbolId fills =
      (parties fills).foldl (fun engine => engine.forgetIfFilled symbolId) engine := by
  induction fills with
  | nil => exact fun _ => rfl
  | cons fill rest ih => exact fun engine => ih _

end StreamEngine

end QuantArena.Engine.Cpp
