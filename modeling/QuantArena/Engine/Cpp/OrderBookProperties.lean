import QuantArena.Engine.Cpp.OrderBook
import QuantArena.Engine.NaiveModelMatching

/-! The C++ book runs in lockstep with the naive one: related books stay related
under every operation and report the same trades. -/

set_option autoImplicit false

namespace QuantArena.Engine.Cpp

open Foundations Foundations.PriceTime

/-- The ids a `uint64_t` can hold. -/
def InRange (orderId : Int) : Prop := 0 ≤ orderId ∧ orderId < 256 ^ 8

theorem toUnsigned_toLong {value : Int} (range : InRange value) : toUnsigned (toLong value) = value := by
  obtain ⟨nonneg, below⟩ := range
  have reduced : value % 256 ^ 8 = value := Int.emod_eq_of_lt nonneg below
  unfold toUnsigned toLong Bytes.signed
  rw [reduced]
  split
  · exact reduced
  · rw [Int.sub_emod_right]
    exact reduced

theorem toLong_inj {left right : Int} (leftRange : InRange left) (rightRange : InRange right) :
    toLong left = toLong right ↔ left = right := by
  constructor
  · intro same
    rw [← toUnsigned_toLong leftRange, same, toUnsigned_toLong rightRange]
  · intro same
    rw [same]

namespace OrderBook

/-- A naive order as the C++ book stores it. -/
def mirror (naive : NaiveModel.OrderBook) (order : NaiveModel.Order) : Order :=
  ⟨toLong order.orderId, toLong order.userId, order.symbol, order.side, order.price,
    order.quantity, order.createdAt, naive.remainingQuantity order⟩

def mirrorLevel (level : NaiveModel.PriceLevel) : PriceLevel :=
  ⟨level.price, level.orders.map fun order => toLong order.orderId⟩

def mirrorFill (fill : NaiveModel.Fill) : Fill :=
  ⟨toLong fill.buyOrderId, toLong fill.sellOrderId, fill.symbol, fill.price, fill.quantity⟩

structure Agrees (book : OrderBook) (naive : NaiveModel.OrderBook) : Prop where
  inRange : ∀ order ∈ naive.orders, InRange order.orderId
  orders : ∀ orderId, InRange orderId →
    book.ordersById.find? (toLong orderId) = (naive.ordersById.get? orderId).map (mirror naive)
  arrivals : ∀ orderId, InRange orderId → book.arrivalSequence.find? (toLong orderId) =
    (naive.arrivalSequence.get? orderId).map fun arrival => (arrival : Int)
  nextArrival : book.nextArrivalSequence = naive.nextArrivalSequence
  levels : ∀ side price,
    book.findLevel side price = ((naive.sideMap side).get? price).map mirrorLevel

theorem new_agrees : Agrees new NaiveModel.OrderBook.new where
  inRange order member := by simp [NaiveModel.OrderBook.orders, NaiveModel.OrderBook.new] at member
  orders _ _ := rfl
  arrivals _ _ := rfl
  nextArrival := rfl
  levels side price := by cases side <;> rfl

/-! ## Levels -/

variable {book : OrderBook} {naive : NaiveModel.OrderBook}

theorem findLevel_putLevel (book : OrderBook) (side other : Side) (price at_ : Int)
    (level : PriceLevel) :
    (book.putLevel side price level).findLevel other at_ =
      if other = side ∧ at_ = price then some level else book.findLevel other at_ := by
  cases side <;> cases other <;> simp [putLevel, findLevel, OrderedMap.find?_insert]

theorem findLevel_eraseLevel (book : OrderBook) (side other : Side) (price at_ : Int) :
    (book.eraseLevel side price).findLevel other at_ =
      if other = side ∧ at_ = price then none else book.findLevel other at_ := by
  cases side <;> cases other <;> simp [eraseLevel, findLevel, OrderedMap.find?_erase]

@[simp] theorem putLevel_ordersById (book : OrderBook) (side : Side) (price : Int)
    (level : PriceLevel) : (book.putLevel side price level).ordersById = book.ordersById := by
  cases side <;> rfl

@[simp] theorem putLevel_arrivalSequence (book : OrderBook) (side : Side) (price : Int)
    (level : PriceLevel) :
    (book.putLevel side price level).arrivalSequence = book.arrivalSequence := by
  cases side <;> rfl

@[simp] theorem putLevel_nextArrivalSequence (book : OrderBook) (side : Side) (price : Int)
    (level : PriceLevel) :
    (book.putLevel side price level).nextArrivalSequence = book.nextArrivalSequence := by
  cases side <;> rfl

@[simp] theorem eraseLevel_ordersById (book : OrderBook) (side : Side) (price : Int) :
    (book.eraseLevel side price).ordersById = book.ordersById := by
  cases side <;> rfl

@[simp] theorem eraseLevel_arrivalSequence (book : OrderBook) (side : Side) (price : Int) :
    (book.eraseLevel side price).arrivalSequence = book.arrivalSequence := by
  cases side <;> rfl

@[simp] theorem eraseLevel_nextArrivalSequence (book : OrderBook) (side : Side) (price : Int) :
    (book.eraseLevel side price).nextArrivalSequence = book.nextArrivalSequence := by
  cases side <;> rfl

/-- Levels are looked up in the side maps only. -/
theorem findLevel_congr {left right : OrderBook} (bids : left.bids = right.bids)
    (asks : left.asks = right.asks) (side : Side) (price : Int) :
    left.findLevel side price = right.findLevel side price := by
  cases side
  · exact congrArg (·.find? (OrderDual.toDual price)) bids
  · exact congrArg (·.find? price) asks

theorem dropFromLevel_ordersById (book : OrderBook) (order : Order) (orderId : Int) :
    (book.dropFromLevel order orderId).ordersById = book.ordersById := by
  unfold dropFromLevel
  split
  · rfl
  · split <;> simp

theorem dropFromLevel_arrivalSequence (book : OrderBook) (order : Order) (orderId : Int) :
    (book.dropFromLevel order orderId).arrivalSequence = book.arrivalSequence := by
  unfold dropFromLevel
  split
  · rfl
  · split <;> simp

theorem dropFromLevel_nextArrivalSequence (book : OrderBook) (order : Order) (orderId : Int) :
    (book.dropFromLevel order orderId).nextArrivalSequence = book.nextArrivalSequence := by
  unfold dropFromLevel
  split
  · rfl
  · split <;> simp

/-! ## Insertion -/

theorem addOrder_agrees (agrees : book.Agrees naive) (shaped : naive.Shaped)
    {order : NaiveModel.Order} (range : InRange order.orderId)
    (room : (naive.nextArrivalSequence : Int) + 1 < 256 ^ 8) {after : NaiveModel.OrderBook}
    (inserted : naive.insertOrder order = .ok after) :
    ∃ next, book.addOrder ⟨toLong order.orderId, toLong order.userId, order.symbol, order.side,
        order.price, order.quantity, order.createdAt, order.quantity⟩ = .ok next ∧
      next.Agrees after := by
  unfold NaiveModel.OrderBook.insertOrder at inserted
  cases present : naive.ordersById.contains order.orderId with
  | true => simp [present] at inserted
  | false =>
      have fresh := Dict.contains_eq_false_iff.mp present
      have unseen := shaped.unsequenced order.orderId fresh
      simp only [present, Bool.false_eq_true, if_false, Fault.bind_eq_ok] at inserted
      obtain ⟨level, levelFound, same⟩ := inserted
      cases same
      have absent : book.ordersById.find? (toLong order.orderId) = none := by
        rw [agrees.orders _ range, fresh]
        rfl
      have unarrived : book.arrivalSequence.find? (toLong order.orderId) = none := by
        rw [agrees.arrivals _ range, unseen]
        rfl
      have ownLevel : book.levelFor order.side order.price = .ok (mirrorLevel level) := by
        unfold NaiveModel.OrderBook.levelFor at levelFound
        rw [levelFor, agrees.levels]
        cases found : (naive.sideMap order.side).get? order.price with
        | some old =>
            rw [found] at levelFound
            cases levelFound
            rfl
        | none =>
            rw [found] at levelFound
            have built : NaiveModel.PriceLevel.new order.price = .ok level := levelFound
            unfold NaiveModel.PriceLevel.new at built
            simp only [Option.map_none, PriceLevel.new]
            split at built
            · cases built
            · rename_i positive
              cases built
              rw [if_neg positive]
              rfl
      refine ⟨_, by
        simp only [addOrder, absent, Option.isSome_none, Bool.false_eq_true, if_false, ownLevel]
        rfl, ?_⟩
      constructor
      · intro other member
        rw [NaiveModel.OrderBook.orders, NaiveModel.OrderBook.setSideMap_ordersById,
          Dict.values_set_fresh _ _ fresh] at member
        cases List.mem_append.mp member with
        | inl old => exact agrees.inRange other old
        | inr new => exact List.mem_singleton.mp new ▸ range
      · intro orderId inRange
        rw [putLevel_ordersById, OrderedMap.emplace_of_absent absent, OrderedMap.find?_insert,
          NaiveModel.OrderBook.setSideMap_ordersById, Dict.get?_set]
        by_cases same : orderId = order.orderId
        · rw [same, if_pos rfl, if_pos rfl]
          simp [mirror, NaiveModel.OrderBook.remainingQuantity]
        · rw [if_neg (fun equal => same ((toLong_inj inRange range).mp equal)), if_neg same,
            agrees.orders orderId inRange]
          cases found : naive.ordersById.get? orderId with
          | none => rfl
          | some other =>
              have otherId := shaped.keyed orderId other found
              have different : other.orderId ≠ order.orderId := otherId ▸ same
              simp [mirror, NaiveModel.OrderBook.remainingQuantity,
                Dict.getD_set_of_ne _ _ _ different]
      · intro orderId inRange
        rw [putLevel_arrivalSequence, OrderedMap.emplace_of_absent unarrived,
          OrderedMap.find?_insert, NaiveModel.OrderBook.setSideMap_arrivalSequence, Dict.get?_set]
        by_cases same : orderId = order.orderId
        · rw [same, if_pos rfl, if_pos rfl, agrees.nextArrival]
          rfl
        · rw [if_neg (fun equal => same ((toLong_inj inRange range).mp equal)), if_neg same,
            agrees.arrivals orderId inRange]
      · rw [putLevel_nextArrivalSequence, NaiveModel.OrderBook.setSideMap_nextArrivalSequence]
        show (book.nextArrivalSequence + 1) % 256 ^ 8 = _
        rw [agrees.nextArrival, Int.emod_eq_of_lt (by omega) room]
        rfl
      · intro side price
        rw [findLevel_putLevel]
        by_cases sameSide : side = order.side
        · subst sameSide
          rw [NaiveModel.OrderBook.sideMap_setSideMap, Dict.get?_set]
          by_cases samePrice : price = order.price
          · rw [if_pos ⟨rfl, samePrice⟩, if_pos samePrice]
            simp [mirrorLevel, PriceLevel.appendOrderId, NaiveModel.PriceLevel.append]
          · rw [if_neg (fun both => samePrice both.2), if_neg samePrice]
            exact (findLevel_congr rfl rfl _ _).trans (agrees.levels _ _)
        · rw [if_neg (fun both => sameSide both.1),
            NaiveModel.OrderBook.sideMap_setSideMap_of_ne _ _ sameSide]
          refine ((findLevel_congr rfl rfl _ _).trans (agrees.levels _ _)).trans ?_
          cases side <;> rfl

/-! ## Removal -/

/-- Orders of the naive book share ids only with themselves, in either width. -/
theorem Agrees.eq_of_toLong (agrees : book.Agrees naive) (shaped : naive.Shaped)
    {left right : NaiveModel.Order} (leftMember : left ∈ naive.orders)
    (rightMember : right ∈ naive.orders) (same : toLong left.orderId = toLong right.orderId) :
    left = right :=
  shaped.eq_of_orderId leftMember rightMember
    ((toLong_inj (agrees.inRange left leftMember) (agrees.inRange right rightMember)).mp same)

/-- Dropping an order from its level, seen through the ids. -/
theorem Agrees.erase_ids (agrees : book.Agrees naive) (shaped : naive.Shaped)
    {order : NaiveModel.Order} {orders : List NaiveModel.Order}
    (within : ∀ other ∈ orders, other ∈ naive.orders) (unique : orders.Nodup)
    (member : order ∈ naive.orders) :
    (orders.map fun other => toLong other.orderId).erase (toLong order.orderId) =
      (orders.erase order).map fun other => toLong other.orderId := by
  have uniqueIds : (orders.map fun other => toLong other.orderId).Nodup := by
    refine (List.nodup_map_iff_inj_on unique).mpr ?_
    intro left leftMember right rightMember same
    exact agrees.eq_of_toLong shaped (within left leftMember) (within right rightMember) same
  rw [uniqueIds.erase_eq_filter, unique.erase_eq_filter, List.filter_map]
  congr 1
  apply List.filter_congr
  intro other otherMember
  have agree : toLong other.orderId = toLong order.orderId ↔ other = order :=
    ⟨agrees.eq_of_toLong shaped (within other otherMember) member, fun same => same ▸ rfl⟩
  rw [Bool.eq_iff_iff]
  simp [agree]

theorem removeOrder_agrees (agrees : book.Agrees naive) (shaped : naive.Shaped) {orderId : Int}
    (range : InRange orderId) {after : NaiveModel.OrderBook} {removed : Option NaiveModel.Order}
    (done : naive.removeOrder orderId = .ok (after, removed)) :
    (book.removeOrder (toLong orderId)).1.Agrees after ∧
      (book.removeOrder (toLong orderId)).2 = removed.map (mirror naive) := by
  have present := agrees.orders orderId range
  cases found : naive.ordersById.get? orderId with
  | none =>
      rw [NaiveModel.OrderBook.removeOrder_absent found] at done
      cases done
      rw [found] at present
      simp only [removeOrder, present, Option.map_none]
      exact ⟨agrees, trivial⟩
  | some order =>
      rw [found] at present
      have sameId := shaped.keyed orderId order found
      have member := NaiveModel.OrderBook.mem_orders_of_get? found
      obtain ⟨other, removedOk, afterShaped, afterOrders, afterRemaining⟩ :=
        NaiveModel.OrderBook.removeOrder_ok shaped member
      rw [sameId, done] at removedOk
      cases removedOk
      obtain ⟨sameArrivals, sameNext, -⟩ :=
        NaiveModel.OrderBook.removeOrder_cells shaped done
      have kept : ∀ other, other ∈ after.orders ↔
          other ∈ naive.orders ∧ other.orderId ≠ orderId := by
        intro other
        rw [afterOrders, List.mem_filter, decide_eq_true_iff, sameId]
      have queues : ∀ side price, after.queue side price = (naive.queue side price).erase order := by
        intro side price
        rw [shaped.erase_queue member, ← afterOrders]
        rfl
      have uniqueQueue : (naive.queue order.side order.price).Nodup :=
        (shaped.ascending.imp fun before same => before.ne (congrArg _ same)).filter _
      have ownLevel : book.findLevel order.side order.price =
          some ⟨order.price, (naive.queue order.side order.price).map fun other =>
            toLong other.orderId⟩ := by
        rw [agrees.levels, shaped.levels, NaiveModel.OrderBook.levelOf_of_mem
          (NaiveModel.OrderBook.mem_queue.mpr ⟨member, rfl, rfl⟩)]
        rfl
      have shorter : (PriceLevel.mk order.price ((naive.queue order.side order.price).map
          fun other => toLong other.orderId)).removeOrderId (toLong orderId) =
          ⟨order.price, (after.queue order.side order.price).map fun other =>
            toLong other.orderId⟩ := by
        have erased := agrees.erase_ids shaped
          (fun other queued => (NaiveModel.OrderBook.mem_queue.mp queued).1) uniqueQueue member
        rw [queues, ← erased, sameId]
        rfl
      have levels : ∀ side price, (book.dropFromLevel (mirror naive order) (toLong orderId)).findLevel
          side price = ((after.sideMap side).get? price).map mirrorLevel := by
        intro side price
        rw [afterShaped.levels]
        unfold dropFromLevel
        simp only [mirror, ownLevel, shorter]
        by_cases here : side = order.side ∧ price = order.price
        · obtain ⟨rfl, rfl⟩ := here
          cases left : after.queue order.side order.price with
          | nil =>
              simp only [PriceLevel.empty, List.map_nil, List.isEmpty_nil, if_true,
                findLevel_eraseLevel, and_self]
              rfl
          | cons head rest =>
              simp only [PriceLevel.empty, List.map_cons, List.isEmpty_cons, Bool.false_eq_true,
                if_false, findLevel_putLevel, and_self, if_true]
              simp [NaiveModel.OrderBook.levelOf, mirrorLevel]
        · have elsewhere : order ∉ naive.queue side price := by
            intro queued
            obtain ⟨-, sameSide, samePrice⟩ := NaiveModel.OrderBook.mem_queue.mp queued
            exact here ⟨sameSide.symm, samePrice.symm⟩
          have unchanged : book.findLevel side price =
              (NaiveModel.OrderBook.levelOf price (after.queue side price)).map mirrorLevel := by
            rw [agrees.levels, shaped.levels, queues, List.erase_of_not_mem elsewhere]
          split
          · rw [findLevel_eraseLevel, if_neg here, unchanged]
          · rw [findLevel_putLevel, if_neg here, unchanged]
      simp only [removeOrder, present, Option.map_some, and_true]
      constructor
      · exact fun other otherMember => agrees.inRange other ((kept other).mp otherMember).1
      · intro id inRange
        show ((book.dropFromLevel _ _).ordersById.erase _).find? _ = _
        rw [dropFromLevel_ordersById, OrderedMap.find?_erase]
        by_cases same : id = orderId
        · rw [if_pos (congrArg toLong same)]
          cases stale : after.ordersById.get? id with
          | none => rfl
          | some other =>
              obtain ⟨stays, otherId⟩ := afterShaped.get?_eq_some_iff.mp stale
              exact absurd (otherId.trans same) ((kept other).mp stays).2
        · rw [if_neg (fun equal => same ((toLong_inj inRange range).mp equal)),
            agrees.orders id inRange]
          cases stays : naive.ordersById.get? id with
          | none =>
              cases stale : after.ordersById.get? id with
              | none => rfl
              | some other =>
                  obtain ⟨otherMember, otherId⟩ := afterShaped.get?_eq_some_iff.mp stale
                  rw [shaped.get?_eq_some_iff.mpr ⟨((kept other).mp otherMember).1, otherId⟩]
                    at stays
                  cases stays
          | some other =>
              obtain ⟨otherMember, otherId⟩ := shaped.get?_eq_some_iff.mp stays
              rw [afterShaped.get?_eq_some_iff.mpr
                ⟨(kept other).mpr ⟨otherMember, otherId ▸ same⟩, otherId⟩]
              simp only [Option.map_some, mirror, NaiveModel.OrderBook.remainingQuantity,
                afterRemaining]
      · intro id inRange
        show ((book.dropFromLevel _ _).arrivalSequence.erase _).find? _ = _
        rw [dropFromLevel_arrivalSequence, OrderedMap.find?_erase, sameArrivals, Dict.get?_erase]
        by_cases same : id = orderId
        · rw [if_pos (congrArg toLong same), if_pos same]
          rfl
        · rw [if_neg (fun equal => same ((toLong_inj inRange range).mp equal)), if_neg same,
            agrees.arrivals id inRange]
      · show (book.dropFromLevel _ _).nextArrivalSequence = _
        rw [dropFromLevel_nextArrivalSequence, sameNext, agrees.nextArrival]
      · intro side price
        exact (findLevel_congr rfl rfl _ _).trans (levels side price)

/-! ## One trade -/

theorem Agrees.find?_order (agrees : book.Agrees naive) (shaped : naive.Shaped)
    {order : NaiveModel.Order} (member : order ∈ naive.orders) :
    book.ordersById.find? (toLong order.orderId) = some (mirror naive order) := by
  rw [agrees.orders _ (agrees.inRange order member), shaped.get?_of_mem member]
  rfl

theorem reduceOrder_agrees (agrees : book.Agrees naive) (shaped : naive.Shaped)
    {order : NaiveModel.Order} (member : order ∈ naive.orders) {qty : Int}
    {after : NaiveModel.OrderBook} (reduced : naive.reduceOrder order qty = .ok after) :
    ∃ next, book.reduceOrder (mirror naive order) qty = .ok next ∧ next.Agrees after ∧
      after.Shaped ∧ after.orders = naive.orders ∧
      (∀ other, other.orderId ≠ order.orderId →
        after.remainingQuantity other = naive.remainingQuantity other) := by
  unfold NaiveModel.OrderBook.reduceOrder at reduced
  split at reduced
  · cases reduced
  · rename_i positive
    split at reduced
    · cases reduced
    · rename_i within
      cases reduced
      have untouched : ∀ other : NaiveModel.Order, other.orderId ≠ order.orderId →
          NaiveModel.OrderBook.remainingQuantity { naive with
            remaining := naive.remaining.set order.orderId
              (naive.remainingQuantity order - qty) } other = naive.remainingQuantity other := by
        intro other different
        rw [NaiveModel.OrderBook.remainingQuantity_set, if_neg different]
      have shortened : (mirror naive order).reduce qty = .ok { mirror naive order with
          remainingQuantity := naive.remainingQuantity order - qty } := by
        have enough : ¬ qty > (mirror naive order).remainingQuantity := within
        rw [Order.reduce, if_neg positive, if_neg enough]
        rfl
      refine ⟨_, by
        simp only [reduceOrder, shortened, Fault.ok_bind]
        rfl, ?_, shaped.setRemaining _ _, rfl, untouched⟩
      constructor
      · exact agrees.inRange
      · intro orderId inRange
        rw [OrderedMap.find?_insert, show (mirror naive order).orderId = toLong order.orderId from rfl]
        by_cases same : orderId = order.orderId
        · rw [if_pos (congrArg toLong same), same]
          show _ = (naive.ordersById.get? order.orderId).map _
          rw [shaped.get?_of_mem member]
          simp [mirror, NaiveModel.OrderBook.remainingQuantity]
        · have different := fun equal => same ((toLong_inj inRange (agrees.inRange order member)).mp
            equal)
          rw [if_neg different, agrees.orders orderId inRange]
          cases found : naive.ordersById.get? orderId with
          | none => rfl
          | some other =>
              have otherId := shaped.keyed orderId other found
              rw [Option.map_some, Option.map_some, mirror, mirror,
                untouched other (otherId ▸ same)]
      · exact agrees.arrivals
      · exact agrees.nextArrival
      · intro side price
        refine ((findLevel_congr rfl rfl side price).trans (agrees.levels side price)).trans ?_
        cases side <;> rfl

theorem removeIfExhausted_agrees (agrees : book.Agrees naive) (shaped : naive.Shaped)
    {order : NaiveModel.Order} (member : order ∈ naive.orders) {after : NaiveModel.OrderBook}
    (done : naive.removeIfExhausted order = .ok after) :
    (book.removeIfExhausted (toLong order.orderId)).Agrees after := by
  unfold NaiveModel.OrderBook.removeIfExhausted at done
  unfold removeIfExhausted
  rw [agrees.find?_order shaped member]
  by_cases exhausted : naive.remainingQuantity order = 0
  · rw [if_pos exhausted] at done
    have mirrored : (mirror naive order).remainingQuantity = 0 := exhausted
    simp only [if_pos mirrored]
    cases removal : naive.removeOrder order.orderId with
    | error fault =>
        rw [removal] at done
        cases done
    | ok result =>
        rw [removal] at done
        cases done
        exact (removeOrder_agrees agrees shaped (agrees.inRange order member) removal).1
  · rw [if_neg exhausted] at done
    cases done
    have mirrored : ¬ (mirror naive order).remainingQuantity = 0 := exhausted
    simp only [if_neg mirrored]
    exact agrees

theorem tradeTop_agrees (agrees : book.Agrees naive) (shaped : naive.Shaped)
    {bid ask : NaiveModel.Order} (bidMember : bid ∈ naive.orders) (askMember : ask ∈ naive.orders)
    (different : bid.orderId ≠ ask.orderId) {after : NaiveModel.OrderBook} {fill : NaiveModel.Fill}
    (traded : naive.tradeTop bid ask = .ok (after, fill)) :
    ∃ next, book.tradeTop (mirror naive bid) (mirror naive ask) = .ok (next, mirrorFill fill) ∧
      next.Agrees after := by
  unfold NaiveModel.OrderBook.tradeTop at traded
  simp only [Fault.bind_eq_ok] at traded
  obtain ⟨bidArrival, bidFound, askArrival, askFound, made, fillMade, once, bidReduced, twice,
    askReduced, third, bidRemoved, fourth, askRemoved, same⟩ := traded
  cases same
  generalize qty : min (naive.remainingQuantity bid) (naive.remainingQuantity ask) = tradeQty at *
  have bidSequence : book.arrivalSequence.find? (toLong bid.orderId) = some (bidArrival : Int) := by
    rw [agrees.arrivals _ (agrees.inRange bid bidMember)]
    cases found : naive.arrivalSequence.get? bid.orderId with
    | none =>
        rw [found] at bidFound
        cases bidFound
    | some arrival =>
        rw [found] at bidFound
        cases bidFound
        rfl
  have askSequence : book.arrivalSequence.find? (toLong ask.orderId) = some (askArrival : Int) := by
    rw [agrees.arrivals _ (agrees.inRange ask askMember)]
    cases found : naive.arrivalSequence.get? ask.orderId with
    | none =>
        rw [found] at askFound
        cases askFound
    | some arrival =>
        rw [found] at askFound
        cases askFound
        rfl
  obtain ⟨first, firstReduced, firstAgrees, onceShaped, onceOrders, onceKept⟩ :=
    reduceOrder_agrees agrees shaped bidMember bidReduced
  have askSame : mirror naive ask = mirror once ask := by
    rw [mirror, mirror, onceKept ask (Ne.symm different)]
  obtain ⟨second, secondReduced, secondAgrees, twiceShaped, twiceOrders, -⟩ :=
    reduceOrder_agrees firstAgrees onceShaped (onceOrders ▸ askMember) askReduced
  have bidStays : bid ∈ twice.orders := by
    rw [twiceOrders, onceOrders]
    exact bidMember
  have thirdAgrees := removeIfExhausted_agrees secondAgrees twiceShaped bidStays bidRemoved
  obtain ⟨thirdSame, thirdRemoved, thirdShaped, thirdOrders, -⟩ :=
    NaiveModel.OrderBook.removeIfExhausted_ok twiceShaped bidStays
  cases thirdRemoved.symm.trans bidRemoved
  have askStays : ask ∈ third.orders := by
    rw [thirdOrders, List.mem_filter, twiceOrders, onceOrders]
    exact ⟨askMember, by simp [Ne.symm different]⟩
  have fourthAgrees := removeIfExhausted_agrees thirdAgrees thirdShaped askStays askRemoved
  unfold NaiveModel.Fill.new at fillMade
  split at fillMade
  · cases fillMade
  · cases fillMade
    refine ⟨_, ?_, fourthAgrees⟩
    have quantity : min (mirror naive bid).remainingQuantity (mirror naive ask).remainingQuantity =
        tradeQty := qty
    simp only [tradeTop, quantity]
    rw [show (mirror naive bid).orderId = toLong bid.orderId from rfl,
      show (mirror naive ask).orderId = toLong ask.orderId from rfl, bidSequence, askSequence]
    simp only [orMissing_some, Fault.ok_bind, firstReduced, askSame, secondReduced]
    simp only [mirror, mirrorFill, Int.ofNat_lt]
    split <;> rfl

/-! ## The matching loop -/

theorem Agrees.mem_keys (agrees : book.Agrees naive) (side : Side) {price : Int} :
    price ∈ (naive.sideMap side).keys ↔ (book.findLevel side price).isSome := by
  rw [agrees.levels, Option.isSome_map, Option.isSome_iff_exists, Dict.mem_keys_iff]

theorem bestBid_agrees (agrees : book.Agrees naive) : book.bestBid = naive.bestBid := by
  unfold bestBid NaiveModel.OrderBook.bestBid
  cases first : book.bids.first? with
  | none =>
      have nothing : naive.bids.keys = [] := by
        apply List.eq_nil_iff_forall_not_mem.mpr
        intro price member
        have present := (agrees.mem_keys .buy).mp member
        rw [findLevel, OrderedMap.first?_eq_none first] at present
        cases present
      rw [nothing]
      rfl
  | some entry =>
      obtain ⟨present, least⟩ := OrderedMap.first?_eq_some first
      symm
      rw [Option.map_some, List.max?_eq_some_iff]
      constructor
      · refine (agrees.mem_keys .buy).mpr ?_
        rw [findLevel, OrderDual.toDual_ofDual, present]
        rfl
      · intro price member
        exact least (OrderDual.toDual price) ((agrees.mem_keys .buy).mp member)

theorem bestAsk_agrees (agrees : book.Agrees naive) : book.bestAsk = naive.bestAsk := by
  unfold bestAsk NaiveModel.OrderBook.bestAsk
  cases first : book.asks.first? with
  | none =>
      have nothing : naive.asks.keys = [] := by
        apply List.eq_nil_iff_forall_not_mem.mpr
        intro price member
        have present := (agrees.mem_keys .sell).mp member
        rw [findLevel, OrderedMap.first?_eq_none first] at present
        cases present
      rw [nothing]
      rfl
  | some entry =>
      obtain ⟨present, least⟩ := OrderedMap.first?_eq_some first
      symm
      rw [Option.map_some, List.min?_eq_some_iff]
      constructor
      · refine (agrees.mem_keys .sell).mpr ?_
        rw [findLevel, present]
        rfl
      · intro price member
        exact least price ((agrees.mem_keys .sell).mp member)

/-- Both books find the same order at the front of a level. -/
theorem frontOrder_agrees (agrees : book.Agrees naive) (shaped : naive.Shaped) (side : Side)
    {price : Int} (member : price ∈ (naive.sideMap side).keys) :
    ∃ order ∈ naive.orders, order.side = side ∧
      ((naive.sideMap side).get? price).bind (·.first) = some order ∧
      book.frontOrder side price = some (mirror naive order) := by
  obtain ⟨level, found⟩ := Dict.mem_keys_iff.mp member
  have shape := shaped.levels side price
  rw [found] at shape
  obtain ⟨rfl, occupied⟩ := NaiveModel.OrderBook.levelOf_eq_some shape.symm
  obtain ⟨order, rest, queue⟩ := List.exists_cons_of_ne_nil occupied
  have queued : order ∈ naive.queue side price := queue ▸ List.mem_cons_self
  obtain ⟨orderMember, sameSide, -⟩ := NaiveModel.OrderBook.mem_queue.mp queued
  refine ⟨order, orderMember, sameSide, ?_, ?_⟩
  · rw [found, queue]
    rfl
  · rw [frontOrder, agrees.levels, found, queue]
    exact agrees.find?_order shaped orderMember

theorem matchLoop_agrees (rounds : Nat) :
    ∀ {book : OrderBook} {naive : NaiveModel.OrderBook} {fills : List NaiveModel.Fill},
      book.Agrees naive → naive.Shaped → WellFormed naive.resting →
      ∀ {after : NaiveModel.OrderBook} {reported : List NaiveModel.Fill},
        naive.matchLoop rounds fills = .ok (after, reported) →
        ∃ next, book.matchLoop rounds (fills.map mirrorFill) =
          .ok (next, reported.map mirrorFill) ∧ next.Agrees after := by
  induction rounds with
  | zero =>
      intro book naive fills agrees shaped valid after reported finished
      cases finished
  | succ rounds ih =>
      intro book naive fills agrees shaped valid after reported finished
      unfold NaiveModel.OrderBook.matchLoop at finished
      unfold matchLoop
      rw [bestBid_agrees agrees, bestAsk_agrees agrees]
      cases bidBest : naive.bestBid with
      | none =>
          rw [bidBest] at finished
          cases finished
          exact ⟨book, rfl, agrees⟩
      | some bidPrice =>
          cases askBest : naive.bestAsk with
          | none =>
              rw [bidBest, askBest] at finished
              cases finished
              exact ⟨book, rfl, agrees⟩
          | some askPrice =>
              obtain ⟨bid, bidMember, buys, bidFront, bidFound⟩ := frontOrder_agrees agrees shaped
                .buy (List.max?_eq_some_iff.mp bidBest).1
              obtain ⟨ask, askMember, sells, askFront, askFound⟩ := frontOrder_agrees agrees shaped
                .sell (List.min?_eq_some_iff.mp askBest).1
              have bidOrder : naive.bestBidOrder = some bid := by
                rw [NaiveModel.OrderBook.bestBidOrder, bidBest]
                exact bidFront
              have askOrder : naive.bestAskOrder = some ask := by
                rw [NaiveModel.OrderBook.bestAskOrder, askBest]
                exact askFront
              simp only [bidBest, askBest, bidOrder, askOrder] at finished
              simp only [bidFound, askFound]
              by_cases apart : bidPrice < askPrice
              · rw [if_pos apart] at finished ⊢
                cases finished
                exact ⟨book, rfl, agrees⟩
              · rw [if_neg apart] at finished ⊢
                have different : bid.orderId ≠ ask.orderId := by
                  intro same
                  rw [shaped.eq_of_orderId bidMember askMember same, sells] at buys
                  cases buys
                have bidLive := valid.positive _ (NaiveModel.OrderBook.mem_resting.mpr
                  ⟨bid, bidMember, rfl⟩)
                have askLive := valid.positive _ (NaiveModel.OrderBook.mem_resting.mpr
                  ⟨ask, askMember, rfl⟩)
                obtain ⟨middle, traded, middleShaped, middleResting, -⟩ :=
                  NaiveModel.OrderBook.tradeTop_ok shaped bidMember askMember different bidLive
                    askLive
                obtain ⟨next, nextTraded, nextAgrees⟩ :=
                  tradeTop_agrees agrees shaped bidMember askMember different traded
                simp only [traded, Fault.ok_bind] at finished
                simp only [nextTraded, Fault.ok_bind]
                have middleValid : WellFormed middle.resting := by
                  rw [middleResting]
                  exact (valid.reduce _).reduce _
                obtain ⟨last, lastFinished, lastAgrees⟩ :=
                  ih nextAgrees middleShaped middleValid finished
                refine ⟨last, ?_, lastAgrees⟩
                rw [← lastFinished, List.map_append]
                rfl

/-- The C++ book has room for every naive order. -/
theorem Agrees.orders_length_le (agrees : book.Agrees naive) (shaped : naive.Shaped) :
    naive.orders.length ≤ book.ordersById.size := by
  have unique : (naive.orders.map fun order => toLong order.orderId).Nodup := by
    have nodup : naive.orders.Nodup :=
      shaped.ascending.imp fun before same => before.ne (congrArg _ same)
    refine (List.nodup_map_iff_inj_on nodup).mpr ?_
    intro left leftMember right rightMember same
    exact agrees.eq_of_toLong shaped leftMember rightMember same
  have within : (naive.orders.map fun order => toLong order.orderId) ⊆
      book.ordersById.entries.map Prod.fst := by
    intro orderId member
    obtain ⟨order, orderMember, rfl⟩ := List.mem_map.mp member
    exact List.mem_map_of_mem (OrderedMap.find?_eq_some_iff.mp
      (agrees.find?_order shaped orderMember))
  simpa [OrderedMap.size] using (List.Nodup.subperm unique within).length_le

end OrderBook

end QuantArena.Engine.Cpp
