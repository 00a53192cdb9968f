import QuantArena.Engine.NaiveModelProperties

/-! The matching loop of the naive book, run on a book that was uncrossed before
its newest order arrived, performs exactly that order's price-time execution. -/

set_option autoImplicit false

namespace QuantArena.Engine.NaiveModel

open Foundations Foundations.PriceTime

namespace OrderBook

variable {book : OrderBook}

/-! ## One trade -/

theorem Shaped.arrival_lt_iff (shaped : book.Shaped) {left right : Order} {early late : Nat}
    (leftMember : left ∈ book.orders) (rightMember : right ∈ book.orders)
    (different : left.orderId ≠ right.orderId)
    (foundLeft : book.arrivalSequence.get? left.orderId = some early)
    (foundRight : book.arrivalSequence.get? right.orderId = some late) :
    early < late ↔ left.orderId < right.orderId := by
  let Later : Order → Order → Prop := fun left right => left.orderId < right.orderId ∧
    ∀ early late, book.arrivalSequence.get? left.orderId = some early →
      book.arrivalSequence.get? right.orderId = some late → early < late
  have both : book.orders.Pairwise Later := shaped.ascending.and shaped.arrival
  have apart : left.orderId ≠ right.orderId → Later left right ∨ Later right left :=
    List.Pairwise.forall_of_forall_of_flip (R := fun left right =>
        left.orderId ≠ right.orderId → Later left right ∨ Later right left)
      (fun order _ same => absurd rfl same)
      (both.imp fun later _ => .inl later) (both.imp fun later _ => .inr later)
      leftMember rightMember
  rcases apart different with ⟨below, sooner⟩ | ⟨above, later⟩
  · exact ⟨fun _ => below, fun _ => sooner early late foundLeft foundRight⟩
  · have after := later late early foundRight foundLeft
    exact ⟨fun before => absurd before after.asymm, fun before => absurd before above.asymm⟩

theorem remainingQuantity_set (order other : Order) (value : Int) (book : OrderBook) :
    remainingQuantity { book with remaining := book.remaining.set order.orderId value } other =
      if other.orderId = order.orderId then value else book.remainingQuantity other := by
  simp only [remainingQuantity, Dict.getD_set]

theorem removeIfExhausted_ok (shaped : book.Shaped) {order : Order}
    (member : order ∈ book.orders) :
    ∃ after, book.removeIfExhausted order = .ok after ∧ after.Shaped ∧
      after.orders = (book.orders.filter fun other =>
        ¬ (other.orderId = order.orderId ∧ book.remainingQuantity order = 0)) ∧
      after.remaining = book.remaining := by
  by_cases exhausted : book.remainingQuantity order = 0
  · obtain ⟨after, removed, afterShaped, kept, same⟩ := removeOrder_ok shaped member
    refine ⟨after, by
      rw [removeIfExhausted, if_pos exhausted, removed]
      rfl, afterShaped, ?_, same⟩
    simpa [exhausted] using kept
  · refine ⟨book, by rw [removeIfExhausted, if_neg exhausted], shaped, ?_, rfl⟩
    simp [exhausted]

/-- One round trades the smaller remainder at the older order's price. -/
theorem tradeTop_ok (shaped : book.Shaped) {bid ask : Order} (bidMember : bid ∈ book.orders)
    (askMember : ask ∈ book.orders) (different : bid.orderId ≠ ask.orderId)
    (bidLive : 0 < book.remainingQuantity bid) (askLive : 0 < book.remainingQuantity ask) :
    ∃ after, book.tradeTop bid ask = .ok (after, ⟨bid.orderId, ask.orderId, ask.symbol,
        (if bid.orderId < ask.orderId then bid else ask).price,
        min (book.remainingQuantity bid) (book.remainingQuantity ask)⟩) ∧ after.Shaped ∧
      after.resting = reduce ask.orderId (min (book.remainingQuantity bid)
          (book.remainingQuantity ask)) (reduce bid.orderId (min (book.remainingQuantity bid)
            (book.remainingQuantity ask)) book.resting) ∧
      (∀ order ∈ after.orders, order ∈ book.orders) ∧
      ∀ orderId value, book.remaining.get? orderId = some value →
        after.remaining.get? orderId = some (value -
          if orderId = bid.orderId ∨ orderId = ask.orderId then
            min (book.remainingQuantity bid) (book.remainingQuantity ask) else 0) := by
  obtain ⟨bidArrival, bidFound, _⟩ := shaped.arrived bid bidMember
  obtain ⟨askArrival, askFound, _⟩ := shaped.arrived ask askMember
  have maker := shaped.arrival_lt_iff bidMember askMember different bidFound askFound
  generalize quantity : min (book.remainingQuantity bid) (book.remainingQuantity ask) = qty
  have positive : 0 < qty := by omega
  have withinBid : qty ≤ book.remainingQuantity bid := by omega
  have withinAsk : qty ≤ book.remainingQuantity ask := by omega
  -- The two reductions, then the two removals.
  let once : OrderBook := { book with
    remaining := book.remaining.set bid.orderId (book.remainingQuantity bid - qty) }
  have askKept : once.remainingQuantity ask = book.remainingQuantity ask := by
    rw [remainingQuantity_set, if_neg (Ne.symm different)]
  let twice : OrderBook := { once with
    remaining := once.remaining.set ask.orderId (once.remainingQuantity ask - qty) }
  have left : ∀ order, twice.remainingQuantity order =
      if order.orderId = ask.orderId then book.remainingQuantity ask - qty
      else if order.orderId = bid.orderId then book.remainingQuantity bid - qty
      else book.remainingQuantity order := by
    intro order
    rw [remainingQuantity_set ask order _ once, askKept, remainingQuantity_set]
  have twiceShaped : twice.Shaped := (shaped.setRemaining _ _).setRemaining _ _
  obtain ⟨third, bidRemoved, thirdShaped, thirdOrders, thirdRemaining⟩ :=
    removeIfExhausted_ok twiceShaped (show bid ∈ twice.orders from bidMember)
  have bidLeft : twice.remainingQuantity bid = book.remainingQuantity bid - qty := by
    rw [left, if_neg different, if_pos rfl]
  have askLeft : third.remainingQuantity ask = book.remainingQuantity ask - qty := by
    rw [remainingQuantity, thirdRemaining, ← remainingQuantity, left, if_pos rfl]
  have askStays : ask ∈ third.orders := by
    rw [thirdOrders, List.mem_filter]
    exact ⟨askMember, by simp [Ne.symm different]⟩
  obtain ⟨fourth, askRemoved, fourthShaped, fourthOrders, fourthRemaining⟩ :=
    removeIfExhausted_ok thirdShaped askStays
  have finalLeft : ∀ order, fourth.remainingQuantity order = twice.remainingQuantity order := by
    intro order
    rw [remainingQuantity, fourthRemaining, thirdRemaining, ← remainingQuantity]
  refine ⟨fourth, ?_, fourthShaped, ?_, ?_, ?_⟩
  · have bidReduced : book.reduceOrder bid qty = .ok once := by
      rw [reduceOrder, if_neg (by omega), if_neg (by omega)]
    have askReduced : once.reduceOrder ask qty = .ok twice := by
      rw [reduceOrder, if_neg (by omega), if_neg (by omega)]
    simp only [tradeTop, quantity, bidFound, askFound, orMissing_some, Fault.ok_bind, maker,
      Fill.new, if_neg (show ¬ qty ≤ 0 by omega), bidReduced, askReduced, bidRemoved, askRemoved]
  · rw [resting, fourthOrders, thirdOrders, List.filter_filter, resting]
    change List.map _ (book.orders.filter _) = _
    rw [← List.filterMap_eq_map, List.filterMap_filter, reduce, reduce, List.filterMap_filterMap,
      List.filterMap_map]
    apply List.filterMap_congr
    intro order member
    rw [bidLeft, askLeft]
    simp only [view, finalLeft, left, Function.comp_apply, reduceOne]
    by_cases isBid : order.orderId = bid.orderId
    · cases shaped.eq_of_orderId member bidMember isBid
      by_cases exhausted : book.remainingQuantity bid ≤ qty
      · have zero : book.remainingQuantity bid - qty = 0 := by omega
        simp [exhausted, zero]
      · have nonzero : book.remainingQuantity bid - qty ≠ 0 := by omega
        simp [reduceOne, different, exhausted, nonzero]
    · by_cases isAsk : order.orderId = ask.orderId
      · cases shaped.eq_of_orderId member askMember isAsk
        by_cases exhausted : book.remainingQuantity ask ≤ qty
        · have zero : book.remainingQuantity ask - qty = 0 := by omega
          simp [reduceOne, isBid, exhausted, zero]
        · have nonzero : book.remainingQuantity ask - qty ≠ 0 := by omega
          simp [reduceOne, isBid, exhausted, nonzero]
      · simp [isBid, isAsk, reduceOne]
  · intro order member
    rw [fourthOrders] at member
    have kept := List.mem_of_mem_filter member
    rw [thirdOrders] at kept
    exact List.mem_of_mem_filter kept
  · intro orderId value held
    rw [fourthRemaining, thirdRemaining]
    simp only [twice, once, Dict.get?_set]
    by_cases isAsk : orderId = ask.orderId
    · rw [isAsk, shaped.get?_remaining askMember] at held
      cases held
      simp [isAsk, askKept, once]
    · by_cases isBid : orderId = bid.orderId
      · rw [isBid, shaped.get?_remaining bidMember] at held
        cases held
        simp [isBid, different]
      · simp [isAsk, isBid, held]

/-! ## The best orders -/

theorem mem_resting {order : Resting Int Int Unit} :
    order ∈ book.resting ↔ ∃ held ∈ book.orders, book.view held = order := List.mem_map

theorem queue_map_view (book : OrderBook) (side : Side) (price : Int) :
    (book.queue side price).map book.view =
      book.resting.filter fun order => order.side = side ∧ order.price = price := by
  rw [queue, resting, List.filter_map]
  rfl

theorem Shaped.mem_keys (shaped : book.Shaped) (side : Side) {price : Int} :
    price ∈ (book.sideMap side).keys ↔
      ∃ order ∈ book.resting, order.side = side ∧ order.price = price := by
  rw [Dict.mem_keys_iff]
  constructor
  · rintro ⟨level, found⟩
    rw [shaped.levels] at found
    obtain ⟨_, occupied⟩ := levelOf_eq_some found
    obtain ⟨order, queued⟩ := List.exists_mem_of_ne_nil _ occupied
    obtain ⟨member, sameSide, samePrice⟩ := mem_queue.mp queued
    exact ⟨book.view order, mem_resting.mpr ⟨order, member, rfl⟩, sameSide, samePrice⟩
  · rintro ⟨order, member, sameSide, samePrice⟩
    obtain ⟨held, heldMember, rfl⟩ := mem_resting.mp member
    exact ⟨_, by
      rw [shaped.levels]
      exact levelOf_of_mem (mem_queue.mpr ⟨heldMember, sameSide, samePrice⟩)⟩

theorem Shaped.bestBid_eq_some (shaped : book.Shaped) {price : Int} :
    book.bestBid = some price ↔
      (∃ order ∈ book.resting, order.side = .buy ∧ order.price = price) ∧
        ∀ order ∈ book.resting, order.side = .buy → order.price ≤ price := by
  rw [bestBid, List.max?_eq_some_iff]
  refine and_congr (shaped.mem_keys .buy) ?_
  constructor
  · intro highest order member buys
    exact highest _ ((shaped.mem_keys .buy).mpr ⟨order, member, buys, rfl⟩)
  · intro highest other member
    obtain ⟨order, orderMember, buys, rfl⟩ := (shaped.mem_keys .buy).mp member
    exact highest order orderMember buys

theorem Shaped.bestAsk_eq_some (shaped : book.Shaped) {price : Int} :
    book.bestAsk = some price ↔
      (∃ order ∈ book.resting, order.side = .sell ∧ order.price = price) ∧
        ∀ order ∈ book.resting, order.side = .sell → price ≤ order.price := by
  rw [bestAsk, List.min?_eq_some_iff]
  refine and_congr (shaped.mem_keys .sell) ?_
  constructor
  · intro lowest order member sells
    exact lowest _ ((shaped.mem_keys .sell).mpr ⟨order, member, sells, rfl⟩)
  · intro lowest other member
    obtain ⟨order, orderMember, sells, rfl⟩ := (shaped.mem_keys .sell).mp member
    exact lowest order orderMember sells

/-- The first order of a level, found by its view. -/
theorem Shaped.first_of_head (shaped : book.Shaped) {side : Side} {price : Int}
    {order : Resting Int Int Unit}
    (head : (book.resting.filter fun order => order.side = side ∧ order.price = price).head? =
      some order) :
    ∃ held ∈ book.orders, book.view held = order ∧ held.price = price ∧
      ((book.sideMap side).get? price).bind (·.first) = some held := by
  rw [← queue_map_view, List.head?_map, Option.map_eq_some_iff] at head
  obtain ⟨held, first, rfl⟩ := head
  have queued := List.mem_of_mem_head? first
  obtain ⟨member, _, samePrice⟩ := mem_queue.mp queued
  refine ⟨held, member, rfl, samePrice, ?_⟩
  rw [shaped.levels, levelOf_of_mem queued]
  exact first

/-- Removal takes the order off the represented list. -/
theorem removeOrder_resting (shaped : book.Shaped) {order : Order} (member : order ∈ book.orders) :
    ∃ after, book.removeOrder order.orderId = .ok (after, some order) ∧ after.Shaped ∧
      after.resting = remove order.orderId book.resting ∧
      (∀ held, held ∈ after.orders ↔ held ∈ book.orders ∧ held.orderId ≠ order.orderId) ∧
      after.remaining = book.remaining := by
  obtain ⟨after, removed, afterShaped, orders, remaining⟩ := removeOrder_ok shaped member
  refine ⟨after, removed, afterShaped, ?_, ?_, remaining⟩
  · rw [resting, orders, remove, resting, List.filter_map]
    have sameView : ∀ held, after.view held = book.view held := by
      intro held
      rw [view, view, remainingQuantity, remainingQuantity, remaining]
    rw [List.map_congr_left fun held _ => sameView held]
    rfl
  · intro held
    rw [orders, List.mem_filter, decide_eq_true_iff]

/-! ## The matching loop -/

/-- The fill is the engine's report of one trade of the given taker. -/
structure Reports (taker : Resting Int Int Unit) (fill : Fill) (trade : Trade Int Int Unit) :
    Prop where
  buyer : fill.buyOrderId = if taker.side = .buy then taker.id else trade.maker.id
  seller : fill.sellOrderId = if taker.side = .buy then trade.maker.id else taker.id
  price : fill.price = trade.maker.price
  quantity : fill.quantity = trade.qty

variable {taker maker final : Resting Int Int Unit} {others left : List (Resting Int Int Unit)}
  {trades : List (Trade Int Int Unit)}

theorem Shaped.resting_ascending (shaped : book.Shaped) :
    book.resting.Pairwise fun left right => left.id < right.id := by
  rw [resting, List.pairwise_map]
  exact shaped.ascending

/-- The two orders the loop picks are the newest order and its best maker. -/
theorem Shaped.top_orders (shaped : book.Shaped) (queued : book.resting = others ++ [taker])
    (quiet : Uncrossed others) (chosen : best taker others = some maker) :
    ∃ bid ∈ book.orders, ∃ ask ∈ book.orders,
      book.bestBid = some bid.price ∧ book.bestAsk = some ask.price ∧ ask.price ≤ bid.price ∧
      book.bestBidOrder = some bid ∧ book.bestAskOrder = some ask ∧
      (taker.side = .buy ∧ book.view bid = taker ∧ book.view ask = maker ∨
        taker.side = .sell ∧ book.view bid = maker ∧ book.view ask = taker) := by
  have ascending := shaped.resting_ascending
  rw [queued, List.pairwise_append] at ascending
  obtain ⟨makerSide, makerPrice⟩ := best_crosses chosen
  have makerMember := best_mem chosen
  have makerHead := best_heads_level (fun _ _ before after => lt_asymm before after)
    ascending.1 chosen
  have makerQueued : (book.resting.filter fun order =>
      order.side = maker.side ∧ order.price = maker.price).head? = some maker := by
    rw [queued, List.filter_append, List.head?_append, makerHead]
    rfl
  have takerQueued : (∀ other ∈ others, ¬ (other.side = taker.side ∧ other.price = taker.price)) →
      (book.resting.filter fun order =>
        order.side = taker.side ∧ order.price = taker.price).head? = some taker := by
    intro alone
    rw [queued, List.filter_append, List.filter_eq_nil_iff.mpr (by simpa using alone)]
    simp
  cases side : taker.side with
  | buy =>
      rw [side] at makerSide makerPrice
      have lower : ∀ other ∈ others, other.side = .buy → other.price < maker.price :=
        fun other member buys => quiet other member maker makerMember buys makerSide
      obtain ⟨bid, bidMember, bidView, bidPrice, bidFirst⟩ := shaped.first_of_head (takerQueued
        (fun other member same => by
          have below := lower other member (same.1.trans side)
          have reach : maker.price ≤ taker.price := makerPrice
          omega))
      obtain ⟨ask, askMember, askView, askPrice, askFirst⟩ := shaped.first_of_head makerQueued
      have highest : book.bestBid = some bid.price := by
        rw [shaped.bestBid_eq_some, queued, bidPrice]
        refine ⟨⟨taker, by simp, side, rfl⟩, fun other member buys => ?_⟩
        rcases List.mem_append.mp member with member | member
        · have below := lower other member buys
          have reach : maker.price ≤ taker.price := makerPrice
          omega
        · rw [List.mem_singleton.mp member]
      have lowest : book.bestAsk = some ask.price := by
        rw [shaped.bestAsk_eq_some, queued, askPrice]
        refine ⟨⟨maker, by simp [makerMember], makerSide, rfl⟩, fun other member sells => ?_⟩
        rcases List.mem_append.mp member with member | member
        · by_cases crosses : Crosses taker other
          · have good := best_price chosen member crosses
            rwa [side] at good
          · have outside : ¬ other.price ≤ taker.price := fun reach =>
              crosses ⟨by rw [side]; exact sells, by rw [side]; exact reach⟩
            have reach : maker.price ≤ taker.price := makerPrice
            omega
        · rw [List.mem_singleton.mp member, side] at sells
          cases sells
      refine ⟨bid, bidMember, ask, askMember, highest, lowest, ?_, ?_, ?_, .inl ⟨rfl, bidView,
        askView⟩⟩
      · rw [askPrice, bidPrice]
        exact makerPrice
      · rw [bestBidOrder, highest, bidPrice]
        rwa [side] at bidFirst
      · rw [bestAskOrder, lowest, askPrice]
        rwa [makerSide] at askFirst
  | sell =>
      rw [side] at makerSide makerPrice
      have higher : ∀ other ∈ others, other.side = .sell → maker.price < other.price :=
        fun other member sells => quiet maker makerMember other member makerSide sells
      obtain ⟨ask, askMember, askView, askPrice, askFirst⟩ := shaped.first_of_head (takerQueued
        (fun other member same => by
          have above := higher other member (same.1.trans side)
          have reach : taker.price ≤ maker.price := makerPrice
          omega))
      obtain ⟨bid, bidMember, bidView, bidPrice, bidFirst⟩ := shaped.first_of_head makerQueued
      have lowest : book.bestAsk = some ask.price := by
        rw [shaped.bestAsk_eq_some, queued, askPrice]
        refine ⟨⟨taker, by simp, side, rfl⟩, fun other member sells => ?_⟩
        rcases List.mem_append.mp member with member | member
        · have above := higher other member sells
          have reach : taker.price ≤ maker.price := makerPrice
          omega
        · rw [List.mem_singleton.mp member]
      have highest : book.bestBid = some bid.price := by
        rw [shaped.bestBid_eq_some, queued, bidPrice]
        refine ⟨⟨maker, by simp [makerMember], makerSide, rfl⟩, fun other member buys => ?_⟩
        rcases List.mem_append.mp member with member | member
        · by_cases crosses : Crosses taker other
          · have good := best_price chosen member crosses
            rwa [side] at good
          · have outside : ¬ taker.price ≤ other.price := fun reach =>
              crosses ⟨by rw [side]; exact buys, by rw [side]; exact reach⟩
            have reach : taker.price ≤ maker.price := makerPrice
            omega
        · rw [List.mem_singleton.mp member, side] at buys
          cases buys
      refine ⟨bid, bidMember, ask, askMember, highest, lowest, ?_, ?_, ?_, .inr ⟨rfl, bidView,
        askView⟩⟩
      · rw [askPrice, bidPrice]
        exact makerPrice
      · rw [bestBidOrder, highest, bidPrice]
        rwa [makerSide] at bidFirst
      · rw [bestAskOrder, lowest, askPrice]
        rwa [side] at askFirst

/-- The loop leaves an uncrossed book alone. -/
theorem matchLoop_uncrossed (shaped : book.Shaped) (quiet : Uncrossed book.resting) (rounds : Nat)
    (fills : List Fill) : matchLoop (rounds + 1) book fills = .ok (book, fills) := by
  rw [matchLoop]
  cases bid : book.bestBid with
  | none => rfl
  | some bidPrice =>
      cases ask : book.bestAsk with
      | none => rfl
      | some askPrice =>
          obtain ⟨⟨bidOrder, bidMember, buys, rfl⟩, _⟩ := shaped.bestBid_eq_some.mp bid
          obtain ⟨⟨askOrder, askMember, sells, rfl⟩, _⟩ := shaped.bestAsk_eq_some.mp ask
          simp only [quiet bidOrder bidMember askOrder askMember buys sells, ↓reduceIte]

/-- One round of the loop is one trade of the newest order. -/
theorem matchLoop_trade (shaped : book.Shaped) (queued : book.resting = others ++ [taker])
    (valid : WellFormed others) (quiet : Uncrossed others) (live : 0 < taker.remaining)
    (chosen : best taker others = some maker) :
    ∃ after fill, (∀ rounds fills, matchLoop (rounds + 1) book fills =
        matchLoop rounds after (fills ++ [fill])) ∧ after.Shaped ∧
      after.resting = reduce maker.id (min taker.remaining maker.remaining) others ++
        Resting.standing { taker with
          remaining := taker.remaining - min taker.remaining maker.remaining } ∧
      Reports taker fill ⟨maker, min taker.remaining maker.remaining⟩ ∧
      (∀ order ∈ after.orders, order ∈ book.orders) ∧
      ∀ orderId value, book.remaining.get? orderId = some value →
        after.remaining.get? orderId = some (value -
          if orderId = taker.id ∨ orderId = maker.id then
            min taker.remaining maker.remaining else 0) := by
  obtain ⟨bid, bidMember, ask, askMember, highest, lowest, crossed, bidBest, askBest, roles⟩ :=
    shaped.top_orders queued quiet chosen
  have ascending := shaped.resting_ascending
  rw [queued, List.pairwise_append] at ascending
  have makerMember := best_mem chosen
  have makerLive := valid.positive maker makerMember
  have older : maker.id < taker.id := ascending.2.2 maker makerMember taker (by simp)
  have others_ne : ∀ other ∈ others, other.id ≠ taker.id := fun other member =>
    (ascending.2.2 other member taker (by simp)).ne
  have reduced : reduce taker.id (min taker.remaining maker.remaining)
      (reduce maker.id (min taker.remaining maker.remaining) book.resting) =
      reduce maker.id (min taker.remaining maker.remaining) others ++ Resting.standing { taker with
        remaining := taker.remaining - min taker.remaining maker.remaining } := by
    rw [queued, reduce_newest others_ne older.ne]
  have rounds : ∀ after fill, book.tradeTop bid ask = .ok (after, fill) → ∀ rounds fills,
      matchLoop (rounds + 1) book fills = matchLoop rounds after (fills ++ [fill]) := by
    intro after fill traded rounds fills
    rw [matchLoop, highest, lowest, bidBest, askBest]
    simp only [Int.not_lt.mpr crossed, if_false, traded, Fault.ok_bind]
  rcases roles with ⟨side, bidView, askView⟩ | ⟨side, bidView, askView⟩
  · have bidId : bid.orderId = taker.id := by rw [← bidView]; rfl
    have askId : ask.orderId = maker.id := by rw [← askView]; rfl
    have bidLeft : book.remainingQuantity bid = taker.remaining := by rw [← bidView]; rfl
    have askLeft : book.remainingQuantity ask = maker.remaining := by rw [← askView]; rfl
    have askPrice : ask.price = maker.price := by rw [← askView]; rfl
    obtain ⟨after, traded, afterShaped, afterResting, kept, cells⟩ := tradeTop_ok shaped bidMember
      askMember (by omega) (by omega) (by omega)
    refine ⟨after, _, rounds _ _ traded, afterShaped, ?_, ?_, kept, ?_⟩
    · rw [afterResting, bidId, askId, bidLeft, askLeft, reduce_comm older.ne, reduced]
    · constructor <;> simp [side, bidId, askId, bidLeft, askLeft, askPrice, older.asymm]
    · simpa only [bidId, askId, bidLeft, askLeft] using cells
  · have bidId : bid.orderId = maker.id := by rw [← bidView]; rfl
    have askId : ask.orderId = taker.id := by rw [← askView]; rfl
    have bidLeft : book.remainingQuantity bid = maker.remaining := by rw [← bidView]; rfl
    have askLeft : book.remainingQuantity ask = taker.remaining := by rw [← askView]; rfl
    have bidPrice : bid.price = maker.price := by rw [← bidView]; rfl
    obtain ⟨after, traded, afterShaped, afterResting, kept, cells⟩ := tradeTop_ok shaped bidMember
      askMember (by omega) (by omega) (by omega)
    refine ⟨after, _, rounds _ _ traded, afterShaped, ?_, ?_, kept, ?_⟩
    · rw [afterResting, bidId, askId, bidLeft, askLeft, min_comm, reduced]
    · constructor <;> simp [side, bidId, askId, bidLeft, askLeft, bidPrice, older, min_comm]
    · simpa only [bidId, askId, bidLeft, askLeft, or_comm, min_comm] using cells

/-- With the newest order last on an otherwise uncrossed book, the loop performs
exactly that order's execution. -/
theorem matchLoop_executes (run : Executes taker others trades final left) :
    ∀ {book : OrderBook} {fills : List Fill} {rounds : Nat}, book.Shaped →
      book.resting = others ++ [taker] → WellFormed others → Uncrossed others →
      0 < taker.remaining → trades.length < rounds →
      ∃ after reported, matchLoop rounds book fills = .ok (after, fills ++ reported) ∧
        after.Shaped ∧ after.resting = left ++ final.standing ∧
        List.Forall₂ (Reports taker) reported trades ∧
        (∀ order ∈ after.orders, order ∈ book.orders) ∧
        ∀ orderId value, book.remaining.get? orderId = some value →
          after.remaining.get? orderId = some (value -
            if orderId = taker.id then (trades.map (·.qty)).sum else drawn trades orderId) := by
  induction run with
  | @done taker others stopped =>
      intro book fills rounds shaped queued valid quiet live enough
      obtain ⟨rounds, rfl⟩ := Nat.exists_eq_add_of_lt enough
      have missing : best taker others = none := stopped.resolve_left (by omega)
      have uncrossed : Uncrossed book.resting := by
        rw [queued]
        exact quiet.append fun other member => best_eq_none missing member
      refine ⟨book, [], ?_, shaped, ?_, .nil, fun _ member => member, ?_⟩
      · rw [List.append_nil, matchLoop_uncrossed shaped uncrossed]
      · rw [queued, Resting.standing, if_pos live]
      · intro orderId value held
        simpa [drawn] using held
  | @trade taker others maker trades final left live chosen rest ih =>
      intro book fills rounds shaped queued valid quiet _ enough
      obtain ⟨middle, fill, round, middleShaped, middleResting, report, kept, cells⟩ :=
        matchLoop_trade shaped queued valid quiet live chosen
      obtain ⟨rounds, rfl⟩ := Nat.exists_eq_add_of_lt (Nat.lt_of_le_of_lt (Nat.zero_le _) enough)
      have ascending := shaped.resting_ascending
      rw [queued, List.pairwise_append] at ascending
      have older : maker.id < taker.id :=
        ascending.2.2 maker (best_mem chosen) taker (by simp)
      by_cases exhausted : taker.remaining - min taker.remaining maker.remaining ≤ 0
      · -- The taker is spent, so nothing crosses any more.
        cases rest with
        | trade again _ _ => exact absurd exhausted (Int.not_le.mpr again)
        | done _ =>
            rw [Resting.standing, if_neg (Int.not_lt.mpr exhausted), List.append_nil]
              at middleResting
            obtain ⟨rounds, rfl⟩ : ∃ less, rounds = less + 1 := by
              simp only [List.length_cons, List.length_nil] at enough
              exact ⟨rounds - 1, by omega⟩
            refine ⟨middle, [fill], ?_, middleShaped, ?_, .cons report .nil, kept, ?_⟩
            · rw [Nat.zero_add, round, matchLoop_uncrossed middleShaped]
              rw [middleResting]
              exact quiet.reduce _ _
            · rw [middleResting, Resting.standing, if_neg (Int.not_lt.mpr exhausted),
                List.append_nil]
            · intro orderId value held
              rw [cells orderId value held]
              by_cases isTaker : orderId = taker.id
              · simp [isTaker]
              · by_cases isMaker : orderId = maker.id
                · simp [isMaker, older.ne, drawn]
                · simp [isTaker, isMaker, Ne.symm isMaker, drawn]
      · rw [Resting.standing, if_pos (by simpa using exhausted)] at middleResting
        obtain ⟨after, reported, finished, afterShaped, afterResting, reports, keptLater,
          cellsLater⟩ := ih middleShaped middleResting (valid.reduce _)
            (quiet.reduce _ _) (by simpa using exhausted)
            (show trades.length < rounds by simp only [List.length_cons] at enough; omega)
        refine ⟨after, fill :: reported, ?_, afterShaped, afterResting, .cons report ?_,
          fun order member => kept order (keptLater order member), ?_⟩
        · rw [Nat.zero_add, round, finished, List.append_assoc]
          rfl
        · exact reports.imp fun _ _ reports => ⟨reports.buyer, reports.seller, reports.price,
            reports.quantity⟩
        · intro orderId value held
          rw [cellsLater orderId _ (cells orderId value held)]
          by_cases isTaker : orderId = taker.id
          · simp only [isTaker, true_or, if_true, List.map_cons, List.sum_cons]
            congr 1
            omega
          · rw [if_neg isTaker, if_neg isTaker, drawn_cons]
            by_cases isMaker : orderId = maker.id
            · simp only [isMaker, or_true, if_true]
              congr 1
              omega
            · simp [isTaker, isMaker, Ne.symm isMaker]

/-- An order that enters the book is executed, whatever the number of rounds allowed
beyond the orders already there. -/
theorem enter_ok (shaped : book.Shaped) {order : Order} (priced : 0 < order.price)
    (counted : 0 < order.quantity) (latest : ∀ earlier ∈ book.orders, earlier.orderId < order.orderId)
    (valid : WellFormed book.resting) (quiet : Uncrossed book.resting)
    (run : Executes ⟨order.orderId, order.side, order.price, order.quantity, ()⟩ book.resting trades
      final left) {rounds : Nat} (enough : book.orders.length < rounds) :
    ∃ entered after reported, book.insertOrder order = .ok entered ∧ entered.Shaped ∧
      entered.orders = book.orders ++ [order] ∧ WellFormed entered.resting ∧
      entered.matchLoop rounds [] = .ok (after, reported) ∧ after.Shaped ∧
      after.resting = left ++ final.standing ∧
      List.Forall₂ (Reports ⟨order.orderId, order.side, order.price, order.quantity, ()⟩) reported
        trades ∧
      (∀ held ∈ after.orders, held ∈ book.orders ∨ held = order) ∧
      after.remaining.get? order.orderId = some final.remaining ∧
      ∀ orderId value, orderId ≠ order.orderId → book.remaining.get? orderId = some value →
        after.remaining.get? orderId = some (value - drawn trades orderId) := by
  obtain ⟨entered, inserted, enteredShaped, enteredOrders, queued, enteredRemaining⟩ :=
    insertOrder_resting shaped priced latest
  have within : trades.length < rounds := by
    have bound := run.length_le valid
    rw [resting, List.length_map] at bound
    omega
  have enteredValid : WellFormed entered.resting := by
    refine ⟨?_, enteredShaped.resting_ascending⟩
    rw [queued]
    intro other member
    cases List.mem_append.mp member with
    | inl old => exact valid.positive other old
    | inr new =>
        rw [List.mem_singleton.mp new]
        exact counted
  obtain ⟨after, reported, finished, afterShaped, afterResting, reports, kept, cells⟩ :=
    matchLoop_executes run enteredShaped queued valid quiet counted within
  refine ⟨entered, after, reported, inserted, enteredShaped, enteredOrders, enteredValid, finished,
    afterShaped, afterResting, reports, ?_, ?_, ?_⟩
  · intro held member
    have present := kept held member
    rw [enteredOrders] at present
    simpa using present
  · have conserved := run.conserves
    rw [cells order.orderId order.quantity (by rw [enteredRemaining, Dict.get?_set_self]),
      if_pos rfl]
    simp only at conserved
    congr 1
    omega
  · intro orderId value different held
    rw [cells orderId value (by rw [enteredRemaining, Dict.get?_set_of_ne _ _ different]; exact held),
      if_neg different]

theorem matchOrder_ok (shaped : book.Shaped) {order : Order} (priced : 0 < order.price)
    (counted : 0 < order.quantity) (latest : ∀ earlier ∈ book.orders, earlier.orderId < order.orderId)
    (valid : WellFormed book.resting) (quiet : Uncrossed book.resting)
    (run : Executes ⟨order.orderId, order.side, order.price, order.quantity, ()⟩ book.resting trades
      final left) :
    ∃ after reported, book.matchOrder order = .ok (after, reported) ∧ after.Shaped ∧
      after.resting = left ++ final.standing ∧
      List.Forall₂ (Reports ⟨order.orderId, order.side, order.price, order.quantity, ()⟩) reported
        trades ∧
      (∀ held ∈ after.orders, held ∈ book.orders ∨ held = order) ∧
      after.remaining.get? order.orderId = some final.remaining ∧
      ∀ orderId value, orderId ≠ order.orderId → book.remaining.get? orderId = some value →
        after.remaining.get? orderId = some (value - drawn trades orderId) := by
  obtain ⟨entered, after, reported, inserted, -, enteredOrders, -, finished, facts⟩ :=
    enter_ok shaped priced counted latest valid quiet run
      (show book.orders.length < book.orders.length + 2 by omega)
  refine ⟨after, reported, ?_, facts⟩
  have size : entered.ordersById.size = book.orders.length + 1 := by
    have length := congrArg List.length enteredOrders
    simpa [orders, Dict.size, Dict.values] using length
  rw [matchOrder, addOrder, inserted]
  show matchLoop (entered.ordersById.size + 1) entered [] = _
  rw [size]
  exact finished

/-! ## Arrival numbers -/

theorem insertOrder_next {order : Order} {after : OrderBook}
    (inserted : book.insertOrder order = .ok after) :
    after.nextArrivalSequence = book.nextArrivalSequence + 1 := by
  unfold insertOrder at inserted
  split at inserted
  · cases inserted
  · rw [Fault.bind_eq_ok] at inserted
    obtain ⟨level, -, same⟩ := inserted
    cases same
    simp

theorem reduceOrder_next {order : Order} {qty : Int} {after : OrderBook}
    (reduced : book.reduceOrder order qty = .ok after) :
    after.nextArrivalSequence = book.nextArrivalSequence := by
  unfold reduceOrder at reduced
  split at reduced
  · cases reduced
  · split at reduced
    · cases reduced
    · cases reduced
      rfl

theorem removeOrder_next {orderId : Int} {after : OrderBook} {removed : Option Order}
    (done : book.removeOrder orderId = .ok (after, removed)) :
    after.nextArrivalSequence = book.nextArrivalSequence := by
  unfold removeOrder at done
  split at done
  · cases done
    rfl
  · simp only at done
    split at done
    · cases done
      rfl
    · rw [Fault.bind_eq_ok] at done
      obtain ⟨level, -, written⟩ := done
      split at written
      · cases written
        simp
      · cases written
        simp

theorem removeIfExhausted_next {order : Order} {after : OrderBook}
    (done : book.removeIfExhausted order = .ok after) :
    after.nextArrivalSequence = book.nextArrivalSequence := by
  unfold removeIfExhausted at done
  split at done
  · cases removal : book.removeOrder order.orderId with
    | error fault =>
        rw [removal] at done
        cases done
    | ok result =>
        rw [removal] at done
        cases done
        exact removeOrder_next removal
  · cases done
    rfl

/-- Matching gives out no arrival numbers. -/
theorem matchLoop_next (rounds : Nat) : ∀ {book after : OrderBook} {fills reported : List Fill},
    book.matchLoop rounds fills = .ok (after, reported) →
    after.nextArrivalSequence = book.nextArrivalSequence := by
  induction rounds with
  | zero =>
      intro book after fills reported finished
      cases finished
  | succ rounds ih =>
      intro book after fills reported finished
      unfold matchLoop at finished
      split at finished
      · split at finished
        · cases finished
          rfl
        · split at finished
          · rw [Fault.bind_eq_ok] at finished
            obtain ⟨⟨middle, fill⟩, traded, rest⟩ := finished
            rw [ih rest]
            simp only [tradeTop, Fault.bind_eq_ok] at traded
            obtain ⟨_, -, _, -, _, -, once, bidReduced, twice, askReduced, third, bidRemoved,
              fourth, askRemoved, same⟩ := traded
            cases same
            rw [removeIfExhausted_next askRemoved, removeIfExhausted_next bidRemoved,
              reduceOrder_next askReduced, reduceOrder_next bidReduced]
          · cases finished
            rfl
      · cases finished
        rfl

end OrderBook

end QuantArena.Engine.NaiveModel
