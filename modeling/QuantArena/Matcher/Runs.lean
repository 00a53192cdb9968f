import QuantArena.Matcher.AdapterProperties

/-! What every run of the naive matcher guarantees to those who read its records. -/

set_option autoImplicit false

namespace QuantArena.Matcher

open Foundations Foundations.PriceTime Contracts Exchange Engine.NaiveModel

/-- The orders that are live once the given records have been emitted. -/
def liveAfter (records : List Outbound) : List LiveOrder := (Tape.blank.readAll records).live

/-- Price-time priority for one fill, judged by the orders live just before it. -/
def PriceTimeFill (live : List LiveOrder) (fill : Contracts.Fill) : Prop :=
  ∃ maker ∈ live, ∃ taker ∈ live,
    maker.id = fill.makerOrderId ∧ taker.id = fill.takerOrderId ∧
    maker.ticket.symbolId = fill.symbolId ∧ taker.ticket.symbolId = fill.symbolId ∧
    Crosses taker maker ∧
    (∀ other ∈ live, other.ticket.symbolId = fill.symbolId → Crosses taker other →
      AsGood taker.side maker.price other.price ∧
        (other.price = maker.price → maker.id ≤ other.id)) ∧
    fill.priceTicks = maker.price ∧
    0 < fill.qty ∧ fill.qty ≤ maker.remaining ∧ fill.qty ≤ taker.remaining

theorem priceTimeFill_of_lawful {tape : Tape} (valid : tape.Valid) {fill : Contracts.Fill}
    (lawful : tape.Lawful (.fill fill)) : PriceTimeFill tape.live fill := by
  obtain ⟨maker, taker, executed⟩ := lawful
  have makerPositive := valid.wellFormed.positive maker executed.makerLive
  have takerPositive := valid.wellFormed.positive taker executed.takerLive
  have quantity := executed.quantity
  refine ⟨maker, executed.makerLive, taker, executed.takerLive, executed.makerId, executed.takerId,
    executed.makerSymbol, executed.takerSymbol, best_crosses executed.chosen, ?_, executed.price,
    by omega, by omega, by omega⟩
  intro other member symbol crosses
  have candidate : other ∈ onSymbol fill.symbolId tape.live := mem_onSymbol.mpr ⟨member, symbol⟩
  refine ⟨best_price executed.chosen candidate crosses, ?_⟩
  intro samePrice
  have arrival := valid.wellFormed.arrival.filter fun order => order.ticket.symbolId = fill.symbolId
  rcases best_earliest arrival executed.chosen candidate crosses samePrice with rfl | later
  · exact le_refl _
  · exact later.le

namespace NaiveMatcher

/-- Every run from the start answers as the market does. -/
theorem fresh_run (initialCashTicks : Int) (records : List Inbound) :
    ∃ matcher, (new 1 initialCashTicks).applyAll records =
        .ok (matcher, (Market.fresh.run initialCashTicks records).2) ∧
      matcher.Represents (Market.fresh.run initialCashTicks records).1 ∧
      matcher.initialCashTicks = initialCashTicks :=
  applyAll_ok (new_represents 1 initialCashTicks) Market.fresh_valid records

/-- `resting()` as the tape tells it. -/
theorem Represents.resting_eq {matcher : NaiveMatcher} {market : Market}
    (represents : matcher.Represents market) (valid : market.Valid) :
    matcher.resting = market.tape.live.map fun order =>
      toLex (order.id, toLex (order.ticket.symbolId, toLex (sideCode order.side,
        toLex (order.price, order.remaining)))) := by
  have shown : (matcher.byOrderId.values.map fun live =>
      toLex (live.orderId, toLex (live.symbolId, toLex (live.side, toLex (live.priceTicks,
        matcher.remainingQty live))))) = market.tape.live.map fun order =>
      toLex (order.id, toLex (order.ticket.symbolId, toLex (sideCode order.side,
        toLex (order.price, order.remaining)))) := by
    rw [← represents.live, List.map_map]
    apply List.map_congr_left
    intro live member
    simp only [Function.comp_apply, liveOrder, (represents.coherent live member).side]
  rw [NaiveMatcher.resting, shown]
  apply List.mergeSort_of_pairwise
  rw [List.pairwise_map]
  refine valid.tape.wellFormed.arrival.imp ?_
  intro early late before
  simpa using (Prod.Lex.lt_iff.mpr (.inl before)).le

theorem fills_follow_price_time (initialCashTicks : Int) (records : List Inbound) :
    ∃ matcher outputs, (new 1 initialCashTicks).applyAll records = .ok (matcher, outputs) ∧
      matcher.resting = (liveAfter outputs).map (fun order =>
        toLex (order.id, toLex (order.ticket.symbolId, toLex (sideCode order.side,
          toLex (order.price, order.remaining))))) ∧
      (∀ before fill after, outputs = before ++ .fill fill :: after →
        PriceTimeFill (liveAfter before) fill ∧
        fill.makerOrderId ∈ Tape.acceptedIds before ∧ fill.takerOrderId ∈ Tape.acceptedIds before) ∧
      (∀ first second, outputs = first ++ second → ∀ orderId ∈ Tape.acceptedIds first,
        (∀ order ∈ liveAfter first, order.id ≠ orderId) → ∀ fill, .fill fill ∈ second →
          fill.makerOrderId ≠ orderId ∧ fill.takerOrderId ≠ orderId) ∧
      (∀ before cancelled after, outputs = before ++ .orderCancelled cancelled :: after →
        ∀ fill, .fill fill ∈ after →
          fill.makerOrderId ≠ cancelled.orderId ∧ fill.takerOrderId ≠ cancelled.orderId) ∧
      (∀ first record rest, records = first ++ record :: rest → ∃ middle emitted after answer,
        (new 1 initialCashTicks).applyAll first = .ok (middle, emitted) ∧
        middle.apply record = .ok (after, answer) ∧
        ∀ rejected, .orderRejected rejected ∈ answer → answer = [.orderRejected rejected]) ∧
      (Tape.acceptedIds outputs).Pairwise (· < ·) := by
  obtain ⟨matcher, finished, represents, -⟩ := fresh_run initialCashTicks records
  obtain ⟨lawful, read⟩ := Market.run_lawful initialCashTicks Market.fresh_valid records
  have valid := Market.run_valid initialCashTicks Market.fresh_valid records
  generalize (Market.fresh.run initialCashTicks records).2 = outputs at finished lawful read
  have start : Market.fresh.tape = Tape.blank := rfl
  rw [start] at lawful read
  have laterFills : ∀ first second, outputs = first ++ second → ∀ orderId,
      (Tape.blank.readAll first).Gone orderId → ∀ fill, .fill fill ∈ second →
        fill.makerOrderId ≠ orderId ∧ fill.takerOrderId ≠ orderId := by
    rintro first second rfl orderId gone fill member
    obtain ⟨early, late, rfl⟩ := List.append_of_mem member
    obtain ⟨-, lawfulSecond⟩ := Tape.lawfulAll_append.mp lawful
    obtain ⟨lawfulEarly, lawfulFill, -⟩ := Tape.lawfulAll_append.mp lawfulSecond
    exact (gone.readAll lawfulEarly).not_traded lawfulFill
  refine ⟨matcher, outputs, finished, ?_, ?_, ?_, ?_, ?_, lawful.acceptedIds_ascending.1⟩
  · rw [represents.resting_eq valid, liveAfter, read]
  · rintro before fill after rfl
    have lawfulFill := lawful.at_split
    have validBefore := Tape.blank_valid.readAll (Tape.lawfulAll_append.mp lawful).1
    obtain ⟨maker, taker, executed⟩ := lawfulFill
    have accepted : ∀ order ∈ (Tape.blank.readAll before).live,
        order.id ∈ Tape.acceptedIds before := by
      intro order member
      rcases Tape.live_origin member with ⟨old, oldMember, -⟩ | accepted
      · simp [Tape.blank] at oldMember
      · exact accepted
    refine ⟨priceTimeFill_of_lawful validBefore ⟨maker, taker, executed⟩, ?_, ?_⟩
    · exact executed.makerId ▸ accepted maker executed.makerLive
    · exact executed.takerId ▸ accepted taker executed.takerLive
  · intro first second split orderId accepted absent
    refine laterFills first second split orderId ⟨?_, absent⟩
    subst split
    have lawfulFirst := (Tape.lawfulAll_append.mp lawful).1
    exact lawfulFirst.acceptedIds_issued orderId accepted
  · rintro before cancelled after rfl
    have validBefore := Tape.blank_valid.readAll (Tape.lawfulAll_append.mp lawful).1
    have gone := validBefore.gone_of_cancelled lawful.at_split
    refine laterFills (before ++ [.orderCancelled cancelled]) after (by simp) _ ?_
    rwa [Tape.readAll_append]
  · rintro first record rest rfl
    obtain ⟨middle, started, middleRepresents, -⟩ := fresh_run initialCashTicks first
    obtain ⟨after, applied, -, -⟩ := apply_ok middleRepresents
      (Market.run_valid initialCashTicks Market.fresh_valid first) record
    exact ⟨middle, _, after, _, started, applied, fun _ member => Market.apply_rejected member⟩

/-! ## The books -/

/-- The adapter and the symbol's book hold the same orders, in the same order. -/
theorem Represents.orders_eq {matcher : NaiveMatcher} {market : Market}
    (represents : matcher.Represents market) (symbolId : Int) :
    (matcher.byOrderId.values.filter fun live => live.symbolId = symbolId).map (·.modelOrder) =
      (matcher.book symbolId).orders := by
  have shaped := represents.shaped symbolId
  have ids : ((matcher.byOrderId.values.filter fun live => live.symbolId = symbolId).map
      (·.modelOrder)).map (·.orderId) = (matcher.book symbolId).orders.map (·.orderId) := by
    have resting := congrArg (List.map Resting.id) (represents.resting symbolId)
    rw [OrderBook.resting, List.map_map, List.map_map, onSymbol, ← represents.live,
      List.filter_map, List.map_map] at resting
    refine Eq.trans ?_ resting.symm
    rw [List.map_map]
    apply List.map_congr_left
    intro live member
    exact (represents.coherent live (List.mem_of_mem_filter member)).orderId
  -- Both lists are recovered from their ids through the id map.
  have recover : ∀ orders : List Order, (∀ order ∈ orders, order ∈ (matcher.book symbolId).orders) →
      (orders.map (·.orderId)).map (matcher.book symbolId).ordersById.get? = orders.map some := by
    intro orders within
    rw [List.map_map]
    exact List.map_congr_left fun order member => shaped.get?_of_mem (within order member)
  apply List.map_injective_iff.mpr (Option.some_injective Order)
  rw [← recover _ fun _ member => member, ← ids, recover]
  intro order member
  obtain ⟨live, liveMember, rfl⟩ := List.mem_map.mp member
  obtain ⟨known, sameSymbol⟩ := List.mem_filter.mp liveMember
  have held := represents.held live known
  rwa [of_decide_eq_true sameSymbol] at held

theorem books_well_formed (initialCashTicks : Int) (records : List Inbound) :
    ∃ matcher outputs, (new 1 initialCashTicks).applyAll records = .ok (matcher, outputs) ∧
      (∀ symbolId, let book := matcher.book symbolId
        (∀ bid ask, book.bestBid = some bid → book.bestAsk = some ask → bid < ask) ∧
        (∀ side price level, (book.sideMap side).get? price = some level →
          level.orders ≠ [] ∧ level.orders.Pairwise (fun early late => early.orderId < late.orderId) ∧
          level.orders = book.orders.filter fun order => order.side = side ∧ order.price = price) ∧
        (∀ order ∈ book.orders, 0 < book.remainingQuantity order ∧
          book.ordersById.get? order.orderId = some order ∧
          ∃ level, (book.sideMap order.side).get? order.price = some level ∧ order ∈ level.orders) ∧
        (book.orders.map (·.orderId)).Nodup ∧
        (matcher.byOrderId.values.filter fun live => live.symbolId = symbolId).map (·.modelOrder) =
          book.orders) ∧
      (∀ orderId live, matcher.byOrderId.get? orderId = some live →
        live.orderId = orderId ∧ live.modelOrder.orderId = orderId) ∧
      (∀ accepted, .orderAccepted accepted ∈ outputs → accepted.tif = tifCode .ioc →
        matcher.byOrderId.get? accepted.orderId = none ∧
        ∀ symbolId, (matcher.book symbolId).ordersById.get? accepted.orderId = none) ∧
      (∀ userId clientOrderId live, matcher.live.get? (userId, clientOrderId) = some live →
        matcher.byOrderId.get? live.orderId = some live ∧ live.userId = userId ∧
        live.clientOrderId = clientOrderId) := by
  obtain ⟨matcher, finished, represents, -⟩ := fresh_run initialCashTicks records
  have valid := Market.run_valid initialCashTicks Market.fresh_valid records
  refine ⟨matcher, _, finished, ?_, ?_, ?_, ?_⟩
  · intro symbolId
    have shaped := represents.shaped symbolId
    have resting := represents.resting symbolId
    refine ⟨?_, ?_, ?_, ?_, represents.orders_eq symbolId⟩
    · intro bid ask bestBid bestAsk
      obtain ⟨⟨bidOrder, bidMember, buys, rfl⟩, -⟩ := shaped.bestBid_eq_some.mp bestBid
      obtain ⟨⟨askOrder, askMember, sells, rfl⟩, -⟩ := shaped.bestAsk_eq_some.mp bestAsk
      rw [resting] at bidMember askMember
      exact (valid.uncrossed symbolId).map_bare bidOrder bidMember askOrder askMember buys sells
    · intro side price level found
      rw [shaped.levels] at found
      obtain ⟨rfl, occupied⟩ := OrderBook.levelOf_eq_some found
      exact ⟨occupied, shaped.ascending.filter _, rfl⟩
    · intro order member
      refine ⟨?_, shaped.get?_of_mem member, ?_⟩
      · have viewed : (matcher.book symbolId).view order ∈ (matcher.book symbolId).resting :=
          List.mem_map_of_mem member
        rw [resting] at viewed
        exact (valid.tape.wellFormed.filter _).map_bare.positive _ viewed
      · have queued := OrderBook.mem_queue.mpr ⟨member, rfl, rfl⟩
        refine ⟨⟨order.price, (matcher.book symbolId).queue order.side order.price⟩, ?_, queued⟩
        rw [shaped.levels]
        exact OrderBook.levelOf_of_mem queued
    · rw [List.Nodup, List.pairwise_map]
      exact shaped.ascending.imp ne_of_lt
  · intro orderId live found
    have sameId := represents.keyed orderId live found
    exact ⟨sameId, (represents.coherent live (mem_values_of_get? found)).orderId.trans sameId⟩
  · intro accepted member ioc
    obtain ⟨-, absent⟩ := Market.run_ioc_gone initialCashTicks Market.fresh_valid member ioc
    constructor
    · cases found : matcher.byOrderId.get? accepted.orderId with
      | none => rfl
      | some live =>
          have inLive := represents.mem_live.mpr ⟨live, mem_values_of_get? found, rfl⟩
          exact absurd (represents.keyed _ _ found) (absent _ inLive)
    · intro symbolId
      cases found : (matcher.book symbolId).ordersById.get? accepted.orderId with
      | none => rfl
      | some order =>
          have viewed : (matcher.book symbolId).view order ∈ (matcher.book symbolId).resting :=
            List.mem_map_of_mem (OrderBook.mem_orders_of_get? found)
          rw [represents.resting] at viewed
          obtain ⟨live, liveMember, same⟩ := List.mem_map.mp viewed
          have sameId : live.id = order.orderId := congrArg Resting.id same
          have keyed := (represents.shaped symbolId).keyed _ order found
          exact absurd (sameId.trans keyed) (absent live (mem_onSymbol.mp liveMember).1)
  · intro userId clientOrderId live found
    obtain ⟨present, sameName⟩ := represents.index.points _ live found
    exact ⟨present, congrArg Prod.fst sameName, congrArg Prod.snd sameName⟩

end NaiveMatcher

end QuantArena.Matcher
