import QuantArena.Engine.Cpp.StreamEngineProperties
import QuantArena.Exchange.MarketWire

/-! One record of the C++ engine: it never throws while the order ids fit their
width, answers as the market does, and still represents it. -/

set_option autoImplicit false

namespace QuantArena.Engine.Cpp

open Foundations Foundations.PriceTime Contracts

namespace StreamEngine

variable {engine : StreamEngine} {market : Exchange.Market} {order : SubmitOrder} {side : Side}
  {tif : Tif} {taker final : Exchange.LiveOrder} {trades : List (Trade Int Int Exchange.Ticket)}
  {left orders : List Exchange.LiveOrder} {indexed : Int × Int → Option Int}

/-! ## Reporting the fills -/

theorem fillRecords_ok (lists : engine.Lists orders indexed)
    (timestamp : order.timestampNs = taker.ticket.createdAtNs)
    (range : ∀ other ∈ orders, InRange other.id) (takerListed : taker ∈ orders)
    (makersListed : ∀ trade ∈ trades, trade.maker ∈ orders)
    (different : ∀ trade ∈ trades, trade.maker.id ≠ taker.id)
    {reported : List NaiveModel.Fill}
    (reports : List.Forall₂ (NaiveModel.OrderBook.Reports taker.bare) reported
      (trades.map Trade.bare)) :
    engine.fillRecords order taker.id (reported.map OrderBook.mirrorFill) =
      .ok (trades.map fun trade => .fill (Exchange.Market.fillOf taker trade)) := by
  induction trades generalizing reported with
  | nil =>
      cases reports
      rfl
  | cons trade rest ih =>
      cases reports with
      | @cons fill _ others _ report reports =>
          have makerListed := makersListed trade List.mem_cons_self
          have makerNotTaker := different trade List.mem_cons_self
          have takerFound := lists.find? takerListed
          have makerFound := lists.find? makerListed
          have takerId : toUnsigned (toLong taker.id) = taker.id :=
            toUnsigned_toLong (range taker takerListed)
          have makerId : toUnsigned (toLong trade.maker.id) = trade.maker.id :=
            toUnsigned_toLong (range trade.maker makerListed)
          have later := ih (fun other member => makersListed other (List.mem_cons_of_mem _ member))
            (fun other member => different other (List.mem_cons_of_mem _ member)) reports
          have price : fill.price = trade.maker.price := report.price
          have quantity : fill.quantity = trade.qty := report.quantity
          have record : fillRecord order (OrderBook.mirrorFill fill) (liveOf trade.maker)
              (liveOf taker) = .fill (Exchange.Market.fillOf taker trade) := by
            simp only [fillRecord, OrderBook.mirrorFill, price, quantity, timestamp]
            rfl
          have buyer := report.buyer
          have seller := report.seller
          simp only [List.map_cons, fillRecords, later, Fault.ok_bind, OrderBook.mirrorFill]
          cases takerSide : taker.side with
          | buy =>
              have bareSide : taker.bare.side = .buy := takerSide
              rw [bareSide, if_pos rfl] at buyer seller
              have buyId : fill.buyOrderId = taker.id := buyer
              have sellId : fill.sellOrderId = trade.maker.id := seller
              have own : (liveOf taker).orderId = taker.id := rfl
              simp only [buyId, sellId, takerId, makerId, takerFound, makerFound, orMissing_some,
                Fault.ok_bind, own, if_true]
              rw [← buyId, ← sellId]
              exact congrArg (fun first => Except.ok (first :: _)) record
          | sell =>
              have bareSide : taker.bare.side = .sell := takerSide
              rw [bareSide, if_neg (by decide)] at buyer seller
              have buyId : fill.buyOrderId = trade.maker.id := buyer
              have sellId : fill.sellOrderId = taker.id := seller
              have own : (liveOf trade.maker).orderId = trade.maker.id := rfl
              simp only [buyId, sellId, takerId, makerId, takerFound, makerFound, orMissing_some,
                Fault.ok_bind, own, makerNotTaker, if_false]
              rw [← buyId, ← sellId]
              exact congrArg (fun first => Except.ok (first :: _)) record

/-- The ids offered to `forget_if_filled` are those of the makers and of a taker that traded. -/
theorem mem_parties {reported : List NaiveModel.Fill}
    (reports : List.Forall₂ (NaiveModel.OrderBook.Reports taker.bare) reported
      (trades.map Trade.bare)) (takerRange : InRange taker.id)
    (makersRange : ∀ trade ∈ trades, InRange trade.maker.id) (orderId : Int) :
    orderId ∈ parties (reported.map OrderBook.mirrorFill) ↔
      ∃ trade ∈ trades, orderId = trade.maker.id ∨ orderId = taker.id := by
  induction trades generalizing reported with
  | nil =>
      cases reports
      simp [parties]
  | cons trade rest ih =>
      cases reports with
      | @cons fill _ others _ report reports =>
          have later := ih reports fun other member => makersRange other (List.mem_cons_of_mem _ member)
          have takerId := toUnsigned_toLong takerRange
          have makerId := toUnsigned_toLong (makersRange trade List.mem_cons_self)
          have first : orderId ∈ parties [OrderBook.mirrorFill fill] ↔
              orderId = trade.maker.id ∨ orderId = taker.id := by
            have buyer := report.buyer
            have seller := report.seller
            have ids : (fill.buyOrderId = trade.maker.id ∧ fill.sellOrderId = taker.id) ∨
                (fill.buyOrderId = taker.id ∧ fill.sellOrderId = trade.maker.id) := by
              cases takerSide : taker.side with
              | buy => exact .inr ⟨buyer.trans (if_pos takerSide), seller.trans (if_pos takerSide)⟩
              | sell =>
                  have notBuy : ¬ taker.bare.side = .buy := by
                    rw [show taker.bare.side = .sell from takerSide]
                    decide
                  exact .inl ⟨buyer.trans (if_neg notBuy), seller.trans (if_neg notBuy)⟩
            cases ids with
            | inl ids => simp [parties, OrderBook.mirrorFill, ids, takerId, makerId]
            | inr ids => simp [parties, OrderBook.mirrorFill, ids, takerId, makerId, or_comm]
          have whole : parties ((fill :: others).map OrderBook.mirrorFill) =
              parties [OrderBook.mirrorFill fill] ++ parties (others.map OrderBook.mirrorFill) := by
            simp [parties]
          rw [whole, List.mem_append, first, later]
          simp

/-! ## Forgetting what is spent -/

/-- An old order is still queued after the run exactly when it was not drawn empty. -/
theorem queued_iff {live : List Exchange.LiveOrder} (unique : WellFormed live)
    (issued : ∀ other ∈ live, other.id < taker.id)
    (run : Executes taker (Exchange.onSymbol taker.ticket.symbolId live) trades final left)
    {other : Exchange.LiveOrder} (member : other ∈ live) :
    (∃ queued ∈ left ++ final.standing, queued.id = other.id) ↔
      other.ticket.symbolId = taker.ticket.symbolId ∧ drawn trades other.id < other.remaining := by
  obtain ⟨distinct, -⟩ := Exchange.Market.makers_listed unique run
  have ids : left.map (·.id) = ((Exchange.onSymbol taker.ticket.symbolId live).filter fun other =>
      drawn trades other.id < other.remaining).map (·.id) := by
    rw [run.book_eq]
    exact settle_map (·.id) (fun _ _ => rfl) distinct (unique.filter _).positive
  have inLeft : (∃ queued ∈ left, queued.id = other.id) ↔
      other.ticket.symbolId = taker.ticket.symbolId ∧ drawn trades other.id < other.remaining := by
    rw [← List.mem_map, ids, List.mem_map]
    constructor
    · intro found
      obtain ⟨same, sameMember, sameId⟩ := found
      obtain ⟨onSymbol, remains⟩ := List.mem_filter.mp sameMember
      obtain ⟨sameLive, symbol⟩ := Exchange.mem_onSymbol.mp onSymbol
      rw [← unique.eq_of_id sameLive member sameId]
      exact ⟨symbol, of_decide_eq_true remains⟩
    · intro remains
      exact ⟨other, List.mem_filter.mpr ⟨Exchange.mem_onSymbol.mpr ⟨member, remains.1⟩,
        decide_eq_true remains.2⟩, rfl⟩
  rw [← inLeft]
  constructor
  · intro found
    obtain ⟨queued, queuedMember, sameId⟩ := found
    cases List.mem_append.mp queuedMember with
    | inl old => exact ⟨queued, old, sameId⟩
    | inr new =>
        obtain ⟨rfl, -⟩ := Exchange.Market.mem_standing.mp new
        have below := issued other member
        rw [← sameId, run.taker_eq] at below
        exact absurd below (lt_irrefl _)
  · intro found
    obtain ⟨queued, queuedMember, sameId⟩ := found
    exact ⟨queued, List.mem_append_left _ queuedMember, sameId⟩

/-- After the forgetting loop, exactly the orders of the settled market are listed. -/
theorem stays_entries {live : List Exchange.LiveOrder} (unique : WellFormed live)
    (issued : ∀ other ∈ live, other.id < taker.id) (counted : 0 < taker.remaining)
    (range : ∀ other ∈ live ++ [taker], InRange other.id)
    (run : Executes taker (Exchange.onSymbol taker.ticket.symbolId live) trades final left)
    {naive : NaiveModel.OrderBook} {nextOrderId : Int}
    (queues : Queues (engine.book taker.ticket.symbolId) naive (left ++ final.standing) nextOrderId)
    {reported : List NaiveModel.Fill}
    (reports : List.Forall₂ (NaiveModel.OrderBook.Reports taker.bare) reported
      (trades.map Trade.bare)) {β : Type} (view : Exchange.LiveOrder → β)
    (blind : ∀ (other : Exchange.LiveOrder) remaining, view { other with remaining } = view other) :
    ((live ++ [taker]).filter (engine.Stays taker.ticket.symbolId
        (parties (reported.map OrderBook.mirrorFill)))).map view =
      (settle trades live ++ final.standing).map view := by
  obtain ⟨distinct, makerLive⟩ := Exchange.Market.makers_listed unique run
  have takerRange := range taker (by simp)
  have named := mem_parties reports takerRange fun trade member =>
    range _ (List.mem_append_left _ (makerLive trade member).1)
  rw [List.filter_append, List.map_append, List.map_append]
  congr 1
  · rw [settle_map view blind distinct unique.positive]
    congr 1
    apply List.filter_congr
    intro other member
    rw [decide_eq_decide, Stays, named, queues.onBook_iff (range other (by simp [member])),
      queued_iff unique issued run member]
    constructor
    · intro stays
      by_contra spent
      have traded : ∃ trade ∈ trades, trade.maker.id = other.id := by
        by_contra untraded
        have absent : ∀ trade ∈ trades, trade.maker.id ≠ other.id :=
          fun trade tradeMember same => untraded ⟨trade, tradeMember, same⟩
        have nothing := drawn_of_absent absent
        have live := unique.positive other member
        omega
      obtain ⟨trade, tradeMember, sameId⟩ := traded
      exact spent (stays ⟨trade, tradeMember, .inl sameId.symm⟩).2
    · intro remains offered
      obtain ⟨trade, tradeMember, sameId⟩ := offered
      have below := issued other member
      have same : trade.maker = other := unique.eq_of_id (makerLive trade tradeMember).1 member
        (sameId.resolve_right below.ne).symm
      exact ⟨same ▸ (makerLive trade tradeMember).2.1, remains⟩
  · have takerStays : engine.Stays taker.ticket.symbolId
        (parties (reported.map OrderBook.mirrorFill)) taker ↔ 0 < final.remaining := by
      rw [Stays, named, queues.onBook_iff takerRange]
      constructor
      · intro stays
        by_contra spent
        have traded : trades ≠ [] := by
          intro none
          have conserved := run.conserves
          simp only [none, List.map_nil, List.sum_nil] at conserved
          omega
        obtain ⟨trade, tradeMember⟩ := List.exists_mem_of_ne_nil _ traded
        obtain ⟨queued, queuedMember, sameId⟩ := stays ⟨trade, tradeMember, .inr rfl⟩
        rw [Resting.standing, if_neg spent, List.append_nil, run.book_eq] at queuedMember
        obtain ⟨before, beforeMember, same⟩ := Exchange.Market.mem_settle_origin queuedMember
        have below := issued before (Exchange.mem_onSymbol.mp beforeMember).1
        rw [← sameId, same] at below
        exact lt_irrefl _ below
      · intro remains _
        exact ⟨final, by simp [Resting.standing, remains], by rw [run.taker_eq]⟩
    have sameView : view final = view taker := by
      rw [run.taker_eq]
      exact blind _ _
    rw [Resting.standing, List.filter_singleton]
    by_cases remains : 0 < final.remaining
    · simp [takerStays, remains, sameView]
    · simp [takerStays, remains]

/-! ## The end of a submission -/

theorem Lists.congr (lists : engine.Lists orders indexed) {others : List Exchange.LiveOrder}
    (same : others.map (fun order => (order.id, liveOf order)) =
      orders.map fun order => (order.id, liveOf order)) : engine.Lists others indexed :=
  ⟨lists.live.trans same.symm, lists.index⟩

/-- What is left of the taker rests, expires, or was nothing. -/
theorem expire_ok {settled : List Exchange.LiveOrder} {naive : NaiveModel.OrderBook}
    {nextOrderId : Int} (tifCodeEq : order.tif = tifCode tif)
    (sameUser : order.userId = final.ticket.userId)
    (sameClient : order.clientOrderId = final.ticket.clientOrderId)
    (timestamp : order.timestampNs = final.ticket.createdAtNs)
    (lists : engine.Lists (settled ++ final.standing) indexed)
    (unique : WellFormed (settled ++ final.standing))
    (absent : ∀ other ∈ settled, other.id ≠ final.id)
    (gone : ∀ other ∈ left, other.id ≠ final.id)
    (queues : Queues (engine.book order.symbolId) naive (left ++ final.standing) nextOrderId)
    {rest expired : List Exchange.LiveOrder} (stays : rest = if tif = .gtc then final.standing else [])
    (leaves : expired = if tif = .ioc then final.standing else []) :
    ∃ after, engine.expire order final.id = (after, expired.map fun order =>
        .orderCancelled (Exchange.Market.cancellation order.ticket.createdAtNs .iocExpired order)) ∧
      after.Lists (settled ++ rest)
        (Exchange.Market.freed (settled ++ final.standing) (settled ++ rest) indexed) ∧
      (∃ naive, Queues (after.book order.symbolId) naive (left ++ rest) nextOrderId) ∧
      (∀ other, other ≠ order.symbolId → after.book other = engine.book other) ∧
      after.nextOrderId = engine.nextOrderId ∧
      after.initialCashTicks = engine.initialCashTicks := by
  cases tif with
  | gtc =>
      have notIoc : ¬ order.tif = tifCode .ioc := by
        rw [tifCodeEq]
        decide
      have unchanged : engine.expire order final.id = (engine, []) := by
        unfold expire
        split
        · rfl
        · rw [if_neg notIoc]
      simp only [if_true] at stays
      simp only [reduceCtorEq, if_false] at leaves
      rw [stays, leaves, unchanged, Exchange.Market.freed_self]
      exact ⟨engine, rfl, lists, ⟨naive, queues⟩, fun _ _ => rfl, rfl, rfl⟩
  | ioc =>
      simp only [reduceCtorEq, if_false] at stays
      simp only [if_true] at leaves
      rw [stays, leaves, List.append_nil, List.append_nil]
      by_cases remains : 0 < final.remaining
      · have standing : final.standing = [final] := if_pos remains
        rw [standing] at lists unique queues ⊢
        have listed : ∀ others : List Exchange.LiveOrder, final ∈ others ++ [final] := by simp
        have found := lists.find? (listed settled)
        obtain ⟨held, onBook, quantity, -⟩ := queues.getOrder (listed _)
        obtain ⟨after, cancelled⟩ := queues.removed (listed _)
        have removed : ∀ {others : List Exchange.LiveOrder}, (∀ other ∈ others, other.id ≠ final.id) →
            remove final.id (others ++ [final]) = others := by
          intro others different
          rw [remove, List.filter_append, List.filter_eq_self.mpr (by simpa using different)]
          simp
        rw [removed gone] at cancelled
        have erased : ∀ engine' : StreamEngine, _ → _ → engine'.Lists _ _ :=
          fun _ => lists.erased unique (listed settled)
        simp only [removed absent] at erased
        have positive : 0 < held.remainingQuantity := by rwa [quantity]
        let shortened : StreamEngine := { engine.setBook order.symbolId
            ((engine.book order.symbolId).cancelOrder (toLong final.id)) with
          clientToOrder := engine.clientToOrder.erase (clientKey order.userId order.clientOrderId)
          live := engine.live.erase final.id }
        refine ⟨shortened, ?_, erased shortened rfl (by rw [← sameUser, ← sameClient]), ⟨after, ?_⟩, ?_, rfl, rfl⟩
        · unfold expire
          simp only [found, tifCodeEq, if_true, onBook, if_pos positive]
          rw [quantity, StreamEngine.cancelled, timestamp]
          rfl
        · have own : shortened.book order.symbolId =
              (engine.book order.symbolId).cancelOrder (toLong final.id) :=
            (book_setBook ..).trans (if_pos rfl)
          rw [own]
          exact cancelled
        · intro other different
          exact (book_setBook ..).trans (if_neg different)
      · have standing : final.standing = [] := if_neg remains
        rw [standing, List.append_nil] at lists queues ⊢
        have missing := lists.find?_absent absent
        rw [Exchange.Market.freed_self]
        refine ⟨engine, ?_, lists, ⟨naive, queues⟩, fun _ _ => rfl, rfl, rfl⟩
        simp only [expire, missing, List.map_nil]

/-! ## Submit -/

/-- The engine with a new order listed, before its book sees it. -/
def registered (engine : StreamEngine) (taker : Exchange.LiveOrder) : StreamEngine :=
  { engine with
    nextOrderId := (engine.nextOrderId + 1) % 256 ^ 8
    clientToOrder := engine.clientToOrder.insert
      (clientKey taker.ticket.userId taker.ticket.clientOrderId) taker.id
    live := engine.live.insert taker.id (liveOf taker) }

theorem registered_lists (lists : engine.Lists orders indexed)
    (issued : ∀ other ∈ orders, other.id < taker.id) :
    (engine.registered taker).Lists (orders ++ [taker])
      (Function.update indexed (Exchange.key taker) (some taker.id)) where
  live := by
    have newest : ∀ entry ∈ engine.live.entries, entry.1 < taker.id := by
      intro entry member
      rw [lists.live] at member
      obtain ⟨other, otherMember, rfl⟩ := List.mem_map.mp member
      exact issued other otherMember
    rw [registered, OrderedMap.entries_insert_last newest, lists.live, List.map_append]
    rfl
  index name := by
    rw [registered, OrderedMap.find?_insert, lists.index, Function.update_apply]
    have sameKey : clientKey name.1 name.2 =
        clientKey taker.ticket.userId taker.ticket.clientOrderId ↔ name = Exchange.key taker := by
      simp [clientKey, Exchange.key, Prod.ext_iff]
    simp only [sameKey]

theorem rejectReason_admitted (admitted : Exchange.Market.admission order = .ok (side, tif)) :
    rejectReason order = none := by
  obtain ⟨sideNamed, tifNamed, priced, counted⟩ := Exchange.Market.admission_eq_ok.mp admitted
  have knownSide : ¬ (order.side ≠ sideCode .buy ∧ order.side ≠ sideCode .sell) := by
    rw [sideOf?_eq_some_iff.mp sideNamed]
    cases side <;> simp
  have knownTif : ¬ (order.tif ≠ tifCode .gtc ∧ order.tif ≠ tifCode .ioc) := by
    rw [tifOf?_eq_some_iff.mp tifNamed]
    cases tif <;> simp
  rw [rejectReason, if_neg (Int.not_le.mpr priced), if_neg (Int.not_le.mpr counted),
    if_neg knownSide, if_neg knownTif]

/-- Every live order's id fits, and so does the next. -/
theorem ids_inRange (valid : market.Valid) (numbered : market.tape.nextOrderId < 256 ^ 8) :
    InRange market.tape.nextOrderId ∧ ∀ other ∈ market.tape.live, InRange other.id := by
  obtain ⟨nextPositive, positive⟩ := valid.numbered
  refine ⟨⟨nextPositive.le, numbered⟩, fun other member => ⟨(positive other member).le, ?_⟩⟩
  exact lt_trans (valid.tape.issued other member) numbered

/-- The taker is the submission, as the market enters it. -/
structure Submits (market : Exchange.Market) (order : SubmitOrder) (taker : Exchange.LiveOrder) :
    Prop where
  id : taker.id = market.tape.nextOrderId
  side : order.side = sideCode taker.side
  price : taker.price = order.priceTicks
  remaining : taker.remaining = order.qty
  ticket : taker.ticket =
    ⟨order.clientOrderId, order.userId, order.symbolId, order.timestampNs⟩
  priced : 0 < taker.price
  counted : 0 < taker.remaining

theorem submits_takerOf (market : Exchange.Market)
    (admitted : Exchange.Market.admission order = .ok (side, tif)) :
    Submits market order (market.takerOf order side) := by
  obtain ⟨sideNamed, -, priced, counted⟩ := Exchange.Market.admission_eq_ok.mp admitted
  exact ⟨rfl, sideOf?_eq_some_iff.mp sideNamed, rfl, rfl, rfl, priced, counted⟩

namespace Submits

theorem symbol (submits : Submits market order taker) :
    taker.ticket.symbolId = order.symbolId := by
  rw [submits.ticket]

theorem issued (submits : Submits market order taker) (valid : market.Valid) :
    ∀ other ∈ market.tape.live, other.id < taker.id := by
  rw [submits.id]
  exact valid.tape.issued

theorem unique (submits : Submits market order taker) (valid : market.Valid) :
    WellFormed (market.tape.live ++ [taker]) :=
  valid.tape.wellFormed.append_newest submits.counted (submits.issued valid)

theorem inRange (submits : Submits market order taker) (valid : market.Valid)
    (numbered : market.tape.nextOrderId < 256 ^ 8) :
    ∀ other ∈ market.tape.live ++ [taker], InRange other.id := by
  obtain ⟨nextRange, liveRange⟩ := ids_inRange valid numbered
  intro other member
  cases List.mem_append.mp member with
  | inl old => exact liveRange other old
  | inr new =>
      rw [List.mem_singleton.mp new, submits.id]
      exact nextRange

/-- While the ids fit, the counter of the engine is that of the market. -/
theorem nextOrderId (submits : Submits market order taker) (represents : engine.Represents market)
    (valid : market.Valid) (numbered : market.tape.nextOrderId < 256 ^ 8) :
    engine.nextOrderId = taker.id := by
  obtain ⟨nextRange, -⟩ := ids_inRange valid numbered
  rw [represents.nextOrderId, submits.id, Int.emod_eq_of_lt nextRange.1 nextRange.2]

theorem created (submits : Submits market order taker) (nextId : engine.nextOrderId = taker.id) :
    Order.new (toLong engine.nextOrderId) (toLong order.userId) (toString order.symbolId)
      (if order.side = sideCode .buy then .buy else .sell) order.priceTicks order.qty
      order.timestampNs = .ok ⟨toLong taker.id, toLong taker.ticket.userId,
        toString taker.ticket.symbolId, taker.side, taker.price, taker.remaining,
        taker.ticket.createdAtNs, taker.remaining⟩ := by
  have named : (if order.side = sideCode .buy then Side.buy else .sell) = taker.side := by
    rw [submits.side]
    cases taker.side <;> rfl
  have priced := submits.priced
  have counted := submits.counted
  rw [submits.price] at priced
  rw [submits.remaining] at counted
  rw [Order.new, if_neg (Int.not_le.mpr priced), if_neg (Int.not_le.mpr counted), named, nextId,
    submits.ticket, submits.price, submits.remaining]

theorem registered_eq (submits : Submits market order taker)
    (nextId : engine.nextOrderId = taker.id) : engine.registered taker = { engine with
      nextOrderId := (engine.nextOrderId + 1) % 256 ^ 8
      clientToOrder := engine.clientToOrder.insert (clientKey order.userId order.clientOrderId)
        engine.nextOrderId
      live := engine.live.insert engine.nextOrderId ⟨engine.nextOrderId, order.clientOrderId,
        order.userId, order.symbolId, order.side, order.priceTicks⟩ } := by
  rw [registered, nextId, liveOf, submits.ticket, submits.side, submits.price]

end Submits

/-! ## A run that the engine has matched -/

section Run

variable (submits : Submits market order taker) (valid : market.Valid)
  (run : Executes taker (Exchange.onSymbol taker.ticket.symbolId market.tape.live) trades final left)

include submits valid run in
theorem settled_older : ∀ other ∈ settle trades market.tape.live, other.id < final.id := by
  have finalId : final.id = taker.id := by rw [run.taker_eq]
  rw [finalId]
  exact Exchange.Market.settle_older (submits.issued valid)

include submits valid run in
theorem left_older : ∀ other ∈ left, other.id ≠ final.id := by
  intro other member
  rw [run.book_eq, ← Exchange.onSymbol_settle] at member
  exact (settled_older submits valid run other (Exchange.mem_onSymbol.mp member).1).ne

include submits valid run in
/-- Once the parties of the fills are offered to be forgotten, the settled market is listed. -/
theorem forgotten_lists (range : ∀ other ∈ market.tape.live ++ [taker], InRange other.id)
    (lists : engine.Lists (market.tape.live ++ [taker]) indexed)
    {naive : NaiveModel.OrderBook} {nextOrderId : Int}
    (queues : Queues (engine.book taker.ticket.symbolId) naive (left ++ final.standing) nextOrderId)
    {reported : List NaiveModel.Fill}
    (reports : List.Forall₂ (NaiveModel.OrderBook.Reports taker.bare) reported
      (trades.map Trade.bare)) :
    SameBooks engine
        (engine.forgetFilled taker.ticket.symbolId (reported.map OrderBook.mirrorFill)) ∧
      (engine.forgetFilled taker.ticket.symbolId (reported.map OrderBook.mirrorFill)).Lists
        (settle trades market.tape.live ++ final.standing)
        (Exchange.Market.freed (market.tape.live ++ [taker])
          (settle trades market.tape.live ++ final.standing) indexed) := by
  obtain ⟨sameBooks, kept⟩ := forgetAll_lists taker.ticket.symbolId
    (parties (reported.map OrderBook.mirrorFill)) lists (submits.unique valid)
  rw [← forgetFilled_eq] at sameBooks kept
  have entries := fun {β : Type} => stays_entries valid.tape.wellFormed (submits.issued valid)
    submits.counted range run queues reports (β := β)
  rw [← Exchange.Market.freed_congr (entries (·.id) fun _ _ => rfl).symm] at kept
  exact ⟨sameBooks, kept.congr
    (entries (fun order => (order.id, liveOf order)) fun _ _ => rfl).symm⟩

variable {rest : List Exchange.LiveOrder} (stays : rest = if tif = .gtc then final.standing else [])

include run stays in
theorem rest_symbol : ∀ other ∈ rest, other.ticket.symbolId = taker.ticket.symbolId := by
  intro other member
  rw [stays] at member
  split at member
  · rw [(Exchange.Market.mem_standing.mp member).1, run.taker_eq]
  · cases member

include submits valid run stays in
/-- The keys freed by the settling and then by the expiry are those that are no longer live. -/
theorem freed_rest : Exchange.Market.freed (settle trades market.tape.live ++ final.standing)
    (settle trades market.tape.live ++ rest)
    (Exchange.Market.freed (market.tape.live ++ [taker])
      (settle trades market.tape.live ++ final.standing) indexed) =
    Exchange.Market.freed (market.tape.live ++ [taker])
      (settle trades market.tape.live ++ rest) indexed := by
  refine Exchange.Market.freed_freed (submits.unique valid) (fun kept member => ?_)
    (fun kept member => ?_) indexed
  · cases List.mem_append.mp member with
    | inl old =>
        obtain ⟨before, beforeMember, same⟩ := Exchange.Market.mem_settle_origin old
        exact ⟨before, List.mem_append_left _ beforeMember, by rw [same], by rw [same]; rfl⟩
    | inr new =>
        obtain ⟨rfl, -⟩ := Exchange.Market.mem_standing.mp new
        exact ⟨taker, by simp, by rw [run.taker_eq], by
          rw [Exchange.key, Exchange.key, run.taker_eq]⟩
  · rw [stays] at member
    cases List.mem_append.mp member with
    | inl old => exact List.mem_append_left _ old
    | inr new =>
        split at new
        · exact List.mem_append_right _ new
        · cases new

include submits valid run stays in
theorem books_after (represents : engine.Represents market) {after : StreamEngine}
    (own : ∃ naive, Queues (after.book taker.ticket.symbolId) naive (left ++ rest) (taker.id + 1))
    (elsewhere : ∀ other, other ≠ taker.ticket.symbolId → after.book other = engine.book other)
    (symbolId : Int) : ∃ naive, Queues (after.book symbolId) naive
      (Exchange.onSymbol symbolId (settle trades market.tape.live ++ rest)) (taker.id + 1) := by
  by_cases same : symbolId = taker.ticket.symbolId
  · rw [same, Exchange.Market.onSymbol_traded run (rest_symbol run stays)]
    exact own
  · obtain ⟨other, queues⟩ := represents.holds.books symbolId
    refine ⟨other, ?_⟩
    rw [elsewhere symbolId same, Exchange.Market.onSymbol_untraded valid.tape.wellFormed run
      (rest_symbol run stays) same]
    exact queues.mono (by rw [submits.id]; omega)

end Run

/-- The engine once the new order is listed and its book has been matched. -/
def listed (engine : StreamEngine) (taker : Exchange.LiveOrder) (symbolId : Int)
    (book : OrderBook) : StreamEngine :=
  (engine.registered taker).setBook symbolId book

theorem listed_book (engine : StreamEngine) (taker : Exchange.LiveOrder) (symbolId : Int)
    (book : OrderBook) (other : Int) : (engine.listed taker symbolId book).book other =
      if other = symbolId then book else engine.book other := book_setBook ..

theorem submit_run (represents : engine.Represents market) (valid : market.Valid)
    (numbered : market.tape.nextOrderId < 256 ^ 8)
    (admitted : Exchange.Market.admission order = .ok (side, tif))
    (submits : Submits market order taker)
    (run : Executes taker (Exchange.onSymbol order.symbolId market.tape.live) trades final left)
    {rest expired : List Exchange.LiveOrder} (stays : rest = if tif = .gtc then final.standing else [])
    (leaves : expired = if tif = .ioc then final.standing else []) :
    ∃ after, engine.submit order = .ok (after,
        .orderAccepted (Exchange.Market.acceptance order taker.id) ::
          (trades.map (fun trade => .fill (Exchange.Market.fillOf taker trade)) ++
            expired.map fun order => .orderCancelled
              (Exchange.Market.cancellation order.ticket.createdAtNs .iocExpired order))) ∧
      after.Represents ⟨⟨taker.id + 1, settle trades market.tape.live ++ rest⟩,
        Exchange.Market.freed (market.tape.live ++ [taker]) (settle trades market.tape.live ++ rest)
          (Function.update market.indexed (Exchange.key taker) (some taker.id))⟩ ∧
      after.initialCashTicks = engine.initialCashTicks := by
  have nextId := submits.nextOrderId represents valid numbered
  have range := submits.inRange valid numbered
  have symbol := submits.symbol
  have finalId : final.id = taker.id := by rw [run.taker_eq]
  have finalTicket : final.ticket = taker.ticket := by rw [run.taker_eq]
  obtain ⟨naive, queues⟩ := represents.holds.books order.symbolId
  rw [← submits.id] at queues
  obtain ⟨entered, book, after, reported, added, matched, reports, bookQueues⟩ := queues.matched
    (fun other member => submits.issued valid other (Exchange.mem_onSymbol.mp member).1)
    (range taker (by simp)) submits.priced submits.counted (valid.tape.wellFormed.filter _)
    (valid.uncrossed _) run
  rw [← symbol] at run
  have lists : (engine.listed taker order.symbolId book).Lists (market.tape.live ++ [taker])
      (Function.update market.indexed (Exchange.key taker) (some taker.id)) := by
    have registered := registered_lists represents.holds.toLists (submits.issued valid)
    exact ⟨registered.live, registered.index⟩
  obtain ⟨-, makerLive⟩ := Exchange.Market.makers_listed valid.tape.wellFormed run
  have records := fillRecords_ok lists (by rw [submits.ticket]) range (by simp)
    (fun trade member => List.mem_append_left _ (makerLive trade member).1)
    (fun trade member => (submits.issued valid _ (makerLive trade member).1).ne) reports
  have listedBook : (engine.listed taker order.symbolId book).book order.symbolId = book := by
    rw [listed_book, if_pos rfl]
  rw [← listedBook, ← symbol] at bookQueues
  obtain ⟨sameBooks, kept⟩ := forgotten_lists submits valid run range (symbol ▸ lists) bookQueues
    reports
  rw [← sameBooks.book, symbol] at bookQueues
  rw [symbol] at sameBooks kept
  obtain ⟨settled, expiry, lastLists, last, elsewhere, next, cash⟩ :=
    expire_ok (tifOf?_eq_some_iff.mp (Exchange.Market.admission_eq_ok.mp admitted).2.1)
      (by rw [finalTicket, submits.ticket]) (by rw [finalTicket, submits.ticket])
      (by rw [finalTicket, submits.ticket]) kept
      ((valid.tape.wellFormed.settle _).append_standing (settled_older submits valid run))
      (fun other member => (settled_older submits valid run other member).ne)
      (left_older submits valid run) bookQueues stays leaves
  rw [freed_rest submits valid run stays] at lastLists
  refine ⟨settled, ?_, ⟨?_, ⟨lastLists, ?_⟩⟩, cash.trans sameBooks.initialCashTicks⟩
  · have entering : (engine.registered taker).book order.symbolId = engine.book order.symbolId := rfl
    simp only [submit, rejectReason_admitted admitted]
    rw [← submits.registered_eq nextId, submits.created nextId]
    simp only [Fault.ok_bind, entering, added, matched]
    rw [finalId, listed] at expiry
    rw [listed] at records
    rw [nextId, records]
    simp only [Fault.ok_bind]
    rw [expiry]
    rfl
  · rw [next, sameBooks.nextOrderId]
    show (engine.nextOrderId + 1) % 256 ^ 8 = (taker.id + 1) % 256 ^ 8
    rw [nextId]
  · rw [← symbol] at last
    refine books_after submits valid run stays represents last fun other different => ?_
    rw [symbol] at different
    rw [elsewhere other different, sameBooks.book, listed_book, if_neg different]

theorem submit_ok (represents : engine.Represents market) (valid : market.Valid)
    (numbered : market.tape.nextOrderId < 256 ^ 8)
    (admitted : Exchange.Market.admission order = .ok (side, tif)) :
    ∃ after, engine.submit order = .ok (after, (market.submit order).2) ∧
      after.Represents (market.submit order).1 ∧
      after.initialCashTicks = engine.initialCashTicks := by
  unfold Exchange.Market.submit
  rw [admitted]
  exact submit_run represents valid numbered admitted (submits_takerOf market admitted)
    (execute_executes _ _) rfl rfl

/-! ## Cancel and the rest -/

theorem cancel_ok (represents : engine.Represents market) (valid : market.Valid)
    (request : CancelOrder) :
    ∃ after, engine.cancel request = .ok (after, (market.cancel request).2) ∧
      after.Represents (market.cancel request).1 ∧
      after.initialCashTicks = engine.initialCashTicks := by
  have lookup := represents.holds.index (request.userId, request.targetClientOrderId)
  cases named : market.named (request.userId, request.targetClientOrderId) with
  | none =>
      have missing : market.indexed (request.userId, request.targetClientOrderId) = none := by
        cases found : market.indexed (request.userId, request.targetClientOrderId) with
        | none => rfl
        | some orderId =>
            obtain ⟨order, member, rfl, -⟩ := valid.index _ _ found
            rw [(Exchange.Market.named_eq_some valid).mpr ⟨member, found⟩] at named
            cases named
      rw [missing] at lookup
      refine ⟨engine, ?_, ?_, rfl⟩
      · simp only [cancel, lookup, Exchange.Market.cancel, named]
        rfl
      · simpa only [Exchange.Market.cancel, named] using represents
  | some order =>
      obtain ⟨member, found⟩ := (Exchange.Market.named_eq_some valid).mp named
      have sameKey : Exchange.key order = (request.userId, request.targetClientOrderId) :=
        Exchange.Market.named_key valid named
      have user : order.ticket.userId = request.userId := congrArg Prod.fst sameKey
      have client : order.ticket.clientOrderId = request.targetClientOrderId :=
        congrArg Prod.snd sameKey
      rw [found] at lookup
      have listed := represents.holds.find? member
      obtain ⟨naive, queues⟩ := represents.holds.books order.ticket.symbolId
      have onSymbol := Exchange.mem_onSymbol.mpr ⟨member, rfl⟩
      obtain ⟨held, onBook, quantity, -⟩ := queues.getOrder onSymbol
      obtain ⟨last, lastQueues⟩ := queues.removed onSymbol
      let erased : StreamEngine := { engine with
        clientToOrder :=
          engine.clientToOrder.erase (clientKey request.userId request.targetClientOrderId)
        live := engine.live.erase order.id }
      let after := erased.setBook order.ticket.symbolId
        ((engine.book order.ticket.symbolId).cancelOrder (toLong order.id))
      have lists : after.Lists (remove order.id market.tape.live) _ :=
        represents.holds.toLists.erased valid.tape.wellFormed member rfl (by rw [user, client]; rfl)
      refine ⟨after, ?_, ?_, rfl⟩
      · have symbol : (liveOf order).symbolId = order.ticket.symbolId := rfl
        have orderId : (liveOf order).orderId = order.id := rfl
        simp only [cancel, lookup, listed, symbol, orderId, onBook, Exchange.Market.cancel, named,
          quantity]
        rfl
      simp only [Exchange.Market.cancel, named]
      refine ⟨represents.nextOrderId, lists, ?_⟩
      intro symbolId
      have filtered : Exchange.onSymbol symbolId (remove order.id market.tape.live) =
          remove order.id (Exchange.onSymbol symbolId market.tape.live) := List.filter_comm ..
      by_cases same : symbolId = order.ticket.symbolId
      · refine ⟨last, ?_⟩
        rw [same] at filtered ⊢
        rw [filtered, (book_setBook ..).trans (if_pos rfl)]
        exact lastQueues
      · obtain ⟨other, otherQueues⟩ := represents.holds.books symbolId
        have elsewhere : remove order.id (Exchange.onSymbol symbolId market.tape.live) =
            Exchange.onSymbol symbolId market.tape.live := by
          refine List.filter_eq_self.mpr fun kept keptMember => ?_
          obtain ⟨keptLive, keptSymbol⟩ := Exchange.mem_onSymbol.mp keptMember
          have different : kept.id ≠ order.id := by
            intro sameId
            rw [valid.tape.wellFormed.eq_of_id keptLive member sameId] at keptSymbol
            exact same keptSymbol.symm
          simpa using different
        refine ⟨other, ?_⟩
        rw [filtered, elsewhere, (book_setBook ..).trans (if_neg same)]
        exact otherQueues

/-- What the engine does not reject, the market admits. -/
theorem admitted_of_kept (kept : rejectReason order = none) :
    ∃ side tif, Exchange.Market.admission order = .ok (side, tif) := by
  unfold rejectReason at kept
  split at kept
  · cases kept
  · rename_i priced
    split at kept
    · cases kept
    · rename_i counted
      split at kept
      · cases kept
      · rename_i sided
        split at kept
        · cases kept
        · rename_i timed
          have side : ∃ side, sideOf? order.side = some side := by
            by_cases buys : order.side = sideCode .buy
            · exact ⟨.buy, by rw [buys, sideOf?_sideCode]⟩
            · by_cases sells : order.side = sideCode .sell
              · exact ⟨.sell, by rw [sells, sideOf?_sideCode]⟩
              · exact absurd ⟨buys, sells⟩ sided
          have tif : ∃ tif, tifOf? order.tif = some tif := by
            by_cases rests : order.tif = tifCode .gtc
            · exact ⟨.gtc, by rw [rests, tifOf?_tifCode]⟩
            · by_cases expires : order.tif = tifCode .ioc
              · exact ⟨.ioc, by rw [expires, tifOf?_tifCode]⟩
              · exact absurd ⟨rests, expires⟩ timed
          obtain ⟨side, sideNamed⟩ := side
          obtain ⟨tif, tifNamed⟩ := tif
          exact ⟨side, tif, Exchange.Market.admission_eq_ok.mpr
            ⟨sideNamed, tifNamed, Int.not_le.mp priced, Int.not_le.mp counted⟩⟩

/-- What the engine writes for a record: what the market does, except that a submission
with several faults may be refused for another of them. -/
def answer (initialCashTicks : Int) (market : Exchange.Market) : Inbound → List Outbound
  | .submitOrder order =>
      match rejectReason order with
      | some reason => [rejected order reason]
      | none => (market.submit order).2
  | record => (market.apply initialCashTicks record).2

def answers (initialCashTicks : Int) (market : Exchange.Market) : List Inbound → List Outbound
  | [] => []
  | record :: rest => answer initialCashTicks market record ++
      answers initialCashTicks (market.apply initialCashTicks record).1 rest

theorem apply_ok (represents : engine.Represents market) (valid : market.Valid) (record : Inbound)
    (numbered :
      (market.apply engine.initialCashTicks record).1.tape.nextOrderId ≤ 256 ^ 8) :
    ∃ after, engine.apply record = .ok (after, answer engine.initialCashTicks market record) ∧
      after.Represents (market.apply engine.initialCashTicks record).1 ∧
      after.initialCashTicks = engine.initialCashTicks := by
  cases record with
  | submitOrder order =>
      cases refused : rejectReason order with
      | some reason =>
          have unchanged : (market.submit order).1 = market := by
            unfold Exchange.Market.submit
            cases admitted : Exchange.Market.admission order with
            | error _ => rfl
            | ok choice =>
                rw [rejectReason_admitted admitted] at refused
                cases refused
          refine ⟨engine, ?_, ?_, rfl⟩
          · simp only [apply, submit, answer, refused]
          · simpa only [Exchange.Market.apply, unchanged] using represents
      | none =>
          obtain ⟨side, tif, admitted⟩ := admitted_of_kept refused
          have room : market.tape.nextOrderId < 256 ^ 8 := by
            simp only [Exchange.Market.apply, Exchange.Market.submit, admitted] at numbered
            exact numbered
          have sameAnswer : answer engine.initialCashTicks market (.submitOrder order) =
              (market.submit order).2 := by
            rw [answer, refused]
          rw [sameAnswer]
          exact submit_ok represents valid room admitted
  | cancelOrder request => exact cancel_ok represents valid request
  | createAccount create => exact ⟨engine, rfl, represents, rfl⟩
  | creditCash credit => exact ⟨engine, rfl, represents, rfl⟩
  | configureReplay replay => exact ⟨engine, rfl, represents, rfl⟩
  | other => exact ⟨engine, rfl, represents, rfl⟩

theorem applyAll_ok (represents : engine.Represents market) (valid : market.Valid)
    (records : List Inbound)
    (numbered : (market.run engine.initialCashTicks records).1.tape.nextOrderId ≤ 256 ^ 8) :
    ∃ after, engine.applyAll records = .ok (after, answers engine.initialCashTicks market records) ∧
      after.Represents (market.run engine.initialCashTicks records).1 ∧
      after.initialCashTicks = engine.initialCashTicks := by
  induction records generalizing engine market with
  | nil => exact ⟨engine, rfl, represents, rfl⟩
  | cons record rest ih =>
      have first := (Exchange.Market.run_nextOrderId engine.initialCashTicks
        (market.apply engine.initialCashTicks record).1 rest).1
      obtain ⟨middle, applied, middleRepresents, middleCash⟩ :=
        apply_ok represents valid record (le_trans first numbered)
      obtain ⟨after, finished, afterRepresents, afterCash⟩ := ih middleRepresents
        (Exchange.Market.apply_valid _ valid record) (by rw [middleCash]; exact numbered)
      rw [middleCash] at finished afterRepresents
      refine ⟨after, ?_, afterRepresents, afterCash.trans middleCash⟩
      rw [applyAll, applied]
      simp only [Fault.ok_bind, finished]
      rfl

/-- Nothing is refused of what the market admits. -/
theorem answer_admitted (initialCashTicks : Int) (market : Exchange.Market) {record : Inbound}
    (admitted : ∀ order, record = .submitOrder order →
      ∃ side tif, Exchange.Market.admission order = .ok (side, tif)) :
    answer initialCashTicks market record = (market.apply initialCashTicks record).2 := by
  cases record with
  | submitOrder order =>
      obtain ⟨side, tif, admitted⟩ := admitted order rfl
      rw [answer, rejectReason_admitted admitted]
      rfl
  | _ => rfl

theorem answers_admitted (initialCashTicks : Int) {records : List Inbound}
    (admitted : ∀ order, .submitOrder order ∈ records →
      ∃ side tif, Exchange.Market.admission order = .ok (side, tif)) (market : Exchange.Market) :
    answers initialCashTicks market records = (market.run initialCashTicks records).2 := by
  induction records generalizing market with
  | nil => rfl
  | cons record rest ih =>
      rw [answers, answer_admitted initialCashTicks market fun order same =>
        admitted order (same ▸ List.mem_cons_self), ih fun order member =>
        admitted order (List.mem_cons_of_mem _ member)]
      rfl

end StreamEngine

end QuantArena.Engine.Cpp
