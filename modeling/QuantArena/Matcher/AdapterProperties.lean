import QuantArena.Engine.NaiveModelMatching
import QuantArena.Exchange.MarketProperties
import QuantArena.Matcher.Adapter

/-! The naive matcher represents a market: its maps and books hold the market's
live orders, each exactly once, and every call does to them what the market does. -/

set_option autoImplicit false

namespace QuantArena.Matcher

open Foundations Foundations.PriceTime Contracts Exchange Engine.NaiveModel

/-- The record and the model order it was created with agree. -/
structure Live.Coherent (live : Live) : Prop where
  orderId : live.modelOrder.orderId = live.orderId
  side : live.side = sideCode live.modelOrder.side
  price : live.modelOrder.price = live.priceTicks

def Live.name (live : Live) : Int × Int := (live.userId, live.clientOrderId)

namespace NaiveMatcher

def liveOrder (matcher : NaiveMatcher) (live : Live) : LiveOrder :=
  ⟨live.orderId, live.modelOrder.side, live.priceTicks, matcher.remainingQty live,
    ⟨live.clientOrderId, live.userId, live.symbolId, live.modelOrder.createdAt⟩⟩

/-- The client-id index names live orders, each under its own key. -/
structure Indexes (matcher : NaiveMatcher) (indexed : Int × Int → Option Int) : Prop where
  names : ∀ name, (matcher.live.get? name).map (·.orderId) = indexed name
  points : ∀ name live, matcher.live.get? name = some live →
    matcher.byOrderId.get? live.orderId = some live ∧ live.name = name

structure Represents (matcher : NaiveMatcher) (market : Market) : Prop where
  nextOrderId : matcher.nextOrderId = market.tape.nextOrderId
  live : matcher.byOrderId.values.map matcher.liveOrder = market.tape.live
  keyed : ∀ orderId live, matcher.byOrderId.get? orderId = some live → live.orderId = orderId
  coherent : ∀ live ∈ matcher.byOrderId.values, live.Coherent
  held : ∀ live ∈ matcher.byOrderId.values,
    live.modelOrder ∈ (matcher.book live.symbolId).orders
  shaped : ∀ symbolId, (matcher.book symbolId).Shaped
  resting : ∀ symbolId,
    (matcher.book symbolId).resting = (onSymbol symbolId market.tape.live).map Resting.bare
  index : matcher.Indexes market.indexed

theorem new_represents (firstOrderId initialCashTicks : Int) :
    (new firstOrderId initialCashTicks).Represents ⟨⟨firstOrderId, []⟩, fun _ => none⟩ where
  nextOrderId := rfl
  live := rfl
  keyed _ _ found := by cases found
  coherent _ member := by simp [new] at member
  held _ member := by simp [new] at member
  shaped _ := OrderBook.new_shaped
  resting _ := rfl
  index := ⟨fun _ => rfl, fun _ _ found => by cases found⟩

/-! ## Books -/

variable {matcher : NaiveMatcher} {market : Market}

theorem book_setBook (matcher : NaiveMatcher) (symbolId other : Int) (book : OrderBook) :
    (matcher.setBook symbolId book).book other =
      if other = symbolId then book else matcher.book other :=
  Dict.getD_set ..

@[simp] theorem book_forget (matcher : NaiveMatcher) (live : Live) (symbolId : Int) :
    (matcher.forget live).book symbolId = matcher.book symbolId := rfl

@[simp] theorem remainingQty_forget (matcher : NaiveMatcher) (live other : Live) :
    (matcher.forget live).remainingQty other = matcher.remainingQty other := rfl

/-! ## Live orders -/

theorem Represents.mem_live (represents : matcher.Represents market) {order : LiveOrder} :
    order ∈ market.tape.live ↔
      ∃ live ∈ matcher.byOrderId.values, matcher.liveOrder live = order := by
  rw [← represents.live, List.mem_map]

theorem Represents.get?_of_mem (represents : matcher.Represents market) {live : Live}
    (member : live ∈ matcher.byOrderId.values) :
    matcher.byOrderId.get? live.orderId = some live := by
  obtain ⟨orderId, found⟩ := Dict.mem_values_iff.mp member
  rw [represents.keyed orderId live found]
  exact found

theorem mem_values_of_get? {orderId : Int} {live : Live}
    (found : matcher.byOrderId.get? orderId = some live) : live ∈ matcher.byOrderId.values :=
  Dict.mem_values_iff.mpr ⟨orderId, found⟩

/-- The quantity of a live order is a cell of its symbol's book. -/
theorem Represents.cell (represents : matcher.Represents market) {live : Live}
    (member : live ∈ matcher.byOrderId.values) :
    (matcher.book live.symbolId).remaining.get? live.orderId = some (matcher.remainingQty live) := by
  rw [← (represents.coherent live member).orderId]
  exact (represents.shaped _).get?_remaining (represents.held live member)

/-- Each live order is known by its id, with its remaining quantity in its book. -/
theorem Represents.find (represents : matcher.Represents market) {order : LiveOrder}
    (member : order ∈ market.tape.live) :
    ∃ live, matcher.byOrderId.get? order.id = some live ∧ matcher.liveOrder live = order := by
  obtain ⟨live, liveMember, same⟩ := represents.mem_live.mp member
  refine ⟨live, ?_, same⟩
  rw [← same]
  exact represents.get?_of_mem liveMember

/-! ## Forgetting -/

/-- `after` is `before` less the orders that are gone, books aside. -/
structure Dropped (before after : NaiveMatcher) (gone : List LiveOrder) : Prop where
  initialCashTicks : after.initialCashTicks = before.initialCashTicks
  nextOrderId : after.nextOrderId = before.nextOrderId
  byOrderId : ∀ orderId, after.byOrderId.get? orderId =
    if orderId ∈ gone.map (·.id) then none else before.byOrderId.get? orderId
  values : after.byOrderId.values =
    before.byOrderId.values.filter fun live => live.orderId ∉ gone.map (·.id)
  live : ∀ name, after.live.get? name =
    if name ∈ gone.map key then none else before.live.get? name

theorem Dropped.refl (matcher : NaiveMatcher) : Dropped matcher matcher [] := by
  constructor <;> simp

theorem Dropped.trans {before middle after : NaiveMatcher} {first second : List LiveOrder}
    (early : Dropped before middle first) (late : Dropped middle after second) :
    Dropped before after (first ++ second) where
  initialCashTicks := late.initialCashTicks.trans early.initialCashTicks
  nextOrderId := late.nextOrderId.trans early.nextOrderId
  byOrderId orderId := by
    rw [late.byOrderId, early.byOrderId, List.map_append]
    by_cases inFirst : orderId ∈ first.map (·.id) <;>
      by_cases inSecond : orderId ∈ second.map (·.id) <;> simp [inFirst, inSecond]
  values := by
    rw [late.values, early.values, List.filter_filter]
    apply List.filter_congr
    intro live _
    simp [List.map_append, Bool.and_comm]
  live name := by
    rw [late.live, early.live, List.map_append]
    by_cases inFirst : name ∈ first.map key <;>
      by_cases inSecond : name ∈ second.map key <;> simp [inFirst, inSecond]

theorem Dropped.keyed {before after : NaiveMatcher} {gone : List LiveOrder}
    (dropped : Dropped before after gone)
    (keyed : ∀ orderId live, before.byOrderId.get? orderId = some live → live.orderId = orderId) :
    ∀ orderId live, after.byOrderId.get? orderId = some live → live.orderId = orderId := by
  intro orderId live found
  rw [dropped.byOrderId] at found
  split at found
  · cases found
  · exact keyed orderId live found

theorem forget_dropped
    (keyed : ∀ orderId live, matcher.byOrderId.get? orderId = some live → live.orderId = orderId)
    {live : Live} {order : LiveOrder} (sameId : order.id = live.orderId)
    (sameKey : key order = live.name) : Dropped matcher (matcher.forget live) [order] where
  initialCashTicks := rfl
  nextOrderId := rfl
  byOrderId orderId := by
    rw [forget, Dict.get?_erase]
    simp [sameId]
  values := by
    rw [forget, Dict.values_erase_of_keyed _ _ keyed]
    simp [sameId]
  live name := by
    rw [forget, Dict.get?_erase]
    simp [sameKey, Live.name]

/-- Forgetting orders frees exactly the keys of those that are no longer live. -/
theorem Indexes.dropped {before after : NaiveMatcher} {indexed : Int × Int → Option Int}
    {orders gone kept : List LiveOrder} (indexes : before.Indexes indexed)
    (dropped : Dropped before after gone) (unique : WellFormed orders)
    (known : before.byOrderId.values.map (fun live => (live.orderId, live.name)) =
      orders.map fun order => (order.id, key order))
    (leaving : ∀ order ∈ gone, order ∈ orders)
    (staying : kept.map (·.id) = after.byOrderId.values.map (·.orderId)) :
    after.Indexes (Market.freed orders kept indexed) := by
  have goneOf : ∀ order ∈ orders, order.id ∈ gone.map (·.id) → order ∈ gone := by
    intro order member same
    obtain ⟨other, otherMember, otherId⟩ := List.mem_map.mp same
    rwa [← unique.eq_of_id (leaving other otherMember) member otherId]
  have keptIds : ∀ orderId, orderId ∈ kept.map (·.id) ↔
      orderId ∈ orders.map (·.id) ∧ orderId ∉ gone.map (·.id) := by
    intro orderId
    have ids : orders.map (·.id) = before.byOrderId.values.map (·.orderId) := by
      have firsts := congrArg (List.map Prod.fst) known
      simpa [List.map_map, Function.comp_def] using firsts.symm
    rw [staying, dropped.values, ids]
    simp only [List.mem_map, List.mem_filter, decide_not, Bool.not_eq_eq_eq_not, Bool.not_true,
      decide_eq_false_iff_not]
    constructor
    · rintro ⟨live, ⟨member, stays⟩, rfl⟩
      exact ⟨⟨live, member, rfl⟩, stays⟩
    · rintro ⟨⟨live, member, rfl⟩, stays⟩
      exact ⟨live, ⟨member, stays⟩, rfl⟩
  have freedIff : ∀ name, (∃ order ∈ orders, key order = name ∧
      ∀ survivor ∈ kept, survivor.id ≠ order.id) ↔ name ∈ gone.map key := by
    intro name
    constructor
    · rintro ⟨order, member, rfl, absent⟩
      refine List.mem_map_of_mem (goneOf order member ?_)
      by_contra stays
      obtain ⟨survivor, survivorMember, same⟩ := List.mem_map.mp
        ((keptIds order.id).mpr ⟨List.mem_map_of_mem member, stays⟩)
      exact absent survivor survivorMember same
    · intro member
      obtain ⟨order, orderMember, rfl⟩ := List.mem_map.mp member
      refine ⟨order, leaving order orderMember, rfl, ?_⟩
      intro survivor survivorMember same
      exact ((keptIds survivor.id).mp (List.mem_map_of_mem survivorMember)).2
        (same ▸ List.mem_map_of_mem orderMember)
  constructor
  · intro name
    rw [dropped.live, Market.freed]
    by_cases gone : name ∈ gone.map key
    · rw [if_pos gone, if_pos ((freedIff name).mpr gone)]
      rfl
    · rw [if_neg gone, if_neg (fun freed => gone ((freedIff name).mp freed)), indexes.names]
  · intro name live found
    rw [dropped.live] at found
    split at found
    · cases found
    · rename_i stays
      obtain ⟨present, sameName⟩ := indexes.points name live found
      refine ⟨?_, sameName⟩
      rw [dropped.byOrderId, if_neg ?_]
      · exact present
      · intro goneId
        obtain ⟨order, orderMember, orderId⟩ := List.mem_map.mp goneId
        have pair : (live.orderId, live.name) ∈ orders.map fun order => (order.id, key order) := by
          rw [← known]
          exact List.mem_map_of_mem (mem_values_of_get? present)
        obtain ⟨same, sameMember, both⟩ := List.mem_map.mp pair
        obtain ⟨sameId, sameKey⟩ := Prod.mk.inj both
        have equal : same = order :=
          unique.eq_of_id sameMember (leaving order orderMember) (sameId.trans orderId.symm)
        exact stays (List.mem_map.mpr ⟨order, orderMember, by rw [← equal, sameKey, sameName]⟩)

/-! ## Reporting the fills -/

variable {taker final : LiveOrder} {trades : List (Trade Int Int Ticket)} {left : List LiveOrder}
  {order : SubmitOrder}

/-- The makers a run of trades exhausts. -/
def spent (trades : List (Trade Int Int Ticket)) : List LiveOrder :=
  (trades.filter fun trade => trade.maker.remaining = trade.qty).map (·.maker)

/-- The matcher knows the order, and its book already shows `remaining` of it. -/
def Knows (matcher : NaiveMatcher) (order : LiveOrder) (remaining : Int) : Prop :=
  ∃ live, matcher.byOrderId.get? order.id = some live ∧ live.name = key order ∧
    live.symbolId = order.ticket.symbolId ∧ matcher.remainingQty live = remaining

theorem toContractFills_ok (side : order.side = sideCode taker.side)
    (timestamp : order.timestampNs = taker.ticket.createdAtNs)
    {reported : List Engine.NaiveModel.Fill}
    (reports : List.Forall₂ (OrderBook.Reports taker.bare) reported (trades.map Trade.bare)) :
    ∀ {matcher : NaiveMatcher},
      (∀ orderId live, matcher.byOrderId.get? orderId = some live → live.orderId = orderId) →
      (trades.map (·.maker.id)).Nodup → (∀ trade ∈ trades, trade.maker.id ≠ taker.id) →
      matcher.Knows taker final.remaining →
      (∀ trade ∈ trades, matcher.Knows trade.maker (trade.maker.remaining - trade.qty)) →
      ∃ after, matcher.toContractFills order taker.id reported =
          .ok (after, trades.map fun trade => .fill (Market.fillOf taker trade)) ∧
        Dropped matcher after (spent trades) ∧ after.books = matcher.books := by
  induction trades generalizing reported with
  | nil =>
      intro matcher _ _ _ _ _
      cases reports
      exact ⟨matcher, rfl, Dropped.refl matcher, rfl⟩
  | cons trade rest ih =>
      intro matcher keyed distinct older knowsTaker knowsMakers
      cases reports with
      | @cons modelFill _ others _ report reports =>
          rw [List.map_cons, List.nodup_cons] at distinct
          obtain ⟨fresh, distinct⟩ := distinct
          have makerNotTaker := older trade List.mem_cons_self
          obtain ⟨filled, filledFound, filledName, filledSymbol, filledRemaining⟩ := knowsTaker
          obtain ⟨maker, makerFound, makerName, makerSymbol, makerRemaining⟩ :=
            knowsMakers trade List.mem_cons_self
          have makerId : maker.orderId = trade.maker.id := keyed _ _ makerFound
          have makerOrderId : (if modelFill.buyOrderId = taker.id then modelFill.sellOrderId
              else modelFill.buyOrderId) = trade.maker.id := by
            have buyer := report.buyer
            have seller := report.seller
            cases takerSide : taker.side with
            | buy =>
                have bareSide : taker.bare.side = .buy := takerSide
                rw [bareSide, if_pos rfl] at buyer seller
                exact (if_pos buyer).trans seller
            | sell =>
                have bareSide : taker.bare.side = .sell := takerSide
                rw [bareSide, if_neg (by decide)] at buyer seller
                have notTaker : modelFill.buyOrderId ≠ taker.id := by
                  rw [buyer]
                  exact makerNotTaker
                exact (if_neg notTaker).trans buyer
          -- Dropping this maker leaves every other order known.
          obtain ⟨middle, middleEq, dropped, sameBooks⟩ : ∃ middle,
              (if matcher.remainingQty maker = 0 then matcher.forget maker else matcher) = middle ∧
              Dropped matcher middle (spent [trade]) ∧ middle.books = matcher.books := by
            refine ⟨_, rfl, ?_⟩
            by_cases exhausted : trade.maker.remaining = trade.qty
            · have zero : matcher.remainingQty maker = 0 := by omega
              rw [if_pos zero]
              have one : spent [trade] = [trade.maker] := by simp [spent, exhausted]
              rw [one]
              exact ⟨forget_dropped keyed makerId.symm makerName.symm, rfl⟩
            · have some_left : matcher.remainingQty maker ≠ 0 := by omega
              rw [if_neg some_left]
              have nobody : spent [trade] = [] := by simp [spent, exhausted]
              rw [nobody]
              exact ⟨Dropped.refl matcher, rfl⟩
          have sameQty : ∀ live, middle.remainingQty live = matcher.remainingQty live := by
            intro live
            rw [remainingQty, remainingQty, book, book, sameBooks]
          have stillKnows : ∀ {known : LiveOrder} {remaining : Int}, known.id ≠ trade.maker.id →
              matcher.Knows known remaining → middle.Knows known remaining := by
            rintro known remaining different ⟨live, found, sameName, sameSymbol, sameRemaining⟩
            refine ⟨live, ?_, sameName, sameSymbol, (sameQty live).trans sameRemaining⟩
            have kept : known.id ∉ (spent [trade]).map (·.id) := by
              intro member
              obtain ⟨gone, goneMember, same⟩ := List.mem_map.mp member
              obtain ⟨other, otherMember, rfl⟩ := List.mem_map.mp goneMember
              have only := List.mem_singleton.mp (List.mem_of_mem_filter otherMember)
              exact different (same.symm.trans (only ▸ rfl))
            rw [dropped.byOrderId, if_neg kept]
            exact found
          obtain ⟨after, finished, droppedLater, booksLater⟩ := ih reports (dropped.keyed keyed)
            distinct (fun later member => older later (List.mem_cons_of_mem _ member))
            (stillKnows makerNotTaker.symm ⟨filled, filledFound, filledName, filledSymbol,
              filledRemaining⟩)
            (fun later member => stillKnows
              (fun same => fresh (same ▸ List.mem_map_of_mem member))
              (knowsMakers later (List.mem_cons_of_mem _ member)))
          refine ⟨after, ?_, ?_, booksLater.trans sameBooks⟩
          · have makerUser : maker.userId = trade.maker.ticket.userId := congrArg Prod.fst makerName
            have takerUser : filled.userId = taker.ticket.userId := congrArg Prod.fst filledName
            have price : modelFill.price = trade.maker.price := report.price
            have quantity : modelFill.quantity = trade.qty := report.quantity
            simp only [toContractFills, toContractFill, makerOrderId, makerFound, filledFound,
              orMissing_some, Fault.ok_bind, middleEq, finished, makerUser, takerUser, price,
              quantity, makerSymbol, side, timestamp]
            rfl
          · have whole : spent (trade :: rest) = spent [trade] ++ spent rest := by
              rw [spent, spent, spent, ← List.map_append, ← List.filter_append]
              rfl
            rw [whole]
            exact dropped.trans droppedLater

/-! ## Matching a new order -/

/-- An order is exhausted exactly when the trades drew all of it. -/
theorem mem_spent_iff {live : List LiveOrder} (valid : WellFormed live)
    (distinct : (trades.map (·.maker.id)).Nodup)
    (sound : ∀ trade ∈ trades, trade.maker ∈ live ∧ trade.qty ≤ trade.maker.remaining)
    {order : LiveOrder} (member : order ∈ live) :
    order.id ∈ (spent trades).map (·.id) ↔ order.remaining ≤ drawn trades order.id := by
  by_cases traded : ∃ trade ∈ trades, trade.maker.id = order.id
  · obtain ⟨trade, tradeMember, sameId⟩ := traded
    have same : trade.maker = order := valid.eq_of_id (sound trade tradeMember).1 member sameId
    have amount := drawn_of_mem distinct tradeMember
    rw [sameId] at amount
    have within := (sound trade tradeMember).2
    rw [amount, ← same]
    constructor
    · intro gone
      obtain ⟨maker, makerMember, makerId⟩ := List.mem_map.mp gone
      obtain ⟨other, otherMember, rfl⟩ := List.mem_map.mp makerMember
      obtain ⟨otherTraded, exhausted⟩ := List.mem_filter.mp otherMember
      have only : other = trade := List.inj_on_of_nodup_map distinct otherTraded tradeMember
        makerId
      rw [only] at exhausted
      exact le_of_eq (by simpa using exhausted)
    · intro exhausted
      refine List.mem_map_of_mem (List.mem_map.mpr ⟨trade, List.mem_filter.mpr ⟨tradeMember, ?_⟩, rfl⟩)
      simpa using le_antisymm exhausted within
  · have untouched : drawn trades order.id = 0 :=
      drawn_of_absent fun trade tradeMember same => traded ⟨trade, tradeMember, same⟩
    have live := valid.positive order member
    rw [untouched]
    constructor
    · intro gone
      obtain ⟨maker, makerMember, makerId⟩ := List.mem_map.mp gone
      obtain ⟨other, otherMember, rfl⟩ := List.mem_map.mp makerMember
      exact absurd ⟨other, List.mem_of_mem_filter otherMember, makerId⟩ traded
    · intro exhausted
      exact absurd live (Int.not_lt.mpr exhausted)

/-- The model order and the record `_submit` creates for an accepted order. -/
def modelOrderOf (orderId : Int) (order : SubmitOrder) (side : Side) : Order where
  orderId := orderId
  userId := order.userId
  symbol := toString order.symbolId
  side := side
  price := order.priceTicks
  quantity := order.qty
  createdAt := order.timestampNs

def liveOf (orderId : Int) (order : SubmitOrder) (side : Side) : Live where
  orderId := orderId
  clientOrderId := order.clientOrderId
  userId := order.userId
  symbolId := order.symbolId
  side := order.side
  priceTicks := order.priceTicks
  qty := order.qty
  modelOrder := modelOrderOf orderId order side

def registered (matcher : NaiveMatcher) (order : SubmitOrder) (side : Side) : NaiveMatcher :=
  { matcher with
    nextOrderId := matcher.nextOrderId + 1
    live := matcher.live.set (order.userId, order.clientOrderId)
      (liveOf matcher.nextOrderId order side)
    byOrderId := matcher.byOrderId.set matcher.nextOrderId
      (liveOf matcher.nextOrderId order side) }

theorem Represents.booked_live (represents : matcher.Represents market) {symbolId : Int}
    {earlier : Order} (member : earlier ∈ (matcher.book symbolId).orders) :
    ∃ live ∈ market.tape.live, live.id = earlier.orderId := by
  have viewed : (matcher.book symbolId).view earlier ∈ (matcher.book symbolId).resting :=
    List.mem_map_of_mem member
  rw [represents.resting, List.mem_map] at viewed
  obtain ⟨order, orderMember, same⟩ := viewed
  exact ⟨order, (mem_onSymbol.mp orderMember).1, congrArg Resting.id same⟩

theorem Represents.orders_older (represents : matcher.Represents market) (valid : market.Valid)
    {symbolId : Int} : ∀ earlier ∈ (matcher.book symbolId).orders,
      earlier.orderId < market.tape.nextOrderId := by
  intro earlier member
  obtain ⟨order, live, sameId⟩ := represents.booked_live member
  exact sameId ▸ valid.tape.issued order live

theorem Represents.older (represents : matcher.Represents market) (valid : market.Valid) :
    ∀ live ∈ matcher.byOrderId.values, live.orderId < matcher.nextOrderId := by
  intro live member
  have below := represents.orders_older valid _ (represents.held live member)
  rwa [(represents.coherent live member).orderId, ← represents.nextOrderId] at below

/-- The book of the order's symbol after the run, with `resting` on it. -/
structure Shows (matcher : NaiveMatcher) (order : SubmitOrder) (side : Side)
    (trades : List (Trade Int Int Ticket)) (final : LiveOrder) (resting : List LiveOrder)
    (book : OrderBook) : Prop where
  shaped : book.Shaped
  resting : book.resting = resting.map Resting.bare
  kept : ∀ held ∈ book.orders, held ∈ (matcher.book order.symbolId).orders ∨
    held = modelOrderOf matcher.nextOrderId order side
  taken : book.remaining.get? matcher.nextOrderId = some final.remaining
  cells : ∀ live ∈ matcher.byOrderId.values, live.symbolId = order.symbolId →
    book.remaining.get? live.orderId =
      some (matcher.remainingQty live - drawn trades live.orderId)

theorem Represents.matched (represents : matcher.Represents market) (valid : market.Valid)
    {side : Side} {tif : Tif} (admitted : Market.admission order = .ok (side, tif))
    (run : Executes (market.takerOf order side) (onSymbol order.symbolId market.tape.live) trades
      final left) :
    ∃ book reported,
      (matcher.book order.symbolId).matchOrder (modelOrderOf matcher.nextOrderId order side) =
        .ok (book, reported) ∧ Shows matcher order side trades final (left ++ final.standing) book ∧
      List.Forall₂ (OrderBook.Reports (market.takerOf order side).bare) reported
        (trades.map Trade.bare) := by
  obtain ⟨-, -, priced, counted⟩ := Market.admission_eq_ok.mp admitted
  have bareRun := run.map_bare
  rw [← represents.resting order.symbolId] at bareRun
  have sameTaker : (market.takerOf order side).bare =
      ⟨(modelOrderOf matcher.nextOrderId order side).orderId, side, order.priceTicks, order.qty, ()⟩ := by
    rw [modelOrderOf, represents.nextOrderId]
    rfl
  rw [sameTaker] at bareRun ⊢
  obtain ⟨book, reported, matched, shaped, resting, reports, kept, taken, cells⟩ :=
    OrderBook.matchOrder_ok (represents.shaped order.symbolId)
      (show 0 < (modelOrderOf matcher.nextOrderId order side).price from priced) counted
      (by
        intro earlier member
        have older := represents.orders_older valid earlier member
        rwa [← represents.nextOrderId] at older)
      (by
        rw [represents.resting]
        exact (valid.tape.wellFormed.filter _).map_bare)
      (by
        rw [represents.resting]
        exact (valid.uncrossed _).map_bare) bareRun
  refine ⟨book, reported, matched, ⟨shaped, ?_, kept, taken, ?_⟩, reports⟩
  · rw [resting, List.map_append]
    congr 1
    unfold Resting.standing
    split <;> simp_all [Resting.bare]
  · intro live member sameSymbol
    have cell := represents.cell member
    rw [sameSymbol] at cell
    rw [cells live.orderId _ (represents.older valid live member).ne cell, drawn_map_bare]

theorem registered_values (represents : matcher.Represents market) (valid : market.Valid)
    (order : SubmitOrder) (side : Side) :
    (matcher.registered order side).byOrderId.values =
      matcher.byOrderId.values ++ [liveOf matcher.nextOrderId order side] := by
  apply Dict.values_set_fresh
  cases found : matcher.byOrderId.get? matcher.nextOrderId with
  | none => rfl
  | some live =>
      have older := represents.older valid live (mem_values_of_get? found)
      rw [represents.keyed _ _ found] at older
      exact absurd older (lt_irrefl _)

theorem registered_keyed (represents : matcher.Represents market) (order : SubmitOrder)
    (side : Side) : ∀ orderId live,
      (matcher.registered order side).byOrderId.get? orderId = some live →
        live.orderId = orderId := by
  intro orderId live found
  rw [registered, Dict.get?_set] at found
  split at found
  · cases found
    symm
    assumption
  · exact represents.keyed orderId live found

theorem registered_indexes (represents : matcher.Represents market) (valid : market.Valid)
    (order : SubmitOrder) (side : Side) :
    (matcher.registered order side).Indexes
      (Function.update market.indexed (order.userId, order.clientOrderId)
        (some matcher.nextOrderId)) := by
  constructor
  · intro name
    rw [registered, Dict.get?_set, Function.update_apply]
    by_cases same : name = (order.userId, order.clientOrderId)
    · simp [same, liveOf]
    · simp [same, represents.index.names]
  · intro name live found
    rw [registered, Dict.get?_set] at found
    split at found
    · rename_i same
      cases found
      exact ⟨Dict.get?_set_self _ _ _, same.symm⟩
    · obtain ⟨present, sameName⟩ := represents.index.points name live found
      refine ⟨?_, sameName⟩
      have older := represents.older valid live (mem_values_of_get? present)
      rw [registered, Dict.get?_set_of_ne _ _ older.ne]
      exact present

/-! ## The end of a submission -/

section Ended

variable {side : Side} {tif : Tif} {rest gone : List LiveOrder} {after : NaiveMatcher}
  {book : OrderBook}

/-- `rest` is what stays of the taker, and the orders that are `gone` have been forgotten. -/
structure Ended (matcher : NaiveMatcher) (market : Market) (order : SubmitOrder) (side : Side)
    (trades : List (Trade Int Int Ticket)) (final : LiveOrder) (left rest gone : List LiveOrder)
    (book : OrderBook) (after : NaiveMatcher) : Prop where
  stays : rest = [final] ∧ gone = spent trades ∨
    rest = [] ∧ gone = spent trades ++ [market.takerOf order side]
  dropped : Dropped (matcher.registered order side) after gone
  books : ∀ symbolId, after.book symbolId =
    if symbolId = order.symbolId then book else matcher.book symbolId
  shows : Shows matcher order side trades final (left ++ rest) book

variable (represents : matcher.Represents market) (valid : market.Valid)
  (admitted : Market.admission order = .ok (side, tif))
  (run : Executes (market.takerOf order side) (onSymbol order.symbolId market.tape.live) trades
    final left)
  (ended : Ended matcher market order side trades final left rest gone book after)

include valid run in
theorem spent_live : ∀ other ∈ spent trades, other ∈ market.tape.live := by
  intro other member
  obtain ⟨trade, tradeMember, rfl⟩ := List.mem_map.mp member
  obtain ⟨-, sound⟩ := Market.makers_listed valid.tape.wellFormed run
  exact (sound trade (List.mem_of_mem_filter tradeMember)).1

namespace Ended

include represents valid run ended

/-- The known orders that go are those that the trades drew all of. -/
theorem gone_iff {live : Live} (member : live ∈ matcher.byOrderId.values) :
    live.orderId ∈ gone.map (·.id) ↔ matcher.remainingQty live ≤ drawn trades live.orderId := by
  have inLive : matcher.liveOrder live ∈ market.tape.live :=
    represents.mem_live.mpr ⟨live, member, rfl⟩
  obtain ⟨distinct, sound⟩ := Market.makers_listed valid.tape.wellFormed run
  have exhausted := mem_spent_iff valid.tape.wellFormed distinct
    (fun trade traded => ⟨(sound trade traded).1, (sound trade traded).2.2.2⟩) inLive
  refine Iff.trans ?_ exhausted
  rcases ended.stays with ⟨-, rfl⟩ | ⟨-, rfl⟩
  · rfl
  · have different : live.orderId ≠ market.tape.nextOrderId := by
      rw [← represents.nextOrderId]
      exact (represents.older valid live member).ne
    simp [Market.takerOf, different, liveOrder]

theorem quantities {live : Live} (member : live ∈ matcher.byOrderId.values) :
    after.remainingQty live = matcher.remainingQty live - drawn trades live.orderId := by
  rw [remainingQty, ended.books]
  by_cases same : live.symbolId = order.symbolId
  · rw [if_pos same]
    apply OrderBook.measured_of_get?
    rw [(represents.coherent live member).orderId]
    exact ended.shows.cells live member same
  · rw [if_neg same]
    have untouched : drawn trades live.orderId = 0 := by
      apply drawn_of_absent
      intro trade tradeMember sameId
      obtain ⟨-, sound⟩ := Market.makers_listed valid.tape.wellFormed run
      obtain ⟨makerLive, symbol, -⟩ := sound trade tradeMember
      have inLive : matcher.liveOrder live ∈ market.tape.live :=
        represents.mem_live.mpr ⟨live, member, rfl⟩
      rw [valid.tape.wellFormed.eq_of_id makerLive inLive sameId] at symbol
      exact same symbol
    rw [untouched, Int.sub_zero]
    rfl

/-- The orders from before that stay known are those the run leaves in the market. -/
theorem settled_live : (matcher.byOrderId.values.filter fun live =>
    live.orderId ∉ gone.map (·.id)).map after.liveOrder = settle trades market.tape.live := by
  obtain ⟨distinct, -⟩ := Market.makers_listed valid.tape.wellFormed run
  rw [settle_eq_filterMap distinct valid.tape.wellFormed.positive, ← represents.live, List.filterMap_map,
    ← List.filterMap_eq_map, List.filterMap_filter]
  apply List.filterMap_congr
  intro live member
  have leaves := gone_iff represents valid run ended member
  have quantity := quantities represents valid run ended member
  by_cases exhausted : matcher.remainingQty live ≤ drawn trades live.orderId
  · simp [leaves.mpr exhausted, reduceOne, liveOrder, exhausted]
  · have remains : live.orderId ∉ gone.map (·.id) := fun member => exhausted (leaves.mp member)
    simp [remains, reduceOne, liveOrder, exhausted, quantity]

theorem taker_live : ([liveOf matcher.nextOrderId order side].filter fun live =>
    live.orderId ∉ gone.map (·.id)).map after.liveOrder = rest := by
  have nextId := represents.nextOrderId
  have fresh : matcher.nextOrderId ∉ (spent trades).map (·.id) := by
    intro member
    obtain ⟨old, oldMember, sameId⟩ := List.mem_map.mp member
    have below := valid.tape.issued old (spent_live valid run old oldMember)
    rw [sameId, nextId] at below
    exact lt_irrefl _ below
  rcases ended.stays with ⟨rfl, rfl⟩ | ⟨rfl, rfl⟩
  · have quantity : after.remainingQty (liveOf matcher.nextOrderId order side) = final.remaining := by
      have onOwnBook : after.book (liveOf matcher.nextOrderId order side).symbolId = book := by
        rw [ended.books]
        exact if_pos rfl
      rw [remainingQty, onOwnBook]
      exact OrderBook.measured_of_get? ended.shows.taken
    have same := run.taker_eq
    have shown : after.liveOrder (liveOf matcher.nextOrderId order side) = final := by
      rw [liveOrder, quantity, same, liveOf, modelOrderOf, nextId]
      rfl
    rw [List.filter_cons_of_pos (by simpa [liveOf] using fresh), List.filter_nil,
      List.map_singleton, shown]
  · rw [List.filter_cons_of_neg (by simp [liveOf, Market.takerOf, nextId])]
    rfl

theorem live : after.byOrderId.values.map after.liveOrder =
    settle trades market.tape.live ++ rest := by
  rw [ended.dropped.values, registered_values represents valid, List.filter_append,
    List.map_append, settled_live represents valid run ended,
    taker_live represents valid run ended]

omit run in
theorem members : ∀ live ∈ after.byOrderId.values, live ∈ matcher.byOrderId.values ∨
    live = liveOf matcher.nextOrderId order side := by
  intro live member
  rw [ended.dropped.values, registered_values represents valid] at member
  simpa using List.mem_of_mem_filter member

include admitted in
omit run in
theorem coherent : ∀ live ∈ after.byOrderId.values, live.Coherent := by
  intro live member
  rcases members represents valid ended live member with old | rfl
  · exact represents.coherent live old
  · exact ⟨rfl, sideOf?_eq_some_iff.mp (Market.admission_eq_ok.mp admitted).1, rfl⟩

omit represents valid in
theorem rest_symbol : ∀ other ∈ rest, other.ticket.symbolId = order.symbolId := by
  intro other member
  rcases ended.stays with ⟨rfl, -⟩ | ⟨rfl, -⟩
  · rw [List.mem_singleton.mp member, run.taker_eq]
    rfl
  · simp at member

omit represents valid in
theorem own_symbol : onSymbol order.symbolId (settle trades market.tape.live ++ rest) =
    left ++ rest := Market.onSymbol_traded run (rest_symbol run ended)

include admitted in
/-- An order on the symbol is on the book under its id, and ids are not shared. -/
theorem held {live : Live} (member : live ∈ after.byOrderId.values)
    (same : live.symbolId = order.symbolId) : live.modelOrder ∈ book.orders := by
  have shown : (after.liveOrder live).bare ∈ book.resting := by
    rw [ended.shows.resting, ← own_symbol run ended]
    refine List.mem_map_of_mem (mem_onSymbol.mpr ⟨?_, same⟩)
    rw [← Ended.live represents valid run ended]
    exact List.mem_map_of_mem member
  obtain ⟨held, heldMember, view⟩ := List.mem_map.mp shown
  have sameId : held.orderId = live.orderId := congrArg Resting.id view
  have modelId := (coherent represents valid admitted ended live member).orderId
  rcases members represents valid ended live member with old | rfl
  · rcases ended.shows.kept held heldMember with heldOld | rfl
    · have oldHeld := represents.held live old
      rw [same] at oldHeld
      have equal := (represents.shaped order.symbolId).eq_of_orderId heldOld oldHeld
        (sameId.trans modelId.symm)
      rwa [← equal]
    · exact absurd sameId (represents.older valid live old).ne'
  · rcases ended.shows.kept held heldMember with heldOld | rfl
    · have below := represents.orders_older valid held heldOld
      rw [sameId, ← represents.nextOrderId] at below
      exact absurd below (lt_irrefl _)
    · exact heldMember

include admitted in
theorem indexes : after.Indexes
    (Market.freed (market.tape.live ++ [market.takerOf order side])
      (settle trades market.tape.live ++ rest)
      (Function.update market.indexed (key (market.takerOf order side))
        (some (market.takerOf order side).id))) := by
  obtain ⟨-, -, -, counted⟩ := Market.admission_eq_ok.mp admitted
  have nextId := represents.nextOrderId
  have indexes := registered_indexes represents valid order side
  rw [nextId] at indexes
  refine indexes.dropped ended.dropped ?_ ?_ ?_ ?_
  · exact valid.tape.wellFormed.append_newest counted valid.tape.issued
  · rw [registered_values represents valid, List.map_append, List.map_append, ← represents.live,
      List.map_map]
    congr 1
    simp [liveOf, nextId, Live.name, key, Market.takerOf]
  · intro other member
    rcases ended.stays with ⟨-, rfl⟩ | ⟨-, rfl⟩
    · exact List.mem_append_left _ (spent_live valid run other member)
    · rcases List.mem_append.mp member with member | member
      · exact List.mem_append_left _ (spent_live valid run other member)
      · exact List.mem_append_right _ member
  · rw [← Ended.live represents valid run ended, List.map_map]
    rfl

include admitted in
/-- The end of a submission: the settled orders, and the rest of the taker if it stays. -/
theorem represents_submitted :
    after.Represents ⟨⟨(market.takerOf order side).id + 1, settle trades market.tape.live ++ rest⟩,
      Market.freed (market.tape.live ++ [market.takerOf order side])
        (settle trades market.tape.live ++ rest)
        (Function.update market.indexed (key (market.takerOf order side))
          (some (market.takerOf order side).id))⟩ := by
  constructor
  · exact ended.dropped.nextOrderId.trans (congrArg (· + 1) represents.nextOrderId)
  · exact Ended.live represents valid run ended
  · exact ended.dropped.keyed (registered_keyed represents order side)
  · exact coherent represents valid admitted ended
  · intro live member
    rw [ended.books]
    split
    · rename_i same
      exact Ended.held represents valid admitted run ended member same
    · rename_i elsewhere
      rcases members represents valid ended live member with old | rfl
      · exact represents.held live old
      · exact absurd rfl elsewhere
  · intro symbolId
    rw [ended.books]
    split
    · exact ended.shows.shaped
    · exact represents.shaped symbolId
  · intro symbolId
    rw [ended.books]
    split
    · rename_i same
      rw [same, own_symbol run ended]
      exact ended.shows.resting
    · rename_i different
      rw [represents.resting, Market.onSymbol_untraded valid.tape.wellFormed run
        (rest_symbol run ended) different]
  · exact indexes represents valid admitted run ended

end Ended

end Ended

/-! ## One record -/

theorem rejectReason_eq (order : SubmitOrder) :
    rejectReason order = match Market.admission order with
      | .error reason => some reason
      | .ok _ => none := by
  unfold rejectReason Market.admission
  cases sideOf? order.side with
  | none => simp
  | some side =>
      cases tif : tifOf? order.tif with
      | none =>
          have notGtc : order.tif ≠ tifCode .gtc := fun same => by simp [same] at tif
          have notIoc : order.tif ≠ tifCode .ioc := fun same => by simp [same] at tif
          simp [notGtc, notIoc]
      | some named =>
          have known : ¬ (order.tif ≠ tifCode .gtc ∧ order.tif ≠ tifCode .ioc) := by
            rw [tifOf?_eq_some_iff.mp tif]
            cases named <;> simp
          simp only [Option.isNone_some, Bool.false_eq_true, if_false, known]
          split
          · rfl
          · split <;> rfl

theorem Represents.knows_maker {matcher after : NaiveMatcher} {market : Market}
    (represents : matcher.Represents market) {maker : LiveOrder} {remaining : Int}
    (member : maker ∈ market.tape.live)
    (found : ∀ live, matcher.byOrderId.get? maker.id = some live →
      after.byOrderId.get? maker.id = some live ∧ after.remainingQty live = remaining) :
    after.Knows maker remaining := by
  obtain ⟨live, present, same⟩ := represents.find member
  obtain ⟨presentAfter, quantity⟩ := found live present
  exact ⟨live, presentAfter, by rw [← same]; rfl, by rw [← same]; rfl, quantity⟩

/-- What is left of the taker rests, expires, or was nothing. -/
theorem settleTaker_ok {after : NaiveMatcher} {book : OrderBook} (live : Live) {tif : Tif}
    (tifCodeEq : order.tif = tifCode tif) (identified : live.orderId = taker.id)
    (modelId : live.modelOrder.orderId = live.orderId) (sameName : key taker = live.name)
    (sameClient : order.clientOrderId = taker.ticket.clientOrderId)
    (sameUser : order.userId = taker.ticket.userId)
    (timestamp : order.timestampNs = taker.ticket.createdAtNs)
    (symbol : order.symbolId = taker.ticket.symbolId)
    (sameTaker : final = { taker with remaining := final.remaining }) (nonneg : 0 ≤ final.remaining)
    (keyed : ∀ orderId live, after.byOrderId.get? orderId = some live → live.orderId = orderId)
    (ownBook : after.book order.symbolId = book) (remaining : after.remainingQty live = final.remaining)
    (shaped : book.Shaped) (resting : book.resting = (left ++ final.standing).map Resting.bare)
    (onBook : 0 < final.remaining → live.modelOrder ∈ book.orders)
    (others : ∀ other ∈ left, other.id ≠ taker.id) :
    ∃ settled bookLeft rest gone,
      after.settleTaker order live = .ok (settled, (if tif = .ioc then final.standing else []).map
        fun order => .orderCancelled
          (Market.cancellation order.ticket.createdAtNs .iocExpired order)) ∧
      rest = (if tif = .gtc then final.standing else []) ∧
      (rest = [final] ∧ gone = [] ∨ rest = [] ∧ gone = [taker]) ∧
      Dropped after settled gone ∧
      (∀ symbolId, settled.book symbolId =
        if symbolId = order.symbolId then bookLeft else after.book symbolId) ∧
      bookLeft.Shaped ∧ bookLeft.resting = (left ++ rest).map Resting.bare ∧
      (∀ held ∈ bookLeft.orders, held ∈ book.orders) ∧ bookLeft.remaining = book.remaining := by
  have unchangedBooks : ∀ symbolId, after.book symbolId =
      if symbolId = order.symbolId then book else after.book symbolId := by
    intro symbolId
    split
    · rename_i same
      rw [same, ownBook]
    · rfl
  have forgotten := forget_dropped keyed identified.symm sameName
  by_cases remains : 0 < final.remaining
  · have standing : final.standing = [final] := if_pos remains
    rw [standing] at resting ⊢
    cases tif with
    | gtc =>
        refine ⟨after, book, [final], [], ?_, rfl, .inl ⟨rfl, rfl⟩, Dropped.refl after,
          unchangedBooks, shaped, resting, fun _ member => member, rfl⟩
        have notIoc : ¬ (order.tif = tifCode .ioc ∧ 0 < final.remaining) := by
          rw [tifCodeEq]
          simp [tifCode]
        simp only [settleTaker, remaining, if_neg notIoc, if_neg remains.ne']
        rfl
    | ioc =>
        obtain ⟨bookLeft, removed, leftShaped, leftResting, kept, sameCells⟩ :=
          OrderBook.removeOrder_resting shaped (onBook remains)
        rw [modelId] at removed leftResting
        refine ⟨(after.setBook order.symbolId bookLeft).forget live, bookLeft, [], [taker], ?_, rfl,
          .inr ⟨rfl, rfl⟩, ?_, ?_, leftShaped, ?_, fun held member => ((kept held).mp member).1,
          sameCells⟩
        · simp only [settleTaker, remaining, if_pos (And.intro tifCodeEq remains), ownBook, removed,
            Fault.ok_bind]
          have sameId : final.id = taker.id := by rw [sameTaker]
          have sameTicket : final.ticket = taker.ticket := by rw [sameTaker]
          simp [Market.cancellation, sameId, sameTicket, identified, sameClient, sameUser,
            timestamp, symbol]
        · exact ⟨forgotten.initialCashTicks, forgotten.nextOrderId, forgotten.byOrderId,
            forgotten.values, forgotten.live⟩
        · intro symbolId
          rw [book_forget, book_setBook]
        · have sameId : final.id = taker.id := by rw [sameTaker]
          have cleared : remove taker.id left = left :=
            List.filter_eq_self.mpr (by simpa using others)
          rw [leftResting, resting, identified, List.append_nil, remove, List.filter_map,
            List.filter_append]
          congr 1
          have own : [final].filter ((fun order => decide (order.id ≠ taker.id)) ∘ Resting.bare) =
              [] := by
            simp [Resting.bare, sameId]
          rw [own, List.append_nil]
          exact cleared
  · have zero : final.remaining = 0 := by omega
    have standing : final.standing = [] := if_neg remains
    rw [standing] at resting ⊢
    refine ⟨after.forget live, book, [], [taker], ?_, by split <;> rfl, .inr ⟨rfl, rfl⟩, forgotten,
      unchangedBooks, shaped, resting, fun _ member => member, rfl⟩
    have notLeft : ¬ (order.tif = tifCode .ioc ∧ 0 < final.remaining) := fun both =>
      remains both.2
    simp only [settleTaker, remaining, if_neg notLeft, if_pos zero]
    split <;> rfl

/-! ## A submission -/

section Filled

variable {side : Side} {tif : Tif} {book : OrderBook} {resting : List LiveOrder}

/-- The matcher once the new order is registered and the symbol's book is matched. -/
def filled (matcher : NaiveMatcher) (order : SubmitOrder) (side : Side) (book : OrderBook) :
    NaiveMatcher :=
  (matcher.registered order side).setBook order.symbolId book

theorem filled_book (matcher : NaiveMatcher) (order : SubmitOrder) (side : Side) (book : OrderBook)
    (symbolId : Int) : (matcher.filled order side book).book symbolId =
      if symbolId = order.symbolId then book else matcher.book symbolId :=
  book_setBook _ _ _ _

variable (represents : matcher.Represents market) (valid : market.Valid)
  (admitted : Market.admission order = .ok (side, tif))
  (run : Executes (market.takerOf order side) (onSymbol order.symbolId market.tape.live) trades
    final left)

include admitted in
theorem modelOrder_new : Order.new matcher.nextOrderId order.userId (toString order.symbolId) side
    order.priceTicks order.qty order.timestampNs =
      .ok (modelOrderOf matcher.nextOrderId order side) := by
  obtain ⟨-, -, priced, counted⟩ := Market.admission_eq_ok.mp admitted
  rw [Order.new, if_neg (by omega), if_neg (by omega)]
  rfl

theorem Shows.taker_left (shows : Shows matcher order side trades final resting book) :
    (matcher.filled order side book).remainingQty (liveOf matcher.nextOrderId order side) =
      final.remaining := by
  have own : (matcher.filled order side book).book
      (liveOf matcher.nextOrderId order side).symbolId = book := by
    rw [filled_book]
    exact if_pos rfl
  rw [remainingQty, own]
  exact OrderBook.measured_of_get? shows.taken

include represents in
theorem Shows.knows_taker (shows : Shows matcher order side trades final resting book) :
    (matcher.filled order side book).Knows (market.takerOf order side) final.remaining := by
  refine ⟨liveOf matcher.nextOrderId order side, ?_, rfl, rfl, shows.taker_left⟩
  show (matcher.byOrderId.set _ _).get? market.tape.nextOrderId = _
  rw [← represents.nextOrderId, Dict.get?_set_self]

include represents valid run in
theorem Shows.knows_maker (shows : Shows matcher order side trades final resting book)
    {trade : Trade Int Int Ticket} (member : trade ∈ trades) :
    (matcher.filled order side book).Knows trade.maker (trade.maker.remaining - trade.qty) := by
  obtain ⟨distinct, sound⟩ := Market.makers_listed valid.tape.wellFormed run
  obtain ⟨makerLive, symbol, -⟩ := sound trade member
  refine represents.knows_maker makerLive ?_
  intro live found
  have liveMember := mem_values_of_get? found
  have sameId := represents.keyed _ _ found
  have sameMaker : matcher.liveOrder live = trade.maker := valid.tape.wellFormed.eq_of_id
    (represents.mem_live.mpr ⟨live, liveMember, rfl⟩) makerLive sameId
  have sameSymbol : live.symbolId = order.symbolId := by
    rw [← symbol, ← sameMaker]
    rfl
  refine ⟨?_, ?_⟩
  · show (matcher.byOrderId.set _ _).get? _ = _
    have older := represents.older valid live liveMember
    rw [sameId] at older
    rw [Dict.get?_set_of_ne _ _ older.ne]
    exact found
  · rw [remainingQty, filled_book, if_pos sameSymbol]
    apply OrderBook.measured_of_get?
    rw [(represents.coherent live liveMember).orderId, shows.cells live liveMember sameSymbol,
      sameId, drawn_of_mem distinct member, ← sameMaker]
    rfl

include represents valid admitted run in
/-- The fills of the run are reported, and the makers it exhausts are forgotten. -/
theorem Shows.fills_ok (shows : Shows matcher order side trades final resting book)
    {reported : List Engine.NaiveModel.Fill}
    (reports : List.Forall₂ (OrderBook.Reports (market.takerOf order side).bare) reported
      (trades.map Trade.bare)) :
    ∃ after, (matcher.filled order side book).toContractFills order matcher.nextOrderId reported =
        .ok (after, trades.map fun trade =>
          .fill (Market.fillOf (market.takerOf order side) trade)) ∧
      Dropped (matcher.registered order side) after (spent trades) ∧
      ∀ symbolId, after.book symbolId = (matcher.filled order side book).book symbolId := by
  have sideNamed := sideOf?_eq_some_iff.mp (Market.admission_eq_ok.mp admitted).1
  obtain ⟨distinct, sound⟩ := Market.makers_listed valid.tape.wellFormed run
  have older : ∀ trade ∈ trades, trade.maker.id ≠ (market.takerOf order side).id :=
    fun trade member => (valid.tape.issued trade.maker (sound trade member).1).ne
  obtain ⟨after, fills, dropped, sameBooks⟩ := toContractFills_ok sideNamed rfl reports
    (show ∀ orderId live, (matcher.filled order side book).byOrderId.get? orderId = some live →
      live.orderId = orderId from registered_keyed represents order side)
    distinct older (shows.knows_taker represents)
    fun trade member => shows.knows_maker represents valid run member
  refine ⟨after, ?_, ?_, ?_⟩
  · rw [represents.nextOrderId]
    exact fills
  · exact ⟨dropped.initialCashTicks, dropped.nextOrderId, dropped.byOrderId, dropped.values,
      dropped.live⟩
  · intro symbolId
    rw [NaiveMatcher.book, sameBooks]
    rfl

include represents valid run in
/-- What is left of the taker is on the book as the order it came with. -/
theorem Shows.on_book (shows : Shows matcher order side trades final (left ++ final.standing) book)
    (remains : 0 < final.remaining) : modelOrderOf matcher.nextOrderId order side ∈ book.orders := by
  have shown : final.bare ∈ book.resting := by
    rw [shows.resting, Resting.standing, if_pos remains]
    simp
  obtain ⟨held, heldMember, view⟩ := List.mem_map.mp shown
  rcases shows.kept held heldMember with old | rfl
  · have below := represents.orders_older valid held old
    have sameId : held.orderId = final.id := congrArg Resting.id view
    rw [sameId, run.taker_eq] at below
    exact absurd below (lt_irrefl _)
  · exact heldMember

include valid run in
theorem left_older : ∀ other ∈ left, other.id ≠ (market.takerOf order side).id := by
  intro other member
  rw [run.book_eq] at member
  have older : ∀ before ∈ onSymbol order.symbolId market.tape.live,
      before.id < (market.takerOf order side).id :=
    fun before listed => valid.tape.issued before (mem_onSymbol.mp listed).1
  exact (Market.settle_older older other member).ne

include represents valid admitted run in
theorem Shows.settles (shows : Shows matcher order side trades final (left ++ final.standing) book)
    {after : NaiveMatcher} (dropped : Dropped (matcher.registered order side) after (spent trades))
    (sameBook : ∀ symbolId, after.book symbolId = (matcher.filled order side book).book symbolId) :
    ∃ settled bookLeft gone,
      after.settleTaker order (liveOf matcher.nextOrderId order side) =
        .ok (settled, (if tif = .ioc then final.standing else []).map fun order => .orderCancelled
          (Market.cancellation order.ticket.createdAtNs .iocExpired order)) ∧
      Ended matcher market order side trades final left (if tif = .gtc then final.standing else [])
        gone bookLeft settled ∧
      settled.initialCashTicks = matcher.initialCashTicks := by
  obtain ⟨-, tifNamed, -, counted⟩ := Market.admission_eq_ok.mp admitted
  have afterLeft : after.remainingQty (liveOf matcher.nextOrderId order side) = final.remaining := by
    rw [remainingQty, sameBook]
    exact shows.taker_left
  have ownBook : after.book order.symbolId = book := by
    rw [sameBook, filled_book, if_pos rfl]
  obtain ⟨settled, bookLeft, rest, gone, finished, restEq, stays, lastDropped, books, leftShaped,
    leftResting, leftKept, sameCells⟩ :=
    settleTaker_ok (liveOf matcher.nextOrderId order side) (tifOf?_eq_some_iff.mp tifNamed)
      (show (liveOf matcher.nextOrderId order side).orderId = (market.takerOf order side).id
        from represents.nextOrderId) rfl rfl rfl rfl rfl rfl run.taker_eq
      (run.remaining_nonneg counted.le) (dropped.keyed (registered_keyed represents order side))
      ownBook afterLeft shows.shaped shows.resting (shows.on_book represents valid run)
      (left_older valid run)
  rw [← restEq]
  refine ⟨settled, bookLeft, spent trades ++ gone, finished, ⟨?_, dropped.trans lastDropped, ?_,
    leftShaped, leftResting, fun held member => shows.kept held (leftKept held member), ?_, ?_⟩,
    lastDropped.initialCashTicks.trans dropped.initialCashTicks⟩
  · rcases stays with ⟨rest, rfl⟩ | ⟨rest, rfl⟩
    · exact .inl ⟨rest, List.append_nil _⟩
    · exact .inr ⟨rest, rfl⟩
  · intro symbolId
    rw [books, sameBook, filled_book]
    split <;> rfl
  · rw [sameCells]
    exact shows.taken
  · rw [sameCells]
    exact shows.cells

end Filled

theorem submit_ok (represents : matcher.Represents market) (valid : market.Valid)
    (order : SubmitOrder) :
    ∃ after, matcher.submit order = .ok (after, (market.submit order).2) ∧
      after.Represents (market.submit order).1 ∧
      after.initialCashTicks = matcher.initialCashTicks := by
  unfold submit Market.submit
  rw [rejectReason_eq]
  cases admitted : Market.admission order with
  | error reason => exact ⟨matcher, rfl, represents, rfl⟩
  | ok choice =>
      obtain ⟨side, tif⟩ := choice
      have run := execute_executes (market.takerOf order side)
        (onSymbol order.symbolId market.tape.live)
      simp only
      generalize execute (market.takerOf order side) (onSymbol order.symbolId market.tape.live) =
        result at run
      obtain ⟨trades, final, left⟩ := result
      simp only at run
      obtain ⟨book, reported, matched, shows_, reports⟩ := represents.matched valid admitted run
      obtain ⟨after, fills, dropped, sameBook⟩ :=
        shows_.fills_ok represents valid admitted run reports
      obtain ⟨settled, bookLeft, gone, finished, ended, cash⟩ :=
        shows_.settles represents valid admitted run dropped sameBook
      refine ⟨settled, ?_, ended.represents_submitted represents valid admitted run, cash⟩
      rw [(Market.admission_eq_ok.mp admitted).1]
      simp only [orMissing_some, Fault.ok_bind, modelOrder_new admitted]
      have entered : (matcher.registered order side).book order.symbolId =
          matcher.book order.symbolId := rfl
      change ((matcher.registered order side).book order.symbolId).matchOrder _ >>= _ = _
      rw [entered, matched]
      simp only [Fault.ok_bind]
      change ((matcher.filled order side book).toContractFills order matcher.nextOrderId
        reported) >>= _ = _
      rw [fills]
      simp only [Fault.ok_bind]
      change (after.settleTaker order (liveOf matcher.nextOrderId order side)) >>= _ = _
      rw [finished]
      simp only [Fault.ok_bind, represents.nextOrderId]
      rfl

theorem cancel_ok (represents : matcher.Represents market) (valid : market.Valid)
    (request : CancelOrder) :
    ∃ after, matcher.cancel request = .ok (after, (market.cancel request).2) ∧
      after.Represents (market.cancel request).1 ∧
      after.initialCashTicks = matcher.initialCashTicks := by
  have names := represents.index.names (request.userId, request.targetClientOrderId)
  cases found : matcher.live.get? (request.userId, request.targetClientOrderId) with
  | none =>
      rw [found] at names
      have missing : market.named (request.userId, request.targetClientOrderId) = none := by
        rw [Market.named, ← names]
        rfl
      refine ⟨matcher, ?_, ?_, rfl⟩
      · simp only [cancel, found, Market.cancel, missing]
      · simpa only [Market.cancel, missing] using represents
  | some live =>
      rw [found] at names
      obtain ⟨present, sameName⟩ := represents.index.points _ live found
      have member := mem_values_of_get? present
      have inLive : matcher.liveOrder live ∈ market.tape.live :=
        represents.mem_live.mpr ⟨live, member, rfl⟩
      have named : market.named (request.userId, request.targetClientOrderId) =
          some (matcher.liveOrder live) :=
        (Market.named_eq_some valid).mpr ⟨inLive, names.symm⟩
      have coherent := represents.coherent live member
      obtain ⟨book, removed, shaped, resting, kept, sameCells⟩ := OrderBook.removeOrder_resting
        (represents.shaped live.symbolId) (represents.held live member)
      rw [coherent.orderId] at removed resting
      refine ⟨(matcher.setBook live.symbolId book).forget live, ?_, ?_, rfl⟩
      · have sameUser : live.userId = request.userId := congrArg Prod.fst sameName
        simp only [cancel, found, removed, Fault.ok_bind, Market.cancel, named]
        simp [Market.cancellation, liveOrder, sameUser]
      simp only [Market.cancel, named]
      have dropped : Dropped matcher ((matcher.setBook live.symbolId book).forget live)
          [matcher.liveOrder live] := by
        have forgotten : Dropped matcher (matcher.forget live) [matcher.liveOrder live] :=
          forget_dropped represents.keyed rfl rfl
        exact ⟨forgotten.initialCashTicks, forgotten.nextOrderId, forgotten.byOrderId,
          forgotten.values, forgotten.live⟩
      have books : ∀ symbolId, ((matcher.setBook live.symbolId book).forget live).book symbolId =
          if symbolId = live.symbolId then book else matcher.book symbolId := by
        intro symbolId
        rw [book_forget, book_setBook]
      generalize (matcher.setBook live.symbolId book).forget live = after at *
      have orders : ∀ other, after.liveOrder other = matcher.liveOrder other := by
        intro other
        have quantity : after.remainingQty other = matcher.remainingQty other := by
          rw [remainingQty, remainingQty, books]
          split
          · rename_i same
            rw [OrderBook.remainingQuantity, OrderBook.remainingQuantity, sameCells, same]
          · rfl
        rw [liveOrder, liveOrder, quantity]
      have stays : ∀ other ∈ after.byOrderId.values,
          other ∈ matcher.byOrderId.values ∧ other.orderId ≠ live.orderId := by
        intro other otherMember
        rw [dropped.values] at otherMember
        obtain ⟨old, different⟩ := List.mem_filter.mp otherMember
        exact ⟨old, by simpa [liveOrder] using different⟩
      have liveEq : after.byOrderId.values.map after.liveOrder =
          remove live.orderId market.tape.live := by
        rw [dropped.values, remove, ← represents.live, List.filter_map,
          List.map_congr_left fun other _ => orders other]
        congr 1
        apply List.filter_congr
        intro other _
        rw [Bool.eq_iff_iff]
        simp only [List.map_cons, List.map_nil, List.mem_singleton, decide_eq_true_iff,
          Function.comp_apply, liveOrder, ne_eq]
        exact decide_eq_true_iff.symm
      constructor
      · exact dropped.nextOrderId.trans represents.nextOrderId
      · exact liveEq
      · exact dropped.keyed represents.keyed
      · exact fun other otherMember => represents.coherent other (stays other otherMember).1
      · intro other otherMember
        obtain ⟨old, different⟩ := stays other otherMember
        rw [books]
        split
        · rename_i same
          have modelId := (represents.coherent other old).orderId
          refine (kept _).mpr ⟨same ▸ represents.held other old, ?_⟩
          rwa [modelId, coherent.orderId]
        · exact represents.held other old
      · intro symbolId
        rw [books]
        split
        · exact shaped
        · exact represents.shaped symbolId
      · intro symbolId
        rw [books]
        show _ = (onSymbol symbolId (remove live.orderId market.tape.live)).map Resting.bare
        rw [onSymbol, remove, List.filter_comm]
        split
        · rename_i same
          rw [resting, represents.resting, same, remove, List.filter_map]
          rfl
        · rename_i elsewhere
          rw [represents.resting]
          congr 1
          refine (List.filter_eq_self.mpr ?_).symm
          intro other otherMember
          obtain ⟨otherLive, otherSymbol⟩ := mem_onSymbol.mp otherMember
          have different : other.id ≠ live.orderId := by
            intro sameId
            have same : other = matcher.liveOrder live :=
              valid.tape.wellFormed.eq_of_id otherLive inLive sameId
            rw [same] at otherSymbol
            exact elsewhere otherSymbol.symm
          simpa using different
      · refine represents.index.dropped dropped valid.tape.wellFormed ?_ ?_ ?_
        · rw [← represents.live, List.map_map]
          rfl
        · intro order orderMember
          rw [List.mem_singleton.mp orderMember]
          exact inLive
        · show (remove live.orderId market.tape.live).map _ = _
          rw [← liveEq, List.map_map]
          rfl

/-- One record: the matcher never raises, answers as the market does, and still represents it. -/
theorem apply_ok (represents : matcher.Represents market) (valid : market.Valid)
    (record : Inbound) :
    ∃ after, matcher.apply record = .ok (after, (market.apply matcher.initialCashTicks record).2) ∧
      after.Represents (market.apply matcher.initialCashTicks record).1 ∧
      after.initialCashTicks = matcher.initialCashTicks := by
  cases record with
  | submitOrder order => exact submit_ok represents valid order
  | cancelOrder request => exact cancel_ok represents valid request
  | createAccount create => exact ⟨matcher, rfl, represents, rfl⟩
  | creditCash credit => exact ⟨matcher, rfl, represents, rfl⟩
  | configureReplay replay => exact ⟨matcher, rfl, represents, rfl⟩
  | other => exact ⟨matcher, rfl, represents, rfl⟩

theorem applyAll_ok (represents : matcher.Represents market) (valid : market.Valid)
    (records : List Inbound) :
    ∃ after, matcher.applyAll records =
        .ok (after, (market.run matcher.initialCashTicks records).2) ∧
      after.Represents (market.run matcher.initialCashTicks records).1 ∧
      after.initialCashTicks = matcher.initialCashTicks := by
  induction records generalizing matcher market with
  | nil => exact ⟨matcher, rfl, represents, rfl⟩
  | cons record rest ih =>
      obtain ⟨middle, applied, middleRepresents, middleCash⟩ := apply_ok represents valid record
      obtain ⟨after, finished, afterRepresents, afterCash⟩ :=
        ih middleRepresents (Market.apply_valid _ valid record)
      rw [middleCash] at finished afterRepresents
      refine ⟨after, ?_, afterRepresents, afterCash.trans middleCash⟩
      rw [applyAll, applied]
      simp only [Fault.ok_bind, finished]
      rfl

end NaiveMatcher

end QuantArena.Matcher
