import QuantArena.Exchange.MarketWire
import QuantArena.Matcher.AdapterProperties

/-! A snapshot is a function of the market a matcher represents, and restoring it
yields a matcher that represents that same market. -/

set_option autoImplicit false

namespace QuantArena.Matcher

open Foundations Foundations.PriceTime Contracts Exchange Engine.NaiveModel

/-- The market as a snapshot, whichever engine holds it. -/
def marketOrder (market : Market) (order : LiveOrder) : SnapshotOrder where
  orderId := order.id
  clientOrderId := order.ticket.clientOrderId
  userId := order.ticket.userId
  symbolId := order.ticket.symbolId
  side := sideCode order.side
  indexed := market.indexed (key order) = some order.id
  priceTicks := order.price
  remainingQty := order.remaining
  createdAtNs := order.ticket.createdAtNs

def marketSnapshot (market : Market) : EngineSnapshot :=
  ⟨market.tape.nextOrderId, market.tape.live.map (marketOrder market)⟩

theorem marketSnapshot_ordered {market : Market} (valid : market.Valid) :
    (marketSnapshot market).Ordered where
  positive order member := by
    obtain ⟨live, liveMember, rfl⟩ := List.mem_map.mp member
    exact valid.numbered.2 live liveMember
  issued order member := by
    obtain ⟨live, liveMember, rfl⟩ := List.mem_map.mp member
    exact valid.tape.issued live liveMember
  ascending := List.pairwise_map.mpr valid.tape.wellFormed.arrival

/-- What came over the wire goes back into the layout. -/
theorem marketSnapshot_fits {market : Market} (valid : market.Valid)
    (onWire : ∀ order ∈ market.tape.live, LiveOnWire order)
    (numbered : market.tape.nextOrderId < 256 ^ 8)
    (counted : (market.tape.live.length : Int) < 256 ^ 4) : (marketSnapshot market).Fits where
  nextOrderId := ⟨valid.numbered.1.le, numbered⟩
  count := by simpa [marketSnapshot] using counted
  orders order member := by
    obtain ⟨live, liveMember, rfl⟩ := List.mem_map.mp member
    have wire := onWire live liveMember
    have priced := valid.tape.priced live liveMember
    have positive := valid.tape.wellFormed.positive live liveMember
    have issued := valid.tape.issued live liveMember
    have side : 0 ≤ sideCode live.side ∧ sideCode live.side < 256 ^ 1 := by
      cases live.side <;> decide
    exact {
      orderId := ⟨(valid.numbered.2 live liveMember).le, lt_trans issued numbered⟩
      clientOrderId := wire.clientOrderId
      userId := wire.userId
      symbolId := wire.symbolId
      side := side
      priceTicks := ⟨le_trans (by decide) priced.le, wire.price⟩
      remainingQty := ⟨le_trans (by decide) positive.le, wire.remaining⟩
      createdAtNs := wire.createdAtNs }

/-- The index as a restoring loop rebuilds it. -/
def reindexed (source : Int × Int → Option Int) (orders : List LiveOrder)
    (indexed : Int × Int → Option Int) : Int × Int → Option Int :=
  orders.foldl (fun indexed order =>
    if source (key order) = some order.id then
      Function.update indexed (key order) (some order.id) else indexed) indexed

theorem reindexed_apply (source : Int × Int → Option Int) (orders : List LiveOrder)
    (indexed : Int × Int → Option Int) (name : Int × Int) :
    reindexed source orders indexed name =
      if ∃ order ∈ orders, source (key order) = some order.id ∧ key order = name then source name
      else indexed name := by
  induction orders generalizing indexed with
  | nil => simp [reindexed]
  | cons order rest ih =>
      rw [reindexed, List.foldl_cons, ← reindexed, ih]
      by_cases later : ∃ order ∈ rest, source (key order) = some order.id ∧ key order = name
      · obtain ⟨other, member, flagged, same⟩ := later
        rw [if_pos ⟨other, member, flagged, same⟩,
          if_pos ⟨other, List.mem_cons_of_mem _ member, flagged, same⟩]
      · rw [if_neg later]
        by_cases flagged : source (key order) = some order.id
        · rw [if_pos flagged, Function.update_apply]
          by_cases same : key order = name
          · rw [if_pos same.symm, if_pos ⟨order, List.mem_cons_self, flagged, same⟩, ← same, flagged]
          · rw [if_neg (Ne.symm same), if_neg]
            rintro ⟨other, member, otherFlagged, otherSame⟩
            rcases List.mem_cons.mp member with rfl | member
            · exact same otherSame
            · exact later ⟨other, member, otherFlagged, otherSame⟩
        · rw [if_neg flagged, if_neg]
          rintro ⟨other, member, otherFlagged, otherSame⟩
          rcases List.mem_cons.mp member with rfl | member
          · exact flagged otherFlagged
          · exact later ⟨other, member, otherFlagged, otherSame⟩

/-- A valid index is rebuilt from the flags alone. -/
theorem reindexed_valid {market : Market} (valid : market.Valid) :
    reindexed market.indexed market.tape.live (fun _ => none) = market.indexed := by
  funext name
  rw [reindexed_apply]
  split
  · rfl
  · rename_i absent
    cases found : market.indexed name with
    | none => rfl
    | some orderId =>
        obtain ⟨order, member, sameId, sameKey⟩ := valid.index name orderId found
        exact absurd ⟨order, member, by rw [sameKey, found, sameId], sameKey⟩ absent

namespace NaiveMatcher

variable {matcher : NaiveMatcher} {market : Market}

theorem Represents.snapshotOrder_eq (represents : matcher.Represents market) {live : Live}
    (member : live ∈ matcher.byOrderId.values) :
    matcher.snapshotOrder live = marketOrder market (matcher.liveOrder live) := by
  have names := represents.index.names (live.userId, live.clientOrderId)
  have flag : matcher.live.get? (live.userId, live.clientOrderId) = some live ↔
      market.indexed (key (matcher.liveOrder live)) = some live.orderId := by
    show _ ↔ market.indexed (live.userId, live.clientOrderId) = some live.orderId
    rw [← names]
    constructor
    · intro found
      rw [found]
      rfl
    · intro sameId
      obtain ⟨other, found, otherId⟩ := Option.map_eq_some_iff.mp sameId
      obtain ⟨present, -⟩ := represents.index.points _ other found
      rw [otherId, represents.get?_of_mem member] at present
      rw [found, Option.some.inj present]
  have sameFlag : decide (matcher.live.get? (live.userId, live.clientOrderId) = some live) =
      decide (market.indexed (key (matcher.liveOrder live)) = some live.orderId) :=
    decide_eq_decide.mpr flag
  rw [snapshotOrder, sameFlag, (represents.coherent live member).side]
  rfl

theorem Represents.snapshot_eq (represents : matcher.Represents market) :
    matcher.snapshot = (marketSnapshot market).pack := by
  have orders : matcher.byOrderId.values.map matcher.snapshotOrder =
      market.tape.live.map (marketOrder market) := by
    rw [← represents.live, List.map_map]
    exact List.map_congr_left fun live member => represents.snapshotOrder_eq member
  rw [snapshot, orders, represents.nextOrderId]
  rfl

/-! ## Restoring -/

section Restored

variable {order : LiveOrder} {flag : Bool} {book : OrderBook}

/-- The model order and the record that `restore` makes of a live order. -/
def modelOrderFor (order : LiveOrder) : Order :=
  ⟨order.id, order.ticket.userId, toString order.ticket.symbolId, order.side, order.price,
    order.remaining, order.ticket.createdAtNs⟩

def recordFor (order : LiveOrder) : Live :=
  ⟨order.id, order.ticket.clientOrderId, order.ticket.userId, order.ticket.symbolId,
    sideCode order.side, order.price, order.remaining, modelOrderFor order⟩

/-- The symbol's book with the order put back on it. -/
structure Inserted (matcher : NaiveMatcher) (order : LiveOrder) (book : OrderBook) : Prop where
  shaped : book.Shaped
  orders : book.orders = (matcher.book order.ticket.symbolId).orders ++ [modelOrderFor order]
  resting : book.resting = (matcher.book order.ticket.symbolId).resting ++ [order.bare]
  remaining : book.remaining =
    (matcher.book order.ticket.symbolId).remaining.set order.id order.remaining

/-- The matcher with the order on the book, and indexed if it is flagged. -/
def putBack (matcher : NaiveMatcher) (order : LiveOrder) (flag : Bool) (book : OrderBook) :
    NaiveMatcher :=
  { matcher.setBook order.ticket.symbolId book with
    byOrderId := matcher.byOrderId.set order.id (recordFor order)
    live := if flag then matcher.live.set (key order) (recordFor order) else matcher.live }

theorem putBack_book (matcher : NaiveMatcher) (order : LiveOrder) (flag : Bool) (book : OrderBook)
    (symbolId : Int) : (matcher.putBack order flag book).book symbolId =
      if symbolId = order.ticket.symbolId then book else matcher.book symbolId :=
  book_setBook matcher order.ticket.symbolId symbolId book

variable (represents : matcher.Represents market)
  (older : ∀ other ∈ market.tape.live, other.id < order.id)

include represents older in
theorem known_older {live : Live} (member : live ∈ matcher.byOrderId.values) :
    live.orderId < order.id :=
  older _ (represents.mem_live.mpr ⟨live, member, rfl⟩)

include represents older in
theorem putBack_values : (matcher.putBack order flag book).byOrderId.values =
    matcher.byOrderId.values ++ [recordFor order] := by
  refine Dict.values_set_fresh _ _ ?_
  cases found : matcher.byOrderId.get? order.id with
  | none => rfl
  | some other =>
      have below := known_older represents older (mem_values_of_get? found)
      exact absurd (represents.keyed _ _ found) below.ne

/-- The book shows all that remained of the order, and of the others what it showed before. -/
theorem Inserted.newest (inserted : Inserted matcher order book) :
    (matcher.putBack order flag book).liveOrder (recordFor order) = order := by
  have own : (matcher.putBack order flag book).book (recordFor order).symbolId = book := by
    rw [putBack_book]
    exact if_pos rfl
  have quantity : (matcher.putBack order flag book).remainingQty (recordFor order) =
      order.remaining := by
    rw [remainingQty, own]
    apply OrderBook.measured_of_get?
    rw [inserted.remaining]
    exact Dict.get?_set_self _ _ _
  rw [liveOrder, quantity]
  rfl

include represents older in
theorem Inserted.others (inserted : Inserted matcher order book) {other : Live}
    (member : other ∈ matcher.byOrderId.values) :
    (matcher.putBack order flag book).liveOrder other = matcher.liveOrder other := by
  have quantity : (matcher.putBack order flag book).remainingQty other =
      matcher.remainingQty other := by
    rw [remainingQty, remainingQty, putBack_book]
    split
    · rename_i same
      have different : other.modelOrder.orderId ≠ order.id := by
        rw [(represents.coherent other member).orderId]
        exact (known_older represents older member).ne
      rw [same, OrderBook.remainingQuantity, OrderBook.remainingQuantity, inserted.remaining,
        Dict.getD_set_of_ne _ _ _ different]
    · rfl
  rw [liveOrder, liveOrder, quantity]

include represents older in
theorem putBack_indexes : (matcher.putBack order flag book).Indexes
    (if flag then Function.update market.indexed (key order) (some order.id)
      else market.indexed) := by
  have unchanged : ∀ name other, matcher.live.get? name = some other →
      (matcher.byOrderId.set order.id (recordFor order)).get? other.orderId = some other ∧
        other.name = name := by
    intro name other found
    obtain ⟨present, sameName⟩ := represents.index.points name other found
    have below := known_older represents older (mem_values_of_get? present)
    exact ⟨by rw [Dict.get?_set_of_ne _ _ below.ne]; exact present, sameName⟩
  cases flag with
  | false => exact ⟨represents.index.names, unchanged⟩
  | true =>
      constructor
      · intro name
        show ((matcher.live.set (key order) (recordFor order)).get? name).map (·.orderId) =
          Function.update market.indexed (key order) (some order.id) name
        rw [Dict.get?_set, Function.update_apply]
        by_cases same : name = key order
        · rw [if_pos same, if_pos same]
          rfl
        · rw [if_neg same, if_neg same]
          exact represents.index.names name
      · intro name other found
        have read : (matcher.live.set (key order) (recordFor order)).get? name = some other := found
        rw [Dict.get?_set] at read
        split at read
        · rename_i same
          cases read
          exact ⟨Dict.get?_set_self _ _ _, same.symm⟩
        · exact unchanged name other read

include represents older in
theorem Inserted.represents_putBack (inserted : Inserted matcher order book) :
    (matcher.putBack order flag book).Represents
      ⟨{ market.tape with live := market.tape.live ++ [order] },
        if flag then Function.update market.indexed (key order) (some order.id)
        else market.indexed⟩ := by
  have values := @putBack_values matcher market order flag book represents older
  constructor
  · exact represents.nextOrderId
  · have before : matcher.byOrderId.values.map (matcher.putBack order flag book).liveOrder =
        matcher.byOrderId.values.map matcher.liveOrder :=
      List.map_congr_left fun other member => inserted.others represents older member
    rw [values, List.map_append, before, represents.live, List.map_singleton, inserted.newest]
  · intro orderId other found
    rw [putBack, Dict.get?_set] at found
    split at found
    · cases found
      symm
      assumption
    · exact represents.keyed orderId other found
  · intro other member
    rw [values] at member
    rcases List.mem_append.mp member with member | member
    · exact represents.coherent other member
    · rw [List.mem_singleton.mp member]
      exact ⟨rfl, rfl, rfl⟩
  · intro other member
    rw [values] at member
    rw [putBack_book]
    rcases List.mem_append.mp member with member | member
    · split
      · rename_i same
        rw [inserted.orders]
        exact List.mem_append_left _ (same ▸ represents.held other member)
      · exact represents.held other member
    · have own : (recordFor order).symbolId = order.ticket.symbolId := rfl
      rw [List.mem_singleton.mp member, if_pos own, inserted.orders]
      exact List.mem_append_right _ List.mem_cons_self
  · intro symbolId
    rw [putBack_book]
    split
    · exact inserted.shaped
    · exact represents.shaped symbolId
  · intro symbolId
    rw [putBack_book, onSymbol_append, List.map_append]
    split
    · rename_i same
      rw [inserted.resting, represents.resting, same]
      congr 1
      simp [onSymbol]
    · rename_i different
      have elsewhere : onSymbol symbolId [order] = [] := by
        simp [onSymbol, Ne.symm different]
      rw [represents.resting, elsewhere, List.map_nil, List.append_nil]
  · exact putBack_indexes represents older

end Restored

/-- Putting one more order back, after all that are older. -/
theorem restoreOrder_ok (represents : matcher.Represents market) (order : LiveOrder) (flag : Bool)
    (unique : WellFormed (market.tape.live ++ [order])) (priced : 0 < order.price) :
    ∃ after, matcher.restoreOrder ⟨order.id, order.ticket.clientOrderId, order.ticket.userId,
        order.ticket.symbolId, sideCode order.side, flag, order.price, order.remaining,
        order.ticket.createdAtNs⟩ = .ok after ∧
      after.initialCashTicks = matcher.initialCashTicks ∧
      after.Represents ⟨{ market.tape with live := market.tape.live ++ [order] },
        if flag then Function.update market.indexed (key order) (some order.id)
        else market.indexed⟩ := by
  have older : ∀ other ∈ market.tape.live, other.id < order.id := fun other member =>
    (List.pairwise_append.mp unique.arrival).2.2 other member order (by simp)
  have counted : 0 < order.remaining := unique.positive order (by simp)
  have latest : ∀ earlier ∈ (matcher.book order.ticket.symbolId).orders,
      earlier.orderId < order.id := by
    intro earlier member
    obtain ⟨other, live, sameId⟩ := represents.booked_live member
    exact sameId ▸ older other live
  have created : Order.new order.id order.ticket.userId (toString order.ticket.symbolId) order.side
      order.price order.remaining order.ticket.createdAtNs = .ok (modelOrderFor order) := by
    rw [Order.new, if_neg (by omega), if_neg (by omega)]
    rfl
  obtain ⟨book, inserted, shaped, orders, resting, remaining⟩ := OrderBook.insertOrder_resting
    (represents.shaped order.ticket.symbolId) (show 0 < (modelOrderFor order).price from priced)
    latest
  have onBook : Inserted matcher order book := ⟨shaped, orders, resting, remaining⟩
  refine ⟨matcher.putBack order flag book, ?_, rfl, onBook.represents_putBack represents older⟩
  simp only [restoreOrder, sideOf?_sideCode, orMissing_some, Fault.ok_bind, created,
    OrderBook.addOrder, inserted, Bool.false_eq_true, if_false]
  cases flag <;> rfl

theorem restoreOrders_ok (source : Market) {todo : List LiveOrder}
    (priced : ∀ order ∈ todo, 0 < order.price) :
    ∀ {matcher : NaiveMatcher} {market : Market}, matcher.Represents market →
      WellFormed (market.tape.live ++ todo) →
      ∃ after, matcher.restoreOrders (todo.map (marketOrder source)) = .ok after ∧
        after.initialCashTicks = matcher.initialCashTicks ∧
        after.Represents ⟨{ market.tape with live := market.tape.live ++ todo },
          reindexed source.indexed todo market.indexed⟩ := by
  induction todo with
  | nil =>
      intro matcher market represents _
      exact ⟨matcher, rfl, rfl, by simpa [reindexed] using represents⟩
  | cons order rest ih =>
      intro matcher market represents unique
      have first : WellFormed (market.tape.live ++ [order]) := by
        refine ⟨fun other member => unique.positive other ?_, unique.arrival.sublist ?_⟩
        · rcases List.mem_append.mp member with member | member
          · exact List.mem_append_left _ member
          · rw [List.mem_singleton.mp member]
            simp
        · exact List.Sublist.append (List.Sublist.refl _)
            (List.cons_sublist_cons.mpr (List.nil_sublist rest))
      obtain ⟨middle, restored, middleCash, middleRepresents⟩ := restoreOrder_ok represents order
        (decide (source.indexed (key order) = some order.id)) first (priced order List.mem_cons_self)
      obtain ⟨after, finished, afterCash, afterRepresents⟩ :=
        ih (fun other member => priced other (List.mem_cons_of_mem _ member)) middleRepresents
          (by simpa using unique)
      refine ⟨after, ?_, afterCash.trans middleCash, ?_⟩
      · rw [List.map_cons, restoreOrders]
        rw [marketOrder, restored]
        exact finished
      · simpa [reindexed] using afterRepresents

/-- A layout that holds a market is read back to it. -/
theorem restore_layout {market : Market} (valid : market.Valid) (fits : (marketSnapshot market).Fits)
    (initialCashTicks : Int) :
    ∃ after, restore (marketSnapshot market).layout initialCashTicks = .ok after ∧
      after.initialCashTicks = initialCashTicks ∧ after.Represents market := by
  have start := new_represents market.tape.nextOrderId initialCashTicks
  obtain ⟨after, restored, cash, afterRepresents⟩ := restoreOrders_ok market
    valid.tape.priced start (by simpa using valid.tape.wellFormed)
  refine ⟨after, ?_, cash, ?_⟩
  · rw [restore, EngineSnapshot.unpack_layout (marketSnapshot_ordered valid) fits]
    exact restored
  · simpa only [List.nil_append, reindexed_valid valid] using afterRepresents

/-- Restoring a snapshot gives back the market it was taken of. -/
theorem restore_ok (represents : matcher.Represents market) (valid : market.Valid)
    {data : List UInt8} (taken : matcher.snapshot = .ok data) (initialCashTicks : Int) :
    ∃ after, restore data initialCashTicks = .ok after ∧
      after.initialCashTicks = initialCashTicks ∧ after.Represents market := by
  rw [represents.snapshot_eq, EngineSnapshot.pack_eq_ok (marketSnapshot_ordered valid)] at taken
  obtain ⟨fits, rfl⟩ := taken
  exact restore_layout valid fits initialCashTicks

end NaiveMatcher

end QuantArena.Matcher
