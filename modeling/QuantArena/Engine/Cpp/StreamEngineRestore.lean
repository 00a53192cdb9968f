import QuantArena.Engine.Cpp.StreamEngineSteps

/-! Restoring a snapshot that fits its layout yields an engine that represents the
market the snapshot was taken of. -/

set_option autoImplicit false

namespace QuantArena.Engine.Cpp

open Foundations Foundations.PriceTime Contracts

namespace StreamEngine

variable {engine : StreamEngine} {market : Exchange.Market}

theorem getLe_truncated (width : Nat) (value : Int) (rest : List UInt8) :
    getLe (Bytes.truncated width value ++ rest) width = .ok (value % 256 ^ width, rest) := by
  have enough : ¬ (Bytes.truncated width value ++ rest).length < width := by
    simp only [List.length_append, Bytes.length_truncated]
    omega
  rw [getLe, if_neg enough, Bytes.takeUnsigned_truncated]

/-- Putting one more order back, after all that are older. -/
theorem restoreOrder_ok (holds : engine.Holds market)
    (issued : ∀ other ∈ market.tape.live, other.id < market.tape.nextOrderId)
    {order : Exchange.LiveOrder} (latest : market.tape.nextOrderId ≤ order.id)
    (range : InRange order.id) (priced : 0 < order.price) (counted : 0 < order.remaining)
    (flag : Bool) :
    ∃ after, engine.restoreOrder order.id order.ticket.clientOrderId order.ticket.userId
        order.ticket.symbolId (sideCode order.side) flag order.price order.remaining
        order.ticket.createdAtNs = .ok after ∧
      after.initialCashTicks = engine.initialCashTicks ∧
      after.Holds ⟨⟨order.id + 1, market.tape.live ++ [order]⟩,
        if flag then Function.update market.indexed (Exchange.key order) (some order.id)
        else market.indexed⟩ := by
  have older : ∀ other ∈ market.tape.live, other.id < order.id := fun other member =>
    lt_of_lt_of_le (issued other member) latest
  have listed := registered_lists holds.toLists older
  obtain ⟨naive, queues⟩ := holds.books order.ticket.symbolId
  obtain ⟨book, last, -, entered, lastQueues⟩ := queues.added
    (fun other member => issued other (Exchange.mem_onSymbol.mp member).1) latest range priced
  let entering : StreamEngine := { engine with
    live := engine.live.insert order.id (liveOf order)
    clientToOrder := if flag then engine.clientToOrder.insert
        (clientKey order.ticket.userId order.ticket.clientOrderId) order.id
      else engine.clientToOrder }
  have side : (if sideCode order.side = sideCode .buy then Side.buy else .sell) = order.side := by
    cases order.side <;> rfl
  have created : Order.new (toLong order.id) (toLong order.ticket.userId)
      (toString order.ticket.symbolId) order.side order.price order.remaining
      order.ticket.createdAtNs = .ok ⟨toLong order.id, toLong order.ticket.userId,
        toString order.ticket.symbolId, order.side, order.price, order.remaining,
        order.ticket.createdAtNs, order.remaining⟩ := by
    rw [Order.new, if_neg (Int.not_le.mpr priced), if_neg (Int.not_le.mpr counted)]
  refine ⟨entering.setBook order.ticket.symbolId book, ?_, rfl, ⟨⟨listed.live, ?_⟩, ?_⟩⟩
  · have ownBook : entering.book order.ticket.symbolId = engine.book order.ticket.symbolId := rfl
    simp only [restoreOrder, side, created, Fault.ok_bind]
    change ((entering.book order.ticket.symbolId).addOrder _ >>= _) = _
    rw [ownBook, entered]
    rfl
  · cases flag with
    | false => exact holds.index
    | true => exact listed.index
  · intro symbolId
    by_cases same : symbolId = order.ticket.symbolId
    · refine ⟨last, ?_⟩
      have own : Exchange.onSymbol symbolId [order] = [order] := by simp [Exchange.onSymbol, same]
      rw [(book_setBook ..).trans (if_pos same), Exchange.onSymbol_append, own, same]
      exact lastQueues
    · obtain ⟨other, otherQueues⟩ := holds.books symbolId
      have elsewhere : Exchange.onSymbol symbolId [order] = [] := by
        simp [Exchange.onSymbol, Ne.symm same]
      refine ⟨other, ?_⟩
      rw [(book_setBook ..).trans (if_neg same), Exchange.onSymbol_append, elsewhere,
        List.append_nil]
      exact otherQueues.mono (le_trans latest (Int.le_add_one le_rfl))

/-- The loop reads back the orders of a market, each newer than those before. -/
theorem restoreOrders_ok (source : Exchange.Market) {todo : List Exchange.LiveOrder}
    {nextOrderId : Int} (fits : ∀ order ∈ todo, (Matcher.marketOrder source order).Fits)
    (priced : ∀ order ∈ todo, 0 < order.price) (issued : ∀ order ∈ todo, order.id < nextOrderId) :
    ∀ {engine : StreamEngine} {market : Exchange.Market}, engine.Holds market →
      WellFormed (market.tape.live ++ todo) →
      (∀ other ∈ market.tape.live, other.id < market.tape.nextOrderId) →
      (∀ order ∈ todo, market.tape.nextOrderId ≤ order.id) →
      market.tape.nextOrderId ≤ nextOrderId →
      ∃ after last, restoreOrders todo.length
          ((todo.map (Matcher.marketOrder source)).flatMap Matcher.SnapshotOrder.layout)
          (market.tape.nextOrderId - 1) nextOrderId engine = .ok after ∧
        after.initialCashTicks = engine.initialCashTicks ∧ last ≤ nextOrderId ∧
        after.Holds ⟨⟨last, market.tape.live ++ todo⟩,
          Matcher.reindexed source.indexed todo market.indexed⟩ := by
  induction todo with
  | nil =>
      intro engine market holds _ _ _ bounded
      exact ⟨engine, market.tape.nextOrderId, rfl, rfl, bounded, by
        simpa [Matcher.reindexed] using holds⟩
  | cons order rest ih =>
      intro engine market holds unique older above _
      have orderFits := fits order List.mem_cons_self
      have orderAbove := above order List.mem_cons_self
      have orderIssued := issued order List.mem_cons_self
      have positive : 0 < order.remaining := unique.positive order (by simp)
      have range : InRange order.id := orderFits.orderId
      obtain ⟨middle, restored, middleCash, middleHolds⟩ := restoreOrder_ok holds older orderAbove
        range (priced order List.mem_cons_self) positive
        (decide (source.indexed (Exchange.key order) = some order.id))
      have newest : ∀ other ∈ rest, order.id < other.id := by
        have ascending := (List.pairwise_append.mp unique.arrival).2.1
        exact (List.pairwise_cons.mp ascending).1
      obtain ⟨after, last, finished, afterCash, bounded, afterHolds⟩ := ih
        (fun other member => fits other (List.mem_cons_of_mem _ member))
        (fun other member => priced other (List.mem_cons_of_mem _ member))
        (fun other member => issued other (List.mem_cons_of_mem _ member)) middleHolds
        (by simpa using unique)
        (by
          intro other member
          cases List.mem_append.mp member with
          | inl old => exact lt_trans (lt_of_lt_of_le (older other old) orderAbove) (Int.lt_succ _)
          | inr new =>
              rw [List.mem_singleton.mp new]
              exact Int.lt_succ _)
        (fun other member => newest other member) orderIssued
      refine ⟨after, last, ?_, afterCash.trans middleCash, bounded, ?_⟩
      · have ascending : ¬ (order.id ≤ market.tape.nextOrderId - 1 ∨ order.id ≥ nextOrderId) := by
          omega
        have sided : ¬ (sideCode order.side ≠ sideCode .buy ∧ sideCode order.side ≠ sideCode .sell) := by
          cases order.side <;> simp
        have flag := Matcher.SnapshotOrder.indexedCode_flag
          (decide (source.indexed (Exchange.key order) = some order.id))
        rw [List.length_cons, List.map_cons, List.flatMap_cons, restoreOrders,
          Matcher.SnapshotOrder.layout]
        simp only [List.append_assoc, getLe_truncated, Fault.ok_bind, Bytes.signed_emod,
          Bytes.unsigned_of_fits orderFits.orderId, Bytes.unsigned_of_fits orderFits.clientOrderId,
          Bytes.unsigned_of_fits orderFits.userId, Bytes.unsigned_of_fits orderFits.side,
          Bytes.unsigned_of_fits (Matcher.SnapshotOrder.indexedCode_fits _),
          Bytes.signed_of_fits (by decide) orderFits.symbolId,
          Bytes.signed_of_fits (by decide) orderFits.priceTicks,
          Bytes.signed_of_fits (by decide) orderFits.remainingQty,
          Bytes.signed_of_fits (by decide) orderFits.createdAtNs]
        simp only [Matcher.marketOrder, flag, if_neg ascending, if_neg sided, restored,
          Fault.ok_bind]
        have previous : order.id = order.id + 1 - 1 := by omega
        rw [previous]
        exact finished
      · simpa [Matcher.reindexed] using afterHolds

/-- A snapshot that fits is restored to the market it was taken of. -/
theorem restore_ok (valid : market.Valid) (fits : (Matcher.marketSnapshot market).Fits)
    (initialCashTicks : Int) :
    ∃ after, (new initialCashTicks).restore (Matcher.marketSnapshot market).layout = .ok after ∧
      after.initialCashTicks = initialCashTicks ∧ after.Represents market := by
  have ordered := Matcher.marketSnapshot_ordered valid
  have orderFits : ∀ order ∈ market.tape.live, (Matcher.marketOrder market order).Fits :=
    fun order member => fits.orders _ (List.mem_map_of_mem member)
  obtain ⟨after, last, finished, cash, bounded, holds⟩ := restoreOrders_ok market orderFits
    valid.tape.priced valid.tape.issued (new_represents initialCashTicks).holds
    (by simpa [Exchange.Market.fresh, Exchange.Tape.blank] using valid.tape.wellFormed)
    (by simp [Exchange.Market.fresh, Exchange.Tape.blank])
    (fun order member => valid.numbered.2 order member) valid.numbered.1
  have counted : ((Matcher.marketSnapshot market).orders.length : Int).toNat =
      market.tape.live.length := by
    simp [Matcher.marketSnapshot]
  have length : (Matcher.marketSnapshot market).layout.length =
      16 + market.tape.live.length * 52 := by
    rw [Matcher.EngineSnapshot.length_layout]
    simp [Matcher.marketSnapshot, Matcher.headSize, Matcher.orderSize]
  have next : (Matcher.marketSnapshot market).nextOrderId % 256 ^ 8 = market.tape.nextOrderId :=
    Bytes.unsigned_of_fits fits.nextOrderId
  refine ⟨{ after with nextOrderId := market.tape.nextOrderId }, ?_, cash, ?_, ⟨⟨holds.live, ?_⟩, ?_⟩⟩
  · have pristine : ¬ ((new initialCashTicks).nextOrderId ≠ 1 ∨
        (new initialCashTicks).live.entries ≠ [] ∨ (new initialCashTicks).books.size ≠ 0) := by
      simp [new, OrderedMap.empty, OrderedMap.size]
    rw [restore, if_neg pristine, Matcher.EngineSnapshot.drop_layout]
    simp only [getLe_truncated, Fault.ok_bind, fits.counted, counted, length, next]
    rw [if_neg (fun different => different rfl)]
    have loop : restoreOrders market.tape.live.length
        ((Matcher.marketSnapshot market).orders.flatMap Matcher.SnapshotOrder.layout) 0
        market.tape.nextOrderId (new initialCashTicks) = .ok after := finished
    rw [loop]
    rfl
  · exact (Int.emod_eq_of_lt fits.nextOrderId.1 fits.nextOrderId.2).symm
  · intro name
    have rebuilt := holds.index name
    rwa [Exchange.Market.fresh, Matcher.reindexed_valid valid] at rebuilt
  · intro symbolId
    obtain ⟨naive, queues⟩ := holds.books symbolId
    exact ⟨naive, queues.mono bounded⟩

end StreamEngine

end QuantArena.Engine.Cpp
