import QuantArena.Exchange.MarketProperties
import QuantArena.Exchange.OpenOrders
import QuantArena.Fanout.State

/-! Each of fan-out's books holds the live orders of its symbol, and shows one level
for each price they rest at. -/

set_option autoImplicit false

namespace QuantArena.Fanout

open Foundations Foundations.PriceTime Contracts Exchange

def restingOrder (order : LiveOrder) : RestingOrder :=
  ⟨order.id, sideCode order.side, order.price, order.remaining⟩

theorem less_restingOrder (order : LiveOrder) (qty : Int) :
    (restingOrder order).less qty = Mirrors.shownLeft restingOrder qty order := by
  simp only [RestingOrder.less, Mirrors.shownLeft, restingOrder, sub_nonpos]

/-- A book that lists the given orders, as they were accepted. -/
def Book.Lists (book : Book) (live : List LiveOrder) : Prop :=
  Mirrors book.orders id live restingOrder

theorem Book.Lists.fill {book : Book} {live : List LiveOrder} (lists : book.Lists live)
    (orderId qty : Int) : (book.fill orderId qty).Lists (reduce orderId qty live) := by
  refine Mirrors.alter lists (fun _ _ _ _ => rfl) ?_
  intro order resting _ _ _ same
  rw [id] at same
  rw [Option.map_id, same]
  exact less_restingOrder resting qty

namespace MarketState

/-- Every book lists the tape's live orders of its symbol. -/
def Follows (state : MarketState) (tape : Exchange.Tape) : Prop :=
  ∀ symbolId, (state.book symbolId).Lists (onSymbol symbolId tape.live)

theorem new_follows (barWidths : List BarWidth) : (new barWidths).Follows .blank :=
  fun _ => Mirrors.empty

variable {state : MarketState} {tape : Exchange.Tape}

theorem book_withBook (state : MarketState) (symbolId other : Int) (change : Book → Book) :
    (state.withBook symbolId change).book other =
      if other = symbolId then change (state.book symbolId) else state.book other := by
  simp only [book, withBook, Dict.getD_set]

/-- A change of one book that does to it what the record does to its symbol's orders. -/
theorem Follows.withBook (follows : state.Follows tape) {symbolId : Int} {change : Book → Book}
    {live : List LiveOrder}
    (here : (change (state.book symbolId)).Lists (onSymbol symbolId live))
    (elsewhere : ∀ other, other ≠ symbolId → onSymbol other live = onSymbol other tape.live) :
    ∀ other, ((state.withBook symbolId change).book other).Lists (onSymbol other live) := by
  intro other
  rw [book_withBook]
  split
  · rename_i same
    rw [same]
    exact here
  · rename_i different
    rw [elsewhere other different]
    exact follows other

theorem onSymbol_reduce_of_ne {live : List LiveOrder} (valid : WellFormed live) {order : LiveOrder}
    (member : order ∈ live) {symbolId : Int} (different : symbolId ≠ order.ticket.symbolId)
    (qty : Int) : onSymbol symbolId (reduce order.id qty live) = onSymbol symbolId live := by
  rw [onSymbol_reduce]
  apply reduce_eq_self
  intro other otherMember same
  obtain ⟨otherLive, onIt⟩ := mem_onSymbol.mp otherMember
  rw [valid.eq_of_id otherLive member same] at onIt
  exact different onIt.symm

theorem Follows.applyRecord (follows : state.Follows tape) (valid : tape.Valid) {record : Outbound}
    (lawful : tape.Lawful record) : (state.applyRecord record).Follows (tape.read record) := by
  cases record with
  | orderAccepted accepted =>
      obtain ⟨order, live, sameId, shown, -, fresh⟩ := Exchange.Tape.accepted_live valid lawful
      simp only [openOrder, OpenOrder.ofAccepted, OpenOrder.mk.injEq] at shown
      obtain ⟨-, -, symbol, side, price, quantity⟩ := shown
      refine Follows.withBook follows ?_ ?_
      · have same : id (⟨order.id, accepted.side, accepted.priceTicks, accepted.qty⟩ : RestingOrder) =
            restingOrder order := by
          simp only [id, restingOrder, side, price, quantity]
        have added := Mirrors.set_newest (follows accepted.symbolId)
          (fun other member => fresh other (mem_onSymbol.mp member).1) same
        have own : onSymbol accepted.symbolId [order] = [order] := by
          simp [onSymbol, symbol]
        rw [live, onSymbol_append, own]
        simp only [sameId] at added
        exact added
      · intro other different
        have none : onSymbol other [order] = [] := by
          simp [onSymbol, symbol, different.symm]
        rw [live, onSymbol_append, none, List.append_nil]
  | fill fill =>
      obtain ⟨maker, taker, executed⟩ := lawful
      have booked : ∀ other, ((state.withBook fill.symbolId fun book =>
          (book.fill fill.makerOrderId fill.qty).fill fill.takerOrderId fill.qty).book other).Lists
          (onSymbol other (tape.read (.fill fill)).live) := by
        refine Follows.withBook follows ?_ ?_
        · simp only [Exchange.Tape.read, onSymbol_reduce]
          exact ((follows fill.symbolId).fill _ _).fill _ _
        · intro other different
          simp only [Exchange.Tape.read, ← executed.makerId, ← executed.takerId]
          have stays : taker ∈ reduce maker.id fill.qty tape.live :=
            mem_reduce.mpr (.inl ⟨executed.takerLive, (executed.ids_ne valid).symm⟩)
          rw [onSymbol_reduce_of_ne (valid.wellFormed.reduce _) stays
              (by rw [executed.takerSymbol]; exact different),
            onSymbol_reduce_of_ne valid.wellFormed executed.makerLive
              (by rw [executed.makerSymbol]; exact different)]
      exact booked
  | orderCancelled cancelled =>
      obtain ⟨order, member, sameId, -, -, -, symbol⟩ := lawful
      have commutes : ∀ other, onSymbol other (remove cancelled.orderId tape.live) =
          remove cancelled.orderId (onSymbol other tape.live) := fun other => List.filter_comm ..
      refine Follows.withBook follows ?_ ?_
      · simp only [Exchange.Tape.read, commutes]
        exact Mirrors.erase (follows cancelled.symbolId) cancelled.orderId
      · intro other different
        simp only [Exchange.Tape.read, commutes]
        apply List.filter_eq_self.mpr
        intro resting restingMember
        obtain ⟨live, onIt⟩ := mem_onSymbol.mp restingMember
        simp only [ne_eq, decide_not, Bool.not_eq_true', decide_eq_false_iff_not]
        intro same
        rw [valid.wellFormed.eq_of_id live member (same.trans sameId.symm), symbol] at onIt
        exact different onIt.symm
  | orderRejected _ => exact follows
  | bookChanged _ => exact follows
  | accountCreated _ => exact follows
  | cashCredited _ => exact follows
  | replayConfigured _ => exact follows

theorem Follows.applyAll (follows : state.Follows tape) (valid : tape.Valid)
    {events : List (Outbound × Option StreamId)} (lawful : tape.LawfulAll (events.map (·.1))) :
    (state.applyAll events).Follows (tape.readAll (events.map (·.1))) := by
  induction events generalizing state tape with
  | nil => exact follows
  | cons event rest ih =>
      have counted : Follows { state with
          lastSeq := event.2.getD state.lastSeq
          recordsApplied := state.recordsApplied + 1 } tape := follows
      exact ih (counted.applyRecord valid lawful.1) (valid.read lawful.1) lawful.2

end MarketState

/-! ## Levels -/

/-- What rests at a price of one side. -/
def depthAt (live : List LiveOrder) (side : Side) (price : Int) : Int :=
  ((live.filter fun order => order.side = side ∧ order.price = price).map (·.remaining)).sum

theorem sideCode_inj {left right : Side} : sideCode left = sideCode right ↔ left = right := by
  cases left <;> cases right <;> decide

theorem Book.Lists.totals {book : Book} {live : List LiveOrder} (lists : book.Lists live)
    (positive : ∀ order ∈ live, 0 < order.remaining) (side : Side) (price : Int) :
    (book.totals (sideCode side)).get? price =
      if ∃ order ∈ live, order.side = side ∧ order.price = price then
        some (depthAt live side price) else none := by
  have values : book.orders.values = live.map restingOrder := by
    have shown := Mirrors.values_map lists
    rwa [List.map_id] at shown
  have gathered : book.totals (sideCode side) =
      (live.filter fun order => order.side = side).foldl
        (fun totals order => totals.add order.price order.remaining) .empty := by
    rw [Book.totals, values, List.foldl_map, List.foldl_filter]
    apply List.foldl_ext
    intro totals order member
    have counted : order.remaining > 0 := positive order member
    simp only [restingOrder, sideCode_inj, counted, and_true, decide_eq_true_eq]
  have depth : (((live.filter fun order => order.side = side).filter fun order =>
      order.price = price).map (·.remaining)).sum = depthAt live side price := by
    simp only [depthAt, List.filter_filter, Bool.decide_and, Bool.and_comm]
  rw [gathered, Dict.get?_foldl_add, depth]
  simp only [List.mem_filter, decide_eq_true_eq, and_assoc, Dict.get?_empty, Dict.getD,
    Option.getD_none, Int.zero_add]

/-- Levels nearest the market first: bids from the top, asks from the bottom. -/
def Nearer (side : Side) (left right : Int × Int) : Prop :=
  match side with
  | .buy => right.1 < left.1
  | .sell => left.1 < right.1

/-- One level for each price something rests at, with all that rests there, and no other. -/
structure Ladder (live : List LiveOrder) (side : Side) (levels : List (Int × Int)) : Prop where
  sorted : levels.Pairwise (Nearer side)
  exact : ∀ price qty, (price, qty) ∈ levels ↔
    (∃ order ∈ live, order.side = side ∧ order.price = price) ∧ qty = depthAt live side price

theorem Book.before_sorted (side : Side) (entries : List (Int × Int)) :
    (entries.mergeSort (before (sideCode side))).Pairwise fun left right =>
      before (sideCode side) left right = true := by
  apply List.pairwise_mergeSort
  · intro first second third early late
    cases side <;> simp [before, sideCode] at early late ⊢ <;> omega
  · intro first second
    cases side <;> simp [before, sideCode] <;> omega

theorem Book.Lists.ladder {book : Book} {live : List LiveOrder} (lists : book.Lists live)
    (positive : ∀ order ∈ live, 0 < order.remaining) (side : Side) :
    ∃ levels, Ladder live side levels ∧
      ∀ depth, book.levels (sideCode side) depth = levels.take depth := by
  refine ⟨(book.totals (sideCode side)).entries.mergeSort (before (sideCode side)), ⟨?_, ?_⟩,
    fun depth => rfl⟩
  · have perm := List.mergeSort_perm (book.totals (sideCode side)).entries
      (before (sideCode side))
    have distinct := ((perm.map Prod.fst).nodup_iff.mpr (book.totals (sideCode side)).unique)
    rw [List.Nodup, List.pairwise_map] at distinct
    refine ((before_sorted side _).and distinct).imp ?_
    intro left right ordered
    obtain ⟨weakly, apart⟩ := ordered
    cases side with
    | buy =>
        simp only [before, if_true, decide_eq_true_eq] at weakly
        exact lt_of_le_of_ne weakly apart.symm
    | sell =>
        simp only [before, sideCode, OfNat.ofNat_ne_one, if_false, decide_eq_true_eq] at weakly
        exact lt_of_le_of_ne weakly apart
  · intro price qty
    rw [List.mem_mergeSort, ← Dict.get?_eq_some_iff, lists.totals positive]
    split
    · rename_i present
      rw [Option.some.injEq, eq_comm]
      exact (and_iff_right present).symm
    · rename_i absent
      simp only [reduceCtorEq, absent, false_and]

end QuantArena.Fanout
