import QuantArena.Engine.NaiveModel

/-! The naive book represents a plain list of live orders in arrival order.
Its price levels, id map and arrival cells are all determined by that list, so
each operation is described by what it does to the list. -/

set_option autoImplicit false

namespace QuantArena.Engine.NaiveModel

open Foundations Foundations.PriceTime

namespace OrderBook

/-- The book's orders; the id map lists them as they arrived. -/
def orders (book : OrderBook) : List Order := book.ordersById.values

def view (book : OrderBook) (order : Order) : Resting Int Int Unit :=
  ⟨order.orderId, order.side, order.price, book.remainingQuantity order, ()⟩

def resting (book : OrderBook) : List (Resting Int Int Unit) := book.orders.map book.view

def queue (book : OrderBook) (side : Side) (price : Int) : List Order :=
  book.orders.filter fun order => order.side = side ∧ order.price = price

/-- The level a price must have: absent rather than empty. -/
def levelOf (price : Int) (orders : List Order) : Option PriceLevel :=
  if orders = [] then none else some ⟨price, orders⟩

/-- Every container of the book agrees with its list of orders. -/
structure Shaped (book : OrderBook) : Prop where
  keyed : ∀ orderId order, book.ordersById.get? orderId = some order → order.orderId = orderId
  ascending : book.orders.Pairwise fun left right => left.orderId < right.orderId
  priced : ∀ order ∈ book.orders, 0 < order.price
  levels : ∀ side price, (book.sideMap side).get? price = levelOf price (book.queue side price)
  arrived : ∀ order ∈ book.orders, ∃ arrival,
    book.arrivalSequence.get? order.orderId = some arrival ∧ arrival < book.nextArrivalSequence
  arrival : book.orders.Pairwise fun left right => ∀ early late,
    book.arrivalSequence.get? left.orderId = some early →
    book.arrivalSequence.get? right.orderId = some late → early < late
  measured : ∀ order ∈ book.orders, ∃ left, book.remaining.get? order.orderId = some left
  unsequenced : ∀ orderId, book.ordersById.get? orderId = none →
    book.arrivalSequence.get? orderId = none

/-! ## Side maps -/

@[simp] theorem sideMap_setSideMap (book : OrderBook) (side : Side) (levels : Dict Int PriceLevel) :
    (book.setSideMap side levels).sideMap side = levels := by
  cases side <;> rfl

theorem sideMap_setSideMap_of_ne (book : OrderBook) {side other : Side}
    (levels : Dict Int PriceLevel) (different : other ≠ side) :
    (book.setSideMap side levels).sideMap other = book.sideMap other := by
  cases side <;> cases other <;> first | rfl | exact absurd rfl different

@[simp] theorem setSideMap_ordersById (book : OrderBook) (side : Side)
    (levels : Dict Int PriceLevel) :
    (book.setSideMap side levels).ordersById = book.ordersById := by
  cases side <;> rfl

@[simp] theorem setSideMap_arrivalSequence (book : OrderBook) (side : Side)
    (levels : Dict Int PriceLevel) :
    (book.setSideMap side levels).arrivalSequence = book.arrivalSequence := by
  cases side <;> rfl

@[simp] theorem setSideMap_nextArrivalSequence (book : OrderBook) (side : Side)
    (levels : Dict Int PriceLevel) :
    (book.setSideMap side levels).nextArrivalSequence = book.nextArrivalSequence := by
  cases side <;> rfl

@[simp] theorem setSideMap_remaining (book : OrderBook) (side : Side)
    (levels : Dict Int PriceLevel) :
    (book.setSideMap side levels).remaining = book.remaining := by
  cases side <;> rfl

/-! ## Membership -/

variable {book : OrderBook}

theorem Shaped.get?_of_mem (shaped : book.Shaped) {order : Order} (member : order ∈ book.orders) :
    book.ordersById.get? order.orderId = some order := by
  obtain ⟨orderId, found⟩ := Dict.mem_values_iff.mp member
  rw [shaped.keyed orderId order found]
  exact found

theorem mem_orders_of_get? {orderId : Int} {order : Order}
    (found : book.ordersById.get? orderId = some order) : order ∈ book.orders :=
  Dict.mem_values_iff.mpr ⟨orderId, found⟩

theorem Shaped.eq_of_orderId (shaped : book.Shaped) {left right : Order}
    (leftMember : left ∈ book.orders) (rightMember : right ∈ book.orders)
    (same : left.orderId = right.orderId) : left = right := by
  have found := shaped.get?_of_mem leftMember
  rw [same, shaped.get?_of_mem rightMember] at found
  exact (Option.some.inj found).symm

theorem mem_queue {side : Side} {price : Int} {order : Order} :
    order ∈ book.queue side price ↔
      order ∈ book.orders ∧ order.side = side ∧ order.price = price := by
  simp [queue]

theorem levelOf_nil (price : Int) : levelOf price [] = none := rfl

theorem levelOf_of_mem {price : Int} {orders : List Order} {order : Order}
    (member : order ∈ orders) : levelOf price orders = some ⟨price, orders⟩ := by
  rw [levelOf, if_neg (List.ne_nil_of_mem member)]

theorem levelOf_eq_some {price : Int} {orders : List Order} {level : PriceLevel}
    (found : levelOf price orders = some level) : level = ⟨price, orders⟩ ∧ orders ≠ [] := by
  unfold levelOf at found
  split at found
  · cases found
  · cases found
    exact ⟨rfl, by assumption⟩

theorem new_shaped : new.Shaped where
  keyed orderId order found := by cases found
  ascending := List.Pairwise.nil
  priced order member := by simp [orders, new] at member
  levels side price := by cases side <;> rfl
  arrived order member := by simp [orders, new] at member
  arrival := List.Pairwise.nil
  measured order member := by simp [orders, new] at member
  unsequenced _ _ := rfl

theorem measured_of_get? {order : Order} {value : Int}
    (found : book.remaining.get? order.orderId = some value) :
    book.remainingQuantity order = value := Dict.getD_of_get? _ found

theorem Shaped.get?_remaining (shaped : book.Shaped) {order : Order}
    (member : order ∈ book.orders) :
    book.remaining.get? order.orderId = some (book.remainingQuantity order) := by
  obtain ⟨left, found⟩ := shaped.measured order member
  rw [found, measured_of_get? found]

/-- Overwriting a quantity keeps the shape. -/
theorem Shaped.setRemaining (shaped : book.Shaped) (orderId value : Int) :
    Shaped { book with remaining := book.remaining.set orderId value } where
  keyed := shaped.keyed
  ascending := shaped.ascending
  priced := shaped.priced
  levels side price := by
    have level := shaped.levels side price
    cases side <;> exact level
  arrived := shaped.arrived
  arrival := shaped.arrival
  measured order member := by
    rw [Dict.get?_set]
    split
    · exact ⟨value, rfl⟩
    · exact shaped.measured order member
  unsequenced := shaped.unsequenced

/-! ## Insertion -/

theorem insertOrder_ok (shaped : book.Shaped) {order : Order} (priced : 0 < order.price)
    (latest : ∀ earlier ∈ book.orders, earlier.orderId < order.orderId) :
    ∃ after, book.insertOrder order = .ok after ∧ after.Shaped ∧
      after.orders = book.orders ++ [order] ∧
      after.remaining = book.remaining.set order.orderId order.quantity := by
  have fresh : book.ordersById.get? order.orderId = none := by
    cases found : book.ordersById.get? order.orderId with
    | none => rfl
    | some other =>
        have earlier := latest other (mem_orders_of_get? found)
        rw [shaped.keyed _ other found] at earlier
        exact absurd earlier (lt_irrefl _)
  have absent : book.ordersById.contains order.orderId = false :=
    Dict.contains_eq_false_iff.mpr fresh
  have target : levelFor (book.sideMap order.side) order.price =
      .ok ⟨order.price, book.queue order.side order.price⟩ := by
    rw [levelFor, shaped.levels]
    by_cases vacant : book.queue order.side order.price = []
    · rw [vacant, levelOf_nil]
      simp [PriceLevel.new, Int.not_le.mpr priced]
    · simp [levelOf, vacant]
  refine ⟨_, by
    simp only [insertOrder, absent, target, Bool.false_eq_true, ↓reduceIte]
    rfl, ?_, ?_, ?_⟩
  · have appended : (book.ordersById.set order.orderId order).values = book.orders ++ [order] :=
      Dict.values_set_fresh _ _ fresh
    constructor
    · intro orderId other found
      rw [setSideMap_ordersById] at found
      rw [Dict.get?_set] at found
      split at found
      · cases found
        symm
        assumption
      · exact shaped.keyed orderId other found
    · rw [orders, setSideMap_ordersById, appended]
      exact List.pairwise_append.mpr ⟨shaped.ascending, List.pairwise_singleton _ _, fun earlier
        member last singleton => by
          rw [List.mem_singleton.mp singleton]
          exact latest earlier member⟩
    · intro other member
      rw [orders, setSideMap_ordersById, appended, List.mem_append, List.mem_singleton] at member
      rcases member with member | rfl
      · exact shaped.priced other member
      · exact priced
    · intro side price
      simp only [queue, orders, setSideMap_ordersById, appended]
      rw [List.filter_append]
      by_cases sameSide : side = order.side
      · subst sameSide
        rw [sideMap_setSideMap]
        by_cases samePrice : price = order.price
        · subst samePrice
          rw [Dict.get?_set_self]
          simp [levelOf, PriceLevel.append]
        · rw [Dict.get?_set_of_ne _ _ samePrice, shaped.levels]
          simp [queue, orders, Ne.symm samePrice]
      · rw [sideMap_setSideMap_of_ne _ _ sameSide]
        have kept := shaped.levels side price
        have unchanged : sideMap { book with
            ordersById := book.ordersById.set order.orderId order
            arrivalSequence := book.arrivalSequence.set order.orderId book.nextArrivalSequence
            nextArrivalSequence := book.nextArrivalSequence + 1
            remaining := book.remaining.set order.orderId order.quantity } side =
            book.sideMap side := by
          cases side <;> rfl
        rw [unchanged, kept]
        simp [queue, orders, Ne.symm sameSide]
    · intro other member
      rw [orders, setSideMap_ordersById, appended, List.mem_append, List.mem_singleton] at member
      rw [setSideMap_arrivalSequence, setSideMap_nextArrivalSequence]
      rcases member with member | rfl
      · obtain ⟨arrival, found, bounded⟩ := shaped.arrived other member
        have different : other.orderId ≠ order.orderId := (latest other member).ne
        exact ⟨arrival, by rw [Dict.get?_set_of_ne _ _ different]; exact found, by
          simp only; omega⟩
      · exact ⟨book.nextArrivalSequence, Dict.get?_set_self _ _ _, Nat.lt_succ_self _⟩
    · rw [orders, setSideMap_ordersById, setSideMap_arrivalSequence, appended]
      refine List.pairwise_append.mpr ⟨?_, List.pairwise_singleton _ _, ?_⟩
      · refine shaped.arrival.imp_of_mem ?_
        intro left right leftMember rightMember related early late foundEarly foundLate
        rw [Dict.get?_set_of_ne _ _ (latest left leftMember).ne] at foundEarly
        rw [Dict.get?_set_of_ne _ _ (latest right rightMember).ne] at foundLate
        exact related early late foundEarly foundLate
      · intro left member last singleton early late foundEarly foundLate
        rw [List.mem_singleton.mp singleton, Dict.get?_set_self] at foundLate
        rw [Dict.get?_set_of_ne _ _ (latest left member).ne] at foundEarly
        obtain ⟨arrival, found, bounded⟩ := shaped.arrived left member
        rw [found] at foundEarly
        cases foundEarly
        cases foundLate
        exact bounded
    · intro other member
      rw [orders, setSideMap_ordersById, appended, List.mem_append, List.mem_singleton] at member
      rw [setSideMap_remaining]
      rcases member with member | rfl
      · rw [Dict.get?_set_of_ne _ _ (latest other member).ne]
        exact shaped.measured other member
      · exact ⟨_, Dict.get?_set_self _ _ _⟩
    · intro orderId missing
      rw [setSideMap_ordersById, Dict.get?_set] at missing
      rw [setSideMap_arrivalSequence, Dict.get?_set]
      split at missing
      · cases missing
      · rename_i different
        rw [if_neg different]
        exact shaped.unsequenced orderId missing
  · rw [orders, setSideMap_ordersById]
    exact Dict.values_set_fresh _ _ fresh
  · rw [setSideMap_remaining]

/-- Insertion appends the order to the represented list. -/
theorem insertOrder_resting (shaped : book.Shaped) {order : Order} (priced : 0 < order.price)
    (latest : ∀ earlier ∈ book.orders, earlier.orderId < order.orderId) :
    ∃ after, book.insertOrder order = .ok after ∧ after.Shaped ∧
      after.orders = book.orders ++ [order] ∧
      after.resting =
        book.resting ++ [⟨order.orderId, order.side, order.price, order.quantity, ()⟩] ∧
      after.remaining = book.remaining.set order.orderId order.quantity := by
  obtain ⟨after, inserted, afterShaped, orders, remaining⟩ := insertOrder_ok shaped priced latest
  refine ⟨after, inserted, afterShaped, orders, ?_, remaining⟩
  have untouched : ∀ earlier ∈ book.orders, after.view earlier = book.view earlier := by
    intro earlier member
    simp only [view, remainingQuantity, remaining]
    rw [Dict.getD_set_of_ne _ _ _ (latest earlier member).ne]
  rw [resting, orders, List.map_append, List.map_congr_left untouched]
  simp [view, remainingQuantity, remaining, resting]

/-! ## Removal -/

theorem Shaped.erase_queue (shaped : book.Shaped) {order : Order}
    (member : order ∈ book.orders) (side : Side) (price : Int) :
    (book.queue side price).erase order =
      (book.orders.filter fun other => other.orderId ≠ order.orderId).filter
        fun other => other.side = side ∧ other.price = price := by
  have unique : (book.queue side price).Nodup :=
    (shaped.ascending.imp fun earlier => (fun same => by
      rw [same] at earlier
      exact absurd earlier (lt_irrefl _))).filter _
  rw [unique.erase_eq_filter, queue, List.filter_filter, List.filter_filter]
  apply List.filter_congr
  intro other otherMember
  have agree : other = order ↔ other.orderId = order.orderId :=
    ⟨fun same => same ▸ rfl, shaped.eq_of_orderId otherMember member⟩
  by_cases same : other.orderId = order.orderId
  · simp [agree.mpr same]
  · have different : other ≠ order := fun equal => same (agree.mp equal)
    simp [same, different]

theorem removeOrder_ok (shaped : book.Shaped) {order : Order} (member : order ∈ book.orders) :
    ∃ after, book.removeOrder order.orderId = .ok (after, some order) ∧ after.Shaped ∧
      after.orders = (book.orders.filter fun other => other.orderId ≠ order.orderId) ∧
      after.remaining = book.remaining := by
  have found := shaped.get?_of_mem member
  have queued : order ∈ book.queue order.side order.price := mem_queue.mpr ⟨member, rfl, rfl⟩
  have level : (book.sideMap order.side).get? order.price =
      some ⟨order.price, book.queue order.side order.price⟩ := by
    rw [shaped.levels, levelOf_of_mem queued]
  have erased : (book.ordersById.erase order.orderId).values =
      book.orders.filter fun other => other.orderId ≠ order.orderId :=
    Dict.values_erase_of_keyed _ _ shaped.keyed _
  have shrunk := shaped.erase_queue member
  generalize kept : (book.orders.filter fun other => other.orderId ≠ order.orderId) = keptOrders
    at erased shrunk
  -- Whichever way the level is written back, it is the level of the kept orders.
  have closing : ∀ levels : Dict Int PriceLevel,
      (∀ price, levels.get? price = levelOf price (keptOrders.filter fun other =>
        other.side = order.side ∧ other.price = price)) →
      Shaped (setSideMap { book with
        ordersById := book.ordersById.erase order.orderId
        arrivalSequence := book.arrivalSequence.erase order.orderId } order.side levels) := by
    intro levels exact
    constructor
    · intro orderId other present
      rw [setSideMap_ordersById, Dict.get?_erase] at present
      split at present
      · cases present
      · exact shaped.keyed orderId other present
    · rw [orders, setSideMap_ordersById, erased, ← kept]
      exact shaped.ascending.filter _
    · intro other present
      rw [orders, setSideMap_ordersById, erased, ← kept] at present
      exact shaped.priced other (List.mem_of_mem_filter present)
    · intro side price
      rw [queue, orders, setSideMap_ordersById, erased]
      by_cases sameSide : side = order.side
      · subst sameSide
        rw [sideMap_setSideMap]
        exact exact price
      · rw [sideMap_setSideMap_of_ne _ _ sameSide]
        have unchanged : sideMap { book with
            ordersById := book.ordersById.erase order.orderId
            arrivalSequence := book.arrivalSequence.erase order.orderId } side =
            book.sideMap side := by
          cases side <;> rfl
        rw [unchanged, shaped.levels, ← shrunk, List.erase_of_not_mem]
        intro queuedElsewhere
        exact sameSide (mem_queue.mp queuedElsewhere).2.1.symm
    · intro other present
      rw [orders, setSideMap_ordersById, erased, ← kept] at present
      obtain ⟨present, different⟩ := List.mem_filter.mp present
      obtain ⟨arrival, at_, bounded⟩ := shaped.arrived other present
      rw [setSideMap_arrivalSequence, setSideMap_nextArrivalSequence]
      exact ⟨arrival, by
        rw [Dict.get?_erase_of_ne _ (by simpa using different)]
        exact at_, bounded⟩
    · rw [orders, setSideMap_ordersById, setSideMap_arrivalSequence, erased, ← kept]
      refine (shaped.arrival.filter _).imp_of_mem ?_
      intro left right leftMember rightMember related early late foundEarly foundLate
      rw [Dict.get?_erase_of_ne _ (by simpa using (List.mem_filter.mp leftMember).2)] at foundEarly
      rw [Dict.get?_erase_of_ne _ (by simpa using (List.mem_filter.mp rightMember).2)] at foundLate
      exact related early late foundEarly foundLate
    · intro other present
      rw [orders, setSideMap_ordersById, erased, ← kept] at present
      rw [setSideMap_remaining]
      exact shaped.measured other (List.mem_of_mem_filter present)
    · intro orderId missing
      rw [setSideMap_ordersById, Dict.get?_erase] at missing
      rw [setSideMap_arrivalSequence, Dict.get?_erase]
      split at missing
      · rename_i same
        rw [if_pos same]
      · rename_i different
        rw [if_neg different]
        exact shaped.unsequenced orderId missing
  have others : ∀ price, price ≠ order.price → (book.sideMap order.side).get? price =
      levelOf price (keptOrders.filter fun other =>
        other.side = order.side ∧ other.price = price) := by
    intro price different
    rw [shaped.levels, ← shrunk, List.erase_of_not_mem]
    intro queuedElsewhere
    exact different (mem_queue.mp queuedElsewhere).2.2.symm
  by_cases vacant : (book.queue order.side order.price).erase order = []
  · refine ⟨_, by
      simp only [removeOrder, found, level, PriceLevel.remove, queued, ↓reduceIte,
        PriceLevel.empty, vacant, Fault.ok_bind, List.isEmpty_nil],
      closing ((book.sideMap order.side).erase order.price) ?_, ?_, ?_⟩
    · intro price
      rw [Dict.get?_erase]
      split
      · rename_i same
        subst same
        rw [← shrunk, vacant, levelOf_nil]
      · exact others price (by assumption)
    · rw [orders, setSideMap_ordersById]
      exact erased
    · rw [setSideMap_remaining]
  · have occupied : ((book.queue order.side order.price).erase order).isEmpty = false := by
      simpa using vacant
    refine ⟨_, by
      simp only [removeOrder, found, level, PriceLevel.remove, queued, ↓reduceIte,
        PriceLevel.empty, occupied, Fault.ok_bind, Bool.false_eq_true],
      closing ((book.sideMap order.side).set order.price
        ⟨order.price, (book.queue order.side order.price).erase order⟩) ?_, ?_, ?_⟩
    · intro price
      rw [Dict.get?_set]
      split
      · rename_i same
        subst same
        rw [← shrunk, levelOf, if_neg vacant]
      · exact others price (by assumption)
    · rw [orders, setSideMap_ordersById]
      exact erased
    · rw [setSideMap_remaining]

theorem removeOrder_absent {orderId : Int} (missing : book.ordersById.get? orderId = none) :
    book.removeOrder orderId = .ok (book, none) := by
  simp only [removeOrder, missing]

theorem Shaped.get?_eq_some_iff (shaped : book.Shaped) {orderId : Int} {order : Order} :
    book.ordersById.get? orderId = some order ↔
      order ∈ book.orders ∧ order.orderId = orderId := by
  constructor
  · intro found
    exact ⟨mem_orders_of_get? found, shaped.keyed orderId order found⟩
  · intro present
    exact present.2 ▸ shaped.get?_of_mem present.1

/-- Removal touches the cells of the removed order only. -/
theorem removeOrder_cells {orderId : Int} {after : OrderBook} {removed : Option Order}
    (shaped : book.Shaped) (done : book.removeOrder orderId = .ok (after, removed)) :
    after.arrivalSequence = book.arrivalSequence.erase orderId ∧
      after.nextArrivalSequence = book.nextArrivalSequence ∧
      after.remaining = book.remaining := by
  cases found : book.ordersById.get? orderId with
  | none =>
      rw [removeOrder_absent found] at done
      cases done
      exact ⟨(Dict.erase_eq_self (shaped.unsequenced orderId found)).symm, rfl, rfl⟩
  | some order =>
      simp only [removeOrder, found] at done
      split at done
      · cases done
        exact ⟨rfl, rfl, rfl⟩
      · rw [Fault.bind_eq_ok] at done
        obtain ⟨level, -, written⟩ := done
        split at written
        · cases written
          simp
        · cases written
          simp

end OrderBook

end QuantArena.Engine.NaiveModel
