import QuantArena.Web.Tables

/-! What the requests of a resync are answered: the ledger's, at the place that the tables stood
for when they were read. -/

set_option autoImplicit false

namespace QuantArena.Web

open Foundations Contracts Fanout

namespace Viewing

variable {viewer : Viewer} {viewing : Viewing}

theorem openOrders_answered (stored : Stored viewer viewing) (regular : viewer.Regular) :
    viewer.OrdersOf viewing.flushed (getOpenOrders viewing.consumer.database
      (Exchange.Tape.acceptedIds (viewer.outbound.map (·.2))) viewer.userId) := by
  let ids := Exchange.Tape.acceptedIds (viewer.outbound.map (·.2))
  have row : ∀ orderId, viewing.consumer.database.openOrders orderId =
      (viewer.ledgerAt viewing.flushed).openOrders.get? orderId := stored.tables.openOrders
  have key : ∀ orderId order, viewing.consumer.database.openOrders orderId = some order →
      order.orderId = orderId := fun orderId order found =>
    Viewer.Regular.keyed viewer viewing.flushed orderId order ((row orderId).symm.trans found)
  have known : ∀ orderId order, viewing.consumer.database.openOrders orderId = some order →
      orderId ∈ ids := by
    intro orderId order found
    have accepted := stored.sound.traced.rows orderId order found
    have whole := Ledger.Consumer.acceptedIds_append (viewer.outbound.take viewing.applied)
      (viewer.outbound.drop viewing.applied)
    rw [List.take_append_drop] at whole
    show orderId ∈ Exchange.Tape.acceptedIds _
    rw [whole]
    exact List.mem_append_left _ accepted
  have once : ids.Nodup := by
    have all := acceptedBy_nodup regular viewer.outbound.length
    rwa [acceptedBy, List.take_length] at all
  constructor
  · have sorted : (ids.insertionSort (· ≤ ·)).Nodup := (List.perm_insertionSort _ ids).nodup_iff.mpr once
    simp only [getOpenOrders, List.Nodup, List.pairwise_map]
    apply List.Pairwise.filter
    rw [List.pairwise_filterMap]
    apply sorted.imp
    intro one other apart order found order' found' same
    exact apart ((key one order found).symm.trans (same.trans (key other order' found')))
  · intro item
    simp only [getOpenOrders, List.mem_map, List.mem_filter, List.mem_filterMap,
      List.mem_insertionSort, decide_eq_true_eq]
    constructor
    · intro shown
      obtain ⟨order, ⟨⟨orderId, _, found⟩, own⟩, same⟩ := shown
      have place : item.orderId = orderId := by
        rw [← same]
        exact key orderId order found
      rw [ownOrder, place, ← row, found, Option.filter_some, if_pos (decide_eq_true own), ← same]
      rfl
    · intro listed
      obtain ⟨order, own, same⟩ := Option.map_eq_some_iff.mp listed
      obtain ⟨found, mine⟩ := Option.filter_eq_some_iff.mp own
      rw [← row] at found
      exact ⟨order, ⟨⟨item.orderId, known _ order found, found⟩, of_decide_eq_true mine⟩, same⟩

theorem cash_answered (stored : Stored viewer viewing) :
    getCash viewing.consumer.database viewer.userId =
      (viewer.ledgerAt viewing.flushed).getBalance viewer.userId := by
  rw [getCash, stored.tables.accounts]
  rfl

theorem positions_answered (stored : Stored viewer viewing) {answer : List (Int × Int)}
    (read : (answer : Multiset (Int × Int)) =
      getPositions viewing.consumer.database viewer.userId) :
    viewer.PositionsOf viewing.flushed answer := by
  rw [getPositions, stored.tables.positions] at read
  constructor
  · have distinct : (((viewer.ledgerAt viewing.flushed).heldRows.filter fun row =>
        row.1.1 = viewer.userId ∧ row.2 ≠ 0).map fun row => row.1.2).Nodup := by
      apply Multiset.Nodup.map_on _ ((Ledger.nodup_heldRows _).filter _)
      intro row member other member' same
      simp only [Multiset.mem_filter, Ledger.mem_heldRows] at member member'
      have key : row.1 = other.1 := Prod.ext (member.2.1.trans member'.2.1.symm) same
      have found := member.1.1
      rw [key, member'.1.1] at found
      exact Prod.ext key (Option.some.inj found).symm
    have mapped := congrArg (Multiset.map Prod.fst) read
    rw [Multiset.map_map] at mapped
    rw [← Multiset.coe_nodup, ← Multiset.map_coe, mapped]
    exact distinct
  · intro position
    rw [← Multiset.mem_coe, read]
    simp only [Multiset.mem_map, Multiset.mem_filter, Ledger.mem_heldRows]
    constructor
    · intro shown
      obtain ⟨row, ⟨⟨found, nonzero⟩, own, _⟩, same⟩ := shown
      rw [← same]
      have key : (viewer.userId, row.1.2) = row.1 := Prod.ext own.symm rfl
      exact ⟨nonzero, by rw [Ledger.getPosition, key]; exact Dict.getD_of_get? 0 found⟩
    · intro holding
      obtain ⟨nonzero, held⟩ := holding
      refine ⟨((viewer.userId, position.1), position.2), ⟨⟨?_, nonzero⟩, rfl, nonzero⟩, rfl⟩
      cases found : (viewer.ledgerAt viewing.flushed).positions.get?
          (viewer.userId, position.1) with
      | none =>
          rw [Ledger.getPosition, Dict.getD, found] at held
          exact absurd held.symm nonzero
      | some qty =>
          rw [Ledger.getPosition, Dict.getD_of_get? 0 found] at held
          rw [held]

end Viewing

end QuantArena.Web
