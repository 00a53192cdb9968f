import QuantArena.Exchange.Quantities
import QuantArena.Foundations.Mirror

/-! What the consumers of the outbound stream keep of a live order, and what one
lawful record does to a dictionary that mirrors the live orders. -/

set_option autoImplicit false

namespace QuantArena.Exchange

open Foundations Foundations.PriceTime Contracts

/-- An open order as a consumer shows it, under its order id. -/
structure OpenOrder where
  clientOrderId : Int
  userId : Int
  symbolId : Int
  side : Int
  priceTicks : Int
  remainingQty : Int
deriving DecidableEq, Repr

def openOrder (order : LiveOrder) : OpenOrder where
  clientOrderId := order.ticket.clientOrderId
  userId := order.ticket.userId
  symbolId := order.ticket.symbolId
  side := sideCode order.side
  priceTicks := order.price
  remainingQty := order.remaining

def OpenOrder.ofAccepted (accepted : OrderAccepted) : OpenOrder where
  clientOrderId := accepted.clientOrderId
  userId := accepted.userId
  symbolId := accepted.symbolId
  side := accepted.side
  priceTicks := accepted.priceTicks
  remainingQty := accepted.qty

namespace Tape

variable {tape : Tape}

/-- A lawful acceptance adds one order, newer than all. -/
theorem accepted_live (valid : tape.Valid) {accepted : OrderAccepted}
    (lawful : tape.Lawful (.orderAccepted accepted)) : ∃ order : LiveOrder,
      (tape.read (.orderAccepted accepted)).live = tape.live ++ [order] ∧
      order.id = accepted.orderId ∧ openOrder order = OpenOrder.ofAccepted accepted ∧
      announced accepted = some order ∧ ∀ other ∈ tape.live, other.id ≠ order.id := by
  obtain ⟨fresh, ⟨side, named⟩, -⟩ := lawful
  refine ⟨_, by simp only [read, announced, named, Option.map_some, Option.toList_some]; rfl, rfl,
    ?_, by simp only [announced, named, Option.map_some], ?_⟩
  · simp only [openOrder, OpenOrder.ofAccepted, ← sideOf?_eq_some_iff.mp named]
  · intro other member
    exact (lt_of_lt_of_le (valid.issued other member) fresh).ne

/-! ## Live orders and their acceptances -/

/-- Every live order was live before the record, but for its quantity, or is what it accepted. -/
theorem mem_read {record : Outbound} {order : LiveOrder} (member : order ∈ (tape.read record).live) :
    (∃ before ∈ tape.live, order = { before with remaining := order.remaining }) ∨
      ∃ accepted, record = .orderAccepted accepted ∧ announced accepted = some order := by
  cases record with
  | orderAccepted accepted =>
      cases List.mem_append.mp member with
      | inl old => exact .inl ⟨order, old, rfl⟩
      | inr new => exact .inr ⟨accepted, rfl, Option.mem_toList.mp new⟩
  | fill fill => exact .inl (mem_read_fill member)
  | orderCancelled cancelled => exact .inl ⟨order, List.mem_of_mem_filter member, rfl⟩
  | orderRejected _ => exact .inl ⟨order, member, rfl⟩
  | bookChanged _ => exact .inl ⟨order, member, rfl⟩
  | accountCreated _ => exact .inl ⟨order, member, rfl⟩
  | cashCredited _ => exact .inl ⟨order, member, rfl⟩
  | replayConfigured _ => exact .inl ⟨order, member, rfl⟩

theorem mem_readAll {records : List Outbound} {order : LiveOrder}
    (member : order ∈ (tape.readAll records).live) :
    (∃ before ∈ tape.live, order = { before with remaining := order.remaining }) ∨
      ∃ accepted first, .orderAccepted accepted ∈ records ∧ announced accepted = some first ∧
        order = { first with remaining := order.remaining } := by
  induction records generalizing tape with
  | nil => exact .inl ⟨order, member, rfl⟩
  | cons record rest ih =>
      obtain ⟨middle, middleMember, same⟩ | ⟨accepted, first, later, rest⟩ := ih member
      · obtain ⟨before, beforeMember, origin⟩ | ⟨accepted, rfl, announces⟩ := mem_read middleMember
        · exact .inl ⟨before, beforeMember, by rw [same, origin]⟩
        · exact .inr ⟨accepted, middle, List.mem_cons_self, announces, same⟩
      · exact .inr ⟨accepted, first, List.mem_cons_of_mem _ later, rest⟩

theorem LawfulAll.accepted_inj {records : List Outbound} (lawful : tape.LawfulAll records)
    {left right : OrderAccepted} (leftMember : .orderAccepted left ∈ records)
    (rightMember : .orderAccepted right ∈ records) (same : left.orderId = right.orderId) :
    left = right := by
  induction records generalizing tape with
  | nil => cases leftMember
  | cons record rest ih =>
      have above := lawful.2.acceptedIds_ascending.2
      have later : ∀ {accepted other : OrderAccepted}, record = .orderAccepted accepted →
          .orderAccepted other ∈ rest → accepted.orderId < other.orderId := by
        rintro accepted other rfl member
        exact above other.orderId (mem_acceptedIds.mpr ⟨other, member, rfl⟩)
      rcases List.mem_cons.mp leftMember with rfl | leftLater
      · rcases List.mem_cons.mp rightMember with equal | rightLater
        · exact (Outbound.orderAccepted.inj equal).symm
        · exact absurd same (later rfl rightLater).ne
      · rcases List.mem_cons.mp rightMember with rfl | rightLater
        · exact absurd same.symm (later rfl leftLater).ne
        · exact ih lawful.2 leftLater rightLater

/-- What a live order has been cancelled of is nothing. -/
theorem LawfulAll.cancelledQty_of_live {records : List Outbound} (lawful : tape.LawfulAll records)
    (valid : tape.Valid) {order : LiveOrder} (member : order ∈ (tape.readAll records).live) :
    (records.map (cancelledQty order.id)).sum = 0 := by
  apply List.sum_eq_zero
  intro amount amountMember
  obtain ⟨record, recordMember, rfl⟩ := List.mem_map.mp amountMember
  obtain ⟨before, after, rfl⟩ := List.append_of_mem recordMember
  cases record with
  | orderCancelled cancelled =>
      refine if_neg fun same => ?_
      obtain ⟨lawfulBefore, lawfulHere, lawfulAfter⟩ := lawfulAll_append.mp lawful
      have gone := ((valid.readAll lawfulBefore).gone_of_cancelled lawfulHere).readAll lawfulAfter
      rw [readAll_append, readAll_cons] at member
      exact gone.2 order member same.symm
  | _ => rfl

/-- A live order is its acceptance, less what has been filled of it. -/
theorem LawfulAll.live_accepted {records : List Outbound} (lawful : blank.LawfulAll records)
    {order : LiveOrder} (member : order ∈ (blank.readAll records).live) {accepted : OrderAccepted}
    (announces : .orderAccepted accepted ∈ records) (sameId : accepted.orderId = order.id) :
    openOrder { order with remaining := accepted.qty } = .ofAccepted accepted ∧
      order.remaining + (records.map (filledQty order.id)).sum = accepted.qty := by
  constructor
  · obtain ⟨before, beforeMember, -⟩ | ⟨other, first, otherMember, named, origin⟩ :=
      mem_readAll member
    · cases beforeMember
    · obtain ⟨side, sideNamed, rfl⟩ := Option.map_eq_some_iff.mp named
      have id : other.orderId = order.id := by rw [origin]
      obtain rfl := lawful.accepted_inj announces otherMember (sameId.trans id.symm)
      rw [origin]
      simp only [openOrder, OpenOrder.ofAccepted, sideOf?_eq_some_iff.mp sideNamed]
  · have whole := lawful.quantities blank_valid order.id
    have none := lawful.cancelledQty_of_live blank_valid member
    have rests := restingQty_of_mem (blank_valid.readAll lawful) member
    have accepts := lawful.acceptedQty_sum announces
    have empty : blank.restingQty order.id = 0 := rfl
    rw [sameId] at accepts
    omega

end Tape

end QuantArena.Exchange
