import QuantArena.Exchange.Tape

/-! Where the quantity of an order goes: to fills, to a cancellation, or it rests. -/

set_option autoImplicit false

namespace QuantArena.Exchange

open Foundations Foundations.PriceTime Contracts

def acceptedQty (orderId : Int) : Outbound → Int
  | .orderAccepted accepted => if accepted.orderId = orderId then accepted.qty else 0
  | _ => 0

/-- A fill counts for both its parties. -/
def filledQty (orderId : Int) : Outbound → Int
  | .fill fill =>
      if fill.makerOrderId = orderId ∨ fill.takerOrderId = orderId then fill.qty else 0
  | _ => 0

def cancelledQty (orderId : Int) : Outbound → Int
  | .orderCancelled cancelled =>
      if cancelled.orderId = orderId then cancelled.remainingQty else 0
  | _ => 0

def isCancellation (orderId : Int) : Outbound → Bool
  | .orderCancelled cancelled => cancelled.orderId = orderId
  | _ => false

namespace Tape

variable {tape : Tape}

def resting (orderId : Int) (order : LiveOrder) : Int :=
  if order.id = orderId then order.remaining else 0

def restingQty (tape : Tape) (orderId : Int) : Int := totalOf (resting orderId) tape.live

theorem resting_spent (orderId : Int) (order : LiveOrder) :
    resting orderId { order with remaining := 0 } = 0 := by
  unfold resting
  split <;> rfl

/-- The parties of a fill are two orders. -/
theorem Executed.ids_ne (valid : tape.Valid) {fill : Fill} {maker taker : LiveOrder}
    (executed : tape.Executed fill maker taker) : maker.id ≠ taker.id := by
  intro same
  have one := valid.wellFormed.eq_of_id executed.makerLive executed.takerLive same
  have opposite := (best_crosses executed.chosen).1
  rw [one] at opposite
  cases side : taker.side with
  | buy =>
      rw [side] at opposite
      cases opposite
  | sell =>
      rw [side] at opposite
      cases opposite

/-- A fill takes its quantity from the maker and from the taker, and from nothing else. -/
theorem Executed.totalOf_read (valid : tape.Valid) {fill : Fill} {maker taker : LiveOrder}
    (executed : tape.Executed fill maker taker) {weight : LiveOrder → Int}
    (spent : ∀ order : LiveOrder, weight { order with remaining := 0 } = 0) :
    totalOf weight (tape.read (.fill fill)).live = totalOf weight tape.live -
      (weight maker - weight { maker with remaining := maker.remaining - fill.qty }) -
      (weight taker - weight { taker with remaining := taker.remaining - fill.qty }) := by
  have different := executed.ids_ne valid
  have makerFits : fill.qty ≤ maker.remaining := by
    rw [executed.quantity]
    exact min_le_right _ _
  have takerFits : fill.qty ≤ taker.remaining := by
    rw [executed.quantity]
    exact min_le_left _ _
  have stays : taker ∈ reduce maker.id fill.qty tape.live :=
    mem_reduce.mpr (.inl ⟨executed.takerLive, different.symm⟩)
  have first := totalOf_reduce spent valid.wellFormed executed.makerLive makerFits
  have second := totalOf_reduce spent (valid.wellFormed.reduce maker.id) stays takerFits
  simp only [Tape.read, ← executed.makerId, ← executed.takerId]
  omega

/-- One record moves a quantity from one place to another. -/
theorem Valid.quantities (valid : tape.Valid) {record : Outbound} (lawful : tape.Lawful record)
    (orderId : Int) :
    tape.restingQty orderId + acceptedQty orderId record = filledQty orderId record +
      cancelledQty orderId record + (tape.read record).restingQty orderId := by
  cases record with
  | orderAccepted accepted =>
      obtain ⟨-, ⟨side, named⟩, -⟩ := lawful
      simp only [restingQty, acceptedQty, filledQty, cancelledQty, Tape.read, announced, named,
        Option.map_some, Option.toList_some, totalOf_append, totalOf_cons, totalOf_nil, resting]
      omega
  | fill fill =>
      obtain ⟨maker, taker, executed⟩ := lawful
      have different := executed.ids_ne valid
      have moved := executed.totalOf_read valid (resting_spent orderId)
      simp only [restingQty, acceptedQty, filledQty, cancelledQty, moved, resting,
        ← executed.makerId, ← executed.takerId]
      split_ifs <;> omega
  | orderCancelled cancelled =>
      obtain ⟨order, member, sameId, sameQty, -⟩ := lawful
      have moved := totalOf_remove (resting orderId) valid.wellFormed member
      simp only [restingQty, acceptedQty, filledQty, cancelledQty, Tape.read, ← sameId, ← sameQty, moved,
        resting]
      omega
  | orderRejected _ =>
      simp only [acceptedQty, filledQty, cancelledQty, Tape.read]
      omega
  | bookChanged _ =>
      simp only [acceptedQty, filledQty, cancelledQty, Tape.read]
      omega
  | accountCreated _ =>
      simp only [acceptedQty, filledQty, cancelledQty, Tape.read]
      omega
  | cashCredited _ =>
      simp only [acceptedQty, filledQty, cancelledQty, Tape.read]
      omega
  | replayConfigured _ =>
      simp only [acceptedQty, filledQty, cancelledQty, Tape.read]
      omega

theorem LawfulAll.quantities {records : List Outbound} (lawful : tape.LawfulAll records)
    (valid : tape.Valid) (orderId : Int) :
    tape.restingQty orderId + (records.map (acceptedQty orderId)).sum =
      (records.map (filledQty orderId)).sum + (records.map (cancelledQty orderId)).sum +
        (tape.readAll records).restingQty orderId := by
  induction records generalizing tape with
  | nil => simp
  | cons record rest ih =>
      have step := valid.quantities lawful.1 orderId
      have later := ih lawful.2 (valid.read lawful.1)
      simp only [List.map_cons, List.sum_cons, readAll_cons]
      omega

/-! ## At most one cancellation, and nothing after it -/

/-- After an order's cancellation no record fills or cancels it. -/
theorem LawfulAll.silent_after_cancellation {before after : List Outbound}
    {cancelled : OrderCancelled}
    (lawful : tape.LawfulAll (before ++ .orderCancelled cancelled :: after)) (valid : tape.Valid) :
    ∀ record ∈ after, filledQty cancelled.orderId record = 0 ∧
      isCancellation cancelled.orderId record = false := by
  intro record member
  obtain ⟨earlier, later, rfl⟩ := List.append_of_mem member
  have whole := (lawfulAll_append.mp lawful).2
  have gone := (valid.readAll (lawfulAll_append.mp lawful).1).gone_of_cancelled whole.1
  have rest := lawfulAll_append.mp whole.2
  have stillGone := gone.readAll rest.1
  have lawfulRecord := rest.2.1
  cases record with
  | fill fill =>
      obtain ⟨notMaker, notTaker⟩ := stillGone.not_traded lawfulRecord
      simp only [filledQty, notMaker, notTaker, or_self, if_false, isCancellation, and_self]
  | orderCancelled again =>
      obtain ⟨order, live, sameId, -⟩ := lawfulRecord
      have absent := stillGone.2 order live
      simp only [filledQty, isCancellation, decide_eq_false_iff_not, true_and]
      exact fun same => absent (sameId.trans same)
  | orderAccepted _ => exact ⟨rfl, rfl⟩
  | orderRejected _ => exact ⟨rfl, rfl⟩
  | bookChanged _ => exact ⟨rfl, rfl⟩
  | accountCreated _ => exact ⟨rfl, rfl⟩
  | cashCredited _ => exact ⟨rfl, rfl⟩
  | replayConfigured _ => exact ⟨rfl, rfl⟩

theorem LawfulAll.silent_after_first {after : List Outbound} {cancelled : OrderCancelled}
    (lawful : tape.LawfulAll (.orderCancelled cancelled :: after)) (valid : tape.Valid) :
    ∀ record ∈ after, isCancellation cancelled.orderId record = false := by
  rw [← List.nil_append (.orderCancelled cancelled :: after)] at lawful
  exact fun record member => (lawful.silent_after_cancellation valid record member).2

theorem LawfulAll.cancelled_once {records : List Outbound} (lawful : tape.LawfulAll records)
    (valid : tape.Valid) (orderId : Int) : records.countP (isCancellation orderId) ≤ 1 := by
  induction records generalizing tape with
  | nil => simp
  | cons record rest ih =>
      have later := ih lawful.2 (valid.read lawful.1)
      rw [List.countP_cons]
      cases first : isCancellation orderId record with
      | false => simpa using later
      | true =>
          cases record with
          | orderCancelled cancelled =>
              simp only [isCancellation, decide_eq_true_eq] at first
              have silent := lawful.silent_after_first valid
              have none : rest.countP (isCancellation orderId) = 0 := by
                rw [List.countP_eq_zero]
                intro other member
                rw [← first, silent other member]
                exact Bool.false_ne_true
              rw [none]
              simp
          | _ => cases first

/-- What a lawful tape cancels is positive. -/
theorem LawfulAll.cancelledQty_pos {records : List Outbound} (lawful : tape.LawfulAll records)
    (valid : tape.Valid) (orderId : Int) : ∀ record ∈ records, 0 ≤ cancelledQty orderId record ∧
      (isCancellation orderId record = true → 0 < cancelledQty orderId record) := by
  intro record member
  obtain ⟨before, after, rfl⟩ := List.append_of_mem member
  have now := lawful.at_split
  have nowValid := valid.readAll (lawfulAll_append.mp lawful).1
  cases record with
  | orderCancelled cancelled =>
      obtain ⟨order, live, -, sameQty, -⟩ := now
      have positive := nowValid.wellFormed.positive order live
      simp only [cancelledQty, isCancellation, decide_eq_true_eq]
      split_ifs with same
      · exact ⟨by omega, fun _ => by omega⟩
      · exact ⟨le_rfl, fun named => absurd named same⟩
  | _ => exact ⟨le_rfl, fun named => by cases named⟩

theorem restingQty_nonneg (valid : tape.Valid) (orderId : Int) : 0 ≤ tape.restingQty orderId := by
  apply totalOf_nonneg
  intro order member
  have positive := valid.wellFormed.positive order member
  unfold resting
  split <;> omega

theorem restingQty_absent {orderId : Int} (absent : ∀ order ∈ tape.live, order.id ≠ orderId) :
    tape.restingQty orderId = 0 := by
  apply List.sum_eq_zero
  intro amount member
  obtain ⟨order, orderMember, rfl⟩ := List.mem_map.mp member
  exact if_neg (absent order orderMember)

theorem restingQty_of_mem (valid : tape.Valid) {order : LiveOrder} (member : order ∈ tape.live) :
    tape.restingQty order.id = order.remaining := by
  obtain ⟨before, after, split, early, late⟩ := valid.wellFormed.split member
  have outside : ∀ others : List LiveOrder, (∀ other ∈ others, other.id ≠ order.id) →
      (Tape.mk 0 others).restingQty order.id = 0 := fun _ absent => restingQty_absent absent
  simp only [restingQty] at outside
  rw [restingQty, split, totalOf_append, totalOf_cons, outside before early, outside after late]
  simp [resting]

/-- An order is accepted once, so its own acceptance is the whole of what was accepted. -/
theorem LawfulAll.acceptedQty_sum {records : List Outbound} (lawful : tape.LawfulAll records)
    {accepted : OrderAccepted} (member : .orderAccepted accepted ∈ records) :
    (records.map (acceptedQty accepted.orderId)).sum = accepted.qty := by
  obtain ⟨before, after, rfl⟩ := List.append_of_mem member
  have ascending := lawful.acceptedIds_ascending.1
  have ids : acceptedIds (before ++ .orderAccepted accepted :: after) =
      acceptedIds before ++ accepted.orderId :: acceptedIds after := by
    simp [acceptedIds]
  rw [ids] at ascending
  obtain ⟨-, late, early⟩ := List.pairwise_append.mp ascending
  have silent : ∀ records : List Outbound, accepted.orderId ∉ acceptedIds records →
      (records.map (acceptedQty accepted.orderId)).sum = 0 := by
    intro records absent
    apply List.sum_eq_zero
    intro amount amountMember
    obtain ⟨record, recordMember, rfl⟩ := List.mem_map.mp amountMember
    cases record with
    | orderAccepted other =>
        refine if_neg fun same => absent ?_
        exact mem_acceptedIds.mpr ⟨other, recordMember, same⟩
    | _ => rfl
  have noneBefore := silent before fun present =>
    lt_irrefl _ (early _ present _ List.mem_cons_self)
  have noneAfter := silent after fun present =>
    lt_irrefl _ ((List.pairwise_cons.mp late).1 _ present)
  rw [List.map_append, List.sum_append, List.map_cons, List.sum_cons, noneBefore, noneAfter]
  simp [acceptedQty]

end Tape

end QuantArena.Exchange
