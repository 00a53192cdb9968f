import QuantArena.Contracts.Records

/-! The outbound stream read as a tape: the orders that are live after each
record, told from the records alone, and what price-time priority allows the
next record to be. -/

set_option autoImplicit false

namespace QuantArena.Exchange

open Foundations Foundations.PriceTime Contracts

/-- What an order carries besides its place in the queue. -/
structure Ticket where
  clientOrderId : Int
  userId : Int
  symbolId : Int
  createdAtNs : Int
deriving DecidableEq, Repr

abbrev LiveOrder := Resting Int Int Ticket

def key (order : LiveOrder) : Int × Int := (order.ticket.userId, order.ticket.clientOrderId)

def onSymbol (symbolId : Int) (orders : List LiveOrder) : List LiveOrder :=
  orders.filter fun order => order.ticket.symbolId = symbolId

structure Tape where
  nextOrderId : Int
  live : List LiveOrder
deriving DecidableEq, Repr

namespace Tape

def blank : Tape := ⟨1, []⟩

/-- The order an acceptance announces, unless its side is not one. -/
def announced (accepted : OrderAccepted) : Option LiveOrder :=
  (sideOf? accepted.side).map fun side =>
    ⟨accepted.orderId, side, accepted.priceTicks, accepted.qty,
      ⟨accepted.clientOrderId, accepted.userId, accepted.symbolId, accepted.timestampNs⟩⟩

def read (tape : Tape) : Outbound → Tape
  | .orderAccepted accepted =>
      ⟨accepted.orderId + 1, tape.live ++ (announced accepted).toList⟩
  | .fill fill =>
      { tape with
        live := reduce fill.takerOrderId fill.qty (reduce fill.makerOrderId fill.qty tape.live) }
  | .orderCancelled cancelled => { tape with live := remove cancelled.orderId tape.live }
  | _ => tape

def readAll (tape : Tape) (records : List Outbound) : Tape := records.foldl read tape

/-- One fill as price-time priority prescribes it. -/
structure Executed (tape : Tape) (fill : Fill) (maker taker : LiveOrder) : Prop where
  makerLive : maker ∈ tape.live
  takerLive : taker ∈ tape.live
  makerId : maker.id = fill.makerOrderId
  takerId : taker.id = fill.takerOrderId
  makerUser : maker.ticket.userId = fill.makerUserId
  takerUser : taker.ticket.userId = fill.takerUserId
  makerSymbol : maker.ticket.symbolId = fill.symbolId
  takerSymbol : taker.ticket.symbolId = fill.symbolId
  aggressor : fill.aggressorSide = sideCode taker.side
  chosen : best taker (onSymbol fill.symbolId tape.live) = some maker
  price : fill.priceTicks = maker.price
  quantity : fill.qty = min taker.remaining maker.remaining

/-- What the next record may be. -/
def Lawful (tape : Tape) : Outbound → Prop
  | .orderAccepted accepted =>
      tape.nextOrderId ≤ accepted.orderId ∧ (∃ side, sideOf? accepted.side = some side) ∧
        (∃ tif, tifOf? accepted.tif = some tif) ∧ 0 < accepted.priceTicks ∧ 0 < accepted.qty
  | .fill fill => ∃ maker taker, Executed tape fill maker taker
  | .orderCancelled cancelled =>
      ∃ order ∈ tape.live, order.id = cancelled.orderId ∧ order.remaining = cancelled.remainingQty ∧
        order.ticket.clientOrderId = cancelled.clientOrderId ∧
        order.ticket.userId = cancelled.userId ∧ order.ticket.symbolId = cancelled.symbolId
  | _ => True

def LawfulAll : Tape → List Outbound → Prop
  | _, [] => True
  | tape, record :: rest => tape.Lawful record ∧ (tape.read record).LawfulAll rest

/-- The live orders are positive, priced, listed as accepted, and all issued. -/
structure Valid (tape : Tape) : Prop where
  wellFormed : WellFormed tape.live
  priced : ∀ order ∈ tape.live, 0 < order.price
  issued : ∀ order ∈ tape.live, order.id < tape.nextOrderId

/-! ## Reading on -/

variable {tape : Tape}

@[simp] theorem readAll_nil (tape : Tape) : tape.readAll [] = tape := rfl

@[simp] theorem readAll_cons (tape : Tape) (record : Outbound) (rest : List Outbound) :
    tape.readAll (record :: rest) = (tape.read record).readAll rest := rfl

theorem readAll_append (tape : Tape) (first second : List Outbound) :
    tape.readAll (first ++ second) = (tape.readAll first).readAll second := List.foldl_append

theorem lawfulAll_append {first second : List Outbound} :
    tape.LawfulAll (first ++ second) ↔
      tape.LawfulAll first ∧ (tape.readAll first).LawfulAll second := by
  induction first generalizing tape with
  | nil => simp [LawfulAll]
  | cons record rest ih => simp [LawfulAll, ih, and_assoc]

theorem LawfulAll.at_split {before after : List Outbound} {record : Outbound}
    (lawful : tape.LawfulAll (before ++ record :: after)) :
    (tape.readAll before).Lawful record := (lawfulAll_append.mp lawful).2.1

theorem blank_valid : blank.Valid where
  wellFormed := ⟨by simp [blank], List.Pairwise.nil⟩
  priced := by simp [blank]
  issued := by simp [blank]

theorem mem_read_fill {fill : Fill} {order : LiveOrder}
    (member : order ∈ (tape.read (.fill fill)).live) :
    ∃ before ∈ tape.live, order = { before with remaining := order.remaining } := by
  obtain ⟨middle, middleMember, same⟩ := mem_reduce_origin member
  obtain ⟨before, beforeMember, origin⟩ := mem_reduce_origin middleMember
  refine ⟨before, beforeMember, ?_⟩
  rw [same, origin]

theorem Valid.read (valid : tape.Valid) {record : Outbound} (lawful : tape.Lawful record) :
    (tape.read record).Valid := by
  cases record with
  | orderAccepted accepted =>
      obtain ⟨fresh, ⟨side, named⟩, -, priced, counted⟩ := lawful
      simp only [Tape.read, announced, named, Option.map_some, Option.toList_some]
      refine ⟨valid.wellFormed.append_newest counted fun order member =>
        lt_of_lt_of_le (valid.issued order member) fresh, ?_, ?_⟩
      · intro order member
        rcases List.mem_append.mp member with member | member
        · exact valid.priced order member
        · rw [List.mem_singleton.mp member]
          exact priced
      · intro order member
        rcases List.mem_append.mp member with member | member
        · have issued := valid.issued order member
          show order.id < accepted.orderId + 1
          omega
        · rw [List.mem_singleton.mp member]
          exact Int.lt_succ _
  | fill fill =>
      refine ⟨(valid.wellFormed.reduce _).reduce _, ?_, ?_⟩
      · intro order member
        obtain ⟨before, beforeMember, same⟩ := mem_read_fill member
        rw [same]
        exact valid.priced before beforeMember
      · intro order member
        obtain ⟨before, beforeMember, same⟩ := mem_read_fill member
        rw [same]
        exact valid.issued before beforeMember
  | orderCancelled cancelled =>
      exact ⟨valid.wellFormed.filter _,
        fun order member => valid.priced order (List.mem_of_mem_filter member),
        fun order member => valid.issued order (List.mem_of_mem_filter member)⟩
  | orderRejected _ => exact valid
  | bookChanged _ => exact valid
  | accountCreated _ => exact valid
  | cashCredited _ => exact valid
  | replayConfigured _ => exact valid

theorem Valid.readAll (valid : tape.Valid) {records : List Outbound}
    (lawful : tape.LawfulAll records) : (tape.readAll records).Valid := by
  induction records generalizing tape with
  | nil => exact valid
  | cons record rest ih => exact ih (valid.read lawful.1) lawful.2

/-! ## Orders that have left -/

/-- An issued order that is not live. -/
def Gone (tape : Tape) (orderId : Int) : Prop :=
  orderId < tape.nextOrderId ∧ ∀ order ∈ tape.live, order.id ≠ orderId

theorem Gone.read {orderId : Int} (gone : tape.Gone orderId) {record : Outbound}
    (lawful : tape.Lawful record) : (tape.read record).Gone orderId := by
  obtain ⟨issued, absent⟩ := gone
  cases record with
  | orderAccepted accepted =>
      obtain ⟨fresh, ⟨side, named⟩, -⟩ := lawful
      simp only [Tape.read, announced, named, Option.map_some, Option.toList_some]
      refine ⟨show orderId < accepted.orderId + 1 by omega, ?_⟩
      intro order member
      rcases List.mem_append.mp member with member | member
      · exact absent order member
      · rw [List.mem_singleton.mp member]
        show accepted.orderId ≠ orderId
        omega
  | fill fill =>
      refine ⟨issued, ?_⟩
      intro order member
      obtain ⟨before, beforeMember, same⟩ := mem_read_fill member
      rw [same]
      exact absent before beforeMember
  | orderCancelled cancelled =>
      exact ⟨issued, fun order member => absent order (List.mem_of_mem_filter member)⟩
  | orderRejected _ => exact ⟨issued, absent⟩
  | bookChanged _ => exact ⟨issued, absent⟩
  | accountCreated _ => exact ⟨issued, absent⟩
  | cashCredited _ => exact ⟨issued, absent⟩
  | replayConfigured _ => exact ⟨issued, absent⟩

theorem Gone.readAll {orderId : Int} (gone : tape.Gone orderId) {records : List Outbound}
    (lawful : tape.LawfulAll records) : (tape.readAll records).Gone orderId := by
  induction records generalizing tape with
  | nil => exact gone
  | cons record rest ih => exact ih (gone.read lawful.1) lawful.2

/-- A cancelled order has left. -/
theorem Valid.gone_of_cancelled (valid : tape.Valid) {cancelled : OrderCancelled}
    (lawful : tape.Lawful (.orderCancelled cancelled)) :
    (tape.read (.orderCancelled cancelled)).Gone cancelled.orderId := by
  obtain ⟨order, member, sameId, -⟩ := lawful
  refine ⟨sameId ▸ valid.issued order member, ?_⟩
  intro other otherMember
  simpa using (List.mem_filter.mp otherMember).2

/-- The parties of a lawful fill have not left. -/
theorem Gone.not_traded {orderId : Int} (gone : tape.Gone orderId) {fill : Fill}
    (lawful : tape.Lawful (.fill fill)) :
    fill.makerOrderId ≠ orderId ∧ fill.takerOrderId ≠ orderId := by
  obtain ⟨maker, taker, executed⟩ := lawful
  exact ⟨executed.makerId ▸ gone.2 maker executed.makerLive,
    executed.takerId ▸ gone.2 taker executed.takerLive⟩

/-! ## Acceptances -/

def acceptedIds (records : List Outbound) : List Int :=
  records.filterMap fun
    | .orderAccepted accepted => some accepted.orderId
    | _ => none

theorem read_nextOrderId_le {record : Outbound} (lawful : tape.Lawful record) :
    tape.nextOrderId ≤ (tape.read record).nextOrderId := by
  cases record with
  | orderAccepted accepted =>
      have fresh := lawful.1
      show tape.nextOrderId ≤ accepted.orderId + 1
      omega
  | _ => exact le_refl _

theorem readAll_nextOrderId_le {records : List Outbound} (lawful : tape.LawfulAll records) :
    tape.nextOrderId ≤ (tape.readAll records).nextOrderId := by
  induction records generalizing tape with
  | nil => exact le_refl _
  | cons record rest ih => exact le_trans (read_nextOrderId_le lawful.1) (ih lawful.2)

theorem LawfulAll.acceptedIds_ascending {records : List Outbound}
    (lawful : tape.LawfulAll records) : (acceptedIds records).Pairwise (· < ·) ∧
      ∀ orderId ∈ acceptedIds records, tape.nextOrderId ≤ orderId := by
  induction records generalizing tape with
  | nil => exact ⟨List.Pairwise.nil, by simp [acceptedIds]⟩
  | cons record rest ih =>
      obtain ⟨ascending, above⟩ := ih lawful.2
      have forward := read_nextOrderId_le lawful.1
      cases record with
      | orderAccepted accepted =>
          have ids : acceptedIds (.orderAccepted accepted :: rest) =
              accepted.orderId :: acceptedIds rest := rfl
          rw [ids]
          have later : ∀ orderId ∈ acceptedIds rest, accepted.orderId + 1 ≤ orderId := above
          refine ⟨List.pairwise_cons.mpr ⟨fun orderId member => ?_, ascending⟩, ?_⟩
          · have after := later orderId member
            omega
          · intro orderId member
            have fresh := lawful.1.1
            rcases List.mem_cons.mp member with rfl | member
            · exact fresh
            · have after := later orderId member
              omega
      | _ => exact ⟨ascending, fun orderId member => le_trans forward (above orderId member)⟩

theorem LawfulAll.acceptedIds_issued {records : List Outbound} (lawful : tape.LawfulAll records) :
    ∀ orderId ∈ acceptedIds records, orderId < (tape.readAll records).nextOrderId := by
  induction records generalizing tape with
  | nil => simp [acceptedIds]
  | cons record rest ih =>
      intro orderId member
      have forward : (tape.read record).nextOrderId ≤
          ((tape.read record).readAll rest).nextOrderId := readAll_nextOrderId_le lawful.2
      cases record with
      | orderAccepted accepted =>
          rcases List.mem_cons.mp member with rfl | member
          · have issued : accepted.orderId + 1 ≤ _ := forward
            rw [readAll_cons]
            omega
          · exact ih lawful.2 orderId member
      | _ => exact ih lawful.2 orderId member

/-- Every live order was there from the start or has been accepted since. -/
theorem live_origin {records : List Outbound} {order : LiveOrder}
    (member : order ∈ (tape.readAll records).live) :
    (∃ before ∈ tape.live, before.id = order.id) ∨ order.id ∈ acceptedIds records := by
  induction records generalizing tape with
  | nil => exact .inl ⟨order, member, rfl⟩
  | cons record rest ih =>
      rcases ih member with ⟨before, beforeMember, sameId⟩ | accepted
      · cases record with
        | orderAccepted accepted =>
            rcases List.mem_append.mp beforeMember with old | new
            · exact .inl ⟨before, old, sameId⟩
            · right
              obtain ⟨side, -, rfl⟩ := Option.map_eq_some_iff.mp (Option.mem_toList.mp new)
              exact List.mem_cons.mpr (.inl sameId.symm)
        | fill fill =>
            obtain ⟨old, oldMember, same⟩ := mem_read_fill beforeMember
            refine .inl ⟨old, oldMember, ?_⟩
            rw [← sameId, same]
        | orderCancelled cancelled =>
            exact .inl ⟨before, List.mem_of_mem_filter beforeMember, sameId⟩
        | orderRejected _ => exact .inl ⟨before, beforeMember, sameId⟩
        | bookChanged _ => exact .inl ⟨before, beforeMember, sameId⟩
        | accountCreated _ => exact .inl ⟨before, beforeMember, sameId⟩
        | cashCredited _ => exact .inl ⟨before, beforeMember, sameId⟩
        | replayConfigured _ => exact .inl ⟨before, beforeMember, sameId⟩
      · right
        cases record <;> first | exact accepted | exact List.mem_cons_of_mem _ accepted

theorem mem_acceptedIds {records : List Outbound} {orderId : Int} :
    orderId ∈ acceptedIds records ↔
      ∃ accepted, .orderAccepted accepted ∈ records ∧ accepted.orderId = orderId := by
  rw [acceptedIds, List.mem_filterMap]
  constructor
  · rintro ⟨record, member, found⟩
    cases record with
    | orderAccepted accepted => exact ⟨accepted, member, Option.some.inj found⟩
    | _ => cases found
  · rintro ⟨accepted, member, rfl⟩
    exact ⟨_, member, rfl⟩

end Tape

end QuantArena.Exchange
