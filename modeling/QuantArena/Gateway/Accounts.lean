import QuantArena.Exchange.OpenOrders
import QuantArena.Gateway.Reservations

/-! The risk state's books are kept: its open orders are the orders live on the tape
it reads, and what it holds is what these and its pending reservations commit. -/

set_option autoImplicit false

namespace QuantArena.Gateway

open Foundations Foundations.PriceTime Contracts Exchange

/-- A live order as the risk state keeps it. -/
def reservationOf (order : LiveOrder) : Reservation where
  userId := order.ticket.userId
  orderId := some order.id
  clientOrderId := order.ticket.clientOrderId
  symbolId := order.ticket.symbolId
  side := sideCode order.side
  priceTicks := order.price
  qty := order.remaining

namespace RiskState

structure Accounts (risk : RiskState) (live : List LiveOrder) : Prop where
  sound : risk.Sound
  exact : risk.Exact
  follows : Lists risk.opened id live reservationOf
  pending : ∀ key reservation, risk.waiting.get? key = some reservation →
    reservation.Positive ∧ (reservation.userId, reservation.clientOrderId) = key

theorem new_accounts (marketMakers : List Int) : (new marketMakers).Accounts [] where
  sound := new_sound marketMakers
  exact := new_exact marketMakers
  follows := Mirrors.empty.lists
  pending _ _ found := by cases found

/-- Live orders with a price and something left, each under an id of its own. -/
structure Priced (live : List LiveOrder) : Prop where
  wellFormed : WellFormed live
  positive : ∀ order ∈ live, 0 < order.price

variable {risk : RiskState} {live : List LiveOrder}

theorem Accounts.opened_of_mem (accounts : risk.Accounts live) {order : LiveOrder}
    (member : order ∈ live) : risk.opened.get? order.id = some (reservationOf order) := by
  obtain ⟨reservation, found, same⟩ := accounts.follows.of_mem member
  rw [found, ← same, id]

theorem Accounts.opened_positive (accounts : risk.Accounts live) (priced : Priced live)
    {orderId : Int} {reservation : Reservation}
    (found : risk.opened.get? orderId = some reservation) : reservation.Positive := by
  obtain ⟨order, member, -, rfl⟩ := accounts.follows.of_get? found
  exact ⟨priced.positive order member, priced.wellFormed.positive order member⟩

theorem Accounts.totals_nonneg (accounts : risk.Accounts live) (priced : Priced live)
    (resource : Resource) :
    0 ≤ risk.opened.total (fun _ reservation => reservation.towards resource) ∧
      0 ≤ risk.waiting.total fun _ reservation => reservation.towards resource :=
  ⟨Dict.total_nonneg fun _ _ found => (accounts.opened_positive priced found).towards_nonneg resource,
    Dict.total_nonneg fun key _ found =>
      (accounts.pending key _ found).1.towards_nonneg resource⟩

theorem Accounts.held_nonneg (accounts : risk.Accounts live) (priced : Priced live)
    (resource : Resource) : 0 ≤ risk.held resource := by
  obtain ⟨opened, waiting⟩ := accounts.totals_nonneg priced resource
  rw [accounts.exact]
  exact Int.add_nonneg opened waiting

/-- What one order commits is part of what is held. -/
theorem Accounts.towards_le_held (accounts : risk.Accounts live) (priced : Priced live)
    {order : LiveOrder} (member : order ∈ live) (resource : Resource) :
    (reservationOf order).towards resource ≤ risk.held resource := by
  have waiting := (accounts.totals_nonneg priced resource).2
  have part : (reservationOf order).towards resource ≤
      risk.opened.total fun _ reservation => reservation.towards resource :=
    Dict.le_total (fun _ _ found =>
      (accounts.opened_positive priced found).towards_nonneg resource)
      (accounts.opened_of_mem member)
  rw [accounts.exact, committed]
  omega

theorem Accounts.pending_le_held (accounts : risk.Accounts live) (priced : Priced live)
    {key : Int × Int} {reservation : Reservation}
    (found : risk.waiting.get? key = some reservation) (resource : Resource) :
    reservation.towards resource ≤ risk.held resource := by
  have opened := (accounts.totals_nonneg priced resource).1
  have part : reservation.towards resource ≤
      risk.waiting.total fun _ reservation => reservation.towards resource :=
    Dict.le_total (fun key _ found =>
      (accounts.pending key _ found).1.towards_nonneg resource) found
  rw [accounts.exact, committed]
  omega

theorem Reservation.towards_own (reservation : Reservation) :
    reservation.towards reservation.resource = reservation.cost reservation.qty := if_pos rfl

/-! ## Reserving and giving up -/

theorem Accounts.reserve (accounts : risk.Accounts live) {next : RiskState}
    {userId clientOrderId symbolId side priceTicks qty : Int}
    (free : risk.waiting.get? (userId, clientOrderId) = none)
    (price : 0 < priceTicks) (counted : 0 < qty)
    (reserved : risk.reserve userId clientOrderId symbolId side priceTicks qty = .ok next) :
    next.Accounts live := by
  obtain ⟨sound, opened, waiting⟩ := accounts.sound.reserve reserved
  refine ⟨sound, ?_, opened ▸ accounts.follows, ?_⟩
  · intro resource
    rw [held_reserve reserved, committed, opened, waiting, Dict.total_set_fresh _ _ _ free,
      accounts.exact, committed]
    omega
  · intro key reservation found
    rw [waiting, Dict.get?_set] at found
    split at found
    · rename_i same
      cases found
      exact ⟨⟨price, counted⟩, same.symm⟩
    · exact accounts.pending key reservation found

section Bound

variable {bound : Int → Int} (fixes : ∀ amount, 0 ≤ amount → bound amount = amount)

theorem clamped_fixes : ∀ amount, 0 ≤ amount → clamped amount = amount :=
  fun _ counted => max_eq_right counted

include fixes

/-- Where enough is held, a bound at 0 changes nothing. -/
theorem releaseWith_eq {reservation : Reservation} {qty : Int}
    (enough : reservation.cost qty ≤ risk.held reservation.resource) :
    risk.releaseWith bound reservation qty = risk.releaseWith id reservation qty := by
  unfold Reservation.cost Reservation.resource at enough
  unfold releaseWith
  split
  · rename_i buys
    simp only [buys, if_true, held] at enough
    rw [fixes _ (by omega), id]
  · rename_i sells
    simp only [sells, if_false, held] at enough
    dsimp only
    rw [fixes _ (by omega), id]

theorem held_release_enough {reservation : Reservation} {qty : Int}
    (enough : reservation.cost qty ≤ risk.held reservation.resource) (resource : Resource) :
    (risk.releaseWith bound reservation qty).held resource = risk.held resource -
      if reservation.resource = resource then reservation.cost qty else 0 := by
  rw [releaseWith_eq fixes enough, held_releaseWith]
  split
  · rfl
  · rw [Int.sub_zero]

end Bound

theorem Accounts.abandon (accounts : risk.Accounts live) (priced : Priced live) {ref : Ref}
    (own : risk.pendingByClient.get? ((risk.object ref).userId, (risk.object ref).clientOrderId) =
      some ref) :
    (risk.abandon ref).Accounts live ∧
      risk.release (risk.object ref) (risk.object ref).qty =
        risk.releaseWith id (risk.object ref) (risk.object ref).qty ∧
      ∀ resource, (risk.abandon ref).held resource =
        risk.held resource - (risk.object ref).towards resource := by
  have present : risk.waiting.get? ((risk.object ref).userId, (risk.object ref).clientOrderId) =
      some (risk.object ref) := by
    rw [get?_waiting, own, Option.map_some]
  have enough : (risk.object ref).cost (risk.object ref).qty ≤
      risk.held (risk.object ref).resource :=
    Reservation.towards_own (risk.object ref) ▸ accounts.pending_le_held priced present _
  obtain ⟨sound, opened, waiting, held⟩ := accounts.sound.abandon own
  have lowered : ∀ resource, (risk.abandon ref).held resource =
      risk.held resource - (risk.object ref).towards resource := by
    intro resource
    rw [held, release, held_release_enough clamped_fixes enough]
    rfl
  refine ⟨⟨sound, ?_, opened ▸ accounts.follows, ?_⟩, releaseWith_eq clamped_fixes enough, lowered⟩
  · intro resource
    rw [lowered, committed, opened, waiting, Dict.total_erase _ _ present, accounts.exact,
      committed]
    omega
  · intro key reservation found
    rw [waiting, Dict.get?_erase] at found
    split at found
    · cases found
    · exact accounts.pending key reservation found

/-! ## Acceptances -/

/-- What is pending under the key of an acceptance is of the order that was accepted. -/
def Matches (risk : RiskState) (accepted : OrderAccepted) : Prop :=
  ∀ reservation, risk.waiting.get? (accepted.userId, accepted.clientOrderId) = some reservation →
    reservation.symbolId = accepted.symbolId ∧ reservation.side = accepted.side ∧
      reservation.priceTicks = accepted.priceTicks ∧ reservation.qty = accepted.qty

theorem reservationOf_accepted {order : LiveOrder} {accepted : OrderAccepted}
    (sameId : order.id = accepted.orderId) (shown : openOrder order = .ofAccepted accepted) :
    reservationOf order = replayed accepted := by
  simp only [openOrder, OpenOrder.ofAccepted, OpenOrder.mk.injEq] at shown
  obtain ⟨client, user, symbol, side, price, qty⟩ := shown
  simp only [reservationOf, replayed, client, user, symbol, side, price, qty, sameId]

theorem Accounts.adopt (accounts : risk.Accounts live) {accepted : OrderAccepted}
    {order : LiveOrder} (sameId : order.id = accepted.orderId)
    (shown : openOrder order = .ofAccepted accepted)
    (fresh : ∀ other ∈ live, other.id ≠ order.id) (matching : risk.Matches accepted) :
    (risk.adopt accepted).Accounts (live ++ [order]) := by
  have same := reservationOf_accepted sameId shown
  have unopened : risk.opened.get? accepted.orderId = none :=
    accounts.follows.get?_eq_none.mpr (sameId ▸ fresh)
  have unchanged : id (reservationOf order) = reservationOf order := rfl
  have follows := accounts.follows.set_newest fresh unchanged
  rw [sameId, same] at follows
  cases present : risk.waiting.get? (accepted.userId, accepted.clientOrderId) with
  | none =>
      obtain ⟨sound, opened, waiting, held⟩ := accounts.sound.adopt_replayed present
      refine ⟨sound, ?_, opened ▸ follows, waiting ▸ accounts.pending⟩
      intro resource
      rw [held, committed, opened, waiting, Dict.total_set_fresh _ _ _ unopened, accounts.exact,
        committed]
      omega
  | some reservation =>
      obtain ⟨symbol, side, price, qty⟩ := matching reservation present
      obtain ⟨user, client⟩ := Prod.mk.inj (accounts.pending _ reservation present).2
      have adopted : { reservation with orderId := some accepted.orderId } = replayed accepted := by
        cases reservation
        simp_all [replayed]
      obtain ⟨sound, opened, waiting, held⟩ := accounts.sound.adopt_pending present
      rw [adopted] at opened
      have towards : ∀ resource,
          (replayed accepted).towards resource = reservation.towards resource := by
        intro resource
        rw [← adopted]
        rfl
      refine ⟨sound, ?_, opened ▸ follows, ?_⟩
      · intro resource
        rw [held, committed, opened, waiting, Dict.total_set_fresh _ _ _ unopened,
          Dict.total_erase _ _ present, accounts.exact, committed, towards]
        omega
      · intro key other found
        rw [waiting, Dict.get?_erase] at found
        split at found
        · cases found
        · exact accounts.pending key other found

/-! ## Fills and cancellations -/

section Bound

variable {bound : Int → Int} (fixes : ∀ amount, 0 ≤ amount → bound amount = amount)

include fixes

/-- A fill takes from what an order commits what its quantity commits. -/
theorem Reservation.towards_filledBy (reservation : Reservation) {qty : Int}
    (fits : qty ≤ reservation.qty) (resource : Resource) :
    ((filledBy bound qty reservation).map (Reservation.towards resource)).getD 0 =
      reservation.towards resource -
        if reservation.resource = resource then reservation.cost qty else 0 := by
  have left : bound (reservation.qty - qty) = reservation.qty - qty := fixes _ (by omega)
  unfold filledBy
  rw [left]
  split
  · rename_i exhausted
    have all : reservation.qty = qty := by omega
    rw [Option.map_none, Option.getD_none, Reservation.towards, all]
    split <;> omega
  · have smaller : Reservation.towards resource { reservation with qty := reservation.qty - qty } =
        if reservation.resource = resource then reservation.cost (reservation.qty - qty) else 0 :=
      rfl
    rw [Option.map_some, Option.getD_some, smaller, Reservation.towards, reservation.cost_sub]
    split <;> omega

theorem filledBy_reservationOf (order : LiveOrder) {qty : Int} (fits : qty ≤ order.remaining) :
    (filledBy bound qty (reservationOf order)).map id =
      Mirrors.shownLeft reservationOf qty order := by
  have left : bound ((reservationOf order).qty - qty) = order.remaining - qty :=
    fixes _ (by exact Int.sub_nonneg_of_le fits)
  unfold filledBy Mirrors.shownLeft
  rw [left, Option.map_id, id]
  split
  · rw [if_pos (by omega)]
  · rw [if_neg (by omega)]
    rfl

theorem Accounts.releaseFill (accounts : risk.Accounts live) (priced : Priced live)
    {order : LiveOrder} (member : order ∈ live) {qty : Int} (fits : qty ≤ order.remaining) :
    (risk.releaseFillWith bound order.id qty).Accounts (reduce order.id qty live) ∧
      (∀ resource, (risk.releaseFillWith bound order.id qty).held resource = risk.held resource -
        if (reservationOf order).resource = resource then (reservationOf order).cost qty else 0) ∧
      risk.releaseFillWith bound order.id qty = risk.releaseFillWith id order.id qty := by
  have present := accounts.opened_of_mem member
  have enough : (reservationOf order).cost qty ≤ risk.held (reservationOf order).resource := by
    have whole := accounts.towards_le_held priced member (reservationOf order).resource
    have rest := @Reservation.cost_nonneg (reservationOf order) (order.remaining - qty)
      (priced.positive order member).le (by omega)
    rw [Reservation.towards_own] at whole
    rw [Reservation.cost_sub] at rest
    exact (Int.le_of_sub_nonneg rest).trans whole
  obtain ⟨sound, opened, waiting, held⟩ := accounts.sound.releaseFillWith bound qty present
  have lowered : ∀ resource, (risk.releaseFillWith bound order.id qty).held resource =
      risk.held resource -
        if (reservationOf order).resource = resource then (reservationOf order).cost qty else 0 := by
    intro resource
    rw [held, held_release_enough fixes enough]
  refine ⟨⟨sound, ?_, ?_, waiting ▸ accounts.pending⟩, lowered, ?_⟩
  · intro resource
    rw [lowered, committed, opened, waiting, Dict.total_alter _ _ _ present,
      Reservation.towards_filledBy fixes _ fits, accounts.exact, committed]
    omega
  · rw [opened]
    refine accounts.follows.alter ?_
    intro reservation other _ otherMember sameId same
    have one := priced.wellFormed.eq_of_id otherMember member sameId
    rw [id] at same
    rw [same, one]
    exact filledBy_reservationOf fixes order fits
  · rw [get?_opened, Option.map_eq_some_iff] at present
    obtain ⟨ref, found, same⟩ := present
    have sameQty : (risk.object ref).qty = order.remaining := congrArg Reservation.qty same
    rw [← same] at enough
    unfold RiskState.releaseFillWith
    simp only [found, sameQty, releaseWith_eq fixes enough]
    rw [fixes _ (by omega)]
    rfl

theorem Accounts.releaseRemaining (accounts : risk.Accounts live) (priced : Priced live)
    {order : LiveOrder} (member : order ∈ live) :
    (risk.releaseRemainingWith bound order.id).Accounts (remove order.id live) ∧
      (∀ resource, (risk.releaseRemainingWith bound order.id).held resource =
        risk.held resource - (reservationOf order).towards resource) ∧
      risk.releaseRemainingWith bound order.id = risk.releaseRemainingWith id order.id := by
  have present := accounts.opened_of_mem member
  have enough : (reservationOf order).cost (reservationOf order).qty ≤
      risk.held (reservationOf order).resource :=
    Reservation.towards_own (reservationOf order) ▸ accounts.towards_le_held priced member _
  obtain ⟨sound, opened, waiting, held⟩ := accounts.sound.releaseRemainingWith bound present
  have lowered : ∀ resource, (risk.releaseRemainingWith bound order.id).held resource =
      risk.held resource - (reservationOf order).towards resource := by
    intro resource
    rw [held, held_release_enough fixes enough]
    rfl
  refine ⟨⟨sound, ?_, opened ▸ accounts.follows.erase order.id, waiting ▸ accounts.pending⟩,
    lowered, ?_⟩
  · intro resource
    rw [lowered, committed, opened, waiting, Dict.total_erase _ _ present, accounts.exact,
      committed]
    omega
  · rw [get?_opened, Option.map_eq_some_iff] at present
    obtain ⟨ref, found, same⟩ := present
    rw [← same] at enough
    unfold RiskState.releaseRemainingWith
    simp only [found]
    refine releaseWith_eq fixes (enough.trans (le_of_eq ?_))
    cases (risk.object ref).resource <;> rfl

end Bound

/-! ## One record -/

theorem Priced.of_valid {tape : Exchange.Tape} (valid : tape.Valid) : Priced tape.live :=
  ⟨valid.wellFormed, valid.priced⟩

theorem Priced.reduce (priced : Priced live) (orderId qty : Int) : Priced (reduce orderId qty live) where
  wellFormed := priced.wellFormed.reduce orderId
  positive order member := by
    obtain ⟨before, beforeMember, same⟩ := mem_reduce_origin member
    rw [same]
    exact priced.positive before beforeMember

theorem held_settle (risk : RiskState) (fill : Fill) (resource : Resource) :
    (risk.settle fill).held resource = risk.held resource := by
  cases resource <;> rfl

theorem Accounts.congr {other : RiskState} (accounts : risk.Accounts live)
    (objects : other.objects = risk.objects) (openOrders : other.openOrders = risk.openOrders)
    (pending : other.pendingByClient = risk.pendingByClient)
    (held : ∀ resource, other.held resource = risk.held resource) : other.Accounts live := by
  have slots : ∀ slot, other.slot slot = risk.slot slot := by
    intro slot
    cases slot with
    | opened orderId => rw [RiskState.slot, RiskState.slot, openOrders]
    | pending key => rw [RiskState.slot, RiskState.slot, pending]
  have opened : other.opened = risk.opened := by
    simp only [RiskState.opened, RiskState.object, objects, openOrders]
  have waiting : other.waiting = risk.waiting := by
    simp only [RiskState.waiting, RiskState.object, objects, pending]
  refine ⟨accounts.sound.keep (by rw [objects]) fun slot ref found => slots slot ▸ found, ?_,
    opened ▸ accounts.follows, waiting ▸ accounts.pending⟩
  intro resource
  rw [held, committed, opened, waiting]
  exact accounts.exact resource

section Bound

variable {bound : Int → Int} (fixes : ∀ amount, 0 ≤ amount → bound amount = amount)

include fixes

/-- A fill takes from what is held what both its orders committed for its quantity. -/
theorem Accounts.fill {tape : Exchange.Tape} (accounts : risk.Accounts tape.live)
    (valid : tape.Valid) {fill : Fill} {maker taker : LiveOrder}
    (executed : tape.Executed fill maker taker) :
    (risk.applyWith bound (.fill fill)).Accounts (tape.read (.fill fill)).live ∧
      (∀ resource, (risk.applyWith bound (.fill fill)).held resource = risk.held resource -
        (if (reservationOf maker).resource = resource then (reservationOf maker).cost fill.qty
          else 0) -
        if (reservationOf taker).resource = resource then (reservationOf taker).cost fill.qty
          else 0) ∧
      risk.applyWith bound (.fill fill) = risk.applyWith id (.fill fill) := by
  have priced := Priced.of_valid valid
  have settled : (risk.settle fill).Accounts tape.live :=
    accounts.congr rfl rfl rfl (held_settle risk fill)
  have makerFits : fill.qty ≤ maker.remaining := executed.quantity ▸ min_le_right _ _
  have takerFits : fill.qty ≤ taker.remaining := executed.quantity ▸ min_le_left _ _
  obtain ⟨first, firstHeld, firstSame⟩ :=
    settled.releaseFill fixes priced executed.makerLive makerFits
  have stays : taker ∈ reduce maker.id fill.qty tape.live :=
    mem_reduce.mpr (.inl ⟨executed.takerLive, (executed.ids_ne valid).symm⟩)
  obtain ⟨second, secondHeld, secondSame⟩ :=
    first.releaseFill fixes (priced.reduce _ _) stays takerFits
  rw [executed.makerId] at first firstHeld firstSame second secondHeld secondSame
  rw [executed.takerId] at second secondHeld secondSame
  refine ⟨second, fun resource => ?_, ?_⟩
  · rw [← held_settle risk fill resource, ← firstHeld, ← secondHeld]
    rfl
  · rw [RiskState.applyWith, secondSame, firstSame]
    rfl

/-- A lawful record keeps the accounts, and no amount it leaves has to be bounded. -/
theorem Accounts.applyWith {tape : Exchange.Tape} (accounts : risk.Accounts tape.live)
    (valid : tape.Valid) {record : Outbound} (lawful : tape.Lawful record)
    (matching : ∀ accepted, record = .orderAccepted accepted → risk.Matches accepted) :
    (risk.applyWith bound record).Accounts (tape.read record).live ∧
      risk.applyWith bound record = risk.applyWith id record := by
  have priced := Priced.of_valid valid
  cases record with
  | orderAccepted accepted =>
      obtain ⟨order, live, sameId, shown, -, fresh⟩ := Exchange.Tape.accepted_live valid lawful
      refine ⟨?_, rfl⟩
      rw [live]
      exact accounts.adopt sameId shown fresh (matching accepted rfl)
  | fill fill =>
      obtain ⟨maker, taker, executed⟩ := lawful
      obtain ⟨kept, -, same⟩ := accounts.fill fixes valid executed
      exact ⟨kept, same⟩
  | orderCancelled cancelled =>
      obtain ⟨order, member, sameId, -⟩ := lawful
      obtain ⟨kept, -, same⟩ := accounts.releaseRemaining fixes priced member
      rw [sameId] at kept same
      exact ⟨kept, same⟩
  | accountCreated _ => exact ⟨accounts.congr rfl rfl rfl (fun resource => by cases resource <;> rfl), rfl⟩
  | cashCredited _ => exact ⟨accounts.congr rfl rfl rfl (fun resource => by cases resource <;> rfl), rfl⟩
  | orderRejected _ => exact ⟨accounts, rfl⟩
  | bookChanged _ => exact ⟨accounts, rfl⟩
  | replayConfigured _ => exact ⟨accounts, rfl⟩

end Bound

end RiskState

end QuantArena.Gateway
