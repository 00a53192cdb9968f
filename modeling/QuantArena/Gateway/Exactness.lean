import QuantArena.Gateway.SystemProperties

/-! When reservations stay exact. A run of the system keeps them exactly when nothing
is given up that an acceptance has taken over, and no acceptance takes over what was
reserved for another order. -/

set_option autoImplicit false

namespace QuantArena.Gateway

open Foundations Foundations.PriceTime Contracts Exchange Ledger

namespace RiskState

variable {risk : RiskState} {live : List LiveOrder}

/-! ## The price an order is sent with -/

/-- Every order a market order could be banded off has a price. -/
def OffersPriced (risk : RiskState) : Prop :=
  ∀ symbolId side, ∀ price ∈ risk.prices symbolId side, 0 < price

theorem Accounts.offersPriced (accounts : risk.Accounts live) (priced : Priced live) :
    risk.OffersPriced := by
  intro symbolId side price member
  obtain ⟨reservation, listed, rfl⟩ := List.mem_map.mp member
  have stored := (List.mem_filter.mp listed).1
  have values : risk.openOrders.values.map risk.object = risk.opened.values := by
    rw [opened, Dict.values_mapValues, Dict.values, List.map_map]
    rfl
  rw [values] at stored
  obtain ⟨orderId, found⟩ := Dict.mem_values_iff.mp stored
  exact (accounts.opened_positive priced found).price

theorem OffersPriced.bandedMarketPrice_pos (offers : risk.OffersPriced)
    {symbolId side bandBps price : Int} (widens : 0 ≤ bandBps)
    (banded : risk.bandedMarketPrice symbolId side bandBps = some price) : 0 < price := by
  unfold bandedMarketPrice at banded
  split at banded
  · obtain ⟨reference, best, rfl⟩ := Option.map_eq_some_iff.mp banded
    have positive := offers _ _ reference (List.min?_mem best)
    have grown : reference * 10000 ≤ reference * (10000 + bandBps) :=
      Int.mul_le_mul_of_nonneg_left (by omega) positive.le
    omega
  · obtain ⟨reference, -, rfl⟩ := Option.map_eq_some_iff.mp banded
    omega

/-- What a request reserves for has a price and a quantity. -/
theorem OffersPriced.decide_positive (offers : risk.OffersPriced)
    {body : SubmitOrderRequest} {settings : Settings} {userId now : Int} {order : SubmitOrder}
    {reserved : RiskState} (decided : body.decide settings risk userId now = .append order reserved) :
    0 < order.priceTicks ∧ 0 < order.qty := by
  obtain ⟨-, -, -, -, qty, limit, -⟩ := SubmitOrderRequest.decide_append decided
  refine ⟨?_, qty ▸ body.qty_range.1⟩
  unfold SubmitOrderRequest.limit at limit
  split at limit
  · exact (body.priceTicks_range _ limit).1
  · exact offers.bandedMarketPrice_pos settings.widens limit

/-! ## Objects, also those of retired orders -/

end RiskState

/-- No negative quantity, and a price where there is one left. -/
def Reservation.Sane (reservation : Reservation) : Prop :=
  0 ≤ reservation.qty ∧ (0 < reservation.qty → 0 < reservation.priceTicks)

namespace RiskState

def Solid (risk : RiskState) : Prop := ∀ ref, (risk.object ref).Sane

variable {risk : RiskState} {live : List LiveOrder}

theorem new_solid (marketMakers : List Int) : (new marketMakers).Solid := by
  intro ref
  have blank : (new marketMakers).object ref = default := by
    simp [object, Heap.read, new, Heap.empty]
  rw [blank]
  exact ⟨le_rfl, fun positive => absurd positive (lt_irrefl _)⟩

theorem Solid.offersPriced (solid : risk.Solid) : risk.OffersPriced := by
  intro symbolId side price member
  obtain ⟨reservation, listed, rfl⟩ := List.mem_map.mp member
  obtain ⟨stored, chosen⟩ := List.mem_filter.mp listed
  obtain ⟨ref, -, rfl⟩ := List.mem_map.mp stored
  exact (solid ref).2 (of_decide_eq_true chosen).2.2

theorem Solid.congr {other : RiskState} (solid : risk.Solid) (objects : other.objects = risk.objects) :
    other.Solid := by
  intro ref
  rw [object, objects]
  exact solid ref

theorem Solid.alloc {other : RiskState} (solid : risk.Solid) {reservation : Reservation}
    (positive : reservation.Positive) (objects : other.objects = risk.objects.alloc reservation) :
    other.Solid := by
  intro ref
  rw [object, objects]
  exact @Heap.forall_alloc _ _ Reservation.Sane risk.objects solid reservation
    ⟨positive.qty.le, fun _ => positive.price⟩ ref

theorem Solid.write {other : RiskState} (solid : risk.Solid) {reservation : Reservation}
    (sane : reservation.Sane) {target : Ref} (objects : other.objects = risk.objects.write target
      reservation) : other.Solid := by
  intro ref
  rw [object, objects]
  exact @Heap.forall_write _ _ Reservation.Sane risk.objects solid reservation sane target ref

theorem Solid.reserve (solid : risk.Solid) {next : RiskState}
    {userId clientOrderId symbolId side priceTicks qty : Int} (price : 0 < priceTicks)
    (counted : 0 < qty)
    (reserved : risk.reserve userId clientOrderId symbolId side priceTicks qty = .ok next) :
    next.Solid := by
  obtain ⟨-, rfl⟩ := reserve_eq_ok reserved
  have positive : Reservation.Positive
      ⟨userId, none, clientOrderId, symbolId, side, priceTicks, qty⟩ := ⟨price, counted⟩
  exact solid.alloc positive rfl

theorem Solid.releaseFillWith (solid : risk.Solid) (orderId : Int) {qty : Int} (counted : 0 ≤ qty) :
    (risk.releaseFillWith clamped orderId qty).Solid := by
  unfold RiskState.releaseFillWith
  split
  · exact solid
  · rename_i ref _
    have sane : Reservation.Sane { risk.object ref with
        qty := clamped ((risk.object ref).qty - qty) } := by
      refine ⟨le_max_left _ _, fun positive => ?_⟩
      have left : 0 < max 0 ((risk.object ref).qty - qty) := positive
      exact (solid ref).2 (by omega)
    exact solid.write sane rfl

theorem Solid.releaseRemainingWith (solid : risk.Solid) (orderId : Int) :
    (risk.releaseRemainingWith clamped orderId).Solid := by
  unfold RiskState.releaseRemainingWith
  split
  · exact solid
  · exact solid.congr (by rw [releaseWith_objects])

theorem Solid.abandon (solid : risk.Solid) (ref : Ref) : (risk.abandon ref).Solid := by
  refine solid.congr ?_
  unfold RiskState.abandon release
  simp only [releaseWith_objects]
  split <;> rfl

theorem Solid.adopt (solid : risk.Solid) {accepted : OrderAccepted} (price : 0 < accepted.priceTicks)
    (qty : 0 < accepted.qty) : (risk.adopt accepted).Solid := by
  unfold RiskState.adopt
  split
  · have positive : (replayed accepted).Positive := ⟨price, qty⟩
    exact solid.alloc positive rfl
  · rename_i ref _
    have sane : Reservation.Sane { risk.object ref with orderId := some accepted.orderId } :=
      solid ref
    exact solid.write sane rfl

theorem Solid.apply (solid : risk.Solid) {tape : Exchange.Tape} (valid : tape.Valid)
    {record : Outbound} (lawful : tape.Lawful record) (streamId : Option StreamId) :
    (risk.apply record streamId).Solid := by
  rw [RiskState.apply]
  have counted : RiskState.Solid { risk with lastSeq := streamId.getD risk.lastSeq } := solid
  cases record with
  | orderAccepted accepted =>
      obtain ⟨-, -, -, price, qty⟩ := lawful
      exact counted.adopt price qty
  | fill fill =>
      obtain ⟨maker, taker, executed⟩ := lawful
      have qty : 0 ≤ fill.qty := by
        have makerPositive := valid.wellFormed.positive maker executed.makerLive
        have takerPositive := valid.wellFormed.positive taker executed.takerLive
        rw [executed.quantity]
        exact le_min takerPositive.le makerPositive.le
      have settled : (settle { risk with lastSeq := streamId.getD risk.lastSeq } fill).Solid :=
        counted.congr rfl
      have first := settled.releaseFillWith fill.makerOrderId qty
      exact first.releaseFillWith fill.takerOrderId qty
  | orderCancelled cancelled => exact counted.releaseRemainingWith _
  | accountCreated _ => exact solid
  | cashCredited _ => exact solid
  | orderRejected _ => exact solid
  | bookChanged _ => exact solid
  | replayConfigured _ => exact solid

/-! ## Giving up -/

/-- What abandoning gives back is still held for the request, or there is nothing to give. -/
def GivesUp (risk : RiskState) (ref : Ref) : Prop :=
  risk.pendingByClient.get? ((risk.object ref).userId, (risk.object ref).clientOrderId) = some ref ∨
    (risk.object ref).qty = 0 ∨ risk.held (risk.object ref).resource = 0

theorem cost_pos {reservation : Reservation} (sane : reservation.Sane) (left : 0 < reservation.qty) :
    0 < reservation.cost reservation.qty := by
  have price := sane.2 left
  unfold Reservation.cost
  split
  · simp only [buyCost, takerFeeBps, bpsDenominator]
    exact Int.mul_pos left (by omega)
  · exact left

theorem cost_zero (reservation : Reservation) : reservation.cost 0 = 0 := by
  unfold Reservation.cost
  split <;> simp [buyCost]

theorem cost_sane {reservation : Reservation} (sane : reservation.Sane) :
    0 ≤ reservation.cost reservation.qty := by
  rcases sane.1.eq_or_lt with none | left
  · rw [← none, cost_zero]
  · exact (cost_pos sane left).le

/-- Giving up what is not pending any more takes its amount from what is held. -/
theorem held_abandon_adopted {ref : Ref}
    (adopted : risk.pendingByClient.get? ((risk.object ref).userId,
      (risk.object ref).clientOrderId) ≠ some ref) (resource : Resource) :
    (risk.abandon ref).held resource = if (risk.object ref).resource = resource then
      clamped (risk.held resource - (risk.object ref).cost (risk.object ref).qty)
      else risk.held resource := by
  unfold RiskState.abandon release
  simp only [adopted, if_false]
  exact held_releaseWith ..

theorem committed_abandon_adopted {ref : Ref}
    (adopted : risk.pendingByClient.get? ((risk.object ref).userId,
      (risk.object ref).clientOrderId) ≠ some ref) :
    (risk.abandon ref).objects = risk.objects ∧ (risk.abandon ref).openOrders = risk.openOrders ∧
      (risk.abandon ref).pendingByClient = risk.pendingByClient := by
  unfold RiskState.abandon release
  simp only [adopted, if_false, releaseWith_objects, releaseWith_openOrders,
    releaseWith_pendingByClient, and_self]

theorem Accounts.abandon_permitted (accounts : risk.Accounts live) (priced : Priced live)
    (solid : risk.Solid) {ref : Ref} (givesUp : risk.GivesUp ref) :
    (risk.abandon ref).Accounts live := by
  by_cases own : risk.pendingByClient.get? ((risk.object ref).userId,
      (risk.object ref).clientOrderId) = some ref
  · exact (accounts.abandon priced own).1
  · obtain ⟨objects, openOrders, pending⟩ := committed_abandon_adopted own
    refine accounts.congr objects openOrders pending fun resource => ?_
    rw [held_abandon_adopted own]
    split
    · rename_i here
      subst here
      have nonneg := accounts.held_nonneg priced (risk.object ref).resource
      have cost := cost_sane (solid ref)
      rcases givesUp with pending | none | empty
      · exact absurd pending own
      · rw [none, cost_zero, Int.sub_zero]
        exact max_eq_right nonneg
      · rw [empty]
        exact max_eq_left (by omega)
    · rfl

/-- What is given up after its adoption is missed: the amounts no longer agree. -/
theorem Accounts.abandon_exact (accounts : risk.Accounts live) (priced : Priced live)
    (solid : risk.Solid) {ref : Ref} (exact : (risk.abandon ref).Exact) : risk.GivesUp ref := by
  by_contra not
  simp only [GivesUp, not_or] at not
  obtain ⟨adopted, left, holds⟩ := not
  obtain ⟨objects, openOrders, pending⟩ := committed_abandon_adopted adopted
  have same : (risk.abandon ref).committed (risk.object ref).resource =
      risk.committed (risk.object ref).resource := by
    simp only [committed, opened, waiting, object, objects, openOrders, pending]
  have nonneg := accounts.held_nonneg priced (risk.object ref).resource
  have cost := cost_pos (solid ref) (lt_of_le_of_ne (solid ref).1 (Ne.symm left))
  have lowered := held_abandon_adopted adopted (risk.object ref).resource
  rw [exact, same, ← accounts.exact, if_pos rfl, clamped] at lowered
  omega

end RiskState

/-! ## Runs -/

namespace System

/-- The claim of a run: held is what is committed, and every open order carries its acceptance. -/
structure ReservationsExact (system : System) : Prop where
  exact : system.risk.Exact
  carried : ∀ accepted, .orderAccepted accepted ∈ system.delivered → ∀ reservation,
    system.risk.opened.get? accepted.orderId = some reservation →
      reservation.userId = accepted.userId ∧ reservation.symbolId = accepted.symbolId ∧
      reservation.side = accepted.side ∧ reservation.priceTicks = accepted.priceTicks ∧
      reservation.qty + (system.delivered.map (filledQty accepted.orderId)).sum = accepted.qty

/-- The steps that keep reservations exact. -/
def Permitted (system : System) : Action → Prop
  | .abandon ref => ∀ submission, system.submissions.get? ref = some submission →
      submission.awaiting = true → system.risk.GivesUp ref
  | .watch => ∀ entry accepted, system.next? = some entry → entry.2 = .orderAccepted accepted →
      system.risk.Matches accepted
  | _ => True

structure Kept (system : System) (initialCashTicks : Int) : Prop where
  feeds : ∃ seen, system.Feeds initialCashTicks seen
  accounts : system.risk.Accounts (Tape.blank.readAll system.delivered).live
  solid : system.risk.Solid

variable {system : System} {initialCashTicks : Int}

theorem start_kept (marketMakers : List Int) (initialCashTicks : Int) :
    (start marketMakers initialCashTicks).Kept initialCashTicks where
  feeds := ⟨0, start_feeds marketMakers initialCashTicks⟩
  accounts := RiskState.new_accounts marketMakers
  solid := RiskState.new_solid marketMakers

theorem Kept.priced (kept : system.Kept initialCashTicks) :
    RiskState.Priced (Tape.blank.readAll system.delivered).live := by
  obtain ⟨seen, feeds⟩ := kept.feeds
  exact .of_valid feeds.delivered_valid

theorem Kept.exact (kept : system.Kept initialCashTicks) : system.ReservationsExact := by
  obtain ⟨seen, feeds⟩ := kept.feeds
  refine ⟨kept.accounts.exact, fun accepted announced reservation found => ?_⟩
  obtain ⟨order, member, sameId, rfl⟩ := kept.accounts.follows.of_get? found
  obtain ⟨shown, filled⟩ :=
    feeds.delivered_lawful.live_accepted member announced sameId.symm
  simp only [openOrder, OpenOrder.ofAccepted, OpenOrder.mk.injEq] at shown
  obtain ⟨-, user, symbol, side, price, -⟩ := shown
  rw [sameId] at filled
  exact ⟨user, symbol, side, price, filled⟩

/-- A step of the risk state alone. -/
theorem Kept.aside (kept : system.Kept initialCashTicks) {next : System}
    (inbound : next.inbound = system.inbound) (matcher : next.matcher = system.matcher)
    (answered : next.answered = system.answered) (outbound : next.outbound = system.outbound)
    (place : next.risk.SamePlace system.risk)
    (accounts : next.risk.Accounts (Tape.blank.readAll system.delivered).live)
    (solid : next.risk.Solid) : next.Kept initialCashTicks := by
  obtain ⟨seen, feeds⟩ := kept.feeds
  obtain ⟨after, delivered⟩ := feeds.aside inbound matcher answered outbound place.1
  exact ⟨⟨seen, after⟩, delivered ▸ accounts, solid⟩

theorem Kept.step (settings : Settings) (kept : system.Kept initialCashTicks) {action : Action}
    (permitted : system.Permitted action) : (system.step settings action).Kept initialCashTicks := by
  obtain ⟨seen, feeds⟩ := kept.feeds
  have moves := step_moves settings system action
  generalize system.step settings action = next at moves
  cases moves with
  | idle => exact kept
  | submit decided =>
      obtain ⟨price, qty⟩ := (kept.accounts.offersPriced kept.priced).decide_positive decided
      obtain ⟨free, -, -, -, -, -, held⟩ := SubmitOrderRequest.decide_append decided
      refine kept.aside rfl rfl rfl rfl (samePlace_decide decided)
        (kept.accounts.reserve ?_ price qty held) (kept.solid.reserve price qty held)
      rw [RiskState.get?_waiting, free, Option.map_none]
  | append =>
      exact ⟨⟨seen, feeds.append _ _ _⟩, kept.accounts, kept.solid⟩
  | finish => exact kept.aside rfl rfl rfl rfl ⟨rfl, rfl⟩ kept.accounts kept.solid
  | @abandon ref submission found awaiting =>
      exact kept.aside rfl rfl rfl rfl (RiskState.samePlace_abandon system.risk ref)
        (kept.accounts.abandon_permitted kept.priced kept.solid (permitted submission found awaiting))
        (kept.solid.abandon ref)
  | write =>
      exact ⟨⟨seen, feeds.append _ _ _⟩, kept.accounts, kept.solid⟩
  | expire => exact kept.aside rfl rfl rfl rfl ⟨rfl, rfl⟩ kept.accounts kept.solid
  | answer now =>
      refine ⟨⟨seen, feeds.answer now⟩, ?_, ?_⟩
      · rw [feeds.delivered_answer now, risk_answer]
        exact kept.accounts
      · rw [risk_answer]
        exact kept.solid
  | @watch entry next =>
      obtain ⟨after, delivered⟩ := feeds.watch next
      have valid := feeds.delivered_valid
      have lawful := feeds.next_lawful next
      refine ⟨⟨seen + 1, after⟩, ?_, kept.solid.apply valid lawful _⟩
      rw [delivered, Tape.readAll_append, RiskState.apply]
      have placed : RiskState.Accounts { system.risk with lastSeq := entry.1 }
          (Tape.blank.readAll system.delivered).live :=
        kept.accounts.congr rfl rfl rfl fun resource => by cases resource <;> rfl
      exact (placed.applyWith RiskState.clamped_fixes valid lawful
        fun accepted same => permitted entry accepted next same).1

/-- A reservation adopted for another order shows on the order. -/
theorem Kept.matches_of_exact (kept : system.Kept initialCashTicks) {streamId : StreamId}
    {accepted : OrderAccepted} (next : system.next? = some (streamId, .orderAccepted accepted))
    (exact : ReservationsExact { system with
      risk := system.risk.apply (.orderAccepted accepted) (some streamId) }) :
    system.risk.Matches accepted := by
  obtain ⟨seen, feeds⟩ := kept.feeds
  obtain ⟨after, delivered⟩ := feeds.watch next
  simp only at delivered
  have lawful := after.delivered_lawful
  intro reservation pending
  have sound : RiskState.Sound { system.risk with lastSeq := streamId } :=
    kept.accounts.sound.keep rfl fun slot _ found => by cases slot <;> exact found
  obtain ⟨-, opened, -, -⟩ := sound.adopt_pending pending
  have listed : Outbound.orderAccepted accepted ∈
      system.delivered ++ [.orderAccepted accepted] := by simp
  have found : (system.risk.apply (.orderAccepted accepted) (some streamId)).opened.get?
      accepted.orderId = some { reservation with orderId := some accepted.orderId } := by
    have set := congrArg (Dict.get? · accepted.orderId) opened
    simp only [Dict.get?_set_self] at set
    exact set
  have carried := exact.carried accepted
  rw [delivered] at carried lawful
  obtain ⟨-, symbol, side, price, qty⟩ := carried listed _ found
  obtain ⟨order, live, sameId, shown, -, -⟩ :=
    Tape.accepted_live feeds.delivered_valid (feeds.next_lawful next)
  have member : order ∈
      (Tape.blank.readAll (system.delivered ++ [Outbound.orderAccepted accepted])).live := by
    rw [Tape.readAll_append, Tape.readAll_cons, Tape.readAll_nil, live]
    exact List.mem_append_right _ List.mem_cons_self
  have filled := (lawful.live_accepted member listed sameId.symm).2
  have whole : order.remaining = accepted.qty := congrArg OpenOrder.remainingQty shown
  rw [sameId] at filled
  refine ⟨symbol, side, price, ?_⟩
  simp only at qty
  omega

theorem Kept.needed (settings : Settings) (kept : system.Kept initialCashTicks) {action : Action}
    (exact : (system.step settings action).ReservationsExact) : system.Permitted action := by
  cases action with
  | abandon ref =>
      intro submission found awaiting
      simp only [System.step, System.abandon, found, awaiting, if_true] at exact
      exact kept.accounts.abandon_exact kept.priced kept.solid exact.exact
  | watch =>
      rintro ⟨streamId, record⟩ accepted next rfl
      simp only [System.step, watch_eq, next] at exact
      exact kept.matches_of_exact next exact
  | submit _ _ _ => trivial
  | append _ => trivial
  | finish _ => trivial
  | write _ => trivial
  | expire _ => trivial
  | answer _ => trivial

/-- Reservations are exact after each step of a run exactly when each of its steps is permitted. -/
theorem reservations_exact_iff (settings : Settings) (marketMakers : List Int)
    (initialCashTicks : Int) (actions : List Action) :
    Always (step settings) ReservationsExact (start marketMakers initialCashTicks) actions ↔
      Along (step settings) Permitted (start marketMakers initialCashTicks) actions :=
  always_iff_along_of_invariant (fun _ kept => Kept.exact kept)
    (fun _ _ kept permitted => kept.step settings permitted)
    (fun _ _ kept exact => kept.needed settings exact) (start_kept marketMakers initialCashTicks)

/-- A lost reply lets a submission be given up after the watcher adopted its reservation: the
order still rests, and nothing is held for it. -/
theorem abandon_after_adoption :
    let bid : SubmitOrderRequest := ⟨1, 1, .buy, .gtc, some 100, 10, .limit, by decide, by decide,
      by decide, by decide, rfl⟩
    ¬ Always (step ⟨[1], 500, by decide⟩) ReservationsExact (start [] 5000)
      [.write (.createAccount ⟨0, 1, 7⟩), .answer 1, .watch, .submit 7 bid 0, .append 0, .answer 2,
        .watch, .abandon 0] := by
  intro bid always
  have exact := (always _ [] (List.append_nil _).symm).exact (.cash 7)
  revert exact
  decide

end System

end QuantArena.Gateway
