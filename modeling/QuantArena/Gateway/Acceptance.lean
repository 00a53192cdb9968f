import QuantArena.Gateway.Exactness
import QuantArena.Matcher.Engines

/-! What the gateway appends, the engines accept: the checks of the request body, of the risk
state and of the two engines against each other. -/

set_option autoImplicit false

namespace QuantArena.Gateway

open Foundations Foundations.PriceTime Contracts Exchange Matcher

namespace RiskState

variable {risk reserved : RiskState} {body : SubmitOrderRequest} {settings : Settings}
  {userId now : Int} {order : SubmitOrder}

theorem OffersPriced.decide_admitted (offers : risk.OffersPriced)
    (decided : body.decide settings risk userId now = .append order reserved) :
    Market.admission order = .ok (body.side, body.sentTif) := by
  obtain ⟨price, qty⟩ := offers.decide_positive decided
  obtain ⟨-, -, -, side, -⟩ := SubmitOrderRequest.decide_append decided
  have tif := SubmitOrderRequest.decide_tif decided
  refine Market.admission_eq_ok.mpr ⟨?_, ?_, price, qty⟩
  · rw [side, sideOf?_sideCode]
  · rw [tif, tifOf?_tifCode]

/-- The acceptance of a pending order takes its reservation over. -/
theorem adopts_pending {ref : Ref} {accepted : OrderAccepted} (streamId : Option StreamId)
    (pending : risk.pendingByClient.get? (accepted.userId, accepted.clientOrderId) = some ref) :
    (risk.apply (.orderAccepted accepted) streamId).pendingByClient.get?
        (accepted.userId, accepted.clientOrderId) = none ∧
      (risk.apply (.orderAccepted accepted) streamId).openOrders.get? accepted.orderId =
        some ref := by
  rw [RiskState.apply, applyWith, adopt]
  simp only [pending]
  exact ⟨Dict.get?_erase_self _ _, Dict.get?_set_self _ _ _⟩

end RiskState

namespace System

variable {system : System} {initialCashTicks : Int}

/-- What every run keeps, also where reservations are not exact. -/
structure Steady (system : System) (initialCashTicks : Int) : Prop where
  feeds : ∃ seen, system.Feeds initialCashTicks seen
  solid : system.risk.Solid

theorem Steady.aside (steady : system.Steady initialCashTicks) {next : System}
    (inbound : next.inbound = system.inbound) (matcher : next.matcher = system.matcher)
    (answered : next.answered = system.answered) (outbound : next.outbound = system.outbound)
    (place : next.risk.SamePlace system.risk) (solid : next.risk.Solid) :
    next.Steady initialCashTicks := by
  obtain ⟨seen, feeds⟩ := steady.feeds
  exact ⟨⟨seen, (feeds.aside inbound matcher answered outbound place.1).1⟩, solid⟩

theorem Steady.step (settings : Settings) (steady : system.Steady initialCashTicks)
    (action : Action) : (system.step settings action).Steady initialCashTicks := by
  obtain ⟨seen, feeds⟩ := steady.feeds
  have moves := step_moves settings system action
  generalize system.step settings action = next at moves
  cases moves with
  | idle => exact steady
  | submit decided =>
      obtain ⟨price, qty⟩ := steady.solid.offersPriced.decide_positive decided
      obtain ⟨-, -, -, -, -, -, held⟩ := SubmitOrderRequest.decide_append decided
      exact steady.aside rfl rfl rfl rfl (samePlace_decide decided)
        (steady.solid.reserve price qty held)
  | append => exact ⟨⟨seen, feeds.append _ _ _⟩, steady.solid⟩
  | finish => exact steady.aside rfl rfl rfl rfl ⟨rfl, rfl⟩ steady.solid
  | abandon =>
      exact steady.aside rfl rfl rfl rfl (RiskState.samePlace_abandon _ _) (steady.solid.abandon _)
  | write => exact ⟨⟨seen, feeds.append _ _ _⟩, steady.solid⟩
  | expire => exact steady.aside rfl rfl rfl rfl ⟨rfl, rfl⟩ steady.solid
  | answer now =>
      refine ⟨⟨seen, feeds.answer now⟩, ?_⟩
      rw [risk_answer]
      exact steady.solid
  | watch next =>
      exact ⟨⟨seen + 1, (feeds.watch next).1⟩,
        steady.solid.apply feeds.delivered_valid (feeds.next_lawful next) _⟩

/-- In every run, whatever is given up or adopted, the orders that are offered have prices. -/
theorem run_offersPriced (settings : Settings) (marketMakers : List Int) (initialCashTicks : Int)
    (actions : List Action) :
    ((start marketMakers initialCashTicks).run settings actions).risk.OffersPriced := by
  have initially : (start marketMakers initialCashTicks).Steady initialCashTicks :=
    ⟨⟨0, start_feeds marketMakers initialCashTicks⟩, RiskState.new_solid marketMakers⟩
  have kept := @Along.invariant _ _ (step settings) (fun _ _ => True)
    (Steady · initialCashTicks) (fun _ action steady _ => steady.step settings action) _ actions
    initially (Along.of_forall (fun _ _ _ => trivial) _)
  exact kept.solid.offersPriced

end System

/-- What reaches the append and packs is accepted by either engine, in every state that is reached
before a C++ engine has used up its ids, and the acceptance adopts the reservation; and a
gateway's risk state never offers an order without a price. -/
theorem gateway_orders_are_accepted :
    (∀ (body : SubmitOrderRequest) (settings : Settings) (risk reserved : RiskState)
      (userId now : Int) (order : SubmitOrder), risk.OffersPriced →
      body.decide settings risk userId now = .append order reserved →
      (OnWire (.submitOrder order) → ∀ engine,
        EitherEngine.Reachable EitherEngine.Numbered engine → engine.Numbered →
        engine.Accepts order) ∧
      ∀ (later : RiskState) (ref : Ref) (orderId : Int) (streamId : Option StreamId),
        later.pendingByClient.get? (order.userId, order.clientOrderId) = some ref →
        (later.apply (.orderAccepted (Market.acceptance order orderId)) streamId).pendingByClient.get?
            (order.userId, order.clientOrderId) = none ∧
          (later.apply (.orderAccepted (Market.acceptance order orderId)) streamId).openOrders.get?
            orderId = some ref) ∧
    ∀ (settings : Settings) (marketMakers : List Int) (initialCashTicks : Int)
      (actions : List Action),
      ((System.start marketMakers initialCashTicks).run settings actions).risk.OffersPriced := by
  refine ⟨fun body settings risk reserved userId now order offers decided => ⟨?_, ?_⟩,
    System.run_offersPriced⟩
  · intro packs engine reached numbered
    obtain ⟨market, stands⟩ := reached.standsFor
    exact stands.accepts numbered (offers.decide_admitted decided)
  · intro later ref orderId streamId pending
    exact @RiskState.adopts_pending later ref (Market.acceptance order orderId) streamId pending

/-- One share at one tick, for an account with a hundred. -/
def oneShare (symbolId : Int) (fits : 0 ≤ symbolId ∧ symbolId < 2 ^ 15) : SubmitOrderRequest :=
  ⟨1, symbolId, .buy, .gtc, some 1, 1, .limit, by decide, fits, by decide, by decide, rfl⟩

def hundredTicks : RiskState := { RiskState.new [] with settledCash := Dict.empty.set 1 100 }

def twoSymbols : Settings := ⟨[1, 2], 500, by decide⟩

theorem hundredTicks_offersPriced : hundredTicks.OffersPriced := by
  intro symbolId side price member
  cases member

theorem gateway_order_is_accepted :
    (EitherEngine.cpp (.new 0)).Accepts smallBid ∧ (EitherEngine.naive (.new 1 0)).Accepts smallBid := by
  have accepted := gateway_orders_are_accepted.1 (oneShare 1 (by decide)) twoSymbols hundredTicks _ 1 0
    smallBid hundredTicks_offersPriced rfl
  have numbered : (1 : Int) ≠ 0 := by decide
  exact ⟨accepted.1 smallBid_onWire _ (.cpp 0) numbered,
    accepted.1 smallBid_onWire _ (.naive 0) trivial⟩

theorem one_fits : 0 ≤ (1 : Int) ∧ (1 : Int) < 2 ^ 15 := by decide

/-- A market buy, and a state that lists an offer for nothing. -/
def anyPrice : SubmitOrderRequest := { oneShare 1 one_fits with
  priceTicks := none
  orderType := .market
  priceTicks_range := fun _ listed => by cases listed
  price_matches_order_type := rfl }

def freeOffer : RiskState := { hundredTicks with
  objects := Heap.empty.alloc ⟨2, some 5, 1, 1, 2, 0, 1⟩
  openOrders := Dict.empty.set 5 0 }

theorem gateway_order_refused :
    (∃ order reserved, anyPrice.decide twoSymbols freeOffer 1 0 = .append order reserved ∧
      OnWire (.submitOrder order) ∧ ¬ (EitherEngine.naive (.new 1 0)).Accepts order ∧
      ¬ (EitherEngine.cpp (.new 0)).Accepts order) ∧
    ∃ engine body order reserved, EitherEngine.Reachable (fun _ => True) engine ∧
      SubmitOrderRequest.decide body twoSymbols hundredTicks 1 0 = .append order reserved ∧
      OnWire (.submitOrder order) ∧ ¬ engine.Accepts order := by
  refine ⟨⟨⟨0, 1, 1, 0, 1, 1, 1, 2⟩, _, rfl, by constructor <;> decide, ?_, ?_⟩, ?_⟩
  · rintro ⟨after, orderId, rest, done, -⟩
    cases done
  · rintro ⟨after, orderId, rest, done, -⟩
    cases done
  · obtain ⟨engine, reached, refuses⟩ := exhausted_engine
    by_cases accepts : engine.Accepts smallBid
    · exact ⟨engine, oneShare 2 (by decide), otherBid, _, reached, rfl, otherBid_onWire,
        fun other => refuses ⟨accepts, other⟩⟩
    · exact ⟨engine, oneShare 1 (by decide), smallBid, _, reached, rfl, smallBid_onWire, accepts⟩

end QuantArena.Gateway
