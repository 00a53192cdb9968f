import QuantArena.Fanout.Checkpoint
import QuantArena.Fanout.Follows
import QuantArena.Gateway.Accounts
import QuantArena.Ledger.Checkpoint
import QuantArena.Ledger.Follows
import QuantArena.Matcher.Runs

/-! Whoever reads the whole outbound stream from the start agrees with the engine that
wrote it: the ledger, fan-out's books and the gateway's risk state. The ledger and fan-out
may also resume from a checkpoint on the way. -/

set_option autoImplicit false

namespace QuantArena

open Foundations Foundations.PriceTime Contracts Exchange

namespace Matcher.NaiveMatcher

/-- A live order as the engine knows it. -/
def openOrder (matcher : NaiveMatcher) (live : Live) : OpenOrder where
  clientOrderId := live.clientOrderId
  userId := live.userId
  symbolId := live.symbolId
  side := live.side
  priceTicks := live.priceTicks
  remainingQty := matcher.remainingQty live

variable {matcher : NaiveMatcher} {market : Market}

theorem Represents.mirrors (represents : matcher.Represents market) :
    Mirrors matcher.byOrderId matcher.liveOrder market.tape.live id := by
  unfold Mirrors
  rw [← represents.live, Dict.values, List.map_map, List.map_map]
  apply List.map_congr_left
  intro entry member
  have keyed := represents.keyed entry.1 entry.2 (Dict.get?_eq_some_iff.mpr member)
  simp only [Function.comp_apply, liveOrder, keyed, id]

theorem Represents.openOrder_eq (represents : matcher.Represents market) {live : Live}
    (member : live ∈ matcher.byOrderId.values) :
    matcher.openOrder live = Exchange.openOrder (matcher.liveOrder live) := by
  have side := (represents.coherent live member).side
  simp only [openOrder, Exchange.openOrder, liveOrder, side]

/-- A consumer that lists the live orders knows each as the engine does. -/
theorem Represents.shows (represents : matcher.Represents market) {ν : Type} {orders : Dict Int ν}
    {view : ν → OpenOrder} (lists : Lists orders view market.tape.live Exchange.openOrder)
    (orderId : Int) :
    (orders.get? orderId).map view = (matcher.byOrderId.get? orderId).map matcher.openOrder := by
  have engine := represents.mirrors.get?_map orderId
  rw [Option.map_id] at engine
  rw [lists.get?_map, ← id_eq (List.find? _ _), ← engine, Option.map_map]
  cases found : matcher.byOrderId.get? orderId with
  | none => rfl
  | some live =>
      have member := mem_values_of_get? found
      simp only [Option.map_some, Function.comp_apply, represents.openOrder_eq member]

end Matcher.NaiveMatcher

namespace Gateway

def Reservation.shown (reservation : Reservation) : OpenOrder where
  clientOrderId := reservation.clientOrderId
  userId := reservation.userId
  symbolId := reservation.symbolId
  side := reservation.side
  priceTicks := reservation.priceTicks
  remainingQty := reservation.qty

namespace RiskState

variable {risk : RiskState}

/-- Nothing is pending in a risk state that only replays. -/
theorem matches_of_idle (idle : risk.pendingByClient = .empty) (accepted : OrderAccepted) :
    risk.Matches accepted := by
  intro reservation found
  rw [get?_waiting, idle] at found
  cases found

theorem apply_idle (idle : risk.pendingByClient = .empty) (record : Outbound)
    (streamId : Option StreamId) : (risk.apply record streamId).pendingByClient = .empty := by
  rw [RiskState.apply, pendingByClient_applyWith]
  cases record with
  | orderAccepted accepted =>
      simp only [idle]
      rfl
  | _ => exact idle

theorem Accounts.replayAll {tape : Exchange.Tape} (accounts : risk.Accounts tape.live)
    (idle : risk.pendingByClient = .empty) (valid : tape.Valid)
    {events : List (Outbound × Option StreamId)} (lawful : tape.LawfulAll (events.map (·.1))) :
    (risk.applyAll events).Accounts (tape.readAll (events.map (·.1))).live := by
  induction events generalizing risk tape with
  | nil => exact accounts
  | cons event rest ih =>
      have placed : RiskState.Accounts { risk with lastSeq := event.2.getD risk.lastSeq } tape.live :=
        accounts.congr rfl rfl rfl fun resource => by cases resource <;> rfl
      have next := (placed.applyWith clamped_fixes valid lawful.1
        fun accepted _ => matches_of_idle idle accepted).1
      exact ih next (apply_idle idle event.1 event.2) (valid.read lawful.1) lawful.2

/-! ## Settled like the ledger -/

/-- The ledger's balances and positions, entry by entry. -/
def Settled (risk : RiskState) (ledger : Ledger) : Prop :=
  risk.settledCash = ledger.cashBalances ∧ risk.positions = ledger.positions

theorem Settled.apply {ledger : Ledger} (settled : risk.Settled ledger) (record : Outbound)
    (streamId : Option StreamId) : (risk.apply record streamId).Settled (ledger.apply record streamId) := by
  obtain ⟨cash, positions⟩ := settled
  cases record with
  | orderAccepted accepted =>
      obtain ⟨sameCash, samePositions⟩ :=
        sameFunds_adopt { risk with lastSeq := streamId.getD risk.lastSeq } accepted
      exact ⟨sameCash.trans cash, samePositions.trans positions⟩
  | fill fill =>
      obtain ⟨sameCash, samePositions⟩ :=
        sameFunds_applyWith_fill clamped { risk with lastSeq := streamId.getD risk.lastSeq } fill
      refine ⟨sameCash.trans ?_, samePositions.trans ?_⟩
      · simp only [settle, cash]
        rfl
      · simp only [settle, positions]
        rfl
  | orderCancelled cancelled =>
      obtain ⟨sameCash, samePositions⟩ := sameFunds_releaseRemainingWith clamped
        { risk with lastSeq := streamId.getD risk.lastSeq } cancelled.orderId
      exact ⟨sameCash.trans cash, samePositions.trans positions⟩
  | accountCreated created =>
      exact ⟨congrArg (Dict.set · created.userId created.initialCashTicks) cash, positions⟩
  | cashCredited credited =>
      exact ⟨congrArg (Dict.add · credited.userId credited.amountTicks) cash, positions⟩
  | orderRejected _ => exact ⟨cash, positions⟩
  | bookChanged _ => exact ⟨cash, positions⟩
  | replayConfigured _ => exact ⟨cash, positions⟩

theorem Settled.applyAll {ledger : Ledger} (settled : risk.Settled ledger)
    (events : List (Outbound × Option StreamId)) :
    (risk.applyAll events).Settled (ledger.applyAll events) := by
  induction events generalizing risk ledger with
  | nil => exact settled
  | cons event rest ih => exact ih (settled.apply event.1 event.2)

end RiskState

end Gateway

namespace Projections

open Matcher Gateway Fanout

/-- The consumers' knowledge of the market is the engine's, and the two that keep accounts
keep the same ones. -/
structure Agree (matcher : NaiveMatcher) (ledger : Ledger) (state : MarketState) (risk : RiskState) :
    Prop where
  ledgerOrders : ∀ orderId, (ledger.openOrders.get? orderId).map Ledger.OpenOrderRecord.shown =
    (matcher.byOrderId.get? orderId).map matcher.openOrder
  riskOrders : ∀ orderId, (risk.opened.get? orderId).map Reservation.shown =
    (matcher.byOrderId.get? orderId).map matcher.openOrder
  ownIds : (∀ orderId order, ledger.openOrders.get? orderId = some order → order.orderId = orderId) ∧
    (∀ orderId order, risk.opened.get? orderId = some order → order.orderId = some orderId) ∧
    ∀ orderId live, matcher.byOrderId.get? orderId = some live → live.orderId = orderId
  levels : ∀ symbolId side, ∃ levels,
    Ladder (onSymbol symbolId (matcher.byOrderId.values.map matcher.liveOrder)) side levels ∧
      ∀ depth, (state.book symbolId).levels (sideCode side) depth = levels.take depth
  funds : risk.settledCash = ledger.cashBalances ∧ risk.positions = ledger.positions

/-- The records of a stream with their ids, as the consumers are handed them. -/
def handed (outbound : Stream Outbound) : List (Outbound × Option StreamId) :=
  outbound.entries.map fun entry => (entry.2, some entry.1)

theorem handed_records (outbound : Stream Outbound) :
    (handed outbound).map (·.1) = outbound.records := by
  rw [handed, List.map_map]
  rfl

theorem new_replays (marketMakers : List Int) (outbound : Stream Outbound) :
    (RiskState.new marketMakers).replayFromStream outbound =
      (RiskState.new marketMakers).applyAll (handed outbound) := by
  rw [RiskState.replayFromStream, handed]
  have whole := outbound.filter_position_lt 0
  rw [List.drop_zero] at whole
  exact congrArg _ (congrArg _ whole)

/-- Once they have read everything that an engine answered, all agree with it. -/
theorem projections_agree (initialCashTicks : Int) (records : List Inbound)
    (barWidths : List BarWidth) (marketMakers : List Int) :
    ∃ matcher outputs, (NaiveMatcher.new 1 initialCashTicks).applyAll records = .ok (matcher, outputs) ∧
      ∀ outbound : Stream Outbound, outbound.records = outputs →
        Agree matcher (Ledger.new.applyAll (handed outbound))
          ((MarketState.new barWidths).applyAll (handed outbound))
          ((RiskState.new marketMakers).replayFromStream outbound) := by
  obtain ⟨matcher, finished, represents, -⟩ := NaiveMatcher.fresh_run initialCashTicks records
  refine ⟨matcher, _, finished, fun outbound published => ?_⟩
  have valid := Market.run_valid initialCashTicks Market.fresh_valid records
  obtain ⟨lawful, read⟩ := Market.run_lawful initialCashTicks Market.fresh_valid records
  rw [← published, ← handed_records] at lawful read
  have ledger := Ledger.new_follows.applyAll Exchange.Tape.blank_valid lawful
  have state := (MarketState.new_follows barWidths).applyAll Exchange.Tape.blank_valid lawful
  have risk := (RiskState.new_accounts marketMakers).replayAll rfl Exchange.Tape.blank_valid lawful
  have blank : Market.fresh.tape = .blank := rfl
  rw [blank] at read
  rw [read] at ledger state risk
  rw [new_replays]
  have opened : Lists ((RiskState.new marketMakers).applyAll (handed outbound)).opened
      Reservation.shown (Market.fresh.run initialCashTicks records).1.tape.live openOrder :=
    risk.follows.through Reservation.shown
  refine ⟨represents.shows ledger.lists, represents.shows opened, ⟨?_, ?_, represents.keyed⟩,
    fun symbolId side => ?_, ?_⟩
  · exact Ledger.new_keyed.applyAll (handed outbound)
  · intro orderId order found
    obtain ⟨live, -, rfl, rfl⟩ := risk.follows.of_get? found
    rfl
  · rw [represents.live]
    exact (state symbolId).ladder (fun order member =>
      valid.tape.wellFormed.positive order (mem_onSymbol.mp member).1) side
  · have fresh : (RiskState.new marketMakers).Settled Ledger.new := ⟨rfl, rfl⟩
    exact fresh.applyAll (handed outbound)

/-- Cut anywhere, and resumed from what was dumped at the cut, both dump the bytes they would have
dumped without it. -/
theorem checkpoints_are_invisible (barWidths : List BarWidth)
    (before after : List (Outbound × Option StreamId)) :
    (∃ loaded, Ledger.loadState (Ledger.new.applyAll before).dumpState = some loaded ∧
      (loaded.applyAll after).dumpState = (Ledger.new.applyAll (before ++ after)).dumpState) ∧
    ∃ loaded, MarketState.loadState barWidths
        ((MarketState.new barWidths).applyAll before).dumpState = some loaded ∧
      (loaded.applyAll after).dumpState =
        ((MarketState.new barWidths).applyAll (before ++ after)).dumpState :=
  ⟨Ledger.checkpoint_is_invisible before after,
    MarketState.checkpoint_is_invisible barWidths before after⟩

end Projections

end QuantArena
