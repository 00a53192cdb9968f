import QuantArena.Fanout.PrivateProperties
import QuantArena.Ledger.Checkpoint
import QuantArena.Ledger.Follows
import QuantArena.Ledger.ReadModelProperties
import QuantArena.Web.PortfolioProperties

/-! What one record does to a user's cash, positions and open orders, in the ledger and in the
messages that the user is sent for it. -/

set_option autoImplicit false

namespace QuantArena.Web

open Foundations Contracts Exchange Fanout

variable {state after : PortfolioState} {symbols : SymbolTable} {userId : Int} {ledger : Ledger}

/-! ## A fill, one party after the other -/

def party (role : Role) (fill : Contracts.Fill) : Int :=
  match role with
  | .maker => fill.makerUserId
  | .taker => fill.takerUserId

def partyOrder (role : Role) (fill : Contracts.Fill) : Int :=
  match role with
  | .maker => fill.makerOrderId
  | .taker => fill.takerOrderId

/-- What a party is told of a fill. -/
def told (symbols : SymbolTable) (fill : Contracts.Fill) (role : Role) : PrivateBody :=
  .fill (partyOrder role fill) (symbols.symbolName fill.symbolId) fill.priceTicks fill.qty
    fill.aggressorSide role

/-- The ledger after one party's side of a fill. -/
def leg (ledger : Ledger) (fill : Contracts.Fill) (role : Role) : Ledger :=
  { ledger with
    cashBalances := ledger.cashBalances.add (party role fill)
      (cashDelta role fill.priceTicks fill.qty fill.aggressorSide)
    positions := ledger.positions.add (party role fill, fill.symbolId)
      (positionDelta role fill.qty fill.aggressorSide)
    openOrders := ledger.openOrders.alter (partyOrder role fill) (·.less fill.qty) }

section Fill

variable {fill : Contracts.Fill} {role : Role} {name : Name}

theorem userBought_taker (fill : Contracts.Fill) :
    userBought .taker fill.aggressorSide = decide (fill.aggressorSide = 1) := rfl

theorem userBought_maker (fill : Contracts.Fill) :
    userBought .maker fill.aggressorSide = decide (fill.aggressorSide ≠ 1) := rfl

theorem settlement_bought (taken : fill.aggressorSide = 1) :
    Ledger.settlement fill = ⟨fill.takerUserId, fill.makerUserId,
      cashDelta .taker fill.priceTicks fill.qty fill.aggressorSide,
      cashDelta .maker fill.priceTicks fill.qty fill.aggressorSide⟩ := by
  have buys : sideCode .buy = 1 := rfl
  rw [Ledger.settlement, buys, if_pos taken, cashDelta, cashDelta, userBought_taker,
    userBought_maker, taken]
  rfl

theorem settlement_sold (given : fill.aggressorSide ≠ 1) :
    Ledger.settlement fill = ⟨fill.makerUserId, fill.takerUserId,
      cashDelta .maker fill.priceTicks fill.qty fill.aggressorSide,
      cashDelta .taker fill.priceTicks fill.qty fill.aggressorSide⟩ := by
  have buys : sideCode .buy = 1 := rfl
  rw [Ledger.settlement, buys, if_neg given, cashDelta, cashDelta, userBought_taker,
    userBought_maker, decide_eq_true given, decide_eq_false given]
  rfl

/-- The order of the two amounts makes no difference. -/
theorem get?_add_add {κ : Type} [DecidableEq κ] (dict : Dict κ Int) (first second key : κ)
    (one other : Int) : ((dict.add first one).add second other).get? key =
      ((dict.add second other).add first one).get? key := by
  simp only [Dict.get?_add, Dict.getD_add]
  by_cases atFirst : key = first
  · by_cases atSecond : key = second
    · subst atFirst
      subst atSecond
      simp only [if_true]
      congr 1
      omega
    · have apart : ¬ first = second := fun same => atSecond (atFirst.trans same)
      simp [atFirst, apart]
  · by_cases atSecond : key = second
    · have apart : ¬ second = first := fun same => atFirst (atSecond.trans same)
      simp [atSecond, apart]
    · simp [atFirst, atSecond]

theorem applyFill_cash (userId : Int) (ledger : Ledger) (fill : Contracts.Fill) :
    (ledger.applyFill fill).cashBalances.get? userId =
      (leg (leg ledger fill .maker) fill .taker).cashBalances.get? userId := by
  by_cases taken : fill.aggressorSide = 1
  · simp only [Ledger.applyFill, settlement_bought taken, leg, party]
    exact get?_add_add ..
  · simp only [Ledger.applyFill, settlement_sold taken, leg, party]

/-- The ledger books a fill as one party's side after the other's. -/
theorem applyFill_legs (userId : Int) (ledger : Ledger) (fill : Contracts.Fill) :
    SameHoldings userId (ledger.applyFill fill) (leg (leg ledger fill .maker) fill .taker) := by
  refine ⟨fun symbolId => ?_, fun _ => rfl⟩
  by_cases taken : fill.aggressorSide = 1
  · have bought : positionDelta .taker fill.qty fill.aggressorSide = fill.qty := by
      rw [positionDelta, userBought_taker, if_pos (decide_eq_true taken)]
    have sold : positionDelta .maker fill.qty fill.aggressorSide = -fill.qty := by
      rw [positionDelta, userBought_maker, if_neg (by simp [taken])]
    simp only [Ledger.getPosition, Ledger.applyFill, settlement_bought taken, leg, party, bought,
      sold, Dict.getD]
    rw [get?_add_add]
  · have bought : positionDelta .maker fill.qty fill.aggressorSide = fill.qty := by
      rw [positionDelta, userBought_maker, if_pos (decide_eq_true taken)]
    have sold : positionDelta .taker fill.qty fill.aggressorSide = -fill.qty := by
      rw [positionDelta, userBought_taker, if_neg (by simp [taken])]
    simp only [Ledger.getPosition, Ledger.applyFill, settlement_sold taken, leg, party, bought, sold]

/-- A party of a fill is told what the ledger books for it. -/
theorem ShowsHoldings.leg_own (shown : ShowsHoldings symbols userId state ledger)
    (plain : PlainNames symbols) (keyed : ledger.Keyed)
    (named : symbols.symbolName fill.symbolId = some name)
    (own : party role fill = userId)
    (owner : ∀ order, ledger.openOrders.get? (partyOrder role fill) = some order →
      order.userId = party role fill)
    (exact_ : Exact state (told symbols fill role)) (atMs : Option Int) :
    ShowsHoldings symbols userId
      (reduce state (.privateMessage (parsed (told symbols fill role)) atMs))
      (leg ledger fill role) := by
  have fit : Exact { state with applied := state.applied + 1 } (.fill (partyOrder role fill)
      (some name) fill.priceTicks fill.qty fill.aggressorSide role) := by
    rw [← named]
    exact exact_
  have positions := filled_positions fit (atMs.getD 0)
  have dispatched : reduce state (.privateMessage (parsed (told symbols fill role)) atMs) =
      PortfolioState.filled { state with applied := state.applied + 1 } (atMs.getD 0)
        (partyOrder role fill) name fill.priceTicks fill.qty fill.aggressorSide role := by
    rw [exact_.parsed_eq, told, named]
    rfl
  rw [dispatched]
  refine ⟨fun symbolId => ?_, fun other qty held => ?_, fun orderId => ?_⟩
  · have before := shown.positions symbolId
    rw [positions]
    simp only [Ledger.getPosition, leg, own, Dict.getD_add, Prod.mk.injEq, true_and] at before ⊢
    cases other : symbols.symbolName symbolId with
    | none =>
        have apart : ¬ symbolId = fill.symbolId := by
          rintro rfl
          rw [named] at other
          cases other
        rw [other] at before
        simpa [apart] using before
    | some label =>
        rw [other, Option.map_some, Option.getD_some] at before
        rw [Option.map_some, Option.getD_some, heldUnder_withoutZero _ (plain.symbolName other),
          heldUnder_set]
        by_cases here : symbolId = fill.symbolId
        · have sameName : label = name := Option.some.inj ((here ▸ other).symm.trans named)
          rw [if_pos here, if_pos sameName, ← sameName, ← before, here]
          rfl
        · have apart : ¬ label = name := fun same => here (symbolName_inj other (same ▸ named))
          rw [if_neg here, if_neg apart, add_zero]
          exact before
  · rw [positions, get?_withoutZero, Option.filter_eq_some_iff, Dict.get?_set] at held
    obtain ⟨found, nonzero⟩ := held
    refine ⟨(of_decide_eq_true nonzero).1, ?_⟩
    split at found
    · rename_i same
      exact ⟨fill.symbolId, same ▸ named⟩
    · exact (shown.held other qty found).2
  · refine rested_own shown.openOrders keyed (fun order found => (owner order found).trans own) ?_
      orderId
    intro view held
    exact fit _ (by simp [involved, held])

theorem leg_other (other : party role fill ≠ userId)
    (owner : ∀ order, ledger.openOrders.get? (partyOrder role fill) = some order →
      order.userId = party role fill) : SameHoldings userId (leg ledger fill role) ledger := by
  refine ⟨fun symbolId => ?_, fun orderId => ?_⟩
  · have apart : ¬ (userId, symbolId) = (party role fill, fill.symbolId) :=
      fun same => other (congrArg Prod.fst same).symm
    simp [Ledger.getPosition, leg, Dict.getD_add, apart]
  · exact alter_foreign (fun order found same => other ((owner order found).symm.trans same)) orderId

/-- One side of a fill, whether or not the user is that party. -/
theorem ShowsHoldings.leg (shown : ShowsHoldings symbols userId state ledger)
    (plain : PlainNames symbols) (keyed : ledger.Keyed)
    (named : symbols.symbolName fill.symbolId = some name)
    (owner : ∀ order, ledger.openOrders.get? (partyOrder role fill) = some order →
      order.userId = party role fill)
    (dispatched : Dispatched state
      (bodiesFor userId [(party role fill, told symbols fill role)]) after) :
    ShowsHoldings symbols userId after (leg ledger fill role) := by
  by_cases own : party role fill = userId
  · rw [own, bodiesFor_cons_self] at dispatched
    cases dispatched with
    | cons exact_ later =>
        cases later
        exact shown.leg_own plain keyed named own owner exact_ _
  · rw [bodiesFor_cons_of_ne own] at dispatched
    cases dispatched
    exact shown.congr (leg_other own owner)

end Fill

/-! ## Owners -/

section Owner

variable {tape : Exchange.Tape} {fill : Contracts.Fill}

/-- A live order is the ledger's, under its owner. -/
theorem owner_of_live (follows : ledger.Follows tape) {live : LiveOrder}
    (member : live ∈ tape.live) {order : Ledger.OpenOrderRecord}
    (found : ledger.openOrders.get? live.id = some order) :
    order.userId = live.ticket.userId ∧ order.remainingQty = live.remaining := by
  obtain ⟨value, present, same⟩ := Mirrors.of_mem follows member
  obtain rfl := Option.some.inj (found.symm.trans present)
  exact ⟨congrArg OpenOrder.userId same, congrArg OpenOrder.remainingQty same⟩

theorem owner_of_party (follows : ledger.Follows tape) (lawful : tape.Lawful (.fill fill))
    (role : Role) {order : Ledger.OpenOrderRecord}
    (found : ledger.openOrders.get? (partyOrder role fill) = some order) :
    order.userId = party role fill := by
  obtain ⟨maker, taker, executed⟩ := lawful
  cases role with
  | maker =>
      have same : partyOrder .maker fill = maker.id := executed.makerId.symm
      exact (owner_of_live follows executed.makerLive (same ▸ found)).1.trans executed.makerUser
  | taker =>
      have same : partyOrder .taker fill = taker.id := executed.takerId.symm
      exact (owner_of_live follows executed.takerLive (same ▸ found)).1.trans executed.takerUser

end Owner

/-! ## Record by record -/

/-- The symbol that a record is about. -/
def symbolOf : Outbound → Option Int
  | .orderAccepted accepted => some accepted.symbolId
  | .orderRejected rejected => some rejected.symbolId
  | .fill fill => some fill.symbolId
  | .orderCancelled cancelled => some cancelled.symbolId
  | .bookChanged changed => some changed.symbolId
  | .accountCreated _ | .cashCredited _ | .replayConfigured _ => none

/-- A record's symbol is configured. -/
def Configured (symbols : SymbolTable) (record : Outbound) : Prop :=
  ∀ symbolId ∈ symbolOf record, (symbols.symbolName symbolId).isSome

instance (symbols : SymbolTable) (record : Outbound) : Decidable (Configured symbols record) :=
  inferInstanceAs (Decidable (∀ symbolId ∈ symbolOf record, (symbols.symbolName symbolId).isSome))

theorem Configured.named {record : Outbound} (configured : Configured symbols record) {symbolId : Int}
    (about : symbolOf record = some symbolId) : ∃ name, symbols.symbolName symbolId = some name :=
  Option.isSome_iff_exists.mp (configured symbolId about)

theorem bodiesFor_append (userId : Int) (first second : List (Int × PrivateBody)) :
    bodiesFor userId (first ++ second) = bodiesFor userId first ++ bodiesFor userId second :=
  List.filterMap_append

/-- The messages of a fill, party by party. -/
theorem bodiesFor_fill (symbols : SymbolTable) (userId : Int) (fill : Contracts.Fill) :
    bodiesFor userId (messagesFor symbols (.fill fill)) =
      bodiesFor userId [(party .maker fill, told symbols fill .maker)] ++
        bodiesFor userId [(party .taker fill, told symbols fill .taker)] :=
  bodiesFor_append userId [_] [_]

section Record

variable {tape : Exchange.Tape}

/-- What is looked up is what is added to. -/
theorem get?_add_own (balances : Dict Int Int) (key own amount : Int) :
    (balances.add key amount).get? own =
      if own = key then some ((balances.get? own).getD 0 + amount) else balances.get? own := by
  rw [Dict.get?_add]
  split
  · rename_i same
    rw [same, Dict.getD]
  · rfl

theorem foldl_one (other : Int) (body : PrivateBody) (cash : Option Int) :
    (bodiesFor userId [(other, body)]).foldl cashAfter cash =
      if userId = other then cashAfter cash body else cash := by
  by_cases own : userId = other
  · rw [← own, bodiesFor_cons_self, if_pos rfl]
    rfl
  · rw [bodiesFor_cons_of_ne (Ne.symm own), if_neg own]
    rfl

theorem mem_bodiesFor_one {other : Int} {message body : PrivateBody}
    (member : message ∈ bodiesFor userId [(other, body)]) : message = body := by
  by_cases own : other = userId
  · rw [own, bodiesFor_cons_self] at member
    exact List.mem_singleton.mp member
  · rw [bodiesFor_cons_of_ne own] at member
    cases member

theorem leg_cash (ledger : Ledger) {fill : Contracts.Fill} {name : Name} (role : Role)
    (named : symbols.symbolName fill.symbolId = some name) :
    (leg ledger fill role).cashBalances.get? userId =
      (bodiesFor userId [(party role fill, told symbols fill role)]).foldl cashAfter
        (ledger.cashBalances.get? userId) := by
  rw [foldl_one, told, named]
  exact get?_add_own ledger.cashBalances (party role fill) userId _

/-- The balance follows the messages of one record. -/
theorem record_cash (ledger : Ledger) {record : Outbound} (configured : Configured symbols record)
    (streamId : Option StreamId) :
    (ledger.apply record streamId).cashBalances.get? userId =
      (bodiesFor userId (messagesFor symbols record)).foldl cashAfter
        (ledger.cashBalances.get? userId) := by
  cases record with
  | accountCreated created =>
      rw [messagesFor, foldl_one]
      exact Dict.get?_set ..
  | cashCredited credited =>
      rw [messagesFor, foldl_one]
      exact get?_add_own ledger.cashBalances credited.userId userId credited.amountTicks
  | orderAccepted accepted =>
      rw [messagesFor, foldl_one]
      exact (ite_self _).symm
  | orderRejected rejected =>
      rw [messagesFor, foldl_one]
      exact (ite_self _).symm
  | fill fill =>
      have about : symbolOf (.fill fill) = some fill.symbolId := rfl
      obtain ⟨name, named⟩ := configured.named about
      rw [bodiesFor_fill, List.foldl_append, ← leg_cash ledger .maker named, ← leg_cash _ .taker named,
        ← applyFill_cash]
      rfl
  | orderCancelled cancelled =>
      rw [messagesFor, foldl_one]
      exact (ite_self _).symm
  | bookChanged _ => rfl
  | replayConfigured _ => rfl

theorem accepted_other {accepted : OrderAccepted} (other : accepted.userId ≠ userId)
    (fresh : ledger.openOrders.get? accepted.orderId = none) :
    SameHoldings userId (ledger.applyRecord (.orderAccepted accepted)) ledger := by
  refine ⟨fun _ => rfl, fun orderId => ?_⟩
  simp only [ownOrder, Ledger.applyRecord, Dict.get?_set]
  split
  · rename_i same
    subst same
    simp [fresh, Option.filter, Ledger.opened, other]
  · rfl

theorem cancelled_other {cancelled : OrderCancelled} (other : cancelled.userId ≠ userId)
    (owner : ∀ order, ledger.openOrders.get? cancelled.orderId = some order →
      order.userId = cancelled.userId) :
    SameHoldings userId (ledger.applyRecord (.orderCancelled cancelled)) ledger :=
  ⟨fun _ => rfl, alter_foreign fun order found same => other ((owner order found).symm.trans same)⟩

theorem ShowsHoldings.accepted (shown : ShowsHoldings symbols userId state ledger)
    {accepted : OrderAccepted} (fresh : ledger.openOrders.get? accepted.orderId = none)
    (configured : Configured symbols (.orderAccepted accepted))
    (dispatched : Dispatched state
      (bodiesFor userId (messagesFor symbols (.orderAccepted accepted))) after) :
    ShowsHoldings symbols userId after (ledger.applyRecord (.orderAccepted accepted)) := by
  obtain ⟨name, named⟩ := configured.named rfl
  by_cases own : accepted.userId = userId
  · simp only [messagesFor, named, own, bodiesFor_cons_self] at dispatched
    cases dispatched with
    | cons exact_ later =>
        cases later
        rw [exact_.parsed_eq]
        refine ⟨shown.positions, shown.held, fun orderId => ?_⟩
        have before := shown.openOrders orderId
        simp only [ownOrder, reduce, PortfolioState.receive, PortfolioState.orderAccepted,
          Ledger.applyRecord, Dict.get?_set] at before ⊢
        split
        · simp [Option.filter, Ledger.opened, own, viewed, named]
        · exact before
  · simp only [messagesFor, bodiesFor_cons_of_ne own] at dispatched
    cases dispatched
    exact shown.congr (accepted_other own fresh)

theorem ShowsHoldings.cancelled (shown : ShowsHoldings symbols userId state ledger)
    {cancelled : OrderCancelled}
    (owner : ∀ order, ledger.openOrders.get? cancelled.orderId = some order →
      order.userId = cancelled.userId ∧ order.remainingQty = cancelled.remainingQty)
    (dispatched : Dispatched state
      (bodiesFor userId (messagesFor symbols (.orderCancelled cancelled))) after) :
    ShowsHoldings symbols userId after (ledger.applyRecord (.orderCancelled cancelled)) := by
  by_cases own : cancelled.userId = userId
  · simp only [messagesFor, own, bodiesFor_cons_self] at dispatched
    cases dispatched with
    | cons exact_ later =>
        cases later
        rw [exact_.parsed_eq]
        refine ⟨shown.positions, shown.held, fun orderId => ?_⟩
        have before := shown.openOrders orderId
        -- A cancellation takes all that is left, so the ledger drops the order as the browser does.
        have gone : ∀ order, ledger.openOrders.get? cancelled.orderId = some order →
            order.less cancelled.remainingQty = none := by
          intro order found
          rw [Ledger.OpenOrderRecord.less, (owner order found).2, if_pos (by omega)]
        simp only [ownOrder, reduce, PortfolioState.receive, PortfolioState.orderCancelled,
          Ledger.applyRecord, Dict.get?_erase, Dict.get?_alter] at before ⊢
        split
        · cases found : ledger.openOrders.get? cancelled.orderId with
          | none => rfl
          | some order => simp [gone order found]
        · exact before
  · simp only [messagesFor, bodiesFor_cons_of_ne own] at dispatched
    cases dispatched
    exact shown.congr (cancelled_other own fun order found => (owner order found).1)

/-- The taker's order is still its own once the maker's side is booked. -/
theorem owner_of_taker (follows : ledger.Follows tape) {fill : Contracts.Fill}
    (lawful : tape.Lawful (.fill fill)) {order : Ledger.OpenOrderRecord}
    (found : (leg ledger fill .maker).openOrders.get? (partyOrder .taker fill) = some order) :
    order.userId = party .taker fill := by
  obtain ⟨old, present, same⟩ := Ledger.alter_less_describes found
  rw [← owner_of_party follows lawful .taker present, ← same]

theorem ShowsHoldings.filled (shown : ShowsHoldings symbols userId state ledger)
    (plain : PlainNames symbols) (keyed : ledger.Keyed) (follows : ledger.Follows tape)
    {fill : Contracts.Fill}
    (lawful : tape.Lawful (.fill fill)) (configured : Configured symbols (.fill fill))
    (dispatched : Dispatched state (bodiesFor userId (messagesFor symbols (.fill fill))) after) :
    ShowsHoldings symbols userId after (ledger.applyFill fill) := by
  obtain ⟨name, named⟩ := configured.named rfl
  rw [bodiesFor_fill] at dispatched
  obtain ⟨middle, maker, taker⟩ := dispatched.split
  have first := shown.leg plain keyed named (fun _ => owner_of_party follows lawful .maker) maker
  have keyed' : (Web.leg ledger fill .maker).Keyed := Ledger.alter_less_keyed keyed _ _
  exact (first.leg plain keyed' named (fun _ => owner_of_taker follows lawful) taker).congr
    (applyFill_legs userId ledger fill)

/-- Nothing but the cash has changed, on either side. -/
theorem ShowsHoldings.unmoved (shown : ShowsHoldings symbols userId state ledger) {next : Ledger}
    (kept : next.positions = ledger.positions ∧ next.openOrders = ledger.openOrders)
    (same : after.positions = state.positions ∧ after.openOrders = state.openOrders) :
    ShowsHoldings symbols userId after next where
  positions symbolId := by
    rw [same.1, ← shown.positions, Ledger.getPosition, Ledger.getPosition, kept.1]
  held := by
    rw [same.1]
    exact shown.held
  openOrders orderId := by rw [same.2, shown.openOrders, ownOrder, ownOrder, kept.2]

theorem apply_sameHoldings (userId : Int) (ledger : Ledger) (record : Outbound)
    (streamId : Option StreamId) :
    SameHoldings userId (ledger.apply record streamId) (ledger.applyRecord record) := by
  cases record <;> exact ⟨fun _ => rfl, fun _ => rfl⟩

/-- The messages of a record that moves only cash leave positions and orders alone. -/
theorem Dispatched.unmoved {messages : List PrivateBody} (dispatched : Dispatched state messages after)
    (quiet : ∀ message ∈ messages, ∀ (middle : PortfolioState) (atMs : Int),
      (middle.receive (parsed message) atMs).positions = middle.positions ∧
        (middle.receive (parsed message) atMs).openOrders = middle.openOrders) :
    after.positions = state.positions ∧ after.openOrders = state.openOrders := by
  induction dispatched with
  | nil => exact ⟨rfl, rfl⟩
  | cons exact_ later ih =>
      obtain ⟨positions, orders⟩ := ih fun message member => quiet message (.tail _ member)
      obtain ⟨samePositions, sameOrders⟩ := quiet _ List.mem_cons_self _ _
      exact ⟨positions.trans samePositions, orders.trans sameOrders⟩

/-- The messages of one lawful record bring the holdings to where the ledger has them. -/
theorem ShowsHoldings.record (shown : ShowsHoldings symbols userId state ledger)
    (plain : PlainNames symbols) (keyed : ledger.Keyed) (follows : ledger.Follows tape)
    (valid : tape.Valid) {record : Outbound}
    (lawful : tape.Lawful record) (configured : Configured symbols record)
    (dispatched : Dispatched state (bodiesFor userId (messagesFor symbols record)) after)
    (streamId : Option StreamId) :
    ShowsHoldings symbols userId after (ledger.apply record streamId) := by
  refine ShowsHoldings.congr ?_ (apply_sameHoldings userId ledger record streamId)
  cases record with
  | accountCreated created =>
      refine shown.unmoved ⟨rfl, rfl⟩ (dispatched.unmoved fun message member _ _ => ?_)
      rw [mem_bodiesFor_one member]
      exact ⟨rfl, rfl⟩
  | cashCredited credited =>
      refine shown.unmoved ⟨rfl, rfl⟩ (dispatched.unmoved fun message member _ _ => ?_)
      rw [mem_bodiesFor_one member]
      exact ⟨rfl, rfl⟩
  | orderAccepted accepted =>
      obtain ⟨order, -, sameId, -, -, fresh⟩ := Tape.accepted_live valid lawful
      exact shown.accepted (sameId ▸ (Mirrors.get?_eq_none follows).mpr fresh) configured dispatched
  | orderRejected rejected =>
      refine shown.unmoved ⟨rfl, rfl⟩ (dispatched.unmoved fun message member _ _ => ?_)
      rw [mem_bodiesFor_one member]
      exact ⟨rfl, rfl⟩
  | fill fill => exact shown.filled plain keyed follows lawful configured dispatched
  | orderCancelled cancelled =>
      obtain ⟨order, live, sameId, sameQty, -, sameUser, -⟩ := lawful
      refine shown.cancelled (fun record found => ?_) dispatched
      rw [← sameUser, ← sameQty]
      exact owner_of_live follows live (sameId ▸ found)
  | bookChanged _ =>
      cases dispatched
      exact shown
  | replayConfigured _ =>
      cases dispatched
      exact shown

/-- What a user is sent for a run of records. -/
def owed (symbols : SymbolTable) (userId : Int) (records : List Outbound) : List PrivateBody :=
  records.flatMap fun record => bodiesFor userId (messagesFor symbols record)

theorem ShowsHoldings.records (shown : ShowsHoldings symbols userId state ledger)
    (plain : PlainNames symbols) (keyed : ledger.Keyed) (follows : ledger.Follows tape)
    (valid : tape.Valid)
    {events : List (Outbound × Option StreamId)} (lawful : tape.LawfulAll (events.map (·.1)))
    (configured : ∀ event ∈ events, Configured symbols event.1)
    (dispatched : Dispatched state (owed symbols userId (events.map (·.1))) after) :
    ShowsHoldings symbols userId after (ledger.applyAll events) := by
  induction events generalizing state ledger tape with
  | nil =>
      cases dispatched
      exact shown
  | cons event rest ih =>
      rw [owed, List.map_cons, List.flatMap_cons] at dispatched
      obtain ⟨middle, first, later⟩ := dispatched.split
      have next := shown.record plain keyed follows valid lawful.1
        (configured event List.mem_cons_self)
        first event.2
      exact ih next (keyed.apply event.1 event.2) (follows.apply valid lawful.1 event.2)
        (valid.read lawful.1) lawful.2 (fun other member => configured other (.tail _ member)) later

theorem records_cash (ledger : Ledger) {events : List (Outbound × Option StreamId)}
    (configured : ∀ event ∈ events, Configured symbols event.1) :
    (ledger.applyAll events).cashBalances.get? userId =
      (owed symbols userId (events.map (·.1))).foldl cashAfter
        (ledger.cashBalances.get? userId) := by
  induction events generalizing ledger with
  | nil => rfl
  | cons event rest ih =>
      rw [owed, List.map_cons, List.flatMap_cons, List.foldl_append,
        ← record_cash ledger (configured event List.mem_cons_self) event.2]
      exact ih _ fun other member => configured other (.tail _ member)

/-! ## Records that do not concern the user -/

theorem other_of_bodiesFor {other : Int} {body : PrivateBody}
    (none_ : bodiesFor userId [(other, body)] = []) : other ≠ userId := by
  rintro rfl
  rw [bodiesFor_cons_self] at none_
  cases none_

theorem record_quiet (follows : ledger.Follows tape) (valid : tape.Valid) {record : Outbound}
    (lawful : tape.Lawful record) (quiet : bodiesFor userId (messagesFor symbols record) = [])
    (streamId : Option StreamId) : SameHoldings userId (ledger.apply record streamId) ledger := by
  refine (apply_sameHoldings userId ledger record streamId).trans ?_
  cases record with
  | accountCreated _ => exact ⟨fun _ => rfl, fun _ => rfl⟩
  | cashCredited _ => exact ⟨fun _ => rfl, fun _ => rfl⟩
  | orderAccepted accepted =>
      obtain ⟨order, -, sameId, -, -, fresh⟩ := Tape.accepted_live valid lawful
      exact accepted_other (other_of_bodiesFor quiet)
        (sameId ▸ (Mirrors.get?_eq_none follows).mpr fresh)
  | orderRejected _ => exact ⟨fun _ => rfl, fun _ => rfl⟩
  | fill fill =>
      rw [bodiesFor_fill, List.append_eq_nil_iff] at quiet
      have maker := leg_other (other_of_bodiesFor quiet.1) fun _ => owner_of_party follows lawful .maker
      have taker := leg_other (other_of_bodiesFor quiet.2) fun _ => owner_of_taker follows lawful
      exact (applyFill_legs userId ledger fill).trans (taker.trans maker)
  | orderCancelled cancelled =>
      obtain ⟨order, live, sameId, -, -, sameUser, -⟩ := lawful
      refine cancelled_other (other_of_bodiesFor quiet) fun record found => ?_
      rw [← sameUser]
      exact (owner_of_live follows live (sameId ▸ found)).1
  | bookChanged _ => exact ⟨fun _ => rfl, fun _ => rfl⟩
  | replayConfigured _ => exact ⟨fun _ => rfl, fun _ => rfl⟩

theorem records_quiet (follows : ledger.Follows tape) (valid : tape.Valid)
    {events : List (Outbound × Option StreamId)} (lawful : tape.LawfulAll (events.map (·.1)))
    (quiet : owed symbols userId (events.map (·.1)) = []) :
    SameHoldings userId (ledger.applyAll events) ledger := by
  induction events generalizing ledger tape with
  | nil => exact .refl userId ledger
  | cons event rest ih =>
      rw [owed, List.map_cons, List.flatMap_cons, List.append_eq_nil_iff] at quiet
      have first := record_quiet follows valid lawful.1 quiet.1 event.2
      exact (ih (follows.apply valid lawful.1 event.2) (valid.read lawful.1) lawful.2 quiet.2).trans
        first

/-! ## Symbols with a name -/

/-- The ledger holds positions and orders in symbols with a name only. -/
structure NamedOnly (symbols : SymbolTable) (ledger : Ledger) : Prop where
  positions : ∀ key qty, ledger.positions.get? key = some qty →
    (symbols.symbolName key.2).isSome
  openOrders : ∀ orderId order, ledger.openOrders.get? orderId = some order →
    (symbols.symbolName order.symbolId).isSome

theorem new_namedOnly (symbols : SymbolTable) : NamedOnly symbols .new where
  positions _ _ found := by cases found
  openOrders _ _ found := by cases found

theorem NamedOnly.apply (named : NamedOnly symbols ledger) {record : Outbound}
    (configured : Configured symbols record) (streamId : Option StreamId) :
    NamedOnly symbols (ledger.apply record streamId) := by
  have left : ∀ {orders : Dict Int Ledger.OpenOrderRecord} {altered qty : Int},
      (∀ orderId order, orders.get? orderId = some order →
        (symbols.symbolName order.symbolId).isSome) →
      ∀ orderId order, (orders.alter altered (·.less qty)).get? orderId = some order →
        (symbols.symbolName order.symbolId).isSome := by
    intro orders altered qty before orderId order found
    obtain ⟨old, present, same⟩ := Ledger.alter_less_describes found
    rw [← same]
    exact before orderId old present
  cases record with
  | orderAccepted accepted =>
      refine ⟨named.positions, fun orderId order found => ?_⟩
      simp only [Ledger.apply, Ledger.applyRecord, Dict.get?_set] at found
      split at found
      · cases found
        exact configured accepted.symbolId rfl
      · exact named.openOrders orderId order found
  | fill fill =>
      refine ⟨fun key qty found => ?_, left (left named.openOrders)⟩
      simp only [Ledger.apply, Ledger.applyRecord, Ledger.applyFill, Dict.get?_add] at found
      have here := configured fill.symbolId rfl
      split at found
      · rename_i same
        exact same ▸ here
      · split at found
        · rename_i same
          exact same ▸ here
        · exact named.positions key qty found
  | orderCancelled cancelled => exact ⟨named.positions, left named.openOrders⟩
  | accountCreated _ => exact ⟨named.positions, named.openOrders⟩
  | cashCredited _ => exact ⟨named.positions, named.openOrders⟩
  | orderRejected _ => exact ⟨named.positions, named.openOrders⟩
  | bookChanged _ => exact ⟨named.positions, named.openOrders⟩
  | replayConfigured _ => exact ⟨named.positions, named.openOrders⟩

theorem NamedOnly.applyAll (named : NamedOnly symbols ledger)
    {events : List (Outbound × Option StreamId)}
    (configured : ∀ event ∈ events, Configured symbols event.1) :
    NamedOnly symbols (ledger.applyAll events) := by
  induction events generalizing ledger with
  | nil => exact named
  | cons event rest ih =>
      exact ih (named.apply (configured event List.mem_cons_self) event.2)
        fun other member => configured other (.tail _ member)

end Record

theorem emptyPortfolio_shows {symbols : SymbolTable} (plain : PlainNames symbols) (userId : Int) :
    Shows symbols userId emptyPortfolio .new where
  cash := rfl
  positions symbolId := by
    cases named : symbols.symbolName symbolId with
    | none => rfl
    | some name =>
        rw [Option.map_some, Option.getD_some, heldUnder_of_plain (plain.symbolName named)]
        rfl
  held _ _ found := by cases found
  openOrders _ := rfl

end QuantArena.Web
