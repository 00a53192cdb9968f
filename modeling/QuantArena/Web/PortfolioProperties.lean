import QuantArena.Fanout.PrivateProperties
import QuantArena.Ledger.Checkpoint
import QuantArena.Ledger.Follows
import QuantArena.Ledger.ReadModelProperties
import QuantArena.Web.Portfolio

/-! The browser's portfolio shows what the ledger holds for its user, as long as its
numbers are exact. -/

set_option autoImplicit false

namespace QuantArena.Web

open Foundations Contracts Exchange Fanout

/-! ## Names -/

theorem symbolName_listed {symbols : SymbolTable} {symbolId : Int} {name : Name}
    (named : symbols.symbolName symbolId = some name) :
    ∃ symbol ∈ symbols.listed, symbol.symbolId = symbolId ∧ symbol.name = name := by
  obtain ⟨symbol, found, sameName⟩ := Option.map_eq_some_iff.mp named
  have sameId : symbol.symbolId = symbolId := by simpa using List.find?_some found
  exact ⟨symbol, List.mem_of_find?_eq_some found, sameId, sameName⟩

/-- No two symbols share a name. -/
theorem symbolName_inj {symbols : SymbolTable} {first second : Int} {name : Name}
    (left : symbols.symbolName first = some name) (right : symbols.symbolName second = some name) :
    first = second := by
  obtain ⟨one, oneListed, rfl, oneName⟩ := symbolName_listed left
  obtain ⟨other, otherListed, rfl, otherName⟩ := symbolName_listed right
  have same : one = other :=
    List.inj_on_of_nodup_map symbols.names oneListed otherListed (oneName.trans otherName.symm)
  rw [same]

/-- No symbol has the name of a member that every object has. -/
def PlainNames (symbols : SymbolTable) : Prop :=
  ∀ symbol ∈ symbols.listed, symbol.name ∉ inheritedMembers

instance (symbols : SymbolTable) : Decidable (PlainNames symbols) :=
  inferInstanceAs (Decidable (∀ symbol ∈ symbols.listed, symbol.name ∉ inheritedMembers))

theorem PlainNames.symbolName {symbols : SymbolTable} (plain : PlainNames symbols) {symbolId : Int}
    {name : Name} (named : symbols.symbolName symbolId = some name) : name ∉ inheritedMembers := by
  obtain ⟨symbol, listed, -, rfl⟩ := symbolName_listed named
  exact plain symbol listed

theorem ne_protoMember {name : Name} (plain : name ∉ inheritedMembers) : name ≠ protoMember := by
  rintro rfl
  exact plain (List.mem_append_right _ List.mem_cons_self)

/-! ## Exact arithmetic -/

/-- What a fill does to the cash of a party, in whole numbers. -/
def cashDelta (role : Role) (priceTicks qty aggressorSide : Int) : Int :=
  let notional := priceTicks * qty
  let fee := notional * feeBps role / bpsDenominator
  if userBought role aggressorSide then -(notional + fee) else notional - fee

def positionDelta (role : Role) (qty aggressorSide : Int) : Int :=
  if userBought role aggressorSide then qty else -qty

/-- The integers that a message carries or that `reduce` computes for it. -/
def involved (state : PortfolioState) : PrivateBody → List Int
  | .orderAccepted orderId clientOrderId _ priceTicks qty side tif =>
      [orderId, clientOrderId, priceTicks, qty, side, tif]
  | .orderRejected clientOrderId _ _ => [clientOrderId]
  | .fill orderId symbol priceTicks qty aggressorSide role =>
      [orderId, priceTicks, qty, aggressorSide, priceTicks * qty, priceTicks * qty * feeBps role,
        cashDelta role priceTicks qty aggressorSide,
        state.cashTicks.getD 0 + cashDelta role priceTicks qty aggressorSide] ++
      symbol.toList.flatMap (fun name => ((heldUnder state.positions name).map
        (· + positionDelta role qty aggressorSide)).toList) ++
      (state.openOrders.get? orderId).toList.map (·.remainingQty - qty)
  | .orderCancelled orderId clientOrderId _ remainingQty _ => [orderId, clientOrderId, remainingQty]
  | .accountCreated initialCashTicks => [initialCashTicks]
  | .cashCredited amountTicks => [amountTicks, state.cashTicks.getD 0 + amountTicks]

/-- A double holds every integer involved. -/
def Exact (state : PortfolioState) (message : PrivateBody) : Prop :=
  ∀ n ∈ involved state message, |n| < 2 ^ 53

instance (state : PortfolioState) (message : PrivateBody) : Decidable (Exact state message) :=
  inferInstanceAs (Decidable (∀ n ∈ involved state message, |n| < 2 ^ 53))

variable {state : PortfolioState}

theorem ofInt_of_exact {message : PrivateBody} (exact_ : Exact state message) {n : Int}
    (member : n ∈ involved state message) : Double.ofInt n = n :=
  Double.ofInt_of_small (exact_ n member)

theorem Exact.parsed_eq {message : PrivateBody} (exact_ : Exact state message) :
    parsed message = message := by
  have same : ∀ n ∈ involved state message, Double.ofInt n = n := fun _ => ofInt_of_exact exact_
  cases message with
  | _ =>
      simp only [involved, List.forall_mem_append, List.forall_mem_cons] at same
      simp only [parsed, same]

/-! ## What a fill does -/

theorem feeTicks_of_small {notional : Int} {role : Role} (small : |notional * feeBps role| < 2 ^ 53) :
    feeTicks notional (feeBps role) = notional * feeBps role / bpsDenominator := by
  rw [feeTicks, Double.ofInt_of_small small, Double.floorDiv_of_small (by decide) small]

section Fill

variable {orderId priceTicks qty aggressorSide : Int} {symbol : Name} {role : Role}
  (exact_ : Exact state (.fill orderId (some symbol) priceTicks qty aggressorSide role)) (atMs : Int)

include exact_

theorem filled_cashTicks :
    (state.filled atMs orderId symbol priceTicks qty aggressorSide role).cashTicks =
      some (state.cashTicks.getD 0 + cashDelta role priceTicks qty aggressorSide) := by
  have notional : |priceTicks * qty| < 2 ^ 53 := exact_ _ (by simp [involved])
  have charged : |priceTicks * qty * feeBps role| < 2 ^ 53 := exact_ _ (by simp [involved])
  have moved : |cashDelta role priceTicks qty aggressorSide| < 2 ^ 53 := exact_ _ (by simp [involved])
  have after : |state.cashTicks.getD 0 + cashDelta role priceTicks qty aggressorSide| < 2 ^ 53 :=
    exact_ _ (by simp [involved])
  simp only [PortfolioState.filled, Double.ofInt_of_small notional, feeTicks_of_small charged]
  unfold cashDelta at moved after ⊢
  cases bought : userBought role aggressorSide with
  | true =>
      simp only [bought, if_true, abs_neg] at moved after ⊢
      rw [Double.ofInt_of_small moved, Double.ofInt_of_small after]
  | false =>
      simp only [bought, Bool.false_eq_true, if_false] at moved after ⊢
      rw [Double.ofInt_of_small moved, Double.ofInt_of_small after]

theorem filled_positions :
    (state.filled atMs orderId symbol priceTicks qty aggressorSide role).positions =
      withoutZero (state.positions.set symbol
        ((heldUnder state.positions symbol).map (· + positionDelta role qty aggressorSide))) := by
  have same : (heldUnder state.positions symbol).map
        (fun held => Double.ofInt (held + positionDelta role qty aggressorSide)) =
      (heldUnder state.positions symbol).map (· + positionDelta role qty aggressorSide) := by
    cases held : heldUnder state.positions symbol with
    | none => rfl
    | some before =>
        have after : |before + positionDelta role qty aggressorSide| < 2 ^ 53 :=
          exact_ _ (by simp [involved, held])
        rw [Option.map_some, Double.ofInt_of_small after, Option.map_some]
  unfold positionDelta at same ⊢
  simp only [PortfolioState.filled, same]

end Fill

theorem get?_withoutZero (positions : Positions) (name : Name) :
    (withoutZero positions).get? name =
      (positions.get? name).filter fun value => value ≠ some 0 ∧ name ≠ protoMember := by
  apply Option.ext
  intro value
  rw [Option.filter_eq_some_iff, Dict.get?_eq_some_iff, Dict.get?_eq_some_iff]
  simp [withoutZero]

theorem heldUnder_of_plain {positions : Positions} {name : Name} (plain : name ∉ inheritedMembers) :
    heldUnder positions name = positions.getD name (some 0) := by
  rw [heldUnder, if_neg plain, Dict.getD]
  cases positions.get? name <;> rfl

theorem heldUnder_set (positions : Positions) (name : Name) (value : Option Int) (other : Name) :
    heldUnder (positions.set name value) other =
      if other = name then value else heldUnder positions other := by
  rw [heldUnder, Dict.get?_set]
  by_cases same : other = name
  · rw [if_pos same, if_pos same]
  · rw [if_neg same, if_neg same]
    rfl

theorem heldUnder_withoutZero (positions : Positions) {name : Name}
    (plain : name ∉ inheritedMembers) :
    heldUnder (withoutZero positions) name = heldUnder positions name := by
  rw [heldUnder_of_plain plain, heldUnder_of_plain plain, Dict.getD, Dict.getD, get?_withoutZero]
  cases positions.get? name with
  | none => rfl
  | some value => by_cases zero : value = some 0 <;> simp [Option.filter, zero, ne_protoMember plain]

/-! ## What the portfolio is to show -/

/-- An open order as the browser shows it, if its symbol has a name. -/
def viewed (symbols : SymbolTable) (order : Ledger.OpenOrderRecord) : Option OpenOrderView :=
  (symbols.symbolName order.symbolId).map fun name =>
    ⟨order.orderId, order.clientOrderId, name, order.side, order.priceTicks, order.qty,
      order.remainingQty, order.tif⟩

/-- An open order of one user. -/
def ownOrder (userId : Int) (ledger : Ledger) (orderId : Int) : Option Ledger.OpenOrderRecord :=
  (ledger.openOrders.get? orderId).filter (·.userId = userId)

/-- The browser has what the ledger holds for a user: the positions other than zero, under their
symbols' names, and the open orders. -/
structure ShowsHoldings (symbols : SymbolTable) (userId : Int) (state : PortfolioState)
    (ledger : Ledger) : Prop where
  positions : ∀ symbolId, some (ledger.getPosition userId symbolId) =
    ((symbols.symbolName symbolId).map (heldUnder state.positions)).getD (some 0)
  held : ∀ name value, state.positions.get? name = some value →
    value ≠ some 0 ∧ ∃ symbolId, symbols.symbolName symbolId = some name
  openOrders : ∀ orderId, (state.openOrders.get? orderId).map some =
    (ownOrder userId ledger orderId).map (viewed symbols)

/-- And the balance, which is unknown as long as the ledger has none. -/
structure Shows (symbols : SymbolTable) (userId : Int) (state : PortfolioState) (ledger : Ledger) :
    Prop extends ShowsHoldings symbols userId state ledger where
  cash : state.cashTicks = ledger.cashBalances.get? userId

/-- Two ledgers whose holdings are the same for one user. -/
structure SameHoldings (userId : Int) (left right : Ledger) : Prop where
  positions : ∀ symbolId, left.getPosition userId symbolId = right.getPosition userId symbolId
  openOrders : ∀ orderId, ownOrder userId left orderId = ownOrder userId right orderId

variable {symbols : SymbolTable} {userId : Int} {ledger : Ledger}

theorem SameHoldings.refl (userId : Int) (ledger : Ledger) : SameHoldings userId ledger ledger :=
  ⟨fun _ => rfl, fun _ => rfl⟩

theorem SameHoldings.symm {left right : Ledger} (same : SameHoldings userId left right) :
    SameHoldings userId right left :=
  ⟨fun symbolId => (same.positions symbolId).symm, fun orderId => (same.openOrders orderId).symm⟩

theorem SameHoldings.trans {left middle right : Ledger} (first : SameHoldings userId left middle)
    (second : SameHoldings userId middle right) : SameHoldings userId left right :=
  ⟨fun symbolId => (first.positions symbolId).trans (second.positions symbolId),
    fun orderId => (first.openOrders orderId).trans (second.openOrders orderId)⟩

theorem ShowsHoldings.congr (shown : ShowsHoldings symbols userId state ledger) {other : Ledger}
    (same : SameHoldings userId other ledger) : ShowsHoldings symbols userId state other where
  positions symbolId := by rw [same.positions, shown.positions]
  held := shown.held
  openOrders orderId := by rw [same.openOrders, shown.openOrders]

/-! ## One order loses some of its quantity -/

section Order

variable {views : Dict Int OpenOrderView} {orders : Dict Int Ledger.OpenOrderRecord}
  {orderId qty : Int}

theorem viewed_eq_some {order : Ledger.OpenOrderRecord} {view : OpenOrderView}
    (same : viewed symbols order = some view) :
    view.orderId = order.orderId ∧ view.remainingQty = order.remainingQty ∧
      ∀ remaining, viewed symbols { order with remainingQty := remaining } =
        some { view with remainingQty := remaining } := by
  obtain ⟨name, named, rfl⟩ := Option.map_eq_some_iff.mp same
  refine ⟨rfl, rfl, fun remaining => ?_⟩
  simp only [viewed, named, Option.map_some]

/-- The user's own order: both sides reduce it alike, or drop it. -/
theorem rested_own
    (shown : ∀ id, (views.get? id).map some =
      ((orders.get? id).filter (·.userId = userId)).map (viewed symbols))
    (keyed : ∀ id order, orders.get? id = some order → order.orderId = id)
    (owner : ∀ order, orders.get? orderId = some order → order.userId = userId)
    (small : ∀ view, views.get? orderId = some view → |view.remainingQty - qty| < 2 ^ 53) (id : Int) :
    ((rested views orderId qty).get? id).map some =
      (((orders.alter orderId (·.less qty)).get? id).filter (·.userId = userId)).map
        (viewed symbols) := by
  have here := shown orderId
  cases found : orders.get? orderId with
  | none =>
      rw [found] at here
      have absent : views.get? orderId = none := by simpa using here
      rw [rested, absent, Dict.get?_alter, shown]
      split
      · rename_i same
        rw [same, found]
        rfl
      · rfl
  | some order =>
      have own := owner order found
      rw [found, Option.filter_some, if_pos (decide_eq_true own), Option.map_some] at here
      obtain ⟨view, held, same⟩ := Option.map_eq_some_iff.mp here
      obtain ⟨sameId, sameQty, left⟩ := viewed_eq_some same.symm
      have key : view.orderId = orderId := sameId.trans (keyed orderId order found)
      have exact_ : Double.ofInt (order.remainingQty - qty) = order.remainingQty - qty := by
        rw [← sameQty]
        exact Double.ofInt_of_small (small view held)
      rw [rested, held, Dict.get?_alter]
      simp only [sameQty, exact_, key, Ledger.OpenOrderRecord.less]
      by_cases at_ : id = orderId
      · subst at_
        rw [if_pos rfl, found, Option.bind_some]
        by_cases remains : 0 < order.remainingQty - qty
        · rw [if_pos remains, if_neg (by omega), Dict.get?_set_self, Option.filter_some,
            if_pos (decide_eq_true own), Option.map_some, Option.map_some, left, key]
        · rw [if_neg remains, if_pos (by omega), Dict.get?_erase_self]
          rfl
      · rw [if_neg at_]
        rw [← shown]
        split
        · rw [Dict.get?_set_of_ne _ _ at_]
        · rw [Dict.get?_erase_of_ne _ at_]

/-- Another user's order is not seen. -/
theorem alter_foreign (foreign : ∀ order, orders.get? orderId = some order → order.userId ≠ userId)
    (id : Int) : ((orders.alter orderId (·.less qty)).get? id).filter (·.userId = userId) =
      (orders.get? id).filter (·.userId = userId) := by
  rw [Dict.get?_alter]
  split
  · rename_i same
    subst same
    cases found : orders.get? id with
    | none => rfl
    | some order =>
        have other := foreign order found
        have none_ : (some order).filter (fun order => decide (order.userId = userId)) = none := by
          simp [Option.filter, other]
        rw [none_, Option.bind_some]
        unfold Ledger.OpenOrderRecord.less
        split
        · rfl
        · simp [Option.filter, other]
  · rfl

end Order

/-! ## Messages, dispatched one after the other -/

/-- Each message finds its numbers exact; the times are the browser's own. -/
inductive Dispatched : PortfolioState → List PrivateBody → PortfolioState → Prop where
  | nil {state : PortfolioState} : Dispatched state [] state
  | cons {state after : PortfolioState} {message : PrivateBody} {rest : List PrivateBody}
      {atMs : Option Int} (exact_ : Exact state message)
      (later : Dispatched (reduce state (.privateMessage (parsed message) atMs)) rest after) :
      Dispatched state (message :: rest) after

theorem Dispatched.append {first second : List PrivateBody} {middle after : PortfolioState}
    (before : Dispatched state first middle) (later : Dispatched middle second after) :
    Dispatched state (first ++ second) after := by
  induction before with
  | nil => exact later
  | cons exact_ _ ih => exact .cons exact_ (ih later)

theorem Dispatched.split {first second : List PrivateBody} {after : PortfolioState}
    (whole : Dispatched state (first ++ second) after) :
    ∃ middle, Dispatched state first middle ∧ Dispatched middle second after := by
  induction first generalizing state with
  | nil => exact ⟨state, .nil, whole⟩
  | cons message rest ih =>
      cases whole with
      | cons exact_ later =>
          obtain ⟨middle, before, last⟩ := ih later
          exact ⟨middle, .cons exact_ before, last⟩

/-- A message is read, and dispatched at some time. -/
def received (clock : Nat → Option Int) (state : PortfolioState) (message : PrivateBody) :
    PortfolioState :=
  reduce state (.privateMessage (parsed message) (clock state.applied))

def receivedAll (clock : Nat → Option Int) (state : PortfolioState) (messages : List PrivateBody) :
    PortfolioState :=
  messages.foldl (received clock) state

/-- Every message finds its numbers exact. -/
def ExactAll (clock : Nat → Option Int) : PortfolioState → List PrivateBody → Prop
  | _, [] => True
  | state, message :: rest => Exact state message ∧ ExactAll clock (received clock state message) rest

instance decidableExactAll (clock : Nat → Option Int) : ∀ state messages,
    Decidable (ExactAll clock state messages)
  | _, [] => isTrue trivial
  | state, message :: rest =>
      have := decidableExactAll clock (received clock state message) rest
      inferInstanceAs (Decidable (Exact state message ∧ ExactAll clock (received clock state message) rest))

theorem dispatched_receivedAll {clock : Nat → Option Int} {messages : List PrivateBody}
    (exact_ : ExactAll clock state messages) :
    Dispatched state messages (receivedAll clock state messages) := by
  induction messages generalizing state with
  | nil => exact .nil
  | cons message rest ih => exact .cons exact_.1 (ih exact_.2)

/-! ## The cash -/

/-- The cash that a message leaves. -/
def cashAfter (cash : Option Int) : PrivateBody → Option Int
  | .accountCreated initialCashTicks => some initialCashTicks
  | .cashCredited amountTicks => some (cash.getD 0 + amountTicks)
  | .fill _ (some _) priceTicks qty aggressorSide role =>
      some (cash.getD 0 + cashDelta role priceTicks qty aggressorSide)
  | _ => cash

theorem reduce_cash {message : PrivateBody} (exact_ : Exact state message) (atMs : Option Int) :
    (reduce state (.privateMessage (parsed message) atMs)).cashTicks =
      cashAfter state.cashTicks message := by
  rw [exact_.parsed_eq]
  cases message with
  | accountCreated _ => rfl
  | cashCredited amountTicks =>
      have sum : Double.ofInt (state.cashTicks.getD 0 + amountTicks) =
          state.cashTicks.getD 0 + amountTicks := ofInt_of_exact exact_ (by simp [involved])
      simp only [reduce, PortfolioState.receive, cashAfter, sum]
  | orderAccepted _ _ symbol _ _ _ _ => cases symbol <;> rfl
  | orderRejected _ _ _ => rfl
  | fill orderId symbol priceTicks qty aggressorSide role =>
      cases symbol with
      | none => rfl
      | some name =>
          have fit : Exact { state with applied := state.applied + 1 }
              (.fill orderId (some name) priceTicks qty aggressorSide role) := exact_
          exact filled_cashTicks fit _
  | orderCancelled _ _ _ _ _ => rfl

theorem Dispatched.cash {messages : List PrivateBody} {after : PortfolioState}
    (dispatched : Dispatched state messages after) :
    after.cashTicks = messages.foldl cashAfter state.cashTicks := by
  induction dispatched with
  | nil => rfl
  | cons exact_ _ ih => rw [ih, reduce_cash exact_, List.foldl_cons]

/-- An unknown balance counts as none. -/
theorem cashAfter_getD {one other : Option Int} (same : one.getD 0 = other.getD 0)
    (messages : List PrivateBody) :
    (messages.foldl cashAfter one).getD 0 = (messages.foldl cashAfter other).getD 0 := by
  induction messages generalizing one other with
  | nil => exact same
  | cons message rest ih =>
      apply ih
      cases message with
      | accountCreated _ => rfl
      | cashCredited _ => simp [cashAfter, same]
      | orderAccepted _ _ _ _ _ _ _ => exact same
      | orderRejected _ _ _ => exact same
      | fill _ symbol _ _ _ _ => cases symbol <;> simp [cashAfter, same]
      | orderCancelled _ _ _ _ _ => exact same

end QuantArena.Web
