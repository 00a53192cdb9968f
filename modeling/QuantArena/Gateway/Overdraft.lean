import QuantArena.Gateway.Pending
import QuantArena.Ledger.Conservation

/-! No participant can be overdrawn: what a user has, less what is held for the user's
orders, never falls below nothing. -/

set_option autoImplicit false

namespace QuantArena.Gateway

open Foundations Foundations.PriceTime Contracts Exchange Ledger

/-! ## Costs and fees -/

section Fees

variable {price limit qty bps : Int}

/-- A fee never exceeds what it is taken from. -/
theorem fee_le_notional (priced : 0 ≤ price) (counted : 0 ≤ qty) (rate : bps ≤ takerFeeBps) :
    price * qty * bps / bpsDenominator ≤ price * qty := by
  have notional : 0 ≤ price * qty := Int.mul_nonneg priced counted
  have scaled : price * qty * bps ≤ price * qty * bpsDenominator :=
    Int.mul_le_mul_of_nonneg_left (rate.trans (by decide)) notional
  exact Int.ediv_le_of_le_mul (by decide) scaled

/-- What a buy reserves for a quantity covers it at any better price, with either fee. -/
theorem notional_and_fee_le_buyCost (priced : 0 ≤ price) (within : price ≤ limit)
    (counted : 0 ≤ qty) (rate : 0 ≤ bps ∧ bps ≤ takerFeeBps) :
    price * qty + price * qty * bps / bpsDenominator ≤ buyCost limit qty := by
  -- The fee of one unit at the limit, rounded up.
  let perUnit := -(-limit * takerFeeBps / bpsDenominator)
  have rounded : limit * takerFeeBps ≤ perUnit * bpsDenominator := by
    simp only [perUnit, takerFeeBps, bpsDenominator]
    omega
  have notional : price * qty ≤ qty * limit := by
    rw [Int.mul_comm price qty]
    exact Int.mul_le_mul_of_nonneg_left within counted
  have nonneg : 0 ≤ price * qty := Int.mul_nonneg priced counted
  have fee : price * qty * bps / bpsDenominator ≤ qty * perUnit := by
    refine Int.ediv_le_of_le_mul (by decide) ?_
    calc price * qty * bps
        ≤ price * qty * takerFeeBps := Int.mul_le_mul_of_nonneg_left rate.2 nonneg
      _ ≤ qty * limit * takerFeeBps := Int.mul_le_mul_of_nonneg_right notional (by decide)
      _ = qty * (limit * takerFeeBps) := Int.mul_assoc ..
      _ ≤ qty * (perUnit * bpsDenominator) := Int.mul_le_mul_of_nonneg_left rounded counted
      _ = qty * perUnit * bpsDenominator := (Int.mul_assoc ..).symm
  have cost : buyCost limit qty = qty * limit + qty * perUnit := Int.mul_add ..
  rw [cost]
  exact Int.add_le_add notional fee

end Fees

/-- A fill of a buy, as the maker of the trade or as its taker. -/
structure BuyFill where
  priceTicks : Int
  qty : Int
  maker : Bool
deriving DecidableEq, Repr

/-- Notional and fee, as the settlement of the fill takes them. -/
def BuyFill.charged (fill : BuyFill) : Int :=
  let fees := calculateFees fill.priceTicks fill.qty
  fees.notional + if fill.maker then fees.makerFeeTicks else fees.takerFeeTicks

theorem BuyFill.charged_le_buyCost {fill : BuyFill} {limit : Int} (counted : 0 < fill.qty)
    (priced : 1 ≤ fill.priceTicks) (within : fill.priceTicks ≤ limit) :
    fill.charged ≤ buyCost limit fill.qty := by
  have nonneg : 0 ≤ fill.priceTicks := by omega
  have makerFee : 0 ≤ makerFeeBps ∧ makerFeeBps ≤ takerFeeBps := by decide
  have takerFee : 0 ≤ takerFeeBps ∧ takerFeeBps ≤ takerFeeBps := by decide
  unfold BuyFill.charged
  cases fill.maker with
  | true => exact notional_and_fee_le_buyCost nonneg within counted.le makerFee
  | false => exact notional_and_fee_le_buyCost nonneg within counted.le takerFee

/-- What the pieces cost at the limit is what the whole does. -/
theorem sum_buyCost (limit : Int) (fills : List BuyFill) :
    (fills.map fun fill => buyCost limit fill.qty).sum = buyCost limit (fills.map (·.qty)).sum := by
  induction fills with
  | nil => simp [buyCost]
  | cons fill rest ih =>
      rw [List.map_cons, List.sum_cons, ih, List.map_cons, List.sum_cons]
      simp only [buyCost]
      ring

/-- Releasing fill by fill takes what the pieces cost, as long as that much is held. -/
theorem RiskState.reserved_release_fills {limit : Int} (priced : 0 ≤ limit)
    {reservation : Reservation} (buys : reservation.side = sideCode .buy)
    (sameLimit : reservation.priceTicks = limit) {fills : List BuyFill}
    (counted : ∀ fill ∈ fills, 0 < fill.qty) {risk : RiskState}
    (enough : (fills.map fun fill => buyCost limit fill.qty).sum ≤
      risk.reserved.getD reservation.userId 0) :
    (fills.foldl (fun risk fill => risk.release reservation fill.qty) risk).reserved.getD
        reservation.userId 0 =
      risk.reserved.getD reservation.userId 0 -
        (fills.map fun fill => buyCost limit fill.qty).sum := by
  induction fills generalizing risk with
  | nil => simp
  | cons fill rest ih =>
      rw [List.map_cons, List.sum_cons] at enough
      have later : ∀ other ∈ rest, 0 < other.qty :=
        fun other member => counted other (List.mem_cons_of_mem _ member)
      have others : 0 ≤ (rest.map fun fill => buyCost limit fill.qty).sum := by
        refine List.sum_nonneg fun cost member => ?_
        obtain ⟨other, inside, rfl⟩ := List.mem_map.mp member
        exact buyCost_nonneg priced (later other inside).le
      have released : (risk.release reservation fill.qty).reserved.getD reservation.userId 0 =
          risk.reserved.getD reservation.userId 0 - buyCost limit fill.qty := by
        simp only [release, releaseWith, buys, if_true, sameLimit, Dict.getD_set_self]
        exact max_eq_right (by omega)
      rw [List.foldl_cons, ih later (by omega), released, List.map_cons, List.sum_cons]
      omega

/-- However a buy is split into fills, what it reserves covers all that they charge, and their
releases give back exactly what was reserved. -/
theorem reservation_covers_fills (limit quantity : Int) (fills : List BuyFill) (priced : 1 ≤ limit)
    (within : ∀ fill ∈ fills, 0 < fill.qty ∧ 1 ≤ fill.priceTicks ∧ fill.priceTicks ≤ limit)
    (whole : (fills.map (·.qty)).sum = quantity) :
    (fills.map BuyFill.charged).sum ≤ buyCost limit quantity ∧
      (fills.map fun fill => buyCost limit fill.qty).sum = buyCost limit quantity ∧
      ∀ (risk next : RiskState) (userId clientOrderId symbolId : Int),
        0 ≤ risk.reserved.getD userId 0 →
        risk.reserve userId clientOrderId symbolId (sideCode .buy) limit quantity = .ok next →
        (fills.foldl (fun risk fill => risk.release ⟨userId, none, clientOrderId, symbolId,
          sideCode .buy, limit, quantity⟩ fill.qty) next).reserved.getD userId 0 =
            risk.reserved.getD userId 0 := by
  have pieces := sum_buyCost limit fills
  rw [whole] at pieces
  refine ⟨?_, pieces, ?_⟩
  · rw [← pieces]
    refine List.sum_le_sum fun fill member => ?_
    obtain ⟨counted, least, most⟩ := within fill member
    exact BuyFill.charged_le_buyCost counted least most
  · intro risk next userId clientOrderId symbolId nonneg reserved
    have held := RiskState.held_reserve reserved (.cash userId)
    have own : Reservation.towards (.cash userId) ⟨userId, none, clientOrderId, symbolId,
        sideCode .buy, limit, quantity⟩ = buyCost limit quantity := by
      simp [Reservation.towards, Reservation.resource, Reservation.cost]
    rw [own] at held
    simp only [RiskState.held] at held
    have released := @RiskState.reserved_release_fills limit (by omega) ⟨userId, none,
      clientOrderId, symbolId, sideCode .buy, limit, quantity⟩ rfl rfl fills
      (fun fill member => (within fill member).1) next (by dsimp only; omega)
    dsimp only at released
    omega

/-- Three pieces of ten, at a price of their own each. -/
theorem three_fills_covered :
    ([⟨7, 2, true⟩, ⟨10, 5, false⟩, ⟨9, 3, true⟩].map BuyFill.charged).sum ≤ buyCost 10 10 :=
  (reservation_covers_fills 10 10 [⟨7, 2, true⟩, ⟨10, 5, false⟩, ⟨9, 3, true⟩] (by decide)
    (by decide) (by decide)).1

namespace RiskState

/-- What a new order may still commit of a resource. -/
def spare (risk : RiskState) (resource : Resource) : Int :=
  risk.settled resource - risk.held resource

/-- What a settlement adds to what there is of a resource. -/
def paid (fill : Fill) : Resource → Int
  | .cash userId =>
      (if (settlement fill).buyerId = userId then (settlement fill).buyerCashDelta else 0) +
        if (settlement fill).sellerId = userId then (settlement fill).sellerCashDelta else 0
  | .units userId symbolId =>
      (if ((settlement fill).buyerId, fill.symbolId) = (userId, symbolId) then fill.qty else 0) -
        if ((settlement fill).sellerId, fill.symbolId) = (userId, symbolId) then fill.qty else 0

variable {risk : RiskState}

theorem settled_fill (bound : Int → Int) (risk : RiskState) (fill : Fill) (resource : Resource) :
    (risk.applyWith bound (.fill fill)).settled resource =
      risk.settled resource + paid fill resource := by
  have same : (risk.applyWith bound (.fill fill)).settled resource =
      (risk.settle fill).settled resource := by
    simp only [applyWith, settled_releaseFillWith]
  rw [same]
  cases resource with
  | cash userId =>
      simp only [settle, settled, paid, Dict.getD_add, eq_comm]
      omega
  | units userId symbolId =>
      simp only [settle, settled, paid, Dict.getD_add, eq_comm]
      split <;> split <;> omega

/-- What an order gives back for a quantity that is filled. -/
def givenBack (order : LiveOrder) (qty : Int) (resource : Resource) : Int :=
  if (reservationOf order).resource = resource then (reservationOf order).cost qty else 0

theorem givenBack_buy {order : LiveOrder} (buys : order.side = .buy) (qty : Int)
    (resource : Resource) : givenBack order qty resource =
      if Resource.cash order.ticket.userId = resource then buyCost order.price qty else 0 := by
  simp [givenBack, Reservation.resource, Reservation.cost, reservationOf, buys]

theorem givenBack_sell {order : LiveOrder} (sells : order.side = .sell) (qty : Int)
    (resource : Resource) : givenBack order qty resource =
      if Resource.units order.ticket.userId order.ticket.symbolId = resource then qty else 0 := by
  simp [givenBack, Reservation.resource, Reservation.cost, reservationOf, sells, sideCode]

/-- A settlement takes no more than the two orders give back. -/
theorem covered_by_orders {fill : Fill} {buy sell : LiveOrder} (buys : buy.side = .buy)
    (sells : sell.side = .sell) (buyer : (settlement fill).buyerId = buy.ticket.userId)
    (seller : (settlement fill).sellerId = sell.ticket.userId)
    (symbol : sell.ticket.symbolId = fill.symbolId) (counted : 0 ≤ fill.qty)
    (pays : 0 ≤ (settlement fill).buyerCashDelta + buyCost buy.price fill.qty)
    (earns : 0 ≤ (settlement fill).sellerCashDelta) (resource : Resource) :
    0 ≤ paid fill resource + (givenBack buy fill.qty resource + givenBack sell fill.qty resource) := by
  rw [givenBack_buy buys, givenBack_sell sells]
  cases resource with
  | cash userId =>
      simp only [paid, buyer, seller, Resource.cash.injEq, reduceCtorEq, if_false]
      split <;> split <;> omega
  | units userId symbolId =>
      simp only [paid, buyer, seller, Resource.units.injEq, reduceCtorEq, if_false, symbol,
        Prod.mk.injEq]
      split <;> split <;> omega

/-- A fill takes nothing of what is spare. -/
theorem spare_fill {tape : Exchange.Tape} (accounts : risk.Accounts tape.live)
    (valid : tape.Valid) {fill : Fill} {maker taker : LiveOrder}
    (executed : tape.Executed fill maker taker) (resource : Resource) :
    risk.spare resource ≤ (risk.applyWith clamped (.fill fill)).spare resource := by
  obtain ⟨-, held, -⟩ := accounts.fill clamped_fixes valid executed
  have makerCounted := valid.wellFormed.positive maker executed.makerLive
  have takerCounted := valid.wellFormed.positive taker executed.takerLive
  have counted : 0 ≤ fill.qty := executed.quantity ▸ le_min takerCounted.le makerCounted.le
  obtain ⟨opposite, better⟩ := best_crosses executed.chosen
  have nonneg : 0 ≤ fill.priceTicks := executed.price ▸ (valid.priced maker executed.makerLive).le
  have makerFee : 0 ≤ makerFeeBps ∧ makerFeeBps ≤ takerFeeBps := by decide
  have takerFee : 0 ≤ takerFeeBps ∧ takerFeeBps ≤ takerFeeBps := by decide
  have covered : 0 ≤ paid fill resource +
      (givenBack maker fill.qty resource + givenBack taker fill.qty resource) := by
    cases side : taker.side with
    | buy =>
        rw [side] at opposite better
        have within : fill.priceTicks ≤ taker.price := executed.price ▸ better
        have settles : settlement fill = ⟨fill.takerUserId, fill.makerUserId,
            -(fill.priceTicks * fill.qty +
              fill.priceTicks * fill.qty * takerFeeBps / bpsDenominator),
            fill.priceTicks * fill.qty -
              fill.priceTicks * fill.qty * makerFeeBps / bpsDenominator⟩ := by
          rw [settlement, executed.aggressor, side, if_pos rfl]
          rfl
        have pays := notional_and_fee_le_buyCost nonneg within counted takerFee
        have earns := fee_le_notional nonneg counted makerFee.2
        rw [Int.add_comm (givenBack maker fill.qty resource)]
        refine covered_by_orders side opposite ?_ ?_ executed.makerSymbol counted ?_ ?_ resource
        · rw [settles, executed.takerUser]
        · rw [settles, executed.makerUser]
        · rw [settles]
          dsimp only
          omega
        · rw [settles]
          exact Int.sub_nonneg_of_le earns
    | sell =>
        rw [side] at opposite
        have settles : settlement fill = ⟨fill.makerUserId, fill.takerUserId,
            -(fill.priceTicks * fill.qty +
              fill.priceTicks * fill.qty * makerFeeBps / bpsDenominator),
            fill.priceTicks * fill.qty -
              fill.priceTicks * fill.qty * takerFeeBps / bpsDenominator⟩ := by
          rw [settlement, executed.aggressor, side, if_neg (by decide)]
          rfl
        have pays := notional_and_fee_le_buyCost nonneg executed.price.le counted makerFee
        have earns := fee_le_notional nonneg counted takerFee.2
        refine covered_by_orders opposite side ?_ ?_ executed.takerSymbol counted ?_ ?_ resource
        · rw [settles, executed.makerUser]
        · rw [settles, executed.takerUser]
        · rw [settles]
          dsimp only
          omega
        · rw [settles]
          exact Int.sub_nonneg_of_le earns
  rw [spare, spare, settled_fill, held]
  simp only [givenBack] at covered
  omega

/-- Resources that the pre-trade check guards: all but the units of market makers. -/
def Guarded (marketMakers : List Int) : Resource → Prop
  | .cash _ => True
  | .units userId _ => userId ∉ marketMakers

theorem spare_reserve {next : RiskState} {userId clientOrderId symbolId side priceTicks qty : Int}
    (reserved : risk.reserve userId clientOrderId symbolId side priceTicks qty = .ok next)
    {resource : Resource} (guarded : Guarded risk.marketMakers resource)
    (spare : 0 ≤ risk.spare resource) : 0 ≤ next.spare resource := by
  obtain ⟨passed, -⟩ := reserve_eq_ok reserved
  rw [RiskState.spare] at spare
  rw [RiskState.spare, settled_reserve reserved, held_reserve reserved]
  unfold rejectReasonFor at passed
  unfold Reservation.towards Reservation.resource Reservation.cost
  by_cases buys : side = sideCode .buy
  · simp only [buys, if_true] at passed ⊢
    split
    · rename_i same
      subst same
      split at passed
      · cases passed
      · rename_i enough
        simp only [settled, held, availableCash] at *
        omega
    · omega
  · simp only [buys, if_false] at passed ⊢
    split
    · rename_i same
      subst same
      have trader : risk.isMarketMaker userId = false := decide_eq_false guarded
      rw [trader] at passed
      simp only [Bool.false_eq_true, if_false] at passed
      split at passed
      · cases passed
      · rename_i enough
        simp only [settled, held, availablePosition] at *
        omega
    · omega

theorem spare_abandon {live : List LiveOrder} (accounts : risk.Accounts live) (priced : Priced live)
    {ref : Ref} (own : risk.pendingByClient.get? ((risk.object ref).userId,
      (risk.object ref).clientOrderId) = some ref) (resource : Resource) :
    risk.spare resource ≤ (risk.abandon ref).spare resource := by
  obtain ⟨-, -, held⟩ := accounts.abandon priced own
  have present : risk.waiting.get? ((risk.object ref).userId, (risk.object ref).clientOrderId) =
      some (risk.object ref) := by
    rw [get?_waiting, own, Option.map_some]
  have nonneg := (accounts.pending _ _ present).1.towards_nonneg resource
  rw [spare, spare, settled_abandon, held]
  omega

/-- What a record itself pays in. -/
def paidIn (userId : Int) : Outbound → Int
  | .accountCreated created => if created.userId = userId then created.initialCashTicks else 0
  | .cashCredited credited => if credited.userId = userId then credited.amountTicks else 0
  | _ => 0

/-- No record but the creation of an account takes of what is spare. -/
theorem spare_apply {tape : Exchange.Tape} (accounts : risk.Accounts tape.live)
    (valid : tape.Valid) {record : Outbound} (lawful : tape.Lawful record)
    (matching : ∀ accepted, record = .orderAccepted accepted →
      risk.waiting.get? (accepted.userId, accepted.clientOrderId) =
        some { replayed accepted with orderId := none })
    {resource : Resource} (kept : ∀ created, record = .accountCreated created →
      resource ≠ .cash created.userId)
    (paid : ∀ userId, resource = .cash userId → 0 ≤ paidIn userId record)
    (streamId : Option StreamId) :
    risk.spare resource ≤ (risk.apply record streamId).spare resource := by
  rw [RiskState.apply]
  have placed : RiskState.Accounts { risk with lastSeq := streamId.getD risk.lastSeq } tape.live :=
    accounts.congr rfl rfl rfl fun resource => by cases resource <;> rfl
  have same : RiskState.spare { risk with lastSeq := streamId.getD risk.lastSeq } resource =
      risk.spare resource := by cases resource <;> rfl
  rw [← same]
  cases record with
  | orderAccepted accepted =>
      obtain ⟨-, -, -, held⟩ := placed.sound.adopt_pending (matching accepted rfl)
      refine le_of_eq ?_
      rw [spare, spare]
      exact congrArg₂ (· - ·) (settled_adopt _ accepted resource).symm (held resource).symm
  | fill fill =>
      obtain ⟨maker, taker, executed⟩ := lawful
      exact spare_fill placed valid executed resource
  | orderCancelled cancelled =>
      obtain ⟨order, member, sameId, -⟩ := lawful
      have priced := Priced.of_valid valid
      obtain ⟨-, held, -⟩ := placed.releaseRemaining clamped_fixes priced member
      rw [sameId] at held
      have part := (placed.opened_positive priced (placed.opened_of_mem member)).towards_nonneg
        resource
      simp only [applyWith]
      rw [spare, spare, settled_releaseRemainingWith, held]
      omega
  | accountCreated created =>
      cases resource with
      | cash userId =>
          have other : userId ≠ created.userId := fun same => kept created rfl (same ▸ rfl)
          simp only [applyWith, spare, settled, held, Dict.getD_set, other, if_false, le_refl]
      | units userId symbolId => exact le_rfl
  | cashCredited credited =>
      cases resource with
      | cash userId =>
          have deposit := paid userId rfl
          simp only [paidIn, eq_comm] at deposit
          simp only [applyWith, spare, settled, held, Dict.getD_add]
          split <;> simp_all
      | units userId symbolId => exact le_rfl
  | orderRejected _ => exact le_rfl
  | bookChanged _ => exact le_rfl
  | replayConfigured _ => exact le_rfl

/-- Who has no part in a fill is paid nothing by it. -/
theorem paid_others {fill : Fill} {userId : Int} (maker : fill.makerUserId ≠ userId)
    (taker : fill.takerUserId ≠ userId) :
    paid fill (.cash userId) = 0 ∧ ∀ symbolId, paid fill (.units userId symbolId) = 0 := by
  rcases settlement_parties fill with ⟨buyer, seller⟩ | ⟨buyer, seller⟩ <;>
    simp [paid, buyer, seller, maker, taker]

/-- A user with nothing at all has no order to trade. -/
theorem none_live {live : List LiveOrder} (accounts : risk.Accounts live) (priced : Priced live)
    {userId : Int} (cash : risk.settled (.cash userId) = 0 ∧ 0 ≤ risk.spare (.cash userId))
    (units : ∀ symbolId, risk.settled (.units userId symbolId) = 0 ∧
      0 ≤ risk.spare (.units userId symbolId)) :
    ∀ order ∈ live, order.ticket.userId ≠ userId := by
  rintro order member rfl
  have positive := accounts.opened_positive priced (accounts.opened_of_mem member)
  have committed := accounts.towards_le_held priced member (reservationOf order).resource
  rw [Reservation.towards_own] at committed
  have sane : (reservationOf order).Sane := ⟨positive.qty.le, fun _ => positive.price⟩
  have cost := cost_pos sane positive.qty
  have nothing : risk.held (reservationOf order).resource ≤ 0 := by
    unfold Reservation.resource
    split
    · obtain ⟨settled, spare⟩ := cash
      rw [RiskState.spare, settled] at spare
      exact Int.sub_nonneg.mp spare
    · obtain ⟨settled, spare⟩ := units order.ticket.symbolId
      rw [RiskState.spare, settled] at spare
      exact Int.sub_nonneg.mp spare
  omega

end RiskState

/-! ## Funding -/

/-- The records that pay a user, with the fills of a market maker's orders. -/
def concerns (marketMakers : List Int) (userId : Int) : Outbound → Bool
  | .accountCreated created => created.userId = userId
  | .cashCredited credited => credited.userId = userId
  | .fill fill => userId ∈ marketMakers ∧ (fill.makerUserId = userId ∨ fill.takerUserId = userId)
  | _ => false

def isGrant : Outbound → Bool
  | .accountCreated _ => true
  | _ => false

/-- Nothing negative is paid in, and the account is created before anything else concerns it. -/
structure Funded (marketMakers : List Int) (userId : Int) (records : List Outbound) : Prop where
  paid : ∀ record ∈ records, 0 ≤ RiskState.paidIn userId record
  first : ∀ record ∈ (records.filter (concerns marketMakers userId)).tail, isGrant record = false

section Funded

variable {marketMakers : List Int} {userId : Int} {records : List Outbound}

theorem Funded.of_append {record : Outbound}
    (funded : Funded marketMakers userId (records ++ [record])) :
    Funded marketMakers userId records ∧ 0 ≤ RiskState.paidIn userId record ∧
      (isGrant record = true → concerns marketMakers userId record = true →
        records.filter (concerns marketMakers userId) = []) := by
  obtain ⟨paid, first⟩ := funded
  rw [List.filter_append] at first
  refine ⟨⟨fun other member => paid other (List.mem_append_left _ member), ?_⟩,
    paid record (List.mem_append_right _ (List.mem_singleton_self _)), ?_⟩
  · intro other member
    refine first other ?_
    cases earlier : records.filter (concerns marketMakers userId) with
    | nil =>
        rw [earlier] at member
        cases member
    | cons head rest =>
        rw [earlier] at member
        exact List.mem_append_left _ member
  · intro grants own
    cases earlier : records.filter (concerns marketMakers userId) with
    | nil => rfl
    | cons head rest =>
        rw [earlier, List.filter_cons_of_pos own] at first
        have later := first record (List.mem_append_right _ List.mem_cons_self)
        rw [grants] at later
        cases later

theorem paidIn_unconcerned {record : Outbound}
    (unconcerned : concerns marketMakers userId record = false) :
    RiskState.paidIn userId record = 0 := by
  cases record with
  | accountCreated created => exact if_neg (of_decide_eq_false unconcerned)
  | cashCredited credited => exact if_neg (of_decide_eq_false unconcerned)
  | _ => rfl

theorem funded_of_unconcerned (unconcerned : records.filter (concerns marketMakers userId) = []) :
    Funded marketMakers userId records where
  paid record member := by
    have own := List.filter_eq_nil_iff.mp unconcerned record member
    exact (paidIn_unconcerned (Bool.eq_false_iff.mpr own)).ge
  first record member := by
    rw [unconcerned] at member
    cases member

end Funded

namespace System

variable {system : System} {initialCashTicks : Int} {marketMakers : List Int}

/-- Nobody is overdrawn, and whom nothing concerns yet has nothing. -/
structure Covered (system : System) (marketMakers : List Int) : Prop where
  makers : system.risk.marketMakers = marketMakers
  units : ∀ userId symbolId, userId ∉ marketMakers →
    0 ≤ system.risk.spare (.units userId symbolId)
  cash : ∀ userId, Funded marketMakers userId system.delivered → 0 ≤ system.risk.spare (.cash userId)
  unconcerned : ∀ userId, system.delivered.filter (concerns marketMakers userId) = [] →
    system.risk.settled (.cash userId) = 0 ∧
      (userId ∉ marketMakers → ∀ symbolId, system.risk.settled (.units userId symbolId) = 0)

theorem start_covered (marketMakers : List Int) (initialCashTicks : Int) :
    (start marketMakers initialCashTicks).Covered marketMakers where
  makers := rfl
  units _ _ _ := le_rfl
  cash _ _ := le_rfl
  unconcerned _ _ := ⟨rfl, fun _ _ => rfl⟩

/-- A step of the risk state between two records. -/
theorem Covered.aside (covered : system.Covered marketMakers) {next : System}
    (makers : next.risk.marketMakers = system.risk.marketMakers)
    (delivered : next.delivered = system.delivered)
    (settled : ∀ resource, next.risk.settled resource = system.risk.settled resource)
    (spare : ∀ resource, RiskState.Guarded marketMakers resource →
      0 ≤ system.risk.spare resource → 0 ≤ next.risk.spare resource) :
    next.Covered marketMakers where
  makers := makers.trans covered.makers
  units userId symbolId trader := spare _ trader (covered.units userId symbolId trader)
  cash userId funded := spare _ trivial (covered.cash userId (delivered ▸ funded))
  unconcerned userId none := by
    rw [settled]
    simp only [settled]
    exact covered.unconcerned userId (delivered ▸ none)

/-- What is settled for a user changes with the records that concern it, and with its fills. -/
theorem settled_unconcerned {risk : RiskState} {record : Outbound} {userId : Int}
    (unconcerned : concerns marketMakers userId record = false)
    (apart : ∀ fill, record = .fill fill → fill.makerUserId ≠ userId ∧ fill.takerUserId ≠ userId)
    (streamId : Option StreamId) :
    (risk.apply record streamId).settled (.cash userId) = risk.settled (.cash userId) ∧
      ∀ symbolId, (risk.apply record streamId).settled (.units userId symbolId) =
        risk.settled (.units userId symbolId) := by
  rw [RiskState.apply]
  cases record with
  | orderAccepted accepted =>
      exact ⟨RiskState.settled_adopt _ accepted _, fun _ => RiskState.settled_adopt _ accepted _⟩
  | fill fill =>
      obtain ⟨maker, taker⟩ := apart fill rfl
      obtain ⟨cash, units⟩ := RiskState.paid_others maker taker
      refine ⟨?_, fun symbolId => ?_⟩
      · rw [RiskState.settled_fill, cash, Int.add_zero]
        rfl
      · rw [RiskState.settled_fill, units, Int.add_zero]
        rfl
  | orderCancelled cancelled =>
      exact ⟨RiskState.settled_releaseRemainingWith clamped _ _ _,
        fun _ => RiskState.settled_releaseRemainingWith clamped _ _ _⟩
  | accountCreated created =>
      have other : userId ≠ created.userId := fun same =>
        of_decide_eq_false unconcerned same.symm
      exact ⟨by simp [RiskState.applyWith, RiskState.settled, Dict.getD_set, other], fun _ => rfl⟩
  | cashCredited credited =>
      have other : userId ≠ credited.userId := fun same =>
        of_decide_eq_false unconcerned same.symm
      exact ⟨by simp [RiskState.applyWith, RiskState.settled, Dict.getD_add, other], fun _ => rfl⟩
  | orderRejected _ => exact ⟨rfl, fun _ => rfl⟩
  | bookChanged _ => exact ⟨rfl, fun _ => rfl⟩
  | replayConfigured _ => exact ⟨rfl, fun _ => rfl⟩

/-- A fill is of orders whose users were concerned before, or are market makers. -/
theorem Covered.apart_of_unconcerned (covered : system.Covered marketMakers)
    (kept : system.Kept initialCashTicks) {userId : Int}
    (unconcerned : system.delivered.filter (concerns marketMakers userId) = []) {fill : Fill}
    (own : concerns marketMakers userId (.fill fill) = false)
    (lawful : (Exchange.Tape.blank.readAll system.delivered).Lawful (.fill fill)) :
    fill.makerUserId ≠ userId ∧ fill.takerUserId ≠ userId := by
  by_cases trader : userId ∈ marketMakers
  · have apart := of_decide_eq_false own
    simp only [trader, true_and, not_or] at apart
    exact apart
  · obtain ⟨maker, taker, executed⟩ := lawful
    obtain ⟨cash, units⟩ := covered.unconcerned userId unconcerned
    have spare := covered.cash userId (funded_of_unconcerned unconcerned)
    have nobody := RiskState.none_live kept.accounts kept.priced ⟨cash, spare⟩ fun symbolId =>
      ⟨units trader symbolId, covered.units userId symbolId trader⟩
    rw [← executed.makerUser, ← executed.takerUser]
    exact ⟨nobody maker executed.makerLive, nobody taker executed.takerLive⟩

theorem Covered.watch (covered : system.Covered marketMakers) (kept : system.Kept initialCashTicks)
    (backed : system.Backed) {entry : StreamId × Outbound} (next : system.next? = some entry) :
    Covered { system with risk := system.risk.apply entry.2 (some entry.1) } marketMakers := by
  obtain ⟨seen, feeds⟩ := kept.feeds
  obtain ⟨-, delivered⟩ := feeds.watch next
  have valid := feeds.delivered_valid
  have lawful := feeds.next_lawful next
  have matching : ∀ accepted, entry.2 = .orderAccepted accepted →
      system.risk.waiting.get? (accepted.userId, accepted.clientOrderId) =
        some { RiskState.replayed accepted with orderId := none } := by
    obtain ⟨streamId, record⟩ := entry
    rintro accepted rfl
    exact backed.matches_next feeds next
  refine ⟨(RiskState.marketMakers_apply ..).trans covered.makers, ?_, ?_, ?_⟩
  · intro userId symbolId trader
    exact (covered.units userId symbolId trader).trans (RiskState.spare_apply kept.accounts valid
      lawful matching (fun _ _ same => by cases same) (fun _ same => by cases same) _)
  · intro userId funded
    rw [delivered] at funded
    obtain ⟨before, deposit, first⟩ := funded.of_append
    have spare := covered.cash userId before
    by_cases grants : ∃ created, entry.2 = .accountCreated created ∧ created.userId = userId
    · obtain ⟨created, same, rfl⟩ := grants
      rw [same] at deposit first ⊢
      have settled := (covered.unconcerned _ (first rfl (decide_eq_true rfl))).1
      have nonneg := kept.accounts.held_nonneg kept.priced (.cash created.userId)
      simp only [RiskState.paidIn, if_true] at deposit
      rw [RiskState.spare, settled] at spare
      have granted : RiskState.spare (system.risk.apply (.accountCreated created) (some entry.1))
          (.cash created.userId) =
            created.initialCashTicks - system.risk.held (.cash created.userId) := by
        simp only [RiskState.apply, RiskState.applyWith, RiskState.spare, RiskState.settled,
          RiskState.held, Dict.getD_set_self]
      rw [granted]
      omega
    · refine spare.trans (RiskState.spare_apply kept.accounts valid lawful matching ?_ ?_ _)
      · rintro created same ⟨⟩
        exact grants ⟨created, same, rfl⟩
      · rintro other ⟨⟩
        exact deposit
  · intro userId none
    rw [delivered, List.filter_append, List.append_eq_nil_iff] at none
    obtain ⟨earlier, last⟩ := none
    have own : concerns marketMakers userId entry.2 = false :=
      Bool.eq_false_iff.mpr (List.filter_eq_nil_iff.mp last entry.2 (List.mem_singleton_self _))
    obtain ⟨cash, units⟩ := covered.unconcerned userId earlier
    obtain ⟨sameCash, sameUnits⟩ := @settled_unconcerned _ system.risk entry.2 userId own
      (fun fill same => covered.apart_of_unconcerned kept earlier (same ▸ own) (same ▸ lawful))
      (some entry.1)
    exact ⟨sameCash.trans cash, fun trader symbolId =>
      (sameUnits symbolId).trans (units trader symbolId)⟩

theorem Covered.step (settings : Settings) (covered : system.Covered marketMakers)
    (kept : system.Kept initialCashTicks) (backed : system.Backed) {action : Action}
    (allowed : system.Allowed action) : (system.step settings action).Covered marketMakers := by
  obtain ⟨seen, feeds⟩ := kept.feeds
  have moves := step_moves settings system action
  generalize system.step settings action = next at moves
  have still : ∀ {next : System}, next.risk = system.risk → next.delivered = system.delivered →
      next.Covered marketMakers := by
    intro next risk delivered
    exact covered.aside (by rw [risk]) delivered (fun _ => by rw [risk]) fun _ _ spare => by
      rw [risk]
      exact spare
  cases moves with
  | idle => exact covered
  | submit decided =>
      obtain ⟨-, -, -, -, -, -, held⟩ := SubmitOrderRequest.decide_append decided
      have place := samePlace_decide decided
      refine covered.aside place.2 ?_ (RiskState.settled_reserve held)
        fun resource guarded spare => RiskState.spare_reserve held (covered.makers ▸ guarded) spare
      rw [System.delivered, System.delivered, place.1]
  | append => exact still rfl rfl
  | finish => exact still rfl rfl
  | @abandon ref submission found awaiting =>
      have place := RiskState.samePlace_abandon system.risk ref
      have own := (backed.own found ⟨allowed _ found awaiting, awaiting⟩).2
      refine covered.aside place.2 ?_ (RiskState.settled_abandon system.risk _)
        fun resource _ spare => spare.trans
          (RiskState.spare_abandon kept.accounts kept.priced own resource)
      rw [System.delivered, System.delivered, place.1]
  | write => exact still rfl rfl
  | expire => exact still rfl rfl
  | answer now => exact still (risk_answer system now) (feeds.delivered_answer now)
  | watch next => exact covered.watch kept backed next

end System

end QuantArena.Gateway
