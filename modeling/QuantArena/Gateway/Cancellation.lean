import QuantArena.Gateway.SystemProperties

/-! Whether an owner can still cancel what rests. The engine knows an order by its user
and client order id, and it does so as long as no two live orders share one. -/

set_option autoImplicit false

namespace QuantArena

open Foundations Foundations.PriceTime Contracts Exchange

namespace Exchange.Market

/-- Every live order is the one that its key names. -/
def Names (orders : List LiveOrder) (indexed : Int × Int → Option Int) : Prop :=
  ∀ order ∈ orders, indexed (key order) = some order.id

/-- Where every order has a key of its own, freeing the keys of the orders that left takes none
from an order that stays. -/
theorem Names.freed {before after : List LiveOrder} {indexed : Int × Int → Option Int}
    (names : Names before indexed)
    (origin : ∀ kept ∈ after, ∃ old ∈ before, kept.id = old.id ∧ kept.ticket = old.ticket) :
    Names after (freed before after indexed) := by
  intro kept member
  obtain ⟨old, oldMember, sameId, sameTicket⟩ := origin kept member
  have sameKey : key kept = key old := by rw [key, key, sameTicket]
  have stays : ¬ ∃ order ∈ before, key order = key kept ∧ ∀ other ∈ after, other.id ≠ order.id := by
    rintro ⟨order, orderMember, shared, gone⟩
    have named := names order orderMember
    rw [shared, sameKey, names old oldMember] at named
    exact gone kept member (sameId.trans (Option.some.inj named))
  rw [Market.freed, if_neg stays, sameKey, sameId]
  exact names old oldMember

variable {market : Market}

/-- What is live after a submission was live before it, or is the submission. -/
theorem submit_origin (order : SubmitOrder) {kept : LiveOrder}
    (member : kept ∈ (market.submit order).1.tape.live) :
    (∃ old ∈ market.tape.live, kept.id = old.id ∧ kept.ticket = old.ticket) ∨
      ∃ side, kept.id = (market.takerOf order side).id ∧
        kept.ticket = (market.takerOf order side).ticket := by
  unfold submit at member
  cases admitted : admission order with
  | error reason =>
      rw [admitted] at member
      exact .inl ⟨kept, member, rfl, rfl⟩
  | ok choice =>
      obtain ⟨side, tif⟩ := choice
      simp only [admitted] at member
      have run := execute_executes (market.takerOf order side) (onSymbol order.symbolId market.tape.live)
      rcases List.mem_append.mp member with settled | rests
      · obtain ⟨old, oldMember, same⟩ := mem_settle_origin settled
        exact .inl ⟨old, oldMember, by rw [same], by rw [same]⟩
      · split at rests
        · obtain ⟨rfl, -⟩ := mem_standing.mp rests
          exact .inr ⟨side, by rw [run.taker_eq], by rw [run.taker_eq]⟩
        · cases rests

theorem cancel_origin (request : CancelOrder) {kept : LiveOrder}
    (member : kept ∈ (market.cancel request).1.tape.live) : kept ∈ market.tape.live := by
  unfold cancel at member
  split at member
  · exact member
  · exact List.mem_of_mem_filter member

/-- A submission under a key that no live order has. -/
theorem Names.submit (names : Names market.tape.live market.indexed) (order : SubmitOrder)
    (unshared : ∀ live ∈ market.tape.live, key live ≠ (order.userId, order.clientOrderId)) :
    Names (market.submit order).1.tape.live (market.submit order).1.indexed := by
  have origin := fun kept => @submit_origin market order kept
  unfold Market.submit at origin ⊢
  cases admitted : admission order with
  | error reason => exact names
  | ok choice =>
      obtain ⟨side, tif⟩ := choice
      simp only [admitted] at origin ⊢
      refine @Names.freed (market.tape.live ++ [market.takerOf order side]) _ _ ?_ ?_
      · intro other member
        rcases List.mem_append.mp member with old | new
        · have apart : key other ≠ key (market.takerOf order side) := unshared other old
          rw [Function.update_of_ne apart]
          exact names other old
        · rw [List.mem_singleton.mp new, Function.update_self]
      · intro kept member
        obtain ⟨old, oldMember, same⟩ | ⟨otherSide, same⟩ := origin kept member
        · exact ⟨old, List.mem_append_left _ oldMember, same⟩
        · exact ⟨market.takerOf order side, by simp, same⟩

theorem Names.cancel (names : Names market.tape.live market.indexed) (request : CancelOrder) :
    Names (market.cancel request).1.tape.live (market.cancel request).1.indexed := by
  have origin := fun kept => @cancel_origin market request kept
  unfold Market.cancel at origin ⊢
  split
  · exact names
  · rename_i order found
    simp only [found] at origin
    exact names.freed fun kept member => ⟨kept, origin kept member, rfl, rfl⟩

theorem Names.apply (names : Names market.tape.live market.indexed) (cash : Int) (record : Inbound)
    (unshared : ∀ order, record = .submitOrder order → ∀ live ∈ market.tape.live,
      key live ≠ (order.userId, order.clientOrderId)) :
    Names (market.apply cash record).1.tape.live (market.apply cash record).1.indexed := by
  cases record with
  | submitOrder order => exact names.submit order (unshared order rfl)
  | cancelOrder request => exact names.cancel request
  | createAccount _ => exact names
  | creditCash _ => exact names
  | configureReplay _ => exact names
  | other => exact names

end Exchange.Market

namespace Matcher.NaiveMatcher

/-- A cancel that its owner sends next reaches every live order, whole, and misses only when
there is none. -/
structure Cancellable (matcher : NaiveMatcher) : Prop where
  cancelled : ∀ live ∈ matcher.byOrderId.values, ∀ request : CancelOrder,
    live.name = (request.userId, request.targetClientOrderId) → ∃ after,
      matcher.apply (.cancelOrder request) = .ok (after, [.orderCancelled {
        timestampNs := request.timestampNs
        orderId := live.orderId
        clientOrderId := live.clientOrderId
        userId := live.userId
        remainingQty := matcher.remainingQty live
        symbolId := live.symbolId
        reason := .userRequested }])
  unknown : ∀ (request : CancelOrder) after (rejected : OrderRejected),
    matcher.apply (.cancelOrder request) = .ok (after, [.orderRejected rejected]) →
      rejected.reason = .unknownOrder → ∀ live ∈ matcher.byOrderId.values,
        live.name ≠ (request.userId, request.targetClientOrderId)

variable {matcher : NaiveMatcher} {market : Market}

theorem Represents.cancellable (represents : matcher.Represents market) (valid : market.Valid)
    (names : Market.Names market.tape.live market.indexed) : matcher.Cancellable := by
  have reached : ∀ live ∈ matcher.byOrderId.values, ∀ request : CancelOrder,
      live.name = (request.userId, request.targetClientOrderId) → ∃ after,
        matcher.apply (.cancelOrder request) = .ok (after, [.orderCancelled
          (Market.cancellation request.timestampNs .userRequested (matcher.liveOrder live))]) := by
    intro live member request own
    have inLive := represents.mem_live.mpr ⟨live, member, rfl⟩
    have indexed := names _ inLive
    have sameKey : key (matcher.liveOrder live) =
        (request.userId, request.targetClientOrderId) := own
    rw [sameKey] at indexed
    have named := (Market.named_eq_some valid).mpr ⟨inLive, indexed⟩
    obtain ⟨after, applied, -⟩ := apply_ok represents valid (.cancelOrder request)
    refine ⟨after, applied.trans ?_⟩
    simp only [Market.apply, Market.cancel, named]
  refine ⟨reached, ?_⟩
  intro request after rejected turned _ live member own
  obtain ⟨other, applied⟩ := reached live member request own
  rw [turned] at applied
  cases applied

end Matcher.NaiveMatcher

namespace Gateway.System

/-! ## Runs -/

/-- The key that a submission is sent under. -/
def submitKey : Inbound → Option IdempotencyKey
  | .submitOrder order => some (order.userId, order.clientOrderId)
  | _ => none

/-- No submission is answered while an order of its user rests under its client order id. -/
def Unshared (system : System) : Action → Prop
  | .answer _ => ∀ key ∈ system.inbound[system.answered]?.bind submitKey,
      ∀ live ∈ system.matcher.byOrderId.values, live.name ≠ key
  | _ => True

instance (system : System) : (action : Action) → Decidable (system.Unshared action)
  | .answer _ => inferInstanceAs (Decidable (∀ key ∈ system.inbound[system.answered]?.bind submitKey,
      ∀ live ∈ system.matcher.byOrderId.values, live.name ≠ key))
  | .submit _ _ _ => .isTrue trivial
  | .append _ => .isTrue trivial
  | .finish _ => .isTrue trivial
  | .abandon _ => .isTrue trivial
  | .write _ => .isTrue trivial
  | .expire _ => .isTrue trivial
  | .watch => .isTrue trivial

/-- The engine stands for a market whose index names every live order. -/
def Named (system : System) : Prop :=
  ∃ market : Market, market.Valid ∧ system.matcher.Represents market ∧
    Market.Names market.tape.live market.indexed

theorem start_named (marketMakers : List Int) (initialCashTicks : Int) :
    (start marketMakers initialCashTicks).Named :=
  ⟨Market.fresh, Market.fresh_valid, Matcher.NaiveMatcher.new_represents 1 initialCashTicks,
    fun order member => by cases member⟩

variable {system : System}

theorem Named.answer (named : system.Named) (now : Nat) (unshared : system.Unshared (.answer now)) :
    (system.answer now).Named := by
  obtain ⟨market, valid, represents, names⟩ := named
  unfold System.answer
  cases next : system.inbound[system.answered]? with
  | none => exact ⟨market, valid, represents, names⟩
  | some record =>
      obtain ⟨after, applied, afterRepresents, -⟩ :=
        Matcher.NaiveMatcher.apply_ok represents valid record
      simp only [applied]
      refine ⟨_, Market.apply_valid _ valid record, afterRepresents, names.apply _ record ?_⟩
      rintro order rfl live member
      obtain ⟨own, ownMember, rfl⟩ := represents.mem_live.mp member
      exact unshared (order.userId, order.clientOrderId) (by rw [next]; rfl) own ownMember

theorem Named.step (settings : Settings) (named : system.Named) {action : Action}
    (unshared : system.Unshared action) : (system.step settings action).Named := by
  have moves := step_moves settings system action
  generalize system.step settings action = next at moves
  cases moves with
  | answer now => exact named.answer now unshared
  | idle => exact named
  | submit _ => exact named
  | append _ _ _ => exact named
  | finish _ _ => exact named
  | abandon _ _ => exact named
  | write _ => exact named
  | expire _ => exact named
  | watch _ => exact named

/-- Every order that rests can be cancelled by its owner, in every state of a run that answers no
submission under the client order id of an order still resting. -/
theorem resting_orders_stay_cancellable (settings : Settings) (marketMakers : List Int)
    (initialCashTicks : Int) (actions : List Action)
    (unshared : Along (step settings) Unshared (start marketMakers initialCashTicks) actions) :
    Always (step settings) (fun system => system.matcher.Cancellable)
      (start marketMakers initialCashTicks) actions := by
  have named : Always (step settings) Named (start marketMakers initialCashTicks) actions :=
    Always.of_along (fun _ _ named allowed => named.step settings allowed)
      (start_named marketMakers initialCashTicks) unshared
  intro before after split
  obtain ⟨market, valid, represents, names⟩ := named before after split
  exact represents.cancellable valid names

/-- Two bids of one user, each under an id of its own. -/
theorem two_bids_stay_cancellable :
    let bid (clientOrderId : Int) (small : 0 ≤ clientOrderId ∧ clientOrderId < 2 ^ 64) :
        SubmitOrderRequest := ⟨clientOrderId, 1, .buy, .gtc, some 100, 10, .limit, small, by decide,
      by decide, by decide, rfl⟩
    Always (step ⟨[1], 500, by decide⟩) (fun system => system.matcher.Cancellable) (start [] 5000)
      [.write (.createAccount ⟨0, 1, 7⟩), .answer 1, .watch, .submit 7 (bid 1 (by decide)) 0,
        .append 0, .answer 2, .watch, .submit 7 (bid 2 (by decide)) 0, .append 1, .answer 3] := by
  intro bid
  exact resting_orders_stay_cancellable _ _ _ _ (by decide)

/-- Once a key has expired, its order still rests, and an order accepted under it again takes its
place in the engine's index: a cancel reaches the newer one only. -/
theorem expired_key_hides_an_order :
    let bid : SubmitOrderRequest := ⟨1, 1, .buy, .gtc, some 100, 10, .limit, by decide, by decide,
      by decide, by decide, rfl⟩
    ¬ Always (step ⟨[1], 500, by decide⟩) (fun system => system.matcher.Cancellable) (start [] 5000)
      [.write (.createAccount ⟨0, 1, 7⟩), .answer 1, .watch, .submit 7 bid 0, .append 0, .answer 2,
        .watch, .finish 0, .expire (7, 1), .submit 7 bid 0, .append 1, .answer 3] := by
  intro bid always
  have cancellable := always _ [] (List.append_nil _).symm
  generalize reached : List.foldl (step _) (start [] 5000) _ = final at cancellable
  have older : ∃ live ∈ final.matcher.byOrderId.values, live.orderId = 1 ∧ live.name = (7, 1) := by
    rw [← reached]
    decide
  have newer : (final.matcher.apply (.cancelOrder ⟨0, 2, 7, 1⟩)).toOption.map Prod.snd =
      some [.orderCancelled ⟨0, 2, 1, 7, 10, 1, .userRequested⟩] := by
    rw [← reached]
    decide
  obtain ⟨live, member, orderId, name⟩ := older
  obtain ⟨after, applied⟩ := cancellable.cancelled live member ⟨0, 2, 7, 1⟩ name
  simp [applied, Except.toOption, orderId] at newer

/-! ## Keys that last -/

/-- The keys of the submissions that wait for the engine. -/
def queued (system : System) : List IdempotencyKey :=
  (system.inbound.drop system.answered).filterMap submitKey

/-- A key expires only once no order under it rests or waits for the engine. -/
def Outlasted (system : System) : Action → Prop
  | .expire key => (∀ live ∈ system.matcher.byOrderId.values, live.name ≠ key) ∧ key ∉ system.queued
  | _ => True

/-- Every order that rests or waits still holds its key, and those that wait share theirs with none. -/
structure Claims (system : System) : Prop where
  market : ∃ market : Market, market.Valid ∧ system.matcher.Represents market
  within : system.answered ≤ system.inbound.length
  live : ∀ live ∈ system.matcher.byOrderId.values, live.name ∈ system.claimed
  apart : ∀ live ∈ system.matcher.byOrderId.values, live.name ∉ system.queued
  waiting : ∀ key ∈ system.queued, key ∈ system.claimed
  unique : system.queued.Nodup

theorem start_claims (marketMakers : List Int) (initialCashTicks : Int) :
    (start marketMakers initialCashTicks).Claims where
  market := ⟨Market.fresh, Market.fresh_valid,
    Matcher.NaiveMatcher.new_represents 1 initialCashTicks⟩
  within := le_rfl
  live _ member := by cases member
  apart _ member := by cases member
  waiting _ member := by cases member
  unique := List.nodup_nil

theorem queued_append {inbound : List Inbound} {answered : Nat} (within : answered ≤ inbound.length)
    (record : Inbound) :
    ((inbound ++ [record]).drop answered).filterMap submitKey =
      (inbound.drop answered).filterMap submitKey ++ (submitKey record).toList := by
  rw [List.drop_append_of_le_length within, List.filterMap_append]
  cases own : submitKey record <;> simp [own]

/-- The names that are live after a record were live before it, or are its own key. -/
theorem names_after {matcher after : Matcher.NaiveMatcher} {market : Market} {cash : Int}
    {record : Inbound} (represents : matcher.Represents market)
    (afterRepresents : after.Represents (market.apply cash record).1) {live : Matcher.Live}
    (member : live ∈ after.byOrderId.values) :
    (∃ old ∈ matcher.byOrderId.values, old.name = live.name) ∨ submitKey record = some live.name := by
  have inLive := afterRepresents.mem_live.mpr ⟨live, member, rfl⟩
  have origin : (∃ old ∈ market.tape.live, key old = live.name) ∨
      submitKey record = some live.name := by
    cases record with
    | submitOrder order =>
        obtain ⟨old, oldMember, -, ticket⟩ | ⟨side, -, ticket⟩ := Market.submit_origin order inLive
        · exact .inl ⟨old, oldMember, by rw [key, ← ticket]; rfl⟩
        · refine .inr (congrArg some ?_)
          exact (congrArg (fun ticket => (ticket.userId, ticket.clientOrderId)) ticket).symm
    | cancelOrder request => exact .inl ⟨_, Market.cancel_origin request inLive, rfl⟩
    | createAccount _ => exact .inl ⟨_, inLive, rfl⟩
    | creditCash _ => exact .inl ⟨_, inLive, rfl⟩
    | configureReplay _ => exact .inl ⟨_, inLive, rfl⟩
    | other => exact .inl ⟨_, inLive, rfl⟩
  rcases origin with ⟨old, oldMember, same⟩ | own
  · obtain ⟨before, beforeMember, rfl⟩ := represents.mem_live.mp oldMember
    exact .inl ⟨before, beforeMember, same⟩
  · exact .inr own

theorem Claims.answer (claims : system.Claims) (now : Nat) : (system.answer now).Claims := by
  unfold System.answer
  cases next : system.inbound[system.answered]? with
  | none => exact claims
  | some record =>
      obtain ⟨market, valid, represents⟩ := claims.market
      obtain ⟨after, applied, afterRepresents, -⟩ :=
        Matcher.NaiveMatcher.apply_ok represents valid record
      have split : system.queued = (submitKey record).toList ++
          (system.inbound.drop (system.answered + 1)).filterMap submitKey := by
        obtain ⟨within, same⟩ := List.getElem?_eq_some_iff.mp next
        rw [queued, List.drop_eq_getElem_cons within, same, List.filterMap_cons]
        cases submitKey record <;> rfl
      obtain ⟨within, -⟩ := List.getElem?_eq_some_iff.mp next
      have unique := claims.unique
      have waiting := claims.waiting
      have apart := claims.apart
      rw [split] at unique waiting apart
      simp only [applied]
      refine ⟨⟨_, Market.apply_valid _ valid record, afterRepresents⟩, within, ?_, ?_,
        fun key member => waiting key (List.mem_append_right _ member), unique.of_append_right⟩
      · intro live member
        rcases names_after represents afterRepresents member with ⟨old, oldMember, same⟩ | own
        · rw [← same]
          exact claims.live old oldMember
        · exact waiting _ (List.mem_append_left _ (Option.mem_toList.mpr own))
      · intro live member again
        rcases names_after represents afterRepresents member with ⟨old, oldMember, same⟩ | own
        · exact apart old oldMember (List.mem_append_right _ (same ▸ again))
        · exact List.disjoint_of_nodup_append unique (Option.mem_toList.mpr own) again

theorem Claims.step (settings : Settings) (claims : system.Claims) {action : Action}
    (outlasted : system.Outlasted action) : (system.step settings action).Claims := by
  have moves := step_moves settings system action
  generalize system.step settings action = next at moves
  cases moves with
  | answer now => exact claims.answer now
  | @append ref submission found waiting free =>
      have grows := queued_append claims.within (.submitOrder submission.order)
      refine ⟨claims.market, ?_, fun live member => Finset.mem_insert_of_mem (claims.live live member),
        ?_, ?_, ?_⟩
      · rw [List.length_append]
        exact Nat.le_add_right_of_le claims.within
      · intro live member again
        rw [queued, grows] at again
        rcases List.mem_append.mp again with old | own
        · exact claims.apart live member old
        · have same : live.name = submission.key := List.mem_singleton.mp own
          exact free (same ▸ claims.live live member)
      · intro key member
        rw [queued, grows] at member
        rcases List.mem_append.mp member with old | own
        · exact Finset.mem_insert_of_mem (claims.waiting key old)
        · rw [List.mem_singleton.mp own]
          exact Finset.mem_insert_self _ _
      · rw [queued, grows]
        refine List.nodup_append'.mpr ⟨claims.unique, List.nodup_singleton _, ?_⟩
        intro key old own
        have same : key = submission.key := List.mem_singleton.mp own
        exact free (same ▸ claims.waiting key old)
  | @write record foreign =>
      have keyless : submitKey record = none := by
        cases record with
        | submitOrder order => exact absurd rfl (foreign order)
        | _ => rfl
      have same : queued { system with inbound := system.inbound ++ [record] } = system.queued := by
        rw [queued, queued_append claims.within, keyless]
        exact List.append_nil _
      refine ⟨claims.market, ?_, claims.live, same ▸ claims.apart, same ▸ claims.waiting,
        same ▸ claims.unique⟩
      rw [List.length_append]
      exact Nat.le_add_right_of_le claims.within
  | expire key =>
      obtain ⟨rests, waits⟩ := outlasted
      refine ⟨claims.market, claims.within, fun live member => ?_, claims.apart,
        fun other member => ?_, claims.unique⟩
      · exact Finset.mem_erase.mpr ⟨rests live member, claims.live live member⟩
      · refine Finset.mem_erase.mpr ⟨?_, claims.waiting other member⟩
        rintro rfl
        exact waits member
  | idle => exact claims
  | submit _ => exact ⟨claims.market, claims.within, claims.live, claims.apart, claims.waiting,
      claims.unique⟩
  | finish _ _ => exact ⟨claims.market, claims.within, claims.live, claims.apart, claims.waiting,
      claims.unique⟩
  | abandon _ _ => exact ⟨claims.market, claims.within, claims.live, claims.apart, claims.waiting,
      claims.unique⟩
  | watch _ => exact ⟨claims.market, claims.within, claims.live, claims.apart, claims.waiting,
      claims.unique⟩

/-- While keys outlast the orders under them, the gateway never lets two live orders share one. -/
theorem unshared_of_outlasted (settings : Settings) (marketMakers : List Int)
    (initialCashTicks : Int) (actions : List Action)
    (outlasted : Along (step settings) Outlasted (start marketMakers initialCashTicks) actions) :
    Along (step settings) Unshared (start marketMakers initialCashTicks) actions := by
  refine outlasted.imp_of_invariant (fun _ _ claims allowed => claims.step settings allowed) ?_
    (start_claims marketMakers initialCashTicks)
  intro system action claims _
  cases action with
  | answer now =>
      intro key next live member same
      refine claims.apart live member ?_
      obtain ⟨record, found, own⟩ := Option.bind_eq_some_iff.mp next
      refine List.mem_filterMap.mpr ⟨record, ?_, same ▸ own⟩
      obtain ⟨within, rfl⟩ := List.getElem?_eq_some_iff.mp found
      rw [List.drop_eq_getElem_cons within]
      exact List.mem_cons_self
  | submit _ _ _ => trivial
  | append _ => trivial
  | finish _ => trivial
  | abandon _ => trivial
  | write _ => trivial
  | expire _ => trivial
  | watch => trivial

end Gateway.System

end QuantArena
