import QuantArena.Gateway.Overdraft

/-! Runs in which nobody is overdrawn: what is available stays at least nothing, no amount
that is left has to be bounded, and who has no order left has nothing reserved. -/

set_option autoImplicit false

namespace QuantArena.Gateway

open Foundations Foundations.PriceTime Contracts Exchange

/-- `_abandon`, with another bound on what it leaves. -/
def RiskState.abandonWith (bound : Int → Int) (risk : RiskState) (ref : Ref) : RiskState :=
  let reservation := risk.object ref
  let key := (reservation.userId, reservation.clientOrderId)
  let dropped :=
    if risk.pendingByClient.get? key = some ref then
      { risk with pendingByClient := risk.pendingByClient.erase key }
    else risk
  dropped.releaseWith bound reservation reservation.qty

/-- Where the reservation is still pending, enough is held to give all of it back. -/
theorem RiskState.Accounts.abandon_unclamped {risk : RiskState} {live : List LiveOrder}
    (accounts : risk.Accounts live) (priced : Priced live) {ref : Ref}
    (own : risk.pendingByClient.get? ((risk.object ref).userId, (risk.object ref).clientOrderId) =
      some ref) : risk.abandon ref = risk.abandonWith id ref := by
  have present : risk.waiting.get? ((risk.object ref).userId, (risk.object ref).clientOrderId) =
      some (risk.object ref) := by
    rw [get?_waiting, own, Option.map_some]
  have enough : (risk.object ref).cost (risk.object ref).qty ≤
      risk.held (risk.object ref).resource :=
    Reservation.towards_own (risk.object ref) ▸ accounts.pending_le_held priced present _
  unfold RiskState.abandon RiskState.abandonWith release
  simp only [own, if_true]
  refine releaseWith_eq clamped_fixes (enough.trans (le_of_eq ?_))
  cases (risk.object ref).resource <;> rfl

namespace System

variable {system : System} {initialCashTicks : Int} {marketMakers : List Int}

/-- Every order of the user has left the book again, or was given up before it was sent. -/
structure Retired (system : System) (userId : Int) : Prop where
  given : ∀ ref submission, system.submissions.get? ref = some submission → submission.Open →
    submission.order.userId ≠ userId
  accepted : ∀ reservation ∈ system.owed, reservation.userId ≠ userId
  left : ∀ order ∈ (Exchange.Tape.blank.readAll system.delivered).live, order.ticket.userId ≠ userId

/-- What the accounts of a state promise. -/
structure Solvent (system : System) (marketMakers : List Int) : Prop where
  cash : ∀ userId, Funded marketMakers userId system.delivered →
    0 ≤ system.risk.availableCash userId
  units : ∀ userId symbolId, userId ∉ marketMakers →
    0 ≤ system.risk.availablePosition userId symbolId
  retired : ∀ userId, system.Retired userId → system.risk.reserved.getD userId 0 = 0 ∧
    ∀ symbolId, system.risk.reservedQty.getD (userId, symbolId) 0 = 0

/-- The bounds of the release code change nothing in the step. -/
def Unclamped (system : System) : Action → Prop
  | .abandon ref => ∀ submission, system.submissions.get? ref = some submission →
      submission.awaiting = true → system.risk.abandon ref = system.risk.abandonWith id ref
  | .watch => ∀ entry, system.next? = some entry →
      system.risk.apply entry.2 (some entry.1) =
        RiskState.applyWith id { system.risk with lastSeq := entry.1 } entry.2
  | _ => True

/-- A resource of a user who has no order left. -/
theorem Retired.held_eq_zero {userId : Int} (retired : system.Retired userId)
    (kept : system.Kept initialCashTicks) (backed : system.Backed) {resource : Resource}
    (own : ∀ reservation : Reservation, reservation.resource = resource →
      reservation.userId = userId) : system.risk.held resource = 0 := by
  have apart : ∀ reservation : Reservation, reservation.userId ≠ userId →
      reservation.towards resource = 0 := by
    intro reservation other
    exact if_neg fun same => other (own reservation same)
  have opened : system.risk.opened.total (fun _ reservation => reservation.towards resource) = 0 := by
    refine Dict.total_eq_zero fun orderId reservation found => apart _ ?_
    obtain ⟨order, member, -, rfl⟩ := kept.accounts.follows.of_get? found
    exact retired.left order member
  have waiting : system.risk.waiting.total (fun _ reservation => reservation.towards resource) = 0 := by
    refine Dict.total_eq_zero fun key reservation found => apart _ ?_
    have sameKey := (kept.accounts.pending key reservation found).2
    have pending := found
    rw [RiskState.get?_waiting, Option.map_eq_some_iff] at pending
    obtain ⟨ref, stored, -⟩ := pending
    -- Whoever is pending has a call still to send the order, or is owed its acceptance.
    cases backed.covered key ref stored with
    | inl sending =>
        obtain ⟨submission, present, isOpen, same⟩ := sending
        have user : submission.order.userId = reservation.userId :=
          congrArg Prod.fst (same.trans sameKey.symm)
        exact user ▸ retired.given ref submission present isOpen
    | inr promised =>
        obtain ⟨other, member, same⟩ := List.mem_map.mp promised
        have user : other.userId = reservation.userId :=
          congrArg Prod.fst (same.trans sameKey.symm)
        exact user ▸ retired.accepted other member
  rw [kept.accounts.exact, RiskState.committed, opened, waiting, Int.add_zero]

theorem Covered.solvent (covered : system.Covered marketMakers)
    (kept : system.Kept initialCashTicks) (backed : system.Backed) : system.Solvent marketMakers where
  cash := covered.cash
  units := covered.units
  retired userId retired := by
    have cash : system.risk.held (.cash userId) = 0 := by
      refine retired.held_eq_zero kept backed fun reservation same => ?_
      unfold Reservation.resource at same
      split at same
      · exact Resource.cash.inj same
      · cases same
    refine ⟨cash, fun symbolId => ?_⟩
    have units : system.risk.held (.units userId symbolId) = 0 := by
      refine retired.held_eq_zero kept backed fun reservation same => ?_
      unfold Reservation.resource at same
      split at same
      · cases same
      · exact (Resource.units.inj same).1
    exact units

theorem Backed.unclamped (backed : system.Backed) (kept : system.Kept initialCashTicks)
    {action : Action} (allowed : system.Allowed action) : system.Unclamped action := by
  obtain ⟨seen, feeds⟩ := kept.feeds
  have permitted := backed.permits feeds allowed
  cases action with
  | abandon ref =>
      intro submission found awaiting
      have own := (backed.own found ⟨allowed submission found awaiting, awaiting⟩).2
      exact kept.accounts.abandon_unclamped kept.priced own
  | watch =>
      intro entry next
      have placed : RiskState.Accounts { system.risk with lastSeq := entry.1 }
          (Tape.blank.readAll system.delivered).live :=
        kept.accounts.congr rfl rfl rfl fun resource => by cases resource <;> rfl
      exact (placed.applyWith RiskState.clamped_fixes feeds.delivered_valid
        (feeds.next_lawful next) fun accepted same => permitted entry accepted next same).2
  | submit _ _ _ => trivial
  | append _ => trivial
  | finish _ => trivial
  | write _ => trivial
  | expire _ => trivial
  | answer _ => trivial

/-- In a run that gives up no order it sends, nobody is ever overdrawn, and no bound of the release
code ever changes an amount. -/
theorem nobody_overdrawn (settings : Settings) (marketMakers : List Int) (initialCashTicks : Int)
    (actions : List Action)
    (allowed : Along (step settings) Allowed (start marketMakers initialCashTicks) actions) :
    Always (step settings) (Solvent · marketMakers) (start marketMakers initialCashTicks) actions ∧
      Along (step settings) Unclamped (start marketMakers initialCashTicks) actions := by
  let invariant (system : System) : Prop :=
    system.Kept initialCashTicks ∧ system.Backed ∧ system.Covered marketMakers
  have initially : invariant (start marketMakers initialCashTicks) :=
    ⟨start_kept marketMakers initialCashTicks, start_backed marketMakers initialCashTicks,
      start_covered marketMakers initialCashTicks⟩
  have preserved : ∀ system action, invariant system → system.Allowed action →
      invariant (system.step settings action) := by
    rintro system action ⟨kept, backed, covered⟩ allowed
    obtain ⟨seen, feeds⟩ := kept.feeds
    exact ⟨kept.step settings (backed.permits feeds allowed), backed.step settings kept allowed,
      covered.step settings kept backed allowed⟩
  constructor
  · intro before after split
    obtain ⟨kept, backed, covered⟩ :=
      Always.of_along preserved initially allowed before after split
    exact covered.solvent kept backed
  · exact allowed.imp_of_invariant preserved
      (fun _ _ held allowed => held.2.1.unclamped held.1 allowed) initially

/-- A bid that rests and is cancelled. -/
theorem cancelled_bid_solvent :
    let bid : SubmitOrderRequest := ⟨1, 1, .buy, .gtc, some 100, 10, .limit, by decide, by decide,
      by decide, by decide, rfl⟩
    Always (step ⟨[1], 500, by decide⟩) (Solvent · []) (start [] 5000)
      [.write (.createAccount ⟨0, 1, 7⟩), .answer 1, .watch, .submit 7 bid 0, .append 0, .answer 2,
        .watch, .finish 0, .write (.cancelOrder ⟨0, 2, 7, 1⟩), .answer 3, .watch] := by
  intro bid
  exact (nobody_overdrawn _ _ _ _ (by decide)).1

/-- A market maker who trades before the account is created loses, with the grant, what its sale
paid, and so no longer has what its bid reserved. -/
theorem late_grant_overdraws :
    let ask : SubmitOrderRequest := ⟨1, 1, .sell, .gtc, some 100, 2, .limit, by decide, by decide,
      by decide, by decide, rfl⟩
    let bid : SubmitOrderRequest := { ask with side := .buy }
    let dear : SubmitOrderRequest := ⟨2, 1, .buy, .gtc, some 150, 1, .limit, by decide, by decide,
      by decide, by decide, rfl⟩
    let actions : List Action :=
      [.write (.createAccount ⟨0, 1, 8⟩), .write (.creditCash ⟨0, 2, 8, 900⟩), .answer 1, .answer 2,
        .watch, .watch, .submit 7 ask 0, .append 0, .answer 3, .watch, .submit 8 bid 0, .append 1,
        .answer 4, .watch, .watch, .submit 7 dear 0, .write (.createAccount ⟨0, 3, 7⟩), .answer 5,
        .watch]
    Along (step ⟨[1], 500, by decide⟩) Allowed (start [7] 100) actions ∧
      ¬ Always (step ⟨[1], 500, by decide⟩) (fun system => ∀ userId,
        Funded [] userId system.delivered → 0 ≤ system.risk.availableCash userId)
        (start [7] 100) actions := by
  refine ⟨by decide, fun always => ?_⟩
  have nonneg := always _ [] (List.append_nil _).symm 7 ⟨by decide, by decide⟩
  revert nonneg
  decide

end System

end QuantArena.Gateway
