import QuantArena.Gateway.Restarts

/-! Restarts loosen the pre-trade check exactly where something is in flight: the orders that
the old process reserved for and that are not accepted yet. -/

set_option autoImplicit false

namespace QuantArena.Gateway

open Foundations Foundations.PriceTime Contracts Exchange

theorem Reservation.Positive.towards_own_pos {reservation : Reservation}
    (positive : reservation.Positive) : 0 < reservation.towards reservation.resource := by
  rw [RiskState.Reservation.towards_own]
  exact RiskState.cost_pos ⟨positive.qty.le, fun _ => positive.price⟩ positive.qty

namespace RiskState

theorem marketMakers_applyAll (risk : RiskState) (events : List (Outbound × Option StreamId)) :
    (risk.applyAll events).marketMakers = risk.marketMakers := by
  induction events generalizing risk with
  | nil => rfl
  | cons event rest ih => exact (ih _).trans (marketMakers_apply risk event.1 event.2)

end RiskState

namespace System

variable {system : System} {initialCashTicks : Int} {seen : Nat}

/-- The watcher once it has read everything. -/
def caughtUp (system : System) : System :=
  { system with risk := system.risk.replayFromStream system.outbound }

theorem run_watch (settings : Settings) (feeds : system.Feeds initialCashTicks seen)
    {rest : List (StreamId × Outbound)} (left : system.outbound.entries.drop seen = rest) :
    system.run settings (List.replicate rest.length .watch) =
        { system with risk := system.risk.applyAll (RiskState.stamped rest) } ∧
      (system.run settings (List.replicate rest.length .watch)).Feeds initialCashTicks
        (seen + rest.length) := by
  induction rest generalizing system seen with
  | nil => exact ⟨rfl, feeds⟩
  | cons entry rest ih =>
      have found : system.outbound.entries[seen]? = some entry := by
        rw [← Nat.add_zero seen, ← List.getElem?_drop, left]
        rfl
      have next : system.next? = some entry := feeds.next?.trans found
      obtain ⟨after, -⟩ := feeds.watch next
      have later : system.outbound.entries.drop (seen + 1) = rest := by
        rw [← List.drop_drop, left]
        rfl
      have watched : system.step settings .watch =
          { system with risk := system.risk.apply entry.2 (some entry.1) } := by
        simp only [step, watch_eq, next]
      obtain ⟨same, stands⟩ := ih after later
      rw [List.length_cons, List.replicate_succ, run, List.foldl_cons, watched, Nat.add_comm rest.length,
        ← Nat.add_assoc]
      exact ⟨same, stands⟩

theorem caughtUp_eq_run (settings : Settings) (feeds : system.Feeds initialCashTicks seen) :
    system.caughtUp = system.run settings
      (List.replicate (system.outbound.entries.drop seen).length .watch) := by
  rw [(run_watch settings feeds rfl).1, caughtUp, RiskState.replayFromStream, feeds.position,
    Stream.filter_position_lt]
  rfl

theorem Feeds.caughtUp (settings : Settings) (feeds : system.Feeds initialCashTicks seen) :
    system.caughtUp.Feeds initialCashTicks system.outbound.entries.length := by
  have stands := (run_watch settings feeds rfl).2
  rw [List.length_drop, Nat.add_sub_cancel' feeds.within, ← List.length_drop,
    ← caughtUp_eq_run settings feeds] at stands
  exact stands

/-- A replay that ends where the watcher stands has read everything. -/
theorem Feeds.replayTo_caughtUp (settings : Settings) (feeds : system.Feeds initialCashTicks seen)
    (loaded : RiskState) :
    loaded.replayTo system.outbound system.caughtUp.risk.lastSeq =
      loaded.replayFromStream system.outbound := by
  have place : system.caughtUp.risk.lastSeq =
      system.outbound.position system.outbound.entries.length := (feeds.caughtUp settings).position
  have early := (system.outbound.position_splits system.outbound.entries.length).1
  rw [List.take_length] at early
  rw [RiskState.replayTo, RiskState.replayFromStream, place]
  refine congrArg (fun entries => loaded.applyAll (RiskState.stamped entries)) ?_
  refine List.filter_congr fun entry member => ?_
  have within := early entry member
  simp [within]

theorem Feeds.owed_caughtUp (settings : Settings) (feeds : system.Feeds initialCashTicks seen) :
    system.caughtUp.owed = (system.inbound.drop system.answered).filterMap sentWith := by
  have nothing : system.caughtUp.undelivered = [] := by
    rw [(feeds.caughtUp settings).undelivered]
    exact List.drop_eq_nil_of_le (Stream.length_records _).le
  rw [owed, nothing]
  rfl

end System

namespace Deployment

variable {deployment : Deployment} {marketMakers : List Int} {initialCashTicks : Int}

/-- A checkpoint loads into any new state, which then shadows the watcher's. -/
def Loads (system : System) (raw : RiskDump) : Prop :=
  ∀ fresh : RiskState, fresh.Solid → ∃ loaded, fresh.loadState raw = some loaded ∧
    loaded.marketMakers = fresh.marketMakers ∧ system.Resumed loaded

structure Standing (deployment : Deployment) (marketMakers : List Int) (initialCashTicks : Int) :
    Prop where
  kept : deployment.system.Kept initialCashTicks
  backed : deployment.system.Backed
  covered : deployment.system.Covered marketMakers
  loads : ∀ raw ∈ deployment.saved, Loads deployment.system raw

/-- What a process dumps, a later one can load. -/
theorem loads_dump {system : System} (kept : system.Kept initialCashTicks) :
    Loads system system.risk.dumpState := by
  intro fresh solid
  obtain ⟨loaded, loads, place, makers, shadow⟩ := kept.accounts.loadState kept.priced solid
  exact ⟨loaded, loads, makers, .of_loaded place shadow⟩

theorem start_standing (marketMakers : List Int) (initialCashTicks : Int) :
    (start marketMakers initialCashTicks).Standing marketMakers initialCashTicks where
  kept := System.start_kept marketMakers initialCashTicks
  backed := System.start_backed marketMakers initialCashTicks
  covered := System.start_covered marketMakers initialCashTicks
  loads raw member := by
    rw [List.mem_singleton.mp member]
    exact loads_dump (System.start_kept marketMakers initialCashTicks)

theorem Standing.act (settings : Settings)
    (standing : deployment.Standing marketMakers initialCashTicks) {action : Action}
    (allowed : deployment.system.Allowed action) :
    Standing { deployment with system := deployment.system.step settings action } marketMakers
      initialCashTicks := by
  obtain ⟨kept, backed, covered, loads⟩ := standing
  obtain ⟨seen, feeds⟩ := kept.feeds
  refine ⟨kept.step settings (backed.permits feeds allowed), backed.step settings kept allowed,
    covered.step settings kept backed allowed, fun raw member fresh solid => ?_⟩
  obtain ⟨loaded, read, makers, resumed⟩ := loads raw member fresh solid
  exact ⟨loaded, read, makers, resumed.step settings feeds action⟩

theorem Standing.save (standing : deployment.Standing marketMakers initialCashTicks) :
    Standing { deployment with saved := deployment.saved ++ [deployment.system.risk.dumpState] }
      marketMakers initialCashTicks := by
  obtain ⟨kept, backed, covered, loads⟩ := standing
  refine ⟨kept, backed, covered, fun raw member => ?_⟩
  cases List.mem_append.mp member with
  | inl earlier => exact loads raw earlier
  | inr new =>
      rw [List.mem_singleton.mp new]
      exact loads_dump kept

/-- A watcher that reads on stands as well. -/
theorem Standing.caughtUp (settings : Settings)
    (standing : deployment.Standing marketMakers initialCashTicks) :
    Standing { deployment with system := deployment.system.caughtUp } marketMakers
      initialCashTicks := by
  obtain ⟨seen, feeds⟩ := standing.kept.feeds
  rw [System.caughtUp_eq_run settings feeds]
  generalize (deployment.system.outbound.entries.drop seen).length = count
  have preserved : ∀ (system : System) action, Standing { deployment with system := system }
      marketMakers initialCashTicks → system.Allowed action →
      Standing { deployment with system := system.step settings action } marketMakers
        initialCashTicks := fun system action standing allowed => standing.act settings allowed
  refine Along.invariant preserved standing (Along.of_forall ?_ _)
  intro action member system
  rw [List.eq_of_mem_replicate member]
  trivial

/-! ## The new process -/

/-- A new process shadows what the old one would hold where it starts to serve. -/
theorem Standing.resume (settings : Settings)
    (standing : deployment.Standing marketMakers initialCashTicks) {raw : RiskDump}
    (member : raw ∈ deployment.saved) :
    ∃ risk, deployment.resume raw = some risk ∧ risk.lastSeq = deployment.unbroken.lastSeq ∧
      risk.marketMakers = marketMakers ∧ risk.Shadow deployment.unbroken
        (Tape.blank.readAll deployment.system.caughtUp.delivered).live := by
  have solid : RiskState.Solid { RiskState.new deployment.system.risk.marketMakers with
      objects := deployment.system.risk.objects } := standing.kept.solid.congr rfl
  obtain ⟨loaded, read, makers, resumed⟩ :=
    (standing.caughtUp settings).loads raw member _ solid
  obtain ⟨seen, feeds⟩ := standing.kept.feeds
  have all : loaded.replayTo deployment.system.outbound deployment.unbroken.lastSeq =
      loaded.replayFromStream deployment.system.outbound := feeds.replayTo_caughtUp settings loaded
  refine ⟨loaded.replayFromStream deployment.system.outbound, ?_, ?_, ?_, ?_⟩
  · rw [Deployment.resume]
    simp only [read]
    rfl
  · rw [← all]
    exact resumed.reached
  · rw [RiskState.replayFromStream, RiskState.marketMakers_applyAll, makers]
    exact standing.covered.makers
  · rw [← all]
    exact resumed.shadow

/-- What the old process would still hold for is what is in flight. -/
theorem Standing.idle_iff (settings : Settings)
    (standing : deployment.Standing marketMakers initialCashTicks) :
    (∀ key, deployment.unbroken.pendingByClient.get? key = none) ↔
      (∀ entry ∈ deployment.system.submissions.entries, ¬ entry.2.Open) ∧
        (deployment.system.inbound.drop deployment.system.answered).filterMap sentWith = [] := by
  have backed : deployment.system.caughtUp.Backed := (standing.caughtUp settings).backed
  obtain ⟨seen, feeds⟩ := standing.kept.feeds
  have owed := feeds.owed_caughtUp settings
  constructor
  · intro idle
    constructor
    · intro entry member isOpen
      obtain ⟨own, -⟩ := backed.reserved entry.1 entry.2 (Dict.get?_eq_some_iff.mpr member) isOpen
      have none := idle entry.2.key
      rw [show deployment.unbroken.pendingByClient.get? entry.2.key = some entry.1 from own] at none
      cases none
    · rw [← owed, List.eq_nil_iff_forall_not_mem]
      intro reservation member
      have present := backed.pending reservation member
      rw [RiskState.get?_waiting] at present
      have none : deployment.system.caughtUp.risk.pendingByClient.get? reservation.key = none :=
        idle reservation.key
      rw [none] at present
      cases present
  · rintro ⟨sent, answered⟩ key
    cases found : deployment.unbroken.pendingByClient.get? key with
    | none => rfl
    | some ref =>
        cases backed.covered key ref found with
        | inl sending =>
            obtain ⟨submission, listed, isOpen, -⟩ := sending
            exact absurd isOpen (sent (ref, submission) (Dict.get?_eq_some_iff.mp listed))
        | inr promised =>
            rw [owed, answered] at promised
            cases promised

/-- What is in flight is what a new process has to spend or to sell on top. -/
theorem Standing.spare_resume (settings : Settings)
    (standing : deployment.Standing marketMakers initialCashTicks) {risk : RiskState}
    (shadow : risk.Shadow deployment.unbroken
      (Tape.blank.readAll deployment.system.caughtUp.delivered).live) (resource : Resource) :
    risk.spare resource = deployment.unbroken.spare resource +
      deployment.unbroken.waiting.total fun _ reservation => reservation.towards resource := by
  have accounts : deployment.unbroken.Accounts
      (Tape.blank.readAll deployment.system.caughtUp.delivered).live :=
    (standing.caughtUp settings).kept.accounts
  rw [RiskState.spare, RiskState.spare, shadow.settled, shadow.held accounts,
    RiskState.held_withoutPending]
  omega

theorem Standing.spare_le_iff (settings : Settings)
    (standing : deployment.Standing marketMakers initialCashTicks) {risk : RiskState}
    (shadow : risk.Shadow deployment.unbroken
      (Tape.blank.readAll deployment.system.caughtUp.delivered).live) :
    (∀ resource, risk.spare resource ≤ deployment.unbroken.spare resource) ↔
      ∀ key, deployment.unbroken.pendingByClient.get? key = none := by
  have accounts : deployment.unbroken.Accounts
      (Tape.blank.readAll deployment.system.caughtUp.delivered).live :=
    (standing.caughtUp settings).kept.accounts
  constructor
  · intro within key
    cases found : deployment.unbroken.pendingByClient.get? key with
    | none => rfl
    | some ref =>
        have present : deployment.unbroken.waiting.get? key =
            some (deployment.unbroken.object ref) := by
          rw [RiskState.get?_waiting, found, Option.map_some]
        have more := (accounts.pending key _ present).1.towards_own_pos
        have part : (deployment.unbroken.object ref).towards (deployment.unbroken.object ref).resource ≤
            deployment.unbroken.waiting.total fun _ reservation =>
              reservation.towards (deployment.unbroken.object ref).resource :=
          Dict.le_total (fun key _ listed => (accounts.pending key _ listed).1.towards_nonneg
            (deployment.unbroken.object ref).resource) present
        have spare := within (deployment.unbroken.object ref).resource
        rw [standing.spare_resume settings shadow] at spare
        omega
  · intro idle resource
    have nothing : (deployment.unbroken.waiting.total fun _ reservation =>
        reservation.towards resource) = 0 :=
      Dict.total_eq_zero fun key _ found => by
        rw [RiskState.get?_waiting, idle key] at found
        cases found
    rw [standing.spare_resume settings shadow, nothing, Int.add_zero]

/-- What is available is what is spare of the two kinds of resources. -/
theorem available_le_iff (left right : RiskState) :
    ((∀ userId, left.availableCash userId ≤ right.availableCash userId) ∧
      ∀ userId symbolId,
        left.availablePosition userId symbolId ≤ right.availablePosition userId symbolId) ↔
      ∀ resource, left.spare resource ≤ right.spare resource := by
  constructor
  · rintro ⟨cash, units⟩ resource
    cases resource with
    | cash userId => exact cash userId
    | units userId symbolId => exact units userId symbolId
  · exact fun spare => ⟨fun userId => spare (.cash userId),
      fun userId symbolId => spare (.units userId symbolId)⟩

theorem Standing.tight_iff (settings : Settings)
    (standing : deployment.Standing marketMakers initialCashTicks) (turn : Turn) :
    deployment.Tight turn ↔ deployment.AllAnswered turn := by
  cases turn with
  | act _ => exact Iff.rfl
  | save => exact Iff.rfl
  | restart checkpoint =>
      cases saved : deployment.saved[checkpoint]? with
      | none =>
          have outside := List.getElem?_eq_none_iff.mp saved
          simp only [Tight, AllAnswered, saved, Option.bind_none]
          exact ⟨fun _ within => absurd within (not_lt.mpr outside), fun _ _ none => by cases none⟩
      | some raw =>
          obtain ⟨inside, -⟩ := List.getElem?_eq_some_iff.mp saved
          obtain ⟨risk, resumes, -, -, shadow⟩ :=
            standing.resume settings (List.mem_of_getElem? saved)
          simp only [Tight, AllAnswered, saved, Option.bind_some, resumes, Option.some.injEq,
            forall_eq', inside, forall_const]
          rw [available_le_iff, standing.spare_le_iff settings shadow, standing.idle_iff settings]

/-- A new process takes the place of the old one. -/
theorem Standing.replaced (settings : Settings)
    (standing : deployment.Standing marketMakers initialCashTicks) {risk : RiskState}
    (place : risk.lastSeq = deployment.unbroken.lastSeq)
    (makers : risk.marketMakers = marketMakers)
    (shadow : risk.Shadow deployment.unbroken
      (Tape.blank.readAll deployment.system.caughtUp.delivered).live)
    (answered : (∀ entry ∈ deployment.system.submissions.entries, ¬ entry.2.Open) ∧
      (deployment.system.inbound.drop deployment.system.answered).filterMap sentWith = []) :
    (deployment.restarted risk).Standing marketMakers initialCashTicks := by
  have caught := standing.caughtUp settings
  obtain ⟨seen, feeds⟩ := standing.kept.feeds
  have reads := feeds.caughtUp settings
  obtain ⟨after, delivered⟩ : (deployment.restarted risk).system.Feeds initialCashTicks
      deployment.system.outbound.entries.length ∧
      (deployment.restarted risk).system.delivered = deployment.system.caughtUp.delivered :=
    reads.aside rfl rfl rfl rfl place
  have owed : (deployment.restarted risk).system.owed = [] := by
    have nothing : (deployment.restarted risk).system.undelivered = [] :=
      after.undelivered.trans (List.drop_eq_nil_of_le (Stream.length_records _).le)
    rw [System.owed, nothing]
    exact answered.2
  have kept : (deployment.restarted risk).system.Kept initialCashTicks :=
    ⟨⟨_, after⟩, delivered ▸ shadow.accounts, shadow.solid⟩
  refine ⟨kept, ?_, ?_, ?_⟩
  · refine ⟨standing.backed.admitted, ?_, ?_, ?_, ?_⟩
    · rw [owed]
      exact List.nodup_nil
    · rw [owed]
      exact fun reservation member => by cases member
    · intro ref submission found isOpen
      have gone : submission.awaiting = false := by
        have listed : (orphaned deployment.system.submissions).get? ref = some submission := found
        rw [orphaned, Dict.get?_mapValues, Option.map_eq_some_iff] at listed
        obtain ⟨earlier, -, rfl⟩ := listed
        rfl
      rw [isOpen.2] at gone
      cases gone
    · intro key ref found
      have none := shadow.idle key
      have listed : risk.pendingByClient.get? key = some ref := found
      rw [RiskState.get?_waiting, listed] at none
      cases none
  · refine caught.covered.aside (makers.trans caught.covered.makers.symm) delivered shadow.settled
      fun resource _ spare => ?_
    have more : 0 ≤ deployment.unbroken.waiting.total fun _ reservation =>
        reservation.towards resource :=
      (caught.kept.accounts.totals_nonneg caught.kept.priced resource).2
    have before : 0 ≤ deployment.unbroken.spare resource := spare
    have same := standing.spare_resume settings shadow resource
    show 0 ≤ risk.spare resource
    omega
  · intro raw member
    cases List.mem_append.mp member with
    | inl earlier =>
        intro fresh solid
        obtain ⟨loaded, read, sameMakers, resumed⟩ := caught.loads raw earlier fresh solid
        refine ⟨loaded, read, sameMakers, resumed.aside reads after (List.prefix_refl _) place ?_⟩
        intro restored live other
        exact ⟨other.accounts, other.solid, other.idle, fun resource =>
          (other.settled resource).trans (shadow.settled resource).symm⟩
    | inr new =>
        rw [List.mem_singleton.mp new]
        exact loads_dump kept

/-- A new process that nothing was in flight for stands where the old one did. -/
theorem Standing.restart (settings : Settings)
    (standing : deployment.Standing marketMakers initialCashTicks) (checkpoint : Nat)
    (answered : deployment.AllAnswered (.restart checkpoint)) :
    (deployment.restart checkpoint).Standing marketMakers initialCashTicks := by
  rw [Deployment.restart]
  cases saved : deployment.saved[checkpoint]? with
  | none => exact standing
  | some raw =>
      obtain ⟨inside, -⟩ := List.getElem?_eq_some_iff.mp saved
      obtain ⟨risk, resumes, place, makers, shadow⟩ :=
        standing.resume settings (List.mem_of_getElem? saved)
      rw [Option.bind_some, resumes]
      exact standing.replaced settings place makers shadow (answered inside)

theorem Standing.undrawn (standing : deployment.Standing marketMakers initialCashTicks) :
    deployment.Undrawn marketMakers where
  cash userId funded := by
    have spare := standing.covered.cash userId funded
    have held := standing.kept.accounts.held_nonneg standing.kept.priced (.cash userId)
    exact held.trans (Int.le_of_sub_nonneg spare)
  units userId symbolId trader := by
    have spare := standing.covered.units userId symbolId trader
    have held := standing.kept.accounts.held_nonneg standing.kept.priced (.units userId symbolId)
    exact held.trans (Int.le_of_sub_nonneg spare)

theorem Standing.step (settings : Settings)
    (standing : deployment.Standing marketMakers initialCashTicks) {turn : Turn}
    (allowed : deployment.Allowed turn) (answered : deployment.AllAnswered turn) :
    (deployment.step settings turn).Standing marketMakers initialCashTicks := by
  cases turn with
  | act action => exact standing.act settings allowed
  | save => exact standing.save
  | restart checkpoint => exact standing.restart settings checkpoint answered

/-! ## Runs -/

variable {turns : List Turn}

theorem tight_along_iff (settings : Settings)
    (allowed : Along (Deployment.step settings) Allowed (start marketMakers initialCashTicks) turns) :
    Along (Deployment.step settings) Tight (start marketMakers initialCashTicks) turns ↔
      Along (Deployment.step settings) AllAnswered (start marketMakers initialCashTicks) turns :=
  allowed.iff_of_invariant (fun _ turn (standing : Standing _ _ _) _ =>
    standing.tight_iff settings turn) (fun _ _ standing allowed answered =>
    standing.step settings allowed answered) (start_standing marketMakers initialCashTicks)

theorem always_undrawn (settings : Settings)
    (allowed : Along (Deployment.step settings) Allowed (start marketMakers initialCashTicks) turns)
    (answered : Along (Deployment.step settings) AllAnswered (start marketMakers initialCashTicks)
      turns) :
    Always (Deployment.step settings) (Undrawn · marketMakers) (start marketMakers initialCashTicks)
      turns := by
  have preserved : ∀ deployment turn, Standing deployment marketMakers initialCashTicks →
      deployment.Allowed turn ∧ deployment.AllAnswered turn →
      (deployment.step settings turn).Standing marketMakers initialCashTicks :=
    fun _ _ standing held => standing.step settings held.1 held.2
  intro before after split
  exact (Always.of_along preserved (start_standing marketMakers initialCashTicks)
    (allowed.and answered) before after split).undrawn

/-- While reservations are given up only for orders that are never appended, no restart loosens the
check and nobody is ever overdrawn, exactly when nothing is in flight at any restart. -/
theorem restarts_tight_iff (settings : Settings) (marketMakers : List Int) (initialCashTicks : Int)
    (turns : List Turn)
    (allowed : Along (Deployment.step settings) Allowed (start marketMakers initialCashTicks) turns) :
    (Along (Deployment.step settings) Tight (start marketMakers initialCashTicks) turns ∧
      Always (Deployment.step settings) (Undrawn · marketMakers)
        (start marketMakers initialCashTicks) turns) ↔
      Along (Deployment.step settings) AllAnswered (start marketMakers initialCashTicks) turns :=
  ⟨fun held => (tight_along_iff settings allowed).mp held.1, fun answered =>
    ⟨(tight_along_iff settings allowed).mpr answered, always_undrawn settings allowed answered⟩⟩

/-- A restart between two bids, the first of which rests: nothing is in flight. -/
theorem rested_bid_kept :
    let bid : SubmitOrderRequest := ⟨1, 1, .buy, .gtc, some 100, 40, .limit, by decide, by decide,
      by decide, by decide, rfl⟩
    let other : SubmitOrderRequest := ⟨2, 1, .buy, .gtc, some 100, 40, .limit, by decide,
      by decide, by decide, by decide, rfl⟩
    let turns : List Turn :=
      [.act (.write (.createAccount ⟨0, 1, 7⟩)), .act (.answer 1), .act .watch, .save,
        .act (.submit 7 bid 0), .act (.append 0), .act (.answer 2), .restart 1,
        .act (.submit 7 other 0)]
    Along (Deployment.step ⟨[1], 500, by decide⟩) Tight (start [8] 5000) turns ∧
      Always (Deployment.step ⟨[1], 500, by decide⟩) (Undrawn · [8]) (start [8] 5000) turns := by
  intro bid other turns
  exact (restarts_tight_iff _ _ _ _ (by decide +kernel)).mpr (by decide +kernel)

/-- A bid that is appended and not answered leaves nothing behind: after a restart its cash is bid
with again, and spent twice. -/
theorem unanswered_bid_spends_twice :
    let ask : SubmitOrderRequest := ⟨1, 1, .sell, .gtc, some 100, 80, .limit, by decide, by decide,
      by decide, by decide, rfl⟩
    let bid : SubmitOrderRequest := ⟨1, 1, .buy, .gtc, some 100, 40, .limit, by decide, by decide,
      by decide, by decide, rfl⟩
    let again : SubmitOrderRequest := ⟨2, 1, .buy, .gtc, some 100, 40, .limit, by decide,
      by decide, by decide, by decide, rfl⟩
    let turns : List Turn :=
      [.act (.write (.createAccount ⟨0, 1, 7⟩)), .act (.answer 1), .act .watch,
        .act (.submit 8 ask 0), .act (.append 0), .act (.answer 2), .act .watch, .act .watch,
        .act (.submit 7 bid 0), .act (.append 1), .restart 0, .act (.submit 7 again 0),
        .act (.append 3), .act (.answer 3), .act (.answer 4), .act .watch, .act .watch, .act .watch,
        .act .watch]
    Along (Deployment.step ⟨[1], 500, by decide⟩) Allowed (start [8] 5000) turns ∧
      ¬ Along (Deployment.step ⟨[1], 500, by decide⟩) Tight (start [8] 5000) turns ∧
      ¬ Always (Deployment.step ⟨[1], 500, by decide⟩) (Undrawn · [8]) (start [8] 5000) turns := by
  intro ask bid again turns
  have allowed : Along (Deployment.step ⟨[1], 500, by decide⟩) Allowed (start [8] 5000) turns := by
    decide +kernel
  refine ⟨allowed, fun tight => ?_, fun always => ?_⟩
  · have answered := (tight_along_iff _ allowed).mp tight
    revert answered
    decide +kernel
  · have spent := (always turns [] (List.append_nil _).symm).cash 7 ⟨by decide +kernel, by decide +kernel⟩
    revert spent
    decide +kernel

end Deployment

end QuantArena.Gateway
