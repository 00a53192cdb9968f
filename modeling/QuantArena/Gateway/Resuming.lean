import QuantArena.Gateway.RiskCheckpointProperties

/-! A gateway that starts again from a dump of its risk state, beside the one that never
stopped: once both have read as far, they differ by what is pending in the one that goes on. -/

set_option autoImplicit false

namespace QuantArena.Gateway

open Foundations Foundations.PriceTime Contracts Exchange

namespace RiskState

/-- Entries as `apply` is given them. -/
def stamped (entries : List (StreamId × Outbound)) : List (Outbound × Option StreamId) :=
  entries.map fun entry => (entry.2, some entry.1)

/-- `replay_from_stream`, over a stream that ends with one id. -/
def replayTo (risk : RiskState) (stream : Stream Outbound) (last : StreamId) : RiskState :=
  risk.applyAll (stamped (stream.entries.filter fun entry =>
    risk.lastSeq < entry.1 ∧ entry.1 ≤ last))

/-- Whose pending reservation an acceptance takes over. -/
def acceptedKey : Outbound → Option (Int × Int)
  | .orderAccepted accepted => some (accepted.userId, accepted.clientOrderId)
  | _ => none

/-- Everything pending in the state is accepted in the records. -/
def AcceptedIn (risk : RiskState) (records : List Outbound) : Prop :=
  ∀ key ∈ risk.pendingByClient.keys, key ∈ records.filterMap acceptedKey

instance (risk : RiskState) (records : List Outbound) : Decidable (risk.AcceptedIn records) :=
  inferInstanceAs (Decidable (∀ key ∈ risk.pendingByClient.keys,
    key ∈ records.filterMap acceptedKey))

variable {risk : RiskState}

theorem size_releaseFillWith (bound : Int → Int) (risk : RiskState) (orderId qty : Int) :
    (risk.releaseFillWith bound orderId qty).objects.size = risk.objects.size := by
  unfold releaseFillWith
  split
  · rfl
  · exact Heap.size_write ..

/-- Objects are only ever added. -/
theorem size_le_apply (risk : RiskState) (record : Outbound) (streamId : Option StreamId) :
    risk.objects.size ≤ (risk.apply record streamId).objects.size := by
  cases record with
  | orderAccepted accepted =>
      simp only [apply, applyWith, adopt]
      split
      · simp
      · simp
  | fill fill =>
      simp only [apply, applyWith, size_releaseFillWith]
      exact le_rfl
  | orderCancelled cancelled =>
      simp only [apply, applyWith, releaseRemainingWith]
      split
      · exact le_rfl
      · simp
  | accountCreated _ => exact le_rfl
  | cashCredited _ => exact le_rfl
  | orderRejected _ => exact le_rfl
  | bookChanged _ => exact le_rfl
  | replayConfigured _ => exact le_rfl

theorem objects_abandon (risk : RiskState) (ref : Ref) : (risk.abandon ref).objects = risk.objects := by
  unfold abandon release
  simp only [releaseWith_objects]
  split <;> rfl

theorem pending_of_abandon {ref other : Ref} {key : Int × Int}
    (found : (risk.abandon ref).pendingByClient.get? key = some other) :
    risk.pendingByClient.get? key = some other := by
  unfold abandon release at found
  simp only [releaseWith_pendingByClient] at found
  split at found
  · rw [Dict.get?_erase] at found
    split at found
    · cases found
    · exact found
  · exact found

theorem acceptedKey_eq (record : Outbound) :
    acceptedKey record = (takenBy record).map Reservation.key := by
  cases record <;> rfl

/-- What is pending after a record was pending before, and the record does not accept it. -/
theorem pending_of_apply {record : Outbound} {streamId : Option StreamId} {key : Int × Int}
    {ref : Ref} (found : (risk.apply record streamId).pendingByClient.get? key = some ref) :
    risk.pendingByClient.get? key = some ref ∧ acceptedKey record ≠ some key := by
  rw [pendingByClient_apply] at found
  rw [acceptedKey_eq]
  cases taken : takenBy record with
  | none =>
      rw [taken] at found
      exact ⟨found, by simp⟩
  | some reservation =>
      rw [taken] at found
      simp only [Dict.get?_erase] at found
      split at found
      · cases found
      · rename_i different
        exact ⟨found, by simpa using Ne.symm different⟩

end RiskState

def Action.submits : Action → Bool
  | .submit _ _ _ => true
  | _ => false

namespace System

/-- A run in which no append fails is one that gives up no order it sends. -/
theorem allowed_of_none_abandoned (settings : Settings) (marketMakers : List Int)
    (initialCashTicks : Int) {actions : List Action}
    (appended : ∀ action ∈ actions, ∀ ref, action ≠ .abandon ref) :
    Along (step settings) Allowed (start marketMakers initialCashTicks) actions := by
  let waits (system : System) : Prop := ∀ ref submission,
    system.submissions.get? ref = some submission → submission.appended = false →
      submission.awaiting = true
  have replaced : ∀ {system next : System} {target : Ref} {new : Submission}, waits system →
      next.submissions = system.submissions.set target new →
      (new.appended = false → new.awaiting = true) → waits next := by
    intro system next target new waiting same holds ref submission found
    rw [same, Dict.get?_set] at found
    split at found
    · cases found
      exact holds
    · exact waiting ref submission found
  refine @Along.imp_of_invariant _ _ _ (fun _ action => ∀ ref, action ≠ .abandon ref) _ waits
    ?_ ?_ _ _ (fun _ _ found => by cases found)
    (Along.of_forall (fun action member _ => appended action member) _)
  · intro system action waiting present
    have moves := step_moves settings system action
    generalize system.step settings action = next at moves
    cases moves with
    | submit _ => exact replaced waiting rfl fun _ => rfl
    | append _ _ _ => exact replaced waiting rfl fun none => by cases none
    | finish _ given =>
        refine replaced waiting rfl fun none => ?_
        rw [given] at none
        cases none
    | @abandon ref _ _ _ => exact absurd rfl (present ref)
    | answer now =>
        intro ref submission found
        rw [submissions_answer] at found
        exact waiting ref submission found
    | _ => exact waiting
  · intro system action waiting present
    cases action with
    | append ref => exact fun submission found => waiting ref submission found
    | abandon ref => exact absurd rfl (present ref)
    | _ => trivial

variable {system : System} {initialCashTicks : Int} {seen : Nat}

/-- The outbound entries after one id that the watcher has applied. -/
def appliedSince (system : System) (place : StreamId) : List (StreamId × Outbound) :=
  system.outbound.entries.filter fun entry => place < entry.1 ∧ entry.1 ≤ system.risk.lastSeq

theorem replayTo_eq (system : System) (loaded : RiskState) :
    loaded.replayTo system.outbound system.risk.lastSeq =
      loaded.applyAll (RiskState.stamped (system.appliedSince loaded.lastSeq)) := rfl

theorem Feeds.appliedSince (feeds : system.Feeds initialCashTicks seen) (place : StreamId) :
    system.appliedSince place =
      (system.outbound.entries.take seen).filter fun entry => place < entry.1 := by
  rw [System.appliedSince, feeds.position]
  simp only [Bool.decide_and]
  rw [← List.filter_filter, Stream.filter_le_position]

theorem Feeds.appliedSince_grows (feeds : system.Feeds initialCashTicks seen) {next : System}
    (after : next.Feeds initialCashTicks seen)
    (grows : system.outbound.entries <+: next.outbound.entries) (place : StreamId) :
    next.appliedSince place = system.appliedSince place := by
  obtain ⟨more, whole⟩ := grows
  rw [after.appliedSince, feeds.appliedSince, ← whole, List.take_append_of_le_length feeds.within]

theorem Feeds.lt_next (feeds : system.Feeds initialCashTicks seen) {entry : StreamId × Outbound}
    (next : system.next? = some entry) : system.risk.lastSeq < entry.1 := by
  have found := feeds.next? ▸ next
  rw [feeds.position]
  refine (system.outbound.position_splits seen).2 entry ?_
  exact List.mem_of_getElem? (i := 0) (by rw [List.getElem?_drop, Nat.add_zero, found])

theorem Feeds.appliedSince_watch (feeds : system.Feeds initialCashTicks seen)
    {entry : StreamId × Outbound} (next : system.next? = some entry) {place : StreamId}
    (behind : place ≤ system.risk.lastSeq) :
    System.appliedSince { system with risk := system.risk.apply entry.2 (some entry.1) } place =
      system.appliedSince place ++ [entry] := by
  have found := feeds.next? ▸ next
  rw [(feeds.watch next).1.appliedSince, feeds.appliedSince, List.take_add_one, found,
    Option.toList_some, List.filter_append]
  exact congrArg _ (List.filter_eq_self.mpr fun other member => by
    rw [List.mem_singleton.mp member]
    exact decide_eq_true (behind.trans_lt (feeds.lt_next next)))

/-! ## What a dump was loaded into -/

/-- A loaded state that has read what the watcher has applied shadows the watcher's. -/
structure Resumed (system : System) (loaded : RiskState) : Prop where
  behind : loaded.lastSeq ≤ system.risk.lastSeq
  reached : (loaded.replayTo system.outbound system.risk.lastSeq).lastSeq = system.risk.lastSeq
  shadow : (loaded.replayTo system.outbound system.risk.lastSeq).Shadow system.risk
    (Tape.blank.readAll system.delivered).live

variable {loaded : RiskState}

/-- At the dump itself there is nothing to read. -/
theorem Resumed.of_loaded (place : loaded.lastSeq = system.risk.lastSeq)
    (shadow : loaded.Shadow system.risk (Tape.blank.readAll system.delivered).live) :
    system.Resumed loaded := by
  have nothing : system.appliedSince loaded.lastSeq = [] :=
    List.filter_eq_nil_iff.mpr fun entry _ between => by
      obtain ⟨above, below⟩ := of_decide_eq_true between
      exact absurd (below.trans place.ge) (not_le.mpr above)
  have same : loaded.replayTo system.outbound system.risk.lastSeq = loaded := by
    rw [replayTo_eq, nothing]
    rfl
  refine ⟨place.le, ?_, ?_⟩
  · rw [same]
    exact place
  · rw [same]
    exact shadow

/-- A step that reads nothing. -/
theorem Resumed.aside (resumed : system.Resumed loaded)
    (feeds : system.Feeds initialCashTicks seen) {next : System}
    (after : next.Feeds initialCashTicks seen)
    (grows : system.outbound.entries <+: next.outbound.entries)
    (lastSeq : next.risk.lastSeq = system.risk.lastSeq)
    (shadow : ∀ (restored : RiskState) live, restored.Shadow system.risk live →
      restored.Shadow next.risk live) : next.Resumed loaded := by
  have applied := feeds.appliedSince_grows after grows loaded.lastSeq
  have delivered : next.delivered = system.delivered := by
    obtain ⟨more, whole⟩ := (grows.map Prod.snd)
    have within := feeds.within
    rw [← Stream.length_records] at within
    rw [after.delivered, feeds.delivered, Stream.records, Stream.records, ← whole]
    exact List.take_append_of_le_length within
  refine ⟨lastSeq ▸ resumed.behind, ?_, ?_⟩
  · rw [replayTo_eq, applied, ← replayTo_eq, lastSeq]
    exact resumed.reached
  · rw [delivered, replayTo_eq, applied, ← replayTo_eq]
    exact shadow _ _ resumed.shadow

theorem Resumed.watch (resumed : system.Resumed loaded)
    (feeds : system.Feeds initialCashTicks seen) {entry : StreamId × Outbound}
    (next : system.next? = some entry) :
    Resumed { system with risk := system.risk.apply entry.2 (some entry.1) } loaded := by
  obtain ⟨-, delivered⟩ := feeds.watch next
  have applied := feeds.appliedSince_watch next resumed.behind
  have same : loaded.replayTo system.outbound (system.risk.apply entry.2 (some entry.1)).lastSeq =
      (loaded.replayTo system.outbound system.risk.lastSeq).apply entry.2 (some entry.1) := by
    have whole := replayTo_eq { system with risk := system.risk.apply entry.2 (some entry.1) } loaded
    rw [applied, RiskState.stamped, List.map_append, RiskState.applyAll, List.foldl_append] at whole
    exact whole
  refine ⟨?_, ?_, ?_⟩
  · rw [RiskState.lastSeq_apply]
    exact resumed.behind.trans (feeds.lt_next next).le
  · rw [same, RiskState.lastSeq_apply, RiskState.lastSeq_apply]
  · rw [delivered, Tape.readAll_append, same]
    exact resumed.shadow.apply feeds.delivered_valid (feeds.next_lawful next) _

/-- Whatever a request does to what is pending, the loaded state needs to know nothing of it. -/
theorem Resumed.step (settings : Settings) (resumed : system.Resumed loaded)
    (feeds : system.Feeds initialCashTicks seen) (action : Action) :
    (system.step settings action).Resumed loaded := by
  have moves := step_moves settings system action
  generalize system.step settings action = next at moves
  cases moves with
  | idle => exact resumed
  | submit decided =>
      obtain ⟨-, -, -, -, -, -, held⟩ := SubmitOrderRequest.decide_append decided
      have place := (samePlace_decide decided).1
      refine resumed.aside feeds ?_ (List.prefix_refl _) place fun _ _ shadow => shadow.reserve held
      exact And.left (feeds.aside rfl rfl rfl rfl place)
  | append found waiting free =>
      exact resumed.aside feeds (feeds.append _ _ _) (List.prefix_refl _) rfl fun _ _ shadow => shadow
  | finish found appended =>
      refine resumed.aside feeds ?_ (List.prefix_refl _) rfl fun _ _ shadow => shadow
      exact And.left (feeds.aside rfl rfl rfl rfl rfl)
  | @abandon ref submission found awaiting =>
      have place := (RiskState.samePlace_abandon system.risk ref).1
      refine resumed.aside feeds ?_ (List.prefix_refl _) place fun _ _ shadow => shadow.abandon ref
      exact And.left (feeds.aside rfl rfl rfl rfl place)
  | write foreign =>
      exact resumed.aside feeds (feeds.append _ _ _) (List.prefix_refl _) rfl fun _ _ shadow => shadow
  | expire key =>
      refine resumed.aside feeds ?_ (List.prefix_refl _) rfl fun _ _ shadow => shadow
      exact And.left (feeds.aside rfl rfl rfl rfl rfl)
  | answer now =>
      refine resumed.aside feeds (feeds.answer now) (entries_answer system now) ?_ ?_
      · rw [risk_answer]
      · rw [risk_answer]
        exact fun _ _ shadow => shadow
  | watch next => exact resumed.watch feeds next

/-! ## What is pending after a dump -/

/-- What is pending was pending at the dump and is not accepted since, or is newer. -/
structure PendingSince (system : System) (dumped : RiskState) : Prop where
  behind : dumped.lastSeq ≤ system.risk.lastSeq
  grown : dumped.objects.size ≤ system.risk.objects.size
  pending : ∀ key ref, system.risk.pendingByClient.get? key = some ref →
    dumped.objects.size ≤ ref ∨ dumped.pendingByClient.get? key = some ref ∧
      ∀ entry ∈ system.appliedSince dumped.lastSeq, RiskState.acceptedKey entry.2 ≠ some key

variable {dumped : RiskState}

theorem PendingSince.aside (since : system.PendingSince dumped)
    (feeds : system.Feeds initialCashTicks seen) {next : System}
    (after : next.Feeds initialCashTicks seen)
    (grows : system.outbound.entries <+: next.outbound.entries)
    (lastSeq : next.risk.lastSeq = system.risk.lastSeq)
    (grown : system.risk.objects.size ≤ next.risk.objects.size)
    (pending : ∀ key ref, next.risk.pendingByClient.get? key = some ref →
      system.risk.pendingByClient.get? key = some ref ∨ system.risk.objects.size ≤ ref) :
    next.PendingSince dumped := by
  refine ⟨lastSeq ▸ since.behind, since.grown.trans grown, fun key ref found => ?_⟩
  rw [feeds.appliedSince_grows after grows]
  cases pending key ref found with
  | inl earlier => exact since.pending key ref earlier
  | inr new => exact .inl (since.grown.trans new)

theorem PendingSince.watch (since : system.PendingSince dumped)
    (feeds : system.Feeds initialCashTicks seen) {entry : StreamId × Outbound}
    (next : system.next? = some entry) :
    PendingSince { system with risk := system.risk.apply entry.2 (some entry.1) } dumped := by
  refine ⟨?_, since.grown.trans (RiskState.size_le_apply ..), fun key ref pending => ?_⟩
  · rw [RiskState.lastSeq_apply]
    exact since.behind.trans (feeds.lt_next next).le
  · rw [feeds.appliedSince_watch next since.behind]
    obtain ⟨earlier, unaccepted⟩ := RiskState.pending_of_apply pending
    refine (since.pending key ref earlier).imp_right fun held => ⟨held.1, ?_⟩
    intro other member
    cases List.mem_append.mp member with
    | inl before => exact held.2 other before
    | inr last => exact List.mem_singleton.mp last ▸ unaccepted

theorem PendingSince.step (settings : Settings) (since : system.PendingSince dumped)
    (feeds : system.Feeds initialCashTicks seen) (action : Action) :
    (system.step settings action).PendingSince dumped := by
  have moves := step_moves settings system action
  generalize system.step settings action = next at moves
  cases moves with
  | idle => exact since
  | @submit userId body now order risk decided =>
      obtain ⟨-, -, -, -, -, -, held⟩ := SubmitOrderRequest.decide_append decided
      have place := (samePlace_decide decided).1
      obtain ⟨-, same⟩ := RiskState.reserve_eq_ok held
      refine since.aside feeds ?_ (List.prefix_refl _) place ?_ fun key ref found => ?_
      · exact And.left (feeds.aside rfl rfl rfl rfl place)
      · simp [same]
      · simp only [same, Dict.get?_set] at found
        split at found
        · cases found
          exact .inr le_rfl
        · exact .inl found
  | append found waiting free =>
      exact since.aside feeds (feeds.append _ _ _) (List.prefix_refl _) rfl le_rfl fun _ _ => .inl
  | finish found appended =>
      refine since.aside feeds ?_ (List.prefix_refl _) rfl le_rfl fun _ _ => .inl
      exact And.left (feeds.aside rfl rfl rfl rfl rfl)
  | @abandon ref submission found awaiting =>
      have place := (RiskState.samePlace_abandon system.risk ref).1
      refine since.aside feeds ?_ (List.prefix_refl _) place ?_ fun key other pending => ?_
      · exact And.left (feeds.aside rfl rfl rfl rfl place)
      · simp only [RiskState.objects_abandon, le_refl]
      · exact .inl (RiskState.pending_of_abandon pending)
  | write foreign =>
      exact since.aside feeds (feeds.append _ _ _) (List.prefix_refl _) rfl le_rfl fun _ _ => .inl
  | expire key =>
      refine since.aside feeds ?_ (List.prefix_refl _) rfl le_rfl fun _ _ => .inl
      exact And.left (feeds.aside rfl rfl rfl rfl rfl)
  | answer now =>
      refine since.aside feeds (feeds.answer now) (entries_answer system now) ?_ ?_ ?_
      · rw [risk_answer]
      · rw [risk_answer]
      · rw [risk_answer]
        exact fun _ _ => .inl
  | watch next => exact since.watch feeds next

/-- A run without requests takes nothing into what is pending. -/
theorem pending_of_quiet (settings : Settings) {actions : List Action}
    (quiet : ∀ action ∈ actions, action.submits = false)
    {key : Int × Int} {ref : Ref}
    (found : (system.run settings actions).risk.pendingByClient.get? key = some ref) :
    system.risk.pendingByClient.get? key = some ref := by
  induction actions generalizing system with
  | nil => exact found
  | cons action rest ih =>
      have later := ih (fun other member => quiet other (List.mem_cons_of_mem _ member)) found
      have moves := step_moves settings system action
      generalize system.step settings action = next at moves later
      cases moves with
      | submit _ =>
          have none := quiet _ List.mem_cons_self
          cases none
      | abandon _ _ => exact RiskState.pending_of_abandon later
      | answer now =>
          rw [risk_answer] at later
          exact later
      | watch _ => exact (RiskState.pending_of_apply later).1
      | _ => exact later

/-! ## Runs -/

/-- A fresh state that a dump is loaded into, and that then reads what the unbroken gateway has
read, has the same books as that gateway without what is pending there. Once everything that was
pending at the dump is accepted, only what was reserved since the dump is pending. -/
theorem risk_checkpoint_is_exact (settings : Settings) (marketMakers : List Int)
    (initialCashTicks : Int) (before after : List Action)
    (allowed : Along (step settings) Allowed (start marketMakers initialCashTicks)
      (before ++ after)) :
    let dumped := (start marketMakers initialCashTicks).run settings before
    let unbroken := dumped.run settings after
    ∃ loaded, (RiskState.new marketMakers).loadState dumped.risk.dumpState = some loaded ∧
      (loaded.replayTo unbroken.outbound unbroken.risk.lastSeq).SameBooks
        unbroken.risk.withoutPending ∧
      (dumped.risk.AcceptedIn ((unbroken.appliedSince dumped.risk.lastSeq).map (·.2)) →
        (∀ key ref, unbroken.risk.pendingByClient.get? key = some ref →
          dumped.risk.objects.size ≤ ref) ∧
        ((∀ action ∈ after, action.submits = false) →
          (loaded.replayTo unbroken.outbound unbroken.risk.lastSeq).SameBooks unbroken.risk)) := by
  intro dumped unbroken
  obtain ⟨earlier, later⟩ := Along.append_iff.mp allowed
  obtain ⟨kept, backed⟩ := run_backed settings marketMakers initialCashTicks earlier
  obtain ⟨loaded, loads, place, -, shadow⟩ :=
    kept.accounts.loadState kept.priced (RiskState.new_solid marketMakers)
  let invariant (system : System) : Prop := system.Kept initialCashTicks ∧ system.Backed ∧
    system.Resumed loaded ∧ system.PendingSince dumped.risk
  have initially : invariant dumped := by
    refine ⟨kept, backed, .of_loaded place shadow, le_rfl, le_rfl, fun key ref found =>
      .inr ⟨found, fun entry member => ?_⟩⟩
    obtain ⟨above, below⟩ := of_decide_eq_true (List.mem_filter.mp member).2
    exact absurd below (not_le.mpr above)
  have preserved : ∀ (system : System) action, invariant system → system.Allowed action →
      invariant (system.step settings action) := by
    rintro system action ⟨kept, backed, resumed, since⟩ allowed
    obtain ⟨seen, feeds⟩ := kept.feeds
    exact ⟨kept.step settings (backed.permits feeds allowed), backed.step settings kept allowed,
      resumed.step settings feeds action, since.step settings feeds action⟩
  obtain ⟨later, -, resumed, since⟩ : invariant unbroken :=
    Along.invariant preserved initially later
  have same := resumed.shadow.sameBooks later.accounts
  refine ⟨loaded, loads, same, fun accepted => ?_⟩
  have newer : ∀ key ref, unbroken.risk.pendingByClient.get? key = some ref →
      dumped.risk.objects.size ≤ ref := by
    intro key ref found
    refine (since.pending key ref found).resolve_right fun held => ?_
    have listed := accepted key (Dict.mem_keys_iff.mpr ⟨ref, held.1⟩)
    rw [List.filterMap_map] at listed
    obtain ⟨entry, member, shown⟩ := List.mem_filterMap.mp listed
    exact held.2 entry member shown
  refine ⟨newer, fun quiet => same.of_idle fun key => ?_⟩
  cases found : unbroken.risk.pendingByClient.get? key with
  | none => rfl
  | some ref =>
      have older := kept.accounts.sound.allocated (.pending key) ref
        (pending_of_quiet settings quiet found)
      exact absurd (newer key ref found) (not_le.mpr older)

/-- A bid rests and an ask is still pending at the dump; the ask is accepted after it and trades. -/
theorem pending_ask_restored :
    let bid : SubmitOrderRequest := ⟨1, 1, .buy, .gtc, some 100, 10, .limit, by decide, by decide,
      by decide, by decide, rfl⟩
    let ask : SubmitOrderRequest := ⟨1, 1, .sell, .gtc, some 100, 4, .limit, by decide, by decide,
      by decide, by decide, rfl⟩
    let dumped := (start [8] 5000).run ⟨[1], 500, by decide⟩
      [.write (.createAccount ⟨0, 1, 7⟩), .answer 1, .watch, .submit 7 bid 0, .append 0, .answer 2,
        .watch, .submit 8 ask 0, .append 1]
    let unbroken := dumped.run ⟨[1], 500, by decide⟩ [.answer 3, .watch, .watch, .watch]
    ∃ loaded, (RiskState.new [8]).loadState dumped.risk.dumpState = some loaded ∧
      (loaded.replayTo unbroken.outbound unbroken.risk.lastSeq).SameBooks unbroken.risk := by
  intro bid ask
  have allowed : Along (step ⟨[1], 500, by decide⟩) Allowed (start [8] 5000)
      ([.write (.createAccount ⟨0, 1, 7⟩), .answer 1, .watch, .submit 7 bid 0, .append 0, .answer 2,
        .watch, .submit 8 ask 0, .append 1] ++ [.answer 3, .watch, .watch, .watch]) := by
    decide +kernel
  have restored := risk_checkpoint_is_exact _ _ _ _ _ allowed
  dsimp only at restored ⊢
  exact restored.imp fun loaded held =>
    ⟨held.1, (held.2.2 (by decide +kernel)).2 (by decide)⟩

end System

end QuantArena.Gateway
