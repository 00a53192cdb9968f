import QuantArena.Gateway.Exactness

/-! What is in flight and what is pending. While a reservation is given up only for an
order that is never appended, each order on its way to its acceptance has a pending
entry of its own, and each pending entry has such an order or a call still to send one. -/

set_option autoImplicit false

namespace QuantArena.Gateway

open Foundations Foundations.PriceTime Contracts Exchange

/-- What is reserved for an order until it is accepted. -/
def reservationFor (order : SubmitOrder) : Reservation where
  userId := order.userId
  orderId := none
  clientOrderId := order.clientOrderId
  symbolId := order.symbolId
  side := order.side
  priceTicks := order.priceTicks
  qty := order.qty

def Reservation.key (reservation : Reservation) : Int × Int :=
  (reservation.userId, reservation.clientOrderId)

/-- The pending reservation that an inbound record is on its way with. -/
def sentWith : Inbound → Option Reservation
  | .submitOrder order => some (reservationFor order)
  | _ => none

/-- The pending reservation that an outbound record takes over. -/
def takenBy : Outbound → Option Reservation
  | .orderAccepted accepted => some { RiskState.replayed accepted with orderId := none }
  | _ => none

/-- The engine will not turn the record down. -/
def Admitted : Inbound → Prop
  | .submitOrder order => ∃ choice, Market.admission order = .ok choice
  | _ => True

/-- A submission is answered with one acceptance, which takes over what it was sent with. -/
theorem takenBy_answers (market : Market) (cash : Int) {record : Inbound} (admitted : Admitted record) :
    (market.apply cash record).2.filterMap takenBy = (sentWith record).toList := by
  cases record with
  | submitOrder order =>
      obtain ⟨⟨side, tif⟩, passes⟩ := admitted
      simp only [Market.apply, Market.submit, passes, List.filterMap_cons, takenBy,
        List.filterMap_append, List.filterMap_map, Function.comp_def]
      rw [List.filterMap_eq_nil_iff.mpr fun _ _ => rfl, List.filterMap_eq_nil_iff.mpr fun _ _ => rfl]
      rfl
  | cancelOrder request =>
      simp only [Market.apply, Market.cancel]
      split <;> rfl
  | createAccount _ => rfl
  | creditCash _ => rfl
  | configureReplay _ => rfl
  | other => rfl

namespace RiskState

variable {risk : RiskState}

theorem Sound.waiting_releaseFill (sound : risk.Sound) (orderId qty : Int) :
    (risk.releaseFillWith clamped orderId qty).Sound ∧
      (risk.releaseFillWith clamped orderId qty).waiting = risk.waiting := by
  cases found : risk.opened.get? orderId with
  | none =>
      rw [releaseFillWith_of_absent clamped qty found]
      exact ⟨sound, rfl⟩
  | some reservation =>
      obtain ⟨after, -, waiting, -⟩ := sound.releaseFillWith clamped qty found
      exact ⟨after, waiting⟩

/-- Only an acceptance takes a pending reservation: the one under its own key. -/
theorem Sound.waiting_apply (sound : risk.Sound) (record : Outbound) (streamId : Option StreamId) :
    (risk.apply record streamId).waiting = match takenBy record with
      | some reservation => risk.waiting.erase reservation.key
      | none => risk.waiting := by
  rw [RiskState.apply]
  have placed : RiskState.Sound { risk with lastSeq := streamId.getD risk.lastSeq } :=
    sound.keep rfl fun slot _ found => by cases slot <;> exact found
  cases record with
  | orderAccepted accepted =>
      cases present : risk.waiting.get? (accepted.userId, accepted.clientOrderId) with
      | none =>
          exact (placed.adopt_replayed present).2.2.1.trans (Dict.erase_eq_self present).symm
      | some reservation => exact (placed.adopt_pending present).2.2.1
  | fill fill =>
      have settled : (settle { risk with lastSeq := streamId.getD risk.lastSeq } fill).Sound :=
        placed.keep rfl fun slot _ found => by cases slot <;> exact found
      obtain ⟨first, same⟩ := settled.waiting_releaseFill fill.makerOrderId fill.qty
      exact (first.waiting_releaseFill fill.takerOrderId fill.qty).2.trans same
  | orderCancelled cancelled =>
      simp only [applyWith, takenBy]
      cases found : risk.opened.get? cancelled.orderId with
      | none =>
          have absent : (opened { risk with lastSeq := streamId.getD risk.lastSeq }).get?
              cancelled.orderId = none := found
          rw [releaseRemainingWith_of_absent clamped absent]
          rfl
      | some reservation => exact (placed.releaseRemainingWith clamped found).2.2.1
  | accountCreated _ => rfl
  | cashCredited _ => rfl
  | orderRejected _ => rfl
  | bookChanged _ => rfl
  | replayConfigured _ => rfl

theorem pendingByClient_apply (risk : RiskState) (record : Outbound) (streamId : Option StreamId) :
    (risk.apply record streamId).pendingByClient = match takenBy record with
      | some reservation => risk.pendingByClient.erase reservation.key
      | none => risk.pendingByClient := by
  rw [RiskState.apply, pendingByClient_applyWith]
  cases record <;> rfl

theorem pendingByClient_abandon {ref : Ref}
    (own : risk.pendingByClient.get? ((risk.object ref).userId, (risk.object ref).clientOrderId) =
      some ref) :
    (risk.abandon ref).pendingByClient =
      risk.pendingByClient.erase ((risk.object ref).userId, (risk.object ref).clientOrderId) := by
  unfold abandon release
  simp only [own, if_true, releaseWith_pendingByClient]

end RiskState

/-- The call has reserved, and its order is still to be appended. -/
def Submission.Open (submission : Submission) : Prop :=
  submission.appended = false ∧ submission.awaiting = true

namespace System

/-- The outbound records that the watcher has still to apply. -/
def undelivered (system : System) : List Outbound :=
  (system.outbound.entries.filter fun entry => system.risk.lastSeq < entry.1).map (·.2)

/-- The pending reservations of the orders on their way to the watcher, the next one first. -/
def owed (system : System) : List Reservation :=
  system.undelivered.filterMap takenBy ++ (system.inbound.drop system.answered).filterMap sentWith

/-- Reservations are given up for orders that are never appended, and for no others. -/
def Allowed (system : System) : Action → Prop
  | .append ref => ∀ submission ∈ system.submissions.get? ref,
      submission.appended = false → submission.awaiting = true
  | .abandon ref => ∀ submission ∈ system.submissions.get? ref,
      submission.awaiting = true → submission.appended = false
  | _ => True

instance (system : System) : (action : Action) → Decidable (system.Allowed action)
  | .append ref => inferInstanceAs (Decidable (∀ submission ∈ system.submissions.get? ref,
      submission.appended = false → submission.awaiting = true))
  | .abandon ref => inferInstanceAs (Decidable (∀ submission ∈ system.submissions.get? ref,
      submission.awaiting = true → submission.appended = false))
  | .submit _ _ _ => .isTrue trivial
  | .finish _ => .isTrue trivial
  | .write _ => .isTrue trivial
  | .expire _ => .isTrue trivial
  | .answer _ => .isTrue trivial
  | .watch => .isTrue trivial

structure Backed (system : System) : Prop where
  admitted : ∀ record ∈ system.inbound.drop system.answered, Admitted record
  distinct : (system.owed.map Reservation.key).Nodup
  pending : ∀ reservation ∈ system.owed,
    system.risk.waiting.get? reservation.key = some reservation
  reserved : ∀ ref submission, system.submissions.get? ref = some submission → submission.Open →
    system.risk.pendingByClient.get? submission.key = some ref ∧
    system.risk.waiting.get? submission.key = some (reservationFor submission.order) ∧
    Admitted (.submitOrder submission.order) ∧
    submission.key ∉ system.owed.map Reservation.key
  covered : ∀ key ref, system.risk.pendingByClient.get? key = some ref →
    (∃ submission, system.submissions.get? ref = some submission ∧ submission.Open ∧
      submission.key = key) ∨ key ∈ system.owed.map Reservation.key

theorem start_backed (marketMakers : List Int) (initialCashTicks : Int) :
    (start marketMakers initialCashTicks).Backed where
  admitted _ member := by cases member
  distinct := List.nodup_nil
  pending _ member := by cases member
  reserved _ _ found := by cases found
  covered _ _ found := by cases found

variable {system : System} {initialCashTicks : Int} {seen : Nat}

/-! ## What is owed after each step -/

theorem Feeds.undelivered (feeds : system.Feeds initialCashTicks seen) :
    system.undelivered = system.outbound.records.drop seen := by
  rw [System.undelivered, feeds.position, Stream.filter_position_lt, Stream.records, List.map_drop]

theorem owed_append (feeds : system.Feeds initialCashTicks seen) (record : Inbound)
    (submissions : Dict Ref Submission) (claimed : Finset IdempotencyKey) :
    owed { system with
      submissions := submissions
      claimed := claimed
      inbound := system.inbound ++ [record] } = system.owed ++ (sentWith record).toList := by
  have last : [record].filterMap sentWith = (sentWith record).toList := by
    cases own : sentWith record <;> simp [own]
  simp only [owed, undelivered]
  rw [List.drop_append_of_le_length feeds.answered, List.filterMap_append, last, List.append_assoc]

theorem owed_answer (feeds : system.Feeds initialCashTicks seen)
    (admitted : ∀ record ∈ system.inbound.drop system.answered, Admitted record) (now : Nat) :
    (system.answer now).owed = system.owed ∧
      ∀ record ∈ (system.answer now).inbound.drop (system.answer now).answered,
        record ∈ system.inbound.drop system.answered := by
  have within := feeds.within
  rw [← Stream.length_records] at within
  rw [owed, owed, (feeds.answer now).undelivered, feeds.undelivered]
  unfold System.answer
  cases next : system.inbound[system.answered]? with
  | none => exact ⟨rfl, fun _ member => member⟩
  | some record =>
      obtain ⟨answers, rfl⟩ := List.getElem?_eq_some_iff.mp next
      have split := List.drop_eq_getElem_cons answers
      have valid := Market.run_valid initialCashTicks Market.fresh_valid
        (system.inbound.take system.answered)
      obtain ⟨after, applied, -⟩ := Matcher.NaiveMatcher.apply_ok feeds.represents valid
        system.inbound[system.answered]
      have taken := takenBy_answers (system.market initialCashTicks).1
        system.matcher.initialCashTicks (admitted _ (split ▸ List.mem_cons_self))
      have sent : (sentWith system.inbound[system.answered]).toList ++
          (system.inbound.drop (system.answered + 1)).filterMap sentWith =
          (system.inbound.drop system.answered).filterMap sentWith := by
        rw [split, List.filterMap_cons]
        cases sentWith system.inbound[system.answered] <;> rfl
      simp only [applied]
      refine ⟨?_, fun later member => split ▸ List.mem_cons_of_mem _ member⟩
      rw [Stream.records_appendAll, List.drop_append_of_le_length within, List.filterMap_append,
        List.append_assoc, ← sent]
      exact congrArg (_ ++ ·) (congrArg (· ++ _) taken)

theorem owed_watch (feeds : system.Feeds initialCashTicks seen) {entry : StreamId × Outbound}
    (next : system.next? = some entry) : system.owed = (takenBy entry.2).toList ++
      owed { system with risk := system.risk.apply entry.2 (some entry.1) } := by
  obtain ⟨after, -⟩ := feeds.watch next
  have found := feeds.next? ▸ next
  obtain ⟨within, same⟩ := List.getElem?_eq_some_iff.mp found
  have split : system.outbound.records.drop seen =
      entry.2 :: system.outbound.records.drop (seen + 1) := by
    rw [Stream.records, ← List.map_drop, ← List.map_drop, List.drop_eq_getElem_cons within, same,
      List.map_cons]
  rw [owed, owed, feeds.undelivered, after.undelivered, split, List.filterMap_cons]
  cases takenBy entry.2 <;> rfl

/-! ## Steps -/

/-- A step that neither reserves, nor takes a reservation over, nor sends an order. -/
theorem Backed.aside (backed : system.Backed) {next : System} (owed : next.owed = system.owed)
    (admitted : ∀ record ∈ next.inbound.drop next.answered, Admitted record)
    (waiting : next.risk.waiting = system.risk.waiting)
    (pending : next.risk.pendingByClient = system.risk.pendingByClient)
    (opens : ∀ ref submission, submission.Open →
      (next.submissions.get? ref = some submission ↔ system.submissions.get? ref = some submission)) :
    next.Backed where
  admitted := admitted
  distinct := owed ▸ backed.distinct
  pending := by
    rw [owed, waiting]
    exact backed.pending
  reserved ref submission found isOpen := by
    rw [owed, waiting, pending]
    exact backed.reserved ref submission ((opens ref submission isOpen).mp found) isOpen
  covered key ref found := by
    rw [pending] at found
    rw [owed]
    rcases backed.covered key ref found with ⟨submission, present, isOpen, same⟩ | promised
    · exact .inl ⟨submission, (opens ref submission isOpen).mpr present, isOpen, same⟩
    · exact .inr promised

theorem owed_aside {next : System} (inbound : next.inbound = system.inbound)
    (answered : next.answered = system.answered) (outbound : next.outbound = system.outbound)
    (lastSeq : next.risk.lastSeq = system.risk.lastSeq) : next.owed = system.owed := by
  rw [owed, owed, undelivered, undelivered, inbound, answered, outbound, lastSeq]

/-- Two calls still to send never share a key. -/
theorem Backed.apart (backed : system.Backed) {left right : Ref} {first second : Submission}
    (found : system.submissions.get? left = some first) (opens : first.Open)
    (other : system.submissions.get? right = some second) (alsoOpens : second.Open)
    (same : first.key = second.key) : left = right := by
  have one := (backed.reserved left first found opens).1
  have two := (backed.reserved right second other alsoOpens).1
  rw [same, two] at one
  exact (Option.some.inj one).symm

theorem Backed.submit (backed : system.Backed) (sound : system.risk.Sound) {settings : Settings}
    {body : SubmitOrderRequest} {userId now : Int} {order : SubmitOrder} {risk : RiskState}
    (decided : body.decide settings system.risk userId now = .append order risk)
    (positive : 0 < order.priceTicks ∧ 0 < order.qty) :
    Backed { system with
      risk := risk
      submissions := system.submissions.set system.risk.objects.fresh ⟨order, false, true⟩ } := by
  obtain ⟨free, -, -, side, -, -, held⟩ := SubmitOrderRequest.decide_append decided
  obtain ⟨-, -, waiting⟩ := sound.reserve held
  obtain ⟨-, opened⟩ := RiskState.reserve_eq_ok held
  have pending : risk.pendingByClient = system.risk.pendingByClient.set
      (order.userId, order.clientOrderId) system.risk.objects.fresh := by rw [opened]
  have owed : System.owed { system with
      risk := risk
      submissions := system.submissions.set system.risk.objects.fresh ⟨order, false, true⟩ } =
      system.owed := owed_aside rfl rfl rfl (samePlace_decide decided).1
  have unowed : (order.userId, order.clientOrderId) ∉ system.owed.map Reservation.key := by
    intro listed
    obtain ⟨reservation, member, same⟩ := List.mem_map.mp listed
    have present := backed.pending reservation member
    rw [same, RiskState.get?_waiting, free] at present
    cases present
  have earlier : ∀ key ref, system.risk.pendingByClient.get? key = some ref →
      ref ≠ system.risk.objects.fresh ∧ key ≠ (order.userId, order.clientOrderId) := by
    intro key ref found
    refine ⟨(sound.allocated (.pending key) ref found).ne, ?_⟩
    rintro rfl
    rw [free] at found
    cases found
  have admitted : Admitted (.submitOrder order) := by
    have tif := SubmitOrderRequest.decide_tif decided
    exact ⟨(body.side, body.sentTif), Market.admission_eq_ok.mpr
      ⟨sideOf?_eq_some_iff.mpr side, tifOf?_eq_some_iff.mpr tif, positive⟩⟩
  refine ⟨backed.admitted, owed ▸ backed.distinct, ?_, ?_, ?_⟩
  · intro reservation member
    rw [owed] at member
    have present := backed.pending reservation member
    have different : reservation.key ≠ (order.userId, order.clientOrderId) := fun same =>
      unowed (same ▸ List.mem_map_of_mem member)
    rw [waiting, Dict.get?_set_of_ne _ _ different]
    exact present
  · intro ref submission found opens
    rw [owed]
    simp only [Dict.get?_set] at found
    split at found
    · rename_i same
      cases found
      simp only [pending, waiting, Submission.key, Dict.get?_set_self, same]
      exact ⟨trivial, rfl, admitted, unowed⟩
    · obtain ⟨own, present, passes, apart⟩ := backed.reserved ref submission found opens
      have different := (earlier _ _ own).2
      rw [pending, waiting, Dict.get?_set_of_ne _ _ different, Dict.get?_set_of_ne _ _ different]
      exact ⟨own, present, passes, apart⟩
  · intro key ref found
    rw [owed]
    simp only [pending, Dict.get?_set] at found
    split at found
    · rename_i same
      cases found
      exact .inl ⟨⟨order, false, true⟩, Dict.get?_set_self .., ⟨rfl, rfl⟩, same.symm⟩
    · rcases backed.covered key ref found with ⟨submission, present, opens, same⟩ | promised
      · refine .inl ⟨submission, ?_, opens, same⟩
        rw [Dict.get?_set_of_ne _ _ (earlier key ref found).1]
        exact present
      · exact .inr promised

theorem Backed.append (backed : system.Backed) (feeds : system.Feeds initialCashTicks seen)
    {ref : Ref} {submission : Submission}
    (found : system.submissions.get? ref = some submission) (opens : submission.Open) :
    Backed { system with
      submissions := system.submissions.set ref { submission with appended := true }
      claimed := insert submission.key system.claimed
      inbound := system.inbound ++ [.submitOrder submission.order] } := by
  obtain ⟨own, present, passes, unowed⟩ := backed.reserved ref submission found opens
  have owed := owed_append feeds (.submitOrder submission.order)
    (system.submissions.set ref { submission with appended := true })
    (insert submission.key system.claimed)
  have sent : (sentWith (.submitOrder submission.order)).toList =
      [reservationFor submission.order] := rfl
  have key : (reservationFor submission.order).key = submission.key := rfl
  rw [sent] at owed
  -- A call that is still to send is another one, under another key.
  have others : ∀ other later, (system.submissions.set ref
      { submission with appended := true }).get? other = some later → later.Open →
      system.submissions.get? other = some later ∧ later.key ≠ submission.key := by
    intro other later listed isOpen
    rw [Dict.get?_set] at listed
    split at listed
    · cases listed
      cases isOpen.1
    · rename_i different
      exact ⟨listed, fun same => different (backed.apart listed isOpen found opens same)⟩
  refine ⟨?_, ?_, ?_, ?_, ?_⟩
  · intro record member
    simp only [List.drop_append_of_le_length feeds.answered] at member
    rcases List.mem_append.mp member with earlier | last
    · exact backed.admitted record earlier
    · rw [List.mem_singleton.mp last]
      exact passes
  · rw [owed, List.map_append]
    refine List.nodup_append'.mpr ⟨backed.distinct, List.nodup_singleton _, ?_⟩
    intro name earlier last
    rw [List.mem_singleton.mp last] at earlier
    exact unowed earlier
  · intro reservation member
    rw [owed] at member
    rcases List.mem_append.mp member with earlier | last
    · exact backed.pending reservation earlier
    · rw [List.mem_singleton.mp last]
      exact present
  · intro other later listed isOpen
    obtain ⟨stored, different⟩ := others other later listed isOpen
    obtain ⟨pending, waiting, admitted, apart⟩ := backed.reserved other later stored isOpen
    refine ⟨pending, waiting, admitted, ?_⟩
    rw [owed, List.map_append]
    intro listed
    rcases List.mem_append.mp listed with earlier | last
    · exact apart earlier
    · exact different (List.mem_singleton.mp last)
  · intro name other pending
    rw [owed, List.map_append]
    rcases backed.covered name other pending with ⟨later, stored, isOpen, same⟩ | promised
    · by_cases here : other = ref
      · subst here
        rw [found] at stored
        cases stored
        exact .inr (List.mem_append_right _ (List.mem_singleton.mpr same.symm))
      · refine .inl ⟨later, ?_, isOpen, same⟩
        rw [Dict.get?_set_of_ne _ _ here]
        exact stored
    · exact .inr (List.mem_append_left _ promised)

theorem Backed.finish (backed : system.Backed) {ref : Ref} {submission : Submission}
    (found : system.submissions.get? ref = some submission) (appended : submission.appended = true) :
    Backed { system with
      submissions := system.submissions.set ref { submission with awaiting := false } } := by
  refine backed.aside rfl backed.admitted rfl rfl fun other later isOpen => ?_
  rw [Dict.get?_set]
  split
  · rename_i same
    subst same
    rw [found]
    constructor
    · rintro ⟨⟩
      cases isOpen.2
    · rintro ⟨⟩
      rw [isOpen.1] at appended
      cases appended
  · exact Iff.rfl

/-- What is given up is still pending under its key. -/
theorem Backed.own (backed : system.Backed) {ref : Ref} {submission : Submission}
    (found : system.submissions.get? ref = some submission) (opens : submission.Open) :
    system.risk.object ref = reservationFor submission.order ∧
      system.risk.pendingByClient.get? ((system.risk.object ref).userId,
        (system.risk.object ref).clientOrderId) = some ref := by
  obtain ⟨own, present, -, -⟩ := backed.reserved ref submission found opens
  have object : system.risk.object ref = reservationFor submission.order := by
    rw [RiskState.get?_waiting, own, Option.map_some] at present
    exact Option.some.inj present
  refine ⟨object, ?_⟩
  rw [object]
  exact own

theorem Backed.abandon (backed : system.Backed) (sound : system.risk.Sound) {ref : Ref}
    {submission : Submission} (found : system.submissions.get? ref = some submission)
    (opens : submission.Open) :
    Backed { system with
      risk := system.risk.abandon ref
      submissions := system.submissions.set ref { submission with awaiting := false } } := by
  obtain ⟨-, -, -, unowed⟩ := backed.reserved ref submission found opens
  obtain ⟨object, pendingOwn⟩ := backed.own found opens
  have key : ((system.risk.object ref).userId, (system.risk.object ref).clientOrderId) =
      submission.key := by
    rw [object]
    rfl
  obtain ⟨-, -, waiting, -⟩ := sound.abandon pendingOwn
  have pending := RiskState.pendingByClient_abandon pendingOwn
  rw [key] at waiting pending
  have owed : System.owed { system with
      risk := system.risk.abandon ref
      submissions := system.submissions.set ref { submission with awaiting := false } } =
      system.owed := owed_aside rfl rfl rfl (RiskState.samePlace_abandon system.risk ref).1
  refine ⟨backed.admitted, owed ▸ backed.distinct, ?_, ?_, ?_⟩
  · intro reservation member
    rw [owed] at member
    have different : reservation.key ≠ submission.key := fun same =>
      unowed (same ▸ List.mem_map_of_mem member)
    rw [waiting, Dict.get?_erase_of_ne _ different]
    exact backed.pending reservation member
  · intro other later listed isOpen
    rw [owed]
    simp only [Dict.get?_set] at listed
    split at listed
    · cases listed
      cases isOpen.2
    · rename_i away
      obtain ⟨stored, shown, admitted, apart⟩ := backed.reserved other later listed isOpen
      have different : later.key ≠ submission.key := fun same =>
        away (backed.apart listed isOpen found opens same)
      rw [pending, waiting, Dict.get?_erase_of_ne _ different, Dict.get?_erase_of_ne _ different]
      exact ⟨stored, shown, admitted, apart⟩
  · intro name other listed
    rw [owed]
    rw [pending, Dict.get?_erase] at listed
    split at listed
    · cases listed
    · rename_i different
      rcases backed.covered name other listed with ⟨later, stored, isOpen, same⟩ | promised
      · refine .inl ⟨later, ?_, isOpen, same⟩
        have away : other ≠ ref := by
          rintro rfl
          rw [found] at stored
          cases stored
          exact different same.symm
        rw [Dict.get?_set_of_ne _ _ away]
        exact stored
      · exact .inr promised

theorem Backed.watch (backed : system.Backed) (sound : system.risk.Sound)
    (feeds : system.Feeds initialCashTicks seen) {entry : StreamId × Outbound}
    (next : system.next? = some entry) :
    Backed { system with risk := system.risk.apply entry.2 (some entry.1) } := by
  have owed := owed_watch feeds next
  have waiting := sound.waiting_apply entry.2 (some entry.1)
  have pending := RiskState.pendingByClient_apply system.risk entry.2 (some entry.1)
  cases taken : takenBy entry.2 with
  | none =>
      rw [taken] at owed waiting pending
      exact backed.aside owed.symm backed.admitted waiting pending fun _ _ _ => Iff.rfl
  | some reservation =>
      rw [taken, Option.toList_some, List.singleton_append] at owed
      rw [taken] at waiting pending
      simp only at waiting pending
      have distinct := backed.distinct
      rw [owed, List.map_cons, List.nodup_cons] at distinct
      refine ⟨backed.admitted, distinct.2, ?_, ?_, ?_⟩
      · intro other member
        have different : other.key ≠ reservation.key := fun same =>
          distinct.1 (same ▸ List.mem_map_of_mem member)
        rw [waiting, Dict.get?_erase_of_ne _ different]
        exact backed.pending other (owed ▸ List.mem_cons_of_mem _ member)
      · intro ref submission found opens
        obtain ⟨stored, shown, admitted, apart⟩ := backed.reserved ref submission found opens
        rw [owed, List.map_cons, List.mem_cons, not_or] at apart
        rw [waiting, pending, Dict.get?_erase_of_ne _ apart.1, Dict.get?_erase_of_ne _ apart.1]
        exact ⟨stored, shown, admitted, apart.2⟩
      · intro name ref listed
        rw [pending, Dict.get?_erase] at listed
        split at listed
        · cases listed
        · rename_i different
          rcases backed.covered name ref listed with open_ | promised
          · exact .inl open_
          · rw [owed, List.map_cons] at promised
            exact .inr ((List.mem_cons.mp promised).resolve_left different)

/-- What an acceptance finds pending is what its order was reserved for. -/
theorem Backed.matches_next (backed : system.Backed) (feeds : system.Feeds initialCashTicks seen)
    {streamId : StreamId} {accepted : OrderAccepted}
    (next : system.next? = some (streamId, .orderAccepted accepted)) :
    system.risk.waiting.get? (accepted.userId, accepted.clientOrderId) =
      some { RiskState.replayed accepted with orderId := none } := by
  have owed := owed_watch feeds next
  exact backed.pending _ (owed ▸ List.mem_append_left _ (List.mem_singleton_self _))

theorem Backed.permits (backed : system.Backed) (feeds : system.Feeds initialCashTicks seen)
    {action : Action} (allowed : system.Allowed action) : system.Permitted action := by
  cases action with
  | abandon ref =>
      intro submission found awaiting
      exact .inl (backed.own found ⟨allowed submission found awaiting, awaiting⟩).2
  | watch =>
      rintro ⟨streamId, record⟩ accepted next rfl reservation pending
      rw [backed.matches_next feeds next] at pending
      cases pending
      exact ⟨rfl, rfl, rfl, rfl⟩
  | submit _ _ _ => trivial
  | append _ => trivial
  | finish _ => trivial
  | write _ => trivial
  | expire _ => trivial
  | answer _ => trivial

theorem Backed.step (settings : Settings) (backed : system.Backed)
    (kept : system.Kept initialCashTicks) {action : Action} (allowed : system.Allowed action) :
    (system.step settings action).Backed := by
  obtain ⟨seen, feeds⟩ := kept.feeds
  have moves := step_moves settings system action
  generalize system.step settings action = next at moves
  cases moves with
  | idle => exact backed
  | submit decided =>
      exact backed.submit kept.accounts.sound decided
        ((kept.accounts.offersPriced kept.priced).decide_positive decided)
  | append found waiting _ => exact backed.append feeds found ⟨waiting, allowed _ found waiting⟩
  | finish found appended => exact backed.finish found appended
  | abandon found awaiting =>
      exact backed.abandon kept.accounts.sound found ⟨allowed _ found awaiting, awaiting⟩
  | @write record foreign =>
      have nothing : sentWith record = none := by
        cases record with
        | submitOrder order => exact absurd rfl (foreign order)
        | _ => rfl
      have owed := owed_append feeds record system.submissions system.claimed
      rw [nothing, Option.toList_none, List.append_nil] at owed
      refine backed.aside owed ?_ rfl rfl fun _ _ _ => Iff.rfl
      intro later member
      simp only [List.drop_append_of_le_length feeds.answered] at member
      rcases List.mem_append.mp member with earlier | last
      · exact backed.admitted later earlier
      · rw [List.mem_singleton.mp last]
        cases record with
        | submitOrder order => exact absurd rfl (foreign order)
        | _ => trivial
  | expire => exact backed.aside rfl backed.admitted rfl rfl fun _ _ _ => Iff.rfl
  | answer now =>
      obtain ⟨owed, earlier⟩ := owed_answer feeds backed.admitted now
      have submissions : (system.answer now).submissions = system.submissions :=
        submissions_answer system now
      refine backed.aside owed (fun record member => backed.admitted record (earlier record member))
        ?_ ?_ fun _ _ _ => by rw [submissions]
      · rw [risk_answer]
      · rw [risk_answer]
  | watch next => exact backed.watch kept.accounts.sound feeds next

/-- An allowed run keeps its accounts, and what it owes is backed. -/
theorem run_backed (settings : Settings) (marketMakers : List Int) (initialCashTicks : Int)
    {actions : List Action}
    (allowed : Along (step settings) Allowed (start marketMakers initialCashTicks) actions) :
    ((start marketMakers initialCashTicks).run settings actions).Kept initialCashTicks ∧
      ((start marketMakers initialCashTicks).run settings actions).Backed := by
  refine @Along.invariant _ _ _ _ (fun system => system.Kept initialCashTicks ∧ system.Backed)
    ?_ _ _ ⟨start_kept marketMakers initialCashTicks, start_backed marketMakers initialCashTicks⟩
    allowed
  rintro system action ⟨kept, backed⟩ allowed
  obtain ⟨seen, feeds⟩ := kept.feeds
  exact ⟨kept.step settings (backed.permits feeds allowed), backed.step settings kept allowed⟩

end System

end QuantArena.Gateway
