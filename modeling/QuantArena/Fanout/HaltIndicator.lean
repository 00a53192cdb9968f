import QuantArena.Fanout.Reading

/-! Whether a client knows that the exchange is halted. One frame is broadcast for each
transition, to whoever is there and takes market frames at that tick. -/

set_option autoImplicit false

namespace QuantArena.Fanout

open Foundations Contracts

/-- What a frame says of the halt. -/
def toldHalt : Message → Option Bool
  | .error .halted _ => some true
  | .error .resumed _ => some false
  | _ => none

theorem toldHalt_public : Public toldHalt := by
  intro frame kind
  cases frame with
  | error code detail =>
      cases kind with
      | inl private_ => exact absurd private_ id
      | inr reply =>
          have same : code = .unknownChannel := reply
          rw [same]
          rfl
  | _ => rfl

/-- A subscriber that was told nothing counts as told that the exchange is open. -/
def Subscriber.told (subscriber : Subscriber Message) : Bool :=
  (lastRead toldHalt subscriber.accepted).getD false

namespace Conflator

variable {settings : Settings} {market : MarketState} {halt : HaltView} {tsNs : Int}

theorem toldHalt_haltMessage (halt : HaltView) :
    toldHalt (haltMessage halt) = some halt.halted := by
  unfold haltMessage
  split
  · rename_i halted
    rw [halted]
    rfl
  · rename_i running
    rw [Bool.eq_false_iff.mpr running]
    rfl

/-- What a tick says of the halt: nothing, unless there was a transition. -/
theorem due_toldHalt (conflator : Conflator) (channels fresh : Finset Channel) :
    (due settings market halt tsNs conflator channels fresh).filterMap toldHalt =
      if halt.transitions = conflator.haltTransitions then [] else [halt.halted] := by
  have quiet : ∀ message ∈ dueBooks settings market tsNs channels fresh ++
      dueTape settings market channels ++ dueBars settings market channels,
      toldHalt message = none := by
    intro message member
    simp only [List.mem_append] at member
    obtain (quotes | prints) | closes := member
    · obtain ⟨symbol, -, quotes⟩ := List.mem_flatMap.mp quotes
      unfold dueSymbolBook at quotes
      split at quotes
      · cases quotes
      · obtain ⟨tier, -, quotes⟩ := List.mem_flatMap.mp quotes
        split at quotes
        · rw [List.mem_singleton.mp quotes]
          cases tier with
          | l1 => rfl
          | l2 => rfl
        · cases quotes
    · obtain ⟨symbol, -, prints⟩ := List.mem_flatMap.mp prints
      unfold duePrints at prints
      split at prints
      · obtain ⟨trade, -, same⟩ := List.mem_map.mp prints
        rw [← same]
        rfl
      · cases prints
    · obtain ⟨bar, -, closes⟩ := List.mem_flatMap.mp closes
      unfold dueBar at closes
      split at closes
      · cases closes
      · split at closes
        · rw [List.mem_singleton.mp closes]
          rfl
        · cases closes
  have halts : (dueHalt halt conflator).filterMap toldHalt =
      if halt.transitions = conflator.haltTransitions then [] else [halt.halted] := by
    unfold dueHalt
    split
    · rfl
    · simp [toldHalt_haltMessage]
  rw [due, List.append_assoc, List.append_assoc, List.filterMap_append, halts,
    List.filterMap_eq_nil_iff.mpr (by simpa only [List.append_assoc] using quiet), List.append_nil]

end Conflator

/-- A refresh that is no transition leaves the halt as it was. -/
theorem HaltView.refresh_cases (view : HaltView) (reading : HaltReading) :
    (view.refresh reading).1.halted = view.halted ∧
        (view.refresh reading).1.transitions = view.transitions ∨
      (view.refresh reading).1.transitions = view.transitions + 1 := by
  have each : ∀ halted reason detail, (view.set halted reason detail).1.halted = view.halted ∧
      (view.set halted reason detail).1.transitions = view.transitions ∨
        (view.set halted reason detail).1.transitions = view.transitions + 1 := by
    intro halted reason detail
    unfold HaltView.set
    split
    · exact .inl ⟨rfl, rfl⟩
    · exact .inr rfl
  cases reading with
  | unreachable error => exact each ..
  | absent => exact each ..
  | malformed => exact each ..
  | published halted reason detail => exact each ..

namespace Service

variable {settings : Settings} {service : Service} {id : ConnectionId}

/-- A transition that no tick has broadcast yet. -/
def Pending (service : Service) : Prop :=
  service.halt.transitions ≠ service.conflator.haltTransitions

instance (service : Service) : Decidable service.Pending := inferInstanceAs (Decidable (_ ≠ _))

/-- Only ticks catch up with the transitions, and a subscriber knows of every one but the
pending. -/
structure Truthful (id : ConnectionId) (service : Service) : Prop where
  behind : service.conflator.haltTransitions ≤ service.halt.transitions
  told : ∀ subscriber, service.hub.subscribers.get? id = some subscriber → ¬ service.Pending →
    subscriber.told = service.halt.halted

/-- At a tick that broadcasts a transition the subscriber takes market frames, and it has not
joined in the middle of a halt that is already broadcast. -/
def TakesHalt (id : ConnectionId) (service : Service) : Action → Prop
  | .tick _ => ∀ subscriber ∈ service.hub.subscribers.get? id, service.Pending →
      subscriber.Accepting
  | .connect _ => id = service.nextConnection → ¬ service.Pending → service.halt.halted = false
  | _ => True

instance (service : Service) : (action : Action) → Decidable (service.TakesHalt id action)
  | .tick _ => inferInstanceAs (Decidable (∀ _ ∈ _, _))
  | .connect _ => inferInstanceAs (Decidable (_ → _ → _))
  | .read | .refresh _ | .request _ _ | .leave _ | .resume _ | .written _ | .broken _ =>
      .isTrue trivial

/-- What a tick that meets the condition leaves. -/
theorem Truthful.tick (sound : service.Sound) (truthful : service.Truthful id) {tsNs : Int}
    (takes : service.TakesHalt id (.tick tsNs)) {after : Subscriber Message}
    (present : (service.step settings (.tick tsNs)).hub.subscribers.get? id = some after) :
    after.told = (service.step settings (.tick tsNs)).halt.halted := by
  have ticked : Conflator.Ticked settings service.conflator service.halt service.market tsNs
      service.hub (service.step settings (.tick tsNs)).hub :=
    Conflator.tick_ticked sound.indexed service.conflator
  rw [ticked.each id] at present
  obtain ⟨subscriber, was, rfl⟩ := Option.map_eq_some_iff.mp present
  have same : (service.step settings (.tick tsNs)).halt = service.halt := rfl
  rw [Subscriber.told, lastRead_ticked, Conflator.due_toldHalt, same]
  by_cases pending : service.Pending
  · rw [if_pos (takes subscriber was pending), if_neg pending]
    rfl
  · have known := truthful.told subscriber was pending
    rw [if_pos (not_not.mp pending)]
    split
    · exact known
    · exact known

theorem step_halt {action : Action} (noTick : ∀ tsNs, action ≠ .tick tsNs)
    (noRefresh : ∀ reading, action ≠ .refresh reading) :
    (service.step settings action).halt = service.halt ∧
      (service.step settings action).conflator = service.conflator := by
  cases action with
  | tick tsNs => exact absurd rfl (noTick tsNs)
  | refresh reading => exact absurd rfl (noRefresh reading)
  | read =>
      simp only [Service.step, Service.read]
      split
      · exact ⟨rfl, rfl⟩
      · exact ⟨rfl, rfl⟩
  | request other frame =>
      simp only [Service.step]
      split
      · exact ⟨rfl, rfl⟩
      · exact ⟨rfl, rfl⟩
  | _ => exact ⟨rfl, rfl⟩

theorem Truthful.step (sound : service.Sound) (truthful : service.Truthful id) (action : Action)
    (takes : service.TakesHalt id action) : (service.step settings action).Truthful id := by
  by_cases ticks : ∃ tsNs, action = .tick tsNs
  · obtain ⟨tsNs, rfl⟩ := ticks
    refine ⟨?_, fun after present _ => truthful.tick sound takes present⟩
    have caught : (service.step settings (.tick tsNs)).conflator.haltTransitions =
        service.halt.transitions := Conflator.tick_conflator service.conflator service.hub
    exact caught.le
  by_cases refreshes : ∃ reading, action = .refresh reading
  · obtain ⟨reading, rfl⟩ := refreshes
    have behind := truthful.behind
    obtain ⟨halted, transitions⟩ | bumped := service.halt.refresh_cases reading
    · exact ⟨transitions.symm ▸ behind, fun subscriber present quiet =>
        (truthful.told subscriber present fun pending =>
          quiet fun same => pending (transitions ▸ same)).trans halted.symm⟩
    · refine ⟨?_, fun subscriber present quiet => absurd (not_not.mp quiet) ?_⟩
      · exact behind.trans (bumped ▸ Nat.le_succ _)
      · exact fun same => absurd (bumped.symm.trans same) (Nat.ne_of_gt (Nat.lt_succ_of_le behind))
  · have noTick : ∀ tsNs, action ≠ .tick tsNs := fun tsNs same => ticks ⟨tsNs, same⟩
    obtain ⟨halt, conflator⟩ := @step_halt settings service _ noTick
      fun reading same => refreshes ⟨reading, same⟩
    refine ⟨by rw [halt, conflator]; exact truthful.behind, fun after present quiet => ?_⟩
    have before : ¬ service.Pending := by
      rwa [Pending, halt, conflator] at quiet
    rw [halt]
    obtain ⟨userId, rfl, new, fresh⟩ | ⟨subscriber, was, moved⟩ := sound.step_cases present
    · rw [fresh, takes new before]
      rfl
    · have offers := @movesFor_offers settings service _ noTick id subscriber
      rw [moved, Subscriber.told, lastRead_of_offers toldHalt_public offers]
      exact truthful.told subscriber was before

theorem run_truthful (sound : service.Sound) (truthful : service.Truthful id)
    {actions : List Action}
    (along : Along (Service.step settings) (TakesHalt id) service actions) :
    (actions.foldl (Service.step settings) service).Truthful id := by
  induction actions generalizing service with
  | nil => exact truthful
  | cons action rest ih =>
      exact ih (sound.step settings action).1 (truthful.step sound action along.1) along.2

/-- A client that joins while no broadcast halt is on, and takes market frames at every tick that
broadcasts a transition, is told the truth after every tick. -/
theorem halt_told_after_every_tick (settings : Settings) (market : MarketState)
    (ahead : List (StreamId × Outbound)) (id : ConnectionId) (actions : List Action)
    (along : Along (Service.step settings) (TakesHalt id) (start market ahead) actions)
    (before after : List Action) (tsNs : Int) (split : actions = before ++ .tick tsNs :: after)
    (subscriber : Subscriber Message)
    (present : (((before.foldl (Service.step settings) (start market ahead)).step settings
      (.tick tsNs)).hub.subscribers.get? id) = some subscriber) :
    subscriber.told = ((before.foldl (Service.step settings) (start market ahead)).step settings
      (.tick tsNs)).halt.halted := by
  rw [split] at along
  obtain ⟨early, takes, -⟩ := Along.append_iff.mp along
  have initially : (start market ahead).Truthful id := by
    refine ⟨le_rfl, fun subscriber present => ?_⟩
    rw [(start_sound market ahead).counted id (Nat.zero_le id)] at present
    cases present
  have reached := run_sound settings (start_sound market ahead) (start_orderly market ahead) before
  exact (run_truthful (start_sound market ahead) initially early).tick reached.1 takes present

/-- A client that is connected and free when a halt is broadcast. -/
def watchesTheHalt : List Action :=
  [.connect 7, .refresh (.published true (some "engine_behind") none), .tick 10]

/-- It is told. -/
theorem free_client_is_told : ∃ subscriber,
    (watchesTheHalt.foldl (Service.step oneSymbol) (start (.new []) [])).hub.subscribers.get? 0 =
      some subscriber ∧ subscriber.told = true := by
  have joined : ((watchesTheHalt.foldl (Service.step oneSymbol)
      (start (.new []) [])).hub.subscribers.get? 0).isSome = true := by decide
  obtain ⟨subscriber, present⟩ := Option.isSome_iff_exists.mp joined
  exact ⟨subscriber, present, halt_told_after_every_tick oneSymbol (.new []) [] 0 watchesTheHalt
    (by decide) (watchesTheHalt.take 2) [] 10 rfl subscriber present⟩

/-- A client joins when the halt has been broadcast. -/
def joinsDuringAHalt : Service :=
  [.refresh (.published true (some "engine_behind") none), .tick 10, .connect 7, .tick 20].foldl
    (Service.step oneSymbol) (start (.new []) [])

/-- It is not told, although it is free at the tick. -/
theorem joined_during_a_halt_untold : joinsDuringAHalt.halt.halted = true ∧
    (joinsDuringAHalt.hub.subscribers.get? 0).map (fun subscriber =>
      (subscriber.busy, subscriber.told)) = some (false, false) := by
  decide

end Service

end QuantArena.Fanout
