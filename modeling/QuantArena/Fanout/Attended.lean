import QuantArena.Fanout.Quotes

/-! A connection of a fan-out process that may go and come back, and the levels that the stream
makes. -/

set_option autoImplicit false

namespace QuantArena.Fanout

open Foundations Foundations.PriceTime Contracts

/-! ## What a process serves one connection -/

/-- An id of the stream, or the place before all of it. -/
def Issued (stream : Stream Outbound) (seq : StreamId) : Prop :=
  seq = .start ∨ ∃ entry ∈ stream.entries, entry.1 = seq

theorem issued_position (stream : Stream Outbound) (seen : Nat) :
    Issued stream (stream.position seen) := by
  unfold Stream.position
  split
  · rename_i entry last
    exact .inr ⟨entry, List.mem_of_mem_take (List.mem_of_getLast? last), rfl⟩
  · exact .inl rfl

theorem Issued.grows {stream longer : Stream Outbound} {seq : StreamId} (issued : Issued stream seq)
    (grows : stream.entries <+: longer.entries) : Issued longer seq := by
  cases issued with
  | inl start => exact .inl start
  | inr among =>
      obtain ⟨entry, member, same⟩ := among
      exact .inr ⟨entry, grows.subset member, same⟩

namespace Service

variable {settings : Settings} {service : Service} {id : ConnectionId} {symbol : Symbol}
  {tier : Tier} {stream longer : Stream Outbound} {seen : Nat}

/-- What holds of a service and its connection `id` while it is up. -/
structure Attended (settings : Settings) (stream : Stream Outbound) (id : ConnectionId)
    (symbol : Symbol) (tier : Tier) (service : Service) : Prop where
  sound : service.Sound
  orderly : service.Orderly
  current : service.Current settings id symbol tier
  quoting : service.Quoting settings (Issued stream) id symbol tier

theorem Attended.start (settings : Settings) (stream : Stream Outbound) (id : ConnectionId)
    (symbol : Symbol) (tier : Tier) (market : MarketState) (ahead : List (StreamId × Outbound)) :
    (start market ahead).Attended settings stream id symbol tier := by
  have sound := start_sound market ahead
  have nobody : ∀ subscriber,
      (Service.start market ahead).hub.subscribers.get? id ≠ some subscriber := by
    intro subscriber present
    rw [sound.counted id (Nat.zero_le id)] at present
    cases present
  exact ⟨sound, start_orderly market ahead, fun _ _ present => absurd present (nobody _),
    fun _ present => absurd present (nobody _)⟩

theorem Attended.step (listed : symbol ∈ settings.symbols.listed)
    (attended : service.Attended settings stream id symbol tier)
    {barWidths : List BarWidth} (follows : service.Follows barWidths stream seen) (action : Action)
    (takes : service.TakesBook id symbol tier action) (one : OneTier id symbol tier action) :
    (service.step settings action).Attended settings stream id symbol tier := by
  have place : Issued stream service.market.lastSeq := by
    rw [follows.stands.place]
    exact issued_position stream seen
  constructor
  · exact (attended.sound.step settings action).1
  · exact attended.orderly.step attended.sound action
  · exact attended.current.step listed attended.sound action takes
  · exact attended.quoting.step listed attended.sound follows place action one

theorem Attended.extend (attended : service.Attended settings stream id symbol tier)
    (grows : stream.entries <+: longer.entries) (more : List (StreamId × Outbound)) :
    (service.extend more).Attended settings longer id symbol tier := by
  constructor
  · exact ⟨attended.sound.indexed, attended.sound.counted⟩
  · exact attended.orderly
  · exact attended.current
  · intro subscriber present
    have receives := attended.quoting subscriber present
    exact ⟨receives.origin, receives.quoted,
      fun quote member => (receives.kinds quote member).grows grows, receives.apart⟩

end Service

namespace Deployment

variable {settings : Settings} {batchSize : Nat} {deployment : Deployment} {id : ConnectionId}
  {symbol : Symbol} {tier : Tier}

/-- Connection `id` asks for one tier of the symbol's book, and takes the frames of it at every
tick where one is due to it. -/
def Attends (id : ConnectionId) (symbol : Symbol) (tier : Tier) (deployment : Deployment) :
    Action → Prop
  | .serve action => (∀ service ∈ deployment.process, service.TakesBook id symbol tier action) ∧
      Service.OneTier id symbol tier action
  | _ => True

instance (deployment : Deployment) :
    (action : Action) → Decidable (deployment.Attends id symbol tier action)
  | .serve _ => inferInstanceAs (Decidable ((∀ _ ∈ _, _) ∧ _))
  | .append _ _ | .boot _ | .checkpoint _ | .crash | .loseCheckpoint => .isTrue trivial

theorem writeCheckpoint_process (deployment : Deployment) (market : MarketState) (outcome : Outcome) :
    (deployment.writeCheckpoint market outcome).1.process = deployment.process ∧
      (deployment.writeCheckpoint market outcome).1.outbound = deployment.outbound := by
  cases outcome with
  | done => exact ⟨rfl, rfl⟩
  | lost => exact ⟨rfl, rfl⟩
  | unknown carried =>
      cases carried with
      | false => exact ⟨rfl, rfl⟩
      | true => exact ⟨rfl, rfl⟩

theorem boot_process {outcome : Outcome} {service : Service} (down : deployment.process = none)
    (up : (deployment.boot settings batchSize outcome).process = some service) :
    ∃ market, service = .start market [] := by
  unfold Deployment.boot at up
  split at up
  · rw [down] at up
    cases up
  · rename_i market _ _
    split at up
    · exact ⟨market, (Option.some.inj up).symm⟩
    · rename_i next written
      have kept := (deployment.writeCheckpoint_process market outcome).1
      rw [written] at kept
      rw [kept, down] at up
      cases up

theorem act_attended (listed : symbol ∈ settings.symbols.listed) (sound : deployment.Sound settings)
    (attended : ∀ service, deployment.process = some service →
      service.Attended settings deployment.outbound id symbol tier)
    (action : Action) (attends : deployment.Attends id symbol tier action) {service : Service}
    (up : (deployment.act settings batchSize action).process = some service) :
    service.Attended settings (deployment.act settings batchSize action).outbound id symbol tier := by
  cases action with
  | append now records =>
      obtain ⟨before, was, rfl⟩ := Option.map_eq_some_iff.mp up
      obtain ⟨more, whole⟩ := deployment.outbound.entries_appendAll now records
      exact (attended before was).extend ⟨more, whole⟩ _
  | boot outcome =>
      simp only [Deployment.act] at up ⊢
      split at up
      · rename_i down
        obtain ⟨market, rfl⟩ := boot_process down up
        exact .start settings _ id symbol tier market []
      · exact attended service up
  | serve action =>
      obtain ⟨before, was, rfl⟩ := Option.map_eq_some_iff.mp up
      obtain ⟨seen, follows⟩ := (sound.served before was).follows
      exact (attended before was).step listed follows action (attends.1 before was) attends.2
  | checkpoint outcome =>
      simp only [Deployment.act] at up ⊢
      split at up
      · exact attended service up
      · rename_i serving _
        obtain ⟨process, outbound⟩ := deployment.writeCheckpoint_process serving.market outcome
        rw [process] at up
        simp only [outbound]
        exact attended service up
  | crash => cases up
  | loseCheckpoint => exact attended service up

theorem run_attended (listed : symbol ∈ settings.symbols.listed) (reads : 0 < batchSize)
    (sound : deployment.Sound settings)
    (attended : ∀ service, deployment.process = some service →
      service.Attended settings deployment.outbound id symbol tier)
    {actions : List Action}
    (along : Along (act settings batchSize) (Attends id symbol tier) deployment actions)
    {service : Service} (up : (deployment.run settings batchSize actions).process = some service) :
    service.Attended settings (deployment.run settings batchSize actions).outbound id symbol tier := by
  induction actions generalizing deployment with
  | nil => exact attended service up
  | cons action rest ih =>
      exact ih (sound.act reads action)
        (fun _ now => act_attended listed sound attended action along.1 now) along.2 up

end Deployment

/-! ## The levels of the stream -/

theorem book_of_stream {stream : Stream Outbound} (lawful : Exchange.Tape.blank.LawfulAll stream.records)
    {barWidths : List BarWidth} {market : MarketState} {seen : Nat}
    (alike : market.Alike ((projection barWidths).fold (stream.entries.take seen)))
    (symbolId : Int) (side : Side) :
    ∃ levels, Ladder (Exchange.onSymbol symbolId
        (Exchange.Tape.blank.readAll (stream.records.take seen)).live) side levels ∧
      ∀ depth, (market.book symbolId).levels (sideCode side) depth = levels.take depth := by
  have first : Exchange.Tape.blank.LawfulAll (stream.records.take seen) := by
    rw [← List.take_append_drop seen stream.records] at lawful
    exact (Exchange.Tape.lawfulAll_append.mp lawful).1
  have told : ((stream.entries.take seen).map fun entry => (entry.2, some entry.1)).map Prod.fst =
      stream.records.take seen := by
    rw [List.map_map, Stream.records, List.map_take]
    rfl
  have follows := (MarketState.new_follows barWidths).applyAll Exchange.Tape.blank_valid
    (told.symm ▸ first)
  rw [told, ← fold_eq] at follows
  have valid := Exchange.Tape.blank_valid.readAll first
  obtain ⟨levels, ladder, taken⟩ := (follows symbolId).ladder
    (fun order member => valid.wellFormed.positive order (Exchange.mem_onSymbol.mp member).1) side
  refine ⟨levels, ladder, fun depth => ?_⟩
  rw [Book.levels_same (alike.books symbolId), taken]

end QuantArena.Fanout
