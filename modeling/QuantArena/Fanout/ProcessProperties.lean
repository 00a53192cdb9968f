import QuantArena.Checkpointing.CheckpointProperties
import QuantArena.Fanout.Process

/-! Whatever becomes of the fan-out process, what it serves from is the outbound stream up to a
place, and it stands before the rest of the stream. -/

set_option autoImplicit false

namespace QuantArena.Fanout

open Foundations Contracts

/-! ## The projection -/

namespace MarketState

variable {left right last : MarketState}

theorem Alike.refl (market : MarketState) : market.Alike market :=
  ⟨fun _ => rfl, fun _ _ => rfl, fun _ _ => rfl, rfl, rfl, rfl⟩

theorem Alike.trans (first : left.Alike right) (second : right.Alike last) : left.Alike last where
  known symbolId := (first.known symbolId).trans (second.known symbolId)
  books symbolId key := (first.books symbolId key).trans (second.books symbolId key)
  builders symbolId width := (first.builders symbolId width).trans (second.builders symbolId width)
  trades := first.trades.trans second.trades
  lastSeq := first.lastSeq.trans second.lastSeq
  recordsApplied := first.recordsApplied.trans second.recordsApplied

end MarketState

variable {barWidths : List BarWidth}

theorem foldl_apply (market : MarketState) (entries : List (StreamId × Outbound)) :
    entries.foldl (projection barWidths).apply market =
      market.applyAll (entries.map fun entry => (entry.2, some entry.1)) := by
  rw [MarketState.applyAll, List.foldl_map]
  rfl

theorem fold_eq (entries : List (StreamId × Outbound)) :
    (projection barWidths).fold entries =
      (MarketState.new barWidths).applyAll (entries.map fun entry => (entry.2, some entry.1)) :=
  foldl_apply _ entries

theorem lastSeq_foldl (entries : List (StreamId × Outbound)) (market : MarketState) :
    (entries.foldl (projection barWidths).apply market).lastSeq =
      Stream.reached entries market.lastSeq := by
  cases entries using List.reverseRecOn with
  | nil => rfl
  | append_singleton before entry =>
      rw [List.foldl_append, List.foldl_cons, List.foldl_nil, Stream.reached, List.getLast?_concat]
      exact MarketState.apply_lastSeq _ entry.2 entry.1

theorem lawful (barWidths : List BarWidth) : (projection barWidths).Lawful MarketState.Alike where
  refl := MarketState.Alike.refl
  trans first second := first.trans second
  apply entry same := same.apply entry.2 (some entry.1)
  reload := by
    intro state entries same
    have keyed : ((projection barWidths).fold entries).Keyed := by
      rw [fold_eq]
      exact (MarketState.new_keyed barWidths).applyAll _
    have widths : ((projection barWidths).fold entries).barWidths = barWidths := by
      rw [fold_eq, MarketState.barWidths_applyAll]
      rfl
    obtain ⟨loaded, read, alike⟩ := MarketState.loadState_dumpState keyed
    rw [widths, ← same.dumpState_eq keyed] at read
    have place : loaded.lastSeq = Stream.reached entries .start :=
      alike.lastSeq.trans (lastSeq_foldl entries _)
    refine ⟨loaded, ?_, alike⟩
    change (MarketState.loadState barWidths state.dumpState).map _ = _
    rw [read, ← place]
    rfl

/-- A tick only empties what waits for it. -/
theorem Conflator.tick_alike {settings : Settings} {halt : HaltView} {market : MarketState}
    {tsNs : Int} (conflator : Conflator) (hub : Hub) :
    (conflator.tick settings halt market hub tsNs).2.1.Alike market := by
  have left : (conflator.tick settings halt market hub tsNs).2.1 = { market with
      dirty := ∅
      closedBars := []
      tape := { market.tape with
        pending := settings.symbols.listed.foldl (fun pending symbol =>
          pending.erase symbol.symbolId) market.tape.pending } } := by
    simp only [tick, books, tape, bars, MarketState.drainDirty, MarketState.drainClosedBars,
      foldl_symbolTape_market]
  rw [left]
  exact ⟨fun _ => rfl, fun _ _ => rfl, fun _ _ => rfl, rfl, rfl, rfl⟩

/-! ## One service -/

namespace Service

variable {settings : Settings} {service : Service} {stream longer : Stream Outbound} {seen : Nat}

/-- It serves from the first `seen` entries of the stream, and the others are before it. -/
structure Follows (barWidths : List BarWidth) (stream : Stream Outbound) (service : Service)
    (seen : Nat) : Prop where
  stands : (projection barWidths).Stands MarketState.Alike stream service.market
    service.market.lastSeq seen
  ahead : service.ahead = stream.entries.drop seen

theorem Follows.step (settings : Settings) (follows : service.Follows barWidths stream seen)
    (action : Action) :
    ∃ seen', seen ≤ seen' ∧ (service.step settings action).Follows barWidths stream seen' := by
  by_cases reads : action = .read
  · cases reads
    cases following : service.ahead with
    | nil =>
        have idle : service.step settings .read = service := by
          simp only [Service.step, Service.read, following]
        rw [idle]
        exact ⟨seen, le_rfl, follows⟩
    | cons entry rest =>
        have next := follows.ahead.symm.trans following
        have inside : seen < stream.entries.length := by
          by_contra outside
          rw [List.drop_eq_nil_of_le (Nat.le_of_not_lt outside)] at next
          cases next
        have taken : stream.entries.take (seen + 1) = stream.entries.take seen ++ [entry] := by
          rw [List.take_add, next]
          rfl
        refine ⟨seen + 1, Nat.le_succ seen, ⟨inside, ?_, ?_⟩, ?_⟩
        · simp only [Service.step, Service.read, following]
          rw [MarketState.apply_lastSeq, Stream.position, taken]
          simp
        · simp only [Service.step, Service.read, following]
          rw [taken, Projection.fold_append]
          exact (lawful barWidths).apply entry follows.stands.alike
        · simp only [Service.step, Service.read, following]
          rw [← List.drop_drop, next]
          rfl
  by_cases ticks : ∃ tsNs, action = .tick tsNs
  · obtain ⟨tsNs, rfl⟩ := ticks
    have alike : (service.step settings (.tick tsNs)).market.Alike service.market :=
      Conflator.tick_alike service.conflator service.hub
    refine ⟨seen, le_rfl, ⟨follows.stands.within, ?_, alike.trans follows.stands.alike⟩,
      follows.ahead⟩
    rw [alike.lastSeq]
    exact follows.stands.place
  · obtain ⟨market, ahead⟩ := @step_still settings service action
      (fun tsNs same => ticks ⟨tsNs, same⟩) reads
    refine ⟨seen, le_rfl, ?_, ahead.trans follows.ahead⟩
    rw [market]
    exact follows.stands

theorem Follows.run (settings : Settings) (follows : service.Follows barWidths stream seen)
    (actions : List Action) :
    ∃ seen', seen ≤ seen' ∧
      (actions.foldl (Service.step settings) service).Follows barWidths stream seen' := by
  induction actions generalizing service seen with
  | nil => exact ⟨seen, le_rfl, follows⟩
  | cons action rest ih =>
      obtain ⟨next, before, now⟩ := follows.step settings action
      obtain ⟨last, after, later⟩ := ih now
      exact ⟨last, before.trans after, later⟩

/-- The same with more of the stream before it. -/
def extend (service : Service) (more : List (StreamId × Outbound)) : Service :=
  { service with ahead := service.ahead ++ more }

theorem Follows.extend (follows : service.Follows barWidths stream seen)
    {more : List (StreamId × Outbound)} (whole : longer.entries = stream.entries ++ more) :
    (service.extend more).Follows barWidths longer seen := by
  constructor
  · exact follows.stands.grows ⟨more, whole.symm⟩
  · rw [Service.extend, follows.ahead, whole, List.drop_append_of_le_length follows.stands.within]

theorem step_extend (more : List (StreamId × Outbound)) (action : Action)
    (busy : action = .read → service.ahead ≠ []) :
    (service.extend more).step settings action = (service.step settings action).extend more := by
  cases action with
  | read =>
      cases following : service.ahead with
      | nil => exact absurd following (busy rfl)
      | cons entry rest => simp [Service.step, Service.read, extend, following]
  | request id frame =>
      by_cases known : service.hub.subscribers.contains id
      · simp [Service.step, extend, known]
      · simp [Service.step, extend, known]
  | _ => rfl

/-- What it does while the stream grows, it does with all of the stream before it from the
start: a read that finds nothing is left out. -/
theorem run_extend (settings : Settings) (service : Service) (more : List (StreamId × Outbound))
    (actions : List Action) : ∃ served : List Action, served.Sublist actions ∧
      served.foldl (Service.step settings) (service.extend more) =
        (actions.foldl (Service.step settings) service).extend more := by
  induction actions generalizing service with
  | nil => exact ⟨[], List.Sublist.refl _, rfl⟩
  | cons action rest ih =>
      obtain ⟨served, fewer, same⟩ := ih (service.step settings action)
      by_cases idle : action = .read ∧ service.ahead = []
      · obtain ⟨rfl, nothing⟩ := idle
        have still : service.step settings .read = service := by
          simp only [Service.step, Service.read, nothing]
        rw [still] at same
        refine ⟨served, fewer.cons _, ?_⟩
        rw [same, List.foldl_cons, still]
      · refine ⟨action :: served, fewer.cons_cons _, ?_⟩
        rw [List.foldl_cons, step_extend more action fun reads nothing => idle ⟨reads, nothing⟩, same]
        rfl

end Service

/-! ## The process -/

namespace Deployment

variable {settings : Settings} {batchSize : Nat} {deployment : Deployment}

/-- A service that is up began at a place of the stream, and has served from there. -/
def Served (settings : Settings) (stream : Stream Outbound) (service : Service) : Prop :=
  ∃ (market : MarketState) (booted : Nat) (actions : List Fanout.Action),
    (Service.start market (stream.entries.drop booted)).Follows settings.barBucketSeconds stream
      booted ∧
    service = actions.foldl (Service.step settings) (.start market (stream.entries.drop booted))

structure Sound (settings : Settings) (deployment : Deployment) : Prop where
  saved : (projection settings.barBucketSeconds).Saved MarketState.Alike deployment.outbound
    deployment.checkpoint
  served : ∀ service, deployment.process = some service →
    Served settings deployment.outbound service

theorem Served.follows {stream : Stream Outbound} {service : Service}
    (served : Served settings stream service) :
    ∃ seen, service.Follows settings.barBucketSeconds stream seen := by
  obtain ⟨market, booted, actions, began, rfl⟩ := served
  obtain ⟨seen, -, follows⟩ := began.run settings actions
  exact ⟨seen, follows⟩

theorem Sound.append (sound : deployment.Sound settings) (now : Nat) (records : List Outbound) :
    (deployment.append now records).Sound settings := by
  obtain ⟨more, whole⟩ := deployment.outbound.entries_appendAll now records
  have added : (deployment.outbound.appendAll now records).entries.drop
      deployment.outbound.entries.length = more := by
    rw [← whole, List.drop_left]
  constructor
  · exact sound.saved.grows ⟨more, whole⟩
  · intro service up
    simp only [Deployment.append, added] at up ⊢
    obtain ⟨before, was, rfl⟩ := Option.map_eq_some_iff.mp up
    obtain ⟨market, booted, actions, began, rfl⟩ := sound.served before was
    obtain ⟨served, -, same⟩ := Service.run_extend settings
      (.start market (deployment.outbound.entries.drop booted)) more actions
    have longer : Service.extend (.start market (deployment.outbound.entries.drop booted)) more =
        .start market ((deployment.outbound.appendAll now records).entries.drop booted) := by
      rw [← whole, List.drop_append_of_le_length began.stands.within]
      rfl
    have follows := began.extend whole.symm
    rw [longer] at same follows
    exact ⟨market, booted, served, follows, same.symm⟩

/-- It has saved where it stands, or what it had saved before is still there. -/
theorem Sound.writeCheckpoint (sound : deployment.Sound settings) {market : MarketState} {seen : Nat}
    (stands : (projection settings.barBucketSeconds).Stands MarketState.Alike deployment.outbound
      market market.lastSeq seen) (outcome : Outcome) :
    (deployment.writeCheckpoint market outcome).1.Sound settings ∧
      (deployment.writeCheckpoint market outcome).1.outbound = deployment.outbound := by
  have saved : Sound settings { deployment with
      checkpoint := some (market.lastSeq, market.dumpState) } :=
    ⟨stands.saved, sound.served⟩
  cases outcome with
  | done => exact ⟨saved, rfl⟩
  | lost => exact ⟨sound, rfl⟩
  | unknown carried =>
      cases carried with
      | false => exact ⟨sound, rfl⟩
      | true => exact ⟨saved, rfl⟩

theorem recover_eq (settings : Settings) (batchSize : Nat) (deployment : Deployment) :
    deployment.recover settings batchSize = (projection settings.barBucketSeconds).recover
      deployment.outbound batchSize deployment.checkpoint := by
  unfold Deployment.recover
  dsimp only
  rw [Checkpointing.ensureResumable_eq_ok (.inl rfl)]

/-- It always comes up, at the end of the stream. -/
theorem Sound.recover (sound : deployment.Sound settings) (reads : 0 < batchSize) :
    ∃ market, deployment.recover settings batchSize = some (market, deployment.outbound.lastId) ∧
      (projection settings.barBucketSeconds).Stands MarketState.Alike deployment.outbound market
        market.lastSeq deployment.outbound.entries.length := by
  obtain ⟨market, recovered, stands⟩ := sound.saved.recover (lawful _) reads
  have place : market.lastSeq = deployment.outbound.lastId := by
    rw [stands.alike.lastSeq, List.take_length, Projection.fold, lastSeq_foldl]
    have whole := stands.place
    rw [Stream.position, List.take_length] at whole
    exact whole.symm
  exact ⟨market, (recover_eq ..).trans recovered, place ▸ stands⟩

theorem Sound.boot (sound : deployment.Sound settings) (reads : 0 < batchSize) (outcome : Outcome) :
    (deployment.boot settings batchSize outcome).Sound settings := by
  obtain ⟨market, recovered, stands⟩ := sound.recover reads
  obtain ⟨written, outbound⟩ := sound.writeCheckpoint stands outcome
  simp only [Deployment.boot, recovered]
  cases saving : deployment.writeCheckpoint market outcome with
  | mk next came =>
      rw [saving] at written outbound
      cases came with
      | false => exact written
      | true =>
          refine ⟨written.saved, fun service up => ?_⟩
          cases up
          simp only at outbound ⊢
          rw [outbound]
          have nothing : deployment.outbound.entries.drop deployment.outbound.entries.length = [] :=
            List.drop_length
          exact ⟨market, _, [], ⟨stands, rfl⟩, by rw [nothing]; rfl⟩

theorem Sound.act (sound : deployment.Sound settings) (reads : 0 < batchSize) (action : Action) :
    (deployment.act settings batchSize action).Sound settings := by
  cases action with
  | append now records => exact sound.append now records
  | boot outcome =>
      simp only [Deployment.act]
      split
      · exact sound.boot reads outcome
      · exact sound
  | serve action =>
      refine ⟨sound.saved, fun service up => ?_⟩
      obtain ⟨before, was, rfl⟩ := Option.map_eq_some_iff.mp up
      obtain ⟨market, booted, actions, began, rfl⟩ := sound.served before was
      exact ⟨market, booted, actions ++ [action], began, by rw [List.foldl_append]; rfl⟩
  | checkpoint outcome =>
      simp only [Deployment.act]
      split
      · exact sound
      · rename_i service up
        obtain ⟨seen, follows⟩ := (sound.served service up).follows
        exact (sound.writeCheckpoint follows.stands outcome).1
  | crash => exact ⟨sound.saved, fun service up => by cases up⟩
  | loseCheckpoint => exact ⟨Projection.saved_none, sound.served⟩

theorem Sound.run (sound : deployment.Sound settings) (reads : 0 < batchSize)
    (actions : List Action) : (deployment.run settings batchSize actions).Sound settings := by
  induction actions generalizing deployment with
  | nil => exact sound
  | cons action rest ih => exact ih (sound.act reads action)

theorem start_served (settings : Settings) : start.Sound settings :=
  ⟨Projection.saved_none, fun service up => by cases up⟩

/-- Whatever becomes of the process and of its checkpoint, a new one comes up at the end of the
outbound stream, one that serves holds what the stream up to its place makes, with the rest before
it, and has done nothing but serve since the place where it came up. -/
theorem served_market_is_the_stream (settings : Settings) {batchSize : Nat} (reads : 0 < batchSize)
    (actions : List Action) :
    let deployment := start.run settings batchSize actions
    let fold := (projection settings.barBucketSeconds).fold
    (∃ market,
      deployment.recover settings batchSize = some (market, deployment.outbound.lastId) ∧
      market.Alike (fold deployment.outbound.entries)) ∧
    ∀ service, deployment.process = some service →
      (∃ seen ≤ deployment.outbound.entries.length,
        service.market.Alike (fold (deployment.outbound.entries.take seen)) ∧
        service.market.lastSeq = deployment.outbound.position seen ∧
        service.ahead = deployment.outbound.entries.drop seen) ∧
      ∃ (market : MarketState) (booted : Nat) (served : List Fanout.Action),
        booted ≤ deployment.outbound.entries.length ∧
        market.Alike (fold (deployment.outbound.entries.take booted)) ∧
        service = served.foldl (Service.step settings)
          (.start market (deployment.outbound.entries.drop booted)) := by
  intro deployment fold
  have sound : deployment.Sound settings := (start_served settings).run reads actions
  obtain ⟨market, recovered, stands⟩ := sound.recover reads
  refine ⟨⟨market, recovered, ?_⟩, fun service up => ⟨?_, ?_⟩⟩
  · have alike := stands.alike
    rwa [List.take_length] at alike
  · obtain ⟨seen, follows⟩ := (sound.served service up).follows
    exact ⟨seen, follows.stands.within, follows.stands.alike, follows.stands.place, follows.ahead⟩
  · obtain ⟨first, booted, served, began, same⟩ := sound.served service up
    exact ⟨first, booted, served, began.stands.within, began.stands.alike, same⟩

theorem Sound.boot_up (sound : deployment.Sound settings) (reads : 0 < batchSize) :
    ∃ market, (deployment.boot settings batchSize .done).process = some (.start market []) := by
  obtain ⟨market, recovered, _⟩ := sound.recover reads
  exact ⟨market, by simp only [Deployment.boot, recovered, Deployment.writeCheckpoint]⟩

/-- It saves after a client has joined, and goes while a record waits. -/
def troubled : List Action :=
  [.append 1 [.accountCreated ⟨1, 1, 7, 100000⟩, .orderAccepted ⟨2, 1, 1, 7, 100, 5, 1, 2, 1⟩],
    .boot .done, .serve (.connect 7),
    .append 2 [.orderAccepted ⟨3, 2, 2, 7, 101, 4, 1, 2, 1⟩, .cashCredited ⟨4, 2, 7, 55⟩],
    .serve .read, .checkpoint (.unknown true), .crash]

/-- What comes up serves all of it. -/
theorem troubled_serves_the_stream :
    ∃ service, (start.run Service.oneSymbol 1
        (troubled ++ [.boot .done, .serve (.tick 9)])).process = some service ∧
      service.market.Alike ((projection []).fold
        (start.run Service.oneSymbol 1
          (troubled ++ [.boot .done, .serve (.tick 9)])).outbound.entries) := by
  have sound : Sound Service.oneSymbol (start.run Service.oneSymbol 1 troubled) :=
    (start_served Service.oneSymbol).run Nat.one_pos troubled
  obtain ⟨market, booted⟩ := sound.boot_up Nat.one_pos
  have up : (start.run Service.oneSymbol 1 (troubled ++ [.boot .done, .serve (.tick 9)])).process =
      some ((Service.start market []).step Service.oneSymbol (.tick 9)) := by
    have last : start.run Service.oneSymbol 1 (troubled ++ [.boot .done, .serve (.tick 9)]) =
        ((start.run Service.oneSymbol 1 troubled).boot Service.oneSymbol 1 .done).act
          Service.oneSymbol 1 (.serve (.tick 9)) := rfl
    rw [last, Deployment.act, booted]
    rfl
  obtain ⟨seen, _, alike, _, ahead⟩ := ((served_market_is_the_stream Service.oneSymbol Nat.one_pos
    (troubled ++ [.boot .done, .serve (.tick 9)])).2 _ up).1
  have whole : (start.run Service.oneSymbol 1
      (troubled ++ [.boot .done, .serve (.tick 9)])).outbound.entries.length ≤ seen :=
    List.drop_eq_nil_iff.mp ahead.symm
  rw [List.take_of_length_le whole] at alike
  exact ⟨_, up, alike⟩

end Deployment

end QuantArena.Fanout
