import QuantArena.Ledger.Process
import QuantArena.Ledger.ReadModelProperties

/-! Whatever becomes of the ledger process, the tables show the first entries of the outbound stream,
never fewer than before, and all of them after a recovery. -/

set_option autoImplicit false

namespace QuantArena.Ledger

open Foundations Contracts Exchange

variable {ledger left right : Ledger}

/-! ## The projection -/

theorem Alike.refl (ledger : Ledger) : ledger.Alike ledger :=
  ⟨.refl _, .refl _, .refl _, rfl, rfl, rfl, rfl⟩

theorem Alike.trans {last : Ledger} (first : left.Alike right) (second : right.Alike last) :
    left.Alike last where
  cash key := (first.cash key).trans (second.cash key)
  positions key := (first.positions key).trans (second.positions key)
  openOrders key := (first.openOrders key).trans (second.openOrders key)
  houseFeeTicks := first.houseFeeTicks.trans second.houseFeeTicks
  totalDepositsTicks := first.totalDepositsTicks.trans second.totalDepositsTicks
  lastSeq := first.lastSeq.trans second.lastSeq
  eventsProcessed := first.eventsProcessed.trans second.eventsProcessed

theorem foldl_apply (ledger : Ledger) (entries : List (StreamId × Outbound)) :
    entries.foldl projection.apply ledger =
      ledger.applyAll (entries.map fun item => (item.2, some item.1)) := by
  rw [applyAll, List.foldl_map]
  rfl

theorem fold_eq (entries : List (StreamId × Outbound)) :
    projection.fold entries = new.applyAll (entries.map fun item => (item.2, some item.1)) :=
  foldl_apply new entries

theorem lastSeq_foldl (entries : List (StreamId × Outbound)) (ledger : Ledger) :
    (entries.foldl projection.apply ledger).lastSeq = Stream.reached entries ledger.lastSeq := by
  cases entries using List.reverseRecOn with
  | nil => rfl
  | append_singleton before entry =>
      rw [List.foldl_append, List.foldl_cons, List.foldl_nil, Stream.reached, List.getLast?_concat]
      cases same : entry.2 <;> simp [projection, Ledger.apply, applyRecord, applyFill, same]

theorem lawful : projection.Lawful Alike where
  refl := Alike.refl
  trans first second := first.trans second
  apply entry same := same.apply entry.2 (some entry.1)
  reload := by
    intro state entries same
    have keyed : (projection.fold entries).Keyed := by
      rw [fold_eq]
      exact new_keyed.applyAll _
    obtain ⟨loaded, read, alike⟩ := loadState_dumpState keyed
    have dumped : projection.dump state = (projection.fold entries).dumpState :=
      same.dumpState_eq keyed
    have place : Stream.reached entries .start = (projection.fold entries).lastSeq :=
      (lastSeq_foldl entries new).symm
    refine ⟨{ loaded with lastSeq := Stream.reached entries .start }, ?_, ?_⟩
    · rw [dumped]
      show (loadState (projection.fold entries).dumpState).map _ = _
      rw [read]
      rfl
    · exact ⟨alike.cash, alike.positions, alike.openOrders, alike.houseFeeTicks,
        alike.totalDepositsTicks, place, alike.eventsProcessed⟩

/-! ## What a full flush writes -/

theorem flush_everything_eq (ledger : Ledger) (database : Database) :
    ledger.flush ledger.everything true database =
      ⟨fun userId => (ledger.cashBalances.get? userId).or (database.accounts userId),
        ledger.heldRows, ledger.openOrders.get?, some ledger.houseFeeTicks⟩ := by
  have projected := flush_everything_projected ledger database
  rw [Database.mk.injEq]
  refine ⟨?_, projected.positions, funext projected.openOrders, rfl⟩
  funext userId
  cases found : ledger.cashBalances.get? userId with
  | none => simp [flush, found]
  | some cash => exact projected.accounts userId cash found

theorem Alike.heldRows_eq (alike : left.Alike right) : left.heldRows = right.heldRows := by
  rw [(nodup_heldRows left).ext (nodup_heldRows right)]
  intro row
  rw [mem_heldRows, mem_heldRows, alike.positions row.1]

theorem Alike.flush_eq (alike : left.Alike right) (database : Database) :
    left.flush left.everything true database = right.flush right.everything true database := by
  rw [flush_everything_eq, flush_everything_eq, alike.heldRows_eq, alike.houseFeeTicks,
    funext alike.cash, funext alike.openOrders]

/-- Whoever has a balance keeps one. -/
theorem apply_known (ledger : Ledger) (record : Outbound) (streamId : Option StreamId) {userId : Int}
    (known : ledger.cashBalances.get? userId ≠ none) :
    (ledger.apply record streamId).cashBalances.get? userId ≠ none := by
  cases record with
  | accountCreated created =>
      simp only [Ledger.apply, applyRecord, Dict.get?_set]
      split
      · exact Option.some_ne_none _
      · exact known
  | cashCredited credited =>
      simp only [Ledger.apply, applyRecord, Dict.add, Dict.get?_set]
      split
      · exact Option.some_ne_none _
      · exact known
  | fill fill =>
      simp only [Ledger.apply, applyRecord, applyFill, Dict.add, Dict.get?_set]
      split
      · exact Option.some_ne_none _
      · split
        · exact Option.some_ne_none _
        · exact known
  | _ => exact known

theorem foldl_known (entries : List (StreamId × Outbound)) {ledger : Ledger} {userId : Int}
    (known : ledger.cashBalances.get? userId ≠ none) :
    (entries.foldl projection.apply ledger).cashBalances.get? userId ≠ none := by
  induction entries generalizing ledger with
  | nil => exact known
  | cons entry rest ih => exact ih (apply_known ledger entry.2 (some entry.1) known)

/-- Tables without a row. -/
def blank : Database := ⟨fun _ => none, 0, fun _ => none, none⟩

/-- The tables as a full flush leaves them, when the ledger has seen the entries. -/
def written (initial : Database) (entries : List (StreamId × Outbound)) : Database :=
  (projection.fold entries).flush (projection.fold entries).everything true initial

/-- The tables show the first `count` entries, or nothing has been flushed yet. -/
def Shows (initial : Database) (store : Store) (count : Nat) : Prop :=
  store.database = written initial (store.outbound.entries.take count) ∨
    count = 0 ∧ store.database = initial

variable {initial : Database} {store : Store}

/-- What was written earlier leaves no trace. -/
theorem written_over (initial : Database) (before after : List (StreamId × Outbound)) :
    written (written initial before) (before ++ after) = written initial (before ++ after) := by
  unfold written
  rw [flush_everything_eq, flush_everything_eq, flush_everything_eq, Database.mk.injEq]
  refine ⟨?_, rfl, rfl, rfl⟩
  funext userId
  cases known : (projection.fold before).cashBalances.get? userId with
  | none => simp only [known, Option.none_or]
  | some cash =>
      have first : (projection.fold before).cashBalances.get? userId ≠ none := by
        rw [known]
        exact Option.some_ne_none _
      have kept := foldl_known after first
      rw [← projection.fold_append] at kept
      obtain ⟨balance, found⟩ := Option.ne_none_iff_exists'.mp kept
      rw [found, Option.some_or, Option.some_or]

/-! ## What holds between two actions -/

/-- A ledger in memory that has seen `count` entries, of which the tables show `shown`. -/
structure Following (initial : Database) (store : Store) (running : Running) (shown count : Nat) :
    Prop where
  stands : projection.Stands Alike store.outbound running.ledger running.lastId count
  later : shown ≤ count
  current : running.needsFullFlush = false →
    shown = count ∧ store.database = written initial (store.outbound.entries.take count)
  sound : Consumer.Sound ⟨running.ledger, running.needsFullFlush, store.database⟩
    (Tape.acceptedIds ((store.outbound.entries.take count).map (·.2)))

/-- The ledger's own position is that of its reader. -/
theorem Following.lastSeq {running : Running} {shown count : Nat}
    (following : Following initial store running shown count) :
    running.ledger.lastSeq = running.lastId := by
  rw [following.stands.alike.lastSeq, following.stands.place]
  exact lastSeq_foldl _ new

inductive Live (initial : Database) (store : Store) (shown : Nat) : Process → Prop where
  | down : Live initial store shown .down
  | recovered {ledger : Ledger} {count : Nat} :
      Following initial store ⟨ledger, ledger.lastSeq, false⟩ shown count →
      Live initial store shown (.recovered ledger)
  | running {running : Running} {count : Nat} :
      Following initial store running shown count → Live initial store shown (.running running)

structure Sound (initial : Database) (system : System) (shown : Nat) : Prop where
  within : shown ≤ system.outbound.entries.length
  checkpoint : projection.Saved Alike system.outbound system.checkpoint
  shows : Shows initial system.toStore shown
  live : Live initial system.toStore shown system.process

variable {running : Running} {shown count : Nat} {settings : Settings}

theorem Shows.append (shows : Shows initial store count) (within : count ≤ store.outbound.entries.length)
    (now : Nat) (records : List Outbound) :
    Shows initial { store with outbound := store.outbound.appendAll now records } count := by
  obtain ⟨more, whole⟩ := store.outbound.entries_appendAll now records
  cases shows with
  | inl written_ =>
      left
      show store.database = written initial ((store.outbound.appendAll now records).entries.take count)
      rw [← whole, List.take_append_of_le_length within]
      exact written_
  | inr untouched => exact .inr untouched

theorem Following.append (following : Following initial store running shown count) (now : Nat)
    (records : List Outbound) :
    Following initial { store with outbound := store.outbound.appendAll now records } running shown
      count := by
  have grows := store.outbound.entries_appendAll now records
  have same : (store.outbound.appendAll now records).entries.take count =
      store.outbound.entries.take count := by
    obtain ⟨more, whole⟩ := grows
    rw [← whole, List.take_append_of_le_length following.stands.within]
  refine ⟨following.stands.grows grows, following.later, fun fresh => ?_, ?_⟩
  · rw [same]
    exact following.current fresh
  · rw [same]
    exact following.sound

/-- A full flush of a ledger that has seen the first `count` entries. -/
theorem full_flush (shows : Shows initial store shown) (later : shown ≤ count)
    (within : count ≤ store.outbound.entries.length)
    (alike : ledger.Alike (projection.fold (store.outbound.entries.take count))) :
    ledger.flush ledger.everything true store.database =
      written initial (store.outbound.entries.take count) := by
  rw [alike.flush_eq]
  cases shows with
  | inl written_ =>
      obtain ⟨more, rfl⟩ := Nat.exists_eq_add_of_le later
      rw [written_, List.take_add]
      exact written_over initial _ _
  | inr untouched => rw [untouched.2, written]

/-! ## Flushes and checkpoints -/

theorem alike_takeDirty (ledger : Ledger) : ledger.takeDirty.2.Alike ledger :=
  ⟨.refl _, .refl _, .refl _, rfl, rfl, rfl, rfl⟩

/-- No order id is accepted twice. -/
def Store.Distinct (store : Store) : Prop :=
  (Tape.acceptedIds (store.outbound.entries.map (·.2))).Nodup

theorem Store.Distinct.take (distinct : store.Distinct) (count : Nat) :
    (Tape.acceptedIds ((store.outbound.entries.take count).map (·.2))).Nodup := by
  unfold Store.Distinct at distinct
  rw [← List.take_append_drop count store.outbound.entries, Consumer.acceptedIds_append] at distinct
  exact (List.nodup_append.mp distinct).1

theorem Store.Distinct.earlier {before after : Store} (distinct : after.Distinct)
    (grows : before.outbound.entries <+: after.outbound.entries) : before.Distinct := by
  have taken := distinct.take before.outbound.entries.length
  rwa [← List.prefix_iff_eq_take.mp grows] at taken

/-- An open order was accepted. -/
theorem orders_accepted {entries : List (StreamId × Outbound)}
    (distinct : (Tape.acceptedIds (entries.map (·.2))).Nodup)
    (alike : ledger.Alike (projection.fold entries)) (orderId : Int) (order : OpenOrderRecord)
    (found : ledger.openOrders.get? orderId = some order) :
    orderId ∈ Tape.acceptedIds (entries.map (·.2)) := by
  have nothing : Ledger.new.Traced blank [] := by
    constructor <;> simp [blank, Ledger.new]
  have traced := applyAll_traced (entries.map fun item => (item.2, some item.1)) nothing (by
    rwa [Consumer.readBatch_events])
  rw [Consumer.readBatch_events, ← fold_eq] at traced
  exact traced.orders orderId order ((alike.openOrders orderId).symm.trans found)

theorem Following.stale (following : Following initial store running shown count) :
    Following initial store { running with needsFullFlush := true } shown count where
  stands := following.stands
  later := following.later
  current fresh := Bool.noConfusion fresh
  sound := ⟨following.sound.traced, fun fresh => Bool.noConfusion fresh⟩

/-- The flush of a batch that has been applied. -/
def afterFlush (store : Store) (running : Running) (limit : Nat) (outcome : Consumer.Outcome) :
    Consumer :=
  Consumer.flushToDb
    ⟨(store.outbound.read running.lastId limit).foldl projection.apply running.ledger,
      running.needsFullFlush, store.database⟩ running.needsFullFlush outcome

theorem afterFlush_ledger (store : Store) (running : Running) (limit : Nat)
    (outcome : Consumer.Outcome) :
    (afterFlush store running limit outcome).ledger =
      ((store.outbound.read running.lastId limit).foldl projection.apply
        running.ledger).takeDirty.2 := by
  cases outcome <;> rfl

theorem afterFlush_readBatch (store : Store) (running : Running) (limit : Nat)
    (outcome : Consumer.Outcome) :
    afterFlush store running limit outcome =
      (Consumer.readBatch ⟨running.ledger, running.needsFullFlush, store.database⟩
        (store.outbound.read running.lastId limit)).flushToDb running.needsFullFlush outcome := by
  rw [afterFlush, foldl_apply]
  rfl

theorem Following.flushed (following : Following initial store running shown count)
    (shows : Shows initial store shown) (distinct : store.Distinct) (limit : Nat)
    (outcome : Consumer.Outcome) :
    ∃ shown' count', shown ≤ shown' ∧
      Shows initial { store with database := (afterFlush store running limit outcome).database }
        shown' ∧
      Following initial { store with database := (afterFlush store running limit outcome).database }
        ⟨(afterFlush store running limit outcome).ledger,
          Stream.reached (store.outbound.read running.lastId limit) running.lastId,
          outcome ≠ .committed⟩ shown' count' := by
  have next := following.stands.read lawful limit
  have taken := following.stands.taken limit
  have accepted : Tape.acceptedIds ((store.outbound.entries.take
      (count + (store.outbound.read running.lastId limit).length)).map (·.2)) =
        Tape.acceptedIds ((store.outbound.entries.take count).map (·.2)) ++
          Tape.acceptedIds ((store.outbound.read running.lastId limit).map (·.2)) := by
    rw [taken, Consumer.acceptedIds_append]
  have once := distinct.take (count + (store.outbound.read running.lastId limit).length)
  rw [accepted] at once
  have applied := following.sound.readBatch once
  have after := applied.flushToDb outcome
  rw [← accepted] at after
  have later : shown ≤ count + (store.outbound.read running.lastId limit).length :=
    following.later.trans (Nat.le_add_right _ _)
  have alike := (alike_takeDirty _).trans next.alike
  rw [← afterFlush_ledger store running limit outcome] at alike
  rw [afterFlush_readBatch] at alike ⊢
  by_cases kept : outcome = .rolledBack
  · cases kept
    exact ⟨shown, _, le_rfl, shows, ⟨next.within, next.place, alike⟩, later,
      fun fresh => Bool.noConfusion fresh, after⟩
  · have rewritten := (Consumer.flushToDb_committed kept applied.traced applied.clean).1
    have full : (Consumer.readBatch ⟨running.ledger, running.needsFullFlush, store.database⟩
        (store.outbound.read running.lastId limit)).ledger.Alike (projection.fold
          (store.outbound.entries.take
            (count + (store.outbound.read running.lastId limit).length))) := by
      have applied := next.alike
      rw [foldl_apply] at applied
      exact applied
    have database := rewritten.trans (full_flush shows later next.within full)
    exact ⟨_, _, later, .inl database, ⟨next.within, next.place, alike⟩, le_rfl,
      fun fresh => ⟨rfl, database⟩, after⟩

/-- A checkpoint is written of a ledger that follows. -/
theorem Following.writeCheckpoint (following : Following initial store running shown count)
    (saved : projection.Saved Alike store.outbound store.checkpoint) (outcome : Consumer.Outcome) :
    projection.Saved Alike store.outbound
        (store.writeCheckpoint running.ledger outcome).1.checkpoint ∧
      (store.writeCheckpoint running.ledger outcome).1.outbound = store.outbound ∧
      (store.writeCheckpoint running.ledger outcome).1.database = store.database := by
  have fresh := following.stands.saved
  rw [← following.lastSeq] at fresh
  cases outcome with
  | committed => exact ⟨fresh, rfl, rfl⟩
  | rolledBack => exact ⟨saved, rfl, rfl⟩
  | unknown => exact ⟨fresh, rfl, rfl⟩

/-- Neither a ledger nor the tables are touched by a checkpoint. -/
theorem Following.moved (following : Following initial store running shown count) {other : Store}
    (outbound : other.outbound = store.outbound) (database : other.database = store.database) :
    Following initial other running shown count := by
  obtain ⟨outbound', checkpoint', database'⟩ := other
  cases outbound
  cases database
  exact ⟨following.stands, following.later, following.current, following.sound⟩

theorem Live.moved {process : Process} (live : Live initial store shown process) {other : Store}
    (outbound : other.outbound = store.outbound) (database : other.database = store.database) :
    Live initial other shown process := by
  cases live with
  | down => exact .down
  | recovered following => exact .recovered (following.moved outbound database)
  | running following => exact .running (following.moved outbound database)

theorem Shows.moved (shows : Shows initial store shown) {other : Store}
    (outbound : other.outbound = store.outbound) (database : other.database = store.database) :
    Shows initial other shown := by
  unfold Shows
  rw [outbound, database]
  exact shows

/-- After the flush at the end of `recover` the tables show everything. -/
theorem recover_follows (saved : projection.Saved Alike store.outbound store.checkpoint)
    (shows : Shows initial store shown) (within : shown ≤ store.outbound.entries.length)
    (distinct : store.Distinct) (settings : Settings) (outcome : Consumer.Outcome) :
    ∃ shown', shown ≤ shown' ∧ shown' ≤ store.outbound.entries.length ∧
      (store.recover settings outcome).1.outbound = store.outbound ∧
      (store.recover settings outcome).1.checkpoint = store.checkpoint ∧
      Shows initial (store.recover settings outcome).1 shown' ∧
      (outcome = .committed → (store.recover settings outcome).1.database =
        written initial store.outbound.entries) ∧
      ∀ ledger, (store.recover settings outcome).2 = some ledger →
        Following initial (store.recover settings outcome).1 ⟨ledger, ledger.lastSeq, false⟩ shown'
          store.outbound.entries.length := by
  obtain ⟨final, recovered, stands⟩ := saved.recover lawful settings.reads
  have database : final.flush final.everything true store.database =
      written initial store.outbound.entries := by
    have full := full_flush shows within le_rfl stands.alike
    rwa [List.take_length] at full
  have projected := flush_everything_projected final store.database
  have lastSeq : final.takeDirty.2.lastSeq = store.outbound.lastId := by
    have last := (stands.alike.lastSeq).trans (lastSeq_foldl _ new)
    exact last.trans stands.place.symm
  rw [Store.recover, recovered]
  cases outcome with
  | rolledBack =>
      exact ⟨shown, le_rfl, within, rfl, rfl, shows, fun committed => Consumer.Outcome.noConfusion committed,
        fun ledger found => by cases found⟩
  | unknown =>
      refine ⟨_, within, le_rfl, rfl, rfl, .inl ?_, fun committed => Consumer.Outcome.noConfusion committed,
        fun ledger found => by cases found⟩
      rw [List.take_length]
      exact database
  | committed =>
      refine ⟨_, within, le_rfl, rfl, rfl, .inl ?_, fun _ => database, ?_⟩
      · rw [List.take_length]
        exact database
      · intro ledger found
        cases found
        have place : final.takeDirty.2.lastSeq =
            store.outbound.position store.outbound.entries.length := lastSeq.trans stands.place
        refine ⟨⟨le_rfl, place, (alike_takeDirty final).trans stands.alike⟩, le_rfl, fun _ => ?_,
          ?_, fun _ => ?_⟩
        · rw [List.take_length]
          exact ⟨rfl, database⟩
        · rw [List.take_length]
          have alike := (alike_takeDirty final).trans stands.alike
          rw [List.take_length] at alike
          exact Projected.traced ⟨projected.accounts, projected.positions, projected.openOrders,
            projected.houseFees⟩ (orders_accepted distinct alike)
        · exact Projected.clean ⟨projected.accounts, projected.positions, projected.openOrders,
            projected.houseFees⟩

/-- One round of the loop. -/
theorem Following.round (following : Following initial store running shown count)
    (saved : projection.Saved Alike store.outbound store.checkpoint)
    (shows : Shows initial store shown) (distinct : store.Distinct) (limit : Nat)
    (outcome : Consumer.Outcome) (due : Option Consumer.Outcome) :
    ∃ shown' count', shown ≤ shown' ∧
      (store.round running limit outcome due).1.outbound = store.outbound ∧
      projection.Saved Alike store.outbound (store.round running limit outcome due).1.checkpoint ∧
      Shows initial (store.round running limit outcome due).1 shown' ∧
      Following initial (store.round running limit outcome due).1
        (store.round running limit outcome due).2 shown' count' := by
  obtain ⟨shown', count', later, shows', following'⟩ :=
    following.flushed shows distinct limit outcome
  rw [Store.round]
  by_cases idle : (store.outbound.read running.lastId limit).isEmpty
  · rw [if_pos idle]
    exact ⟨shown, count, le_rfl, rfl, saved, shows, following⟩
  · rw [if_neg idle]
    cases outcome with
    | committed =>
        cases due with
        | none => exact ⟨shown', count', later, rfl, saved, shows', following'⟩
        | some saving =>
            obtain ⟨kept, outbound, database⟩ := following'.writeCheckpoint saved saving
            cases saving with
            | committed =>
                exact ⟨shown', count', later, rfl, kept, shows', following'.moved rfl rfl⟩
            | rolledBack => exact ⟨shown', count', later, rfl, kept, shows', following'.stale⟩
            | unknown =>
                exact ⟨shown', count', later, rfl, kept, shows', following'.stale.moved rfl rfl⟩
    | rolledBack => exact ⟨shown', count', later, rfl, saved, shows', following'⟩
    | unknown => exact ⟨shown', count', later, rfl, saved, shows', following'⟩

/-! ## Runs -/

namespace System

variable {system : System}

theorem start_sound (initial : Database) : Sound initial (start initial) 0 :=
  ⟨le_rfl, Projection.saved_none, .inr ⟨rfl, rfl⟩, .down⟩

/-- Only the matcher writes to the stream. -/
theorem recover_outbound (settings : Settings) (store : Store) (outcome : Consumer.Outcome) :
    (store.recover settings outcome).1.outbound = store.outbound := by
  unfold Store.recover
  cases projection.recover store.outbound settings.batchSize store.checkpoint with
  | none => rfl
  | some recovered => cases outcome <;> rfl

theorem writeCheckpoint_outbound (store : Store) (ledger : Ledger) (outcome : Consumer.Outcome) :
    (store.writeCheckpoint ledger outcome).1.outbound = store.outbound := by
  cases outcome <;> rfl

theorem round_outbound (store : Store) (running : Running) (limit : Nat) (outcome : Consumer.Outcome)
    (due : Option Consumer.Outcome) :
    (store.round running limit outcome due).1.outbound = store.outbound := by
  unfold Store.round
  by_cases idle : (store.outbound.read running.lastId limit).isEmpty
  · rw [if_pos idle]
  · rw [if_neg idle]
    cases outcome with
    | committed =>
        cases due with
        | none => rfl
        | some saving => cases saving <;> rfl
    | rolledBack => rfl
    | unknown => rfl

theorem act_grows (settings : Settings) (system : System) (action : Action) :
    system.outbound.entries <+: (system.act settings action).outbound.entries := by
  have still : ∀ {other : System}, other.outbound = system.outbound →
      system.outbound.entries <+: other.outbound.entries := fun same => by rw [same]
  cases action with
  | append now records => exact system.outbound.entries_appendAll now records
  | boot outcome =>
      have same := recover_outbound settings system.toStore outcome
      refine still ?_
      cases phase : system.process with
      | down =>
          cases recovered : system.toStore.recover settings outcome with
          | mk store next =>
              rw [recovered] at same
              simp only [act, phase, recovered]
              cases next <;> exact same
      | _ => simp only [act, phase]
  | begin outcome =>
      refine still ?_
      cases phase : system.process with
      | recovered ledger =>
          have same := writeCheckpoint_outbound system.toStore ledger outcome
          cases wrote : system.toStore.writeCheckpoint ledger outcome with
          | mk store saved =>
              rw [wrote] at same
              simp only [act, phase, wrote]
              cases saved <;> exact same
      | _ => simp only [act, phase]
  | round limit outcome due =>
      refine still ?_
      cases phase : system.process with
      | running running =>
          simp only [act, phase]
          exact round_outbound system.toStore running limit outcome due
      | _ => simp only [act, phase]
  | failedRead =>
      refine still ?_
      cases phase : system.process <;> simp only [act, phase]
  | crash => exact List.prefix_refl _
  | loseCheckpoint => exact List.prefix_refl _

theorem run_grows (settings : Settings) (system : System) (actions : List Action) :
    system.outbound.entries <+: (system.run settings actions).outbound.entries := by
  induction actions generalizing system with
  | nil => exact List.prefix_refl _
  | cons action rest ih => exact (act_grows settings system action).trans (ih _)

/-- What the tables show only grows. -/
theorem act_sound (sound : Sound initial system shown) (distinct : system.Distinct)
    (settings : Settings) (action : Action) :
    ∃ shown' ≥ shown, Sound initial (system.act settings action) shown' := by
  cases action with
  | append now records =>
      have grows := system.outbound.entries_appendAll now records
      refine ⟨shown, le_rfl, sound.within.trans grows.length_le, sound.checkpoint.grows grows,
        sound.shows.append sound.within now records, ?_⟩
      have live := sound.live
      simp only [act]
      generalize system.process = process at live ⊢
      cases live with
      | down => exact .down
      | recovered following => exact .recovered (following.append now records)
      | running following => exact .running (following.append now records)
  | boot outcome =>
      cases phase : system.process with
      | down =>
          obtain ⟨shown', later, within, outbound, checkpoint, shows, -, live⟩ :=
            recover_follows sound.checkpoint sound.shows sound.within distinct settings outcome
          cases recovered : system.toStore.recover settings outcome with
          | mk store next =>
              rw [recovered] at outbound checkpoint shows live
              simp only [act, phase, recovered]
              have saved : projection.Saved Alike store.outbound store.checkpoint := by
                rw [outbound, checkpoint]
                exact sound.checkpoint
              rw [← outbound] at within
              cases next with
              | none => exact ⟨shown', later, within, saved, shows, .down⟩
              | some ledger => exact ⟨shown', later, within, saved, shows, .recovered (live ledger rfl)⟩
      | _ =>
          simp only [act, phase]
          exact ⟨shown, le_rfl, sound⟩
  | begin outcome =>
      cases phase : system.process with
      | recovered ledger =>
          have live := sound.live
          rw [phase] at live
          cases live with
          | recovered following =>
              obtain ⟨saved, outbound, database⟩ :=
                following.writeCheckpoint sound.checkpoint outcome
              have shows := sound.shows.moved outbound database
              have moved := following.moved outbound database
              cases wrote : system.toStore.writeCheckpoint ledger outcome with
              | mk store came =>
                  rw [wrote] at saved outbound shows moved
                  simp only [act, phase, wrote]
                  have within := sound.within
                  rw [← outbound] at within saved
                  cases came with
                  | false => exact ⟨shown, le_rfl, within, saved, shows, .down⟩
                  | true => exact ⟨shown, le_rfl, within, saved, shows, .running moved⟩
      | _ =>
          simp only [act, phase]
          exact ⟨shown, le_rfl, sound⟩
  | round limit outcome due =>
      cases phase : system.process with
      | running running =>
          have live := sound.live
          rw [phase] at live
          cases live with
          | running following =>
              obtain ⟨shown', count', later, outbound, saved, shows, next⟩ :=
                following.round sound.checkpoint sound.shows distinct limit outcome due
              simp only [act, phase]
              rw [← outbound] at saved
              exact ⟨shown', later, next.later.trans next.stands.within, saved, shows, .running next⟩
      | _ =>
          simp only [act, phase]
          exact ⟨shown, le_rfl, sound⟩
  | failedRead =>
      cases phase : system.process with
      | running running =>
          have live := sound.live
          rw [phase] at live
          cases live with
          | running following =>
              simp only [act, phase]
              exact ⟨shown, le_rfl, sound.within, sound.checkpoint, sound.shows,
                .running following.stale⟩
      | _ =>
          simp only [act, phase]
          exact ⟨shown, le_rfl, sound⟩
  | crash => exact ⟨shown, le_rfl, sound.within, sound.checkpoint, sound.shows, .down⟩
  | loseCheckpoint =>
      exact ⟨shown, le_rfl, sound.within, Projection.saved_none, sound.shows.moved rfl rfl,
        sound.live.moved rfl rfl⟩

theorem run_sound (sound : Sound initial system shown) (settings : Settings) {actions : List Action}
    (distinct : (system.run settings actions).Distinct) :
    ∃ shown' ≥ shown, Sound initial (system.run settings actions) shown' := by
  induction actions generalizing system shown with
  | nil => exact ⟨shown, le_rfl, sound⟩
  | cons action rest ih =>
      obtain ⟨middle, later, next⟩ :=
        act_sound sound (distinct.earlier (run_grows settings system (action :: rest))) settings action
      obtain ⟨last, latest, ends⟩ := ih next distinct
      exact ⟨last, later.trans latest, ends⟩

/-- Whatever becomes of the process and of its writes, the tables show the ledger of some first
outbound records, and never of fewer than before. Where the last flush came back they show what the
process has read, and a process that comes up again shows every record there is. -/
theorem read_model_never_goes_back (settings : Settings) (initial : Database)
    (actions later : List Action)
    (distinct : ((start initial).run settings (actions ++ later)).Distinct) :
    ∃ count count', count ≤ count' ∧
      count' ≤ ((start initial).run settings (actions ++ later)).outbound.entries.length ∧
      Shows initial ((start initial).run settings actions).toStore count ∧
      Shows initial ((start initial).run settings (actions ++ later)).toStore count' ∧
      (∀ running, ((start initial).run settings actions).process = .running running →
        running.needsFullFlush = false →
        running.lastId = ((start initial).run settings actions).outbound.position count ∧
          ((start initial).run settings actions).database = written initial
            (((start initial).run settings actions).outbound.entries.take count)) ∧
      ((start initial).run settings (actions ++ [.crash, .boot .committed])).database =
        written initial ((start initial).run settings actions).outbound.entries := by
  have whole : ∀ more, (start initial).run settings (actions ++ more) =
      ((start initial).run settings actions).run settings more := fun more => List.foldl_append
  rw [whole] at distinct ⊢
  have earlier := distinct.earlier (run_grows settings ((start initial).run settings actions) later)
  obtain ⟨count, -, sound⟩ := run_sound (start_sound initial) settings earlier
  obtain ⟨count', further, sound'⟩ := run_sound sound settings distinct
  refine ⟨count, count', further, sound'.within, sound.shows, sound'.shows, ?_, ?_⟩
  · intro running phase fresh
    have live := sound.live
    rw [phase] at live
    cases live with
    | running following =>
        obtain ⟨same, database⟩ := following.current fresh
        rw [same]
        exact ⟨following.stands.place, database⟩
  · rw [whole]
    obtain ⟨-, -, -, -, -, -, database, -⟩ := recover_follows sound.checkpoint sound.shows sound.within
      earlier settings .committed
    have shown := database rfl
    generalize (start initial).run settings actions = system at shown
    simp only [System.run, List.foldl_cons, List.foldl_nil, act]
    cases recovered : system.toStore.recover settings .committed with
    | mk store next =>
        rw [recovered] at shown
        cases next <;> exact shown

def twoAtATime : Settings := ⟨2, Nat.zero_lt_two⟩

/-- The loop loses a flush, and the process its checkpoint and then itself. -/
def troubled : List Action :=
  [.append 1 [.accountCreated ⟨1, 1, 7, 100000⟩, .accountCreated ⟨2, 1, 8, 100000⟩],
    .boot .committed, .begin .committed,
    .append 2 [.orderAccepted ⟨1, 1, 7, 4, 100, 5, 1, 2, 1⟩, .fill ⟨2, 1, 2, 7, 8, 100, 5, 1, sideCode .buy⟩],
    .round 1 .rolledBack none, .round 10 .committed (some .unknown), .loseCheckpoint, .crash]

theorem troubled_never_goes_back :
    ∃ count count', count ≤ count' ∧
      count' ≤ ((start blank).run twoAtATime
        (troubled ++ [.append 3 [.cashCredited ⟨3, 2, 7, 55⟩], .boot .unknown])).outbound.entries.length ∧
      Shows blank ((start blank).run twoAtATime troubled).toStore count ∧
      Shows blank ((start blank).run twoAtATime
        (troubled ++ [.append 3 [.cashCredited ⟨3, 2, 7, 55⟩], .boot .unknown])).toStore count' ∧
      (∀ running, ((start blank).run twoAtATime troubled).process = .running running →
        running.needsFullFlush = false →
        running.lastId = ((start blank).run twoAtATime troubled).outbound.position count ∧
          ((start blank).run twoAtATime troubled).database = written blank
            (((start blank).run twoAtATime troubled).outbound.entries.take count)) ∧
      ((start blank).run twoAtATime (troubled ++ [.crash, .boot .committed])).database =
        written blank ((start blank).run twoAtATime troubled).outbound.entries :=
  read_model_never_goes_back twoAtATime blank troubled
    [.append 3 [.cashCredited ⟨3, 2, 7, 55⟩], .boot .unknown] (by unfold Store.Distinct; decide +kernel)

end System

end QuantArena.Ledger
