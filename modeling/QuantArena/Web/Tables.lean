import QuantArena.Web.Snapshots

/-! The tables beside the stream: whatever the consumer's loop runs into, they stand for as many
records as the last flush that committed. -/

set_option autoImplicit false

namespace QuantArena.Web

open Foundations Contracts Fanout

/-- The tables that a user's resync reads hold what the ledger does, and nothing else. -/
structure Tables (ledger : Ledger) (database : Ledger.Database) : Prop where
  accounts : ∀ userId, database.accounts userId = ledger.cashBalances.get? userId
  positions : database.positions = ledger.heldRows
  openOrders : ∀ orderId, database.openOrders orderId = ledger.openOrders.get? orderId

variable {ledger : Ledger} {database : Ledger.Database}

theorem heldRows_congr {left right : Ledger} (same : left.positions.Same right.positions) :
    left.heldRows = right.heldRows := by
  apply (left.nodup_heldRows.ext right.nodup_heldRows).mpr
  intro row
  rw [Ledger.mem_heldRows, Ledger.mem_heldRows, same]

theorem Tables.congr (tables : Tables ledger database) {other : Ledger} (alike : ledger.Alike other) :
    Tables other database where
  accounts userId := (tables.accounts userId).trans (alike.cash userId)
  positions := tables.positions.trans (heldRows_congr alike.positions)
  openOrders orderId := (tables.openOrders orderId).trans (alike.openOrders orderId)

theorem flush_everything_tables (ledger : Ledger)
    (known : ∀ userId, ledger.cashBalances.get? userId = none → database.accounts userId = none) :
    Tables ledger (ledger.flush ledger.everything true database) := by
  have projected := Ledger.flush_everything_projected ledger database
  constructor
  · intro userId
    cases found : ledger.cashBalances.get? userId with
    | some cash => exact projected.accounts userId cash found
    | none =>
        have absent : userId ∉ ledger.everything.accounts := by
          simpa [Ledger.everything] using fun member =>
            (Dict.get?_eq_none_iff.mp found) member
        simp only [Ledger.flush, if_neg absent]
        exact known userId found
  · exact projected.positions
  · exact projected.openOrders

namespace Viewing

variable {viewer : Viewer} {viewing : Viewing}

def acceptedBy (viewer : Viewer) (count : Nat) : List Int :=
  Exchange.Tape.acceptedIds ((viewer.outbound.take count).map (·.2))

/-- What holds of the consumer and its tables between two steps. -/
structure Stored (viewer : Viewer) (viewing : Viewing) : Prop where
  flushed : viewing.flushed ≤ viewing.applied
  applied : viewing.applied ≤ viewer.outbound.length
  sound : viewing.consumer.Sound (acceptedBy viewer viewing.applied)
  ledger : viewing.consumer.ledger.Alike (viewer.ledgerAt viewing.applied)
  tables : Tables (viewer.ledgerAt viewing.flushed) viewing.consumer.database

theorem ledgerAt_eq (viewer : Viewer) (count : Nat) : viewer.ledgerAt count =
    Ledger.new.applyAll ((viewer.outbound.take count).map fun item => (item.2, some item.1)) := by
  rw [Viewer.ledgerAt, Viewer.events, List.map_take]

theorem acceptedBy_nodup (regular : viewer.Regular) (count : Nat) : (acceptedBy viewer count).Nodup := by
  have ascending := (regular.lawful_take count).acceptedIds_ascending.1
  rw [Viewer.events_take] at ascending
  exact ascending.imp ne_of_lt

/-- A batch goes on from where the ledger had got to. -/
theorem take_batch (viewer : Viewer) (applied count : Nat) :
    viewer.outbound.take (applied + ((viewer.outbound.drop applied).take count).length) =
      viewer.outbound.take applied ++ (viewer.outbound.drop applied).take count := by
  rw [List.take_add]
  congr 1
  rw [List.length_take, List.take_eq_take_iff]
  simp

/-- The tables know no more accounts than a later ledger. -/
theorem Stored.known (stored : Stored viewer viewing) (regular : viewer.Regular) {count : Nat}
    (later : viewing.flushed ≤ count) {ledger : Ledger} (alike : ledger.Alike (viewer.ledgerAt count))
    (userId : Int) (none_ : ledger.cashBalances.get? userId = none) :
    viewing.consumer.database.accounts userId = none := by
  rw [stored.tables.accounts]
  rw [alike.cash] at none_
  exact regular.cash_persists later none_

/-- A consumer and a place of the stream that it has read up to. -/
structure Reads (viewer : Viewer) (consumer : Ledger.Consumer) (count : Nat) : Prop where
  sound : consumer.Sound (acceptedBy viewer count)
  ledger : consumer.ledger.Alike (viewer.ledgerAt count)

theorem Reads.readBatch {consumer : Ledger.Consumer} {applied : Nat}
    (reads : Reads viewer consumer applied) (regular : viewer.Regular)
    {items : List (StreamId × Outbound)}
    (joined : viewer.outbound.take (applied + items.length) = viewer.outbound.take applied ++ items) :
    Reads viewer (consumer.readBatch items) (applied + items.length) := by
  have distinct := acceptedBy_nodup regular (applied + items.length)
  have accepted : acceptedBy viewer (applied + items.length) =
      acceptedBy viewer applied ++ Exchange.Tape.acceptedIds (items.map (·.2)) := by
    rw [acceptedBy, joined, Ledger.Consumer.acceptedIds_append]
    rfl
  have ahead : viewer.ledgerAt (applied + items.length) = (viewer.ledgerAt applied).applyAll
      (items.map fun item => (item.2, some item.1)) := by
    rw [ledgerAt_eq, joined, List.map_append, ledgerAt_eq]
    exact List.foldl_append
  constructor
  · rw [accepted]
    exact reads.sound.readBatch (accepted ▸ distinct)
  · rw [ahead]
    exact reads.ledger.applyAll _

theorem Reads.flushToDb {consumer : Ledger.Consumer} {count : Nat}
    (reads : Reads viewer consumer count) (outcome : Ledger.Consumer.Outcome) :
    Reads viewer { consumer.flushToDb consumer.needsFullFlush outcome with
      needsFullFlush := outcome ≠ .committed } count where
  sound := reads.sound.flushToDb outcome
  ledger := by
    obtain ⟨cash, positions, openOrders, fees, deposits, lastSeq, events⟩ := reads.ledger
    cases outcome <;> exact ⟨cash, positions, openOrders, fees, deposits, lastSeq, events⟩

/-- A flush that commits makes the tables stand for all that has been read. -/
theorem Reads.tables {consumer : Ledger.Consumer} {count : Nat} (reads : Reads viewer consumer count)
    (known : ∀ userId, consumer.ledger.cashBalances.get? userId = none →
      consumer.database.accounts userId = none)
    {outcome : Ledger.Consumer.Outcome} (written : outcome ≠ .rolledBack) :
    Tables (viewer.ledgerAt count)
      (consumer.flushToDb consumer.needsFullFlush outcome).database := by
  rw [(Ledger.Consumer.flushToDb_committed written reads.sound.traced reads.sound.clean).1]
  exact (flush_everything_tables consumer.ledger known).congr reads.ledger

theorem Stored.reads (stored : Stored viewer viewing) :
    Reads viewer viewing.consumer viewing.applied := ⟨stored.sound, stored.ledger⟩

theorem Stored.batch (stored : Stored viewer viewing) (regular : viewer.Regular) (count : Nat)
    (outcome : Ledger.Consumer.Outcome) : Stored viewer (viewing.batch viewer count outcome) := by
  have joined := take_batch viewer viewing.applied count
  cases items : (viewer.outbound.drop viewing.applied).take count with
  | nil =>
      have same : viewing.batch viewer count outcome = viewing := by
        simp [Viewing.batch, items, Ledger.Consumer.step]
      rw [same]
      exact stored
  | cons item rest =>
      rw [items] at joined
      have bound : viewing.applied + (item :: rest).length ≤ viewer.outbound.length := by
        have fits := congrArg List.length joined
        have applied := stored.applied
        simp only [List.length_take, List.length_append] at fits
        omega
      have later : viewing.flushed ≤ viewing.applied + (item :: rest).length :=
        stored.flushed.trans (Nat.le_add_right _ _)
      have read := stored.reads.readBatch regular joined
      have written := read.flushToDb outcome
      simp only [Viewing.batch, items]
      constructor
      · dsimp only
        split
        · exact later
        · exact le_refl _
      · exact bound
      · exact written.sound
      · exact written.ledger
      · have known : ∀ userId,
            (viewing.consumer.readBatch (item :: rest)).ledger.cashBalances.get? userId = none →
              viewing.consumer.database.accounts userId = none :=
          stored.known regular later read.ledger
        cases outcome with
        | rolledBack => exact stored.tables
        | committed => exact read.tables known (by decide)
        | unknown => exact read.tables known (by decide)

theorem Stored.failed (stored : Stored viewer viewing) :
    Stored viewer { viewing with consumer := viewing.consumer.step .failed } where
  flushed := stored.flushed
  applied := stored.applied
  sound := ⟨stored.sound.traced, fun incremental => by cases incremental⟩
  ledger := stored.ledger
  tables := stored.tables

/-- A recovery rewrites the tables from the stream. -/
theorem recovered (regular : viewer.Regular) (database : Ledger.Database) (count : Nat)
    (known : ∀ userId, (viewer.ledgerAt count).cashBalances.get? userId = none →
      database.accounts userId = none) :
    Reads viewer (.recover database (viewer.outbound.take count)) count ∧
      Tables (viewer.ledgerAt count)
        (Ledger.Consumer.recover database (viewer.outbound.take count)).database := by
  have sound := (Ledger.Consumer.recover_sound database (viewer.outbound.take count)
    (acceptedBy_nodup regular count)).2
  rw [ledgerAt_eq] at known
  constructor
  · constructor
    · exact sound
    · rw [ledgerAt_eq]
      exact ⟨.refl _, .refl _, .refl _, rfl, rfl, rfl, rfl⟩
  · rw [ledgerAt_eq]
    exact flush_everything_tables _ known

theorem Stored.restart (stored : Stored viewer viewing) (regular : viewer.Regular) (more : Nat) :
    Stored viewer (viewing.restartLedger viewer more) := by
  have later : viewing.flushed ≤ min (viewing.applied + more) viewer.outbound.length :=
    le_min (stored.flushed.trans (Nat.le_add_right _ _)) (stored.flushed.trans stored.applied)
  obtain ⟨reads, tables⟩ := recovered regular _ _
    (stored.known regular later ⟨.refl _, .refl _, .refl _, rfl, rfl, rfl, rfl⟩)
  exact ⟨le_refl _, min_le_right _ _, reads.sound, reads.ledger, tables⟩

theorem start_stored (regular : viewer.Regular) : Stored viewer .start := by
  obtain ⟨reads, tables⟩ := recovered regular ⟨fun _ => none, 0, fun _ => none, none⟩ 0
    fun _ _ => rfl
  exact ⟨le_refl _, Nat.zero_le _, reads.sound, reads.ledger, tables⟩

/-- Only the ledger's own steps touch the tables. -/
theorem Stored.step (stored : Stored viewer viewing) (regular : viewer.Regular)
    (happening : Happening) : Stored viewer (viewing.step viewer happening) := by
  have kept : ∀ other : Viewing, other.consumer = viewing.consumer → other.applied = viewing.applied →
      other.flushed = viewing.flushed → Stored viewer other := by
    intro other consumer applied flushed
    obtain ⟨flushed', applied', sound, ledger, tables⟩ := stored
    exact ⟨by rw [flushed, applied]; exact flushed', applied ▸ applied',
      by rw [consumer, applied]; exact sound, by rw [consumer, applied]; exact ledger,
      by rw [consumer, flushed]; exact tables⟩
  cases happening with
  | batch count outcome => exact stored.batch regular count outcome
  | ledgerFails => exact stored.failed
  | ledgerRestarts more => exact stored.restart regular more
  | connect atMs =>
      simp only [Viewing.step, Viewing.connect]
      split <;> exact kept _ rfl rfl rfl
  | route =>
      simp only [Viewing.step, Viewing.route]
      split
      · exact stored
      · split <;> exact kept _ rfl rfl rfl
  | deliver atMs =>
      simp only [Viewing.step, Viewing.deliver]
      split <;> exact kept _ rfl rfl rfl
  | notice code atMs =>
      simp only [Viewing.step, Viewing.notice]
      split <;> exact kept _ rfl rfl rfl
  | _ => exact kept _ rfl rfl rfl

end Viewing

end QuantArena.Web
