import QuantArena.Exchange.Tape
import QuantArena.Foundations.Run
import QuantArena.Ledger.ReadModel

/-! The tables are what the ledger holds, outside the keys it has marked as dirty. So
writing the dirty keys alone leaves them as a full rewrite would. -/

set_option autoImplicit false

namespace QuantArena.Ledger

open Foundations Contracts Exchange

/-! ## Holdings as rows -/

/-- The rows that the positions table is to have. -/
def heldRows (ledger : Ledger) : Multiset ((Int × Int) × Int) :=
  ((ledger.positions.entries.filter fun entry => entry.2 ≠ 0 : List _) : Multiset _)

theorem mem_heldRows {ledger : Ledger} {row : (Int × Int) × Int} :
    row ∈ ledger.heldRows ↔ ledger.positions.get? row.1 = some row.2 ∧ row.2 ≠ 0 := by
  simp [heldRows, Dict.get?_eq_some_iff]

theorem nodup_heldRows (ledger : Ledger) : ledger.heldRows.Nodup := by
  rw [heldRows, Multiset.coe_nodup]
  exact (List.Nodup.of_map _ ledger.positions.unique).filter _

/-- The rows written for some keys are the rows that these keys are to have. -/
theorem positionRows_eq (ledger : Ledger) (keys : Finset (Int × Int)) :
    ledger.positionRows keys = ledger.heldRows.filter (·.1 ∈ keys) := by
  have distinct : (ledger.positionRows keys).Nodup :=
    (keys.filter _).nodup.map fun _ _ same => (Prod.mk.inj same).1
  rw [distinct.ext (ledger.nodup_heldRows.filter _)]
  intro row
  simp only [positionRows, Multiset.mem_map, Multiset.mem_filter, mem_heldRows, Finset.mem_val,
    Finset.mem_filter]
  constructor
  · rintro ⟨key, ⟨chosen, held⟩, rfl⟩
    refine ⟨⟨?_, held⟩, chosen⟩
    cases found : ledger.positions.get? key with
    | none => simp [Dict.getD, found] at held
    | some qty => rw [Dict.getD_of_get? 0 found]
  · rintro ⟨⟨found, held⟩, chosen⟩
    have same : ledger.positions.getD row.1 0 = row.2 := Dict.getD_of_get? 0 found
    exact ⟨row.1, ⟨chosen, same ▸ held⟩, by rw [same]⟩

theorem positionRows_everything (ledger : Ledger) :
    ledger.positionRows ledger.everything.positions = ledger.heldRows := by
  rw [positionRows_eq, Multiset.filter_eq_self]
  intro row member
  simp only [everything, List.mem_toFinset, Dict.mem_keys_iff]
  exact ⟨row.2, (mem_heldRows.mp member).1⟩

/-! ## What a record marks -/

/-- A record changes nothing under a key that it does not mark. -/
structure Marks (before after : Ledger) : Prop where
  accountsKept : before.dirtyAccounts ⊆ after.dirtyAccounts
  positionsKept : before.dirtyPositions ⊆ after.dirtyPositions
  ordersKept : before.dirtyOrders ⊆ after.dirtyOrders
  accounts : ∀ userId ∉ after.dirtyAccounts,
    after.cashBalances.get? userId = before.cashBalances.get? userId
  positions : ∀ key ∉ after.dirtyPositions,
    after.positions.get? key = before.positions.get? key
  orders : ∀ orderId ∉ after.dirtyOrders,
    after.openOrders.get? orderId = before.openOrders.get? orderId

theorem applyRecord_marks (ledger : Ledger) (record : Outbound) :
    ledger.Marks (ledger.applyRecord record) := by
  cases record with
  | accountCreated created =>
      refine ⟨Finset.subset_insert _ _, Finset.Subset.refl _, Finset.Subset.refl _, ?_,
        fun _ _ => rfl, fun _ _ => rfl⟩
      intro userId unmarked
      exact Dict.get?_set_of_ne _ _ fun same => unmarked (same ▸ Finset.mem_insert_self _ _)
  | cashCredited credited =>
      refine ⟨Finset.subset_insert _ _, Finset.Subset.refl _, Finset.Subset.refl _, ?_,
        fun _ _ => rfl, fun _ _ => rfl⟩
      intro userId unmarked
      exact Dict.get?_add_of_ne _ _ fun same => unmarked (same ▸ Finset.mem_insert_self _ _)
  | orderAccepted accepted =>
      refine ⟨Finset.Subset.refl _, Finset.Subset.refl _, Finset.subset_insert _ _,
        fun _ _ => rfl, fun _ _ => rfl, ?_⟩
      intro orderId unmarked
      exact Dict.get?_set_of_ne _ _ fun same => unmarked (same ▸ Finset.mem_insert_self _ _)
  | orderCancelled cancelled =>
      refine ⟨Finset.Subset.refl _, Finset.Subset.refl _, Finset.subset_insert _ _,
        fun _ _ => rfl, fun _ _ => rfl, ?_⟩
      intro orderId unmarked
      have different : orderId ≠ cancelled.orderId := by
        rintro rfl
        exact unmarked (Finset.mem_insert_self _ _)
      simp only [applyRecord, Dict.get?_alter, if_neg different]
  | fill fill =>
      simp only [applyRecord, applyFill]
      refine ⟨?_, ?_, ?_, ?_, ?_, ?_⟩
      · exact (Finset.subset_insert _ _).trans (Finset.subset_insert _ _)
      · exact (Finset.subset_insert _ _).trans (Finset.subset_insert _ _)
      · exact (Finset.subset_insert _ _).trans (Finset.subset_insert _ _)
      · intro userId unmarked
        simp only [Finset.mem_insert, not_or] at unmarked
        rw [Dict.get?_add_of_ne _ _ unmarked.1, Dict.get?_add_of_ne _ _ unmarked.2.1]
      · intro key unmarked
        simp only [Finset.mem_insert, not_or] at unmarked
        rw [Dict.get?_add_of_ne _ _ unmarked.1, Dict.get?_add_of_ne _ _ unmarked.2.1]
      · intro orderId unmarked
        simp only [Finset.mem_insert, not_or] at unmarked
        simp only [Dict.get?_alter, if_neg unmarked.1, if_neg unmarked.2.1]
  | orderRejected _ => constructor <;> simp [applyRecord]
  | bookChanged _ => constructor <;> simp [applyRecord]
  | replayConfigured _ => constructor <;> simp [applyRecord]

/-- Two descriptions of one order, up to what is left of it. -/
def OpenOrderRecord.Describes (row order : OpenOrderRecord) : Prop :=
  { row with remainingQty := order.remainingQty } = order

theorem OpenOrderRecord.Describes.trans {row middle order : OpenOrderRecord}
    (first : row.Describes middle) (second : middle.Describes order) : row.Describes order := by
  rw [Describes, ← first] at second
  exact second

theorem OpenOrderRecord.less_describes {order left : OpenOrderRecord} {qty : Int}
    (some_ : order.less qty = some left) : order.Describes left := by
  unfold less at some_
  split at some_
  · cases some_
  · cases some_
    rfl

theorem alter_less_describes {orders : Dict Int OpenOrderRecord} {altered orderId qty : Int}
    {order : OpenOrderRecord}
    (found : (orders.alter altered (·.less qty)).get? orderId = some order) :
    ∃ old, orders.get? orderId = some old ∧ old.Describes order := by
  rw [Dict.get?_alter] at found
  split at found
  · rename_i same
    subst same
    obtain ⟨old, present, left⟩ := Option.bind_eq_some_iff.mp found
    exact ⟨old, present, OpenOrderRecord.less_describes left⟩
  · exact ⟨order, found, rfl⟩

/-- An open order is one that was open before, or the one just accepted. -/
theorem applyRecord_describes {ledger : Ledger} {record : Outbound} {orderId : Int}
    {order : OpenOrderRecord}
    (found : (ledger.applyRecord record).openOrders.get? orderId = some order) :
    orderId ∈ Tape.acceptedIds [record] ∨
      ∃ old, ledger.openOrders.get? orderId = some old ∧ old.Describes order := by
  cases record with
  | orderAccepted accepted =>
      simp only [applyRecord, Dict.get?_set] at found
      split at found
      · rename_i same
        exact .inl (List.mem_singleton.mpr same)
      · exact .inr ⟨order, found, rfl⟩
  | orderCancelled cancelled => exact .inr (alter_less_describes found)
  | fill fill =>
      obtain ⟨middle, present, later⟩ := alter_less_describes found
      obtain ⟨old, first, earlier⟩ := alter_less_describes present
      exact .inr ⟨old, first, earlier.trans later⟩
  | accountCreated _ => exact .inr ⟨order, found, rfl⟩
  | cashCredited _ => exact .inr ⟨order, found, rfl⟩
  | orderRejected _ => exact .inr ⟨order, found, rfl⟩
  | bookChanged _ => exact .inr ⟨order, found, rfl⟩
  | replayConfigured _ => exact .inr ⟨order, found, rfl⟩

/-! ## The tables between two flushes -/

/-- The tables hold what the ledger does. -/
structure Projected (ledger : Ledger) (database : Database) : Prop where
  accounts : ∀ userId cash, ledger.cashBalances.get? userId = some cash →
    database.accounts userId = some cash
  positions : database.positions = ledger.heldRows
  openOrders : ∀ orderId, database.openOrders orderId = ledger.openOrders.get? orderId
  houseFees : database.houseFees = some ledger.houseFeeTicks

/-- The tables hold what the ledger does, outside the dirty keys. -/
structure Clean (ledger : Ledger) (database : Database) : Prop where
  accounts : ∀ userId ∉ ledger.dirtyAccounts, ∀ cash,
    ledger.cashBalances.get? userId = some cash → database.accounts userId = some cash
  positions : (database.positions.filter fun row => row.1 ∉ ledger.dirtyPositions) =
    ledger.heldRows.filter fun row => row.1 ∉ ledger.dirtyPositions
  orders : ∀ orderId ∉ ledger.dirtyOrders,
    database.openOrders orderId = ledger.openOrders.get? orderId

/-- A row of an open order tells of that very order, and of one that was accepted. -/
structure Traced (ledger : Ledger) (database : Database) (accepted : List Int) : Prop where
  described : ∀ orderId row order, database.openOrders orderId = some row →
    ledger.openOrders.get? orderId = some order → row.Describes order
  rows : ∀ orderId row, database.openOrders orderId = some row → orderId ∈ accepted
  orders : ∀ orderId order, ledger.openOrders.get? orderId = some order → orderId ∈ accepted

variable {ledger : Ledger} {database : Database} {accepted : List Int}

theorem Marks.clean {after : Ledger} (marks : ledger.Marks after)
    (clean : ledger.Clean database) : after.Clean database where
  accounts userId unmarked cash found :=
    clean.accounts userId (fun marked => unmarked (marks.accountsKept marked)) cash
      ((marks.accounts userId unmarked).symm.trans found)
  positions := by
    have wider : ∀ rows : Multiset ((Int × Int) × Int),
        (rows.filter fun row => row.1 ∉ after.dirtyPositions) =
          (rows.filter fun row => row.1 ∉ ledger.dirtyPositions).filter
            fun row => row.1 ∉ after.dirtyPositions := by
      intro rows
      rw [Multiset.filter_filter]
      refine Multiset.filter_congr fun row _ => ⟨fun unmarked => ⟨unmarked, ?_⟩, And.left⟩
      exact fun marked => unmarked (marks.positionsKept marked)
    have kept : (ledger.heldRows.filter fun row => row.1 ∉ after.dirtyPositions) =
        after.heldRows.filter fun row => row.1 ∉ after.dirtyPositions := by
      rw [(ledger.nodup_heldRows.filter _).ext (after.nodup_heldRows.filter _)]
      intro row
      simp only [Multiset.mem_filter, mem_heldRows, and_congr_left_iff]
      intro unmarked
      rw [marks.positions row.1 unmarked]
      exact fun _ => Iff.rfl
    rw [wider, clean.positions, ← wider, kept]
  orders orderId unmarked :=
    (clean.orders orderId fun marked => unmarked (marks.ordersKept marked)).trans
      (marks.orders orderId unmarked).symm

theorem Traced.applyRecord (traced : ledger.Traced database accepted) {record : Outbound}
    (fresh : ∀ orderId ∈ Tape.acceptedIds [record], orderId ∉ accepted) :
    (ledger.applyRecord record).Traced database (accepted ++ Tape.acceptedIds [record]) where
  described orderId row order stored found := by
    cases applyRecord_describes found with
    | inl new => exact absurd (traced.rows orderId row stored) (fresh orderId new)
    | inr old =>
        obtain ⟨before, present, describes⟩ := old
        exact (traced.described orderId row before stored present).trans describes
  rows orderId row stored := List.mem_append_left _ (traced.rows orderId row stored)
  orders orderId order found := by
    cases applyRecord_describes found with
    | inl new => exact List.mem_append_right _ new
    | inr old =>
        obtain ⟨before, present, -⟩ := old
        exact List.mem_append_left _ (traced.orders orderId before present)

/-- Counting the event touches nothing that the tables show. -/
theorem apply_projection (ledger : Ledger) (record : Outbound) (streamId : Option StreamId) :
    ledger.Marks (ledger.apply record streamId) := by
  have marks := applyRecord_marks
    { ledger with
      lastSeq := streamId.getD ledger.lastSeq
      eventsProcessed := ledger.eventsProcessed + 1 } record
  exact ⟨marks.accountsKept, marks.positionsKept, marks.ordersKept, marks.accounts,
    marks.positions, marks.orders⟩

theorem applyAll_clean (events : List (Outbound × Option StreamId))
    (clean : ledger.Clean database) : (ledger.applyAll events).Clean database := by
  induction events generalizing ledger with
  | nil => exact clean
  | cons event rest ih => exact ih ((apply_projection ledger event.1 event.2).clean clean)

theorem applyAll_traced (events : List (Outbound × Option StreamId))
    (traced : ledger.Traced database accepted)
    (distinct : (accepted ++ Tape.acceptedIds (events.map (·.1))).Nodup) :
    (ledger.applyAll events).Traced database
      (accepted ++ Tape.acceptedIds (events.map (·.1))) := by
  induction events generalizing ledger accepted with
  | nil => simpa [Tape.acceptedIds, applyAll] using traced
  | cons event rest ih =>
      have split : Tape.acceptedIds ((event :: rest).map (·.1)) =
          Tape.acceptedIds [event.1] ++ Tape.acceptedIds (rest.map (·.1)) := by
        rw [List.map_cons, ← List.singleton_append]
        exact List.filterMap_append
      rw [split, ← List.append_assoc] at distinct ⊢
      have counted : Traced { ledger with
          lastSeq := event.2.getD ledger.lastSeq
          eventsProcessed := ledger.eventsProcessed + 1 } database accepted :=
        ⟨traced.described, traced.rows, traced.orders⟩
      have apart := (List.nodup_append.mp (List.nodup_append.mp distinct).1).2.2
      exact ih (counted.applyRecord fun orderId new old => apart orderId old orderId new rfl) distinct

/-! ## A flush -/

theorem flush_everything_projected (ledger : Ledger) (database : Database) :
    ledger.Projected (ledger.flush ledger.everything true database) where
  accounts userId cash found := by
    have known : userId ∈ ledger.everything.accounts := by
      simpa [everything] using Dict.mem_keys_iff.mpr ⟨cash, found⟩
    simp [flush, known, found]
  positions := by simp [flush, positionRows_everything]
  openOrders orderId := by
    simp only [flush, if_true, everything, List.mem_toFinset]
    cases found : ledger.openOrders.get? orderId with
    | none => simp
    | some order =>
        rw [if_pos (Dict.mem_keys_iff.mpr ⟨order, found⟩)]
        rfl
  houseFees := rfl

/-- Writing the dirty keys is writing every table. -/
theorem flush_dirty_eq_full (clean : ledger.Clean database)
    (traced : ledger.Traced database accepted) :
    ledger.flush ledger.takeDirty.1 false database =
      ledger.flush ledger.everything true database := by
  have projected := flush_everything_projected ledger database
  rw [Database.mk.injEq]
  refine ⟨?_, ?_, ?_, rfl⟩
  · funext userId
    cases found : ledger.cashBalances.get? userId with
    | none => simp [flush, found]
    | some cash =>
        refine Eq.trans ?_ (projected.accounts userId cash found).symm
        by_cases marked : userId ∈ ledger.dirtyAccounts
        · simp [flush, takeDirty, marked, found]
        · simp [flush, takeDirty, marked, clean.accounts userId marked cash found]
  · refine Eq.trans ?_ projected.positions.symm
    have rows : (ledger.flush ledger.takeDirty.1 false database).positions =
        (database.positions.filter fun row => row.1 ∉ ledger.dirtyPositions) +
          ledger.positionRows ledger.dirtyPositions := rfl
    rw [rows, clean.positions, positionRows_eq, Multiset.add_comm]
    exact Multiset.filter_add_not _ _
  · funext orderId
    refine Eq.trans ?_ (projected.openOrders orderId).symm
    by_cases marked : orderId ∈ ledger.dirtyOrders
    · have written : (ledger.flush ledger.takeDirty.1 false database).openOrders orderId =
          (ledger.openOrders.get? orderId).map (upsertOrder (database.openOrders orderId)) := by
        simp [flush, takeDirty, marked]
      rw [written]
      cases found : ledger.openOrders.get? orderId with
      | none => rfl
      | some order =>
          cases stored : database.openOrders orderId with
          | none => rfl
          | some row => exact congrArg some (traced.described orderId row order stored found)
    · simp [flush, takeDirty, marked, clean.orders orderId marked]

theorem Projected.clean (projected : ledger.Projected database) : ledger.Clean database where
  accounts userId _ := projected.accounts userId
  positions := by rw [projected.positions]
  orders orderId _ := projected.openOrders orderId

theorem Projected.traced (projected : ledger.Projected database)
    (orders : ∀ orderId order, ledger.openOrders.get? orderId = some order → orderId ∈ accepted) :
    ledger.Traced database accepted where
  described orderId row order stored found := by
    rw [projected.openOrders, found] at stored
    cases stored
    rfl
  rows orderId row stored := orders orderId row ((projected.openOrders orderId).symm.trans stored)
  orders := orders

namespace Consumer

variable {consumer : Consumer}

/-- What holds between two rounds of the loop. -/
structure Sound (consumer : Consumer) (accepted : List Int) : Prop where
  traced : consumer.ledger.Traced consumer.database accepted
  clean : consumer.needsFullFlush = false → consumer.ledger.Clean consumer.database

/-- A flush that commits rewrites every table, whatever it writes. -/
theorem flushToDb_committed {full : Bool} {outcome : Outcome} (written : outcome ≠ .rolledBack)
    (traced : consumer.ledger.Traced consumer.database accepted)
    (clean : full = false → consumer.ledger.Clean consumer.database) :
    (consumer.flushToDb full outcome).database =
        consumer.ledger.flush consumer.ledger.everything true consumer.database ∧
      (consumer.flushToDb full outcome).ledger.Projected
        (consumer.flushToDb full outcome).database := by
  have rewritten : (consumer.flushToDb full outcome).database =
      consumer.ledger.flush consumer.ledger.everything true consumer.database := by
    cases full with
    | true =>
        cases outcome with
        | committed => rfl
        | unknown => rfl
        | rolledBack => exact absurd rfl written
    | false =>
        refine Eq.trans ?_ (flush_dirty_eq_full (clean rfl) traced)
        cases outcome with
        | committed => rfl
        | unknown => rfl
        | rolledBack => exact absurd rfl written
  have projected := flush_everything_projected consumer.ledger consumer.database
  have taken : (consumer.flushToDb full outcome).ledger = consumer.ledger.takeDirty.2 := by
    cases outcome <;> rfl
  refine ⟨rewritten, ?_⟩
  rw [rewritten, taken]
  exact ⟨projected.accounts, projected.positions, projected.openOrders, projected.houseFees⟩

theorem readBatch_events (items : List (StreamId × Outbound)) :
    (items.map fun item => (item.2, some item.1)).map (·.1) = items.map (·.2) := by
  simp

theorem Sound.readBatch (sound : consumer.Sound accepted) {items : List (StreamId × Outbound)}
    (distinct : (accepted ++ Tape.acceptedIds (items.map (·.2))).Nodup) :
    (consumer.readBatch items).Sound (accepted ++ Tape.acceptedIds (items.map (·.2))) := by
  rw [← readBatch_events] at distinct ⊢
  exact ⟨applyAll_traced _ sound.traced distinct, fun incremental =>
    applyAll_clean _ (sound.clean incremental)⟩

theorem Sound.flushToDb (sound : consumer.Sound accepted) (outcome : Outcome) :
    Sound { consumer.flushToDb consumer.needsFullFlush outcome with
      needsFullFlush := outcome ≠ .committed } accepted := by
  by_cases written : outcome = .rolledBack
  · subst written
    exact ⟨⟨sound.traced.described, sound.traced.rows, sound.traced.orders⟩, by simp⟩
  · obtain ⟨-, projected⟩ := flushToDb_committed written sound.traced sound.clean
    have same : (consumer.flushToDb consumer.needsFullFlush outcome).ledger.openOrders =
        consumer.ledger.openOrders := by
      cases outcome <;> rfl
    have orders : ∀ orderId order,
        (consumer.flushToDb consumer.needsFullFlush outcome).ledger.openOrders.get? orderId =
          some order → orderId ∈ accepted := same ▸ sound.traced.orders
    exact ⟨projected.traced orders, fun _ => projected.clean⟩

theorem Sound.step (sound : consumer.Sound accepted) {event : Event}
    (distinct : (accepted ++ Tape.acceptedIds (event.items.map (·.2))).Nodup) :
    (consumer.step event).Sound (accepted ++ Tape.acceptedIds (event.items.map (·.2))) := by
  cases event with
  | failed =>
      have none_ : accepted ++ Tape.acceptedIds ((Event.items .failed).map (·.2)) = accepted :=
        List.append_nil accepted
      rw [none_]
      exact ⟨sound.traced, fun incremental => by cases incremental⟩
  | batch items outcome =>
      cases items with
      | nil =>
          have none_ : accepted ++ Tape.acceptedIds ((Event.items (.batch [] outcome)).map (·.2)) =
              accepted := List.append_nil accepted
          rw [none_]
          exact sound
      | cons item rest => exact (sound.readBatch distinct).flushToDb outcome

theorem acceptedIds_append (before after : List (StreamId × Outbound)) :
    Tape.acceptedIds ((before ++ after).map (·.2)) =
      Tape.acceptedIds (before.map (·.2)) ++ Tape.acceptedIds (after.map (·.2)) := by
  rw [List.map_append]
  exact List.filterMap_append

theorem Sound.run (sound : consumer.Sound accepted) {events : List Event}
    (distinct : (accepted ++ Tape.acceptedIds ((events.flatMap Event.items).map (·.2))).Nodup) :
    (consumer.run events).Sound
      (accepted ++ Tape.acceptedIds ((events.flatMap Event.items).map (·.2))) := by
  induction events generalizing consumer accepted with
  | nil =>
      have none_ : accepted ++ Tape.acceptedIds
          ((([] : List Event).flatMap Event.items).map (·.2)) = accepted := List.append_nil accepted
      rw [none_]
      exact sound
  | cons event rest ih =>
      rw [List.flatMap_cons, acceptedIds_append, ← List.append_assoc] at distinct ⊢
      exact ih (sound.step (List.nodup_append.mp distinct).1) distinct

theorem recover_sound (database : Database) (replayed : List (StreamId × Outbound))
    (distinct : (Tape.acceptedIds (replayed.map (·.2))).Nodup) :
    (recover database replayed).ledger.Projected (recover database replayed).database ∧
      (recover database replayed).Sound (Tape.acceptedIds (replayed.map (·.2))) := by
  let blank : Database := ⟨fun _ => none, 0, fun _ => none, none⟩
  have nothing : Ledger.new.Traced blank [] := by
    constructor <;> simp [blank, Ledger.new]
  have traced := applyAll_traced (replayed.map fun item => (item.2, some item.1)) nothing (by
    rwa [readBatch_events])
  rw [readBatch_events] at traced
  have projected := flush_everything_projected
    (Ledger.new.applyAll (replayed.map fun item => (item.2, some item.1))) database
  have written : (recover database replayed).ledger.Projected (recover database replayed).database :=
    ⟨projected.accounts, projected.positions, projected.openOrders, projected.houseFees⟩
  exact ⟨written, written.traced traced.orders, fun _ => written.clean⟩

/-- After every flush that commits, the tables hold what the ledger does, and what a full
rewrite would have put there, if no order id is accepted twice. -/
theorem flushed_tables_are_the_ledger (database : Database)
    (replayed : List (StreamId × Outbound)) (events : List Event)
    (item : StreamId × Outbound) (rest : List (StreamId × Outbound)) (outcome : Outcome)
    (written : outcome ≠ .rolledBack)
    (distinct : (Tape.acceptedIds ((replayed ++ events.flatMap Event.items ++
      item :: rest).map (·.2))).Nodup) :
    let consumer := (recover database replayed).run events
    let flushed := consumer.step (.batch (item :: rest) outcome)
    flushed.ledger.Projected flushed.database ∧
      flushed.database = (consumer.readBatch (item :: rest)).ledger.flush
        (consumer.readBatch (item :: rest)).ledger.everything true consumer.database := by
  rw [acceptedIds_append, acceptedIds_append] at distinct
  have first := (List.nodup_append.mp (List.nodup_append.mp distinct).1).1
  obtain ⟨-, recovered⟩ := recover_sound database replayed first
  have reached := (recovered.run (List.nodup_append.mp distinct).1).readBatch distinct
  obtain ⟨rewritten, projected⟩ := flushToDb_committed written reached.traced reached.clean
  exact ⟨⟨projected.accounts, projected.positions, projected.openOrders, projected.houseFees⟩,
    rewritten⟩

/-- An order is accepted in a batch whose flush is lost, and filled in the next. -/
theorem tables_after_a_failed_flush :
    let consumer := (recover ⟨fun _ => none, 0, fun _ => none, none⟩ []).run
      [.batch [(toLex (1, 0), .orderAccepted ⟨1, 1, 7, 4, 100, 5, 1, 2, 1⟩)] .rolledBack]
    let flushed := consumer.step (.batch [(toLex (2, 0),
      .fill ⟨2, 1, 2, 4, 5, 100, 5, 1, sideCode .buy⟩)] .committed)
    flushed.ledger.Projected flushed.database :=
  (flushed_tables_are_the_ledger ⟨fun _ => none, 0, fun _ => none, none⟩ []
    [.batch [(toLex (1, 0), .orderAccepted ⟨1, 1, 7, 4, 100, 5, 1, 2, 1⟩)] .rolledBack]
    (toLex (2, 0), .fill ⟨2, 1, 2, 4, 5, 100, 5, 1, sideCode .buy⟩) [] .committed (by decide)
    (by decide)).1

/-- The second order with an id inherits the row of the first, all but its quantity. -/
theorem reused_order_id_leaves_a_stale_row :
    let consumer := (recover ⟨fun _ => none, 0, fun _ => none, none⟩ []).run
      [.batch [(toLex (1, 0), .orderAccepted ⟨1, 1, 7, 4, 100, 5, 1, 2, 1⟩)] .committed]
    let flushed := consumer.step (.batch [(toLex (2, 0),
      .orderAccepted ⟨2, 1, 8, 4, 200, 6, 1, 2, 1⟩)] .committed)
    ¬flushed.ledger.Projected flushed.database := by
  intro consumer flushed projected
  exact absurd (projected.openOrders 1) (by decide)

end Consumer

end QuantArena.Ledger
