import QuantArena.Matcher.CppWorker
import QuantArena.Matcher.RunnerProperties

/-! The C++ runner recovers as the naive one does: over streams of the same records it reads the
same batches, counts the same anchors, and ends with a worker of the same market. -/

set_option autoImplicit false

namespace QuantArena.Matcher

open Foundations Contracts Exchange Gateway Engine.Cpp

variable {settings : CppSettings}

/-! ## Reading -/

/-- The outbound records all have a form on the wire. -/
def answerWire (sent : Outbound) : Option WireRecord := some sent.wire

theorem answerWire_current (sent : Outbound) (record : WireRecord)
    (written : answerWire sent = some record) :
    record.schemaVersion = schemaVersion ∧ record.recordType = record.type.code := by
  cases written
  exact sent.wire_current

theorem nil_of_reads {γ : Type} {wire : γ → Option WireRecord} {items : List (StreamId × WireRecord)}
    {batch : List (StreamId × γ)} (reads : List.Forall₂ (ReadAs wire) items batch) :
    items = [] ↔ batch = [] := by
  cases reads with
  | nil => simp
  | cons _ _ => simp

theorem isAnchorRecord_wire (sent : Outbound) (streamId : StreamId) :
    isAnchorRecord (sent.wire.withSeq streamId) = isAnchor sent := by
  cases sent with
  | orderCancelled cancelled =>
      obtain ⟨time, orderId, clientOrderId, userId, remaining, symbolId, reason⟩ := cancelled
      cases reason <;> rfl
  | _ => rfl

theorem foldl_anchor_records {items : List (StreamId × WireRecord)}
    {batch : List (StreamId × Outbound)} (reads : List.Forall₂ (ReadAs answerWire) items batch)
    (found : Nat × StreamId) :
    items.foldl (fun found item => (found.1 + (isAnchorRecord item.2).toNat, item.1)) found =
      batch.foldl (fun found item => (found.1 + (isAnchor item.2).toNat, item.1)) found := by
  induction reads generalizing found with
  | nil => rfl
  | cons first _ ih =>
      obtain ⟨same, record, written, read⟩ := first
      cases written
      rw [List.foldl_cons, List.foldl_cons, ih, read, isAnchorRecord_wire, same]

/-- The anchors are counted alike. -/
theorem countAnchorsAfter_alike {store : Stream (List UInt8)} {stream : Stream Outbound}
    (carries : Carries answerWire store stream) (rounds : Nat) (lastId : StreamId) (anchors : Nat) :
    CppMatcher.countAnchorsAfter settings store rounds lastId anchors =
      countAnchorsAfter settings.toSettings stream rounds lastId anchors := by
  induction rounds generalizing lastId anchors with
  | zero => rfl
  | succ rounds ih =>
      obtain ⟨items, read, reads⟩ := carries.read answerWire_current lastId settings.batchSize
      rw [CppMatcher.countAnchorsAfter, countAnchorsAfter, read, Fault.ok_bind]
      cases batch : stream.read lastId settings.batchSize with
      | nil =>
          rw [batch] at reads
          cases reads
          rfl
      | cons entry rest =>
          rw [batch] at reads
          have some_ : items ≠ [] := fun none => by
            have empty := (nil_of_reads reads).mp none
            cases empty
          rw [if_neg some_, foldl_anchor_records reads]
          exact ih _ _

/-! ## Streams that have been trimmed -/

section Trimmed

variable {trimmed : Retained (List UInt8)} {lastId : StreamId}

theorem readRecords_left (reaches : trimmed.Reaches lastId) (count : Nat) :
    readRecords trimmed.left lastId count = readRecords trimmed.history lastId count := by
  rw [readRecords, readRecords, reaches.read_left]

theorem lt_of_readRecords {store : Stream (List UInt8)} {count : Nat}
    {items : List (StreamId × WireRecord)} (read : readRecords store lastId count = .ok items) :
    ∀ item ∈ items, lastId < item.1 := by
  intro item member
  have listed : item.1 ∈ (store.read lastId count).map (·.1) :=
    (decodeAll_eq_ok.mp read).ids ▸ List.mem_map_of_mem (f := Prod.fst) member
  obtain ⟨entry, taken, same⟩ := List.mem_map.mp listed
  have later := (List.mem_filter.mp (List.mem_of_mem_take taken)).2
  exact same ▸ of_decide_eq_true later

theorem le_foldl_anchors {items : List (StreamId × WireRecord)}
    (later : ∀ item ∈ items, lastId < item.1) (anchors : Nat) :
    lastId ≤ (items.foldl
      (fun found item => (found.1 + (isAnchorRecord item.2).toNat, item.1)) (anchors, lastId)).2 := by
  induction items using List.reverseRecOn with
  | nil => exact le_rfl
  | append_singleton before last _ =>
      rw [List.foldl_append]
      exact (later last (by simp)).le

/-- A reader that has lost nothing counts the same anchors. -/
theorem countAnchorsAfter_left (reaches : trimmed.Reaches lastId) (rounds anchors : Nat) :
    CppMatcher.countAnchorsAfter settings trimmed.left rounds lastId anchors =
      CppMatcher.countAnchorsAfter settings trimmed.history rounds lastId anchors := by
  induction rounds generalizing lastId anchors with
  | zero => rfl
  | succ rounds ih =>
      rw [CppMatcher.countAnchorsAfter, CppMatcher.countAnchorsAfter, readRecords_left reaches]
      cases read : readRecords trimmed.history lastId settings.batchSize with
      | error fault => rfl
      | ok items =>
          simp only [Fault.ok_bind]
          split
          · rfl
          · exact ih (reaches.mono (le_foldl_anchors (lt_of_readRecords read) anchors)) _

theorem le_replayBatch {alreadyAnswered : Nat} {items : List (StreamId × WireRecord)}
    {floor : StreamId} (later : ∀ item ∈ items, floor ≤ item.1) (le : floor ≤ lastId)
    {worker after : Worker} {place : StreamId} {replayed count : Nat}
    (finished : CppMatcher.replayBatch alreadyAnswered items worker lastId replayed =
      .ok (after, place, count)) : floor ≤ place := by
  induction items generalizing lastId worker replayed with
  | nil =>
      cases finished
      exact le
  | cons item rest ih =>
      rw [CppMatcher.replayBatch] at finished
      split at finished
      · cases finished
        exact le
      · obtain ⟨own, others⟩ := List.forall_mem_cons.mp later
        obtain ⟨stepped, -, finished⟩ := Fault.bind_eq_ok.mp finished
        exact ih others own finished

/-- And replays the same records. -/
theorem replay_left (reaches : trimmed.Reaches lastId) {alreadyAnswered : Nat} (rounds : Nat)
    (worker : Worker) (replayed : Nat) :
    CppMatcher.replay settings trimmed.left alreadyAnswered rounds worker lastId replayed =
      CppMatcher.replay settings trimmed.history alreadyAnswered rounds worker lastId replayed := by
  induction rounds generalizing lastId worker replayed with
  | zero => rfl
  | succ rounds ih =>
      rw [CppMatcher.replay, CppMatcher.replay, readRecords_left reaches]
      split
      · cases read : readRecords trimmed.history lastId settings.batchSize with
        | error fault => rfl
        | ok items =>
            simp only [Fault.ok_bind]
            split
            · rfl
            · cases finished : CppMatcher.replayBatch alreadyAnswered items worker lastId replayed with
              | error fault => rfl
              | ok reached =>
                  obtain ⟨after, place, count⟩ := reached
                  simp only [Fault.ok_bind]
                  have later := fun item member => (lt_of_readRecords read item member).le
                  exact ih (reaches.mono (le_replayBatch later le_rfl finished)) _ _
      · rfl

end Trimmed

/-! ## The inbound stream -/

/-- What lies on the inbound stream, as an engine reads it. -/
def sentRecords (store : Stream (List UInt8)) : List Inbound :=
  store.records.map fun payload =>
    match unpackAny payload with
    | .ok record => Inbound.ofWire record
    | .error _ => .other

/-- Nothing has outgrown its width: the number of records, the ids that Redis gives them, and the
snapshot of any moment, which goes over the pipe in one frame. -/
structure Within (settings : CppSettings) (store : Stream (List UInt8)) : Prop where
  counted : store.entries.length < 2 ^ 64 - 1
  framed : ∀ count, 16 + (Market.fresh.run settings.initialCashTicks
    ((sentRecords store).take count)).1.tape.live.length * 52 < 2 ^ 32
  ids : ∀ entry ∈ store.entries, (ofLex entry.1).1 < 2 ^ 64 ∧ (ofLex entry.1).2 < 2 ^ 64

/-- The bytes carry the records, and every submission among them was checked. -/
structure Inflow (store : Stream (List UInt8)) (stream : Stream Inbound) : Prop where
  carries : Carries Inbound.wire? store stream
  admissible : ∀ order, .submitOrder order ∈ stream.records → Admissible order

variable {store : Stream (List UInt8)} {stream : Stream Inbound}

theorem sent_of_written {payload : List UInt8} {sent : Inbound}
    (written : Written Inbound.wire? payload sent) :
    (match unpackAny payload with
      | .ok record => Inbound.ofWire record
      | .error _ => .other) = sent := by
  obtain ⟨record, formed, packed⟩ := written
  obtain ⟨version, kind⟩ := Inbound.wire_current formed
  have read := Inbound.ofWire_wire formed (toLex (0, 0))
  rw [unpackAny_eq_ok.mpr ⟨version, kind, packed⟩]
  exact read

theorem sentRecords_eq (carries : Carries Inbound.wire? store stream) :
    sentRecords store = stream.records := by
  unfold Carries at carries
  unfold sentRecords Stream.records
  generalize store.entries = payloads at carries ⊢
  generalize stream.entries = entries at carries ⊢
  induction carries with
  | nil => rfl
  | cons first _ ih =>
      simp only [List.map_cons, List.cons.injEq] at ih ⊢
      exact ⟨sent_of_written first.2, ih⟩

theorem sendable_of_written {payload : List UInt8} {sent : Inbound}
    (written : Written Inbound.wire? payload sent) : Market.Sendable sent := by
  intro record formed
  obtain ⟨other, same, packed⟩ := written
  rw [formed] at same
  cases same
  exact WireRecord.fits_of_pack packed

theorem Inflow.given (inflow : Inflow store stream) (within_ : Within settings store)
    {item : StreamId × WireRecord} {entry : StreamId × Inbound} (member : entry ∈ stream.entries)
    (read : ReadAs Inbound.wire? item entry) : CppEngineProcess.Given entry.2 item.2 := by
  obtain ⟨payload, listed, same, written⟩ := inflow.carries.payload member
  obtain ⟨-, record, formed, stamped⟩ := read
  refine ⟨sendable_of_written written, fun order submitted => inflow.admissible order ?_, record, entry.1, formed,
    stamped, same ▸ within_.ids payload listed⟩
  exact submitted ▸ List.mem_map_of_mem (f := Prod.snd) member

/-- A batch as both sides read it. -/
def Batch (items : List (StreamId × WireRecord)) (batch : List (StreamId × Inbound)) : Prop :=
  List.Forall₂ (fun item entry => item.1 = entry.1 ∧ CppEngineProcess.Given entry.2 item.2) items batch

theorem Inflow.batch (inflow : Inflow store stream) (within_ : Within settings store)
    {items : List (StreamId × WireRecord)} {batch : List (StreamId × Inbound)}
    (part : ∀ entry ∈ batch, entry ∈ stream.entries)
    (reads : List.Forall₂ (ReadAs Inbound.wire?) items batch) : Batch items batch := by
  induction reads with
  | nil => exact .nil
  | cons first _ ih =>
      exact .cons ⟨first.1, inflow.given within_ (part _ List.mem_cons_self) first⟩
        (ih fun entry member => part entry (List.mem_cons_of_mem _ member))

/-- A read of the bytes is a batch of the records. -/
theorem Inflow.read (inflow : Inflow store stream) (within_ : Within settings store)
    (lastId : StreamId) (count : Nat) :
    ∃ items, readRecords store lastId count = .ok items ∧ Batch items (stream.read lastId count) := by
  obtain ⟨items, read, reads⟩ := inflow.carries.read
    (fun sent record formed => Inbound.wire_current formed) lastId count
  exact ⟨items, read, inflow.batch within_
    (fun entry member => List.mem_of_mem_filter (List.mem_of_mem_take member)) reads⟩

theorem Batch.ids {items : List (StreamId × WireRecord)} {batch : List (StreamId × Inbound)}
    (same : Batch items batch) : items.map (·.1) = batch.map (·.1) := by
  induction same with
  | nil => rfl
  | cons first _ ih => rw [List.map_cons, List.map_cons, ih, first.1]

theorem Batch.givens {items : List (StreamId × WireRecord)} {batch : List (StreamId × Inbound)}
    (same : Batch items batch) :
    List.Forall₂ CppEngineProcess.Given (batch.map (·.2)) (items.map (·.2)) := by
  induction same with
  | nil => exact .nil
  | cons first _ ih => exact .cons first.2 ih

/-! ## Replaying -/

/-- A naive matcher and a worker of one market. -/
structure Alike (settings : CppSettings) (matcher : NaiveMatcher) (worker : Worker)
    (market : Market) : Prop where
  represents : matcher.Represents market
  cash : matcher.initialCashTicks = settings.initialCashTicks
  serves : CppEngineProcess.Serves worker settings market
  valid : market.Valid
  onWire : ∀ order ∈ market.tape.live, LiveOnWire order

variable {matcher : NaiveMatcher} {worker : Worker} {market : Market}

/-- Both apply a record, and go on alike. -/
theorem Alike.apply (alike : Alike settings matcher worker market) {sent : Inbound}
    {record : WireRecord} (given_ : CppEngineProcess.Given sent record)
    (numbered : market.tape.nextOrderId < 256 ^ 8) :
    ∃ after outputs served answers, matcher.apply sent = .ok (after, outputs) ∧
      CppEngineProcess.apply worker record = .ok (served, answers) ∧
      Alike settings after served (market.apply settings.initialCashTicks sent).1 := by
  have next := Market.apply_nextOrderId settings.initialCashTicks market sent
  obtain ⟨after, applied, represents, cash⟩ := NaiveMatcher.apply_ok alike.represents alike.valid sent
  rw [alike.cash] at applied represents
  obtain ⟨served, answered, serves⟩ := CppEngineProcess.apply_ok alike.serves alike.valid
    alike.onWire given_ (by omega)
  exact ⟨after, _, served, _, applied, answered, represents, cash.trans alike.cash, serves,
    Market.apply_valid _ alike.valid sent,
    Market.apply_onWire _ alike.valid alike.onWire (Market.onWire_of_sendable given_.sendable)⟩

/-- One batch of the replay, in step. `base` counts the order ids given out before it began. -/
theorem replayBatch_alike {alreadyAnswered base : Nat} (room : base + alreadyAnswered < 2 ^ 64)
    {items : List (StreamId × WireRecord)} {batch : List (StreamId × Inbound)}
    (same : Batch items batch) :
    ∀ {matcher : NaiveMatcher} {worker : Worker} {market : Market} (lastId : StreamId) (replayed : Nat),
      Alike settings matcher worker market → market.tape.nextOrderId ≤ base + replayed →
      ∃ after served reached place count,
        replayBatch alreadyAnswered batch matcher lastId replayed = .ok (after, place, count) ∧
        CppMatcher.replayBatch alreadyAnswered items worker lastId replayed =
          .ok (served, place, count) ∧
        Alike settings after served reached ∧ reached.tape.nextOrderId ≤ base + count := by
  induction same with
  | nil =>
      intro matcher worker market lastId replayed alike issued
      exact ⟨matcher, worker, market, lastId, replayed, rfl, rfl, alike, issued⟩
  | @cons item entry items batch first _ ih =>
      intro matcher worker market lastId replayed alike issued
      by_cases done : replayed ≥ alreadyAnswered
      · refine ⟨matcher, worker, market, lastId, replayed, ?_, ?_, alike, issued⟩
        · rw [replayBatch, if_pos done]
        · rw [CppMatcher.replayBatch, if_pos done]
      · obtain ⟨same, given_⟩ := first
        obtain ⟨middle, outputs, served, answers, applied, answered, next⟩ := alike.apply given_
          (by omega)
        have numbers := Market.apply_nextOrderId settings.initialCashTicks market entry.2
        obtain ⟨after, finally_, reached, place, count, replayed_, served_, ends, most⟩ :=
          ih entry.1 (replayed + 1) next (by push_cast; omega)
        refine ⟨after, finally_, reached, place, count, ?_, ?_, ends, most⟩
        · rw [replayBatch, if_neg done, applied]
          simp only [Fault.ok_bind, replayed_]
        · rw [CppMatcher.replayBatch, if_neg done, same]
          exact Fault.bind_eq_ok.mpr ⟨_, answered, served_⟩

/-- Where the naive replay ends, the other one does too. -/
theorem replay_alike (inflow : Inflow store stream) (within_ : Within settings store)
    {alreadyAnswered base : Nat} (room : base + alreadyAnswered < 2 ^ 64) (rounds : Nat) :
    ∀ {matcher after : NaiveMatcher} {worker : Worker} {market : Market} {lastId place : StreamId}
      {replayed : Nat},
      Alike settings matcher worker market → market.tape.nextOrderId ≤ base + replayed →
      replay settings.toSettings stream alreadyAnswered rounds matcher lastId replayed =
        .ok (after, place) →
      ∃ served reached, CppMatcher.replay settings store alreadyAnswered rounds worker lastId
          replayed = .ok (served, place) ∧
        Alike settings after served reached := by
  induction rounds with
  | zero =>
      intro matcher after worker market lastId place replayed alike issued finished
      cases finished
  | succ rounds ih =>
      intro matcher after worker market lastId place replayed alike issued finished
      rw [replay] at finished
      rw [CppMatcher.replay]
      by_cases more : replayed < alreadyAnswered
      · rw [if_pos more] at finished ⊢
        obtain ⟨items, read, same⟩ := inflow.read within_ lastId settings.batchSize
        rw [read, Fault.ok_bind]
        cases batch : stream.read lastId settings.batchSize with
        | nil =>
            rw [batch] at finished
            cases finished
        | cons entry rest =>
            rw [batch] at finished same
            obtain ⟨middle, served, reached, next, count, replayed_, served_, ends, most⟩ :=
              replayBatch_alike room same lastId replayed alike issued
            simp only [replayed_, Fault.ok_bind] at finished
            obtain ⟨after_, market_, ended, last⟩ := ih ends most finished
            refine ⟨after_, market_, ?_, last⟩
            cases same with
            | cons _ _ =>
                rw [if_neg (List.cons_ne_nil _ _)]
                exact Fault.bind_eq_ok.mpr ⟨_, served_, ended⟩
      · rw [if_neg more] at finished ⊢
        cases finished
        exact ⟨worker, market, rfl, alike⟩

end QuantArena.Matcher
