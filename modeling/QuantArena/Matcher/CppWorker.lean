import QuantArena.Engine.Cpp.WorkerProperties
import QuantArena.Matcher.CppRunner
import QuantArena.Matcher.Restarts

/-! One exchange with the worker: as long as nothing outgrows its width, it answers as the market
does, and leaves both pipes empty. -/

set_option autoImplicit false

namespace QuantArena.Matcher.CppEngineProcess

open Foundations Contracts Exchange Gateway Engine.Cpp

variable {worker : Worker} {market : Market} {settings : CppSettings}

theorem roundTrip_ok {payload : List UInt8} {after : StreamEngine} {outputs : List (List UInt8)}
    (idle : worker.Idle) (filled : payload ≠ []) (framed : Frames.Framed payload)
    (responded : Worker.respond worker.engine payload = .ok (after, outputs))
    (answers : ∀ output ∈ outputs, output ≠ [] ∧ Frames.Framed output) :
    roundTrip worker payload = .ok (⟨after, [], []⟩, outputs) := by
  obtain ⟨stdin, stdout⟩ := idle
  have header : Bytes.packUnsigned 4 (payload.length : Int) =
      .ok (Bytes.truncated 4 payload.length) := by
    refine Bytes.packUnsigned_eq_ok.mpr ⟨⟨Int.natCast_nonneg _, ?_⟩, rfl⟩
    unfold Frames.Framed at framed
    omega
  have waiting : worker.stdin ++ (Bytes.truncated 4 payload.length ++ payload) =
      Frames.frame payload ++ [] := by rw [stdin, List.nil_append, List.append_nil, Frames.frame]
  have turned : Worker.turn { worker with
        stdin := worker.stdin ++ (Bytes.truncated 4 payload.length ++ payload) } =
      .ok ⟨after, [], worker.stdout ++ Frames.frames outputs⟩ :=
    Worker.turn_frame filled framed waiting responded
  have read := Frames.readFrames_frames answers (Frames.length_lt_frames outputs) []
  rw [List.append_nil] at read
  rw [stdout, List.nil_append] at turned
  rw [roundTrip, header]
  simp only [Fault.ok_bind, stdout, turned, read]

/-! ## Records -/

/-- The worker holds the market, and waits. -/
structure Serves (worker : Worker) (settings : CppSettings) (market : Market) : Prop where
  idle : worker.Idle
  represents : worker.engine.Represents market
  cash : worker.engine.initialCashTicks = settings.initialCashTicks

theorem new_serves (settings : CppSettings) :
    Serves (.new settings.initialCashTicks) settings .fresh :=
  ⟨Worker.new_idle _, StreamEngine.new_represents _, rfl⟩

theorem frame_of_record {record : WireRecord} {data : List UInt8} (packed : record.pack = .ok data) :
    data ≠ [] ∧ Frames.Framed data := by
  have length := WireRecord.length_of_pack packed
  have size : 28 ≤ record.type.size ∧ record.type.size < 2 ^ 32 := by
    cases record.type <;> decide
  refine ⟨fun none => ?_, ?_⟩
  · rw [none, List.length_nil] at length
    omega
  · unfold Frames.Framed
    omega

theorem unpackAll_wires {outputs : List Outbound} (fits : ∀ output ∈ outputs, output.wire.Fits) :
    unpackAll (outputs.map fun output => packRecord output.wire) = .ok (outputs.map Outbound.wire) := by
  induction outputs with
  | nil => rfl
  | cons output rest ih =>
      obtain ⟨first, later⟩ := List.forall_mem_cons.mp fits
      obtain ⟨version, kind⟩ := output.wire_current
      have read := unpackAny_eq_ok.mpr ⟨version, kind, packRecord_ok first⟩
      rw [List.map_cons, unpackAll, read]
      simp only [Fault.ok_bind, ih later, List.map_cons]

/-- What a reader of the inbound stream is given for one of its records. -/
structure Given (sent : Inbound) (record : WireRecord) : Prop where
  sendable : Market.Sendable sent
  admissible : ∀ order, sent = .submitOrder order → Admissible order
  read : ∃ base streamId, sent.wire? = some base ∧ record = base.withSeq streamId ∧
    (ofLex streamId).1 < 2 ^ 64 ∧ (ofLex streamId).2 < 2 ^ 64

/-- The worker answers a record with what its engine does. -/
theorem apply_of_engine {sent : Inbound} {base : WireRecord} {streamId : StreamId}
    {engine : StreamEngine} {outputs : List Outbound} (idle : worker.Idle)
    (written : sent.wire? = some base) (fits : (base.withSeq streamId).Fits)
    (applied : worker.engine.apply sent = .ok (engine, outputs))
    (answered : ∀ output ∈ outputs, output.wire.Fits) :
    apply worker (base.withSeq streamId) = .ok (⟨engine, [], []⟩, outputs.map Outbound.wire) := by
  have packed := packRecord_ok fits
  obtain ⟨version, kind⟩ := Inbound.wire_current written
  have current : (base.withSeq streamId).schemaVersion = schemaVersion := version
  have known : base.type ∈ inboundTypes := Worker.inbound_of_wire written
  have inbound : (base.withSeq streamId).type ∈ inboundTypes := known
  have read : worker.engine.apply (Inbound.ofWire (base.withSeq streamId)) = .ok (engine, outputs) := by
    rw [Inbound.ofWire_wire written]
    exact applied
  have responded : Worker.respond worker.engine (packRecord (base.withSeq streamId)) =
      .ok (engine, outputs.map fun output => packRecord output.wire) :=
    Worker.respond_record current kind inbound packed read
  have framed := frame_of_record packed
  have turned := roundTrip_ok idle framed.1 framed.2 responded (by
    intro output member
    obtain ⟨answer, listed, rfl⟩ := List.mem_map.mp member
    exact frame_of_record (packRecord_ok (answered answer listed)))
  exact Fault.bind_eq_ok.mpr ⟨_, packed, Fault.bind_eq_ok.mpr ⟨_, turned,
    Fault.bind_eq_ok.mpr ⟨_, unpackAll_wires answered, rfl⟩⟩⟩

/-- The worker answers a record as the market does. -/
theorem apply_ok {sent : Inbound} {record : WireRecord} (serves : Serves worker settings market)
    (valid : market.Valid) (onWire : ∀ order ∈ market.tape.live, LiveOnWire order)
    (given_ : Given sent record)
    (numbered :
      (market.apply settings.initialCashTicks sent).1.tape.nextOrderId ≤ 256 ^ 8) :
    ∃ after, apply worker record =
        .ok (after, (market.apply settings.initialCashTicks sent).2.map Outbound.wire) ∧
      Serves after settings (market.apply settings.initialCashTicks sent).1 := by
  obtain ⟨base, streamId, written, rfl, narrow⟩ := given_.read
  obtain ⟨engine, applied, represents, cash⟩ := StreamEngine.apply_ok serves.represents valid sent
    (by rw [serves.cash]; exact numbered)
  rw [serves.cash, StreamEngine.answer_admitted settings.initialCashTicks market fun order same =>
    (given_.admissible order same).admission] at applied
  rw [serves.cash] at represents cash
  exact ⟨⟨engine, [], []⟩, apply_of_engine serves.idle written
    (WireRecord.fits_withSeq (given_.sendable base written) narrow) applied
    (Market.apply_fits settings.cash valid onWire given_.sendable numbered),
    ⟨⟨rfl, rfl⟩, represents, cash⟩⟩

theorem applyAll_ok {items : List Inbound} {records : List WireRecord}
    (serves : Serves worker settings market) (valid : market.Valid)
    (onWire : ∀ order ∈ market.tape.live, LiveOnWire order)
    (given_ : List.Forall₂ Given items records)
    (numbered :
      (market.run settings.initialCashTicks items).1.tape.nextOrderId ≤ 256 ^ 8) :
    ∃ after, applyAll worker records =
        .ok (after, (market.run settings.initialCashTicks items).2.map Outbound.wire) ∧
      Serves after settings (market.run settings.initialCashTicks items).1 := by
  induction given_ generalizing worker market with
  | nil => exact ⟨worker, rfl, serves⟩
  | @cons sent record items records first _ ih =>
      have least := (Market.run_nextOrderId settings.initialCashTicks
        (market.apply settings.initialCashTicks sent).1 items).1
      obtain ⟨middle, applied, reached⟩ :=
        apply_ok serves valid onWire first (le_trans least numbered)
      obtain ⟨after, finished, last⟩ := ih reached (Market.apply_valid _ valid sent)
        (Market.apply_onWire _ valid onWire (Market.onWire_of_sendable first.sendable)) numbered
      refine ⟨after, ?_, last⟩
      rw [applyAll, applied]
      simp only [Fault.ok_bind, finished, Market.run, List.map_append]

/-! ## Snapshots -/

/-- The market's snapshot fits its fields, and a frame. -/
structure Savable (market : Market) : Prop where
  fits : (marketSnapshot market).Fits
  framed : Frames.Framed (marketSnapshot market).layout

theorem length_layout (market : Market) :
    (marketSnapshot market).layout.length = 16 + market.tape.live.length * 52 := by
  rw [EngineSnapshot.length_layout]
  simp [marketSnapshot, headSize, orderSize]

theorem layout_filled (market : Market) : (marketSnapshot market).layout ≠ [] := by
  intro none
  have length := length_layout market
  rw [none, List.length_nil] at length
  omega

theorem snapshot_ok (serves : Serves worker settings market) (savable : Savable market) :
    ∃ after, snapshot worker = .ok (after, (marketSnapshot market).layout) ∧
      Serves after settings market := by
  have taken := serves.represents.snapshot_of_fits savable.fits
  have request : Worker.snapshotRequest ≠ [] ∧ Frames.Framed Worker.snapshotRequest := by
    unfold Frames.Framed
    decide
  have turned := roundTrip_ok serves.idle request.1 request.2
    (Worker.respond_request worker.engine taken) (by
      intro output member
      obtain rfl := List.mem_singleton.mp member
      exact ⟨layout_filled market, savable.framed⟩)
  refine ⟨⟨worker.engine, [], []⟩, ?_, ⟨⟨rfl, rfl⟩, serves.represents, serves.cash⟩⟩
  rw [snapshot, turned]
  rfl

theorem restore_ok (valid : market.Valid) (savable : Savable market) :
    ∃ after, restore (.new settings.initialCashTicks) (marketSnapshot market).layout = .ok after ∧
      Serves after settings market := by
  obtain ⟨engine, restored, cash, represents⟩ := StreamEngine.restore_ok valid savable.fits
    settings.initialCashTicks
  have length := length_layout market
  have turned := roundTrip_ok (Worker.new_idle settings.initialCashTicks) (layout_filled market)
    savable.framed (Worker.respond_snapshot _ (by omega) rfl restored)
    (fun output member => absurd member List.not_mem_nil)
  refine ⟨⟨engine, [], []⟩, ?_, ⟨⟨rfl, rfl⟩, represents, cash⟩⟩
  rw [restore, turned]
  rfl

end QuantArena.Matcher.CppEngineProcess
