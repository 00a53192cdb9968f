import QuantArena.Engine.Cpp.StreamEngineRestore
import QuantArena.Matcher.Runs
import QuantArena.Matcher.SnapshotProperties

/-! The two engines side by side: as long as the ids and counts fit their widths
they write the same records and the same snapshots, and a snapshot of either can
take the place of the engine it was taken of. -/

set_option autoImplicit false

namespace QuantArena.Matcher

open Foundations Foundations.PriceTime Contracts Exchange Engine.Cpp

/-- What the gateway lets through: a side, a time in force, a price and a quantity. -/
def Admissible (order : SubmitOrder) : Prop :=
  (∃ side, sideOf? order.side = some side) ∧ (∃ tif, tifOf? order.tif = some tif) ∧
    0 < order.priceTicks ∧ 0 < order.qty

theorem Admissible.admission {order : SubmitOrder} (admissible : Admissible order) :
    ∃ side tif, Market.admission order = .ok (side, tif) := by
  obtain ⟨⟨side, sideNamed⟩, ⟨tif, tifNamed⟩, priced, counted⟩ := admissible
  exact ⟨side, tif, Market.admission_eq_ok.mpr ⟨sideNamed, tifNamed, priced, counted⟩⟩

/-- Every run of the C++ engine from the start, as long as it has order ids. -/
theorem fresh_engine_run (initialCashTicks : Int) (records : List Inbound)
    (numbered : (Market.submissions records).length < 2 ^ 64) :
    ∃ engine, (StreamEngine.new initialCashTicks).applyAll records =
        .ok (engine, StreamEngine.answers initialCashTicks .fresh records) ∧
      engine.Represents (Market.fresh.run initialCashTicks records).1 ∧
      engine.initialCashTicks = initialCashTicks := by
  refine StreamEngine.applyAll_ok (StreamEngine.new_represents initialCashTicks)
    Market.fresh_valid records ?_
  have most := (Market.run_nextOrderId initialCashTicks .fresh records).2
  have start : Market.fresh.tape.nextOrderId = 1 := rfl
  show (Market.fresh.run initialCashTicks records).1.tape.nextOrderId ≤ 256 ^ 8
  omega

theorem NaiveMatcher.Represents.live_length {matcher : NaiveMatcher} {market : Market}
    (represents : matcher.Represents market) :
    matcher.byOrderId.values.length = market.tape.live.length := by
  rw [← represents.live, List.length_map]

theorem fresh_onWire (initialCashTicks : Int) {records : List Inbound}
    (wire : ∀ record ∈ records, OnWire record) :
    ∀ live ∈ (Market.fresh.run initialCashTicks records).1.tape.live, LiveOnWire live :=
  Market.run_onWire initialCashTicks Market.fresh_valid
    (by simp [Market.fresh, Tape.blank]) wire

/-! ## Where the widths end -/

/-- A one-share bid at one tick. -/
def smallBid : SubmitOrder where
  timestampNs := 0
  clientOrderId := 1
  userId := 1
  priceTicks := 1
  qty := 1
  symbolId := 1
  side := sideCode .buy
  tif := tifCode .gtc

/-- On a market of bids, one more of them rests. -/
theorem submit_smallBid {market : Market} (bids : ∀ order ∈ market.tape.live, order.side = .buy) :
    (market.submit smallBid).1.tape =
      ⟨market.tape.nextOrderId + 1, market.tape.live ++ [market.takerOf smallBid .buy]⟩ := by
  have admitted : Market.admission smallBid = .ok (.buy, .gtc) := rfl
  have nothing : best (market.takerOf smallBid .buy) (onSymbol 1 market.tape.live) = none := by
    cases chosen : best (market.takerOf smallBid .buy) (onSymbol 1 market.tape.live) with
    | none => rfl
    | some maker =>
        have buys := bids maker (mem_onSymbol.mp (best_mem chosen)).1
        have opposite : maker.side = Side.buy.opposite := (best_crosses chosen).1
        rw [buys] at opposite
        cases opposite
  have run := execute_executes (market.takerOf smallBid .buy) (onSymbol 1 market.tape.live)
  have quiet : (execute (market.takerOf smallBid .buy) (onSymbol 1 market.tape.live)).trades = [] ∧
      (execute (market.takerOf smallBid .buy) (onSymbol 1 market.tape.live)).taker =
        market.takerOf smallBid .buy := by
    generalize execute (market.takerOf smallBid .buy) (onSymbol 1 market.tape.live) = result at run
    obtain ⟨trades, final, left⟩ := result
    cases run with
    | done _ => exact ⟨rfl, rfl⟩
    | trade _ chosen _ =>
        rw [nothing] at chosen
        cases chosen
  unfold Market.submit
  simp only [admitted]
  have symbol : smallBid.symbolId = 1 := rfl
  rw [symbol, quiet.1, quiet.2]
  rfl

theorem smallBids_run (initialCashTicks : Int) (count : Nat) :
    (Market.fresh.run initialCashTicks (List.replicate count (.submitOrder smallBid))).1.tape.nextOrderId
      = count + 1 ∧
    (Market.fresh.run initialCashTicks
      (List.replicate count (.submitOrder smallBid))).1.tape.live.length = count ∧
    ∀ order ∈ (Market.fresh.run initialCashTicks
      (List.replicate count (.submitOrder smallBid))).1.tape.live, order.side = .buy := by
  induction count with
  | zero => exact ⟨rfl, rfl, by simp [Market.run, Market.fresh, Tape.blank]⟩
  | succ count ih =>
      obtain ⟨next, length, bids⟩ := ih
      rw [List.replicate_succ', Market.run_append]
      generalize (Market.fresh.run initialCashTicks
        (List.replicate count (.submitOrder smallBid))).1 = market at *
      have last : (market.run initialCashTicks [.submitOrder smallBid]).1 =
          (market.submit smallBid).1 := rfl
      rw [last, submit_smallBid bids, next]
      refine ⟨rfl, by simp [length], ?_⟩
      intro order member
      cases List.mem_append.mp member with
      | inl old => exact bids order old
      | inr new =>
          rw [List.mem_singleton.mp new]
          rfl

theorem submissions_smallBids (count : Nat) :
    (Market.submissions (List.replicate count (.submitOrder smallBid))).length = count := by
  induction count with
  | zero => rfl
  | succ count ih =>
      rw [List.replicate_succ]
      exact congrArg (· + 1) ih

/-- The naive matcher after many small bids: too many to be packed. -/
theorem smallBids_matcher (initialCashTicks : Int) (count : Nat) :
    ∃ matcher outputs, (NaiveMatcher.new 1 initialCashTicks).applyAll
        (List.replicate count (.submitOrder smallBid)) = .ok (matcher, outputs) ∧
      matcher.nextOrderId = count + 1 ∧
      (2 ^ 32 ≤ count → ∀ bytes, matcher.snapshot ≠ .ok bytes) := by
  obtain ⟨next, length, -⟩ := smallBids_run initialCashTicks count
  obtain ⟨matcher, finished, represents, -⟩ := NaiveMatcher.fresh_run initialCashTicks
    (List.replicate count (.submitOrder smallBid))
  have valid := Market.run_valid initialCashTicks Market.fresh_valid
    (List.replicate count (.submitOrder smallBid))
  refine ⟨matcher, _, finished, represents.nextOrderId.trans next, ?_⟩
  intro many bytes taken
  rw [represents.snapshot_eq, EngineSnapshot.pack_eq_ok (marketSnapshot_ordered valid)] at taken
  have fits := taken.1.count
  rw [marketSnapshot, List.length_map, length] at fits
  omega

theorem engines_agree (initialCashTicks : Int) (first : List Inbound) (record : Inbound)
    (wire : ∀ each ∈ first ++ [record], OnWire each)
    (admissible : ∀ order, .submitOrder order ∈ first ++ [record] → Admissible order)
    (numbered : (Market.submissions (first ++ [record])).length < 2 ^ 64) :
    ∃ matcher engine emitted laterMatcher laterEngine answer,
      (NaiveMatcher.new 1 initialCashTicks).applyAll first = .ok (matcher, emitted) ∧
      (StreamEngine.new initialCashTicks).applyAll first = .ok (engine, emitted) ∧
      matcher.apply record = .ok (laterMatcher, answer) ∧
      engine.apply record = .ok (laterEngine, answer) ∧
      (laterMatcher.nextOrderId < 2 ^ 64 → laterMatcher.byOrderId.values.length < 2 ^ 32 →
        ∃ bytes, laterMatcher.snapshot = .ok bytes ∧ laterEngine.snapshot = .ok bytes) := by
  have admitted : ∀ order, .submitOrder order ∈ first ++ [record] →
      ∃ side tif, Market.admission order = .ok (side, tif) :=
    fun order member => (admissible order member).admission
  obtain ⟨matcher, matcherRun, represents, matcherCash⟩ :=
    NaiveMatcher.fresh_run initialCashTicks first
  have fewer : (Market.submissions first).length ≤
      (Market.submissions (first ++ [record])).length := by
    rw [Market.submissions, Market.submissions, List.filterMap_append, List.length_append]
    omega
  obtain ⟨engine, engineRun, engineRepresents, engineCash⟩ :=
    fresh_engine_run initialCashTicks first (lt_of_le_of_lt fewer numbered)
  have valid := Market.run_valid initialCashTicks Market.fresh_valid first
  have most := (Market.run_nextOrderId initialCashTicks .fresh (first ++ [record])).2
  have laterWire := fresh_onWire initialCashTicks wire
  have laterValid := Market.run_valid initialCashTicks Market.fresh_valid (first ++ [record])
  have next : (Market.fresh.run initialCashTicks (first ++ [record])).1 =
      ((Market.fresh.run initialCashTicks first).1.apply initialCashTicks record).1 := by
    rw [Market.run_append]
    rfl
  rw [next] at most laterWire laterValid
  rw [StreamEngine.answers_admitted initialCashTicks fun order member =>
    admitted order (List.mem_append_left _ member)] at engineRun
  generalize Market.fresh.run initialCashTicks first = reached at *
  obtain ⟨laterMatcher, matcherApplied, laterRepresents, -⟩ :=
    NaiveMatcher.apply_ok represents valid record
  obtain ⟨laterEngine, engineApplied, laterEngineRepresents, -⟩ :=
    StreamEngine.apply_ok engineRepresents valid record (by
      have start : Market.fresh.tape.nextOrderId = 1 := rfl
      rw [engineCash]
      omega)
  rw [matcherCash] at matcherApplied laterRepresents
  rw [engineCash, StreamEngine.answer_admitted initialCashTicks reached.1 fun order same =>
    admitted order (by simp [same])] at engineApplied
  rw [engineCash] at laterEngineRepresents
  refine ⟨matcher, engine, _, laterMatcher, laterEngine, _, matcherRun, engineRun, matcherApplied,
    engineApplied, ?_⟩
  intro room counted
  rw [laterRepresents.nextOrderId] at room
  rw [laterRepresents.live_length] at counted
  have fits := marketSnapshot_fits laterValid laterWire room (by omega)
  refine ⟨_, ?_, laterEngineRepresents.snapshot_of_fits fits⟩
  rw [laterRepresents.snapshot_eq]
  exact (EngineSnapshot.pack_eq_ok (marketSnapshot_ordered laterValid)).mpr ⟨fits, rfl⟩

/-- An accepted submission is answered under the id the counter shows. -/
theorem submit_first {engine after : StreamEngine} {order : SubmitOrder} {outputs : List Outbound}
    (kept : StreamEngine.rejectReason order = none)
    (done : engine.submit order = .ok (after, outputs)) :
    ∃ rest, outputs = StreamEngine.accepted order engine.nextOrderId :: rest := by
  unfold StreamEngine.submit at done
  rw [kept] at done
  simp only [Fault.bind_eq_ok] at done
  obtain ⟨_, -, _, -, _, -, records, -, same⟩ := done
  cases same
  exact ⟨_, rfl⟩

/-- Once the counter has wrapped around, the engines number the next order apart. -/
theorem smallBids_part (count : Nat) (full : (count : Int) + 1 = 256 ^ 8) :
    ∃ matcher engine emitted, (NaiveMatcher.new 1 0).applyAll
        (List.replicate count (.submitOrder smallBid)) = .ok (matcher, emitted) ∧
      (StreamEngine.new 0).applyAll
        (List.replicate count (.submitOrder smallBid)) = .ok (engine, emitted) ∧
      ∀ laterMatcher laterEngine answer,
        matcher.apply (.submitOrder smallBid) = .ok (laterMatcher, answer) →
        engine.apply (.submitOrder smallBid) ≠ .ok (laterEngine, answer) := by
  have admitted : ∀ order, .submitOrder order ∈ List.replicate count (Inbound.submitOrder smallBid) →
      ∃ side tif, Market.admission order = .ok (side, tif) := by
    intro order member
    cases List.eq_of_mem_replicate member
    exact ⟨.buy, .gtc, rfl⟩
  obtain ⟨next, -⟩ := smallBids_run 0 count
  obtain ⟨matcher, finished, represents, -⟩ := NaiveMatcher.fresh_run 0
    (List.replicate count (.submitOrder smallBid))
  obtain ⟨engine, engineFinished, engineRepresents, -⟩ := fresh_engine_run 0
    (List.replicate count (.submitOrder smallBid))
    (by rw [submissions_smallBids]; omega)
  rw [StreamEngine.answers_admitted 0 admitted] at engineFinished
  have valid := Market.run_valid 0 Market.fresh_valid
    (List.replicate count (.submitOrder smallBid))
  refine ⟨matcher, engine, _, finished, engineFinished, ?_⟩
  intro laterMatcher laterEngine answer matcherApplied engineApplied
  obtain ⟨_, applied, -⟩ := NaiveMatcher.apply_ok represents valid (.submitOrder smallBid)
  rw [applied] at matcherApplied
  generalize (Market.fresh.run 0 (List.replicate count (.submitOrder smallBid))).1 = market at *
  have engineSubmitted : engine.submit smallBid = .ok (laterEngine, answer) := engineApplied
  obtain ⟨rest, first⟩ := submit_first rfl engineSubmitted
  have wrapped : engine.nextOrderId = 0 := by
    rw [engineRepresents.nextOrderId, next, full, Int.emod_self]
  have answered : answer = (market.submit smallBid).2 :=
    congrArg Prod.snd (Except.ok.inj matcherApplied).symm
  have numbered : ∃ later, (market.submit smallBid).2 =
      .orderAccepted (Market.acceptance smallBid market.tape.nextOrderId) :: later := ⟨_, rfl⟩
  obtain ⟨later, second⟩ := numbered
  rw [answered, second, wrapped, next] at first
  have sameId : (count : Int) + 1 = 0 :=
    congrArg OrderAccepted.orderId (Outbound.orderAccepted.inj (List.cons.inj first).1)
  omega

/-- With 2^32 live orders one engine has no snapshot, and the 2^64th order is
numbered differently by the two. -/
theorem engines_part :
    (∃ matcher outputs, (NaiveMatcher.new 1 0).applyAll
        (List.replicate (2 ^ 32) (.submitOrder smallBid)) = .ok (matcher, outputs) ∧
      ∀ bytes, matcher.snapshot ≠ .ok bytes) ∧
    ∃ matcher engine emitted, (NaiveMatcher.new 1 0).applyAll
        (List.replicate (2 ^ 64 - 1) (.submitOrder smallBid)) = .ok (matcher, emitted) ∧
      (StreamEngine.new 0).applyAll
        (List.replicate (2 ^ 64 - 1) (.submitOrder smallBid)) = .ok (engine, emitted) ∧
      ∀ laterMatcher laterEngine answer,
        matcher.apply (.submitOrder smallBid) = .ok (laterMatcher, answer) →
        engine.apply (.submitOrder smallBid) ≠ .ok (laterEngine, answer) := by
  obtain ⟨matcher, outputs, finished, -, overflow⟩ := smallBids_matcher 0 (2 ^ 32)
  exact ⟨⟨matcher, outputs, finished, overflow le_rfl⟩, smallBids_part (2 ^ 64 - 1) (by norm_num)⟩

/-- The agreement on a short run in which two small orders trade. -/
theorem engines_agree_on_a_trade :
    ∃ matcher engine emitted laterMatcher laterEngine answer,
      (NaiveMatcher.new 1 1000).applyAll [.submitOrder smallBid] = .ok (matcher, emitted) ∧
      (StreamEngine.new 1000).applyAll [.submitOrder smallBid] = .ok (engine, emitted) ∧
      matcher.apply (.submitOrder { smallBid with side := sideCode .sell }) =
        .ok (laterMatcher, answer) ∧
      engine.apply (.submitOrder { smallBid with side := sideCode .sell }) =
        .ok (laterEngine, answer) ∧
      (laterMatcher.nextOrderId < 2 ^ 64 → laterMatcher.byOrderId.values.length < 2 ^ 32 →
        ∃ bytes, laterMatcher.snapshot = .ok bytes ∧ laterEngine.snapshot = .ok bytes) :=
  engines_agree 1000 [.submitOrder smallBid]
    (.submitOrder { smallBid with side := sideCode .sell })
    (by
      intro each member
      simp only [List.cons_append, List.nil_append, List.mem_cons, List.not_mem_nil, or_false]
        at member
      cases member with
      | inl same =>
          rw [same]
          constructor <;> decide
      | inr same =>
          rw [same]
          constructor <;> decide)
    (by
      intro order member
      simp only [List.cons_append, List.nil_append, List.mem_cons, List.not_mem_nil, or_false,
        Inbound.submitOrder.injEq] at member
      cases member with
      | inl same =>
          rw [same]
          exact ⟨⟨.buy, rfl⟩, ⟨.gtc, rfl⟩, by decide, by decide⟩
      | inr same =>
          rw [same]
          exact ⟨⟨.sell, rfl⟩, ⟨.gtc, rfl⟩, by decide, by decide⟩)
    (by decide)

end QuantArena.Matcher
