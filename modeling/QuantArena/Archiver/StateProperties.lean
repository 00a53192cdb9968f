import QuantArena.Archiver.BarTurns

/-! What an `ArchiveState` holds after any part of the stream: one unit that is being
filled, and before it units that are whole. -/

set_option autoImplicit false

namespace QuantArena.Archive

open Foundations Contracts Fanout

variable {geometry : Geometry}

/-! ## The market under it -/

/-- Everything was drained, and each symbol's builders stand as new ones after some trades. -/
structure Folded (geometry : Geometry) (trades : Int → List Trade) (market : MarketState) :
    Prop where
  widths : market.barWidths = geometry.barWidths
  drained : ∀ symbolId, market.tape.pending.getD symbolId [] = []
  closed : market.closedBars = []
  sets : ∀ symbolId, (market.barSet symbolId).forget =
    ((BarSet.new symbolId geometry.barWidths).collect (trades symbolId)).1.forget

/-- A record folded in, with the prints and the bars that are then taken out. -/
def folded (market : MarketState) (entry : Entry) : MarketState × List Trade × List Bar :=
  let applied := market.apply entry.2 (some entry.1)
  let (drained, prints) := match entry.2 with
    | .fill fill => applied.drainTape fill.symbolId
    | _ => (applied, [])
  let (cleared, closed) := drained.drainClosedBars
  (cleared, prints, closed)

variable {trades : Int → List Trade} {market : MarketState} {entry : Entry} {start : Int}

theorem new_folded (geometry : Geometry) :
    Folded geometry (fun _ => []) (MarketState.new geometry.barWidths) where
  widths := rfl
  drained := fun _ => rfl
  closed := rfl
  sets := fun _ => rfl

theorem symbolPrints_of_none {symbolId : Int} (silent : printOf entry = none) :
    symbolPrints geometry symbolId start [entry] = [] := by
  simp [symbolPrints, unitPrints, silent]

/-- A record that is no fill moves neither tape nor bars. -/
theorem folded_of_silent (silent : printOf entry = none) (market : MarketState) :
    (folded market entry).1.bars = market.bars ∧ (folded market entry).1.tape = market.tape ∧
      (folded market entry).1.barWidths = market.barWidths ∧
      (folded market entry).1.closedBars = [] ∧ (folded market entry).2 = ([], market.closedBars) := by
  obtain ⟨streamId, record⟩ := entry
  cases record with
  | fill fill => cases silent
  | _ => exact ⟨rfl, rfl, rfl, rfl, rfl⟩

/-- What a fill leaves: its print and the bars it closed are taken out. -/
theorem folded_of_fill (given : Folded geometry trades market) (streamId : StreamId) (fill : Fill) :
    (folded market (streamId, .fill fill)).2.1 =
        [⟨fill.symbolId, fill.priceTicks, fill.qty, fill.aggressorSide, fill.timestampNs, streamId⟩] ∧
      (folded market (streamId, .fill fill)).2.2 =
        ((market.barSet fill.symbolId).add fill.priceTicks fill.qty fill.timestampNs).2 ∧
      (folded market (streamId, .fill fill)).1.bars = market.bars.set fill.symbolId
        ((market.barSet fill.symbolId).add fill.priceTicks fill.qty fill.timestampNs).1 ∧
      (folded market (streamId, .fill fill)).1.barWidths = market.barWidths ∧
      (folded market (streamId, .fill fill)).1.closedBars = [] ∧
      ∀ symbolId, (folded market (streamId, .fill fill)).1.tape.pending.getD symbolId [] = [] := by
  refine ⟨?_, ?_, rfl, rfl, rfl, fun symbolId => ?_⟩
  · simp only [folded, MarketState.apply, MarketState.applyRecord, MarketState.withTrade,
      MarketState.withBook, MarketState.drainTape, Tape.drain, Tape.record, Option.getD_some,
      MarketState.drainClosedBars, Dict.getD_set_self, given.drained, List.nil_append]
  · show market.closedBars ++ _ = _
    rw [given.closed, List.nil_append]
    rfl
  · show (((market.tape.pending.set _ _).erase _).getD symbolId []) = []
    rw [Dict.getD_erase]
    split
    · rfl
    · rename_i other
      rw [Dict.getD_set_of_ne _ _ _ other, given.drained]

theorem symbolPrints_singleton {trade : Trade} (printed : printOf entry = some trade)
    (symbolId : Int) : symbolPrints geometry symbolId (unitOf geometry entry) [entry] =
      if trade.symbolId = symbolId then [trade] else [] := by
  have unit : geometry.unitStart trade.timestampNs = unitOf geometry entry := by
    rw [printOf_timestampNs printed, unitOf]
  by_cases own : trade.symbolId = symbolId <;> simp [symbolPrints, unitPrints, printed, unit, own]

/-- What one record does, symbol by symbol. -/
theorem Folded.step (given : Folded geometry trades market)
    (ordered : ∀ symbolId, InOrder (trades symbolId)) (entry : Entry) :
    (folded market entry).2.1 = unitPrints geometry (unitOf geometry entry) [entry] ∧
      Folded geometry (fun symbolId => trades symbolId ++
        symbolPrints geometry symbolId (unitOf geometry entry) [entry]) (folded market entry).1 ∧
      ∀ symbolId, (folded market entry).2.2.filter (fun bar => bar.symbolId = symbolId) =
          ((market.barSet symbolId).collect
            (symbolPrints geometry symbolId (unitOf geometry entry) [entry])).2 ∧
        (folded market entry).1.barSet symbolId = ((market.barSet symbolId).collect
          (symbolPrints geometry symbolId (unitOf geometry entry) [entry])).1 := by
  cases printed : printOf entry with
  | none =>
      obtain ⟨bars, tape, widths, closed, handed⟩ := folded_of_silent printed market
      have silent : ∀ symbolId, symbolPrints geometry symbolId (unitOf geometry entry) [entry] = [] :=
        fun symbolId => symbolPrints_of_none printed
      have sets : ∀ symbolId, (folded market entry).1.barSet symbolId = market.barSet symbolId :=
        fun symbolId => by rw [MarketState.barSet, bars, widths]; rfl
      simp only [silent, List.append_nil, handed, sets]
      refine ⟨by simp [unitPrints, printed], ⟨widths.trans given.widths, fun symbolId => ?_, closed,
        fun symbolId => ?_⟩, fun symbolId => ⟨by simp [given.closed, BarSet.collect], rfl⟩⟩
      · rw [tape]
        exact given.drained symbolId
      · rw [sets]
        exact given.sets symbolId
  | some trade =>
      have prints := fun symbolId => @symbolPrints_singleton geometry _ _ printed symbolId
      obtain ⟨streamId, record⟩ := entry
      cases record with
      | fill fill =>
          obtain ⟨print, closed, bars, widths, cleared, drained⟩ := folded_of_fill given streamId fill
          cases printed
          have sets : ∀ symbolId, (folded market (streamId, .fill fill)).1.barSet symbolId =
              ((market.barSet symbolId).collect (symbolPrints geometry symbolId
                (unitOf geometry (streamId, .fill fill)) [(streamId, .fill fill)])).1 := by
            intro symbolId
            rw [MarketState.barSet, bars, widths, Dict.getD_set, prints]
            by_cases own : fill.symbolId = symbolId
            · cases own
              simp [BarSet.collect]
            · simp [own, Ne.symm own, BarSet.collect, MarketState.barSet]
          refine ⟨?_, ⟨widths.trans given.widths, drained, cleared, fun symbolId => ?_⟩,
            fun symbolId => ⟨?_, sets symbolId⟩⟩
          · rw [print]
            simp [unitPrints, printOf, unitOf, Outbound.timestampNs]
          · rw [sets, collect_append]
            exact (collect_congr (given.sets symbolId) _).1
          · rw [closed, prints]
            have own : ∀ bar ∈ ((market.barSet fill.symbolId).add fill.priceTicks fill.qty
                fill.timestampNs).2, bar.symbolId = fill.symbolId := fun bar member =>
              currents_symbol (given.sets fill.symbolId) (ordered _) bar (mem_currents_of_add member)
            by_cases same : fill.symbolId = symbolId
            · cases same
              rw [List.filter_eq_self.mpr fun bar member => by simp [own bar member]]
              simp [BarSet.collect]
            · rw [List.filter_eq_nil_iff.mpr fun bar member => by simp [own bar member, same]]
              simp [same, BarSet.collect]
      | _ => cases printed

/-- The bars that a forced closing takes, and the market it leaves. -/
def closing (cutoffNs : Int) (market : MarketState) : MarketState × List Bar :=
  ({ market with bars := market.bars.mapValues fun _ bars => bars.closeEnded cutoffNs },
    market.bars.values.flatMap (·.ended cutoffNs))

theorem Folded.closing (given : Folded geometry trades market)
    (ordered : ∀ symbolId, InOrder (trades symbolId)) (cutoffNs symbolId : Int) :
    (closing cutoffNs market).2.filter (fun bar => bar.symbolId = symbolId) =
        (market.barSet symbolId).ended cutoffNs ∧
      (closing cutoffNs market).1.barSet symbolId =
        (market.barSet symbolId).closeEnded cutoffNs := by
  have fresh := closeEnded_new symbolId cutoffNs geometry
  constructor
  · have tagged : ∀ entry ∈ market.bars.entries, ∀ bar ∈ entry.2.ended cutoffNs,
        bar.symbolId = id entry.1 := fun entry member bar taken => by
      have set : market.barSet entry.1 = entry.2 :=
        Dict.getD_of_get? _ (Dict.get?_eq_some_iff.mpr member)
      exact currents_symbol (set ▸ given.sets entry.1) (ordered _) bar (mem_currents_of_ended taken)
    have one := Dict.filter_flatMap Function.injective_id tagged symbolId
    rw [Archive.closing, Dict.values, List.flatMap_map]
    refine one.trans ?_
    rw [MarketState.barSet, Dict.getD, given.widths]
    cases market.bars.get? symbolId with
    | none => exact fresh.1.symm
    | some bars => rfl
  · rw [MarketState.barSet, MarketState.barSet, Dict.getD, Dict.getD, Archive.closing,
      Dict.get?_mapValues, given.widths]
    cases market.bars.get? symbolId with
    | none => exact fresh.2.symm
    | some bars => rfl

/-! ## Filing -/

/-- The rows of some prints and some bars that fall to an open unit. -/
def gain (geometry : Geometry) (prints : List Trade) (bars : List Bar) (entry : Int × FlushUnit) :
    Int × FlushUnit :=
  (entry.1, { entry.2 with
    rows := { entry.2.rows with
      trades := entry.2.rows.trades ++
        prints.filter fun trade => geometry.unitStart trade.timestampNs = entry.1
      bars := entry.2.rows.bars ++
        bars.filter fun bar => geometry.unitStart bar.barOpenNs = entry.1 } })

theorem gain_nothing : gain geometry [] [] = id := by
  funext entry
  simp [gain]

/-- A change of the open units, and of nothing else that matters later. -/
structure Files (change : Int × FlushUnit → Int × FlushUnit) (before after : ArchiveState) :
    Prop where
  opened : after.opened.entries = before.opened.entries.map change
  market : after.market = before.market
  ready : after.ready = before.ready
  sealedThrough : after.sealedThrough = before.sealedThrough
  lastStreamId : after.lastStreamId = before.lastStreamId

variable {before middle after state : ArchiveState} {change further : Int × FlushUnit → Int × FlushUnit}

theorem Files.trans (first : Files change before middle) (second : Files further middle after) :
    Files (further ∘ change) before after where
  opened := by rw [second.opened, first.opened, List.map_map]
  market := second.market.trans first.market
  ready := second.ready.trans first.ready
  sealedThrough := second.sealedThrough.trans first.sealedThrough
  lastStreamId := second.lastStreamId.trans first.lastStreamId

theorem Files.congr (files : Files change before after) (same : ∀ entry, further entry = change entry) :
    Files further before after :=
  (funext same : further = change) ▸ files

theorem fileRow_files (state : ArchiveState) (timestampNs : Int) (put : Rows → Rows) :
    Files (fun entry => if geometry.unitStart timestampNs = entry.1 then
        (entry.1, { entry.2 with rows := put entry.2.rows }) else entry) state
      (state.fileRow geometry timestampNs put) := by
  simp only [ArchiveState.fileRow]
  split
  · refine ⟨?_, rfl, rfl, rfl, rfl⟩
    rw [Dict.entries_alter, ← List.filterMap_eq_map]
    refine List.filterMap_congr fun entry _ => ?_
    by_cases here : entry.1 = geometry.unitStart timestampNs
    · simp [here]
    · simp [here, Ne.symm here]
  · rename_i absent
    refine ⟨?_, rfl, rfl, rfl, rfl⟩
    rw [Dict.contains_iff] at absent
    refine ((List.map_congr_left fun entry member => ?_).trans (List.map_id _)).symm
    have other : geometry.unitStart timestampNs ≠ entry.1 := fun same =>
      absent (same ▸ List.mem_map_of_mem member)
    simp [other]

theorem collectBars_files (state : ArchiveState) (bars : List Bar) :
    Files (gain geometry [] bars) state (state.collectBars geometry bars) := by
  induction bars generalizing state with
  | nil => exact ⟨by simp [ArchiveState.collectBars, gain_nothing], rfl, rfl, rfl, rfl⟩
  | cons bar rest ih =>
      refine ((fileRow_files state bar.barOpenNs (ArchiveState.putBar bar)).trans (ih _)).congr
        fun entry => ?_
      by_cases here : geometry.unitStart bar.barOpenNs = entry.1 <;>
        simp [gain, here, ArchiveState.putBar]

theorem fileTrades_files (state : ArchiveState) (prints : List Trade) :
    Files (gain geometry prints []) state (prints.foldl (fun state trade =>
      state.fileRow geometry trade.timestampNs (ArchiveState.putTrade trade)) state) := by
  induction prints generalizing state with
  | nil => exact ⟨by simp [gain_nothing], rfl, rfl, rfl, rfl⟩
  | cons trade rest ih =>
      refine ((fileRow_files state trade.timestampNs (ArchiveState.putTrade trade)).trans
        (ih _)).congr fun entry => ?_
      by_cases here : geometry.unitStart trade.timestampNs = entry.1 <;>
        simp [gain, here, ArchiveState.putTrade]

/-! ## Sampling -/

/-- Two units that differ in their samples only. -/
def SameRows (unit other : FlushUnit) : Prop :=
  other.startNs = unit.startNs ∧ other.resumeAfter = unit.resumeAfter ∧
    other.rows.trades = unit.rows.trades ∧ other.rows.bars = unit.rows.bars

theorem foldl_sampleSecond (market : MarketState) (seconds : List Int) (unit : FlushUnit) :
    SameRows unit (seconds.foldl (ArchiveState.sampleSecond geometry market) unit) := by
  induction seconds generalizing unit with
  | nil => exact ⟨rfl, rfl, rfl, rfl⟩
  | cons second rest ih =>
      have first : SameRows unit (ArchiveState.sampleSecond geometry market unit second) := by
        unfold ArchiveState.sampleSecond
        split <;> exact ⟨rfl, rfl, rfl, rfl⟩
      obtain ⟨start, after, trades, bars⟩ := ih (ArchiveState.sampleSecond geometry market unit second)
      exact ⟨start.trans first.1, after.trans first.2.1, trades.trans first.2.2.1,
        bars.trans first.2.2.2⟩

/-- What sampling makes of an open unit. -/
def sampleEntry (geometry : Geometry) (market : MarketState) (cutoffSecond : Int)
    (entry : Int × FlushUnit) : Int × FlushUnit :=
  (entry.1, ((geometry.seconds entry.1).takeWhile (· < cutoffSecond)).foldl
    (ArchiveState.sampleSecond geometry market) entry.2)

theorem sampleUntil_files (geometry : Geometry) (state : ArchiveState) (cutoffSecond : Int) :
    Files (sampleEntry geometry state.market cutoffSecond) state
      (state.sampleUntil geometry cutoffSecond) := ⟨rfl, rfl, rfl, rfl, rfl⟩

/-- Sampling changes no row of the other two datasets. -/
theorem sampleEntry_rows (market : MarketState) (cutoffSecond : Int) (entry : Int × FlushUnit) :
    SameRows entry.2 (sampleEntry geometry market cutoffSecond entry).2 := foldl_sampleSecond _ _ _

/-! ## One record -/

/-- `apply` as far as the record's unit is open. -/
def prepared (geometry : Geometry) (state : ArchiveState) (entry : Entry) : ArchiveState :=
  let counted := { state with
    lastStreamId := entry.1
    recordsApplied := state.recordsApplied + 1 }
  (counted.sampleUntil geometry (secondStart entry.2.timestampNs)).ensureUnit
    (unitOf geometry entry) entry.1 state.lastStreamId

/-- `apply` as far as the rows are collected. -/
def collected (geometry : Geometry) (state : ArchiveState) (entry : Entry) : ArchiveState :=
  let opened := prepared geometry state entry
  let folded := { opened with market := opened.market.apply entry.2 (some entry.1) }
  let traded := match entry.2 with
    | .fill fill => folded.collectTrades geometry fill.symbolId
    | _ => folded
  { traded with market := traded.market.drainClosedBars.1 }.collectBars geometry
    traded.market.drainClosedBars.2

theorem apply_eq (state : ArchiveState) (entry : Entry) :
    state.apply geometry entry.1 entry.2 =
      (collected geometry state entry).sealBefore geometry (unitOf geometry entry) := rfl

theorem ensureUnit_kept (state : ArchiveState) (start : Int) (streamId resumeAfter : StreamId) :
    (state.ensureUnit start streamId resumeAfter).market = state.market ∧
      (state.ensureUnit start streamId resumeAfter).ready = state.ready ∧
      (state.ensureUnit start streamId resumeAfter).sealedThrough = state.sealedThrough ∧
      (state.ensureUnit start streamId resumeAfter).lastStreamId = state.lastStreamId := by
  unfold ArchiveState.ensureUnit
  split
  · exact ⟨rfl, rfl, rfl, rfl⟩
  · split <;> exact ⟨rfl, rfl, rfl, rfl⟩

theorem prepared_kept (state : ArchiveState) (entry : Entry) :
    (prepared geometry state entry).market = state.market ∧
      (prepared geometry state entry).ready = state.ready ∧
      (prepared geometry state entry).sealedThrough = state.sealedThrough ∧
      (prepared geometry state entry).lastStreamId = entry.1 := ensureUnit_kept _ _ _ _

theorem gain_gain (prints : List Trade) (bars : List Bar) (entry : Int × FlushUnit) :
    gain geometry [] bars (gain geometry prints [] entry) = gain geometry prints bars entry := by
  simp [gain]

/-- The rows of a market that was drained of its prints, and is then drained of its bars. -/
theorem collect_files (state : ArchiveState) (market : MarketState) (prints : List Trade)
    {traded : ArchiveState} (files : Files (gain geometry prints []) { state with market } traded) :
    Files (gain geometry prints market.closedBars) { state with market := market.drainClosedBars.1 }
      ({ traded with market := traded.market.drainClosedBars.1 }.collectBars geometry
        traded.market.drainClosedBars.2) := by
  have left : traded.market = market := files.market
  have bars := @collectBars_files geometry
    { traded with market := traded.market.drainClosedBars.1 } traded.market.drainClosedBars.2
  have moved : Files (gain geometry prints []) { state with market := market.drainClosedBars.1 }
      { traded with market := traded.market.drainClosedBars.1 } :=
    ⟨files.opened, by rw [left], files.ready, files.sealedThrough, files.lastStreamId⟩
  have all := (moved.trans bars).congr fun entry =>
    (gain_gain prints traded.market.drainClosedBars.2 entry).symm
  rw [left] at all ⊢
  exact all

/-- What the collection does: rows to the open units, and a market with nothing left in it. -/
theorem collected_files (state : ArchiveState) (entry : Entry) :
    Files (gain geometry (folded state.market entry).2.1 (folded state.market entry).2.2)
      { prepared geometry state entry with market := (folded state.market entry).1 }
      (collected geometry state entry) := by
  have market := (@prepared_kept geometry state entry).1
  obtain ⟨streamId, record⟩ := entry
  cases record with
  | fill fill =>
      have given := collect_files (prepared geometry state (streamId, .fill fill)) _ _
        (@fileTrades_files geometry { prepared geometry state (streamId, .fill fill) with
          market := ((state.market.apply (.fill fill) (some streamId)).drainTape fill.symbolId).1 }
          ((state.market.apply (.fill fill) (some streamId)).drainTape fill.symbolId).2)
      simp only [collected, market]
      exact given
  | _ =>
      simp only [collected, market]
      exact collect_files (prepared geometry state (streamId, _)) _ []
        ⟨by simp [gain_nothing], rfl, rfl, rfl, rfl⟩

end QuantArena.Archive
