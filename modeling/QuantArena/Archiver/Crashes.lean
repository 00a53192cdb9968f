import QuantArena.Archiver.Recovery

/-! What the files hold after any run of the archiver: across crashes the same as without
them, and after writes that raised whatever the checkpoint claims, until one is lost. -/

set_option autoImplicit false

namespace QuantArena.Archive

open Foundations Contracts Fanout

/-! ## Rows -/

/-- A row of the trades dataset, by its file and its place in it. -/
def Disk.rowAt (disk : Disk) (place : Path × Nat) : Option Trade :=
  (disk.trades.get? place.1).bind fun rows => rows[place.2]?

/-- Every file holds prints of its own, and none twice. -/
def Filed (geometry : Geometry) (writer : ArchiveWriter) (disk : Disk) : Prop :=
  ∀ path rows, disk.trades.get? path = some rows → rows.Nodup ∧
    ∀ trade ∈ rows, path = writer.pathFor trade.symbolId (geometry.unitStart trade.timestampNs)

variable {geometry : Geometry} {writer : ArchiveWriter} {stream : Foundations.Stream Outbound}
  {disk : Disk} {symbolId start : Int} {trade : Trade} {rows : List Trade} {entries : List Entry}

theorem Filed.unique (filed : Filed geometry writer disk) (member : trade ∈ rows)
    (found : disk.trades.get? (writer.pathFor trade.symbolId (geometry.unitStart trade.timestampNs)) =
      some rows) : ∃! place, disk.rowAt place = some trade := by
  obtain ⟨index, here⟩ := List.mem_iff_getElem?.mp member
  refine ⟨(writer.pathFor trade.symbolId (geometry.unitStart trade.timestampNs), index), ?_, ?_⟩
  · simp only [Disk.rowAt, found, Option.bind_some, here]
  rintro ⟨path, other⟩ there
  obtain ⟨held, inside, row⟩ := Option.bind_eq_some_iff.mp there
  obtain rfl := (filed path held inside).2 trade (List.mem_of_getElem? row)
  cases found.symm.trans inside
  obtain ⟨short, -⟩ := List.getElem?_eq_some_iff.mp row
  exact congrArg (Prod.mk _)
    ((List.getElem?_inj short (filed _ _ found).1).mp (row.trans here.symm))

theorem symbolPrints_nodup (ascending : entries.Pairwise fun early late => early.1 < late.1) :
    (symbolPrints geometry symbolId start entries).Nodup := by
  have all : (entries.filterMap printOf).Pairwise fun early late => early.seq < late.seq := by
    refine List.Pairwise.filterMap printOf (fun early late before first printed second printed' => ?_)
      ascending
    rw [printOf_seq printed, printOf_seq printed']
    exact before
  exact ((all.filter _).filter _).imp fun before same => by simp [same] at before

theorem Sound.filed (sound : Sound geometry writer stream disk) : Filed geometry writer disk := by
  intro path rows found
  obtain ⟨entry, -, symbolId, -, rfl, rfl, -⟩ := sound.trades path rows found
  refine ⟨symbolPrints_nodup stream.ascending, fun trade member => ?_⟩
  obtain ⟨other, -, printed, unit, rfl⟩ := mem_symbolPrints.mp member
  rw [printOf_timestampNs printed, ← unit, unitOf]

/-! ## What the files of a unit hold -/

/-- Every symbol's prints as they came, and of these prints the bars, bucket by bucket. -/
structure Archived (geometry : Geometry) (writer : ArchiveWriter)
    (stream : Foundations.Stream Outbound) (disk : Disk) (start : Int) : Prop where
  trades : ∀ symbolId ∈ tradedSymbols stream,
    disk.trades.getD (writer.pathFor symbolId start) [] =
      symbolPrints geometry symbolId start stream.entries
  bars : ∀ symbolId ∈ tradedSymbols stream, ∀ width ∈ geometry.barWidths, ∀ bucket,
    (disk.bars.getD (writer.pathFor symbolId start) []).filter
        (fun bar => bar.bucketSeconds = width.val ∧ bar.barOpenNs = bucket) =
      (barOf symbolId width bucket ((disk.trades.getD (writer.pathFor symbolId start) []).filter
        fun trade => width.bucketStart trade.timestampNs = bucket)).toList
  only : ∀ symbolId ∈ tradedSymbols stream,
    ∀ bar ∈ disk.bars.getD (writer.pathFor symbolId start) [],
      bar.symbolId = symbolId ∧ ∃ width ∈ geometry.barWidths, bar.bucketSeconds = width.val

/-- A file that holds nothing but what is expected, and is there where that is anything. -/
theorem file_eq_guard {ρ : Type} [DecidableEq ρ] {file : Option (List ρ)} {expected : List ρ}
    (sound : ∀ rows, file = some rows → rows = expected ∧ rows ≠ [])
    (kept : expected ≠ [] → file = some expected) : file = Option.guard (· ≠ []) expected := by
  by_cases none : expected = []
  · cases held : file with
    | none => simp [Option.guard, none]
    | some rows => exact absurd ((sound rows held).1.trans none) (sound rows held).2
  · rw [kept none]
    simp [Option.guard, none]

theorem symbolPrints_of_bars (some : symbolBars geometry symbolId start entries ≠ []) :
    symbolPrints geometry symbolId start entries ≠ [] := by
  intro none
  rw [symbolBars, none] at some
  exact some (currents_new _ _)

/-- The two files of a symbol and a unit, as the stream alone gives them. -/
theorem Sound.files (apart : NamesApart writer stream) (sound : Sound geometry writer stream disk)
    {entry : Entry} (kept : Kept geometry writer stream true disk (unitOf geometry entry))
    (traded : symbolId ∈ tradedSymbols stream) :
    disk.trades.get? (writer.pathFor symbolId (unitOf geometry entry)) =
        Option.guard (· ≠ []) (symbolPrints geometry symbolId (unitOf geometry entry) stream.entries) ∧
      disk.bars.get? (writer.pathFor symbolId (unitOf geometry entry)) =
        Option.guard (· ≠ []) (symbolBars geometry symbolId (unitOf geometry entry) stream.entries) := by
  constructor
  · refine file_eq_guard (fun rows found => ?_) fun some => (kept symbolId traded some).1
    obtain ⟨other, -, another, anotherTraded, place, same, some⟩ := sound.trades _ rows found
    obtain ⟨rfl, unit⟩ := place_inj apart traded anotherTraded place
    exact ⟨unit ▸ same, some⟩
  · refine file_eq_guard (fun rows found => ?_) fun some =>
      (kept symbolId traded (symbolPrints_of_bars some)).2 rfl some
    obtain ⟨other, -, another, anotherTraded, place, same, some⟩ := sound.bars _ rows found
    obtain ⟨rfl, unit⟩ := place_inj apart traded anotherTraded place
    exact ⟨unit ▸ same, some⟩

theorem getD_of_guard {ρ : Type} [DecidableEq ρ] {files : Dict Path (List ρ)} {path : Path}
    {rows : List ρ} (found : files.get? path = Option.guard (· ≠ []) rows) :
    files.getD path [] = rows := by
  rw [Dict.getD, found]
  by_cases none : rows = [] <;> simp [Option.guard, none]

theorem Sound.archived (apart : NamesApart writer stream) (timed : Timed stream.entries)
    (sound : Sound geometry writer stream disk) {entry : Entry}
    (kept : Kept geometry writer stream true disk (unitOf geometry entry)) :
    Archived geometry writer stream disk (unitOf geometry entry) := by
  have trades := fun symbolId traded => getD_of_guard (@Sound.files _ _ _ _ symbolId apart sound
    entry kept traded).1
  have bars := fun symbolId traded => getD_of_guard (@Sound.files _ _ _ _ symbolId apart sound
    entry kept traded).2
  refine ⟨trades, ?_, ?_⟩
  · intro symbolId traded width configured bucket
    rw [trades symbolId traded, bars symbolId traded]
    exact barsOf_bucket timed.prints configured bucket
  · intro symbolId traded bar member
    rw [bars symbolId traded] at member
    exact barsOf_own timed.prints bar member

/-- A fill's row is in the file of its symbol and its unit, and nowhere else. -/
theorem Sound.filed_once (sound : Sound geometry writer stream disk) {both : Bool} {entry : Entry}
    (inside : entry ∈ stream.entries) (printed : printOf entry = some trade)
    (kept : Kept geometry writer stream both disk (unitOf geometry entry)) :
    ∃! place, disk.rowAt place = some trade := by
  have member : trade ∈ symbolPrints geometry trade.symbolId (unitOf geometry entry) stream.entries :=
    mem_symbolPrints.mpr ⟨entry, inside, printed, rfl, rfl⟩
  have some := List.ne_nil_of_mem member
  have traded := (mem_tradedSymbols (fun _ => id) some).1
  refine sound.filed.unique member ?_
  rw [printOf_timestampNs printed]
  exact (kept trade.symbolId traded some).1

/-- No symbol's files of one unit differ. -/
def SameFiles (writer : ArchiveWriter) (start : Int) (left right : Disk) : Prop :=
  ∀ symbolId,
    left.trades.get? (writer.pathFor symbolId start) =
        right.trades.get? (writer.pathFor symbolId start) ∧
      left.bars.get? (writer.pathFor symbolId start) =
        right.bars.get? (writer.pathFor symbolId start)

/-- Two disks that both have a unit have the same files of it. -/
theorem Sound.agree (apart : NamesApart writer stream) {left right : Disk} {entry : Entry}
    (leftSound : Sound geometry writer stream left) (rightSound : Sound geometry writer stream right)
    (leftKept : Kept geometry writer stream true left (unitOf geometry entry))
    (rightKept : Kept geometry writer stream true right (unitOf geometry entry)) :
    SameFiles writer (unitOf geometry entry) left right := by
  intro symbolId
  -- a symbol that never trades may still be filed under the name of one that does
  by_cases named : ∃ other ∈ tradedSymbols stream,
      writer.symbolName other = writer.symbolName symbolId
  · obtain ⟨other, traded, name⟩ := named
    have place : writer.pathFor symbolId (unitOf geometry entry) =
        writer.pathFor other (unitOf geometry entry) := by
      simp only [ArchiveWriter.pathFor, name]
    have first := leftSound.files apart leftKept traded
    have second := rightSound.files apart rightKept traded
    rw [place]
    exact ⟨first.1.trans second.1.symm, first.2.trans second.2.symm⟩
  · have blank : ∀ disk : Disk, Sound geometry writer stream disk →
        disk.trades.get? (writer.pathFor symbolId (unitOf geometry entry)) = none ∧
          disk.bars.get? (writer.pathFor symbolId (unitOf geometry entry)) = none := by
      intro disk sound
      constructor <;> refine Option.eq_none_iff_forall_ne_some.mpr fun rows found => ?_
      · obtain ⟨other, -, another, traded, place, -⟩ := sound.trades _ rows found
        exact named ⟨another, traded, (pathFor_inj place).1.symm⟩
      · obtain ⟨other, -, another, traded, place, -⟩ := sound.bars _ rows found
        exact named ⟨another, traded, (pathFor_inj place).1.symm⟩
    have first := blank left leftSound
    have second := blank right rightSound
    exact ⟨first.1.trans second.1.symm, first.2.trans second.2.symm⟩

/-! ## Runs -/

/-- What a step has to write once it has read. -/
def System.due (geometry : Geometry) (stream : Foundations.Stream Outbound) (system : System)
    (count : Nat) : List FlushUnit :=
  ((system.archiver.read geometry
    (stream.read system.archiver.position count)).state.drainReady).2

/-- `Safe`, wherever the process and the checkpoint stand. -/
def Holds (geometry : Geometry) (writer : ArchiveWriter) (stream : Foundations.Stream Outbound)
    (both : Bool) (system : System) : Prop :=
  ∃ first last place gone, Safe geometry writer stream both first last place gone system

variable {system : System} {both : Bool}

theorem Holds.step (apart : NamesApart writer stream) (timed : Timed stream.entries)
    (holds : Holds geometry writer stream both system) (count : Nat) (outcome : Outcome)
    (calm : ∀ units files, outcome = .raised units files → both = false)
    (intact : outcome = .done → system.due geometry stream count ≠ [] → system.dropped = []) :
    Holds geometry writer stream both (system.step geometry writer stream (.step count outcome)) := by
  obtain ⟨first, last, place, gone, safe⟩ := holds
  obtain ⟨further, onward, drained⟩ := safe.read timed count
  cases outcome with
  | done =>
      obtain ⟨moved, next⟩ := drained.done apart timed safe onward (intact rfl)
      exact ⟨first, further, moved, _, next⟩
  | raised units files =>
      exact ⟨first, further, place, _,
        drained.raised units files apart safe onward (calm units files rfl)⟩
  | crashed units files =>
      exact ⟨place, place, place, [], drained.crashed units files apart timed safe _⟩

/-! ## Crashes -/

/-- A step that completes, or in which the process dies. -/
def Action.Calm : Action → Prop
  | .step _ (.raised _ _) => False
  | .step _ _ => True
  | .stop => False

theorem calm_holds (apart : NamesApart writer stream) (timed : Timed stream.entries)
    {actions : List Action} (calm : ∀ action ∈ actions, action.Calm) :
    Holds geometry writer stream true (System.run geometry writer stream (.start geometry) actions) := by
  refine Along.invariant (fun system action holds allowed => ?_)
    ⟨0, 0, 0, [], start_safe geometry writer stream true⟩ (Along.of_forall (fun action member _ =>
      calm action member) _)
  cases action with
  | step count outcome =>
      obtain ⟨first, last, place, gone, safe⟩ := holds
      refine Holds.step apart timed ⟨first, last, place, gone, safe⟩ count outcome ?_
        fun _ _ => safe.spared rfl
      intro units files raised
      exact absurd allowed (by simp [raised, Action.Calm])
  | stop => exact absurd allowed (by simp [Action.Calm])

theorem calm_done (counts : List Nat) :
    ∀ action ∈ counts.map fun count => Action.step count .done, action.Calm := by
  intro action member
  obtain ⟨count, -, rfl⟩ := List.mem_map.mp member
  trivial

/-- Wherever the process died, once a unit is written the files of every unit as old hold what
the stream has for it, as they do after a run that was never interrupted. -/
theorem crashes_keep_units (apart : NamesApart writer stream) (timed : Timed stream.entries)
    {actions : List Action} (calm : ∀ action ∈ actions, action.Calm) :
    let system := System.run geometry writer stream (.start geometry) actions
    ∀ start ∈ system.written, ∀ entry ∈ stream.entries, unitOf geometry entry ≤ start →
      Archived geometry writer stream system.disk (unitOf geometry entry) ∧
        (∀ trade, printOf entry = some trade → ∃! place, system.disk.rowAt place = some trade) ∧
        ∀ counts : List Nat,
          let whole := System.run geometry writer stream (.start geometry)
            (counts.map fun count => .step count .done)
          ∀ later ∈ whole.written, unitOf geometry entry ≤ later →
            SameFiles writer (unitOf geometry entry) system.disk whole.disk := by
  intro system start reached entry inside early
  obtain ⟨_, _, _, _, safe⟩ := @calm_holds geometry _ _ apart timed _ calm
  have kept := safe.written rfl start reached entry inside early
  refine ⟨safe.sound.archived apart timed kept,
    fun trade printed => safe.sound.filed_once inside printed kept, ?_⟩
  intro counts whole later written old
  obtain ⟨_, _, _, _, other⟩ := @calm_holds geometry _ _ apart timed _ (calm_done counts)
  exact safe.sound.agree apart other.sound kept (other.written rfl later written entry inside old)

/-- Units of a minute, with bars of a minute. -/
def minutes : Geometry := ⟨[⟨60, by decide⟩], 10, 60, by decide, by decide⟩

def listing : List Fanout.Symbol := [⟨1, "QAA".toList⟩]

theorem listing_ids : (listing.map (·.symbolId)).Nodup := by decide

theorem listing_names : (listing.map (·.name)).Nodup := by decide

def oneListed : ArchiveWriter := ⟨⟨listing, listing_ids, listing_names⟩⟩

/-- Fills, by their second and their symbol. -/
def fillsAt (moments : List (Int × Int)) : Foundations.Stream Outbound :=
  Foundations.Stream.empty.appendAll 1 (moments.map fun (seconds, symbolId) =>
    .fill ⟨seconds * nsPerSecond, 1, 2, 8, 9, 100, 1, symbolId, 1⟩)

theorem crashes_keep_units_minute :
    let stream := fillsAt [(1, 1), (2, 1), (61, 1), (62, 2), (121, 1)]
    let system := System.run minutes oneListed stream (.start minutes)
      [.step 2 (.crashed 0 0), .step 3 (.crashed 0 1), .step 4 .done, .step 1 (.crashed 0 1)]
    0 ∈ system.written ∧ Archived minutes oneListed stream system.disk 0 :=
  ⟨by decide +kernel, (crashes_keep_units (by decide +kernel) (by decide +kernel)
    (by simp [Action.Calm]) 0
    (by decide +kernel) (toLex (1, 0), .fill ⟨nsPerSecond, 1, 2, 8, 9, 100, 1, 1, 1⟩)
    (by decide +kernel) (by decide)).1⟩

/-- A listed symbol under the name that another one is filed by: one file replaces the other. -/
theorem shared_name_loses_fill :
    ∃ writer : ArchiveWriter, ∃ stream : Foundations.Stream Outbound,
      Timed stream.entries ∧
        ∃ entry ∈ stream.entries, ∃ trade, printOf entry = some trade ∧
          let system := System.run minutes writer stream (.start minutes) [.step 3 .done]
          unitOf minutes entry ∈ system.written ∧
            ∀ rows ∈ system.disk.trades.values, trade ∉ rows :=
  ⟨⟨⟨[⟨1, "id=2".toList⟩], by decide, by decide⟩⟩, fillsAt [(1, 1), (2, 2), (61, 1)],
    by decide +kernel, (toLex (1, 0), .fill ⟨nsPerSecond, 1, 2, 8, 9, 100, 1, 1, 1⟩),
    by decide +kernel, _, rfl, by decide +kernel⟩

/-! ## Writes that raise -/

/-- What `run` needs of a step: it moves the checkpoint only while no print that this process
drained is missing. -/
def System.Paid (geometry : Geometry) (stream : Foundations.Stream Outbound) (system : System) :
    Action → Prop
  | .step count .done => system.due geometry stream count ≠ [] → system.dropped = []
  | .step _ _ => True
  | .stop => False

instance (geometry : Geometry) (stream : Foundations.Stream Outbound) (system : System) :
    (action : Action) → Decidable (system.Paid geometry stream action)
  | .step count .done => inferInstanceAs
      (Decidable (system.due geometry stream count ≠ [] → system.dropped = []))
  | .step _ (.raised _ _) => .isTrue trivial
  | .step _ (.crashed _ _) => .isTrue trivial
  | .stop => .isFalse id

/-- Every fill at or before the recorded checkpoint has a row. -/
def ClaimsWritten (stream : Foundations.Stream Outbound) (disk : Disk) : Prop :=
  ∀ recorded, disk.checkpoint = some recorded → ∀ entry ∈ stream.entries, entry.1 ≤ recorded →
    ∀ trade, printOf entry = some trade → ∃ place, disk.rowAt place = some trade

theorem Holds.claims (holds : Holds geometry writer stream both system) :
    ClaimsWritten stream system.disk := by
  obtain ⟨first, last, place, gone, safe⟩ := holds
  intro recorded found entry inside early trade printed
  have position := safe.recorded
  rw [found, Option.getD_some] at position
  have taken : entry ∈ stream.entries.take place := by
    rw [← stream.filter_le_position place, ← position]
    exact List.mem_filter.mpr ⟨inside, by simpa using early⟩
  obtain ⟨row, here, -⟩ := safe.sound.filed_once inside printed (safe.below entry taken)
  exact ⟨row, here⟩

/-- While no write that raised leaves a print behind, the checkpoint claims only what is there. -/
theorem checkpoint_claims_written (apart : NamesApart writer stream)
    (timed : Timed stream.entries) {actions : List Action}
    (paid : Along (System.step geometry writer stream) (System.Paid geometry stream)
      (.start geometry) actions) :
    Always (System.step geometry writer stream) (fun system => ClaimsWritten stream system.disk)
      (.start geometry) actions := by
  have holds : Always (System.step geometry writer stream) (Holds geometry writer stream false)
      (.start geometry) actions := by
    refine Always.of_along (fun system action holds paid => ?_)
      ⟨0, 0, 0, [], start_safe geometry writer stream false⟩ paid
    cases action with
    | step count outcome =>
        refine holds.step apart timed count outcome (fun _ _ _ => rfl) ?_
        intro done
        cases done
        exact paid
    | stop => exact paid.elim
  exact fun before after split => (holds before after split).claims

theorem checkpoint_claims_written_minute :
    let stream := fillsAt [(1, 1), (61, 1), (121, 1)]
    Always (System.step minutes oneListed stream) (fun system => ClaimsWritten stream system.disk)
      (.start minutes) [.step 2 (.raised 1 0), .step 1 .done] :=
  checkpoint_claims_written (by decide +kernel) (by decide +kernel) (by decide +kernel)

/-- A write raises, the loop goes on, and the checkpoint passes the fill that was lost. -/
theorem raised_write_loses_fill :
    ∃ stream : Foundations.Stream Outbound, Timed stream.entries ∧
      ∃ entry ∈ stream.entries, ∃ trade, printOf entry = some trade ∧
        let system := System.run minutes oneListed stream (.start minutes)
          [.step 2 (.raised 0 0), .step 1 .done]
        (∃ recorded ∈ system.disk.checkpoint, entry.1 ≤ recorded) ∧
          ∀ rows ∈ system.disk.trades.values, trade ∉ rows :=
  ⟨fillsAt [(1, 1), (61, 1), (121, 1)], by decide +kernel,
    (toLex (1, 0), .fill ⟨nsPerSecond, 1, 2, 8, 9, 100, 1, 1, 1⟩), by decide +kernel, _, rfl,
    ⟨toLex (1, 1), by decide +kernel, by decide +kernel⟩, by decide +kernel⟩

end QuantArena.Archive
