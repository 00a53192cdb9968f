import Mathlib.Data.Finset.Dedup
import Mathlib.Data.Prod.Lex
import QuantArena.Fanout.Follows
import QuantArena.Foundations.Canonical
import QuantArena.Foundations.Json

/-! Fan-out's checkpoint: the books and the open bars as JSON text, and a state rebuilt
from it. Undelivered prints and closed bars are not part of it. -/

set_option autoImplicit false

namespace QuantArena.Fanout

open Foundations Contracts

/-! ## The document's names -/

namespace Names

def lastSeq : Text := ⟨"last_seq".toList, plain_of_all rfl⟩
def recordsApplied : Text := ⟨"records_applied".toList, plain_of_all rfl⟩
def trades : Text := ⟨"trades".toList, plain_of_all rfl⟩
def books : Text := ⟨"books".toList, plain_of_all rfl⟩
def bars : Text := ⟨"bars".toList, plain_of_all rfl⟩

end Names

def RestingOrder.row (order : RestingOrder) : List Int :=
  [order.orderId, order.side, order.priceTicks, order.remainingQty]

def RestingOrder.ofRow : List Int → Option RestingOrder
  | [orderId, side, priceTicks, remainingQty] => some ⟨orderId, side, priceTicks, remainingQty⟩
  | _ => none

def bookRow (entry : Int × List RestingOrder) : Json :=
  .arr [.int entry.1, .ofRows (entry.2.map RestingOrder.row)]

def ofBookRow : Json → Option (Int × List RestingOrder)
  | .arr [.int symbolId, resting] => do
      let orders ← (← resting.toRows?).mapM RestingOrder.ofRow
      return (symbolId, orders)
  | _ => none

/-- An open bar, under its symbol and its width. -/
def barRow (entry : (Int × Int) × Bar) : Json :=
  .arr [.int entry.1.1, .int entry.1.2, .ofInts [entry.2.barOpenNs, entry.2.openTicks,
    entry.2.highTicks, entry.2.lowTicks, entry.2.closeTicks, entry.2.volume]]

def ofBarRow : Json → Option Bar
  | .arr [.int symbolId, .int width, fields] => do
      match ← fields.toInts? with
      | [openNs, openTicks, highTicks, lowTicks, closeTicks, volume] =>
          some ⟨symbolId, width, openNs, openTicks, highTicks, lowTicks, closeTicks, volume⟩
      | _ => none
  | _ => none

/-- `builders.get(width)`, for a width that may not be one. -/
def BarSet.builder? (bars : BarSet) (width : Int) : Option BarBuilder :=
  if positive : 1 ≤ width then bars.builders.get? ⟨width, positive⟩ else none

/-- The bar as the open one of the builder of its width, if there is one. -/
def BarSet.load (bars : BarSet) (bar : Bar) : BarSet :=
  if positive : 1 ≤ bar.bucketSeconds then
    { bars with
      builders := bars.builders.alter ⟨bar.bucketSeconds, positive⟩ fun builder =>
        some { builder with current := some bar } }
  else bars

namespace MarketState

/-- What rests in each book. -/
def restingBooks (state : MarketState) : Dict Int (List RestingOrder) :=
  state.books.mapValues fun _ book => canonical (·.orderId) book.resting

def openBars (state : MarketState) : List ((Int × Int) × Bar) :=
  state.bars.entries.flatMap fun bars => bars.2.builders.entries.filterMap fun builder =>
    builder.2.current.map fun bar => ((bars.1, builder.1.1), bar)

/-- What `dump_state` gives to `json.dumps`. -/
def document (state : MarketState) : Json := .obj [
  (Names.lastSeq, .str (Json.streamIdText state.lastSeq)),
  (Names.recordsApplied, .int state.recordsApplied),
  (Names.trades, .int state.tape.total),
  (Names.books, .arr ((canonical (·.1) state.restingBooks.entries).map bookRow)),
  (Names.bars, .arr ((canonical (fun entry => toLex entry.1) state.openBars).map barRow))]

def dumpState (state : MarketState) : List Char := state.document.dumps

def loadBook (state : MarketState) (entry : Int × List RestingOrder) : MarketState :=
  let book := state.book entry.1
  { state with books := state.books.set entry.1 { book with
      orders := entry.2.foldl (fun orders order => orders.set order.orderId order) book.orders } }

/-- A bar of a width that is no longer configured is left out. -/
def loadBar (state : MarketState) (bar : Bar) : MarketState :=
  { state with bars := state.bars.set bar.symbolId ((state.barSet bar.symbolId).load bar) }

/-- `load_state`, past the reading of the document. -/
def restore (state : MarketState) (lastSeq : StreamId) (recordsApplied trades : Int)
    (books : List (Int × List RestingOrder)) (bars : List Bar) : MarketState :=
  let state := books.foldl loadBook { state with
    lastSeq := lastSeq
    recordsApplied := recordsApplied
    tape := { state.tape with total := trades }
    books := .empty }
  let state := bars.foldl loadBar { state with bars := .empty }
  { state with dirty := state.books.keys.toFinset }

def ofDocument (state : MarketState) (raw : Json) : Option MarketState := do
  let lastSeq ← Json.toStreamId? (← raw.field? Names.lastSeq)
  let recordsApplied ← (← raw.field? Names.recordsApplied).toInt?
  let trades ← (← raw.field? Names.trades).toInt?
  let books ← (← (← raw.field? Names.books).toItems?).mapM ofBookRow
  let bars ← (← (← raw.field? Names.bars).toItems?).mapM ofBarRow
  return state.restore lastSeq recordsApplied trades books bars

/-- `load_state`, into an instance that was just made. -/
def loadState (barWidths : List BarWidth) (data : List Char) : Option MarketState :=
  (Json.loads data).bind (new barWidths).ofDocument

end MarketState

/-! ## States that dump alike -/

/-- A builder without the bars it has closed. -/
def BarBuilder.ongoing (builder : BarBuilder) : BarBuilder := { builder with closed := [] }

theorem BarBuilder.ongoing_add (builder : BarBuilder) (priceTicks qty timestampNs : Int) :
    (builder.add priceTicks qty timestampNs).1.ongoing =
      (builder.ongoing.add priceTicks qty timestampNs).1.ongoing := by
  cases present : builder.current with
  | none => simp only [BarBuilder.add, BarBuilder.ongoing, present, opened, bucketStart, widthNs]
  | some bar =>
      by_cases within : builder.bucketStart timestampNs = bar.barOpenNs
      · have still : builder.ongoing.bucketStart timestampNs = bar.barOpenNs := within
        simp only [BarBuilder.add, BarBuilder.ongoing, present] at still ⊢
        rw [if_pos within, if_pos still]
      · have still : ¬ builder.ongoing.bucketStart timestampNs = bar.barOpenNs := within
        simp only [BarBuilder.add, BarBuilder.ongoing, present] at still ⊢
        rw [if_neg within, if_neg still]
        rfl

@[simp] theorem BarBuilder.add_symbolId (builder : BarBuilder) (priceTicks qty timestampNs : Int) :
    (builder.add priceTicks qty timestampNs).1.symbolId = builder.symbolId := by
  unfold add
  repeat' split
  all_goals rfl

@[simp] theorem BarBuilder.add_bucketSeconds (builder : BarBuilder)
    (priceTicks qty timestampNs : Int) :
    (builder.add priceTicks qty timestampNs).1.bucketSeconds = builder.bucketSeconds := by
  unfold add
  repeat' split
  all_goals rfl

/-- The open bar stays one of the builder's own symbol and width. -/
theorem BarBuilder.add_current {builder : BarBuilder} {priceTicks qty timestampNs : Int} {bar : Bar}
    (own : ∀ bar, builder.current = some bar →
      bar.symbolId = builder.symbolId ∧ bar.bucketSeconds = builder.bucketSeconds)
    (current : (builder.add priceTicks qty timestampNs).1.current = some bar) :
    bar.symbolId = builder.symbolId ∧ bar.bucketSeconds = builder.bucketSeconds := by
  unfold add at current
  split at current
  · rename_i old present
    split at current
    · cases current
      exact own old present
    · cases current
      exact ⟨rfl, rfl⟩
  · cases current
    exact ⟨rfl, rfl⟩

theorem Book.fill_keyed {book : Book} (filled qty : Int)
    (own : ∀ orderId order, book.orders.get? orderId = some order → order.orderId = orderId) :
    ∀ orderId order, (book.fill filled qty).orders.get? orderId = some order →
      order.orderId = orderId := by
  intro orderId order found
  rw [Book.fill, Dict.get?_alter] at found
  split at found
  · rename_i same
    obtain ⟨old, present, left⟩ := Option.bind_eq_some_iff.mp found
    unfold RestingOrder.less at left
    split at left
    · cases left
    · cases left
      exact (own filled old present).trans same.symm
  · exact own orderId order found

namespace BarSet

theorem builder?_new {symbolId width : Int} {widths : List BarWidth} {builder : BarBuilder}
    (found : (new symbolId widths).builder? width = some builder) :
    ∃ positive, builder = .new symbolId ⟨width, positive⟩ := by
  unfold builder? at found
  split at found
  · rename_i positive
    refine ⟨positive, ?_⟩
    have built : ∀ (widths : List BarWidth) (builders : Dict BarWidth BarBuilder),
        (∀ width builder, builders.get? width = some builder → builder = .new symbolId width) →
        ∀ width builder, (widths.foldl (fun builders width =>
          builders.set width (.new symbolId width)) builders).get? width = some builder →
          builder = .new symbolId width := by
      intro widths
      induction widths with
      | nil => exact fun _ own => own
      | cons first rest ih =>
          intro builders own
          refine ih _ ?_
          intro width builder found
          rw [Dict.get?_set] at found
          split at found
          · rename_i same
            cases found
            rw [same]
          · exact own width builder found
    exact built widths .empty (fun _ _ found => by cases found) _ _ found
  · cases found

theorem builder?_add (bars : BarSet) (priceTicks qty timestampNs width : Int) :
    (bars.add priceTicks qty timestampNs).1.builder? width =
      (bars.builder? width).map fun builder => (builder.add priceTicks qty timestampNs).1 := by
  unfold builder?
  split
  · exact Dict.get?_mapValues ..
  · rfl

theorem builder?_load (bars : BarSet) (bar : Bar) (width : Int) :
    (bars.load bar).builder? width =
      if width = bar.bucketSeconds then
        (bars.builder? width).map fun builder => { builder with current := some bar }
      else bars.builder? width := by
  unfold builder? load
  by_cases positive : 1 ≤ width
  · by_cases same : width = bar.bucketSeconds
    · subst same
      simp only [positive, dif_pos, Dict.get?_alter, if_true]
      cases bars.builders.get? ⟨bar.bucketSeconds, positive⟩ <;> rfl
    · simp only [positive, dif_pos, same, if_false]
      split
      · simp [Dict.get?_alter, same]
      · rfl
  · simp [positive]

end BarSet

namespace MarketState

def builder? (state : MarketState) (symbolId width : Int) : Option BarBuilder :=
  (state.barSet symbolId).builder? width

/-- The same state, in whatever order it was built up. What is yet to be sent is not part of
it. -/
structure Alike (left right : MarketState) : Prop where
  known : ∀ symbolId, left.books.contains symbolId = right.books.contains symbolId
  books : ∀ symbolId, (left.book symbolId).orders.Same (right.book symbolId).orders
  builders : ∀ symbolId width,
    (left.builder? symbolId width).map (·.ongoing) = (right.builder? symbolId width).map (·.ongoing)
  trades : left.tape.total = right.tape.total
  lastSeq : left.lastSeq = right.lastSeq
  recordsApplied : left.recordsApplied = right.recordsApplied

/-- Orders are kept under their own ids, builders and their open bars under their own symbols
and widths, and every symbol has the configured widths. -/
structure Keyed (state : MarketState) : Prop where
  orders : ∀ symbolId orderId order, (state.book symbolId).orders.get? orderId = some order →
    order.orderId = orderId
  builders : ∀ symbolId width builder, state.builder? symbolId width = some builder →
    builder.symbolId = symbolId ∧ builder.bucketSeconds = width
  bars : ∀ symbolId width builder bar, state.builder? symbolId width = some builder →
    builder.current = some bar → bar.symbolId = symbolId ∧ bar.bucketSeconds = width
  configured : ∀ symbolId width, (state.builder? symbolId width).isSome =
    ((BarSet.new symbolId state.barWidths).builder? width).isSome

variable {state left right : MarketState}

theorem contains_withBook (state : MarketState) (symbolId other : Int) (change : Book → Book) :
    (state.withBook symbolId change).books.contains other =
      (decide (other = symbolId) || state.books.contains other) := by
  simp only [withBook, Dict.contains, Dict.get?_set]
  split <;> simp [*]

theorem Alike.withBook (alike : left.Alike right) (symbolId : Int) {change : Book → Book}
    (changes : ∀ first second : Book, first.orders.Same second.orders →
      (change first).orders.Same (change second).orders) :
    (left.withBook symbolId change).Alike (right.withBook symbolId change) where
  known other := by rw [contains_withBook, contains_withBook, alike.known]
  books other := by
    rw [book_withBook, book_withBook]
    split
    · exact changes _ _ (alike.books symbolId)
    · exact alike.books other
  builders := alike.builders
  trades := alike.trades
  lastSeq := alike.lastSeq
  recordsApplied := alike.recordsApplied

theorem builder?_withTrade (state : MarketState) (fill : Fill) (seq : StreamId)
    (symbolId width : Int) :
    (state.withTrade fill seq).builder? symbolId width =
      if symbolId = fill.symbolId then
        (state.builder? symbolId width).map fun builder =>
          (builder.add fill.priceTicks fill.qty fill.timestampNs).1
      else state.builder? symbolId width := by
  simp only [builder?, withTrade, barSet, Dict.getD_set]
  split
  · rename_i same
    rw [same]
    exact BarSet.builder?_add ..
  · rfl

theorem Alike.withTrade (alike : left.Alike right) (fill : Fill) (seq : StreamId) :
    (left.withTrade fill seq).Alike (right.withTrade fill seq) where
  known := alike.known
  books := alike.books
  builders symbolId width := by
    rw [builder?_withTrade, builder?_withTrade]
    split
    · have same := congrArg (Option.map fun builder : BarBuilder =>
        (builder.add fill.priceTicks fill.qty fill.timestampNs).1.ongoing)
        (alike.builders symbolId width)
      simpa only [Option.map_map, Function.comp_def, ← BarBuilder.ongoing_add] using same
    · exact alike.builders symbolId width
  trades := congrArg (· + 1) alike.trades
  lastSeq := alike.lastSeq
  recordsApplied := alike.recordsApplied

theorem Alike.applyRecord (alike : left.Alike right) (record : Outbound) :
    (left.applyRecord record).Alike (right.applyRecord record) := by
  cases record with
  | orderAccepted accepted =>
      simp only [MarketState.applyRecord]
      refine alike.withBook _ fun _ _ same => ?_
      exact same.set _ _
  | orderCancelled cancelled =>
      simp only [MarketState.applyRecord]
      refine alike.withBook _ fun _ _ same => ?_
      exact same.erase _
  | fill fill =>
      simp only [MarketState.applyRecord, alike.lastSeq]
      refine Alike.withTrade (alike.withBook _ fun _ _ same => ?_) fill _
      exact (same.alter _ _).alter _ _
  | accountCreated _ => exact alike
  | cashCredited _ => exact alike
  | orderRejected _ => exact alike
  | bookChanged _ => exact alike
  | replayConfigured _ => exact alike

theorem Alike.apply (alike : left.Alike right) (record : Outbound) (streamId : Option StreamId) :
    (left.apply record streamId).Alike (right.apply record streamId) := by
  have counted : Alike
      { left with
        lastSeq := streamId.getD left.lastSeq
        recordsApplied := left.recordsApplied + 1 }
      { right with
        lastSeq := streamId.getD right.lastSeq
        recordsApplied := right.recordsApplied + 1 } :=
    ⟨alike.known, alike.books, alike.builders, alike.trades, by simp only [alike.lastSeq],
      by simp only [alike.recordsApplied]⟩
  exact counted.applyRecord record

theorem Alike.applyAll (alike : left.Alike right) (events : List (Outbound × Option StreamId)) :
    (left.applyAll events).Alike (right.applyAll events) := by
  induction events generalizing left right with
  | nil => exact alike
  | cons event rest ih => exact ih (alike.apply event.1 event.2)

/-! ## What every state keeps -/

theorem new_keyed (barWidths : List BarWidth) : (new barWidths).Keyed where
  orders _ _ _ found := by cases found
  builders symbolId width builder found := by
    obtain ⟨positive, rfl⟩ := BarSet.builder?_new found
    exact ⟨rfl, rfl⟩
  bars symbolId width builder bar found current := by
    obtain ⟨positive, rfl⟩ := BarSet.builder?_new found
    cases current
  configured _ _ := rfl

theorem Keyed.withBook (keyed : state.Keyed) (symbolId : Int) {change : Book → Book}
    (changes : ∀ book : Book, (∀ orderId order, book.orders.get? orderId = some order →
      order.orderId = orderId) → ∀ orderId order, (change book).orders.get? orderId = some order →
      order.orderId = orderId) : (state.withBook symbolId change).Keyed where
  orders other := by
    rw [book_withBook]
    split
    · exact changes _ (keyed.orders symbolId)
    · exact keyed.orders other
  builders := keyed.builders
  bars := keyed.bars
  configured := keyed.configured

theorem Keyed.withTrade (keyed : state.Keyed) (fill : Fill) (seq : StreamId) :
    (state.withTrade fill seq).Keyed where
  orders := keyed.orders
  builders symbolId width builder found := by
    rw [builder?_withTrade] at found
    split at found
    · obtain ⟨before, present, rfl⟩ := Option.map_eq_some_iff.mp found
      rw [BarBuilder.add_symbolId, BarBuilder.add_bucketSeconds]
      exact keyed.builders symbolId width before present
    · exact keyed.builders symbolId width builder found
  bars symbolId width builder bar found current := by
    rw [builder?_withTrade] at found
    split at found
    · obtain ⟨before, present, rfl⟩ := Option.map_eq_some_iff.mp found
      obtain ⟨symbol, seconds⟩ := keyed.builders symbolId width before present
      rw [← symbol, ← seconds]
      refine BarBuilder.add_current (fun old open' => ?_) current
      rw [symbol, seconds]
      exact keyed.bars symbolId width before old present open'
    · exact keyed.bars symbolId width builder bar found current
  configured symbolId width := by
    rw [builder?_withTrade]
    split
    · rw [Option.isSome_map]
      exact keyed.configured symbolId width
    · exact keyed.configured symbolId width

theorem Keyed.applyRecord (keyed : state.Keyed) (record : Outbound) :
    (state.applyRecord record).Keyed := by
  cases record with
  | orderAccepted accepted =>
      simp only [MarketState.applyRecord]
      refine keyed.withBook _ fun book own orderId order found => ?_
      rw [Book.accept, Dict.get?_set] at found
      split at found
      · rename_i same
        cases found
        exact same.symm
      · exact own orderId order found
  | orderCancelled cancelled =>
      simp only [MarketState.applyRecord]
      refine keyed.withBook _ fun book own orderId order found => ?_
      rw [Book.cancel, Dict.get?_erase] at found
      split at found
      · cases found
      · exact own orderId order found
  | fill fill =>
      refine Keyed.withTrade (keyed.withBook _ fun book own => ?_) fill _
      exact Book.fill_keyed _ _ (Book.fill_keyed _ _ own)
  | accountCreated _ => exact keyed
  | cashCredited _ => exact keyed
  | orderRejected _ => exact keyed
  | bookChanged _ => exact keyed
  | replayConfigured _ => exact keyed

theorem barWidths_applyRecord (state : MarketState) (record : Outbound) :
    (state.applyRecord record).barWidths = state.barWidths := by
  cases record <;> rfl

theorem barWidths_applyAll (state : MarketState) (events : List (Outbound × Option StreamId)) :
    (state.applyAll events).barWidths = state.barWidths := by
  induction events generalizing state with
  | nil => rfl
  | cons event rest ih => exact (ih _).trans (barWidths_applyRecord _ event.1)

theorem Keyed.applyAll (keyed : state.Keyed) (events : List (Outbound × Option StreamId)) :
    (state.applyAll events).Keyed := by
  induction events generalizing state with
  | nil => exact keyed
  | cons event rest ih =>
      have counted : Keyed { state with
          lastSeq := event.2.getD state.lastSeq
          recordsApplied := state.recordsApplied + 1 } :=
        ⟨keyed.orders, keyed.builders, keyed.bars, keyed.configured⟩
      exact ih (counted.applyRecord event.1)

/-! ## One text for one state -/

theorem book_of_get? {book : Book} {symbolId : Int} (found : state.books.get? symbolId = some book) :
    state.book symbolId = book := Dict.getD_of_get? _ found

theorem Alike.restingBooks (alike : left.Alike right) (keyed : right.Keyed) :
    left.restingBooks.Same right.restingBooks := by
  intro symbolId
  have known := alike.known symbolId
  simp only [MarketState.restingBooks, Dict.get?_mapValues]
  simp only [Dict.contains] at known
  cases first : left.books.get? symbolId with
  | none =>
      rw [first, Option.isSome_none, eq_comm, Option.isSome_eq_false_iff,
        Option.isNone_iff_eq_none] at known
      rw [known]
  | some book =>
      rw [first, Option.isSome_some, eq_comm, Option.isSome_iff_exists] at known
      obtain ⟨other, second⟩ := known
      have same := alike.books symbolId
      have own := keyed.orders symbolId
      rw [book_of_get? first, book_of_get? second] at same
      rw [book_of_get? second] at own
      rw [second, Option.map_some, Option.map_some]
      refine congrArg some (canonical_eq ?_ ?_).symm
      · exact (List.mergeSort_perm _ _).trans
          (same.values_perm.symm.trans (List.mergeSort_perm _ _).symm)
      · intro early earlyMember late lateMember ranked
        obtain ⟨earlyId, earlyFound⟩ := Dict.mem_values_iff.mp (List.mem_mergeSort.mp earlyMember)
        obtain ⟨lateId, lateFound⟩ := Dict.mem_values_iff.mp (List.mem_mergeSort.mp lateMember)
        rw [← own earlyId early earlyFound] at earlyFound
        rw [← own lateId late lateFound, ← ranked, earlyFound] at lateFound
        exact Option.some.inj lateFound

theorem mem_openBars {symbolId width : Int} {bar : Bar} :
    ((symbolId, width), bar) ∈ state.openBars ↔
      ∃ builder, state.builder? symbolId width = some builder ∧ builder.current = some bar := by
  simp only [openBars, List.mem_flatMap, List.mem_filterMap, Option.map_eq_some_iff, Prod.mk.injEq]
  constructor
  · rintro ⟨⟨owner, bars⟩, barsMember, ⟨seconds, builder⟩, member, _, current, ⟨rfl, rfl⟩, rfl⟩
    have stored : state.barSet owner = bars :=
      Dict.getD_of_get? _ (Dict.get?_eq_some_iff.mpr barsMember)
    refine ⟨builder, ?_, current⟩
    rw [builder?, stored, BarSet.builder?, dif_pos seconds.2]
    exact Dict.get?_eq_some_iff.mpr member
  · rintro ⟨builder, found, current⟩
    cases stored : state.bars.get? symbolId with
    | none =>
        rw [builder?, barSet, Dict.getD, stored, Option.getD_none] at found
        obtain ⟨positive, rfl⟩ := BarSet.builder?_new found
        cases current
    | some bars =>
        rw [builder?, barSet, Dict.getD_of_get? _ stored, BarSet.builder?] at found
        split at found
        · rename_i positive
          exact ⟨(symbolId, bars), Dict.get?_eq_some_iff.mp stored, (⟨width, positive⟩, builder),
            Dict.get?_eq_some_iff.mp found, bar, current, ⟨rfl, rfl⟩, rfl⟩
        · cases found

theorem openBars_distinct (state : MarketState) : (state.openBars.map Prod.fst).Nodup := by
  have symbols := state.bars.unique
  rw [List.Nodup, List.pairwise_map] at symbols ⊢
  refine List.pairwise_flatMap.mpr ⟨?_, symbols.imp ?_⟩
  · intro bars _
    have widths := bars.2.builders.unique
    rw [List.Nodup, List.pairwise_map] at widths
    refine widths.filterMap _ ?_
    intro first second apart early earlyMade late lateMade same
    obtain ⟨_, -, rfl⟩ := Option.map_eq_some_iff.mp earlyMade
    obtain ⟨_, -, rfl⟩ := Option.map_eq_some_iff.mp lateMade
    exact apart (Subtype.ext (Prod.mk.inj same).2)
  · intro first second apart early earlyMember late lateMember same
    obtain ⟨_, -, earlyMade⟩ := List.mem_filterMap.mp earlyMember
    obtain ⟨_, -, lateMade⟩ := List.mem_filterMap.mp lateMember
    obtain ⟨_, -, rfl⟩ := Option.map_eq_some_iff.mp earlyMade
    obtain ⟨_, -, rfl⟩ := Option.map_eq_some_iff.mp lateMade
    exact apart (Prod.mk.inj same).1

theorem openBars_apart (state : MarketState) :
    ∀ first ∈ state.openBars, ∀ second ∈ state.openBars,
      toLex first.1 = toLex second.1 → first = second := fun _ firstMember _ secondMember same =>
  List.inj_on_of_nodup_map state.openBars_distinct firstMember secondMember (toLex.injective same)

theorem Alike.openBars_perm (alike : left.Alike right) : left.openBars.Perm right.openBars := by
  refine (List.perm_ext_iff_of_nodup (List.Nodup.of_map _ left.openBars_distinct)
    (List.Nodup.of_map _ right.openBars_distinct)).mpr ?_
  rintro ⟨⟨symbolId, width⟩, bar⟩
  have shown : ∀ state : MarketState, (∃ builder, state.builder? symbolId width = some builder ∧
      builder.current = some bar) ↔ ∃ builder,
        (state.builder? symbolId width).map (·.ongoing) = some builder ∧
        builder.current = some bar := by
    intro state
    cases state.builder? symbolId width <;> simp [BarBuilder.ongoing]
  rw [mem_openBars, mem_openBars, shown, shown, alike.builders]

theorem Alike.dumpState_eq (alike : left.Alike right) (keyed : right.Keyed) :
    left.dumpState = right.dumpState := by
  have books : canonical (·.1) left.restingBooks.entries =
      canonical (·.1) right.restingBooks.entries :=
    canonical_eq (alike.restingBooks keyed).entries_perm left.restingBooks.entries_apart
  have bars : canonical (fun entry => toLex entry.1) left.openBars =
      canonical (fun entry => toLex entry.1) right.openBars :=
    canonical_eq alike.openBars_perm left.openBars_apart
  rw [dumpState, dumpState, document, document, books, bars, alike.trades, alike.lastSeq,
    alike.recordsApplied]

/-! ## The round trip -/

theorem ofBookRow_bookRow (entry : Int × List RestingOrder) :
    ofBookRow (bookRow entry) = some entry := by
  have orders := @Json.mapM_map _ _ _ RestingOrder.row RestingOrder.ofRow id entry.2
    fun _ _ => rfl
  rw [List.map_id] at orders
  simp [ofBookRow, bookRow, orders]

theorem ofBarRow_barRow {entry : (Int × Int) × Bar} (symbol : entry.2.symbolId = entry.1.1)
    (width : entry.2.bucketSeconds = entry.1.2) : ofBarRow (barRow entry) = some entry.2 := by
  simp [ofBarRow, barRow, ← symbol, ← width]

/-- What a checkpoint's row makes of the book of its symbol. -/
def reloaded (entry : Int × List RestingOrder) (found : Option Book) : Option Book :=
  let book := found.getD (.new entry.1)
  some { book with
    orders := entry.2.foldl (fun orders order => orders.set order.orderId order) book.orders }

theorem get?_loadBook (state : MarketState) (entry : Int × List RestingOrder) (symbolId : Int) :
    (state.loadBook entry).books.get? symbolId =
      if symbolId = entry.1 then reloaded entry (state.books.get? symbolId)
      else state.books.get? symbolId := by
  simp only [loadBook, Dict.get?_set]
  split
  · rename_i same
    rw [same]
    rfl
  · rfl

theorem foldl_loadBook (state : MarketState) (entries : List (Int × List RestingOrder)) :
    (entries.foldl loadBook state).barWidths = state.barWidths ∧
    (entries.foldl loadBook state).tape = state.tape ∧
    (entries.foldl loadBook state).lastSeq = state.lastSeq ∧
    (entries.foldl loadBook state).recordsApplied = state.recordsApplied := by
  induction entries generalizing state with
  | nil => exact ⟨rfl, rfl, rfl, rfl⟩
  | cons entry rest ih => exact ih (state.loadBook entry)

theorem builder?_loadBar (state : MarketState) (bar : Bar) (place : Int × Int) :
    (state.loadBar bar).builder? place.1 place.2 =
      if place = (bar.symbolId, bar.bucketSeconds) then
        (state.builder? place.1 place.2).map fun builder => { builder with current := some bar }
      else state.builder? place.1 place.2 := by
  obtain ⟨symbolId, width⟩ := place
  simp only [builder?, barSet, loadBar, Dict.getD_set, Prod.mk.injEq]
  by_cases symbol : symbolId = bar.symbolId
  · subst symbol
    simp only [if_true, true_and]
    exact BarSet.builder?_load ..
  · simp only [symbol, if_false, false_and]

theorem foldl_loadBar (state : MarketState) (bars : List Bar) :
    (bars.foldl loadBar state).books = state.books ∧
    (bars.foldl loadBar state).tape = state.tape ∧
    (bars.foldl loadBar state).lastSeq = state.lastSeq ∧
    (bars.foldl loadBar state).recordsApplied = state.recordsApplied := by
  induction bars generalizing state with
  | nil => exact ⟨rfl, rfl, rfl, rfl⟩
  | cons bar rest ih => exact ih (state.loadBar bar)

/-- The books a checkpoint lists, in a state that had none. -/
theorem Keyed.loadBooks (keyed : state.Keyed) {blank : MarketState} (none : blank.books = .empty) :
    (∀ symbolId, ((canonical (·.1) state.restingBooks.entries).foldl loadBook
      blank).books.contains symbolId = state.books.contains symbolId) ∧
    ∀ symbolId, (((canonical (·.1) state.restingBooks.entries).foldl loadBook
      blank).book symbolId).orders.Same (state.book symbolId).orders := by
  have listed := canonical_perm (·.1) state.restingBooks.entries
  have distinct : ((canonical (·.1) state.restingBooks.entries).map Prod.fst).Nodup :=
    (listed.map Prod.fst).nodup_iff.mpr state.restingBooks.unique
  obtain ⟨written, kept⟩ := @foldl_rewrites _ _ _ _ _ loadBook _
    (fun state symbolId => state.books.get? symbolId) reloaded get?_loadBook _ distinct blank
  have each : ∀ symbolId, ((canonical (·.1) state.restingBooks.entries).foldl loadBook
      blank).books.get? symbolId = (state.books.get? symbolId).map fun book =>
        ⟨symbolId, .ofEntries ((canonical (·.orderId) book.resting).map fun order =>
          (order.orderId, order))⟩ := by
    intro symbolId
    have resting : state.restingBooks.get? symbolId = (state.books.get? symbolId).map fun book =>
        canonical (·.orderId) book.resting := Dict.get?_mapValues ..
    cases found : state.books.get? symbolId with
    | none =>
        rw [found, Option.map_none] at resting
        rw [kept symbolId, none]
        · rfl
        · intro member
          exact Dict.get?_eq_none_iff.mp resting ((listed.map Prod.fst).mem_iff.mp member)
    | some book =>
        rw [found, Option.map_some] at resting
        have member := listed.mem_iff.mpr (Dict.get?_eq_some_iff.mp resting)
        rw [written _ member, none]
        simp [reloaded, Dict.ofEntries, List.foldl_map, Book.new]
  constructor
  · intro symbolId
    rw [Dict.contains, Dict.contains, each, Option.isSome_map]
  · intro symbolId
    rw [book, book, Dict.getD, Dict.getD, each]
    cases found : state.books.get? symbolId with
    | none => exact .refl _
    | some book =>
        have own := keyed.orders symbolId
        rw [book_of_get? found] at own
        refine Dict.ofEntries_same ?_
        refine (((canonical_perm _ _).trans (List.mergeSort_perm _ _)).map _).trans ?_
        rw [Dict.values, List.map_map]
        refine List.Perm.of_eq ((List.map_congr_left fun entry member => ?_).trans (List.map_id _))
        exact Prod.ext (own entry.1 entry.2 (Dict.get?_eq_some_iff.mpr member)) rfl

/-- The open bars a checkpoint lists, in a state that had none. -/
theorem Keyed.loadBars (keyed : state.Keyed) {blank : MarketState} (none : blank.bars = .empty)
    (widths : blank.barWidths = state.barWidths) (symbolId width : Int) :
    ((((canonical (fun entry => toLex entry.1) state.openBars).map Prod.snd).foldl loadBar
      blank).builder? symbolId width).map (·.ongoing) =
        (state.builder? symbolId width).map (·.ongoing) := by
  have listed := canonical_perm (fun entry => toLex entry.1) state.openBars
  have places : ((canonical (fun entry => toLex entry.1) state.openBars).map Prod.snd).map
      (fun bar => (bar.symbolId, bar.bucketSeconds)) =
        (canonical (fun entry => toLex entry.1) state.openBars).map Prod.fst := by
    rw [List.map_map]
    apply List.map_congr_left
    rintro ⟨⟨owner, seconds⟩, bar⟩ member
    obtain ⟨builder, found, current⟩ := mem_openBars.mp (listed.mem_iff.mp member)
    obtain ⟨symbol, own⟩ := keyed.bars owner seconds builder bar found current
    exact Prod.ext symbol own
  have distinct : (((canonical (fun entry => toLex entry.1) state.openBars).map Prod.snd).map
      fun bar => (bar.symbolId, bar.bucketSeconds)).Nodup := by
    rw [places]
    exact (listed.map Prod.fst).nodup_iff.mpr state.openBars_distinct
  obtain ⟨written, kept⟩ := @foldl_rewrites _ _ _ _ _ loadBar
    (fun bar => (bar.symbolId, bar.bucketSeconds)) (fun state place => state.builder? place.1 place.2)
    (fun bar => Option.map fun builder => { builder with current := some bar })
    builder?_loadBar _ distinct blank
  have fresh : blank.builder? symbolId width =
      (BarSet.new symbolId state.barWidths).builder? width := by
    rw [builder?, barSet, none, widths]
    rfl
  have configured := keyed.configured symbolId width
  rw [← fresh] at configured
  -- No bar is listed for a builder that has none open.
  have unlisted : (∀ builder bar, state.builder? symbolId width = some builder →
      builder.current ≠ some bar) → (((canonical (fun entry => toLex entry.1)
        state.openBars).map Prod.snd).foldl loadBar blank).builder? symbolId width =
          blank.builder? symbolId width := by
    intro idle
    refine kept (symbolId, width) ?_
    rw [places]
    intro member
    obtain ⟨⟨place, bar⟩, entryMember, same⟩ := List.mem_map.mp member
    cases same
    obtain ⟨builder, found, current⟩ := mem_openBars.mp (listed.mem_iff.mp entryMember)
    exact idle builder bar found current
  cases found : state.builder? symbolId width with
  | none =>
      rw [found, Option.isSome_none, eq_comm, Option.isSome_eq_false_iff,
        Option.isNone_iff_eq_none] at configured
      rw [unlisted (fun builder bar present => by rw [found] at present; cases present), configured]
  | some builder =>
      obtain ⟨symbol, own⟩ := keyed.builders symbolId width builder found
      rw [found, Option.isSome_some, eq_comm, Option.isSome_iff_exists] at configured
      obtain ⟨made, present⟩ := configured
      obtain ⟨positive, rfl⟩ := BarSet.builder?_new (fresh ▸ present)
      have seconds : builder.bucketSeconds = ⟨width, positive⟩ := Subtype.ext own
      cases current : builder.current with
      | none =>
          rw [unlisted, present]
          · simp only [Option.map_some, BarBuilder.ongoing, BarBuilder.new, symbol, seconds, current]
          · intro other bar same still
            rw [found] at same
            cases same
            rw [current] at still
            cases still
      | some bar =>
          obtain ⟨barSymbol, barWidth⟩ := keyed.bars symbolId width builder bar found current
          have member := List.mem_map_of_mem (f := Prod.snd)
            (listed.mem_iff.mpr (mem_openBars.mpr ⟨builder, found, current⟩))
          have loaded := written bar member
          simp only [barSymbol, barWidth] at loaded
          rw [loaded, present]
          simp only [Option.map_some, BarBuilder.ongoing, BarBuilder.new, symbol, seconds, current]

theorem Keyed.restore (keyed : state.Keyed) :
    ((new state.barWidths).restore state.lastSeq state.recordsApplied state.tape.total
      (canonical (·.1) state.restingBooks.entries)
      ((canonical (fun entry => toLex entry.1) state.openBars).map Prod.snd)).Alike state := by
  let counted : MarketState := { new state.barWidths with
    lastSeq := state.lastSeq
    recordsApplied := state.recordsApplied
    tape := { Tape.new with total := state.tape.total }
    books := .empty }
  obtain ⟨known, books⟩ := @Keyed.loadBooks state keyed counted rfl
  obtain ⟨widths, tape, lastSeq, recordsApplied⟩ :=
    foldl_loadBook counted (canonical (·.1) state.restingBooks.entries)
  have trades : ((canonical (·.1) state.restingBooks.entries).foldl loadBook counted).tape.total =
      state.tape.total := by
    rw [tape]
  have bars := @Keyed.loadBars state keyed { (canonical (·.1) state.restingBooks.entries).foldl
    loadBook counted with bars := .empty } rfl widths
  obtain ⟨sameBooks, sameTape, sameSeq, sameCount⟩ :=
    foldl_loadBar { (canonical (·.1) state.restingBooks.entries).foldl loadBook counted with
      bars := .empty } ((canonical (fun entry => toLex entry.1) state.openBars).map Prod.snd)
  refine ⟨fun symbolId => ?_, fun symbolId => ?_, bars,
    (congrArg Tape.total sameTape).trans trades, sameSeq.trans lastSeq,
    sameCount.trans recordsApplied⟩
  · exact (congrArg (Dict.contains · symbolId) sameBooks).trans (known symbolId)
  · refine Eq.mp (congrArg (fun books : Dict Int Book =>
      (books.getD symbolId (.new symbolId)).orders.Same (state.book symbolId).orders)
      sameBooks.symm) (books symbolId)

/-- A checkpoint gives back the state it was taken of. -/
theorem loadState_dumpState (keyed : state.Keyed) :
    ∃ loaded, loadState state.barWidths state.dumpState = some loaded ∧ loaded.Alike state := by
  have books := @Json.mapM_map _ _ _ bookRow ofBookRow id
    (canonical (·.1) state.restingBooks.entries) fun entry _ => ofBookRow_bookRow entry
  rw [List.map_id] at books
  have bars := @Json.mapM_map _ _ _ barRow ofBarRow Prod.snd
    (canonical (fun entry => toLex entry.1) state.openBars) (by
      rintro ⟨⟨symbolId, width⟩, bar⟩ member
      obtain ⟨builder, found, current⟩ :=
        mem_openBars.mp ((canonical_perm _ _).mem_iff.mp member)
      obtain ⟨symbol, own⟩ := keyed.bars symbolId width builder bar found current
      exact ofBarRow_barRow symbol own)
  have fields : ∀ name, Json.field? state.document name =
      (List.find? (fun field => field.1 = name) [
        (Names.lastSeq, Json.str (Json.streamIdText state.lastSeq)),
        (Names.recordsApplied, Json.int state.recordsApplied),
        (Names.trades, Json.int state.tape.total),
        (Names.books, Json.arr ((canonical (·.1) state.restingBooks.entries).map bookRow)),
        (Names.bars, Json.arr ((canonical (fun entry => toLex entry.1)
          state.openBars).map barRow))]).map Prod.snd := fun _ => rfl
  refine ⟨(new state.barWidths).restore state.lastSeq state.recordsApplied state.tape.total
    (canonical (·.1) state.restingBooks.entries)
    ((canonical (fun entry => toLex entry.1) state.openBars).map Prod.snd), ?_, ?_⟩
  · rw [loadState, dumpState, Json.loads_dumps, Option.bind_some, ofDocument]
    simp +decide [fields, Json.toInt?, Json.toItems?, books, bars]
  · exact keyed.restore

/-- Interrupted anywhere and resumed from its checkpoint, fan-out ends with the same bytes. -/
theorem checkpoint_is_invisible (barWidths : List BarWidth)
    (before after : List (Outbound × Option StreamId)) :
    ∃ loaded, loadState barWidths ((new barWidths).applyAll before).dumpState = some loaded ∧
      (loaded.applyAll after).dumpState =
        ((new barWidths).applyAll (before ++ after)).dumpState := by
  have keyed := (new_keyed barWidths).applyAll before
  obtain ⟨loaded, read, alike⟩ := loadState_dumpState keyed
  rw [barWidths_applyAll] at read
  refine ⟨loaded, read, ?_⟩
  have whole : (new barWidths).applyAll (before ++ after) =
      ((new barWidths).applyAll before).applyAll after := List.foldl_append
  rw [whole]
  exact (alike.applyAll after).dumpState_eq (keyed.applyAll after)

end MarketState

end QuantArena.Fanout
