import QuantArena.Fanout.Checkpoint
import QuantArena.Fanout.Reading

/-! The sequence of stream ids on one channel: prints carry the id of their own record, bars
the position of the service at the tick that sends them. -/

set_option autoImplicit false

namespace QuantArena.Fanout

open Foundations Contracts

/-! ## Recovery -/

namespace Service

/-- The state that `recover` begins with: what the checkpoint holds, at its position. -/
def restored (barWidths : List BarWidth) : Option (StreamId × List Char) → Option MarketState
  | none => some (.new barWidths)
  | some (position, data) => (MarketState.loadState barWidths data).map fun market =>
      { market with lastSeq := position }

/-- `recover`, which has replayed `count` records when it finds no more. -/
def recover (barWidths : List BarWidth) (stream : Stream Outbound)
    (saved : Option (StreamId × List Char)) (count : Nat) : Option Service :=
  (restored barWidths saved).map fun market =>
    let following := stream.entries.filter fun entry => market.lastSeq < entry.1
    start (market.applyAll ((following.take count).map fun entry => (entry.2, some entry.1)))
      (following.drop count)

end Service

/-! ## What waits for a tick -/

/-- Prints wait in the order of their ids, none past the position, and the records to come are
past it. All ids are of a kind. -/
structure Stamped (kind : StreamId → Prop) (market : MarketState)
    (ahead : List (StreamId × Outbound)) : Prop where
  ascending : ∀ symbolId, ((market.tape.pending.getD symbolId []).map (·.seq)).Pairwise (· < ·)
  reached : ∀ symbolId, ∀ trade ∈ market.tape.pending.getD symbolId [],
    trade.seq ≤ market.lastSeq ∧ kind trade.seq
  position : kind market.lastSeq
  past : ∀ entry ∈ ahead, market.lastSeq < entry.1 ∧ kind entry.1
  sorted : ahead.Pairwise fun early late => early.1 < late.1

namespace MarketState

variable {market : MarketState}

@[simp] theorem withBook_tape (market : MarketState) (symbolId : Int) (change : Book → Book) :
    (market.withBook symbolId change).tape = market.tape := rfl

@[simp] theorem withBook_lastSeq (market : MarketState) (symbolId : Int) (change : Book → Book) :
    (market.withBook symbolId change).lastSeq = market.lastSeq := rfl

@[simp] theorem withTrade_lastSeq (market : MarketState) (fill : Fill) (seq : StreamId) :
    (market.withTrade fill seq).lastSeq = market.lastSeq := rfl

theorem apply_lastSeq (market : MarketState) (record : Outbound) (streamId : StreamId) :
    (market.apply record (some streamId)).lastSeq = streamId := by
  cases record <;> rfl

/-- What a record adds to the prints that wait. -/
theorem apply_pending (market : MarketState) (record : Outbound) (streamId : StreamId)
    (symbolId : Int) :
    ∃ added : List Trade, (added = [] ∨ ∃ trade : Trade, added = [trade] ∧ trade.seq = streamId) ∧
      (market.apply record (some streamId)).tape.pending.getD symbolId [] =
        market.tape.pending.getD symbolId [] ++ added := by
  cases record with
  | fill fill =>
      simp only [apply, applyRecord, withTrade, withBook, Tape.record, Option.getD_some,
        Dict.getD_set]
      split
      · rename_i same
        exact ⟨_, .inr ⟨_, rfl, rfl⟩, by rw [same]⟩
      · exact ⟨[], .inl rfl, by simp⟩
  | _ => exact ⟨[], .inl rfl, by simp [apply, applyRecord]⟩

end MarketState

variable {kind : StreamId → Prop}

theorem Stamped.apply {market : MarketState} {streamId : StreamId} {record : Outbound}
    {rest : List (StreamId × Outbound)} (stamped : Stamped kind market ((streamId, record) :: rest)) :
    Stamped kind (market.apply record (some streamId)) rest := by
  obtain ⟨later, own⟩ := stamped.past _ List.mem_cons_self
  refine ⟨fun symbolId => ?_, fun symbolId trade member => ?_, ?_, fun entry member => ?_,
    (List.pairwise_cons.mp stamped.sorted).2⟩
  · obtain ⟨added, origin, waits⟩ := market.apply_pending record streamId symbolId
    rw [waits, List.map_append, List.pairwise_append]
    refine ⟨stamped.ascending symbolId, ?_, fun early before next after => ?_⟩
    · obtain rfl | ⟨trade, rfl, -⟩ := origin
      · exact .nil
      · exact List.pairwise_singleton _ _
    · obtain ⟨trade, member, rfl⟩ := List.mem_map.mp before
      obtain rfl | ⟨new, rfl, stamp⟩ := origin
      · cases after
      · rw [List.map_singleton, List.mem_singleton] at after
        rw [after, stamp]
        exact (stamped.reached symbolId trade member).1.trans_lt later
  · obtain ⟨added, origin, waits⟩ := market.apply_pending record streamId symbolId
    rw [MarketState.apply_lastSeq]
    rw [waits, List.mem_append] at member
    cases member with
    | inl old =>
        have before := stamped.reached symbolId trade old
        exact ⟨before.1.trans later.le, before.2⟩
    | inr new =>
        obtain rfl | ⟨only, rfl, stamp⟩ := origin
        · cases new
        · rw [List.mem_singleton.mp new]
          exact ⟨stamp.le, stamp ▸ own⟩
  · rw [MarketState.apply_lastSeq]
    exact own
  · rw [MarketState.apply_lastSeq]
    exact ⟨(List.pairwise_cons.mp stamped.sorted).1 entry member,
      (stamped.past entry (List.mem_cons_of_mem _ member)).2⟩

theorem Stamped.applyAll {market : MarketState} {entries rest : List (StreamId × Outbound)}
    (stamped : Stamped kind market (entries ++ rest)) :
    Stamped kind (market.applyAll (entries.map fun entry => (entry.2, some entry.1))) rest := by
  induction entries generalizing market with
  | nil => exact stamped
  | cons entry entries ih => exact ih stamped.apply

theorem Stamped.drained {market after : MarketState} {settings : Settings}
    {ahead : List (StreamId × Outbound)} (stamped : Stamped kind market ahead)
    (drained : Conflator.Drained settings market after) : Stamped kind after ahead := by
  have waits : ∀ symbolId, after.tape.pending.getD symbolId [] = [] ∨
      after.tape.pending.getD symbolId [] = market.tape.pending.getD symbolId [] := by
    intro symbolId
    by_cases listed : symbolId ∈ settings.symbols.listed.map (·.symbolId)
    · obtain ⟨symbol, member, rfl⟩ := List.mem_map.mp listed
      exact .inl (drained.listed symbol member)
    · exact .inr (drained.others symbolId listed)
  refine ⟨fun symbolId => ?_, fun symbolId trade member => ?_, drained.lastSeq ▸ stamped.position,
    fun entry member => ?_, stamped.sorted⟩
  · obtain none | same := waits symbolId
    · rw [none]
      exact .nil
    · rw [same]
      exact stamped.ascending symbolId
  · obtain none | same := waits symbolId
    · rw [none] at member
      cases member
    · rw [drained.lastSeq]
      exact stamped.reached symbolId trade (same ▸ member)
  · rw [drained.lastSeq]
    exact stamped.past entry member

/-! ## The start -/

namespace MarketState

theorem foldl_tape {α : Type} {load : MarketState → α → MarketState}
    (keeps : ∀ state item, (load state item).tape = state.tape) (items : List α)
    (state : MarketState) : (items.foldl load state).tape = state.tape := by
  induction items generalizing state with
  | nil => rfl
  | cons item rest ih => exact (ih _).trans (keeps state item)

theorem restore_tape (state : MarketState) (lastSeq : StreamId) (recordsApplied trades : Int)
    (books : List (Int × List RestingOrder)) (bars : List Bar) :
    (state.restore lastSeq recordsApplied trades books bars).tape =
      { state.tape with total := trades } := by
  exact (@foldl_tape _ loadBar (fun _ _ => rfl) bars _).trans
    (@foldl_tape _ loadBook (fun _ _ => rfl) books _)

/-- A checkpoint holds no print that waits. -/
theorem loadState_pending {barWidths : List BarWidth} {data : List Char} {market : MarketState}
    (read : loadState barWidths data = some market) : market.tape.pending = .empty := by
  obtain ⟨raw, -, document⟩ := Option.bind_eq_some_iff.mp read
  simp only [ofDocument, bind, pure, Option.bind_eq_some_iff, Option.some.injEq] at document
  obtain ⟨_, _, lastSeq, _, _, _, applied, _, _, _, trades, _, _, _, _, _, books, _, _, _, _, _,
    bars, _, same⟩ := document
  rw [← same, restore_tape]
  rfl

end MarketState

namespace Service

/-- Where `recover` begins. -/
def position (saved : Option (StreamId × List Char)) : StreamId := (saved.map (·.1)).getD .start

theorem restored_cases {barWidths : List BarWidth} {saved : Option (StreamId × List Char)}
    {market : MarketState} (read : restored barWidths saved = some market) :
    market.tape.pending = .empty ∧ market.lastSeq = position saved := by
  cases saved with
  | none =>
      cases read
      exact ⟨rfl, rfl⟩
  | some checkpoint =>
      obtain ⟨loaded, data, rfl⟩ := Option.map_eq_some_iff.mp read
      have waits : loaded.tape.pending = .empty := MarketState.loadState_pending data
      exact ⟨waits, rfl⟩

/-- The service as it has recovered, with nobody connected. -/
theorem recover_stamped {barWidths : List BarWidth} {stream : Stream Outbound}
    {saved : Option (StreamId × List Char)} {count : Nat} {service : Service}
    (kinds : kind (position saved) ∧ ∀ entry ∈ stream.entries, kind entry.1)
    (recovered : recover barWidths stream saved count = some service) :
    service = start service.market service.ahead ∧ Stamped kind service.market service.ahead := by
  obtain ⟨market, restored, rfl⟩ := Option.map_eq_some_iff.mp recovered
  obtain ⟨empty, lastSeq⟩ := restored_cases restored
  have stamped : Stamped kind market
      (stream.entries.filter fun entry => market.lastSeq < entry.1) := by
    refine ⟨fun symbolId => ?_, fun symbolId trade member => ?_, lastSeq ▸ kinds.1,
      fun entry member => ?_, stream.ascending.filter _⟩
    · rw [empty]
      exact .nil
    · rw [empty] at member
      cases member
    · obtain ⟨inside, later⟩ := List.mem_filter.mp member
      exact ⟨by simpa using later, kinds.2 entry inside⟩
  rw [← List.take_append_drop count (stream.entries.filter _)] at stamped
  exact ⟨rfl, stamped.applyAll⟩

end Service

/-! ## The ids of one channel -/

/-- The id that a print or a bar of the channel carries. -/
def stampOn (channel : Channel) : Message → Option StreamId
  | .tapePrint ch seq _ _ _ _ => if ch = channel then some seq else none
  | .barClose ch seq _ _ _ _ _ _ => if ch = channel then some seq else none
  | _ => none

/-- The ids a tick would send on the channel to whoever holds it. -/
def outstanding (settings : Settings) (market : MarketState) (channel : Channel) : List StreamId :=
  (Conflator.dueTape settings market {channel} ++
    Conflator.dueBars settings market {channel}).filterMap (stampOn channel)

theorem stampOn_public (channel : Channel) : Public (stampOn channel) := by
  intro frame kind
  cases frame with
  | tapePrint _ _ _ _ _ _ => exact absurd kind (by simp [Message.IsPrivate, Message.IsReply])
  | barClose _ _ _ _ _ _ _ _ => exact absurd kind (by simp [Message.IsPrivate, Message.IsReply])
  | _ => rfl

namespace Conflator

variable {settings : Settings} {market : MarketState} {halt : HaltView} {tsNs : Int}

theorem duePrints_stamps (market : MarketState) (symbol : Symbol) (channel : Channel)
    (channels : Finset Channel) : (duePrints market symbol channels).filterMap (stampOn channel) =
      if channel ∈ channels ∧ tapeChannel symbol = channel then
        (market.tape.pending.getD symbol.symbolId []).map (·.seq) else [] := by
  have each : ∀ trades : List Trade, (trades.map (Messages.tapePrint symbol)).filterMap
      (stampOn channel) =
        if tapeChannel symbol = channel then trades.map (·.seq) else [] := by
    intro trades
    induction trades with
    | nil => simp
    | cons trade rest ih =>
        by_cases same : tapeChannel symbol = channel
        · simp only [same, if_true] at ih
          simp [ih, stampOn, Messages.tapePrint, same]
        · simp only [same, if_false] at ih
          simp [ih, stampOn, Messages.tapePrint, same]
  unfold duePrints
  by_cases same : tapeChannel symbol = channel
  · by_cases held : channel ∈ channels
    · simp only [same, held, if_true, and_self, each]
    · simp [same, held]
  · split
    · simp only [each, same, if_false, and_false]
    · simp [same]

/-- The channel that a bar is sent on, if its symbol is listed. -/
def barChannel? (settings : Settings) (bar : Bar) : Option Channel :=
  (settings.symbols.listed.find? (·.symbolId = bar.symbolId)).map fun symbol =>
    barsChannel symbol bar.bucketSeconds settings.realSecondsPerSimulatedMinute

theorem dueBar_stamps (settings : Settings) (market : MarketState) (bar : Bar) (channel : Channel)
    (channels : Finset Channel) : (dueBar settings market bar channels).filterMap (stampOn channel) =
      if channel ∈ channels ∧ barChannel? settings bar = some channel then [market.lastSeq]
      else [] := by
  unfold dueBar barChannel?
  cases settings.symbols.listed.find? (·.symbolId = bar.symbolId) with
  | none => simp
  | some symbol =>
      by_cases same : barsChannel symbol bar.bucketSeconds
          settings.realSecondsPerSimulatedMinute = channel
      · by_cases held : channel ∈ channels
        · simp [same, held, stampOn, Messages.barClose]
        · simp [same, held]
      · by_cases held : barsChannel symbol bar.bucketSeconds
            settings.realSecondsPerSimulatedMinute ∈ channels
        · simp [same, held, stampOn, Messages.barClose]
        · simp [same, held]

theorem dueHalt_stamps (halt : HaltView) (conflator : Conflator) (channel : Channel) :
    (dueHalt halt conflator).filterMap (stampOn channel) = [] := by
  unfold dueHalt haltMessage
  split
  · rfl
  · split
    · rfl
    · rfl

theorem dueBooks_stamps (channel : Channel) (channels fresh : Finset Channel) :
    (dueBooks settings market tsNs channels fresh).filterMap (stampOn channel) = [] := by
  refine List.filterMap_eq_nil_iff.mpr fun message member => ?_
  obtain ⟨symbol, -, quotes⟩ := List.mem_flatMap.mp member
  unfold dueSymbolBook at quotes
  split at quotes
  · cases quotes
  · obtain ⟨tier, -, quotes⟩ := List.mem_flatMap.mp quotes
    split at quotes
    · rw [List.mem_singleton.mp quotes]
      cases tier with
      | l1 => rfl
      | l2 => rfl
    · cases quotes

/-- The ids that a tick sends on a channel: those outstanding, to whoever holds it. -/
theorem due_stamps (conflator : Conflator) (channel : Channel) (channels fresh : Finset Channel) :
    (due settings market halt tsNs conflator channels fresh).filterMap (stampOn channel) =
      if channel ∈ channels then outstanding settings market channel else [] := by
  simp only [due, List.filterMap_append, dueHalt_stamps, dueBooks_stamps, List.nil_append,
    outstanding, dueTape, dueBars, List.filterMap_flatMap, duePrints_stamps, dueBar_stamps,
    Finset.mem_singleton, true_and]
  split
  · rename_i held
    simp only [held, true_and]
  · rename_i absent
    simp [absent]

end Conflator

/-- The closed bars that wait on a channel. -/
def closedOn (settings : Settings) (market : MarketState) (channel : Channel) : List Bar :=
  market.closedBars.filter fun bar => Conflator.barChannel? settings bar = some channel

/-- What waits to be sent on a channel: prints under their own ids, or bars that all carry the
position. -/
theorem outstanding_eq (settings : Settings) (market : MarketState) (channel : Channel) :
    outstanding settings market channel = (settings.symbols.listed.flatMap fun symbol =>
      if tapeChannel symbol = channel then
        (market.tape.pending.getD symbol.symbolId []).map (·.seq) else []) ++
      (closedOn settings market channel).map fun _ => market.lastSeq := by
  have bars : ∀ bars : List Bar, (bars.flatMap fun bar =>
      if Conflator.barChannel? settings bar = some channel then [market.lastSeq] else []) =
      (bars.filter fun bar => Conflator.barChannel? settings bar = some channel).map
        fun _ => market.lastSeq := by
    intro bars
    induction bars with
    | nil => rfl
    | cons bar rest ih =>
        by_cases named : Conflator.barChannel? settings bar = some channel
        · simp [ih, named]
        · simp [ih, named]
  simp only [outstanding, List.filterMap_append, Conflator.dueTape, Conflator.dueBars,
    List.filterMap_flatMap, Conflator.duePrints_stamps, Conflator.dueBar_stamps,
    Finset.mem_singleton, true_and, closedOn, bars]

theorem mem_outstanding {settings : Settings} {market : MarketState} {channel : Channel}
    {seq : StreamId} (waits : seq ∈ outstanding settings market channel) :
    (∃ symbolId, ∃ trade ∈ market.tape.pending.getD symbolId [],
      (∃ symbol ∈ settings.symbols.listed, symbol.symbolId = symbolId ∧
        tapeChannel symbol = channel) ∧ trade.seq = seq) ∨
    closedOn settings market channel ≠ [] ∧ seq = market.lastSeq := by
  rw [outstanding_eq, List.mem_append] at waits
  cases waits with
  | inl prints =>
      obtain ⟨symbol, listed, prints⟩ := List.mem_flatMap.mp prints
      split at prints
      · rename_i same
        obtain ⟨trade, member, stamp⟩ := List.mem_map.mp prints
        exact .inl ⟨symbol.symbolId, trade, member, ⟨symbol, listed, rfl, same⟩, stamp⟩
      · cases prints
  | inr closes =>
      obtain ⟨bar, member, stamp⟩ := List.mem_map.mp closes
      exact .inr ⟨List.ne_nil_of_mem member, stamp.symm⟩

/-! ## The ids a client is sent -/

theorem channelOf_cons (first : Char) (rest : Name) (parts : List Name) :
    ∃ tail, channelOf ((first :: rest) :: parts) = first :: tail := by
  cases parts with
  | nil => exact ⟨rest, by simp [channelOf, List.intercalate]⟩
  | cons part parts =>
      exact ⟨rest ++ ':' :: (List.intersperse [':'] (part :: parts)).flatten,
        by simp [channelOf, List.intercalate, List.intersperse]⟩

/-- No channel carries both prints and bars. -/
theorem tapeChannel_ne_barsChannel (symbol other : Symbol) (width ratio : Int) :
    tapeChannel symbol ≠ barsChannel other width ratio := by
  obtain ⟨tape, tapes⟩ := channelOf_cons 't' "ape".toList [symbol.name]
  obtain ⟨bars, closes⟩ := channelOf_cons 'b' "ars".toList [other.name, widthLabel width ratio]
  intro same
  have heads : 't' :: tape = 'b' :: bars := tapes.symm.trans (same.trans closes)
  exact absurd (List.head_eq_of_cons_eq heads) (by decide)

theorem tapeChannel_inj {symbol other : Symbol} (same : tapeChannel symbol = tapeChannel other) :
    symbol.name = other.name := by
  have shape : ∀ symbol : Symbol, tapeChannel symbol = "tape:".toList ++ symbol.name := fun symbol => by
    simp [tapeChannel, channelOf, List.intercalate, List.intersperse]
  rw [shape, shape] at same
  exact List.append_cancel_left same

theorem closedOn_tapeChannel (settings : Settings) (market : MarketState) (symbol : Symbol) :
    closedOn settings market (tapeChannel symbol) = [] := by
  refine List.filter_eq_nil_iff.mpr fun bar _ named => ?_
  obtain ⟨other, -, same⟩ := Option.map_eq_some_iff.mp (of_decide_eq_true named)
  exact tapeChannel_ne_barsChannel symbol other _ _ same.symm

/-- What waits on a channel is in order, if no two bars do. -/
theorem outstanding_ascending {settings : Settings} {market : MarketState}
    {ahead : List (StreamId × Outbound)} (stamped : Stamped kind market ahead) (channel : Channel)
    (single : (closedOn settings market channel).length ≤ 1) :
    (outstanding settings market channel).Pairwise (· < ·) := by
  rw [outstanding_eq]
  by_cases tape : ∃ symbol ∈ settings.symbols.listed, tapeChannel symbol = channel
  · obtain ⟨symbol, listed, rfl⟩ := tape
    have prints := flatMap_of_one (f := fun other : Symbol =>
      if tapeChannel other = tapeChannel symbol then
        (market.tape.pending.getD other.symbolId []).map (·.seq) else []) settings.symbols.names
      listed fun other _ different => if_neg fun same => different (tapeChannel_inj same)
    rw [prints, closedOn_tapeChannel, List.map_nil, List.append_nil, if_pos rfl]
    exact stamped.ascending symbol.symbolId
  · have prints : (settings.symbols.listed.flatMap fun symbol =>
        if tapeChannel symbol = channel then
          (market.tape.pending.getD symbol.symbolId []).map (·.seq) else []) = [] :=
      List.flatMap_eq_nil_iff.mpr fun symbol listed => if_neg fun same => tape ⟨symbol, listed, same⟩
    rw [prints, List.nil_append]
    cases closes : closedOn settings market channel with
    | nil => exact .nil
    | cons bar rest =>
        rw [closes, List.length_cons] at single
        have none : rest = [] := List.eq_nil_of_length_eq_zero (by omega)
        rw [none]
        exact List.pairwise_singleton _ _

/-! ## What a client has been sent -/

/-- An id that was sent on a channel, and what can still be sent there. -/
structure Behind (kind : StreamId → Prop) (settings : Settings) (market : MarketState)
    (channel : Channel) (seq : StreamId) : Prop where
  kind : kind seq
  reached : seq ≤ market.lastSeq
  prints : ∀ symbol ∈ settings.symbols.listed, tapeChannel symbol = channel →
    ∀ trade ∈ market.tape.pending.getD symbol.symbolId [], seq < trade.seq
  bars : closedOn settings market channel ≠ [] → seq < market.lastSeq

variable {settings : Settings} {market : MarketState} {channel : Channel}

theorem Behind.lt_outstanding {seq next : StreamId} (behind : Behind kind settings market channel seq)
    (waits : next ∈ outstanding settings market channel) : seq < next := by
  obtain ⟨_, trade, member, ⟨symbol, listed, rfl, same⟩, rfl⟩ | ⟨closes, rfl⟩ :=
    mem_outstanding waits
  · exact behind.prints symbol listed same trade member
  · exact behind.bars closes

theorem Behind.apply {seq streamId : StreamId} {record : Outbound}
    {rest : List (StreamId × Outbound)} (stamped : Stamped kind market ((streamId, record) :: rest))
    (behind : Behind kind settings market channel seq) :
    Behind kind settings (market.apply record (some streamId)) channel seq := by
  have later := behind.reached.trans_lt (stamped.past _ List.mem_cons_self).1
  refine ⟨behind.kind, ?_, fun symbol listed same trade member => ?_, fun _ => ?_⟩
  · rw [MarketState.apply_lastSeq]
    exact later.le
  · obtain ⟨added, origin, waits⟩ := market.apply_pending record streamId symbol.symbolId
    rw [waits, List.mem_append] at member
    cases member with
    | inl old => exact behind.prints symbol listed same trade old
    | inr new =>
        obtain rfl | ⟨only, rfl, stamp⟩ := origin
        · cases new
        · rw [List.mem_singleton.mp new, stamp]
          exact later
  · rw [MarketState.apply_lastSeq]
    exact later

/-- Once a tick is over nothing is left to send. -/
theorem Behind.of_drained {after : MarketState} {seq : StreamId} (own : kind seq)
    (reached : seq ≤ market.lastSeq) (drained : Conflator.Drained settings market after) :
    Behind kind settings after channel seq where
  kind := own
  reached := drained.lastSeq.symm ▸ reached
  prints := fun symbol listed _ trade member => by
    rw [drained.listed symbol listed] at member
    cases member
  bars := fun closes => by simp [closedOn, drained.closedBars] at closes

theorem Stamped.outstanding {ahead : List (StreamId × Outbound)} (stamped : Stamped kind market ahead)
    {seq : StreamId} (waits : seq ∈ outstanding settings market channel) :
    kind seq ∧ seq ≤ market.lastSeq := by
  obtain ⟨symbolId, trade, member, -, rfl⟩ | ⟨-, rfl⟩ := mem_outstanding waits
  · have reached := stamped.reached symbolId trade member
    exact ⟨reached.2, reached.1⟩
  · exact ⟨stamped.position, le_rfl⟩

/-- The ids of one channel among accepted frames. -/
def stamps (channel : Channel) (frames : List (Lane × Message)) : List StreamId :=
  frames.filterMap fun entry => stampOn channel entry.2

theorem stamps_append (channel : Channel) (first second : List (Lane × Message)) :
    stamps channel (first ++ second) = stamps channel first ++ stamps channel second :=
  List.filterMap_append

theorem stamps_map (channel : Channel) (lane : Lane) (frames : List Message) :
    stamps channel (frames.map (lane, ·)) = frames.filterMap (stampOn channel) := by
  simp [stamps, List.filterMap_map]

/-- The market frames of a client are the tick's, its private ones are not, and the ids on each
channel ascend. -/
structure Lined (kind : StreamId → Prop) (settings : Settings) (market : MarketState)
    (accepted : List (Lane × Message)) : Prop where
  origin : ∀ entry ∈ accepted, entry.1 = .marketData ∧ Conflator.Made settings entry.2 ∨
    entry.1 = .privateData ∧ (entry.2.IsPrivate ∨ entry.2.IsReply)
  ascending : ∀ channel, (stamps channel accepted).Pairwise (· < ·)
  behind : ∀ channel, ∀ seq ∈ stamps channel accepted, Behind kind settings market channel seq

theorem Lined.empty (kind : StreamId → Prop) (settings : Settings) (market : MarketState) :
    Lined kind settings market [] := ⟨by simp, by simp [stamps], by simp [stamps]⟩

/-- Private messages and answers add no id. -/
theorem Lined.offers {accepted : List (Lane × Message)} (lined : Lined kind settings market accepted)
    {frames : List Message} (quiet : ∀ frame ∈ frames, frame.IsPrivate ∨ frame.IsReply) :
    Lined kind settings market (accepted ++ frames.map (Lane.privateData, ·)) := by
  have same : ∀ channel, stamps channel (accepted ++ frames.map (Lane.privateData, ·)) =
      stamps channel accepted := by
    intro channel
    rw [stamps_append, stamps_map, List.filterMap_eq_nil_iff.mpr fun frame member =>
      stampOn_public channel frame (quiet frame member), List.append_nil]
  refine ⟨fun entry member => ?_, fun channel => ?_, fun channel seq member => ?_⟩
  · cases List.mem_append.mp member with
    | inl old => exact lined.origin entry old
    | inr new =>
        obtain ⟨frame, inside, rfl⟩ := List.mem_map.mp new
        exact .inr ⟨rfl, quiet frame inside⟩
  · rw [same]
    exact lined.ascending channel
  · exact lined.behind channel seq (same channel ▸ member)

/-- A tick that finds the client free and at most one closed bar on each of its channels. -/
theorem Lined.tick {halt : HaltView} {tsNs : Int} {after : MarketState} {conflator : Conflator}
    {accepted : List (Lane × Message)} {ahead : List (StreamId × Outbound)}
    {channels fresh : Finset Channel} (stamped : Stamped kind market ahead)
    (drained : Conflator.Drained settings market after) (lined : Lined kind settings market accepted)
    (single : ∀ channel ∈ channels, (closedOn settings market channel).length ≤ 1) :
    Lined kind settings after (accepted ++ (Conflator.due settings market halt tsNs conflator channels
      fresh).map (Lane.marketData, ·)) := by
  refine ⟨fun entry member => ?_, fun channel => ?_, fun channel seq member => ?_⟩
  · cases List.mem_append.mp member with
    | inl old => exact lined.origin entry old
    | inr new =>
        obtain ⟨frame, inside, rfl⟩ := List.mem_map.mp new
        exact .inl ⟨rfl, Conflator.mem_due _ _ _ _ inside⟩
  · rw [stamps_append, stamps_map, Conflator.due_stamps]
    split
    · rename_i held
      refine List.pairwise_append.mpr ⟨lined.ascending channel,
        outstanding_ascending stamped channel (single channel held), fun seq old next new => ?_⟩
      exact (lined.behind channel seq old).lt_outstanding new
    · rw [List.append_nil]
      exact lined.ascending channel
  · rw [stamps_append, stamps_map, Conflator.due_stamps, List.mem_append] at member
    cases member with
    | inl old =>
        have behind := lined.behind channel seq old
        exact .of_drained behind.kind behind.reached drained
    | inr new =>
        split at new
        · obtain ⟨own, reached⟩ := stamped.outstanding new
          exact .of_drained own reached drained
        · cases new

theorem Lined.drained {after : MarketState} {accepted : List (Lane × Message)}
    (drained : Conflator.Drained settings market after)
    (lined : Lined kind settings market accepted) : Lined kind settings after accepted :=
  ⟨lined.origin, lined.ascending, fun channel seq member =>
    have behind := lined.behind channel seq member
    .of_drained behind.kind behind.reached drained⟩

namespace Service

variable {service : Service} {id : ConnectionId}

/-- At a tick where the subscriber takes market frames, at most one closed bar waits on each
channel that it holds. -/
def OneBarEach (settings : Settings) (id : ConnectionId) (service : Service) : Action → Prop
  | .tick _ => ∀ subscriber ∈ service.hub.subscribers.get? id, subscriber.Accepting →
      ∀ channel ∈ subscriber.channels, (closedOn settings service.market channel).length ≤ 1
  | _ => True

instance (service : Service) : (action : Action) → Decidable (service.OneBarEach settings id action)
  | .tick _ => inferInstanceAs (Decidable (∀ _ ∈ _, _ → ∀ _ ∈ _, _))
  | .read | .refresh _ | .connect _ | .request _ _ | .leave _ | .resume _ | .written _
  | .broken _ => .isTrue trivial

/-- The service's ids are in order, and so are those of the connection `id`. -/
structure InStep (kind : StreamId → Prop) (settings : Settings) (id : ConnectionId)
    (service : Service) : Prop where
  stamped : Stamped kind service.market service.ahead
  lined : ∀ subscriber, service.hub.subscribers.get? id = some subscriber →
    Lined kind settings service.market subscriber.accepted

theorem step_still {action : Action} (noTick : ∀ tsNs, action ≠ .tick tsNs)
    (noRead : action ≠ .read) : (service.step settings action).market = service.market ∧
      (service.step settings action).ahead = service.ahead := by
  cases action with
  | tick tsNs => exact absurd rfl (noTick tsNs)
  | read => exact absurd rfl noRead
  | request other frame =>
      simp only [Service.step]
      split
      · exact ⟨rfl, rfl⟩
      · exact ⟨rfl, rfl⟩
  | _ => exact ⟨rfl, rfl⟩

theorem InStep.tick (sound : service.Sound) (inStep : service.InStep kind settings id) (tsNs : Int)
    (single : service.OneBarEach settings id (.tick tsNs)) :
    (service.step settings (.tick tsNs)).InStep kind settings id := by
  have ticked : Conflator.Ticked settings service.conflator service.halt service.market tsNs
      service.hub (service.step settings (.tick tsNs)).hub :=
    Conflator.tick_ticked sound.indexed service.conflator
  have drained : Conflator.Drained settings service.market
      (service.step settings (.tick tsNs)).market :=
    Conflator.tick_drained service.conflator service.hub
  refine ⟨inStep.stamped.drained drained, fun after present => ?_⟩
  rw [ticked.each id] at present
  obtain ⟨subscriber, was, rfl⟩ := Option.map_eq_some_iff.mp present
  have lined := inStep.lined subscriber was
  rw [(Conflator.ticked_kept subscriber _).2.2.2]
  by_cases accepting : subscriber.Accepting
  · rw [Subscriber.offerAll_accepted accepting]
    exact lined.tick inStep.stamped drained (single subscriber was accepting)
  · rw [Subscriber.offerAll_refused accepting]
    exact lined.drained drained

/-- Where the market stands at the same place or one record later. -/
theorem InStep.of_offers (sound : service.Sound) (inStep : service.InStep kind settings id)
    {action : Action} (noTick : ∀ tsNs, action ≠ .tick tsNs)
    (stamped : Stamped kind (service.step settings action).market
      (service.step settings action).ahead)
    (behind : ∀ channel seq, Behind kind settings service.market channel seq →
      Behind kind settings (service.step settings action).market channel seq) :
    (service.step settings action).InStep kind settings id := by
  refine ⟨stamped, fun after present => ?_⟩
  obtain ⟨userId, -, -, new⟩ | ⟨subscriber, was, moved⟩ := sound.step_cases present
  · rw [new]
    exact .empty _ _ _
  · obtain ⟨frames, quiet, accepted⟩ :=
      Subscriber.foldl_accepted_of_offers (movesFor_offers noTick id subscriber) subscriber
    have lined := inStep.lined subscriber was
    rw [moved, accepted]
    exact Lined.offers ⟨lined.origin, lined.ascending,
      fun channel seq member => behind channel seq (lined.behind channel seq member)⟩ quiet

theorem InStep.step (sound : service.Sound) (inStep : service.InStep kind settings id)
    (action : Action) (single : service.OneBarEach settings id action) :
    (service.step settings action).InStep kind settings id := by
  by_cases ticks : ∃ tsNs, action = .tick tsNs
  · obtain ⟨tsNs, rfl⟩ := ticks
    exact inStep.tick sound tsNs single
  have noTick : ∀ tsNs, action ≠ .tick tsNs := fun tsNs same => ticks ⟨tsNs, same⟩
  by_cases reads : action = .read
  · cases reads
    cases following : service.ahead with
    | nil =>
        have idle : service.step settings .read = service := by
          simp only [Service.step, Service.read, following]
        rwa [idle]
    | cons entry rest =>
        have stamped := inStep.stamped
        rw [following] at stamped
        refine inStep.of_offers sound noTick ?_ fun channel seq behind => ?_
        · simp only [Service.step, Service.read, following]
          exact stamped.apply
        · simp only [Service.step, Service.read, following]
          exact behind.apply stamped
  · obtain ⟨market, ahead⟩ := @step_still settings service _ noTick reads
    refine inStep.of_offers sound noTick ?_ fun channel seq behind => ?_
    · rw [market, ahead]
      exact inStep.stamped
    · rw [market]
      exact behind

theorem run_inStep (sound : service.Sound) (inStep : service.InStep kind settings id)
    {actions : List Action}
    (along : Along (Service.step settings) (OneBarEach settings id) service actions) :
    (actions.foldl (Service.step settings) service).InStep kind settings id := by
  induction actions generalizing service with
  | nil => exact inStep
  | cons action rest ih =>
      exact ih (sound.step settings action).1 (inStep.step sound action along.1) along.2

/-- What a client has been sent in a run from a recovery. -/
theorem recover_inStep {barWidths : List BarWidth} {stream : Stream Outbound}
    {saved : Option (StreamId × List Char)} {count : Nat}
    (kinds : kind (position saved) ∧ ∀ entry ∈ stream.entries, kind entry.1)
    (recovered : recover barWidths stream saved count = some service) (id : ConnectionId) :
    service.Sound ∧ service.Orderly ∧ service.InStep kind settings id := by
  obtain ⟨same, stamped⟩ := recover_stamped kinds recovered
  rw [same]
  refine ⟨start_sound _ _, start_orderly _ _, stamped, fun subscriber present => ?_⟩
  rw [(start_sound service.market service.ahead).counted id (Nat.zero_le id)] at present
  cases present

end Service

/-! ## What reaches the socket -/

namespace Subscriber

variable {subscriber : Subscriber Message}

theorem mem_ofLane {lane : Lane} {frame : Message} {frames : List (Lane × Message)} :
    frame ∈ ofLane lane frames ↔ (lane, frame) ∈ frames := by
  simp only [ofLane, List.mem_filterMap, Option.ite_none_right_eq_some, Option.some.injEq]
  constructor
  · rintro ⟨⟨other, frame⟩, member, rfl, rfl⟩
    exact member
  · exact fun member => ⟨(lane, frame), member, rfl, rfl⟩

/-- Only accepted frames are sent. -/
theorem Delivers.mem_accepted (delivers : subscriber.Delivers) {entry : Lane × Message}
    (sent : entry ∈ subscriber.socket) : entry ∈ subscriber.accepted :=
  mem_ofLane.mp ((delivers.sent entry.1).subset (mem_ofLane.mpr sent))

end Subscriber

/-- The ids of a channel are all on the market queue. -/
theorem Lined.stamps_eq {accepted frames : List (Lane × Message)}
    (lined : Lined kind settings market accepted) (within : ∀ entry ∈ frames, entry ∈ accepted)
    (channel : Channel) : stamps channel frames =
      (Subscriber.ofLane .marketData frames).filterMap (stampOn channel) :=
  filterMap_read_eq (stampOn_public channel) fun entry member =>
    (lined.origin entry (within entry member)).imp_left And.left

/-- The ids that are sent on a channel ascend like the accepted ones. -/
theorem Lined.sent_ascending {subscriber : Subscriber Message}
    (lined : Lined kind settings market subscriber.accepted) (delivers : subscriber.Delivers)
    (channel : Channel) : (stamps channel subscriber.socket).Pairwise (· < ·) := by
  have ascending := lined.ascending channel
  rw [lined.stamps_eq (fun _ => id)] at ascending
  rw [lined.stamps_eq fun _ => delivers.mem_accepted]
  exact ascending.sublist ((delivers.sent .marketData).sublist.filterMap _)

end QuantArena.Fanout
