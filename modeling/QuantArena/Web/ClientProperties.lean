import QuantArena.Fanout.Stamps
import QuantArena.Web.Client

/-! Which prints and bars the client writes: all of them, where the ids on each channel ascend
and a double can tell them apart. -/

set_option autoImplicit false

namespace QuantArena.Web

open Foundations Fanout

/-! ## Channels read back -/

theorem writeInt_no_colon (value : Int) : ':' ∉ Json.writeInt value := by
  have digits : ∀ value : Nat, ':' ∉ Nat.toDigits 10 value := fun value member =>
    absurd (Nat.isDigit_of_mem_toDigits (by decide) (by decide) member) (by decide)
  cases value with
  | ofNat value => exact digits value
  | negSucc value =>
      simp only [Json.writeInt, List.mem_cons, not_or]
      exact ⟨by decide, digits _⟩

theorem widthLabel_no_colon (bucketSeconds ratio : Int) : ':' ∉ widthLabel bucketSeconds ratio := by
  have suffixed : ∀ (value : Int) (last : Char), ':' ≠ last → ':' ∉ Json.writeInt value ++ [last] := by
    intro value last other member
    cases List.mem_append.mp member with
    | inl digits => exact writeInt_no_colon value digits
    | inr end_ => exact other (List.mem_singleton.mp end_)
  have named : ∀ minutes name, simulatedMinutesSuffix minutes = some name → ':' ∉ name := by
    intro minutes name found
    unfold simulatedMinutesSuffix at found
    split_ifs at found <;> (cases found; decide)
  unfold widthLabel
  simp only
  split
  · exact suffixed _ 's' (by decide)
  · cases found : simulatedMinutesSuffix (bucketSeconds / max 1 ratio) with
    | none => exact suffixed _ 'm' (by decide)
    | some name => exact named _ _ found

theorem splitOn_channelOf {parts : List Name} (plain : ∀ part ∈ parts, ':' ∉ part)
    (some_ : parts ≠ []) : (channelOf parts).splitOn ':' = parts :=
  List.splitOn_intercalate ':' plain some_

theorem parseChannel_bookChannel {symbol : Symbol} (plain : ':' ∉ symbol.name) (tier : Tier) :
    parseChannel (bookChannel symbol tier) = ⟨.book, some symbol.name, some tier.suffix⟩ := by
  have parts : (bookChannel symbol tier).splitOn ':' =
      ["book".toList, symbol.name, tier.suffix] := by
    refine splitOn_channelOf ?_ (by simp)
    simp only [List.forall_mem_cons, List.not_mem_nil, false_implies, implies_true, and_true]
    refine ⟨by decide, plain, ?_⟩
    cases tier <;> decide
  simp [parseChannel, parts]

theorem parseChannel_tapeChannel {symbol : Symbol} (plain : ':' ∉ symbol.name) :
    parseChannel (tapeChannel symbol) = ⟨.tape, some symbol.name, none⟩ := by
  have parts : (tapeChannel symbol).splitOn ':' = ["tape".toList, symbol.name] := by
    refine splitOn_channelOf ?_ (by simp)
    simp only [List.forall_mem_cons, List.not_mem_nil, false_implies, implies_true, and_true]
    exact ⟨by decide, plain⟩
  simp [parseChannel, parts]

theorem parseChannel_barsChannel {symbol : Symbol} (plain : ':' ∉ symbol.name)
    (bucketSeconds ratio : Int) : parseChannel (barsChannel symbol bucketSeconds ratio) =
      ⟨.bars, some symbol.name, some (widthLabel bucketSeconds ratio)⟩ := by
  have parts : (barsChannel symbol bucketSeconds ratio).splitOn ':' =
      ["bars".toList, symbol.name, widthLabel bucketSeconds ratio] := by
    refine splitOn_channelOf ?_ (by simp)
    simp only [List.forall_mem_cons, List.not_mem_nil, false_implies, implies_true, and_true]
    exact ⟨by decide, plain, widthLabel_no_colon bucketSeconds ratio⟩
  simp [parseChannel, parts]

/-! ## Ids a double can hold -/

/-- Both halves are integers that a double holds exactly. -/
def Small (seq : StreamId) : Prop := (ofLex seq).1 < 2 ^ 53 ∧ (ofLex seq).2 < 2 ^ 53

instance (seq : StreamId) : Decidable (Small seq) := inferInstanceAs (Decidable (_ ∧ _))

theorem ofInt_of_nat {half : Nat} (small : half < 2 ^ 53) : Double.ofInt half = half :=
  Double.ofInt_of_small (by rw [abs_of_nonneg (by omega)]; exact_mod_cast small)

theorem parseStreamId_of_small {seq : StreamId} (small : Small seq) :
    parseStreamId (.id seq) = (((ofLex seq).1 : Int), ((ofLex seq).2 : Int)) := by
  rw [parseStreamId, ofInt_of_nat small.1, ofInt_of_nat small.2]

/-- Two ids that a double can tell apart are not taken for one another. -/
theorem compareStreamId_ne_zero {first second : StreamId} (different : first ≠ second)
    (small : Small first) (small' : Small second) :
    compareStreamId (.id first) (.id second) ≠ 0 := by
  have halves : (ofLex first).1 ≠ (ofLex second).1 ∨ (ofLex first).2 ≠ (ofLex second).2 := by
    by_contra same
    simp only [not_or, not_not] at same
    exact different (ofLex.injective (Prod.ext same.1 same.2))
  unfold compareStreamId
  rw [parseStreamId_of_small small, parseStreamId_of_small small']
  simp only [ne_eq, Nat.cast_inj]
  split
  · split
    · decide
    · decide
  · rename_i equal
    have later : (ofLex first).2 ≠ (ofLex second).2 := halves.resolve_left equal
    rw [if_pos later]
    split
    · decide
    · decide

/-! ## What the client writes -/

/-- The call that writes a print or a bar. -/
def candleOrPrint (message : Message) : Option Effect :=
  match message with
  | .tapePrint ch _ _ _ _ _ => some (.writeTrade ((parseChannel ch).symbol.getD []) message)
  | .barClose ch _ _ _ _ _ _ _ =>
      some (.writeBar ((parseChannel ch).symbol.getD []) ((parseChannel ch).tier.getD []) message)
  | _ => none

def Effect.writesCandleOrPrint : Effect → Bool
  | .writeTrade _ _ | .writeBar _ _ _ => true
  | _ => false

/-- The channel of a message of market data is read as what it is. -/
def Routed : Message → Prop
  | .book ch _ _ _ _ => (parseChannel ch).kind = .book
  | .tapePrint ch _ _ _ _ _ => ∃ symbol, parseChannel ch = ⟨.tape, some symbol, none⟩
  | .barClose ch _ _ _ _ _ _ _ => ∃ symbol width, parseChannel ch = ⟨.bars, some symbol, some width⟩
  | .privateMessage _ _ _ | .error _ _ => True

/-- The channel is one of the symbol's. -/
def IsChannelOf (settings : Settings) (symbol : Symbol) (ch : Channel) : Prop :=
  (∃ tier, ch = bookChannel symbol tier) ∨ ch = tapeChannel symbol ∨
    ∃ bucketSeconds, ch = barsChannel symbol bucketSeconds settings.realSecondsPerSimulatedMinute

theorem routed_of_made {settings : Settings} {message : Message}
    (names : ∀ symbol ∈ settings.symbols.listed, IsChannelOf settings symbol message.ch →
      ':' ∉ symbol.name)
    (made : Conflator.Made settings message) : Routed message := by
  obtain ⟨halt, rfl⟩ | ⟨symbol, listed, book, seq, tsNs, tier, rfl⟩ | ⟨symbol, listed, trade, rfl⟩ |
    ⟨symbol, listed, bar, seq, rfl⟩ := made
  · unfold Conflator.haltMessage
    split
    · trivial
    · trivial
  · cases tier with
    | l1 =>
        have plain := names symbol listed (.inl ⟨.l1, rfl⟩)
        exact congrArg (·.kind) (parseChannel_bookChannel plain .l1)
    | l2 =>
        have plain := names symbol listed (.inl ⟨.l2, rfl⟩)
        exact congrArg (·.kind) (parseChannel_bookChannel plain .l2)
  · exact ⟨_, parseChannel_tapeChannel (names symbol listed (.inr (.inl rfl)))⟩
  · have plain := names symbol listed (.inr (.inr ⟨bar.bucketSeconds, rfl⟩))
    exact ⟨_, _, parseChannel_barsChannel plain _ _⟩

/-- What the tracker holds of the channels of prints and bars: an id before those still to come. -/
def Ready (frames : List Message) (tracker : SequenceTracker) : Prop :=
  ∀ ch previous, tracker.lastByChannel.get? ch = some previous →
    (parseChannel ch).kind = .tape ∨ (parseChannel ch).kind = .bars →
    ∃ seq, previous = .id seq ∧ Small seq ∧ ∀ next ∈ frames.filterMap (stampOn ch), seq < next

namespace SequenceTracker

theorem observeMarketData_last (tracker : SequenceTracker) (ch : Channel) (seq : Message.Seq) :
    (tracker.observeMarketData ch seq).1.lastByChannel = tracker.lastByChannel.set ch seq := by
  unfold observeMarketData
  split
  · rfl
  · split
    · rfl
    · split
      · rfl
      · rfl

theorem observePrivate_last (tracker : SequenceTracker) (seq : Message.Seq) :
    (tracker.observePrivate seq).1.lastByChannel = tracker.lastByChannel := by
  unfold observePrivate
  simp only
  split
  · rfl
  · split
    · rfl
    · split
      · rfl
      · split
        · rfl
        · rfl

/-- A print or a bar whose id is past the last one of its channel is no duplicate. -/
theorem observe_stamp {tracker : SequenceTracker} {frames : List Message} {message : Message}
    {ch : Channel} {seq : StreamId} (ready : Ready (message :: frames) tracker)
    (kind : (parseChannel ch).kind = .tape ∨ (parseChannel ch).kind = .bars)
    (stamp : stampOn ch message = some seq) (small : Small seq) :
    (tracker.observeMarketData ch (.id seq)).2 ≠ .duplicate := by
  unfold observeMarketData
  cases found : tracker.lastByChannel.get? ch with
  | none => simp
  | some previous =>
      obtain ⟨before, rfl, small', past⟩ := ready ch previous found kind
      have less : before < seq := past seq (by simp [stamp])
      have other := compareStreamId_ne_zero less.ne small' small
      simp only [other, if_false]
      split
      · simp
      · simp

end SequenceTracker

theorem Ready.of_quiet {message : Message} {frames : List Message} {tracker after : SequenceTracker}
    (ready : Ready (message :: frames) tracker) (quiet : ∀ ch, stampOn ch message = none)
    (last : ∀ ch, (parseChannel ch).kind = .tape ∨ (parseChannel ch).kind = .bars →
      after.lastByChannel.get? ch = tracker.lastByChannel.get? ch) : Ready frames after := by
  intro ch previous found kind
  rw [last ch kind] at found
  obtain ⟨seq, same, small, past⟩ := ready ch previous found kind
  exact ⟨seq, same, small, fun next member => past next (by simpa [quiet ch] using member)⟩

/-- What receiving a print or a bar leaves. -/
theorem Ready.of_stamp {message : Message} {frames : List Message} {tracker after : SequenceTracker}
    {ch : Channel} {seq : StreamId} (ready : Ready (message :: frames) tracker)
    (own : ∀ other, stampOn other message = if ch = other then some seq else none)
    (small : Small seq) (ascending : ((message :: frames).filterMap (stampOn ch)).Pairwise (· < ·))
    (last : after.lastByChannel = tracker.lastByChannel.set ch (.id seq)) : Ready frames after := by
  intro other previous found kind
  rw [last, Dict.get?_set] at found
  by_cases same : other = ch
  · rw [if_pos same] at found
    cases found
    refine ⟨seq, rfl, small, fun next member => ?_⟩
    have stamped : (message :: frames).filterMap (stampOn ch) =
        seq :: frames.filterMap (stampOn ch) := by simp [own]
    rw [stamped] at ascending
    exact (List.pairwise_cons.mp ascending).1 next (same ▸ member)
  · rw [if_neg same] at found
    obtain ⟨before, id, small', past⟩ := ready other previous found kind
    refine ⟨before, id, small', fun next member => past next ?_⟩
    simpa [own, Ne.symm same] using member

namespace StreamClient

variable {client : StreamClient} {frames : List Message}

theorem resync_quiet (client : StreamClient) : client.resync.1.tracker = client.tracker ∧
    client.resync.2.filter Effect.writesCandleOrPrint = [] := by
  unfold resync
  split
  · exact ⟨rfl, rfl⟩
  · exact ⟨rfl, rfl⟩

theorem setState_quiet (client : StreamClient) (state : ConnectionState) :
    (client.setState state).1.tracker = client.tracker ∧
      (client.setState state).2.filter Effect.writesCandleOrPrint = [] := by
  unfold setState
  split
  · exact ⟨rfl, rfl⟩
  · exact ⟨rfl, rfl⟩

theorem receiveError_quiet (client : StreamClient) (message : Message) :
    (client.receiveError message).1.tracker = client.tracker ∧
      (client.receiveError message).2.filter Effect.writesCandleOrPrint = [] := by
  have halted := client.setState_quiet .halted
  have connected := client.setState_quiet .connected
  unfold receiveError
  simp only
  split
  · exact ⟨halted.1, by simp [halted.2, Effect.writesCandleOrPrint]⟩
  · split
    · exact ⟨connected.1, by simp [connected.2, Effect.writesCandleOrPrint]⟩
    · exact ⟨rfl, rfl⟩
  · exact ⟨rfl, rfl⟩

/-- A message of market data, past the tracker. -/
theorem receiveData_market {message : Message} {seq : Message.Seq}
    (market : (parseChannel message.ch).kind ≠ .privateStream) :
    client.receiveData message seq =
      ({ client with tracker := (client.tracker.observeMarketData message.ch seq).1 },
        if (client.tracker.observeMarketData message.ch seq).2 = .duplicate then []
        else routed (parseChannel message.ch) message) := by
  have observed : client.tracker.observe message.ch seq =
      client.tracker.observeMarketData message.ch seq := if_neg market
  simp only [receiveData, observed, market, if_false]
  split
  · rfl
  · rfl

theorem receiveData_private {message : Message} {seq : Message.Seq}
    (private_ : (parseChannel message.ch).kind = .privateStream) :
    (client.receiveData message seq).1.tracker.lastByChannel = client.tracker.lastByChannel ∧
      (client.receiveData message seq).2.filter Effect.writesCandleOrPrint = [] := by
  have observed : client.tracker.observe message.ch seq = client.tracker.observePrivate seq :=
    if_pos private_
  have last := SequenceTracker.observePrivate_last client.tracker seq
  simp only [receiveData, observed, private_, if_true]
  split
  · exact ⟨last, rfl⟩
  · split
    · obtain ⟨tracker, none⟩ := resync_quiet
        { client with tracker := (client.tracker.observePrivate seq).1 }
      exact ⟨by rw [tracker]; exact last,
        by simp [List.filter_append, none, Effect.writesCandleOrPrint]⟩
    · exact ⟨last, rfl⟩

theorem receive_of_seq {message : Message} {seq : Message.Seq} (carries : message.seq = some seq) :
    client.receive message = client.receiveData message seq := by
  rw [receive, carries]

/-- Receiving one message writes it if it is a print or a bar, and leaves the tracker ready. -/
theorem receive_step {message : Message} (ready : Ready (message :: frames) client.tracker)
    (routed : Routed message) (small : ∀ ch seq, stampOn ch message = some seq → Small seq)
    (ascending : ∀ ch, ((message :: frames).filterMap (stampOn ch)).Pairwise (· < ·)) :
    (client.receive message).2.filter Effect.writesCandleOrPrint = (candleOrPrint message).toList ∧
      Ready frames (client.receive message).1.tracker := by
  cases message with
  | book ch seq tsNs bids asks =>
      have kind : (parseChannel ch).kind = .book := routed
      have named : (Message.book ch seq tsNs bids asks).ch = ch := rfl
      have market : (parseChannel (Message.book ch seq tsNs bids asks).ch).kind ≠ .privateStream := by
        rw [named, kind]
        decide
      rw [receive_of_seq rfl, receiveData_market market]
      refine ⟨?_, ready.of_quiet (fun _ => rfl) fun other otherKind => ?_⟩
      · simp only [candleOrPrint, Option.toList_none, named, StreamClient.routed, kind]
        split
        · rfl
        · split
          · rfl
          · rfl
      · have different : other ≠ ch := fun same => by simp [same, kind] at otherKind
        simp only [SequenceTracker.observeMarketData_last]
        exact Dict.get?_set_of_ne _ _ different
  | tapePrint ch seq tsNs priceTicks qty aggressorSide =>
      obtain ⟨symbol, parsed⟩ := routed
      have kind : (parseChannel ch).kind = .tape := by rw [parsed]
      have stamp : ∀ other, stampOn other (.tapePrint ch seq tsNs priceTicks qty aggressorSide) =
          if ch = other then some seq else none := fun _ => rfl
      have own := small ch seq (if_pos rfl)
      have fresh := SequenceTracker.observe_stamp ready (.inl kind) (stamp ch |>.trans (if_pos rfl)) own
      have named : (Message.tapePrint ch seq tsNs priceTicks qty aggressorSide).ch = ch := rfl
      have market : (parseChannel
          (Message.tapePrint ch seq tsNs priceTicks qty aggressorSide).ch).kind ≠ .privateStream := by
        rw [named, kind]
        decide
      rw [receive_of_seq rfl, receiveData_market market]
      refine ⟨?_, ready.of_stamp stamp own (ascending ch)
        (SequenceTracker.observeMarketData_last _ _ _)⟩
      simp only [named, fresh, if_false, StreamClient.routed, parsed, candleOrPrint]
      rfl
  | barClose ch seq openTicks highTicks lowTicks closeTicks volume barOpenNs =>
      obtain ⟨symbol, width, parsed⟩ := routed
      have kind : (parseChannel ch).kind = .bars := by rw [parsed]
      have stamp : ∀ other, stampOn other (.barClose ch seq openTicks highTicks lowTicks closeTicks
          volume barOpenNs) = if ch = other then some seq else none := fun _ => rfl
      have own := small ch seq (if_pos rfl)
      have fresh := SequenceTracker.observe_stamp ready (.inr kind) (stamp ch |>.trans (if_pos rfl)) own
      have named : (Message.barClose ch seq openTicks highTicks lowTicks closeTicks volume
          barOpenNs).ch = ch := rfl
      have market : (parseChannel (Message.barClose ch seq openTicks highTicks lowTicks closeTicks
          volume barOpenNs).ch).kind ≠ .privateStream := by
        rw [named, kind]
        decide
      rw [receive_of_seq rfl, receiveData_market market]
      refine ⟨?_, ready.of_stamp stamp own (ascending ch)
        (SequenceTracker.observeMarketData_last _ _ _)⟩
      simp only [named, fresh, if_false, StreamClient.routed, parsed, candleOrPrint]
      rfl
  | privateMessage seq tsNs body =>
      have kind : (parseChannel "private".toList).kind = .privateStream := by decide
      obtain ⟨last, none⟩ := @receiveData_private client (.privateMessage seq tsNs body)
        (.counter seq) kind
      exact ⟨none, ready.of_quiet (fun _ => rfl) fun _ _ => by rw [← last]; rfl⟩
  | error code detail =>
      obtain ⟨tracker, none⟩ := client.receiveError_quiet (.error code detail)
      exact ⟨none, ready.of_quiet (fun _ => rfl) fun _ _ => by rw [← tracker]; rfl⟩

/-- Where the ids of every channel ascend, every print and every bar is written, once. -/
theorem receiveAll_writes (ready : Ready frames client.tracker) (routed : ∀ message ∈ frames, Routed message)
    (small : ∀ message ∈ frames, ∀ ch seq, stampOn ch message = some seq → Small seq)
    (ascending : ∀ ch, (frames.filterMap (stampOn ch)).Pairwise (· < ·)) :
    (client.receiveAll frames).2.filter Effect.writesCandleOrPrint =
      frames.filterMap candleOrPrint := by
  induction frames generalizing client with
  | nil => rfl
  | cons message rest ih =>
      obtain ⟨now, later⟩ := receive_step ready (routed message List.mem_cons_self)
        (small message List.mem_cons_self) ascending
      have tail := @ih (client.receive message).1 later
        (fun other member => routed other (List.mem_cons_of_mem _ member))
        (fun other member => small other (List.mem_cons_of_mem _ member)) fun ch =>
          (ascending ch).sublist ((List.sublist_cons_self message rest).filterMap _)
      have shape : (client.receiveAll (message :: rest)).2 =
          (client.receive message).2 ++ ((client.receive message).1.receiveAll rest).2 := rfl
      rw [shape, List.filter_append, now, tail]
      cases wanted : candleOrPrint message with
      | none => simp [wanted]
      | some effect => simp [wanted]

end StreamClient

/-! ## From the service to the buffer -/

/-- Where at most one closed bar waits on each channel of a free client at every tick, a double
holds the ids, and no symbol that the client is sent frames of has a colon in its name, the client
writes every print and every bar that it is sent. -/
theorem no_candle_or_print_discarded (settings : Settings) (barWidths : List BarWidth)
    (stream : Stream Contracts.Outbound) (saved : Option (StreamId × List Char)) (count : Nat)
    (service : Service) (recovered : Service.recover barWidths stream saved count = some service)
    (small : Small (Service.position saved) ∧ ∀ entry ∈ stream.entries, Small entry.1)
    (actions : List Action) (id : ConnectionId)
    (along : Along (Service.step settings) (Service.OneBarEach settings id) service actions)
    (subscriber : Subscriber Message)
    (present : (actions.foldl (Service.step settings) service).hub.subscribers.get? id =
      some subscriber)
    (names : ∀ symbol ∈ settings.symbols.listed,
      (∃ frame ∈ subscriber.socket, IsChannelOf settings symbol frame.2.ch) → ':' ∉ symbol.name)
    (client : StreamClient) :
    (client.opened.1.receiveAll (subscriber.socket.map Prod.snd)).2.filter
        Effect.writesCandleOrPrint =
      (subscriber.socket.map Prod.snd).filterMap candleOrPrint := by
  obtain ⟨sound, orderly, inStep⟩ := Service.recover_inStep small recovered id
  have lined := (Service.run_inStep sound inStep along).lined subscriber present
  have delivers := ((Service.run_sound settings sound orderly actions).2 id subscriber present).2
  have empty : client.opened.1.tracker.lastByChannel = .empty := by
    rw [StreamClient.opened, (StreamClient.setState_quiet _ _).1]
    rfl
  have each : ∀ message ∈ subscriber.socket.map Prod.snd,
      Conflator.Made settings message ∨ message.IsPrivate ∨ message.IsReply := by
    intro message member
    obtain ⟨entry, sent, rfl⟩ := List.mem_map.mp member
    exact (lined.origin entry (delivers.mem_accepted sent)).imp (·.2) (·.2)
  refine StreamClient.receiveAll_writes (fun ch previous found => ?_) (fun message member => ?_)
    (fun message member ch seq stamp => ?_) fun ch => ?_
  · rw [empty] at found
    cases found
  · obtain made | quiet := each message member
    · obtain ⟨entry, sent, rfl⟩ := List.mem_map.mp member
      exact routed_of_made (fun symbol listed own => names symbol listed ⟨entry, sent, own⟩) made
    · cases message with
      | privateMessage _ _ _ => trivial
      | error _ _ => trivial
      | _ => exact absurd quiet (by simp [Message.IsPrivate, Message.IsReply])
  · obtain ⟨entry, sent, rfl⟩ := List.mem_map.mp member
    refine (lined.behind ch seq ?_).kind
    exact List.mem_filterMap.mpr ⟨entry, delivers.mem_accepted sent, stamp⟩
  · rw [List.filterMap_map]
    exact lined.sent_ascending delivers ch

namespace StreamClient

/-- The second of two messages of market data with one id is not written. -/
theorem receive_twice (client : StreamClient) (seq : StreamId) {ch : Channel}
    (market : (parseChannel ch).kind ≠ .privateStream) (first second : Message)
    (carries : first.ch = ch ∧ first.seq = some (.id seq))
    (again : second.ch = ch ∧ second.seq = some (.id seq)) :
    (client.receiveAll [first, second]).2 = (client.receive first).2 := by
  have once := @receiveData_market client first (.id seq) (carries.1.symm ▸ market)
  have twice := @receiveData_market (client.receive first).1 second (.id seq)
    (again.1.symm ▸ market)
  have last : (client.receive first).1.tracker.lastByChannel.get? ch = some (.id seq) := by
    rw [receive_of_seq carries.2, once, carries.1, SequenceTracker.observeMarketData_last]
    exact (Dict.get?_set _ _ _ _).trans (if_pos rfl)
  have same : compareStreamId (.id seq) (.id seq) = 0 := by
    simp only [compareStreamId, ne_eq, not_true_eq_false, if_false]
  have discarded : ((client.receive first).1.tracker.observeMarketData ch (.id seq)).2 =
      .duplicate := by
    simp only [SequenceTracker.observeMarketData, last, same, if_true]
  simp only [receiveAll, receive_of_seq again.2, twice, again.1, discarded, if_true, List.append_nil]

end StreamClient

/-- One symbol with bars of a second, which is a minute of the market. -/
def withBars : Settings := { Service.oneSymbol with barBucketSeconds := [⟨1, le_refl 1⟩] }

/-- Trades in three successive seconds. -/
def threeSeconds : Foundations.Stream Contracts.Outbound :=
  Foundations.Stream.empty.appendAll 1 ([0, 1, 2].map fun second =>
    .fill ⟨second * 1000000000, 1, 2, 8, 9, 500, 3, 1, 1⟩)

/-- A service that has them ahead of it. -/
def aheadOfTrades : Service := Service.start (.new withBars.barBucketSeconds) threeSeconds.entries

/-- A client of the chart, and a tick after every trade or one after all of them. -/
def chartClient (ticked : Bool) : List Action :=
  [.connect 7, .request 0 (some (.subscribe, ["bars:QAA:1m".toList])), .read, .read] ++
    (if ticked then [.tick 5, .resume 0, .written 0] else []) ++
    [.read, .tick 6, .resume 0, .written 0, .written 0]

/-- With a tick between the two, both candles are drawn. -/
theorem candles_of_two_ticks : ∃ subscriber,
    ((chartClient true).foldl (Service.step withBars) aheadOfTrades).hub.subscribers.get? 0 =
      some subscriber ∧
    (StreamClient.new.opened.1.receiveAll (subscriber.socket.map Prod.snd)).2.filter
        Effect.writesCandleOrPrint = (subscriber.socket.map Prod.snd).filterMap candleOrPrint := by
  have joined : (((chartClient true).foldl (Service.step withBars)
      aheadOfTrades).hub.subscribers.get? 0).isSome = true := by decide
  obtain ⟨subscriber, present⟩ := Option.isSome_iff_exists.mp joined
  have plain : ∀ symbol ∈ withBars.symbols.listed, ':' ∉ symbol.name := by decide
  exact ⟨subscriber, present, no_candle_or_print_discarded withBars withBars.barBucketSeconds
    threeSeconds none 0 aheadOfTrades rfl (by decide) (chartClient true) 0 (by decide) subscriber
    present (fun symbol listed _ => plain symbol listed) .new⟩

/-- Two candles closed between two ticks carry one id, and the second is thrown away. -/
theorem candles_of_one_tick : ∃ subscriber,
    ((chartClient false).foldl (Service.step withBars) aheadOfTrades).hub.subscribers.get? 0 =
      some subscriber ∧
    (StreamClient.new.opened.1.receiveAll (subscriber.socket.map Prod.snd)).2.filter
        Effect.writesCandleOrPrint ≠ (subscriber.socket.map Prod.snd).filterMap candleOrPrint := by
  have sent : (((chartClient false).foldl (Service.step withBars)
      aheadOfTrades).hub.subscribers.get? 0).map (fun subscriber => subscriber.socket.map Prod.snd) =
        some [.barClose "bars:QAA:1m".toList (toLex (1, 2)) 500 500 500 500 3 0,
          .barClose "bars:QAA:1m".toList (toLex (1, 2)) 500 500 500 500 3 1000000000] := by decide
  obtain ⟨subscriber, present, frames⟩ := Option.map_eq_some_iff.mp sent
  refine ⟨subscriber, present, fun same => ?_⟩
  have market : (parseChannel "bars:QAA:1m".toList).kind ≠ .privateStream := by decide
  rw [frames, StreamClient.receive_twice _ (toLex (1, 2)) market _ _ ⟨rfl, rfl⟩ ⟨rfl, rfl⟩] at same
  exact absurd (congrArg List.length same) (by decide)

end QuantArena.Web
