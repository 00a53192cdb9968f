import QuantArena.Fanout.Attended
import QuantArena.Matcher.Runs
import QuantArena.Web.ClientProperties
import QuantArena.Web.ScreenRuns

/-! From the frames of a connection to the book on the trader's screen. A book that is dropped as a
duplicate shows what the one before it showed. -/

set_option autoImplicit false

namespace QuantArena.Web

open Foundations Contracts Fanout

/-! ## What the client does with a frame -/

variable {symbol : Symbol} {tier : Tier} {client : StreamClient}

def BookView.levels (view : BookView) : List (Int × Int) × List (Int × Int) :=
  (view.bids, view.asks)

/-- Both sides as the page reads them. -/
def parseSides (sides : List (Int × Int) × List (Int × Int)) :
    List (Int × Int) × List (Int × Int) :=
  (parseLevels sides.1, parseLevels sides.2)

/-- The books that are written under a name, as levels. -/
def booksOf (name : Name) (effects : List Effect) : List (List (Int × Int) × List (Int × Int)) :=
  (effects.filterMap (Effect.bookOf name)).map BookView.levels

theorem booksOf_append (name : Name) (first second : List Effect) :
    booksOf name (first ++ second) = booksOf name first ++ booksOf name second := by
  simp [booksOf, List.filterMap_append]

namespace StreamClient

theorem setState_booksOf (name : Name) (state : ConnectionState) :
    booksOf name (client.setState state).2 = [] := by
  unfold setState
  split
  · rfl
  · rfl

theorem receiveError_booksOf (name : Name) (message : Message) :
    booksOf name (client.receiveError message).2 = [] := by
  have halted := client.setState_booksOf name .halted
  have connected := client.setState_booksOf name .connected
  have told : ∀ effects, booksOf name (.onError message :: effects) = booksOf name effects :=
    fun _ => rfl
  unfold receiveError
  simp only [told]
  split
  · exact halted
  · split
    · exact connected
    · rfl
  · rfl

theorem receive_market {message : Message} {seq : StreamId} (carries : message.seq = some (.id seq))
    (market : (parseChannel message.ch).kind ≠ .privateStream) :
    (client.receive message).1.tracker.lastByChannel =
        client.tracker.lastByChannel.set message.ch (.id seq) ∧
      (client.receive message).2 =
        if (client.tracker.observeMarketData message.ch (.id seq)).2 = .duplicate then []
        else routed (parseChannel message.ch) message := by
  rw [receive_of_seq carries, receiveData_market market]
  exact ⟨SequenceTracker.observeMarketData_last _ _ _, rfl⟩

theorem receive_privateMessage {seq tsNs : Int} {body : PrivateBody} (name : Name) :
    (client.receive (.privateMessage seq tsNs body)).1.tracker.lastByChannel =
        client.tracker.lastByChannel ∧
      booksOf name (client.receive (.privateMessage seq tsNs body)).2 = [] := by
  have private_ : (parseChannel (Message.privateMessage seq tsNs body).ch).kind = .privateStream :=
    show (parseChannel "private".toList).kind = .privateStream by decide
  rw [receive_of_seq rfl]
  refine ⟨(receiveData_private private_).1, ?_⟩
  simp only [receiveData, private_, if_true]
  split
  · rfl
  · split
    · unfold resync
      split
      · rfl
      · rfl
    · rfl

end StreamClient

/-- A frame that is not of the symbol's book. -/
theorem receive_other {settings : Settings} {message : Message} (plain : ':' ∉ symbol.name)
    (names : ∀ other ∈ settings.symbols.listed, ':' ∉ other.name)
    (origin : Conflator.Made settings message ∨ message.IsPrivate ∨ message.IsReply)
    (apart : ∀ other, quoteOn (bookChannel symbol other) message = none) :
    (client.receive message).1.tracker.lastByChannel.get? (bookChannel symbol tier) =
        client.tracker.lastByChannel.get? (bookChannel symbol tier) ∧
      booksOf symbol.name (client.receive message).2 = [] := by
  have error : ∀ code detail, message = .error code detail →
      (client.receive message).1.tracker.lastByChannel.get? (bookChannel symbol tier) =
        client.tracker.lastByChannel.get? (bookChannel symbol tier) ∧
      booksOf symbol.name (client.receive message).2 = [] := by
    rintro code detail rfl
    have same : client.receive (.error code detail) = client.receiveError (.error code detail) := rfl
    rw [same, (client.receiveError_quiet _).1]
    exact ⟨rfl, client.receiveError_booksOf _ _⟩
  have market : ∀ {seq parsed}, message.seq = some (.id seq) →
      parseChannel message.ch = parsed → parsed.kind ≠ .privateStream →
      message.ch ≠ bookChannel symbol tier →
      booksOf symbol.name (StreamClient.routed parsed message) = [] →
      (client.receive message).1.tracker.lastByChannel.get? (bookChannel symbol tier) =
        client.tracker.lastByChannel.get? (bookChannel symbol tier) ∧
      booksOf symbol.name (client.receive message).2 = [] := by
    intro seq parsed carries reads open_ different quiet
    subst reads
    obtain ⟨last, effects⟩ := client.receive_market carries open_
    rw [last, effects, Dict.get?_set_of_ne _ _ (Ne.symm different)]
    refine ⟨rfl, ?_⟩
    split
    · rfl
    · exact quiet
  have kinds : (parseChannel (bookChannel symbol tier)).kind = .book := by
    rw [parseChannel_bookChannel plain]
  obtain made | private_ | reply := origin
  · obtain ⟨halt, rfl⟩ | ⟨other, listed, book, seq, tsNs, another, rfl⟩ |
      ⟨other, listed, trade, rfl⟩ | ⟨other, listed, bar, seq, rfl⟩ := made
    · unfold Conflator.haltMessage at error ⊢
      split
      · rename_i halted
        rw [if_pos halted] at error
        exact error _ _ rfl
      · rename_i open_
        rw [if_neg open_] at error
        exact error _ _ rfl
    · have named : other.name ≠ symbol.name := by
        intro same
        have own : bookChannel other another = bookChannel symbol another := by
          rw [bookChannel, bookChannel, same]
        have none := apart another
        cases another with
        | l1 => simp [Conflator.bookMessage, Messages.bookL1, quoteOn, own] at none
        | l2 => simp [Conflator.bookMessage, Messages.bookL2, quoteOn, own] at none
      have different : bookChannel other another ≠ bookChannel symbol tier :=
        fun same => named (bookChannel_inj same).1
      have reads := parseChannel_bookChannel (names other listed) another
      have quiet : ∀ message : Message, booksOf symbol.name
          (StreamClient.routed ⟨.book, some other.name, some another.suffix⟩ message) = [] := by
        intro message
        cases message with
        | book ch seq tsNs bids asks =>
            simp [StreamClient.routed, booksOf, Effect.bookOf, named]
        | _ => rfl
      cases another with
      | l1 => exact market rfl reads (ne_of_beq_false rfl) different (quiet _)
      | l2 => exact market rfl reads (ne_of_beq_false rfl) different (quiet _)
    · have reads := parseChannel_tapeChannel (names other listed)
      refine market rfl reads (ne_of_beq_false rfl) (fun same => ?_) rfl
      have kind := congrArg ParsedChannel.kind reads
      rw [show tapeChannel other = _ from same, kinds] at kind
      cases kind
    · have reads := parseChannel_barsChannel (names other listed) bar.bucketSeconds
        settings.realSecondsPerSimulatedMinute
      refine market rfl reads (ne_of_beq_false rfl) (fun same => ?_) rfl
      have kind := congrArg ParsedChannel.kind reads
      rw [show barsChannel other _ _ = _ from same, kinds] at kind
      cases kind
  · cases message with
    | privateMessage seq tsNs body =>
        obtain ⟨last, quiet⟩ := client.receive_privateMessage symbol.name
        exact ⟨by rw [last], quiet⟩
    | _ => exact absurd private_ id
  · cases message with
    | error code detail => exact error code detail rfl
    | _ => exact absurd reply id

/-- A frame of the symbol's book. -/
theorem receive_book (plain : ':' ∉ symbol.name) {seq : StreamId} {tsNs : Int}
    {bids asks : List (Int × Int)} :
    (client.receive (.book (bookChannel symbol tier) seq tsNs bids asks)).1.tracker.lastByChannel =
        client.tracker.lastByChannel.set (bookChannel symbol tier) (.id seq) ∧
      booksOf symbol.name (client.receive (.book (bookChannel symbol tier) seq tsNs bids asks)).2 =
        if (client.tracker.observeMarketData (bookChannel symbol tier) (.id seq)).2 = .duplicate then []
        else [parseSides (bids, asks)] := by
  have market : (parseChannel (Message.book (bookChannel symbol tier) seq tsNs bids asks).ch).kind ≠
      .privateStream := by
    rw [show parseChannel (Message.book (bookChannel symbol tier) seq tsNs bids asks).ch = _ from
      parseChannel_bookChannel plain tier]
    exact ne_of_beq_false rfl
  have called : (client.receive (.book (bookChannel symbol tier) seq tsNs bids asks)).2 =
      if (client.tracker.observeMarketData (bookChannel symbol tier) (.id seq)).2 = .duplicate then []
      else StreamClient.routed (parseChannel (bookChannel symbol tier))
        (.book (bookChannel symbol tier) seq tsNs bids asks) := (client.receive_market rfl market).2
  refine ⟨(client.receive_market rfl market).1, ?_⟩
  rw [called, parseChannel_bookChannel plain]
  split
  · rfl
  · simp [StreamClient.routed, booksOf, Effect.bookOf, BookView.levels, parseBook, parseSides]

/-- Only the id of the frame before makes a duplicate, where a double tells ids apart. -/
theorem SequenceTracker.eq_of_duplicate {tracker : SequenceTracker} {ch : Channel}
    {previous seq : StreamId} (last : tracker.lastByChannel.get? ch = some (.id previous))
    (duplicate : (tracker.observeMarketData ch (.id seq)).2 = .duplicate) (small : Small previous)
    (small' : Small seq) : previous = seq := by
  by_contra different
  have apart := compareStreamId_ne_zero different small small'
  simp only [observeMarketData, last, if_neg apart] at duplicate
  split at duplicate
  · cases duplicate
  · cases duplicate

/-! ## The last book -/

def bookQuotes (symbol : Symbol) (tier : Tier) (frames : List Message) :
    List (StreamId × List (Int × Int) × List (Int × Int)) :=
  frames.filterMap (quoteOn (bookChannel symbol tier))

/-- Frames that one connection can be sent, if it asks for one tier of the symbol's book. -/
structure Consistent (settings : Settings) (symbol : Symbol) (tier : Tier) (frames : List Message) :
    Prop where
  origin : ∀ message ∈ frames, Conflator.Made settings message ∨ message.IsPrivate ∨ message.IsReply
  apart : ∀ message ∈ frames, ∀ other, other ≠ tier →
    quoteOn (bookChannel symbol other) message = none
  small : ∀ quote ∈ bookQuotes symbol tier frames, Small quote.1
  same : (bookQuotes symbol tier frames).Pairwise fun early late =>
    early.1 = late.1 → early.2 = late.2

/-- The client has written the last book of the frames it has received since the socket opened. -/
structure Caught (symbol : Symbol) (tier : Tier) (frames : List Message) (client : StreamClient)
    (effects : List Effect) : Prop where
  last : client.tracker.lastByChannel.get? (bookChannel symbol tier) =
    (bookQuotes symbol tier frames).getLast?.map fun quote => .id quote.1
  written : bookQuotes symbol tier frames ≠ [] → (booksOf symbol.name effects).getLast? =
    (bookQuotes symbol tier frames).getLast?.map fun quote => parseSides quote.2

theorem bookQuotes_append (first second : List Message) : bookQuotes symbol tier (first ++ second) =
    bookQuotes symbol tier first ++ bookQuotes symbol tier second := List.filterMap_append

theorem Consistent.left {settings : Settings} {frames more : List Message}
    (consistent : Consistent settings symbol tier (frames ++ more)) :
    Consistent settings symbol tier frames := by
  obtain ⟨origin, apart, small, same⟩ := consistent
  rw [bookQuotes_append] at small same
  constructor
  · exact fun message member => origin message (List.mem_append_left _ member)
  · exact fun message member => apart message (List.mem_append_left _ member)
  · exact fun quote member => small quote (List.mem_append_left _ member)
  · exact (List.pairwise_append.mp same).1

namespace Caught

variable {settings : Settings} {frames : List Message} {effects : List Effect}

theorem opened (client : StreamClient) (effects : List Effect) :
    Caught symbol tier [] client.opened.1 effects := by
  constructor
  · rw [StreamClient.opened, (StreamClient.setState_quiet _ _).1]
    rfl
  · exact fun some_ => absurd rfl some_

/-- A frame that is not of the book changes nothing. -/
theorem other (plain : ':' ∉ symbol.name)
    (names : ∀ other ∈ settings.symbols.listed, ':' ∉ other.name)
    (caught : Caught symbol tier frames client effects) {message : Message}
    (origin : Conflator.Made settings message ∨ message.IsPrivate ∨ message.IsReply)
    (apart : ∀ another, quoteOn (bookChannel symbol another) message = none) :
    Caught symbol tier (frames ++ [message]) (client.receive message).1
      (effects ++ (client.receive message).2) := by
  obtain ⟨last, quiet⟩ := @receive_other symbol tier client settings message plain names origin apart
  have still : bookQuotes symbol tier (frames ++ [message]) = bookQuotes symbol tier frames := by
    rw [bookQuotes_append]
    simp [bookQuotes, apart tier]
  constructor
  · rw [still, last, caught.last]
  · rw [still, booksOf_append, quiet, List.append_nil]
    exact caught.written

/-- A frame of the book is written, or shows what is written. -/
theorem book (plain : ':' ∉ symbol.name) (caught : Caught symbol tier frames client effects)
    {seq : StreamId} {tsNs : Int} {bids asks : List (Int × Int)}
    (whole : bookQuotes symbol tier (frames ++ [.book (bookChannel symbol tier) seq tsNs bids asks]) =
      bookQuotes symbol tier frames ++ [(seq, bids, asks)])
    (consistent : Consistent settings symbol tier
      (frames ++ [.book (bookChannel symbol tier) seq tsNs bids asks])) :
    Caught symbol tier (frames ++ [.book (bookChannel symbol tier) seq tsNs bids asks])
      (client.receive (.book (bookChannel symbol tier) seq tsNs bids asks)).1
      (effects ++ (client.receive (.book (bookChannel symbol tier) seq tsNs bids asks)).2) := by
  obtain ⟨-, -, small, same⟩ := consistent
  rw [whole] at small same
  obtain ⟨last, called⟩ := @receive_book symbol tier client plain seq tsNs bids asks
  constructor
  · rw [last, whole, List.getLast?_concat]
    exact Dict.get?_set_self _ _ _
  · intro _
    rw [whole, List.getLast?_concat, booksOf_append, called]
    split
    · rename_i duplicate
      have held := caught.last
      cases before : (bookQuotes symbol tier frames).getLast? with
      | none =>
          rw [before] at held
          simp [SequenceTracker.observeMarketData, held] at duplicate
      | some previous =>
          rw [before] at held
          have member := List.mem_of_getLast? before
          have equal := SequenceTracker.eq_of_duplicate held duplicate
            (small previous (List.mem_append_left _ member))
            (small (seq, bids, asks) (List.mem_append_right _ List.mem_cons_self))
          have levels := (List.pairwise_append.mp same).2.2 previous member (seq, bids, asks)
            List.mem_cons_self equal
          have written := caught.written (List.ne_nil_of_mem member)
          rw [before] at written
          rw [List.append_nil, written]
          exact congrArg (fun sides => some (parseSides sides)) levels
    · rw [List.getLast?_concat]
      rfl

theorem receive (plain : ':' ∉ symbol.name)
    (names : ∀ other ∈ settings.symbols.listed, ':' ∉ other.name)
    (caught : Caught symbol tier frames client effects) {message : Message}
    (consistent : Consistent settings symbol tier (frames ++ [message])) :
    Caught symbol tier (frames ++ [message]) (client.receive message).1
      (effects ++ (client.receive message).2) := by
  have inside : message ∈ frames ++ [message] := List.mem_append_right _ List.mem_cons_self
  cases quoted : quoteOn (bookChannel symbol tier) message with
  | none =>
      refine caught.other plain names (consistent.origin message inside) fun another => ?_
      by_cases own : another = tier
      · rw [own, quoted]
      · exact consistent.apart message inside another own
  | some quote =>
      have whole : bookQuotes symbol tier (frames ++ [message]) =
          bookQuotes symbol tier frames ++ [quote] := by
        rw [bookQuotes_append]
        simp [bookQuotes, quoted]
      cases message with
      | book ch seq tsNs bids asks =>
          simp only [quoteOn, Option.ite_none_right_eq_some, Option.some.injEq] at quoted
          obtain ⟨rfl, rfl⟩ := quoted
          exact caught.book plain whole consistent
      | _ => cases quoted

end Caught

/-! ## The tab -/

namespace Screen

variable {screen : Screen}

theorem tick_client (screen : Screen) (loop : Nat) : (screen.tick loop).1.client = screen.client := by
  unfold tick
  split
  · rfl
  · split
    · rfl
    · rfl

theorem tickAll_client (screen : Screen) (due : List Nat) :
    (screen.tickAll due).1.client = screen.client := by
  induction due generalizing screen with
  | nil => rfl
  | cons loop rest ih => exact (ih _).trans (screen.tick_client loop)

/-- What arrives at the tab. -/
def received (actions : List Action) : List Message :=
  actions.filterMap fun action => match action with
    | .receive message => some message
    | _ => none

/-- Whatever else happens in the tab while the socket stays. -/
theorem run_caught {settings : Settings} (plain : ':' ∉ symbol.name)
    (names : ∀ other ∈ settings.symbols.listed, ':' ∉ other.name) {frames : List Message}
    {effects : List Effect} (caught : Caught symbol tier frames screen.client effects)
    {actions : List Action} (still : .opened ∉ actions)
    (consistent : Consistent settings symbol tier (frames ++ received actions)) :
    Caught symbol tier (frames ++ received actions) (screen.run actions).1.client
      (effects ++ (screen.run actions).2) := by
  induction actions generalizing screen frames effects with
  | nil => simpa [received, Screen.run] using caught
  | cons action rest ih =>
      have later : .opened ∉ rest := fun member => still (List.mem_cons_of_mem _ member)
      have quiet : received (action :: rest) = received rest →
          (screen.act action).1.client = screen.client → (screen.act action).2 = [] →
          Caught symbol tier (frames ++ received (action :: rest))
            (screen.run (action :: rest)).1.client
            (effects ++ (screen.run (action :: rest)).2) := by
        intro nothing client effects_
        rw [nothing] at consistent ⊢
        simp only [Screen.run, effects_, List.nil_append]
        exact ih (client ▸ caught) later consistent
      cases action with
      | opened => exact absurd List.mem_cons_self still
      | receive message =>
          have whole : frames ++ received (.receive message :: rest) =
              (frames ++ [message]) ++ received rest := by
            simp [received]
          rw [whole] at consistent ⊢
          have next := @ih (screen.act (.receive message)).1 _ _
            (caught.receive plain names consistent.left) later consistent
          simpa [Screen.run, Screen.act, Screen.receive, List.append_assoc] using next
      | mount kind name => exact quiet rfl rfl rfl
      | unmount painter =>
          refine quiet rfl ?_ rfl
          simp only [Screen.act, Screen.unmount]
          split
          · rfl
          · rfl
      | start => exact quiet rfl rfl rfl
      | stop loop =>
          refine quiet rfl ?_ rfl
          simp only [Screen.act, Screen.stop]
          split
          · rfl
          · rfl
      | frame => exact quiet rfl (tickAll_client _ _) rfl

end Screen

/-! ## From the socket to the panels -/

theorem bookQuotes_socket {symbol : Symbol} {tier : Tier} (frames : List (Lane × Message)) :
    bookQuotes symbol tier (frames.map Prod.snd) = quotes (bookChannel symbol tier) frames := by
  simp only [bookQuotes, quotes, List.filterMap_map]
  rfl

theorem consistent_of_sent {settings : Settings} {kind : StreamId → Prop} {market : MarketState}
    {symbol : Symbol} {tier : Tier} {subscriber : Subscriber Message}
    (receives : SentBooks settings kind market symbol tier subscriber)
    (delivers : subscriber.Delivers) (small : ∀ seq, kind seq → Small seq) :
    Consistent settings symbol tier (subscriber.socket.map Prod.snd) := by
  constructor
  · intro message member
    obtain ⟨entry, sent, rfl⟩ := List.mem_map.mp member
    obtain ⟨-, made⟩ | ⟨-, quiet⟩ := receives.origin entry (delivers.mem_accepted sent)
    · exact .inl made
    · exact .inr quiet
  · intro message member other different
    obtain ⟨entry, sent, rfl⟩ := List.mem_map.mp member
    exact List.filterMap_eq_nil_iff.mp (receives.apart other different).2 entry
      (delivers.mem_accepted sent)
  · intro quote member
    rw [bookQuotes_socket] at member
    exact small _ (receives.kinds quote ((receives.quotes_sent delivers _).subset member))
  · rw [bookQuotes_socket]
    exact receives.quoted.same.sublist (receives.quotes_sent delivers _)

/-- What a book panel shows of these levels. -/
def Panel.ofLevels (bids asks : List (Int × Int)) : Panel :=
  .book (fill bids (largestQty bids asks)) (fill asks (largestQty bids asks)) (spread bids asks)

theorem Panel.showing_levels {view : View} {bids asks : List (Int × Int)}
    (book : view.book.map BookView.levels = some (bids, asks)) :
    Panel.showing view .book = .ofLevels bids asks := by
  obtain ⟨levels, found, same⟩ := Option.map_eq_some_iff.mp book
  cases same
  simp only [Panel.showing, Panel.paintBook, Panel.ofLevels, found, Option.map_some,
    Option.getD_some]

theorem Screen.run_append (screen : Screen) (first second : List Screen.Action) :
    screen.run (first ++ second) = (((screen.run first).1.run second).1,
      (screen.run first).2 ++ ((screen.run first).1.run second).2) := by
  induction first generalizing screen with
  | nil => rfl
  | cons action rest ih => simp only [List.cons_append, Screen.run, ih, List.append_assoc]

/-- A frame of a tab that has received these since its socket opened. -/
theorem Screen.frame_shows {settings : Settings} {symbol : Symbol} {tier : Tier}
    (plain : ':' ∉ symbol.name) (names : ∀ other ∈ settings.symbols.listed, ':' ∉ other.name)
    {frames : List Message} (consistent : Consistent settings symbol tier frames)
    {last : StreamId × List (Int × Int) × List (Int × Int)}
    (quoted : (bookQuotes symbol tier frames).getLast? = some last) (client : StreamClient)
    {before after : List Screen.Action} (still : .opened ∉ after)
    (arrived : Screen.received after = frames) :
    let screen := ((Screen.new client).run (before ++ .opened :: after)).1
    screen.Looping → ∀ painter mounted, screen.panels.get? painter = some mounted →
      mounted.symbol = symbol.name → mounted.panel.kind = .book →
        screen.frame.1.panels.get? painter =
          some { mounted with
            panel := Panel.ofLevels (parseLevels last.2.1) (parseLevels last.2.2) } := by
  intro screen looping painter mounted present named book
  have sound : Screen.Sound ((Screen.new client).run (before ++ .opened :: after)).2 screen :=
    (Screen.Sound.new client).run _
  let middle := ((Screen.new client).run before).1
  let early := ((Screen.new client).run before).2
  have split : (Screen.new client).run (before ++ .opened :: after) =
      (((middle.act .opened).1.run after).1,
        early ++ ((middle.act .opened).2 ++ ((middle.act .opened).1.run after).2)) :=
    Screen.run_append (Screen.new client) before (.opened :: after)
  have whole : Consistent settings symbol tier ([] ++ Screen.received after) := by
    rw [arrived]
    exact consistent
  have opened : Caught symbol tier [] (middle.act .opened).1.client
      (early ++ (middle.act .opened).2) := Caught.opened middle.client _
  have caught := Screen.run_caught plain names opened still whole
  have levels : (screen.buffer.view symbol.name).book.map BookView.levels =
      some (parseSides last.2) := by
    have written := caught.written
    rw [List.nil_append, arrived, quoted] at written
    rw [sound.view_eq, split, MarketData.latestView, ← List.getLast?_map, ← List.append_assoc]
    exact written fun empty => by
      rw [empty] at quoted
      cases quoted
  rw [(sound.frame_looping looping).2.2.2 painter, present, Option.map_some, Screen.current, named,
    book, Panel.showing_levels levels]

/-! ## From the engine to the screen -/

/-- The symbol's book is known, its channel is held, and no frame of it waits for a tick or for the
writer. -/
structure Delivered (symbol : Symbol) (tier : Tier) (market : MarketState)
    (subscriber : Subscriber Message) : Prop where
  known : (market.books.get? symbol.symbolId).isSome
  held : bookChannel symbol tier ∈ subscriber.channels
  ticked : symbol.symbolId ∉ market.dirty
  joined : bookChannel symbol tier ∉ subscriber.fresh
  opened : subscriber.closed = false
  idle : subscriber.inFlight = []
  empty : subscriber.marketQueue = []

instance (symbol : Symbol) (tier : Tier) (market : MarketState) (subscriber : Subscriber Message) :
    Decidable (Delivered symbol tier market subscriber) :=
  decidable_of_iff ((market.books.get? symbol.symbolId).isSome ∧
      bookChannel symbol tier ∈ subscriber.channels ∧ symbol.symbolId ∉ market.dirty ∧
      bookChannel symbol tier ∉ subscriber.fresh ∧ subscriber.closed = false ∧
      subscriber.inFlight = [] ∧ subscriber.marketQueue = [])
    ⟨fun ⟨known, held, ticked, joined, opened, idle, empty⟩ =>
      ⟨known, held, ticked, joined, opened, idle, empty⟩,
    fun ⟨known, held, ticked, joined, opened, idle, empty⟩ =>
      ⟨known, held, ticked, joined, opened, idle, empty⟩⟩

/-- The last quote that a connection has been sent is of the book there is. -/
theorem last_quote {settings : Settings} {stream : Stream Outbound} {id : ConnectionId}
    {symbol : Symbol} {tier : Tier} {service : Service} {subscriber : Subscriber Message}
    (attended : service.Attended settings stream id symbol tier)
    (present : service.hub.subscribers.get? id = some subscriber)
    (delivered : Delivered symbol tier service.market subscriber) :
    ∃ seq, (bookQuotes symbol tier (subscriber.socket.map Prod.snd)).getLast? =
      some (seq, bookLevels settings (service.market.book symbol.symbolId) tier) := by
  obtain ⟨book, found⟩ := Option.isSome_iff_exists.mp delivered.known
  have shows := attended.current subscriber book present found delivered.held delivered.ticked
    delivered.joined
  have kept : service.market.book symbol.symbolId = book := by
    rw [MarketState.book, Dict.getD, found, Option.getD_some]
  have accepted : lastRead (bookOn (bookChannel symbol tier)) subscriber.accepted =
      (quotes (bookChannel symbol tier) subscriber.accepted).getLast?.map Prod.snd := by
    rw [lastRead, quotes, ← List.getLast?_map, List.map_filterMap]
    simp only [bookOn_eq]
  rw [Service.Shows, accepted] at shows
  obtain ⟨last, sent, same⟩ := Option.map_eq_some_iff.mp shows
  have receives := attended.quoting subscriber present
  have delivers := (attended.orderly id subscriber present).2
  refine ⟨last.1, ?_⟩
  rw [bookQuotes_socket, receives.quotes_all_sent delivers delivered.opened delivered.idle
    delivered.empty, sent, kept, ← same]

/-- A trader joins, another user's order comes, and a tick sends the book it has made. -/
def firstOrder : List Deployment.Action :=
  [.boot .done, .serve (.connect 8),
    .serve (.request 0 (some (.subscribe, [bookChannel ⟨1, "QAA".toList⟩ .l2]))),
    .append 1 [.accountCreated ⟨0, 1, 5, 100000⟩, .orderAccepted ⟨1, 1, 1, 5, 5000, 2, 1, 1, 1⟩],
    .serve .read, .serve .read, .serve (.tick 9), .serve (.resume 0), .serve (.written 0)]

/-- The panel is mounted once the socket is open. -/
def watching : List Screen.Action :=
  [.mount .book "QAA".toList,
    .receive (.book (bookChannel ⟨1, "QAA".toList⟩ .l2) (toLex (1, 1)) 9 [(5000, 2)] [])]

end QuantArena.Web
