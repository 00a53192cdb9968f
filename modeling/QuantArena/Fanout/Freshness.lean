import QuantArena.Fanout.Reading

/-! Which book a client is left with: a frame of a channel is due until a tick clears it, and
the tick clears it whether or not the client took it. -/

set_option autoImplicit false

namespace QuantArena.Fanout

open Foundations Contracts

/-! ## Channels of books -/

theorem bookChannel_inj {symbol other : Symbol} {tier tier' : Tier}
    (same : bookChannel symbol tier = bookChannel other tier') :
    symbol.name = other.name ∧ tier = tier' := by
  have shape : ∀ (symbol : Symbol) (tier : Tier), bookChannel symbol tier =
      "book:".toList ++ (symbol.name ++ (':' :: tier.suffix)) := fun symbol tier => by
    simp [bookChannel, channelOf, List.intercalate, List.intersperse]
  rw [shape, shape] at same
  have long : (':' :: tier.suffix).length = (':' :: tier'.suffix).length := by
    cases tier <;> cases tier' <;> simp [Tier.suffix]
  obtain ⟨names, suffixes⟩ := List.append_inj' (List.append_cancel_left same) long
  refine ⟨names, ?_⟩
  cases tier <;> cases tier' <;> first | rfl | exact absurd suffixes (by simp [Tier.suffix])

/-- What a frame says of the book of one channel. -/
def bookOn (channel : Channel) : Message → Option (List (Int × Int) × List (Int × Int))
  | .book ch _ _ bids asks => if ch = channel then some (bids, asks) else none
  | _ => none

/-- What a frame of this book would say. -/
def bookLevels (settings : Settings) (book : Book) : Tier → List (Int × Int) × List (Int × Int)
  | .l1 => ((book.best (sideCode .buy)).toList, (book.best (sideCode .sell)).toList)
  | .l2 => (book.levels (sideCode .buy) settings.bookDepth,
      book.levels (sideCode .sell) settings.bookDepth)

theorem bookOn_public (channel : Channel) : Public (bookOn channel) := by
  intro frame kind
  cases frame with
  | book _ _ _ _ _ => exact absurd kind (by simp [Message.IsPrivate, Message.IsReply])
  | _ => rfl

theorem bookOn_bookMessage (settings : Settings) (symbol other : Symbol) (book : Book)
    (seq : StreamId) (tsNs : Int) (tier tier' : Tier) :
    bookOn (bookChannel symbol tier) (Conflator.bookMessage settings other book seq tsNs tier') =
      if bookChannel other tier' = bookChannel symbol tier then
        some (bookLevels settings book tier') else none := by
  cases tier' with
  | l1 => rfl
  | l2 => rfl

namespace Conflator

variable {settings : Settings} {market : MarketState} {halt : HaltView} {tsNs : Int}

theorem dueSymbolBook_other (changed : Finset Int) {symbol other : Symbol} (tier : Tier)
    (different : other.name ≠ symbol.name) (channels fresh : Finset Channel) :
    (dueSymbolBook settings market tsNs changed other channels fresh).filterMap
      (bookOn (bookChannel symbol tier)) = [] := by
  unfold dueSymbolBook
  split
  · rfl
  · refine List.filterMap_eq_nil_iff.mpr fun message member => ?_
    obtain ⟨tier', -, member⟩ := List.mem_flatMap.mp member
    split at member
    · rw [List.mem_singleton.mp member, bookOn_bookMessage]
      exact if_neg fun same => different (bookChannel_inj same).1
    · cases member

theorem dueSymbolBook_own (changed : Finset Int) (symbol : Symbol) (tier : Tier)
    (channels fresh : Finset Channel) {book : Book}
    (found : market.books.get? symbol.symbolId = some book) :
    (dueSymbolBook settings market tsNs changed symbol channels fresh).filterMap
      (bookOn (bookChannel symbol tier)) =
        if Due changed symbol tier channels fresh then [bookLevels settings book tier] else [] := by
  have own : ∀ tier', ((if Due changed symbol tier' channels fresh then
      [bookMessage settings symbol book market.lastSeq tsNs tier'] else []).filterMap
        (bookOn (bookChannel symbol tier))) =
      if tier' = tier ∧ Due changed symbol tier channels fresh then
        [bookLevels settings book tier] else [] := by
    intro tier'
    by_cases same : tier' = tier
    · subst same
      by_cases due : Due changed symbol tier' channels fresh
      · simp [due, bookOn_bookMessage]
      · simp [due]
    · have apart : bookChannel symbol tier' ≠ bookChannel symbol tier :=
        fun channels => same (bookChannel_inj channels).2
      by_cases due : Due changed symbol tier' channels fresh
      · simp [due, bookOn_bookMessage, apart, same]
      · simp [due, same]
  simp only [dueSymbolBook, found, Tier.all, List.flatMap_cons, List.flatMap_nil, List.append_nil,
    List.filterMap_append, own]
  cases tier with
  | l1 => simp
  | l2 => simp

/-- What a tick says of one book channel. -/
theorem due_bookOn (conflator : Conflator) {symbol : Symbol}
    (listed : symbol ∈ settings.symbols.listed) (tier : Tier) (channels fresh : Finset Channel)
    {book : Book} (found : market.books.get? symbol.symbolId = some book) :
    (due settings market halt tsNs conflator channels fresh).filterMap
      (bookOn (bookChannel symbol tier)) =
        if Due market.dirty symbol tier channels fresh then [bookLevels settings book tier]
        else [] := by
  have halts : (dueHalt halt conflator).filterMap (bookOn (bookChannel symbol tier)) = [] := by
    unfold dueHalt haltMessage
    split
    · rfl
    · split <;> rfl
  have prints : (dueTape settings market channels).filterMap
      (bookOn (bookChannel symbol tier)) = [] := by
    refine List.filterMap_eq_nil_iff.mpr fun message member => ?_
    obtain ⟨other, -, member⟩ := List.mem_flatMap.mp member
    unfold duePrints at member
    split at member
    · obtain ⟨trade, -, same⟩ := List.mem_map.mp member
      rw [← same]
      rfl
    · cases member
  have closes : (dueBars settings market channels).filterMap
      (bookOn (bookChannel symbol tier)) = [] := by
    refine List.filterMap_eq_nil_iff.mpr fun message member => ?_
    obtain ⟨bar, -, member⟩ := List.mem_flatMap.mp member
    unfold dueBar at member
    split at member
    · cases member
    · split at member
      · rw [List.mem_singleton.mp member]
        rfl
      · cases member
  have quotes : (dueBooks settings market tsNs channels fresh).filterMap
      (bookOn (bookChannel symbol tier)) =
        if Due market.dirty symbol tier channels fresh then [bookLevels settings book tier]
        else [] := by
    have own := @dueSymbolBook_own settings market tsNs market.dirty symbol tier channels fresh
      book found
    rw [dueBooks, List.filterMap_flatMap, ← own]
    exact flatMap_of_one settings.symbols.names listed fun other _ different =>
      dueSymbolBook_other market.dirty tier different channels fresh
  rw [due, List.filterMap_append, List.filterMap_append, List.filterMap_append, halts, prints,
    closes, quotes]
  simp

end Conflator

/-! ## What a run leaves a client with -/

/-- A move that ends with a channel held and not fresh began so. -/
theorem Subscriber.step_settled {channel : Channel} {allowed : Message → Prop}
    {subscriber : Subscriber Message} {move : Move Message} (offers : move.Offers allowed)
    (settled : channel ∈ (subscriber.step move).channels ∧
      channel ∉ (subscriber.step move).fresh) :
    channel ∈ subscriber.channels ∧ channel ∉ subscriber.fresh := by
  cases move with
  | offerMarket _ | takeFresh => exact absurd offers id
  | offerPrivate frame =>
      obtain ⟨-, channels, fresh, -⟩ := subscriber.offerPrivate_kept frame
      simpa only [step, channels, fresh] using settled
  | subscribe asked =>
      simp only [step, subscribe, Finset.mem_union, Finset.mem_sdiff, not_or, not_and, not_not]
        at settled
      obtain ⟨held, old, known⟩ := settled
      exact ⟨held.elim id known, old⟩
  | unsubscribe asked =>
      simp only [step, unsubscribe, Finset.mem_sdiff, not_and, not_not] at settled
      obtain ⟨⟨held, kept⟩, fresh⟩ := settled
      exact ⟨held, fun new => kept (fresh new)⟩
  | flush =>
      have standing := subscriber.standing_of_writes .flush trivial
      rwa [show (subscriber.step .flush).channels = _ from congrArg (·.2.1) standing,
        show (subscriber.step .flush).fresh = _ from congrArg (·.2.2.1) standing] at settled
  | resume =>
      have standing := subscriber.standing_of_writes .resume trivial
      rwa [show (subscriber.step .resume).channels = _ from congrArg (·.2.1) standing,
        show (subscriber.step .resume).fresh = _ from congrArg (·.2.2.1) standing] at settled
  | written =>
      have standing := subscriber.standing_of_writes .written trivial
      rwa [show (subscriber.step .written).channels = _ from congrArg (·.2.1) standing,
        show (subscriber.step .written).fresh = _ from congrArg (·.2.2.1) standing] at settled
  | broken =>
      have standing := subscriber.standing_of_writes .broken trivial
      rwa [show (subscriber.step .broken).channels = _ from congrArg (·.2.1) standing,
        show (subscriber.step .broken).fresh = _ from congrArg (·.2.2.1) standing] at settled
  | stop => exact settled

theorem Subscriber.foldl_settled {channel : Channel} {allowed : Message → Prop}
    {moves : List (Move Message)} (offers : ∀ move ∈ moves, move.Offers allowed)
    {subscriber : Subscriber Message}
    (settled : channel ∈ (moves.foldl step subscriber).channels ∧
      channel ∉ (moves.foldl step subscriber).fresh) :
    channel ∈ subscriber.channels ∧ channel ∉ subscriber.fresh := by
  induction moves generalizing subscriber with
  | nil => exact settled
  | cons move rest ih =>
      exact step_settled (offers move List.mem_cons_self)
        (ih (fun other member => offers other (List.mem_cons_of_mem _ member)) settled)

/-- A book that a record leaves unmarked is the book it was. -/
theorem MarketState.apply_unmarked (market : MarketState) (record : Outbound)
    (streamId : Option StreamId) {symbolId : Int}
    (unmarked : symbolId ∉ (market.apply record streamId).dirty) : symbolId ∉ market.dirty ∧
      (market.apply record streamId).books.get? symbolId = market.books.get? symbolId := by
  have marked : ∀ (state : MarketState) (other : Int) (change : Book → Book),
      symbolId ∉ (state.withBook other change).dirty → symbolId ∉ state.dirty ∧
        (state.withBook other change).books.get? symbolId = state.books.get? symbolId := by
    intro state other change still
    simp only [withBook, Finset.mem_insert, not_or] at still
    exact ⟨still.2, Dict.get?_set_of_ne _ _ still.1⟩
  cases record with
  | orderAccepted accepted => exact marked _ _ _ unmarked
  | fill fill =>
      exact marked { market with
          lastSeq := streamId.getD market.lastSeq
          recordsApplied := market.recordsApplied + 1 } fill.symbolId
        (fun book => (book.fill fill.makerOrderId fill.qty).fill fill.takerOrderId fill.qty) unmarked
  | orderCancelled cancelled => exact marked _ _ _ unmarked
  | _ => exact ⟨unmarked, rfl⟩

namespace Service

variable {settings : Settings} {service : Service} {id : ConnectionId} {symbol : Symbol}
  {tier : Tier}

/-- The last book frame accepted on the channel describes this book. -/
def Shows (settings : Settings) (symbol : Symbol) (tier : Tier) (book : Book)
    (subscriber : Subscriber Message) : Prop :=
  lastRead (bookOn (bookChannel symbol tier)) subscriber.accepted =
    some (bookLevels settings book tier)

/-- The subscriber shows the book of a channel that it holds, or a frame of it is due. -/
def Current (settings : Settings) (id : ConnectionId) (symbol : Symbol) (tier : Tier)
    (service : Service) : Prop :=
  ∀ subscriber book, service.hub.subscribers.get? id = some subscriber →
    service.market.books.get? symbol.symbolId = some book →
    bookChannel symbol tier ∈ subscriber.channels → symbol.symbolId ∉ service.market.dirty →
    bookChannel symbol tier ∉ subscriber.fresh → Shows settings symbol tier book subscriber

/-- At a tick where a frame of the channel is due to the subscriber, it takes market frames. -/
def TakesBook (id : ConnectionId) (symbol : Symbol) (tier : Tier) (service : Service) :
    Action → Prop
  | .tick _ => ∀ subscriber ∈ service.hub.subscribers.get? id,
      (service.market.books.get? symbol.symbolId).isSome →
      Conflator.Due service.market.dirty symbol tier subscriber.channels subscriber.fresh →
      subscriber.Accepting
  | _ => True

instance (service : Service) : (action : Action) → Decidable (service.TakesBook id symbol tier action)
  | .tick _ => inferInstanceAs (Decidable (∀ _ ∈ _, _))
  | .read | .refresh _ | .connect _ | .request _ _ | .leave _ | .resume _ | .written _
  | .broken _ => .isTrue trivial

theorem step_market {action : Action} (noTick : ∀ tsNs, action ≠ .tick tsNs) :
    (symbol.symbolId ∉ (service.step settings action).market.dirty →
      symbol.symbolId ∉ service.market.dirty ∧
      (service.step settings action).market.books.get? symbol.symbolId =
        service.market.books.get? symbol.symbolId) := by
  intro unmarked
  cases action with
  | tick tsNs => exact absurd rfl (noTick tsNs)
  | read =>
      cases following : service.ahead with
      | nil =>
          simp only [Service.step, Service.read, following] at unmarked ⊢
          exact ⟨unmarked, trivial⟩
      | cons entry rest =>
          simp only [Service.step, Service.read, following] at unmarked ⊢
          exact service.market.apply_unmarked entry.2 (some entry.1) unmarked
  | request other frame =>
      simp only [Service.step] at unmarked ⊢
      split at unmarked
      · exact ⟨unmarked, by simp_all⟩
      · exact ⟨unmarked, by simp_all⟩
  | _ => exact ⟨unmarked, rfl⟩

/-- What a tick that meets the condition leaves. -/
theorem Current.tick (listed : symbol ∈ settings.symbols.listed) (sound : service.Sound)
    (current : service.Current settings id symbol tier) {tsNs : Int}
    (takes : service.TakesBook id symbol tier (.tick tsNs)) {after : Subscriber Message} {book : Book}
    (present : (service.step settings (.tick tsNs)).hub.subscribers.get? id = some after)
    (found : (service.step settings (.tick tsNs)).market.books.get? symbol.symbolId = some book)
    (held : bookChannel symbol tier ∈ after.channels) : Shows settings symbol tier book after := by
  have ticked : Conflator.Ticked settings service.conflator service.halt service.market tsNs
      service.hub (service.step settings (.tick tsNs)).hub :=
    Conflator.tick_ticked sound.indexed service.conflator
  have drained : Conflator.Drained settings service.market
      (service.step settings (.tick tsNs)).market := Conflator.tick_drained service.conflator service.hub
  rw [ticked.each id] at present
  obtain ⟨subscriber, was, rfl⟩ := Option.map_eq_some_iff.mp present
  rw [drained.books] at found
  rw [(Conflator.ticked_kept subscriber _).2.1] at held
  rw [Shows, lastRead_ticked, Conflator.due_bookOn service.conflator listed tier _ _ found]
  by_cases due : Conflator.Due service.market.dirty symbol tier subscriber.channels subscriber.fresh
  · rw [if_pos (takes subscriber was (by simp [found]) due), if_pos due]
    rfl
  · have settled : symbol.symbolId ∉ service.market.dirty ∧
        bookChannel symbol tier ∉ subscriber.fresh := by
      simpa [Conflator.Due, held] using due
    have shows := current subscriber book was found held settled.1 settled.2
    rw [if_neg due]
    split
    · exact shows
    · exact shows

theorem Current.step (listed : symbol ∈ settings.symbols.listed) (sound : service.Sound)
    (current : service.Current settings id symbol tier) (action : Action)
    (takes : service.TakesBook id symbol tier action) :
    (service.step settings action).Current settings id symbol tier := by
  by_cases ticks : ∃ tsNs, action = .tick tsNs
  · obtain ⟨tsNs, rfl⟩ := ticks
    exact fun after book present found held _ _ => current.tick listed sound takes present found held
  · intro after book present found held unmarked unfresh
    have noTick : ∀ tsNs, action ≠ .tick tsNs := fun tsNs same => ticks ⟨tsNs, same⟩
    obtain ⟨before, books⟩ := step_market noTick unmarked
    obtain ⟨userId, -, -, new⟩ | ⟨subscriber, was, moved⟩ := sound.step_cases present
    · rw [new] at held
      exact absurd held (Finset.notMem_empty _)
    · have offers := @movesFor_offers settings service _ noTick id subscriber
      rw [moved] at held unfresh
      obtain ⟨held, unfresh⟩ := Subscriber.foldl_settled offers ⟨held, unfresh⟩
      rw [moved, Shows, lastRead_of_offers (bookOn_public _) offers]
      exact current subscriber book was (books ▸ found) held before unfresh

theorem run_current (listed : symbol ∈ settings.symbols.listed) (sound : service.Sound)
    (current : service.Current settings id symbol tier)
    {actions : List Action}
    (along : Along (Service.step settings) (TakesBook id symbol tier) service actions) :
    (actions.foldl (Service.step settings) service).Current settings id symbol tier := by
  induction actions generalizing service with
  | nil => exact current
  | cons action rest ih =>
      exact ih (sound.step settings action).1 (current.step listed sound action along.1) along.2

/-- A subscriber that takes market frames at every tick where a frame of a book channel is due to
it shows the current book of every such channel after every tick. -/
theorem book_shown_after_every_tick (settings : Settings) (market : MarketState)
    (ahead : List (StreamId × Outbound)) (id : ConnectionId) (symbol : Symbol)
    (listed : symbol ∈ settings.symbols.listed) (tier : Tier) (actions : List Action)
    (along : Along (Service.step settings) (TakesBook id symbol tier) (start market ahead) actions)
    (before after : List Action) (tsNs : Int) (split : actions = before ++ .tick tsNs :: after)
    (subscriber : Subscriber Message) (book : Book)
    (present : (((before.foldl (Service.step settings) (start market ahead)).step settings
      (.tick tsNs)).hub.subscribers.get? id) = some subscriber)
    (found : ((before.foldl (Service.step settings) (start market ahead)).step settings
      (.tick tsNs)).market.books.get? symbol.symbolId = some book)
    (held : bookChannel symbol tier ∈ subscriber.channels) :
    Shows settings symbol tier book subscriber := by
  rw [split] at along
  obtain ⟨early, takes, -⟩ := Along.append_iff.mp along
  have initially : (start market ahead).Current settings id symbol tier := fun _ _ present => by
    rw [(start_sound market ahead).counted id (Nat.zero_le id)] at present
    cases present
  have reached := run_sound settings (start_sound market ahead) (start_orderly market ahead) before
  have current := run_current listed (start_sound market ahead) initially early
  exact current.tick listed reached.1 takes present found held

/-- A client that is free at both ticks, and another user's order between them. -/
def freeClient : Service × List Action :=
  (start (.new []) [(⟨1, 0⟩, .orderAccepted ⟨9, 1, 1, 8, 500, 3, 1, 1, 1⟩)],
    [.connect 7, .request 0 (some (.subscribe, [bookChannel ⟨1, "QAA".toList⟩ .l1])), .tick 10,
      .read, .tick 20])

/-- It shows the book that the order has made. -/
theorem free_client_shows_the_book : ∃ subscriber book,
    (freeClient.2.foldl (Service.step oneSymbol) freeClient.1).hub.subscribers.get? 0 =
      some subscriber ∧
    (freeClient.2.foldl (Service.step oneSymbol) freeClient.1).market.books.get? 1 = some book ∧
    Shows oneSymbol ⟨1, "QAA".toList⟩ .l1 book subscriber := by
  have along : Along (Service.step oneSymbol) (TakesBook 0 ⟨1, "QAA".toList⟩ .l1) freeClient.1
      freeClient.2 := by decide
  have holds : ((freeClient.2.foldl (Service.step oneSymbol) freeClient.1).hub.subscribers.get?
      0).map (fun subscriber => decide (bookChannel ⟨1, "QAA".toList⟩ .l1 ∈ subscriber.channels)) =
        some true := by decide
  have booked : ((freeClient.2.foldl (Service.step oneSymbol) freeClient.1).market.books.get?
      1).isSome = true := by decide
  obtain ⟨subscriber, present, held⟩ := Option.map_eq_some_iff.mp holds
  obtain ⟨book, found⟩ := Option.isSome_iff_exists.mp booked
  exact ⟨subscriber, book, present, found, book_shown_after_every_tick oneSymbol (.new []) _ 0
    ⟨1, "QAA".toList⟩ List.mem_cons_self .l1 freeClient.2 along (freeClient.2.take 4) [] 20 rfl
    subscriber book present found (of_decide_eq_true held)⟩

/-- A client subscribes to a book while it is still taking the acceptance of its own order. -/
def subscribedWhileBusy : Service :=
  [.connect 7, .read, .resume 0,
    .request 0 (some (.subscribe, [bookChannel ⟨1, "QAA".toList⟩ .l1])), .tick 10, .written 0,
    .tick 20].foldl (Service.step oneSymbol)
    (start (.new []) [(⟨1, 0⟩, .orderAccepted ⟨9, 1, 1, 7, 500, 3, 1, 1, 1⟩)])

/-- It is never sent the book, although it is free at the second tick. -/
theorem no_frame_after_a_busy_tick : ∃ subscriber book,
    subscribedWhileBusy.hub.subscribers.get? 0 = some subscriber ∧
    subscribedWhileBusy.market.books.get? 1 = some book ∧
    bookChannel ⟨1, "QAA".toList⟩ .l1 ∈ subscriber.channels ∧ subscriber.busy = false ∧
    ¬ Shows oneSymbol ⟨1, "QAA".toList⟩ .l1 book subscriber := by
  have client : (subscribedWhileBusy.hub.subscribers.get? 0).map (fun subscriber =>
      (decide (bookChannel ⟨1, "QAA".toList⟩ .l1 ∈ subscriber.channels), subscriber.busy,
        (lastRead (bookOn (bookChannel ⟨1, "QAA".toList⟩ .l1)) subscriber.accepted).isNone)) =
      some (true, false, true) := by decide
  have booked : (subscribedWhileBusy.market.books.get? 1).isSome = true := by decide
  obtain ⟨subscriber, present, facts⟩ := Option.map_eq_some_iff.mp client
  obtain ⟨book, found⟩ := Option.isSome_iff_exists.mp booked
  simp only [Prod.mk.injEq, decide_eq_true_eq] at facts
  obtain ⟨held, free, nothing⟩ := facts
  refine ⟨subscriber, book, present, found, held, free, fun shows => ?_⟩
  rw [Shows] at shows
  rw [shows] at nothing
  cases nothing

end Service

end QuantArena.Fanout
