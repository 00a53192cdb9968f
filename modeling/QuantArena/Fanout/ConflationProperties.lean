import QuantArena.Fanout.Conflation

/-! What a tick offers to one subscriber, told from its channels alone. -/

set_option autoImplicit false

namespace QuantArena.Fanout

open Foundations

namespace Subscriber

variable {φ : Type}

/-- Several market frames, one after the other. -/
def offerAll (subscriber : Subscriber φ) (frames : List φ) : Subscriber φ :=
  frames.foldl (fun subscriber frame => (subscriber.offerMarket frame).1) subscriber

/-- A subscriber that takes market frames. -/
def Accepting (subscriber : Subscriber φ) : Prop :=
  subscriber.closed = false ∧ subscriber.busy = false

instance (subscriber : Subscriber φ) : Decidable subscriber.Accepting :=
  inferInstanceAs (Decidable (_ ∧ _))

/-- What no offer changes. -/
theorem offerMarket_kept (subscriber : Subscriber φ) (frame : φ) :
    (subscriber.offerMarket frame).1.userId = subscriber.userId ∧
      (subscriber.offerMarket frame).1.channels = subscriber.channels ∧
      (subscriber.offerMarket frame).1.fresh = subscriber.fresh ∧
      (subscriber.offerMarket frame).1.closed = subscriber.closed ∧
      (subscriber.offerMarket frame).1.busy = subscriber.busy := by
  unfold offerMarket
  split
  · exact ⟨rfl, rfl, rfl, rfl, rfl⟩
  · split
    · exact ⟨rfl, rfl, rfl, rfl, rfl⟩
    · exact ⟨rfl, rfl, rfl, rfl, rfl⟩

theorem offerAll_kept (subscriber : Subscriber φ) (frames : List φ) :
    (subscriber.offerAll frames).userId = subscriber.userId ∧
      (subscriber.offerAll frames).channels = subscriber.channels ∧
      (subscriber.offerAll frames).fresh = subscriber.fresh ∧
      (subscriber.offerAll frames).closed = subscriber.closed ∧
      (subscriber.offerAll frames).busy = subscriber.busy := by
  induction frames generalizing subscriber with
  | nil => exact ⟨rfl, rfl, rfl, rfl, rfl⟩
  | cons frame rest ih =>
      obtain ⟨user, channels, fresh, closed, busy⟩ := subscriber.offerMarket_kept frame
      obtain ⟨user', channels', fresh', closed', busy'⟩ := ih (subscriber.offerMarket frame).1
      exact ⟨user'.trans user, channels'.trans channels, fresh'.trans fresh,
        closed'.trans closed, busy'.trans busy⟩

theorem offerAll_append (subscriber : Subscriber φ) (first second : List φ) :
    subscriber.offerAll (first ++ second) = (subscriber.offerAll first).offerAll second :=
  List.foldl_append

theorem offerAll_eq_foldl (subscriber : Subscriber φ) (frames : List φ) :
    subscriber.offerAll frames = (frames.map Move.offerMarket).foldl step subscriber := by
  rw [List.foldl_map]
  rfl

/-- A subscriber that takes market frames takes all of them. -/
theorem offerAll_accepted {subscriber : Subscriber φ} (accepting : subscriber.Accepting)
    (frames : List φ) : (subscriber.offerAll frames).accepted =
      subscriber.accepted ++ frames.map (Lane.marketData, ·) := by
  induction frames generalizing subscriber with
  | nil => simp [offerAll]
  | cons frame rest ih =>
      obtain ⟨closed, busy⟩ := accepting
      have taken : (subscriber.offerMarket frame).1.accepted =
          subscriber.accepted ++ [(Lane.marketData, frame)] := by
        simp [offerMarket, closed, busy]
      obtain ⟨-, -, -, stillOpen, stillFree⟩ := subscriber.offerMarket_kept frame
      have next := @ih (subscriber.offerMarket frame).1
        ⟨stillOpen.trans closed, stillFree.trans busy⟩
      rw [taken] at next
      simpa [offerAll] using next

/-- A subscriber that does not take market frames takes none of them. -/
theorem offerAll_refused {subscriber : Subscriber φ} (refusing : ¬ subscriber.Accepting)
    (frames : List φ) : (subscriber.offerAll frames).accepted = subscriber.accepted := by
  induction frames generalizing subscriber with
  | nil => rfl
  | cons frame rest ih =>
      obtain ⟨-, -, -, closed, busy⟩ := subscriber.offerMarket_kept frame
      have still : ¬ (subscriber.offerMarket frame).1.Accepting := by
        rwa [Accepting, closed, busy]
      have same : (subscriber.offerMarket frame).1.accepted = subscriber.accepted := by
        unfold offerMarket
        split
        · rfl
        · rename_i opened
          split
          · rfl
          · rename_i free
            exact absurd ⟨Bool.eq_false_iff.mpr opened, Bool.eq_false_iff.mpr free⟩ refusing
      exact (ih still).trans same

end Subscriber

namespace Hub

variable {hub before middle after : Hub}

/-- The two indexes name the connections that are there. -/
structure Indexed (hub : Hub) : Prop where
  channel : ∀ channel id, id ∈ hub.byChannel channel ↔
    ∃ subscriber, hub.subscribers.get? id = some subscriber ∧ channel ∈ subscriber.channels
  user : ∀ userId id, id ∈ hub.byUser userId ↔
    ∃ subscriber, hub.subscribers.get? id = some subscriber ∧ subscriber.userId = userId

/-- Every subscriber was offered the frames that its channels call for, and nothing else
happened. -/
structure Relays (before after : Hub)
    (frames : Finset Channel → Finset Channel → List Message) : Prop where
  each : ∀ id, after.subscribers.get? id = (before.subscribers.get? id).map fun subscriber =>
    subscriber.offerAll (frames subscriber.channels subscriber.fresh)
  byChannel : after.byChannel = before.byChannel
  byUser : after.byUser = before.byUser

theorem Relays.refl (hub : Hub) : hub.Relays hub fun _ _ => [] where
  each := fun id => by simp [Subscriber.offerAll]
  byChannel := rfl
  byUser := rfl

theorem Relays.trans {first second : Finset Channel → Finset Channel → List Message}
    (early : before.Relays middle first) (late : middle.Relays after second) :
    before.Relays after fun channels fresh => first channels fresh ++ second channels fresh where
  each := fun id => by
    rw [late.each id, early.each id, Option.map_map]
    refine congrArg (fun change => (before.subscribers.get? id).map change) (funext fun subscriber => ?_)
    obtain ⟨-, channels, fresh, -, -⟩ := subscriber.offerAll_kept
      (first subscriber.channels subscriber.fresh)
    simp only [Function.comp, channels, fresh, Subscriber.offerAll_append]
  byChannel := late.byChannel.trans early.byChannel
  byUser := late.byUser.trans early.byUser

theorem Indexed.relays (indexed : before.Indexed)
    {frames : Finset Channel → Finset Channel → List Message}
    (relays : before.Relays after frames) : after.Indexed where
  channel := fun channel id => by
    rw [relays.byChannel, indexed.channel, relays.each]
    cases before.subscribers.get? id with
    | none => simp
    | some subscriber =>
        simp [(subscriber.offerAll_kept (frames subscriber.channels subscriber.fresh)).2.1]
  user := fun userId id => by
    rw [relays.byUser, indexed.user, relays.each]
    cases before.subscribers.get? id with
    | none => simp
    | some subscriber =>
        simp [(subscriber.offerAll_kept (frames subscriber.channels subscriber.fresh)).1]

/-- One frame, to the connections whose channels call for it. -/
theorem deliver_relays {ids : Finset ConnectionId} {frame : Message}
    {called : Finset Channel → Finset Channel → Prop} [∀ channels fresh, Decidable (called channels fresh)]
    (named : ∀ id subscriber, hub.subscribers.get? id = some subscriber →
      (id ∈ ids ↔ called subscriber.channels subscriber.fresh)) :
    hub.Relays (hub.deliver ids (·.offerMarket frame)).1
      fun channels fresh => if called channels fresh then [frame] else [] where
  each := fun id => by
    simp only [deliver, Dict.get?_mapValues]
    cases found : hub.subscribers.get? id with
    | none => rfl
    | some subscriber =>
        simp only [Option.map_some, Option.some.injEq, named id subscriber found]
        split
        · rfl
        · rfl
  byChannel := rfl
  byUser := rfl

/-- An offer to nobody that the index names. -/
theorem Relays.of_none {called : Finset Channel → Finset Channel → Prop}
    [∀ channels fresh, Decidable (called channels fresh)] (frames : List Message)
    (nobody : ∀ id subscriber, hub.subscribers.get? id = some subscriber →
      ¬ called subscriber.channels subscriber.fresh) :
    hub.Relays hub fun channels fresh => if called channels fresh then frames else [] where
  each := fun id => by
    cases found : hub.subscribers.get? id with
    | none => rfl
    | some subscriber =>
        rw [Option.map_some, if_neg (nobody id subscriber found)]
        rfl
  byChannel := rfl
  byUser := rfl

theorem Indexed.broadcast (indexed : hub.Indexed) (channel : Channel) (frame : Message) :
    hub.Relays (hub.broadcast channel frame).1
      fun channels _ => if channel ∈ channels then [frame] else [] :=
  deliver_relays fun id subscriber found => by simp [listeners, indexed.channel, found]

theorem broadcastAll_relays (frame : Message) :
    hub.Relays (hub.broadcastAll frame).1 fun _ _ => [frame] := by
  have all : hub.Relays (hub.broadcastAll frame).1 fun _ _ => if True then [frame] else [] :=
    deliver_relays fun id subscriber found => by
      simpa using Dict.mem_keys_iff.mpr ⟨subscriber, found⟩
  simpa using all

/-- Counting an encode changes no connection. -/
theorem Relays.of_encode {frames : Finset Channel → Finset Channel → List Message}
    {payload : Message} (relays : (hub.encode payload).1.Relays after frames) :
    hub.Relays after frames := ⟨relays.each, relays.byChannel, relays.byUser⟩

theorem Indexed.encode (indexed : hub.Indexed) (payload : Message) :
    (hub.encode payload).1.Indexed := ⟨indexed.channel, indexed.user⟩

/-- Offers made one after the other, each for what its own part calls for. -/
theorem Relays.foldl {α : Type} {offer : Offered → α → Offered}
    {frames : α → Finset Channel → Finset Channel → List Message} {items : List α}
    (each : ∀ item ∈ items, ∀ offered : Offered, offered.1.Indexed →
      offered.1.Relays (offer offered item).1 (frames item))
    {offered : Offered} (indexed : offered.1.Indexed) :
    offered.1.Relays (items.foldl offer offered).1
      fun channels fresh => items.flatMap fun item => frames item channels fresh := by
  induction items generalizing offered with
  | nil => exact .refl _
  | cons item rest ih =>
      have first := each item List.mem_cons_self offered indexed
      have later := ih (fun other member => each other (List.mem_cons_of_mem _ member))
        (indexed.relays first)
      simpa only [List.flatMap_cons, List.foldl_cons] using first.trans later

theorem Indexed.offered_broadcast {offered : Offered} (indexed : offered.1.Indexed)
    (channel : Channel) (payload : Message) :
    offered.1.Relays (offered.broadcast channel payload).1
      fun channels _ => if channel ∈ channels then [payload] else [] :=
  .of_encode ((indexed.encode payload).broadcast channel payload)

end Hub

/-! ## One tick -/

namespace Conflator

open Hub

variable (settings : Settings) (market : MarketState) (halt : HaltView) (tsNs : Int)

/-- A frame of one book channel is due: the book has moved, or the channel is fresh. -/
def Due (changed : Finset Int) (symbol : Symbol) (tier : Tier)
    (channels fresh : Finset Channel) : Prop :=
  bookChannel symbol tier ∈ channels ∧
    (symbol.symbolId ∈ changed ∨ bookChannel symbol tier ∈ fresh)

instance (changed : Finset Int) (symbol : Symbol) (tier : Tier) (channels fresh : Finset Channel) :
    Decidable (Due changed symbol tier channels fresh) := inferInstanceAs (Decidable (_ ∧ (_ ∨ _)))

def dueHalt (conflator : Conflator) : List Message :=
  if halt.transitions = conflator.haltTransitions then [] else [haltMessage halt]

def dueSymbolBook (changed : Finset Int) (symbol : Symbol) (channels fresh : Finset Channel) :
    List Message :=
  match market.books.get? symbol.symbolId with
  | none => []
  | some book => Tier.all.flatMap fun tier =>
      if Due changed symbol tier channels fresh then
        [bookMessage settings symbol book market.lastSeq tsNs tier]
      else []

def dueBooks (channels fresh : Finset Channel) : List Message :=
  settings.symbols.listed.flatMap fun symbol =>
    dueSymbolBook settings market tsNs market.dirty symbol channels fresh

def duePrints (symbol : Symbol) (channels : Finset Channel) : List Message :=
  if tapeChannel symbol ∈ channels then
    (market.tape.pending.getD symbol.symbolId []).map (Messages.tapePrint symbol)
  else []

def dueTape (channels : Finset Channel) : List Message :=
  settings.symbols.listed.flatMap fun symbol => duePrints market symbol channels

def dueBar (bar : Bar) (channels : Finset Channel) : List Message :=
  match settings.symbols.listed.find? (·.symbolId = bar.symbolId) with
  | none => []
  | some symbol =>
      if barsChannel symbol bar.bucketSeconds settings.realSecondsPerSimulatedMinute ∈ channels then
        [Messages.barClose symbol bar market.lastSeq settings.realSecondsPerSimulatedMinute]
      else []

def dueBars (channels : Finset Channel) : List Message :=
  market.closedBars.flatMap fun bar => dueBar settings market bar channels

/-- Everything a tick offers to a subscriber that holds these channels. -/
def due (conflator : Conflator) (channels fresh : Finset Channel) : List Message :=
  dueHalt halt conflator ++ dueBooks settings market tsNs channels fresh ++
    dueTape settings market channels ++ dueBars settings market channels

/-- The four kinds of message a tick makes. -/
def Made (message : Message) : Prop :=
  (∃ halt, message = haltMessage halt) ∨
    (∃ symbol ∈ settings.symbols.listed, ∃ book seq tsNs tier,
      message = bookMessage settings symbol book seq tsNs tier) ∨
    (∃ symbol ∈ settings.symbols.listed, ∃ trade, message = Messages.tapePrint symbol trade) ∨
    ∃ symbol ∈ settings.symbols.listed, ∃ bar seq, message =
      Messages.barClose symbol bar seq settings.realSecondsPerSimulatedMinute

theorem mem_due {conflator : Conflator} {channels fresh : Finset Channel} {message : Message}
    (member : message ∈ due settings market halt tsNs conflator channels fresh) :
    Made settings message := by
  simp only [due, List.mem_append] at member
  obtain ((halts | quotes) | prints) | closes := member
  · unfold dueHalt at halts
    split at halts
    · cases halts
    · exact .inl ⟨halt, List.mem_singleton.mp halts⟩
  · obtain ⟨symbol, listed, quotes⟩ := List.mem_flatMap.mp quotes
    unfold dueSymbolBook at quotes
    split at quotes
    · cases quotes
    · rename_i book _
      obtain ⟨tier, -, quotes⟩ := List.mem_flatMap.mp quotes
      split at quotes
      · exact .inr (.inl ⟨symbol, listed, book, _, _, tier, List.mem_singleton.mp quotes⟩)
      · cases quotes
  · obtain ⟨symbol, listed, prints⟩ := List.mem_flatMap.mp prints
    unfold duePrints at prints
    split at prints
    · obtain ⟨trade, -, same⟩ := List.mem_map.mp prints
      exact .inr (.inr (.inl ⟨symbol, listed, trade, same.symm⟩))
    · cases prints
  · obtain ⟨bar, -, closes⟩ := List.mem_flatMap.mp closes
    unfold dueBar at closes
    split at closes
    · cases closes
    · rename_i symbol found
      split at closes
      · exact .inr (.inr (.inr ⟨symbol, List.mem_of_find?_eq_some found, bar, _,
          List.mem_singleton.mp closes⟩))
      · cases closes

variable {settings market halt tsNs} {offered : Offered}

theorem haltFrame_relays (conflator : Conflator) :
    offered.1.Relays (conflator.haltFrame halt offered).2.1
      (fun _ _ => dueHalt halt conflator) := by
  unfold haltFrame dueHalt
  split
  · exact .refl _
  · exact .of_encode (broadcastAll_relays _)

theorem bookChannelFrame_relays (indexed : offered.1.Indexed) (changed : Finset Int)
    (symbol : Symbol) (book : Book) (tier : Tier) :
    offered.1.Relays (bookChannelFrame settings market changed tsNs symbol book offered tier).1
      fun channels fresh => if Due changed symbol tier channels fresh then
        [bookMessage settings symbol book market.lastSeq tsNs tier] else [] := by
  have listens : ∀ id subscriber, offered.1.subscribers.get? id = some subscriber →
      (id ∈ offered.1.listeners (bookChannel symbol tier) ↔
        bookChannel symbol tier ∈ subscriber.channels) := fun id subscriber found => by
    simp [listeners, indexed.channel, found]
  have joins : ∀ id subscriber, offered.1.subscribers.get? id = some subscriber →
      (id ∈ joining offered.1 (bookChannel symbol tier) ↔
        bookChannel symbol tier ∈ subscriber.channels ∧
          bookChannel symbol tier ∈ subscriber.fresh) := fun id subscriber found => by
    simp [joining, listens id subscriber found, found]
  simp only [bookChannelFrame]
  split
  · rename_i nobody
    refine .of_none _ fun id subscriber found wanted => ?_
    have listed := (listens id subscriber found).mpr wanted.1
    rw [nobody] at listed
    exact Finset.notMem_empty id listed
  · split
    · rename_i moved
      have relays := indexed.offered_broadcast (bookChannel symbol tier)
        (bookMessage settings symbol book market.lastSeq tsNs tier)
      simpa only [Due, moved, true_or, and_true] using relays
    · rename_i still
      have wanted : ∀ channels fresh, Due changed symbol tier channels fresh ↔
          bookChannel symbol tier ∈ channels ∧ bookChannel symbol tier ∈ fresh := by
        simp only [Due, still, false_or, implies_true]
      simp only [wanted]
      split
      · rename_i nobody
        refine .of_none _ fun id subscriber found both => ?_
        have listed := (joins id subscriber found).mpr both
        rw [nobody] at listed
        exact Finset.notMem_empty id listed
      · exact .of_encode (deliver_relays joins)

theorem symbolBook_relays (indexed : offered.1.Indexed) (changed : Finset Int) (symbol : Symbol) :
    offered.1.Relays (symbolBook settings market changed tsNs offered symbol).1
      (dueSymbolBook settings market tsNs changed symbol) := by
  unfold symbolBook dueSymbolBook
  cases market.books.get? symbol.symbolId with
  | none => exact .refl _
  | some book =>
      exact .foldl (fun tier _ offered indexed =>
        bookChannelFrame_relays indexed changed symbol book tier) indexed

theorem books_relays (indexed : offered.1.Indexed) :
    offered.1.Relays (books settings market tsNs offered).2.1
      (dueBooks settings market tsNs) := by
  exact .foldl (fun symbol _ offered indexed =>
    @symbolBook_relays _ { market with dirty := ∅ } _ _ indexed market.dirty symbol) indexed

theorem prints_relays (indexed : offered.1.Indexed) (symbol : Symbol) (trades : List Trade) :
    offered.1.Relays (trades.foldl (fun offered trade =>
        offered.broadcast (tapeChannel symbol) (Messages.tapePrint symbol trade)) offered).1
      fun channels _ => if tapeChannel symbol ∈ channels then
        trades.map (Messages.tapePrint symbol) else [] := by
  have relays := @Relays.foldl _ _ _ trades
    (fun trade _ (offered : Offered) (indexed : offered.1.Indexed) =>
      indexed.offered_broadcast (tapeChannel symbol) (Messages.tapePrint symbol trade)) _ indexed
  have same : ∀ channels : Finset Channel, (trades.flatMap fun trade =>
      if tapeChannel symbol ∈ channels then [Messages.tapePrint symbol trade] else []) =
      if tapeChannel symbol ∈ channels then trades.map (Messages.tapePrint symbol) else [] := by
    intro channels
    split
    · exact List.flatMap_pure_eq_map ..
    · simp
  simpa only [same] using relays

/-- What the tape's loop leaves: the symbol's prints are offered and gone. -/
theorem symbolTape_relays (indexed : offered.1.Indexed) (symbol : Symbol) :
    (symbolTape (market, offered) symbol).1 = (market.drainTape symbol.symbolId).1 ∧
      offered.1.Relays (symbolTape (market, offered) symbol).2.1
        fun channels _ => duePrints market symbol channels := by
  have shape : symbolTape (market, offered) symbol =
      if market.tape.pending.getD symbol.symbolId [] = [] ∨
          offered.1.listeners (tapeChannel symbol) = ∅ then
        ((market.drainTape symbol.symbolId).1, offered)
      else ((market.drainTape symbol.symbolId).1,
        (market.tape.pending.getD symbol.symbolId []).foldl (fun offered trade =>
          offered.broadcast (tapeChannel symbol) (Messages.tapePrint symbol trade)) offered) := rfl
  rw [shape]
  split
  · rename_i idle
    refine ⟨rfl, ?_⟩
    obtain empty | nobody := idle
    · have none : ∀ channels, duePrints market symbol channels = [] := fun channels => by
        simp [duePrints, empty]
      simpa only [none] using Relays.refl offered.1
    · refine .of_none _ fun id subscriber found wanted => ?_
      have listed : id ∈ offered.1.listeners (tapeChannel symbol) :=
        (indexed.channel _ _).mpr ⟨subscriber, found, wanted⟩
      rw [nobody] at listed
      exact Finset.notMem_empty id listed
  · exact ⟨rfl, prints_relays indexed symbol _⟩

theorem duePrints_drainTape {symbol other : Symbol} (apart : other.symbolId ≠ symbol.symbolId)
    (channels : Finset Channel) :
    duePrints (market.drainTape symbol.symbolId).1 other channels =
      duePrints market other channels := by
  simp only [duePrints, MarketState.drainTape, Tape.drain, Dict.getD, Dict.get?_erase_of_ne _ apart]

theorem foldl_symbolTape_relays {symbols : List Symbol} (apart : (symbols.map (·.symbolId)).Nodup)
    (indexed : offered.1.Indexed) :
    offered.1.Relays (symbols.foldl symbolTape (market, offered)).2.1
      fun channels _ => symbols.flatMap fun symbol => duePrints market symbol channels := by
  induction symbols generalizing market offered with
  | nil => exact .refl _
  | cons symbol rest ih =>
      obtain ⟨fresh, later⟩ := List.nodup_cons.mp apart
      obtain ⟨drained, first⟩ := @symbolTape_relays market offered indexed symbol
      have tail := @ih (symbolTape (market, offered) symbol).1
        (symbolTape (market, offered) symbol).2 later (indexed.relays first)
      have same : ∀ channels, (rest.flatMap fun other =>
          duePrints (symbolTape (market, offered) symbol).1 other channels) =
          rest.flatMap fun other => duePrints market other channels := fun channels =>
        List.flatMap_congr fun other member => by
          rw [drained]
          exact duePrints_drainTape (fun same => fresh (List.mem_map.mpr ⟨other, member, same⟩)) channels
      simp only [same] at tail
      simpa only [List.foldl_cons, List.flatMap_cons] using first.trans tail

theorem barFrame_relays (indexed : offered.1.Indexed) (bar : Bar) :
    offered.1.Relays (barFrame settings market.lastSeq offered bar).1
      fun channels _ => dueBar settings market bar channels := by
  unfold barFrame dueBar
  cases settings.symbols.listed.find? (·.symbolId = bar.symbolId) with
  | none => exact .refl _
  | some symbol =>
      simp only
      split
      · rename_i nobody
        refine .of_none _ fun id subscriber found wanted => ?_
        have listed : id ∈ offered.1.listeners (barsChannel symbol bar.bucketSeconds
          settings.realSecondsPerSimulatedMinute) := (indexed.channel _ _).mpr ⟨subscriber, found, wanted⟩
        rw [nobody] at listed
        exact Finset.notMem_empty id listed
      · exact indexed.offered_broadcast _ _

theorem bars_relays (indexed : offered.1.Indexed) :
    offered.1.Relays (bars settings market offered).2.1
      fun channels _ => dueBars settings market channels :=
  .foldl (fun bar _ _ indexed => barFrame_relays indexed bar) indexed

/-! ## What a tick leaves -/

/-- What a tick does to the market state: nothing stays due. -/
structure Drained (settings : Settings) (before after : MarketState) : Prop where
  books : after.books = before.books
  bars : after.bars = before.bars
  lastSeq : after.lastSeq = before.lastSeq
  dirty : after.dirty = ∅
  closedBars : after.closedBars = []
  listed : ∀ symbol ∈ settings.symbols.listed, after.tape.pending.getD symbol.symbolId [] = []
  others : ∀ symbolId, symbolId ∉ settings.symbols.listed.map (·.symbolId) →
    after.tape.pending.getD symbolId [] = before.tape.pending.getD symbolId []

theorem symbolTape_market (state : MarketState × Offered) (symbol : Symbol) :
    (symbolTape state symbol).1 = (state.1.drainTape symbol.symbolId).1 := by
  unfold symbolTape
  split
  rename_i market trades drained
  rw [drained]
  split
  · rfl
  · rfl

theorem foldl_symbolTape_market (symbols : List Symbol) (state : MarketState × Offered) :
    (symbols.foldl symbolTape state).1 = { state.1 with
      tape := { state.1.tape with
        pending := symbols.foldl (fun pending symbol => pending.erase symbol.symbolId)
          state.1.tape.pending } } := by
  induction symbols generalizing state with
  | nil => rfl
  | cons symbol rest ih =>
      rw [List.foldl_cons, ih, symbolTape_market]
      rfl

theorem get?_foldl_erase (symbols : List Symbol) (pending : Dict Int (List Trade)) (symbolId : Int) :
    (symbols.foldl (fun pending symbol => pending.erase symbol.symbolId) pending).get? symbolId =
      if symbolId ∈ symbols.map (·.symbolId) then none else pending.get? symbolId := by
  induction symbols generalizing pending with
  | nil => simp
  | cons symbol rest ih =>
      simp only [List.foldl_cons, ih, Dict.get?_erase, List.map_cons, List.mem_cons]
      by_cases here : symbolId = symbol.symbolId
      · simp [here]
      · simp [here]

theorem tick_drained (conflator : Conflator) (hub : Hub) :
    Drained settings market (conflator.tick settings halt market hub tsNs).2.1 := by
  have left : (conflator.tick settings halt market hub tsNs).2.1 = { market with
      dirty := ∅
      closedBars := []
      tape := { market.tape with
        pending := settings.symbols.listed.foldl (fun pending symbol =>
          pending.erase symbol.symbolId) market.tape.pending } } := by
    simp only [tick, books, tape, bars, MarketState.drainDirty, MarketState.drainClosedBars,
      foldl_symbolTape_market]
  rw [left]
  refine ⟨rfl, rfl, rfl, rfl, rfl, fun symbol member => ?_, fun symbolId absent => ?_⟩
  · simp only [Dict.getD, get?_foldl_erase, List.mem_map_of_mem member, if_true, Option.getD_none]
  · simp only [Dict.getD, get?_foldl_erase, absent, if_false]

theorem tick_conflator (conflator : Conflator) (hub : Hub) :
    (conflator.tick settings halt market hub tsNs).1.haltTransitions = halt.transitions := by
  simp only [tick, haltFrame]
  split
  · rename_i same
    exact same.symm
  · rfl

/-- What a tick does to a subscriber: it is offered what is due to it, its fresh channels are
forgotten, and what it accepted is handed to its writer. -/
structure Ticked (settings : Settings) (conflator : Conflator) (halt : HaltView)
    (market : MarketState) (tsNs : Int) (before after : Hub) : Prop where
  each : ∀ id, after.subscribers.get? id = (before.subscribers.get? id).map fun subscriber =>
    ((subscriber.offerAll (due settings market halt tsNs conflator subscriber.channels
      subscriber.fresh)).takeFresh.1).flush
  byChannel : after.byChannel = before.byChannel
  byUser : after.byUser = before.byUser

/-- One subscriber after a tick. -/
theorem ticked_kept (subscriber : Subscriber Message) (frames : List Message) :
    ((subscriber.offerAll frames).takeFresh.1).flush.userId = subscriber.userId ∧
      ((subscriber.offerAll frames).takeFresh.1).flush.channels = subscriber.channels ∧
      ((subscriber.offerAll frames).takeFresh.1).flush.fresh = ∅ ∧
      ((subscriber.offerAll frames).takeFresh.1).flush.accepted =
        (subscriber.offerAll frames).accepted := by
  obtain ⟨user, channels, -, -, -⟩ := subscriber.offerAll_kept frames
  unfold Subscriber.flush
  split
  · exact ⟨user, channels, rfl, rfl⟩
  · exact ⟨user, channels, rfl, rfl⟩

theorem Ticked.indexed {conflator : Conflator} {before after : Hub}
    (ticked : Ticked settings conflator halt market tsNs before after) (indexed : before.Indexed) :
    after.Indexed where
  channel := fun channel id => by
    rw [ticked.byChannel, indexed.channel, ticked.each]
    cases before.subscribers.get? id with
    | none => simp
    | some subscriber => simp [(ticked_kept subscriber _).2.1]
  user := fun userId id => by
    rw [ticked.byUser, indexed.user, ticked.each]
    cases before.subscribers.get? id with
    | none => simp
    | some subscriber => simp [(ticked_kept subscriber _).1]

theorem tick_ticked {hub : Hub} (indexed : hub.Indexed) (conflator : Conflator) :
    Ticked settings conflator halt market tsNs hub
      (conflator.tick settings halt market hub tsNs).2.2 := by
  let first := (conflator.haltFrame halt (hub, 0)).2
  let second := books settings market tsNs first
  let third := tape settings second.1 second.2
  let fourth := bars settings third.1 third.2
  have halts : hub.Relays first.1 fun _ _ => dueHalt halt conflator :=
    @haltFrame_relays halt (hub, 0) conflator
  have quotes : first.1.Relays second.2.1 (dueBooks settings market tsNs) :=
    books_relays (indexed.relays halts)
  have quoted := halts.trans quotes
  have prints : second.2.1.Relays third.2.1 fun channels _ => dueTape settings market channels :=
    @foldl_symbolTape_relays second.1 second.2 settings.symbols.listed settings.symbols.ids
      (indexed.relays quoted)
  have printed := quoted.trans prints
  have left : dueBars settings third.1 = dueBars settings market := by
    have market_left : third.1 = _ := foldl_symbolTape_market settings.symbols.listed second
    rw [market_left]
    rfl
  have closed : third.2.1.Relays fourth.2.1 fun channels _ => dueBars settings market channels := by
    rw [← left]
    exact bars_relays (indexed.relays printed)
  have all := printed.trans closed
  have end_eq : (conflator.tick settings halt market hub tsNs).2.2 =
      (takeAllFresh fourth.2.1).flush := rfl
  rw [end_eq]
  refine ⟨fun id => ?_, all.byChannel, all.byUser⟩
  simp only [Hub.flush, takeAllFresh, Dict.get?_mapValues, all.each id, Option.map_map]
  rfl

end Conflator

end QuantArena.Fanout
