import QuantArena.Fanout.Follows
import QuantArena.Fanout.Freshness
import QuantArena.Fanout.ProcessProperties

/-! The books that a connection is sent, with the ids they are sent under. Two frames of a channel
under one id show one book. -/

set_option autoImplicit false

namespace QuantArena.Fanout

open Foundations Foundations.PriceTime Contracts

/-! ## Levels of books that hold the same -/

namespace Book

variable {left right : Book}

theorem totals_same (same : left.orders.Same right.orders) (side : Int) :
    (left.totals side).Same (right.totals side) := by
  have gathered : ∀ book : Book, book.totals side =
      (book.orders.values.filter fun order => order.side = side ∧ order.remainingQty > 0).foldl
        (fun totals order => totals.add order.priceTicks order.remainingQty) .empty := by
    intro book
    rw [totals, List.foldl_filter]
    simp only [decide_eq_true_eq]
  have listed := same.values_perm.filter fun order : RestingOrder =>
    order.side = side ∧ order.remainingQty > 0
  intro price
  rw [gathered, gathered, Dict.get?_foldl_add, Dict.get?_foldl_add,
    ((listed.filter _).map RestingOrder.remainingQty).sum_eq]
  simp only [listed.mem_iff]

theorem before_antisymm {side : Int} {first second : Int × Int} (below : before side first second = true)
    (above : before side second first = true) : first.1 = second.1 := by
  unfold before at below above
  split at below
  · rename_i buys
    rw [if_pos buys] at above
    simp only [decide_eq_true_eq] at below above
    omega
  · rename_i sells
    rw [if_neg sells] at above
    simp only [decide_eq_true_eq] at below above
    omega

theorem levels_same (same : left.orders.Same right.orders) (side : Side) (depth : Nat) :
    left.levels (sideCode side) depth = right.levels (sideCode side) depth := by
  have listed := (totals_same same (sideCode side)).entries_perm
  have sorted := ((List.mergeSort_perm _ (before (sideCode side))).trans listed).trans
    (List.mergeSort_perm _ (before (sideCode side))).symm
  rw [levels, levels, sorted.eq_of_pairwise ?_ (before_sorted side _) (before_sorted side _)]
  intro first second one other below above
  have inside := List.mem_mergeSort.mp one
  have member := listed.mem_iff.mpr (List.mem_mergeSort.mp other)
  exact List.inj_on_of_nodup_map (left.totals (sideCode side)).unique inside member
    (before_antisymm below above)

end Book

theorem bookLevels_same {left right : Book} (settings : Settings)
    (same : left.orders.Same right.orders) (tier : Tier) :
    bookLevels settings left tier = bookLevels settings right tier := by
  cases tier with
  | l1 => simp only [bookLevels, Book.best, Book.levels_same same]
  | l2 => simp only [bookLevels, Book.levels_same same]

/-! ## Quotes -/

/-- The id and the book that a frame of one channel carries. -/
def quoteOn (channel : Channel) : Message → Option (StreamId × List (Int × Int) × List (Int × Int))
  | .book ch seq _ bids asks => if ch = channel then some (seq, bids, asks) else none
  | _ => none

theorem bookOn_eq (channel : Channel) (message : Message) :
    bookOn channel message = (quoteOn channel message).map Prod.snd := by
  cases message with
  | book ch seq tsNs bids asks =>
      by_cases own : ch = channel
      · simp [bookOn, quoteOn, own]
      · simp [bookOn, quoteOn, own]
  | _ => rfl

theorem quoteOn_public (channel : Channel) : Public (quoteOn channel) := by
  intro frame kind
  cases frame with
  | book _ _ _ _ _ => exact absurd kind (by simp [Message.IsPrivate, Message.IsReply])
  | _ => rfl

def quotes (channel : Channel) (frames : List (Lane × Message)) :
    List (StreamId × List (Int × Int) × List (Int × Int)) :=
  frames.filterMap fun entry => quoteOn channel entry.2

variable {settings : Settings} {market : MarketState} {symbol : Symbol} {tier : Tier}

/-- What a tick quotes is the book there is, under the id there is. -/
theorem Conflator.due_quoteOn {halt : HaltView} {tsNs : Int} {conflator : Conflator}
    {channels fresh : Finset Channel} (listed : symbol ∈ settings.symbols.listed) :
    ∀ quote ∈ (due settings market halt tsNs conflator channels fresh).filterMap
      (quoteOn (bookChannel symbol tier)), bookChannel symbol tier ∈ channels ∧
        quote = (market.lastSeq, bookLevels settings (market.book symbol.symbolId) tier) := by
  intro quote member
  obtain ⟨message, due_, quoted⟩ := List.mem_filterMap.mp member
  simp only [due, List.mem_append] at due_
  obtain ((halts | books) | prints) | closes := due_
  · unfold dueHalt haltMessage at halts
    split at halts
    · cases halts
    · cases List.mem_singleton.mp halts
      split at quoted
      · cases quoted
      · cases quoted
  · obtain ⟨other, here, books⟩ := List.mem_flatMap.mp books
    unfold dueSymbolBook at books
    split at books
    · cases books
    · rename_i book found
      obtain ⟨tier', _, books⟩ := List.mem_flatMap.mp books
      split at books
      · rename_i offered
        cases List.mem_singleton.mp books
        have shape : quoteOn (bookChannel symbol tier)
            (bookMessage settings other book market.lastSeq tsNs tier') =
              if bookChannel other tier' = bookChannel symbol tier then
                some (market.lastSeq, bookLevels settings book tier') else none := by
          cases tier' <;> rfl
        rw [shape] at quoted
        split at quoted
        · rename_i same
          obtain ⟨names, rfl⟩ := bookChannel_inj same
          have own := List.inj_on_of_nodup_map settings.symbols.names here listed names
          subst own
          cases quoted
          have kept : market.book other.symbolId = book := by
            rw [MarketState.book, Dict.getD, found, Option.getD_some]
          rw [kept]
          exact ⟨offered.1, rfl⟩
        · cases quoted
      · cases books
  · obtain ⟨other, _, prints⟩ := List.mem_flatMap.mp prints
    unfold duePrints at prints
    split at prints
    · obtain ⟨trade, _, rfl⟩ := List.mem_map.mp prints
      cases quoted
    · cases prints
  · obtain ⟨bar, _, closes⟩ := List.mem_flatMap.mp closes
    unfold dueBar at closes
    split at closes
    · cases closes
    · split at closes
      · cases List.mem_singleton.mp closes
        cases quoted
      · cases closes

/-- Quotes of one channel: none is past the position, one at the position is of the book there,
and two under one id are of one book. -/
structure Quoted (settings : Settings) (market : MarketState) (symbol : Symbol) (tier : Tier)
    (sent : List (StreamId × List (Int × Int) × List (Int × Int))) : Prop where
  same : sent.Pairwise fun early late => early.1 = late.1 → early.2 = late.2
  reached : ∀ quote ∈ sent, quote.1 ≤ market.lastSeq
  current : ∀ quote ∈ sent, quote.1 = market.lastSeq →
    quote.2 = bookLevels settings (market.book symbol.symbolId) tier

namespace Quoted

variable {sent : List (StreamId × List (Int × Int) × List (Int × Int))}

theorem tick (quoted : Quoted settings market symbol tier sent)
    {more : List (StreamId × List (Int × Int) × List (Int × Int))}
    (now : ∀ quote ∈ more,
      quote = (market.lastSeq, bookLevels settings (market.book symbol.symbolId) tier)) :
    Quoted settings market symbol tier (sent ++ more) := by
  constructor
  · apply List.pairwise_append.mpr
    constructor
    · exact quoted.same
    constructor
    · exact List.pairwise_of_forall_mem_list fun first one second other _ => by
        rw [now first one, now second other]
    · intro early one late other equal
      rw [now late other] at equal ⊢
      exact quoted.current early one equal
  · intro quote member
    cases List.mem_append.mp member with
    | inl old => exact quoted.reached quote old
    | inr new => rw [now quote new]
  · intro quote member equal
    cases List.mem_append.mp member with
    | inl old => exact quoted.current quote old equal
    | inr new => rw [now quote new]

/-- A record moves the position past everything that was sent. -/
theorem apply (quoted : Quoted settings market symbol tier sent) (record : Outbound)
    {streamId : StreamId} (later : market.lastSeq < streamId) :
    Quoted settings (market.apply record (some streamId)) symbol tier sent := by
  have position := MarketState.apply_lastSeq market record streamId
  constructor
  · exact quoted.same
  · intro quote member
    rw [position]
    exact (quoted.reached quote member).trans later.le
  · intro quote member equal
    rw [position] at equal
    exact absurd (quoted.reached quote member) (by rw [equal]; exact not_le.mpr later)

theorem congr {after : MarketState} (quoted : Quoted settings market symbol tier sent)
    (alike : after.Alike market) : Quoted settings after symbol tier sent := by
  constructor
  · exact quoted.same
  · intro quote member
    rw [alike.lastSeq]
    exact quoted.reached quote member
  · intro quote member equal
    rw [quoted.current quote member (equal.trans alike.lastSeq)]
    exact (bookLevels_same settings (alike.books symbol.symbolId) tier).symm

theorem nil : Quoted settings market symbol tier [] := by
  constructor
  · exact .nil
  · intro quote member
    cases member
  · intro quote member
    cases member

end Quoted

/-! ## What one connection is sent -/

theorem quotes_append (channel : Channel) (first second : List (Lane × Message)) :
    quotes channel (first ++ second) = quotes channel first ++ quotes channel second :=
  List.filterMap_append

theorem quotes_map (channel : Channel) (lane : Lane) (frames : List Message) :
    quotes channel (frames.map (lane, ·)) = frames.filterMap (quoteOn channel) := by
  simp [quotes, List.filterMap_map]

/-- A channel that no move asks for is not held. -/
theorem Subscriber.step_unasked {channel : Channel} {allowed : Message → Prop}
    {subscriber : Subscriber Message} {move : Move Message} (offers : move.Offers allowed)
    (unasked : ∀ asked, move = .subscribe asked → channel ∉ asked)
    (without : channel ∉ subscriber.channels) : channel ∉ (subscriber.step move).channels := by
  cases move with
  | offerMarket _ | takeFresh => exact absurd offers id
  | offerPrivate frame =>
      obtain ⟨-, channels, -⟩ := subscriber.offerPrivate_kept frame
      rwa [show (subscriber.step (.offerPrivate frame)).channels = _ from channels]
  | subscribe asked =>
      simp only [step, subscribe, Finset.mem_union, not_or]
      exact ⟨without, unasked asked rfl⟩
  | unsubscribe asked =>
      simp only [step, unsubscribe, Finset.mem_sdiff, not_and]
      exact fun held => absurd held without
  | flush => rwa [(subscriber.kept_of_writes (show Move.Writes .flush from trivial)).2]
  | resume => rwa [(subscriber.kept_of_writes (show Move.Writes .resume from trivial)).2]
  | written => rwa [(subscriber.kept_of_writes (show Move.Writes .written from trivial)).2]
  | broken => rwa [(subscriber.kept_of_writes (show Move.Writes .broken from trivial)).2]
  | stop => exact without

theorem Subscriber.foldl_unasked {channel : Channel} {allowed : Message → Prop}
    {moves : List (Move Message)} (offers : ∀ move ∈ moves, move.Offers allowed)
    (unasked : ∀ asked, .subscribe asked ∈ moves → channel ∉ asked)
    {subscriber : Subscriber Message} (without : channel ∉ subscriber.channels) :
    channel ∉ (moves.foldl step subscriber).channels := by
  induction moves generalizing subscriber with
  | nil => exact without
  | cons move rest ih =>
      apply ih
      · exact fun other member => offers other (List.mem_cons_of_mem _ member)
      · exact fun asked member => unasked asked (List.mem_cons_of_mem _ member)
      · exact step_unasked (offers move List.mem_cons_self)
          (fun asked same => unasked asked (same ▸ List.mem_cons_self)) without

/-- What a connection that asks for one tier of a symbol's book has been sent. -/
structure SentBooks (settings : Settings) (kind : StreamId → Prop) (market : MarketState)
    (symbol : Symbol) (tier : Tier) (subscriber : Subscriber Message) : Prop where
  origin : ∀ entry ∈ subscriber.accepted, entry.1 = .marketData ∧ Conflator.Made settings entry.2 ∨
    entry.1 = .privateData ∧ (entry.2.IsPrivate ∨ entry.2.IsReply)
  quoted : Quoted settings market symbol tier
    (quotes (bookChannel symbol tier) subscriber.accepted)
  kinds : ∀ quote ∈ quotes (bookChannel symbol tier) subscriber.accepted, kind quote.1
  apart : ∀ other, other ≠ tier → bookChannel symbol other ∉ subscriber.channels ∧
    quotes (bookChannel symbol other) subscriber.accepted = []

namespace SentBooks

variable {settings : Settings} {market : MarketState} {symbol : Symbol} {tier : Tier}
  {subscriber : Subscriber Message} {kind : StreamId → Prop}

theorem new (userId : Int) (privateMax : Nat) :
    SentBooks settings kind market symbol tier (.new userId privateMax) := by
  constructor
  · intro entry member
    cases member
  · exact .nil
  · intro quote member
    cases member
  · exact fun other _ => ⟨Finset.notMem_empty _, rfl⟩

theorem offered (receives : SentBooks settings kind market symbol tier subscriber)
    {after : Subscriber Message} {frames : List Message}
    (quiet : ∀ frame ∈ frames, frame.IsPrivate ∨ frame.IsReply)
    (accepted : after.accepted = subscriber.accepted ++ frames.map (Lane.privateData, ·))
    (without : ∀ other, other ≠ tier → bookChannel symbol other ∉ after.channels) :
    SentBooks settings kind market symbol tier after := by
  have same : ∀ channel, quotes channel after.accepted = quotes channel subscriber.accepted := by
    intro channel
    rw [accepted, quotes_append, quotes_map, List.filterMap_eq_nil_iff.mpr fun frame member =>
      quoteOn_public channel frame (quiet frame member), List.append_nil]
  constructor
  · intro entry member
    rw [accepted] at member
    cases List.mem_append.mp member with
    | inl old => exact receives.origin entry old
    | inr new =>
        obtain ⟨frame, inside, rfl⟩ := List.mem_map.mp new
        exact .inr ⟨rfl, quiet frame inside⟩
  · rw [same]
    exact receives.quoted
  · rw [same]
    exact receives.kinds
  · intro other different
    rw [same]
    exact ⟨without other different, (receives.apart other different).2⟩

theorem ticked (receives : SentBooks settings kind market symbol tier subscriber)
    (listed : symbol ∈ settings.symbols.listed) (place : kind market.lastSeq) (halt : HaltView)
    (tsNs : Int) (conflator : Conflator) : SentBooks settings kind market symbol tier
      ((subscriber.offerAll (Conflator.due settings market halt tsNs conflator subscriber.channels
        subscriber.fresh)).takeFresh.1).flush := by
  obtain ⟨-, channels, -, accepted⟩ := Conflator.ticked_kept subscriber
    (Conflator.due settings market halt tsNs conflator subscriber.channels subscriber.fresh)
  by_cases accepting : subscriber.Accepting
  · rw [Subscriber.offerAll_accepted accepting] at accepted
    constructor
    · intro entry member
      rw [accepted] at member
      cases List.mem_append.mp member with
      | inl old => exact receives.origin entry old
      | inr new =>
          obtain ⟨frame, inside, rfl⟩ := List.mem_map.mp new
          exact .inl ⟨rfl, Conflator.mem_due _ _ _ _ inside⟩
    · rw [accepted, quotes_append, quotes_map]
      exact receives.quoted.tick fun quote member =>
        (Conflator.due_quoteOn listed quote member).2
    · rw [accepted, quotes_append, quotes_map]
      intro quote member
      cases List.mem_append.mp member with
      | inl old => exact receives.kinds quote old
      | inr new =>
          rw [(Conflator.due_quoteOn listed quote new).2]
          exact place
    · intro other different
      obtain ⟨without, none⟩ := receives.apart other different
      rw [channels, accepted, quotes_append, quotes_map, none, List.nil_append]
      refine ⟨without, List.eq_nil_iff_forall_not_mem.mpr fun quote member => ?_⟩
      exact without (Conflator.due_quoteOn listed quote member).1
  · rw [Subscriber.offerAll_refused accepting] at accepted
    constructor
    · rw [accepted]
      exact receives.origin
    · rw [accepted]
      exact receives.quoted
    · rw [accepted]
      exact receives.kinds
    · rw [channels, accepted]
      exact receives.apart

/-- Nothing of the book is on the private queue. -/
theorem quotes_eq (receives : SentBooks settings kind market symbol tier subscriber)
    {frames : List (Lane × Message)} (within : ∀ entry ∈ frames, entry ∈ subscriber.accepted)
    (channel : Channel) : quotes channel frames =
      (Subscriber.ofLane .marketData frames).filterMap (quoteOn channel) :=
  filterMap_read_eq (quoteOn_public channel) fun entry member =>
    (receives.origin entry (within entry member)).imp_left And.left

theorem quotes_sent (receives : SentBooks settings kind market symbol tier subscriber)
    (delivers : subscriber.Delivers) (channel : Channel) :
    (quotes channel subscriber.socket).Sublist (quotes channel subscriber.accepted) := by
  rw [receives.quotes_eq (fun _ => id), receives.quotes_eq fun _ => delivers.mem_accepted]
  exact (delivers.sent .marketData).sublist.filterMap _

/-- Once the writer has sent what it was handed, all quotes are sent. -/
theorem quotes_all_sent (receives : SentBooks settings kind market symbol tier subscriber)
    (delivers : subscriber.Delivers) (opened : subscriber.closed = false)
    (idle : subscriber.inFlight = []) (empty : subscriber.marketQueue = []) (channel : Channel) :
    quotes channel subscriber.socket = quotes channel subscriber.accepted := by
  have whole := delivers.whole opened .marketData
  rw [idle, show subscriber.queue .marketData = [] from empty, Subscriber.ofLane_nil,
    List.append_nil, List.append_nil] at whole
  rw [receives.quotes_eq (fun _ => id), receives.quotes_eq fun _ => delivers.mem_accepted, whole]

end SentBooks

namespace Service

variable {settings : Settings} {service : Service} {id : ConnectionId} {symbol : Symbol}
  {tier : Tier} {barWidths : List BarWidth} {stream : Stream Outbound} {seen : Nat}
  {kind : StreamId → Prop}

/-- The connection asks for the symbol's book in no other tier. -/
def OneTier (id : ConnectionId) (symbol : Symbol) (tier : Tier) : Action → Prop
  | .request other (some (.subscribe, asked)) => other = id →
      ∀ another ∈ Tier.all, another ≠ tier → bookChannel symbol another ∉ asked
  | _ => True

instance : (action : Action) → Decidable (OneTier id symbol tier action)
  | .request _ (some (.subscribe, _)) => inferInstanceAs (Decidable (_ → ∀ _ ∈ _, _))
  | .request _ (some (.unsubscribe, _)) | .request _ (some (.other _, _)) | .request _ none
  | .read | .tick _ | .refresh _ | .connect _ | .leave _ | .resume _ | .written _
  | .broken _ => .isTrue trivial

theorem subscribes_asked {action : Action} {subscriber : Subscriber Message}
    {channels : Finset Channel}
    (member : Move.subscribe channels ∈ service.movesFor settings id subscriber action) :
    ∃ asked, action = .request id (some (.subscribe, asked)) ∧
      ∀ channel ∈ channels, channel ∈ asked := by
  cases action with
  | request other frame =>
      simp only [movesFor] at member
      split at member
      · rename_i own
        subst own
        cases frame with
        | none => simp [requestMoves, replyMoves] at member
        | some frame =>
            obtain ⟨op, asked⟩ := frame
            simp only [requestMoves, List.mem_append] at member
            cases member with
            | inl reply =>
                split at reply
                · cases reply
                · simp [replyMoves] at reply
            | inr own =>
                split at own
                · cases own
                · cases op with
                  | subscribe =>
                      cases List.mem_singleton.mp own
                      refine ⟨asked, rfl, fun channel inside => ?_⟩
                      exact (List.mem_filter.mp (List.mem_toFinset.mp inside)).1
                  | unsubscribe => cases List.mem_singleton.mp own
                  | other name => simp [replyMoves] at own
      · cases member
  | read =>
      simp only [movesFor] at member
      split at member
      · cases member
      · simp at member
  | tick tsNs => simp [movesFor] at member
  | resume other | written other | broken other =>
      simp only [movesFor] at member
      split at member
      · cases List.mem_singleton.mp member
      · cases member
  | _ => cases member

/-- What the connection `id` has been sent. -/
def Quoting (settings : Settings) (kind : StreamId → Prop) (id : ConnectionId) (symbol : Symbol)
    (tier : Tier) (service : Service) : Prop :=
  ∀ subscriber, service.hub.subscribers.get? id = some subscriber →
    SentBooks settings kind service.market symbol tier subscriber

theorem Quoting.tick (listed : symbol ∈ settings.symbols.listed) (sound : service.Sound)
    (quoting : service.Quoting settings kind id symbol tier)
    (place : kind service.market.lastSeq) (tsNs : Int) :
    (service.step settings (.tick tsNs)).Quoting settings kind id symbol tier := by
  have ticked : Conflator.Ticked settings service.conflator service.halt service.market tsNs
      service.hub (service.step settings (.tick tsNs)).hub :=
    Conflator.tick_ticked sound.indexed service.conflator
  have alike : (service.step settings (.tick tsNs)).market.Alike service.market :=
    Conflator.tick_alike service.conflator service.hub
  intro after present
  rw [ticked.each id] at present
  obtain ⟨subscriber, was, rfl⟩ := Option.map_eq_some_iff.mp present
  have receives := (quoting subscriber was).ticked listed place service.halt tsNs service.conflator
  exact ⟨receives.origin, receives.quoted.congr alike, receives.kinds, receives.apart⟩

/-- Where the market stands at the same place or one record later. -/
theorem Quoting.of_offers (sound : service.Sound) (quoting : service.Quoting settings kind id symbol tier)
    {action : Action} (noTick : ∀ tsNs, action ≠ .tick tsNs) (one : OneTier id symbol tier action)
    (later : ∀ sent, Quoted settings service.market symbol tier sent →
      Quoted settings (service.step settings action).market symbol tier sent) :
    (service.step settings action).Quoting settings kind id symbol tier := by
  intro after present
  obtain ⟨userId, -, -, rfl⟩ | ⟨subscriber, was, rfl⟩ := sound.step_cases present
  · exact .new userId privateBufferMax
  · have offers := @movesFor_offers settings service action noTick id subscriber
    obtain ⟨frames, quiet, accepted⟩ := Subscriber.foldl_accepted_of_offers offers subscriber
    have receives := quoting subscriber was
    refine SentBooks.offered ⟨receives.origin, later _ receives.quoted, receives.kinds,
      receives.apart⟩ quiet accepted fun other different => ?_
    apply Subscriber.foldl_unasked offers
    · intro channels member held
      obtain ⟨asked, rfl, inside⟩ := subscribes_asked member
      exact one rfl other (by cases other <;> decide) different (inside _ held)
    · exact (receives.apart other different).1

theorem Quoting.step (listed : symbol ∈ settings.symbols.listed) (sound : service.Sound)
    (follows : service.Follows barWidths stream seen)
    (quoting : service.Quoting settings kind id symbol tier) (place : kind service.market.lastSeq)
    (action : Action) (one : OneTier id symbol tier action) :
    (service.step settings action).Quoting settings kind id symbol tier := by
  by_cases ticks : ∃ tsNs, action = .tick tsNs
  · obtain ⟨tsNs, rfl⟩ := ticks
    exact quoting.tick listed sound place tsNs
  have noTick : ∀ tsNs, action ≠ .tick tsNs := fun tsNs same => ticks ⟨tsNs, same⟩
  by_cases reads : action = .read
  · cases reads
    cases following : service.ahead with
    | nil =>
        have idle : service.step settings .read = service := by
          simp only [Service.step, Service.read, following]
        rwa [idle]
    | cons entry rest =>
        refine quoting.of_offers sound noTick one fun sent quoted => ?_
        simp only [Service.step, Service.read, following]
        apply quoted.apply
        rw [follows.stands.place]
        refine (stream.position_splits seen).2 entry ?_
        rw [← follows.ahead, following]
        exact List.mem_cons_self
  · refine quoting.of_offers sound noTick one fun sent quoted => ?_
    rw [(@step_still settings service action noTick reads).1]
    exact quoted

end Service

end QuantArena.Fanout
