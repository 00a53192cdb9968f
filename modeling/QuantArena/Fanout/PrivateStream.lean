import QuantArena.Fanout.ServiceProperties

/-! The private stream of one connection is complete, in order and without gaps for as
long as it is open and its buffer has not overflowed. -/

set_option autoImplicit false

namespace QuantArena.Fanout

open Foundations Contracts

/-! ## Once closed, closed -/

namespace Subscriber

variable {φ : Type}

/-- Still being served: neither closed nor to be disconnected. -/
def Served (subscriber : Subscriber φ) : Prop :=
  subscriber.closed = false ∧ subscriber.overflowed = false

theorem takeBatch_served {subscriber : Subscriber φ} (served : subscriber.takeBatch.Served) :
    subscriber.Served := by
  by_cases empty : subscriber.batch = []
  · rw [takeBatch_of_empty empty] at served
    exact served
  · rw [takeBatch_of_nonempty empty] at served
    exact served

theorem runWriter_served {subscriber : Subscriber φ} (served : subscriber.runWriter.Served) :
    subscriber.Served := by
  unfold runWriter at served
  split at served
  · exact served
  · split at served
    · exact takeBatch_served served
    · exact served

theorem step_served {subscriber : Subscriber φ} {move : Move φ}
    (served : (subscriber.step move).Served) : subscriber.Served := by
  cases move with
  | offerMarket frame =>
      simp only [step, offerMarket] at served
      split at served
      · exact served
      · split at served
        · exact served
        · exact served
  | offerPrivate frame =>
      simp only [step, offerPrivate] at served
      split at served
      · exact served
      · split at served
        · cases served.2
        · exact served
  | subscribe _ | unsubscribe _ | takeFresh => exact served
  | flush =>
      simp only [step, flush] at served
      split at served
      · exact served
      · exact served
  | resume =>
      simp only [step, resume] at served
      split at served
      · split at served
        · exact takeBatch_served served
        · exact served
      · exact served
  | written =>
      simp only [step, written] at served
      split at served
      · split at served
        · have before := runWriter_served served
          exact ⟨before.1, before.2⟩
        · exact served
      · exact served
  | broken =>
      simp only [step, broken] at served
      split at served
      · cases served.1
      · exact served
  | stop => cases served.1

theorem foldl_served {moves : List (Move φ)} {subscriber : Subscriber φ}
    (served : (moves.foldl step subscriber).Served) : subscriber.Served := by
  induction moves generalizing subscriber with
  | nil => exact served
  | cons move rest ih => exact step_served (ih served)

/-- A connection still served after some private offers took all of them. -/
theorem offerAllPrivate_accepted {subscriber : Subscriber φ} {frames : List φ}
    (served : (subscriber.offerAllPrivate frames).Served) :
    (subscriber.offerAllPrivate frames).accepted =
      subscriber.accepted ++ frames.map (Lane.privateData, ·) := by
  induction frames generalizing subscriber with
  | nil => simp [offerAllPrivate]
  | cons frame rest ih =>
      have later : ((subscriber.step (.offerPrivate frame)).offerAllPrivate rest).Served := served
      have one : (subscriber.step (.offerPrivate frame)).Served := foldl_served later
      have taken : (subscriber.step (.offerPrivate frame)).accepted =
          subscriber.accepted ++ [(Lane.privateData, frame)] := by
        simp only [step, offerPrivate] at one ⊢
        split
        · rename_i closed
          rw [if_pos closed] at one
          have opened : subscriber.closed = false := one.1
          exact absurd closed (by simp [opened])
        · rename_i opened
          rw [if_neg opened] at one
          split
          · rename_i full
            rw [if_pos full] at one
            cases one.2
          · rfl
      have rest_taken := ih later
      rw [taken] at rest_taken
      simpa [offerAllPrivate] using rest_taken

theorem step_user (subscriber : Subscriber φ) (move : Move φ) :
    (subscriber.step move).userId = subscriber.userId := by
  cases move with
  | offerMarket frame => exact (subscriber.offerMarket_kept frame).1
  | offerPrivate frame => exact (subscriber.offerPrivate_kept frame).1
  | subscribe _ | unsubscribe _ | takeFresh => rfl
  | flush => exact congrArg (·.1) (subscriber.standing_of_writes .flush trivial)
  | resume => exact congrArg (·.1) (subscriber.standing_of_writes .resume trivial)
  | written => exact congrArg (·.1) (subscriber.standing_of_writes .written trivial)
  | broken => exact congrArg (·.1) (subscriber.standing_of_writes .broken trivial)
  | stop => rfl

theorem foldl_user (subscriber : Subscriber φ) (moves : List (Move φ)) :
    (moves.foldl step subscriber).userId = subscriber.userId := by
  induction moves generalizing subscriber with
  | nil => rfl
  | cons move rest ih => exact (ih _).trans (step_user subscriber move)

end Subscriber

/-! ## The stream of one user -/

/-- The messages of the private stream among frames of both queues. -/
def privateStream (frames : List (Lane × Message)) : List Message :=
  (frames.map Prod.snd).filter (·.IsPrivate)

theorem privateStream_append (first second : List (Lane × Message)) :
    privateStream (first ++ second) = privateStream first ++ privateStream second := by
  simp [privateStream]

theorem privateStream_of_none {lane : Lane} {frames : List Message}
    (none : ∀ frame ∈ frames, ¬ frame.IsPrivate) : privateStream (frames.map (lane, ·)) = [] := by
  simpa [privateStream, Function.comp_def] using none

theorem privateStream_of_all {lane : Lane} {frames : List Message}
    (all : ∀ frame ∈ frames, frame.IsPrivate) : privateStream (frames.map (lane, ·)) = frames := by
  simpa [privateStream, Function.comp_def] using all

theorem Message.IsReply.not_private {message : Message} (reply : message.IsReply) :
    ¬ message.IsPrivate := by
  cases message with
  | privateMessage _ _ _ => exact absurd reply id
  | _ => exact id

namespace Service

/-- The records a run reads. -/
def readBy (service : Service) (actions : List Action) : List Outbound :=
  (service.ahead.take (actions.count .read)).map (·.2)

/-- Everything one user is owed for some records. -/
def owedFor (settings : Settings) (userId : Int) (records : List Outbound) :
    List (Int × PrivateBody) := records.flatMap (owedTo settings.symbols userId)

/-- A connection of `userId` whose numbers count on from `joined`. -/
structure Receives (settings : Settings) (userId joined : Int) (records : List Outbound)
    (service : Service) (subscriber : Subscriber Message) : Prop where
  user : subscriber.userId = userId
  counter : service.router.seq.getD userId 0 = joined + (owedFor settings userId records).length
  stream : subscriber.Served →
    privateStream subscriber.accepted = numbered joined (owedFor settings userId records)

variable {settings : Settings} {service : Service}

theorem step_ahead (settings : Settings) (service : Service) (action : Action) :
    (service.step settings action).ahead = service.ahead.drop ([action].count .read) := by
  cases action with
  | read =>
      simp only [Service.step, read]
      cases following : service.ahead with
      | nil => simp [following]
      | cons entry rest => simp
  | request id frame =>
      simp only [Service.step]
      split
      · simp
      · simp
  | _ => rfl

theorem step_router {action : Action} (noRead : action ≠ .read) :
    (service.step settings action).router = service.router := by
  cases action with
  | read => exact absurd rfl noRead
  | request id frame =>
      simp only [Service.step]
      split
      · rfl
      · rfl
  | _ => rfl

theorem run_ahead (settings : Settings) (service : Service) (actions : List Action) :
    (actions.foldl (Service.step settings) service).ahead =
      service.ahead.drop (actions.count .read) := by
  induction actions generalizing service with
  | nil => simp
  | cons action rest ih =>
      have counts : (action :: rest).count .read = [action].count .read + rest.count .read := by
        rw [← List.count_append, List.singleton_append]
      rw [List.foldl_cons, ih, step_ahead, List.drop_drop, counts]

theorem readBy_append (settings : Settings) (service : Service) (first second : List Action) :
    service.readBy (first ++ second) =
      service.readBy first ++ (first.foldl (Service.step settings) service).readBy second := by
  simp only [readBy, run_ahead, List.count_append, List.take_add, List.map_append]

theorem readBy_of_ne {action : Action} (noRead : action ≠ .read) :
    service.readBy [action] = [] := by
  simp [readBy, noRead]

theorem owedFor_append (settings : Settings) (userId : Int) (first second : List Outbound) :
    owedFor settings userId (first ++ second) =
      owedFor settings userId first ++ owedFor settings userId second := List.flatMap_append

/-- A step that offers nothing private keeps the stream. -/
theorem Receives.of_public {userId joined : Int} {records : List Outbound}
    {subscriber after : Subscriber Message} {next : Service} (lane : Lane) (frames : List Message)
    (receives : Receives settings userId joined records service subscriber)
    (router : next.router = service.router) (user : after.userId = subscriber.userId)
    (served : after.Served → subscriber.Served) (none : ∀ frame ∈ frames, ¬ frame.IsPrivate)
    (accepted : after.accepted = subscriber.accepted ++ frames.map (lane, ·)) :
    Receives settings userId joined records next after where
  user := user.trans receives.user
  counter := by rw [router, receives.counter]
  stream := fun still => by
    rw [accepted, privateStream_append, privateStream_of_none none, List.append_nil,
      receives.stream (served still)]

theorem made_public {message : Message} (made : Conflator.Made settings message) :
    ¬ message.IsPrivate := by
  obtain ⟨halt, same⟩ | ⟨symbol, -, book, seq, tsNs, tier, same⟩ | ⟨symbol, -, trade, same⟩ |
    ⟨symbol, -, bar, seq, same⟩ := made
  · rw [same, Conflator.haltMessage]
    split
    · exact id
    · exact id
  · rw [same]
    cases tier with
    | l1 => exact id
    | l2 => exact id
  · rw [same]
    exact id
  · rw [same]
    exact id

theorem Receives.tick {userId joined : Int} {records : List Outbound}
    {subscriber : Subscriber Message}
    (receives : Receives settings userId joined records service subscriber)
    (id : ConnectionId) (tsNs : Int) :
    Receives settings userId joined records (service.step settings (.tick tsNs))
      ((service.movesFor settings id subscriber (.tick tsNs)).foldl Subscriber.step subscriber) := by
  let frames := Conflator.due settings service.market service.halt tsNs service.conflator
    subscriber.channels subscriber.fresh
  have after : (service.movesFor settings id subscriber (.tick tsNs)).foldl Subscriber.step
      subscriber = ((subscriber.offerAll frames).takeFresh.1).flush := by
    simp only [movesFor, List.foldl_append, ← Subscriber.offerAll_eq_foldl]
    rfl
  have kept := (Conflator.ticked_kept subscriber frames).2.2.2
  by_cases accepting : subscriber.Accepting
  · refine receives.of_public .marketData frames rfl (Subscriber.foldl_user _ _)
      Subscriber.foldl_served (fun _ member => made_public (Conflator.mem_due _ _ _ _ member)) ?_
    rw [after, kept, Subscriber.offerAll_accepted accepting]
  · refine receives.of_public .marketData [] rfl (Subscriber.foldl_user _ _)
      Subscriber.foldl_served (by simp) ?_
    rw [after, kept, Subscriber.offerAll_refused accepting]
    simp

theorem Receives.read {userId joined : Int} {records : List Outbound} {id : ConnectionId}
    {subscriber : Subscriber Message} (sound : service.Sound)
    (present : service.hub.subscribers.get? id = some subscriber)
    (receives : Receives settings userId joined records service subscriber) :
    Receives settings userId joined (records ++ service.readBy [.read])
      (service.step settings .read)
      ((service.movesFor settings id subscriber .read).foldl Subscriber.step subscriber) := by
  cases following : service.ahead with
  | nil =>
      have idle : service.step settings .read = service := by
        simp only [Service.step, Service.read, following]
      have quiet : service.movesFor settings id subscriber .read = [] := by
        simp only [movesFor, following]
      rw [idle, quiet, readBy, following]
      simpa using receives
  | cons entry rest =>
      obtain ⟨streamId, record⟩ := entry
      have known : service.hub.hasUser userId = true :=
        (sound.indexed.hasUser_iff userId).mpr ⟨id, subscriber, present, receives.user⟩
      have routed := PrivateRouter.route_routed settings.symbols service.router sound.indexed record
      have one : service.readBy [.read] = [record] := by
        simp [readBy, following]
      have owed : owedFor settings userId (records ++ service.readBy [.read]) =
          owedFor settings userId records ++ owedTo settings.symbols userId record := by
        rw [one, owedFor_append]
        simp [owedFor]
      have moves : (service.movesFor settings id subscriber .read).foldl Subscriber.step subscriber =
          subscriber.offerAllPrivate (service.router.framesFor record.timestampNs
            (messagesFor settings.symbols record) subscriber.userId) := by
        simp only [movesFor, following]
        rfl
      have counters : (service.step settings .read).router =
          (service.router.route settings.symbols service.hub record).1 := by
        simp only [Service.step, Service.read, following]
      have frames : service.router.framesFor record.timestampNs
          (messagesFor settings.symbols record) subscriber.userId =
            numbered (joined + (owedFor settings userId records).length)
              (owedTo settings.symbols userId record) := by
        rw [PrivateRouter.framesFor, receives.user, receives.counter]
        rfl
      refine ⟨(Subscriber.foldl_user _ _).trans receives.user, ?_, fun served => ?_⟩
      · rw [counters, routed.seq userId known, receives.counter, owed, List.length_append, owedTo,
          List.length_map]
        omega
      · rw [moves] at served ⊢
        rw [Subscriber.offerAllPrivate_accepted served, frames, privateStream_append,
          privateStream_of_all (numbered_private _ _), owed, numbered_append]
        exact congrArg (· ++ _) (receives.stream (Subscriber.foldl_served served))

theorem Receives.step {userId joined : Int} {records : List Outbound} {id : ConnectionId}
    {subscriber after : Subscriber Message} (sound : service.Sound)
    (present : service.hub.subscribers.get? id = some subscriber) (action : Action)
    (receives : Receives settings userId joined records service subscriber)
    (still : (service.step settings action).hub.subscribers.get? id = some after) :
    Receives settings userId joined (records ++ service.readBy [action])
      (service.step settings action) after := by
  obtain ⟨_, rfl, same, -⟩ | ⟨_, found, moved⟩ := sound.step_cases still
  · rw [same, sound.counted _ le_rfl] at present
    cases present
  · rw [present] at found
    cases found
    rw [moved]
    by_cases reads : action = .read
    · rw [reads]
      exact receives.read sound present
    · rw [readBy_of_ne reads, List.append_nil]
      by_cases ticks : ∃ tsNs, action = .tick tsNs
      · obtain ⟨tsNs, rfl⟩ := ticks
        exact receives.tick id tsNs
      · obtain ⟨frames, replies, accepted⟩ := Subscriber.foldl_accepted_of_offers
          (movesFor_reply (fun tsNs same => ticks ⟨tsNs, same⟩) reads id subscriber) subscriber
        exact receives.of_public .privateData frames (step_router reads)
          (Subscriber.foldl_user _ _) Subscriber.foldl_served
          (fun frame member => (replies frame member).not_private) accepted

theorem step_nextConnection (settings : Settings) (service : Service) (action : Action) :
    service.nextConnection ≤ (service.step settings action).nextConnection := by
  cases action with
  | read =>
      simp only [Service.step, Service.read]
      split
      · exact le_rfl
      · exact le_rfl
  | connect userId => exact Nat.le_succ _
  | request id frame =>
      simp only [Service.step]
      split
      · exact le_rfl
      · exact le_rfl
  | _ => exact le_rfl

theorem run_nextConnection (settings : Settings) (service : Service) (actions : List Action) :
    service.nextConnection ≤ (actions.foldl (Service.step settings) service).nextConnection := by
  induction actions generalizing service with
  | nil => exact le_rfl
  | cons action rest ih => exact (step_nextConnection settings service action).trans (ih _)

/-- From the moment a connection is made, its stream is what its user is owed since. -/
theorem run_receives (sound : service.Sound) (orderly : service.Orderly) (userId : Int)
    (actions : List Action) {subscriber : Subscriber Message}
    (present : (actions.foldl (Service.step settings)
      (service.step settings (.connect userId))).hub.subscribers.get? service.nextConnection =
        some subscriber) :
    Receives settings userId (service.router.seq.getD userId 0)
      ((service.step settings (.connect userId)).readBy actions)
      (actions.foldl (Service.step settings) (service.step settings (.connect userId)))
      subscriber := by
  have joined := (sound.step settings (.connect userId)).1
  induction actions using List.reverseRecOn generalizing subscriber with
  | nil =>
      have new : subscriber = .new userId privateBufferMax := by
        simp only [List.foldl_nil, Service.step, connect, Hub.add, Dict.get?_set, if_pos] at present
        exact (Option.some.inj present).symm
      rw [new]
      refine ⟨rfl, ?_, fun _ => rfl⟩
      simp [readBy, owedFor, Service.step, connect]
  | append_singleton actions action ih =>
      rw [List.foldl_append, List.foldl_cons, List.foldl_nil] at present ⊢
      have reached := (run_sound settings joined
        (orderly.step sound (.connect userId)) actions).1
      have later := run_nextConnection settings (service.step settings (.connect userId)) actions
      obtain ⟨_, rfl, same, -⟩ | ⟨before, found, -⟩ := reached.step_cases present
      · exact absurd same (Nat.ne_of_lt (Nat.lt_of_succ_le later))
      · rw [readBy_append settings]
        exact (ih found).step reached found action present

/-- The private frames a connection is sent from its start until it is closed or overflows are
one for each of its user's part in a record, in stream order and with consecutive numbers. The
writer sends the frames of each queue as they were accepted, and all the private ones in time. -/
theorem private_stream_complete (settings : Settings) (market : MarketState)
    (ahead : List (StreamId × Outbound)) (before after : List Action) (userId : Int)
    (subscriber : Subscriber Message)
    (present : (after.foldl (Service.step settings) ((before.foldl (Service.step settings)
      (start market ahead)).step settings (.connect userId))).hub.subscribers.get?
        (before.foldl (Service.step settings) (start market ahead)).nextConnection =
          some subscriber) :
    (subscriber.closed = false → subscriber.overflowed = false →
      privateStream subscriber.accepted = numbered
        ((before.foldl (Service.step settings) (start market ahead)).router.seq.getD userId 0)
        ((((before.foldl (Service.step settings) (start market ahead)).step settings
          (.connect userId)).readBy after).flatMap (owedTo settings.symbols userId))) ∧
    Subscriber.ofLane .privateData subscriber.socket <+:
      Subscriber.ofLane .privateData subscriber.accepted ∧
    (subscriber.closed = false → ∃ count, Subscriber.ofLane .privateData
      (subscriber.turns count).socket = Subscriber.ofLane .privateData subscriber.accepted) := by
  obtain ⟨sound, orderly⟩ := run_sound settings (start_sound market ahead)
    (start_orderly market ahead) before
  have receives := run_receives sound orderly userId after present
  have ends := run_sound settings (sound.step settings (.connect userId)).1
    (orderly.step sound (.connect userId)) after
  obtain ⟨steady, delivers⟩ := ends.2 _ subscriber present
  exact ⟨fun opened kept => receives.stream ⟨opened, kept⟩, delivers.sent .privateData,
    fun opened => delivers.all_sent steady opened⟩

/-- A trade of user 7 with itself, while it is connected: two messages, maker then taker. -/
theorem private_stream_of_a_self_trade : ∃ subscriber,
    ([.read, .resume 0].foldl (Service.step oneSymbol)
      ((start (.new []) [(⟨1, 0⟩, .fill ⟨9, 1, 2, 7, 7, 500, 3, 1, 0⟩)]).step oneSymbol
        (.connect 7))).hub.subscribers.get? 0 = some subscriber ∧
    privateStream subscriber.accepted =
      [.privateMessage 1 9 (.fill 1 (some "QAA".toList) 500 3 0 .maker),
        .privateMessage 2 9 (.fill 2 (some "QAA".toList) 500 3 0 .taker)] :=
  ⟨_, rfl, (private_stream_complete oneSymbol (.new [])
    [(⟨1, 0⟩, .fill ⟨9, 1, 2, 7, 7, 500, 3, 1, 0⟩)] [] [.read, .resume 0] 7 _ rfl).1 rfl rfl⟩

end Service

end QuantArena.Fanout
