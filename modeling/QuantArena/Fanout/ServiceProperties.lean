import QuantArena.Fanout.Delivery
import QuantArena.Fanout.PrivateProperties
import QuantArena.Fanout.Service

/-! What one step of the service does to one connection, and what every connection keeps
over a run. -/

set_option autoImplicit false

namespace QuantArena.Fanout

open Foundations Contracts

/-! ## The hub -/

namespace Hub

variable {hub : Hub}

theorem get?_act (hub : Hub) (id other : ConnectionId) (move : Move Message) :
    (hub.act id move).subscribers.get? other =
      if other = id then (hub.subscribers.get? id).map (·.step move)
      else hub.subscribers.get? other := by
  simp only [act, Dict.get?_alter]
  split
  · cases hub.subscribers.get? id <;> rfl
  · rfl

theorem Indexed.act (indexed : hub.Indexed) (id : ConnectionId) {move : Move Message}
    (user : ∀ subscriber : Subscriber Message, (subscriber.step move).userId = subscriber.userId)
    (channels : ∀ subscriber : Subscriber Message,
      (subscriber.step move).channels = subscriber.channels) :
    (hub.act id move).Indexed where
  channel := fun channel other => by
    rw [get?_act]
    refine (indexed.channel channel other).trans ?_
    split
    · rename_i same
      cases found : hub.subscribers.get? id <;> simp [same, found, channels]
    · rfl
  user := fun userId other => by
    rw [get?_act]
    refine (indexed.user userId other).trans ?_
    split
    · rename_i same
      cases found : hub.subscribers.get? id <;> simp [same, found, user]
    · rfl

theorem Indexed.add (indexed : hub.Indexed) {id : ConnectionId} (userId : Int) (privateMax : Nat)
    (unused : hub.subscribers.get? id = none) :
    (hub.add id (.new userId privateMax)).Indexed where
  channel := fun channel other => by
    have listed : other ∈ (hub.add id (.new userId privateMax)).byChannel channel ↔ _ :=
      indexed.channel channel other
    rw [listed]
    simp only [Hub.add, Dict.get?_set]
    split
    · rename_i same
      simp [same, unused, Subscriber.new]
    · rfl
  user := fun asked other => by
    have listed : other ∈ (hub.add id (.new userId privateMax)).byUser asked ↔
        other ∈ (if asked = userId then insert id (hub.byUser userId) else hub.byUser asked) := by
      simp only [Hub.add, Function.update_apply]
      rfl
    rw [listed]
    simp only [Hub.add, Dict.get?_set]
    by_cases same : other = id
    · by_cases user : asked = userId
      · simp [same, user, Subscriber.new]
      · simp [same, user, indexed.user, unused, Subscriber.new, Ne.symm user]
    · by_cases user : asked = userId
      · simp [same, user, indexed.user]
      · simp [same, user, indexed.user]

theorem Indexed.remove (indexed : hub.Indexed) {id : ConnectionId} {subscriber : Subscriber Message}
    (present : hub.subscribers.get? id = some subscriber) : (hub.remove id subscriber).Indexed where
  channel := fun channel other => by
    simp only [Hub.remove, Dict.get?_erase]
    by_cases same : other = id
    · by_cases held : channel ∈ subscriber.channels
      · simp [same, held]
      · simp [same, held, indexed.channel, present]
    · by_cases held : channel ∈ subscriber.channels
      · simp [same, held, indexed.channel]
      · simp [same, held, indexed.channel]
  user := fun asked other => by
    simp only [Hub.remove, Dict.get?_erase, Function.update_apply]
    by_cases same : other = id
    · by_cases user : asked = subscriber.userId
      · simp [same, user]
      · simp [same, user, indexed.user, present, Ne.symm user]
    · by_cases user : asked = subscriber.userId
      · simp [same, user, indexed.user]
      · simp [same, user, indexed.user]

theorem Indexed.subscribe (indexed : hub.Indexed) {id : ConnectionId}
    {subscriber : Subscriber Message} (present : hub.subscribers.get? id = some subscriber)
    (channels : Finset Channel) : (hub.subscribe id channels).Indexed where
  channel := fun channel other => by
    simp only [Hub.subscribe, get?_act]
    by_cases same : other = id
    · by_cases asked : channel ∈ channels
      · simp [same, asked, present, Subscriber.step, Subscriber.subscribe]
      · simp [same, asked, present, indexed.channel, Subscriber.step, Subscriber.subscribe]
    · by_cases asked : channel ∈ channels
      · simp [same, asked, indexed.channel]
      · simp [same, asked, indexed.channel]
  user := fun userId other => by
    refine (indexed.user userId other).trans ?_
    simp only [Hub.subscribe, get?_act]
    by_cases same : other = id
    · simp [same, present, Subscriber.step, Subscriber.subscribe]
    · simp [same]

theorem Indexed.unsubscribe (indexed : hub.Indexed) {id : ConnectionId}
    {subscriber : Subscriber Message} (present : hub.subscribers.get? id = some subscriber)
    (channels : Finset Channel) : (hub.unsubscribe id channels).Indexed where
  channel := fun channel other => by
    simp only [Hub.unsubscribe, get?_act]
    by_cases same : other = id
    · by_cases asked : channel ∈ channels
      · simp [same, asked, present, Subscriber.step, Subscriber.unsubscribe]
      · simp [same, asked, present, indexed.channel, Subscriber.step, Subscriber.unsubscribe]
    · by_cases asked : channel ∈ channels
      · simp [same, asked, indexed.channel]
      · simp [same, asked, indexed.channel]
  user := fun userId other => by
    refine (indexed.user userId other).trans ?_
    simp only [Hub.unsubscribe, get?_act]
    by_cases same : other = id
    · simp [same, present, Subscriber.step, Subscriber.unsubscribe]
    · simp [same]

end Hub

/-! ## Moves of the writer -/

/-- A move of the writer, or one that wakes or stops it. -/
def Move.Writes {φ : Type} : Move φ → Prop
  | .flush | .resume | .written | .broken | .stop => True
  | _ => False

namespace Subscriber

variable {φ : Type}

/-- What the writer leaves alone. -/
def standing (subscriber : Subscriber φ) :
    Int × Finset Channel × Finset Channel × List (Lane × φ) :=
  (subscriber.userId, subscriber.channels, subscriber.fresh, subscriber.accepted)

theorem takeBatch_standing (subscriber : Subscriber φ) :
    subscriber.takeBatch.standing = subscriber.standing := by
  by_cases empty : subscriber.batch = []
  · rw [takeBatch_of_empty empty]
    rfl
  · rw [takeBatch_of_nonempty empty]
    rfl

theorem runWriter_standing (subscriber : Subscriber φ) :
    subscriber.runWriter.standing = subscriber.standing := by
  unfold runWriter
  split
  · rfl
  · split
    · exact takeBatch_standing subscriber
    · rfl

theorem standing_of_writes (subscriber : Subscriber φ) (move : Move φ) (writes : move.Writes) :
    (subscriber.step move).standing = subscriber.standing := by
  cases move with
  | offerMarket _ | offerPrivate _ | subscribe _ | unsubscribe _ | takeFresh =>
      exact absurd writes id
  | flush =>
      simp only [step, flush]
      split
      · rfl
      · rfl
  | resume =>
      simp only [step, resume]
      split
      · split
        · exact takeBatch_standing subscriber
        · rfl
      · rfl
  | written =>
      simp only [step, written]
      split
      · split
        · exact runWriter_standing _
        · rfl
      · rfl
  | broken =>
      simp only [step, broken]
      split
      · rfl
      · rfl
  | stop => rfl

theorem kept_of_writes {move : Move φ} (writes : move.Writes) (subscriber : Subscriber φ) :
    (subscriber.step move).userId = subscriber.userId ∧
      (subscriber.step move).channels = subscriber.channels :=
  have standing := subscriber.standing_of_writes move writes
  ⟨congrArg (·.1) standing, congrArg (·.2.1) standing⟩

end Subscriber

/-! ## One step, told as moves of one connection -/

namespace Service

/-- What a direct answer does to its connection. -/
def replyMoves (payload : Message) : List (Move Message) := [.offerPrivate payload, .flush]

def requestMoves (settings : Settings) : Option (Op × List Channel) → List (Move Message)
  | none => replyMoves (.error .unknownChannel "malformed request")
  | some (op, asked) =>
      let known := knownChannels settings
      let unknown := asked.filter (· ∉ known)
      let channels := (asked.filter (· ∈ known)).toFinset
      (if unknown = [] then [] else replyMoves (.error .unknownChannel (unknownText unknown))) ++
        if channels = ∅ then []
        else match op with
          | .subscribe => [.subscribe channels]
          | .unsubscribe => [.unsubscribe channels]
          | .other name => replyMoves (.error .unknownChannel ("unknown op: " ++ name))

/-- What an action does to the connection `id`, where the subscriber stands there. -/
def movesFor (settings : Settings) (service : Service) (id : ConnectionId)
    (subscriber : Subscriber Message) : Action → List (Move Message)
  | .read =>
      match service.ahead with
      | [] => []
      | (_, record) :: _ => (service.router.framesFor record.timestampNs
          (messagesFor settings.symbols record) subscriber.userId).map .offerPrivate
  | .tick tsNs => (Conflator.due settings service.market service.halt tsNs service.conflator
      subscriber.channels subscriber.fresh).map .offerMarket ++ [.takeFresh, .flush]
  | .request other frame => if other = id then requestMoves settings frame else []
  | .resume other => if other = id then [.resume] else []
  | .written other => if other = id then [.written] else []
  | .broken other => if other = id then [.broken] else []
  | .refresh _ | .connect _ | .leave _ => []

/-- A hub where the connection `id` has made some moves, and no other has. -/
structure Moved (before after : Hub) (id : ConnectionId) (moves : List (Move Message)) : Prop where
  indexed : after.Indexed
  each : ∀ other, after.subscribers.get? other =
    if other = id then (before.subscribers.get? id).map (moves.foldl Subscriber.step)
    else before.subscribers.get? other

variable {before middle after : Hub} {id : ConnectionId}

theorem Moved.refl (indexed : before.Indexed) : Moved before before id [] where
  indexed := indexed
  each := fun other => by
    split
    · rename_i same
      cases found : before.subscribers.get? id <;> simp [same, found]
    · rfl

theorem Moved.trans {first second : List (Move Message)} (early : Moved before middle id first)
    (late : Moved middle after id second) : Moved before after id (first ++ second) where
  indexed := late.indexed
  each := fun other => by
    rw [late.each other]
    split
    · rw [early.each id, if_pos rfl, Option.map_map]
      simp only [Function.comp_def, List.foldl_append]
    · rename_i apart
      rw [early.each other, if_neg apart]

theorem Moved.one (indexed : after.Indexed) {move : Move Message}
    (each : ∀ other, after.subscribers.get? other =
      if other = id then (before.subscribers.get? id).map (·.step move)
      else before.subscribers.get? other) : Moved before after id [move] := ⟨indexed, each⟩

/-- A move that leaves the user and the channels alone. -/
theorem act_moved (indexed : before.Indexed) (id : ConnectionId) (move : Move Message)
    (kept : ∀ subscriber : Subscriber Message, (subscriber.step move).userId = subscriber.userId ∧
      (subscriber.step move).channels = subscriber.channels) :
    Moved before (before.act id move) id [move] :=
  .one (indexed.act id (fun subscriber => (kept subscriber).1) fun subscriber => (kept subscriber).2)
    fun other => Hub.get?_act before id other move

theorem reply_moved (indexed : before.Indexed) (id : ConnectionId) (payload : Message) :
    Moved before (reply before id payload) id (replyMoves payload) := by
  have offered := act_moved (indexed.encode payload) id (.offerPrivate payload) fun subscriber =>
    ⟨(subscriber.offerPrivate_kept payload).1, (subscriber.offerPrivate_kept payload).2.1⟩
  have both := offered.trans (act_moved offered.indexed id .flush (Subscriber.kept_of_writes trivial))
  exact ⟨both.indexed, both.each⟩

theorem request_moved (settings : Settings) (indexed : before.Indexed)
    (present : (before.subscribers.get? id).isSome) (frame : Option (Op × List Channel)) :
    Moved before (request settings before id frame) id (requestMoves settings frame) := by
  cases frame with
  | none => exact reply_moved indexed id _
  | some frame =>
      obtain ⟨op, asked⟩ := frame
      simp only [request, requestMoves]
      have answered : Moved before (if asked.filter (· ∉ knownChannels settings) = [] then before
          else reply before id (.error .unknownChannel
            (unknownText (asked.filter (· ∉ knownChannels settings))))) id
          (if asked.filter (· ∉ knownChannels settings) = [] then []
          else replyMoves (.error .unknownChannel
            (unknownText (asked.filter (· ∉ knownChannels settings))))) := by
        split
        · exact .refl indexed
        · exact reply_moved indexed id _
      refine answered.trans ?_
      have still := answered.each id
      obtain ⟨subscriber, found⟩ := Option.isSome_iff_exists.mp present
      rw [if_pos rfl, found, Option.map_some] at still
      -- What was answered so far is of no concern to the rest.
      generalize (if asked.filter (· ∉ knownChannels settings) = [] then before
          else reply before id (.error .unknownChannel
            (unknownText (asked.filter (· ∉ knownChannels settings))))) = hub at answered still ⊢
      split
      · exact .refl answered.indexed
      · cases op with
        | subscribe =>
            exact .one (answered.indexed.subscribe still _) fun other => Hub.get?_act _ id other _
        | unsubscribe =>
            exact .one (answered.indexed.unsubscribe still _) fun other => Hub.get?_act _ id other _
        | other name => exact reply_moved answered.indexed id _

/-- The indexes are right, and connections are numbered as they come. -/
structure Sound (service : Service) : Prop where
  indexed : service.hub.Indexed
  counted : ∀ id, service.nextConnection ≤ id → service.hub.subscribers.get? id = none

variable {settings : Settings} {service : Service}

theorem start_sound (market : MarketState) (ahead : List (StreamId × Outbound)) :
    (start market ahead).Sound where
  indexed := ⟨fun _ _ => by simp [start, Hub.new, Dict.get?, Dict.empty],
    fun _ _ => by simp [start, Hub.new, Dict.get?, Dict.empty]⟩
  counted := fun _ _ => rfl

theorem Sound.of_get? (sound : service.Sound) {after : Service} (indexed : after.hub.Indexed)
    (connections : after.nextConnection = service.nextConnection)
    (each : ∀ id, service.hub.subscribers.get? id = none → after.hub.subscribers.get? id = none) :
    after.Sound where
  indexed := indexed
  counted := fun id beyond => each id (sound.counted id (connections ▸ beyond))

theorem Moved.absent {moves : List (Move Message)} (moved : Moved before after id moves)
    {other : ConnectionId} (absent : before.subscribers.get? other = none) :
    after.subscribers.get? other = none := by
  rw [moved.each]
  split
  · rename_i same
    rw [← same, absent]
    rfl
  · exact absent

theorem Sound.of_moved (sound : service.Sound) {id : ConnectionId} {moves : List (Move Message)}
    {hub : Hub} (moved : Moved service.hub hub id moves) : { service with hub := hub }.Sound :=
  sound.of_get? moved.indexed rfl fun _ absent => moved.absent absent

/-- What a step leaves of the connection `id`. -/
def Became (settings : Settings) (service : Service) (action : Action) (id : ConnectionId)
    (after : Option (Subscriber Message)) : Prop :=
  match action with
  | .connect userId => after =
      if id = service.nextConnection then some (.new userId privateBufferMax)
      else service.hub.subscribers.get? id
  | .leave other => after = if id = other then none else service.hub.subscribers.get? id
  | action => after = (service.hub.subscribers.get? id).map fun subscriber =>
      (service.movesFor settings id subscriber action).foldl Subscriber.step subscriber

theorem Moved.became {moves : List (Move Message)} (moved : Moved before after id moves)
    (other : ConnectionId) : after.subscribers.get? other =
      (before.subscribers.get? other).map fun subscriber =>
        (if id = other then moves else []).foldl Subscriber.step subscriber := by
  rw [moved.each]
  by_cases same : other = id
  · simp [same]
  · simp [same, Ne.symm same]

theorem read_step (settings : Settings) (sound : service.Sound) : (service.read settings).Sound ∧
    ∀ id, Became settings service .read id ((service.read settings).hub.subscribers.get? id) := by
  unfold read
  cases following : service.ahead with
  | nil =>
      refine ⟨sound, fun id => ?_⟩
      simp [Became, movesFor, following]
  | cons entry rest =>
      obtain ⟨streamId, record⟩ := entry
      have routed := PrivateRouter.route_routed settings.symbols service.router sound.indexed record
      refine ⟨sound.of_get? (sound.indexed.routes routed.hub) rfl fun id absent => ?_, fun id => ?_⟩
      · exact (routed.hub.each id).trans (by simp [absent])
      · refine (routed.hub.each id).trans ?_
        simp only [movesFor, following]
        rfl

theorem tick_step (settings : Settings) (sound : service.Sound) (tsNs : Int) :
    (service.tick settings tsNs).Sound ∧ ∀ id, Became settings service (.tick tsNs) id
      ((service.tick settings tsNs).hub.subscribers.get? id) := by
  have ticked : Conflator.Ticked settings service.conflator service.halt service.market tsNs
      service.hub (service.tick settings tsNs).hub :=
    Conflator.tick_ticked sound.indexed service.conflator
  refine ⟨sound.of_get? (ticked.indexed sound.indexed) rfl fun id absent => ?_, fun id => ?_⟩
  · exact (ticked.each id).trans (by simp [absent])
  · refine (ticked.each id).trans ?_
    simp only [movesFor, List.foldl_append, ← Subscriber.offerAll_eq_foldl]
    rfl

theorem act_step (settings : Settings) (sound : service.Sound) {action : Action}
    {id : ConnectionId} {move : Move Message}
    (acts : service.step settings action = { service with hub := service.hub.act id move })
    (moves : ∀ other subscriber, service.movesFor settings other subscriber action =
      if id = other then [move] else [])
    (changes : ∀ other after, Became settings service action other after ↔
      after = (service.hub.subscribers.get? other).map fun subscriber =>
        (service.movesFor settings other subscriber action).foldl Subscriber.step subscriber)
    (kept : ∀ subscriber : Subscriber Message, (subscriber.step move).userId = subscriber.userId ∧
      (subscriber.step move).channels = subscriber.channels) :
    (service.step settings action).Sound ∧ ∀ other, Became settings service action other
      ((service.step settings action).hub.subscribers.get? other) := by
  have moved := act_moved sound.indexed id move kept
  rw [acts]
  refine ⟨sound.of_moved moved, fun other => (changes other _).mpr ?_⟩
  simp only [moves]
  exact moved.became other

/-- What a step does to the service's own books, and to each connection. -/
theorem Sound.step (settings : Settings) (sound : service.Sound) (action : Action) :
    (service.step settings action).Sound ∧ ∀ id, Became settings service action id
      ((service.step settings action).hub.subscribers.get? id) := by
  cases action with
  | read => exact read_step settings sound
  | tick tsNs => exact tick_step settings sound tsNs
  | refresh reading =>
      refine ⟨⟨sound.indexed, sound.counted⟩, fun id => ?_⟩
      simp [Became, movesFor, Service.step]
  | connect userId =>
      refine ⟨⟨sound.indexed.add userId privateBufferMax (sound.counted _ le_rfl), fun id beyond => ?_⟩,
        fun id => ?_⟩
      · have past : service.nextConnection + 1 ≤ id := beyond
        simp only [Service.step, connect, Hub.add, Dict.get?_set]
        rw [if_neg (Nat.ne_of_gt (Nat.lt_of_succ_le past)),
          sound.counted id (Nat.le_of_succ_le past)]
      · simp only [Became, Service.step, connect, Hub.add, Dict.get?_set]
  | request id frame =>
      cases present : service.hub.subscribers.contains id with
      | false =>
          have absent : service.hub.subscribers.get? id = none :=
            Dict.contains_eq_false_iff.mp present
          simp only [Service.step, present, Bool.false_eq_true, if_false]
          refine ⟨sound, fun other => ?_⟩
          simp only [Became, movesFor]
          by_cases same : id = other
          · simp [← same, absent]
          · simp [same]
      | true =>
          have found : (service.hub.subscribers.get? id).isSome := by
            obtain ⟨subscriber, found⟩ := Dict.mem_keys_iff.mp (Dict.contains_iff.mp present)
            simp [found]
          have moved := request_moved settings sound.indexed found frame
          simp only [Service.step, present, if_true]
          exact ⟨sound.of_moved moved, fun other => moved.became other⟩
  | leave id =>
      simp only [Service.step, leave]
      cases found : service.hub.subscribers.get? id with
      | none =>
          refine ⟨sound, fun other => ?_⟩
          simp only [Became]
          split
          · rename_i same
            exact same ▸ found
          · rfl
      | some subscriber =>
          refine ⟨sound.of_get? (sound.indexed.remove found) rfl fun other absent => ?_,
            fun other => ?_⟩
          · simp only [Hub.remove, Dict.get?_erase, absent, ite_self]
          · simp only [Became, Hub.remove, Dict.get?_erase]
  | resume id =>
      exact act_step settings sound rfl (fun _ _ => rfl) (fun _ _ => .rfl)
        (Subscriber.kept_of_writes trivial)
  | written id =>
      exact act_step settings sound rfl (fun _ _ => rfl) (fun _ _ => .rfl)
        (Subscriber.kept_of_writes trivial)
  | broken id =>
      exact act_step settings sound rfl (fun _ _ => rfl) (fun _ _ => .rfl)
        (Subscriber.kept_of_writes trivial)

/-- Where a connection stands after a step: it has just been made, or it was there and made
the moves of the action. -/
theorem Sound.step_cases (sound : service.Sound) {action : Action} {id : ConnectionId}
    {after : Subscriber Message}
    (present : (service.step settings action).hub.subscribers.get? id = some after) :
    (∃ userId, action = .connect userId ∧ id = service.nextConnection ∧
      after = .new userId privateBufferMax) ∨
    ∃ subscriber, service.hub.subscribers.get? id = some subscriber ∧
      after = (service.movesFor settings id subscriber action).foldl Subscriber.step subscriber := by
  have became := (sound.step settings action).2 id
  rw [present] at became
  cases action with
  | connect userId =>
      simp only [Became] at became
      split at became
      · rename_i new
        exact .inl ⟨userId, rfl, new, Option.some.inj became⟩
      · exact .inr ⟨after, became.symm, rfl⟩
  | leave other =>
      simp only [Became] at became
      split at became
      · cases became
      · exact .inr ⟨after, became.symm, rfl⟩
  | read | tick _ | refresh _ | request _ _ | resume _ | written _ | broken _ =>
      obtain ⟨subscriber, found, changed⟩ := Option.map_eq_some_iff.mp became.symm
      exact .inr ⟨subscriber, found, changed.symm⟩

/-- A venue that lists one symbol. -/
def oneSymbol : Settings where
  symbols := ⟨[⟨1, "QAA".toList⟩], by simp, by simp⟩
  bookDepth := 10
  barBucketSeconds := []
  realSecondsPerSimulatedMinute := 1

/-! ## What every connection keeps -/

/-- Every connection's writer and queues are in order. -/
def Orderly (service : Service) : Prop :=
  ∀ id subscriber, service.hub.subscribers.get? id = some subscriber →
    subscriber.Orderly ∧ subscriber.Delivers

theorem moves_orderly {subscriber : Subscriber Message} (orderly : subscriber.Orderly)
    (delivers : subscriber.Delivers) (moves : List (Move Message)) :
    (moves.foldl Subscriber.step subscriber).Orderly ∧
      (moves.foldl Subscriber.step subscriber).Delivers := by
  induction moves generalizing subscriber with
  | nil => exact ⟨orderly, delivers⟩
  | cons move rest ih => exact ih (orderly.step move) (delivers.step orderly move)

theorem Orderly.step (orderly : service.Orderly) (sound : service.Sound) (action : Action) :
    (service.step settings action).Orderly := by
  intro id after present
  obtain ⟨userId, -, -, new⟩ | ⟨subscriber, found, moved⟩ := sound.step_cases present
  · rw [new]
    exact ⟨Subscriber.new_orderly _ _, Subscriber.new_delivers _ _⟩
  · obtain ⟨before, delivered⟩ := orderly id subscriber found
    rw [moved]
    exact moves_orderly before delivered _

/-- What holds of the service in every state of every run. -/
theorem run_sound (settings : Settings) (sound : service.Sound) (orderly : service.Orderly)
    (actions : List Action) : (actions.foldl (Service.step settings) service).Sound ∧
      (actions.foldl (Service.step settings) service).Orderly := by
  induction actions generalizing service with
  | nil => exact ⟨sound, orderly⟩
  | cons action rest ih => exact ih (sound.step settings action).1 (orderly.step sound action)

theorem start_orderly (market : MarketState) (ahead : List (StreamId × Outbound)) :
    (start market ahead).Orderly := fun id _ present => by
  rw [(start_sound market ahead).counted id (Nat.zero_le id)] at present
  cases present

/-! ## Everything but the tick -/

end Service

/-- The answer to a request. -/
def Message.IsReply : Message → Prop
  | .error code _ => code = .unknownChannel
  | _ => False

def Message.IsPrivate : Message → Prop
  | .privateMessage _ _ _ => True
  | _ => False

instance : DecidablePred Message.IsPrivate
  | .privateMessage _ _ _ => .isTrue trivial
  | .book _ _ _ _ _ | .tapePrint _ _ _ _ _ _ | .barClose _ _ _ _ _ _ _ _ | .error _ _ => .isFalse id

/-- A move that offers no market frame, forgets no fresh channel, and whose private frame is one
of these. -/
def Move.Offers (allowed : Message → Prop) : Move Message → Prop
  | .offerMarket _ | .takeFresh => False
  | .offerPrivate frame => allowed frame
  | _ => True

theorem Move.Offers.mono {allowed other : Message → Prop} (implies : ∀ frame, allowed frame → other frame)
    {move : Move Message} (offers : move.Offers allowed) : move.Offers other := by
  cases move with
  | offerPrivate frame => exact implies frame offers
  | offerMarket _ | takeFresh => exact offers
  | _ => trivial

theorem numbered_private (last : Int) (owed : List (Int × PrivateBody)) :
    ∀ message ∈ numbered last owed, message.IsPrivate := by
  induction owed generalizing last with
  | nil => simp
  | cons message rest ih =>
      obtain ⟨tsNs, body⟩ := message
      intro message member
      cases member with
      | head => trivial
      | tail _ member => exact ih (last + 1) message member

namespace Service

variable {settings : Settings} {service : Service}

theorem replyMoves_offers {payload : Message} (reply : payload.IsReply) :
    ∀ move ∈ replyMoves payload, move.Offers Message.IsReply := by
  simpa [replyMoves, Move.Offers] using reply

theorem requestMoves_offers (settings : Settings) (frame : Option (Op × List Channel)) :
    ∀ move ∈ requestMoves settings frame, move.Offers Message.IsReply := by
  cases frame with
  | none => exact replyMoves_offers (by trivial)
  | some frame =>
      obtain ⟨op, asked⟩ := frame
      intro move member
      simp only [requestMoves, List.mem_append] at member
      cases member with
      | inl answered =>
          split at answered
          · cases answered
          · exact replyMoves_offers (by trivial) move answered
      | inr served =>
          split at served
          · cases served
          · cases op with
            | subscribe =>
                rw [List.mem_singleton.mp served]
                trivial
            | unsubscribe =>
                rw [List.mem_singleton.mp served]
                trivial
            | other name => exact replyMoves_offers (by trivial) move served

/-- What an action offers, if it is neither a tick nor the next record. -/
theorem movesFor_reply {action : Action} (noTick : ∀ tsNs, action ≠ .tick tsNs)
    (noRead : action ≠ .read) (id : ConnectionId) (subscriber : Subscriber Message) :
    ∀ move ∈ service.movesFor settings id subscriber action, move.Offers Message.IsReply := by
  intro move member
  cases action with
  | tick tsNs => exact absurd rfl (noTick tsNs)
  | read => exact absurd rfl noRead
  | request other frame =>
      simp only [movesFor] at member
      split at member
      · exact requestMoves_offers settings frame move member
      · cases member
  | resume other | written other | broken other =>
      simp only [movesFor] at member
      split at member
      · rw [List.mem_singleton.mp member]
        trivial
      · cases member
  | refresh _ | connect _ | leave _ => cases member

theorem movesFor_read (id : ConnectionId) (subscriber : Subscriber Message) :
    ∀ move ∈ service.movesFor settings id subscriber .read, move.Offers Message.IsPrivate := by
  intro move member
  cases following : service.ahead with
  | nil => simp [movesFor, following] at member
  | cons entry rest =>
      simp only [movesFor, following] at member
      obtain ⟨frame, owed, same⟩ := List.mem_map.mp member
      rw [← same]
      exact numbered_private _ _ frame owed

/-- What any action but a tick offers. -/
theorem movesFor_offers {action : Action} (noTick : ∀ tsNs, action ≠ .tick tsNs)
    (id : ConnectionId) (subscriber : Subscriber Message) :
    ∀ move ∈ service.movesFor settings id subscriber action,
      move.Offers fun frame => frame.IsPrivate ∨ frame.IsReply := by
  intro move member
  by_cases reads : action = .read
  · cases reads
    exact (movesFor_read id subscriber move member).mono fun _ => .inl
  · exact (movesFor_reply noTick reads id subscriber move member).mono fun _ => .inr

end Service

namespace Subscriber

variable {allowed : Message → Prop}

/-- What a move other than a tick's adds to the accepted frames. -/
theorem accepted_of_offers (subscriber : Subscriber Message) {move : Move Message}
    (offers : move.Offers allowed) : ∃ frames : List Message, (∀ frame ∈ frames, allowed frame) ∧
      (subscriber.step move).accepted =
        subscriber.accepted ++ frames.map (Lane.privateData, ·) := by
  have none : (subscriber.step move).accepted = subscriber.accepted →
      ∃ frames : List Message, (∀ frame ∈ frames, allowed frame) ∧
        (subscriber.step move).accepted =
          subscriber.accepted ++ frames.map (Lane.privateData, ·) := fun same =>
    ⟨[], by simp, by simp [same]⟩
  cases move with
  | offerMarket _ | takeFresh => exact absurd offers id
  | offerPrivate frame =>
      simp only [step, offerPrivate] at none ⊢
      split
      · rename_i closed
        rw [if_pos closed] at none
        exact none rfl
      · rename_i opened
        rw [if_neg opened] at none
        split
        · rename_i full
          rw [if_pos full] at none
          exact none rfl
        · exact ⟨[frame], by simpa [Move.Offers] using offers, rfl⟩
  | subscribe _ | unsubscribe _ => exact none rfl
  | flush => exact none (congrArg (·.2.2.2) (subscriber.standing_of_writes .flush trivial))
  | resume => exact none (congrArg (·.2.2.2) (subscriber.standing_of_writes .resume trivial))
  | written => exact none (congrArg (·.2.2.2) (subscriber.standing_of_writes .written trivial))
  | broken => exact none (congrArg (·.2.2.2) (subscriber.standing_of_writes .broken trivial))
  | stop => exact none (congrArg (·.2.2.2) (subscriber.standing_of_writes .stop trivial))

theorem foldl_accepted_of_offers {moves : List (Move Message)}
    (offers : ∀ move ∈ moves, move.Offers allowed) (subscriber : Subscriber Message) :
    ∃ frames : List Message, (∀ frame ∈ frames, allowed frame) ∧
      (moves.foldl step subscriber).accepted =
        subscriber.accepted ++ frames.map (Lane.privateData, ·) := by
  induction moves generalizing subscriber with
  | nil => exact ⟨[], by simp, by simp⟩
  | cons move rest ih =>
      obtain ⟨first, ours, now⟩ := subscriber.accepted_of_offers (offers move List.mem_cons_self)
      obtain ⟨later, theirs, then_⟩ :=
        ih (fun other member => offers other (List.mem_cons_of_mem _ member)) (subscriber.step move)
      refine ⟨first ++ later, fun frame member => ?_, ?_⟩
      · cases List.mem_append.mp member with
        | inl early => exact ours frame early
        | inr late => exact theirs frame late
      · rw [List.foldl_cons, then_, now, List.map_append, List.append_assoc]

end Subscriber

end QuantArena.Fanout
