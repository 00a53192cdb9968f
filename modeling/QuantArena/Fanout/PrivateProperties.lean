import QuantArena.Fanout.ConflationProperties

/-! What a record owes to one user, and the numbers its messages carry. -/

set_option autoImplicit false

namespace QuantArena.Fanout

open Foundations Contracts

/-! ## What a user is owed -/

/-- The messages among addressed ones that go to one user. -/
def bodiesFor (userId : Int) (addressed : List (Int × PrivateBody)) : List PrivateBody :=
  addressed.filterMap fun message => if message.1 = userId then some message.2 else none

theorem bodiesFor_cons_self (userId : Int) (body : PrivateBody) (rest : List (Int × PrivateBody)) :
    bodiesFor userId ((userId, body) :: rest) = body :: bodiesFor userId rest := by
  simp [bodiesFor]

theorem bodiesFor_cons_of_ne {userId other : Int} (different : other ≠ userId) (body : PrivateBody)
    (rest : List (Int × PrivateBody)) :
    bodiesFor userId ((other, body) :: rest) = bodiesFor userId rest := by
  simp [bodiesFor, different]

/-- What one user is owed for a record: each message with the record's time. -/
def owedTo (symbols : SymbolTable) (userId : Int) (record : Outbound) : List (Int × PrivateBody) :=
  (bodiesFor userId (messagesFor symbols record)).map (record.timestampNs, ·)

/-- The users a record is about. Both sides of a fill may be one user. -/
def parties : Outbound → List Int
  | .orderAccepted accepted => [accepted.userId]
  | .orderRejected rejected => [rejected.userId]
  | .fill fill => [fill.makerUserId, fill.takerUserId]
  | .orderCancelled cancelled => [cancelled.userId]
  | .accountCreated created => [created.userId]
  | .cashCredited credited => [credited.userId]
  | .bookChanged _ | .replayConfigured _ => []

theorem messagesFor_parties (symbols : SymbolTable) (record : Outbound) :
    (messagesFor symbols record).map (·.1) = parties record := by
  cases record with
  | _ => rfl

theorem bodiesFor_length (userId : Int) (addressed : List (Int × PrivateBody)) :
    (bodiesFor userId addressed).length = (addressed.map (·.1)).count userId := by
  induction addressed with
  | nil => rfl
  | cons message rest ih =>
      obtain ⟨other, body⟩ := message
      by_cases own : other = userId
      · subst own
        rw [bodiesFor_cons_self, List.length_cons, ih, List.map_cons, List.count_cons_self]
      · rw [bodiesFor_cons_of_ne own, ih, List.map_cons, List.count_cons_of_ne own]

/-- A user is owed one message for each part it has in the record: none, one, or two for a trade
with itself. -/
theorem owedTo_length (symbols : SymbolTable) (userId : Int) (record : Outbound) :
    (owedTo symbols userId record).length = (parties record).count userId := by
  rw [owedTo, List.length_map, bodiesFor_length, messagesFor_parties]

/-- Messages of one user, under consecutive numbers. -/
def numbered (last : Int) : List (Int × PrivateBody) → List Message
  | [] => []
  | (tsNs, body) :: rest => .privateMessage (last + 1) tsNs body :: numbered (last + 1) rest

@[simp] theorem numbered_nil (last : Int) : numbered last [] = [] := rfl

theorem numbered_append (last : Int) (first second : List (Int × PrivateBody)) :
    numbered last (first ++ second) =
      numbered last first ++ numbered (last + first.length) second := by
  induction first generalizing last with
  | nil => simp
  | cons message rest ih =>
      obtain ⟨tsNs, body⟩ := message
      have shift : last + 1 + (rest.length : Int) = last + ((rest.length : Int) + 1) := by omega
      simp [numbered, ih, shift]

/-! ## Private offers -/

namespace Subscriber

variable {φ : Type}

/-- Several private frames, one after the other. -/
def offerAllPrivate (subscriber : Subscriber φ) (frames : List φ) : Subscriber φ :=
  (frames.map Move.offerPrivate).foldl step subscriber

theorem offerAllPrivate_append (subscriber : Subscriber φ) (first second : List φ) :
    subscriber.offerAllPrivate (first ++ second) =
      (subscriber.offerAllPrivate first).offerAllPrivate second := by
  simp [offerAllPrivate]

theorem offerPrivate_kept (subscriber : Subscriber φ) (frame : φ) :
    (subscriber.offerPrivate frame).1.userId = subscriber.userId ∧
      (subscriber.offerPrivate frame).1.channels = subscriber.channels ∧
      (subscriber.offerPrivate frame).1.fresh = subscriber.fresh ∧
      (subscriber.offerPrivate frame).1.closed = subscriber.closed := by
  unfold offerPrivate
  split
  · exact ⟨rfl, rfl, rfl, rfl⟩
  · split
    · exact ⟨rfl, rfl, rfl, rfl⟩
    · exact ⟨rfl, rfl, rfl, rfl⟩

theorem offerAllPrivate_kept (subscriber : Subscriber φ) (frames : List φ) :
    (subscriber.offerAllPrivate frames).userId = subscriber.userId ∧
      (subscriber.offerAllPrivate frames).channels = subscriber.channels := by
  induction frames generalizing subscriber with
  | nil => exact ⟨rfl, rfl⟩
  | cons frame rest ih =>
      obtain ⟨user, channels, -, -⟩ := subscriber.offerPrivate_kept frame
      obtain ⟨user', channels'⟩ := ih (subscriber.offerPrivate frame).1
      exact ⟨user'.trans user, channels'.trans channels⟩

end Subscriber

/-! ## Routing -/

/-- Every connection of every user was offered that user's frames, and nothing else happened. -/
structure Hub.Routes (before after : Hub) (frames : Int → List Message) : Prop where
  each : ∀ id, after.subscribers.get? id = (before.subscribers.get? id).map fun subscriber =>
    subscriber.offerAllPrivate (frames subscriber.userId)
  byChannel : after.byChannel = before.byChannel
  byUser : after.byUser = before.byUser

namespace Hub

variable {hub before middle after : Hub}

theorem Routes.refl (hub : Hub) : hub.Routes hub fun _ => [] where
  each := fun id => by simp [Subscriber.offerAllPrivate]
  byChannel := rfl
  byUser := rfl

theorem Routes.trans {first second : Int → List Message}
    (early : before.Routes middle first) (late : middle.Routes after second) :
    before.Routes after fun userId => first userId ++ second userId where
  each := fun id => by
    rw [late.each id, early.each id, Option.map_map]
    refine congrArg (fun change => (before.subscribers.get? id).map change)
      (funext fun subscriber => ?_)
    have user := (subscriber.offerAllPrivate_kept (first subscriber.userId)).1
    simp only [Function.comp, user, Subscriber.offerAllPrivate_append]
  byChannel := late.byChannel.trans early.byChannel
  byUser := late.byUser.trans early.byUser

theorem Indexed.routes (indexed : before.Indexed) {frames : Int → List Message}
    (routes : before.Routes after frames) : after.Indexed where
  channel := fun channel id => by
    rw [routes.byChannel, indexed.channel, routes.each]
    cases before.subscribers.get? id with
    | none => simp
    | some subscriber =>
        simp [(subscriber.offerAllPrivate_kept (frames subscriber.userId)).2]
  user := fun userId id => by
    rw [routes.byUser, indexed.user, routes.each]
    cases before.subscribers.get? id with
    | none => simp
    | some subscriber =>
        simp [(subscriber.offerAllPrivate_kept (frames subscriber.userId)).1]

theorem Indexed.toUser (indexed : hub.Indexed) (userId : Int) (frame : Message) :
    hub.Routes (hub.toUser userId frame).1 fun other => if other = userId then [frame] else [] where
  each := fun id => by
    simp only [Hub.toUser, deliver, Dict.get?_mapValues]
    cases found : hub.subscribers.get? id with
    | none => rfl
    | some subscriber =>
        have listed : id ∈ hub.byUser userId ↔ subscriber.userId = userId := by
          simp [indexed.user, found]
        simp only [Option.map_some, Option.some.injEq, listed]
        split
        · rfl
        · rfl
  byChannel := rfl
  byUser := rfl

theorem Indexed.hasUser_iff (indexed : hub.Indexed) (userId : Int) : hub.hasUser userId = true ↔
    ∃ id subscriber, hub.subscribers.get? id = some subscriber ∧ subscriber.userId = userId := by
  simp only [hasUser, decide_eq_true_eq, ← Finset.nonempty_iff_ne_empty, Finset.Nonempty,
    indexed.user]

end Hub

namespace PrivateRouter

open Hub

/-- The messages of one user among addressed ones, numbered on from the user's counter. -/
def framesFor (router : PrivateRouter) (tsNs : Int) (addressed : List (Int × PrivateBody))
    (userId : Int) : List Message :=
  numbered (router.seq.getD userId 0) ((bodiesFor userId addressed).map (tsNs, ·))

/-- What routing some messages leaves: the connections that were offered them, and the counters
of the users that have one. -/
structure Routed (tsNs : Int) (addressed : List (Int × PrivateBody))
    (before after : PrivateRouter × Hub) : Prop where
  hub : before.2.Routes after.2 (before.1.framesFor tsNs addressed)
  seq : ∀ userId, before.2.hasUser userId = true → after.1.seq.getD userId 0 =
    before.1.seq.getD userId 0 + (bodiesFor userId addressed).length

theorem routeOne_routed (tsNs : Int) {state : PrivateRouter × Hub} (indexed : state.2.Indexed)
    (message : Int × PrivateBody) : Routed tsNs [message] state (routeOne tsNs state message) := by
  obtain ⟨userId, body⟩ := message
  obtain ⟨router, hub⟩ := state
  have own : ∀ other, router.framesFor tsNs [(userId, body)] other =
      if other = userId then [.privateMessage (router.seq.getD userId 0 + 1) tsNs body] else [] := by
    intro other
    by_cases same : other = userId
    · simp [framesFor, bodiesFor, numbered, same]
    · simp [framesFor, bodiesFor, same, Ne.symm same]
  by_cases present : hub.hasUser userId = true
  · have shape : routeOne tsNs (router, hub) (userId, body) =
        ({ (router.nextSeq userId).1 with delivered := (router.nextSeq userId).1.delivered +
            ((hub.encode (.privateMessage (router.nextSeq userId).2 tsNs body)).1.toUser userId
              (.privateMessage (router.nextSeq userId).2 tsNs body)).2 },
          ((hub.encode (.privateMessage (router.nextSeq userId).2 tsNs body)).1.toUser userId
            (.privateMessage (router.nextSeq userId).2 tsNs body)).1) := by
      simp only [routeOne, present, if_true, encode]
    rw [shape]
    have offered := (indexed.encode (.privateMessage (router.nextSeq userId).2 tsNs body)).toUser
      userId (.privateMessage (router.nextSeq userId).2 tsNs body)
    refine ⟨⟨fun id => ?_, offered.byChannel, offered.byUser⟩, fun other _ => ?_⟩
    · refine (offered.each id).trans ?_
      simp only [own]
      rfl
    · simp only [nextSeq, Dict.getD_set]
      by_cases same : other = userId
      · simp [bodiesFor, same]
      · simp [bodiesFor, same, Ne.symm same]
  · have shape : routeOne tsNs (router, hub) (userId, body) = (router, hub) := by
      simp only [routeOne, present, Bool.false_eq_true, if_false]
    rw [shape]
    refine ⟨⟨fun id => ?_, rfl, rfl⟩, fun other known => ?_⟩
    · cases found : hub.subscribers.get? id with
      | none => rfl
      | some subscriber =>
          have other : subscriber.userId ≠ userId := fun same =>
            present ((indexed.hasUser_iff userId).mpr ⟨id, subscriber, found, same⟩)
          simp [own, other, Subscriber.offerAllPrivate]
    · have different : userId ≠ other := fun same => present (same ▸ known)
      simp [bodiesFor, different]

theorem Routed.trans {tsNs : Int} {first second : List (Int × PrivateBody)}
    {before middle after : PrivateRouter × Hub} (early : Routed tsNs first before middle)
    (late : Routed tsNs second middle after) (indexed : before.2.Indexed) :
    Routed tsNs (first ++ second) before after := by
  have split : ∀ userId, bodiesFor userId (first ++ second) =
      bodiesFor userId first ++ bodiesFor userId second := fun _ => List.filterMap_append
  have still : ∀ userId, middle.2.hasUser userId = before.2.hasUser userId := fun userId => by
    rw [hasUser, hasUser, early.hub.byUser]
  have both := early.hub.trans late.hub
  refine ⟨⟨fun id => ?_, both.byChannel, both.byUser⟩, fun userId known => ?_⟩
  · rw [both.each id]
    cases found : before.2.subscribers.get? id with
    | none => rfl
    | some subscriber =>
        have known := (indexed.hasUser_iff subscriber.userId).mpr ⟨id, subscriber, found, rfl⟩
        simp only [Option.map_some, framesFor, early.seq _ known, split, List.map_append,
          numbered_append, List.length_map]
  · rw [late.seq userId ((still userId).trans known), early.seq userId known, split,
      List.length_append]
    omega

theorem foldl_routeOne_routed (tsNs : Int) (addressed : List (Int × PrivateBody))
    {state : PrivateRouter × Hub} (indexed : state.2.Indexed) :
    Routed tsNs addressed state (addressed.foldl (routeOne tsNs) state) := by
  induction addressed generalizing state with
  | nil => exact ⟨.refl _, fun _ _ => by simp [bodiesFor]⟩
  | cons message rest ih =>
      have one := routeOne_routed tsNs indexed message
      exact one.trans (ih (indexed.routes one.hub)) indexed

/-- What a record does to the connections and to the counters. -/
theorem route_routed (symbols : SymbolTable) (router : PrivateRouter) {hub : Hub}
    (indexed : hub.Indexed) (record : Outbound) :
    Routed record.timestampNs (messagesFor symbols record) (router, hub)
      (router.route symbols hub record) :=
  foldl_routeOne_routed record.timestampNs (messagesFor symbols record) indexed

end PrivateRouter

end QuantArena.Fanout
