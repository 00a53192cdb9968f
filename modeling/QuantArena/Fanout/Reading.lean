import QuantArena.Fanout.ServiceProperties

/-! What a client last read of one kind in the frames accepted for it. -/

set_option autoImplicit false

namespace QuantArena.Fanout

open Foundations Contracts

variable {β : Type} {read : Message → Option β}

/-- What the last of the frames that say it says. -/
def lastRead (read : Message → Option β) (frames : List (Lane × Message)) : Option β :=
  (frames.filterMap fun entry => read entry.2).getLast?

theorem lastRead_append_map (accepted : List (Lane × Message)) (lane : Lane)
    (frames : List Message) : lastRead read (accepted ++ frames.map (lane, ·)) =
      (frames.filterMap read).getLast?.or (lastRead read accepted) := by
  simp [lastRead, List.filterMap_append, List.filterMap_map, List.getLast?_append]

/-- A reading that no private message and no answer to a request has. -/
def Public (read : Message → Option β) : Prop :=
  ∀ frame : Message, frame.IsPrivate ∨ frame.IsReply → read frame = none

theorem lastRead_of_offers (silent : Public read) {moves : List (Move Message)}
    (offers : ∀ move ∈ moves, move.Offers fun frame => frame.IsPrivate ∨ frame.IsReply)
    (subscriber : Subscriber Message) :
    lastRead read (moves.foldl Subscriber.step subscriber).accepted =
      lastRead read subscriber.accepted := by
  obtain ⟨frames, quiet, accepted⟩ := Subscriber.foldl_accepted_of_offers offers subscriber
  have none : frames.filterMap read = [] :=
    List.filterMap_eq_nil_iff.mpr fun frame member => silent frame (quiet frame member)
  rw [accepted, lastRead_append_map, none]
  rfl

/-- What market frames alone say is all on the market queue. -/
theorem filterMap_read_eq (silent : Public read) {frames : List (Lane × Message)}
    (origin : ∀ entry ∈ frames, entry.1 = .marketData ∨
      entry.1 = .privateData ∧ (entry.2.IsPrivate ∨ entry.2.IsReply)) :
    frames.filterMap (fun entry => read entry.2) =
      (Subscriber.ofLane .marketData frames).filterMap read := by
  induction frames with
  | nil => rfl
  | cons entry rest ih =>
      have later := ih fun other member => origin other (List.mem_cons_of_mem _ member)
      obtain ⟨lane, frame⟩ := entry
      rw [Subscriber.ofLane_cons, List.filterMap_append, ← later]
      obtain same | ⟨same, quiet⟩ := origin (lane, frame) List.mem_cons_self
      · have market : lane = .marketData := same
        simp [List.filterMap_cons, Subscriber.ofLane, market]
        cases read frame <;> rfl
      · have own : lane = .privateData := same
        have none := silent frame quiet
        simp [Subscriber.ofLane, own, none]

/-- What one subscriber last read after a tick. -/
theorem lastRead_ticked (subscriber : Subscriber Message) (frames : List Message) :
    lastRead read ((subscriber.offerAll frames).takeFresh.1).flush.accepted =
      if subscriber.Accepting then
        (frames.filterMap read).getLast?.or (lastRead read subscriber.accepted)
      else lastRead read subscriber.accepted := by
  rw [(Conflator.ticked_kept subscriber frames).2.2.2]
  split
  · rename_i accepting
    rw [Subscriber.offerAll_accepted accepting, lastRead_append_map]
  · rename_i refusing
    rw [Subscriber.offerAll_refused refusing]

end QuantArena.Fanout
