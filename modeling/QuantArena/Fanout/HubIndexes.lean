import Mathlib.Data.Finset.Filter
import QuantArena.Fanout.Hub
import QuantArena.Foundations.History
import QuantArena.Foundations.Index

/-! The hub's two indexes as it keeps them, and that they say of every channel and every user
exactly which of the added subscribers hold it, as the calls so far have it. -/

set_option autoImplicit false

namespace QuantArena.Fanout

open Foundations

/-- `Hub`'s membership, with the subscriber objects it is about. -/
structure Membership where
  objects : ConnectionId → Subscriber Message
  subscribers : Finset ConnectionId
  byChannel : Index Channel ConnectionId
  byUser : Index Int ConnectionId

/-- A set is given in the order in which the call walks it. -/
inductive MembershipCall where
  | add (id : ConnectionId)
  | remove (id : ConnectionId) (walked : List Channel)
  | subscribe (id : ConnectionId) (channels : List Channel)
  | unsubscribe (id : ConnectionId) (channels : List Channel)
deriving DecidableEq, Repr

namespace Membership

/-- Before the first call, with subscribers of any users. -/
def start (userOf : ConnectionId → Int) : Membership where
  objects := fun id => .new (userOf id) privateBufferMax
  subscribers := ∅
  byChannel := .empty
  byUser := .empty

def add (hub : Membership) (id : ConnectionId) : Membership :=
  { hub with
    subscribers := insert id hub.subscribers
    byUser := hub.byUser.enter (hub.objects id).userId id }

def remove (hub : Membership) (id : ConnectionId) (walked : List Channel) : Membership :=
  { hub with
    subscribers := hub.subscribers.erase id
    byChannel := hub.byChannel.leaveAll walked id
    byUser := hub.byUser.leave (hub.objects id).userId id }

def subscribe (hub : Membership) (id : ConnectionId) (channels : List Channel) : Membership :=
  { hub with
    objects := Function.update hub.objects id ((hub.objects id).subscribe channels.toFinset)
    byChannel := hub.byChannel.enterAll channels id }

def unsubscribe (hub : Membership) (id : ConnectionId) (channels : List Channel) : Membership :=
  { hub with
    objects := Function.update hub.objects id ((hub.objects id).unsubscribe channels.toFinset)
    byChannel := hub.byChannel.leaveAll channels id }

def step (hub : Membership) : MembershipCall → Membership
  | .add id => hub.add id
  | .remove id walked => hub.remove id walked
  | .subscribe id channels => hub.subscribe id channels
  | .unsubscribe id channels => hub.unsubscribe id channels

/-- A removal walks the channels that the subscriber holds. -/
def Walks (hub : Membership) : MembershipCall → Prop
  | .remove id walked => walked.toFinset = (hub.objects id).channels
  | _ => True

instance (hub : Membership) : (call : MembershipCall) → Decidable (hub.Walks call)
  | .remove _ _ => inferInstanceAs (Decidable (_ = _))
  | .add _ | .subscribe _ _ | .unsubscribe _ _ => .isTrue trivial

end Membership

/-! ## What the calls say -/

namespace MembershipCall

def Removes (id : ConnectionId) : MembershipCall → Prop
  | .remove other _ => other = id
  | _ => False

def Enters (id : ConnectionId) (channel : Channel) : MembershipCall → Prop
  | .subscribe other channels => other = id ∧ channel ∈ channels
  | _ => False

def Leaves (id : ConnectionId) (channel : Channel) : MembershipCall → Prop
  | .unsubscribe other channels => other = id ∧ channel ∈ channels
  | _ => False

instance (id : ConnectionId) : DecidablePred (Removes id)
  | .remove _ _ => inferInstanceAs (Decidable (_ = _))
  | .add _ | .subscribe _ _ | .unsubscribe _ _ => .isFalse (fun removes => removes)

/-- Added, and not removed since. -/
def Added (calls : List MembershipCall) (id : ConnectionId) : Prop :=
  Since (· = .add id) (Removes id) calls

instance (calls : List MembershipCall) (id : ConnectionId) : Decidable (Added calls id) :=
  Since.decidable calls

/-- Subscribed to the channel, and not unsubscribed from it since. -/
def Holds (calls : List MembershipCall) (id : ConnectionId) (channel : Channel) : Prop :=
  Since (Enters id channel) (Leaves id channel) calls

/-- Nobody is added twice, or subscribes or unsubscribes while not added. -/
def Proper (before : List MembershipCall) : MembershipCall → Prop
  | .add id => .add id ∉ before
  | .remove _ _ => True
  | .subscribe id _ => Added before id
  | .unsubscribe id _ => Added before id

instance (before : List MembershipCall) : (call : MembershipCall) → Decidable (Proper before call)
  | .add _ => inferInstanceAs (Decidable (¬ _))
  | .remove _ _ => .isTrue trivial
  | .subscribe id _ | .unsubscribe id _ => inferInstanceAs (Decidable (Added before id))

end MembershipCall

namespace Membership

open MembershipCall

/-- Both indexes are functions of the calls so far, and no entry is empty. -/
structure Exact (userOf : ConnectionId → Int) (calls : List MembershipCall) (hub : Membership) :
    Prop where
  channels : ∀ channel id, (∃ held, hub.byChannel.get? channel = some held ∧ id ∈ held) ↔
    Added calls id ∧ Holds calls id channel
  users : ∀ userId id, (∃ held, hub.byUser.get? userId = some held ∧ id ∈ held) ↔
    Added calls id ∧ userOf id = userId
  noEmptyChannel : ∀ held ∈ hub.byChannel.values, held ≠ ∅
  noEmptyUser : ∀ held ∈ hub.byUser.values, held ≠ ∅
  /-- In particular a removed subscriber is in neither. -/
  absent : ∀ id, ¬ Added calls id →
    (∀ held ∈ hub.byChannel.values, id ∉ held) ∧ ∀ held ∈ hub.byUser.values, id ∉ held
  /-- The hub's set and the subscribers themselves say the same. -/
  subscribers : ∀ id, id ∈ hub.subscribers ↔ Added calls id
  objects : ∀ id, (hub.objects id).userId = userOf id ∧
    ∀ channel, channel ∈ (hub.objects id).channels ↔ Holds calls id channel

/-- What holds between calls. -/
structure Kept (userOf : ConnectionId → Int) (calls : List MembershipCall) (hub : Membership) :
    Prop where
  subscribers : ∀ id, id ∈ hub.subscribers ↔ Added calls id
  held : ∀ id channel, channel ∈ (hub.objects id).channels ↔ Holds calls id channel
  userIds : ∀ id, (hub.objects id).userId = userOf id
  channels : ∀ channel id, id ∈ hub.byChannel.holders channel ↔
    Added calls id ∧ Holds calls id channel
  users : ∀ userId id, id ∈ hub.byUser.holders userId ↔ Added calls id ∧ userOf id = userId
  channelsTidy : hub.byChannel.Tidy
  usersTidy : hub.byUser.Tidy
  /-- Who was never added holds no channel. -/
  newcomers : ∀ id, .add id ∉ calls → ¬ Added calls id ∧ ∀ channel, ¬ Holds calls id channel

variable {userOf : ConnectionId → Int} {calls : List MembershipCall} {hub : Membership}
  {id : ConnectionId}

theorem Kept.exact (kept : hub.Kept userOf calls) : hub.Exact userOf calls where
  channels := fun channel id => Index.mem_holders_iff.symm.trans (kept.channels channel id)
  users := fun userId id => Index.mem_holders_iff.symm.trans (kept.users userId id)
  noEmptyChannel := fun _ member =>
    kept.channelsTidy _ _ (Dict.mem_values_iff.mp member).choose_spec
  noEmptyUser := fun _ member => kept.usersTidy _ _ (Dict.mem_values_iff.mp member).choose_spec
  absent := fun id absent => by
    refine ⟨fun held member inside => ?_, fun held member inside => ?_⟩
    · obtain ⟨channel, found⟩ := Dict.mem_values_iff.mp member
      exact absent ((kept.channels channel id).mp (Index.mem_holders_iff.mpr ⟨held, found, inside⟩)).1
    · obtain ⟨userId, found⟩ := Dict.mem_values_iff.mp member
      exact absent ((kept.users userId id).mp (Index.mem_holders_iff.mpr ⟨held, found, inside⟩)).1
  subscribers := kept.subscribers
  objects := fun id => ⟨kept.userIds id, kept.held id⟩

theorem start_kept (userOf : ConnectionId → Int) : (start userOf).Kept userOf [] where
  subscribers := by simp [start, Added]
  held := by simp [start, Holds, Subscriber.new]
  userIds := by simp [start, Subscriber.new]
  channels := by simp [start, Added]
  users := by simp [start, Added]
  channelsTidy := Index.tidy_empty
  usersTidy := Index.tidy_empty
  newcomers := by simp [Added, Holds]

theorem Kept.add (kept : hub.Kept userOf calls) (fresh : .add id ∉ calls) :
    (hub.add id).Kept userOf (calls ++ [.add id]) := by
  have added : ∀ other, Added (calls ++ [.add id]) other ↔ other = id ∨ Added calls other := by
    intro other
    simp [Added, Since.concat_iff, Removes, eq_comm]
  have holds : ∀ other channel, Holds (calls ++ [.add id]) other channel ↔
      Holds calls other channel := by
    intro other channel
    simp [Holds, Since.concat_iff, Enters, Leaves]
  refine ⟨fun other => ?_, fun other channel => ?_, kept.userIds, fun channel other => ?_,
    fun userId other => ?_, kept.channelsTidy, kept.usersTidy.enter _ _, fun other never => ?_⟩
  · show other ∈ insert id hub.subscribers ↔ _
    rw [Finset.mem_insert, kept.subscribers, added]
  · exact (kept.held other channel).trans (holds other channel).symm
  · show other ∈ hub.byChannel.holders channel ↔ _
    rw [kept.channels, added, holds]
    by_cases new : other = id
    · simp [new, (kept.newcomers id fresh).2 channel]
    · simp [new]
  · show other ∈ (hub.byUser.enter (hub.objects id).userId id).holders userId ↔ _
    rw [Index.mem_holders_enter, kept.users, added, kept.userIds]
    by_cases new : other = id
    · simp [new, (kept.newcomers id fresh).1, eq_comm]
    · simp [new]
  · rw [List.mem_append, List.mem_singleton, not_or, MembershipCall.add.injEq] at never
    obtain ⟨before, different⟩ := never
    rw [added]
    simp only [different, false_or, holds]
    exact kept.newcomers other before

theorem Kept.remove (kept : hub.Kept userOf calls) {walked : List Channel}
    (held : walked.toFinset = (hub.objects id).channels) :
    (hub.remove id walked).Kept userOf (calls ++ [.remove id walked]) := by
  have added : ∀ other, Added (calls ++ [.remove id walked]) other ↔
      Added calls other ∧ id ≠ other := by
    intro other
    simp [Added, Since.concat_iff, Removes]
  have holds : ∀ other channel, Holds (calls ++ [.remove id walked]) other channel ↔
      Holds calls other channel := by
    intro other channel
    simp [Holds, Since.concat_iff, Enters, Leaves]
  have all : ∀ channel, channel ∈ walked ↔ Holds calls id channel := fun channel => by
    rw [← List.mem_toFinset, held, kept.held]
  refine ⟨fun other => ?_, fun other channel => ?_, kept.userIds, fun channel other => ?_,
    fun userId other => ?_, kept.channelsTidy.leaveAll _ _, kept.usersTidy.leave _ _,
    fun other never => ?_⟩
  · show other ∈ hub.subscribers.erase id ↔ _
    rw [Finset.mem_erase, kept.subscribers, added, and_comm, ne_comm]
  · exact (kept.held other channel).trans (holds other channel).symm
  · show other ∈ (hub.byChannel.leaveAll walked id).holders channel ↔ _
    rw [Index.mem_holders_leaveAll, kept.channels, added, holds, all]
    by_cases own : other = id
    · rw [own]
      tauto
    · simp [own, Ne.symm own]
  · show other ∈ (hub.byUser.leave (hub.objects id).userId id).holders userId ↔ _
    rw [Index.mem_holders_leave, kept.users, added, kept.userIds]
    by_cases own : other = id
    · rw [own]
      tauto
    · simp [own, Ne.symm own]
  · simp only [List.mem_append, List.mem_singleton, reduceCtorEq, or_false] at never
    rw [added]
    simp only [holds]
    exact ⟨fun both => (kept.newcomers other never).1 both.1, (kept.newcomers other never).2⟩

theorem Kept.subscribe (kept : hub.Kept userOf calls) (was : Added calls id)
    (channels : List Channel) :
    (hub.subscribe id channels).Kept userOf (calls ++ [.subscribe id channels]) := by
  have added : ∀ other, Added (calls ++ [.subscribe id channels]) other ↔ Added calls other := by
    intro other
    simp [Added, Since.concat_iff, Removes]
  have holds : ∀ other channel, Holds (calls ++ [.subscribe id channels]) other channel ↔
      Holds calls other channel ∨ channel ∈ channels ∧ other = id := by
    intro other channel
    simp only [Holds, Since.concat_iff, Enters, Leaves]
    tauto
  refine ⟨fun other => (kept.subscribers other).trans (added other).symm,
    fun other channel => ?_, fun other => ?_, fun channel other => ?_,
    fun userId other => (kept.users userId other).trans (by rw [added]),
    kept.channelsTidy.enterAll _ _, kept.usersTidy, fun other never => ?_⟩
  · show channel ∈ (Function.update hub.objects id _ other).channels ↔ _
    rw [holds]
    by_cases own : other = id
    · simp [own, Subscriber.subscribe, kept.held]
    · simp [own, kept.held]
  · show (Function.update hub.objects id _ other).userId = userOf other
    by_cases own : other = id
    · simp [own, Subscriber.subscribe, kept.userIds]
    · simp [own, kept.userIds]
  · show other ∈ (hub.byChannel.enterAll channels id).holders channel ↔ _
    rw [Index.mem_holders_enterAll, kept.channels, added, holds]
    by_cases own : other = id
    · simp [own, was]
    · simp [own]
  · simp only [List.mem_append, List.mem_singleton, reduceCtorEq, or_false] at never
    have different : other ≠ id := fun same => (kept.newcomers other never).1 (same ▸ was)
    rw [added]
    simp only [holds, different, and_false, or_false]
    exact kept.newcomers other never

theorem Kept.unsubscribe (kept : hub.Kept userOf calls) (channels : List Channel) :
    (hub.unsubscribe id channels).Kept userOf (calls ++ [.unsubscribe id channels]) := by
  have added : ∀ other, Added (calls ++ [.unsubscribe id channels]) other ↔ Added calls other := by
    intro other
    simp [Added, Since.concat_iff, Removes]
  have holds : ∀ other channel, Holds (calls ++ [.unsubscribe id channels]) other channel ↔
      Holds calls other channel ∧ ¬ (channel ∈ channels ∧ other = id) := by
    intro other channel
    simp only [Holds, Since.concat_iff, Enters, Leaves]
    tauto
  refine ⟨fun other => (kept.subscribers other).trans (added other).symm,
    fun other channel => ?_, fun other => ?_, fun channel other => ?_,
    fun userId other => (kept.users userId other).trans (by rw [added]),
    kept.channelsTidy.leaveAll _ _, kept.usersTidy, fun other never => ?_⟩
  · show channel ∈ (Function.update hub.objects id _ other).channels ↔ _
    rw [holds]
    by_cases own : other = id
    · simp [own, Subscriber.unsubscribe, kept.held]
    · simp [own, kept.held]
  · show (Function.update hub.objects id _ other).userId = userOf other
    by_cases own : other = id
    · simp [own, Subscriber.unsubscribe, kept.userIds]
    · simp [own, kept.userIds]
  · show other ∈ (hub.byChannel.leaveAll channels id).holders channel ↔ _
    rw [Index.mem_holders_leaveAll, kept.channels, added, holds, and_assoc]
  · simp only [List.mem_append, List.mem_singleton, reduceCtorEq, or_false] at never
    rw [added]
    simp only [holds]
    exact ⟨(kept.newcomers other never).1, fun channel both =>
      (kept.newcomers other never).2 channel both.1⟩

theorem Kept.step (kept : hub.Kept userOf calls) {call : MembershipCall} (proper : Proper calls call)
    (walks : hub.Walks call) : (Membership.step hub call).Kept userOf (calls ++ [call]) := by
  cases call with
  | add id => exact kept.add proper
  | remove id walked => exact kept.remove walks
  | subscribe id channels => exact kept.subscribe proper channels
  | unsubscribe id channels => exact kept.unsubscribe channels

/-- By induction on the last call. -/
theorem kept_of_proper (proper : Obeys Proper calls)
    (walks : Along Membership.step Walks (start userOf) calls) :
    (calls.foldl Membership.step (start userOf)).Kept userOf calls := by
  induction calls using List.reverseRecOn with
  | nil => exact start_kept userOf
  | append_singleton before call ih =>
      obtain ⟨earlier, last⟩ := Obeys.concat_iff.mp proper
      obtain ⟨walked, walks⟩ := Along.append_iff.mp walks
      rw [List.foldl_append]
      exact (ih earlier walked).step last walks.1

/-- Between any two calls both indexes are exact, and neither has a subscriber that is not added. -/
theorem indexes_are_exact (userOf : ConnectionId → Int) {calls : List MembershipCall}
    (proper : Obeys Proper calls) (walks : Along Membership.step Walks (start userOf) calls) :
    ∀ before after, calls = before ++ after →
      (before.foldl Membership.step (start userOf)).Exact userOf before := by
  rintro before after rfl
  exact (kept_of_proper proper.append_left (Along.append_iff.mp walks).1).exact

/-- Two connections of one user; the first leaves, and is removed a second time. -/
def departure : List MembershipCall :=
  [.add 0, .add 1, .subscribe 0 [['a'], ['b']], .subscribe 1 [['b']], .unsubscribe 0 [['c']],
    .remove 0 [['b'], ['a']], .remove 0 [['a'], ['b']]]

theorem indexes_are_exact_departure :
    (departure.foldl Membership.step (start fun _ => 7)).Exact (fun _ => 7) departure :=
  indexes_are_exact (fun _ => 7) (by decide) (by decide) departure [] (List.append_nil _).symm

/-! ## The hub as the service reads it -/

/-- The index maps, read as functions to sets that may be empty. -/
def Reads (membership : Membership) (hub : Hub) : Prop :=
  (∀ channel, hub.byChannel channel = membership.byChannel.holders channel) ∧
    ∀ userId, hub.byUser userId = membership.byUser.holders userId

/-- The same call on the hub. -/
def call (membership : Membership) (hub : Hub) : MembershipCall → Hub
  | .add id => hub.add id (membership.objects id)
  | .remove id _ => hub.remove id (membership.objects id)
  | .subscribe id channels => hub.subscribe id channels.toFinset
  | .unsubscribe id channels => hub.unsubscribe id channels.toFinset

theorem Reads.step {read : Hub} (reads : hub.Reads read) {move : MembershipCall}
    (walks : hub.Walks move) : (Membership.step hub move).Reads (hub.call read move) := by
  obtain ⟨channels, users⟩ := reads
  constructor
  · intro channel
    ext other
    cases move with
    | add id => exact (congrArg (other ∈ ·) (channels channel)).to_iff
    | remove id walked =>
        show other ∈ (if channel ∈ (hub.objects id).channels then (read.byChannel channel).erase id
          else read.byChannel channel) ↔ other ∈ (hub.byChannel.leaveAll walked id).holders channel
        rw [Index.mem_holders_leaveAll, ← List.mem_toFinset, show walked.toFinset = _ from walks,
          channels]
        split <;> simp_all [and_comm]
    | subscribe id entered =>
        show other ∈ (if channel ∈ entered.toFinset then insert id (read.byChannel channel)
          else read.byChannel channel) ↔ other ∈ (hub.byChannel.enterAll entered id).holders channel
        rw [Index.mem_holders_enterAll, ← List.mem_toFinset, channels]
        split <;> simp_all [or_comm]
    | unsubscribe id left =>
        show other ∈ (if channel ∈ left.toFinset then (read.byChannel channel).erase id
          else read.byChannel channel) ↔ other ∈ (hub.byChannel.leaveAll left id).holders channel
        rw [Index.mem_holders_leaveAll, ← List.mem_toFinset, channels]
        split <;> simp_all [and_comm]
  · intro userId
    ext other
    cases move with
    | add id =>
        show other ∈ Function.update read.byUser (hub.objects id).userId _ userId ↔
          other ∈ (hub.byUser.enter (hub.objects id).userId id).holders userId
        rw [Index.mem_holders_enter, Function.update_apply, users, users]
        split <;> simp_all [or_comm]
    | remove id walked =>
        show other ∈ Function.update read.byUser (hub.objects id).userId _ userId ↔
          other ∈ (hub.byUser.leave (hub.objects id).userId id).holders userId
        rw [Index.mem_holders_leave, Function.update_apply, users, users]
        split <;> simp_all [and_comm]
    | subscribe id entered => exact (congrArg (other ∈ ·) (users userId)).to_iff
    | unsubscribe id left => exact (congrArg (other ∈ ·) (users userId)).to_iff

end Membership

end QuantArena.Fanout
