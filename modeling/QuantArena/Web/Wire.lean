import QuantArena.Web.Receiving

/-! What is on its way to the tab: messages owed to its user, under ascending numbers that its
tracker has not seen. -/

set_option autoImplicit false

namespace QuantArena.Web

open Foundations Contracts Fanout

namespace Viewer

/-- All that the user is ever owed. -/
def owedInAll (viewer : Viewer) : List PrivateBody := viewer.owedBy viewer.outbound.length

theorem owedInAll_split (viewer : Viewer) (count : Nat) : viewer.owedInAll =
    viewer.owedBy count ++ owed viewer.symbols viewer.userId ((viewer.outbound.drop count).map (·.2)) := by
  have whole := List.take_append_drop count viewer.outbound
  rw [owedInAll, owedBy, List.take_length]
  conv_lhs => rw [← whole, List.map_append]
  exact List.flatMap_append

theorem owedBy_eq_take (viewer : Viewer) (count : Nat) :
    viewer.owedBy count = viewer.owedInAll.take (viewer.owedBy count).length := by
  rw [owedInAll_split viewer count, List.take_left]

theorem getElem?_owedInAll {viewer : Viewer} {count place : Nat} {body : PrivateBody}
    (found : (viewer.owedBy count)[place]? = some body) : viewer.owedInAll[place]? = some body := by
  obtain ⟨bound, -⟩ := List.getElem?_eq_some_iff.mp found
  rw [owedInAll_split viewer count, List.getElem?_append_left bound, found]

theorem owedBy_succ {viewer : Viewer} {routed : Nat} {streamId : StreamId} {record : Outbound}
    (next : viewer.outbound[routed]? = some (streamId, record)) : viewer.owedBy (routed + 1) =
      viewer.owedBy routed ++ (owedTo viewer.symbols viewer.userId record).map (·.2) := by
  rw [owedBy, List.take_add_one, next, List.map_append, owedBy, owedTo, List.map_map]
  simp [owed, Function.comp_def]

end Viewer

/-! ## Numbers -/

def numberOf : Message → Int
  | .privateMessage seq _ _ => seq
  | _ => 0

theorem mem_numbered {last : Int} {place : Nat} {messages : List (Int × PrivateBody)}
    {entry : Message × Nat} (member : entry ∈ (numbered last messages).zipIdx place) :
    ∃ offset tsNs body, messages[offset]? = some (tsNs, body) ∧
      entry = (.privateMessage (last + offset + 1) tsNs body, place + offset) := by
  induction messages generalizing last place with
  | nil => cases member
  | cons message rest ih =>
      obtain ⟨tsNs, body⟩ := message
      cases List.mem_cons.mp member with
      | inl here => exact ⟨0, tsNs, body, rfl, by simpa using here⟩
      | inr later =>
          obtain ⟨offset, tsNs, body, found, rfl⟩ := ih later
          refine ⟨offset + 1, tsNs, body, found, ?_⟩
          have shift : last + 1 + (offset : Int) + 1 = last + ((offset + 1 : Nat) : Int) + 1 := by
            omega
          rw [shift, Nat.add_right_comm, Nat.add_assoc]

theorem numbered_ascending (last : Int) (place : Nat) (messages : List (Int × PrivateBody)) :
    ((numbered last messages).zipIdx place).Pairwise fun one other =>
      numberOf one.1 < numberOf other.1 := by
  induction messages generalizing last place with
  | nil => exact .nil
  | cons message rest ih =>
      apply List.Pairwise.cons
      · intro entry member
        obtain ⟨offset, tsNs, body, -, rfl⟩ := mem_numbered member
        show last + 1 < last + 1 + (offset : Int) + 1
        omega
      · exact ih (last + 1) (place + 1)

theorem numbered_length (last : Int) (messages : List (Int × PrivateBody)) :
    (numbered last messages).length = messages.length := by
  induction messages generalizing last with
  | nil => rfl
  | cons message rest ih => exact congrArg (· + 1) (ih (last + 1))

/-! ## The wire -/

namespace Viewing

variable {viewer : Viewer} {viewing : Viewing}

/-- A message with its place among all that the user is owed. -/
structure Addressed (viewer : Viewer) (routed : Nat) (lastSeq : Int) (entry : Message × Nat) :
    Prop where
  told : ∃ seq tsNs body, entry.1 = .privateMessage seq tsNs body ∧
    (viewer.owedBy routed)[entry.2]? = some body
  positive : 0 < numberOf entry.1
  issued : numberOf entry.1 ≤ lastSeq

structure Sent (viewer : Viewer) (viewing : Viewing) : Prop where
  addressed : ∀ entry ∈ viewing.wire, Addressed viewer viewing.routed viewing.lastSeq entry
  ascending : viewing.wire.Pairwise fun one other => numberOf one.1 < numberOf other.1
  counted : 0 ≤ viewing.lastSeq
  /-- What the tracker has seen is below all that is on its way. -/
  seen : ∀ previous, viewing.tab.client.tracker.lastPrivate = some previous →
    ∃ seq, previous = Double.ofInt seq ∧ 0 ≤ seq ∧ seq ≤ viewing.lastSeq ∧
      ∀ entry ∈ viewing.wire, seq < numberOf entry.1
  closed : viewing.connected = false → viewing.wire = []

theorem start_sent (viewer : Viewer) : Sent viewer .start where
  addressed _ member := by cases member
  ascending := .nil
  counted := le_refl 0
  seen _ found := by cases found
  closed _ := rfl

/-- The tab may do what it likes, as long as its tracker stays. -/
theorem Sent.congr (sent : Sent viewer viewing) {other : Viewing} (wire : other.wire = viewing.wire)
    (routed : other.routed = viewing.routed) (lastSeq : other.lastSeq = viewing.lastSeq)
    (connected : other.connected = viewing.connected)
    (tracker : other.tab.client.tracker = viewing.tab.client.tracker) : Sent viewer other := by
  obtain ⟨addressed, ascending, counted, seen, closed⟩ := sent
  constructor
  · rw [wire, routed, lastSeq]
    exact addressed
  · rw [wire]
    exact ascending
  · rw [lastSeq]
    exact counted
  · rw [tracker, wire, lastSeq]
    exact seen
  · rw [connected, wire]
    exact closed

theorem Sent.connect (sent : Sent viewer viewing) (atMs : Int) : Sent viewer (viewing.connect atMs) := by
  unfold Viewing.connect
  cases connected : viewing.connected with
  | true => exact sent
  | false =>
      have none_ := sent.closed connected
      constructor
      · simp [none_]
      · simp [none_]
      · exact sent.counted
      · intro previous found
        rw [if_neg Bool.false_ne_true, Tab.take_tracker, (StreamClient.opened_told _).2] at found
        cases found
      · exact fun _ => none_

theorem Sent.disconnect (sent : Sent viewer viewing) (atMs : Int) :
    Sent viewer (viewing.disconnect atMs) := by
  constructor
  · intro entry member
    cases member
  · exact .nil
  · exact sent.counted
  · intro previous found
    rw [Viewing.disconnect, Tab.take_tracker, (StreamClient.setState_told _ _).2] at found
    obtain ⟨seq, same, nonneg, issued, -⟩ := sent.seen previous found
    exact ⟨seq, same, nonneg, issued, fun entry member => by cases member⟩
  · exact fun _ => rfl

theorem Addressed.later {routed : Nat} {lastSeq later : Int} {entry : Message × Nat}
    (addressed : Addressed viewer routed lastSeq entry) (le : lastSeq ≤ later) {streamId : StreamId}
    {record : Outbound} (next : viewer.outbound[routed]? = some (streamId, record)) :
    Addressed viewer (routed + 1) later entry := by
  obtain ⟨⟨seq, tsNs, body, same, found⟩, positive, issued⟩ := addressed
  obtain ⟨bound, -⟩ := List.getElem?_eq_some_iff.mp found
  refine ⟨⟨seq, tsNs, body, same, ?_⟩, positive, issued.trans le⟩
  rw [Viewer.owedBy_succ next, List.getElem?_append_left bound, found]

theorem addressed_routed {routed : Nat} {lastSeq : Int} (counted : 0 ≤ lastSeq) {streamId : StreamId}
    {record : Outbound} (next : viewer.outbound[routed]? = some (streamId, record))
    {entry : Message × Nat}
    (member : entry ∈ (numbered lastSeq (owedTo viewer.symbols viewer.userId record)).zipIdx
      (viewer.owedBy routed).length) :
    lastSeq < numberOf entry.1 ∧ Addressed viewer (routed + 1)
      (lastSeq + (owedTo viewer.symbols viewer.userId record).length) entry := by
  obtain ⟨offset, tsNs, body, found, rfl⟩ := mem_numbered member
  obtain ⟨bound, -⟩ := List.getElem?_eq_some_iff.mp found
  have above : lastSeq < lastSeq + (offset : Int) + 1 := by omega
  refine ⟨above, ⟨_, tsNs, body, rfl, ?_⟩, counted.trans_lt above, ?_⟩
  · rw [Viewer.owedBy_succ next, List.getElem?_append_right (Nat.le_add_right _ _),
      Nat.add_sub_cancel_left, List.getElem?_map, found]
    rfl
  · show lastSeq + (offset : Int) + 1 ≤ _
    omega

theorem Sent.route (sent : Sent viewer viewing) : Sent viewer (viewing.route viewer) := by
  unfold Viewing.route
  cases next : viewer.outbound[viewing.routed]? with
  | none => exact sent
  | some entry =>
      obtain ⟨streamId, record⟩ := entry
      have longer : viewing.lastSeq ≤
          viewing.lastSeq + (owedTo viewer.symbols viewer.userId record).length := by omega
      cases connected : viewing.connected with
      | false =>
          have none_ := sent.closed connected
          simp only [Bool.false_eq_true, if_false]
          constructor
          · simp [none_]
          · exact sent.ascending
          · exact sent.counted
          · exact sent.seen
          · exact fun _ => none_
      | true =>
          have added := fun entry => @addressed_routed _ _ _ sent.counted _ _ next entry
          simp only [if_true]
          constructor
          · intro entry member
            cases List.mem_append.mp member with
            | inl old => exact (sent.addressed entry old).later longer next
            | inr new => exact (added entry new).2
          · apply List.pairwise_append.mpr
            refine ⟨sent.ascending, numbered_ascending _ _ _, fun old oldMember new newMember => ?_⟩
            exact (sent.addressed old oldMember).issued.trans_lt (added new newMember).1
          · exact sent.counted.trans longer
          · intro previous found
            obtain ⟨seq, same, nonneg, issued, below⟩ := sent.seen previous found
            refine ⟨seq, same, nonneg, issued.trans longer, fun entry member => ?_⟩
            cases List.mem_append.mp member with
            | inl old => exact below entry old
            | inr new => exact issued.trans_lt (added entry new).1
          · intro closed
            cases closed

theorem Sent.deliver (sent : Sent viewer viewing) (atMs : Int) : Sent viewer (viewing.deliver atMs) := by
  unfold Viewing.deliver
  cases wire : viewing.wire with
  | nil => exact sent
  | cons entry rest =>
      obtain ⟨message, place⟩ := entry
      obtain ⟨addressed, ascending, counted, -, closed⟩ := sent
      rw [wire] at addressed ascending closed
      obtain ⟨⟨seq, tsNs, body, same, -⟩, positive, issued⟩ := addressed _ List.mem_cons_self
      obtain ⟨below, later⟩ := List.pairwise_cons.mp ascending
      subst same
      constructor
      · exact fun other member => addressed other (.tail _ member)
      · exact later
      · exact counted
      · intro previous found
        rw [Tab.take_tracker, (StreamClient.receive_private _ seq tsNs body).1] at found
        exact ⟨seq, (Option.some.inj found).symm, positive.le, issued, below⟩
      · intro closed'
        cases closed closed'

theorem Sent.lose (sent : Sent viewer viewing) (place : Nat) :
    Sent viewer { viewing with wire := viewing.wire.eraseIdx place } := by
  have among : ∀ entry ∈ viewing.wire.eraseIdx place, entry ∈ viewing.wire :=
    fun entry member => List.mem_of_mem_eraseIdx member
  constructor
  · exact fun entry member => sent.addressed entry (among entry member)
  · exact sent.ascending.sublist (List.eraseIdx_sublist ..)
  · exact sent.counted
  · intro previous found
    obtain ⟨seq, same, nonneg, issued, below⟩ := sent.seen previous found
    exact ⟨seq, same, nonneg, issued, fun entry member => below entry (among entry member)⟩
  · intro closed
    show viewing.wire.eraseIdx place = []
    rw [sent.closed closed]
    rfl

theorem Sent.step (sent : Sent viewer viewing) (happening : Happening) :
    Sent viewer (viewing.step viewer happening) := by
  cases happening with
  | connect atMs => exact sent.connect atMs
  | disconnect atMs => exact sent.disconnect atMs
  | route => exact sent.route
  | deliver atMs => exact sent.deliver atMs
  | lose place => exact sent.lose place
  | notice code atMs =>
      simp only [Viewing.step, Viewing.notice]
      split
      · exact sent.congr rfl rfl rfl rfl
          ((Tab.take_tracker _ _ _).trans (StreamClient.receiveError_told _ _ _).2)
      · exact sent
  | settle atMs => exact sent.congr rfl rfl rfl rfl (Tab.settle_tracker _ _ _ _)
  | _ => exact sent.congr rfl rfl rfl rfl rfl

end Viewing

end QuantArena.Web
