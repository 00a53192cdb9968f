import QuantArena.Web.Answers

/-! What one step makes of the tab: what it dispatches, what its tracker has seen, and what the
running resync has been answered. -/

set_option autoImplicit false

namespace QuantArena.Web

open Foundations Contracts Fanout

/-! ## Calls of the stream client -/

/-- The message that a call hands on to the reducer. -/
def Effect.told : Effect → Option PrivateBody
  | .onPrivate (.privateMessage _ _ body) => some body
  | _ => none

namespace Tab

variable {tab : Tab} {atMs : Int}

theorem resync_portfolio (tab : Tab) (awaited : Bool) : (tab.resync awaited).portfolio = tab.portfolio := by
  unfold resync
  cases tab.resyncing with
  | none => rfl
  | some _ => cases awaited <;> rfl

theorem resync_tracker (tab : Tab) (awaited : Bool) :
    (tab.resync awaited).client.tracker = tab.client.tracker := by
  unfold resync
  cases tab.resyncing with
  | none => rfl
  | some _ => cases awaited <;> rfl

theorem perform_portfolio (atMs : Int) (tab : Tab) (effect : Effect) :
    (tab.perform atMs effect).portfolio = effect.told.elim tab.portfolio fun body =>
      reduce tab.portfolio (.privateMessage (parsed body) (some atMs)) := by
  cases effect with
  | onState state => cases state <;> first | rfl | exact resync_portfolio tab false
  | onResync => exact resync_portfolio tab true
  | onPrivate message => cases message <;> rfl
  | _ => rfl

theorem perform_tracker (atMs : Int) (tab : Tab) (effect : Effect) :
    (tab.perform atMs effect).client.tracker = tab.client.tracker := by
  cases effect with
  | onState state => cases state <;> first | rfl | exact resync_tracker tab false
  | onResync => exact resync_tracker tab true
  | onPrivate message => cases message <;> rfl
  | _ => rfl

theorem performed (effects : List Effect) (tab : Tab) :
    (effects.foldl (perform atMs) tab).portfolio = (effects.filterMap Effect.told).foldl
        (fun state body => reduce state (.privateMessage (parsed body) (some atMs))) tab.portfolio ∧
      (effects.foldl (perform atMs) tab).client.tracker = tab.client.tracker := by
  induction effects generalizing tab with
  | nil => exact ⟨rfl, rfl⟩
  | cons effect rest ih =>
      obtain ⟨portfolio, tracker⟩ := ih (tab.perform atMs effect)
      constructor
      · rw [List.foldl_cons, portfolio, perform_portfolio]
        cases told : effect.told with
        | none => rw [List.filterMap_cons_none told]; rfl
        | some body => rw [List.filterMap_cons_some told]; rfl
      · exact tracker.trans (perform_tracker atMs tab effect)

theorem take_portfolio (tab : Tab) (atMs : Int) (result : StreamClient × List Effect) :
    (tab.take atMs result).portfolio = (result.2.filterMap Effect.told).foldl
      (fun state body => reduce state (.privateMessage (parsed body) (some atMs))) tab.portfolio :=
  (performed result.2 _).1

theorem take_tracker (tab : Tab) (atMs : Int) (result : StreamClient × List Effect) :
    (tab.take atMs result).client.tracker = result.1.tracker := (performed result.2 _).2

theorem read?_of_isOut {α : Type} {fetch : Fetch α} (out : fetch.isOut = true) : fetch.read? = none := by
  cases fetch with
  | out => rfl
  | failed => cases out
  | answered read => cases out

/-- An answer that is still out leaves nothing to dispatch. -/
theorem answers_of_out {fetches : Fetches} (running : tab.resyncing = some fetches)
    (out : (fetches.openOrders.isOut || fetches.positions.isOut) = true) : tab.answers = none := by
  unfold answers
  rw [running]
  cases Bool.or_eq_true_iff.mp out with
  | inl openOrders => simp [read?_of_isOut openOrders]
  | inr positions => simp [read?_of_isOut positions]

/-- A resync settles as a whole, and dispatches what it was answered, or it is still out. -/
theorem settle_cases (tab : Tab) (userId : Int) (nameById : Int → Option Name) (atMs : Int) :
    tab.settle userId nameById atMs = tab ∧ tab.answers = none ∨
      (tab.settle userId nameById atMs).resyncing = none ∧
      (tab.settle userId nameById atMs).client.tracker = tab.client.tracker ∧
      (tab.settle userId nameById atMs).portfolio = tab.answers.elim tab.portfolio fun all =>
        reduce tab.portfolio (.resync (all.1.answer.map OpenOrderItemDto.parsed)
          (PortfolioDto.parsed ⟨userId, all.2.1.answer, all.2.2.answer⟩) nameById (some atMs)) := by
  cases running : tab.resyncing with
  | none =>
      left
      simp [settle, answers, running]
  | some fetches =>
      by_cases out : (fetches.openOrders.isOut || fetches.positions.isOut) = true
      · left
        simp [settle, running, out, answers_of_out running out]
      · right
        have ended : (if fetches.awaited then tab.client.resynced else tab.client).tracker =
            tab.client.tracker := by
          cases fetches.awaited <;> rfl
        simp only [settle, running, out, if_false, Bool.false_eq_true]
        cases tab.answers with
        | none => exact ⟨rfl, ended, rfl⟩
        | some all => exact ⟨rfl, ended, rfl⟩

theorem settle_tracker (tab : Tab) (userId : Int) (nameById : Int → Option Name) (atMs : Int) :
    (tab.settle userId nameById atMs).client.tracker = tab.client.tracker := by
  cases tab.settle_cases userId nameById atMs with
  | inl same => rw [same.1]
  | inr settled => exact settled.2.1

end Tab

/-! ## A private message -/

namespace SequenceTracker

variable {tracker : SequenceTracker} {seq : Message.Seq}

theorem observePrivate_seen (tracker : SequenceTracker) (seq : Message.Seq) :
    (tracker.observePrivate seq).1.lastPrivate = some (privateSequence seq) := by
  unfold observePrivate
  simp only
  split
  · rfl
  · split
    · rfl
    · split
      · rfl
      · split <;> rfl

/-- Only the number that was seen last is a duplicate. -/
theorem observePrivate_fresh (different : tracker.lastPrivate ≠ some (privateSequence seq)) :
    (tracker.observePrivate seq).2 ≠ .duplicate := by
  unfold observePrivate
  cases seen : tracker.lastPrivate with
  | none => simp
  | some previous =>
      have apart : privateSequence seq ≠ previous := by
        intro same
        exact different (same ▸ seen)
      simp only [if_neg apart]
      split
      · simp
      · split <;> simp

end SequenceTracker

namespace StreamClient

variable {client : StreamClient}

theorem setState_told (client : StreamClient) (state : ConnectionState) :
    (client.setState state).2.filterMap Effect.told = [] ∧
      (client.setState state).1.tracker = client.tracker := by
  unfold setState
  by_cases same : client.state = state
  · simp [same]
  · simp [same, Effect.told]

theorem opened_told (client : StreamClient) : client.opened.2.filterMap Effect.told = [] ∧
    client.opened.1.tracker.lastPrivate = none := by
  obtain ⟨told, tracker⟩ := setState_told { client with tracker := client.tracker.reset } .connected
  exact ⟨told, congrArg SequenceTracker.lastPrivate tracker⟩

theorem receiveError_told (client : StreamClient) (code : ErrorCode) (detail : String) :
    (client.receive (.error code detail)).2.filterMap Effect.told = [] ∧
      (client.receive (.error code detail)).1.tracker = client.tracker := by
  cases code with
  | halted => exact setState_told client .halted
  | resumed =>
      simp only [receive, Message.seq, receiveError]
      by_cases halted : client.state = .halted
      · simp only [halted, if_true]
        exact setState_told client .connected
      · simp [halted, Effect.told]
  | _ => exact ⟨rfl, rfl⟩

theorem resync_told (client : StreamClient) :
    client.resync.2.filterMap Effect.told = [] ∧ client.resync.1.tracker = client.tracker := by
  unfold resync
  cases client.resyncInFlight <;> exact ⟨rfl, rfl⟩

/-- What repeats the last number is dropped, everything else is handed on. -/
theorem receive_private (client : StreamClient) (seq tsNs : Int) (body : PrivateBody) :
    (client.receive (.privateMessage seq tsNs body)).1.tracker.lastPrivate =
        some (Double.ofInt seq) ∧
      (client.tracker.lastPrivate ≠ some (Double.ofInt seq) →
        (client.receive (.privateMessage seq tsNs body)).2.filterMap Effect.told = [body]) := by
  have channel : (parseChannel (Message.ch (.privateMessage seq tsNs body))).kind =
      .privateStream := rfl
  have observed : client.tracker.observe (Message.ch (.privateMessage seq tsNs body))
      (.counter seq) = client.tracker.observePrivate (.counter seq) := by
    simp only [SequenceTracker.observe, channel, if_true]
  have seen := client.tracker.observePrivate_seen (.counter seq)
  have resynced := resync_told
    { client with tracker := (client.tracker.observePrivate (.counter seq)).1 }
  have received : client.receive (.privateMessage seq tsNs body) =
      client.receiveData (.privateMessage seq tsNs body) (.counter seq) := rfl
  rw [received]
  simp only [receiveData, observed, channel, if_true]
  constructor
  · split
    · exact seen
    · split
      · exact (congrArg SequenceTracker.lastPrivate resynced.2).trans seen
      · exact seen
  · intro different
    rw [if_neg (SequenceTracker.observePrivate_fresh different)]
    split
    · rw [List.filterMap_append, resynced.1]
      rfl
    · rfl

end StreamClient

end QuantArena.Web
