import QuantArena.Web.Wire

/-! From an aligned resync on, the tab has folded exactly the messages that follow the place its
answers were read at. -/

set_option autoImplicit false

namespace QuantArena.Web

open Foundations Contracts Fanout

/-! ## Answers of the resync that is running -/

structure Answered (viewer : Viewer) (fetches : Fetches) : Prop where
  openOrders : ∀ read, fetches.openOrders.read? = some read →
    viewer.OrdersOf read.flushed read.answer
  cash : ∀ read, fetches.cash = some read →
    read.answer = (viewer.ledgerAt read.flushed).getBalance viewer.userId
  positions : ∀ read, fetches.positions.read? = some read →
    viewer.PositionsOf read.flushed read.answer

def Tab.Answered (viewer : Viewer) (tab : Tab) : Prop :=
  ∀ fetches, tab.resyncing = some fetches → Web.Answered viewer fetches

namespace Tab

variable {viewer : Viewer} {tab : Tab}

theorem Answered.resync (answered : tab.Answered viewer) (awaited : Bool) :
    (tab.resync awaited).Answered viewer := by
  intro fetches running
  unfold Tab.resync at running
  cases before : tab.resyncing with
  | none =>
      simp only [before] at running
      cases running
      constructor <;> intro read found <;> cases found
  | some old =>
      simp only [before] at running
      apply answered fetches
      cases awaited with
      | true => exact before.trans running
      | false => exact running

theorem Answered.perform (answered : tab.Answered viewer) (atMs : Int) (effect : Effect) :
    (tab.perform atMs effect).Answered viewer := by
  cases effect with
  | onState state => cases state <;> first | exact answered | exact answered.resync false
  | onResync => exact answered.resync true
  | onPrivate message => cases message <;> exact answered
  | _ => exact answered

theorem Answered.take (answered : tab.Answered viewer) (atMs : Int)
    (result : StreamClient × List Effect) : (tab.take atMs result).Answered viewer := by
  have performed : ∀ (effects : List Effect) (tab : Tab), tab.Answered viewer →
      (effects.foldl (Tab.perform atMs) tab).Answered viewer := by
    intro effects
    induction effects with
    | nil => exact fun _ answered => answered
    | cons effect rest ih => exact fun _ answered => ih _ (answered.perform atMs effect)
  exact performed result.2 _ answered

theorem Answered.settle (answered : tab.Answered viewer) (userId : Int)
    (nameById : Int → Option Name) (atMs : Int) :
    (tab.settle userId nameById atMs).Answered viewer := by
  cases tab.settle_cases userId nameById atMs with
  | inl same =>
      rw [same.1]
      exact answered
  | inr settled =>
      intro fetches running
      rw [settled.1] at running
      cases running

end Tab

namespace Viewing

variable {viewer : Viewer} {viewing : Viewing}

theorem fetching_answered {change : Fetches → Fetches} (answered : viewing.tab.Answered viewer)
    (kept : ∀ fetches, Answered viewer fetches → Answered viewer (change fetches)) :
    (viewing.fetching change).tab.Answered viewer := by
  intro fetches running
  obtain ⟨old, before, rfl⟩ := Option.map_eq_some_iff.mp running
  exact kept old (answered old before)

theorem step_answered (answered : viewing.tab.Answered viewer) (stored : Stored viewer viewing)
    (regular : viewer.Regular) (happening : Happening) :
    (viewing.step viewer happening).tab.Answered viewer := by
  cases happening with
  | connect atMs =>
      simp only [Viewing.step, Viewing.connect]
      split
      · exact answered
      · exact answered.take atMs _
  | disconnect atMs => exact answered.take atMs _
  | route =>
      simp only [Viewing.step, Viewing.route]
      split
      · exact answered
      · split <;> exact answered
  | deliver atMs =>
      simp only [Viewing.step, Viewing.deliver]
      split
      · exact answered
      · exact answered.take atMs _
  | notice code atMs =>
      simp only [Viewing.step, Viewing.notice]
      split
      · exact answered.take atMs _
      · exact answered
  | settle atMs => exact answered.settle _ _ atMs
  | readOpenOrders =>
      refine fetching_answered answered fun fetches before => ?_
      unfold Viewing.readOpenOrders
      split
      · exact ⟨fun read found => Option.some.inj found ▸ openOrders_answered stored regular,
          before.cash, before.positions⟩
      · exact before
  | readCash =>
      refine fetching_answered answered fun fetches before => ?_
      unfold Viewing.readCash
      split
      · exact ⟨before.openOrders, fun read found => Option.some.inj found ▸ cash_answered stored,
          before.positions⟩
      · exact before
  | readPositions answer =>
      refine fetching_answered answered fun fetches before => ?_
      unfold Viewing.readPositions
      split
      · rename_i ready
        exact ⟨before.openOrders, before.cash,
          fun read found => Option.some.inj found ▸ positions_answered stored ready.2.2⟩
      · exact before
  | openOrdersFail =>
      refine fetching_answered answered fun fetches before => ?_
      unfold failOpenOrders
      split
      · exact ⟨fun read found => (by cases found), before.cash, before.positions⟩
      · exact before
  | portfolioFails =>
      refine fetching_answered answered fun fetches before => ?_
      unfold failPortfolio
      split
      · exact ⟨before.openOrders, before.cash, fun read found => (by cases found)⟩
      · exact before
  | _ => exact answered

/-! ## Runs -/

/-- What holds in every run. -/
structure Sound (viewer : Viewer) (viewing : Viewing) : Prop where
  stored : Stored viewer viewing
  sent : Sent viewer viewing
  answered : viewing.tab.Answered viewer

theorem start_sound (regular : viewer.Regular) : Sound viewer .start :=
  ⟨start_stored regular, start_sent viewer, fun _ running => by cases running⟩

theorem Sound.step (sound : Sound viewer viewing) (regular : viewer.Regular) (happening : Happening) :
    Sound viewer (viewing.step viewer happening) :=
  ⟨sound.stored.step regular happening, sound.sent.step happening,
    step_answered sound.answered sound.stored regular happening⟩

def run (viewer : Viewer) (viewing : Viewing) (happenings : List Happening) : Viewing :=
  happenings.foldl (step viewer) viewing

theorem Sound.run (sound : Sound viewer viewing) (regular : viewer.Regular)
    (happenings : List Happening) : Sound viewer (viewing.run viewer happenings) := by
  induction happenings generalizing viewing with
  | nil => exact sound
  | cons happening rest ih => exact ih (sound.step regular happening)

/-! ## What the tab has folded -/

/-- The ledger's portfolio at some place, and from there on all the messages up to this one. -/
structure Folded (viewer : Viewer) (state : PortfolioState) (place : Nat) : Prop where
  told : ∃ count base messages,
    ShowsHoldings viewer.symbols viewer.userId base (viewer.ledgerAt count) ∧
      base.cashTicks.getD 0 = (viewer.ledgerAt count).getBalance viewer.userId ∧
      Dispatched base messages state ∧
      viewer.owedInAll.take place = viewer.owedBy count ++ messages

theorem start_folded (regular : viewer.Regular) : Folded viewer emptyPortfolio 0 := by
  have shows_ := emptyPortfolio_shows regular.plain viewer.userId
  exact ⟨0, emptyPortfolio, [], shows_.toShowsHoldings, rfl, .nil, rfl⟩

theorem Folded.next {state : PortfolioState} {place : Nat} (folded : Folded viewer state place)
    {body : PrivateBody} (found : viewer.owedInAll[place]? = some body) (exact_ : Exact state body)
    (atMs : Option Int) :
    Folded viewer (reduce state (.privateMessage (parsed body) atMs)) (place + 1) := by
  obtain ⟨count, base, messages, shown, cash, dispatched, taken⟩ := folded.told
  refine ⟨count, base, messages ++ [body], shown, cash,
    dispatched.append (.cons exact_ .nil), ?_⟩
  rw [List.take_add_one, found, taken, List.append_assoc]
  rfl

/-- At the end of the stream, that is the ledger's. -/
theorem Folded.agrees {state : PortfolioState} (regular : viewer.Regular)
    (folded : Folded viewer state viewer.owedInAll.length) :
    ShowsHoldings viewer.symbols viewer.userId state (Ledger.new.applyAll viewer.events) ∧
      state.cashTicks.getD 0 = (Ledger.new.applyAll viewer.events).getBalance viewer.userId := by
  obtain ⟨count, base, messages, shown, cash, dispatched, taken⟩ := folded.told
  let last := max count viewer.events.length
  have all : viewer.events.take last = viewer.events := List.take_of_length_le (le_max_right _ _)
  have whole : viewer.ledgerAt last = Ledger.new.applyAll viewer.events := by
    rw [Viewer.ledgerAt, all]
  have later : count ≤ last := le_max_left _ _
  have owedLast : viewer.owedBy last = viewer.owedInAll := by
    rw [Viewer.owedInAll, Viewer.owedBy_eq, Viewer.owedBy_eq, all, List.take_of_length_le]
    simp [Viewer.events]
  have rest : messages = owed viewer.symbols viewer.userId
      (((viewer.events.take last).drop count).map (·.1)) := by
    rw [List.take_length, ← owedLast, Viewer.owedBy_append viewer later] at taken
    exact (List.append_cancel_left taken).symm
  rw [rest] at dispatched
  constructor
  · rw [← whole, Viewer.ledgerAt_append viewer later]
    exact shown.records regular.plain (Viewer.Regular.keyed viewer count) (regular.follows count)
      (regular.valid count) (regular.lawful_split later)
      (fun event member => regular.configured_take last event (List.mem_of_mem_drop member)) dispatched
  · have balance := congrArg (Option.getD · 0) (regular.cash viewer.userId later)
    have unknown : base.cashTicks.getD 0 =
        ((viewer.ledgerAt count).cashBalances.get? viewer.userId).getD 0 := cash
    rw [dispatched.cash, cashAfter_getD unknown, ← whole]
    exact balance.symm

end Viewing

end QuantArena.Web
