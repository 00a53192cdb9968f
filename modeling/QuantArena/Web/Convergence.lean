import QuantArena.Matcher.Runs
import QuantArena.Web.LedgerView
import QuantArena.Web.Tracking

/-! Re-synchronisation converges, as long as each resync is dispatched where the tables stood for
the messages that the tab has got. -/

set_option autoImplicit false

namespace QuantArena.Web

open Foundations Contracts Fanout Matcher

namespace Viewing

variable {viewer : Viewer} {viewing : Viewing}

/-- Nothing is missing on the wire, and the tab has folded all that came before it. -/
structure Tracks (viewer : Viewer) (viewing : Viewing) : Prop where
  whole : viewing.Whole viewer
  folded : Folded viewer viewing.tab.portfolio (viewing.place viewer)

theorem start_tracks (regular : viewer.Regular) : Tracks viewer .start := by
  have nothing : viewer.owedBy 0 = [] := rfl
  constructor
  · constructor <;> simp [Viewing.start, Viewing.place, nothing]
  · exact start_folded regular

theorem place_congr {other : Viewing} (wire : other.wire = viewing.wire)
    (owed_ : viewer.owedBy other.routed = viewer.owedBy viewing.routed) :
    other.place viewer = viewing.place viewer := by
  rw [Viewing.place, Viewing.place, wire, owed_]

/-- A step that delivers nothing and dispatches nothing. -/
theorem Tracks.congr (tracks : Tracks viewer viewing) {other : Viewing}
    (wire : other.wire = viewing.wire)
    (owed_ : viewer.owedBy other.routed = viewer.owedBy viewing.routed)
    (portfolio : other.tab.portfolio = viewing.tab.portfolio) : Tracks viewer other := by
  obtain ⟨⟨places, count⟩, folded⟩ := tracks
  constructor
  · rw [Viewing.Whole, place_congr wire owed_, wire, owed_]
    exact ⟨places, count⟩
  · rw [place_congr wire owed_, portfolio]
    exact folded

theorem take_silent {tab : Tab} {atMs : Int} {result : StreamClient × List Effect}
    (silent : result.2.filterMap Effect.told = []) : (tab.take atMs result).portfolio = tab.portfolio := by
  rw [Tab.take_portfolio, silent]
  rfl

theorem Tracks.connect (tracks : Tracks viewer viewing) (atMs : Int) :
    Tracks viewer (viewing.connect atMs) := by
  unfold Viewing.connect
  split
  · exact tracks
  · exact tracks.congr rfl rfl (take_silent (StreamClient.opened_told _).1)

theorem Tracks.disconnect (tracks : Tracks viewer viewing) (atMs : Int)
    (kept : viewing.wire.length = 0) : Tracks viewer (viewing.disconnect atMs) :=
  tracks.congr (List.eq_nil_of_length_eq_zero kept).symm rfl
    (take_silent (StreamClient.setState_told _ _).1)

/-- Messages that are sent are put behind those on their way. -/
theorem Tracks.sent (tracks : Tracks viewer viewing) {other : Viewing}
    {messages : List (Int × PrivateBody)}
    (owed_ : viewer.owedBy other.routed = viewer.owedBy viewing.routed ++ messages.map (·.2))
    (wire : other.wire = viewing.wire ++ (numbered viewing.lastSeq messages).zipIdx
      (viewer.owedBy viewing.routed).length)
    (portfolio : other.tab.portfolio = viewing.tab.portfolio) : Tracks viewer other := by
  obtain ⟨⟨places, count⟩, folded⟩ := tracks
  have place : other.place viewer = viewing.place viewer := by
    unfold Viewing.place
    rw [wire]
    cases before : viewing.wire with
    | cons entry rest => rfl
    | nil =>
        cases messages with
        | nil => simp [owed_]
        | cons message rest => rfl
  constructor
  · rw [Viewing.Whole, place, wire, List.map_append, List.length_append, places, List.zipIdx_map_snd,
      List.length_zipIdx, numbered_length, owed_, List.length_append, List.length_map, ← count]
    exact ⟨List.range'_append_1, (Nat.add_assoc ..).symm⟩
  · rw [place, portfolio]
    exact folded

theorem Tracks.route (tracks : Tracks viewer viewing)
    (kept : viewing.lost viewer .route = 0) : Tracks viewer (viewing.route viewer) := by
  unfold Viewing.route
  cases next : viewer.outbound[viewing.routed]? with
  | none => exact tracks
  | some entry =>
      obtain ⟨streamId, record⟩ := entry
      have owed_ := Viewer.owedBy_succ next
      cases connected : viewing.connected with
      | true => exact tracks.sent owed_ rfl rfl
      | false =>
          have none_ : (viewer.owedBy (viewing.routed + 1)).length -
              (viewer.owedBy viewing.routed).length = 0 := by
            simpa [Viewing.lost, connected] using kept
          rw [owed_, List.length_append, Nat.add_sub_cancel_left] at none_
          rw [List.eq_nil_of_length_eq_zero none_, List.append_nil] at owed_
          exact tracks.congr rfl owed_ rfl

theorem Tracks.deliver (tracks : Tracks viewer viewing) (sent : Sent viewer viewing) (atMs : Int)
    (fits : viewing.Fits (.deliver atMs)) : Tracks viewer (viewing.deliver atMs) := by
  unfold Viewing.deliver
  cases wire : viewing.wire with
  | nil => exact tracks
  | cons entry rest =>
      obtain ⟨message, place⟩ := entry
      obtain ⟨⟨places, count⟩, folded⟩ := tracks
      have addressed := sent.addressed (message, place) (wire ▸ List.mem_cons_self)
      obtain ⟨seq, tsNs, body, same, found⟩ := addressed.told
      obtain rfl : message = .privateMessage seq tsNs body := same
      have here : viewing.place viewer = place := by rw [Viewing.place, wire]
      have numbers : ∀ n ∈ seq :: involved viewing.tab.portfolio body, |n| < 2 ^ 53 := by
        have all := fits
        simp only [Viewing.Fits, Viewing.numbers, wire] at all
        exact all
      have small : Double.ofInt seq = seq := Double.ofInt_of_small (numbers seq List.mem_cons_self)
      -- What the tracker has seen last is a smaller number, and exact like this one.
      have fresh : viewing.tab.client.tracker.lastPrivate ≠ some (Double.ofInt seq) := by
        intro seen
        obtain ⟨last, same, nonneg, -, below⟩ := sent.seen _ seen
        have less : last < seq := below (.privateMessage seq tsNs body, place) (wire ▸ List.mem_cons_self)
        have bound := numbers seq List.mem_cons_self
        rw [abs_of_nonneg (nonneg.trans less.le)] at bound
        have exact_ : Double.ofInt last = last := by
          apply Double.ofInt_of_small
          rw [abs_of_nonneg nonneg]
          exact less.trans bound
        rw [small, exact_] at same
        exact less.ne' same
      have portfolio := Tab.take_portfolio viewing.tab atMs
        (viewing.tab.client.receive (.privateMessage seq tsNs body))
      rw [(StreamClient.receive_private _ seq tsNs body).2 fresh] at portfolio
      rw [wire, here, List.map_cons, List.length_cons, List.range'_succ] at places
      rw [wire, here, List.length_cons] at count
      obtain ⟨-, later⟩ := List.cons_eq_cons.mp places
      have next : Viewing.place viewer { viewing with
          wire := rest
          tab := viewing.tab.take atMs
            (viewing.tab.client.receive (.privateMessage seq tsNs body)) } = place + 1 := by
        cases rest with
        | nil => exact count.symm
        | cons other rest =>
            rw [List.map_cons, List.length_cons, List.range'_succ] at later
            exact (List.cons_eq_cons.mp later).1
      constructor
      · rw [Viewing.Whole, next]
        refine ⟨later, ?_⟩
        show place + 1 + rest.length = (viewer.owedBy viewing.routed).length
        omega
      · rw [next, portfolio]
        exact (here ▸ folded).next (Viewer.getElem?_owedInAll found)
          (fun n member => numbers n (.tail _ member)) _

theorem Tracks.lose (tracks : Tracks viewer viewing) {place : Nat}
    (kept : viewing.lost viewer (.lose place) = 0) :
    Tracks viewer { viewing with wire := viewing.wire.eraseIdx place } := by
  have beyond : viewing.wire.length ≤ place := by
    by_contra within
    simp [Viewing.lost, Nat.lt_of_not_le within] at kept
  exact tracks.congr (List.eraseIdx_of_length_le beyond) rfl rfl

theorem Tracks.notice (tracks : Tracks viewer viewing) (code : ErrorCode) (atMs : Int) :
    Tracks viewer (viewing.notice code atMs) := by
  unfold Viewing.notice
  split
  · exact tracks.congr rfl rfl (take_silent (StreamClient.receiveError_told _ _ _).1)
  · exact tracks

/-! ## An aligned resync -/

section Settle

variable {openOrders : TableRead (List OpenOrderItemDto)} {cash : TableRead Int}
  {positions : TableRead (List (Int × Int))}

theorem parsed_orders {answer : List OpenOrderItemDto}
    (fits : ∀ item ∈ answer, ∀ n ∈ [item.orderId, item.clientOrderId, item.userId, item.symbolId,
      item.side, item.priceTicks, item.qty, item.remainingQty, item.tif, item.createdAtNs],
      |n| < 2 ^ 53) : answer.map OpenOrderItemDto.parsed = answer := by
  refine (List.map_congr_left fun item member => ?_).trans (List.map_id answer)
  have same : ∀ n ∈ [item.orderId, item.clientOrderId, item.userId, item.symbolId, item.side,
      item.priceTicks, item.qty, item.remainingQty, item.tif, item.createdAtNs],
      Double.ofInt n = n := fun n listed => Double.ofInt_of_small (fits item member n listed)
  simp only [List.forall_mem_cons] at same
  simp only [OpenOrderItemDto.parsed, same, id]

theorem parsed_positions (answer : List (Int × Int))
    (fits : ∀ position ∈ answer, |position.1| < 2 ^ 53 ∧ |position.2| < 2 ^ 53) :
    answer.map (fun position => (Double.ofInt position.1, Double.ofInt position.2)) = answer := by
  refine (List.map_congr_left fun position member => ?_).trans (List.map_id answer)
  obtain ⟨symbol, qty⟩ := fits position member
  rw [Double.ofInt_of_small symbol, Double.ofInt_of_small qty, id]

theorem parsed_answers (userId : Int)
    (fits : ∀ n ∈ openOrders.answer.flatMap (fun item => [item.orderId, item.clientOrderId,
        item.userId, item.symbolId, item.side, item.priceTicks, item.qty, item.remainingQty,
        item.tif, item.createdAtNs]) ++
      cash.answer :: positions.answer.flatMap fun position => [position.1, position.2],
      |n| < 2 ^ 53) :
    openOrders.answer.map OpenOrderItemDto.parsed = openOrders.answer ∧
      PortfolioDto.parsed ⟨userId, cash.answer, positions.answer⟩ =
        ⟨Double.ofInt userId, cash.answer, positions.answer⟩ := by
  constructor
  · exact parsed_orders fun item member n listed =>
      fits n (List.mem_append_left _ (List.mem_flatMap.mpr ⟨item, member, listed⟩))
  · have sum : Double.ofInt cash.answer = cash.answer :=
      Double.ofInt_of_small (fits _ (List.mem_append_right _ List.mem_cons_self))
    have held := parsed_positions positions.answer fun position member =>
      have listed : ∀ n ∈ [position.1, position.2], |n| < 2 ^ 53 := fun n here =>
        fits n (List.mem_append_right _ (.tail _ (List.mem_flatMap.mpr ⟨position, member, here⟩)))
      ⟨listed _ List.mem_cons_self, listed _ (.tail _ List.mem_cons_self)⟩
    rw [PortfolioDto.parsed, sum, held]

theorem settle_folded (regular : viewer.Regular) (answered : viewing.tab.Answered viewer) (atMs : Int)
    (answers : viewing.tab.answers = some (openOrders, cash, positions))
    (fits : viewing.Fits (.settle atMs)) (aligned : viewing.Aligned viewer (.settle atMs)) :
    Folded viewer
      (viewing.tab.settle viewer.userId viewer.symbols.symbolName atMs).portfolio
      (viewing.place viewer) := by
  have places : ∀ flushed ∈ [openOrders.flushed, cash.flushed, positions.flushed],
      (viewer.owedBy flushed).length = viewing.place viewer := by
    simpa [Viewing.Aligned, Viewing.readings, answers] using aligned
  simp only [List.forall_mem_cons] at places
  obtain ⟨ordersPlace, cashPlace, positionsPlace, -⟩ := places
  simp only [Viewing.Fits, Viewing.numbers, answers] at fits
  obtain ⟨parsedOrders, parsedPortfolio⟩ := parsed_answers viewer.userId fits
  have running : ∃ fetches, viewing.tab.resyncing = some fetches ∧
      fetches.openOrders.read? = some openOrders ∧ fetches.cash = some cash ∧
      fetches.positions.read? = some positions := by
    simp only [Tab.answers, Option.bind_eq_bind, Option.bind_eq_some_iff, Option.some.injEq,
      Prod.mk.injEq] at answers
    obtain ⟨fetches, running, one, readOne, two, readTwo, three, readThree, rfl, rfl, rfl⟩ := answers
    exact ⟨fetches, running, readOne, readTwo, readThree⟩
  obtain ⟨fetches, running, readOrders, readCash, readPositions⟩ := running
  have answered := answered fetches running
  have shown := regular.replaced_shows (answered.openOrders _ readOrders)
    ((answered.positions _ readPositions).congr
      (regular.same (positionsPlace.trans ordersPlace.symm)).1) viewing.tab.portfolio
    (Double.ofInt viewer.userId) cash.answer atMs
  have balance : cash.answer = (viewer.ledgerAt openOrders.flushed).getBalance viewer.userId := by
    rw [answered.cash _ readCash, Ledger.getBalance, Ledger.getBalance, Dict.getD, Dict.getD,
      (regular.same (cashPlace.trans ordersPlace.symm)).2]
  have dispatched : (viewing.tab.settle viewer.userId viewer.symbols.symbolName atMs).portfolio =
      viewing.tab.portfolio.replaced openOrders.answer
        ⟨Double.ofInt viewer.userId, cash.answer, positions.answer⟩ viewer.symbols.symbolName atMs := by
    cases viewing.tab.settle_cases viewer.userId viewer.symbols.symbolName atMs with
    | inl same =>
        rw [answers] at same
        cases same.2
    | inr settled =>
        rw [settled.2.2, answers, Option.elim_some, parsedOrders, parsedPortfolio]
        rfl
  rw [dispatched, ← ordersPlace]
  exact ⟨openOrders.flushed, _, [], shown, balance, .nil, by
    rw [List.append_nil, ← Viewer.owedBy_eq_take]⟩

end Settle

theorem Tracks.settle (tracks : Tracks viewer viewing) (regular : viewer.Regular)
    (answered : viewing.tab.Answered viewer) (atMs : Int) (fits : viewing.Fits (.settle atMs))
    (aligned : viewing.Aligned viewer (.settle atMs)) :
    Tracks viewer (viewing.step viewer (.settle atMs)) := by
  cases answers : viewing.tab.answers with
  | none =>
      refine tracks.congr rfl rfl ?_
      cases viewing.tab.settle_cases viewer.userId viewer.symbols.symbolName atMs with
      | inl same => exact congrArg Tab.portfolio same.1
      | inr settled => exact settled.2.2.trans (by rw [answers]; rfl)
  | some all => exact ⟨tracks.whole, settle_folded regular answered atMs answers fits aligned⟩

theorem Tracks.step (tracks : Tracks viewer viewing) (regular : viewer.Regular)
    (sound : Sound viewer viewing) {happening : Happening} (kept : viewing.Kept viewer happening) :
    Tracks viewer (viewing.step viewer happening) := by
  obtain ⟨none_, fits, aligned⟩ := kept
  cases happening with
  | connect atMs => exact tracks.connect atMs
  | disconnect atMs => exact tracks.disconnect atMs none_
  | route => exact tracks.route none_
  | deliver atMs => exact tracks.deliver sound.sent atMs fits
  | lose place => exact tracks.lose none_
  | notice code atMs => exact tracks.notice code atMs
  | settle atMs => exact tracks.settle regular sound.answered atMs fits aligned
  | _ => exact tracks.congr rfl rfl rfl

/-- Whatever came before is replaced. -/
theorem renewed_tracks (regular : viewer.Regular) (sound : Sound viewer viewing)
    {happening : Happening} (renews : viewing.Renews viewer happening) :
    Tracks viewer (viewing.step viewer happening) := by
  obtain ⟨some_, fits, aligned, whole⟩ := renews
  cases happening with
  | settle atMs =>
      cases answers : viewing.tab.answers with
      | none => exact absurd (by simp [Viewing.readings, answers]) some_
      | some all => exact ⟨whole, settle_folded regular sound.answered atMs answers fits aligned⟩
  | _ => exact absurd rfl some_

/-! ## Runs -/

def KeptAll (viewer : Viewer) : Viewing → List Happening → Prop
  | _, [] => True
  | viewing, happening :: rest =>
      viewing.Kept viewer happening ∧ KeptAll viewer (viewing.step viewer happening) rest

/-- A resync renews what the tab has, and from there on everything is kept. -/
def Recovers (viewer : Viewer) (viewing : Viewing) : List Happening → Prop
  | [] => False
  | happening :: rest =>
      viewing.Renews viewer happening ∧ KeptAll viewer (viewing.step viewer happening) rest

instance decidableKeptAll (viewer : Viewer) : ∀ viewing happenings,
    Decidable (KeptAll viewer viewing happenings)
  | _, [] => isTrue trivial
  | viewing, happening :: rest =>
      have := decidableKeptAll viewer (viewing.step viewer happening) rest
      inferInstanceAs (Decidable (viewing.Kept viewer happening ∧
        KeptAll viewer (viewing.step viewer happening) rest))

instance decidableRecovers (viewer : Viewer) (viewing : Viewing) : ∀ happenings,
    Decidable (viewing.Recovers viewer happenings)
  | [] => isFalse id
  | happening :: rest => inferInstanceAs (Decidable (viewing.Renews viewer happening ∧
      KeptAll viewer (viewing.step viewer happening) rest))

theorem Tracks.run (tracks : Tracks viewer viewing) (regular : viewer.Regular)
    (sound : Sound viewer viewing) {happenings : List Happening}
    (kept : KeptAll viewer viewing happenings) : Tracks viewer (viewing.run viewer happenings) := by
  induction happenings generalizing viewing with
  | nil => exact tracks
  | cons happening rest ih =>
      exact ih (tracks.step regular sound kept.1) (sound.step regular happening) kept.2

theorem Tracks.agrees (tracks : Tracks viewer viewing) (regular : viewer.Regular)
    (quiet : viewing.Quiet viewer) : viewer.Agrees viewing := by
  have last : viewing.place viewer = viewer.owedInAll.length := by
    rw [Viewing.place, quiet.wire, quiet.routed]
    rfl
  exact (last ▸ tracks.folded).agrees regular

end Viewing

def bidder : Viewer where
  symbols := soleSymbol
  userId := 5
  outbound := [(toLex (1, 0), .accountCreated ⟨0, 1, 5, 100000⟩),
    (toLex (2, 0), .orderAccepted ⟨1, 1, 1, 5, 5000, 2, 1, 1, 1⟩),
    (toLex (3, 0), .orderAccepted ⟨2, 2, 2, 5, 4000, 1, 1, 1, 1⟩)]

/-- The account's message is lost; the resync is read once the tables have the first order, which
the tab has been told of. -/
def lossy : List Happening :=
  [.connect 0, .route, .lose 0, .route, .deliver 1, .batch 2 .committed, .readOpenOrders, .readCash,
    .readPositions []]

end QuantArena.Web
