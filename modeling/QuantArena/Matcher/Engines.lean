import QuantArena.Matcher.EngineAgreement
import QuantArena.Matcher.SnapshotCodec

/-! Either engine over its whole life: records off the wire, and restores of what either of
them wrote. As long as ids last, an engine that is reached stands for a market. -/

set_option autoImplicit false

namespace QuantArena.Matcher

open Foundations Foundations.PriceTime Contracts Exchange
open Engine.Cpp (StreamEngine)

inductive EitherEngine where
  | naive (matcher : NaiveMatcher)
  | cpp (engine : StreamEngine)

namespace EitherEngine

def apply : EitherEngine → Inbound → Except Fault (EitherEngine × List Outbound)
  | .naive matcher, record => do
      let (after, outputs) ← matcher.apply record
      .ok (.naive after, outputs)
  | .cpp engine, record => do
      let (after, outputs) ← engine.apply record
      .ok (.cpp after, outputs)

def snapshot : EitherEngine → Except Fault (List UInt8)
  | .naive matcher => matcher.snapshot
  | .cpp engine => engine.snapshot

/-- The C++ counter has not come round to zero. -/
def Numbered : EitherEngine → Prop
  | .naive _ => True
  | .cpp engine => engine.nextOrderId ≠ 0

/-- What an engine becomes, going on only from where it `may`. -/
inductive Reachable (may : EitherEngine → Prop) : EitherEngine → Prop where
  | naive (initialCashTicks : Int) : Reachable may (.naive (.new 1 initialCashTicks))
  | cpp (initialCashTicks : Int) : Reachable may (.cpp (.new initialCashTicks))
  | applied {engine after : EitherEngine} {record : Inbound} {outputs : List Outbound}
      (reached : Reachable may engine) (goes : may engine) (wire : OnWire record)
      (done : engine.apply record = .ok (after, outputs)) : Reachable may after
  | restoredNaive {engine : EitherEngine} {data : List UInt8} {initialCashTicks : Int}
      {matcher : NaiveMatcher} (reached : Reachable may engine) (goes : may engine)
      (taken : engine.snapshot = .ok data)
      (restored : NaiveMatcher.restore data initialCashTicks = .ok matcher) :
      Reachable may (.naive matcher)
  | restoredCpp {engine : EitherEngine} {data : List UInt8} {initialCashTicks : Int}
      {loaded : StreamEngine} (reached : Reachable may engine) (goes : may engine)
      (taken : engine.snapshot = .ok data)
      (restored : (StreamEngine.new initialCashTicks).restore data = .ok loaded) :
      Reachable may (.cpp loaded)

/-- A submission is answered by its acceptance and by no rejection. -/
def Accepts (engine : EitherEngine) (order : SubmitOrder) : Prop :=
  ∃ after orderId rest, engine.apply (.submitOrder order) =
      .ok (after, .orderAccepted (Market.acceptance order orderId) :: rest) ∧
    ∀ rejected, .orderRejected rejected ∉ rest

/-! ## The market an engine stands for -/

def Represents : EitherEngine → Market → Prop
  | .naive matcher, market => matcher.Represents market
  | .cpp engine, market => engine.Represents market ∧ market.tape.nextOrderId ≤ 256 ^ 8

structure StandsFor (engine : EitherEngine) (market : Market) : Prop where
  represents : engine.Represents market
  valid : market.Valid
  onWire : ∀ live ∈ market.tape.live, LiveOnWire live

variable {engine : EitherEngine} {market : Market}

theorem naive_standsFor (initialCashTicks : Int) :
    (naive (.new 1 initialCashTicks)).StandsFor .fresh where
  represents := NaiveMatcher.new_represents 1 initialCashTicks
  valid := Market.fresh_valid
  onWire := by simp [Market.fresh, Tape.blank]

theorem cpp_standsFor (initialCashTicks : Int) :
    (cpp (.new initialCashTicks)).StandsFor .fresh where
  represents := ⟨StreamEngine.new_represents initialCashTicks, by decide⟩
  valid := Market.fresh_valid
  onWire := by simp [Market.fresh, Tape.blank]

/-- The counter of a C++ engine that has not come round is the market's. -/
theorem numbered_lt {cppEngine : StreamEngine} (represents : cppEngine.Represents market)
    (bounded : market.tape.nextOrderId ≤ 256 ^ 8) (numbered : (cpp cppEngine).Numbered) :
    market.tape.nextOrderId < 256 ^ 8 := by
  refine lt_of_le_of_ne bounded fun full => numbered ?_
  rw [represents.nextOrderId, full, Int.emod_self]

theorem StandsFor.applied (stands : engine.StandsFor market) (numbered : engine.Numbered)
    {record : Inbound} (wire : OnWire record) {after : EitherEngine} {outputs : List Outbound}
    (done : engine.apply record = .ok (after, outputs)) :
    ∃ cash, after.StandsFor (market.apply cash record).1 := by
  cases engine with
  | naive matcher =>
      obtain ⟨later, applied, represents, -⟩ :=
        NaiveMatcher.apply_ok stands.represents stands.valid record
      rw [apply, applied] at done
      cases done
      exact ⟨_, represents, Market.apply_valid _ stands.valid record,
        Market.apply_onWire _ stands.valid stands.onWire wire⟩
  | cpp cppEngine =>
      have room := numbered_lt stands.represents.1 stands.represents.2 numbered
      have bounded : (market.apply cppEngine.initialCashTicks record).1.tape.nextOrderId ≤
          256 ^ 8 := by
        obtain same | ⟨-, next⟩ :=
          Market.apply_nextOrderId cppEngine.initialCashTicks market record
        · omega
        · omega
      obtain ⟨later, applied, represents, -⟩ :=
        StreamEngine.apply_ok stands.represents.1 stands.valid record bounded
      rw [apply, applied] at done
      cases done
      exact ⟨_, ⟨represents, bounded⟩, Market.apply_valid _ stands.valid record,
        Market.apply_onWire _ stands.valid stands.onWire wire⟩

/-- What an engine writes while its ids last is the layout of its market. -/
theorem StandsFor.taken (stands : engine.StandsFor market) (numbered : engine.Numbered)
    {data : List UInt8} (taken : engine.snapshot = .ok data) :
    data = (marketSnapshot market).layout ∧ market.tape.nextOrderId < 256 ^ 8 := by
  cases engine with
  | naive matcher =>
      have packed := stands.represents.snapshot_eq.symm.trans taken
      rw [EngineSnapshot.pack_eq_ok (marketSnapshot_ordered stands.valid)] at packed
      exact ⟨packed.2, packed.1.nextOrderId.2⟩
  | cpp cppEngine =>
      have room := numbered_lt stands.represents.1 stands.represents.2 numbered
      have next : market.tape.nextOrderId % 256 ^ 8 = market.tape.nextOrderId :=
        Int.emod_eq_of_lt stands.valid.numbered.1.le room
      have written := stands.represents.1.snapshot_eq.symm.trans taken
      rw [next] at written
      exact ⟨(Except.ok.inj written).symm, room⟩

/-- A layout that an engine takes back is one that can count its orders. -/
theorem StandsFor.fits (stands : engine.StandsFor market)
    (room : market.tape.nextOrderId < 256 ^ 8)
    (counted : ¬ 256 ^ 4 ≤ ((marketSnapshot market).orders.length : Int)) :
    (marketSnapshot market).Fits := by
  refine marketSnapshot_fits stands.valid stands.onWire room ?_
  rw [marketSnapshot, List.length_map] at counted
  omega

theorem StandsFor.restoredNaive (stands : engine.StandsFor market) (numbered : engine.Numbered)
    {data : List UInt8} (taken : engine.snapshot = .ok data) {initialCashTicks : Int}
    {matcher : NaiveMatcher} (restored : NaiveMatcher.restore data initialCashTicks = .ok matcher) :
    (naive matcher).StandsFor market := by
  obtain ⟨rfl, room⟩ := stands.taken numbered taken
  have fits := stands.fits room fun many => naive_refuses_many many _ _ restored
  obtain ⟨after, loaded, -, represents⟩ :=
    NaiveMatcher.restore_layout stands.valid fits initialCashTicks
  rw [loaded] at restored
  cases restored
  exact ⟨represents, stands.valid, stands.onWire⟩

theorem StandsFor.restoredCpp (stands : engine.StandsFor market) (numbered : engine.Numbered)
    {data : List UInt8} (taken : engine.snapshot = .ok data) {initialCashTicks : Int}
    {loaded : StreamEngine} (restored : (StreamEngine.new initialCashTicks).restore data = .ok loaded) :
    (cpp loaded).StandsFor market := by
  obtain ⟨rfl, room⟩ := stands.taken numbered taken
  have fits := stands.fits room fun many => cpp_refuses_many many _ _ restored
  obtain ⟨after, reread, -, represents⟩ :=
    StreamEngine.restore_ok stands.valid fits initialCashTicks
  rw [reread] at restored
  cases restored
  exact ⟨⟨represents, room.le⟩, stands.valid, stands.onWire⟩

theorem Reachable.standsFor (reached : Reachable Numbered engine) :
    ∃ market, engine.StandsFor market := by
  induction reached with
  | naive initialCashTicks => exact ⟨_, naive_standsFor initialCashTicks⟩
  | cpp initialCashTicks => exact ⟨_, cpp_standsFor initialCashTicks⟩
  | applied _ goes wire done ih =>
      obtain ⟨market, stands⟩ := ih
      obtain ⟨cash, after⟩ := stands.applied goes wire done
      exact ⟨_, after⟩
  | restoredNaive _ goes taken restored ih =>
      obtain ⟨market, stands⟩ := ih
      exact ⟨market, stands.restoredNaive goes taken restored⟩
  | restoredCpp _ goes taken restored ih =>
      obtain ⟨market, stands⟩ := ih
      exact ⟨market, stands.restoredCpp goes taken restored⟩

/-! ## Accepting -/

theorem submit_accepts {order : SubmitOrder} {side : Side} {tif : Tif}
    (admitted : Market.admission order = .ok (side, tif)) :
    ∃ rest, (market.submit order).2 =
        .orderAccepted (Market.acceptance order market.tape.nextOrderId) :: rest ∧
      ∀ rejected, .orderRejected rejected ∉ rest := by
  unfold Market.submit
  rw [admitted]
  refine ⟨_, rfl, fun rejected member => ?_⟩
  cases List.mem_append.mp member with
  | inl fill =>
      obtain ⟨_, -, same⟩ := List.mem_map.mp fill
      cases same
  | inr expiry =>
      obtain ⟨_, -, same⟩ := List.mem_map.mp expiry
      cases same

/-- An engine that stands for a market accepts whatever the market admits. -/
theorem StandsFor.accepts (stands : engine.StandsFor market) (numbered : engine.Numbered)
    {order : SubmitOrder} {side : Side} {tif : Tif}
    (admitted : Market.admission order = .ok (side, tif)) : engine.Accepts order := by
  obtain ⟨rest, answer, unrefused⟩ := @submit_accepts market _ _ _ admitted
  cases engine with
  | naive matcher =>
      obtain ⟨later, applied, -, -⟩ :=
        NaiveMatcher.apply_ok stands.represents stands.valid (.submitOrder order)
      refine ⟨.naive later, market.tape.nextOrderId, rest, ?_, unrefused⟩
      rw [apply, applied, Fault.ok_bind, ← answer]
      rfl
  | cpp cppEngine =>
      have room := numbered_lt stands.represents.1 stands.represents.2 numbered
      obtain ⟨later, applied, -, -⟩ :=
        StreamEngine.submit_ok stands.represents.1 stands.valid room admitted
      have done : cppEngine.apply (.submitOrder order) = .ok (later, (market.submit order).2) :=
        applied
      refine ⟨.cpp later, market.tape.nextOrderId, rest, ?_, unrefused⟩
      rw [apply, done, Fault.ok_bind, ← answer]

end EitherEngine

/-! ## When the ids have run out -/

theorem forgetIfFilled_rest (engine : StreamEngine) (symbolId orderId : Int) :
    (engine.forgetIfFilled symbolId orderId).books = engine.books ∧
      (engine.forgetIfFilled symbolId orderId).nextOrderId = engine.nextOrderId := by
  unfold StreamEngine.forgetIfFilled
  split
  · exact ⟨rfl, rfl⟩
  · split <;> exact ⟨rfl, rfl⟩

theorem forgetFilled_rest (engine : StreamEngine) (symbolId : Int)
    (fills : List Engine.Cpp.Fill) :
    (engine.forgetFilled symbolId fills).books = engine.books ∧
      (engine.forgetFilled symbolId fills).nextOrderId = engine.nextOrderId := by
  induction fills generalizing engine with
  | nil => exact ⟨rfl, rfl⟩
  | cons fill rest ih =>
      have buy := forgetIfFilled_rest engine symbolId (Engine.Cpp.toUnsigned fill.buyOrderId)
      have sell := forgetIfFilled_rest (engine.forgetIfFilled symbolId
        (Engine.Cpp.toUnsigned fill.buyOrderId)) symbolId (Engine.Cpp.toUnsigned fill.sellOrderId)
      obtain ⟨books, next⟩ := ih ((engine.forgetIfFilled symbolId
        (Engine.Cpp.toUnsigned fill.buyOrderId)).forgetIfFilled symbolId
          (Engine.Cpp.toUnsigned fill.sellOrderId))
      exact ⟨books.trans (sell.1.trans buy.1), next.trans (sell.2.trans buy.2)⟩

theorem expire_rest (engine : StreamEngine) (input : SubmitOrder) (orderId : Int) :
    (engine.expire input orderId).1.nextOrderId = engine.nextOrderId ∧
      ∀ symbolId, symbolId ≠ input.symbolId →
        (engine.expire input orderId).1.book symbolId = engine.book symbolId := by
  unfold StreamEngine.expire
  split
  · exact ⟨rfl, fun _ _ => rfl⟩
  · split
    · split
      · exact ⟨rfl, fun _ _ => rfl⟩
      · split
        · refine ⟨rfl, fun symbolId other => ?_⟩
          exact (StreamEngine.book_setBook engine input.symbolId symbolId _).trans (if_neg other)
        · exact ⟨rfl, fun _ _ => rfl⟩
    · exact ⟨rfl, fun _ _ => rfl⟩

/-- What a submission leaves of the counter and of the other symbols. -/
theorem submit_rest {engine after : StreamEngine} {order : SubmitOrder} {outputs : List Outbound}
    (kept : StreamEngine.rejectReason order = none)
    (done : engine.submit order = .ok (after, outputs)) :
    after.nextOrderId = (engine.nextOrderId + 1) % 256 ^ 8 ∧
      ∀ symbolId, symbolId ≠ order.symbolId → after.book symbolId = engine.book symbolId := by
  unfold StreamEngine.submit at done
  rw [kept] at done
  simp only [Fault.bind_eq_ok] at done
  obtain ⟨_, -, _, -, ⟨book, fills⟩, -, records, -, same⟩ := done
  cases same
  obtain ⟨next, others⟩ := expire_rest (StreamEngine.forgetFilled _ order.symbolId fills) order
    engine.nextOrderId
  obtain ⟨books, counter⟩ := forgetFilled_rest (StreamEngine.setBook _ order.symbolId book)
    order.symbolId fills
  refine ⟨next.trans counter, fun symbolId other => (others symbolId other).trans ?_⟩
  rw [StreamEngine.book, books]
  exact (StreamEngine.book_setBook _ order.symbolId symbolId book).trans (if_neg other)

/-- An id that is still on the book cannot be given out again. -/
theorem submit_raises {engine after : StreamEngine} {order : SubmitOrder} {outputs : List Outbound}
    (kept : StreamEngine.rejectReason order = none)
    (taken : ((engine.book order.symbolId).getOrder (Engine.Cpp.toLong engine.nextOrderId)).isSome) :
    engine.submit order ≠ .ok (after, outputs) := by
  intro done
  unfold StreamEngine.submit at done
  rw [kept] at done
  simp only [Fault.bind_eq_ok] at done
  obtain ⟨created, made, entered, added, -⟩ := done
  have ownId : created.orderId = Engine.Cpp.toLong engine.nextOrderId := by
    rw [Engine.Cpp.Order.new] at made
    split at made
    · cases made
    · split at made
      · cases made
      · cases made
        rfl
  have ownBook : StreamEngine.book { engine with
      nextOrderId := (engine.nextOrderId + 1) % 256 ^ 8
      clientToOrder := engine.clientToOrder.insert
        (StreamEngine.clientKey order.userId order.clientOrderId) engine.nextOrderId
      live := engine.live.insert engine.nextOrderId ⟨engine.nextOrderId, order.clientOrderId,
        order.userId, order.symbolId, order.side, order.priceTicks⟩ } order.symbolId =
      engine.book order.symbolId := rfl
  rw [Engine.Cpp.OrderBook.getOrder] at taken
  rw [ownBook, Engine.Cpp.OrderBook.addOrder, ownId, if_pos taken] at added
  cases added

theorem applyAll_reachable {may : EitherEngine → Prop} (goes : ∀ engine, may engine)
    {records : List Inbound} (wire : ∀ record ∈ records, OnWire record) :
    ∀ {engine after : StreamEngine} {outputs : List Outbound},
      EitherEngine.Reachable may (.cpp engine) →
      engine.applyAll records = .ok (after, outputs) → EitherEngine.Reachable may (.cpp after) := by
  induction records with
  | nil =>
      intro engine after outputs reached ran
      cases ran
      exact reached
  | cons record rest ih =>
      intro engine after outputs reached ran
      rw [StreamEngine.applyAll] at ran
      obtain ⟨⟨middle, first⟩, applied, ran⟩ := Fault.bind_eq_ok.mp ran
      obtain ⟨⟨last, later⟩, finished, same⟩ := Fault.bind_eq_ok.mp ran
      cases same
      have done : (EitherEngine.cpp engine).apply record = .ok (.cpp middle, first) := by
        rw [EitherEngine.apply, applied]
        rfl
      exact ih (fun each member => wire each (List.mem_cons_of_mem _ member))
        (.applied reached (goes _) (wire record List.mem_cons_self) done) finished

/-- The first of many small bids rests on. -/
theorem smallBids_first (initialCashTicks : Int) (count : Nat) :
    ∃ order ∈ (Market.fresh.run initialCashTicks
      (List.replicate (count + 1) (.submitOrder smallBid))).1.tape.live,
      order.id = 1 ∧ order.ticket.symbolId = 1 := by
  induction count with
  | zero =>
      have first : (Market.fresh.run initialCashTicks
          (List.replicate 1 (.submitOrder smallBid))).1 = (Market.fresh.submit smallBid).1 := rfl
      refine ⟨Market.fresh.takerOf smallBid .buy, ?_, rfl, rfl⟩
      rw [Nat.zero_add, first, submit_smallBid (by simp [Market.fresh, Tape.blank])]
      exact List.mem_append_right _ List.mem_cons_self
  | succ count ih =>
      obtain ⟨order, member, facts⟩ := ih
      obtain ⟨-, -, bids⟩ := smallBids_run initialCashTicks (count + 1)
      refine ⟨order, ?_, facts⟩
      rw [List.replicate_succ', Market.run_append]
      have last : ∀ market : Market, (market.run initialCashTicks [.submitOrder smallBid]).1 =
          (market.submit smallBid).1 := fun _ => rfl
      rw [last, submit_smallBid bids]
      exact List.mem_append_left _ member

/-- A one-share bid on another symbol. -/
def otherBid : SubmitOrder := { smallBid with symbolId := 2 }

theorem smallBid_onWire : OnWire (.submitOrder smallBid) := by constructor <;> decide

theorem otherBid_onWire : OnWire (.submitOrder otherBid) := by constructor <;> decide

/-- Once the counter has come round, an engine meets the id of an order that still rests. -/
theorem exhausted_engine : ∃ engine, EitherEngine.Reachable (fun _ => True) engine ∧
    ¬ (engine.Accepts smallBid ∧ engine.Accepts otherBid) := by
  have counted : (2 ^ 64 - 1 : Nat) = (2 ^ 64 - 2) + 1 := by norm_num
  obtain ⟨engine, finished, represents, -⟩ := fresh_engine_run 0
    (List.replicate (2 ^ 64 - 1) (.submitOrder smallBid))
    (by rw [submissions_smallBids]; norm_num)
  obtain ⟨next, -⟩ := smallBids_run 0 (2 ^ 64 - 1)
  obtain ⟨first, member, firstId, firstSymbol⟩ := smallBids_first 0 (2 ^ 64 - 2)
  rw [← counted] at member
  obtain ⟨held, found, -⟩ := represents.holds.getOrder member
  rw [firstId, firstSymbol] at found
  have wrapped : engine.nextOrderId = 0 := by
    rw [represents.nextOrderId, next]
    norm_num
  have reached : EitherEngine.Reachable (fun _ => True) (.cpp engine) := by
    refine applyAll_reachable (fun _ => trivial) (fun record member => ?_) (.cpp 0) finished
    rw [List.eq_of_mem_replicate member]
    exact smallBid_onWire
  by_cases accepts : EitherEngine.Accepts (.cpp engine) otherBid
  · obtain ⟨after, orderId, rest, done, -⟩ := accepts
    have applied := done
    rw [EitherEngine.apply] at applied
    obtain ⟨⟨later, outputs⟩, submitted, same⟩ := Fault.bind_eq_ok.mp applied
    cases same
    have entered : engine.submit otherBid = .ok (later, _) := submitted
    have admitted : StreamEngine.rejectReason otherBid = none := rfl
    obtain ⟨counter, others⟩ := submit_rest admitted entered
    refine ⟨.cpp later, .applied reached trivial otherBid_onWire done, fun both => ?_⟩
    obtain ⟨final, _, _, again, -⟩ := both.1
    rw [EitherEngine.apply] at again
    obtain ⟨⟨last, answer⟩, repeated, -⟩ := Fault.bind_eq_ok.mp again
    have kept : StreamEngine.rejectReason smallBid = none := rfl
    refine submit_raises kept ?_ repeated
    have one : later.nextOrderId = 1 := by
      rw [counter, wrapped]
      norm_num
    have sameBook : later.book smallBid.symbolId = engine.book 1 := others 1 (by decide)
    rw [one, sameBook, found]
    rfl
  · exact ⟨.cpp engine, reached, fun both => accepts both.2⟩

end QuantArena.Matcher
