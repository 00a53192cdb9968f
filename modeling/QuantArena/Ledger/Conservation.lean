import QuantArena.Ledger.Ledger

/-! Money and shares are only moved, never made: what the accounts and the house
hold is what was paid in, and every share held is a share owed. -/

set_option autoImplicit false

namespace QuantArena.Ledger

open Foundations Contracts

/-- Both legs of a fill and both its fees cancel out. -/
theorem settlement_balances (fill : Fill) :
    (settlement fill).buyerCashDelta + (settlement fill).sellerCashDelta +
      (calculateFees fill.priceTicks fill.qty).totalFeeTicks = 0 := by
  simp only [settlement]
  split <;> simp only [calculateFees] <;> omega

/-- The parties of a settlement are those of the fill. -/
theorem settlement_parties (fill : Fill) :
    (settlement fill).buyerId = fill.takerUserId ∧ (settlement fill).sellerId = fill.makerUserId ∨
      (settlement fill).buyerId = fill.makerUserId ∧
        (settlement fill).sellerId = fill.takerUserId := by
  simp only [settlement]
  split
  · exact .inl ⟨rfl, rfl⟩
  · exact .inr ⟨rfl, rfl⟩

/-- A record that sets or moves a user's cash. -/
def MovesCash (userId : Int) : Outbound → Prop
  | .accountCreated created => created.userId = userId
  | .cashCredited credited => credited.userId = userId
  | .fill fill => fill.makerUserId = userId ∨ fill.takerUserId = userId
  | _ => False

/-- An account is created before its cash first moves, if it is created at all. -/
def CreatedFirst (records : List Outbound) : Prop :=
  records.Pairwise fun early late =>
    ∀ created, late = .accountCreated created → ¬ MovesCash created.userId early

/-- What a record pays into the system. -/
def deposit : Outbound → Int
  | .accountCreated created => created.initialCashTicks
  | .cashCredited credited => credited.amountTicks
  | _ => 0

/-- All users' holdings of a symbol, taken together. -/
def netPosition (ledger : Ledger) (symbolId : Int) : Int :=
  ledger.positions.total fun key qty => if key.2 = symbolId then qty else 0

theorem totalUserCash_eq (ledger : Ledger) :
    ledger.totalUserCash = ledger.cashBalances.total fun _ ticks => ticks := rfl

/-- The ledger's own check of I10, and its counterpart for shares. -/
structure Balanced (ledger : Ledger) (deposits : Int) : Prop where
  cash : ledger.totalSystemCash = deposits
  deposited : ledger.totalDepositsTicks = deposits
  positions : ∀ symbolId, ledger.netPosition symbolId = 0

theorem new_balanced : new.Balanced 0 := ⟨rfl, rfl, fun _ => rfl⟩

variable {ledger : Ledger} {deposits : Int}

theorem totalUserCash_add (dict : Dict Int Int) (userId ticks : Int) :
    ((dict.add userId ticks).total fun _ ticks => ticks) =
      (dict.total fun _ ticks => ticks) + ticks :=
  dict.total_add (fun _ _ _ => rfl) userId ticks

theorem netPosition_add (positions : Dict (Int × Int) Int) (symbolId userId traded qty : Int) :
    ((positions.add (userId, traded) qty).total fun key qty =>
        if key.2 = symbolId then qty else 0) =
      (positions.total fun key qty => if key.2 = symbolId then qty else 0) +
        if traded = symbolId then qty else 0 := by
  refine positions.total_add ?_ (userId, traded) qty
  intro key left right
  split <;> rfl

theorem Balanced.applyFill (balanced : ledger.Balanced deposits) (fill : Fill) :
    (ledger.applyFill fill).Balanced deposits := by
  obtain ⟨cash, deposited, positions⟩ := balanced
  refine ⟨?_, deposited, ?_⟩
  · have cancels := settlement_balances fill
    simp only [totalSystemCash, totalUserCash_eq] at cash
    simp only [Ledger.applyFill, totalSystemCash, totalUserCash_eq, totalUserCash_add]
    omega
  · intro symbolId
    have flat := positions symbolId
    simp only [netPosition] at flat
    simp only [netPosition, Ledger.applyFill, netPosition_add, flat]
    split <;> omega

/-- A record keeps the balance, if an account it creates has no balance yet. -/
theorem Balanced.applyRecord (balanced : ledger.Balanced deposits) {record : Outbound}
    (untouched : ∀ created, record = .accountCreated created →
      ledger.cashBalances.get? created.userId = none) :
    (ledger.applyRecord record).Balanced (deposits + deposit record) := by
  cases record with
  | accountCreated created =>
      obtain ⟨cash, deposited, positions⟩ := balanced
      have fresh := untouched created rfl
      refine ⟨?_, ?_, positions⟩
      · simp only [totalSystemCash, totalUserCash_eq] at cash
        simp only [totalSystemCash, totalUserCash_eq, Ledger.applyRecord, deposit,
          Dict.total_set_fresh _ _ _ fresh]
        omega
      · simp only [Ledger.applyRecord, deposit, deposited]
  | cashCredited credited =>
      obtain ⟨cash, deposited, positions⟩ := balanced
      refine ⟨?_, ?_, positions⟩
      · simp only [totalSystemCash, totalUserCash_eq] at cash
        simp only [totalSystemCash, totalUserCash_eq, Ledger.applyRecord, deposit,
          totalUserCash_add]
        omega
      · simp only [Ledger.applyRecord, deposit, deposited]
  | fill fill =>
      simp only [deposit, Int.add_zero]
      exact balanced.applyFill fill
  | orderAccepted _ =>
      simp only [deposit, Int.add_zero]
      exact ⟨balanced.cash, balanced.deposited, balanced.positions⟩
  | orderCancelled _ =>
      simp only [deposit, Int.add_zero]
      exact ⟨balanced.cash, balanced.deposited, balanced.positions⟩
  | orderRejected _ =>
      simp only [deposit, Int.add_zero]
      exact balanced
  | bookChanged _ =>
      simp only [deposit, Int.add_zero]
      exact balanced
  | replayConfigured _ =>
      simp only [deposit, Int.add_zero]
      exact balanced

theorem Balanced.apply (balanced : ledger.Balanced deposits) {record : Outbound}
    (untouched : ∀ created, record = .accountCreated created →
      ledger.cashBalances.get? created.userId = none)
    (streamId : Option StreamId) :
    (ledger.apply record streamId).Balanced (deposits + deposit record) := by
  have counted : Balanced { ledger with
      lastSeq := streamId.getD ledger.lastSeq
      eventsProcessed := ledger.eventsProcessed + 1 } deposits :=
    ⟨balanced.cash, balanced.deposited, balanced.positions⟩
  exact counted.applyRecord untouched

/-- A record that does not move a user's cash leaves the user's balance as it is. -/
theorem apply_untouched (ledger : Ledger) {record : Outbound} {userId : Int}
    (still : ¬ MovesCash userId record) (streamId : Option StreamId) :
    (ledger.apply record streamId).cashBalances.get? userId =
      ledger.cashBalances.get? userId := by
  cases record with
  | accountCreated created => exact Dict.get?_set_of_ne _ _ fun same => still same.symm
  | cashCredited credited => exact Dict.get?_add_of_ne _ _ fun same => still same.symm
  | fill fill =>
      have parties := settlement_parties fill
      simp only [MovesCash, not_or] at still
      simp only [Ledger.apply, applyRecord, Ledger.applyFill]
      rw [Dict.get?_add_of_ne, Dict.get?_add_of_ne] <;> omega
  | orderAccepted _ => rfl
  | orderCancelled _ => rfl
  | orderRejected _ => rfl
  | bookChanged _ => rfl
  | replayConfigured _ => rfl

def paidIn (events : List (Outbound × Option StreamId)) : Int :=
  (events.map fun event => deposit event.1).sum

/-- The run lemma: balanced so far, and no balance for whom no cash has moved. -/
theorem applyAll_balanced (events : List (Outbound × Option StreamId))
    (lawful : CreatedFirst (events.map (·.1))) :
    (new.applyAll events).Balanced (paidIn events) ∧
      ∀ userId, (∀ event ∈ events, ¬ MovesCash userId event.1) →
        (new.applyAll events).cashBalances.get? userId = none := by
  induction events using List.reverseRecOn with
  | nil => exact ⟨new_balanced, fun _ _ => rfl⟩
  | append_singleton events event ih =>
      rw [List.map_append, CreatedFirst, List.pairwise_append] at lawful
      obtain ⟨earlier, -, before⟩ := lawful
      obtain ⟨balanced, untouched⟩ := ih earlier
      have last : new.applyAll (events ++ [event]) =
          (new.applyAll events).apply event.1 event.2 := by
        simp only [applyAll, List.foldl_append, List.foldl_cons, List.foldl_nil]
      rw [last]
      constructor
      · have grown : paidIn (events ++ [event]) =
            paidIn events + deposit event.1 := by
          simp only [paidIn, List.map_append, List.sum_append, List.map_cons,
            List.map_nil, List.sum_singleton]
        rw [grown]
        refine balanced.apply ?_ event.2
        intro created same
        apply untouched
        intro earlier member
        exact before earlier.1 (List.mem_map_of_mem member) event.1 (by simp) created same
      · intro userId still
        rw [apply_untouched _ (still event (by simp))]
        exact untouched userId fun earlier member => still earlier (by simp [member])

def selfTrade : List (Outbound × Option StreamId) :=
  [(.accountCreated ⟨1, 1, 7, 100000⟩, none), (.accountCreated ⟨2, 1, 8, 100000⟩, none),
    (.fill ⟨3, 1, 2, 7, 8, 1234, 5, 1, sideCode .buy⟩, none),
    (.cashCredited ⟨4, 2, 7, 55⟩, none),
    (.fill ⟨5, 3, 4, 8, 8, 999, 3, 1, sideCode .sell⟩, none)]

/-- After every record, cash and fees add up to the deposits and positions to nothing. -/
theorem conserved_after_every_record (events : List (Outbound × Option StreamId))
    (lawful : CreatedFirst (events.map (·.1))) :
    ∀ seen, seen <+: events →
      (new.applyAll seen).totalUserCash + (new.applyAll seen).houseFeeTicks =
        (new.applyAll seen).totalDepositsTicks ∧
      (new.applyAll seen).totalDepositsTicks = paidIn seen ∧
      ∀ symbolId, ((new.applyAll seen).positions.total fun key qty =>
        if key.2 = symbolId then qty else 0) = 0 := by
  intro seen front
  obtain ⟨⟨cash, deposited, positions⟩, -⟩ :=
    applyAll_balanced seen (lawful.sublist (front.sublist.map _))
  exact ⟨cash.trans deposited.symm, deposited, positions⟩

/-- A user buys from a market maker that then trades with itself. -/
theorem conserved_after_a_self_trade :
    (new.applyAll selfTrade).totalUserCash + (new.applyAll selfTrade).houseFeeTicks =
        (new.applyAll selfTrade).totalDepositsTicks ∧
      (new.applyAll selfTrade).totalDepositsTicks = paidIn selfTrade ∧
      ∀ symbolId, ((new.applyAll selfTrade).positions.total fun key qty =>
        if key.2 = symbolId then qty else 0) = 0 :=
  conserved_after_every_record selfTrade (by simp [CreatedFirst, selfTrade, MovesCash]) selfTrade
    List.prefix_rfl

end QuantArena.Ledger
