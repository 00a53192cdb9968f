import QuantArena.Foundations.Fold
import QuantArena.Gateway.RiskCheckpoint

/-! What a restart from the risk state's checkpoint comes to: the restored state holds what
the unbroken one does, but for what is still pending there. -/

set_option autoImplicit false

namespace QuantArena.Gateway

open Foundations Foundations.PriceTime Contracts Exchange

namespace RiskState

variable {risk : RiskState}

/-! ## What is pending, taken off -/

/-- The state as `dump_state` sees it. -/
def withoutPending (risk : RiskState) : RiskState :=
  { risk with
    reserved := risk.reservedWithoutPending
    reservedQty := risk.reservedQtyWithoutPending
    pendingByClient := .empty }

theorem opened_values (risk : RiskState) :
    risk.openOrders.values.map risk.object = risk.opened.values := by
  rw [opened, Dict.values_mapValues, Dict.values, List.map_map]
  rfl

/-- A total over references is one over the objects they refer to. -/
theorem sum_towards {κ : Type} [DecidableEq κ] (refs : Dict κ Ref) (risk : RiskState)
    (resource : Resource) :
    (refs.values.map fun ref => (risk.object ref).towards resource).sum =
      (refs.mapValues fun _ ref => risk.object ref).total
        fun _ reservation => reservation.towards resource := by
  rw [Dict.total, Dict.entries_mapValues, List.map_map, Dict.values, List.map_map]
  rfl

theorem held_withoutPending (risk : RiskState) (resource : Resource) :
    risk.withoutPending.held resource =
      risk.held resource - risk.waiting.total fun _ reservation => reservation.towards resource := by
  have negated : (risk.pendingByClient.values.map fun ref =>
      -(risk.object ref).towards resource).sum =
      -risk.waiting.total fun _ reservation => reservation.towards resource := by
    rw [waiting, ← sum_towards, List.sum_neg, List.map_map]
    rfl
  rw [sub_eq_add_neg, ← negated]
  cases resource with
  | cash userId =>
      refine Dict.getD_foldl (fun reserved ref => ?_) _ _
      simp only [Reservation.towards, Reservation.resource, Reservation.cost]
      split
      · rw [Dict.getD_add]
        simp only [Resource.cash.injEq, eq_comm]
        split <;> simp
      · simp
  | units userId symbolId =>
      refine Dict.getD_foldl (fun reservedQty ref => ?_) _ _
      simp only [Reservation.towards, Reservation.resource, Reservation.cost]
      split
      · simp
      · rw [Dict.getD_add]
        simp only [Resource.units.injEq, Prod.mk.injEq, eq_comm]
        split <;> simp

/-! ## Loading -/

theorem Sound.one_listed (sound : risk.Sound) (row : Int × Reservation) :
    (risk.listOpen row).Sound ∧
      (risk.listOpen row).opened = risk.opened.set row.1 row.2 ∧
      (risk.listOpen row).waiting = risk.waiting := by
  refine ⟨sound.place rfl (.opened row.1) ?_, sound.opened_place rfl rfl,
    sound.waiting_alloc rfl rfl⟩
  intro slot
  cases slot with
  | opened orderId => simp only [slot, RiskState.listOpen, Dict.get?_set, Slot.opened.injEq]
  | pending key => simp only [slot, RiskState.listOpen, reduceCtorEq, if_false]

theorem Solid.all_listed (solid : risk.Solid) {rows : List (Int × Reservation)}
    (positive : ∀ row ∈ rows, row.2.Positive) : (rows.foldl listOpen risk).Solid := by
  induction rows generalizing risk with
  | nil => exact solid
  | cons row rest ih =>
      have first : (risk.listOpen row).Solid := solid.alloc (positive row List.mem_cons_self) rfl
      exact ih first fun other member => positive other (List.mem_cons_of_mem _ member)

/-- Listing rows gives each an object of its own, and leaves the amounts. -/
theorem Sound.all_listed (sound : risk.Sound) (rows : List (Int × Reservation)) :
    (rows.foldl listOpen risk).Sound ∧
      (rows.foldl listOpen risk).opened =
        rows.foldl (fun opened row => opened.set row.1 row.2) risk.opened ∧
      (rows.foldl listOpen risk).waiting = risk.waiting ∧
      ∃ objects openOrders, rows.foldl listOpen risk =
        { risk with objects := objects, openOrders := openOrders } := by
  induction rows generalizing risk with
  | nil => exact ⟨sound, rfl, rfl, risk.objects, risk.openOrders, rfl⟩
  | cons row rest ih =>
      obtain ⟨first, opened, waiting⟩ := sound.one_listed row
      obtain ⟨after, openedAll, waitingAll, objects, openOrders, same⟩ := ih first
      rw [opened] at openedAll
      exact ⟨after, openedAll, waitingAll.trans waiting, objects, openOrders, same⟩

theorem getD_recommitted (risk : RiskState) (userId : Int) :
    risk.recommitted.getD userId 0 =
      risk.opened.total fun _ reservation => reservation.towards (.cash userId) := by
  have gathered : risk.recommitted.getD userId 0 = (Dict.empty : Dict Int Int).getD userId 0 +
      (risk.openOrders.values.map fun ref => (risk.object ref).towards (.cash userId)).sum := by
    refine Dict.getD_foldl (fun reserved ref => ?_) _ _
    simp only [Reservation.towards, Reservation.resource, Reservation.cost]
    split
    · rw [Dict.getD_add]
      simp only [Resource.cash.injEq, eq_comm]
    · simp
  rw [gathered, sum_towards]
  exact Int.zero_add _

/-- A restored state beside the unbroken one: its books are kept, and nothing is pending in it. -/
structure Shadow (restored unbroken : RiskState) (live : List LiveOrder) : Prop where
  accounts : restored.Accounts live
  solid : restored.Solid
  idle : ∀ key, restored.waiting.get? key = none
  settled : ∀ resource, restored.settled resource = unbroken.settled resource

section Shadow

variable {restored unbroken : RiskState} {live : List LiveOrder}

theorem Accounts.opened_same (left : restored.Accounts live) (right : unbroken.Accounts live) :
    restored.opened.Same unbroken.opened := by
  intro orderId
  have same := (left.follows.get?_map orderId).trans (right.follows.get?_map orderId).symm
  rwa [Option.map_id, id, id] at same

theorem Shadow.held (shadow : restored.Shadow unbroken live) (accounts : unbroken.Accounts live)
    (resource : Resource) : restored.held resource = unbroken.withoutPending.held resource := by
  have nothing : (restored.waiting.total fun _ reservation => reservation.towards resource) = 0 :=
    Dict.total_eq_zero fun key _ found => by
      rw [shadow.idle key] at found
      cases found
  have opened := (shadow.accounts.opened_same accounts).total fun _ reservation =>
    reservation.towards resource
  rw [held_withoutPending, shadow.accounts.exact, accounts.exact, committed, committed, nothing,
    opened]
  omega

end Shadow

/-- The rows of a dump, each with the id that it is told apart by. -/
theorem dumped_rows (named : ∀ orderId reservation, risk.opened.get? orderId = some reservation →
    reservation.orderId = some orderId) :
    ∃ rows, (risk.dumpState.openOrders.mapM fun order =>
      order.orderId.map fun orderId => (orderId, order)) = some rows ∧
        rows.Perm risk.opened.entries := by
  refine ⟨risk.dumpState.openOrders.map fun order => (order.orderId.getD 0, order), ?_, ?_⟩
  · refine mapM_some_iff.mpr ?_
    rw [List.map_map]
    refine List.map_congr_left fun order member => ?_
    have stored := (canonical_perm _ _).mem_iff.mp member
    rw [opened_values] at stored
    obtain ⟨orderId, found⟩ := Dict.mem_values_iff.mp stored
    simp [named orderId order found]
  · have perm := (canonical_perm (fun order : Reservation => toLex (order.userId,
      order.orderId.getD 0)) (risk.openOrders.values.map risk.object)).map
      fun order => (order.orderId.getD 0, order)
    refine perm.trans (List.Perm.of_eq ?_)
    rw [opened_values, Dict.values, List.map_map]
    refine (List.map_congr_left fun entry member => ?_).trans (List.map_id _)
    rw [Function.comp_apply, named entry.1 entry.2 (Dict.get?_eq_some_iff.mpr member)]
    rfl

theorem sound_of_empty (openOrders : risk.openOrders = .empty)
    (pending : risk.pendingByClient = .empty) : risk.Sound := by
  have nothing : ∀ slot, risk.slot slot = none := by
    intro slot
    cases slot with
    | opened orderId => rw [slot, openOrders]; rfl
    | pending key => rw [slot, pending]; rfl
  refine ⟨fun slot ref found => ?_, fun first second ref found => ?_⟩
  · rw [nothing] at found
    cases found
  · rw [nothing] at found
    cases found

/-- A dump loads, and what it is loaded into shadows what it was taken of. -/
theorem Accounts.loadState {live : List LiveOrder} (accounts : risk.Accounts live)
    (priced : Priced live) {fresh : RiskState} (solid : fresh.Solid) :
    ∃ loaded, fresh.loadState risk.dumpState = some loaded ∧ loaded.lastSeq = risk.lastSeq ∧
      loaded.marketMakers = fresh.marketMakers ∧ loaded.Shadow risk live := by
  obtain ⟨rows, read, entries⟩ := dumped_rows fun orderId reservation found => by
    obtain ⟨order, -, sameId, rfl⟩ := accounts.follows.of_get? found
    exact congrArg some sameId
  let base : RiskState := { fresh with
    lastSeq := risk.dumpState.lastSeq
    settledCash := .ofEntries risk.dumpState.settledCash
    positions := .ofEntries risk.dumpState.positions
    reservedQty := .ofEntries risk.dumpState.reservedQty
    pendingByClient := .empty
    openOrders := .empty }
  have blank : base.Sound := sound_of_empty rfl rfl
  obtain ⟨sound, opened, waiting, objects, openOrders, same⟩ := blank.all_listed rows
  let listed : RiskState := rows.foldl listOpen base
  let loaded : RiskState := { listed with reserved := listed.recommitted }
  have settledCash : loaded.settledCash = .ofEntries risk.dumpState.settledCash := by
    simp only [loaded, listed, same, base]
  have positions : loaded.positions = .ofEntries risk.dumpState.positions := by
    simp only [loaded, listed, same, base]
  have reservedQty : loaded.reservedQty = .ofEntries risk.dumpState.reservedQty := by
    simp only [loaded, listed, same, base]
  have shown : loaded.opened = Dict.ofEntries rows := opened
  have openedSame : loaded.opened.Same risk.opened := shown ▸ Dict.ofEntries_same entries
  have idle : loaded.waiting = .empty := waiting
  have left : ∀ resource, risk.withoutPending.held resource =
      loaded.opened.total fun _ reservation => reservation.towards resource := by
    intro resource
    rw [held_withoutPending, accounts.exact, committed, openedSame.total]
    exact Int.add_sub_cancel ..
  have exact : loaded.Exact := by
    intro resource
    rw [committed, idle, Dict.total_empty, Int.add_zero]
    cases resource with
    | cash userId => exact getD_recommitted listed userId
    | units userId symbolId =>
        rw [held, reservedQty, ← left]
        exact Dict.getD_ofEntries_nonzero (canonical_perm _ _) _
  have positive : ∀ row ∈ rows, row.2.Positive := fun row member =>
    accounts.opened_positive priced (Dict.get?_eq_some_iff.mpr (entries.mem_iff.mp member))
  have solidBase : base.Solid := solid.congr rfl
  refine ⟨loaded, ?_, ?_, ?_, ⟨?_, exact, accounts.follows.of_same openedSame, ?_⟩,
    (solidBase.all_listed positive).congr rfl, ?_, ?_⟩
  · rw [RiskState.loadState, read]
    rfl
  · simp only [loaded, listed, same, base]
    rfl
  · simp only [loaded, listed, same, base]
  · exact sound.keep rfl fun slot _ found => by cases slot <;> exact found
  · intro key reservation found
    rw [idle] at found
    cases found
  · intro key
    rw [idle]
    rfl
  · intro resource
    cases resource with
    | cash userId =>
        rw [settled, settledCash]
        exact (Dict.ofEntries_same (canonical_perm _ _)).getD userId 0
    | units userId symbolId =>
        rw [settled, positions]
        exact (Dict.ofEntries_same (canonical_perm _ _)).getD _ 0

/-! ## Reading on -/

theorem settled_applyWith_congr {left right : RiskState}
    (same : ∀ resource, left.settled resource = right.settled resource) (record : Outbound)
    (resource : Resource) :
    (left.applyWith clamped record).settled resource =
      (right.applyWith clamped record).settled resource := by
  cases record with
  | orderAccepted accepted =>
      simp only [applyWith, settled_adopt, same]
  | fill fill => rw [settled_fill, settled_fill, same]
  | orderCancelled cancelled =>
      simp only [applyWith, settled_releaseRemainingWith, same]
  | accountCreated created =>
      cases resource with
      | cash userId =>
          simp only [applyWith, settled, Dict.getD_set]
          split
          · rfl
          · exact same (.cash userId)
      | units userId symbolId => exact same (.units userId symbolId)
  | cashCredited credited =>
      cases resource with
      | cash userId =>
          have before := same (.cash userId)
          simp only [settled] at before
          simp only [applyWith, settled, Dict.getD_add, before]
      | units userId symbolId => exact same (.units userId symbolId)
  | orderRejected _ => exact same resource
  | bookChanged _ => exact same resource
  | replayConfigured _ => exact same resource

/-- What a record settles depends on what was settled, and on nothing else. -/
theorem settled_apply_congr {left right : RiskState}
    (same : ∀ resource, left.settled resource = right.settled resource) (record : Outbound)
    (leftId rightId : Option StreamId) (resource : Resource) :
    (left.apply record leftId).settled resource = (right.apply record rightId).settled resource := by
  refine settled_applyWith_congr (fun resource => ?_) record resource
  have before := same resource
  cases resource <;> exact before

section Reading

variable {restored unbroken : RiskState} {live : List LiveOrder}

/-- A record read on both sides. -/
theorem Shadow.apply {tape : Exchange.Tape} (shadow : restored.Shadow unbroken tape.live)
    (valid : tape.Valid) {record : Outbound} (lawful : tape.Lawful record)
    (streamId : Option StreamId) :
    (restored.apply record streamId).Shadow (unbroken.apply record streamId)
      (tape.read record).live := by
  have placed : RiskState.Accounts { restored with lastSeq := streamId.getD restored.lastSeq }
      tape.live :=
    shadow.accounts.congr rfl rfl rfl fun resource => by cases resource <;> rfl
  have unmatched : ∀ accepted, record = .orderAccepted accepted → restored.Matches accepted := by
    intro accepted _ reservation found
    rw [shadow.idle] at found
    cases found
  refine ⟨(placed.applyWith clamped_fixes valid lawful unmatched).1,
    shadow.solid.apply valid lawful streamId, ?_,
    settled_apply_congr shadow.settled record streamId streamId⟩
  intro key
  rw [shadow.accounts.sound.waiting_apply]
  split
  · rw [Dict.get?_erase]
    split
    · rfl
    · exact shadow.idle key
  · exact shadow.idle key

theorem Shadow.reserve (shadow : restored.Shadow unbroken live)
    {next : RiskState} {userId clientOrderId symbolId side priceTicks qty : Int}
    (reserved : unbroken.reserve userId clientOrderId symbolId side priceTicks qty = .ok next) :
    restored.Shadow next live := by
  refine ⟨shadow.accounts, shadow.solid, shadow.idle, fun resource => ?_⟩
  rw [settled_reserve reserved, shadow.settled]

theorem Shadow.abandon (shadow : restored.Shadow unbroken live) (ref : Ref) :
    restored.Shadow (unbroken.abandon ref) live := by
  refine ⟨shadow.accounts, shadow.solid, shadow.idle, fun resource => ?_⟩
  rw [settled_abandon, shadow.settled]

end Reading

/-- The same to every reader: an entry that is zero counts as none. -/
structure SameBooks (left right : RiskState) : Prop where
  settledCash : ∀ userId, left.settledCash.getD userId 0 = right.settledCash.getD userId 0
  reserved : ∀ userId, left.reserved.getD userId 0 = right.reserved.getD userId 0
  positions : ∀ key, left.positions.getD key 0 = right.positions.getD key 0
  reservedQty : ∀ key, left.reservedQty.getD key 0 = right.reservedQty.getD key 0
  openOrders : left.opened.Same right.opened

theorem Shadow.sameBooks {restored unbroken : RiskState} {live : List LiveOrder}
    (shadow : restored.Shadow unbroken live) (accounts : unbroken.Accounts live) :
    restored.SameBooks unbroken.withoutPending where
  settledCash userId := shadow.settled (.cash userId)
  reserved userId := shadow.held accounts (.cash userId)
  positions key := shadow.settled (.units key.1 key.2)
  reservedQty key := shadow.held accounts (.units key.1 key.2)
  openOrders := by
    have same := shadow.accounts.opened_same accounts
    exact same

/-- With nothing pending there is nothing to take off. -/
theorem SameBooks.of_idle {restored unbroken : RiskState}
    (same : restored.SameBooks unbroken.withoutPending)
    (idle : ∀ key, unbroken.pendingByClient.get? key = none) : restored.SameBooks unbroken := by
  have nothing : ∀ resource, unbroken.withoutPending.held resource = unbroken.held resource := by
    intro resource
    rw [held_withoutPending, Dict.total_eq_zero, Int.sub_zero]
    intro key reservation found
    rw [get?_waiting, idle key] at found
    cases found
  exact ⟨same.settledCash, fun userId => (same.reserved userId).trans (nothing (.cash userId)),
    same.positions, fun key => (same.reservedQty key).trans (nothing (.units key.1 key.2)),
    same.openOrders⟩

end RiskState

end QuantArena.Gateway
