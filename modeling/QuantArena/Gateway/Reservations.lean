import Mathlib.Tactic.Linarith
import QuantArena.Gateway.Orders

/-! What the risk state holds against what its reservations commit. The reservations
are read through the references once, here; the proofs that follow see two
dictionaries of values. -/

set_option autoImplicit false

namespace QuantArena.Gateway

open Foundations Contracts Ledger

/-- What an order commits some of: a user's cash, or a user's units of a symbol. -/
inductive Resource where
  | cash (userId : Int)
  | units (userId symbolId : Int)
deriving DecidableEq, Repr

namespace Reservation

def resource (reservation : Reservation) : Resource :=
  if reservation.side = sideCode .buy then .cash reservation.userId
  else .units reservation.userId reservation.symbolId

/-- What `qty` of the order commits. -/
def cost (reservation : Reservation) (qty : Int) : Int :=
  if reservation.side = sideCode .buy then buyCost reservation.priceTicks qty else qty

/-- What the reservation commits of one resource. -/
def towards (resource : Resource) (reservation : Reservation) : Int :=
  if reservation.resource = resource then reservation.cost reservation.qty else 0

structure Positive (reservation : Reservation) : Prop where
  price : 0 < reservation.priceTicks
  qty : 0 < reservation.qty

end Reservation

/-! ## Costs -/

theorem buyCost_sub (priceTicks whole part : Int) :
    buyCost priceTicks (whole - part) = buyCost priceTicks whole - buyCost priceTicks part := by
  simp only [buyCost]
  ring

theorem buyCost_nonneg {priceTicks qty : Int} (price : 0 ≤ priceTicks) (counted : 0 ≤ qty) :
    0 ≤ buyCost priceTicks qty := by
  simp only [buyCost, takerFeeBps, bpsDenominator]
  exact Int.mul_nonneg counted (by omega)

namespace Reservation

variable {reservation : Reservation}

theorem cost_sub (reservation : Reservation) (whole part : Int) :
    reservation.cost (whole - part) = reservation.cost whole - reservation.cost part := by
  unfold cost
  split
  · exact buyCost_sub ..
  · rfl

theorem cost_nonneg {qty : Int} (price : 0 ≤ reservation.priceTicks) (counted : 0 ≤ qty) :
    0 ≤ reservation.cost qty := by
  unfold cost
  split
  · exact buyCost_nonneg price counted
  · exact counted

theorem Positive.towards_nonneg (positive : reservation.Positive) (resource : Resource) :
    0 ≤ reservation.towards resource := by
  unfold towards
  split
  · exact cost_nonneg positive.price.le positive.qty.le
  · exact le_rfl

end Reservation

namespace RiskState

/-- What is held of a resource: `reserved` of cash, `reserved_qty` of units. -/
def held (risk : RiskState) : Resource → Int
  | .cash userId => risk.reserved.getD userId 0
  | .units userId symbolId => risk.reservedQty.getD (userId, symbolId) 0

/-- What there is of a resource. -/
def settled (risk : RiskState) : Resource → Int
  | .cash userId => risk.settledCash.getD userId 0
  | .units userId symbolId => risk.positions.getD (userId, symbolId) 0

/-- The open orders' reservations, by order id. -/
def opened (risk : RiskState) : Dict Int Reservation :=
  risk.openOrders.mapValues fun _ ref => risk.object ref

/-- The pending reservations, by user and client order id. -/
def waiting (risk : RiskState) : Dict (Int × Int) Reservation :=
  risk.pendingByClient.mapValues fun _ ref => risk.object ref

def committed (risk : RiskState) (resource : Resource) : Int :=
  risk.opened.total (fun _ reservation => reservation.towards resource) +
    risk.waiting.total fun _ reservation => reservation.towards resource

/-- What is held is what the open and the pending reservations commit. -/
def Exact (risk : RiskState) : Prop := ∀ resource, risk.held resource = risk.committed resource

/-- Where a reservation is kept. -/
inductive Slot where
  | opened (orderId : Int)
  | pending (key : Int × Int)
deriving DecidableEq

def slot (risk : RiskState) : Slot → Option Ref
  | .opened orderId => risk.openOrders.get? orderId
  | .pending key => risk.pendingByClient.get? key

/-- Every slot has an object of its own. -/
structure Sound (risk : RiskState) : Prop where
  allocated : ∀ slot ref, risk.slot slot = some ref → ref < risk.objects.size
  apart : ∀ first second ref, risk.slot first = some ref → risk.slot second = some ref →
    first = second

variable {risk : RiskState}

theorem new_sound (marketMakers : List Int) : (new marketMakers).Sound where
  allocated slot ref found := by cases slot <;> cases found
  apart first _ ref found := by cases first <;> cases found

theorem new_exact (marketMakers : List Int) : (new marketMakers).Exact := by
  intro resource
  cases resource <;> rfl

theorem get?_opened (risk : RiskState) (orderId : Int) :
    risk.opened.get? orderId = (risk.openOrders.get? orderId).map risk.object :=
  Dict.get?_mapValues ..

theorem get?_waiting (risk : RiskState) (key : Int × Int) :
    risk.waiting.get? key = (risk.pendingByClient.get? key).map risk.object :=
  Dict.get?_mapValues ..

/-! ## Committing -/

theorem held_commit (risk : RiskState) (reservation : Reservation) (resource : Resource) :
    (risk.commit reservation.userId reservation.symbolId reservation.side reservation.priceTicks
      reservation.qty).held resource = risk.held resource + reservation.towards resource := by
  unfold commit Reservation.towards Reservation.resource Reservation.cost
  cases resource with
  | cash userId =>
      split
      · simp only [held, Dict.getD_add, Resource.cash.injEq, eq_comm]
      · simp [held]
  | units userId symbolId =>
      split
      · simp [held]
      · simp only [held, Dict.getD_add, Resource.units.injEq, Prod.mk.injEq, eq_comm]

theorem settled_commit (risk : RiskState) (userId symbolId side priceTicks qty : Int)
    (resource : Resource) :
    (risk.commit userId symbolId side priceTicks qty).settled resource = risk.settled resource := by
  unfold commit
  split <;> cases resource <;> rfl

@[simp] theorem commit_objects (risk : RiskState) (userId symbolId side priceTicks qty : Int) :
    (risk.commit userId symbolId side priceTicks qty).objects = risk.objects := by
  unfold commit
  split <;> rfl

@[simp] theorem commit_openOrders (risk : RiskState) (userId symbolId side priceTicks qty : Int) :
    (risk.commit userId symbolId side priceTicks qty).openOrders = risk.openOrders := by
  unfold commit
  split <;> rfl

@[simp] theorem commit_pendingByClient (risk : RiskState)
    (userId symbolId side priceTicks qty : Int) :
    (risk.commit userId symbolId side priceTicks qty).pendingByClient = risk.pendingByClient := by
  unfold commit
  split <;> rfl

/-! ## A new reservation -/

section Place

variable {next : RiskState} {reservation : Reservation}

theorem Sound.object_alloc (sound : risk.Sound) (objects : next.objects = risk.objects.alloc reservation)
    (slot : Slot) {ref : Ref} (found : risk.slot slot = some ref) :
    next.object ref = risk.object ref := by
  rw [object, objects]
  exact Heap.read_alloc_of_lt reservation (sound.allocated slot ref found)

theorem object_fresh (objects : next.objects = risk.objects.alloc reservation) :
    next.object risk.objects.fresh = reservation := by
  rw [object, objects]
  exact Heap.read_alloc_fresh ..

/-- A slot taken by a new object. -/
theorem Sound.place (sound : risk.Sound) (objects : next.objects = risk.objects.alloc reservation)
    (target : Slot) (slots : ∀ slot, next.slot slot =
      if slot = target then some risk.objects.fresh else risk.slot slot) : next.Sound where
  allocated slot ref found := by
    rw [objects, Heap.size_alloc]
    rw [slots] at found
    split at found
    · cases found
      exact Nat.lt_succ_self _
    · exact Nat.lt_succ_of_lt (sound.allocated slot ref found)
  apart first second ref firstFound secondFound := by
    rw [slots] at firstFound secondFound
    split at firstFound
    · rename_i same
      cases firstFound
      split at secondFound
      · rename_i other
        rw [same, other]
      · exact absurd (sound.allocated second _ secondFound) (lt_irrefl _)
    · split at secondFound
      · cases secondFound
        exact absurd (sound.allocated first _ firstFound) (lt_irrefl _)
      · exact sound.apart first second ref firstFound secondFound

theorem Sound.opened_alloc (sound : risk.Sound)
    (objects : next.objects = risk.objects.alloc reservation)
    (openOrders : next.openOrders = risk.openOrders) : next.opened = risk.opened := by
  rw [opened, openOrders]
  exact Dict.mapValues_congr fun orderId ref found =>
    sound.object_alloc objects (.opened orderId) found

theorem Sound.opened_place (sound : risk.Sound)
    (objects : next.objects = risk.objects.alloc reservation) {orderId : Int}
    (openOrders : next.openOrders = risk.openOrders.set orderId risk.objects.fresh) :
    next.opened = risk.opened.set orderId reservation := by
  rw [opened, openOrders, Dict.mapValues_set, object_fresh objects, ← opened]
  exact fun other ref found _ => sound.object_alloc objects (.opened other) found

theorem Sound.waiting_alloc (sound : risk.Sound)
    (objects : next.objects = risk.objects.alloc reservation)
    (pending : next.pendingByClient = risk.pendingByClient) : next.waiting = risk.waiting := by
  rw [waiting, pending]
  exact Dict.mapValues_congr fun key ref found =>
    sound.object_alloc objects (.pending key) found

theorem Sound.waiting_place (sound : risk.Sound)
    (objects : next.objects = risk.objects.alloc reservation) {key : Int × Int}
    (pending : next.pendingByClient = risk.pendingByClient.set key risk.objects.fresh) :
    next.waiting = risk.waiting.set key reservation := by
  rw [waiting, pending, Dict.mapValues_set, object_fresh objects, ← waiting]
  exact fun other ref found _ => sound.object_alloc objects (.pending other) found

end Place

/-- Slots that each have the object of an earlier slot. -/
theorem Sound.move {next : RiskState} (sound : risk.Sound)
    (size : next.objects.size = risk.objects.size) (origin : Slot → Slot)
    (moved : ∀ slot ref, next.slot slot = some ref → risk.slot (origin slot) = some ref)
    (apart : ∀ first second, (next.slot first).isSome → (next.slot second).isSome →
      origin first = origin second → first = second) : next.Sound where
  allocated slot ref found := by
    rw [size]
    exact sound.allocated (origin slot) ref (moved slot ref found)
  apart first second ref firstFound secondFound := by
    refine apart first second (by rw [firstFound]; rfl) (by rw [secondFound]; rfl) ?_
    exact sound.apart _ _ ref (moved first ref firstFound) (moved second ref secondFound)

/-- Fewer slots, each with the object it had. -/
theorem Sound.keep {next : RiskState} (sound : risk.Sound)
    (size : next.objects.size = risk.objects.size)
    (slots : ∀ slot ref, next.slot slot = some ref → risk.slot slot = some ref) : next.Sound :=
  sound.move size id slots fun _ _ _ _ same => same

section Reserve

variable {next : RiskState} {userId clientOrderId symbolId side priceTicks qty : Int}

theorem reserve_eq_ok
    (reserved : risk.reserve userId clientOrderId symbolId side priceTicks qty = .ok next) :
    risk.rejectReasonFor userId symbolId side priceTicks qty = none ∧
      next = { risk.commit userId symbolId side priceTicks qty with
        objects := risk.objects.alloc ⟨userId, none, clientOrderId, symbolId, side, priceTicks, qty⟩
        pendingByClient := risk.pendingByClient.set (userId, clientOrderId) risk.objects.fresh } := by
  unfold reserve at reserved
  split at reserved
  · cases reserved
  · rename_i passed
    cases reserved
    exact ⟨passed, rfl⟩

theorem Sound.reserve (sound : risk.Sound)
    (reserved : risk.reserve userId clientOrderId symbolId side priceTicks qty = .ok next) :
    next.Sound ∧ next.opened = risk.opened ∧
      next.waiting = risk.waiting.set (userId, clientOrderId)
        ⟨userId, none, clientOrderId, symbolId, side, priceTicks, qty⟩ := by
  obtain ⟨-, rfl⟩ := reserve_eq_ok reserved
  refine ⟨sound.place rfl (.pending (userId, clientOrderId)) ?_,
    sound.opened_alloc rfl (commit_openOrders ..), sound.waiting_place rfl rfl⟩
  intro slot
  cases slot with
  | opened orderId =>
      simp only [slot, commit_openOrders, reduceCtorEq, if_false]
  | pending key =>
      simp only [slot, Dict.get?_set, Slot.pending.injEq]

theorem held_reserve
    (reserved : risk.reserve userId clientOrderId symbolId side priceTicks qty = .ok next)
    (resource : Resource) : next.held resource = risk.held resource +
      Reservation.towards resource
        ⟨userId, none, clientOrderId, symbolId, side, priceTicks, qty⟩ := by
  obtain ⟨-, rfl⟩ := reserve_eq_ok reserved
  rw [← held_commit]
  cases resource <;> rfl

theorem settled_reserve
    (reserved : risk.reserve userId clientOrderId symbolId side priceTicks qty = .ok next)
    (resource : Resource) : next.settled resource = risk.settled resource := by
  obtain ⟨-, rfl⟩ := reserve_eq_ok reserved
  rw [← settled_commit risk userId symbolId side priceTicks qty]
  cases resource <;> rfl

end Reserve

/-! ## Adopting -/

section Adopt

variable {accepted : OrderAccepted}

/-- The reservation of an order that nothing was pending for. -/
def replayed (accepted : OrderAccepted) : Reservation :=
  ⟨accepted.userId, some accepted.orderId, accepted.clientOrderId, accepted.symbolId,
    accepted.side, accepted.priceTicks, accepted.qty⟩

theorem settled_adopt (risk : RiskState) (accepted : OrderAccepted) (resource : Resource) :
    (risk.adopt accepted).settled resource = risk.settled resource := by
  unfold adopt
  split
  · rw [← settled_commit risk accepted.userId accepted.symbolId accepted.side accepted.priceTicks
      accepted.qty]
    cases resource <;> rfl
  · cases resource <;> rfl

theorem Sound.adopt_replayed (sound : risk.Sound)
    (absent : risk.waiting.get? (accepted.userId, accepted.clientOrderId) = none) :
    (risk.adopt accepted).Sound ∧
      (risk.adopt accepted).opened = risk.opened.set accepted.orderId (replayed accepted) ∧
      (risk.adopt accepted).waiting = risk.waiting ∧
      ∀ resource, (risk.adopt accepted).held resource =
        risk.held resource + (replayed accepted).towards resource := by
  rw [get?_waiting, Option.map_eq_none_iff] at absent
  unfold adopt
  simp only [absent]
  refine ⟨sound.place rfl (.opened accepted.orderId) ?_, sound.opened_place rfl rfl,
    sound.waiting_alloc rfl (commit_pendingByClient ..), ?_⟩
  · intro slot
    cases slot with
    | opened orderId =>
        simp only [slot, Dict.get?_set, Slot.opened.injEq]
    | pending key =>
        simp only [slot, commit_pendingByClient, reduceCtorEq, if_false]
  · intro resource
    rw [← held_commit]
    cases resource <;> rfl

theorem Sound.adopt_pending (sound : risk.Sound) {reservation : Reservation}
    (present : risk.waiting.get? (accepted.userId, accepted.clientOrderId) = some reservation) :
    (risk.adopt accepted).Sound ∧
      (risk.adopt accepted).opened = risk.opened.set accepted.orderId
        { reservation with orderId := some accepted.orderId } ∧
      (risk.adopt accepted).waiting =
        risk.waiting.erase (accepted.userId, accepted.clientOrderId) ∧
      ∀ resource, (risk.adopt accepted).held resource = risk.held resource := by
  rw [get?_waiting, Option.map_eq_some_iff] at present
  obtain ⟨ref, found, rfl⟩ := present
  have allocated := sound.allocated (.pending _) ref found
  have elsewhere : ∀ slot other, risk.slot slot = some other →
      slot ≠ .pending (accepted.userId, accepted.clientOrderId) → other ≠ ref := by
    rintro slot other present different rfl
    exact different (sound.apart slot (.pending _) other present found)
  unfold adopt
  simp only [found]
  refine ⟨sound.move (Heap.size_write ..) (fun slot =>
    if slot = .opened accepted.orderId then .pending (accepted.userId, accepted.clientOrderId)
    else slot) ?_ ?_, ?_, ?_, ?_⟩
  · intro slot other present
    split
    · rename_i here
      subst here
      simp only [RiskState.slot, Dict.get?_set_self] at present
      rw [← present]
      exact found
    · rename_i different
      cases slot with
      | opened orderId =>
          have away : orderId ≠ accepted.orderId := fun same => different (congrArg _ same)
          simpa only [RiskState.slot, Dict.get?_set_of_ne _ _ away] using present
      | pending key =>
          simp only [RiskState.slot, Dict.get?_erase] at present
          split at present
          · cases present
          · exact present
  · have gone : ∀ slot, (if slot = Slot.opened accepted.orderId then
        Slot.pending (accepted.userId, accepted.clientOrderId) else slot) =
        .pending (accepted.userId, accepted.clientOrderId) →
        (({ risk with
          objects := risk.objects.write ref { risk.object ref with
            orderId := some accepted.orderId }
          pendingByClient := risk.pendingByClient.erase (accepted.userId, accepted.clientOrderId)
          openOrders := risk.openOrders.set accepted.orderId ref }).slot slot).isSome →
        slot = .opened accepted.orderId := by
      intro slot same present
      split at same
      · assumption
      · subst same
        simp [RiskState.slot] at present
    intro first second firstPresent secondPresent same
    by_cases firstHere : first = .opened accepted.orderId
    · rw [if_pos firstHere] at same
      rw [firstHere, gone second same.symm secondPresent]
    · by_cases secondHere : second = .opened accepted.orderId
      · rw [if_pos secondHere] at same
        rw [secondHere, gone first same firstPresent]
      · rwa [if_neg firstHere, if_neg secondHere] at same
  · simp only [opened]
    rw [Dict.mapValues_set]
    · exact congrArg _ (Heap.read_write_self _ allocated)
    · intro orderId other present _
      exact Heap.read_write_of_ne _ _ (elsewhere (.opened orderId) other present (by simp))
  · simp only [waiting]
    refine Dict.mapValues_erase fun key other present different => ?_
    exact Heap.read_write_of_ne _ _ (elsewhere (.pending key) other present fun same =>
      different (Slot.pending.inj same))
  · intro resource
    cases resource <;> rfl

end Adopt

/-! ## Releasing -/

section Release

variable (bound : Int → Int)

@[simp] theorem releaseWith_objects (risk : RiskState) (reservation : Reservation) (qty : Int) :
    (risk.releaseWith bound reservation qty).objects = risk.objects := by
  unfold releaseWith
  split <;> rfl

@[simp] theorem releaseWith_openOrders (risk : RiskState) (reservation : Reservation) (qty : Int) :
    (risk.releaseWith bound reservation qty).openOrders = risk.openOrders := by
  unfold releaseWith
  split <;> rfl

@[simp] theorem releaseWith_pendingByClient (risk : RiskState) (reservation : Reservation)
    (qty : Int) :
    (risk.releaseWith bound reservation qty).pendingByClient = risk.pendingByClient := by
  unfold releaseWith
  split <;> rfl

theorem settled_releaseWith (risk : RiskState) (reservation : Reservation) (qty : Int)
    (resource : Resource) :
    (risk.releaseWith bound reservation qty).settled resource = risk.settled resource := by
  unfold releaseWith
  split <;> cases resource <;> rfl

theorem held_releaseWith (risk : RiskState) (reservation : Reservation) (qty : Int)
    (resource : Resource) :
    (risk.releaseWith bound reservation qty).held resource =
      if reservation.resource = resource then bound (risk.held resource - reservation.cost qty)
      else risk.held resource := by
  unfold releaseWith Reservation.resource Reservation.cost
  cases resource with
  | cash userId =>
      split
      · simp only [held, Dict.getD_set, Resource.cash.injEq]
        split
        · rename_i same
          rw [if_pos same.symm, same]
        · rename_i different
          rw [if_neg (Ne.symm different)]
      · simp [held]
  | units userId symbolId =>
      split
      · simp [held]
      · simp only [held, Dict.getD_set, Resource.units.injEq, Prod.mk.injEq]
        split
        · rename_i same
          rw [if_pos ⟨same.1.symm, same.2.symm⟩, same.1, same.2]
        · rename_i different
          rw [if_neg fun same => different ⟨same.1.symm, same.2.symm⟩]

/-- What a fill leaves of an open order. -/
def filledBy (qty : Int) (reservation : Reservation) : Option Reservation :=
  if bound (reservation.qty - qty) = 0 then none
  else some { reservation with qty := bound (reservation.qty - qty) }

theorem releaseFillWith_of_absent {orderId : Int} (qty : Int)
    (absent : risk.opened.get? orderId = none) : risk.releaseFillWith bound orderId qty = risk := by
  rw [get?_opened, Option.map_eq_none_iff] at absent
  unfold releaseFillWith
  rw [absent]

theorem Sound.releaseFillWith (sound : risk.Sound) {orderId : Int} (qty : Int)
    {reservation : Reservation} (present : risk.opened.get? orderId = some reservation) :
    (risk.releaseFillWith bound orderId qty).Sound ∧
      (risk.releaseFillWith bound orderId qty).opened =
        risk.opened.alter orderId (filledBy bound qty) ∧
      (risk.releaseFillWith bound orderId qty).waiting = risk.waiting ∧
      ∀ resource, (risk.releaseFillWith bound orderId qty).held resource =
        (risk.releaseWith bound reservation qty).held resource := by
  rw [get?_opened, Option.map_eq_some_iff] at present
  obtain ⟨ref, found, rfl⟩ := present
  have allocated := sound.allocated (.opened _) ref found
  have elsewhere : ∀ slot other, risk.slot slot = some other → slot ≠ .opened orderId →
      other ≠ ref := by
    rintro slot other present different rfl
    exact different (sound.apart slot (.opened _) other present found)
  unfold RiskState.releaseFillWith
  simp only [found]
  refine ⟨sound.keep (Heap.size_write ..) ?_, ?_, ?_, ?_⟩
  · intro slot other present
    cases slot with
    | opened other =>
        simp only [RiskState.slot, Dict.get?_alter] at present ⊢
        split at present
        · rename_i same
          subst same
          rw [found, Option.bind_some] at present
          split at present
          · cases present
          · rw [← present, found]
        · exact present
    | pending key => simpa [RiskState.slot] using present
  · simp only [opened]
    refine Dict.mapValues_alter ?_ ?_
    · intro other otherRef present different
      exact Heap.read_write_of_ne _ _ (elsewhere (.opened other) otherRef present fun same =>
        different (Slot.opened.inj same))
    · intro value same
      rw [found] at same
      cases same
      have written := Heap.read_write_self
        { risk.object ref with qty := bound ((risk.object ref).qty - qty) } allocated
      unfold filledBy
      split
      · rfl
      · exact congrArg some written
  · simp only [waiting, releaseWith_pendingByClient]
    refine Dict.mapValues_congr fun key other present => ?_
    exact Heap.read_write_of_ne _ _ (elsewhere (.pending key) other present (by simp))
  · intro resource
    cases resource <;> rfl

theorem settled_releaseFillWith (risk : RiskState) (orderId qty : Int) (resource : Resource) :
    (risk.releaseFillWith bound orderId qty).settled resource = risk.settled resource := by
  unfold releaseFillWith
  split
  · rfl
  · rename_i ref _
    rw [← settled_releaseWith bound risk (risk.object ref) qty]
    cases resource <;> rfl

theorem releaseRemainingWith_of_absent {orderId : Int}
    (absent : risk.opened.get? orderId = none) :
    risk.releaseRemainingWith bound orderId = risk := by
  rw [get?_opened, Option.map_eq_none_iff] at absent
  unfold releaseRemainingWith
  rw [absent]

theorem Sound.releaseRemainingWith (sound : risk.Sound) {orderId : Int} {reservation : Reservation}
    (present : risk.opened.get? orderId = some reservation) :
    (risk.releaseRemainingWith bound orderId).Sound ∧
      (risk.releaseRemainingWith bound orderId).opened = risk.opened.erase orderId ∧
      (risk.releaseRemainingWith bound orderId).waiting = risk.waiting ∧
      ∀ resource, (risk.releaseRemainingWith bound orderId).held resource =
        (risk.releaseWith bound reservation reservation.qty).held resource := by
  rw [get?_opened, Option.map_eq_some_iff] at present
  obtain ⟨ref, found, rfl⟩ := present
  unfold RiskState.releaseRemainingWith
  simp only [found]
  refine ⟨sound.keep ?_ ?_, ?_, ?_, ?_⟩
  · rw [releaseWith_objects]
  · intro slot other present
    cases slot with
    | opened other =>
        simp only [RiskState.slot, releaseWith_openOrders, Dict.get?_erase] at present ⊢
        split at present
        · cases present
        · exact present
    | pending key => simpa only [RiskState.slot, releaseWith_pendingByClient] using present
  · simp only [opened, releaseWith_openOrders, object, releaseWith_objects]
    exact Dict.mapValues_erase fun _ _ _ _ => rfl
  · simp only [waiting, releaseWith_pendingByClient, object, releaseWith_objects]
  · intro resource
    rw [held_releaseWith, held_releaseWith]
    cases resource <;> rfl

theorem settled_releaseRemainingWith (risk : RiskState) (orderId : Int) (resource : Resource) :
    (risk.releaseRemainingWith bound orderId).settled resource = risk.settled resource := by
  unfold releaseRemainingWith
  split
  · rfl
  · rw [settled_releaseWith]
    cases resource <;> rfl

end Release

/-! ## Abandoning -/

/-- Giving up a reservation that is still pending. -/
theorem Sound.abandon (sound : risk.Sound) {ref : Ref}
    (own : risk.pendingByClient.get? ((risk.object ref).userId, (risk.object ref).clientOrderId) =
      some ref) :
    (risk.abandon ref).Sound ∧ (risk.abandon ref).opened = risk.opened ∧
      (risk.abandon ref).waiting =
        risk.waiting.erase ((risk.object ref).userId, (risk.object ref).clientOrderId) ∧
      ∀ resource, (risk.abandon ref).held resource =
        (risk.release (risk.object ref) (risk.object ref).qty).held resource := by
  unfold RiskState.abandon
  simp only [own, if_true, release]
  refine ⟨sound.keep ?_ ?_, ?_, ?_, ?_⟩
  · rw [releaseWith_objects]
  · intro slot other present
    cases slot with
    | opened other => simpa only [RiskState.slot, releaseWith_openOrders] using present
    | pending key =>
        simp only [RiskState.slot, releaseWith_pendingByClient, Dict.get?_erase] at present ⊢
        split at present
        · cases present
        · exact present
  · simp only [opened, releaseWith_openOrders, object, releaseWith_objects]
  · simp only [waiting, releaseWith_pendingByClient, object, releaseWith_objects]
    exact Dict.mapValues_erase fun _ _ _ _ => rfl
  · intro resource
    rw [held_releaseWith, held_releaseWith]
    cases resource <;> rfl

theorem settled_abandon (risk : RiskState) (ref : Ref) (resource : Resource) :
    (risk.abandon ref).settled resource = risk.settled resource := by
  unfold abandon release
  simp only
  rw [settled_releaseWith]
  split <;> cases resource <;> rfl

/-! ## What no reservation changes -/

/-- The place on the stream and the market makers stay. -/
def SamePlace (left right : RiskState) : Prop :=
  left.lastSeq = right.lastSeq ∧ left.marketMakers = right.marketMakers

theorem samePlace_commit (risk : RiskState) (userId symbolId side priceTicks qty : Int) :
    (risk.commit userId symbolId side priceTicks qty).SamePlace risk := by
  unfold commit
  split <;> exact ⟨rfl, rfl⟩

theorem samePlace_reserve {next : RiskState} {userId clientOrderId symbolId side priceTicks qty : Int}
    (reserved : risk.reserve userId clientOrderId symbolId side priceTicks qty = .ok next) :
    next.SamePlace risk := by
  obtain ⟨-, rfl⟩ := reserve_eq_ok reserved
  exact samePlace_commit risk userId symbolId side priceTicks qty

theorem samePlace_releaseWith (bound : Int → Int) (risk : RiskState) (reservation : Reservation)
    (qty : Int) : (risk.releaseWith bound reservation qty).SamePlace risk := by
  unfold releaseWith
  split <;> exact ⟨rfl, rfl⟩

theorem samePlace_releaseFillWith (bound : Int → Int) (risk : RiskState) (orderId qty : Int) :
    (risk.releaseFillWith bound orderId qty).SamePlace risk := by
  unfold releaseFillWith
  split
  · exact ⟨rfl, rfl⟩
  · exact samePlace_releaseWith bound risk _ qty

theorem samePlace_releaseRemainingWith (bound : Int → Int) (risk : RiskState) (orderId : Int) :
    (risk.releaseRemainingWith bound orderId).SamePlace risk := by
  unfold releaseRemainingWith
  split
  · exact ⟨rfl, rfl⟩
  · exact samePlace_releaseWith bound _ _ _

theorem samePlace_abandon (risk : RiskState) (ref : Ref) : (risk.abandon ref).SamePlace risk := by
  unfold abandon release
  simp only
  refine ⟨(samePlace_releaseWith clamped _ _ _).1.trans ?_,
    (samePlace_releaseWith clamped _ _ _).2.trans ?_⟩
  · split <;> rfl
  · split <;> rfl

theorem samePlace_applyWith (bound : Int → Int) (risk : RiskState) (record : Outbound) :
    (risk.applyWith bound record).SamePlace risk := by
  cases record with
  | orderAccepted accepted =>
      simp only [applyWith, adopt]
      split
      · exact samePlace_commit risk _ _ _ _ _
      · exact ⟨rfl, rfl⟩
  | fill fill =>
      obtain ⟨second, secondMakers⟩ := samePlace_releaseFillWith bound
        ((risk.settle fill).releaseFillWith bound fill.makerOrderId fill.qty) fill.takerOrderId
        fill.qty
      obtain ⟨first, firstMakers⟩ :=
        samePlace_releaseFillWith bound (risk.settle fill) fill.makerOrderId fill.qty
      exact ⟨second.trans first, secondMakers.trans firstMakers⟩
  | orderCancelled cancelled => exact samePlace_releaseRemainingWith bound risk _
  | accountCreated _ => exact ⟨rfl, rfl⟩
  | cashCredited _ => exact ⟨rfl, rfl⟩
  | orderRejected _ => exact ⟨rfl, rfl⟩
  | bookChanged _ => exact ⟨rfl, rfl⟩
  | replayConfigured _ => exact ⟨rfl, rfl⟩

theorem lastSeq_apply (risk : RiskState) (record : Outbound) (streamId : StreamId) :
    (risk.apply record (some streamId)).lastSeq = streamId :=
  (samePlace_applyWith clamped { risk with lastSeq := streamId } record).1

theorem marketMakers_apply (risk : RiskState) (record : Outbound) (streamId : Option StreamId) :
    (risk.apply record streamId).marketMakers = risk.marketMakers :=
  (samePlace_applyWith clamped { risk with lastSeq := streamId.getD risk.lastSeq } record).2

/-! ## What is settled, and who waits -/

/-- Cash and positions are the same, entry by entry. -/
def SameFunds (left right : RiskState) : Prop :=
  left.settledCash = right.settledCash ∧ left.positions = right.positions

theorem sameFunds_commit (risk : RiskState) (userId symbolId side priceTicks qty : Int) :
    (risk.commit userId symbolId side priceTicks qty).SameFunds risk := by
  unfold commit
  split <;> exact ⟨rfl, rfl⟩

theorem sameFunds_adopt (risk : RiskState) (accepted : OrderAccepted) :
    (risk.adopt accepted).SameFunds risk := by
  unfold adopt
  split
  · exact sameFunds_commit risk _ _ _ _ _
  · exact ⟨rfl, rfl⟩

theorem sameFunds_releaseWith (bound : Int → Int) (risk : RiskState) (reservation : Reservation)
    (qty : Int) : (risk.releaseWith bound reservation qty).SameFunds risk := by
  unfold releaseWith
  split <;> exact ⟨rfl, rfl⟩

theorem sameFunds_releaseFillWith (bound : Int → Int) (risk : RiskState) (orderId qty : Int) :
    (risk.releaseFillWith bound orderId qty).SameFunds risk := by
  unfold releaseFillWith
  split
  · exact ⟨rfl, rfl⟩
  · exact sameFunds_releaseWith bound risk _ qty

theorem sameFunds_releaseRemainingWith (bound : Int → Int) (risk : RiskState) (orderId : Int) :
    (risk.releaseRemainingWith bound orderId).SameFunds risk := by
  unfold releaseRemainingWith
  split
  · exact ⟨rfl, rfl⟩
  · exact sameFunds_releaseWith bound _ _ _

/-- A fill settles; what it releases is not settled cash or a position. -/
theorem sameFunds_applyWith_fill (bound : Int → Int) (risk : RiskState) (fill : Fill) :
    (risk.applyWith bound (.fill fill)).SameFunds (risk.settle fill) := by
  obtain ⟨second, secondPositions⟩ := sameFunds_releaseFillWith bound
    ((risk.settle fill).releaseFillWith bound fill.makerOrderId fill.qty) fill.takerOrderId fill.qty
  obtain ⟨first, firstPositions⟩ :=
    sameFunds_releaseFillWith bound (risk.settle fill) fill.makerOrderId fill.qty
  exact ⟨second.trans first, secondPositions.trans firstPositions⟩

theorem pendingByClient_releaseFillWith (bound : Int → Int) (risk : RiskState) (orderId qty : Int) :
    (risk.releaseFillWith bound orderId qty).pendingByClient = risk.pendingByClient := by
  unfold releaseFillWith
  split
  · rfl
  · exact releaseWith_pendingByClient ..

/-- Only an acceptance takes a pending reservation: the one under its own key. -/
theorem pendingByClient_applyWith (bound : Int → Int) (risk : RiskState) (record : Outbound) :
    (risk.applyWith bound record).pendingByClient = match record with
      | .orderAccepted accepted =>
          risk.pendingByClient.erase (accepted.userId, accepted.clientOrderId)
      | _ => risk.pendingByClient := by
  cases record with
  | orderAccepted accepted =>
      simp only [applyWith, adopt]
      split
      · rename_i absent
        rw [Dict.erase_eq_self absent]
        exact commit_pendingByClient ..
      · rfl
  | fill fill =>
      simp only [applyWith, pendingByClient_releaseFillWith]
      rfl
  | orderCancelled cancelled =>
      simp only [applyWith, releaseRemainingWith]
      split
      · rfl
      · exact releaseWith_pendingByClient ..
  | _ => rfl

end RiskState

end QuantArena.Gateway
