import QuantArena.Engine.Cpp.StreamEngineRestore
import QuantArena.Foundations.Lockstep
import QuantArena.Matcher.SnapshotProperties

/-! The snapshot codec on snapshots and byte strings that no engine need have written: what
`pack` writes of a snapshot in any order, and that both engines take the same byte strings
and make the same engine of them. -/

set_option autoImplicit false

namespace QuantArena.Matcher

open Foundations Foundations.Bytes Foundations.PriceTime Contracts Exchange
open Engine.Cpp (StreamEngine)

/-! ## Writing -/

namespace EngineSnapshot

/-- The orders as `pack` lays them out. -/
def sorted (snapshot : EngineSnapshot) : EngineSnapshot :=
  { snapshot with orders := snapshot.orders.mergeSort fun left right => left.orderId ≤ right.orderId }

/-- Every order has an id of its own that the engine has issued. -/
structure Issued (snapshot : EngineSnapshot) : Prop where
  distinct : (snapshot.orders.map (·.orderId)).Nodup
  positive : ∀ order ∈ snapshot.orders, 0 < order.orderId
  below : ∀ order ∈ snapshot.orders, order.orderId < snapshot.nextOrderId

theorem sorted_perm (snapshot : EngineSnapshot) : snapshot.sorted.orders.Perm snapshot.orders :=
  List.mergeSort_perm _ _

theorem mem_sorted {snapshot : EngineSnapshot} {order : SnapshotOrder} :
    order ∈ snapshot.sorted.orders ↔ order ∈ snapshot.orders :=
  snapshot.sorted_perm.mem_iff

theorem Issued.sorted {snapshot : EngineSnapshot} (issued : snapshot.Issued) :
    snapshot.sorted.Ordered where
  positive order member := issued.positive order (mem_sorted.mp member)
  issued order member := issued.below order (mem_sorted.mp member)
  ascending := by
    have rising : snapshot.sorted.orders.Pairwise fun left right =>
        decide (left.orderId ≤ right.orderId) = true :=
      List.pairwise_mergeSort
        (fun first second third => by
          simp only [decide_eq_true_eq]
          exact le_trans)
        (fun left right => by
          simp only [Bool.or_eq_true, decide_eq_true_eq]
          exact le_total _ _) _
    have apart : (snapshot.sorted.orders.map (·.orderId)).Nodup :=
      (snapshot.sorted_perm.map _).nodup_iff.mpr issued.distinct
    exact (rising.and (List.pairwise_map.mp apart)).imp fun both =>
      lt_of_le_of_ne (of_decide_eq_true both.1) both.2

theorem fits_sorted {snapshot : EngineSnapshot} : snapshot.sorted.Fits ↔ snapshot.Fits := by
  constructor
  · intro fits
    exact ⟨fits.nextOrderId, snapshot.sorted_perm.length_eq ▸ fits.count,
      fun order member => fits.orders order (mem_sorted.mpr member)⟩
  · intro fits
    exact ⟨fits.nextOrderId, snapshot.sorted_perm.length_eq ▸ fits.count,
      fun order member => fits.orders order (mem_sorted.mp member)⟩

theorem pack_sorted {snapshot : EngineSnapshot} (issued : snapshot.Issued) :
    snapshot.pack = snapshot.sorted.pack := by
  have again : (snapshot.sorted.orders.mergeSort fun left right => left.orderId ≤ right.orderId) =
      snapshot.sorted.orders :=
    List.mergeSort_of_pairwise (issued.sorted.ascending.imp fun before => decide_eq_true before.le)
  simp only [pack, again]
  rfl

/-- What `pack` writes, and that `unpack` reads it back. -/
theorem Issued.pack_eq_ok {snapshot : EngineSnapshot} (issued : snapshot.Issued)
    {bytes : List UInt8} :
    snapshot.pack = .ok bytes ↔ snapshot.Fits ∧ bytes = snapshot.sorted.layout := by
  rw [pack_sorted issued, EngineSnapshot.pack_eq_ok issued.sorted, fits_sorted]

theorem Issued.unpack_pack {snapshot : EngineSnapshot} (issued : snapshot.Issued)
    {bytes : List UInt8} (packed : snapshot.pack = .ok bytes) :
    unpack bytes = .ok snapshot.sorted := by
  obtain ⟨fits, rfl⟩ := issued.pack_eq_ok.mp packed
  exact unpack_layout issued.sorted (fits_sorted.mpr fits)

end EngineSnapshot

/-! ## Reading -/

/-- The orders that a byte string lays out, whatever their ids. -/
def readOrders : Nat → List UInt8 → List SnapshotOrder
  | 0, _ => []
  | count + 1, data =>
      (SnapshotOrder.unpack data).1 :: readOrders count (SnapshotOrder.unpack data).2

/-- Ids that ascend between two bounds. -/
def Ascends (nextOrderId : Int) : Int → List SnapshotOrder → Prop
  | _, [] => True
  | previous, order :: rest =>
      previous < order.orderId ∧ order.orderId < nextOrderId ∧ Ascends nextOrderId order.orderId rest

/-- An order that a book can take. -/
structure Takeable (order : SnapshotOrder) : Prop where
  side : (sideOf? order.side).isSome
  priced : 0 < order.priceTicks
  counted : 0 < order.remainingQty

theorem unpackOrders_eq_ok {count : Nat} {data : List UInt8} {previous nextOrderId : Int}
    {orders : List SnapshotOrder} :
    EngineSnapshot.unpackOrders count data previous nextOrderId = .ok orders ↔
      orders = readOrders count data ∧ Ascends nextOrderId previous (readOrders count data) := by
  induction count generalizing data previous orders with
  | zero => simp [EngineSnapshot.unpackOrders, readOrders, Ascends, eq_comm]
  | succ count ih =>
      simp only [EngineSnapshot.unpackOrders, readOrders, Ascends]
      split
      · rename_i outside
        constructor
        · intro impossible
          cases impossible
        · rintro ⟨-, above, below, -⟩
          omega
      · rename_i inside
        simp only [Fault.bind_eq_ok, ih, Except.ok.injEq]
        constructor
        · rintro ⟨rest, ⟨rfl, ascends⟩, rfl⟩
          exact ⟨rfl, by omega, by omega, ascends⟩
        · rintro ⟨rfl, -, -, ascends⟩
          exact ⟨_, ⟨rfl, ascends⟩, rfl⟩

theorem ofLittle_lt (bytes : List UInt8) : ofLittle bytes < 256 ^ bytes.length := by
  induction bytes with
  | nil => decide
  | cons byte rest ih =>
      have low := byte.toNat_lt
      rw [ofLittle, List.length_cons, Nat.pow_succ]
      omega

/-- An unsigned field read off any bytes. -/
theorem unsigned_fits (width : Nat) (data : List UInt8) :
    0 ≤ (ofLittle (data.take width) : Int) ∧ (ofLittle (data.take width) : Int) < 256 ^ width := by
  have bounded : ofLittle (data.take width) < 256 ^ width :=
    (ofLittle_lt _).trans_le (Nat.pow_le_pow_right (by decide) (List.length_take_le _ _))
  exact ⟨Int.natCast_nonneg _, by exact_mod_cast bounded⟩

theorem signed_fits {width : Nat} (wide : width ≠ 0) (value : Int) :
    -(256 ^ width / 2) ≤ signed width value ∧ signed width value < 256 ^ width / 2 := by
  obtain ⟨half, halfEq⟩ : ∃ half : Int, (256 : Int) ^ width = 2 * half := by
    obtain ⟨less, rfl⟩ := Nat.exists_eq_succ_of_ne_zero wide
    exact ⟨128 * 256 ^ less, by rw [pow_succ]; ring⟩
  have positive : (0 : Int) < 256 ^ width := by positivity
  have nonneg := Int.emod_nonneg value positive.ne'
  have below := Int.emod_lt_of_pos value positive
  have middle : (256 : Int) ^ width / 2 = half := by
    rw [halfEq]
    exact Int.mul_ediv_cancel_left half (by decide)
  rw [signed, middle]
  split <;> omega

/-- What the layout holds fits the layout. -/
theorem SnapshotOrder.unpack_fits (data : List UInt8) : (SnapshotOrder.unpack data).1.Fits := by
  have narrow : (2 : Nat) ≠ 0 := by decide
  have wide : (8 : Nat) ≠ 0 := by decide
  constructor <;> dsimp only [SnapshotOrder.unpack, takeUnsigned, takeSigned]
  · exact unsigned_fits 8 _
  · exact unsigned_fits 8 _
  · exact unsigned_fits 8 _
  · exact signed_fits narrow _
  · exact unsigned_fits 1 _
  · exact signed_fits wide _
  · exact signed_fits wide _
  · exact signed_fits wide _

theorem length_unpack (data : List UInt8) :
    (SnapshotOrder.unpack data).2.length = data.length - orderSize := by
  simp only [SnapshotOrder.unpack, takeUnsigned, takeSigned, List.length_drop, orderSize]
  omega

/-- The order as the market holds it. -/
def revived (order : SnapshotOrder) : LiveOrder where
  id := order.orderId
  side := (sideOf? order.side).getD .buy
  price := order.priceTicks
  remaining := order.remainingQty
  ticket := ⟨order.clientOrderId, order.userId, order.symbolId, order.createdAtNs⟩

theorem Takeable.sideCode {order : SnapshotOrder} (takeable : Takeable order) :
    sideCode (revived order).side = order.side := by
  obtain ⟨side, named⟩ := Option.isSome_iff_exists.mp takeable.side
  have code := sideOf?_eq_some_iff.mp named
  rw [revived, named, code]
  rfl

theorem revived_fits {order : SnapshotOrder} (takeable : Takeable order) (fits : order.Fits)
    (market : Market) : (marketOrder market (revived order)).Fits where
  orderId := fits.orderId
  clientOrderId := fits.clientOrderId
  userId := fits.userId
  symbolId := fits.symbolId
  side := by
    have own := fits.side
    rwa [← takeable.sideCode] at own
  priceTicks := fits.priceTicks
  remainingQty := fits.remainingQty
  createdAtNs := fits.createdAtNs

/-- What putting an order back does to the index. -/
def flagged (order : SnapshotOrder) (indexed : Int × Int → Option Int) : Int × Int → Option Int :=
  if order.indexed then Function.update indexed (key (revived order)) (some order.orderId)
  else indexed

namespace NaiveMatcher

theorem restoreOrder_takeable {matcher after : NaiveMatcher} {order : SnapshotOrder}
    (restored : matcher.restoreOrder order = .ok after) : Takeable order := by
  rw [restoreOrder, Fault.bind_eq_ok] at restored
  obtain ⟨side, named, restored⟩ := restored
  obtain ⟨modelOrder, created, -⟩ := Fault.bind_eq_ok.mp restored
  rw [Engine.NaiveModel.Order.new] at created
  split at created
  · cases created
  · split at created
    · cases created
    · cases sided : sideOf? order.side with
      | none =>
          rw [sided] at named
          cases named
      | some _ => exact ⟨by rw [sided]; rfl, by omega, by omega⟩

end NaiveMatcher

/-- `StreamEngine.restoreOrder` of the fields of an order. -/
def putBack (engine : StreamEngine) (order : SnapshotOrder) : Except Fault StreamEngine :=
  engine.restoreOrder order.orderId order.clientOrderId order.userId order.symbolId order.side
    order.indexed order.priceTicks order.remainingQty order.createdAtNs

theorem putBack_positive {engine after : StreamEngine} {order : SnapshotOrder}
    (restored : putBack engine order = .ok after) : 0 < order.priceTicks ∧ 0 < order.remainingQty := by
  obtain ⟨created, made, -⟩ := Fault.bind_eq_ok.mp restored
  rw [Engine.Cpp.Order.new] at made
  split at made
  · cases made
  · split at made
    · cases made
    · exact ⟨by omega, by omega⟩

theorem side_named {code : Int} :
    ¬ (code ≠ sideCode .buy ∧ code ≠ sideCode .sell) ↔ (sideOf? code).isSome := by
  by_cases buys : code = 1
  · simp [sideOf?, sideCode, buys]
  · by_cases sells : code = 2
    · simp [sideOf?, sideCode, sells]
    · simp [sideOf?, sideCode, buys, sells]

theorem getLe_enough {data : List UInt8} {width : Nat} (enough : width ≤ data.length) :
    StreamEngine.getLe data width = .ok (takeUnsigned width data) := by
  rw [StreamEngine.getLe, if_neg (by omega)]

/-- A round of the C++ loop reads an order as `unpack` does. -/
theorem restoreOrders_succ {count : Nat} {data : List UInt8} (enough : orderSize ≤ data.length)
    (previous nextOrderId : Int) (engine : StreamEngine) :
    StreamEngine.restoreOrders (count + 1) data previous nextOrderId engine =
      if (SnapshotOrder.unpack data).1.orderId ≤ previous ∨
          (SnapshotOrder.unpack data).1.orderId ≥ nextOrderId then
        .error (.raised "engine snapshot orders are not ascending below next_order_id")
      else if (SnapshotOrder.unpack data).1.side ≠ sideCode .buy ∧
          (SnapshotOrder.unpack data).1.side ≠ sideCode .sell then
        .error (.raised "engine snapshot order has an invalid side")
      else putBack engine (SnapshotOrder.unpack data).1 >>= fun engine =>
        StreamEngine.restoreOrders count (SnapshotOrder.unpack data).2
          (SnapshotOrder.unpack data).1.orderId nextOrderId engine := by
  unfold orderSize at enough
  rw [StreamEngine.restoreOrders]
  simp only [getLe_enough, SnapshotOrder.unpack, takeUnsigned, takeSigned, putBack,
    List.length_drop, Fault.ok_bind,
    show 8 ≤ data.length by omega, show 8 ≤ data.length - 8 by omega,
    show 8 ≤ data.length - 8 - 8 by omega, show 2 ≤ data.length - 8 - 8 - 8 by omega,
    show 1 ≤ data.length - 8 - 8 - 8 - 2 by omega, show 1 ≤ data.length - 8 - 8 - 8 - 2 - 1 by omega,
    show 8 ≤ data.length - 8 - 8 - 8 - 2 - 1 - 1 by omega,
    show 8 ≤ data.length - 8 - 8 - 8 - 2 - 1 - 1 - 8 by omega,
    show 8 ≤ data.length - 8 - 8 - 8 - 2 - 1 - 1 - 8 - 8 by omega]
  congr 1

theorem restoreOrders_ascends {count : Nat} :
    ∀ {data : List UInt8} {previous nextOrderId : Int} {engine after : StreamEngine},
      data.length = count * orderSize →
      StreamEngine.restoreOrders count data previous nextOrderId engine = .ok after →
      Ascends nextOrderId previous (readOrders count data) := by
  induction count with
  | zero => exact fun _ _ => trivial
  | succ count ih =>
      intro data previous nextOrderId engine after whole restored
      rw [Nat.succ_mul] at whole
      rw [restoreOrders_succ (by omega)] at restored
      split at restored
      · cases restored
      · split at restored
        · cases restored
        · obtain ⟨middle, -, later⟩ := Fault.bind_eq_ok.mp restored
          have rest : (SnapshotOrder.unpack data).2.length = count * orderSize := by
            rw [length_unpack]
            omega
          exact ⟨by omega, by omega, ih rest later⟩

/-! ## Both engines in step -/

/-- Both engines hold the same orders, all of which came off the layout. -/
structure InStep (matcher : NaiveMatcher) (engine : StreamEngine) (nextOrderId previous : Int)
    (live : List LiveOrder) (indexed : Int × Int → Option Int) : Prop where
  represents : matcher.Represents ⟨⟨nextOrderId, live⟩, indexed⟩
  holds : engine.Holds ⟨⟨previous + 1, live⟩, indexed⟩
  wellFormed : WellFormed live
  bounds : ∀ order ∈ live, 0 < order.id ∧ order.id ≤ previous ∧ order.id < nextOrderId
  fits : ∀ order ∈ live, ∀ market, (marketOrder market order).Fits

namespace InStep

variable {matcher : NaiveMatcher} {engine : StreamEngine} {nextOrderId previous : Int}
  {live : List LiveOrder} {indexed : Int × Int → Option Int} {order : SnapshotOrder}

theorem fresh (nextOrderId cashTicks startCashTicks : Int) :
    InStep (.new nextOrderId cashTicks) (.new startCashTicks) nextOrderId 0 [] fun _ => none where
  represents := NaiveMatcher.new_represents _ _
  holds := (StreamEngine.new_represents _).holds
  wellFormed := ⟨by simp, List.Pairwise.nil⟩
  bounds := by simp
  fits := by simp

/-- An order that both take leaves them in step. -/
theorem putBack (inStep : InStep matcher engine nextOrderId previous live indexed)
    (fits : order.Fits) (takeable : Takeable order) (started : 0 ≤ previous)
    (newer : previous < order.orderId) (below : order.orderId < nextOrderId) :
    ∃ matcherAfter engineAfter, matcher.restoreOrder order = .ok matcherAfter ∧
      Matcher.putBack engine order = .ok engineAfter ∧
      InStep matcherAfter engineAfter nextOrderId order.orderId (live ++ [revived order])
        (flagged order indexed) := by
  have older : ∀ other ∈ live, other.id < order.orderId :=
    fun other member => (inStep.bounds other member).2.1.trans_lt newer
  have wellFormed : WellFormed (live ++ [revived order]) := by
    refine ⟨fun other member => ?_, List.pairwise_append.mpr ⟨inStep.wellFormed.arrival,
      List.pairwise_singleton .., fun other member last new => ?_⟩⟩
    · cases List.mem_append.mp member with
      | inl old => exact inStep.wellFormed.positive other old
      | inr new =>
          rw [List.mem_singleton.mp new]
          exact takeable.counted
    · rw [List.mem_singleton.mp new]
      exact older other member
  obtain ⟨matcherAfter, restored, -, represents⟩ := NaiveMatcher.restoreOrder_ok inStep.represents
    (revived order) order.indexed wellFormed takeable.priced
  obtain ⟨engineAfter, entered, -, holds⟩ := StreamEngine.restoreOrder_ok inStep.holds
    (fun other member => Int.lt_add_one_of_le (inStep.bounds other member).2.1)
    (show previous + 1 ≤ (revived order).id from newer) fits.orderId takeable.priced
    takeable.counted order.indexed
  rw [takeable.sideCode] at restored entered
  refine ⟨matcherAfter, engineAfter, restored, entered, represents, holds, wellFormed, ?_, ?_⟩
  · intro other member
    cases List.mem_append.mp member with
    | inl old =>
        have bounds := inStep.bounds other old
        exact ⟨bounds.1, (older other old).le, bounds.2.2⟩
    | inr new =>
        rw [List.mem_singleton.mp new]
        exact ⟨started.trans_lt newer, le_rfl, below⟩
  · intro other member
    cases List.mem_append.mp member with
    | inl old => exact inStep.fits other old
    | inr new =>
        rw [List.mem_singleton.mp new]
        exact revived_fits takeable fits

/-- The loops of both engines over the same bytes. -/
theorem restoreOrders {count : Nat} :
    ∀ {data : List UInt8} {matcher : NaiveMatcher} {engine : StreamEngine} {previous : Int}
      {live : List LiveOrder} {indexed : Int × Int → Option Int},
      InStep matcher engine nextOrderId previous live indexed → 0 ≤ previous →
      data.length = count * orderSize → Ascends nextOrderId previous (readOrders count data) →
      Alike (fun matcher engine => ∃ last orders indexed,
          orders.length = live.length + count ∧ InStep matcher engine nextOrderId last orders indexed)
        (matcher.restoreOrders (readOrders count data))
        (StreamEngine.restoreOrders count data previous nextOrderId engine) := by
  induction count with
  | zero =>
      intro data matcher engine previous live indexed inStep _ _ _
      exact ⟨previous, live, indexed, rfl, inStep⟩
  | succ count ih =>
      intro data matcher engine previous live indexed inStep started whole ascends
      rw [Nat.succ_mul] at whole
      obtain ⟨newer, below, later⟩ := ascends
      have rest : (SnapshotOrder.unpack data).2.length = count * orderSize := by
        rw [length_unpack]
        omega
      rw [readOrders, NaiveMatcher.restoreOrders, restoreOrders_succ (by omega), if_neg (by omega)]
      by_cases takeable : Takeable (SnapshotOrder.unpack data).1
      · obtain ⟨matcherAfter, engineAfter, restored, entered, after⟩ :=
          inStep.putBack (SnapshotOrder.unpack_fits data) takeable started newer below
        rw [restored, Fault.ok_bind, if_neg (side_named.mpr takeable.side), entered, Fault.ok_bind]
        refine (ih after (by omega) rest later).mono fun _ _ done => ?_
        obtain ⟨last, orders, index, counted, done⟩ := done
        exact ⟨last, orders, index, by simp at counted; omega, done⟩
      · -- Neither takes it: the naive side reports its name or its numbers, the other side its own.
        apply Alike.raised
        · intro final returned
          obtain ⟨middle, restored, -⟩ := Fault.bind_eq_ok.mp returned
          exact takeable (NaiveMatcher.restoreOrder_takeable restored)
        · intro final returned
          split at returned
          · cases returned
          · rename_i sided
            obtain ⟨middle, entered, -⟩ := Fault.bind_eq_ok.mp returned
            have positive := putBack_positive entered
            exact takeable ⟨side_named.mp sided, positive.1, positive.2⟩

/-- Engines in step write the same snapshot. -/
theorem snapshots (inStep : InStep matcher engine nextOrderId previous live indexed)
    (next : 0 ≤ nextOrderId ∧ nextOrderId < 256 ^ 8) (counted : (live.length : Int) < 256 ^ 4) :
    ∃ bytes, matcher.snapshot = .ok bytes ∧
      ({ engine with nextOrderId } : StreamEngine).snapshot = .ok bytes := by
  have ordered : (marketSnapshot ⟨⟨nextOrderId, live⟩, indexed⟩).Ordered := by
    refine ⟨?_, ?_, List.pairwise_map.mpr inStep.wellFormed.arrival⟩
    · intro order member
      obtain ⟨other, inside, rfl⟩ := List.mem_map.mp member
      exact (inStep.bounds other inside).1
    · intro order member
      obtain ⟨other, inside, rfl⟩ := List.mem_map.mp member
      exact (inStep.bounds other inside).2.2
  have fits : (marketSnapshot ⟨⟨nextOrderId, live⟩, indexed⟩).Fits := by
    refine ⟨next, by simpa [marketSnapshot] using counted, fun order member => ?_⟩
    obtain ⟨other, inside, rfl⟩ := List.mem_map.mp member
    exact inStep.fits other inside _
  have holds : ({ engine with nextOrderId } : StreamEngine).Holds ⟨⟨previous + 1, live⟩, indexed⟩ :=
    ⟨⟨inStep.holds.live, inStep.holds.index⟩, inStep.holds.books⟩
  exact ⟨_, inStep.represents.snapshot_eq.trans
    ((EngineSnapshot.pack_eq_ok ordered).mpr ⟨fits, rfl⟩), holds.snapshot_eq⟩

end InStep

/-! ## The codec -/

/-- Two engines that emit the same bytes. -/
def EmitAlike (matcher : NaiveMatcher) (engine : StreamEngine) : Prop :=
  ∃ bytes, matcher.snapshot = .ok bytes ∧ engine.snapshot = .ok bytes

/-- Too short for its header: neither reads on. -/
theorem restore_short {data : List UInt8} (short : data.length < headSize)
    (naiveCashTicks cashTicks : Int) :
    Alike EmitAlike (NaiveMatcher.restore data naiveCashTicks)
      ((StreamEngine.new cashTicks).restore data) := by
  unfold headSize at short
  apply Alike.raised
  · intro matcher returned
    obtain ⟨snapshot, read, -⟩ := Fault.bind_eq_ok.mp returned
    rw [EngineSnapshot.unpack, if_pos (by unfold headSize; omega)] at read
    cases read
  · intro engine returned
    rw [StreamEngine.restore] at returned
    split at returned
    · cases returned
    · obtain ⟨next, first, returned⟩ := Fault.bind_eq_ok.mp returned
      obtain ⟨count, second, -⟩ := Fault.bind_eq_ok.mp returned
      rw [StreamEngine.getLe, List.length_drop] at first
      split at first
      · cases first
      · cases first
        rw [StreamEngine.getLe, takeUnsigned, List.length_drop, List.length_drop] at second
        split at second
        · cases second
        · omega

/-- The id counter, the number of orders and their bytes, as both engines find them. -/
def headNext (data : List UInt8) : Int := (takeUnsigned 8 (data.drop 4)).1

def headCount (data : List UInt8) : Nat := (takeUnsigned 4 ((data.drop 4).drop 8)).1.toNat

def afterHead (data : List UInt8) : List UInt8 := ((data.drop 4).drop 8).drop 4

theorem unpack_eq (data : List UInt8) :
    EngineSnapshot.unpack data =
      if data.length < headSize then .error (.raised "engine snapshot is shorter than its header")
      else if data.take 4 ≠ magic then .error (.raised "not an engine snapshot")
      else if data.length ≠ headSize + headCount data * orderSize then
        .error (.raised "engine snapshot length does not match its order count")
      else EngineSnapshot.unpackOrders (headCount data) (afterHead data) 0 (headNext data) >>=
        fun orders => .ok ⟨headNext data, orders⟩ := rfl

theorem naive_restore_eq {data : List UInt8} (enough : headSize ≤ data.length)
    (opens : data.take 4 = magic) (cashTicks : Int) :
    NaiveMatcher.restore data cashTicks =
      if data.length ≠ headSize + headCount data * orderSize then
        .error (.raised "engine snapshot length does not match its order count")
      else EngineSnapshot.unpackOrders (headCount data) (afterHead data) 0 (headNext data) >>=
        (NaiveMatcher.new (headNext data) cashTicks).restoreOrders := by
  have long : ¬ data.length < headSize := Nat.not_lt.mpr enough
  rw [NaiveMatcher.restore, unpack_eq, if_neg long, if_neg (not_not_intro opens)]
  by_cases whole : data.length = headSize + headCount data * orderSize
  · rw [if_neg (not_not_intro whole), if_neg (not_not_intro whole)]
    cases EngineSnapshot.unpackOrders _ _ 0 _ with
    | ok orders => rfl
    | error fault => rfl
  · rw [if_pos whole, if_pos whole]
    rfl

theorem cpp_restore_eq {data : List UInt8} (enough : headSize ≤ data.length) (cashTicks : Int) :
    (StreamEngine.new cashTicks).restore data =
      if data.length ≠ headSize + headCount data * orderSize then
        .error (.raised "engine snapshot length does not match its order count")
      else StreamEngine.restoreOrders (headCount data) (afterHead data) 0 (headNext data)
          (StreamEngine.new cashTicks) >>= fun engine =>
        .ok { engine with nextOrderId := headNext data } := by
  have pristine : ¬ ((StreamEngine.new cashTicks).nextOrderId ≠ 1 ∨
      (StreamEngine.new cashTicks).live.entries ≠ [] ∨
      (StreamEngine.new cashTicks).books.size ≠ 0) := by
    simp [StreamEngine.new, OrderedMap.empty, OrderedMap.size]
  have head : headSize = 16 := rfl
  have body : (data.drop 4).length = data.length - 4 := List.length_drop
  have later : ((data.drop 4).drop 8).length = data.length - 4 - 8 := by
    rw [List.length_drop, body]
  rw [StreamEngine.restore, if_neg pristine, getLe_enough (by omega), Fault.ok_bind]
  simp only [takeUnsigned]
  rw [getLe_enough (by omega), Fault.ok_bind]
  rfl

/-- More orders than the head can count. -/
theorem length_ne_of_many {snapshot : EngineSnapshot}
    (many : 256 ^ 4 ≤ (snapshot.orders.length : Int)) :
    snapshot.layout.length ≠ headSize + headCount snapshot.layout * orderSize := by
  have read : headCount snapshot.layout = ((snapshot.orders.length : Int) % 256 ^ 4).toNat := by
    have next : (truncated 8 snapshot.nextOrderId).length = 8 := length_truncated _ _
    rw [headCount, EngineSnapshot.drop_layout, List.drop_left' next, takeUnsigned_truncated]
  have cut := Int.emod_lt_of_pos (snapshot.orders.length : Int) (show (0 : Int) < 256 ^ 4 by decide)
  rw [EngineSnapshot.length_layout, read, orderSize]
  omega

theorem headSize_le_layout (snapshot : EngineSnapshot) : headSize ≤ snapshot.layout.length := by
  rw [EngineSnapshot.length_layout]
  omega

theorem cpp_refuses_many {snapshot : EngineSnapshot}
    (many : 256 ^ 4 ≤ (snapshot.orders.length : Int)) (cashTicks : Int) (loaded : StreamEngine) :
    (StreamEngine.new cashTicks).restore snapshot.layout ≠ .ok loaded := by
  intro restored
  rw [cpp_restore_eq (headSize_le_layout snapshot), if_pos (length_ne_of_many many)] at restored
  cases restored

theorem naive_refuses_many {snapshot : EngineSnapshot}
    (many : 256 ^ 4 ≤ (snapshot.orders.length : Int)) (cashTicks : Int) (loaded : NaiveMatcher) :
    NaiveMatcher.restore snapshot.layout cashTicks ≠ .ok loaded := by
  intro restored
  rw [naive_restore_eq (headSize_le_layout snapshot) snapshot.take_layout,
    if_pos (length_ne_of_many many)] at restored
  cases restored

theorem restore_alike {data : List UInt8} (opens : data.take 4 = magic)
    (naiveCashTicks cashTicks : Int) :
    Alike EmitAlike (NaiveMatcher.restore data naiveCashTicks)
      ((StreamEngine.new cashTicks).restore data) := by
  by_cases short : data.length < headSize
  · exact restore_short short naiveCashTicks cashTicks
  · have enough : headSize ≤ data.length := Nat.not_lt.mp short
    rw [naive_restore_eq enough opens, cpp_restore_eq enough]
    by_cases whole : data.length = headSize + headCount data * orderSize
    · have length : (afterHead data).length = headCount data * orderSize := by
        have head : headSize = 16 := rfl
        simp only [afterHead, List.length_drop]
        omega
      rw [if_neg (not_not_intro whole), if_neg (not_not_intro whole)]
      by_cases ascends : Ascends (headNext data) 0 (readOrders (headCount data) (afterHead data))
      · rw [unpackOrders_eq_ok.mpr ⟨rfl, ascends⟩]
        refine Alike.bind_right (InStep.restoreOrders
          (InStep.fresh (headNext data) naiveCashTicks cashTicks) le_rfl length ascends)
          fun matcher engine done => ?_
        obtain ⟨last, orders, indexed, counted, inStep⟩ := done
        have few := (unsigned_fits 4 ((data.drop 4).drop 8)).2
        exact inStep.snapshots (unsigned_fits 8 _) (by
          rw [counted]
          simpa [headCount, takeUnsigned] using few)
      · apply Alike.raised
        · intro matcher returned
          obtain ⟨orders, read, -⟩ := Fault.bind_eq_ok.mp returned
          exact ascends (unpackOrders_eq_ok.mp read).2
        · intro engine returned
          obtain ⟨loaded, read, -⟩ := Fault.bind_eq_ok.mp returned
          exact ascends (restoreOrders_ascends length read)
    · rw [if_pos whole, if_pos whole]
      exact trivial

/-- What `pack` writes, `unpack` reads back in the order of the ids; and whatever begins with
the magic, both engines refuse, or both take and then write the same snapshot. -/
theorem snapshot_codec :
    (∀ snapshot : EngineSnapshot, snapshot.Issued →
      ((∃ bytes, snapshot.pack = .ok bytes) ↔ snapshot.Fits) ∧
        ∀ bytes, snapshot.pack = .ok bytes → EngineSnapshot.unpack bytes = .ok snapshot.sorted) ∧
      ∀ data : List UInt8, data.take 4 = magic → ∀ naiveCashTicks cashTicks : Int,
        Alike EmitAlike (NaiveMatcher.restore data naiveCashTicks)
          ((StreamEngine.new cashTicks).restore data) := by
  refine ⟨fun snapshot issued => ⟨⟨?_, ?_⟩, fun bytes => issued.unpack_pack⟩,
    fun data opens => restore_alike opens⟩
  · intro ⟨bytes, packed⟩
    exact (issued.pack_eq_ok.mp packed).1
  · intro fits
    exact ⟨_, issued.pack_eq_ok.mpr ⟨fits, rfl⟩⟩

/-- Two orders of one client, the newer one first. -/
def newestFirst : EngineSnapshot :=
  ⟨4, [⟨3, 9, 7, 1, 2, true, 101, 5, 20⟩, ⟨1, 9, 7, 1, 1, false, 100, 5, 10⟩]⟩

/-- A head that announces an order, and one that an engine can take but for its side. -/
def noSide : List UInt8 :=
  magic ++ (truncated 8 2 ++ truncated 4 1) ++
    SnapshotOrder.layout ⟨1, 9, 7, 1, 3, true, 100, 5, 10⟩

theorem newestFirst_issued : newestFirst.Issued := ⟨by decide, by decide, by decide⟩

theorem newestFirst_fits : newestFirst.Fits :=
  ⟨by decide, by decide, by
    intro order member
    simp only [newestFirst, List.mem_cons, List.not_mem_nil, or_false] at member
    rcases member with rfl | rfl <;> exact ⟨by decide, by decide, by decide, by decide, by decide,
      by decide, by decide, by decide⟩⟩

theorem snapshot_codec_newest_first :
    (∃ bytes, newestFirst.pack = .ok bytes ∧ EngineSnapshot.unpack bytes = .ok newestFirst.sorted) ∧
      Alike EmitAlike (NaiveMatcher.restore noSide 0) ((StreamEngine.new 0).restore noSide) := by
  obtain ⟨bytes, packed⟩ := (snapshot_codec.1 newestFirst newestFirst_issued).1.mpr newestFirst_fits
  exact ⟨⟨bytes, packed, (snapshot_codec.1 newestFirst newestFirst_issued).2 bytes packed⟩,
    snapshot_codec.2 noSide (by decide) 0 0⟩

/-- A symbol beyond the layout's sixteen bits. -/
def wideSymbol : EngineSnapshot := ⟨2, [⟨1, 9, 7, 40000, 1, true, 100, 5, 10⟩]⟩

/-- The id that no engine issues. -/
def zerothOrder : EngineSnapshot := ⟨1, [⟨0, 9, 7, 1, 1, true, 100, 5, 10⟩]⟩

/-- `pack` refuses the first, and `unpack` refuses what it writes of the second. -/
theorem codec_has_bounds :
    (wideSymbol.Issued ∧ ¬ ∃ bytes, wideSymbol.pack = .ok bytes ∧
      EngineSnapshot.unpack bytes = .ok wideSymbol.sorted) ∧
    ((zerothOrder.orders.map (·.orderId)).Nodup ∧
      (∀ order ∈ zerothOrder.orders, order.orderId < zerothOrder.nextOrderId) ∧
      ∃ bytes, zerothOrder.pack = .ok bytes ∧ EngineSnapshot.unpack bytes ≠ .ok zerothOrder.sorted) := by
  have refused : wideSymbol.pack = .error .outOfRange := by decide +kernel
  have packed : zerothOrder.pack = .ok zerothOrder.layout := by decide +kernel
  have unread : EngineSnapshot.unpack zerothOrder.layout =
      .error (.raised "engine snapshot orders are not ascending below next_order_id") := by
    decide +kernel
  refine ⟨⟨⟨by decide, by decide, by decide⟩, ?_⟩, by decide, by decide, _, packed, ?_⟩
  · intro ⟨bytes, impossible, _⟩
    rw [refused] at impossible
    cases impossible
  · rw [unread]
    exact fun impossible => by cases impossible

end QuantArena.Matcher
