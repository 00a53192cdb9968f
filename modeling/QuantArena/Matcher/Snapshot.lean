import QuantArena.Foundations.Bytes

/-! The engine snapshot: one byte format, written and read by both engines. -/

set_option autoImplicit false

namespace QuantArena.Matcher

open Foundations Foundations.Bytes

structure SnapshotOrder where
  orderId : Int
  clientOrderId : Int
  userId : Int
  symbolId : Int
  side : Int
  indexed : Bool
  priceTicks : Int
  remainingQty : Int
  createdAtNs : Int
deriving DecidableEq, Repr

structure EngineSnapshot where
  nextOrderId : Int
  orders : List SnapshotOrder
deriving DecidableEq, Repr

/-- `b"QAS1"`. -/
def magic : List UInt8 := [81, 65, 83, 49]

/-- `_HEAD.size`. -/
def headSize : Nat := 16

/-- `_ORDER.size`. -/
def orderSize : Nat := 52

def indexedCode (indexed : Bool) : Int := if indexed then 1 else 0

namespace SnapshotOrder

/-- `_ORDER.pack`. -/
def pack (order : SnapshotOrder) : Except Fault (List UInt8) := do
  let orderId ← packUnsigned 8 order.orderId
  let clientOrderId ← packUnsigned 8 order.clientOrderId
  let userId ← packUnsigned 8 order.userId
  let symbolId ← packSigned 2 order.symbolId
  let side ← packUnsigned 1 order.side
  let indexed ← packUnsigned 1 (indexedCode order.indexed)
  let priceTicks ← packSigned 8 order.priceTicks
  let remainingQty ← packSigned 8 order.remainingQty
  let createdAtNs ← packSigned 8 order.createdAtNs
  .ok (orderId ++ (clientOrderId ++ (userId ++ (symbolId ++ (side ++ (indexed ++ (priceTicks ++
    (remainingQty ++ createdAtNs))))))))

/-- `_ORDER.unpack_from` at the front of the data, and what follows it. -/
def unpack (data : List UInt8) : SnapshotOrder × List UInt8 :=
  let (orderId, data) := takeUnsigned 8 data
  let (clientOrderId, data) := takeUnsigned 8 data
  let (userId, data) := takeUnsigned 8 data
  let (symbolId, data) := takeSigned 2 data
  let (side, data) := takeUnsigned 1 data
  let (indexed, data) := takeUnsigned 1 data
  let (priceTicks, data) := takeSigned 8 data
  let (remainingQty, data) := takeSigned 8 data
  let (createdAtNs, data) := takeSigned 8 data
  (⟨orderId, clientOrderId, userId, symbolId, side, indexed != 0, priceTicks, remainingQty,
    createdAtNs⟩, data)

/-- Every field fits its place in the layout. -/
structure Fits (order : SnapshotOrder) : Prop where
  orderId : 0 ≤ order.orderId ∧ order.orderId < 256 ^ 8
  clientOrderId : 0 ≤ order.clientOrderId ∧ order.clientOrderId < 256 ^ 8
  userId : 0 ≤ order.userId ∧ order.userId < 256 ^ 8
  symbolId : -(256 ^ 2 / 2) ≤ order.symbolId ∧ order.symbolId < 256 ^ 2 / 2
  side : 0 ≤ order.side ∧ order.side < 256 ^ 1
  priceTicks : -(256 ^ 8 / 2) ≤ order.priceTicks ∧ order.priceTicks < 256 ^ 8 / 2
  remainingQty : -(256 ^ 8 / 2) ≤ order.remainingQty ∧ order.remainingQty < 256 ^ 8 / 2
  createdAtNs : -(256 ^ 8 / 2) ≤ order.createdAtNs ∧ order.createdAtNs < 256 ^ 8 / 2

/-- The bytes of an order, cut to the layout whether or not it fits. -/
def layout (order : SnapshotOrder) : List UInt8 :=
  truncated 8 order.orderId ++ (truncated 8 order.clientOrderId ++ (truncated 8 order.userId ++
    (truncated 2 order.symbolId ++ (truncated 1 order.side ++
      (truncated 1 (indexedCode order.indexed) ++ (truncated 8 order.priceTicks ++
        (truncated 8 order.remainingQty ++ truncated 8 order.createdAtNs)))))))

theorem indexedCode_fits (indexed : Bool) :
    0 ≤ indexedCode indexed ∧ indexedCode indexed < 256 ^ 1 := by
  cases indexed <;> decide

theorem indexedCode_flag (indexed : Bool) : (indexedCode indexed != 0) = indexed := by
  cases indexed <;> rfl

@[simp] theorem length_layout (order : SnapshotOrder) : order.layout.length = orderSize := by
  simp [layout, orderSize]

theorem pack_eq_ok {order : SnapshotOrder} {bytes : List UInt8} :
    order.pack = .ok bytes ↔ order.Fits ∧ bytes = order.layout := by
  constructor
  · intro packed
    unfold pack at packed
    simp only [Fault.bind_eq_ok, packUnsigned_eq_ok, packSigned_eq_ok] at packed
    obtain ⟨_, ⟨orderId, rfl⟩, _, ⟨clientOrderId, rfl⟩, _, ⟨userId, rfl⟩, _, ⟨symbolId, rfl⟩,
      _, ⟨side, rfl⟩, _, ⟨_, rfl⟩, _, ⟨priceTicks, rfl⟩, _, ⟨remainingQty, rfl⟩,
      _, ⟨createdAtNs, rfl⟩, same⟩ := packed
    exact ⟨⟨orderId, clientOrderId, userId, symbolId, side, priceTicks, remainingQty, createdAtNs⟩,
      (Except.ok.inj same).symm⟩
  · rintro ⟨fits, rfl⟩
    simp only [pack, packUnsigned, packSigned, if_pos fits.orderId, if_pos fits.clientOrderId,
      if_pos fits.userId, if_pos fits.symbolId, if_pos fits.side,
      if_pos (indexedCode_fits order.indexed), if_pos fits.priceTicks, if_pos fits.remainingQty,
      if_pos fits.createdAtNs, Fault.ok_bind]
    rfl

theorem unpack_layout {order : SnapshotOrder} (fits : order.Fits) (rest : List UInt8) :
    unpack (order.layout ++ rest) = (order, rest) := by
  have flag := indexedCode_flag order.indexed
  simp only [unpack, layout, List.append_assoc, takeUnsigned_truncated, takeSigned_truncated,
    unsigned_of_fits fits.orderId, unsigned_of_fits fits.clientOrderId,
    unsigned_of_fits fits.userId, signed_of_fits (by decide) fits.symbolId,
    unsigned_of_fits fits.side, unsigned_of_fits (indexedCode_fits order.indexed), flag,
    signed_of_fits (by decide) fits.priceTicks, signed_of_fits (by decide) fits.remainingQty,
    signed_of_fits (by decide) fits.createdAtNs]

end SnapshotOrder

namespace EngineSnapshot

/-- `_HEAD.pack`. -/
def packHead (nextOrderId count : Int) : Except Fault (List UInt8) := do
  let nextOrderId ← packUnsigned 8 nextOrderId
  let count ← packUnsigned 4 count
  .ok (magic ++ (nextOrderId ++ count))

def packOrders : List SnapshotOrder → Except Fault (List UInt8)
  | [] => .ok []
  | order :: rest => do
      let part ← order.pack
      let parts ← packOrders rest
      .ok (part ++ parts)

def pack (snapshot : EngineSnapshot) : Except Fault (List UInt8) := do
  let ordered := snapshot.orders.mergeSort fun left right => left.orderId ≤ right.orderId
  let head ← packHead snapshot.nextOrderId ordered.length
  let parts ← packOrders ordered
  .ok (head ++ parts)

def unpackOrders : Nat → List UInt8 → Int → Int → Except Fault (List SnapshotOrder)
  | 0, _, _, _ => .ok []
  | count + 1, data, previous, nextOrderId =>
      let (order, data) := SnapshotOrder.unpack data
      if order.orderId ≤ previous ∨ order.orderId ≥ nextOrderId then
        .error (.raised "engine snapshot orders are not ascending below next_order_id")
      else do
        let rest ← unpackOrders count data order.orderId nextOrderId
        .ok (order :: rest)

/-- The text of the second error also quotes the magic it found. -/
def unpack (data : List UInt8) : Except Fault EngineSnapshot :=
  if data.length < headSize then .error (.raised "engine snapshot is shorter than its header")
  else
    let (nextOrderId, rest) := takeUnsigned 8 (data.drop 4)
    let (count, rest) := takeUnsigned 4 rest
    if data.take 4 ≠ magic then .error (.raised "not an engine snapshot")
    else if data.length ≠ headSize + count.toNat * orderSize then
      .error (.raised "engine snapshot length does not match its order count")
    else do
      let orders ← unpackOrders count.toNat rest 0 nextOrderId
      .ok ⟨nextOrderId, orders⟩

/-! ## Round trip -/

/-- What both engines write: live orders by ascending id, all of them issued. -/
structure Ordered (snapshot : EngineSnapshot) : Prop where
  positive : ∀ order ∈ snapshot.orders, 0 < order.orderId
  issued : ∀ order ∈ snapshot.orders, order.orderId < snapshot.nextOrderId
  ascending : snapshot.orders.Pairwise fun early late => early.orderId < late.orderId

/-- The head and the orders all fit their fields. -/
structure Fits (snapshot : EngineSnapshot) : Prop where
  nextOrderId : 0 ≤ snapshot.nextOrderId ∧ snapshot.nextOrderId < 256 ^ 8
  count : (snapshot.orders.length : Int) < 256 ^ 4
  orders : ∀ order ∈ snapshot.orders, order.Fits

def layout (snapshot : EngineSnapshot) : List UInt8 :=
  magic ++ (truncated 8 snapshot.nextOrderId ++ truncated 4 snapshot.orders.length) ++
    snapshot.orders.flatMap SnapshotOrder.layout

theorem packOrders_eq_ok {orders : List SnapshotOrder} {bytes : List UInt8} :
    packOrders orders = .ok bytes ↔
      (∀ order ∈ orders, order.Fits) ∧ bytes = orders.flatMap SnapshotOrder.layout := by
  induction orders generalizing bytes with
  | nil => simp [packOrders, eq_comm]
  | cons order rest ih =>
      simp only [packOrders, Fault.bind_eq_ok, SnapshotOrder.pack_eq_ok, ih, List.flatMap_cons,
        List.forall_mem_cons]
      constructor
      · rintro ⟨_, ⟨fits, rfl⟩, _, ⟨restFits, rfl⟩, same⟩
        exact ⟨⟨fits, restFits⟩, (Except.ok.inj same).symm⟩
      · rintro ⟨⟨fits, restFits⟩, rfl⟩
        exact ⟨_, ⟨fits, rfl⟩, _, ⟨restFits, rfl⟩, rfl⟩

theorem pack_eq_ok {snapshot : EngineSnapshot} (ordered : snapshot.Ordered) {bytes : List UInt8} :
    snapshot.pack = .ok bytes ↔ snapshot.Fits ∧ bytes = snapshot.layout := by
  have sorted : (snapshot.orders.mergeSort fun left right => left.orderId ≤ right.orderId) =
      snapshot.orders :=
    List.mergeSort_of_pairwise (ordered.ascending.imp fun before => decide_eq_true before.le)
  simp only [pack, packHead, sorted, Fault.bind_eq_ok, packUnsigned_eq_ok, packOrders_eq_ok]
  constructor
  · rintro ⟨_, ⟨_, ⟨next, rfl⟩, _, ⟨count, rfl⟩, head⟩, _, ⟨orders, rfl⟩, same⟩
    cases head
    exact ⟨⟨next, count.2, orders⟩, (Except.ok.inj same).symm⟩
  · rintro ⟨fits, rfl⟩
    exact ⟨_, ⟨_, ⟨fits.nextOrderId, rfl⟩, _, ⟨⟨Int.natCast_nonneg _, fits.count⟩, rfl⟩, rfl⟩, _,
      ⟨fits.orders, rfl⟩, rfl⟩

theorem unpackOrders_layout {orders : List SnapshotOrder} (fits : ∀ order ∈ orders, order.Fits)
    {previous nextOrderId : Int} (above : ∀ order ∈ orders, previous < order.orderId)
    (issued : ∀ order ∈ orders, order.orderId < nextOrderId)
    (ascending : orders.Pairwise fun early late => early.orderId < late.orderId) :
    unpackOrders orders.length (orders.flatMap SnapshotOrder.layout) previous nextOrderId =
      .ok orders := by
  induction orders generalizing previous with
  | nil => rfl
  | cons order rest ih =>
      obtain ⟨first, ascending⟩ := List.pairwise_cons.mp ascending
      have later := ih (fun other member => fits other (List.mem_cons_of_mem _ member)) first
        (fun other member => issued other (List.mem_cons_of_mem _ member)) ascending
      have orderAbove := above order List.mem_cons_self
      have orderIssued := issued order List.mem_cons_self
      rw [List.length_cons, List.flatMap_cons, unpackOrders,
        SnapshotOrder.unpack_layout (fits order List.mem_cons_self)]
      simp only [if_neg (show ¬ (order.orderId ≤ previous ∨ order.orderId ≥ nextOrderId) by omega),
        later, Fault.ok_bind]

theorem length_layout (snapshot : EngineSnapshot) :
    snapshot.layout.length = headSize + snapshot.orders.length * orderSize := by
  have body : (snapshot.orders.flatMap SnapshotOrder.layout).length =
      snapshot.orders.length * orderSize := by
    simp [List.length_flatMap]
  simp only [layout, List.length_append, body, length_truncated]
  rfl

theorem take_layout (snapshot : EngineSnapshot) : snapshot.layout.take 4 = magic := by
  simp only [layout, List.append_assoc]
  exact List.take_left' rfl

/-- What follows the magic. -/
theorem drop_layout (snapshot : EngineSnapshot) :
    snapshot.layout.drop 4 = truncated 8 snapshot.nextOrderId ++
      (truncated 4 snapshot.orders.length ++ snapshot.orders.flatMap SnapshotOrder.layout) := by
  simp only [layout, List.append_assoc]
  exact List.drop_left' rfl

theorem Fits.counted {snapshot : EngineSnapshot} (fits : snapshot.Fits) :
    (snapshot.orders.length : Int) % 256 ^ 4 = snapshot.orders.length :=
  unsigned_of_fits ⟨Int.natCast_nonneg _, fits.count⟩

theorem unpack_layout {snapshot : EngineSnapshot} (ordered : snapshot.Ordered)
    (fits : snapshot.Fits) : unpack snapshot.layout = .ok snapshot := by
  simp only [unpack, length_layout, take_layout, drop_layout, takeUnsigned_truncated,
    unsigned_of_fits fits.nextOrderId, fits.counted, Int.toNat_natCast]
  rw [if_neg (by omega), if_neg (by simp), if_neg (by simp),
    unpackOrders_layout fits.orders ordered.positive ordered.issued ordered.ascending]
  rfl

end EngineSnapshot

end QuantArena.Matcher
