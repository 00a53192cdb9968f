import Mathlib.Algebra.Order.BigOperators.Group.List
import Mathlib.Data.Int.ConditionallyCompleteOrder
import Mathlib.Data.List.MinMax
import Mathlib.Data.List.Nodup
import Mathlib.Data.List.Perm.Subperm
import Mathlib.Tactic.Linarith

/-! Price-time priority over arbitrary identities, prices and tickets. A book
is the list of live orders in arrival order; an incoming order trades with the
best-priced crossing order, and among equals with the one that arrived first. -/

set_option autoImplicit false

namespace QuantArena.Foundations.PriceTime

inductive Side where
  | buy
  | sell
deriving DecidableEq, Repr

def Side.opposite : Side → Side
  | .buy => .sell
  | .sell => .buy

@[simp] theorem Side.opposite_buy : Side.buy.opposite = .sell := rfl

@[simp] theorem Side.opposite_sell : Side.sell.opposite = .buy := rfl

/-- One live order. The ticket is carried along and never consulted. -/
structure Resting (ι π κ : Type) where
  id : ι
  side : Side
  price : π
  remaining : Int
  ticket : κ
deriving DecidableEq, Repr

/-- The order without its ticket. -/
def Resting.bare {ι π κ : Type} (order : Resting ι π κ) : Resting ι π Unit :=
  ⟨order.id, order.side, order.price, order.remaining, ()⟩

@[simp] theorem Resting.bare_price {ι π κ : Type} (order : Resting ι π κ) :
    order.bare.price = order.price := rfl

/-- The order as a book: present unless it is exhausted. -/
def Resting.standing {ι π κ : Type} (order : Resting ι π κ) : List (Resting ι π κ) :=
  if 0 < order.remaining then [order] else []

/-- One trade: the resting order as it stood just before, and the quantity. -/
structure Trade (ι π κ : Type) where
  maker : Resting ι π κ
  qty : Int
deriving DecidableEq, Repr

variable {ι π κ : Type}

/-! ## Reducing an order -/

section Reduce

variable [DecidableEq ι]

/-- What a trade of `qty` leaves of one order; an exhausted order disappears. -/
def reduceOne (id : ι) (qty : Int) (order : Resting ι π κ) : Option (Resting ι π κ) :=
  if order.id = id then
    if order.remaining ≤ qty then none
    else some { order with remaining := order.remaining - qty }
  else some order

def reduce (id : ι) (qty : Int) (book : List (Resting ι π κ)) : List (Resting ι π κ) :=
  book.filterMap (reduceOne id qty)

def remove (id : ι) (book : List (Resting ι π κ)) : List (Resting ι π κ) :=
  book.filter fun order => order.id ≠ id

variable {id : ι} {qty : Int} {book : List (Resting ι π κ)} {order : Resting ι π κ}

theorem mem_reduce :
    order ∈ reduce id qty book ↔
      order ∈ book ∧ order.id ≠ id ∨
        ∃ before ∈ book, before.id = id ∧ qty < before.remaining ∧
          order = { before with remaining := before.remaining - qty } := by
  simp only [reduce, List.mem_filterMap, reduceOne]
  constructor
  · rintro ⟨before, member, left⟩
    by_cases same : before.id = id
    · by_cases exhausted : before.remaining ≤ qty
      · simp [same, exhausted] at left
      · simp only [same, if_true, exhausted, if_false, Option.some.injEq] at left
        exact .inr ⟨before, member, same, by omega, by rw [← left, same]⟩
    · simp only [same, if_false, Option.some.injEq] at left
      exact .inl ⟨left ▸ member, left ▸ same⟩
  · rintro (⟨member, different⟩ | ⟨before, member, same, partly, rfl⟩)
    · exact ⟨order, member, by simp [different]⟩
    · exact ⟨before, member, by simp [same, Int.not_le.mpr partly]⟩

/-- A surviving order keeps everything but its remaining quantity. -/
theorem mem_reduce_origin (member : order ∈ reduce id qty book) :
    ∃ before ∈ book, order = { before with remaining := order.remaining } := by
  rcases mem_reduce.mp member with ⟨kept, _⟩ | ⟨before, kept, _, _, rfl⟩
  · exact ⟨order, kept, rfl⟩
  · exact ⟨before, kept, rfl⟩

theorem reduce_length_lt {maker : Resting ι π κ} (member : maker ∈ book) (same : maker.id = id)
    (exhausted : maker.remaining ≤ qty) : (reduce id qty book).length < book.length := by
  rw [reduce, List.length_filterMap_eq_countP, List.countP_eq_length_filter]
  apply List.length_filter_lt_length_iff_exists.mpr
  exact ⟨maker, member, by simp [reduceOne, same, exhausted]⟩

@[simp] theorem reduce_append (left right : List (Resting ι π κ)) :
    reduce id qty (left ++ right) = reduce id qty left ++ reduce id qty right :=
  List.filterMap_append

theorem reduce_eq_self (absent : ∀ other ∈ book, other.id ≠ id) : reduce id qty book = book := by
  induction book with
  | nil => rfl
  | cons head tail ih =>
      have different := absent head List.mem_cons_self
      have tailKept := ih fun other member => absent other (List.mem_cons_of_mem _ member)
      rw [reduce, List.filterMap_cons_some (b := head) (by simp [reduceOne, different])]
      exact congrArg (head :: ·) tailKept

theorem reduce_singleton_self (order : Resting ι π κ) :
    reduce order.id qty [order] =
      Resting.standing { order with remaining := order.remaining - qty } := by
  by_cases exhausted : order.remaining ≤ qty
  · simp [reduce, reduceOne, Resting.standing, exhausted]
  · simp [reduce, reduceOne, Resting.standing, exhausted, Int.lt_of_not_ge exhausted]

theorem reduce_comm {other : ι} {otherQty : Int} (different : id ≠ other) :
    reduce id qty (reduce other otherQty book) = reduce other otherQty (reduce id qty book) := by
  rw [reduce, reduce, reduce, reduce, List.filterMap_filterMap, List.filterMap_filterMap]
  apply List.filterMap_congr
  intro order _
  by_cases isOne : order.id = id
  · have notOther : order.id ≠ other := isOne ▸ different
    by_cases exhausted : order.remaining ≤ qty
    · simp [reduceOne, isOne, different, exhausted]
    · simp [reduceOne, isOne, different, exhausted]
  · by_cases isOther : order.id = other
    · by_cases exhausted : order.remaining ≤ otherQty
      · simp [reduceOne, isOther, different.symm, exhausted]
      · simp [reduceOne, isOther, different.symm, exhausted]
    · simp [reduceOne, isOne, isOther]

/-- One trade seen on the list that holds the newest order last. -/
theorem reduce_newest {taker : Resting ι π κ} (fresh : ∀ other ∈ book, other.id ≠ taker.id)
    (different : id ≠ taker.id) :
    reduce taker.id qty (reduce id qty (book ++ [taker])) = reduce id qty book ++
      Resting.standing { taker with remaining := taker.remaining - qty } := by
  rw [reduce_append, reduce_append, reduce_comm different.symm, reduce_eq_self fresh]
  have kept : reduce id qty [taker] = [taker] :=
    reduce_eq_self (by simpa using different.symm)
  rw [kept, reduce_singleton_self]

theorem reduce_map_bare (id : ι) (qty : Int) (book : List (Resting ι π κ)) :
    (reduce id qty book).map Resting.bare = reduce id qty (book.map Resting.bare) := by
  rw [reduce, reduce, List.map_filterMap, List.filterMap_map]
  apply List.filterMap_congr
  intro order _
  simp only [reduceOne, Function.comp_apply]
  by_cases same : order.id = id
  · by_cases exhausted : order.remaining ≤ qty <;> simp [Resting.bare, same, exhausted]
  · simp [Resting.bare, same]

/-- Reducing commutes with every selection that ignores the remaining quantity. -/
theorem filter_reduce (select : Resting ι π κ → Bool)
    (stable : ∀ order remaining, select { order with remaining := remaining } = select order) :
    (reduce id qty book).filter select = reduce id qty (book.filter select) := by
  induction book with
  | nil => rfl
  | cons head tail ih =>
      simp only [reduce] at ih ⊢
      by_cases same : head.id = id
      · by_cases exhausted : head.remaining ≤ qty
        · rw [List.filterMap_cons_none (by simp [reduceOne, same, exhausted]), ih]
          by_cases chosen : select head = true
          · rw [List.filter_cons_of_pos chosen,
              List.filterMap_cons_none (by simp [reduceOne, same, exhausted])]
          · rw [List.filter_cons_of_neg chosen]
        · have left : reduceOne id qty head =
              some { head with remaining := head.remaining - qty } := by
            simp [reduceOne, same, exhausted]
          rw [List.filterMap_cons_some left]
          by_cases chosen : select head = true
          · rw [List.filter_cons_of_pos (by rwa [stable]), List.filter_cons_of_pos chosen,
              List.filterMap_cons_some left, ih]
          · rw [List.filter_cons_of_neg (by rwa [stable]), List.filter_cons_of_neg chosen, ih]
      · have left : reduceOne id qty head = some head := by simp [reduceOne, same]
        rw [List.filterMap_cons_some left]
        by_cases chosen : select head = true
        · rw [List.filter_cons_of_pos chosen, List.filter_cons_of_pos chosen,
            List.filterMap_cons_some left, ih]
        · rw [List.filter_cons_of_neg chosen, List.filter_cons_of_neg chosen, ih]

theorem pairwise_reduce {Rel : Resting ι π κ → Resting ι π κ → Prop}
    (stable : ∀ left right leftRemaining rightRemaining, Rel left right →
      Rel { left with remaining := leftRemaining } { right with remaining := rightRemaining })
    (pairwise : book.Pairwise Rel) : (reduce id qty book).Pairwise Rel := by
  have same : ∀ before after : Resting ι π κ, reduceOne id qty before = some after →
      after = { before with remaining := after.remaining } := by
    intro before after left
    unfold reduceOne at left
    split at left
    · split at left
      · cases left
      · cases left
        rfl
    · cases left
      rfl
  refine pairwise.filterMap _ ?_
  intro left right related afterLeft leftKept afterRight rightKept
  rw [same left afterLeft leftKept, same right afterRight rightKept]
  exact stable left right _ _ related

end Reduce

/-! ## Well-formed books -/

section WellFormed

variable [Preorder ι]

/-- Live orders are positive and listed in the order of their identities. -/
structure WellFormed (book : List (Resting ι π κ)) : Prop where
  positive : ∀ order ∈ book, 0 < order.remaining
  arrival : book.Pairwise fun left right => left.id < right.id

theorem WellFormed.filter {book : List (Resting ι π κ)} (valid : WellFormed book)
    (select : Resting ι π κ → Bool) : WellFormed (book.filter select) where
  positive order member := valid.positive order (List.mem_of_mem_filter member)
  arrival := valid.arrival.filter select

theorem WellFormed.append_newest {book : List (Resting ι π κ)} (valid : WellFormed book)
    {order : Resting ι π κ} (live : 0 < order.remaining)
    (older : ∀ other ∈ book, other.id < order.id) : WellFormed (book ++ [order]) where
  positive other member := by
    cases List.mem_append.mp member with
    | inl old => exact valid.positive other old
    | inr new =>
        rw [List.mem_singleton.mp new]
        exact live
  arrival := by
    refine List.pairwise_append.mpr ⟨valid.arrival, List.pairwise_singleton _ _, ?_⟩
    intro other member new newMember
    rw [List.mem_singleton.mp newMember]
    exact older other member

theorem WellFormed.append_standing {book : List (Resting ι π κ)} (valid : WellFormed book)
    {order : Resting ι π κ} (older : ∀ other ∈ book, other.id < order.id) :
    WellFormed (book ++ order.standing) := by
  unfold Resting.standing
  split
  · rename_i live
    exact valid.append_newest live older
  · rwa [List.append_nil]

theorem WellFormed.eq_of_id {book : List (Resting ι π κ)} (valid : WellFormed book)
    {left right : Resting ι π κ} (leftMember : left ∈ book) (rightMember : right ∈ book)
    (same : left.id = right.id) : left = right := by
  have unique : (book.map (·.id)).Nodup := by
    rw [List.Nodup, List.pairwise_map]
    exact valid.arrival.imp ne_of_lt
  exact List.inj_on_of_nodup_map unique leftMember rightMember same

end WellFormed

/-! ## Totals over a book -/

section Totals

variable [Preorder ι] {book : List (Resting ι π κ)}

/-- The sum of a weight over the live orders. -/
def totalOf (weight : Resting ι π κ → Int) (book : List (Resting ι π κ)) : Int :=
  (book.map weight).sum

omit [Preorder ι] in
@[simp] theorem totalOf_append (weight : Resting ι π κ → Int) (first second : List (Resting ι π κ)) :
    totalOf weight (first ++ second) = totalOf weight first + totalOf weight second := by
  simp [totalOf]

omit [Preorder ι] in
@[simp] theorem totalOf_cons (weight : Resting ι π κ → Int) (order : Resting ι π κ)
    (rest : List (Resting ι π κ)) :
    totalOf weight (order :: rest) = weight order + totalOf weight rest := by
  simp [totalOf]

omit [Preorder ι] in
@[simp] theorem totalOf_nil (weight : Resting ι π κ → Int) :
    totalOf weight ([] : List (Resting ι π κ)) = 0 := rfl

omit [Preorder ι] in
theorem totalOf_nonneg {weight : Resting ι π κ → Int} (counted : ∀ order ∈ book, 0 ≤ weight order) :
    0 ≤ totalOf weight book := by
  apply List.sum_nonneg
  intro amount member
  obtain ⟨order, orderMember, rfl⟩ := List.mem_map.mp member
  exact counted order orderMember

/-- A live order stands between orders of other identities. -/
theorem WellFormed.split (valid : WellFormed book) {order : Resting ι π κ}
    (member : order ∈ book) : ∃ before after, book = before ++ order :: after ∧
      (∀ other ∈ before, other.id ≠ order.id) ∧ ∀ other ∈ after, other.id ≠ order.id := by
  obtain ⟨before, after, rfl⟩ := List.append_of_mem member
  obtain ⟨-, late, early⟩ := List.pairwise_append.mp valid.arrival
  refine ⟨before, after, rfl, ?_, ?_⟩
  · intro other otherMember
    exact (early other otherMember order List.mem_cons_self).ne
  · intro other otherMember
    exact ((List.pairwise_cons.mp late).1 other otherMember).ne'

variable [DecidableEq ι]

omit [Preorder ι] in
theorem remove_split {before after : List (Resting ι π κ)} {order : Resting ι π κ}
    (early : ∀ other ∈ before, other.id ≠ order.id) (late : ∀ other ∈ after, other.id ≠ order.id) :
    remove order.id (before ++ order :: after) = before ++ after := by
  rw [remove, List.filter_append, List.filter_cons_of_neg (by simp),
    List.filter_eq_self.mpr (by simpa using early), List.filter_eq_self.mpr (by simpa using late)]

/-- An order reduced by all it has left is gone. -/
theorem reduce_all (valid : WellFormed book) {order : Resting ι π κ} (member : order ∈ book) :
    reduce order.id order.remaining book = remove order.id book := by
  obtain ⟨before, after, rfl, early, late⟩ := valid.split member
  rw [remove_split early late, List.append_cons, reduce_append, reduce_append,
    reduce_eq_self early, reduce_eq_self late, reduce_singleton_self]
  simp [Resting.standing]

/-- A fill takes from a total what it takes from the one order. -/
theorem totalOf_reduce {weight : Resting ι π κ → Int}
    (spent : ∀ order : Resting ι π κ, weight { order with remaining := 0 } = 0) (valid : WellFormed book)
    {order : Resting ι π κ} (member : order ∈ book) {qty : Int} (fits : qty ≤ order.remaining) :
    totalOf weight (reduce order.id qty book) = totalOf weight book - weight order +
      weight { order with remaining := order.remaining - qty } := by
  obtain ⟨before, after, rfl, early, late⟩ := valid.split member
  have left : totalOf weight (reduce order.id qty [order]) =
      weight { order with remaining := order.remaining - qty } := by
    rw [reduce_singleton_self]
    unfold Resting.standing
    split
    · rw [totalOf_cons, totalOf_nil, Int.add_zero]
    · rename_i exhausted
      have nothing : order.remaining - qty = 0 := le_antisymm (not_lt.mp exhausted) (by omega)
      rw [nothing, spent, totalOf_nil]
  rw [List.append_cons, reduce_append, reduce_append, reduce_eq_self early, reduce_eq_self late]
  simp only [totalOf_append, totalOf_cons, totalOf_nil, left]
  omega

theorem totalOf_remove (weight : Resting ι π κ → Int) (valid : WellFormed book)
    {order : Resting ι π κ} (member : order ∈ book) :
    totalOf weight (remove order.id book) = totalOf weight book - weight order := by
  obtain ⟨before, after, rfl, early, late⟩ := valid.split member
  rw [remove_split early late]
  simp only [totalOf_append, totalOf_cons]
  omega

end Totals

/-! ## The best maker -/

section Best

variable [LinearOrder π]

/-- The first price is at least as good as the second for a taker on `side`. -/
def AsGood (side : Side) (left right : π) : Prop :=
  match side with
  | .buy => left ≤ right
  | .sell => right ≤ left

def Crosses (taker maker : Resting ι π κ) : Prop :=
  maker.side = taker.side.opposite ∧ AsGood taker.side maker.price taker.price

instance (side : Side) (left right : π) : Decidable (AsGood side left right) := by
  cases side
  · exact inferInstanceAs (Decidable (left ≤ right))
  · exact inferInstanceAs (Decidable (right ≤ left))

instance (taker maker : Resting ι π κ) : Decidable (Crosses taker maker) :=
  inferInstanceAs (Decidable (_ ∧ _))

/-- The maker an incoming order trades with next. -/
def best (taker : Resting ι π κ) (book : List (Resting ι π κ)) : Option (Resting ι π κ) :=
  match taker.side with
  | .buy => (book.filter fun maker => Crosses taker maker).argmin (·.price)
  | .sell => (book.filter fun maker => Crosses taker maker).argmax (·.price)

variable {taker maker other : Resting ι π κ} {book : List (Resting ι π κ)}

theorem best_mem_filter (chosen : best taker book = some maker) :
    maker ∈ book.filter fun candidate => Crosses taker candidate := by
  unfold best at chosen
  split at chosen
  · exact List.argmin_mem chosen
  · exact List.argmax_mem chosen

theorem best_mem (chosen : best taker book = some maker) : maker ∈ book :=
  List.mem_of_mem_filter (best_mem_filter chosen)

theorem best_crosses (chosen : best taker book = some maker) : Crosses taker maker := by
  simpa using (List.mem_filter.mp (best_mem_filter chosen)).2

theorem best_price (chosen : best taker book = some maker) (member : other ∈ book)
    (crosses : Crosses taker other) : AsGood taker.side maker.price other.price := by
  have candidate : other ∈ book.filter fun candidate => Crosses taker candidate :=
    List.mem_filter.mpr ⟨member, by simpa using crosses⟩
  unfold best at chosen
  split at chosen <;> rename_i side
  · rw [side]
    exact List.le_of_mem_argmin candidate chosen
  · rw [side]
    exact List.le_of_mem_argmax candidate chosen

theorem best_eq_none (missing : best taker book = none) (member : other ∈ book) :
    ¬ Crosses taker other := by
  have empty : book.filter (fun candidate => Crosses taker candidate) = [] := by
    unfold best at missing
    split at missing
    · exact List.argmin_eq_none.mp missing
    · exact List.argmax_eq_none.mp missing
  intro crosses
  have candidate : other ∈ book.filter fun candidate => Crosses taker candidate :=
    List.mem_filter.mpr ⟨member, by simpa using crosses⟩
  rw [empty] at candidate
  simp at candidate

/-- Time priority: with any arrival relation along the book, the chosen maker
precedes every other crossing order at its price. -/
theorem best_earliest {Before : Resting ι π κ → Resting ι π κ → Prop}
    (arrival : book.Pairwise Before) (chosen : best taker book = some maker)
    (member : other ∈ book) (crosses : Crosses taker other)
    (samePrice : other.price = maker.price) : other = maker ∨ Before maker other := by
  classical
  have candidate : other ∈ book.filter fun candidate => Crosses taker candidate :=
    List.mem_filter.mpr ⟨member, by simpa using crosses⟩
  have order : (book.filter fun candidate => Crosses taker candidate).idxOf maker ≤
      (book.filter fun candidate => Crosses taker candidate).idxOf other := by
    unfold best at chosen
    split at chosen
    · exact List.index_of_argmin chosen candidate samePrice.le
    · exact List.index_of_argmax chosen candidate samePrice.ge
  have pairwise := arrival.filter fun candidate => Crosses taker candidate
  generalize book.filter (fun candidate => Crosses taker candidate) = candidates at *
  rcases Nat.lt_or_eq_of_le order with earlier | same
  · have before := (List.pairwise_iff_getElem.mp pairwise) _ _
      (Nat.lt_trans earlier (List.idxOf_lt_length_iff.mpr candidate))
      (List.idxOf_lt_length_iff.mpr candidate) earlier
    simp only [List.getElem_idxOf] at before
    exact .inr before
  · exact .inl ((List.idxOf_inj candidate).mp same.symm)

/-- The chosen maker heads its own price level. -/
theorem best_heads_level {Before : Resting ι π κ → Resting ι π κ → Prop}
    (asymmetric : ∀ left right, Before left right → ¬ Before right left)
    (arrival : book.Pairwise Before) (chosen : best taker book = some maker) :
    (book.filter fun order => order.side = maker.side ∧ order.price = maker.price).head? =
      some maker := by
  have makerCrosses := best_crosses chosen
  have queued : maker ∈ book.filter fun order =>
      order.side = maker.side ∧ order.price = maker.price :=
    List.mem_filter.mpr ⟨best_mem chosen, by simp⟩
  have pairwise := arrival.filter fun order => order.side = maker.side ∧ order.price = maker.price
  cases level : book.filter fun order => order.side = maker.side ∧ order.price = maker.price with
  | nil =>
      rw [level] at queued
      simp at queued
  | cons first rest =>
      have firstMember : first ∈ book.filter fun order =>
          order.side = maker.side ∧ order.price = maker.price := by
        rw [level]
        exact List.mem_cons_self
      obtain ⟨member, matching⟩ := List.mem_filter.mp firstMember
      have sameSide : first.side = maker.side ∧ first.price = maker.price := by simpa using matching
      have crosses : Crosses taker first :=
        ⟨sameSide.1.trans makerCrosses.1, sameSide.2.symm ▸ makerCrosses.2⟩
      rw [level] at queued pairwise
      rcases best_earliest arrival chosen member crosses sameSide.2 with same | later
      · simp [same]
      · rcases List.mem_cons.mp queued with same | behind
        · simp [same]
        · exact absurd (List.rel_of_pairwise_cons pairwise behind) (asymmetric _ _ later)

/-- No live buy reaches a live sell. -/
def Uncrossed (book : List (Resting ι π κ)) : Prop :=
  ∀ bid ∈ book, ∀ ask ∈ book, bid.side = .buy → ask.side = .sell → bid.price < ask.price

theorem Uncrossed.filter {book : List (Resting ι π κ)} (uncrossed : Uncrossed book)
    (select : Resting ι π κ → Bool) : Uncrossed (book.filter select) := by
  intro bid bidMember ask askMember
  exact uncrossed bid (List.mem_of_mem_filter bidMember) ask (List.mem_of_mem_filter askMember)

/-- An order that crosses nothing can be queued without crossing the book. -/
theorem Uncrossed.append {book : List (Resting ι π κ)} (uncrossed : Uncrossed book)
    {order : Resting ι π κ} (quiet : ∀ other ∈ book, ¬ Crosses order other) :
    Uncrossed (book ++ [order]) := by
  intro bid bidMember ask askMember buys sells
  rw [List.mem_append, List.mem_singleton] at bidMember askMember
  rcases bidMember with bidMember | rfl
  · rcases askMember with askMember | rfl
    · exact uncrossed bid bidMember ask askMember buys sells
    · by_contra reached
      refine quiet bid bidMember ⟨by rw [buys, sells]; rfl, ?_⟩
      rw [sells]
      exact not_lt.mp reached
  · rcases askMember with askMember | rfl
    · by_contra reached
      refine quiet ask askMember ⟨by rw [buys, sells]; rfl, ?_⟩
      rw [buys]
      exact not_lt.mp reached
    · rw [buys] at sells
      cases sells

end Best

/-! ## Executing an incoming order -/

section Execute

variable [DecidableEq ι] [LinearOrder π]

structure Execution (ι π κ : Type) where
  trades : List (Trade ι π κ)
  taker : Resting ι π κ
  book : List (Resting ι π κ)

/-- Trade until the taker is exhausted or nothing left crosses it. -/
def execute (taker : Resting ι π κ) (book : List (Resting ι π κ)) : Execution ι π κ :=
  if taker.remaining ≤ 0 then ⟨[], taker, book⟩
  else
    match _chosen : best taker book with
    | none => ⟨[], taker, book⟩
    | some maker =>
        if maker.remaining ≤ taker.remaining then
          let next := execute { taker with remaining := taker.remaining - maker.remaining }
            (reduce maker.id maker.remaining book)
          { next with trades := ⟨maker, maker.remaining⟩ :: next.trades }
        else
          ⟨[⟨maker, taker.remaining⟩], { taker with remaining := 0 },
            reduce maker.id taker.remaining book⟩
termination_by book.length
decreasing_by exact reduce_length_lt (best_mem _chosen) rfl le_rfl

/-- The runs of `execute`, one trade at a time. -/
inductive Executes : Resting ι π κ → List (Resting ι π κ) → List (Trade ι π κ) →
    Resting ι π κ → List (Resting ι π κ) → Prop where
  | done {taker book} :
      taker.remaining ≤ 0 ∨ best taker book = none → Executes taker book [] taker book
  | trade {taker book maker trades final left} :
      0 < taker.remaining → best taker book = some maker →
      Executes { taker with remaining := taker.remaining - min taker.remaining maker.remaining }
        (reduce maker.id (min taker.remaining maker.remaining) book) trades final left →
      Executes taker book (⟨maker, min taker.remaining maker.remaining⟩ :: trades) final left

theorem execute_executes (taker : Resting ι π κ) (book : List (Resting ι π κ)) :
    Executes taker book (execute taker book).trades (execute taker book).taker
      (execute taker book).book := by
  induction taker, book using execute.induct with
  | case1 taker book exhausted =>
      rw [execute, if_pos exhausted]
      exact .done (.inl exhausted)
  | case2 taker book live missing =>
      rw [execute, if_neg live]
      split
      · exact .done (.inr missing)
      · rename_i maker chosen
        cases missing.symm.trans chosen
  | case3 taker book live maker chosen exhausted ih =>
      rw [execute, if_neg live]
      split
      · rename_i missing
        cases missing.symm.trans chosen
      · rename_i other found
        cases found.symm.trans chosen
        rw [if_pos exhausted]
        have smaller : min taker.remaining maker.remaining = maker.remaining := by omega
        rw [← smaller] at ih
        have step := Executes.trade (by omega) chosen ih
        rwa [smaller] at step
  | case4 taker book live maker chosen partly =>
      rw [execute, if_neg live]
      split
      · rename_i missing
        cases missing.symm.trans chosen
      · rename_i other found
        cases found.symm.trans chosen
        rw [if_neg partly]
        have smaller : min taker.remaining maker.remaining = taker.remaining := by omega
        have step : Executes taker book [⟨maker, min taker.remaining maker.remaining⟩]
            { taker with remaining := 0 } (reduce maker.id taker.remaining book) :=
          .trade (by omega) chosen (by
            rw [smaller, Int.sub_self]
            exact .done (.inl le_rfl))
        rwa [smaller] at step

/-! ## What a run of trades does -/

omit [LinearOrder π] in
theorem WellFormed.reduce [Preorder ι] {book : List (Resting ι π κ)} (valid : WellFormed book)
    (id : ι) {qty : Int} : WellFormed (reduce id qty book) where
  positive order member := by
    rcases mem_reduce.mp member with ⟨kept, _⟩ | ⟨before, kept, _, partly, rfl⟩
    · exact valid.positive order kept
    · show 0 < before.remaining - qty
      omega
  arrival := pairwise_reduce (fun _ _ _ _ related => related) valid.arrival

theorem Uncrossed.reduce {book : List (Resting ι π κ)} (uncrossed : Uncrossed book) (id : ι)
    (qty : Int) : Uncrossed (reduce id qty book) := by
  intro bid bidMember ask askMember buys sells
  obtain ⟨bidBefore, bidKept, bidSame⟩ := mem_reduce_origin bidMember
  obtain ⟨askBefore, askKept, askSame⟩ := mem_reduce_origin askMember
  rw [bidSame] at buys ⊢
  rw [askSame] at sells ⊢
  exact uncrossed bidBefore bidKept askBefore askKept buys sells

section Runs

variable {taker final : Resting ι π κ} {book left : List (Resting ι π κ)}
  {trades : List (Trade ι π κ)}

/-- The effect of a list of trades on the makers' side. -/
def settle (trades : List (Trade ι π κ)) (book : List (Resting ι π κ)) : List (Resting ι π κ) :=
  trades.foldl (fun book trade => reduce trade.maker.id trade.qty book) book

omit [LinearOrder π] in
theorem WellFormed.settle [Preorder ι] (valid : WellFormed book) (trades : List (Trade ι π κ)) :
    WellFormed (settle trades book) := by
  induction trades generalizing book with
  | nil => exact valid
  | cons trade rest ih => exact ih (valid.reduce _)

theorem Executes.book_eq (run : Executes taker book trades final left) :
    left = settle trades book := by
  induction run with
  | done _ => rfl
  | trade _ _ _ ih => exact ih

theorem Executes.taker_eq (run : Executes taker book trades final left) :
    final = { taker with remaining := final.remaining } := by
  induction run with
  | done _ => rfl
  | trade _ _ _ ih => exact ih

theorem Executes.conserves (run : Executes taker book trades final left) :
    final.remaining + (trades.map (·.qty)).sum = taker.remaining := by
  induction run with
  | done _ => simp
  | trade _ _ _ ih =>
      simp only [List.map_cons, List.sum_cons] at ih ⊢
      omega

theorem Executes.remaining_nonneg (run : Executes taker book trades final left)
    (live : 0 ≤ taker.remaining) : 0 ≤ final.remaining := by
  induction run with
  | done _ => exact live
  | trade _ _ _ ih =>
      apply ih
      show 0 ≤ _ - min _ _
      omega

/-- A run stops only when the taker is exhausted or crosses nothing. -/
theorem Executes.settled (run : Executes taker book trades final left) :
    final.remaining ≤ 0 ∨ ∀ other ∈ left, ¬ Crosses final other := by
  induction run with
  | done stopped => exact stopped.imp_right fun missing _ member => best_eq_none missing member
  | trade _ _ _ ih => exact ih

theorem Executes.wellFormed [Preorder ι] (run : Executes taker book trades final left)
    (valid : WellFormed book) : WellFormed left := by
  induction run with
  | done _ => exact valid
  | trade _ _ _ ih => exact ih (valid.reduce _)

theorem Executes.uncrossed (run : Executes taker book trades final left)
    (quiet : Uncrossed book) : Uncrossed left := by
  induction run with
  | done _ => exact quiet
  | trade _ _ _ ih => exact ih (quiet.reduce _ _)

/-- Each trade takes a positive quantity within both sides, from an order that
was on the book and that no other trade of the run touches. -/
theorem Executes.makers [Preorder ι] (run : Executes taker book trades final left)
    (valid : WellFormed book) :
    (trades.map (·.maker.id)).Nodup ∧ ∀ trade ∈ trades, trade.maker ∈ book ∧
      Crosses taker trade.maker ∧ 0 < trade.qty ∧ trade.qty ≤ trade.maker.remaining := by
  induction run with
  | done _ => simp
  | @trade taker book maker trades final left live chosen rest ih =>
      obtain ⟨distinct, sound⟩ := ih (valid.reduce _)
      have makerMember := best_mem chosen
      have makerPositive := valid.positive maker makerMember
      -- A later trade exists only if this one exhausted its maker.
      have untouched : ∀ trade ∈ trades, trade.maker ∈ book ∧ trade.maker.id ≠ maker.id := by
        intro trade member
        rcases mem_reduce.mp (sound trade member).1 with kept | ⟨before, kept, same, partly, _⟩
        · exact kept
        · cases valid.eq_of_id kept makerMember same
          cases rest with
          | done _ => simp at member
          | trade again _ _ =>
              simp only at again
              omega
      refine ⟨?_, ?_⟩
      · rw [List.map_cons, List.nodup_cons]
        refine ⟨?_, distinct⟩
        intro repeated
        obtain ⟨trade, member, same⟩ := List.mem_map.mp repeated
        exact (untouched trade member).2 same
      · intro trade member
        rcases List.mem_cons.mp member with rfl | later
        · exact ⟨makerMember, best_crosses chosen, by simp only; omega, by simp only; omega⟩
        · exact ⟨(untouched trade later).1, (sound trade later).2⟩

/-- What a list of trades took from one maker. -/
def drawn (trades : List (Trade ι π κ)) (id : ι) : Int :=
  ((trades.filter fun trade => trade.maker.id = id).map (·.qty)).sum

omit [LinearOrder π] in
theorem drawn_cons (trade : Trade ι π κ) (trades : List (Trade ι π κ)) (id : ι) :
    drawn (trade :: trades) id = (if trade.maker.id = id then trade.qty else 0) + drawn trades id := by
  by_cases same : trade.maker.id = id <;> simp [drawn, same]

omit [LinearOrder π] in
theorem drawn_of_absent {id : ι} (absent : ∀ trade ∈ trades, trade.maker.id ≠ id) :
    drawn trades id = 0 := by
  rw [drawn, List.filter_eq_nil_iff.mpr (by simpa using absent)]
  rfl

omit [LinearOrder π] in
theorem drawn_of_mem (distinct : (trades.map (·.maker.id)).Nodup) {trade : Trade ι π κ}
    (member : trade ∈ trades) : drawn trades trade.maker.id = trade.qty := by
  induction trades with
  | nil => simp at member
  | cons head rest ih =>
      rw [List.map_cons, List.nodup_cons] at distinct
      obtain ⟨fresh, distinct⟩ := distinct
      rw [drawn_cons]
      cases member with
      | head =>
          rw [if_pos rfl, drawn_of_absent, Int.add_zero]
          intro other otherMember same
          exact fresh (same ▸ List.mem_map_of_mem otherMember)
      | tail _ later =>
          have different : head.maker.id ≠ trade.maker.id := by
            intro same
            exact fresh (same ▸ List.mem_map_of_mem later)
          rw [if_neg different, ih distinct later, Int.zero_add]

omit [LinearOrder π] in
theorem drawn_nonneg (taken : ∀ trade ∈ trades, 0 < trade.qty) (id : ι) : 0 ≤ drawn trades id := by
  apply List.sum_nonneg
  intro qty member
  obtain ⟨trade, tradeMember, rfl⟩ := List.mem_map.mp member
  exact (taken trade (List.mem_of_mem_filter tradeMember)).le

/-- A run never adds to its taker. -/
theorem Executes.remaining_le [Preorder ι] (run : Executes taker book trades final left)
    (valid : WellFormed book) : final.remaining ≤ taker.remaining := by
  obtain ⟨-, sound⟩ := run.makers valid
  have conserved := run.conserves
  have nonneg : 0 ≤ (trades.map (·.qty)).sum := by
    apply List.sum_nonneg
    intro qty member
    obtain ⟨trade, tradeMember, rfl⟩ := List.mem_map.mp member
    exact (sound trade tradeMember).2.2.1.le
  omega

theorem Executes.length_le [Preorder ι] (run : Executes taker book trades final left)
    (valid : WellFormed book) : trades.length ≤ book.length := by
  obtain ⟨distinct, sound⟩ := run.makers valid
  have within : trades.map (·.maker.id) ⊆ book.map (·.id) := by
    intro id member
    obtain ⟨trade, tradeMember, rfl⟩ := List.mem_map.mp member
    exact List.mem_map_of_mem (sound trade tradeMember).1
  simpa using (List.Nodup.subperm distinct within).length_le

omit [LinearOrder π] in
theorem settle_eq_self (absent : ∀ trade ∈ trades, ∀ order ∈ book, order.id ≠ trade.maker.id) :
    settle trades book = book := by
  induction trades with
  | nil => rfl
  | cons trade rest ih =>
      rw [settle, List.foldl_cons, reduce_eq_self (absent trade List.mem_cons_self), ← settle]
      exact ih fun later member => absent later (List.mem_cons_of_mem _ member)

omit [LinearOrder π] in
/-- Trades with distinct makers settle each order on its own. -/
theorem settle_eq_filterMap (distinct : (trades.map (·.maker.id)).Nodup)
    (positive : ∀ order ∈ book, 0 < order.remaining) :
    settle trades book = book.filterMap fun order =>
      reduceOne order.id (drawn trades order.id) order := by
  induction trades generalizing book with
  | nil =>
      have kept : ∀ order ∈ book, reduceOne order.id (drawn ([] : List (Trade ι π κ)) order.id) order =
          some order := by
        intro order member
        have live := positive order member
        simp [reduceOne, drawn, Int.not_le.mpr live]
      rw [List.filterMap_congr kept, List.filterMap_some]
      rfl
  | cons trade rest ih =>
      rw [List.map_cons, List.nodup_cons] at distinct
      obtain ⟨fresh, distinct⟩ := distinct
      have untouched : drawn rest trade.maker.id = 0 := by
        apply drawn_of_absent
        intro later member same
        exact fresh (same ▸ List.mem_map_of_mem member)
      have stillPositive : ∀ order ∈ reduce trade.maker.id trade.qty book, 0 < order.remaining := by
        intro order member
        rcases mem_reduce.mp member with ⟨kept, _⟩ | ⟨before, _, _, partly, rfl⟩
        · exact positive order kept
        · show 0 < before.remaining - trade.qty
          omega
      rw [settle, List.foldl_cons, ← settle, ih distinct stillPositive, reduce,
        List.filterMap_filterMap]
      apply List.filterMap_congr
      intro order member
      have live := positive order member
      rw [drawn_cons]
      by_cases same : order.id = trade.maker.id
      · rw [same, if_pos rfl, untouched, Int.add_zero]
        by_cases exhausted : order.remaining ≤ trade.qty
        · simp [reduceOne, same, exhausted]
        · simp [reduceOne, same, exhausted, untouched]
      · rw [if_neg (Ne.symm same), Int.zero_add]
        simp [reduceOne, same]

omit [LinearOrder π] in
/-- Seen without its quantities, a settled book is the book less the orders drawn empty. -/
theorem settle_map {β : Type} (view : Resting ι π κ → β)
    (blind : ∀ (order : Resting ι π κ) remaining, view { order with remaining } = view order)
    (distinct : (trades.map (·.maker.id)).Nodup) (positive : ∀ order ∈ book, 0 < order.remaining) :
    (settle trades book).map view =
      (book.filter fun order => drawn trades order.id < order.remaining).map view := by
  rw [settle_eq_filterMap distinct positive, ← List.filterMap_eq_map, List.filterMap_filterMap,
    List.filterMap_filter]
  apply List.filterMap_congr
  intro order _
  by_cases exhausted : order.remaining ≤ drawn trades order.id
  · simp [reduceOne, exhausted]
  · simp [reduceOne, exhausted, Int.not_le.mp exhausted, blind]

omit [DecidableEq ι] in
theorem best_map_bare (taker : Resting ι π κ) (book : List (Resting ι π κ)) :
    best taker.bare (book.map Resting.bare) = (best taker book).map Resting.bare := by
  have crossing : (book.map Resting.bare).filter (fun maker => Crosses taker.bare maker) =
      (book.filter fun maker => Crosses taker maker).map Resting.bare := by
    rw [List.filter_map]
    rfl
  have argmin : ∀ orders : List (Resting ι π κ), (orders.map Resting.bare).argmin (·.price) =
      (orders.argmin (·.price)).map Resting.bare := by
    intro orders
    induction orders with
    | nil => rfl
    | cons head tail ih =>
        rw [List.map_cons, List.argmin_cons, List.argmin_cons, ih]
        cases tail.argmin (·.price) with
        | none => rfl
        | some other =>
            simp only [Option.map_some]
            by_cases smaller : other.price < head.price <;> simp [smaller]
  have argmax : ∀ orders : List (Resting ι π κ), (orders.map Resting.bare).argmax (·.price) =
      (orders.argmax (·.price)).map Resting.bare := by
    intro orders
    induction orders with
    | nil => rfl
    | cons head tail ih =>
        rw [List.map_cons, List.argmax_cons, List.argmax_cons, ih]
        cases tail.argmax (·.price) with
        | none => rfl
        | some other =>
            simp only [Option.map_some]
            by_cases larger : head.price < other.price <;> simp [larger]
  cases side : taker.side with
  | buy =>
      have bareSide : taker.bare.side = .buy := side
      simp only [best, bareSide, side, crossing, argmin]
  | sell =>
      have bareSide : taker.bare.side = .sell := side
      simp only [best, bareSide, side, crossing, argmax]

/-- The trade without its maker's ticket. -/
def Trade.bare (trade : Trade ι π κ) : Trade ι π Unit := ⟨trade.maker.bare, trade.qty⟩

/-- Tickets play no part in an execution. -/
theorem Executes.map_bare (run : Executes taker book trades final left) :
    Executes taker.bare (book.map Resting.bare) (trades.map Trade.bare) final.bare
      (left.map Resting.bare) := by
  induction run with
  | done stopped =>
      refine .done (stopped.imp_right fun missing => ?_)
      rw [best_map_bare, missing]
      rfl
  | @trade taker book maker trades final left live chosen rest ih =>
      have chosenBare : best taker.bare (book.map Resting.bare) = some maker.bare := by
        rw [best_map_bare, chosen]
        rfl
      rw [reduce_map_bare] at ih
      exact .trade live chosenBare ih

omit [LinearOrder π] in
theorem drawn_map_bare (trades : List (Trade ι π κ)) (id : ι) :
    drawn (trades.map Trade.bare) id = drawn trades id := by
  rw [drawn, drawn, List.filter_map, List.map_map]
  rfl

omit [DecidableEq ι] [LinearOrder π] in
theorem WellFormed.map_bare [Preorder ι] (valid : WellFormed book) :
    WellFormed (book.map Resting.bare) where
  positive order member := by
    obtain ⟨before, beforeMember, rfl⟩ := List.mem_map.mp member
    exact valid.positive before beforeMember
  arrival := List.pairwise_map.mpr valid.arrival

omit [DecidableEq ι] in
theorem Uncrossed.map_bare (uncrossed : Uncrossed book) :
    Uncrossed (book.map Resting.bare) := by
  intro bid bidMember ask askMember buys sells
  obtain ⟨bidBefore, bidKept, rfl⟩ := List.mem_map.mp bidMember
  obtain ⟨askBefore, askKept, rfl⟩ := List.mem_map.mp askMember
  exact uncrossed bidBefore bidKept askBefore askKept buys sells

end Runs

end Execute

end QuantArena.Foundations.PriceTime
