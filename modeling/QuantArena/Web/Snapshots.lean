import QuantArena.Foundations.Canonical
import QuantArena.Web.Resync

/-! A resync whose answers are the ledger's, each at a place of the stream where the user had the
same messages, puts the ledger's portfolio in place of what was there. -/

set_option autoImplicit false

namespace QuantArena.Web

open Foundations Contracts Fanout

/-! ## The ledger along the stream -/

namespace Viewer

/-- The ledger of the first records. -/
def ledgerAt (viewer : Viewer) (count : Nat) : Ledger :=
  Ledger.new.applyAll (viewer.events.take count)

def tapeAt (viewer : Viewer) (count : Nat) : Exchange.Tape :=
  Exchange.Tape.blank.readAll ((viewer.events.take count).map (·.1))

/-- An engine's stream, whose symbols are configured, under names of their own. -/
structure Regular (viewer : Viewer) : Prop where
  plain : PlainNames viewer.symbols
  lawful : Exchange.Tape.blank.LawfulAll (viewer.events.map (·.1))
  configured : ∀ event ∈ viewer.events, Configured viewer.symbols event.1

variable {viewer : Viewer}

theorem events_take (viewer : Viewer) (count : Nat) :
    (viewer.events.take count).map (·.1) = (viewer.outbound.take count).map (·.2) := by
  rw [events, ← List.map_take, List.map_map]
  rfl

theorem owedBy_eq (viewer : Viewer) (count : Nat) :
    viewer.owedBy count = owed viewer.symbols viewer.userId ((viewer.events.take count).map (·.1)) := by
  rw [owedBy, events_take]

theorem events_split (viewer : Viewer) {first second : Nat} (le : first ≤ second) :
    viewer.events.take second =
      viewer.events.take first ++ (viewer.events.take second).drop first := by
  have whole := List.take_append_drop first (viewer.events.take second)
  rw [List.take_take, min_eq_left le] at whole
  exact whole.symm

theorem ledgerAt_append (viewer : Viewer) {first second : Nat} (le : first ≤ second) :
    viewer.ledgerAt second =
      (viewer.ledgerAt first).applyAll ((viewer.events.take second).drop first) := by
  conv_lhs => rw [ledgerAt, events_split viewer le]
  exact List.foldl_append

theorem owedBy_append (viewer : Viewer) {first second : Nat} (le : first ≤ second) :
    viewer.owedBy second = viewer.owedBy first ++ owed viewer.symbols viewer.userId
      (((viewer.events.take second).drop first).map (·.1)) := by
  rw [owedBy_eq, owedBy_eq]
  conv_lhs => rw [events_split viewer le, List.map_append]
  exact List.flatMap_append

namespace Regular

theorem lawful_split (regular : viewer.Regular) {first second : Nat} (le : first ≤ second) :
    (viewer.tapeAt first).LawfulAll (((viewer.events.take second).drop first).map (·.1)) := by
  have lawful := regular.lawful
  rw [← List.take_append_drop second viewer.events, List.map_append,
    Exchange.Tape.lawfulAll_append, events_split viewer le, List.map_append,
    Exchange.Tape.lawfulAll_append] at lawful
  exact lawful.1.2

theorem lawful_take (regular : viewer.Regular) (count : Nat) :
    Exchange.Tape.blank.LawfulAll ((viewer.events.take count).map (·.1)) := by
  have lawful := regular.lawful
  rw [← List.take_append_drop count viewer.events, List.map_append,
    Exchange.Tape.lawfulAll_append] at lawful
  exact lawful.1

theorem configured_take (regular : viewer.Regular) (count : Nat) :
    ∀ event ∈ viewer.events.take count, Configured viewer.symbols event.1 :=
  fun event member => regular.configured event (List.mem_of_mem_take member)

theorem valid (regular : viewer.Regular) (count : Nat) : (viewer.tapeAt count).Valid :=
  Exchange.Tape.blank_valid.readAll (regular.lawful_take count)

theorem follows (regular : viewer.Regular) (count : Nat) :
    (viewer.ledgerAt count).Follows (viewer.tapeAt count) :=
  Ledger.new_follows.applyAll Exchange.Tape.blank_valid (regular.lawful_take count)

theorem keyed (viewer : Viewer) (count : Nat) : (viewer.ledgerAt count).Keyed :=
  Ledger.new_keyed.applyAll _

theorem namedOnly (regular : viewer.Regular) (count : Nat) :
    NamedOnly viewer.symbols (viewer.ledgerAt count) :=
  (new_namedOnly viewer.symbols).applyAll (regular.configured_take count)

/-- The balance of any user, told from what the user is owed. -/
theorem cash (regular : viewer.Regular) (userId : Int) {first second : Nat} (le : first ≤ second) :
    (viewer.ledgerAt second).cashBalances.get? userId =
      (owed viewer.symbols userId (((viewer.events.take second).drop first).map (·.1))).foldl
        cashAfter ((viewer.ledgerAt first).cashBalances.get? userId) := by
  rw [ledgerAt_append viewer le]
  exact records_cash _ fun event member =>
    regular.configured_take second event (List.mem_of_mem_drop member)

/-- Who once has a balance keeps one. -/
theorem cash_persists (regular : viewer.Regular) {userId : Int} {first second : Nat}
    (le : first ≤ second) (none_ : (viewer.ledgerAt second).cashBalances.get? userId = none) :
    (viewer.ledgerAt first).cashBalances.get? userId = none := by
  rw [regular.cash userId le] at none_
  have kept : ∀ (messages : List PrivateBody) (cash : Int),
      messages.foldl cashAfter (some cash) ≠ none := by
    intro messages
    induction messages with
    | nil => exact fun _ same => by cases same
    | cons message rest ih =>
        intro cash
        cases message with
        | fill _ symbol _ _ _ _ => cases symbol <;> exact ih _
        | _ => exact ih _
  cases found : (viewer.ledgerAt first).cashBalances.get? userId with
  | none => rfl
  | some cash =>
      rw [found] at none_
      exact absurd none_ (kept _ cash)

theorem quiet (regular : viewer.Regular) {first second : Nat} (le : first ≤ second)
    (same : (viewer.owedBy first).length = (viewer.owedBy second).length) :
    SameHoldings viewer.userId (viewer.ledgerAt second) (viewer.ledgerAt first) ∧
      (viewer.ledgerAt second).cashBalances.get? viewer.userId =
        (viewer.ledgerAt first).cashBalances.get? viewer.userId := by
  rw [owedBy_append viewer le, List.length_append] at same
  have none_ := List.eq_nil_of_length_eq_zero (Nat.left_eq_add.mp same)
  constructor
  · rw [ledgerAt_append viewer le]
    exact records_quiet (regular.follows first) (regular.valid first) (regular.lawful_split le) none_
  · rw [regular.cash viewer.userId le, none_]
    rfl

/-- Where the user has been sent the same messages, the ledger holds the same for it. -/
theorem same (regular : viewer.Regular) {first second : Nat}
    (same : (viewer.owedBy first).length = (viewer.owedBy second).length) :
    SameHoldings viewer.userId (viewer.ledgerAt first) (viewer.ledgerAt second) ∧
      (viewer.ledgerAt first).cashBalances.get? viewer.userId =
        (viewer.ledgerAt second).cashBalances.get? viewer.userId := by
  cases le_total first second with
  | inl le =>
      obtain ⟨holdings, cash⟩ := regular.quiet le same
      exact ⟨holdings.symm, cash.symm⟩
  | inr le => exact regular.quiet le same.symm

end Regular

/-! ## Answers -/

/-- The user's open orders in the ledger of the first records. -/
structure OrdersOf (viewer : Viewer) (count : Nat) (answer : List OpenOrderItemDto) : Prop where
  distinct : (answer.map (·.orderId)).Nodup
  listed : ∀ item, item ∈ answer ↔
    (ownOrder viewer.userId (viewer.ledgerAt count) item.orderId).map openOrderItem = some item

/-- And its positions other than zero. -/
structure PositionsOf (viewer : Viewer) (count : Nat) (answer : List (Int × Int)) : Prop where
  distinct : (answer.map (·.1)).Nodup
  listed : ∀ position, position ∈ answer ↔
    position.2 ≠ 0 ∧ (viewer.ledgerAt count).getPosition viewer.userId position.1 = position.2

variable {first second : Nat}

theorem OrdersOf.congr {answer : List OpenOrderItemDto} (orders : viewer.OrdersOf first answer)
    (same : SameHoldings viewer.userId (viewer.ledgerAt first) (viewer.ledgerAt second)) :
    viewer.OrdersOf second answer where
  distinct := orders.distinct
  listed item := by rw [orders.listed, same.openOrders]

theorem PositionsOf.congr {answer : List (Int × Int)} (positions : viewer.PositionsOf first answer)
    (same : SameHoldings viewer.userId (viewer.ledgerAt first) (viewer.ledgerAt second)) :
    viewer.PositionsOf second answer where
  distinct := positions.distinct
  listed position := by rw [positions.listed, same.positions]

end Viewer

/-! ## What a resync makes of them -/

/-- The entry that a position of an answer becomes. -/
def positionEntry (nameById : Int → Option Name) (position : Int × Int) :
    Option (Name × Option Int) :=
  (nameById position.1).bind fun name =>
    if position.2 ≠ 0 ∧ name ≠ protoMember then some (name, some position.2) else none

def orderEntry (nameById : Int → Option Name) (order : OpenOrderItemDto) :
    Option (Int × OpenOrderView) :=
  (nameById order.symbolId).map fun name => (order.orderId, ⟨order.orderId, order.clientOrderId,
    name, order.side, order.priceTicks, order.qty, order.remainingQty, order.tif⟩)

section Replaced

variable {nameById : Int → Option Name}

theorem positions_replaced (answer : List (Int × Int)) :
    answer.foldl (putPosition nameById) .empty =
      .ofEntries (answer.filterMap (positionEntry nameById)) := by
  apply Dict.foldl_entries
  intro positions position
  unfold putPosition positionEntry
  cases nameById position.1 with
  | none => simp
  | some name => by_cases kept : position.2 ≠ 0 ∧ name ≠ protoMember <;> simp [kept]

theorem orders_replaced (answer : List OpenOrderItemDto) :
    answer.foldl (putOrder nameById) .empty =
      .ofEntries (answer.filterMap (orderEntry nameById)) := by
  apply Dict.foldl_entries
  intro orders order
  unfold putOrder orderEntry
  cases nameById order.symbolId <;> rfl

theorem positionEntry_eq_some {position : Int × Int} {entry : Name × Option Int} :
    positionEntry nameById position = some entry ↔
      (position.2 ≠ 0 ∧ entry.1 ≠ protoMember) ∧ nameById position.1 = some entry.1 ∧
        some position.2 = entry.2 := by
  unfold positionEntry
  cases named : nameById position.1 with
  | none => simp
  | some name =>
      obtain ⟨label, value⟩ := entry
      simp only [Option.bind_some, Option.some.injEq]
      constructor
      · intro made
        split at made
        · rename_i kept
          obtain ⟨rfl, rfl⟩ := Prod.mk.inj (Option.some.inj made)
          exact ⟨kept, rfl, rfl⟩
        · cases made
      · rintro ⟨kept, rfl, rfl⟩
        rw [if_pos kept]

theorem orderEntry_eq_some {order : OpenOrderItemDto} {entry : Int × OpenOrderView}
    (made : orderEntry nameById order = some entry) :
    order.orderId = entry.1 ∧ nameById order.symbolId = some entry.2.symbol := by
  obtain ⟨name, named, rfl⟩ := Option.map_eq_some_iff.mp made
  exact ⟨rfl, named⟩

end Replaced

namespace Viewer

variable {viewer : Viewer} {count : Nat}

theorem PositionsOf.unique {answer : List (Int × Int)} (positions : viewer.PositionsOf count answer) :
    ((answer.filterMap (positionEntry viewer.symbols.symbolName)).map Prod.fst).Nodup := by
  have distinct := positions.distinct
  simp only [List.Nodup, List.pairwise_map, List.pairwise_filterMap] at distinct ⊢
  apply distinct.imp
  intro one other apart entry made entry' made' same
  have named := (positionEntry_eq_some.mp made).2.1
  have named' := (positionEntry_eq_some.mp made').2.1
  exact apart (symbolName_inj named (same ▸ named'))

theorem OrdersOf.unique {answer : List OpenOrderItemDto} (orders : viewer.OrdersOf count answer) :
    ((answer.filterMap (orderEntry viewer.symbols.symbolName)).map Prod.fst).Nodup := by
  have distinct := orders.distinct
  simp only [List.Nodup, List.pairwise_map, List.pairwise_filterMap] at distinct ⊢
  apply distinct.imp
  intro one other apart entry made entry' made' same
  exact apart ((orderEntry_eq_some made).1.trans (same.trans (orderEntry_eq_some made').1.symm))

/-- A quantity stands under a name exactly if the ledger holds it in the symbol of that name. -/
theorem PositionsOf.replaced {answer : List (Int × Int)} (positions : viewer.PositionsOf count answer)
    {symbolId : Int} {value : Option Int} {name : Name}
    (named : viewer.symbols.symbolName symbolId = some name) (own : name ≠ protoMember) :
    (Dict.ofEntries (answer.filterMap (positionEntry viewer.symbols.symbolName))).get? name =
        some value ↔
      value ≠ some 0 ∧
        some ((viewer.ledgerAt count).getPosition viewer.userId symbolId) = value := by
  rw [Dict.get?_ofEntries positions.unique, List.mem_filterMap]
  constructor
  · intro ⟨position, member, made⟩
    obtain ⟨⟨nonzero, -⟩, named', rfl⟩ := positionEntry_eq_some.mp made
    obtain rfl := symbolName_inj named named'
    obtain ⟨-, held⟩ := (positions.listed position).mp member
    exact ⟨fun zero => nonzero (Option.some.inj zero), congrArg some held⟩
  · rintro ⟨nonzero, rfl⟩
    have held : (viewer.ledgerAt count).getPosition viewer.userId symbolId ≠ 0 :=
      fun zero => nonzero (congrArg some zero)
    exact ⟨(symbolId, _), (positions.listed _).mpr ⟨held, rfl⟩,
      positionEntry_eq_some.mpr ⟨⟨held, own⟩, named, rfl⟩⟩

theorem OrdersOf.replaced {answer : List OpenOrderItemDto} (orders : viewer.OrdersOf count answer)
    (regular : viewer.Regular) (orderId : Int) :
    ((Dict.ofEntries (answer.filterMap (orderEntry viewer.symbols.symbolName))).get? orderId).map
        some =
      (ownOrder viewer.userId (viewer.ledgerAt count) orderId).map (viewed viewer.symbols) := by
  have entries : ∀ view,
      (Dict.ofEntries (answer.filterMap (orderEntry viewer.symbols.symbolName))).get? orderId =
        some view ↔ ∃ item ∈ answer, orderEntry viewer.symbols.symbolName item =
          some (orderId, view) := by
    intro view
    rw [Dict.get?_ofEntries orders.unique, List.mem_filterMap]
  cases own : ownOrder viewer.userId (viewer.ledgerAt count) orderId with
  | none =>
      cases shown : (Dict.ofEntries
          (answer.filterMap (orderEntry viewer.symbols.symbolName))).get? orderId with
      | none => rfl
      | some view =>
          obtain ⟨item, member, made⟩ := (entries view).mp shown
          have listed := (orders.listed item).mp member
          rw [(orderEntry_eq_some made).1, own] at listed
          cases listed
  | some order =>
      have found := (Option.filter_eq_some_iff.mp own).1
      have key : order.orderId = orderId := Regular.keyed viewer count orderId order found
      obtain ⟨name, named⟩ := Option.isSome_iff_exists.mp
        ((regular.namedOnly count).openOrders orderId order found)
      have member : openOrderItem order ∈ answer := by
        apply (orders.listed _).mpr
        have sameId : (openOrderItem order).orderId = orderId := key
        rw [sameId, own]
        rfl
      have shown := (entries ⟨orderId, order.clientOrderId, name, order.side, order.priceTicks,
        order.qty, order.remainingQty, order.tif⟩).mpr
          ⟨openOrderItem order, member, by simp [orderEntry, openOrderItem, named, key]⟩
      simp [shown, viewed, named, key]

/-- The state after a resync shows the ledger that its answers were read from. -/
theorem Regular.replaced_shows (regular : viewer.Regular) {openOrders : List OpenOrderItemDto}
    {positions : List (Int × Int)} (orders : viewer.OrdersOf count openOrders)
    (held : viewer.PositionsOf count positions) (state : PortfolioState) (userId cash atMs : Int) :
    ShowsHoldings viewer.symbols viewer.userId
      (state.replaced openOrders ⟨userId, cash, positions⟩ viewer.symbols.symbolName atMs)
      (viewer.ledgerAt count) where
  positions symbolId := by
    simp only [PortfolioState.replaced, positions_replaced]
    cases named : viewer.symbols.symbolName symbolId with
    | none =>
        rw [Option.map_none, Option.getD_none, Ledger.getPosition, Dict.getD]
        cases found : (viewer.ledgerAt count).positions.get? (viewer.userId, symbolId) with
        | none => rfl
        | some qty =>
            have some_ := (regular.namedOnly count).positions _ qty found
            rw [named] at some_
            cases some_
    | some name =>
        have plain := regular.plain.symbolName named
        rw [Option.map_some, Option.getD_some, heldUnder_of_plain plain, Dict.getD]
        cases shown : (Dict.ofEntries
            (positions.filterMap (positionEntry viewer.symbols.symbolName))).get? name with
        | none =>
            by_contra nonzero
            have present := (held.replaced named (ne_protoMember plain)).mpr ⟨nonzero, rfl⟩
            rw [shown] at present
            cases present
        | some value =>
            exact ((held.replaced named (ne_protoMember plain)).mp shown).2
  held name value found := by
    simp only [PortfolioState.replaced, positions_replaced] at found
    obtain ⟨position, -, made⟩ := List.mem_filterMap.mp
      ((Dict.get?_ofEntries held.unique).mp found)
    obtain ⟨⟨nonzero, -⟩, named, rfl⟩ := positionEntry_eq_some.mp made
    exact ⟨fun zero => nonzero (Option.some.inj zero), position.1, named⟩
  openOrders orderId := by
    simp only [PortfolioState.replaced, orders_replaced]
    exact orders.replaced regular orderId

end Viewer

end QuantArena.Web
