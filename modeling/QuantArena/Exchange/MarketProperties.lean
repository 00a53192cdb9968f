import QuantArena.Exchange.Market

/-! Every inbound record keeps the market valid, and the records it produces are
lawful on the tape and lead to the market's new tape. -/

set_option autoImplicit false

namespace QuantArena.Exchange

open Foundations Foundations.PriceTime Contracts

variable {tape : Tape} {live book left : List LiveOrder} {taker final : LiveOrder}
  {trades : List (Trade Int Int Ticket)} {symbolId : Int}

theorem mem_onSymbol {order : LiveOrder} :
    order ∈ onSymbol symbolId live ↔ order ∈ live ∧ order.ticket.symbolId = symbolId := by
  simp [onSymbol]

theorem onSymbol_append (symbolId : Int) (before after : List LiveOrder) :
    onSymbol symbolId (before ++ after) = onSymbol symbolId before ++ onSymbol symbolId after :=
  List.filter_append ..

theorem onSymbol_reduce (symbolId orderId qty : Int) (live : List LiveOrder) :
    onSymbol symbolId (reduce orderId qty live) = reduce orderId qty (onSymbol symbolId live) :=
  filter_reduce _ fun _ _ => rfl

theorem onSymbol_settle (symbolId : Int) (trades : List (Trade Int Int Ticket))
    (live : List LiveOrder) :
    onSymbol symbolId (settle trades live) = settle trades (onSymbol symbolId live) := by
  induction trades generalizing live with
  | nil => rfl
  | cons trade rest ih =>
      rw [settle, List.foldl_cons, ← settle, ih, onSymbol_reduce]
      rfl

/-- A taker never crosses itself. -/
theorem best_append_self (taker : LiveOrder) (book : List LiveOrder) :
    best taker (book ++ [taker]) = best taker book := by
  have apart : ¬ Crosses taker taker := by
    intro crosses
    have opposite := crosses.1
    cases side : taker.side <;> rw [side] at opposite <;> cases opposite
  simp [best, List.filter_append, apart]

namespace Market

/-- Each trade of the newest order is lawful, and reading them settles the book. -/
theorem trades_lawful (run : Executes taker book trades final left) :
    ∀ (live : List LiveOrder) (next : Int), book = onSymbol taker.ticket.symbolId live →
      (∀ order ∈ live, order.id < taker.id) →
      (Tape.mk next (live ++ taker.standing)).LawfulAll
        (trades.map fun trade => .fill (fillOf taker trade)) ∧
      (Tape.mk next (live ++ taker.standing)).readAll
        (trades.map fun trade => .fill (fillOf taker trade)) =
          ⟨next, settle trades live ++ final.standing⟩ := by
  induction run with
  | done _ =>
      intro live next _ _
      exact ⟨trivial, rfl⟩
  | @trade taker book maker trades final left remains chosen rest ih =>
      intro live next selected older
      have makerMember := best_mem chosen
      rw [selected, mem_onSymbol] at makerMember
      obtain ⟨makerLive, makerSymbol⟩ := makerMember
      have standing : taker.standing = [taker] := if_pos remains
      have newest : reduce taker.id (min taker.remaining maker.remaining)
          (reduce maker.id (min taker.remaining maker.remaining) (live ++ taker.standing)) =
          reduce maker.id (min taker.remaining maker.remaining) live ++
            Resting.standing { taker with
              remaining := taker.remaining - min taker.remaining maker.remaining } := by
        rw [standing]
        exact reduce_newest (fun other member => (older other member).ne)
          (older maker makerLive).ne
      have executed : Tape.Executed ⟨next, live ++ taker.standing⟩
          (fillOf taker ⟨maker, min taker.remaining maker.remaining⟩) maker taker := by
        constructor <;> try rfl
        · exact List.mem_append_left _ makerLive
        · rw [standing]
          simp
        · exact makerSymbol.symm
        · show best taker (onSymbol maker.ticket.symbolId (live ++ taker.standing)) = some maker
          rw [standing, onSymbol_append, makerSymbol, ← selected]
          have own : onSymbol taker.ticket.symbolId [taker] = [taker] := by simp [onSymbol]
          rw [own, best_append_self, chosen]
      obtain ⟨lawful, read⟩ := ih
        (reduce maker.id (min taker.remaining maker.remaining) live) next
        (by rw [selected, onSymbol_reduce])
        (by
          intro order member
          obtain ⟨before, beforeMember, same⟩ := mem_reduce_origin member
          rw [same]
          exact older before beforeMember)
      simp only [List.map_cons, Tape.LawfulAll, Tape.readAll_cons]
      have step : (Tape.mk next (live ++ taker.standing)).read
          (.fill (fillOf taker ⟨maker, min taker.remaining maker.remaining⟩)) =
          ⟨next, reduce maker.id (min taker.remaining maker.remaining) live ++
            Resting.standing { taker with
              remaining := taker.remaining - min taker.remaining maker.remaining }⟩ := by
        rw [← newest]
        rfl
      rw [step]
      exact ⟨⟨⟨maker, taker, executed⟩, lawful⟩, read⟩

theorem mem_settle_origin {order : LiveOrder} (member : order ∈ settle trades live) :
    ∃ before ∈ live, order = { before with remaining := order.remaining } := by
  induction trades generalizing live with
  | nil => exact ⟨order, member, rfl⟩
  | cons trade rest ih =>
      obtain ⟨middle, middleMember, same⟩ := ih member
      obtain ⟨before, beforeMember, origin⟩ := mem_reduce_origin middleMember
      refine ⟨before, beforeMember, ?_⟩
      rw [same, origin]

theorem settle_older {orderId : Int} (issued : ∀ order ∈ live, order.id < orderId) :
    ∀ order ∈ settle trades live, order.id < orderId := by
  intro order member
  obtain ⟨before, beforeMember, same⟩ := mem_settle_origin member
  rw [same]
  exact issued before beforeMember

/-- The makers of a run on a symbol's book are distinct live orders of that symbol. -/
theorem makers_listed (unique : WellFormed live)
    (run : Executes taker (onSymbol symbolId live) trades final left) :
    (trades.map (·.maker.id)).Nodup ∧ ∀ trade ∈ trades, trade.maker ∈ live ∧
      trade.maker.ticket.symbolId = symbolId ∧ 0 < trade.qty ∧
        trade.qty ≤ trade.maker.remaining := by
  obtain ⟨distinct, sound⟩ := run.makers (unique.filter _)
  refine ⟨distinct, ?_⟩
  intro trade member
  obtain ⟨listed, -, positive, within⟩ := sound trade member
  obtain ⟨makerLive, symbol⟩ := mem_onSymbol.mp listed
  exact ⟨makerLive, symbol, positive, within⟩

theorem mem_standing {order taker : LiveOrder} :
    order ∈ taker.standing ↔ order = taker ∧ 0 < taker.remaining := by
  unfold Resting.standing
  split
  · simp only [List.mem_singleton, *, and_true]
  · simp only [List.not_mem_nil, *, and_false]

/-- On its symbol, a run leaves what it left and what it adds. -/
theorem onSymbol_traded {rest : List LiveOrder}
    (run : Executes taker (onSymbol taker.ticket.symbolId live) trades final left)
    (own : ∀ order ∈ rest, order.ticket.symbolId = taker.ticket.symbolId) :
    onSymbol taker.ticket.symbolId (settle trades live ++ rest) = left ++ rest := by
  rw [onSymbol_append, onSymbol_settle, ← run.book_eq]
  congr 1
  exact List.filter_eq_self.mpr (by simpa using own)

/-- Other symbols do not see a run. -/
theorem onSymbol_untraded {rest : List LiveOrder} (unique : WellFormed live)
    (run : Executes taker (onSymbol taker.ticket.symbolId live) trades final left)
    (own : ∀ order ∈ rest, order.ticket.symbolId = taker.ticket.symbolId)
    (different : symbolId ≠ taker.ticket.symbolId) :
    onSymbol symbolId (settle trades live ++ rest) = onSymbol symbolId live := by
  obtain ⟨-, sound⟩ := makers_listed unique run
  have elsewhere : onSymbol symbolId rest = [] := by
    rw [onSymbol, List.filter_eq_nil_iff]
    intro other member
    simpa [own other member] using Ne.symm different
  rw [onSymbol_append, onSymbol_settle, elsewhere, List.append_nil, settle_eq_self]
  intro trade tradeMember other otherMember sameId
  obtain ⟨makerLive, symbol, -⟩ := sound trade tradeMember
  obtain ⟨otherLive, otherSymbol⟩ := mem_onSymbol.mp otherMember
  rw [← unique.eq_of_id otherLive makerLive sameId] at symbol
  exact different (otherSymbol.symm.trans symbol)

/-! ## Admission -/

theorem admission_eq_ok {order : SubmitOrder} {side : Side} {tif : Tif} :
    admission order = .ok (side, tif) ↔ sideOf? order.side = some side ∧
      tifOf? order.tif = some tif ∧ 0 < order.priceTicks ∧ 0 < order.qty := by
  unfold admission
  cases sideOf? order.side with
  | none => simp
  | some namedSide =>
      cases tifOf? order.tif with
      | none => simp
      | some namedTif =>
          by_cases priced : order.priceTicks ≤ 0
          · simp [priced]
          · by_cases counted : order.qty ≤ 0
            · simp [priced, counted]
            · simp [priced, counted, Int.not_le.mp priced, Int.not_le.mp counted]

/-! ## The tape of one record -/

variable {market : Market}

theorem submit_lawful (valid : market.Valid) (order : SubmitOrder) :
    market.tape.LawfulAll (market.submit order).2 ∧
      market.tape.readAll (market.submit order).2 = (market.submit order).1.tape := by
  unfold submit
  cases admitted : admission order with
  | error reason => exact ⟨⟨trivial, trivial⟩, rfl⟩
  | ok choice =>
      obtain ⟨side, tif⟩ := choice
      obtain ⟨sideNamed, tifNamed, priced, counted⟩ := admission_eq_ok.mp admitted
      simp only
      generalize takerEq : market.takerOf order side = taker
      have takerId : taker.id = market.tape.nextOrderId := by rw [← takerEq]; rfl
      have takerSymbol : taker.ticket.symbolId = order.symbolId := by rw [← takerEq]; rfl
      have takerQty : taker.remaining = order.qty := by rw [← takerEq]; rfl
      have run := execute_executes taker (onSymbol order.symbolId market.tape.live)
      generalize execute taker (onSymbol order.symbolId market.tape.live) = result at run
      have entered : market.tape.read (.orderAccepted (acceptance order taker.id)) =
          ⟨taker.id + 1, market.tape.live ++ taker.standing⟩ := by
        have standing : taker.standing = [taker] := if_pos (by omega)
        rw [standing, ← takerEq]
        simp [Tape.read, Tape.announced, acceptance, sideNamed, takerOf]
      obtain ⟨tradesLawful, tradesRead⟩ := trades_lawful run market.tape.live (taker.id + 1)
        (by rw [takerSymbol]) (by
          intro other member
          rw [takerId]
          exact valid.tape.issued other member)
      have accepted : market.tape.Lawful (.orderAccepted (acceptance order taker.id)) :=
        ⟨takerId.ge, ⟨side, sideNamed⟩, ⟨tif, tifNamed⟩, priced, counted⟩
      simp only [Tape.LawfulAll, Tape.readAll_cons, entered, accepted, true_and,
        Tape.lawfulAll_append, Tape.readAll_append, tradesLawful, tradesRead]
      have older : ∀ other ∈ settle result.trades market.tape.live, other.id ≠ taker.id := by
        intro other member
        rw [takerId]
        exact (settle_older valid.tape.issued other member).ne
      cases tif with
      | gtc => exact ⟨trivial, rfl⟩
      | ioc =>
          simp only [reduceCtorEq, if_false, if_true, List.append_nil]
          have sameId : result.taker.id = taker.id := by rw [run.taker_eq]
          by_cases remains : 0 < result.taker.remaining
          · have standing : result.taker.standing = [result.taker] := if_pos remains
            simp only [standing, List.map_cons, List.map_nil]
            refine ⟨⟨⟨result.taker, by simp, rfl, rfl, rfl, rfl, rfl⟩, trivial⟩, ?_⟩
            simp only [Tape.readAll_cons, Tape.readAll_nil, Tape.read, cancellation, remove,
              List.filter_append, sameId]
            congr 1
            rw [List.filter_eq_self.mpr (by simpa using older)]
            simp [sameId]
          · have standing : result.taker.standing = [] := if_neg remains
            simp only [standing, List.map_nil, List.append_nil]
            exact ⟨trivial, rfl⟩

theorem named_eq_some (valid : market.Valid) {name : Int × Int} {order : LiveOrder} :
    market.named name = some order ↔
      order ∈ market.tape.live ∧ market.indexed name = some order.id := by
  unfold named
  rw [Option.bind_eq_some_iff]
  constructor
  · rintro ⟨orderId, found, present⟩
    have sameId : order.id = orderId := by simpa using List.find?_some present
    exact ⟨List.mem_of_find?_eq_some present, sameId ▸ found⟩
  · rintro ⟨member, found⟩
    refine ⟨order.id, found, ?_⟩
    cases present : market.tape.live.find? (·.id = order.id) with
    | none => simpa using List.find?_eq_none.mp present order member
    | some other =>
        have sameId : other.id = order.id := by simpa using List.find?_some present
        rw [valid.tape.wellFormed.eq_of_id (List.mem_of_find?_eq_some present) member sameId]

theorem named_key (valid : market.Valid) {name : Int × Int} {order : LiveOrder}
    (found : market.named name = some order) : key order = name := by
  obtain ⟨member, indexed⟩ := (named_eq_some valid).mp found
  obtain ⟨other, otherMember, sameId, sameKey⟩ := valid.index name order.id indexed
  rwa [valid.tape.wellFormed.eq_of_id otherMember member sameId] at sameKey

theorem apply_lawful (cash : Int) (valid : market.Valid) (record : Inbound) :
    market.tape.LawfulAll (market.apply cash record).2 ∧
      market.tape.readAll (market.apply cash record).2 = (market.apply cash record).1.tape := by
  cases record with
  | submitOrder order => exact submit_lawful valid order
  | cancelOrder request =>
      simp only [apply, cancel]
      cases found : market.named (request.userId, request.targetClientOrderId) with
      | none => exact ⟨⟨trivial, trivial⟩, rfl⟩
      | some order =>
          obtain ⟨member, -⟩ := (named_eq_some valid).mp found
          exact ⟨⟨⟨order, member, rfl, rfl, rfl, rfl, rfl⟩, trivial⟩, rfl⟩
  | createAccount create => exact ⟨⟨trivial, trivial⟩, rfl⟩
  | creditCash credit => exact ⟨⟨trivial, trivial⟩, rfl⟩
  | configureReplay replay => exact ⟨⟨trivial, trivial⟩, rfl⟩
  | other => exact ⟨trivial, rfl⟩

/-! ## Validity -/

theorem fresh_valid : fresh.Valid where
  tape := Tape.blank_valid
  numbered := ⟨by decide, by simp [fresh, Tape.blank]⟩
  uncrossed symbolId bid member := by simp [fresh, Tape.blank, onSymbol] at member
  index name orderId found := by cases found

/-- Freeing the keys of the orders that left keeps the index on live orders. -/
theorem freed_names {before after : List LiveOrder} {indexed : Int × Int → Option Int}
    (unique : WellFormed before)
    (origin : ∀ kept ∈ after, ∃ old ∈ before, kept.id = old.id ∧ kept.ticket = old.ticket)
    (names : ∀ name orderId, indexed name = some orderId →
      ∃ order ∈ before, order.id = orderId ∧ key order = name) :
    ∀ name orderId, freed before after indexed name = some orderId →
      ∃ order ∈ after, order.id = orderId ∧ key order = name := by
  intro name orderId found
  unfold freed at found
  split at found
  · cases found
  · rename_i present
    obtain ⟨order, member, sameId, sameKey⟩ := names name orderId found
    simp only [not_exists, not_and, not_forall, not_not] at present
    obtain ⟨kept, keptMember, keptId⟩ := present order member sameKey
    obtain ⟨old, oldMember, oldId, oldTicket⟩ := origin kept keptMember
    have same : old = order := unique.eq_of_id oldMember member (oldId.symm.trans keptId)
    refine ⟨kept, keptMember, keptId.trans sameId, ?_⟩
    rw [← sameKey, ← same, key, key, oldTicket]

/-- Only the ids of the orders that stay matter. -/
theorem freed_congr {before left right : List LiveOrder} (same : left.map (·.id) = right.map (·.id))
    (indexed : Int × Int → Option Int) : freed before left indexed = freed before right indexed := by
  have stays : ∀ orderId, (∀ kept ∈ left, kept.id ≠ orderId) ↔ ∀ kept ∈ right, kept.id ≠ orderId := by
    intro orderId
    have members : orderId ∈ left.map (·.id) ↔ orderId ∈ right.map (·.id) := by rw [same]
    simpa only [List.mem_map, not_exists, not_and] using not_congr members
  funext name
  simp only [freed, stays]

/-- Keys freed in two steps are the keys freed in one. -/
theorem freed_freed {before middle after : List LiveOrder} (unique : WellFormed before)
    (origin : ∀ kept ∈ middle, ∃ old ∈ before, old.id = kept.id ∧ key old = key kept)
    (within : ∀ kept ∈ after, kept ∈ middle) (indexed : Int × Int → Option Int) :
    freed middle after (freed before middle indexed) = freed before after indexed := by
  funext name
  unfold freed
  by_cases early : ∃ order ∈ before, key order = name ∧ ∀ kept ∈ middle, kept.id ≠ order.id
  · have whole : ∃ order ∈ before, key order = name ∧ ∀ kept ∈ after, kept.id ≠ order.id := by
      obtain ⟨order, member, sameKey, absent⟩ := early
      exact ⟨order, member, sameKey, fun kept keptMember => absent kept (within kept keptMember)⟩
    rw [if_pos whole, if_pos early]
    exact ite_self _
  · rw [if_neg early]
    congr 1
    rw [eq_iff_iff]
    constructor
    · intro late
      obtain ⟨order, member, sameKey, absent⟩ := late
      obtain ⟨old, oldMember, sameId, oldKey⟩ := origin order member
      exact ⟨old, oldMember, oldKey.trans sameKey, sameId ▸ absent⟩
    · intro whole
      obtain ⟨order, member, sameKey, absent⟩ := whole
      simp only [not_exists, not_and, not_forall, not_not] at early
      obtain ⟨kept, keptMember, sameId⟩ := early order member sameKey
      obtain ⟨old, oldMember, oldId, oldKey⟩ := origin kept keptMember
      have same : old = order := unique.eq_of_id oldMember member (oldId.trans sameId)
      exact ⟨kept, keptMember, (oldKey.symm.trans (congrArg key same)).trans sameKey, sameId ▸ absent⟩

theorem freed_self (orders : List LiveOrder) (indexed : Int × Int → Option Int) :
    freed orders orders indexed = indexed := by
  funext name
  unfold freed
  rw [if_neg]
  intro gone
  obtain ⟨order, member, -, absent⟩ := gone
  exact absent order member rfl

theorem freed_remove {live : List LiveOrder} (unique : WellFormed live) {order : LiveOrder}
    (member : order ∈ live) (indexed : Int × Int → Option Int) (name : Int × Int) :
    freed live (remove order.id live) indexed name =
      if name = key order then none else indexed name := by
  unfold freed
  congr 1
  rw [eq_iff_iff]
  constructor
  · intro gone
    obtain ⟨other, otherMember, rfl, absent⟩ := gone
    by_cases same : other.id = order.id
    · rw [unique.eq_of_id otherMember member same]
    · have stays : other ∈ remove order.id live :=
        List.mem_filter.mpr ⟨otherMember, by simpa using same⟩
      exact absurd rfl (absent other stays)
  · intro same
    refine ⟨order, member, same.symm, ?_⟩
    intro kept keptMember
    simpa using (List.mem_filter.mp keptMember).2

theorem uncrossed_settle {live : List LiveOrder} (trades : List (Trade Int Int Ticket))
    (uncrossed : Uncrossed live) : Uncrossed (settle trades live) := by
  induction trades generalizing live with
  | nil => exact uncrossed
  | cons trade rest ih => exact ih (uncrossed.reduce _ _)

theorem submit_valid (valid : market.Valid) (order : SubmitOrder) :
    (market.submit order).1.Valid := by
  obtain ⟨lawful, read⟩ := submit_lawful valid order
  have tapeValid := valid.tape.readAll lawful
  rw [read] at tapeValid
  clear lawful read
  revert tapeValid
  unfold submit
  cases admitted : admission order with
  | error reason => exact fun _ => valid
  | ok choice =>
      obtain ⟨side, tif⟩ := choice
      obtain ⟨-, -, -, counted⟩ := admission_eq_ok.mp admitted
      simp only
      generalize takerEq : market.takerOf order side = taker
      have takerId : taker.id = market.tape.nextOrderId := by rw [← takerEq]; rfl
      have takerSymbol : taker.ticket.symbolId = order.symbolId := by rw [← takerEq]; rfl
      have takerQty : taker.remaining = order.qty := by rw [← takerEq]; rfl
      have run := execute_executes taker (onSymbol order.symbolId market.tape.live)
      generalize execute taker (onSymbol order.symbolId market.tape.live) = result at run
      intro tapeValid
      have restOrigin : ∀ kept ∈ (if tif = .gtc then result.taker.standing else []),
          kept = result.taker := by
        intro kept member
        split at member
        · exact (mem_standing.mp member).1
        · simp at member
      have sameTaker := run.taker_eq
      refine ⟨tapeValid, ⟨?_, ?_⟩, ?_, ?_⟩
      · have numbered := valid.numbered.1
        show 0 < taker.id + 1
        omega
      · intro kept member
        rcases List.mem_append.mp member with member | member
        · obtain ⟨before, beforeMember, same⟩ := mem_settle_origin member
          rw [same]
          exact valid.numbered.2 before beforeMember
        · rw [restOrigin kept member, sameTaker, takerId]
          exact valid.numbered.1
      · intro symbolId
        show Uncrossed (onSymbol symbolId (_ ++ _))
        rw [onSymbol_append, onSymbol_settle]
        by_cases same : symbolId = order.symbolId
        · subst same
          rw [← run.book_eq]
          cases tif with
          | ioc => simpa [onSymbol] using run.uncrossed (valid.uncrossed _)
          | gtc =>
              by_cases remains : 0 < result.taker.remaining
              · have rest : onSymbol order.symbolId result.taker.standing = [result.taker] := by
                  have sameSymbol : result.taker.ticket.symbolId = order.symbolId := by
                    rw [sameTaker, takerSymbol]
                  simp [Resting.standing, remains, onSymbol, sameSymbol]
                simp only [if_true, rest]
                refine (run.uncrossed (valid.uncrossed _)).append ?_
                exact run.settled.resolve_left (Int.not_le.mpr remains)
              · simp only [if_true, Resting.standing, if_neg remains]
                simpa [onSymbol] using run.uncrossed (valid.uncrossed _)
        · have elsewhere : onSymbol symbolId
              (if tif = .gtc then result.taker.standing else []) = [] := by
            rw [onSymbol, List.filter_eq_nil_iff]
            intro kept member
            rw [restOrigin kept member, sameTaker]
            simpa [takerSymbol] using Ne.symm same
          rw [elsewhere, List.append_nil]
          exact uncrossed_settle _ (valid.uncrossed symbolId)
      · refine freed_names ?_ ?_ ?_
        · exact valid.tape.wellFormed.append_newest (takerQty ▸ counted)
            (takerId ▸ valid.tape.issued)
        · intro kept member
          rcases List.mem_append.mp member with member | member
          · obtain ⟨before, beforeMember, same⟩ := mem_settle_origin member
            exact ⟨before, List.mem_append_left _ beforeMember, by rw [same], by rw [same]⟩
          · refine ⟨taker, by simp, ?_, ?_⟩
            · rw [restOrigin kept member, sameTaker]
            · rw [restOrigin kept member, sameTaker]
        · intro name orderId found
          by_cases same : name = key taker
          · rw [same, Function.update_self] at found
            cases found
            exact ⟨taker, by simp, rfl, same.symm⟩
          · rw [Function.update_of_ne same] at found
            obtain ⟨other, member, sameId, sameKey⟩ := valid.index name orderId found
            exact ⟨other, List.mem_append_left _ member, sameId, sameKey⟩

theorem cancel_valid (valid : market.Valid) (request : CancelOrder) :
    (market.cancel request).1.Valid := by
  unfold cancel
  cases market.named (request.userId, request.targetClientOrderId) with
  | none => exact valid
  | some order =>
      have kept : ∀ other ∈ remove order.id market.tape.live, other ∈ market.tape.live :=
        fun other member => List.mem_of_mem_filter member
      refine ⟨⟨valid.tape.wellFormed.filter _, fun other member =>
        valid.tape.priced other (kept other member), fun other member =>
        valid.tape.issued other (kept other member)⟩, ⟨valid.numbered.1, fun other member =>
        valid.numbered.2 other (kept other member)⟩, ?_, ?_⟩
      · intro symbolId
        show Uncrossed (onSymbol symbolId (remove order.id market.tape.live))
        rw [onSymbol, remove, List.filter_comm]
        exact (valid.uncrossed symbolId).filter _
      · exact freed_names valid.tape.wellFormed
          (fun other member => ⟨other, kept other member, rfl, rfl⟩) valid.index

theorem apply_valid (cash : Int) (valid : market.Valid) (record : Inbound) :
    (market.apply cash record).1.Valid := by
  cases record with
  | submitOrder order => exact submit_valid valid order
  | cancelOrder request => exact cancel_valid valid request
  | createAccount _ => exact valid
  | creditCash _ => exact valid
  | configureReplay _ => exact valid
  | other => exact valid

/-- A record that is turned down produces its rejection and nothing else. -/
theorem apply_rejected {cash : Int} {record : Inbound} {rejected : OrderRejected}
    (member : .orderRejected rejected ∈ (market.apply cash record).2) :
    (market.apply cash record).2 = [.orderRejected rejected] := by
  cases record with
  | submitOrder order =>
      simp only [apply, submit] at member ⊢
      cases admitted : admission order with
      | error reason =>
          rw [admitted] at member
          rw [List.mem_singleton.mp member]
      | ok choice =>
          rw [admitted] at member
          simp at member
  | cancelOrder request =>
      simp only [apply, cancel] at member ⊢
      cases found : market.named (request.userId, request.targetClientOrderId) with
      | none =>
          rw [found] at member
          rw [List.mem_singleton.mp member]
      | some order =>
          rw [found] at member
          simp at member
  | createAccount create => simp [apply] at member
  | creditCash credit => simp [apply] at member
  | configureReplay replay => simp [apply] at member
  | other => simp [apply] at member

/-- An immediate-or-cancel order is never live once its own record is done. -/
theorem apply_ioc_gone (cash : Int) (valid : market.Valid) {record : Inbound}
    {accepted : OrderAccepted} (member : .orderAccepted accepted ∈ (market.apply cash record).2)
    (ioc : accepted.tif = tifCode .ioc) :
    (market.apply cash record).1.tape.Gone accepted.orderId := by
  cases record with
  | submitOrder order =>
      simp only [apply, submit] at member ⊢
      cases admitted : admission order with
      | error reason =>
          rw [admitted] at member
          simp at member
      | ok choice =>
          obtain ⟨side, tif⟩ := choice
          rw [admitted] at member
          have same : accepted = acceptance order (market.takerOf order side).id := by
            simpa using member
          have isIoc : tif = .ioc := by
            have named := (admission_eq_ok.mp admitted).2.1
            rw [same] at ioc
            have code : order.tif = tifCode .ioc := ioc
            rw [code, tifOf?_tifCode] at named
            exact (Option.some.inj named).symm
          rw [same]
          refine ⟨Int.lt_succ _, ?_⟩
          intro kept keptMember
          simp only [isIoc, reduceCtorEq, if_false, List.append_nil] at keptMember
          exact (settle_older valid.tape.issued kept keptMember).ne
  | cancelOrder request =>
      simp only [apply, cancel] at member
      split at member <;> simp at member
  | createAccount create => simp [apply] at member
  | creditCash credit => simp [apply] at member
  | configureReplay replay => simp [apply] at member
  | other => simp [apply] at member

/-! ## Whole runs -/

theorem run_append (cash : Int) (market : Market) (first second : List Inbound) :
    market.run cash (first ++ second) =
      (((market.run cash first).1.run cash second).1,
        (market.run cash first).2 ++ ((market.run cash first).1.run cash second).2) := by
  induction first generalizing market with
  | nil => rfl
  | cons record rest ih => simp only [List.cons_append, run, ih, List.append_assoc]

theorem run_valid (cash : Int) (valid : market.Valid) (records : List Inbound) :
    (market.run cash records).1.Valid := by
  induction records generalizing market with
  | nil => exact valid
  | cons record rest ih => exact ih (apply_valid cash valid record)

theorem run_lawful (cash : Int) (valid : market.Valid) (records : List Inbound) :
    market.tape.LawfulAll (market.run cash records).2 ∧
      market.tape.readAll (market.run cash records).2 = (market.run cash records).1.tape := by
  induction records generalizing market with
  | nil => exact ⟨trivial, rfl⟩
  | cons record rest ih =>
      obtain ⟨lawful, read⟩ := apply_lawful cash valid record
      obtain ⟨lawfulLater, readLater⟩ := ih (apply_valid cash valid record)
      simp only [run, Tape.lawfulAll_append, Tape.readAll_append]
      rw [read]
      exact ⟨⟨lawful, lawfulLater⟩, readLater⟩

theorem run_ioc_gone (cash : Int) (valid : market.Valid) {records : List Inbound}
    {accepted : OrderAccepted} (member : .orderAccepted accepted ∈ (market.run cash records).2)
    (ioc : accepted.tif = tifCode .ioc) :
    (market.run cash records).1.tape.Gone accepted.orderId := by
  induction records generalizing market with
  | nil => simp [run] at member
  | cons record rest ih =>
      have validNext := apply_valid cash valid record
      rcases List.mem_append.mp member with now | later
      · obtain ⟨lawful, read⟩ := run_lawful cash validNext rest
        have gone := (apply_ioc_gone cash valid now ioc).readAll lawful
        rwa [read] at gone
      · exact ih validNext later

end Market

end QuantArena.Exchange
