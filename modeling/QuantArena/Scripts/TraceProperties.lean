import QuantArena.Exchange.OpenOrders
import QuantArena.Matcher.AdapterProperties
import QuantArena.Scripts.Trace

/-! What a trace finds: every record after its start that it keeps, and so, of an order, whatever
comes after an id that another stream issued. -/

set_option autoImplicit false

namespace QuantArena.Scripts.Trace

open Foundations Contracts Exchange Matcher

/-! ## Reading in chunks -/

variable {stream : Stream Outbound} {clientOrderId : Int} {userId : Option Int}

/-- What lies after the last entry of a batch is what the batch has left of what lay ahead. -/
theorem ahead_of_batch {α : Type} {stream : Stream α} {cursor : StreamId}
    {batch later : List (StreamId × α)}
    (ahead : stream.entries.filter (cursor < ·.1) = batch ++ later) :
    stream.entries.filter (Stream.reached batch cursor < ·.1) = later := by
  cases last : batch.getLast? with
  | none =>
      rw [List.getLast?_eq_none_iff.mp last, List.nil_append] at ahead
      rw [Stream.reached, last]
      exact ahead
  | some newest =>
      obtain ⟨front, rfl⟩ := List.getLast?_eq_some_iff.mp last
      have ordered := stream.ascending.sublist (List.filter_sublist (p := fun entry => cursor < entry.1))
      rw [ahead, List.append_assoc] at ordered
      obtain ⟨-, rest, across⟩ := List.pairwise_append.mp ordered
      obtain ⟨after, -⟩ := List.pairwise_cons.mp rest
      have mine : newest ∈ stream.entries.filter (cursor < ·.1) := by
        rw [ahead]
        simp
      have passed : cursor < newest.1 := by simpa using (List.mem_filter.mp mine).2
      have narrower : stream.entries.filter (newest.1 < ·.1) =
          (stream.entries.filter (cursor < ·.1)).filter (newest.1 < ·.1) := by
        rw [List.filter_filter]
        refine List.filter_congr fun entry _ => ?_
        by_cases reached : newest.1 < entry.1
        · simp [reached, passed.trans reached]
        · simp [reached]
      rw [Stream.reached, last]
      simp only
      rw [narrower, ahead, List.filter_append, List.filter_append]
      have none : front.filter (newest.1 < ·.1) = [] := by
        refine List.filter_eq_nil_iff.mpr fun entry member => ?_
        have early := across entry member newest List.mem_cons_self
        simpa using early.le
      have all : later.filter (newest.1 < ·.1) = later :=
        List.filter_eq_self.mpr fun entry member => by simpa using after entry member
      rw [none, all]
      simp

/-- A record that names the order by its client order id, or a fill of the order id known. -/
def Kept (clientOrderId : Int) (userId orderId : Option Int) (record : Outbound) : Prop :=
  match clientKeyed record with
  | some (client, user) => client = clientOrderId ∧ (userId = none ∨ userId = some user)
  | none => ∃ fill, record = .fill fill ∧ ∃ known ∈ orderId, names known fill

/-- What one turn of the `for` loop does. -/
structure Turn (clientOrderId : Int) (userId : Option Int) (entry : StreamId × Outbound)
    (scan after : Scan) : Prop where
  scanned : after.scanned = scan.scanned + 1
  cursor : after.cursor = entry.1
  orderId : after.orderId =
    (acceptances clientOrderId userId [entry.2]).getLast?.or scan.orderId
  kept : Kept clientOrderId userId scan.orderId entry.2 → after.hits = scan.hits ++ [entry]
  passed : ¬ Kept clientOrderId userId scan.orderId entry.2 → after.hits = scan.hits

theorem read_own {scan : Scan} {entry : StreamId × Outbound} {client user : Int}
    (keyed : clientKeyed entry.2 = some (client, user))
    (own : client = clientOrderId ∧ (userId = none ∨ userId = some user)) :
    (scan.read clientOrderId userId entry).hits = scan.hits ++ [entry] ∧
      (scan.read clientOrderId userId entry).scanned = scan.scanned + 1 ∧
      (scan.read clientOrderId userId entry).cursor = entry.1 ∧
      (scan.read clientOrderId userId entry).orderId = match entry.2 with
        | .orderAccepted accepted => some accepted.orderId
        | _ => scan.orderId := by
  obtain ⟨sameClient, sameUser⟩ := own
  have wanted : ¬ (userId ≠ none ∧ userId ≠ some user) := by tauto
  unfold Scan.read
  simp only [keyed, if_neg (not_not.mpr sameClient), if_neg wanted]
  cases entry.2 with
  | _ => exact ⟨rfl, rfl, rfl, rfl⟩

theorem read_foreign {scan : Scan} {entry : StreamId × Outbound} {client user : Int}
    (keyed : clientKeyed entry.2 = some (client, user))
    (foreign : ¬ (client = clientOrderId ∧ (userId = none ∨ userId = some user))) :
    scan.read clientOrderId userId entry =
      { scan with scanned := scan.scanned + 1, cursor := entry.1 } := by
  unfold Scan.read
  simp only [keyed]
  split
  · rfl
  · rename_i sameClient
    have unwanted : userId ≠ none ∧ userId ≠ some user := by tauto
    rw [if_pos unwanted]

theorem read_keyed {scan : Scan} {entry : StreamId × Outbound} {client user : Int}
    (keyed : clientKeyed entry.2 = some (client, user)) :
    Turn clientOrderId userId entry scan (scan.read clientOrderId userId entry) := by
  have kept : Kept clientOrderId userId scan.orderId entry.2 ↔
      client = clientOrderId ∧ (userId = none ∨ userId = some user) := by
    unfold Kept
    rw [keyed]
  by_cases own : client = clientOrderId ∧ (userId = none ∨ userId = some user)
  · obtain ⟨hits, scanned, cursor, orderId⟩ := @read_own clientOrderId userId scan entry _ _ keyed own
    refine ⟨scanned, cursor, orderId.trans ?_, fun _ => hits, fun other => absurd (kept.mpr own) other⟩
    cases record : entry.2 with
    | orderAccepted accepted =>
        rw [record] at keyed
        cases keyed
        simp [acceptances, own]
    | _ => simp [acceptances]
  · rw [read_foreign keyed own]
    refine ⟨rfl, rfl, ?_, fun mine => absurd (kept.mp mine) own, fun _ => rfl⟩
    cases record : entry.2 with
    | orderAccepted accepted =>
        rw [record] at keyed
        cases keyed
        simp [acceptances, own]
    | _ => simp [acceptances]

theorem read_fill {scan : Scan} {place : StreamId} {fill : Fill} :
    Turn clientOrderId userId (place, .fill fill) scan
      (scan.read clientOrderId userId (place, .fill fill)) := by
  cases known : scan.orderId with
  | none => refine ⟨?_, ?_, ?_, ?_, ?_⟩ <;> simp [Scan.read, clientKeyed, Kept, acceptances, known]
  | some orderId =>
      by_cases named : orderId = fill.makerOrderId ∨ orderId = fill.takerOrderId
      · refine ⟨?_, ?_, ?_, ?_, ?_⟩ <;>
          simp [Scan.read, clientKeyed, Kept, acceptances, known, names, named]
      · refine ⟨?_, ?_, ?_, ?_, ?_⟩ <;>
          simp [Scan.read, clientKeyed, Kept, acceptances, known, names, named]

theorem read_turn (scan : Scan) (entry : StreamId × Outbound) :
    Turn clientOrderId userId entry scan (scan.read clientOrderId userId entry) := by
  obtain ⟨place, record⟩ := entry
  cases record with
  | orderAccepted accepted => exact read_keyed rfl
  | orderRejected rejected => exact read_keyed rfl
  | orderCancelled cancelled => exact read_keyed rfl
  | fill fill => exact read_fill
  | bookChanged _ => exact ⟨rfl, rfl, rfl, by rintro ⟨_, ⟨⟩, _⟩, fun _ => rfl⟩
  | accountCreated _ => exact ⟨rfl, rfl, rfl, by rintro ⟨_, ⟨⟩, _⟩, fun _ => rfl⟩
  | cashCredited _ => exact ⟨rfl, rfl, rfl, by rintro ⟨_, ⟨⟩, _⟩, fun _ => rfl⟩
  | replayConfigured _ => exact ⟨rfl, rfl, rfl, by rintro ⟨_, ⟨⟩, _⟩, fun _ => rfl⟩

theorem foldl_scanned (scan : Scan) (batch : List (StreamId × Outbound)) :
    (batch.foldl (Scan.read clientOrderId userId) scan).scanned = scan.scanned + batch.length := by
  induction batch generalizing scan with
  | nil => rfl
  | cons entry rest ih =>
      rw [List.foldl_cons, ih, (read_turn scan entry).scanned, List.length_cons]
      omega

theorem foldl_cursor (scan : Scan) (batch : List (StreamId × Outbound)) :
    (batch.foldl (Scan.read clientOrderId userId) scan).cursor =
      Stream.reached batch scan.cursor := by
  cases List.eq_nil_or_concat batch with
  | inl none =>
      rw [none]
      rfl
  | inr more =>
      obtain ⟨front, newest, same⟩ := more
      rw [same, List.concat_eq_append, List.foldl_append, List.foldl_cons, List.foldl_nil,
        (read_turn _ newest).cursor, Stream.reached, List.getLast?_concat]

/-- With a budget for it, the loop ends, and has read all that lay ahead. -/
theorem scanLoop_ok {budget chunk : Nat} (reads : 0 < chunk) {rounds : Nat} {scan : Scan}
    {ahead : List (StreamId × Outbound)}
    (unread : stream.entries.filter (scan.cursor < ·.1) = ahead)
    (within : scan.scanned + ahead.length ≤ budget) (enough : ahead.length < rounds) :
    scanLoop stream clientOrderId userId budget chunk rounds scan =
      .ok (ahead.foldl (Scan.read clientOrderId userId) scan) := by
  induction rounds generalizing scan ahead with
  | zero => cases enough
  | succ rounds ih =>
      have batch : stream.read scan.cursor chunk = ahead.take chunk := by rw [Stream.read, unread]
      rw [scanLoop, batch]
      cases ahead with
      | nil => simp
      | cons item more =>
          have left : scan.scanned < budget := by
            rw [List.length_cons] at within
            omega
          obtain ⟨count, rfl⟩ := Nat.exists_eq_succ_of_ne_zero reads.ne'
          rw [if_pos left, List.take_succ_cons]
          have split : (item :: more.take count) ++ more.drop count = item :: more := by
            rw [List.cons_append, List.take_append_drop]
          have sizes := congrArg List.length split
          rw [List.length_append] at sizes
          have onward := ahead_of_batch (unread.trans split.symm)
          rw [← @foldl_cursor clientOrderId userId scan] at onward
          have rest := ih onward (by rw [foldl_scanned]; omega) (by
            rw [List.length_drop]
            rw [List.length_cons] at enough
            omega)
          simp only
          rw [rest, ← List.foldl_append, split]

/-! ## What is kept -/

theorem acceptances_append (before after : List Outbound) :
    acceptances clientOrderId userId (before ++ after) =
      acceptances clientOrderId userId before ++ acceptances clientOrderId userId after :=
  List.filterMap_append

/-- The scan knows the newest order accepted under the client order id. -/
theorem foldl_orderId (start : StreamId) (entries : List (StreamId × Outbound)) :
    (entries.foldl (Scan.read clientOrderId userId) ⟨[], none, 0, start⟩).orderId =
      (acceptances clientOrderId userId (entries.map (·.2))).getLast? := by
  induction entries using List.reverseRecOn with
  | nil => rfl
  | append_singleton front newest ih =>
      rw [List.foldl_append, List.foldl_cons, List.foldl_nil, (read_turn _ newest).orderId, ih,
        List.map_append, List.map_singleton, acceptances_append, List.getLast?_append]

/-- What is kept is told by the entries before it. -/
theorem mem_hits_iff (start : StreamId) {entries : List (StreamId × Outbound)}
    (ascending : entries.Pairwise fun early late => early.1 < late.1)
    (entry : StreamId × Outbound) :
    entry ∈ (entries.foldl (Scan.read clientOrderId userId) ⟨[], none, 0, start⟩).hits ↔
      entry ∈ entries ∧ Kept clientOrderId userId
        (acceptances clientOrderId userId
          ((entries.filter (·.1 < entry.1)).map (·.2))).getLast? entry.2 := by
  induction entries using List.reverseRecOn with
  | nil => simp
  | append_singleton front newest ih =>
      obtain ⟨early, -, across⟩ := List.pairwise_append.mp ascending
      have last : ∀ other ∈ front, other.1 < newest.1 := fun other member =>
        across other member newest (List.mem_singleton_self _)
      have turn := @read_turn clientOrderId userId
        (front.foldl (Scan.read clientOrderId userId) ⟨[], none, 0, start⟩) newest
      have hits : entry ∈ ((front ++ [newest]).foldl (Scan.read clientOrderId userId)
            ⟨[], none, 0, start⟩).hits ↔
          entry ∈ (front.foldl (Scan.read clientOrderId userId) ⟨[], none, 0, start⟩).hits ∨
            entry = newest ∧ Kept clientOrderId userId
              (acceptances clientOrderId userId (front.map (·.2))).getLast? newest.2 := by
        rw [List.foldl_append, List.foldl_cons, List.foldl_nil, ← foldl_orderId start]
        by_cases kept : Kept clientOrderId userId (front.foldl (Scan.read clientOrderId userId)
          ⟨[], none, 0, start⟩).orderId newest.2
        · rw [turn.kept kept]
          simp [kept]
        · rw [turn.passed kept]
          simp [kept]
      rw [hits, ih early, List.filter_append, List.mem_append, List.mem_singleton]
      by_cases new : entry = newest
      · have before : front.filter (·.1 < entry.1) = front :=
          List.filter_eq_self.mpr fun other member => by simpa [new] using last other member
        have absent : entry ∉ front := fun member => (last entry member).ne (by rw [new])
        simp [new ▸ before, new ▸ absent, new]
      · have old : entry ∈ front → [newest].filter (·.1 < entry.1) = [] := fun member =>
          List.filter_eq_nil_iff.mpr fun other same => by
            simpa [List.mem_singleton.mp same] using (last entry member).le
        constructor
        · rintro (⟨member, kept⟩ | ⟨same, -⟩)
          · rw [old member, List.append_nil]
            exact ⟨.inl member, kept⟩
          · exact absurd same new
        · rintro ⟨member | same, kept⟩
          · rw [old member, List.append_nil] at kept
            exact .inl ⟨member, kept⟩
          · exact absurd same new

/-- What a scan returns, with a budget for the whole stream. -/
theorem scanForward_ok {budget chunk : Nat} (reads : 0 < chunk)
    (within : stream.entries.length ≤ budget) (startId : StreamId) :
    ∃ hits orderId scanned,
      scanForward stream startId clientOrderId userId budget chunk = .ok (hits, orderId, scanned) ∧
      ∀ entry, entry ∈ hits ↔ entry ∈ stream.entries ∧ startId < entry.1 ∧
        Kept clientOrderId userId (acceptances clientOrderId userId
          ((stream.entries.filter fun other => startId < other.1 ∧ other.1 < entry.1).map
            (·.2))).getLast? entry.2 := by
  have fewer : (stream.entries.filter (startId < ·.1)).length ≤ stream.entries.length :=
    List.length_filter_le _ _
  have loop := @scanLoop_ok stream clientOrderId userId budget chunk reads
    (stream.entries.length + 1) ⟨[], none, 0, startId⟩ (stream.entries.filter (startId < ·.1)) rfl
    (by simpa using fewer.trans within) (by omega)
  refine ⟨_, _, _, by rw [scanForward, loop]; rfl, fun entry => ?_⟩
  rw [mem_hits_iff startId (stream.ascending.sublist List.filter_sublist), List.mem_filter,
    List.filter_filter, and_assoc]
  have same : (stream.entries.filter fun other => decide (other.1 < entry.1) &&
        decide (startId < other.1)) =
      stream.entries.filter fun other => startId < other.1 ∧ other.1 < entry.1 :=
    List.filter_congr fun other _ => by simp [Bool.and_comm]
  rw [same, decide_eq_true_eq]

/-! ## The streams of a matcher -/

variable {matcher : NaiveMatcher} {market : Market} {rounds : List Round}

/-- The answers are what a market produces for the requests, round by round. -/
theorem Answers.of_market (answers : Answers matcher rounds) (represents : matcher.Represents market)
    (valid : market.Valid) :
    rounds.flatMap (·.answers.map (·.2)) =
        (market.run matcher.initialCashTicks (rounds.map (·.request.2))).2 ∧
      ∀ round ∈ rounds, ∃ before : Market, before.Valid ∧
        round.answers.map (·.2) = (before.apply matcher.initialCashTicks round.request.2).2 := by
  induction rounds generalizing matcher market with
  | nil => exact ⟨rfl, by simp⟩
  | cons round rest ih =>
      obtain ⟨after, applied, others⟩ := answers
      obtain ⟨next, answered, onward, cash⟩ :=
        NaiveMatcher.apply_ok represents valid round.request.2
      rw [answered] at applied
      obtain ⟨same, outputs⟩ := Prod.mk.inj (Except.ok.inj applied)
      rw [← same] at others
      obtain ⟨records, markets⟩ := ih others onward (Market.apply_valid _ valid _)
      rw [cash] at records markets
      constructor
      · rw [List.flatMap_cons, records, ← outputs]
        rfl
      · intro other member
        cases List.mem_cons.mp member with
        | inl first => exact first ▸ ⟨market, valid, outputs.symm⟩
        | inr later => exact markets other later

theorem Streams.records (streams : Streams) :
    streams.outbound.records = (Market.fresh.run streams.initialCashTicks
      (streams.rounds.map (·.request.2))).2 := by
  have answers := streams.matched.of_market (NaiveMatcher.new_represents 1 _) Market.fresh_valid
  have records : streams.outbound.records = streams.rounds.flatMap (·.answers.map (·.2)) := by
    rw [Stream.records, streams.appended, List.map_flatMap]
  exact records.trans answers.1

theorem Streams.lawful (streams : Streams) : Tape.blank.LawfulAll streams.outbound.records := by
  rw [streams.records]
  exact (Market.run_lawful _ Market.fresh_valid _).1

/-- The first answer to an order is its acknowledgement, under the order's own name. -/
theorem Streams.acknowledged (streams : Streams) {round : Round} (member : round ∈ streams.rounds)
    {order : SubmitOrder} (submits : round.request.2 = .submitOrder order) :
    ∃ entry ∈ round.answers.head?, entry ∈ streams.outbound.entries ∧
      clientKeyed entry.2 = some (order.clientOrderId, order.userId) := by
  have answers := streams.matched.of_market (NaiveMatcher.new_represents 1 _) Market.fresh_valid
  obtain ⟨before, -, outputs⟩ := answers.2 round member
  rw [submits] at outputs
  have first : ∃ record ∈ (before.submit order).2.head?,
      clientKeyed record = some (order.clientOrderId, order.userId) := by
    unfold Market.submit
    split
    · exact ⟨_, rfl, rfl⟩
    · exact ⟨_, rfl, rfl⟩
  obtain ⟨record, head, keyed⟩ := first
  have head : (round.answers.map (·.2)).head? = some record := by
    rw [outputs]
    exact head
  rw [List.head?_map, Option.map_eq_some_iff] at head
  obtain ⟨entry, found, same⟩ := head
  refine ⟨entry, found, ?_, same ▸ keyed⟩
  rw [streams.appended]
  exact List.mem_flatMap.mpr ⟨round, member, List.mem_of_head? found⟩

theorem orderId_eq_some {round : Round} {orderId : Int} (assigned : orderId ∈ round.orderId) :
    ∃ place accepted, round.answers.head? = some (place, .orderAccepted accepted) ∧
      accepted.orderId = orderId := by
  unfold Round.orderId at assigned
  split at assigned
  · rename_i place accepted head
    exact ⟨place, accepted, head, Option.some.inj assigned⟩
  · cases assigned

section Life

variable {streams : Streams} {place : StreamId} {accepted : OrderAccepted}

/-- An order is live only after its acceptance. -/
theorem Streams.accepted_before
    (announces : (place, .orderAccepted accepted) ∈ streams.outbound.entries)
    {before after : List (StreamId × Outbound)} {entry : StreamId × Outbound}
    (split : streams.outbound.entries = before ++ entry :: after) {order : LiveOrder}
    (live : order ∈ (Tape.blank.readAll (before.map (·.2))).live)
    (own : order.id = accepted.orderId) : (place, .orderAccepted accepted) ∈ before := by
  have lawful := streams.lawful
  rw [Stream.records, split, List.map_append, List.map_cons] at lawful
  have early : order.id ∈ Tape.acceptedIds (before.map (·.2)) := by
    cases Tape.live_origin live with
    | inl start =>
        obtain ⟨_, none, -⟩ := start
        cases none
    | inr accepted => exact accepted
  rw [split] at announces
  cases List.mem_append.mp announces with
  | inl done => exact done
  | inr late =>
      have ascending := lawful.acceptedIds_ascending.1
      rw [Tape.acceptedIds, List.filterMap_append, List.pairwise_append] at ascending
      have issued : accepted.orderId ∈ Tape.acceptedIds (entry.2 :: after.map (·.2)) := by
        refine Tape.mem_acceptedIds.mpr ⟨accepted, ?_, rfl⟩
        have mapped := List.mem_map_of_mem (f := Prod.snd) late
        exact mapped
      exact absurd own (ascending.2.2 order.id early accepted.orderId issued).ne

/-- A live order has its owner's name. -/
theorem Streams.live_named
    (announces : (place, .orderAccepted accepted) ∈ streams.outbound.entries)
    {before after : List (StreamId × Outbound)}
    (split : streams.outbound.entries = before ++ after) {order : LiveOrder}
    (live : order ∈ (Tape.blank.readAll (before.map (·.2))).live)
    (own : order.id = accepted.orderId) :
    order.ticket.clientOrderId = accepted.clientOrderId ∧ order.ticket.userId = accepted.userId := by
  cases Tape.mem_readAll live with
  | inl start =>
      obtain ⟨_, none, -⟩ := start
      cases none
  | inr since =>
      obtain ⟨other, first, otherMember, announced, origin⟩ := since
      obtain ⟨side, -, rfl⟩ := Option.map_eq_some_iff.mp announced
      have here : .orderAccepted other ∈ streams.outbound.records := by
        rw [Stream.records, split, List.map_append]
        exact List.mem_append_left _ otherMember
      have id : other.orderId = accepted.orderId := by rw [← own, origin]
      obtain rfl := streams.lawful.accepted_inj here (List.mem_map_of_mem announces) id
      rw [origin]
      exact ⟨rfl, rfl⟩

/-- Once the order's acceptance lies ahead, the newest acceptance ahead is the newest of all. -/
theorem newest_ahead {start : StreamId}
    (mine : acceptances clientOrderId userId [.orderAccepted accepted] = [accepted.orderId])
    (later : start < place) {before after : List (StreamId × Outbound)}
    {entry : StreamId × Outbound} (split : streams.outbound.entries = before ++ entry :: after)
    (early : (place, .orderAccepted accepted) ∈ before) :
    (acceptances clientOrderId userId ((streams.outbound.entries.filter fun other =>
        start < other.1 ∧ other.1 < entry.1).map (·.2))).getLast? =
      (acceptances clientOrderId userId (before.map (·.2))).getLast? := by
  have ascending := streams.outbound.ascending
  rw [split] at ascending ⊢
  obtain ⟨front, rest, across⟩ := List.pairwise_append.mp ascending
  have past := List.pairwise_cons.mp rest
  have kept : (before ++ entry :: after).filter (fun other =>
      start < other.1 ∧ other.1 < entry.1) = before.filter (start < ·.1) := by
    rw [List.filter_append]
    have none : (entry :: after).filter (fun other => start < other.1 ∧ other.1 < entry.1) = [] := by
      refine List.filter_eq_nil_iff.mpr fun other member => ?_
      cases List.mem_cons.mp member with
      | inl same => simp [same]
      | inr beyond => simp [(past.1 other beyond).le]
    rw [none, List.append_nil]
    refine List.filter_congr fun other member => ?_
    simp [across other member entry List.mem_cons_self]
  obtain ⟨older, newer, rfl⟩ := List.append_of_mem early
  have since := (List.pairwise_cons.mp (List.pairwise_append.mp front).2.1).1
  have all : newer.filter (start < ·.1) = newer :=
    List.filter_eq_self.mpr fun other member => by simpa using later.trans (since other member)
  have head : ∀ records : List Outbound,
      acceptances clientOrderId userId (.orderAccepted accepted :: records) =
        accepted.orderId :: acceptances clientOrderId userId records := by
    intro records
    have cut := @acceptances_append clientOrderId userId [.orderAccepted accepted] records
    rw [mine] at cut
    exact cut
  rw [kept, List.filter_append, List.filter_cons_of_pos (by simpa using later), all, List.map_append,
    List.map_append, acceptances_append, acceptances_append, List.map_cons, head,
    List.getLast?_append, List.getLast?_append, List.getLast?_cons, Option.some_or, Option.some_or]

/-- A fill of an order lies after the order's acceptance. -/
theorem Streams.fill_after
    (announces : (place, .orderAccepted accepted) ∈ streams.outbound.entries)
    {before after : List (StreamId × Outbound)} {at_ : StreamId} {fill : Fill}
    (split : streams.outbound.entries = before ++ (at_, .fill fill) :: after)
    (named : names accepted.orderId fill) : (place, .orderAccepted accepted) ∈ before := by
  have lawful := streams.lawful
  rw [Stream.records, split, List.map_append, List.map_cons] at lawful
  obtain ⟨maker, taker, executed⟩ := lawful.at_split
  cases named with
  | inl made =>
      exact Streams.accepted_before announces split executed.makerLive
        (executed.makerId.trans made.symm)
  | inr took =>
      exact Streams.accepted_before announces split executed.takerLive
        (executed.takerId.trans took.symm)

/-- A cancellation of an order lies after the order's acceptance, and names its owner. -/
theorem Streams.cancellation_after
    (announces : (place, .orderAccepted accepted) ∈ streams.outbound.entries)
    {before after : List (StreamId × Outbound)} {at_ : StreamId} {cancelled : OrderCancelled}
    (split : streams.outbound.entries = before ++ (at_, .orderCancelled cancelled) :: after)
    (own : cancelled.orderId = accepted.orderId) :
    (place, .orderAccepted accepted) ∈ before ∧
      cancelled.clientOrderId = accepted.clientOrderId ∧ cancelled.userId = accepted.userId := by
  have lawful := streams.lawful
  rw [Stream.records, split, List.map_append, List.map_cons] at lawful
  obtain ⟨order, live, id, -, client, user, -⟩ := lawful.at_split
  have same := id.trans own
  obtain ⟨sameClient, sameUser⟩ := Streams.live_named announces split live same
  exact ⟨Streams.accepted_before announces split live same, client.symm.trans sameClient,
    user.symm.trans sameUser⟩

theorem Streams.before_lt {before after : List (StreamId × Outbound)}
    {entry other : StreamId × Outbound}
    (split : streams.outbound.entries = before ++ entry :: after) (early : other ∈ before) :
    other.1 < entry.1 := by
  have ascending := streams.outbound.ascending
  rw [split] at ascending
  exact (List.pairwise_append.mp ascending).2.2 other early entry List.mem_cons_self

end Life

/-- A scan from an order's inbound id finds the order's whole life exactly when the order's
acknowledgement has the later id, and each of its fills names the newest order accepted under its
client order id. -/
theorem trace_finds_life_iff (streams : Streams) {round : Round} (member : round ∈ streams.rounds)
    {order : SubmitOrder} (submits : round.request.2 = .submitOrder order) {userId : Option Int}
    (asked : userId = none ∨ userId = some order.userId) {budget chunk : Nat} (reads : 0 < chunk)
    (within : streams.outbound.entries.length ≤ budget) :
    ∃ hits orderId scanned,
      scanForward streams.outbound round.request.1 order.clientOrderId userId budget chunk =
        .ok (hits, orderId, scanned) ∧
      (WholeLife streams round hits ↔ Findable streams round order.clientOrderId userId) := by
  obtain ⟨hits, orderId, scanned, returned, found⟩ := @scanForward_ok streams.outbound
    order.clientOrderId userId budget chunk reads within round.request.1
  obtain ⟨ack, head, present, keyed⟩ := streams.acknowledged member submits
  refine ⟨hits, orderId, scanned, returned, ?_⟩
  have acked : ack ∈ hits ↔ round.request.1 < ack.1 := by
    have kept : ∀ known, Kept order.clientOrderId userId known ack.2 := by
      intro known
      unfold Kept
      rw [keyed]
      exact ⟨rfl, asked⟩
    rw [found]
    exact ⟨fun hit => hit.2.1, fun later => ⟨present, later, kept _⟩⟩
  -- The order id, once there is one, is that of an acceptance under the order's own name.
  have assigned : ∀ orderId ∈ round.orderId, ∃ place accepted, ack = (place, .orderAccepted accepted) ∧
      accepted.orderId = orderId ∧ accepted.clientOrderId = order.clientOrderId ∧
      accepted.userId = order.userId := by
    intro orderId known
    obtain ⟨place, accepted, first, id⟩ := orderId_eq_some known
    cases (Option.some.inj (first.symm.trans head) : (place, Outbound.orderAccepted accepted) = ack)
    obtain ⟨client, user⟩ := Prod.mk.inj (Option.some.inj keyed)
    exact ⟨place, accepted, rfl, id, client, user⟩
  have filled : ∀ orderId ∈ round.orderId, round.request.1 < ack.1 → ∀ before place fill after,
      streams.outbound.entries = before ++ (place, .fill fill) :: after → names orderId fill →
      ((place, .fill fill) ∈ hits ↔ ∀ newest ∈
        (acceptances order.clientOrderId userId (before.map (·.2))).getLast?, names newest fill) := by
    intro orderId known later before place fill after split named
    obtain ⟨at_, accepted, rfl, rfl, client, user⟩ := assigned orderId known
    have early := Streams.fill_after present split named
    have mine : acceptances order.clientOrderId userId [.orderAccepted accepted] =
        [accepted.orderId] := by
      have own : accepted.clientOrderId = order.clientOrderId ∧
          (userId = none ∨ userId = some accepted.userId) := ⟨client, user ▸ asked⟩
      simp [acceptances, own]
    have newest := newest_ahead mine later split early
    have listed : (place, Outbound.fill fill) ∈ streams.outbound.entries := by
      rw [split]
      exact List.mem_append_right _ List.mem_cons_self
    have ahead := later.trans (Streams.before_lt split early)
    have some_ : acceptances order.clientOrderId userId (before.map (·.2)) ≠ [] := by
      intro none
      obtain ⟨older, newer, rfl⟩ := List.append_of_mem early
      rw [List.map_append, acceptances_append, List.map_cons, List.append_eq_nil_iff] at none
      have cut := @acceptances_append order.clientOrderId userId [.orderAccepted accepted]
        (newer.map (·.2))
      rw [mine] at cut
      exact absurd (cut.symm.trans none.2) (List.cons_ne_nil _ _)
    have isLast := List.getLast?_eq_some_getLast some_
    rw [found, newest, isLast]
    constructor
    · rintro ⟨-, -, other, same, known, isKnown, names⟩ newest isNewest
      cases same
      cases isKnown
      cases isNewest
      exact names
    · intro names
      exact ⟨listed, ahead, fill, rfl, _, rfl, names _ rfl⟩
  constructor
  · rintro ⟨⟨entry, first, hit⟩, fills, -⟩
    obtain rfl : ack = entry := Option.some.inj (head.symm.trans first)
    have later := acked.mp hit
    refine ⟨fun entry first => ?_, fun orderId known before fill after split named => ?_⟩
    · obtain rfl : ack = entry := Option.some.inj (head.symm.trans first)
      exact later
    · obtain ⟨early, rest, cut, rfl, rest_⟩ := List.map_eq_append_iff.mp split
      obtain ⟨⟨place, record⟩, late, rfl, same, -⟩ := List.map_eq_cons_iff.mp rest_
      cases (same : record = .fill fill)
      have listed : (place, Outbound.fill fill) ∈ streams.outbound.entries := by
        rw [cut]
        exact List.mem_append_right _ List.mem_cons_self
      exact (filled orderId known later early place fill late cut named).mp
        (fills orderId known place fill listed named)
  · intro findable
    have later := findable.later ack head
    refine ⟨⟨ack, head, acked.mpr later⟩, fun orderId known place fill listed named => ?_,
      fun orderId known place cancelled listed own => ?_⟩
    · obtain ⟨before, after, split⟩ := List.append_of_mem listed
      refine (filled orderId known later before place fill after split named).mpr ?_
      refine findable.newest orderId known (before.map (·.2)) fill (after.map (·.2)) ?_ named
      rw [Stream.records, split, List.map_append, List.map_cons]
    · obtain ⟨before, after, split⟩ := List.append_of_mem listed
      obtain ⟨at_, accepted, rfl, rfl, client, user⟩ := assigned orderId known
      obtain ⟨early, sameClient, sameUser⟩ := Streams.cancellation_after present split own
      refine (found _).mpr ⟨listed, later.trans (Streams.before_lt split early),
        sameClient.trans client, ?_⟩
      rw [sameUser, user]
      exact asked

/-- A client order id that was accepted once leaves only the ids of the streams to go wrong. -/
theorem findable_of_once (streams : Streams) {round : Round} (member : round ∈ streams.rounds)
    {order : SubmitOrder} (submits : round.request.2 = .submitOrder order) {userId : Option Int}
    (asked : userId = none ∨ userId = some order.userId)
    (later : ∀ entry ∈ round.answers.head?, round.request.1 < entry.1)
    (once : (acceptances order.clientOrderId userId streams.outbound.records).length ≤ 1) :
    Findable streams round order.clientOrderId userId := by
  refine ⟨later, fun orderId known before fill after split named newest isNewest => ?_⟩
  obtain ⟨ack, head, present, keyed⟩ := streams.acknowledged member submits
  obtain ⟨place, accepted, first, rfl⟩ := orderId_eq_some known
  obtain rfl := Option.some.inj (first.symm.trans head)
  obtain ⟨client, user⟩ := Prod.mk.inj (Option.some.inj keyed)
  have own : accepted.orderId ∈ acceptances order.clientOrderId userId streams.outbound.records := by
    refine List.mem_filterMap.mpr ⟨_, List.mem_map_of_mem present, ?_⟩
    exact if_pos ⟨client, user ▸ asked⟩
  have other : newest ∈ acceptances order.clientOrderId userId streams.outbound.records := by
    rw [split, acceptances_append]
    exact List.mem_append_left _ (List.mem_of_getLast? isNewest)
  obtain ⟨only, same⟩ := List.length_eq_one_iff.mp
    (le_antisymm once (List.length_pos_of_mem own))
  rw [same, List.mem_singleton] at own other
  rwa [other, ← own]

/-! ## One millisecond -/

/-- An offer, and a bid that takes it in the millisecond in which the offer was answered. -/
def tradedAtOnce : Streams where
  initialCashTicks := 1000
  inbound := (Stream.empty.append 5 (.submitOrder ⟨50, 7, 1, 100, 2, 3, 2, 1⟩)).append 6
    (.submitOrder ⟨60, 7, 2, 100, 2, 3, 1, 1⟩)
  outbound := Stream.empty.appendAll 6 [.orderAccepted ⟨50, 1, 7, 1, 100, 2, 3, 2, 1⟩,
    .orderAccepted ⟨60, 2, 7, 2, 100, 2, 3, 1, 1⟩, .fill ⟨60, 1, 2, 1, 2, 100, 2, 3, 1⟩]
  rounds := [
    ⟨(toLex (5, 0), .submitOrder ⟨50, 7, 1, 100, 2, 3, 2, 1⟩),
      [(toLex (6, 0), .orderAccepted ⟨50, 1, 7, 1, 100, 2, 3, 2, 1⟩)], by simp⟩,
    ⟨(toLex (6, 0), .submitOrder ⟨60, 7, 2, 100, 2, 3, 1, 1⟩),
      [(toLex (6, 1), .orderAccepted ⟨60, 2, 7, 2, 100, 2, 3, 1, 1⟩),
        (toLex (6, 2), .fill ⟨60, 1, 2, 1, 2, 100, 2, 3, 1⟩)], by simp⟩]
  unanswered := []
  received := rfl
  appended := rfl
  matched := ⟨_, rfl, _, rfl, trivial⟩

theorem trade_at_once_found : ∃ round ∈ tradedAtOnce.rounds, round.request.1 = toLex (5, 0) ∧
    ∃ hits orderId scanned,
      scanForward tradedAtOnce.outbound (toLex (5, 0)) 7 (some 1) 3 2 =
        .ok (hits, orderId, scanned) ∧ WholeLife tradedAtOnce round hits := by
  refine ⟨_, List.mem_cons_self, rfl, ?_⟩
  obtain ⟨hits, orderId, scanned, returned, finds⟩ := trace_finds_life_iff tradedAtOnce
    List.mem_cons_self rfl (.inr rfl) (by decide : 0 < 2) (by decide : 3 ≤ 3)
  refine ⟨hits, orderId, scanned, returned, finds.mpr
    (findable_of_once tradedAtOnce List.mem_cons_self rfl (.inr rfl) ?_ (by decide))⟩
  rintro entry ⟨⟩
  decide

/-- An order, the first record of its millisecond on either stream. -/
def sameMillisecond : Streams where
  initialCashTicks := 1000
  inbound := Stream.empty.append 5 (.submitOrder ⟨50, 7, 1, 100, 2, 3, 1, 1⟩)
  outbound := Stream.empty.append 5 (.orderAccepted ⟨50, 1, 7, 1, 100, 2, 3, 1, 1⟩)
  rounds := [⟨(toLex (5, 0), .submitOrder ⟨50, 7, 1, 100, 2, 3, 1, 1⟩),
    [(toLex (5, 0), .orderAccepted ⟨50, 1, 7, 1, 100, 2, 3, 1, 1⟩)], by simp⟩]
  unanswered := []
  received := rfl
  appended := rfl
  matched := ⟨_, rfl, trivial⟩

/-- The scan starts after the order's id on the inbound stream, which on the outbound stream is the
id of the acknowledgement. -/
theorem same_millisecond_missed : ∃ round ∈ sameMillisecond.rounds, ∃ order : SubmitOrder,
    round.request = (toLex (5, 0), .submitOrder order) ∧
      scanForward sameMillisecond.outbound (toLex (5, 0)) order.clientOrderId (some order.userId) 1
        5000 = .ok ([], none, 0) ∧
      ¬ WholeLife sameMillisecond round [] := by
  refine ⟨_, List.mem_cons_self, _, rfl, rfl, fun whole => ?_⟩
  obtain ⟨entry, -, found⟩ := whole.acknowledgement
  cases found

end QuantArena.Scripts.Trace
