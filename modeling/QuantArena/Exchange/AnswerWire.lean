import QuantArena.Contracts.WireProperties
import QuantArena.Exchange.MarketWire

/-! What a market answers to records of the wire can itself be packed. -/

set_option autoImplicit false

namespace QuantArena.Contracts

open Foundations

namespace WireRecord

/-- Every value fits its field. -/
def Fits (record : WireRecord) : Prop :=
  List.Forall₂ IntFormat.Fits record.type.items record.values

variable {record : WireRecord} {data : List UInt8}

theorem pack_eq_ok : record.pack = .ok data ↔ record.Fits ∧
    data = (List.zipWith (fun item value => Bytes.truncated item.width value) record.type.items
      record.values).flatten := by
  rw [pack_eq, packAll_eq_ok]
  exact Iff.rfl

theorem fits_of_pack (packed : record.pack = .ok data) : record.Fits := (pack_eq_ok.mp packed).1

theorem fits_new {type : RecordType} {timestampNs : Int} {body : List Int}
    {arity : body.length = type.bodyItems.length} :
    (new type timestampNs body arity).Fits ↔
      RecordType.i64.Fits timestampNs ∧ List.Forall₂ IntFormat.Fits type.bodyItems body := by
  have version : RecordType.u16.Fits Contracts.schemaVersion := by decide
  have kind : RecordType.u16.Fits type.code := by cases type <;> decide
  have seq : RecordType.u64.Fits seqUnassigned := by decide
  simp only [Fits, new, values, RecordType.items, RecordType.headerItems, List.cons_append,
    List.nil_append, List.forall₂_cons]
  constructor
  · exact fun fits => fits.2.2.2.2
  · exact fun fits => ⟨version, kind, seq, seq, fits⟩

/-- Stamping a record keeps the rest of it as wide as it was. -/
theorem fits_withSeq {streamId : StreamId} (fits : record.Fits)
    (narrow : (ofLex streamId).1 < 2 ^ 64 ∧ (ofLex streamId).2 < 2 ^ 64) :
    (record.withSeq streamId).Fits := by
  simp only [Fits, values, RecordType.items, RecordType.headerItems, List.cons_append,
    List.nil_append, List.forall₂_cons, withSeq] at fits ⊢
  obtain ⟨version, kind, -, -, rest⟩ := fits
  have unsigned : ∀ half : Nat, half < 2 ^ 64 → RecordType.u64.Fits half := by
    intro half below
    refine ⟨Int.natCast_nonneg _, ?_⟩
    have width : (256 : Int) ^ RecordType.u64.width = 2 ^ 64 := by decide
    rw [width]
    exact_mod_cast below
  exact ⟨version, kind, unsigned _ narrow.1, unsigned _ narrow.2, rest⟩

end WireRecord

end QuantArena.Contracts

namespace QuantArena.Exchange.Market

open Foundations Foundations.PriceTime Contracts

variable {market : Market}

/-- The record as it goes over the wire fits its fields. -/
def Sendable (record : Inbound) : Prop :=
  ∀ written, record.wire? = some written → written.Fits

theorem submit_onWire_of_sendable {order : SubmitOrder} (sendable : Sendable (.submitOrder order)) :
    SubmitOnWire order := by
  obtain ⟨time, body⟩ := WireRecord.fits_new.mp (sendable _ rfl)
  simp only [RecordType.bodyItems, List.forall₂_cons] at body
  obtain ⟨clientOrderId, userId, priceTicks, qty, symbolId, -⟩ := body
  exact ⟨clientOrderId, userId, symbolId, priceTicks.2, qty.2, time⟩

theorem onWire_of_sendable {record : Inbound} (sendable : Sendable record) : OnWire record := by
  cases record with
  | submitOrder order => exact submit_onWire_of_sendable sendable
  | _ => trivial

theorem sideCode_fits (side : Side) : RecordType.u8.Fits (sideCode side) := by
  cases side <;> decide

theorem id_fits {orderId bound : Int} (positive : 0 < orderId) (below : orderId < bound)
    (numbered : bound ≤ 256 ^ 8) : RecordType.u64.Fits orderId :=
  ⟨positive.le, lt_of_lt_of_le below numbered⟩

theorem positive_fits {value : Int} (positive : 0 < value) (below : value < 256 ^ 8 / 2) :
    RecordType.i64.Fits value :=
  ⟨le_trans (by decide) positive.le, below⟩

theorem cancellation_fits (valid : market.Valid) (onWire : ∀ order ∈ market.tape.live, LiveOnWire order)
    (numbered : market.tape.nextOrderId ≤ 256 ^ 8) {order : LiveOrder}
    (member : order ∈ market.tape.live) {timestampNs : Int} (time : RecordType.i64.Fits timestampNs)
    (reason : CancelReason) :
    (Outbound.orderCancelled (cancellation timestampNs reason order)).wire.Fits := by
  have wire := onWire order member
  have code : RecordType.u8.Fits (cancelReasonCode reason) := by cases reason <;> decide
  refine WireRecord.fits_new.mpr ⟨time, ?_⟩
  simp only [RecordType.bodyItems, List.forall₂_cons, cancellation]
  exact ⟨id_fits (valid.numbered.2 order member) (valid.tape.issued order member) numbered,
    wire.clientOrderId, wire.userId,
    positive_fits (valid.tape.wellFormed.positive order member) wire.remaining, wire.symbolId, code,
    .nil⟩

theorem submit_fits (valid : market.Valid) (onWire : ∀ order ∈ market.tape.live, LiveOnWire order)
    {order : SubmitOrder} (sendable : Sendable (.submitOrder order))
    (numbered : (market.submit order).1.tape.nextOrderId ≤ 256 ^ 8) :
    ∀ output ∈ (market.submit order).2, output.wire.Fits := by
  obtain ⟨time, body⟩ := WireRecord.fits_new.mp (sendable _ rfl)
  have placed := submit_onWire_of_sendable sendable
  simp only [RecordType.bodyItems, List.forall₂_cons] at body
  obtain ⟨clientOrderId, userId, priceTicks, qty, symbolId, side, tif, -⟩ := body
  unfold submit at numbered ⊢
  cases admitted : admission order with
  | error reason =>
      intro output member
      obtain rfl := List.mem_singleton.mp member
      have code : RecordType.u16.Fits (rejectReasonCode reason) := by cases reason <;> decide
      refine WireRecord.fits_new.mpr ⟨time, ?_⟩
      simp only [RecordType.bodyItems, List.forall₂_cons]
      exact ⟨clientOrderId, userId, symbolId, code, .nil⟩
  | ok choice =>
      obtain ⟨sideNamed, tifNamed⟩ := choice
      simp only [admitted] at numbered ⊢
      have positive : 0 < market.tape.nextOrderId := valid.numbered.1
      have room : market.tape.nextOrderId + 1 ≤ 256 ^ 8 := numbered
      have ownId : RecordType.u64.Fits market.tape.nextOrderId :=
        id_fits positive (Int.lt_succ _) room
      have run := execute_executes (market.takerOf order sideNamed)
        (onSymbol order.symbolId market.tape.live)
      generalize execute (market.takerOf order sideNamed) (onSymbol order.symbolId market.tape.live) =
        result at run
      obtain ⟨-, sound⟩ := makers_listed valid.tape.wellFormed run
      intro output member
      cases List.mem_cons.mp member with
      | inl first =>
          subst first
          refine WireRecord.fits_new.mpr ⟨time, ?_⟩
          simp only [RecordType.bodyItems, List.forall₂_cons, acceptance, takerOf]
          exact ⟨ownId, clientOrderId, userId, priceTicks, qty, symbolId, side, tif, .nil⟩
      | inr later =>
          cases List.mem_append.mp later with
          | inl filled =>
              obtain ⟨trade, traded, rfl⟩ := List.mem_map.mp filled
              obtain ⟨maker, -, some_, most⟩ := sound trade traded
              have wire := onWire trade.maker maker
              refine WireRecord.fits_new.mpr ⟨time, ?_⟩
              simp only [RecordType.bodyItems, List.forall₂_cons, fillOf, takerOf]
              exact ⟨id_fits (valid.numbered.2 _ maker) (valid.tape.issued _ maker)
                  ((Int.lt_succ _).le.trans room), ownId, wire.userId, userId,
                positive_fits (valid.tape.priced _ maker) wire.price,
                positive_fits some_ (lt_of_le_of_lt most wire.remaining), wire.symbolId,
                sideCode_fits _, .nil⟩
          | inr expired =>
              obtain ⟨left, leaves, rfl⟩ := List.mem_map.mp expired
              split at leaves
              · obtain ⟨same, remains⟩ := mem_standing.mp leaves
                have code : RecordType.u8.Fits (cancelReasonCode .iocExpired) := by decide
                have less := run.remaining_le (valid.tape.wellFormed.filter _)
                rw [same, run.taker_eq]
                refine WireRecord.fits_new.mpr ⟨time, ?_⟩
                simp only [RecordType.bodyItems, List.forall₂_cons, cancellation, takerOf]
                exact ⟨ownId, clientOrderId, userId,
                  positive_fits remains (lt_of_le_of_lt less placed.qty), symbolId, code, .nil⟩
              · cases leaves

/-- Every answer fits the wire, as long as the order ids do and the opening balance. -/
theorem apply_fits {initialCashTicks : Int} (cash : RecordType.i64.Fits initialCashTicks)
    (valid : market.Valid) (onWire : ∀ order ∈ market.tape.live, LiveOnWire order)
    {record : Inbound} (sendable : Sendable record)
    (numbered : (market.apply initialCashTicks record).1.tape.nextOrderId ≤ 256 ^ 8) :
    ∀ output ∈ (market.apply initialCashTicks record).2, output.wire.Fits := by
  cases record with
  | submitOrder order => exact submit_fits valid onWire sendable numbered
  | cancelOrder request =>
      obtain ⟨time, body⟩ := WireRecord.fits_new.mp (sendable _ rfl)
      simp only [RecordType.bodyItems, List.forall₂_cons] at body
      obtain ⟨clientOrderId, userId, -⟩ := body
      simp only [apply, cancel] at numbered ⊢
      split
      · intro output member
        obtain rfl := List.mem_singleton.mp member
        refine WireRecord.fits_new.mpr ⟨time, ?_⟩
        simp only [RecordType.bodyItems, List.forall₂_cons]
        exact ⟨clientOrderId, userId, by decide, by decide, .nil⟩
      · rename_i order found
        intro output member
        obtain rfl := List.mem_singleton.mp member
        rw [found] at numbered
        exact cancellation_fits valid onWire numbered ((named_eq_some valid).mp found).1 time _
  | createAccount create =>
      obtain ⟨time, body⟩ := WireRecord.fits_new.mp (sendable _ rfl)
      simp only [RecordType.bodyItems, List.forall₂_cons] at body
      obtain ⟨clientOrderId, userId, -⟩ := body
      intro output member
      obtain rfl := List.mem_singleton.mp member
      refine WireRecord.fits_new.mpr ⟨time, ?_⟩
      simp only [RecordType.bodyItems, List.forall₂_cons]
      exact ⟨clientOrderId, userId, cash, .nil⟩
  | creditCash credit =>
      have sent := WireRecord.fits_new.mp (sendable _ rfl)
      intro output member
      obtain rfl := List.mem_singleton.mp member
      exact WireRecord.fits_new.mpr sent
  | configureReplay replay =>
      have sent := WireRecord.fits_new.mp (sendable _ rfl)
      intro output member
      obtain rfl := List.mem_singleton.mp member
      exact WireRecord.fits_new.mpr sent
  | other =>
      intro output member
      cases member

theorem run_fits {initialCashTicks : Int} (cash : RecordType.i64.Fits initialCashTicks)
    (valid : market.Valid) (onWire : ∀ order ∈ market.tape.live, LiveOnWire order)
    {records : List Inbound} (sendable : ∀ record ∈ records, Sendable record)
    (numbered : (market.run initialCashTicks records).1.tape.nextOrderId ≤ 256 ^ 8) :
    ∀ output ∈ (market.run initialCashTicks records).2, output.wire.Fits := by
  induction records generalizing market with
  | nil =>
      intro output member
      cases member
  | cons record rest ih =>
      obtain ⟨first, later⟩ := List.forall_mem_cons.mp sendable
      have least := (run_nextOrderId initialCashTicks (market.apply initialCashTicks record).1 rest).1
      intro output member
      cases List.mem_append.mp member with
      | inl now => exact apply_fits cash valid onWire first (le_trans least numbered) output now
      | inr then_ =>
          exact ih (apply_valid _ valid record)
            (apply_onWire _ valid onWire (onWire_of_sendable first)) later numbered output then_

end QuantArena.Exchange.Market
