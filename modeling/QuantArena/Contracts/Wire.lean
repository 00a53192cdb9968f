import QuantArena.Contracts.Emitted
import QuantArena.Contracts.Records
import QuantArena.Foundations.Stream

/-! `contracts.py`: the thirteen records as the generated module packs and unpacks them, and the
view that the services have of each. -/

set_option autoImplicit false

namespace QuantArena.Contracts

open Foundations

inductive RecordType where
  | submitOrder
  | cancelOrder
  | createAccount
  | creditCash
  | configureReplay
  | orderAccepted
  | orderRejected
  | fill
  | orderCancelled
  | bookChanged
  | accountCreated
  | cashCredited
  | replayConfigured
deriving DecidableEq, Repr

namespace RecordType

/-- `RECORD_TYPE`. -/
def code : RecordType → Int
  | .submitOrder => 1
  | .cancelOrder => 2
  | .createAccount => 3
  | .creditCash => 4
  | .configureReplay => 5
  | .orderAccepted => 10
  | .orderRejected => 11
  | .fill => 12
  | .orderCancelled => 13
  | .bookChanged => 14
  | .accountCreated => 15
  | .cashCredited => 16
  | .replayConfigured => 17

/-- `FORMAT`. -/
def format : RecordType → List Char
  | .submitOrder => "<HHQQqQQqqhBB".toList
  | .cancelOrder => "<HHQQqQQQ".toList
  | .createAccount => "<HHQQqQQ".toList
  | .creditCash => "<HHQQqQQq".toList
  | .configureReplay => "<HHQQqQqQQ".toList
  | .orderAccepted => "<HHQQqQQQqqhBB".toList
  | .orderRejected => "<HHQQqQQhH".toList
  | .fill => "<HHQQqQQQQqqhB".toList
  | .orderCancelled => "<HHQQqQQQqhB".toList
  | .bookChanged => "<HHQQqqqhB".toList
  | .accountCreated => "<HHQQqQQq".toList
  | .cashCredited => "<HHQQqQQq".toList
  | .replayConfigured => "<HHQQqQqQQ".toList

/-- `SIZE`. -/
def size : RecordType → Nat
  | .submitOrder => 64
  | .cancelOrder => 52
  | .createAccount => 44
  | .creditCash => 52
  | .configureReplay => 60
  | .orderAccepted => 72
  | .orderRejected => 48
  | .fill => 79
  | .orderCancelled => 63
  | .bookChanged => 47
  | .accountCreated => 52
  | .cashCredited => 52
  | .replayConfigured => 60

/-- `ALL_RECORDS`. -/
def all : List RecordType :=
  [.submitOrder, .cancelOrder, .createAccount, .creditCash, .configureReplay, .orderAccepted,
    .orderRejected, .fill, .orderCancelled, .bookChanged, .accountCreated, .cashCredited,
    .replayConfigured]

/-- `RECORD_BY_TYPE.get`. -/
def ofCode? (code : Int) : Option RecordType := all.find? fun type => type.code = code

/-! What the codes of a format stand for, the five of the header first. -/

def u8 : IntFormat := ⟨1, false⟩
def u16 : IntFormat := ⟨2, false⟩
def i16 : IntFormat := ⟨2, true⟩
def u64 : IntFormat := ⟨8, false⟩
def i64 : IntFormat := ⟨8, true⟩

def headerItems : List IntFormat := [u16, u16, u64, u64, i64]

def bodyItems : RecordType → List IntFormat
  | .submitOrder => [u64, u64, i64, i64, i16, u8, u8]
  | .cancelOrder => [u64, u64, u64]
  | .createAccount => [u64, u64]
  | .creditCash => [u64, u64, i64]
  | .configureReplay => [u64, i64, u64, u64]
  | .orderAccepted => [u64, u64, u64, i64, i64, i16, u8, u8]
  | .orderRejected => [u64, u64, i16, u16]
  | .fill => [u64, u64, u64, u64, i64, i64, i16, u8]
  | .orderCancelled => [u64, u64, u64, i64, i16, u8]
  | .bookChanged => [i64, i64, i16, u8]
  | .accountCreated => [u64, u64, i64]
  | .cashCredited => [u64, u64, i64]
  | .replayConfigured => [u64, i64, u64, u64]

def items (type : RecordType) : List IntFormat := headerItems ++ type.bodyItems

theorem format_items (type : RecordType) : Generate.readFormat type.format = .ok type.items := by
  cases type <;> rfl

theorem size_items (type : RecordType) : (type.items.map (·.width)).sum = type.size := by
  cases type <;> rfl

theorem items_wide (type : RecordType) : ∀ item ∈ type.items, item.width ≠ 0 := by
  cases type <;> decide

theorem ofCode?_eq_some_iff {code : Int} {type : RecordType} :
    ofCode? code = some type ↔ type.code = code := by
  constructor
  · intro found
    exact of_decide_eq_true (List.find?_some found :)
  · intro same
    subst same
    cases type <;> decide

end RecordType

/-! ## Records -/

/-- A named tuple of the module, with as many values as its class has fields. -/
structure WireRecord where
  type : RecordType
  schemaVersion : Int
  recordType : Int
  seqMs : Int
  seqOrd : Int
  timestampNs : Int
  body : List Int
  arity : body.length = type.bodyItems.length
deriving DecidableEq, Repr

/-- `SCHEMA_VERSION`. -/
def schemaVersion : Int := 2

/-- `SEQ_UNASSIGNED`. -/
def seqUnassigned : Int := 0

namespace WireRecord

def values (record : WireRecord) : List Int :=
  record.schemaVersion :: record.recordType :: record.seqMs :: record.seqOrd ::
    record.timestampNs :: record.body

/-- `new`: the header is filled in, and the sequence number left open. -/
def new (type : RecordType) (timestampNs : Int) (body : List Int)
    (arity : body.length = type.bodyItems.length) : WireRecord where
  type := type
  schemaVersion := Contracts.schemaVersion
  recordType := type.code
  seqMs := seqUnassigned
  seqOrd := seqUnassigned
  timestampNs := timestampNs
  body := body
  arity := arity

def pack (record : WireRecord) : Except Fault (List UInt8) := do
  let items ← Generate.readFormat record.type.format
  packAll items record.values

/-- A class called with the values of its fields. -/
def ofValues (type : RecordType) (values : List Int) : Except Fault WireRecord :=
  match values with
  | schemaVersion :: recordType :: seqMs :: seqOrd :: timestampNs :: body =>
      if arity : body.length = type.bodyItems.length then
        .ok ⟨type, schemaVersion, recordType, seqMs, seqOrd, timestampNs, body, arity⟩
      else .error Generate.typeError
  | _ => .error Generate.typeError

/-- `with_seq`. -/
def withSeq (record : WireRecord) (streamId : StreamId) : WireRecord :=
  { record with seqMs := (ofLex streamId).1, seqOrd := (ofLex streamId).2 }

end WireRecord

def RecordType.unpack (type : RecordType) (data : List UInt8) : Except Fault WireRecord := do
  let items ← Generate.readFormat type.format
  if data.length ≠ (items.map (·.width)).sum then .error .outOfRange
  else WireRecord.ofValues type (takeAll items data)

def peekSchemaVersion (data : List UInt8) : Except Fault Int := Generate.unpackUnsigned16 data 0

def peekRecordType (data : List UInt8) : Except Fault Int := Generate.unpackUnsigned16 data 2

def unpackAny (data : List UInt8) : Except Fault WireRecord := do
  let version ← peekSchemaVersion data
  if version ≠ schemaVersion then
    .error (.raised s!"unsupported schema_version {version}; expected {schemaVersion}")
  else do
    let recordType ← peekRecordType data
    match RecordType.ofCode? recordType with
    | none => .error (.raised s!"unknown record_type {recordType}")
    | some type => type.unpack data

/-! ## The records that the services exchange -/

namespace Inbound

/-- What the gateway packs. It has nothing to write for a record that engines ignore. -/
def wire? : Inbound → Option WireRecord
  | .submitOrder order => some (.new .submitOrder order.timestampNs [order.clientOrderId,
      order.userId, order.priceTicks, order.qty, order.symbolId, order.side, order.tif] rfl)
  | .cancelOrder cancel => some (.new .cancelOrder cancel.timestampNs [cancel.clientOrderId,
      cancel.userId, cancel.targetClientOrderId] rfl)
  | .createAccount create => some (.new .createAccount create.timestampNs [create.clientOrderId,
      create.userId] rfl)
  | .creditCash credit => some (.new .creditCash credit.timestampNs [credit.clientOrderId,
      credit.userId, credit.amountTicks] rfl)
  | .configureReplay replay => some (.new .configureReplay replay.timestampNs
      [replay.clientOrderId, replay.realSecondsPerSimulatedMinute, replay.configHashHi,
        replay.configHashLo] rfl)
  | .other => none

/-- What an engine reads. -/
def ofWire (record : WireRecord) : Inbound :=
  match record.type, record.body with
  | .submitOrder, [clientOrderId, userId, priceTicks, qty, symbolId, side, tif] => .submitOrder
      ⟨record.timestampNs, clientOrderId, userId, priceTicks, qty, symbolId, side, tif⟩
  | .cancelOrder, [clientOrderId, userId, targetClientOrderId] => .cancelOrder
      ⟨record.timestampNs, clientOrderId, userId, targetClientOrderId⟩
  | .createAccount, [clientOrderId, userId] => .createAccount
      ⟨record.timestampNs, clientOrderId, userId⟩
  | .creditCash, [clientOrderId, userId, amountTicks] => .creditCash
      ⟨record.timestampNs, clientOrderId, userId, amountTicks⟩
  | .configureReplay, [clientOrderId, realSecondsPerSimulatedMinute, configHashHi, configHashLo] =>
      .configureReplay ⟨record.timestampNs, clientOrderId, realSecondsPerSimulatedMinute,
        configHashHi, configHashLo⟩
  | _, _ => .other

end Inbound

def cancelReasonCode : CancelReason → Int
  | .userRequested => 1
  | .iocExpired => 2

def cancelReasonOf? (code : Int) : Option CancelReason :=
  if code = 1 then some .userRequested else if code = 2 then some .iocExpired else none

def rejectReasonCode : RejectReason → Int
  | .unknownSymbol => 1
  | .invalidPrice => 2
  | .invalidQuantity => 3
  | .invalidSide => 4
  | .invalidTif => 5
  | .insufficientCash => 6
  | .insufficientPosition => 7
  | .unknownOrder => 8
  | .notOrderOwner => 9
  | .duplicateClientOrderId => 10
  | .exchangeHalted => 11
  | .accountNotFound => 12
  | .accountAlreadyExists => 13

def RejectReason.all : List RejectReason :=
  [.unknownSymbol, .invalidPrice, .invalidQuantity, .invalidSide, .invalidTif, .insufficientCash,
    .insufficientPosition, .unknownOrder, .notOrderOwner, .duplicateClientOrderId, .exchangeHalted,
    .accountNotFound, .accountAlreadyExists]

def rejectReasonOf? (code : Int) : Option RejectReason :=
  RejectReason.all.find? fun reason => rejectReasonCode reason = code

namespace Outbound

/-- What an engine packs. -/
def wire : Outbound → WireRecord
  | .orderAccepted accepted => .new .orderAccepted accepted.timestampNs [accepted.orderId,
      accepted.clientOrderId, accepted.userId, accepted.priceTicks, accepted.qty, accepted.symbolId,
      accepted.side, accepted.tif] rfl
  | .orderRejected rejected => .new .orderRejected rejected.timestampNs [rejected.clientOrderId,
      rejected.userId, rejected.symbolId, rejectReasonCode rejected.reason] rfl
  | .fill trade => .new .fill trade.timestampNs [trade.makerOrderId, trade.takerOrderId,
      trade.makerUserId, trade.takerUserId, trade.priceTicks, trade.qty, trade.symbolId,
      trade.aggressorSide] rfl
  | .orderCancelled cancelled => .new .orderCancelled cancelled.timestampNs [cancelled.orderId,
      cancelled.clientOrderId, cancelled.userId, cancelled.remainingQty, cancelled.symbolId,
      cancelReasonCode cancelled.reason] rfl
  | .bookChanged changed => .new .bookChanged changed.timestampNs [changed.priceTicks,
      changed.qtyAtLevel, changed.symbolId, changed.side] rfl
  | .accountCreated created => .new .accountCreated created.timestampNs [created.clientOrderId,
      created.userId, created.initialCashTicks] rfl
  | .cashCredited credited => .new .cashCredited credited.timestampNs [credited.clientOrderId,
      credited.userId, credited.amountTicks] rfl
  | .replayConfigured configured => .new .replayConfigured configured.timestampNs
      [configured.clientOrderId, configured.realSecondsPerSimulatedMinute, configured.configHashHi,
        configured.configHashLo] rfl

/-- What a consumer reads. The two enumerations are closed: no engine packs anything else. -/
def ofWire? (record : WireRecord) : Option Outbound :=
  match record.type, record.body with
  | .orderAccepted, [orderId, clientOrderId, userId, priceTicks, qty, symbolId, side, tif] =>
      some (.orderAccepted ⟨record.timestampNs, orderId, clientOrderId, userId, priceTicks, qty,
        symbolId, side, tif⟩)
  | .orderRejected, [clientOrderId, userId, symbolId, reason] =>
      (rejectReasonOf? reason).map fun reason =>
        .orderRejected ⟨record.timestampNs, clientOrderId, userId, symbolId, reason⟩
  | .fill, [makerOrderId, takerOrderId, makerUserId, takerUserId, priceTicks, qty, symbolId,
      aggressorSide] => some (.fill ⟨record.timestampNs, makerOrderId, takerOrderId, makerUserId,
        takerUserId, priceTicks, qty, symbolId, aggressorSide⟩)
  | .orderCancelled, [orderId, clientOrderId, userId, remainingQty, symbolId, reason] =>
      (cancelReasonOf? reason).map fun reason => .orderCancelled
        ⟨record.timestampNs, orderId, clientOrderId, userId, remainingQty, symbolId, reason⟩
  | .bookChanged, [priceTicks, qtyAtLevel, symbolId, side] =>
      some (.bookChanged ⟨record.timestampNs, priceTicks, qtyAtLevel, symbolId, side⟩)
  | .accountCreated, [clientOrderId, userId, initialCashTicks] =>
      some (.accountCreated ⟨record.timestampNs, clientOrderId, userId, initialCashTicks⟩)
  | .cashCredited, [clientOrderId, userId, amountTicks] =>
      some (.cashCredited ⟨record.timestampNs, clientOrderId, userId, amountTicks⟩)
  | .replayConfigured, [clientOrderId, realSecondsPerSimulatedMinute, configHashHi, configHashLo] =>
      some (.replayConfigured ⟨record.timestampNs, clientOrderId, realSecondsPerSimulatedMinute,
        configHashHi, configHashLo⟩)
  | _, _ => none

end Outbound

end QuantArena.Contracts
