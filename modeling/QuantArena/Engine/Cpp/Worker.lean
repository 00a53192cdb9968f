import QuantArena.Contracts.Wire
import QuantArena.Engine.Cpp.StreamEngine
import QuantArena.Foundations.Frames

/-! The process around the C++ engine: frames in, frames out, and the two control frames beside the
records of the contract. -/

set_option autoImplicit false

namespace QuantArena.Engine.Cpp

open Foundations Contracts

/-! ## Records as bytes -/

/-- `pack_record`: the struct as it lies in memory, every value cut to its width. -/
def packRecord (record : WireRecord) : List UInt8 :=
  (List.zipWith (fun item value => Bytes.truncated item.width value) record.type.items
    record.values).flatten

def unpackRecord (type : RecordType) (data : List UInt8) : Except Fault WireRecord :=
  if data.length ≠ type.size then
    .error (.raised "record size does not match the generated contract")
  else WireRecord.ofValues type (takeAll type.items data)

/-- `sizeof(RecordHeader)`. -/
def headerSize : Nat := (RecordType.headerItems.map (·.width)).sum

/-- `unpack_header`, of which only the record type is looked at. -/
def unpackHeader (data : List UInt8) : Except Fault Int :=
  if data.length < headerSize then
    .error (.raised "record is shorter than the generated contract header")
  else if (RecordType.u16.take data).1 ≠ schemaVersion then
    .error (.raised "unsupported schema version")
  else .ok (RecordType.u16.take (data.drop 2)).1

/-- The cases of the switch in `apply`. -/
def inboundTypes : List RecordType :=
  [.submitOrder, .cancelOrder, .createAccount, .creditCash, .configureReplay]

namespace StreamEngine

/-- `apply`. A record type that is not switched on is answered with nothing. -/
def applyBytes (engine : StreamEngine) (data : List UInt8) :
    Except Fault (StreamEngine × List (List UInt8)) := do
  let kind ← unpackHeader data
  match RecordType.ofCode? kind with
  | none => .ok (engine, [])
  | some type =>
      if type ∈ inboundTypes then do
        let record ← unpackRecord type data
        let (engine, outputs) ← engine.apply (Inbound.ofWire record)
        .ok (engine, outputs.map fun output => packRecord output.wire)
      else .ok (engine, [])

end StreamEngine

/-! ## The process -/

/-- The engine, and what lies in the two pipes to it. -/
structure Worker where
  engine : StreamEngine
  stdin : List UInt8
  stdout : List UInt8

namespace Worker

def new (initialCashTicks : Int) : Worker := ⟨.new initialCashTicks, [], []⟩

/-- `QASN`. -/
def snapshotRequest : List UInt8 := [81, 65, 83, 78]

/-- `QAS1`. -/
def snapshotMagic : List UInt8 := [81, 65, 83, 49]

def frameIs (frame magic : List UInt8) : Prop := 4 ≤ frame.length ∧ frame.take 4 = magic

instance (frame magic : List UInt8) : Decidable (frameIs frame magic) := by
  unfold frameIs
  infer_instance

/-- `read_frame_length` and `read_frame`, with more input to come or the pipe closed. -/
def readInput (stdin : List UInt8) : Except Fault (List UInt8 × List UInt8) := do
  let (header, rest) ← (Frames.readExactly 4 stdin).mapError fun _ =>
    .raised "truncated input frame length"
  let length := Bytes.ofLittle header
  if length = 0 then .error (.raised "zero-length input records are not allowed")
  else (Frames.readExactly length rest).mapError fun _ => .raised "truncated input frame"

/-- What `main` writes for a frame, before the empty one. -/
def respond (engine : StreamEngine) (input : List UInt8) :
    Except Fault (StreamEngine × List (List UInt8)) :=
  if input.length = 4 ∧ frameIs input snapshotRequest then do
    let data ← engine.snapshot
    .ok (engine, [data])
  else if frameIs input snapshotMagic then do
    let engine ← engine.restore input
    .ok (engine, [])
  else engine.applyBytes input

/-- One turn of the loop of `main`. A process that raises is gone. -/
def turn (worker : Worker) : Except Fault Worker := do
  let (input, rest) ← readInput worker.stdin
  let (engine, outputs) ← respond worker.engine input
  .ok ⟨engine, rest, worker.stdout ++ Frames.frames outputs⟩

end Worker

end QuantArena.Engine.Cpp
