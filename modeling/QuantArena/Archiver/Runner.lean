import QuantArena.Archiver.Writer

/-! The archiver process, which reads the outbound stream in batches, writes the units that
sealed and then moves the checkpoint; and its runs, with the writes that fail and the
restarts in between. -/

set_option autoImplicit false

namespace QuantArena.Archive

open Foundations Contracts Fanout

structure Archiver where
  state : ArchiveState
  position : StreamId

namespace Archiver

variable (geometry : Geometry)

/-- A new process. It takes nothing but its read position from the disk. -/
def resume (disk : Disk) : Archiver := ⟨.new geometry, disk.checkpoint.getD .start⟩

/-- The part of `step` before `_write_ready`. -/
def read (archiver : Archiver) (batch : List (StreamId × Outbound)) : Archiver :=
  ⟨archiver.state.applyAll geometry batch, Stream.reached batch archiver.position⟩

end Archiver

/-- How `_write_ready` ends. -/
inductive Outcome where
  | done
  /-- An exception, which `run` logs, after so many units and so many files of the next. -/
  | raised (units files : Nat)
  /-- The process dies there, and another one resumes. -/
  | crashed (units files : Nat)
deriving DecidableEq, Repr

inductive Action where
  | step (count : Nat) (outcome : Outcome)
  /-- A graceful stop: `finish`, and another process that resumes. -/
  | stop
deriving DecidableEq, Repr

/-- The process and its disk, with what the run has done so far. -/
structure System where
  archiver : Archiver
  disk : Disk
  /-- The starts of the units whose files were all put in place, as they were written. -/
  written : List Int
  /-- Prints that this process has drained and not put in place. -/
  dropped : List Trade
  /-- Where the last graceful stop was. -/
  stoppedAt : StreamId

namespace System

variable (geometry : Geometry) (writer : ArchiveWriter) (stream : Foundations.Stream Outbound)

def start : System := ⟨.resume geometry .blank, .blank, [], [], .start⟩

/-- What the unit after the first `units` would put in place. -/
def nextUnit (ready : List FlushUnit) (units : Nat) : List Placement :=
  (((ready.drop units).head?).map writer.writeUnit).getD []

/-- Whole units put in place, and some files of the next. -/
def writeUnits (system : System) (ready : List FlushUnit) (units files : Nat) : System :=
  { system with
    disk := system.disk.placeAll
      ((ready.take units).flatMap writer.writeUnit ++ (nextUnit writer ready units).take files)
    written := system.written ++ (ready.take units).map (·.startNs) }

/-- What that leaves over. -/
def leftOver (ready : List FlushUnit) (units files : Nat) : List Placement :=
  (nextUnit writer ready units).drop files ++ (ready.drop (units + 1)).flatMap writer.writeUnit

/-- `_write_ready`, after `drain_ready`. -/
def writeReady (system : System) (ready : List FlushUnit) : System :=
  if ready = [] then system
  else
    let placed := system.writeUnits writer ready ready.length 0
    { placed with
      disk := { placed.disk with checkpoint := some system.archiver.state.checkpoint } }

/-- A new process on the disk as it is. -/
def restart (system : System) : System :=
  { system with archiver := .resume geometry system.disk, dropped := [] }

def step (system : System) : Action → System
  | .step count outcome =>
      let read := system.archiver.read geometry (stream.read system.archiver.position count)
      let (state, ready) := read.state.drainReady
      let drained := { system with archiver := ⟨state, read.position⟩ }
      match outcome with
      | .done => drained.writeReady writer ready
      | .raised units files =>
          { drained.writeUnits writer ready units files with
            dropped := system.dropped ++ (leftOver writer ready units files).flatMap (·.prints) }
      | .crashed units files => (drained.writeUnits writer ready units files).restart geometry
  | .stop =>
      let (state, ready) := (system.archiver.state.finish geometry).drainReady
      let drained := { system with
        archiver := ⟨state, system.archiver.position⟩
        stoppedAt := system.archiver.position }
      (drained.writeReady writer ready).restart geometry

def run (system : System) (actions : List Action) : System :=
  actions.foldl (step geometry writer stream) system

end System

end QuantArena.Archive
