import QuantArena.Foundations.Bytes

/-! Payloads on a pipe, each behind its length in four bytes, and runs of them that end with an
empty one. -/

set_option autoImplicit false

namespace QuantArena.Foundations.Frames

/-- `readexactly`: what is not there yet is waited for, and never comes from a closed pipe. -/
def readExactly (count : Nat) (pipe : List UInt8) : Except Fault (List UInt8 × List UInt8) :=
  if pipe.length < count then .error (.raised "incomplete read")
  else .ok (pipe.take count, pipe.drop count)

/-- A payload behind its length, which is cut to its four bytes. -/
def frame (payload : List UInt8) : List UInt8 := Bytes.truncated 4 payload.length ++ payload

def readFrame (pipe : List UInt8) : Except Fault (List UInt8 × List UInt8) := do
  let (header, rest) ← readExactly 4 pipe
  readExactly (Bytes.ofLittle header) rest

/-- The payloads up to the empty one, with what follows it; cut off after `rounds` frames. -/
def readFrames : Nat → List UInt8 → Except Fault (List (List UInt8) × List UInt8)
  | 0, _ => .error .diverged
  | rounds + 1, pipe => do
      let (payload, rest) ← readFrame pipe
      if payload = [] then .ok ([], rest)
      else do
        let (payloads, rest) ← readFrames rounds rest
        .ok (payload :: payloads, rest)

/-- The payload's length fits its four bytes. -/
def Framed (payload : List UInt8) : Prop := payload.length < 2 ^ 32

variable {payload rest pipe taken : List UInt8} {payloads : List (List UInt8)}

theorem readExactly_eq_ok {count : Nat} :
    readExactly count pipe = .ok (taken, rest) ↔ pipe = taken ++ rest ∧ taken.length = count := by
  unfold readExactly
  constructor
  · intro read
    split at read
    · cases read
    · rename_i enough
      cases read
      exact ⟨(List.take_append_drop count pipe).symm, List.length_take_of_le (not_lt.mp enough)⟩
  · intro split
    obtain ⟨whole, length⟩ := split
    subst whole
    rw [if_neg (by rw [List.length_append]; omega), List.take_left' length, List.drop_left' length]

theorem ofLittle_length (framed : Framed payload) :
    Bytes.ofLittle (Bytes.truncated 4 payload.length) = payload.length := by
  have bytes := Bytes.ofLittle_truncated 4 payload.length
  unfold Framed at framed
  omega

/-- A frame is read exactly where one begins. -/
theorem readFrame_eq_ok :
    readFrame pipe = .ok (payload, rest) ↔ pipe = frame payload ++ rest ∧ Framed payload := by
  unfold readFrame
  constructor
  · intro read
    obtain ⟨⟨header, later⟩, first, second⟩ := Fault.bind_eq_ok.mp read
    obtain ⟨whole, width⟩ := readExactly_eq_ok.mp first
    obtain ⟨split, length⟩ := readExactly_eq_ok.mp second
    have bounded := Bytes.ofLittle_bounded header
    have same := Bytes.truncated_ofLittle header
    rw [width] at bounded same
    rw [whole, split, frame, length, same, List.append_assoc]
    exact ⟨rfl, by unfold Framed; omega⟩
  · intro written
    obtain ⟨whole, framed⟩ := written
    rw [whole, frame, List.append_assoc]
    exact Fault.bind_eq_ok.mpr ⟨_, readExactly_eq_ok.mpr ⟨rfl, Bytes.length_truncated _ _⟩,
      readExactly_eq_ok.mpr ⟨rfl, (ofLittle_length framed).symm⟩⟩

/-- A run of frames, with the empty one at its end. -/
def frames (payloads : List (List UInt8)) : List UInt8 := payloads.flatMap frame ++ frame []

/-- What was written as a run is read back, and the pipe is left at its end. -/
theorem readFrames_frames (filled : ∀ payload ∈ payloads, payload ≠ [] ∧ Framed payload)
    {rounds : Nat} (enough : payloads.length < rounds) (rest : List UInt8) :
    readFrames rounds (frames payloads ++ rest) = .ok (payloads, rest) := by
  induction payloads generalizing rounds with
  | nil =>
      obtain ⟨more, rfl⟩ := Nat.exists_eq_succ_of_ne_zero (Nat.ne_of_gt enough)
      have read : readFrame (frame [] ++ rest) = .ok ([], rest) :=
        readFrame_eq_ok.mpr ⟨rfl, by unfold Framed; decide⟩
      rw [frames, List.flatMap_nil, List.nil_append, readFrames, read, Fault.ok_bind]
      exact if_pos rfl
  | cons payload others ih =>
      obtain ⟨more, rfl⟩ := Nat.exists_eq_succ_of_ne_zero (Nat.ne_of_gt (Nat.zero_lt_of_lt enough))
      obtain ⟨⟨nonempty, framed⟩, later⟩ := List.forall_mem_cons.mp filled
      have read : readFrame (frame payload ++ (frames others ++ rest)) =
          .ok (payload, frames others ++ rest) := readFrame_eq_ok.mpr ⟨rfl, framed⟩
      have whole : frames (payload :: others) ++ rest = frame payload ++ (frames others ++ rest) := by
        rw [frames, frames, List.flatMap_cons, List.append_assoc, List.append_assoc, List.append_assoc]
      have fewer : others.length < more := Nat.lt_of_succ_lt_succ enough
      rw [whole, readFrames, read, Fault.ok_bind]
      simp only [if_neg nonempty, ih later fewer, Fault.ok_bind]

theorem length_frame (payload : List UInt8) : (frame payload).length = 4 + payload.length := by
  rw [frame, List.length_append, Bytes.length_truncated]

/-- A run is longer than its number of frames. -/
theorem length_lt_frames (payloads : List (List UInt8)) :
    payloads.length < (frames payloads).length := by
  have last : (frame []).length = 4 := rfl
  rw [frames, List.length_append, last]
  induction payloads with
  | nil => decide
  | cons payload others ih =>
      rw [List.flatMap_cons, List.length_append, length_frame, List.length_cons]
      omega

end QuantArena.Foundations.Frames
