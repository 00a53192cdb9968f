import Mathlib.Algebra.Order.Field.Basic
import Mathlib.Tactic.Linarith
import Mathlib.Tactic.Ring

/-! Token buckets that are refilled when they are read: how much is in one at a time, and how
many tokens can be spent from it within a window. -/

set_option autoImplicit false

namespace QuantArena.Foundations

structure TokenBucket (K : Type) where
  tokens : K
  lastRefill : K
deriving DecidableEq, Repr

namespace TokenBucket

variable {K : Type} [Field K] [LinearOrder K]

section Level

variable (capacity rate : K)

/-- What there is to spend at a time. A bucket that was never used is full. -/
def level (bucket : Option (TokenBucket K)) (now : K) : K :=
  match bucket with
  | none => capacity
  | some used => min capacity (used.tokens + max 0 (now - used.lastRefill) * rate)

/-- One token, if there is one. -/
def spend (bucket : Option (TokenBucket K)) (now : K) : TokenBucket K × Bool :=
  if level capacity rate bucket now < 1 then (⟨level capacity rate bucket now, now⟩, false)
  else (⟨level capacity rate bucket now - 1, now⟩, true)

/-- The answers to calls at given times, one after the other. -/
def answers (bucket : Option (TokenBucket K)) : List K → List Bool
  | [] => []
  | now :: later =>
      (spend capacity rate bucket now).2 :: answers (some (spend capacity rate bucket now).1) later

/-- The times at which a token was spent. -/
def spent (bucket : Option (TokenBucket K)) : List K → List K
  | [] => []
  | now :: later =>
      (if (spend capacity rate bucket now).2 then [now] else []) ++
        spent (some (spend capacity rate bucket now).1) later

/-- Never overdrawn or overfull, and last used at a time that has come. -/
structure Sound (bucket : Option (TokenBucket K)) (now : K) : Prop where
  tokens : ∀ used ∈ bucket, 0 ≤ used.tokens ∧ used.tokens ≤ capacity
  past : ∀ used ∈ bucket, used.lastRefill ≤ now

end Level

variable {capacity rate : K} {bucket : Option (TokenBucket K)} {now later : K}

theorem level_le_capacity (bucket : Option (TokenBucket K)) (now : K) :
    level capacity rate bucket now ≤ capacity := by
  cases bucket with
  | none => exact le_rfl
  | some used => exact min_le_left _ _

theorem Sound.mono (sound : Sound capacity bucket now) (passed : now ≤ later) :
    Sound capacity bucket later where
  tokens := sound.tokens
  past used same := (sound.past used same).trans passed

theorem level_now (tokens : K) (fits : tokens ≤ capacity) :
    level capacity rate (some ⟨tokens, now⟩) now = tokens := by
  simp only [level, sub_self, max_self, zero_mul, add_zero]
  exact min_eq_right fits

theorem mem_of_mem_spent {times : List K} {time : K}
    (member : time ∈ spent capacity rate bucket times) : time ∈ times := by
  induction times generalizing bucket with
  | nil => cases member
  | cons first rest ih =>
      cases List.mem_append.mp member with
      | inl own =>
          split at own
          · exact List.mem_singleton.mp own ▸ List.mem_cons_self
          · cases own
      | inr others => exact List.mem_cons_of_mem _ (ih others)

theorem lastRefill_spend (bucket : Option (TokenBucket K)) (now : K) :
    (spend capacity rate bucket now).1.lastRefill = now := by
  unfold spend
  split <;> rfl

variable [IsStrictOrderedRing K]

theorem Sound.level_nonneg (sound : Sound capacity bucket now) (some_ : 0 ≤ capacity)
    (refills : 0 ≤ rate) : 0 ≤ level capacity rate bucket now := by
  cases bucket with
  | none => exact some_
  | some used =>
      have tokens := (sound.tokens used rfl).1
      have refilled : 0 ≤ max 0 (now - used.lastRefill) * rate :=
        mul_nonneg (le_max_left _ _) refills
      exact le_min some_ (add_nonneg tokens refilled)

/-- What there is later is at most what there was, and the refill since. -/
theorem Sound.level_later (sound : Sound capacity bucket now) (refills : 0 ≤ rate)
    (passed : now ≤ later) :
    level capacity rate bucket later ≤ level capacity rate bucket now + rate * (later - now) := by
  have refilled : 0 ≤ rate * (later - now) := mul_nonneg refills (sub_nonneg.mpr passed)
  cases bucket with
  | none => exact le_add_of_nonneg_right refilled
  | some used =>
      have past := sound.past used rfl
      have early : max 0 (now - used.lastRefill) = now - used.lastRefill :=
        max_eq_right (sub_nonneg.mpr past)
      have late : max 0 (later - used.lastRefill) = later - used.lastRefill :=
        max_eq_right (sub_nonneg.mpr (past.trans passed))
      simp only [level, early, late]
      rw [← min_add_add_right]
      refine min_le_min (le_add_of_nonneg_right refilled) (le_of_eq ?_)
      ring

theorem Sound.spend (sound : Sound capacity bucket now) (some_ : 0 ≤ capacity)
    (refills : 0 ≤ rate) :
    Sound capacity (some (TokenBucket.spend capacity rate bucket now).1) now := by
  have nonneg := sound.level_nonneg some_ refills
  have most := @level_le_capacity K _ _ capacity rate bucket now
  unfold TokenBucket.spend
  split
  · exact ⟨by rintro used ⟨⟩; exact ⟨nonneg, most⟩, by rintro used ⟨⟩; exact le_rfl⟩
  · rename_i enough
    have least := sub_nonneg.mpr (not_lt.mp enough)
    exact ⟨by rintro used ⟨⟩; exact ⟨least, (sub_le_self _ zero_le_one).trans most⟩,
      by rintro used ⟨⟩; exact le_rfl⟩

/-- A token that is spent is taken from what there was. -/
theorem level_spend (bucket : Option (TokenBucket K)) (now : K) :
    level capacity rate (some (TokenBucket.spend capacity rate bucket now).1) now =
      level capacity rate bucket now -
        if (TokenBucket.spend capacity rate bucket now).2 then 1 else 0 := by
  have most := @level_le_capacity K _ _ capacity rate bucket now
  unfold TokenBucket.spend
  split
  · simp only [level_now _ most, Bool.false_eq_true, if_false, sub_zero]
  · simp only [level_now _ ((sub_le_self _ zero_le_one).trans most), if_true]

/-! ## Windows -/

/-- From a time on, no more is spent than what there is then, and the refill until the end. -/
theorem Sound.spent_until (sound : Sound capacity bucket now) (some_ : 0 ≤ capacity)
    (refills : 0 ≤ rate) {times : List K} (ordered : (now :: times).Pairwise (· ≤ ·)) (finish : K) :
    (((spent capacity rate bucket times).filter (· ≤ finish)).length : K) ≤
      level capacity rate bucket now + rate * max 0 (finish - now) := by
  have nonneg := sound.level_nonneg some_ refills
  have refilled : 0 ≤ rate * max 0 (finish - now) := mul_nonneg refills (le_max_left _ _)
  induction times generalizing bucket now with
  | nil =>
      simp only [spent, List.filter_nil, List.length_nil, Nat.cast_zero]
      exact add_nonneg nonneg refilled
  | cons time rest ih =>
      obtain ⟨first, later⟩ := List.pairwise_cons.mp ordered
      have passed := first time List.mem_cons_self
      by_cases inside : time ≤ finish
      · have reached := sound.mono passed
        have grown := sound.level_later refills passed
        have spends := reached.spend some_ refills
        have onward := ih spends later (spends.level_nonneg some_ refills)
          (mul_nonneg refills (le_max_left _ _))
        rw [level_spend, max_eq_right (sub_nonneg.mpr inside)] at onward
        have count : (((spent capacity rate bucket (time :: rest)).filter (· ≤ finish)).length : K) =
            (if (TokenBucket.spend capacity rate bucket time).2 then 1 else 0) +
              (((spent capacity rate (some (TokenBucket.spend capacity rate bucket time).1)
                rest).filter (· ≤ finish)).length : K) := by
          rw [spent, List.filter_append, List.length_append, Nat.cast_add]
          split <;> simp [inside]
        rw [count, max_eq_right (sub_nonneg.mpr (passed.trans inside))]
        have total : rate * (finish - now) = rate * (time - now) + rate * (finish - time) := by ring
        linarith
      · have none : (spent capacity rate bucket (time :: rest)).filter (· ≤ finish) = [] := by
          refine List.filter_eq_nil_iff.mpr fun other member => ?_
          have reached : time ≤ other := by
            cases List.mem_cons.mp (mem_of_mem_spent member) with
            | inl same => exact same.ge
            | inr after => exact (List.pairwise_cons.mp later).1 other after
          simpa using (not_le.mp inside).trans_le reached
        rw [none, List.length_nil, Nat.cast_zero]
        exact add_nonneg nonneg refilled

/-- Within any window no more is spent than a full bucket, and the refill of the window. -/
theorem Sound.spent_within (sound : Sound capacity bucket now) (some_ : 0 ≤ capacity)
    (refills : 0 ≤ rate) {start finish : K} (open_ : start ≤ finish) {times : List K}
    (ordered : (now :: times).Pairwise (· ≤ ·)) :
    (((spent capacity rate bucket times).filter fun time =>
        start ≤ time ∧ time ≤ finish).length : K) ≤ capacity + rate * (finish - start) := by
  induction times generalizing bucket now with
  | nil =>
      have refilled := mul_nonneg refills (sub_nonneg.mpr open_)
      simp only [spent, List.filter_nil, List.length_nil, Nat.cast_zero]
      exact add_nonneg some_ refilled
  | cons time rest ih =>
      obtain ⟨first, later⟩ := List.pairwise_cons.mp ordered
      have reached := sound.mono (first time List.mem_cons_self)
      by_cases early : time < start
      · -- What is spent before the window does not count.
        have none : (spent capacity rate bucket (time :: rest)).filter (fun time =>
            start ≤ time ∧ time ≤ finish) =
            (spent capacity rate (some (TokenBucket.spend capacity rate bucket time).1)
              rest).filter fun time => start ≤ time ∧ time ≤ finish := by
          rw [spent, List.filter_append]
          split <;> simp [not_le.mpr early]
        rw [none]
        exact ih (reached.spend some_ refills) later
      · -- From here on every call is in the window, or after it.
        have ahead : ∀ other ∈ time :: rest, max now start ≤ other := by
          intro other member
          have afterTime : time ≤ other := by
            cases List.mem_cons.mp member with
            | inl same => exact same.ge
            | inr after => exact (List.pairwise_cons.mp later).1 other after
          exact max_le (first other member) ((not_lt.mp early).trans afterTime)
        have inside : (spent capacity rate bucket (time :: rest)).filter (fun time =>
            start ≤ time ∧ time ≤ finish) =
            (spent capacity rate bucket (time :: rest)).filter (· ≤ finish) := by
          refine List.filter_congr fun other member => ?_
          have reached := (le_max_right now start).trans (ahead other (mem_of_mem_spent member))
          simp [reached]
        have most := @level_le_capacity K _ _ capacity rate bucket (max now start)
        have bound := (sound.mono (le_max_left now start)).spent_until some_ refills
          (List.pairwise_cons.mpr ⟨ahead, later⟩) finish
        have shorter : max 0 (finish - max now start) ≤ finish - start :=
          max_le (sub_nonneg.mpr open_) (sub_le_sub_left (le_max_right _ _) _)
        have refilled := mul_le_mul_of_nonneg_left shorter refills
        rw [inside]
        linarith

/-- A bucket that was never used before. -/
theorem spent_within_fresh (some_ : 0 ≤ capacity) (refills : 0 ≤ rate) {start finish : K}
    (open_ : start ≤ finish) {times : List K} (ordered : times.Pairwise (· ≤ ·)) :
    (((spent capacity rate none times).filter fun time =>
        start ≤ time ∧ time ≤ finish).length : K) ≤ capacity + rate * (finish - start) := by
  cases times with
  | nil =>
      have refilled := mul_nonneg refills (sub_nonneg.mpr open_)
      simp only [spent, List.filter_nil, List.length_nil, Nat.cast_zero]
      exact add_nonneg some_ refilled
  | cons time rest =>
      have fresh : Sound capacity none time := ⟨by rintro used ⟨⟩, by rintro used ⟨⟩⟩
      refine fresh.spent_within some_ refills open_ (List.pairwise_cons.mpr ⟨?_, ordered⟩)
      intro other member
      cases List.mem_cons.mp member with
      | inl same => exact same.ge
      | inr after => exact (List.pairwise_cons.mp ordered).1 other after

/-! ## Refusals, idle times and bursts -/

/-- A refusal spends nothing: whenever it is read later, the bucket holds what it would have. -/
theorem Sound.level_refused (sound : Sound capacity bucket now) (refills : 0 ≤ rate)
    (refused : (TokenBucket.spend capacity rate bucket now).2 = false) (passed : now ≤ later) :
    level capacity rate (some (TokenBucket.spend capacity rate bucket now).1) later =
      level capacity rate bucket later := by
  have kept : (TokenBucket.spend capacity rate bucket now).1 =
      ⟨level capacity rate bucket now, now⟩ := by
    unfold TokenBucket.spend at refused ⊢
    split at refused
    · rename_i short
      rw [if_pos short]
    · cases refused
  have refilled : 0 ≤ (later - now) * rate := mul_nonneg (sub_nonneg.mpr passed) refills
  have capped : ∀ amount : K, min capacity (min capacity amount + (later - now) * rate) =
      min capacity (amount + (later - now) * rate) := by
    intro amount
    rw [← min_add_add_right, ← min_assoc, min_eq_left (le_add_of_nonneg_right refilled)]
  rw [kept]
  cases bucket with
  | none =>
      simp only [level, max_eq_right (sub_nonneg.mpr passed)]
      exact min_eq_left (le_add_of_nonneg_right refilled)
  | some used =>
      have past := sound.past used rfl
      simp only [level, max_eq_right (sub_nonneg.mpr passed), capped,
        max_eq_right (sub_nonneg.mpr past), max_eq_right (sub_nonneg.mpr (past.trans passed))]
      congr 1
      ring

/-- A bucket that was left alone long enough is full. -/
theorem Sound.level_idle (sound : Sound capacity bucket now)
    (idle : ∀ used ∈ bucket, capacity ≤ (now - used.lastRefill) * rate) :
    level capacity rate bucket now = capacity := by
  cases bucket with
  | none => rfl
  | some used =>
      have tokens := (sound.tokens used rfl).1
      have refilled := idle used rfl
      simp only [level, max_eq_right (sub_nonneg.mpr (sound.past used rfl))]
      exact min_eq_left (by linarith)

/-- As many tokens as there are can be spent at once. -/
theorem answers_burst (count : Nat) (enough : (count : K) ≤ level capacity rate bucket now) :
    answers capacity rate bucket (List.replicate count now) = List.replicate count true := by
  induction count generalizing bucket with
  | zero => rfl
  | succ count ih =>
      push_cast at enough
      have nonneg : (0 : K) ≤ count := Nat.cast_nonneg count
      have allowed : (spend capacity rate bucket now).2 = true := by
        rw [spend, if_neg (not_lt.mpr (by linarith))]
      rw [List.replicate_succ, answers, allowed, List.replicate_succ]
      refine congrArg _ (ih ?_)
      rw [level_spend, allowed, if_pos rfl]
      linarith

end TokenBucket

end QuantArena.Foundations
