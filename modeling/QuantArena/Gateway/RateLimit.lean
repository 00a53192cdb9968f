import Mathlib.Data.Rat.Cast.Order
import QuantArena.Foundations.Dict
import QuantArena.Foundations.TokenBucket

/-! The per-user limit on orders: a token bucket for each user, in exact numbers for time. -/

set_option autoImplicit false

namespace QuantArena.Gateway

open Foundations

structure RateLimiter where
  ratePerSecond : Int
  buckets : Dict Int (TokenBucket ℚ)

/-- One order of a user, and the clock when the limiter reads it. -/
structure AllowCall where
  userId : Int
  now : ℚ
deriving DecidableEq, Repr

namespace RateLimiter

def new (ratePerSecond : Int) : RateLimiter := ⟨ratePerSecond, .empty⟩

def allow (limiter : RateLimiter) (userId : Int) (now : ℚ) : RateLimiter × Bool :=
  let rate : ℚ := limiter.ratePerSecond
  let bucket : TokenBucket ℚ := match limiter.buckets.get? userId with
    -- A first order finds a full bucket.
    | none => ⟨rate, now⟩
    | some bucket =>
        let elapsed := max 0 (now - bucket.lastRefill)
        ⟨min rate (bucket.tokens + elapsed * rate), now⟩
  if bucket.tokens < 1 then ({ limiter with buckets := limiter.buckets.set userId bucket }, false)
  else
    ({ limiter with
      buckets := limiter.buckets.set userId { bucket with tokens := bucket.tokens - 1 } }, true)

/-- How long until one more token exists. -/
def retryAfterSeconds (limiter : RateLimiter) (userId : Int) : ℚ :=
  match limiter.buckets.get? userId with
  | none => 0
  | some bucket =>
      if bucket.tokens ≥ 1 then 0 else (1 - bucket.tokens) / (limiter.ratePerSecond : ℚ)

def after (limiter : RateLimiter) (calls : List AllowCall) : RateLimiter :=
  calls.foldl (fun limiter call => (limiter.allow call.userId call.now).1) limiter

def answers (limiter : RateLimiter) : List AllowCall → List Bool
  | [] => []
  | call :: rest =>
      (limiter.allow call.userId call.now).2 ::
        answers (limiter.allow call.userId call.now).1 rest

def answered (limiter : RateLimiter) (calls : List AllowCall) : List (AllowCall × Bool) :=
  calls.zip (limiter.answers calls)

/-- The calls that were allowed. -/
def allowed (limiter : RateLimiter) (calls : List AllowCall) : List AllowCall :=
  ((limiter.answered calls).filter (·.2)).map (·.1)

/-! ## One call -/

variable {limiter other : RateLimiter} {userId : Int} {now later : ℚ} {calls : List AllowCall}

abbrev rate (limiter : RateLimiter) : ℚ := limiter.ratePerSecond

/-- A call spends from the bucket of its user. -/
theorem allow_eq (limiter : RateLimiter) (userId : Int) (now : ℚ) :
    limiter.allow userId now =
      ({ limiter with
        buckets := limiter.buckets.set userId
          (TokenBucket.spend limiter.rate limiter.rate (limiter.buckets.get? userId) now).1 },
        (TokenBucket.spend limiter.rate limiter.rate (limiter.buckets.get? userId) now).2) := by
  unfold allow TokenBucket.spend TokenBucket.level rate
  cases limiter.buckets.get? userId with
  | none =>
      simp only
      split <;> rfl
  | some bucket =>
      simp only
      split <;> rfl

theorem get?_allow (limiter : RateLimiter) (userId other : Int) (now : ℚ) :
    (limiter.allow userId now).1.buckets.get? other =
      if other = userId then
        some (TokenBucket.spend limiter.rate limiter.rate (limiter.buckets.get? userId) now).1
      else limiter.buckets.get? other := by
  rw [allow_eq, Dict.get?_set]

theorem rate_allow (limiter : RateLimiter) (userId : Int) (now : ℚ) :
    (limiter.allow userId now).1.rate = limiter.rate := by
  rw [allow_eq]

/-! ## Runs, user by user -/

theorem answered_cons (limiter : RateLimiter) (call : AllowCall) (rest : List AllowCall) :
    limiter.answered (call :: rest) = (call, (limiter.allow call.userId call.now).2) ::
      (limiter.allow call.userId call.now).1.answered rest := rfl

/-- A user's answers are those of the user's own bucket. -/
theorem answers_of_user (limiter : RateLimiter) (calls : List AllowCall) (userId : Int) :
    ((limiter.answered calls).filter (·.1.userId = userId)).map (·.2) =
      TokenBucket.answers limiter.rate limiter.rate (limiter.buckets.get? userId)
        ((calls.filter (·.userId = userId)).map (·.now)) := by
  induction calls generalizing limiter with
  | nil => rfl
  | cons call rest ih =>
      rw [answered_cons]
      by_cases own : call.userId = userId
      · rw [List.filter_cons_of_pos (by simpa using own), List.filter_cons_of_pos (by simpa using own),
          List.map_cons, List.map_cons, ih, TokenBucket.answers, rate_allow, get?_allow,
          if_pos own.symm, allow_eq, own]
      · rw [List.filter_cons_of_neg (by simpa using own), List.filter_cons_of_neg (by simpa using own),
          ih, rate_allow, get?_allow, if_neg (Ne.symm own)]

/-- A user's allowed calls are the times at which the user's bucket was spent from. -/
theorem allowed_of_user (limiter : RateLimiter) (calls : List AllowCall) (userId : Int) :
    ((limiter.allowed calls).filter (·.userId = userId)).map (·.now) =
      TokenBucket.spent limiter.rate limiter.rate (limiter.buckets.get? userId)
        ((calls.filter (·.userId = userId)).map (·.now)) := by
  induction calls generalizing limiter with
  | nil => rfl
  | cons call rest ih =>
      have step : ((limiter.allowed (call :: rest)).filter (·.userId = userId)).map (·.now) =
          (if (limiter.allow call.userId call.now).2 then
            if call.userId = userId then [call.now] else [] else []) ++
          (((limiter.allow call.userId call.now).1.allowed rest).filter
            (·.userId = userId)).map (·.now) := by
        rw [allowed, answered_cons, List.filter_cons]
        split
        · rw [List.map_cons, List.filter_cons]
          simp only [decide_eq_true_eq]
          split <;> rfl
        · rfl
      rw [step, ih, rate_allow, get?_allow]
      by_cases own : call.userId = userId
      · rw [if_pos own, if_pos own.symm, List.filter_cons_of_pos (by simpa using own), List.map_cons,
          TokenBucket.spent, allow_eq, own]
      · rw [if_neg own, if_neg (Ne.symm own), ite_self, List.nil_append,
          List.filter_cons_of_neg (by simpa using own)]

theorem length_answers (limiter : RateLimiter) (calls : List AllowCall) :
    (limiter.answers calls).length = calls.length := by
  induction calls generalizing limiter with
  | nil => rfl
  | cons call rest ih => exact congrArg Nat.succ (ih _)

/-- Where nobody else calls, all answers are the user's. -/
theorem answers_own {userId : Int} (own : ∀ call ∈ calls, call.userId = userId) :
    limiter.answers calls =
      TokenBucket.answers limiter.rate limiter.rate (limiter.buckets.get? userId)
        (calls.map (·.now)) := by
  have mine := answers_of_user limiter calls userId
  have all : (limiter.answered calls).filter (·.1.userId = userId) = limiter.answered calls := by
    refine List.filter_eq_self.mpr fun entry member => ?_
    exact decide_eq_true (own entry.1 (List.of_mem_zip member).1)
  rw [all, List.filter_eq_self.mpr fun call member => decide_eq_true (own call member)] at mine
  rw [← mine, answered, List.map_snd_zip (length_answers limiter calls).le]

/-! ## What every run keeps -/

/-- Every bucket is sound at a time. -/
def Settled (limiter : RateLimiter) (now : ℚ) : Prop :=
  ∀ userId, TokenBucket.Sound limiter.rate (limiter.buckets.get? userId) now

theorem new_settled (ratePerSecond : Int) (now : ℚ) : (new ratePerSecond).Settled now :=
  fun _ => ⟨by rintro used ⟨⟩, by rintro used ⟨⟩⟩

theorem Settled.allow (settled : limiter.Settled now) (positive : 0 ≤ limiter.rate) (userId : Int) :
    (limiter.allow userId now).1.Settled now := by
  intro other
  rw [rate_allow, get?_allow]
  split
  · exact (settled userId).spend positive positive
  · exact settled other

theorem Settled.after (settled : limiter.Settled now) (positive : 0 ≤ limiter.rate)
    (ordered : (calls.map (·.now)).Pairwise (· ≤ ·)) (ahead : ∀ call ∈ calls, now ≤ call.now)
    (passed : now ≤ later) (reached : ∀ call ∈ calls, call.now ≤ later) :
    (limiter.after calls).Settled later := by
  induction calls generalizing limiter now with
  | nil => exact fun userId => (settled userId).mono passed
  | cons call rest ih =>
      obtain ⟨first, others⟩ := List.pairwise_cons.mp ordered
      have waits : limiter.Settled call.now := fun userId =>
        (settled userId).mono (ahead call List.mem_cons_self)
      refine ih (waits.allow positive call.userId) (by rw [rate_allow]; exact positive) others ?_
        (reached call List.mem_cons_self) fun other member =>
          reached other (List.mem_cons_of_mem _ member)
      exact fun other member => first other.now (List.mem_map_of_mem member)

/-- A bucket was last refilled at a call of its user. -/
theorem lastRefill_after {used : TokenBucket ℚ}
    (found : (limiter.after calls).buckets.get? userId = some used) :
    limiter.buckets.get? userId = some used ∨
      ∃ call ∈ calls, call.userId = userId ∧ used.lastRefill = call.now := by
  induction calls generalizing limiter with
  | nil => exact .inl found
  | cons call rest ih =>
      cases ih found with
      | inr later =>
          obtain ⟨other, member, own, same⟩ := later
          exact .inr ⟨other, List.mem_cons_of_mem _ member, own, same⟩
      | inl present =>
          rw [get?_allow] at present
          split at present
          · rename_i own
            cases present
            exact .inr ⟨call, List.mem_cons_self, own.symm, TokenBucket.lastRefill_spend _ _⟩
          · exact .inl present

/-! ## Limiters that answer alike -/

/-- Two limiters hold the same for every user, from a time on. -/
structure Alike (limiter other : RateLimiter) (now : ℚ) : Prop where
  rate : limiter.rate = other.rate
  levels : ∀ userId time, now ≤ time →
    TokenBucket.level limiter.rate limiter.rate (limiter.buckets.get? userId) time =
      TokenBucket.level other.rate other.rate (other.buckets.get? userId) time

theorem Alike.spend (alike : limiter.Alike other now) (userId : Int) (reached : now ≤ later) :
    TokenBucket.spend limiter.rate limiter.rate (limiter.buckets.get? userId) later =
      TokenBucket.spend other.rate other.rate (other.buckets.get? userId) later := by
  rw [TokenBucket.spend, TokenBucket.spend, alike.levels userId later reached]

theorem Alike.answers (alike : limiter.Alike other now)
    (ordered : (calls.map (·.now)).Pairwise (· ≤ ·)) (ahead : ∀ call ∈ calls, now ≤ call.now) :
    limiter.answers calls = other.answers calls := by
  induction calls generalizing limiter other now with
  | nil => rfl
  | cons call rest ih =>
      obtain ⟨first, others⟩ := List.pairwise_cons.mp ordered
      have reached := ahead call List.mem_cons_self
      have same := alike.spend call.userId reached
      have onward : (limiter.allow call.userId call.now).1.Alike
          (other.allow call.userId call.now).1 call.now := by
        refine ⟨by rw [rate_allow, rate_allow, alike.rate], fun userId time passed => ?_⟩
        rw [rate_allow, rate_allow, get?_allow, get?_allow]
        split
        · rw [same, alike.rate]
        · exact alike.levels userId time (reached.trans passed)
      have rest := ih onward others fun other member =>
        first other.now (List.mem_map_of_mem member)
      rw [RateLimiter.answers, RateLimiter.answers, rest, allow_eq, allow_eq, same]

/-- After a refusal a limiter answers as if the call had not been made. -/
theorem Settled.alike_of_refused (settled : limiter.Settled now) (positive : 0 ≤ limiter.rate)
    (refused : (limiter.allow userId now).2 = false) :
    (limiter.allow userId now).1.Alike limiter now := by
  refine ⟨rate_allow _ _ _, fun other time passed => ?_⟩
  rw [rate_allow, get?_allow]
  split
  · rename_i own
    subst own
    rw [allow_eq] at refused
    exact (settled other).level_refused positive refused passed
  · rfl

theorem answers_append (limiter : RateLimiter) (before rest : List AllowCall) :
    limiter.answers (before ++ rest) =
      limiter.answers before ++ (limiter.after before).answers rest := by
  induction before generalizing limiter with
  | nil => rfl
  | cons call others ih => exact congrArg _ (ih _)

theorem settled_after_new {ratePerSecond : Int} (positive : 0 < ratePerSecond)
    (ordered : (calls.map (·.now)).Pairwise (· ≤ ·)) (reached : ∀ call ∈ calls, call.now ≤ later) :
    ((new ratePerSecond).after calls).Settled later := by
  cases calls with
  | nil => exact new_settled ratePerSecond later
  | cons call rest =>
      have nonneg : 0 ≤ (new ratePerSecond).rate := Int.cast_nonneg positive.le
      refine (new_settled ratePerSecond call.now).after nonneg ordered ?_
        (reached call List.mem_cons_self) reached
      intro other member
      cases List.mem_cons.mp member with
      | inl same => rw [same]
      | inr rest => exact (List.pairwise_cons.mp ordered).1 other.now (List.mem_map_of_mem rest)

theorem rate_after (limiter : RateLimiter) (calls : List AllowCall) :
    (limiter.after calls).rate = limiter.rate := by
  induction calls generalizing limiter with
  | nil => rfl
  | cons call rest ih => exact (ih _).trans (rate_allow _ _ _)

/-- In any window a user is allowed a full bucket, and the refill of the window; the answers to a
user do not depend on anyone else; a refused call changes no answer; and after a second without a
call the whole rate is allowed at once. -/
theorem rate_limit_holds (ratePerSecond : Int) (positive : 0 < ratePerSecond) (calls : List AllowCall)
    (ordered : (calls.map (·.now)).Pairwise (· ≤ ·)) :
    (∀ (userId : Int) (start finish : ℚ), start ≤ finish →
      ((((new ratePerSecond).allowed calls).filter fun call =>
        call.userId = userId ∧ start ≤ call.now ∧ call.now ≤ finish).length : ℚ) ≤
          ratePerSecond + ratePerSecond * (finish - start)) ∧
    (∀ userId : Int,
      (((new ratePerSecond).answered calls).filter (·.1.userId = userId)).map (·.2) =
        (new ratePerSecond).answers (calls.filter (·.userId = userId))) ∧
    (∀ (before : List AllowCall) (call : AllowCall) (rest : List AllowCall), calls = before ++ call :: rest →
      ((new ratePerSecond).answers calls)[before.length]? = some false →
      (new ratePerSecond).answers (before ++ rest) =
        ((new ratePerSecond).answers calls).eraseIdx before.length) ∧
    ∀ (userId : Int) (now : ℚ), (∀ call ∈ calls, call.now ≤ now) →
      (∀ call ∈ calls, call.userId = userId → call.now + 1 ≤ now) →
      ((new ratePerSecond).after calls).answers
          (List.replicate ratePerSecond.toNat ⟨userId, now⟩) =
        List.replicate ratePerSecond.toNat true := by
  have nonneg : (0 : ℚ) ≤ ratePerSecond := Int.cast_nonneg positive.le
  refine ⟨?_, ?_, ?_, ?_⟩
  · intro userId start finish opened
    have own := allowed_of_user (new ratePerSecond) calls userId
    have times : ((calls.filter (·.userId = userId)).map (·.now)).Pairwise (· ≤ ·) :=
      ordered.sublist (List.filter_sublist.map _)
    have bound := TokenBucket.spent_within_fresh nonneg nonneg opened times
    have count : (((new ratePerSecond).allowed calls).filter fun call =>
        call.userId = userId ∧ start ≤ call.now ∧ call.now ≤ finish).length =
        ((TokenBucket.spent (new ratePerSecond).rate (new ratePerSecond).rate
          ((new ratePerSecond).buckets.get? userId)
          ((calls.filter (·.userId = userId)).map (·.now))).filter fun time =>
            start ≤ time ∧ time ≤ finish).length := by
      rw [← own, List.filter_map, List.length_map, List.filter_filter]
      refine congrArg List.length (List.filter_congr fun call _ => ?_)
      simp [Bool.and_comm]
    rw [count]
    exact bound
  · intro userId
    rw [answers_of_user, answers_own fun call member => of_decide_eq_true (List.mem_filter.mp member).2]
  · rintro before call rest rfl refused
    rw [List.map_append, List.pairwise_append] at ordered
    obtain ⟨early, late, across⟩ := ordered
    obtain ⟨first, others⟩ := List.pairwise_cons.mp late
    have size := length_answers (new ratePerSecond) before
    rw [answers_append, List.getElem?_append_right size.le, size, Nat.sub_self] at refused
    have settled : ((new ratePerSecond).after before).Settled call.now :=
      settled_after_new positive early fun other member =>
        across other.now (List.mem_map_of_mem member) call.now List.mem_cons_self
    have steady : 0 ≤ ((new ratePerSecond).after before).rate := by
      rw [rate_after]
      exact nonneg
    have alike := settled.alike_of_refused steady (Option.some.inj refused)
    have same := alike.answers others fun other member =>
      first other.now (List.mem_map_of_mem member)
    rw [answers_append, answers_append, List.eraseIdx_append_of_length_le size.le, size,
      Nat.sub_self]
    exact congrArg _ same.symm
  · intro userId now reached idle
    have rate := rate_after (new ratePerSecond) calls
    have settled := settled_after_new positive ordered reached userId
    rw [rate] at settled
    have full := @TokenBucket.Sound.level_idle ℚ _ _ _ (ratePerSecond : ℚ) _ _ _ settled ?_
    · rw [answers_own fun call member => by rw [List.eq_of_mem_replicate member],
        List.map_replicate, rate]
      refine TokenBucket.answers_burst _ (le_of_eq ?_)
      have whole : ((ratePerSecond.toNat : Int) : ℚ) = ratePerSecond := by
        rw [Int.toNat_of_nonneg positive.le]
      exact whole.trans full.symm
    · intro used found
      cases lastRefill_after found with
      | inl fresh => cases fresh
      | inr since =>
          obtain ⟨call, member, own, refilled⟩ := since
          have passed : 1 ≤ now - used.lastRefill := by
            rw [refilled]
            exact le_sub_iff_add_le'.mpr (idle call member own)
          exact le_mul_of_one_le_left nonneg passed

/-- Three orders of one user at a rate of one, the second of them too early. -/
theorem one_order_a_second :
    (new 1).answers [⟨1, 0⟩, ⟨1, 1 / 2⟩, ⟨1, 3 / 2⟩] = [true, false, true] ∧
    (new 1).answers [⟨1, 0⟩, ⟨1, 3 / 2⟩] =
      ((new 1).answers [⟨1, 0⟩, ⟨1, 1 / 2⟩, ⟨1, 3 / 2⟩]).eraseIdx 1 ∧
    ((new 1).after [⟨1, 0⟩, ⟨1, 1 / 2⟩, ⟨1, 3 / 2⟩]).answers [⟨1, 5 / 2⟩] = [true] := by
  have holds := rate_limit_holds 1 (by decide) [⟨1, 0⟩, ⟨1, 1 / 2⟩, ⟨1, 3 / 2⟩] (by norm_num)
  obtain ⟨-, -, refused, idle⟩ := holds
  have answers : (new 1).answers [⟨1, 0⟩, ⟨1, 1 / 2⟩, ⟨1, 3 / 2⟩] = [true, false, true] := by
    decide +kernel
  refine ⟨answers, refused [⟨1, 0⟩] ⟨1, 1 / 2⟩ [⟨1, 3 / 2⟩] rfl ?_, idle 1 (5 / 2) ?_ ?_⟩
  · rw [answers]
    rfl
  · norm_num
  · norm_num

end RateLimiter

end QuantArena.Gateway
