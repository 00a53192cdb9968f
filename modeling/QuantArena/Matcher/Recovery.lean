import QuantArena.Matcher.Restarts
import QuantArena.Matcher.RunnerProperties

/-! Recovery is exactly-once: whatever happens to the process and to its writes, the
outbound stream is what one uninterrupted matcher would have written. -/

set_option autoImplicit false

namespace QuantArena.Matcher

open Foundations Contracts

namespace System

variable {settings : Settings}

/-- What stands on the outbound stream stays there. -/
theorem act_keeps (settings : Settings) (system : System) (action : Action) :
    system.redis.outbound.entries <+: (system.act settings action).redis.outbound.entries := by
  cases action with
  | gateway now record => exact List.prefix_rfl
  | step now limit reply =>
      cases live : system.runner with
      | none => simp only [act, live, List.prefix_rfl]
      | some runner =>
          simp only [act, live, step]
          split
          · exact List.prefix_rfl
          · split
            · exact List.prefix_rfl
            · split
              · exact List.prefix_rfl
              · cases reply with
                | ok => exact Stream.entries_appendAll ..
                | failed => exact List.prefix_rfl
                | lost => exact Stream.entries_appendAll ..
  | writeCheckpoint reply =>
      cases live : system.runner with
      | none => simp only [act, live, List.prefix_rfl]
      | some runner =>
          simp only [act, live, writeCheckpoint]
          split
          · exact List.prefix_rfl
          · cases reply <;> exact List.prefix_rfl
  | loseCheckpoint => exact List.prefix_rfl
  | crash => exact List.prefix_rfl
  | recover => exact List.prefix_rfl

theorem run_keeps (settings : Settings) (system : System) (actions : List Action) :
    system.redis.outbound.entries <+: (system.run settings actions).redis.outbound.entries := by
  induction actions generalizing system with
  | nil => exact List.prefix_rfl
  | cons action rest ih => exact (act_keeps settings system action).trans (ih (system.act settings action))

theorem run_append (system : System) (first second : List Action) :
    system.run settings (first ++ second) = (system.run settings first).run settings second :=
  List.foldl_append

end System

/-- A runner that stands after `count` records goes on as the uninterrupted matcher does. -/
theorem Runner.Stands.applyAll_same {settings : Settings} {redis : Redis} {count : Nat}
    {runner : Runner} (stands : runner.Stands settings redis count) {matcher : NaiveMatcher}
    (represents : matcher.Represents (answered settings redis.inbound count).1)
    (cash : matcher.initialCashTicks = settings.initialCashTicks) (records : List Inbound) :
    ∃ final resumed outputs, matcher.applyAll records = .ok (final, outputs) ∧
      runner.matcher.applyAll records = .ok (resumed, outputs) := by
  obtain ⟨final, resumed, outputs, continued, same, -⟩ := represents.applyAll_same
    stands.represents (stands.cash.trans cash.symm) (answered_valid _ _ _) records
  exact ⟨final, resumed, outputs, continued, same⟩

/-- At every moment the outbound stream holds what an uninterrupted matcher writes for some
first inbound records; recovery succeeds there, and it and a live process go on from exactly
those records. What the stream holds it never loses. -/
theorem outbound_is_exactly_once (settings : Settings) (actions : List Action) :
    ∃ answered matcher recovered,
      answered <+: (System.start.run settings actions).redis.inbound.records ∧
      (NaiveMatcher.new 1 settings.initialCashTicks).applyAll answered =
        .ok (matcher, (System.start.run settings actions).redis.outbound.records) ∧
      recover settings (System.start.run settings actions).redis = .ok recovered ∧
      (∀ runner, (System.start.run settings actions).runner = some runner ∨ runner = recovered →
        runner.lastInboundId =
          (System.start.run settings actions).redis.inbound.position answered.length ∧
        runner.lastOutboundId = (System.start.run settings actions).redis.outbound.lastId ∧
        ∀ next, ∃ final resumed outputs, matcher.applyAll next = .ok (final, outputs) ∧
          runner.matcher.applyAll next = .ok (resumed, outputs)) ∧
      ∀ later, (System.start.run settings actions).redis.outbound.records <+:
        (System.start.run settings (actions ++ later)).redis.outbound.records := by
  have start : System.start.Answers settings 0 :=
    ⟨start_answers settings, fun runner same => by cases same⟩
  obtain ⟨count, -, redis, live⟩ := run_answers start actions
  have grows := (System.start.run settings actions).run_keeps settings
  simp only [← System.run_append] at grows
  generalize System.start.run settings actions = system at *
  obtain ⟨recovered, succeeded, stands⟩ := recover_ok redis
  obtain ⟨matcher, finished, represents, cash⟩ := NaiveMatcher.fresh_run settings.initialCashTicks
    (system.redis.inbound.records.take count)
  have length : (system.redis.inbound.records.take count).length = count := by
    rw [List.length_take, Stream.length_records, Nat.min_eq_left redis.within]
  refine ⟨system.redis.inbound.records.take count, matcher, recovered, List.take_prefix _ _, ?_,
    succeeded, ?_, ?_⟩
  · rw [redis.outbound]
    exact finished
  · intro runner which
    have stands : runner.Stands settings system.redis count := by
      cases which with
      | inl running => exact live runner running
      | inr same => exact same ▸ stands
    rw [length]
    exact ⟨stands.inbound, stands.outbound, stands.applyAll_same represents cash⟩
  · intro later
    exact (grows later).map _

end QuantArena.Matcher
