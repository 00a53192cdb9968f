import QuantArena.Foundations.Run
import QuantArena.Gateway.Registration

/-! When registrations leave the two stores in step: one grant for each row, and a row
for each grant. -/

set_option autoImplicit false

namespace QuantArena.Gateway

open Foundations Contracts

namespace Registry

/-! ## What one step of a request writes -/

inductive Writes (registry : Registry) (request : Registration) : Registry × Registration → Prop
  /-- Neither store. The id sequence may have moved on. -/
  | nothing {after : Registration} {nextId : Int} (later : registry.nextId ≤ nextId)
      (userId : after.userId = request.userId) (withdrawn : after.withdrawn = request.withdrawn)
      (executions : after.command.executions = request.command.executions) :
      Writes registry request ({ registry with nextId := nextId }, after)
  | row {after : Registration} {username : String} (absent : request.userId = none)
      (userId : after.userId = some registry.nextId)
      (withdrawn : after.withdrawn = request.withdrawn)
      (executions : after.command.executions = request.command.executions) :
      Writes registry request
        ({ registry with
            users := registry.users.set registry.nextId username
            nextId := registry.nextId + 1 }, after)
  | grant {after : Registration} {userId : Int} {now : Nat}
      (present : request.userId = some userId)
      (same : after.userId = some userId) (withdrawn : after.withdrawn = request.withdrawn)
      (executions : after.command.executions = request.command.executions + 1) :
      Writes registry request
        ({ registry with
            inbound := registry.inbound.append now (.createAccount (request.create userId)) }, after)
  | deletion {after : Registration} {userId : Int} (present : request.userId = some userId)
      (same : after.userId = some userId) (withdrawn : after.withdrawn = true)
      (executions : after.command.executions = request.command.executions) :
      Writes registry request ({ registry with users := registry.users.erase userId }, after)

section Writes

variable (registry : Registry) (request : Registration)

theorem writes_nothing {after : Registration} (userId : after.userId = request.userId)
    (withdrawn : after.withdrawn = request.withdrawn)
    (executions : after.command.executions = request.command.executions) :
    Writes registry request (registry, after) :=
  .nothing (le_refl registry.nextId) userId withdrawn executions

theorem select_writes : Writes registry request (registry.select request) := by
  unfold select
  split
  · split <;> exact writes_nothing registry request rfl rfl rfl
  · exact writes_nothing registry request rfl rfl rfl

theorem insert_writes : Writes registry request (registry.insert request) := by
  unfold insert
  split
  · rename_i absent
    split
    · exact .nothing (by simp) rfl rfl rfl
    · exact .row absent rfl rfl rfl
  · exact writes_nothing registry request rfl rfl rfl

theorem append_writes (halted : Bool) : Writes registry request (append halted registry request) := by
  unfold append
  split
  · split <;> exact writes_nothing registry request rfl rfl rfl
  · exact writes_nothing registry request rfl rfl rfl

theorem execute_writes (now : Nat) : Writes registry request (execute now registry request) := by
  unfold execute
  split
  · rename_i present _
    exact .grant present present rfl rfl
  · exact writes_nothing registry request rfl rfl rfl

theorem drop_writes : Writes registry request (registry.drop request) :=
  writes_nothing registry request rfl rfl rfl

theorem resolve_writes (outcome : AppendOutcome) :
    Writes registry request (resolve outcome registry request) := by
  unfold resolve
  split
  · split <;> exact writes_nothing registry request rfl rfl rfl
  all_goals exact writes_nothing registry request rfl rfl rfl

theorem withdraw_writes (committed replied : Bool) :
    Writes registry request (withdraw committed replied registry request) := by
  unfold withdraw
  split
  · rename_i present
    split
    · exact .deletion present present rfl rfl
    · exact writes_nothing registry request rfl rfl rfl
  · exact writes_nothing registry request rfl rfl rfl

theorem abort_writes : Writes registry request (registry.abort request) := by
  unfold abort
  split <;> exact writes_nothing registry request rfl rfl rfl

end Writes

/-! ## What the stores hold -/

def Has (registry : Registry) (index : Nat) (request : Registration) : Prop :=
  registry.requests[index]? = some request

/-- Rows and grants, told by what each request has written. -/
structure Accounted (registry : Registry) : Prop where
  numbered : ∀ {index request userId}, registry.Has index request →
    request.userId = some userId → userId < registry.nextId
  distinct : ∀ {index other request rival userId}, registry.Has index request →
    registry.Has other rival → request.userId = some userId → rival.userId = some userId →
      index = other
  rows : ∀ userId, userId ∈ registry.users.keys ↔
    ∃ index request, registry.Has index request ∧ request.userId = some userId ∧
      request.withdrawn = false
  granted : ∀ {index request userId}, registry.Has index request →
    request.userId = some userId →
      (registry.grants userId).length = request.command.executions
  known : ∀ {userId}, registry.grants userId ≠ [] →
    ∃ index request, registry.Has index request ∧ request.userId = some userId
  early : ∀ {index request}, registry.Has index request → request.userId = none →
    request.command.executions = 0 ∧ request.withdrawn = false

theorem fresh_accounted : fresh.Accounted := by
  constructor <;> simp [fresh, grants, Stream.empty, Has]

variable {registry : Registry}

theorem grants_append (registry : Registry) (now : Nat) (create : CreateAccount) (userId : Int) :
    { registry with inbound := registry.inbound.append now (.createAccount create) }.grants userId =
      registry.grants userId ++
        if create.userId = userId then [registry.inbound.lastId.next now] else [] := by
  by_cases same : create.userId = userId <;> simp [grants, Stream.append, same]

/-- The requests after a step of the one at `index`. -/
theorem has_set_iff {stores : Registry} {index : Nat} {before : Registration}
    (located : registry.Has index before) (after : Registration) (other : Nat)
    (request : Registration) :
    ({ stores with requests := registry.requests.set index after } : Registry).Has other request ↔
      other = index ∧ request = after ∨ other ≠ index ∧ registry.Has other request := by
  simp only [Has]
  by_cases same : other = index
  · subst same
    rw [List.getElem?_set_self (List.getElem?_eq_some_iff.mp located).1]
    simp [eq_comm]
  · rw [List.getElem?_set_ne (Ne.symm same)]
    simp [same]

section Update

variable {index : Nat} {before after : Registration} {stores : Registry}

/-- Each request is found where it was, and only the one that stepped has changed. -/
theorem has_before (located : registry.Has index before)
    (same : after.userId = before.userId) {other : Nat} {request : Registration}
    (has : ({ stores with requests := registry.requests.set index after } : Registry).Has other
      request) :
    ∃ old, registry.Has other old ∧ old.userId = request.userId ∧
      (other ≠ index ∧ old = request ∨ other = index ∧ old = before ∧ request = after) := by
  obtain ⟨rfl, rfl⟩ | ⟨different, held⟩ := (has_set_iff located after other request).mp has
  · exact ⟨before, located, same.symm, .inr ⟨rfl, rfl, rfl⟩⟩
  · exact ⟨request, held, rfl, .inl ⟨different, rfl⟩⟩

theorem has_after (stores : Registry) (located : registry.Has index before)
    (same : after.userId = before.userId) {other : Nat} {old : Registration} (has : registry.Has other old) :
    ∃ request, ({ stores with requests := registry.requests.set index after } : Registry).Has other
        request ∧ request.userId = old.userId ∧
      (other ≠ index ∧ old = request ∨ other = index ∧ old = before ∧ request = after) := by
  by_cases own : other = index
  · subst own
    cases Option.some.inj (has.symm.trans located)
    exact ⟨after, (has_set_iff located after other after).mpr (.inl ⟨rfl, rfl⟩), same,
      .inr ⟨rfl, rfl, rfl⟩⟩
  · exact ⟨old, (has_set_iff located after other old).mpr (.inr ⟨own, has⟩), rfl,
      .inl ⟨own, rfl⟩⟩

/-- A row that is there was not deleted by the request that made it. -/
theorem Accounted.kept_of_row (accounted : registry.Accounted) {userId : Int}
    (row : userId ∈ registry.users.keys) (located : registry.Has index before)
    (own : before.userId = some userId) : before.withdrawn = false := by
  obtain ⟨other, request, has, named, kept⟩ := (accounted.rows userId).mp row
  cases accounted.distinct has located named own
  cases Option.some.inj (has.symm.trans located)
  exact kept

/-- A step that gives no request a new id. -/
theorem Accounted.stepped (accounted : registry.Accounted) (located : registry.Has index before)
    (same : after.userId = before.userId) (later : registry.nextId ≤ stores.nextId)
    (rows : ∀ userId, userId ∈ stores.users.keys ↔ userId ∈ registry.users.keys ∧
      (before.userId = some userId → after.withdrawn = false))
    (withdrawn : before.withdrawn = true → after.withdrawn = true)
    (granted : ∀ userId, before.userId = some userId →
      (stores.grants userId).length = after.command.executions)
    (others : ∀ userId, before.userId ≠ some userId →
      stores.grants userId = registry.grants userId)
    (early : before.userId = none → after.command.executions = 0 ∧ after.withdrawn = false) :
    ({ stores with requests := registry.requests.set index after } : Registry).Accounted := by
  constructor
  · intro other request userId has named
    obtain ⟨old, held, sameId, -⟩ := has_before located same has
    exact lt_of_lt_of_le (accounted.numbered held (sameId.trans named)) later
  · intro first second request rival userId has hasRival named rivalNamed
    obtain ⟨old, held, sameId, -⟩ := has_before located same has
    obtain ⟨oldRival, heldRival, sameRivalId, -⟩ := has_before located same hasRival
    exact accounted.distinct held heldRival (sameId.trans named) (sameRivalId.trans rivalNamed)
  · intro userId
    rw [rows, accounted.rows]
    constructor
    · rintro ⟨⟨other, old, held, named, kept⟩, own⟩
      obtain ⟨request, has, sameId, ⟨-, rfl⟩ | ⟨-, rfl, rfl⟩⟩ := has_after stores located same held
      · exact ⟨other, old, has, named, kept⟩
      · exact ⟨other, request, has, sameId.trans named, own named⟩
    · rintro ⟨other, request, has, named, kept⟩
      obtain ⟨old, held, sameId, ⟨different, rfl⟩ | ⟨rfl, rfl, rfl⟩⟩ :=
        has_before located same has
      · refine ⟨⟨other, old, held, named, kept⟩, fun own => ?_⟩
        exact absurd (accounted.distinct held located named own) different
      · refine ⟨⟨other, old, held, sameId.trans named, ?_⟩, fun _ => kept⟩
        cases gone : old.withdrawn with
        | false => rfl
        | true => exact absurd (withdrawn gone) (by simp [kept])
  · intro other request userId has named
    obtain ⟨old, held, sameId, ⟨different, rfl⟩ | ⟨rfl, rfl, rfl⟩⟩ := has_before located same has
    · have foreign : before.userId ≠ some userId := fun own =>
        different (accounted.distinct held located named own)
      have unchanged : stores.grants userId = registry.grants userId := others userId foreign
      exact (congrArg List.length unchanged).trans (accounted.granted held named)
    · exact granted userId (sameId.trans named)
  · intro userId some_
    by_cases own : before.userId = some userId
    · exact ⟨index, after, (has_set_iff located after index after).mpr (.inl ⟨rfl, rfl⟩),
        same.trans own⟩
    · have unchanged : stores.grants userId = registry.grants userId := others userId own
      obtain ⟨other, old, held, named⟩ := accounted.known (unchanged ▸ some_)
      obtain ⟨request, has, sameId, -⟩ := has_after stores located same held
      exact ⟨other, request, has, sameId.trans named⟩
  · intro other request has unnamed
    obtain ⟨old, held, sameId, ⟨different, rfl⟩ | ⟨rfl, rfl, rfl⟩⟩ := has_before located same has
    · exact accounted.early held unnamed
    · exact early (sameId.trans unnamed)

/-- The step that gives a request the next id. -/
theorem Accounted.inserted (accounted : registry.Accounted) (located : registry.Has index before)
    (absent : before.userId = none) (userId : after.userId = some registry.nextId)
    (withdrawn : after.withdrawn = before.withdrawn)
    (executions : after.command.executions = before.command.executions) (username : String) :
    ({ registry with
        users := registry.users.set registry.nextId username
        nextId := registry.nextId + 1
        requests := registry.requests.set index after } : Registry).Accounted := by
  obtain ⟨unrun, kept⟩ := accounted.early located absent
  have has_iff := @has_set_iff _ { registry with
    users := registry.users.set registry.nextId username
    nextId := registry.nextId + 1 } _ _ located after
  have ungranted : registry.grants registry.nextId = [] := by
    by_contra granted
    obtain ⟨other, request, has, named⟩ := accounted.known granted
    exact absurd (accounted.numbered has named) (lt_irrefl _)
  constructor
  · intro other request named_ has named
    obtain ⟨rfl, rfl⟩ | ⟨-, held⟩ := (has_iff other request).mp has
    · cases userId.symm.trans named
      exact lt_add_one _
    · exact (accounted.numbered held named).trans (lt_add_one _)
  · intro first second request rival shared has hasRival named rivalNamed
    obtain ⟨rfl, rfl⟩ | ⟨-, held⟩ := (has_iff first request).mp has
    · obtain ⟨rfl, rfl⟩ | ⟨-, heldRival⟩ := (has_iff second rival).mp hasRival
      · rfl
      · cases userId.symm.trans named
        exact absurd (accounted.numbered heldRival rivalNamed) (lt_irrefl _)
    · obtain ⟨rfl, rfl⟩ | ⟨-, heldRival⟩ := (has_iff second rival).mp hasRival
      · cases userId.symm.trans rivalNamed
        exact absurd (accounted.numbered held named) (lt_irrefl _)
      · exact accounted.distinct held heldRival named rivalNamed
  · intro other
    rw [Dict.mem_keys_iff]
    simp only [Dict.get?_set]
    by_cases new : other = registry.nextId
    · subst new
      refine iff_of_true ⟨username, by simp⟩ ⟨index, after, ?_, userId, withdrawn.trans kept⟩
      exact (has_iff index after).mpr (.inl ⟨rfl, rfl⟩)
    · simp only [new, if_false, ← Dict.mem_keys_iff, accounted.rows]
      constructor
      · rintro ⟨position, request, held, named, present⟩
        refine ⟨position, request, (has_iff position request).mpr (.inr ⟨?_, held⟩), named, present⟩
        rintro rfl
        cases Option.some.inj (held.symm.trans located)
        exact absurd (absent.symm.trans named) (by simp)
      · rintro ⟨position, request, has, named, present⟩
        obtain ⟨rfl, rfl⟩ | ⟨-, held⟩ := (has_iff position request).mp has
        · exact absurd (Option.some.inj (named.symm.trans userId)) new
        · exact ⟨position, request, held, named, present⟩
  · intro other request id has named
    obtain ⟨rfl, rfl⟩ | ⟨-, held⟩ := (has_iff other request).mp has
    · cases userId.symm.trans named
      exact (congrArg List.length ungranted).trans (executions.trans unrun).symm
    · exact accounted.granted held named
  · intro id granted
    obtain ⟨other, request, held, named⟩ := accounted.known granted
    refine ⟨other, request, (has_iff other request).mpr (.inr ⟨?_, held⟩), named⟩
    rintro rfl
    cases Option.some.inj (held.symm.trans located)
    exact absurd (absent.symm.trans named) (by simp)
  · intro other request has unnamed
    obtain ⟨rfl, rfl⟩ | ⟨-, held⟩ := (has_iff other request).mp has
    · exact absurd (userId.symm.trans unnamed) (by simp)
    · exact accounted.early held unnamed

/-- One lemma for each kind of write. -/
theorem Accounted.written (accounted : registry.Accounted) (located : registry.Has index before)
    (writes : Writes registry before (stores, after)) :
    ({ stores with requests := registry.requests.set index after } : Registry).Accounted := by
  cases writes with
  | nothing later userId withdrawn executions =>
      refine accounted.stepped located userId later (fun id => ?_) withdrawn.trans
        (fun id own => ?_) (fun id _ => rfl) (fun unnamed => ?_)
      · exact ⟨fun row => ⟨row, fun own =>
          withdrawn.trans (accounted.kept_of_row row located own)⟩, And.left⟩
      · exact (accounted.granted located own).trans executions.symm
      · rw [executions, withdrawn]
        exact accounted.early located unnamed
  | row absent userId withdrawn executions =>
      exact accounted.inserted located absent userId withdrawn executions _
  | grant present same withdrawn executions =>
      rename_i granted now
      refine accounted.stepped located (same.trans present.symm) (le_refl _) (fun id => ?_)
        withdrawn.trans (fun id own => ?_) (fun id foreign => ?_) (fun unnamed => ?_)
      · exact ⟨fun row => ⟨row, fun own =>
          withdrawn.trans (accounted.kept_of_row row located own)⟩, And.left⟩
      · cases present.symm.trans own
        rw [grants_append, executions, List.length_append, accounted.granted located present]
        simp [Registration.create]
      · have different : granted ≠ id := fun equal => foreign (equal ▸ present)
        rw [grants_append]
        simp [Registration.create, different]
      · exact absurd (present.symm.trans unnamed) (by simp)
  | deletion present same withdrawn executions =>
      rename_i deleted
      refine accounted.stepped located (same.trans present.symm) (le_refl _) (fun id => ?_)
        (fun _ => withdrawn) (fun id own => ?_) (fun id _ => rfl) (fun unnamed => ?_)
      · simp only [Dict.mem_keys_iff, Dict.get?_erase]
        by_cases own : id = deleted
        · subst own
          simp [present, withdrawn]
        · have foreign : before.userId ≠ some id := by
            simp [present, Ne.symm own]
          simp [own, foreign]
      · exact (accounted.granted located own).trans executions.symm
      · exact absurd (present.symm.trans unnamed) (by simp)

end Update

theorem Accounted.update (accounted : registry.Accounted) (index : Nat)
    {run : Registry → Registration → Registry × Registration}
    (writes : ∀ request, Writes registry request (run registry request)) :
    (registry.update index run).Accounted := by
  unfold Registry.update
  cases located : registry.requests[index]? with
  | none => exact accounted
  | some request => exact accounted.written located (writes request)

theorem Accounted.arrived (accounted : registry.Accounted) (username : String) (nowNs : Int) :
    (registry.step (.arrive username nowNs)).Accounted := by
  have older : ∀ {index request}, registry.Has index request →
      (registry.step (.arrive username nowNs)).Has index request := by
    intro index request has
    exact (List.getElem?_append_left (List.getElem?_eq_some_iff.mp has).1).trans has
  have older_or_new : ∀ {index request}, (registry.step (.arrive username nowNs)).Has index request →
      registry.Has index request ∨ request = ⟨username, nowNs, .select, none, false, ⟨0, false⟩⟩ := by
    intro index request has
    by_cases earlier : index < registry.requests.length
    · exact .inl ((List.getElem?_append_left earlier).symm.trans has)
    · refine .inr ?_
      have new := (List.getElem?_append_right (Nat.le_of_not_lt earlier)).symm.trans has
      exact List.mem_singleton.mp (List.mem_of_getElem? new)
  have named_older : ∀ {index request userId},
      (registry.step (.arrive username nowNs)).Has index request →
        request.userId = some userId → registry.Has index request := by
    intro index request userId has named
    cases older_or_new has with
    | inl old => exact old
    | inr new => simp [new] at named
  constructor
  · exact fun has named => accounted.numbered (named_older has named) named
  · exact fun has hasRival named rivalNamed => accounted.distinct (named_older has named)
      (named_older hasRival rivalNamed) named rivalNamed
  · intro userId
    refine (accounted.rows userId).trans ⟨?_, ?_⟩
    · rintro ⟨index, request, has, named, kept⟩
      exact ⟨index, request, older has, named, kept⟩
    · rintro ⟨index, request, has, named, kept⟩
      exact ⟨index, request, named_older has named, named, kept⟩
  · exact fun has named => accounted.granted (named_older has named) named
  · intro userId granted
    obtain ⟨index, request, has, named⟩ := accounted.known granted
    exact ⟨index, request, older has, named⟩
  · intro index request has unnamed
    cases older_or_new has with
    | inl old => exact accounted.early old unnamed
    | inr new => simp [new]

theorem step_accounted (accounted : registry.Accounted) (event : RegisterEvent) :
    (registry.step event).Accounted := by
  cases event with
  | arrive username nowNs => exact accounted.arrived username nowNs
  | select request => exact accounted.update request (select_writes registry)
  | insert request => exact accounted.update request (insert_writes registry)
  | append request halted =>
      exact accounted.update request fun request => append_writes registry request halted
  | execute request now =>
      exact accounted.update request fun request => execute_writes registry request now
  | drop request => exact accounted.update request (drop_writes registry)
  | resolve request outcome =>
      exact accounted.update request fun request => resolve_writes registry request outcome
  | withdraw request committed replied =>
      exact accounted.update request fun request =>
        withdraw_writes registry request committed replied
  | abort request => exact accounted.update request (abort_writes registry)

theorem run_accounted (events : List RegisterEvent) : (run events).Accounted := by
  have along : Along step (fun _ _ => True) fresh events :=
    Along.of_forall (fun _ _ _ => trivial) fresh
  have preserved : ∀ (registry : Registry) (event : RegisterEvent), registry.Accounted → True →
      (registry.step event).Accounted := fun _ event accounted _ => step_accounted accounted event
  exact along.invariant preserved fresh_accounted

/-! ## The fate of an append -/

/-- What the route knows of its append agrees with what happened. -/
structure Tracks (fate : AppendFate) (request : Registration) : Prop where
  waiting : fate.stage = .waiting ↔ request.stage = .append
  halted : fate.stage = .halted ↔ request.stage = .withdraw
  live : fate.live = request.command.live
  runs : fate.runs = request.command.executions
  deleted : fate.deleted = request.withdrawn
  /-- Without a committed row there is no append yet. -/
  early : request.userId = none → request.command.live = false ∧ request.stage ≠ .refresh ∧
    request.stage ≠ .append ∧ request.stage ≠ .withdraw

def TracksAt (state : Registry × AppendFate) (index : Nat) : Prop :=
  match state.1.requests[index]? with
  | none => state.2 = .fresh
  | some request => Tracks state.2 request

section Tracks

variable {fate : AppendFate} {request : Registration}

theorem Tracks.arrived (username : String) (nowNs : Int) :
    Tracks .fresh ⟨username, nowNs, .select, none, false, ⟨0, false⟩⟩ := by
  constructor <;> simp [AppendFate.fresh]

theorem Tracks.select (tracks : Tracks fate request) (registry : Registry) :
    Tracks fate (registry.select request).2 := by
  obtain ⟨waiting, halted, live, runs, deleted, early⟩ := tracks
  unfold Registry.select
  split
  · rename_i looking
    split <;> constructor <;> simp_all [Registration.finish]
  · exact ⟨waiting, halted, live, runs, deleted, early⟩

theorem Tracks.insert (tracks : Tracks fate request) (registry : Registry) :
    Tracks fate (registry.insert request).2 := by
  obtain ⟨waiting, halted, live, runs, deleted, early⟩ := tracks
  unfold Registry.insert
  split
  · rename_i looking _
    split <;> constructor <;> simp_all [Registration.finish]
  · exact ⟨waiting, halted, live, runs, deleted, early⟩

theorem Tracks.append (tracks : Tracks fate request) (registry : Registry) (index : Nat)
    (halting : Bool) :
    Tracks (fate.next (decide (request.stage = .refresh)) (.append index halting))
      (Registry.append halting registry request).2 := by
  obtain ⟨waiting, halted, live, runs, deleted, early⟩ := tracks
  unfold Registry.append
  split
  · rename_i stage
    cases halting <;> constructor <;> simp_all [AppendFate.next]
  · rename_i stage
    have notDue : decide (request.stage = .refresh) = false := decide_eq_false stage
    rw [notDue]
    exact ⟨waiting, halted, live, runs, deleted, early⟩

theorem Tracks.execute (tracks : Tracks fate request) (registry : Registry) (due : Bool)
    (index now : Nat) :
    Tracks (fate.next due (.execute index now)) (Registry.execute now registry request).2 := by
  obtain ⟨waiting, halted, live, runs, deleted, early⟩ := tracks
  unfold Registry.execute AppendFate.next
  cases sent : request.command.live with
  | false =>
      simp only [live, sent, Bool.false_eq_true, if_false]
      split <;> first | exact ⟨waiting, halted, live, runs, deleted, early⟩ | simp_all
  | true =>
      cases own : request.userId with
      | none => exact absurd sent (by simp [(early own).1])
      | some userId =>
          simp only [live, sent, if_true]
          exact ⟨waiting, halted, rfl, congrArg (· + 1) runs, deleted,
            fun unnamed => absurd unnamed (Option.some_ne_none userId)⟩

theorem Tracks.drop (tracks : Tracks fate request) (registry : Registry) (due : Bool)
    (index : Nat) :
    Tracks (fate.next due (.drop index)) (registry.drop request).2 := by
  obtain ⟨waiting, halted, -, runs, deleted, early⟩ := tracks
  exact ⟨waiting, halted, rfl, runs, deleted, fun none => ⟨rfl, (early none).2⟩⟩

theorem Tracks.resolve (tracks : Tracks fate request) (registry : Registry) (due : Bool)
    (index : Nat) (outcome : AppendOutcome) :
    Tracks (fate.next due (.resolve index outcome)) (Registry.resolve outcome registry request).2 := by
  obtain ⟨waiting, halted, live, runs, deleted, early⟩ := tracks
  unfold Registry.resolve AppendFate.next
  by_cases waits : request.stage = .append
  · cases own : request.userId with
    | none => exact absurd waits (early own).2.2.1
    | some userId =>
        have stands := waiting.mpr waits
        simp only [stands, waits, runs]
        cases outcome with
        | returned =>
            by_cases unrun : request.command.executions = 0
            · simp only [unrun, if_true]
              exact ⟨waiting, halted, live, runs, deleted, early⟩
            · simp only [unrun, if_false]
              constructor <;> simp_all [Registration.finish]
        | halted => constructor <;> simp_all
        | raised => constructor <;> simp_all [Registration.finish]
  · have stands : fate.stage ≠ .waiting := fun same => waits (waiting.mp same)
    simp only
    split <;> split <;> first
      | exact absurd ‹_› waits
      | exact absurd ‹_› stands
      | exact ⟨waiting, halted, live, runs, deleted, early⟩

theorem Tracks.withdraw (tracks : Tracks fate request) (registry : Registry) (due : Bool)
    (index : Nat) (committed replied : Bool) :
    Tracks (fate.next due (.withdraw index committed replied))
      (Registry.withdraw committed replied registry request).2 := by
  obtain ⟨waiting, halted, live, runs, deleted, early⟩ := tracks
  unfold Registry.withdraw AppendFate.next
  by_cases withdraws : request.stage = .withdraw
  · cases own : request.userId with
    | none => exact absurd withdraws (early own).2.2.2
    | some userId =>
        have stands := halted.mpr withdraws
        simp only [stands, withdraws]
        cases committed <;> constructor <;> simp_all [Registration.finish]
  · have stands : fate.stage ≠ .halted := fun same => withdraws (halted.mp same)
    simp only
    split
    · exact absurd ‹_› withdraws
    · exact ⟨waiting, halted, live, runs, deleted, early⟩

theorem AppendFate.next_abort (fate : AppendFate) (due : Bool) (index : Nat) :
    let after := fate.next due (.abort index)
    (after.stage ≠ .waiting ∧ after.stage ≠ .halted) ∧
      after.live = fate.live ∧ after.runs = fate.runs ∧ after.deleted = fate.deleted := by
  obtain ⟨stage, live, runs, deleted⟩ := fate
  cases stage <;> simp [AppendFate.next]

theorem Tracks.abort (tracks : Tracks fate request) (registry : Registry) (due : Bool)
    (index : Nat) :
    Tracks (fate.next due (.abort index)) (registry.abort request).2 := by
  obtain ⟨waiting, halted, live, runs, deleted, early⟩ := tracks
  obtain ⟨⟨notWaiting, notHalted⟩, sameLive, sameRuns, sameDeleted⟩ :=
    AppendFate.next_abort fate due index
  unfold Registry.abort
  split
  · rename_i answer ended
    exact ⟨iff_of_false notWaiting (by simp [ended]), iff_of_false notHalted (by simp [ended]),
      sameLive.trans live, sameRuns.trans runs, sameDeleted.trans deleted, early⟩
  · refine ⟨iff_of_false notWaiting (by simp [Registration.finish]),
      iff_of_false notHalted (by simp [Registration.finish]), sameLive.trans live,
      sameRuns.trans runs, sameDeleted.trans deleted, fun unnamed => ⟨(early unnamed).1, ?_⟩⟩
    simp [Registration.finish]

end Tracks

/-- Before the request arrives none of its events does anything. -/
theorem AppendFate.next_fresh (event : RegisterEvent) :
    AppendFate.fresh.next false event = .fresh := by
  cases event <;> rfl

theorem update_requests (registry : Registry) (index other : Nat)
    (run : Registry → Registration → Registry × Registration) :
    (registry.update index run).requests[other]? =
      if index = other then registry.requests[other]?.map fun request => (run registry request).2
      else registry.requests[other]? := by
  by_cases same : index = other
  · subst same
    rw [if_pos rfl, Registry.update]
    cases located : registry.requests[index]? with
    | none => exact located
    | some request => exact List.getElem?_set_self (List.getElem?_eq_some_iff.mp located).1
  · rw [if_neg same, Registry.update]
    cases located : registry.requests[index]? with
    | none => rfl
    | some request => exact List.getElem?_set_ne same

/-- One lemma for the events of a request, from its own one. -/
theorem TracksAt.update {state : Registry × AppendFate} {index : Nat}
    (tracks : TracksAt state index) {event : RegisterEvent} {other : Nat}
    {run : Registry → Registration → Registry × Registration}
    (own : subject event = some other) (updates : state.1.step event = state.1.update other run)
    (kept : ∀ request, state.1.Has index request → Tracks state.2 request →
      Tracks (state.2.next (state.1.due index) event) (run state.1 request).2) :
    TracksAt (track index state event) index := by
  unfold TracksAt track at *
  rw [updates]
  simp only [own, Option.some.injEq, update_requests]
  by_cases same : other = index
  · simp only [same, if_true]
    cases located : state.1.requests[index]? with
    | none =>
        rw [located] at tracks
        simp only [Option.map_none]
        rw [tracks, due, located]
        exact AppendFate.next_fresh event
    | some request =>
        rw [located] at tracks
        exact kept request located tracks
  · simp only [same, if_false]
    exact tracks

theorem TracksAt.step {state : Registry × AppendFate} {index : Nat} (tracks : TracksAt state index)
    (event : RegisterEvent) : TracksAt (track index state event) index := by
  cases event with
  | arrive username nowNs =>
      have list : (state.1.step (.arrive username nowNs)).requests = state.1.requests ++
          [⟨username, nowNs, .select, none, false, ⟨0, false⟩⟩] := rfl
      unfold TracksAt track at *
      simp only [list, subject, reduceCtorEq, if_false]
      obtain earlier | new | later := lt_trichotomy index state.1.requests.length
      · rwa [List.getElem?_append_left earlier]
      · subst new
        rw [List.getElem?_eq_none (le_refl _)] at tracks
        rw [List.getElem?_concat_length, tracks]
        exact Tracks.arrived username nowNs
      · rw [List.getElem?_eq_none later.le] at tracks
        rw [List.getElem?_eq_none (by simpa using Nat.succ_le_of_lt later)]
        exact tracks
  | select other => exact tracks.update rfl rfl fun _ _ own => own.select state.1
  | insert other => exact tracks.update rfl rfl fun _ _ own => own.insert state.1
  | append other halted =>
      refine tracks.update rfl rfl fun request has own => ?_
      have same : state.1.due index = decide (request.stage = .refresh) := by
        rw [due, show state.1.requests[index]? = some request from has]
        simp
      rw [same]
      exact own.append state.1 other halted
  | execute other now => exact tracks.update rfl rfl fun _ _ own => own.execute state.1 _ other now
  | drop other => exact tracks.update rfl rfl fun _ _ own => own.drop state.1 _ other
  | resolve other outcome =>
      exact tracks.update rfl rfl fun _ _ own => own.resolve state.1 _ other outcome
  | withdraw other committed replied =>
      exact tracks.update rfl rfl fun _ _ own => own.withdraw state.1 _ other committed replied
  | abort other => exact tracks.update rfl rfl fun _ _ own => own.abort state.1 _ other

theorem run_tracks (events : List RegisterEvent) (index : Nat) :
    TracksAt (events.foldl (track index) (fresh, .fresh)) index := by
  have along : Along (track index) (fun _ _ => True) (fresh, .fresh) events :=
    Along.of_forall (fun _ _ _ => trivial) _
  have preserved : ∀ (state : Registry × AppendFate) (event : RegisterEvent),
      TracksAt state index → True → TracksAt (track index state event) index :=
    fun _ event tracks _ => tracks.step event
  exact along.invariant preserved rfl

theorem track_run (index : Nat) (events : List RegisterEvent) (state : Registry × AppendFate) :
    (events.foldl (track index) state).1 = events.foldl step state.1 := by
  induction events generalizing state with
  | nil => rfl
  | cons event rest ih => exact ih _

/-- What the requests of a run know of their appends is what happened. -/
theorem fate_tracks (events : List RegisterEvent) {index : Nat} {request : Registration}
    (has : (run events).Has index request) : Tracks (fate events index) request := by
  have tracks := run_tracks events index
  unfold TracksAt at tracks
  rw [track_run index events (fresh, .fresh),
    show (events.foldl step (fresh, AppendFate.fresh).1).requests[index]? = some request from has]
    at tracks
  exact tracks

/-! ## All or nothing -/

/-- Every row has exactly one grant, and every grant names a row. -/
def AllOrNothing (registry : Registry) : Prop :=
  (∀ userId ∈ registry.users.keys, (registry.grants userId).length = 1) ∧
    ∀ userId, registry.grants userId ≠ [] → userId ∈ registry.users.keys

/-- In every state of every run, the two stores agree exactly when, for each row that was committed,
Redis ran the command once, or never where the append raised `ExchangeHalted` and the deletion of
the row was committed. -/
theorem all_or_nothing_iff (events : List RegisterEvent) :
    (run events).AllOrNothing ↔
      ∀ index request, (run events).Has index request → request.userId ≠ none →
        (fate events index).runs = if (fate events index).deleted then 0 else 1 := by
  have accounted := run_accounted events
  constructor
  · rintro ⟨once, backed⟩ index request has named
    have tracks := fate_tracks events has
    obtain ⟨userId, own⟩ := Option.ne_none_iff_exists'.mp named
    rw [tracks.runs, tracks.deleted, ← accounted.granted has own]
    cases gone : request.withdrawn with
    | false => exact once userId ((accounted.rows userId).mpr ⟨index, request, has, own, gone⟩)
    | true =>
        refine List.length_eq_zero_iff.mpr (by_contra fun granted => ?_)
        have kept := accounted.kept_of_row (backed userId granted) has own
        exact absurd gone (by simp [kept])
  · intro met
    have met : ∀ index request, (run events).Has index request → request.userId ≠ none →
        request.command.executions = if request.withdrawn then 0 else 1 := by
      intro index request has named
      have tracks := fate_tracks events has
      rw [← tracks.runs, ← tracks.deleted]
      exact met index request has named
    constructor
    · intro userId row
      obtain ⟨index, request, has, own, kept⟩ := (accounted.rows userId).mp row
      rw [accounted.granted has own, met index request has (by simp [own])]
      simp [kept]
    · intro userId granted
      obtain ⟨index, request, has, own⟩ := accounted.known granted
      refine (accounted.rows userId).mpr ⟨index, request, has, own, ?_⟩
      cases gone : request.withdrawn with
      | false => rfl
      | true =>
          have unrun := met index request has (by simp [own])
          rw [← accounted.granted has own, gone] at unrun
          exact absurd (List.length_eq_zero_iff.mp unrun) granted

/-- The connection is lost after Redis wrote the grant, and the row is withdrawn; Redis refuses
the grant, and the row stays. -/
theorem stores_out_of_step :
    let lost := run [.arrive "ada" 5, .select 0, .insert 0, .append 0 false, .execute 0 100,
      .resolve 0 .halted, .withdraw 0 true true, .drop 0]
    let refused := run [.arrive "ada" 5, .select 0, .insert 0, .append 0 false, .drop 0,
      .resolve 0 .raised]
    (lost.grants 1 = [toLex (100, 0)] ∧ lost.users.keys = []) ∧
      refused.grants 1 = [] ∧ refused.users.keys = [1] := by
  decide

end Registry

end QuantArena.Gateway
