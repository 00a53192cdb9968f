import QuantArena.Web.ScreenPaints

/-! Who is painted. The painters of a symbol are those of the panels that show it, whatever panels
come and go, and a loop that has not been stopped has asked for exactly one frame. -/

set_option autoImplicit false

namespace QuantArena.Web

open Foundations Fanout

/-! ## Painters -/

namespace PaintRegistry

theorem members_set (sets : List (Finset PainterId)) (current : Dict Name Nat) {set : Nat}
    (inside : set < sets.length) (value : Finset PainterId) (other : Nat) :
    members ⟨sets.set set value, current⟩ other =
      if other = set then value else members ⟨sets, current⟩ other := by
  by_cases same : other = set
  · subst same
    simp [members, inside]
  · simp [members, same, Ne.symm same]

theorem members_snoc (sets : List (Finset PainterId)) (current : Dict Name Nat)
    (value : Finset PainterId) (other : Nat) :
    members ⟨sets ++ [value], current⟩ other =
      if other = sets.length then value else members ⟨sets, current⟩ other := by
  by_cases same : other = sets.length
  · subst same
    simp [members]
  · by_cases inside : other < sets.length
    · simp [members, same, List.getElem?_append_left inside]
    · have outside : (sets ++ [value]).length ≤ other := by
        simp only [List.length_append, List.length_singleton]
        omega
      simp [members, same, List.getElem?_eq_none outside,
        List.getElem?_eq_none (Nat.le_of_not_lt inside)]

/-- The painters of a symbol are those of the panels that show it. -/
structure Serves (registry : PaintRegistry) (panels : Dict PainterId Mounted) : Prop where
  placed : ∀ painter mounted, panels.get? painter = some mounted →
    registry.current.get? mounted.symbol = some mounted.set ∧
      painter ∈ registry.members mounted.set
  only : ∀ symbol set, registry.current.get? symbol = some set →
    set < registry.sets.length ∧ (registry.members set).Nonempty ∧
      ∀ painter ∈ registry.members set,
        ∃ mounted, panels.get? painter = some mounted ∧ mounted.symbol = symbol

namespace Serves

variable {registry : PaintRegistry} {panels : Dict PainterId Mounted}

theorem mem_painters (serves : registry.Serves panels) {symbol : Name} {painter : PainterId} :
    painter ∈ registry.painters symbol ↔
      ∃ mounted, panels.get? painter = some mounted ∧ mounted.symbol = symbol := by
  constructor
  · intro member
    unfold painters at member
    cases found : registry.current.get? symbol with
    | none => simp [found] at member
    | some set =>
        rw [found] at member
        exact (serves.only symbol set found).2.2 painter member
  · intro shown
    obtain ⟨mounted, present, rfl⟩ := shown
    obtain ⟨found, member⟩ := serves.placed painter mounted present
    simpa [painters, found] using member

/-- No set serves two symbols. -/
theorem apart (serves : registry.Serves panels) {first second : Name} {set : Nat}
    (one : registry.current.get? first = some set) (other : registry.current.get? second = some set) :
    first = second := by
  obtain ⟨painter, member⟩ := (serves.only first set one).2.1
  obtain ⟨mounted, present, symbol⟩ := (serves.only first set one).2.2 painter member
  obtain ⟨again, found, same⟩ := (serves.only second set other).2.2 painter member
  cases present.symm.trans found
  exact symbol.symm.trans same

theorem register (serves : registry.Serves panels) (symbol : Name) (panel : Panel)
    {painter : PainterId} (fresh : panels.get? painter = none) :
    (registry.register symbol painter).1.Serves
      (panels.set painter ⟨symbol, (registry.register symbol painter).2, panel⟩) := by
  have other : ∀ {name mounted}, panels.get? name = some mounted → name ≠ painter := by
    intro name mounted present same
    cases present.symm.trans (same ▸ fresh)
  unfold PaintRegistry.register
  split
  · rename_i set found
    obtain ⟨inside, some_, shown⟩ := serves.only symbol set found
    constructor
    · intro name mounted present
      rw [Dict.get?_set] at present
      rw [members_set _ _ inside]
      split at present
      · rename_i same
        cases present
        simp [found, same]
      · obtain ⟨current, member⟩ := serves.placed name mounted present
        constructor
        · exact current
        · split
          · rename_i same
            exact Finset.mem_insert_of_mem (same ▸ member)
          · exact member
    · intro next place current
      obtain ⟨within, full, all⟩ := serves.only next place current
      rw [members_set _ _ inside]
      split
      · rename_i same
        subst same
        have equal : next = symbol := serves.apart current found
        subst equal
        constructor
        · simpa using inside
        constructor
        · exact Finset.insert_nonempty _ _
        · intro name member
          cases Finset.mem_insert.mp member with
          | inl new => exact ⟨_, by rw [new, Dict.get?_set_self], rfl⟩
          | inr old =>
              obtain ⟨mounted, present, same⟩ := all name old
              exact ⟨mounted, by rw [Dict.get?_set_of_ne _ _ (other present), present], same⟩
      · constructor
        · simpa using within
        constructor
        · exact full
        · intro name member
          obtain ⟨mounted, present, same⟩ := all name member
          exact ⟨mounted, by rw [Dict.get?_set_of_ne _ _ (other present), present], same⟩
  · rename_i absent
    constructor
    · intro name mounted present
      rw [Dict.get?_set] at present
      rw [members_snoc]
      split at present
      · rename_i same
        cases present
        simp [same]
      · obtain ⟨current, member⟩ := serves.placed name mounted present
        have different : mounted.symbol ≠ symbol := fun same => by simp [same, absent] at current
        have within := (serves.only _ _ current).1
        constructor
        · exact (Dict.get?_set_of_ne _ _ different).trans current
        · rw [if_neg (Nat.ne_of_lt within)]
          exact member
    · intro next place current
      rw [Dict.get?_set] at current
      rw [members_snoc]
      split at current
      · rename_i same
        cases current
        rw [if_pos rfl]
        constructor
        · simp
        constructor
        · exact Finset.singleton_nonempty _
        · intro name member
          cases Finset.mem_singleton.mp member
          exact ⟨_, Dict.get?_set_self _ _ _, same.symm⟩
      · obtain ⟨within, full, all⟩ := serves.only next place current
        rw [if_neg (Nat.ne_of_lt within)]
        constructor
        · simp only [List.length_append, List.length_singleton]
          omega
        constructor
        · exact full
        · intro name member
          obtain ⟨mounted, present, same⟩ := all name member
          exact ⟨mounted, by rw [Dict.get?_set_of_ne _ _ (other present), present], same⟩

/-- The set that is closed over is still the one that is registered. -/
theorem unregister (serves : registry.Serves panels) {painter : PainterId} {mounted : Mounted}
    (present : panels.get? painter = some mounted) :
    (registry.unregister mounted.symbol painter mounted.set).Serves (panels.erase painter) := by
  obtain ⟨found, member⟩ := serves.placed painter mounted present
  obtain ⟨inside, _, shown⟩ := serves.only _ _ found
  have stays : ∀ {name other}, panels.get? name = some other → name ≠ painter →
      (panels.erase painter).get? name = some other := by
    intro name other here different
    rw [Dict.get?_erase_of_ne _ different, here]
  constructor
  · intro name other here
    rw [Dict.get?_erase] at here
    split at here
    · cases here
    · rename_i different
      obtain ⟨current, inner⟩ := serves.placed name other here
      have left : other.set = mounted.set → name ∈ (registry.members mounted.set).erase painter :=
        fun same => Finset.mem_erase.mpr ⟨different, same ▸ inner⟩
      simp only [PaintRegistry.unregister, members_set _ _ inside]
      constructor
      · split
        · rename_i empty
          have away : other.symbol ≠ mounted.symbol := by
            intro same
            have equal : other.set = mounted.set := by
              rw [same, found] at current
              exact (Option.some.inj current).symm
            exact absurd (left equal) (by simp [empty])
          rw [Dict.get?_erase_of_ne _ away, current]
        · exact current
      · split
        · rename_i same
          exact left same
        · exact inner
  · intro symbol set current
    have kept : registry.current.get? symbol = some set ∧
        (set = mounted.set → (registry.members mounted.set).erase painter ≠ ∅) := by
      simp only [PaintRegistry.unregister] at current
      split at current
      · rename_i empty
        rw [Dict.get?_erase] at current
        split at current
        · cases current
        · rename_i away
          exact ⟨current, fun same => absurd (serves.apart (same ▸ current) found) away⟩
      · rename_i full
        exact ⟨current, fun _ => full⟩
    obtain ⟨within, full, all⟩ := serves.only symbol set kept.1
    simp only [PaintRegistry.unregister, members_set _ _ inside]
    constructor
    · simpa using within
    by_cases same : set = mounted.set
    · rw [if_pos same]
      constructor
      · exact Finset.nonempty_iff_ne_empty.mpr (kept.2 same)
      · intro name inner
        obtain ⟨different, old⟩ := Finset.mem_erase.mp inner
        obtain ⟨other, here, equal⟩ := all name (same ▸ old)
        exact ⟨other, stays here different, equal⟩
    · rw [if_neg same]
      constructor
      · exact full
      · intro name inner
        obtain ⟨other, here, equal⟩ := all name inner
        have different : name ≠ painter := by
          intro own
          rw [own, present] at here
          cases here
          exact same (Option.some.inj (kept.1.symm.trans (equal ▸ found)))
        exact ⟨other, stays here different, equal⟩

end Serves

end PaintRegistry

/-! ## Loops -/

namespace Screen

/-- The loops that a frame has still to call have asked for nothing, every other one that runs has
asked for one frame. -/
structure Asking (due : List Nat) (screen : Screen) : Prop where
  once : due.Nodup
  alive : ∀ loop ∈ due, ∃ running, screen.loops[loop]? = some running ∧ running.stopped = false
  asked : ∀ (loop : Nat) (running : FrameLoop), screen.loops[loop]? = some running → running.stopped = false →
    loop ∉ due → screen.requests.get? running.handle = some loop
  known : ∀ handle loop, screen.requests.get? handle = some loop →
    handle < screen.nextHandle ∧ loop ∉ due ∧
      ∃ running, screen.loops[loop]? = some running ∧ running.stopped = false ∧
        running.handle = handle
  spent : ∀ (loop : Nat) (ended : FrameLoop), screen.loops[loop]? = some ended → ended.stopped = true →
    ended.handle < screen.nextHandle ∧ screen.requests.get? ended.handle = none

variable {screen : Screen} {loop : Nat} {due : List Nat}

/-- A loop that is called asks again. -/
theorem Asking.request (asking : Asking (loop :: due) screen) :
    Asking due (screen.request loop) := by
  obtain ⟨apart, once⟩ := List.nodup_cons.mp asking.once
  obtain ⟨running, here, _⟩ := asking.alive loop List.mem_cons_self
  obtain ⟨inside, _⟩ := List.getElem?_eq_some_iff.mp here
  constructor
  · exact once
  · intro other member
    have different : loop ≠ other := fun same => apart (same ▸ member)
    simp only [Screen.request, List.getElem?_set_ne different]
    exact asking.alive other (List.mem_cons_of_mem _ member)
  · intro other asks there alive later
    by_cases same : loop = other
    · subst same
      simp only [Screen.request, List.getElem?_set_self inside, Option.some.injEq] at there
      subst there
      exact Dict.get?_set_self _ _ _
    · simp only [Screen.request, List.getElem?_set_ne same] at there ⊢
      have found := asking.asked other asks there alive fun member =>
        (List.mem_cons.mp member).elim (fun equal => same equal.symm) later
      have older := (asking.known _ _ found).1
      rw [Dict.get?_set_of_ne _ _ (Nat.ne_of_lt older), found]
  · intro handle other found
    simp only [Screen.request] at found ⊢
    rw [Dict.get?_set] at found
    split at found
    · rename_i same
      cases found
      constructor
      · omega
      constructor
      · exact apart
      · exact ⟨_, List.getElem?_set_self inside, rfl, same.symm⟩
    · obtain ⟨older, later, asks, there, alive, own⟩ := asking.known handle other found
      have different : loop ≠ other := fun same => later (same ▸ List.mem_cons_self)
      constructor
      · omega
      constructor
      · exact fun member => later (List.mem_cons_of_mem _ member)
      · exact ⟨asks, (List.getElem?_set_ne different).trans there, alive, own⟩
  · intro other ended there halted
    by_cases same : loop = other
    · subst same
      simp only [Screen.request, List.getElem?_set_self inside, Option.some.injEq] at there
      subst there
      cases halted
    · simp only [Screen.request, List.getElem?_set_ne same] at there ⊢
      obtain ⟨older, none⟩ := asking.spent other ended there halted
      constructor
      · omega
      · rw [Dict.get?_set_of_ne _ _ (Nat.ne_of_lt older), none]

theorem Asking.start (asking : Asking [] screen) : Asking [] screen.start := by
  apply Asking.request
  constructor
  · exact List.nodup_singleton _
  · intro loop member
    cases List.mem_singleton.mp member
    exact ⟨⟨0, false⟩, by simp, rfl⟩
  · intro loop running here alive other
    have old : loop ≠ screen.loops.length := by simpa using other
    have inside : loop < screen.loops.length := by
      obtain ⟨inside, _⟩ := List.getElem?_eq_some_iff.mp here
      simp only [List.length_append, List.length_singleton] at inside
      omega
    rw [List.getElem?_append_left inside] at here
    exact asking.asked loop running here alive List.not_mem_nil
  · intro handle loop found
    obtain ⟨older, _, running, here, alive, own⟩ := asking.known handle loop found
    obtain ⟨inside, _⟩ := List.getElem?_eq_some_iff.mp here
    constructor
    · exact older
    constructor
    · simpa using Nat.ne_of_lt inside
    · exact ⟨running, (List.getElem?_append_left inside).trans here, alive, own⟩
  · intro loop ended here halted
    have inside : loop < screen.loops.length := by
      obtain ⟨inside, same⟩ := List.getElem?_eq_some_iff.mp here
      simp only [List.length_append, List.length_singleton] at inside
      by_contra last
      have equal : loop = screen.loops.length := by omega
      subst equal
      simp only [List.getElem_concat_length] at same
      subst same
      cases halted
    rw [List.getElem?_append_left inside] at here
    exact asking.spent loop ended here halted

theorem Asking.stop (asking : Asking [] screen) (loop : Nat) : Asking [] (screen.stop loop) := by
  unfold Screen.stop
  split
  · exact asking
  · rename_i ended there
    obtain ⟨inside, _⟩ := List.getElem?_eq_some_iff.mp there
    have older : ended.handle < screen.nextHandle := by
      cases halted : ended.stopped with
      | true => exact (asking.spent loop ended there halted).1
      | false =>
          exact (asking.known _ _ (asking.asked loop ended there halted List.not_mem_nil)).1
    -- nobody else holds the handle that is cancelled
    have own : ∀ other, screen.requests.get? ended.handle = some other → other = loop := by
      intro other found
      cases halted : ended.stopped with
      | true =>
          rw [(asking.spent loop ended there halted).2] at found
          cases found
      | false =>
          rw [asking.asked loop ended there halted List.not_mem_nil] at found
          exact (Option.some.inj found).symm
    constructor
    · exact List.nodup_nil
    · intro other member
      cases member
    · intro other running here alive _
      by_cases same : loop = other
      · subst same
        simp only [List.getElem?_set_self inside, Option.some.injEq] at here
        subst here
        cases alive
      · simp only [List.getElem?_set_ne same] at here ⊢
        have found := asking.asked other running here alive List.not_mem_nil
        have handles : running.handle ≠ ended.handle := fun equal =>
          same (own other (equal ▸ found)).symm
        rw [Dict.get?_erase_of_ne _ handles, found]
    · intro handle other found
      rw [Dict.get?_erase] at found
      split at found
      · cases found
      · rename_i different
        obtain ⟨before, later, running, here, alive, same⟩ := asking.known handle other found
        have apart : loop ≠ other := by
          intro equal
          subst equal
          rw [there] at here
          cases here
          exact different same.symm
        exact ⟨before, later, running, (List.getElem?_set_ne apart).trans here, alive, same⟩
    · intro other stopped here halted
      by_cases same : loop = other
      · subst same
        simp only [List.getElem?_set_self inside, Option.some.injEq] at here
        subst here
        exact ⟨older, Dict.get?_erase_self _ _⟩
      · simp only [List.getElem?_set_ne same] at here
        obtain ⟨before, none⟩ := asking.spent other stopped here halted
        constructor
        · exact before
        · rw [Dict.get?_erase]
          split
          · rfl
          · exact none

/-- A frame takes every request. -/
theorem Asking.frame (asking : Asking [] screen) :
    Asking (screen.requests.entries.map Prod.snd) { screen with requests := .empty } := by
  have asks : ∀ entry ∈ screen.requests.entries, ∃ running, screen.loops[entry.2]? = some running ∧
      running.stopped = false ∧ running.handle = entry.1 := by
    intro entry member
    exact (asking.known entry.1 entry.2 (Dict.get?_eq_some_iff.mpr member)).2.2
  constructor
  · apply List.Nodup.map_on
    · intro first one second two same
      obtain ⟨running, here, _, own⟩ := asks first one
      obtain ⟨again, there, _, other⟩ := asks second two
      rw [← same, here] at there
      cases there
      exact Prod.ext (own.symm.trans other) same
    · exact List.Nodup.of_map _ screen.requests.unique
  · intro loop member
    obtain ⟨entry, inside, rfl⟩ := List.mem_map.mp member
    obtain ⟨running, here, alive, _⟩ := asks entry inside
    exact ⟨running, here, alive⟩
  · intro loop running here alive later
    have found := asking.asked loop running here alive List.not_mem_nil
    exact absurd (List.mem_map.mpr ⟨_, Dict.get?_eq_some_iff.mp found, rfl⟩) later
  · intro handle loop found
    cases found
  · intro loop ended here halted
    exact ⟨(asking.spent loop ended here halted).1, rfl⟩

end Screen

end QuantArena.Web
