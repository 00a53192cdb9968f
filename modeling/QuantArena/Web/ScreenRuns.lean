import QuantArena.Web.ScreenProperties

/-! The screen over whole runs. A panel that is behind is one that the next frame paints, so a
frame of a running loop leaves nothing on the screen behind the messages. -/

set_option autoImplicit false

namespace QuantArena.Web

open Foundations Fanout

/-! ## Reading -/

namespace MarketData

variable {data : MarketData} {effects : List Effect} {symbol : Name}

/-- Without the marks, which nothing that is shown is read from. -/
def unmarked (data : MarketData) : MarketData := { data with changed := ∅ }

theorem view_unmarked (data : MarketData) (symbol : Name) :
    data.unmarked.view symbol = data.view symbol := rfl

theorem unmarked_apply (data : MarketData) (effect : Effect) :
    (data.apply effect).unmarked = (data.unmarked.apply effect).unmarked := by
  unfold apply
  split
  · rfl
  · rfl
  · rfl
  · rfl

theorem unmarked_applyAll (data : MarketData) (effects : List Effect) :
    (data.applyAll effects).unmarked = (data.unmarked.applyAll effects).unmarked := by
  induction effects using List.reverseRecOn with
  | nil => rfl
  | append_singleton before effect ih =>
      rw [applyAll_snoc, applyAll_snoc, unmarked_apply, ih, ← unmarked_apply]

/-- What the calls of the client leave of a symbol: the last book, the newest prints, and the
candles. -/
def latestView (effects : List Effect) (symbol : Name) : View where
  book := (effects.filterMap (Effect.bookOf symbol)).getLast?
  tape := (effects.filterMap (Effect.tradeOf symbol)).rtake tapeLimit
  lastTrade := (effects.filterMap (Effect.tradeOf symbol)).getLast?
  bars := (MarketBuffer.new.writeBars (effects.filterMap Effect.barOf)).barSeries symbol chartBarWidth

theorem view_applyAll (effects : List Effect) (symbol : Name) :
    (new.applyAll effects).view symbol = latestView effects symbol := by
  rw [view, book_applyAll, tape_applyAll, lastTrade_applyAll, barSeries, MarketBuffer.barSeries,
    bars_applyAll]
  rfl

end MarketData

/-! ## Painting -/

/-- A panel is behind only where its symbol is marked. -/
def Shown (data : MarketData) (mounted : Mounted) : Prop :=
  mounted.panel.Drawn (data.view mounted.symbol) ∧
    (mounted.symbol ∉ data.changed →
      mounted.panel = Panel.showing (data.view mounted.symbol) mounted.panel.kind)

namespace Shown

variable {data : MarketData} {mounted : Mounted}

theorem apply (shown : Shown data mounted) {effect : Effect} (plain : effect.Plain) :
    Shown (data.apply effect) mounted := by
  obtain ⟨drawn, current⟩ := shown
  constructor
  · exact Panel.drawn_of_bars (MarketData.bars_apply_ne_nil effect) drawn
  · intro unmarked
    rw [MarketData.view_apply plain unmarked]
    exact current fun marked => unmarked (MarketData.changed_apply data effect marked)

theorem applyAll (shown : Shown data mounted) {effects : List Effect}
    (plain : ∀ effect ∈ effects, effect.Plain) : Shown (data.applyAll effects) mounted := by
  induction effects generalizing data with
  | nil => exact shown
  | cons effect rest ih =>
      exact ih (shown.apply (plain effect List.mem_cons_self)) fun other member =>
        plain other (List.mem_cons_of_mem _ member)

end Shown

namespace Screen

variable {screen : Screen} {due : List Nat}

structure Showing (screen : Screen) : Prop where
  serves : screen.registry.Serves screen.panels
  shows : ∀ painter mounted, screen.panels.get? painter = some mounted →
    painter < screen.nextPainter ∧ Shown screen.buffer mounted

/-- The panel of a painter when it shows what there is. -/
def current (screen : Screen) (mounted : Mounted) : Mounted :=
  { mounted with
    panel := Panel.showing (screen.buffer.view mounted.symbol) mounted.panel.kind }

/-- What a loop that runs does before it asks again. -/
def refreshed (screen : Screen) : Screen :=
  paint { screen with buffer := screen.buffer.takeChanged.2 } (screen.calls screen.buffer.changed)

theorem tick_running {loop : Nat} {running : FrameLoop} (here : screen.loops[loop]? = some running)
    (alive : running.stopped = false) :
    screen.tick loop = (screen.refreshed.request loop, screen.calls screen.buffer.changed) := by
  simp only [tick, here, alive, Bool.false_eq_true, if_false]
  by_cases unchanged : screen.buffer.takeChanged.1 = ∅
  · have none : screen.calls screen.buffer.changed = 0 := by
      rw [show screen.buffer.changed = ∅ from unchanged, calls]
      rfl
    rw [if_pos unchanged, refreshed, none]
  · rw [if_neg unchanged]
    rfl

theorem mem_calls (showing : screen.Showing) {changed : Finset Name} {painter : PainterId} :
    painter ∈ screen.calls changed ↔
      ∃ mounted, screen.panels.get? painter = some mounted ∧ mounted.symbol ∈ changed := by
  simp only [calls, Multiset.mem_bind, Finset.mem_val, showing.serves.mem_painters]
  constructor
  · intro called
    obtain ⟨symbol, member, mounted, present, rfl⟩ := called
    exact ⟨mounted, present, member⟩
  · intro shown
    obtain ⟨mounted, present, member⟩ := shown
    exact ⟨_, member, mounted, present, rfl⟩

/-- No painter is called twice. -/
theorem calls_nodup (showing : screen.Showing) (changed : Finset Name) :
    (screen.calls changed).Nodup := by
  apply Multiset.nodup_bind.mpr
  constructor
  · intro symbol _
    exact (screen.registry.painters symbol).nodup
  · apply Multiset.Nodup.pairwise _ changed.nodup
    intro first _ second _ different
    apply Multiset.disjoint_left.mpr
    intro painter one other
    obtain ⟨mounted, present, rfl⟩ := showing.serves.mem_painters.mp (Finset.mem_val.mp one)
    obtain ⟨again, here, same⟩ := showing.serves.mem_painters.mp (Finset.mem_val.mp other)
    cases present.symm.trans here
    exact different same

/-- Every panel shows what there is: those that were behind have been painted. -/
theorem refreshed_panels (showing : screen.Showing) (painter : PainterId) :
    screen.refreshed.panels.get? painter = (screen.panels.get? painter).map screen.current := by
  rw [refreshed, paint, Dict.get?_mapValues]
  cases present : screen.panels.get? painter with
  | none => rfl
  | some mounted =>
      obtain ⟨_, drawn, same⟩ := showing.shows painter mounted present
      simp only [Option.map_some, Option.some.injEq, current]
      by_cases called : painter ∈ screen.calls screen.buffer.changed
      · rw [if_pos called, ← Panel.paint_eq drawn]
        rfl
      · have unmarked : mounted.symbol ∉ screen.buffer.changed := fun marked =>
          called ((mem_calls showing).mpr ⟨mounted, present, marked⟩)
        rw [if_neg called, ← same unmarked]

theorem Showing.refreshed (showing : screen.Showing) : screen.refreshed.Showing := by
  have panels := refreshed_panels showing
  constructor
  · constructor
    · intro painter mounted present
      rw [panels] at present
      obtain ⟨before, here, rfl⟩ := Option.map_eq_some_iff.mp present
      exact showing.serves.placed painter before here
    · intro symbol set found
      obtain ⟨inside, some_, all⟩ := showing.serves.only symbol set found
      constructor
      · exact inside
      constructor
      · exact some_
      · intro painter member
        obtain ⟨mounted, present, same⟩ := all painter member
        exact ⟨_, (panels painter).trans (congrArg _ present), same⟩
  · intro painter mounted present
    rw [panels] at present
    obtain ⟨before, here, rfl⟩ := Option.map_eq_some_iff.mp present
    constructor
    · exact (showing.shows painter before here).1
    · constructor
      · exact Panel.drawn_showing _ _
      · intro _
        simp only [current, Panel.kind_showing]
        rfl

/-- The loops of one frame: the first that is called paints, the others find nothing. -/
theorem tickAll_shows (asking : Asking due screen) (showing : screen.Showing) (some_ : due ≠ []) :
    Asking [] (screen.tickAll due).1 ∧ (screen.tickAll due).1.Showing ∧
      (screen.tickAll due).1.client = screen.client ∧
      (screen.tickAll due).1.buffer = screen.buffer.unmarked ∧
      (screen.tickAll due).2 = screen.calls screen.buffer.changed ∧
      ∀ painter, (screen.tickAll due).1.panels.get? painter =
        (screen.panels.get? painter).map screen.current := by
  induction due generalizing screen with
  | nil => exact absurd rfl some_
  | cons loop rest ih =>
      obtain ⟨running, here, alive⟩ := asking.alive loop List.mem_cons_self
      have first : Asking (loop :: rest) screen.refreshed :=
        ⟨asking.once, asking.alive, asking.asked, asking.known, asking.spent⟩
      have next := first.request
      have shown : (screen.refreshed.request loop).Showing :=
        ⟨showing.refreshed.serves, showing.refreshed.shows⟩
      simp only [tickAll, tick_running here alive]
      cases rest with
      | nil => exact ⟨next, shown, rfl, rfl, add_zero _, refreshed_panels showing⟩
      | cons second others =>
          obtain ⟨last, all, client, buffer, calls, panels⟩ := ih next shown (List.cons_ne_nil _ _)
          refine ⟨last, all, client, buffer, ?_, fun painter => ?_⟩
          · rw [calls]
            simp [Screen.calls, Screen.request, Screen.refreshed, paint, MarketData.takeChanged]
          · rw [panels]
            simp only [Screen.request, refreshed_panels showing, Option.map_map]
            congr 1
            funext mounted
            simp only [Function.comp_apply, current, Panel.kind_showing]
            rfl

/-! ## One step -/

theorem Showing.mount (showing : screen.Showing) (kind : PanelKind) (symbol : Name) :
    (screen.mount kind symbol).Showing := by
  have fresh : screen.panels.get? screen.nextPainter = none := by
    cases present : screen.panels.get? screen.nextPainter with
    | none => rfl
    | some mounted => exact absurd (showing.shows _ _ present).1 (lt_irrefl _)
  constructor
  · exact showing.serves.register symbol _ fresh
  · intro painter mounted present
    simp only [Screen.mount] at present ⊢
    rw [Dict.get?_set] at present
    split at present
    · rename_i same
      cases present
      constructor
      · exact same ▸ Nat.lt_succ_self _
      have shows := Panel.paint_eq (Panel.drawn_blank (screen.buffer.view symbol) kind)
      constructor
      · rw [shows]
        exact Panel.drawn_showing _ _
      · intro _
        rw [Panel.kind_paint, shows]
    · obtain ⟨older, shown⟩ := showing.shows painter mounted present
      exact ⟨Nat.lt_succ_of_lt older, shown⟩

theorem Showing.unmount (showing : screen.Showing) (painter : PainterId) :
    (screen.unmount painter).Showing := by
  unfold Screen.unmount
  split
  · exact showing
  · rename_i mounted present
    constructor
    · exact showing.serves.unregister present
    · intro other kept here
      simp only at here
      rw [Dict.get?_erase] at here
      split at here
      · cases here
      · exact showing.shows other kept here

/-- A screen that is reached, with what its client has asked for until then. -/
structure Sound (effects : List Effect) (screen : Screen) : Prop where
  asking : Asking [] screen
  showing : screen.Showing
  written : screen.buffer.unmarked = (MarketData.new.applyAll effects).unmarked

namespace Sound

variable {effects : List Effect}

theorem new (client : StreamClient) : Sound [] (Screen.new client) := by
  constructor
  · constructor
    · exact List.nodup_nil
    · intro loop member
      cases member
    · intro loop running here
      cases here
    · intro handle loop found
      cases found
    · intro loop ended here
      cases here
  · constructor
    · constructor
      · intro painter mounted present
        cases present
      · intro symbol set found
        cases found
    · intro painter mounted present
      cases present
  · rfl

/-- What the client asks for is written. -/
theorem write (sound : Sound effects screen) (client : StreamClient) {more : List Effect}
    (plain : ∀ effect ∈ more, effect.Plain) :
    Sound (effects ++ more)
      { screen with client := client, buffer := screen.buffer.applyAll more } := by
  constructor
  · exact ⟨sound.asking.once, sound.asking.alive, sound.asking.asked, sound.asking.known,
      sound.asking.spent⟩
  · constructor
    · exact sound.showing.serves
    · intro painter mounted present
      obtain ⟨older, shown⟩ := sound.showing.shows painter mounted present
      exact ⟨older, shown.applyAll plain⟩
  · rw [MarketData.unmarked_applyAll, sound.written, ← MarketData.unmarked_applyAll,
      MarketData.applyAll_append]

theorem looping_iff (sound : Sound effects screen) :
    screen.Looping ↔ screen.requests.entries.map Prod.snd ≠ [] := by
  constructor
  · intro looping
    obtain ⟨running, member, alive⟩ := looping
    obtain ⟨loop, here⟩ := List.mem_iff_getElem?.mp member
    have found := sound.asking.asked loop running here alive List.not_mem_nil
    exact List.ne_nil_of_mem (List.mem_map_of_mem (Dict.get?_eq_some_iff.mp found))
  · intro some_
    obtain ⟨entry, member⟩ := List.exists_mem_of_ne_nil screen.requests.entries
      fun empty => some_ (by rw [empty]; rfl)
    obtain ⟨_, _, running, here, alive, _⟩ :=
      sound.asking.known entry.1 entry.2 (Dict.get?_eq_some_iff.mpr member)
    exact ⟨running, List.mem_of_getElem? here, alive⟩

/-- A frame of a loop that runs. -/
theorem frame_looping (sound : Sound effects screen) (looping : screen.Looping) :
    Sound effects screen.frame.1 ∧ screen.frame.1.buffer = screen.buffer.unmarked ∧
      screen.frame.2 = screen.calls screen.buffer.changed ∧
      ∀ painter, screen.frame.1.panels.get? painter =
        (screen.panels.get? painter).map screen.current := by
  have taken : Showing { screen with requests := .empty } :=
    ⟨sound.showing.serves, sound.showing.shows⟩
  obtain ⟨asking, showing, _, buffer, calls, panels⟩ :=
    tickAll_shows sound.asking.frame taken (sound.looping_iff.mp looping)
  refine ⟨⟨asking, showing, ?_⟩, buffer, calls, panels⟩
  rw [Screen.frame, buffer]
  exact sound.written

theorem frame_still (sound : Sound effects screen) (still : ¬screen.Looping) :
    screen.frame = ({ screen with requests := .empty }, 0) := by
  have none : screen.requests.entries.map Prod.snd = [] := by
    by_contra some_
    exact still (sound.looping_iff.mpr some_)
  rw [Screen.frame, none]
  rfl

theorem act (sound : Sound effects screen) (action : Action) :
    Sound (effects ++ (screen.act action).2) (screen.act action).1 := by
  cases action with
  | opened => exact sound.write _ (StreamClient.plain_setState _ _)
  | receive message => exact sound.write _ (screen.client.plain_receive message)
  | mount kind symbol =>
      simp only [Screen.act, List.append_nil]
      exact ⟨⟨sound.asking.once, sound.asking.alive, sound.asking.asked, sound.asking.known,
        sound.asking.spent⟩, sound.showing.mount kind symbol, sound.written⟩
  | unmount painter =>
      simp only [Screen.act, List.append_nil]
      have showing := sound.showing.unmount painter
      unfold Screen.unmount at showing ⊢
      split at showing
      · exact sound
      · exact ⟨⟨sound.asking.once, sound.asking.alive, sound.asking.asked, sound.asking.known,
          sound.asking.spent⟩, showing, sound.written⟩
  | start =>
      simp only [Screen.act, List.append_nil]
      exact ⟨sound.asking.start, ⟨sound.showing.serves, sound.showing.shows⟩, sound.written⟩
  | stop loop =>
      simp only [Screen.act, List.append_nil]
      have asking := sound.asking.stop loop
      unfold Screen.stop at asking ⊢
      split at asking
      · exact sound
      · exact ⟨asking, ⟨sound.showing.serves, sound.showing.shows⟩, sound.written⟩
  | frame =>
      simp only [Screen.act, List.append_nil]
      by_cases looping : screen.Looping
      · exact (sound.frame_looping looping).1
      · have asking := sound.asking.frame
        rw [sound.frame_still looping]
        have none : screen.requests.entries.map Prod.snd = [] := by
          by_contra some_
          exact looping (sound.looping_iff.mpr some_)
        rw [none] at asking
        exact ⟨asking, ⟨sound.showing.serves, sound.showing.shows⟩, sound.written⟩

theorem run (sound : Sound effects screen) (actions : List Action) :
    Sound (effects ++ (screen.run actions).2) (screen.run actions).1 := by
  induction actions generalizing screen effects with
  | nil => simpa [Screen.run] using sound
  | cons action rest ih =>
      have next := ih (sound.act action)
      simpa [Screen.run, List.append_assoc] using next

/-- What the buffer holds is what the client's calls leave. -/
theorem view_eq (sound : Sound effects screen) (symbol : Name) :
    screen.buffer.view symbol = MarketData.latestView effects symbol := by
  rw [← MarketData.view_unmarked, sound.written, MarketData.view_unmarked, MarketData.view_applyAll]

end Sound

/-- Whatever panels come and go, whatever loops are started and stopped and whenever messages
arrive, a frame calls the painters of the panels whose symbol was written to, each once, and
leaves every panel at the last book, the newest prints and the candles that the client wrote. A
panel that no frame has to paint is there already. -/
theorem every_frame_shows_the_latest (client : StreamClient) (actions : List Action) :
    let screen := ((Screen.new client).run actions).1
    let effects := ((Screen.new client).run actions).2
    (screen.frame.2.Nodup ∧ ∀ painter, painter ∈ screen.frame.2 ↔ screen.Looping ∧
      ∃ mounted, screen.panels.get? painter = some mounted ∧
        mounted.symbol ∈ screen.buffer.changed) ∧
    (∀ painter mounted, screen.panels.get? painter = some mounted →
      mounted.symbol ∉ screen.buffer.changed → mounted.panel =
        Panel.showing (MarketData.latestView effects mounted.symbol) mounted.panel.kind) ∧
    (screen.Looping → screen.frame.1.buffer.changed = ∅ ∧
      ∀ painter, screen.frame.1.panels.get? painter =
        (screen.panels.get? painter).map fun mounted =>
          { mounted with
            panel := Panel.showing (MarketData.latestView effects mounted.symbol) mounted.panel.kind }) := by
  intro screen effects
  have sound : Sound effects screen := (Sound.new client).run actions
  refine ⟨?_, ?_, ?_⟩
  · by_cases looping : screen.Looping
    · rw [(sound.frame_looping looping).2.2.1]
      refine ⟨calls_nodup sound.showing _, fun painter => ?_⟩
      rw [mem_calls sound.showing]
      exact (and_iff_right looping).symm
    · rw [sound.frame_still looping]
      exact ⟨Multiset.nodup_zero, fun painter => by simp [looping]⟩
  · intro painter mounted present unmarked
    have shown := (sound.showing.shows painter mounted present).2.2 unmarked
    rwa [sound.view_eq] at shown
  · intro looping
    obtain ⟨_, buffer, _, panels⟩ := sound.frame_looping looping
    refine ⟨by rw [buffer]; rfl, fun painter => ?_⟩
    rw [panels]
    congr 1
    funext mounted
    rw [current, sound.view_eq]

end Screen

end QuantArena.Web
