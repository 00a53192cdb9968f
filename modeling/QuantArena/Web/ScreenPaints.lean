import QuantArena.Web.Screen

/-! What a write and a paint change. A write leaves alone what the panels read of every symbol that
it does not mark, and a paint shows what there is. -/

set_option autoImplicit false

namespace QuantArena.Web

open Foundations Fanout

/-! ## Widths -/

theorem not_mem_of_mem_splitOn {text part : List Char} {separator : Char}
    (member : part ∈ text.splitOn separator) : separator ∉ part := by
  have split : text.splitOn separator = text.splitOnP (· == separator) := rfl
  rw [split] at member
  clear split
  induction text generalizing part with
  | nil =>
      cases List.mem_singleton.mp member
      exact List.not_mem_nil
  | cons head rest ih =>
      rw [List.splitOnP_cons_eq_if_modifyHead] at member
      by_cases same : head = separator
      · rw [if_pos (by simpa using same)] at member
        cases List.mem_cons.mp member with
        | inl empty => simp [empty]
        | inr later => exact ih later
      · rw [if_neg (by simpa using same)] at member
        cases parts : rest.splitOnP (· == separator) with
        | nil => simp [parts] at member
        | cons first others =>
            rw [parts] at member ih
            cases List.mem_cons.mp member with
            | inl grown =>
                rw [grown]
                intro inside
                cases List.mem_cons.mp inside with
                | inl equal => exact same equal.symm
                | inr old => exact ih List.mem_cons_self old
            | inr later => exact ih (List.mem_cons_of_mem _ later)

theorem tier_no_colon {ch : Channel} {tier : Name} (parsed : (parseChannel ch).tier = some tier) :
    ':' ∉ tier := by
  unfold parseChannel at parsed
  split at parsed
  · rename_i first symbol last parts
    have member : last ∈ ch.splitOn ':' := by simp [parts]
    split at parsed
    · cases parsed
      exact not_mem_of_mem_splitOn member
    · split at parsed
      · cases parsed
        exact not_mem_of_mem_splitOn member
      · cases parsed
  · split at parsed
    · cases parsed
    · cases parsed
  · split at parsed
    · cases parsed
    · split at parsed
      · cases parsed
      · cases parsed

/-- A key without its width is the symbol. -/
theorem symbol_of_barKey {symbol other width last : Name} (plain : ':' ∉ width) (end_ : ':' ∉ last)
    (same : MarketBuffer.barKey symbol width = MarketBuffer.barKey other last) : symbol = other := by
  have shape : ∀ name text : Name, MarketBuffer.barKey name text = name ++ ':' :: text := by
    intro name text
    simp [MarketBuffer.barKey, channelOf, List.intercalate, List.intersperse]
  rw [shape, shape] at same
  obtain ⟨middle, long, rest⟩ | ⟨middle, long, rest⟩ := List.append_eq_append_iff.mp same
  · cases middle with
    | nil => simpa using long.symm
    | cons head more =>
        injection rest with _ inside
        exact absurd (by simp [inside]) plain
  · cases middle with
    | nil => simpa using long
    | cons head more =>
        injection rest with _ inside
        exact absurd (by simp [inside]) end_

namespace StreamClient

theorem plain_routed (ch : Channel) (message : Message) :
    ∀ effect ∈ routed (parseChannel ch) message, effect.Plain := by
  intro effect member
  unfold routed at member
  split at member
  · cases member
  · split at member
    · cases List.mem_singleton.mp member
      trivial
    · cases List.mem_singleton.mp member
      trivial
    · rename_i width parsed
      cases List.mem_singleton.mp member
      exact tier_no_colon parsed
    · cases member

theorem plain_setState (client : StreamClient) (state : ConnectionState) :
    ∀ effect ∈ (client.setState state).2, effect.Plain := by
  intro effect member
  unfold setState at member
  split at member
  · cases member
  · cases List.mem_singleton.mp member
    trivial

theorem plain_receive (client : StreamClient) (message : Message) :
    ∀ effect ∈ (client.receive message).2, effect.Plain := by
  intro effect member
  unfold receive at member
  split at member
  · -- an error
    unfold receiveError at member
    cases List.mem_cons.mp member with
    | inl first =>
        rw [first]
        trivial
    | inr member =>
        split at member
        · exact plain_setState _ _ effect member
        · split at member
          · exact plain_setState _ _ effect member
          · cases member
        · cases member
  · rename_i seq _
    simp only [receiveData] at member
    split at member
    · cases member
    · split at member
      · cases List.mem_append.mp member with
        | inl first =>
            split at first
            · unfold resync at first
              split at first
              · cases first
              · cases List.mem_singleton.mp first
                trivial
            · cases first
        | inr last =>
            cases List.mem_singleton.mp last
            trivial
      · exact plain_routed _ _ effect member

end StreamClient

/-! ## A write -/

namespace MarketData

variable {data : MarketData} {effect : Effect} {symbol : Name}

theorem changed_apply (data : MarketData) (effect : Effect) :
    data.changed ⊆ (data.apply effect).changed := by
  unfold apply
  split
  · exact Finset.subset_insert _ _
  · exact Finset.subset_insert _ _
  · exact Finset.subset_insert _ _
  · exact subset_rfl

/-- What is read of a symbol stays where the symbol is not marked. -/
theorem view_apply (plain : effect.Plain) (unmarked : symbol ∉ (data.apply effect).changed) :
    (data.apply effect).view symbol = data.view symbol := by
  unfold apply at unmarked ⊢
  split
  · rename_i name _ _ _ _ _
    have other : symbol ≠ name := fun same => unmarked (same ▸ Finset.mem_insert_self _ _)
    simp [view, writeBook, book, tape, lastTrade, barSeries, MarketBuffer.barSeries,
      Dict.get?_set_of_ne _ _ other]
  · rename_i name _ _ _ _ _ _
    have other : symbol ≠ name := fun same => unmarked (same ▸ Finset.mem_insert_self _ _)
    simp [view, writeTrade, book, tape, lastTrade, barSeries, MarketBuffer.barSeries, Dict.getD,
      Dict.get?_set_of_ne _ _ other]
  · rename_i name width _ _ _ _ _ _ _ _
    have other : symbol ≠ name := fun same => unmarked (same ▸ Finset.mem_insert_self _ _)
    have apart : MarketBuffer.barKey symbol chartBarWidth ≠ MarketBuffer.barKey name width :=
      fun same => other (symbol_of_barKey (by decide) plain same)
    simp [view, writeBar, book, tape, lastTrade, barSeries, MarketBuffer.barSeries,
      MarketBuffer.writeBar, Dict.getD, Dict.get?_set_of_ne _ _ apart]
  · rfl

theorem insertIdx_ne_nil {series : List BarView} (some_ : series ≠ []) (index : Nat)
    (bar : BarView) : series.insertIdx index bar ≠ [] := by
  intro empty
  have length := congrArg List.length empty
  rw [List.length_insertIdx] at length
  split at length
  · cases length
  · exact some_ (List.eq_nil_of_length_eq_zero length)

theorem place_ne_nil (series : List BarView) (bar : BarView) : MarketBuffer.place series bar ≠ [] := by
  unfold MarketBuffer.place
  split
  · simp
  · rename_i last newest
    have some_ : series ≠ [] := fun empty => by simp [empty] at newest
    split
    · simp
    · simp only [MarketBuffer.placeOlder]
      split
      · split
        · simpa using some_
        · exact insertIdx_ne_nil some_ _ bar
      · exact insertIdx_ne_nil some_ _ bar

/-- A series that has candles keeps some. -/
theorem bars_apply_ne_nil (effect : Effect) (some_ : (data.view symbol).bars ≠ []) :
    ((data.apply effect).view symbol).bars ≠ [] := by
  have read : ∀ data : MarketData,
      (data.view symbol).bars = data.bars.getD (MarketBuffer.barKey symbol chartBarWidth) [] :=
    fun _ => rfl
  rw [read] at some_ ⊢
  rw [bars_apply]
  cases effect.barOf with
  | none => exact some_
  | some call =>
      simp only [MarketBuffer.writeBar, Dict.getD_set]
      split
      · intro empty
        have length := congrArg List.length empty
        rw [length_trim] at length
        have placed := List.length_pos_of_ne_nil (place_ne_nil
          (data.bars.getD (MarketBuffer.barKey call.1 call.2.1) []) call.2.2)
        simp only [List.length_nil, barLimit] at length
        omega
      · exact some_

end MarketData

/-! ## A paint -/

namespace Panel

/-- The chart has candles only where there are some to draw. -/
def Drawn (view : View) : Panel → Prop
  | .chart _ candles => view.bars = [] → candles = []
  | _ => True

@[simp] theorem kind_blank (kind : PanelKind) : (blank kind).kind = kind := by
  cases kind <;> rfl

@[simp] theorem kind_paint (view : View) (panel : Panel) : (panel.paint view).kind = panel.kind := by
  cases panel <;> rfl

theorem drawn_blank (view : View) (kind : PanelKind) : (blank kind).Drawn view := by
  cases kind with
  | chart => exact fun _ => rfl
  | _ => trivial

theorem paint_eq {view : View} {panel : Panel} (drawn : panel.Drawn view) :
    panel.paint view = showing view panel.kind := by
  cases panel with
  | chart last candles =>
      by_cases none : view.bars = []
      · simp [paint, showing, kind, none, drawn none]
      · simp [paint, showing, kind, none]
  | _ => rfl

theorem drawn_showing (view : View) (kind : PanelKind) : (showing view kind).Drawn view := by
  cases kind with
  | chart => exact fun none => by simp [none]
  | _ => trivial

theorem drawn_of_bars {before after : View} (keeps : before.bars ≠ [] → after.bars ≠ [])
    {panel : Panel} (drawn : panel.Drawn before) : panel.Drawn after := by
  cases panel with
  | chart last candles => exact fun none => drawn (by_contra fun some_ => keeps some_ none)
  | _ => trivial

@[simp] theorem kind_showing (view : View) (kind : PanelKind) : (showing view kind).kind = kind := by
  cases kind <;> rfl

end Panel

end QuantArena.Web
