import Lettering.Canvas

/-!
# Styling a canvas

Applying a style to a canvas does something that is known from the state in force
alone, whatever the canvas has recorded and saved before (`Styles`): it adds style
commands, and replaces that state. Every single assignment does, and so does a
whole style (`styles_applyStyle`).
-/

namespace Lettering

/-- Whether a command is part of a style. -/
def Command.isStyle : Command → Bool
  | setFont _ | setFillColor _ | setStrokeColor _ | setOpacity _ _ | setProperty _ _ => true
  | saveState | restoreState | drawString _ _ _ => false

namespace Canvas

/-- The canvas with commands added and another state in force. -/
def styled (c : Canvas) (commands : List Command) (state : GraphicsState) : Canvas :=
  { c with commands := c.commands ++ commands.toArray, current := state }

/-- By the state in force alone, style commands are added and that state is
    replaced; nothing else changes. -/
def Styles (f : Canvas → Canvas) : Prop :=
  ∀ g, ∃ commands state, (∀ command ∈ commands, command.isStyle) ∧
    ∀ c, c.current = g → f c = c.styled commands state

variable {f f' : Canvas → Canvas}

/-! ## Assignments in general -/

/-- The commands and the state are those on an empty canvas in the same state. -/
theorem Styles.eq_styled (h : Styles f) (c : Canvas) :
    f c = c.styled (f { current := c.current }).commands.toList
      (f { current := c.current }).current := by
  obtain ⟨commands, state, -, hf⟩ := h c.current
  rw [hf c rfl, hf { current := c.current } rfl]
  simp [styled]

theorem Styles.isStyle_of_mem (h : Styles f) {g : GraphicsState} {command : Command}
    (hm : command ∈ (f { current := g }).commands.toList) : command.isStyle := by
  obtain ⟨commands, state, hs, hf⟩ := h g
  rw [hf { current := g } rfl] at hm
  exact hs command (by simpa [styled] using hm)

theorem styles_nothing : Styles fun c => c := by
  intro g
  refine ⟨[], g, List.forall_mem_nil _, ?_⟩
  rintro c rfl
  simp [styled]

theorem Styles.comp (h' : Styles f') (h : Styles f) : Styles fun c => f' (f c) := by
  intro g
  obtain ⟨commands, state, hs, hf⟩ := h g
  obtain ⟨later, last, hs', hf'⟩ := h' state
  refine ⟨commands ++ later, last, ?_, fun c hc => ?_⟩
  · intro command hcommand
    exact (List.mem_append.mp hcommand).elim (hs command) (hs' command)
  · have hc' : f' (f c) = (c.styled commands state).styled later last := by
      rw [hf c hc, hf' _ rfl]
    simp [hc', styled]

/-- One of two assignments is made, by what is in force. -/
theorem Styles.ite (p : GraphicsState → Bool) (h : Styles f) (h' : Styles f') :
    Styles fun c => if p c.current then f c else f' c := by
  intro g
  cases hp : p g with
  | true =>
    obtain ⟨commands, state, hs, hf⟩ := h g
    exact ⟨commands, state, hs, fun c hc => (if_pos (by rw [hc, hp])).trans (hf c hc)⟩
  | false =>
    obtain ⟨commands, state, hs, hf⟩ := h' g
    exact ⟨commands, state, hs, fun c hc => (if_neg (by rw [hc, hp]; decide)).trans (hf c hc)⟩

/-- A change that is not recorded. -/
theorem styles_unrecorded (change : GraphicsState → GraphicsState) :
    Styles fun c => { c with current := change c.current } := by
  intro g
  refine ⟨[], change g, List.forall_mem_nil _, ?_⟩
  rintro c rfl
  simp [styled]

/-- A change with its command. -/
theorem styles_record (command : GraphicsState → Command) (hs : ∀ g, (command g).isStyle)
    (change : GraphicsState → GraphicsState) :
    Styles fun c => { c.record (command c.current) with current := change c.current } := by
  intro g
  refine ⟨[command g], change g, by simpa using hs g, ?_⟩
  rintro c rfl
  simp [styled, record]

/-! ## The assignments -/

theorem styles_applyFont (font : Font) (unit : String) : Styles (·.applyFont font unit) :=
  .ite (·.font.numEq font) styles_nothing
    (styles_record
      (fun _ => .setFont ⟨font.weight, font.style, .ofSingle font.size, unit, font.family⟩)
      (fun _ => rfl) fun g => { g with font })

theorem styles_updateOpacity (change : GraphicsState → GraphicsState) :
    Styles (·.updateOpacity change) :=
  .ite (fun g => g.fillOpacity.numEq (change g).fillOpacity &&
      g.strokeOpacity.numEq (change g).strokeOpacity)
    (styles_unrecorded change)
    (styles_record (fun g => .setOpacity (change g).fillOpacity (change g).strokeOpacity)
      (fun _ => rfl) change)

theorem styles_setOpacity (alpha : Single) : Styles (·.setOpacity alpha) := styles_updateOpacity _

theorem styles_setFillColor (color : Color) (alpha : Single) :
    Styles (·.setFillColor color alpha) :=
  (styles_updateOpacity fun g => { g with fillAlpha := unitAlpha alpha }).comp <|
    .ite (·.fillColor.numEq color) styles_nothing <|
      styles_record (fun _ => .setFillColor color) (fun _ => rfl) fun g =>
        { g with fillColor := color }

theorem styles_setStrokeColor (color : Color) (alpha : Single) :
    Styles (·.setStrokeColor color alpha) :=
  (styles_updateOpacity fun g => { g with strokeAlpha := unitAlpha alpha }).comp <|
    .ite (·.strokeColor.numEq color) styles_nothing <|
      styles_record (fun _ => .setStrokeColor color) (fun _ => rfl) fun g =>
        { g with strokeColor := color }

theorem styles_setExtraProperty (name : String) (value : StyleValue) :
    Styles (·.setExtraProperty name value) := by
  unfold Canvas.setExtraProperty
  exact .ite (fun g => (g.properties.get? name).any (·.numEq value)) styles_nothing <|
    styles_record (fun _ => .setProperty name value) (fun _ => rfl) fun g =>
      { g with properties := g.properties.set name value }

/-- Assigning a property is one of four assignments, whatever the canvas. -/
theorem setProperty_cases (name : String) (value : StyleValue) :
    (∃ color alpha, ∀ c : Canvas, c.setProperty name value = c.setFillColor color alpha) ∨
      (∃ color alpha, ∀ c : Canvas, c.setProperty name value = c.setStrokeColor color alpha) ∨
      (∃ alpha, ∀ c : Canvas, c.setProperty name value = c.setOpacity alpha) ∨
      ∀ c : Canvas, c.setProperty name value = c.setExtraProperty name value := by
  by_cases hfill : name = "fillStyle"
  · cases hw : value.asText?.bind fun s => Color.parse? s.toList with
    | none => exact .inr (.inr (.inr fun c => by simp [setProperty, hfill, hw]))
    | some written =>
      exact .inl ⟨written.1, written.2, fun c => by simp [setProperty, hfill, hw]⟩
  by_cases hstroke : name = "strokeStyle"
  · cases hw : value.asText?.bind fun s => Color.parse? s.toList with
    | none => exact .inr (.inr (.inr fun c => by simp [setProperty, hstroke, hw]))
    | some written =>
      exact .inr (.inl ⟨written.1, written.2, fun c => by simp [setProperty, hstroke, hw]⟩)
  by_cases hglobal : name = "globalAlpha"
  · cases ha : value.asNumber? with
    | none => exact .inr (.inr (.inr fun c => by simp [setProperty, hglobal, ha]))
    | some alpha => exact .inr (.inr (.inl ⟨alpha, fun c => by simp [setProperty, hglobal, ha]⟩))
  · exact .inr (.inr (.inr fun c => by simp [setProperty, hfill, hstroke, hglobal]))

theorem styles_setProperty (name : String) (value : StyleValue) :
    Styles (·.setProperty name value) := by
  obtain ⟨color, alpha, h⟩ | ⟨color, alpha, h⟩ | ⟨alpha, h⟩ | h := setProperty_cases name value
  · simpa only [h] using styles_setFillColor color alpha
  · simpa only [h] using styles_setStrokeColor color alpha
  · simpa only [h] using styles_setOpacity alpha
  · simpa only [h] using styles_setExtraProperty name value

/-- Assigning properties one after the other. -/
theorem styles_foldl_setProperty (entries : List (String × StyleValue)) :
    Styles fun c => entries.foldl (fun c e => Surface.setProperty e.1 e.2 c) c := by
  induction entries with
  | nil => exact styles_nothing
  | cons e entries ih => exact ih.comp (styles_setProperty e.1 e.2)

/-- Applying a style. -/
theorem styles_applyStyle (style : SurfaceStyle) : Styles (Surface.applyStyle style) := by
  unfold Surface.applyStyle
  cases style.font with
  | none => exact styles_foldl_setProperty _
  | some font => exact (styles_foldl_setProperty _).comp (styles_applyFont _ _)

end Canvas

end Lettering
