import Lettering.Proofs.Canvas.Playback
import Lettering.Proofs.Canvas.Styling
import Mathlib.Data.List.Induction

/-!
# Scopes

Saving and restoring the state open and close scopes, and what a canvas is told
inside a scope is undone when it closes. The operations in force are those that
are not undone (`inForce`). They alone determine the state of the canvas and the
page of any reader of its commands: both are what they would be if nothing else
had been told (`current_inForce`, `page_inForce`).
-/

namespace Lettering

namespace Canvas

/-! ## Operations in force -/

/-- The operations in force after one more, and those that come back into force
    when scopes close. A restore outside of all scopes does nothing. -/
def enter (p : Playback (List Operation)) : Operation → Playback (List Operation)
  | .save => { p with saved := p.current :: p.saved }
  | .restore =>
    match p.saved with
    | [] => p
    | operations :: saved => ⟨operations, saved⟩
  | operation => { p with current := p.current ++ [operation] }

/-- The operations in force in every open scope, the innermost one first. -/
def scopes (operations : List Operation) : Playback (List Operation) :=
  operations.foldl enter ⟨[], []⟩

/-- The operations in force at the end. -/
def inForce (operations : List Operation) : List Operation := (scopes operations).current

/-- Whether an operation leaves the saved states alone. -/
def Operation.isPlain : Operation → Bool
  | save | restore => false
  | _ => true

variable {operation : Operation} {operations : List Operation}

theorem enter_of_isPlain (h : operation.isPlain) (p : Playback (List Operation)) :
    enter p operation = { p with current := p.current ++ [operation] } := by
  cases operation <;> first | rfl | contradiction

theorem scopes_append_singleton (operations : List Operation) (operation : Operation) :
    scopes (operations ++ [operation]) = enter (scopes operations) operation := by
  simp [scopes]

/-- Only plain operations are in force, in any scope. -/
theorem isPlain_scopes (operations : List Operation) :
    ∀ scope ∈ (scopes operations).current :: (scopes operations).saved,
      ∀ operation ∈ scope, operation.isPlain := by
  induction operations using List.reverseRecOn with
  | nil => simp [scopes]
  | append_singleton operations operation ih =>
    rw [scopes_append_singleton]
    by_cases hplain : operation.isPlain
    · rw [enter_of_isPlain hplain]
      simp only [List.forall_mem_cons, List.forall_mem_append] at ih ⊢
      exact ⟨⟨ih.1, by simpa using hplain⟩, ih.2⟩
    · cases operation with
      | save => simpa [enter] using ih
      | restore =>
        cases hs : (scopes operations).saved with
        | nil => simpa [enter, hs] using ih
        | cons scope saved =>
          rw [hs] at ih
          simpa [enter, hs] using (List.forall_mem_cons.mp ih).2
      | _ => exact absurd rfl hplain

theorem isPlain_of_mem_inForce (h : operation ∈ inForce operations) : operation.isPlain :=
  isPlain_scopes operations _ List.mem_cons_self operation h

/-! ## Plain operations -/

/-- What a plain operation records, and the state it leads to, are known from the
    state in force. -/
theorem perform_of_isPlain (h : operation.isPlain) (g : GraphicsState) :
    ∃ (commands : List Command) (state : GraphicsState),
      (∀ command ∈ commands, command ≠ .saveState ∧ command ≠ .restoreState) ∧
      ∀ c : Canvas, c.current = g → ∃ fonts, c.perform operation =
        { c.styled commands state with fonts } := by
  have hstyles {f : Canvas → Canvas} (hf : Styles f) :
      ∃ (commands : List Command) (state : GraphicsState),
        (∀ command ∈ commands, command ≠ .saveState ∧ command ≠ .restoreState) ∧
        ∀ c : Canvas, c.current = g → ∃ fonts, f c = { c.styled commands state with fonts } := by
    obtain ⟨commands, state, hs, he⟩ := hf g
    refine ⟨commands, state, fun command hm => ?_, fun c hc => ⟨c.fonts, he c hc⟩⟩
    have hstyle := hs command hm
    constructor <;> (rintro rfl; cases hstyle)
  cases operation with
  | save => cases h
  | restore => cases h
  | setFont selection => exact hstyles (styles_applyFont _ _)
  | applyFont font unit => exact hstyles (styles_applyFont font unit)
  | setProperty name value => exact hstyles (styles_setProperty name value)
  | setFillColor color alpha => exact hstyles (styles_setFillColor color alpha)
  | setStrokeColor color alpha => exact hstyles (styles_setStrokeColor color alpha)
  | setOpacity alpha => exact hstyles (styles_setOpacity alpha)
  | measureText text =>
    refine ⟨[], g, List.forall_mem_nil _, ?_⟩
    rintro c rfl
    exact ⟨(c.measure text).2.fonts, by simp [perform, styled, Surface.measureText, measure]⟩
  | fillText text x y =>
    refine ⟨[.drawString x y text], g, by simp, ?_⟩
    rintro c rfl
    exact ⟨c.fonts, by simp [perform, styled, Surface.fillText, drawString, record]⟩

variable {π : Type} {put : Command → π → π} {blank : π}

/-- Commands other than those of the stack are put on the page in order. -/
theorem playback_styled {commands : List Command}
    (hs : ∀ command ∈ commands, command ≠ .saveState ∧ command ≠ .restoreState)
    (c : Canvas) (state : GraphicsState) :
    playback put blank (c.styled commands state) =
      { playback put blank c with
        current := commands.foldl (fun page command => put command page)
          (playback put blank c).current } := by
  induction commands generalizing c with
  | nil => simp [playback, styled]
  | cons command commands ih =>
    have hstyled : c.styled (command :: commands) state =
        (c.record command).styled commands state := by simp [styled, record]
    obtain ⟨⟨hsave, hrestore⟩, hrest⟩ := List.forall_mem_cons.mp hs
    rw [hstyled, ih hrest, playback_push, Playback.follow_of_ne put hsave hrestore]
    rfl

/-- If every plain operation does to a view what is in it for the view, then plain operations
    do one after the other what is in them. -/
theorem performAll_of_isPlain {α β : Type} {view : Canvas → β} {part? : Operation → Option α}
    {step : β → α → β}
    (h : ∀ operation, operation.isPlain → ∀ c : Canvas,
      view (c.perform operation) = (part? operation).elim (view c) (step (view c)))
    (hplain : ∀ operation ∈ operations, operation.isPlain) (c : Canvas) :
    view (c.performAll operations) = (operations.filterMap part?).foldl step (view c) := by
  induction operations generalizing c with
  | nil => rfl
  | cons operation operations ih =>
    obtain ⟨hfirst, hrest⟩ := List.forall_mem_cons.mp hplain
    refine (ih hrest (c.perform operation)).trans ?_
    rw [h operation hfirst]
    cases hp : part? operation <;> simp [hp]

/-! ## Scopes of a run -/

variable (put blank) in
/-- Given the operations in force, the canvas is in the state they lead to, and a
    reader has the page they lead to. -/
structure Mirrors (fonts : Typeface.Registry) (p : Playback (List Operation)) (c : Canvas) :
    Prop where
  current : c.current = (performAll { fonts } p.current).current
  page : (playback put blank c).current =
    (playback put blank (performAll { fonts } p.current)).current
  saved : c.saved = p.saved.map fun scope => (performAll { fonts } scope).current
  pages : (playback put blank c).saved =
    p.saved.map fun scope => (playback put blank (performAll { fonts } scope)).current

variable {fonts : Typeface.Registry} {p : Playback (List Operation)} {c : Canvas}

theorem performAll_append_singleton (c : Canvas) (operations : List Operation)
    (operation : Operation) :
    c.performAll (operations ++ [operation]) = (c.performAll operations).perform operation := by
  simp [performAll]

theorem Mirrors.perform_plain (h : Mirrors put blank fonts p c) (hplain : operation.isPlain) :
    Mirrors put blank fonts (enter p operation) (c.perform operation) := by
  obtain ⟨commands, state, hs, hperform⟩ := perform_of_isPlain hplain c.current
  obtain ⟨_, hc⟩ := hperform c rfl
  obtain ⟨_, hscope⟩ := hperform (performAll { fonts } p.current) h.current.symm
  have hpage (c : Canvas) (fonts : Typeface.Registry) :
      playback put blank { c.styled commands state with fonts } =
        { playback put blank c with
          current := commands.foldl (fun page command => put command page)
            (playback put blank c).current } := playback_styled hs c state
  rw [enter_of_isPlain hplain]
  constructor
  · rw [performAll_append_singleton, hscope, hc]
    rfl
  · rw [performAll_append_singleton, hscope, hc, hpage, hpage, h.page]
  · rw [hc]
    exact h.saved
  · rw [hc, hpage]
    exact h.pages

theorem Mirrors.save (h : Mirrors put blank fonts p c) :
    Mirrors put blank fonts (enter p .save) (c.perform .save) := by
  have hplayback : playback put blank c.saveState =
      (playback put blank c).follow put .saveState := playback_push put blank c .saveState
  refine ⟨h.current, ?_, ?_, ?_⟩
  · exact (congrArg Playback.current hplayback).trans h.page
  · exact congrArg₂ List.cons h.current h.saved
  · exact (congrArg Playback.saved hplayback).trans (congrArg₂ List.cons h.page h.pages)

theorem Mirrors.restore (h : Mirrors put blank fonts p c) :
    Mirrors put blank fonts (enter p .restore) (c.perform .restore) := by
  have hperform : c.perform .restore = c.restoreState := rfl
  rw [hperform]
  unfold Canvas.restoreState enter
  cases hs : p.saved with
  | nil =>
    have hc : c.saved = [] := by simp [h.saved, hs]
    simpa [hc] using h
  | cons scope saved =>
    have hc := h.saved
    have hpages := h.pages
    rw [hs, List.map_cons] at hc hpages
    have hplayback : (playback put blank (c.record .restoreState)) =
        ⟨(playback put blank (performAll { fonts } scope)).current,
          saved.map fun scope => (playback put blank (performAll { fonts } scope)).current⟩ := by
      rw [playback_push, Playback.follow, hpages]
    have hrestored (state : GraphicsState) (saved : List GraphicsState) :
        playback put blank { c.record .restoreState with current := state, saved := saved } =
          playback put blank (c.record .restoreState) := rfl
    simp only [hc]
    constructor
    · rfl
    · rw [hrestored, hplayback]
    · rfl
    · rw [hrestored, hplayback]

/-- Whatever is told next, the scopes keep up with the canvas. -/
theorem Mirrors.perform (h : Mirrors put blank fonts p c) (operation : Operation) :
    Mirrors put blank fonts (enter p operation) (c.perform operation) := by
  cases operation with
  | save => exact h.save
  | restore => exact h.restore
  | _ => exact h.perform_plain rfl

variable (put blank fonts) in
theorem mirrors_scopes (operations : List Operation) :
    Mirrors put blank fonts (scopes operations) (performAll { fonts } operations) := by
  induction operations using List.reverseRecOn with
  | nil => exact ⟨rfl, rfl, rfl, rfl⟩
  | append_singleton operations operation ih =>
    rw [scopes_append_singleton, performAll_append_singleton]
    exact ih.perform operation

/-- The state in force is that of the operations in force. -/
theorem current_inForce (fonts : Typeface.Registry) (operations : List Operation) :
    (performAll { fonts } operations).current =
      (performAll { fonts } (inForce operations)).current :=
  (mirrors_scopes (fun _ _ => ()) () fonts operations).current

variable (put blank) in
/-- The page in force is that of the operations in force. -/
theorem page_inForce (fonts : Typeface.Registry) (operations : List Operation) :
    (playback put blank (performAll { fonts } operations)).current =
      (playback put blank (performAll { fonts } (inForce operations))).current :=
  (mirrors_scopes put blank fonts operations).page

end Canvas

end Lettering
