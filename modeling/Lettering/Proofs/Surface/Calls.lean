import Lettering.Surface

/-!
# Calls to a surface

Drawing is known to a surface by the calls it gets. What is said of drawing on
any surface is said of the calls, and a surface is put between drawing and the
surface proper to note them (`Traced`); it passes every call on.

Drawing in turn knows a surface by its answers to measurements. They may change
with every call; `Surface.Answers` bounds them in all states that calls lead to,
and a surface measures by a function of the text alone if it allows one answer
for each text (`Surface.IsPure`).
-/

namespace Lettering

namespace Surface

variable {σ : Type} [Surface σ]

/-- Calls lead from the first state to the second. -/
inductive Reaches : σ → σ → Prop
  | refl (s : σ) : Reaches s s
  | measureText {s s' : σ} (t : Text) : Reaches (Surface.measureText t s).2 s' → Reaches s s'
  | fillText {s s' : σ} (t : Text) (x y : Length) :
    Reaches (Surface.fillText t x y s) s' → Reaches s s'
  | setFont {s s' : σ} (f : FontSelection) : Reaches (Surface.setFont f s) s' → Reaches s s'
  | save {s s' : σ} : Reaches (Surface.save s) s' → Reaches s s'
  | restore {s s' : σ} : Reaches (Surface.restore s) s' → Reaches s s'
  | setProperty {s s' : σ} (name : String) (value : StyleValue) :
    Reaches (Surface.setProperty name value s) s' → Reaches s s'

/-- From `s` on, a text is only measured as `answer` allows, whatever is called. -/
def Answers (answer : Text → Length → Prop) (s : σ) : Prop :=
  ∀ s', Reaches s s' → ∀ t, answer t (Surface.measureText t s').1

/-- From `s` on, the width of a text is a function of the text alone. -/
abbrev IsPure (m : Text → Length) (s : σ) : Prop := Answers (fun t w => w = m t) s

variable {answer : Text → Length → Prop} {s : σ}

theorem Answers.here (h : Answers answer s) (t : Text) : answer t (Surface.measureText t s).1 :=
  h s (.refl s) t

theorem Answers.measureText (h : Answers answer s) (t : Text) :
    Answers answer (Surface.measureText t s).2 := fun s' hs => h s' (.measureText t hs)

theorem Answers.fillText (h : Answers answer s) (t : Text) (x y : Length) :
    Answers answer (Surface.fillText t x y s) := fun s' hs => h s' (.fillText t x y hs)

end Surface

/-- A recorder measures by its function, whatever it has noted. -/
theorem Recorder.isPure (r : Recorder) : Surface.IsPure r.width r := by
  intro s hs t
  induction hs with
  | refl => rfl
  | measureText _ _ ih => exact ih
  | fillText _ _ _ _ ih => exact ih
  | setFont _ _ ih => exact ih
  | save _ ih => exact ih
  | restore _ ih => exact ih
  | setProperty _ _ _ ih => exact ih

/-! ## Texts -/

/-- The text that a call draws, if it draws one. -/
def SurfaceCall.text? : SurfaceCall → Option Text
  | fillText text _ _ => some text
  | _ => none

/-- The texts that calls draw, in order. -/
def drawnTexts (calls : List SurfaceCall) : List Text := calls.filterMap SurfaceCall.text?

theorem drawnTexts_append (calls later : List SurfaceCall) :
    drawnTexts (calls ++ later) = drawnTexts calls ++ drawnTexts later := List.filterMap_append

/-! ## Noting calls -/

/-- A surface with the calls it got so far, measurements apart. -/
structure Traced (σ : Type) where
  surface : σ
  calls : List SurfaceCall

namespace Traced

variable {σ : Type} [Surface σ]

instance : Surface (Traced σ) where
  measureText t r :=
    ((Surface.measureText t r.surface).1, ⟨(Surface.measureText t r.surface).2, r.calls⟩)
  fillText t x y r := ⟨Surface.fillText t x y r.surface, r.calls ++ [.fillText t x y]⟩
  setFont f r := ⟨Surface.setFont f r.surface, r.calls ++ [.setFont f]⟩
  save r := ⟨Surface.save r.surface, r.calls ++ [.save]⟩
  restore r := ⟨Surface.restore r.surface, r.calls ++ [.restore]⟩
  setProperty name value r :=
    ⟨Surface.setProperty name value r.surface, r.calls ++ [.setProperty name value]⟩

/-- The calls that apply a style. -/
def styleCalls (style : SurfaceStyle) : List SurfaceCall :=
  (style.font.map fun font => .setFont font.selection).toList ++
    style.properties.entries.map fun e => .setProperty e.1 e.2

/-- Applying a style draws nothing. -/
theorem drawnTexts_styleCalls (style : SurfaceStyle) : drawnTexts (styleCalls style) = [] := by
  refine List.filterMap_eq_nil_iff.mpr fun call hc => ?_
  rcases List.mem_append.mp hc with hc | hc
  · obtain ⟨font, -, rfl⟩ := Option.map_eq_some_iff.mp (Option.mem_toList.mp hc)
    rfl
  · obtain ⟨e, -, rfl⟩ := List.mem_map.mp hc
    rfl

/-- Assigning properties is noted, one after the other. -/
theorem foldl_setProperty (entries : List (String × StyleValue)) (s : σ)
    (calls : List SurfaceCall) :
    entries.foldl (fun r e => Surface.setProperty e.1 e.2 r) (⟨s, calls⟩ : Traced σ) =
      ⟨entries.foldl (fun s e => Surface.setProperty e.1 e.2 s) s,
        calls ++ entries.map fun e => .setProperty e.1 e.2⟩ := by
  induction entries generalizing s calls with
  | nil => simp
  | cons e entries ih =>
    rw [List.foldl_cons, List.foldl_cons, List.map_cons, List.append_cons]
    exact ih _ _

/-- Applying a style is noted by its calls. -/
theorem applyStyle_eq (style : SurfaceStyle) (s : σ) (calls : List SurfaceCall) :
    Surface.applyStyle style (⟨s, calls⟩ : Traced σ) =
      ⟨Surface.applyStyle style s, calls ++ styleCalls style⟩ := by
  unfold Surface.applyStyle styleCalls
  cases style.font with
  | none => exact foldl_setProperty _ _ _
  | some font =>
    refine (foldl_setProperty _ _ _).trans ?_
    simp

end Traced

end Lettering
