import Lettering.Proofs.Canvas.Playback
import Lettering.Proofs.Canvas.Styling
import Lettering.Proofs.Single.Order

/-!
# The page a canvas leaves

The commands of a canvas leave out what it takes for no change, and of its three
alphas they tell two products only. A reader who just overwrites what a command
sets is right about the canvas all the same, at any time and after any calls: the
font, the colours and the properties are those of the canvas, the opacities equal
its effective ones as numbers, and there are as many pages put aside as saved
states (`commands_faithful`).

What the canvas takes for the same is the same, except in the opacities. There a
reader may be left with the other zero; it is not left with the wrong number,
since the alphas of a canvas are finite at all times (`HasAlphas`).
-/

namespace Lettering

/-- What commands set, each slot as it was set last. -/
structure Page where
  font : FontSelection := Font.selection {}
  fillColor : Color := .black
  strokeColor : Color := .black
  fillOpacity : Single := .one
  strokeOpacity : Single := .one
  properties : Rules := ∅

namespace Page

/-- A command overwrites its slot. -/
def put : Command → Page → Page
  | .setFont selection, p => { p with font := selection }
  | .setFillColor color, p => { p with fillColor := color }
  | .setStrokeColor color, p => { p with strokeColor := color }
  | .setOpacity fill stroke, p => { p with fillOpacity := fill, strokeOpacity := stroke }
  | .setProperty name value, p => { p with properties := p.properties.set name value }
  | .saveState, p => p
  | .restoreState, p => p
  | .drawString _ _ _, p => p

/-- The page is right about a state: the unit of the font apart, every slot holds
    what is in force, the opacities as numbers. -/
structure Shows (p : Page) (g : GraphicsState) : Prop where
  weight : p.font.weight = g.font.weight
  style : p.font.style = g.font.style
  family : p.font.family = g.font.family
  size : p.font.size = g.fontSize
  fillColor : p.fillColor = g.fillColor
  strokeColor : p.strokeColor = g.strokeColor
  fillOpacity : p.fillOpacity.numEq g.fillOpacity
  strokeOpacity : p.strokeOpacity.numEq g.strokeOpacity
  properties : p.properties = g.properties

end Page

/-! ## Alphas -/

namespace GraphicsState

/-- The three alphas are finite. -/
structure HasAlphas (g : GraphicsState) : Prop where
  globalAlpha : g.globalAlpha.isFinite
  fillAlpha : g.fillAlpha.isFinite
  strokeAlpha : g.strokeAlpha.isFinite

variable {g : GraphicsState}

theorem HasAlphas.isNaN_fillOpacity (h : g.HasAlphas) : g.fillOpacity.isNaN = false :=
  Single.isNaN_mul h.globalAlpha h.fillAlpha

theorem HasAlphas.isNaN_strokeOpacity (h : g.HasAlphas) : g.strokeOpacity.isNaN = false :=
  Single.isNaN_mul h.globalAlpha h.strokeAlpha

end GraphicsState

namespace Canvas

open Single

theorem isFinite_unitAlpha (x : Single) : (unitAlpha x).isFinite := by
  unfold unitAlpha
  split
  · exact isFinite_clamp (by assumption) isFinite_zero isFinite_one
  · exact isFinite_one

/-- The page is right about a state that has alphas. -/
def Follows (p : Page) (g : GraphicsState) : Prop := p.Shows g ∧ g.HasAlphas

variable {c : Canvas}

/-- The reader who overwrites slots follows the canvas. -/
abbrev Read (c : Canvas) : Prop := Tracks Page.put {} Follows c

/-! ## One operation -/

/-- A font is told unless it equals the one in force, which then stays. -/
theorem Read.applyFont (h : Read c) (font : Font) (unit : String) :
    Read (c.applyFont font unit) := by
  unfold Canvas.applyFont
  split
  · exact h
  · refine h.record nofun nofun fun page hp => ⟨{ hp.1 with
      weight := rfl, style := rfl, family := rfl, size := rfl }, ?_⟩
    exact ⟨hp.2.globalAlpha, hp.2.fillAlpha, hp.2.strokeAlpha⟩

/-- The opacities are told if they change, and else are what they were. -/
theorem Read.updateOpacity (h : Read c) {change : GraphicsState → GraphicsState}
    (hc : ∃ global fill stroke : Single, global.isFinite ∧ fill.isFinite ∧ stroke.isFinite ∧
      change c.current =
        { c.current with globalAlpha := global, fillAlpha := fill, strokeAlpha := stroke }) :
    Read (c.updateOpacity change) := by
  obtain ⟨global, fill, stroke, hglobal, hfill, hstroke, he⟩ := hc
  have ha : (change c.current).HasAlphas := by
    rw [he]
    exact ⟨hglobal, hfill, hstroke⟩
  unfold Canvas.updateOpacity
  dsimp only
  split
  · rename_i heq
    obtain ⟨hf, hs⟩ := Bool.and_eq_true_iff.mp heq
    refine h.unrecorded fun page hp => ⟨?_, ha⟩
    have hf' := numEq_trans hp.1.fillOpacity hf
    have hs' := numEq_trans hp.1.strokeOpacity hs
    rw [he] at hf' hs' ⊢
    exact { hp.1 with fillOpacity := hf', strokeOpacity := hs' }
  · refine h.record nofun nofun fun page hp => ⟨?_, ha⟩
    have hf := numEq_self_iff.mpr ha.isNaN_fillOpacity
    have hs := numEq_self_iff.mpr ha.isNaN_strokeOpacity
    rw [he] at hf hs ⊢
    exact { hp.1 with fillOpacity := hf, strokeOpacity := hs }

theorem Read.setOpacity (h : Read c) (alpha : Single) : Read (c.setOpacity alpha) :=
  h.updateOpacity ⟨_, _, _, isFinite_unitAlpha alpha, h.current.2.fillAlpha,
    h.current.2.strokeAlpha, rfl⟩

theorem Read.setFillColor (h : Read c) (color : Color) (alpha : Single) :
    Read (c.setFillColor color alpha) := by
  have hcolor : Read (if c.current.fillColor.numEq color then c
      else { c.record (.setFillColor color) with
        current := { c.current with fillColor := color } }) := by
    split
    · exact h
    · refine h.record nofun nofun fun page hp => ⟨{ hp.1 with fillColor := rfl }, ?_⟩
      exact ⟨hp.2.globalAlpha, hp.2.fillAlpha, hp.2.strokeAlpha⟩
  unfold Canvas.setFillColor
  refine hcolor.updateOpacity ⟨_, _, _, ?_, isFinite_unitAlpha alpha, ?_, rfl⟩
  · exact hcolor.current.2.globalAlpha
  · exact hcolor.current.2.strokeAlpha

theorem Read.setStrokeColor (h : Read c) (color : Color) (alpha : Single) :
    Read (c.setStrokeColor color alpha) := by
  have hcolor : Read (if c.current.strokeColor.numEq color then c
      else { c.record (.setStrokeColor color) with
        current := { c.current with strokeColor := color } }) := by
    split
    · exact h
    · refine h.record nofun nofun fun page hp => ⟨{ hp.1 with strokeColor := rfl }, ?_⟩
      exact ⟨hp.2.globalAlpha, hp.2.fillAlpha, hp.2.strokeAlpha⟩
  unfold Canvas.setStrokeColor
  refine hcolor.updateOpacity ⟨_, _, _, ?_, ?_, isFinite_unitAlpha alpha, rfl⟩
  · exact hcolor.current.2.globalAlpha
  · exact hcolor.current.2.fillAlpha

theorem Read.setExtraProperty (h : Read c) (name : String) (value : StyleValue) :
    Read (c.setExtraProperty name value) := by
  unfold Canvas.setExtraProperty
  split
  · exact h
  · refine h.record nofun nofun fun page hp => ⟨{ hp.1 with properties := ?_ }, ?_⟩
    · exact congrArg (·.set name value) hp.1.properties
    · exact ⟨hp.2.globalAlpha, hp.2.fillAlpha, hp.2.strokeAlpha⟩

theorem Read.setProperty (h : Read c) (name : String) (value : StyleValue) :
    Read (c.setProperty name value) := by
  obtain ⟨color, alpha, he⟩ | ⟨color, alpha, he⟩ | ⟨alpha, he⟩ | he := setProperty_cases name value
  · exact he c ▸ h.setFillColor color alpha
  · exact he c ▸ h.setStrokeColor color alpha
  · exact he c ▸ h.setOpacity alpha
  · exact he c ▸ h.setExtraProperty name value

theorem Read.drawString (h : Read c) (x y : Length) (text : Text) : Read (c.drawString x y text) :=
  h.record nofun nofun fun _ hp => hp

/-- No operation leads the reader astray. -/
theorem Read.perform (h : Read c) (operation : Operation) : Read (c.perform operation) := by
  cases operation with
  | save => exact h.saveState
  | restore => exact h.restoreState
  | setFont selection => exact h.applyFont _ _
  | applyFont font unit => exact h.applyFont font unit
  | setProperty name value => exact h.setProperty name value
  | setFillColor color alpha => exact h.setFillColor color alpha
  | setStrokeColor color alpha => exact h.setStrokeColor color alpha
  | setOpacity alpha => exact h.setOpacity alpha
  | measureText text => exact ⟨h.current, h.saved⟩
  | fillText text x y => exact h.drawString x y text

/-! ## Any operations -/

theorem Read.performAll (h : Read c) (operations : List Operation) :
    Read (c.performAll operations) := by
  induction operations generalizing c with
  | nil => exact h
  | cons operation operations ih => exact ih (h.perform operation)

/-- A blank page is right about the first state. -/
theorem follows_default : Follows {} {} :=
  ⟨⟨rfl, rfl, rfl, rfl, rfl, rfl, by decide, by decide, rfl⟩, by decide, by decide, by decide⟩

/-- Whatever a fresh canvas is told to do, reading its commands yields its state:
    what is in force, as well as what is saved, and how often. -/
theorem commands_faithful (fonts : Typeface.Registry) (operations : List Operation) :
    let c := performAll { fonts } operations
    let p := playback Page.put {} c
    p.current.Shows c.current ∧ List.Forall₂ Page.Shows p.saved c.saved ∧
      p.saved.length = c.saved.length := by
  intro c p
  have h₀ : Read { fonts } := ⟨follows_default, .nil⟩
  have h : Read c := h₀.performAll operations
  exact ⟨h.current.1, h.saved.imp fun _ _ hp => hp.1, h.saved.length_eq⟩

end Canvas

end Lettering
