import Lettering.Length
import Lettering.Style.Cascade

/-!
# Surfaces

A surface is what text is drawn on: it measures text under its current font,
draws text at a baseline position, and keeps a font and named properties that
`save` and `restore` bracket.

* `withStyle` draws with a style applied and restores the surface afterwards.
* `Recorder` is a surface whose widths are a function of the text alone, and
  which does nothing but note the calls it gets.
-/

namespace Lettering

/-- A font as it is selected on a surface. -/
structure FontSelection where
  weight : String
  style : String
  size : Length
  unit : String
  family : String
deriving DecidableEq, Repr

/-- The selection of a font whose size counts pixels. -/
def Font.selection (f : Font) : FontSelection :=
  ⟨f.weight, f.style, .ofSingle f.size, "px", f.family⟩

/-- States of drawing targets. -/
class Surface (σ : Type) where
  /-- The width of a text under the current font. -/
  measureText : Text → σ → Length × σ
  /-- Draws a text with its baseline starting at `x`, `y`. -/
  fillText : Text → (x y : Length) → σ → σ
  /-- Selects a font. -/
  setFont : FontSelection → σ → σ
  /-- Remembers the font and the properties. -/
  save : σ → σ
  /-- Goes back to the font and the properties last remembered. -/
  restore : σ → σ
  /-- Assigns a property. -/
  setProperty : String → StyleValue → σ → σ

namespace Surface

variable {σ : Type} [Surface σ]

/-- Selects the font of a style and assigns its properties in order. -/
def applyStyle (style : SurfaceStyle) (s : σ) : σ :=
  let s := match style.font with
    | some font => setFont font.selection s
    | none => s
  style.properties.entries.foldl (fun s e => setProperty e.1 e.2 s) s

/-- Draws with a style applied, the surface being saved before and restored
    afterwards. -/
def withStyle {α : Type} (style : SurfaceStyle) (draw : σ → α × σ) (s : σ) : α × σ :=
  let (a, s) := draw (applyStyle style (save s))
  (a, restore s)

end Surface

/-- A call that a recorder notes. -/
inductive SurfaceCall
  | save
  | restore
  | setFont (selection : FontSelection)
  | setProperty (name : String) (value : StyleValue)
  | fillText (text : Text) (x y : Length)
deriving DecidableEq, Repr

/-- A surface that measures by a fixed function and notes every other call. -/
structure Recorder where
  /-- The width of a text. -/
  width : Text → Length
  /-- The calls so far, in order. -/
  calls : List SurfaceCall := []

namespace Recorder

/-- A recorder whose widths add up over the characters: those of the table, and
    `other` for every other character. -/
def ofCharWidths (table : KeyedList Char Length) (other : Length) : Recorder where
  width t := Length.sum (t.map fun c => (table.get? c).getD other)

/-- Notes a call. -/
def note (r : Recorder) (call : SurfaceCall) : Recorder := { r with calls := r.calls ++ [call] }

instance : Surface Recorder where
  measureText t r := (r.width t, r)
  fillText t x y r := r.note (.fillText t x y)
  setFont f r := r.note (.setFont f)
  save r := r.note .save
  restore r := r.note .restore
  setProperty name value r := r.note (.setProperty name value)

end Recorder

end Lettering
