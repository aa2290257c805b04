import Lettering.Color
import Lettering.Surface
import Lettering.Typeface.Registry

/-!
# The canvas

A canvas is a surface that keeps a graphics state with a stack of saved ones,
and records a command for every change of the state and every text drawn. A
change that changes nothing is not recorded. It interprets the fill and stroke
styles, the opacity and the font; every other property it just keeps.
-/

namespace Lettering

/-- A command recorded by a canvas. -/
inductive Command
  | saveState
  | restoreState
  | setFont (selection : FontSelection)
  | setFillColor (color : Color)
  | setStrokeColor (color : Color)
  /-- The effective alphas: the global one times that of the paint. -/
  | setOpacity (fill stroke : Single)
  | setProperty (name : String) (value : StyleValue)
  | drawString (x y : Length) (text : Text)
deriving DecidableEq, Repr

/-- What saving a canvas remembers. -/
structure GraphicsState where
  font : Font := {}
  fillColor : Color := .black
  strokeColor : Color := .black
  globalAlpha : Single := .one
  fillAlpha : Single := .one
  strokeAlpha : Single := .one
  properties : Rules := ∅
deriving DecidableEq, Repr

namespace GraphicsState

/-- The size of the font. -/
def fontSize (g : GraphicsState) : Length := .ofSingle g.font.size

/-- The effective alpha of filling. -/
def fillOpacity (g : GraphicsState) : Single := g.globalAlpha * g.fillAlpha

/-- The effective alpha of stroking. -/
def strokeOpacity (g : GraphicsState) : Single := g.globalAlpha * g.strokeAlpha

end GraphicsState

/-- A recording surface. -/
structure Canvas where
  /-- The commands so far, in order. -/
  commands : Array Command := #[]
  /-- The saved states, the last one first. -/
  saved : List GraphicsState := []
  /-- The state in force. -/
  current : GraphicsState := {}
  /-- The fonts that text is measured in. -/
  fonts : Typeface.Registry := {}

namespace Canvas

instance : Inhabited Canvas := ⟨{}⟩

/-- An alpha between 0 and 1; what is not finite counts as 1. -/
def unitAlpha (x : Single) : Single := if x.isFinite then x.clamp .zero .one else .one

/-- Records a command. -/
def record (c : Canvas) (command : Command) : Canvas :=
  { c with commands := c.commands.push command }

/-- Saves the state. -/
def saveState (c : Canvas) : Canvas :=
  { c.record .saveState with saved := c.current :: c.saved }

/-- Goes back to the state saved last, if there is one. -/
def restoreState (c : Canvas) : Canvas :=
  match c.saved with
  | [] => c
  | state :: saved => { c.record .restoreState with current := state, saved }

/-- Selects a font whose size counts the given unit. -/
def applyFont (c : Canvas) (font : Font) (unit : String) : Canvas :=
  if c.current.font.numEq font then c
  else
    { c.record (.setFont ⟨font.weight, font.style, .ofSingle font.size, unit, font.family⟩) with
      current := { c.current with font } }

/-- Changes the alphas, and records the effective ones if they change. -/
def updateOpacity (c : Canvas) (change : GraphicsState → GraphicsState) : Canvas :=
  let before := c.current
  let after := change before
  let c := { c with current := after }
  if before.fillOpacity.numEq after.fillOpacity && before.strokeOpacity.numEq after.strokeOpacity
  then c
  else c.record (.setOpacity after.fillOpacity after.strokeOpacity)

/-- Sets the colour of filling and its alpha. -/
def setFillColor (c : Canvas) (color : Color) (alpha : Single) : Canvas :=
  let c := if c.current.fillColor.numEq color then c
    else { c.record (.setFillColor color) with current := { c.current with fillColor := color } }
  c.updateOpacity fun g => { g with fillAlpha := unitAlpha alpha }

/-- Sets the colour of stroking and its alpha. -/
def setStrokeColor (c : Canvas) (color : Color) (alpha : Single) : Canvas :=
  let c := if c.current.strokeColor.numEq color then c
    else
      { c.record (.setStrokeColor color) with current := { c.current with strokeColor := color } }
  c.updateOpacity fun g => { g with strokeAlpha := unitAlpha alpha }

/-- Sets the global alpha. -/
def setOpacity (c : Canvas) (alpha : Single) : Canvas :=
  c.updateOpacity fun g => { g with globalAlpha := unitAlpha alpha }

/-- Keeps a property that is not interpreted. -/
def setExtraProperty (c : Canvas) (name : String) (value : StyleValue) : Canvas :=
  if (c.current.properties.get? name).any (·.numEq value) then c
  else
    { c.record (.setProperty name value) with
      current := { c.current with properties := c.current.properties.set name value } }

/-- Assigns a property: the fill and stroke styles if they are colours in
    writing, the opacity if it is a number, and all others as they are. -/
def setProperty (c : Canvas) (name : String) (value : StyleValue) : Canvas :=
  let written : Option (Color × Single) := value.asText?.bind fun s => Color.parse? s.toList
  if name = "fillStyle" then
    match written with
    | some (color, alpha) => c.setFillColor color alpha
    | none => c.setExtraProperty name value
  else if name = "strokeStyle" then
    match written with
    | some (color, alpha) => c.setStrokeColor color alpha
    | none => c.setExtraProperty name value
  else if name = "globalAlpha" then
    match value.asNumber? with
    | some alpha => c.setOpacity alpha
    | none => c.setExtraProperty name value
  else c.setExtraProperty name value

/-- Draws a text. -/
def drawString (c : Canvas) (x y : Length) (text : Text) : Canvas :=
  c.record (.drawString x y text)

/-- The value of a kept property. -/
def property? (c : Canvas) (name : String) : Option StyleValue := c.current.properties.get? name

/-- The width of a text in the current font. -/
def measure (c : Canvas) (text : Text) : Length × Canvas :=
  let g := c.current
  let (width, fonts) :=
    c.fonts.measure g.font.family.toList g.font.isBold g.font.isItalic g.fontSize text
  (width, { c with fonts })

instance : Surface Canvas where
  measureText text c := c.measure text
  fillText text x y c := c.drawString x y text
  setFont f c := c.applyFont ⟨f.style, f.weight, f.size.toSingle, f.family⟩ f.unit
  save c := c.saveState
  restore c := c.restoreState
  setProperty name value c := c.setProperty name value

end Canvas

end Lettering
