import Lettering.Canvas
import Mathlib.Data.List.Forall2

/-!
# Playing back commands

Whoever reads the commands of a canvas sees what is set, and when the state is
saved and restored. A reader keeps what it has read on a page, and has a stack of
pages as the canvas has one of states (`Playback`); what a command puts on the
page is up to the reader. It follows the canvas if the page stands in a given
relation to the state in force, and the pages put aside do to the saved states
(`Tracks`).

* `Tracks.saveState`, `Tracks.restoreState`: no reader loses track by saving and
  restoring, balanced or not.
* `Tracks.record`, `Tracks.unrecorded`: it keeps track of any other change if the
  relation survives it, with the command on the page or without one.
-/

namespace Lettering

/-- What a reader has of the commands so far: the page in force, and those put
    aside, the last one first. -/
structure Playback (π : Type) where
  current : π
  saved : List π := []

namespace Playback

variable {π : Type} (put : Command → π → π)

/-- Reads one more command. A restore without a page put aside changes nothing. -/
def follow (p : Playback π) : Command → Playback π
  | .saveState => { p with saved := p.current :: p.saved }
  | .restoreState =>
    match p.saved with
    | [] => p
    | page :: saved => ⟨page, saved⟩
  | command => { p with current := put command p.current }

/-- Reads commands one after the other. -/
def read (p : Playback π) (commands : List Command) : Playback π := commands.foldl (follow put) p

/-- Any command but those of the stack is put on the page. -/
theorem follow_of_ne {command : Command} (hs : command ≠ .saveState) (hr : command ≠ .restoreState)
    (p : Playback π) : p.follow put command = { p with current := put command p.current } := by
  cases command <;> first | rfl | contradiction

end Playback

namespace Canvas

/-- A canvas as it is told what to do. -/
inductive Operation
  | save
  | restore
  | setFont (selection : FontSelection)
  | applyFont (font : Font) (unit : String)
  | setProperty (name : String) (value : StyleValue)
  | setFillColor (color : Color) (alpha : Single)
  | setStrokeColor (color : Color) (alpha : Single)
  | setOpacity (alpha : Single)
  | measureText (text : Text)
  | fillText (text : Text) (x y : Length)

/-- Does as told. -/
def perform (c : Canvas) : Operation → Canvas
  | .save => Surface.save c
  | .restore => Surface.restore c
  | .setFont selection => Surface.setFont selection c
  | .applyFont font unit => c.applyFont font unit
  | .setProperty name value => Surface.setProperty name value c
  | .setFillColor color alpha => c.setFillColor color alpha
  | .setStrokeColor color alpha => c.setStrokeColor color alpha
  | .setOpacity alpha => c.setOpacity alpha
  | .measureText text => (Surface.measureText text c).2
  | .fillText text x y => Surface.fillText text x y c

/-- Does as told, one thing after the other. -/
def performAll (c : Canvas) (operations : List Operation) : Canvas := operations.foldl perform c

variable {π : Type} (put : Command → π → π) (blank : π) {R : π → GraphicsState → Prop} {c : Canvas}

/-- What a reader with a blank page has of the commands of a canvas. -/
def playback (c : Canvas) : Playback π := (Playback.mk blank []).read put c.commands.toList

theorem playback_push (c : Canvas) (command : Command) :
    playback put blank (c.record command) = (playback put blank c).follow put command := by
  simp [playback, record, Playback.read]

/-- A change with a command other than those of the stack puts the command on the page. -/
theorem playback_record (c : Canvas) (state : GraphicsState) {command : Command}
    (hs : command ≠ .saveState) (hr : command ≠ .restoreState) :
    playback put blank { c.record command with current := state } =
      { playback put blank c with current := put command (playback put blank c).current } :=
  (playback_push put blank c command).trans (Playback.follow_of_ne put hs hr _)

variable (R) in
/-- The page of the reader stands in the relation to the state of the canvas, and
    the pages put aside to the saved states, one by one. -/
structure Tracks (c : Canvas) : Prop where
  current : R (playback put blank c).current c.current
  saved : List.Forall₂ R (playback put blank c).saved c.saved

variable {put blank}

theorem Tracks.saveState (h : Tracks put blank R c) : Tracks put blank R c.saveState := by
  have hp : playback put blank c.saveState = (playback put blank c).follow put .saveState :=
    playback_push put blank c .saveState
  exact ⟨hp ▸ h.current, hp ▸ .cons h.current h.saved⟩

theorem Tracks.restoreState (h : Tracks put blank R c) : Tracks put blank R c.restoreState := by
  unfold Canvas.restoreState
  cases hs : c.saved with
  | nil => exact h
  | cons state saved =>
    -- The canvas has a saved state, so the reader has put a page aside.
    obtain ⟨page, pages, hpage, hpages, he⟩ := List.forall₂_cons_right_iff.mp (hs ▸ h.saved)
    have hp : playback put blank (c.record .restoreState) = ⟨page, pages⟩ := by
      rw [playback_push, Playback.follow, he]
    have hp' : playback put blank
        { c.record .restoreState with current := state, saved := saved } = ⟨page, pages⟩ := hp
    exact ⟨hp' ▸ hpage, hp' ▸ hpages⟩

/-- A change that is not recorded. -/
theorem Tracks.unrecorded {state : GraphicsState} (h : Tracks put blank R c)
    (hR : ∀ page, R page c.current → R page state) :
    Tracks put blank R { c with current := state } :=
  ⟨hR _ h.current, h.saved⟩

/-- A change with its command. -/
theorem Tracks.record {command : Command} {state : GraphicsState} (h : Tracks put blank R c)
    (hs : command ≠ .saveState) (hr : command ≠ .restoreState)
    (hR : ∀ page, R page c.current → R (put command page) state) :
    Tracks put blank R { c.record command with current := state } := by
  have hp := playback_record put blank c state hs hr
  exact ⟨hp ▸ hR _ h.current, hp ▸ h.saved⟩

end Canvas

end Lettering
