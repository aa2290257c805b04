import Lettering.Proofs.Wrap.Steps

/-!
# What wrapping keeps of a text

Wrapping may leave out spaces, where a line ends, and nothing else: what it draws
is the text without some of its spaces, every other character once and in its
place (`SpacesDropped`). This does not depend on what the surface answers.

* `SpacesDropped.filter_eq`: without any spaces the two are the same.
* `wrap_keeps`: what wrapping draws is the text without some of its spaces, in
  pieces that are not empty.
-/

namespace Lettering

namespace Wrap

/-- The second text is the first one without some of its spaces. -/
inductive SpacesDropped : Text → Text → Prop
  | nil : SpacesDropped [] []
  | keep {t u : Text} (c : Char) : SpacesDropped t u → SpacesDropped (c :: t) (c :: u)
  | drop {t u : Text} {c : Char} : isSpace c → SpacesDropped t u → SpacesDropped (c :: t) u

variable {t t' u u' : Text}

theorem SpacesDropped.refl (t : Text) : SpacesDropped t t := by
  induction t with
  | nil => exact .nil
  | cons c t ih => exact .keep c ih

theorem SpacesDropped.append (h : SpacesDropped t u) (h' : SpacesDropped t' u') :
    SpacesDropped (t ++ t') (u ++ u') := by
  induction h with
  | nil => exact h'
  | keep c _ ih => exact .keep c ih
  | drop hc _ ih => exact .drop hc ih

/-- The spaces at the start of a text are dropped. -/
theorem SpacesDropped.of_skipSpaces (h : SpacesDropped (skipSpaces t) u) : SpacesDropped t u := by
  induction t with
  | nil => exact h
  | cons c t ih =>
    rw [skipSpaces, List.dropWhile_cons] at h
    split at h
    · exact .drop (by assumption) (ih h)
    · exact h

/-- Every character that is not a space is kept, once and in order. -/
theorem SpacesDropped.filter_eq (h : SpacesDropped t u) :
    u.filter (!isSpace ·) = t.filter (!isSpace ·) := by
  induction h with
  | nil => rfl
  | keep c _ ih => rw [List.filter_cons, List.filter_cons, ih]
  | drop hc _ ih => rw [ih, List.filter_cons_of_neg (by simp [hc])]

/-! ## What is drawn -/

/-- The texts, put together, are the text without some of its spaces, and none of
    them is empty. -/
structure Keeps (t : Text) (texts : List Text) : Prop where
  dropped : SpacesDropped t texts.flatten
  not_mem : [] ∉ texts

theorem Keeps.nil : Keeps [] [] := ⟨.nil, List.not_mem_nil⟩

theorem Keeps.cons {texts : List Text} (hu : u ≠ []) (h : Keeps t texts) :
    Keeps (u ++ t) (u :: texts) where
  dropped := (SpacesDropped.refl u).append h.dropped
  not_mem hm := by
    rcases List.mem_cons.mp hm with hm | hm
    · exact hu hm.symm
    · exact h.not_mem hm

theorem Keeps.of_skipSpaces {texts : List Text} (h : Keeps (skipSpaces t) texts) : Keeps t texts :=
  ⟨h.dropped.of_skipSpaces, h.not_mem⟩

variable {σ : Type} [Surface σ]

/-- Whatever the surface answers, wrapping keeps the text. -/
theorem wrap_keeps (line : Line) (text : Text) (pen : Pen) (s : σ) :
    Keeps text (drawnTexts (fills (wrap line text pen s).steps)) := by
  fun_induction wrap line text pen s with
  | case1 pen s => exact .nil
  | case2 text pen s ht fit hf next hx s' later ih =>
    have hfit : grow line pen.x [] 0 text s = fit := rfl
    have hu : fit.unit = (cutUnit text).1 := unit_of_taken_eq_nil hfit hf
    -- The line break draws nothing, and the spaces it skips follow the unit.
    have h := ih.of_skipSpaces.cons (hu ▸ cutUnit_ne_nil ht)
    rw [hu, cutUnit_append] at h
    rw [← hu] at h
    exact h
  | case3 text pen s ht fit hf next hx ih => exact ih.of_skipSpaces
  | case4 text pen s ht fit hf s' ih =>
    have h := ih.cons hf
    rw [taken_append_rest] at h
    exact h

end Wrap

end Lettering
