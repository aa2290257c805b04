import Lettering.Proofs.Wrap.Steps

/-!
# Wrapping on related surfaces

Wrapping knows a surface by its answers to measurements. Two surfaces, possibly
of different kinds, may answer alike and go on doing so as texts are measured and
drawn on both (`Surface.Simulation`). Wrapping then takes the same steps on both
(`wrap_simulates`), and leaves them related. In particular it keeps what measuring
and drawing keep (`wrap_invariant`).
-/

namespace Lettering

variable {σ τ : Type} [Surface σ] [Surface τ] {R : σ → τ → Prop}

variable (R) in
/-- Surfaces in the relation measure alike, and stay in it when texts are measured
    and drawn. -/
structure Surface.Simulation : Prop where
  answer {s : σ} {u : τ} (t : Text) : R s u →
    (Surface.measureText t u).1 = (Surface.measureText t s).1
  measureText {s : σ} {u : τ} (t : Text) : R s u →
    R (Surface.measureText t s).2 (Surface.measureText t u).2
  fillText {s : σ} {u : τ} (t : Text) (x y : Length) : R s u →
    R (Surface.fillText t x y s) (Surface.fillText t x y u)

namespace Wrap

/-- The segment, found on another surface. -/
def Fit.on (fit : Fit σ) (u : τ) : Fit τ := { fit with surface := u }

/-- The outcome of wrapping, on another surface. -/
def Wrapped.on (w : Wrapped σ) (u : τ) : Wrapped τ := { w with surface := u }

variable {s : σ} {u : τ}

theorem grow_simulates (hR : Surface.Simulation R) (line : Line) (x : Length) (taken : Text)
    (width : Length) (rest : Text) (h : R s u) :
    ∃ u', grow line x taken width rest u = (grow line x taken width rest s).on u' ∧
      R (grow line x taken width rest s).surface u' := by
  fun_induction grow line x taken width rest s generalizing u with
  | case1 taken width rest s unit measured hf =>
    rename_i ih
    have ha := hR.answer (taken ++ unit) h
    rw [grow_of_fits (s := u) (by rw [ha]; exact hf), ha]
    exact ih (hR.measureText _ h)
  | case2 taken width rest s unit measured =>
    rename_i hf
    have ha := hR.answer (taken ++ unit) h
    rw [grow_of_not_fits (s := u) (by rw [ha]; exact hf), ha]
    exact ⟨_, rfl, hR.measureText _ h⟩

/-- Wrapping takes the same steps on related surfaces. -/
theorem wrap_simulates (hR : Surface.Simulation R) (line : Line) (text : Text) (pen : Pen)
    (h : R s u) :
    ∃ u', wrap line text pen u = (wrap line text pen s).on u' ∧
      R (wrap line text pen s).surface u' := by
  fun_induction wrap line text pen s generalizing u with
  | case1 pen s => exact ⟨u, wrap_nil, h⟩
  | case2 text pen s ht fit hf next hx s' later =>
    rename_i ih
    obtain ⟨u', hg, hu'⟩ := grow_simulates hR line pen.x [] 0 text h
    obtain ⟨u'', hw, hu''⟩ := ih (hR.fillText fit.unit pen.x pen.y hu')
    rw [wrap_forced ht hg hf hx]
    exact ⟨u'', congrArg (Wrapped.precededBy · _) hw, hu''⟩
  | case3 text pen s ht fit hf next hx =>
    rename_i ih
    obtain ⟨u', hg, hu'⟩ := grow_simulates hR line pen.x [] 0 text h
    obtain ⟨u'', hw, hu''⟩ := ih hu'
    rw [wrap_broken ht hg hf hx]
    exact ⟨u'', congrArg (Wrapped.precededBy · _) hw, hu''⟩
  | case4 text pen s ht fit hf s' =>
    rename_i ih
    obtain ⟨u', hg, hu'⟩ := grow_simulates hR line pen.x [] 0 text h
    obtain ⟨u'', hw, hu''⟩ := ih (hR.fillText fit.taken pen.x pen.y hu')
    rw [wrap_segment ht hg hf]
    exact ⟨u'', congrArg (Wrapped.precededBy · _) hw, hu''⟩

/-- What measuring and drawing keep true, wrapping does. -/
theorem wrap_invariant {P : σ → Prop} (hm : ∀ t s, P s → P (Surface.measureText t s).2)
    (hf : ∀ t x y s, P s → P (Surface.fillText t x y s)) (line : Line) (text : Text) (pen : Pen)
    (h : P s) : P (wrap line text pen s).surface := by
  have hR : Surface.Simulation fun s u : σ => u = s ∧ P s := {
    answer := by rintro s _ t ⟨rfl, -⟩; rfl
    measureText := by rintro s _ t ⟨rfl, hs⟩; exact ⟨rfl, hm t _ hs⟩
    fillText := by rintro s _ t x y ⟨rfl, hs⟩; exact ⟨rfl, hf t x y _ hs⟩ }
  obtain ⟨_, -, -, hs⟩ := wrap_simulates hR line text pen ⟨rfl, h⟩
  exact hs

end Wrap

end Lettering
