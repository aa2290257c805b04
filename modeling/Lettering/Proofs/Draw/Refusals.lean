import Lettering.Proofs.Draw.Performance
import Lettering.Proofs.Markup.Nesting
import Lettering.Proofs.Single.Order

/-!
# Refusals

Drawing is refused for a width or a line height that cannot be used, and for tags
that are not well nested. What is wrong is told in this order, the first thing
alone (`Refusal`), and a refusal comes before anything is done: however much of
the text could have been drawn, the desk stays as it was, with the surface, the
log, its counters and the trace on it.

* `atLeastOne_eq_error_iff`: which options cannot be used.
* `drawText_refuses`: when drawing is refused, with which error, and that nothing
  has happened then.
-/

namespace Lettering

namespace Draw

open Markup

/-- A required option that cannot be used, and what is wrong with it. -/
inductive Unusable (name : String) : Option Single → OptionError → Prop
  | missing : Unusable name none (.missing name)
  | notFinite {v : Single} : v.isFinite = false → Unusable name (some v) (.tooSmall name v)
  | belowOne {v : Single} : v.numLt .one → Unusable name (some v) (.tooSmall name v)

/-- A finite number is below one or at least one. -/
theorem numLe_one_iff {v : Single} (h : v.isFinite) : Single.one.numLe v ↔ ¬v.numLt .one := by
  have hv := Single.isNaN_of_isFinite h
  have h1 := Single.isNaN_of_isFinite Single.isFinite_one
  simp [Single.numLe, Single.numLt, hv, h1]

theorem atLeastOne_eq_error_iff {name : String} {v? : Option Single} {e : OptionError} :
    atLeastOne name v? = .error e ↔ Unusable name v? e := by
  constructor
  · intro h
    cases v? with
    | none =>
      cases h
      exact .missing
    | some v =>
      rw [atLeastOne] at h
      split at h
      · cases h
      · rename_i hv
        cases h
        by_cases hf : v.isFinite
        · refine .belowOne (not_not.mp fun hlt => hv ?_)
          rw [hf, (numLe_one_iff hf).mpr hlt]
          rfl
        · exact .notFinite (Bool.eq_false_iff.mpr hf)
  · rintro (_ | hf | hlt)
    · rfl
    · simp [atLeastOne, hf]
    · have hle (hf : Single.isFinite _) : Single.one.numLe _ = false :=
        Bool.eq_false_iff.mpr fun h => (numLe_one_iff hf).mp h hlt
      rw [atLeastOne, if_neg]
      simpa using hle

theorem exists_ok_iff_not_unusable {name : String} {v? : Option Single} :
    (∃ p, atLeastOne name v? = .ok p) ↔ ∀ e, ¬Unusable name v? e := by
  simp only [← atLeastOne_eq_error_iff]
  cases atLeastOne name v? <;> simp

/-- The first thing that is wrong with options and tags. -/
inductive Refusal (options : Options) (tags : List Tag) : DrawError → Prop
  | width {e : OptionError} : Unusable "width" options.width? e →
    Refusal options tags (.ofOption e)
  | lineHeight {e : OptionError} : (∀ e, ¬Unusable "width" options.width? e) →
    Unusable "line_height" options.lineHeight? e → Refusal options tags (.ofOption e)
  | mismatched {expected : Option String} {found : String} :
    (∀ e, ¬Unusable "width" options.width? e) →
      (∀ e, ¬Unusable "line_height" options.lineHeight? e) → FirstMismatch tags expected found →
        Refusal options tags (.nesting (.mismatched expected found))
  | unclosed {name : String} {opened : List String} :
    (∀ e, ¬Unusable "width" options.width? e) →
      (∀ e, ¬Unusable "line_height" options.lineHeight? e) → LeavesOpen tags (name :: opened) →
        Refusal options tags (.nesting (.unclosed name))

variable {options : Options} {text last : Text} {pieces : List (Text × Text)}

/-- Options pass if both of them can be used. -/
theorem exists_validate_eq_ok_iff : (∃ dims, options.validate = .ok dims) ↔
    (∀ e, ¬Unusable "width" options.width? e) ∧
      ∀ e, ¬Unusable "line_height" options.lineHeight? e := by
  rw [← exists_ok_iff_not_unusable, ← exists_ok_iff_not_unusable, Options.validate]
  cases atLeastOne "width" options.width? with
  | error e => simp [bind, Except.bind]
  | ok w =>
    cases atLeastOne "line_height" options.lineHeight? <;>
      simp [bind, Except.bind, pure, Except.pure]

/-- What is wrong with the options: the width comes first. -/
theorem validate_eq_error_iff {e : OptionError} : options.validate = .error e ↔
    Unusable "width" options.width? e ∨
      (∀ e, ¬Unusable "width" options.width? e) ∧
        Unusable "line_height" options.lineHeight? e := by
  rw [← exists_ok_iff_not_unusable, ← atLeastOne_eq_error_iff, ← atLeastOne_eq_error_iff,
    Options.validate]
  cases atLeastOne "width" options.width? with
  | error e => simp [bind, Except.bind]
  | ok w =>
    cases atLeastOne "line_height" options.lineHeight? <;>
      simp [bind, Except.bind, pure, Except.pure]

theorem parse_eq_error_iff (hs : TagSplit text pieces last) {e : NestingError} :
    parse text = .error e ↔ nestingError [] (tagsOf pieces) = some e := by
  rw [← errorOf?_eq_some_iff, errorOf?_parse hs]

/-- The first thing that is wrong is what reading the options tells, or what reading
    the text tells once the options pass. -/
theorem refusal_iff (hs : TagSplit text pieces last) {e : DrawError} :
    Refusal options (tagsOf pieces) e ↔
      (∃ e', options.validate = .error e' ∧ e = .ofOption e') ∨
        ∃ dims e', options.validate = .ok dims ∧ parse text = .error e' ∧ e = .nesting e' := by
  constructor
  · rintro (h | ⟨hw, h⟩ | ⟨hw, hl, hm⟩ | ⟨hw, hl, ho⟩)
    · exact .inl ⟨_, validate_eq_error_iff.mpr (.inl h), rfl⟩
    · exact .inl ⟨_, validate_eq_error_iff.mpr (.inr ⟨hw, h⟩), rfl⟩
    · obtain ⟨dims, hv⟩ := exists_validate_eq_ok_iff.mpr ⟨hw, hl⟩
      exact .inr ⟨dims, _, hv,
        (parse_eq_error_iff hs).mpr (nestingError_eq_mismatched_iff.mpr hm), rfl⟩
    · obtain ⟨dims, hv⟩ := exists_validate_eq_ok_iff.mpr ⟨hw, hl⟩
      exact .inr ⟨dims, _, hv,
        (parse_eq_error_iff hs).mpr (nestingError_eq_unclosed_iff.mpr ⟨_, ho⟩), rfl⟩
  · rintro (⟨e', hv, rfl⟩ | ⟨dims, e', hv, hp, rfl⟩)
    · rcases validate_eq_error_iff.mp hv with h | ⟨hw, h⟩
      · exact .width h
      · exact .lineHeight hw h
    · obtain ⟨hw, hl⟩ := exists_validate_eq_ok_iff.mp ⟨dims, hv⟩
      rw [parse_eq_error_iff hs] at hp
      cases e' with
      | mismatched expected found => exact .mismatched hw hl (nestingError_eq_mismatched_iff.mp hp)
      | unclosed name =>
        obtain ⟨opened, ho⟩ := nestingError_eq_unclosed_iff.mp hp
        exact .unclosed hw hl ho

/-- Something is wrong if an option cannot be used or the tags are not well
    nested. -/
theorem exists_refusal_iff (hs : TagSplit text pieces last) :
    (∃ e, Refusal options (tagsOf pieces) e) ↔
      (∃ e, Unusable "width" options.width? e) ∨
        (∃ e, Unusable "line_height" options.lineHeight? e) ∨
        ¬Nested (tagsOf pieces) := by
  have h : (∃ e, Refusal options (tagsOf pieces) e) ↔
      ¬((∃ dims, options.validate = .ok dims) ∧ ∃ c, parse text = .ok c) := by
    simp only [refusal_iff hs]
    cases options.validate with
    | error e => simp
    | ok dims => cases parse text <;> simp
  rw [h, exists_validate_eq_ok_iff, ← errorOf?_eq_none_iff, errorOf?_parse hs,
    nestingError_eq_none_iff]
  simp only [not_and_or, not_forall, not_not, or_assoc]

variable {σ : Type} [Surface σ]

theorem perform_eq_error_iff (hs : TagSplit text pieces last) (x y : Single) (d d' : Desk σ)
    (e : DrawError) : perform options text x y d = (.error e, d') ↔
      Refusal options (tagsOf pieces) e ∧ d' = d := by
  rw [refusal_iff hs]
  cases ho : options.validate with
  | error e' => rw [perform_of_validate_eq_error ho]; simp [eq_comm]
  | ok dims =>
    cases hc : parse text with
    | error e' => rw [perform_of_parse_eq_error ho hc]; simp [eq_comm]
    | ok content =>
      obtain ⟨es, ms, he, -⟩ := perform_of_draw_eq_ok ho hc x y d
        (draw_of_plan_eq_ok (plan_eq_ok ho hc x) y d.surface)
      rw [he]
      simp

/-- Drawing is refused for what is wrong first, whatever the surface and the log. -/
theorem result_eq_error_iff (hs : TagSplit text pieces last) (x y : Single) (s : σ)
    (log : Option Log) (e : DrawError) :
    (drawText options text x y s log).result = .error e ↔ Refusal options (tagsOf pieces) e := by
  obtain ⟨es, he⟩ := exists_perform_eq options text x y ⟨s, log, [], []⟩ rfl
  constructor
  · intro h
    rw [h] at he
    exact ((perform_eq_error_iff hs x y _ _ e).mp he).1
  · intro h
    rw [(perform_eq_error_iff hs x y _ _ e).mpr ⟨h, rfl⟩] at he
    exact (congrArg Prod.fst he).symm

/-- A refusal leaves the surface and the log as they were. -/
theorem drawText_of_error {x y : Single} {s : σ} {log : Option Log} {e : DrawError}
    (h : (drawText options text x y s log).result = .error e) :
    drawText options text x y s log = ⟨.error e, s, log, []⟩ := by
  unfold drawText at h ⊢
  cases hd : draw options text x y s with
  | error e' =>
    rw [hd] at h
    cases h
    rfl
  | ok D =>
    rw [hd] at h
    cases h

/-- Drawing is refused if and only if the width or the line height is missing, not
    finite or below one, or the tags are not well nested, and the error is the first
    one in this order. Nothing has happened then: the surface got no call and no
    measurement, and neither the log nor one of its counters has changed. -/
theorem drawText_refuses (options : Options) (text : Text) (x y : Single) :
    ∃ (pieces : List (Text × Text)) (last : Text),
      (∀ ps l, TagSplit text ps l ↔ ps = pieces ∧ l = last) ∧
      ∀ (s : σ) (log : Option Log),
        ((∃ e, (drawText options text x y s log).result = .error e) ↔
          (∃ e, Unusable "width" options.width? e) ∨
            (∃ e, Unusable "line_height" options.lineHeight? e) ∨ ¬Nested (tagsOf pieces)) ∧
        ∀ e,
          ((drawText options text x y s log).result = .error e ↔
            Refusal options (tagsOf pieces) e) ∧
          ((drawText options text x y s log).result = .error e →
            drawText options text x y s log = ⟨.error e, s, log, []⟩ ∧
            ∀ trace events, perform options text x y ⟨s, log, trace, events⟩ =
              (.error e, ⟨s, log, trace, events⟩)) := by
  obtain ⟨pieces, last, hs⟩ := exists_tagSplit text
  have hresult (s : σ) (log : Option Log) (e : DrawError) :
      (drawText options text x y s log).result = .error e ↔ Refusal options (tagsOf pieces) e :=
    result_eq_error_iff hs x y s log e
  refine ⟨pieces, last, fun ps l => ⟨fun h => h.unique hs, ?_⟩, fun s log => ⟨?_, fun e =>
    ⟨hresult s log e, fun he => ⟨drawText_of_error he, fun trace events => ?_⟩⟩⟩⟩
  · rintro ⟨rfl, rfl⟩
    exact hs
  · simp only [hresult]
    exact exists_refusal_iff hs
  · exact (perform_eq_error_iff hs x y _ _ e).mpr ⟨(hresult s log e).mp he, rfl⟩

end Draw

end Lettering
