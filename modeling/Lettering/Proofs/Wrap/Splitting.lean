import Lettering.Proofs.Wrap.Placing
import Mathlib.Data.List.Induction

/-!
# Splitting a text

A text that is cut at the end of a unit may be drawn in two parts, the second one
from where the first one has left the pen. The pen ends where it would have ended,
as many lines are broken, as many units are forced, and every character stands where
it would have stood (`wrap_append`), if the second part does not start with a space
and no length is clipped.

The steps themselves are not the same. What fits behind the first part is drawn with
it if the text is whole, and by itself if it is split (`Joins`); all other steps are
those of the parts (`Layout.append`).
-/

namespace Lettering

namespace Wrap

/-! ## Cuts -/

/-- A class of characters that ends within `t`, or where `b` starts. -/
theorem span_append {p : Char → Bool} {t b : Text}
    (h : (∀ c ∈ t, p c) → ∀ d ∈ b.head?, p d = false) :
    (t ++ b).takeWhile p = t.takeWhile p ∧ (t ++ b).dropWhile p = t.dropWhile p ++ b := by
  induction t with
  | nil =>
    cases b with
    | nil => exact ⟨rfl, rfl⟩
    | cons d b =>
      have hd : p d = false := h (List.forall_mem_nil _) d rfl
      simp [hd]
  | cons c t ih =>
    cases hc : p c with
    | false => simp [hc]
    | true =>
      obtain ⟨htake, hdrop⟩ := ih fun ht => h (List.forall_mem_cons.mpr ⟨hc, ht⟩)
      simp [hc, htake, hdrop]

/-- A text is cut into two parts between two of its units, and not in front of a
    space. -/
structure IsCut (a b : Text) : Prop where
  isBreak : ∀ c ∈ a.getLast?, ∀ d ∈ b.head?, isBreak c ∨ isBreak d
  isSpace : ∀ d ∈ b.head?, isSpace d = false

variable {a b t u : Text}

theorem IsCut.of_append (h : IsCut (t ++ a) b) : IsCut a b where
  isBreak c hc := h.isBreak c (by simp [List.getLast?_append, Option.mem_def.mp hc])
  isSpace := h.isSpace

/-- The end of a text is cut off the same way. -/
theorem IsCut.suffix (h : IsCut a b) (hs : t <:+ a) : IsCut t b := by
  obtain ⟨u, rfl⟩ := hs
  exact h.of_append

/-- A cut does not touch the first unit. -/
theorem IsCut.cutUnit_append (h : IsCut a b) (ha : a ≠ []) :
    (cutUnit (a ++ b)).1 = (cutUnit a).1 ∧ (cutUnit (a ++ b)).2 = (cutUnit a).2 ++ b := by
  obtain ⟨c, r, rfl⟩ := List.exists_cons_of_ne_nil ha
  rw [List.cons_append, cutUnit, cutUnit]
  split
  · exact ⟨rfl, rfl⟩
  · rename_i hc
    -- If the unit is all of `a`, its last character is no break character.
    have hspan : (∀ d ∈ r, !Wrap.isBreak d) → ∀ d ∈ b.head?, (!Wrap.isBreak d) = false := by
      intro hr d hd
      have hlast := h.isBreak _ (List.getLast?_eq_some_getLast ha) d hd
      have hall : ∀ c' ∈ c :: r, ¬ Wrap.isBreak c' :=
        List.forall_mem_cons.mpr ⟨hc, fun c' hm => by simpa using hr c' hm⟩
      simpa using hlast.resolve_left (hall _ (List.getLast_mem ha))
    obtain ⟨htake, hdrop⟩ := span_append hspan
    exact ⟨congrArg (c :: ·) htake, hdrop⟩

/-- The units of a text are those of its parts. -/
theorem IsCut.units_append (h : IsCut a b) : units (a ++ b) = units a ++ units b := by
  fun_induction units a with
  | case1 => rfl
  | case2 a ha ih =>
    have hcut : IsCut (cutUnit a).2 b := h.suffix ⟨_, Wrap.cutUnit_append a⟩
    obtain ⟨hunit, hlater⟩ := h.cutUnit_append ha
    rw [units_of_ne_nil (List.append_ne_nil_of_left_ne_nil ha b), hunit, hlater, ih hcut,
      List.cons_append]

theorem IsCut.firstUnits_append (h : IsCut a b) {k : Nat} (hk : k ≤ (units a).length) :
    firstUnits (a ++ b) k = firstUnits a k := by
  rw [firstUnits, h.units_append, List.take_append_of_le_length hk, firstUnits]

theorem IsCut.afterUnits_append (h : IsCut a b) {k : Nat} (hk : k ≤ (units a).length) :
    afterUnits (a ++ b) k = afterUnits a k ++ b := by
  rw [afterUnits, h.units_append, List.drop_append_of_le_length hk, List.flatten_append,
    flatten_units, afterUnits]

theorem IsCut.firstUnits_append_add (h : IsCut a b) (k : Nat) :
    firstUnits (a ++ b) ((units a).length + k) = a ++ firstUnits b k := by
  rw [firstUnits, h.units_append, List.take_length_add_append, List.flatten_append, flatten_units,
    firstUnits]

theorem IsCut.afterUnits_append_add (h : IsCut a b) (k : Nat) :
    afterUnits (a ++ b) ((units a).length + k) = afterUnits b k := by
  rw [afterUnits, h.units_append, List.drop_length_add_append, afterUnits]

/-- No space is skipped beyond the cut. -/
theorem IsCut.takeWhile_append (h : IsCut a b) (t : Text) :
    (t ++ b).takeWhile Wrap.isSpace = t.takeWhile Wrap.isSpace :=
  (span_append fun _ => h.isSpace).1

theorem IsCut.skipSpaces_append (h : IsCut a b) (t : Text) :
    skipSpaces (t ++ b) = skipSpaces t ++ b :=
  (span_append fun _ => h.isSpace).2

/-! ## Widths that add up -/

/-- Behind `x` the parts of a text take as much room as they do together. -/
def AddsUp (m : Text → Length) (x : Length) (text : Text) : Prop :=
  ∀ t u, t ++ u <+: text → x + m (t ++ u) = x + m t + m u

variable {m : Text → Length} {x : Length}

/-- What is behind a part adds up behind it. -/
theorem AddsUp.after (h : AddsUp m x (t ++ u)) : AddsUp m (x + m t) u := by
  intro v v' hp
  have hpart : t ++ v <+: t ++ u :=
    (List.prefix_append_right_inj t).mpr ((List.prefix_append v v').trans hp)
  have hall : t ++ (v ++ v') <+: t ++ u := (List.prefix_append_right_inj t).mpr hp
  rw [← h t (v ++ v') hall, ← h t v hpart, ← List.append_assoc, h (t ++ v) v']
  rwa [List.append_assoc]

/-! ## Layouts of a text and of its parts -/

/-- The steps for a text and those for its two parts: only the last segment of the
    first part and the first one of the second may be drawn in one. -/
inductive Joins (m : Text → Length) : List Step → List Step → List Step → Prop
  | nil (second : List Step) : Joins m [] second second
  | merged {t u : Text} {pen : Pen} {later : List Step} :
    t ≠ [] → AddsUp m pen.x (t ++ u) →
      Joins m [.segment t pen] (.segment u { pen with x := pen.x + m t } :: later)
        (.segment (t ++ u) pen :: later)
  | cons {first second steps : List Step} (step : Step) :
    Joins m first second steps → Joins m (step :: first) second (step :: steps)

variable {line : Line} {pen mid last : Pen} {first second steps : List Step}

theorem Layout.of_nil {answer : Text → Length → Prop} (h : Layout answer line [] pen steps last) :
    steps = [] ∧ last = pen := by
  cases h with
  | done => exact ⟨rfl, rfl⟩
  | segment hk hle => rw [units_nil, List.length_nil] at hle; omega
  | forced hne => exact absurd rfl hne
  | broken hne => exact absurd rfl hne

/-- A segment that ends within the first part. -/
theorem Layout.append_inside {k : Nat} (hcut : IsCut a b) (hk : 0 < k) (hlt : k < (units a).length)
    (hfits : ∀ j, 0 < j → j ≤ k → pen.x + m (firstUnits a j) ≤ line.maxWidth)
    (hmax : ¬pen.x + m (firstUnits a (k + 1)) ≤ line.maxWidth)
    (h : Layout (fun t v => v = m t) line (afterUnits a k ++ b)
      { pen with x := pen.x + m (firstUnits a k) } steps last) :
    Layout (fun t v => v = m t) line (a ++ b) pen (.segment (firstUnits a k) pen :: steps)
      last := by
  have hle := Nat.le_of_lt hlt
  rw [← hcut.firstUnits_append hle, ← hcut.afterUnits_append hle] at h
  rw [← hcut.firstUnits_append hle]
  refine .segment hk ?_ rfl (fun j hj hj' => ⟨_, rfl, ?_⟩) (.inr ⟨_, rfl, ?_⟩) h
  · rw [hcut.units_append, List.length_append]
    omega
  · rw [hcut.firstUnits_append (hj'.trans hle)]
    exact hfits j hj hj'
  · rwa [hcut.firstUnits_append hlt]

/-- Behind the first part, which fits, nothing more fits. -/
theorem Layout.append_apart (hcut : IsCut a b) (ha : a ≠ [])
    (hfits : ∀ j, 0 < j → j ≤ (units a).length → pen.x + m (firstUnits a j) ≤ line.maxWidth)
    (hmax : b = [] ∨ ¬pen.x + m (a ++ (cutUnit b).1) ≤ line.maxWidth)
    (hb : Layout (fun t v => v = m t) line b { pen with x := pen.x + m a } second last) :
    Layout (fun t v => v = m t) line (a ++ b) pen (.segment a pen :: second) last := by
  have hlen : 0 < (units a).length := List.length_pos_iff.mpr fun h => ha (units_eq_nil_iff.mp h)
  have hle : (units a).length ≤ (units (a ++ b)).length := by
    rw [hcut.units_append, List.length_append]
    omega
  have hfirst : firstUnits (a ++ b) (units a).length = a := by
    simpa [firstUnits] using hcut.firstUnits_append_add 0
  have hafter : afterUnits (a ++ b) (units a).length = b := by
    simpa using hcut.afterUnits_append_add 0
  have h : Layout (fun t v => v = m t) line (a ++ b) pen
      (.segment (firstUnits (a ++ b) (units a).length) pen :: second) last := by
    refine .segment hlen hle rfl (fun j hj hj' => ⟨_, rfl, ?_⟩) ?_ ?_
    · rw [hcut.firstUnits_append hj']
      exact hfits j hj hj'
    · refine hmax.imp (fun hb => ?_) fun hmax => ⟨_, rfl, ?_⟩
      · rw [hb, List.append_nil]
      · rwa [hcut.firstUnits_append_add, firstUnits_one]
    · rwa [hfirst, hafter]
  rwa [hfirst] at h

/-- What fits behind the first part, which fits, is drawn with it. -/
theorem Layout.append_merged {k : Nat} (hcut : IsCut a b) (hx : AddsUp m pen.x (a ++ b))
    (hfits : ∀ j, 0 < j → j ≤ (units a).length → pen.x + m (firstUnits a j) ≤ line.maxWidth)
    (hk : 0 < k) (hle : k ≤ (units b).length)
    (hfits' : ∀ j, 0 < j → j ≤ k → pen.x + m a + m (firstUnits b j) ≤ line.maxWidth)
    (hmax : k = (units b).length ∨ ¬pen.x + m a + m (firstUnits b (k + 1)) ≤ line.maxWidth)
    (hb : Layout (fun t v => v = m t) line (afterUnits b k)
      { pen with x := pen.x + m a + m (firstUnits b k) } second last) :
    Layout (fun t v => v = m t) line (a ++ b) pen (.segment (a ++ firstUnits b k) pen :: second)
      last := by
  have hadd (j : Nat) : pen.x + m (a ++ firstUnits b j) = pen.x + m a + m (firstUnits b j) :=
    hx a _ ((List.prefix_append_right_inj a).mpr ⟨_, firstUnits_append_afterUnits b j⟩)
  have hlen : (units (a ++ b)).length = (units a).length + (units b).length := by
    rw [hcut.units_append, List.length_append]
  have h : Layout (fun t v => v = m t) line (a ++ b) pen
      (.segment (firstUnits (a ++ b) ((units a).length + k)) pen :: second) last := by
    refine .segment (by omega) (by omega) rfl (fun j hj hj' => ⟨_, rfl, ?_⟩) ?_ ?_
    · by_cases hja : j ≤ (units a).length
      · rw [hcut.firstUnits_append hja]
        exact hfits j hj hja
      · obtain ⟨i, rfl⟩ := Nat.exists_eq_add_of_le (Nat.le_of_not_le hja)
        rw [hcut.firstUnits_append_add, hadd]
        exact hfits' i (by omega) (by omega)
    · refine hmax.imp (fun hk => by omega) fun hmax => ⟨_, rfl, ?_⟩
      rwa [Nat.add_assoc, hcut.firstUnits_append_add, hadd]
    · rwa [hcut.firstUnits_append_add, hcut.afterUnits_append_add, hadd]
  rwa [hcut.firstUnits_append_add] at h

/-- The first part fits, whatever the second one is. -/
theorem Layout.append_fitting (hcut : IsCut a b) (ha : a ≠ []) (hx : AddsUp m pen.x (a ++ b))
    (hfits : ∀ j, 0 < j → j ≤ (units a).length → pen.x + m (firstUnits a j) ≤ line.maxWidth)
    (hb : Layout (fun t v => v = m t) line b { pen with x := pen.x + m a } second last) :
    ∃ steps, Layout (fun t v => v = m t) line (a ++ b) pen steps last ∧
      Joins m [.segment a pen] second steps := by
  have apart (hmax : b = [] ∨ ¬pen.x + m (a ++ (cutUnit b).1) ≤ line.maxWidth) :
      ∃ steps, Layout (fun t v => v = m t) line (a ++ b) pen steps last ∧
        Joins m [.segment a pen] second steps :=
    ⟨_, hb.append_apart hcut ha hfits hmax, .cons _ (.nil second)⟩
  have hadd : pen.x + m (a ++ (cutUnit b).1) = pen.x + m a + m (cutUnit b).1 :=
    hx a _ ((List.prefix_append_right_inj a).mpr ⟨_, cutUnit_append b⟩)
  cases hb with
  | done => exact apart (.inl rfl)
  | @segment _ _ _ later k w hk hle hw hfits' hmax hlater =>
    subst hw
    refine ⟨_, hlater.append_merged hcut hx hfits hk hle (fun j hj hj' => ?_) ?_, ?_⟩
    · obtain ⟨_, rfl, hf⟩ := hfits' j hj hj'
      exact hf
    · refine hmax.imp_right ?_
      rintro ⟨_, rfl, hf⟩
      exact hf
    · have hpart : a ++ firstUnits b k <+: a ++ b :=
        (List.prefix_append_right_inj a).mpr ⟨_, firstUnits_append_afterUnits b k⟩
      exact .merged ha fun t u hp => hx t u (hp.trans hpart)
  | forced hne hxb hw hmax hlater =>
    subst hw
    exact apart (.inr (hadd ▸ hmax))
  | broken hne hxb hmax hlater =>
    obtain ⟨_, rfl, hmax⟩ := hmax
    exact apart (.inr (hadd ▸ hmax))

/-- The layouts of the parts of a text make up one of the text. -/
theorem Layout.append (hcut : IsCut a b) (hx : AddsUp m pen.x (a ++ b))
    (hbase : ∀ t, t <:+ a ++ b → AddsUp m line.baseX t)
    (ha : Layout (fun t v => v = m t) line a pen first mid)
    (hb : Layout (fun t v => v = m t) line b mid second last) :
    ∃ steps, Layout (fun t v => v = m t) line (a ++ b) pen steps last ∧
      Joins m first second steps := by
  induction ha with
  | done pen => exact ⟨second, hb, .nil second⟩
  | @segment text pen mid steps k w hk hle hw hfits hmax hlater ih =>
    subst hw
    have hfits' (j : Nat) (hj : 0 < j) (hj' : j ≤ k) :
        pen.x + m (firstUnits text j) ≤ line.maxWidth := by
      obtain ⟨_, rfl, hf⟩ := hfits j hj hj'
      exact hf
    have htext : text ≠ [] := by
      rintro rfl
      rw [units_nil, List.length_nil] at hle
      omega
    rcases Nat.lt_or_eq_of_le hle with hlt | rfl
    · -- The segment ends within the first part; the rest of the part comes before the second.
      have hparts := firstUnits_append_afterUnits text k
      have hsuffix : afterUnits text k <:+ text := ⟨_, hparts⟩
      have hx' : AddsUp m (pen.x + m (firstUnits text k)) (afterUnits text k ++ b) := by
        refine AddsUp.after ?_
        rwa [← List.append_assoc, hparts]
      obtain ⟨steps, hlayout, hjoins⟩ := ih (hcut.suffix hsuffix) hx'
        (fun t ht => hbase t (ht.trans (List.suffix_append_self_iff.mpr hsuffix))) hb
      obtain ⟨_, rfl, hexceeds⟩ := hmax.resolve_left (Nat.ne_of_lt hlt)
      exact ⟨_, Layout.append_inside hcut hk hlt hfits' hexceeds hlayout, .cons _ hjoins⟩
    · -- The first part ends here, and with it its layout.
      have hall : firstUnits text (units text).length = text := by
        rw [firstUnits, List.take_length, flatten_units]
      rw [afterUnits_eq_nil_iff.mpr (Nat.le_refl _), hall] at hlater
      obtain ⟨rfl, rfl⟩ := hlater.of_nil
      rw [hall]
      exact Layout.append_fitting hcut htext hx hfits' hb
  | @forced text pen mid steps w htext hxb hw hmax hlater ih =>
    subst hw
    have hsuffix : skipSpaces (cutUnit text).2 <:+ text :=
      (List.dropWhile_suffix _).trans ⟨_, cutUnit_append text⟩
    have hsuffix' : skipSpaces (cutUnit text).2 ++ b <:+ text ++ b :=
      List.suffix_append_self_iff.mpr hsuffix
    obtain ⟨steps, hlayout, hjoins⟩ := ih (hcut.suffix hsuffix) (hbase _ hsuffix')
      (fun t ht => hbase t (ht.trans hsuffix')) hb
    obtain ⟨hunit, hlater'⟩ := hcut.cutUnit_append htext
    refine ⟨_, ?_, .cons _ (.cons _ hjoins)⟩
    rw [← hcut.takeWhile_append, ← hunit, ← hlater']
    refine .forced (List.append_ne_nil_of_left_ne_nil htext b) hxb rfl ?_ ?_
    · rwa [hunit]
    · rwa [hlater', hcut.skipSpaces_append]
  | @broken text pen mid steps htext hxb hmax hlater ih =>
    have hsuffix : skipSpaces text <:+ text := List.dropWhile_suffix _
    have hsuffix' : skipSpaces text ++ b <:+ text ++ b :=
      List.suffix_append_self_iff.mpr hsuffix
    obtain ⟨steps, hlayout, hjoins⟩ := ih (hcut.suffix hsuffix) (hbase _ hsuffix')
      (fun t ht => hbase t (ht.trans hsuffix')) hb
    refine ⟨_, ?_, .cons _ hjoins⟩
    rw [← hcut.takeWhile_append]
    refine .broken (List.append_ne_nil_of_left_ne_nil htext b) hxb ?_ ?_
    · rwa [(hcut.cutUnit_append htext).1]
    · rwa [hcut.skipSpaces_append]

/-! ## One layout only -/

theorem Fits.not_exceeds (h : Fits (fun t v => v = m t) line x t) :
    ¬Exceeds (fun t v => v = m t) line x t := by
  obtain ⟨_, rfl, hf⟩ := h
  rintro ⟨_, rfl, hn⟩
  exact hn hf

/-- No segment has more units than one with which another unit does not fit. -/
theorem le_of_fits {text : Text} {k k' : Nat} (hle : k' ≤ (units text).length)
    (hfits : ∀ j, 0 < j → j ≤ k' → Fits (fun t v => v = m t) line x (firstUnits text j))
    (hmax : k = (units text).length ∨
      Exceeds (fun t v => v = m t) line x (firstUnits text (k + 1))) : k' ≤ k := by
  by_contra hlt
  refine (hfits (k + 1) (Nat.succ_pos k) (by omega)).not_exceeds (hmax.resolve_left ?_)
  omega

/-- When a function measures, a text has one layout from a pen. -/
theorem Layout.unique {text : Text} {steps' : List Step} {last' : Pen}
    (h : Layout (fun t v => v = m t) line text pen steps last)
    (h' : Layout (fun t v => v = m t) line text pen steps' last') :
    steps' = steps ∧ last' = last := by
  induction h generalizing steps' last' with
  | done => exact h'.of_nil
  | @segment text pen last steps k w hk hle hw hfits hmax hlater ih =>
    have hfirst : Fits (fun t v => v = m t) line pen.x (cutUnit text).1 :=
      firstUnits_one text ▸ hfits 1 Nat.one_pos hk
    subst hw
    cases h' with
    | done =>
      rw [units_nil, List.length_nil] at hle
      omega
    | @segment _ _ _ _ k' w' hk' hle' hw' hfits' hmax' hlater' =>
      obtain rfl : k' = k :=
        Nat.le_antisymm (le_of_fits hle' hfits' hmax) (le_of_fits hle hfits hmax')
      subst hw'
      obtain ⟨rfl, rfl⟩ := ih hlater'
      exact ⟨rfl, rfl⟩
    | forced _ _ hw' hmax' => exact absurd ⟨_, hw', hmax'⟩ hfirst.not_exceeds
    | broken _ _ hmax' => exact absurd hmax' hfirst.not_exceeds
  | @forced text pen last steps w htext hx hw hmax hlater ih =>
    have hfirst : Exceeds (fun t v => v = m t) line pen.x (cutUnit text).1 := ⟨w, hw, hmax⟩
    subst hw
    cases h' with
    | done => exact absurd rfl htext
    | segment hk' _ _ hfits' =>
      have hfits := firstUnits_one text ▸ hfits' 1 Nat.one_pos hk'
      exact absurd hfirst hfits.not_exceeds
    | forced _ _ hw' _ hlater' =>
      subst hw'
      obtain ⟨rfl, rfl⟩ := ih hlater'
      exact ⟨rfl, rfl⟩
    | broken _ hx' => exact absurd hx hx'
  | @broken text pen last steps htext hx hmax hlater ih =>
    cases h' with
    | done => exact absurd rfl htext
    | segment hk' _ _ hfits' =>
      have hfits := firstUnits_one text ▸ hfits' 1 Nat.one_pos hk'
      exact absurd hmax hfits.not_exceeds
    | forced _ hx' => exact absurd hx' hx
    | broken _ _ _ hlater' =>
      obtain ⟨rfl, rfl⟩ := ih hlater'
      exact ⟨rfl, rfl⟩

/-! ## Where characters stand -/

/-- The characters of a text that is drawn at a pen, each with its place. -/
def spread (w : Char → Length) : Text → Pen → List (Char × Pen)
  | [], _ => []
  | c :: t, pen => (c, pen) :: spread w t { pen with x := pen.x + w c }

/-- The characters that a call draws. -/
def drawnBy (w : Char → Length) : SurfaceCall → List (Char × Pen)
  | .fillText text x y => spread w text ⟨x, y⟩
  | _ => []

/-- The characters that calls draw, each with its place, in order. -/
def characters (w : Char → Length) (calls : List SurfaceCall) : List (Char × Pen) :=
  calls.flatMap (drawnBy w)

variable {w : Char → Length}

theorem characters_append (calls later : List SurfaceCall) :
    characters w (calls ++ later) = characters w calls ++ characters w later := List.flatMap_append

theorem spread_append (t u : Text) (pen : Pen) :
    spread w (t ++ u) pen =
      spread w t pen ++ spread w u { pen with x := (t.map w).foldl (· + ·) pen.x } := by
  induction t generalizing pen with
  | nil => rfl
  | cons c t ih => rw [List.cons_append, spread, ih]; rfl

theorem add_widthOf_singleton (x : Length) (c : Char) : x + widthOf w [c] = x + w c := by
  have hlo := (w c).neg_bound_le_thousandths
  have hhi := (w c).thousandths_le_bound
  have hc : (widthOf w [c]).thousandths = (w c).thousandths := by
    rw [show widthOf w [c] = 0 + w c from rfl, Length.thousandths_add, Length.thousandths_zero]
    omega
  rw [Length.add_def, hc, Length.add_def]

/-- The characters of a text end where the text does. -/
theorem AddsUp.foldl_eq (h : AddsUp (widthOf w) x t) (ht : t ≠ []) :
    (t.map w).foldl (· + ·) x = x + widthOf w t := by
  induction t using List.reverseRecOn with
  | nil => exact absurd rfl ht
  | append_singleton t c ih =>
    by_cases hne : t = []
    · subst hne
      exact (add_widthOf_singleton x c).symm
    · have ht := ih (fun u v hp => h u v (hp.trans (List.prefix_append t [c]))) hne
      rw [h t [c] List.prefix_rfl, add_widthOf_singleton, ← ht, List.map_append, List.foldl_append]
      rfl

/-- Two segments drawn in one have their characters where they had them. -/
theorem Joins.characters_eq (h : Joins (widthOf w) first second steps) :
    characters w (fills steps) = characters w (fills first) ++ characters w (fills second) := by
  induction h with
  | nil => rfl
  | @merged t u pen later ht hadds =>
    have hx : (t.map w).foldl (· + ·) pen.x = pen.x + widthOf w t :=
      AddsUp.foldl_eq (fun v v' hp => hadds v v' (hp.trans (List.prefix_append t u))) ht
    simp [fills, Step.fill?, characters, drawnBy, spread_append, hx]
  | @cons first second steps step _ ih =>
    have hcons (steps : List Step) :
        characters w (fills (step :: steps)) =
          characters w (fills [step]) ++ characters w (fills steps) := by
      rw [← characters_append, ← fills_append, List.singleton_append]
    rw [hcons steps, ih, hcons first, List.append_assoc]

/-- Whatever is counted apart from segments is the same. -/
theorem Joins.countP_eq (h : Joins m first second steps) {p : Step → Bool}
    (hp : ∀ text pen, p (.segment text pen) = false) :
    steps.countP p = first.countP p + second.countP p := by
  induction h with
  | nil => simp
  | merged => simp [hp]
  | cons step _ ih => simp [List.countP_cons, ih]; omega

/-! ## Lengths that are not clipped -/

/-- No length is clipped when a text is wrapped: no part of it is too wide to be
    measured; and if widths may be negative, no place is out of range, behind the
    pen or behind the start of a line. -/
structure Unclipped (w : Char → Length) (line : Line) (pen : Pen) (text : Text) : Prop where
  measured : ∀ t, t <:+: text → ((extentOf w t).natAbs : Int) ≤ Length.bound
  placed : (∀ c, 0 ≤ w c) ∨
    (∀ t, t <+: text → ((pen.x.thousandths + extentOf w t).natAbs : Int) ≤ Length.bound) ∧
    ∀ t, t <:+: text → ((line.baseX.thousandths + extentOf w t).natAbs : Int) ≤ Length.bound

/-- The width of a text that is not too wide is its exact width. -/
theorem thousandths_widthOf
    (h : ∀ u, u <+: t → ((extentOf w u).natAbs : Int) ≤ Length.bound) :
    (widthOf w t).thousandths = extentOf w t := by
  induction t using List.reverseRecOn with
  | nil => exact Length.thousandths_zero
  | append_singleton t c ih =>
    have hall := h (t ++ [c]) List.prefix_rfl
    have hc : extentOf w [c] = (w c).thousandths := Int.add_zero _
    have hsum : widthOf w (t ++ [c]) = widthOf w t + w c := by
      simp [widthOf, Length.sum, List.foldl_append]
    have ht := ih fun u hu => h u (hu.trans (List.prefix_append t [c]))
    rw [extentOf_append, hc] at hall ⊢
    rw [hsum, Length.thousandths_add, ht]
    omega

/-- Behind a place that no part leads out of range, widths add up. -/
theorem addsUp_of_natAbs_le {text : Text}
    (hm : ∀ t, t <:+: text → ((extentOf w t).natAbs : Int) ≤ Length.bound)
    (hx : ∀ t, t <+: text → ((x.thousandths + extentOf w t).natAbs : Int) ≤ Length.bound) :
    AddsUp (widthOf w) x text := by
  intro t u hp
  have ht : t <+: text := (List.prefix_append t u).trans hp
  have hu : u <:+: text := (List.suffix_append t u).isInfix.trans hp.isInfix
  have hwidth {v : Text} (hv : v <:+: text) : (widthOf w v).thousandths = extentOf w v :=
    thousandths_widthOf fun v' hv' => hm v' (hv'.isInfix.trans hv)
  have hplace := hx t ht
  have hsum : (x + widthOf w t).thousandths = x.thousandths + extentOf w t := by
    rw [Length.thousandths_add, hwidth ht.isInfix]
    omega
  rw [Length.add_def, Length.add_def (x + widthOf w t), hsum, hwidth hp.isInfix, hwidth hu,
    extentOf_append, Int.add_assoc]

/-- Widths that are not negative add up everywhere. -/
theorem addsUp_of_nonneg (hw : ∀ c, 0 ≤ w c) {text : Text}
    (hm : ∀ t, t <:+: text → ((extentOf w t).natAbs : Int) ≤ Length.bound) (x : Length) :
    AddsUp (widthOf w) x text := by
  intro t u hp
  have h := hm _ hp.isInfix
  exact add_widthOf_append hw x (by omega)

theorem Unclipped.addsUp_pen {text : Text} (h : Unclipped w line pen text) :
    AddsUp (widthOf w) pen.x text :=
  h.placed.elim (fun hw => addsUp_of_nonneg hw h.measured _) fun hp =>
    addsUp_of_natAbs_le h.measured hp.1

theorem Unclipped.addsUp_base {text : Text} (h : Unclipped w line pen text) (hs : t <:+ text) :
    AddsUp (widthOf w) line.baseX t := by
  have hm := fun v (hv : v <:+: t) => h.measured v (hv.trans hs.isInfix)
  exact h.placed.elim (fun hw => addsUp_of_nonneg hw hm _) fun hp =>
    addsUp_of_natAbs_le hm fun v hv => hp.2 v (hv.isInfix.trans hs.isInfix)

theorem natAbs_extentOf_le {k : Nat} (hw : ∀ c, (w c).thousandths.natAbs ≤ k) (t : Text) :
    (extentOf w t).natAbs ≤ k * t.length := by
  induction t with
  | nil => exact Nat.zero_le _
  | cons c t ih =>
    have hc := hw c
    have ht : extentOf w (c :: t) = (w c).thousandths + extentOf w t := rfl
    rw [ht, List.length_cons, Nat.mul_succ]
    omega

/-- A short text is not clipped. -/
theorem unclipped_of_length {k : Nat} {text : Text} (hw : ∀ c, (w c).thousandths.natAbs ≤ k)
    (hx : ((pen.x.thousandths.natAbs + k * text.length : Nat) : Int) ≤ Length.bound)
    (hbase : ((line.baseX.thousandths.natAbs + k * text.length : Nat) : Int) ≤ Length.bound) :
    Unclipped w line pen text := by
  have hwidth {t : Text} (ht : t <:+: text) : (extentOf w t).natAbs ≤ k * text.length :=
    (natAbs_extentOf_le hw t).trans (Nat.mul_le_mul_left k ht.length_le)
  constructor
  · intro t ht
    have := hwidth ht
    omega
  · refine .inr ⟨fun t ht => ?_, fun t ht => ?_⟩
    · have := hwidth ht.isInfix
      omega
    · have := hwidth ht
      omega

/-! ## Drawing in two parts -/

variable {σ : Type} [Surface σ] {s : σ}

/-- Drawing a text in two parts, with the pen and the surface left by the first one,
    is drawing it at once: the pen ends at the same place, as many lines are broken
    and as many units are forced, and the same characters are drawn at the same
    places. -/
theorem wrap_append (hs : Surface.IsPure (widthOf w) s) (hcut : IsCut a b)
    (h : Unclipped w line pen (a ++ b)) (calls : List SurfaceCall) :
    let whole := wrap line (a ++ b) pen (⟨s, calls⟩ : Traced σ)
    let first := wrap line a pen (⟨s, calls⟩ : Traced σ)
    let second := wrap line b first.pen first.surface
    second.pen = whole.pen ∧
      breaks first.steps + breaks second.steps = breaks whole.steps ∧
      first.steps.countP Step.isForced + second.steps.countP Step.isForced =
        whole.steps.countP Step.isForced ∧
      characters w second.surface.calls = characters w whole.surface.calls := by
  intro whole first second
  have hwhole : whole = (wrap line (a ++ b) pen s).traced calls := wrap_traced ..
  have hfirst : first = (wrap line a pen s).traced calls := wrap_traced ..
  have hsecond : second = (wrap line b (wrap line a pen s).pen (wrap line a pen s).surface).traced
      (calls ++ fills (wrap line a pen s).steps) := by
    simp only [second, hfirst]
    exact wrap_traced ..
  obtain ⟨steps, hlayout, hjoins⟩ := Layout.append hcut h.addsUp_pen (fun _ ht => h.addsUp_base ht)
    (layout_wrap line a pen hs) (layout_wrap line b _ (answers_wrap hs line a pen))
  obtain ⟨rfl, hpen⟩ := (layout_wrap line (a ++ b) pen hs).unique hlayout
  rw [hsecond, hfirst, hwhole]
  refine ⟨hpen, ?_, ?_, ?_⟩
  · exact (hjoins.countP_eq fun _ _ => rfl).symm
  · exact (hjoins.countP_eq fun _ _ => rfl).symm
  · simp only [Wrapped.traced, characters_append, hjoins.characters_eq, List.append_assoc]

/-- Case: a word and a hyphen, and what comes behind them on lines of four pixels. A
    tilde goes back by a pixel. -/
theorem wrap_append_pixel :
    let w : Char → Length := fun c => if c = '~' then .ofPixels (-1) else .ofPixels 1
    let r : Recorder := { width := widthOf w }
    let line : Line := ⟨0, .ofPixels 4, .ofPixels 1⟩
    let a : Text := ['a', 'b', '-']
    let b : Text := ['c', '~', ' ', 'd', 'e', 'f', 'g', 'h']
    let whole := wrap line (a ++ b) ⟨0, 0⟩ (⟨r, []⟩ : Traced Recorder)
    let first := wrap line a ⟨0, 0⟩ (⟨r, []⟩ : Traced Recorder)
    let second := wrap line b first.pen first.surface
    Surface.IsPure (widthOf w) r ∧ IsCut a b ∧ Unclipped w line ⟨0, 0⟩ (a ++ b) ∧
      second.pen = whole.pen ∧
      breaks first.steps + breaks second.steps = breaks whole.steps ∧
      first.steps.countP Step.isForced + second.steps.countP Step.isForced =
        whole.steps.countP Step.isForced ∧
      characters w second.surface.calls = characters w whole.surface.calls := by
  intro w r line a b
  have hs : Surface.IsPure (widthOf w) r := r.isPure
  have hcut : IsCut a b := by
    constructor
    · rintro _ ⟨⟩ _ -
      exact .inl rfl
    · rintro _ ⟨⟩
      rfl
  have hw : ∀ c, (w c).thousandths.natAbs ≤ 1000 := by
    intro c
    by_cases hc : c = '~'
    · simp only [w, if_pos hc]
      decide
    · simp only [w, if_neg hc]
      decide
  have h : Unclipped w line ⟨0, 0⟩ (a ++ b) := unclipped_of_length hw (by decide) (by decide)
  exact ⟨hs, hcut, h, wrap_append hs hcut h []⟩

end Wrap

end Lettering
