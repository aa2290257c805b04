import Lettering.Color
import Lettering.Proofs.Color.Hexadecimal
import Lettering.Proofs.Single.Ranges
import Lettering.Proofs.Single.Reading

/-!
# The parts of a colour

The channels and the alpha of a colour that is read are numbers from 0 to 1: they
come from bytes, or are written as numbers and clamped, the channels before they
are divided by 255. But clamping leaves alone what is not a number, which the
word `nan` writes (`parse?_inUnit`), so that there are colours with a channel
that is not a number (`parse?_nan`).
-/

namespace Lettering

namespace Color

open Single (InUnit WritesNaN)

variable {color : Color} {alpha x : Single} {t : Text}

/-- The channels of a colour and its alpha. -/
def components (color : Color) (alpha : Single) : List Single :=
  [color.red, color.green, color.blue, alpha]

/-- The texts between the commas of the functional form; in other forms there are none. -/
def argumentsOf (raw : Text) : List Text :=
  ((arguments? (Text.lower (Text.trim raw))).map fun inner =>
    (inner.splitOn ',').map Text.trim).getD []

/-- What a part of a colour is, if it is read from a text or from none: a number from 0 to 1,
    unless the text writes what is not a number. -/
inductive PartOf : Option Text → Single → Prop
  | nan {t : Text} {x : Single} : WritesNaN t → x.isNaN → PartOf (some t) x
  | unit {t : Option Text} {x : Single} : (∀ u ∈ t, ¬WritesNaN u) → InUnit x → PartOf t x

theorem PartOf.inUnit_iff {t : Option Text} (h : PartOf t x) :
    InUnit x ↔ ∀ u ∈ t, ¬WritesNaN u := by
  cases h with
  | nan hw hx =>
    refine ⟨fun hunit => ?_, fun hnone => absurd hw (hnone _ rfl)⟩
    rw [hunit.isNaN_eq_false] at hx
    cases hx
  | unit hw hx => exact iff_of_true hx hw

/-! ## Numbers that are written -/

/-- What is made of a number that a text writes, if numbers are taken to numbers from 0 to 1
    and what is not a number stays so. -/
theorem partOf_ofText? {f : Single → Single} (hnan : ∀ y, y.isNaN → (f y).isNaN)
    (hunit : ∀ y, y.isNaN = false → InUnit (f y)) (h : (Single.ofText? t).map f = some x) :
    PartOf (some t) x := by
  obtain ⟨y, hy, rfl⟩ := Option.map_eq_some_iff.mp h
  have hword := Single.isNaN_of_ofText? hy
  cases hy' : y.isNaN with
  | true => exact .nan (hword.mp hy') (hnan y hy')
  | false =>
    refine .unit ?_ (hunit y hy')
    rintro u ⟨⟩ hu
    rw [hword.mpr hu] at hy'
    cases hy'

theorem partOf_channel? (h : channel? t = some x) : PartOf (some t) x := by
  have hclamp (y : Single) : (y.clamp .zero (.ofInt 255)).isNaN = y.isNaN :=
    Single.isNaN_clamp (by decide) (by decide)
  refine partOf_ofText? (fun y hy => Single.isNaN_div ((hclamp y).trans hy) _) (fun y hy => ?_) h
  have hrange : Single.zero.numLe (.ofInt 255) := by decide
  obtain ⟨hlo, hhi⟩ := Single.clamp_mem hy hrange
  exact Single.inUnit_div hlo hhi (by decide) (by decide)

theorem partOf_alpha? (h : alpha? t = some x) : PartOf (some t) x := by
  have hclamp (y : Single) : (y.clamp .zero .one).isNaN = y.isNaN :=
    Single.isNaN_clamp (by decide) (by decide)
  exact partOf_ofText? (fun y hy => (hclamp y).trans hy)
    (fun y hy => Single.clamp_mem hy (by decide)) h

/-! ## The parts in order -/

/-- Each part of a colour is what it may be, if it is read from the text in its place. -/
def PartsOf (texts : List Text) (color : Color) (alpha : Single) : Prop :=
  ∀ (i : Nat) x, (components color alpha)[i]? = some x → PartOf texts[i]? x

theorem inUnit_one : InUnit .one := by decide

theorem inUnit_zero : InUnit .zero := by decide

theorem inUnit_ofByte {n : Nat} (h : n < 256) : InUnit (ofByte n) := by
  obtain ⟨hlo, hhi⟩ := Single.numLe_ofInt (Nat.le_of_lt_succ h) (by decide)
  exact Single.inUnit_div hlo hhi (by decide) (by decide)

/-- A part is one of four. -/
theorem partsOf_iff {texts : List Text} :
    PartsOf texts color alpha ↔ PartOf texts[0]? color.red ∧ PartOf texts[1]? color.green ∧
      PartOf texts[2]? color.blue ∧ PartOf texts[3]? alpha := by
  constructor
  · intro h
    exact ⟨h 0 _ rfl, h 1 _ rfl, h 2 _ rfl, h 3 _ rfl⟩
  · rintro ⟨hr, hg, hb, ha⟩ i x hx
    match i, hx with
    | 0, rfl => exact hr
    | 1, rfl => exact hg
    | 2, rfl => exact hb
    | 3, rfl => exact ha

/-- Numbers from 0 to 1 that are read from no text. -/
theorem partsOf_nil (hr : InUnit color.red) (hg : InUnit color.green) (hb : InUnit color.blue)
    (ha : InUnit alpha) : PartsOf [] color alpha :=
  partsOf_iff.mpr ⟨.unit nofun hr, .unit nofun hg, .unit nofun hb, .unit nofun ha⟩

theorem partsOf_ofArguments? {texts : List Text} (h : ofArguments? texts = some (color, alpha)) :
    texts.length ≤ 4 ∧ PartsOf texts color alpha := by
  unfold ofArguments? at h
  split at h
  · simp only [Option.bind_eq_bind, Option.bind_eq_some_iff, Option.some.injEq] at h
    obtain ⟨r, hr, g, hg, b, hb, h⟩ := h
    cases h
    exact ⟨Nat.le_of_ble_eq_true rfl, partsOf_iff.mpr ⟨partOf_channel? hr, partOf_channel? hg,
      partOf_channel? hb, .unit nofun inUnit_one⟩⟩
  · simp only [Option.bind_eq_bind, Option.bind_eq_some_iff, Option.some.injEq] at h
    obtain ⟨r, hr, g, hg, b, hb, a, ha, h⟩ := h
    cases h
    exact ⟨Nat.le_of_ble_eq_true rfl, partsOf_iff.mpr ⟨partOf_channel? hr, partOf_channel? hg,
      partOf_channel? hb, partOf_alpha? ha⟩⟩
  · cases h

/-! ## The other forms -/

theorem WritesByte.lt {c d : Char} {n : Nat} (h : WritesByte c d n) : n < 256 := by
  cases h with
  | digits hc hd =>
    have := hc.1
    have := hd.1
    omega
  | plus hd => exact Nat.lt_trans hd.1 (by decide)

theorem WritesBytes.lt {l m n : Nat} (h : WritesBytes t l m n) : l < 256 ∧ m < 256 ∧ n < 256 := by
  cases h with
  | short hr hg hb => exact ⟨hr.lt, hg.lt, hb.lt⟩
  | long hr hg hb => exact ⟨hr.lt, hg.lt, hb.lt⟩

theorem partsOf_ofHex? (h : ofHex? t = some color) : PartsOf [] color .one := by
  obtain ⟨l, m, n, hw, rfl⟩ := ofHex?_eq_some_iff.mp h
  obtain ⟨hl, hm, hn⟩ := hw.lt
  exact partsOf_nil (inUnit_ofByte hl) (inUnit_ofByte hm) (inUnit_ofByte hn) inUnit_one

theorem partsOf_named? (h : named? t = some (color, alpha)) : PartsOf [] color alpha := by
  have hzero := inUnit_zero
  have hone := inUnit_one
  have hhalf : InUnit (ofByte 128) := inUnit_ofByte (by decide)
  unfold named? at h
  split_ifs at h <;> cases h <;> apply partsOf_nil <;>
    simp only [black, hzero, hone, hhalf]

/-- No colour in the functional form has a name. -/
theorem arguments?_eq_none (h : (named? t).isSome) : arguments? t = none := by
  have hname (u : Text) : named? ('r' :: 'g' :: 'b' :: u) = none := by simp [named?]
  have hafter (u : Text) : Text.after? ('r' :: 'g' :: 'b' :: u) t = none := by
    refine Option.eq_none_iff_forall_ne_some.mpr fun rest hrest => ?_
    rw [Text.after?_eq_some_iff.mp hrest] at h
    simp [hname] at h
  have hboth : (Text.after? "rgba(".toList t).or (Text.after? "rgb(".toList t) = none := by
    rw [show Text.after? "rgba(".toList t = none from hafter _,
      show Text.after? "rgb(".toList t = none from hafter _]
    rfl
  rw [arguments?, hboth]
  rfl

/-- Each part of a colour that is read is what the argument in its place is read as. -/
theorem partsOf_parse? {raw : Text} (h : parse? raw = some (color, alpha)) :
    (argumentsOf raw).length ≤ 4 ∧ PartsOf (argumentsOf raw) color alpha := by
  unfold parse? at h
  split at h
  · cases h
  · -- The functional form does not start with a number sign.
    rename_i digits htrim
    have hnone : argumentsOf raw = [] := by
      rw [argumentsOf, htrim]
      rfl
    obtain ⟨c, hc, hcolor⟩ := Option.map_eq_some_iff.mp h
    cases hcolor
    rw [hnone]
    exact ⟨Nat.zero_le _, partsOf_ofHex? hc⟩
  · rename_i htrim _
    rw [argumentsOf]
    generalize Text.lower (Text.trim raw) = t at h ⊢
    cases hnamed : named? t with
    | some named =>
      obtain rfl : named = (color, alpha) := by simpa [hnamed] using h
      rw [arguments?_eq_none (by rw [hnamed]; rfl)]
      exact ⟨Nat.zero_le _, partsOf_named? hnamed⟩
    | none =>
      simp only [hnamed, Option.none_or] at h
      obtain ⟨inner, hinner, h⟩ := Option.bind_eq_some_iff.mp h
      rw [hinner]
      exact partsOf_ofArguments? h

/-- Each part of a colour that is read is a number from 0 to 1, unless the argument in its
    place writes what is not a number; then it is not a number either. So all the parts are
    numbers from 0 to 1 just where no argument writes `nan`. -/
theorem parse?_inUnit {raw : Text} (h : parse? raw = some (color, alpha)) :
    PartsOf (argumentsOf raw) color alpha ∧
      ((∀ x ∈ components color alpha, InUnit x) ↔ ∀ t ∈ argumentsOf raw, ¬WritesNaN t) := by
  obtain ⟨hlength, hparts⟩ := partsOf_parse? h
  refine ⟨hparts, fun hunit t ht => ?_, fun hnone x hx => ?_⟩
  · -- There is a part for every argument.
    obtain ⟨i, hi, hget⟩ := List.getElem_of_mem ht
    have hpart : i < (components color alpha).length := Nat.lt_of_lt_of_le hi hlength
    refine (hparts i _ (List.getElem?_eq_getElem hpart)).inUnit_iff.mp
      (hunit _ (List.getElem_mem hpart)) t ?_
    rw [← hget]
    exact List.getElem?_eq_getElem hi
  · obtain ⟨i, hi⟩ := List.mem_iff_getElem?.mp hx
    exact (hparts i x hi).inUnit_iff.mpr fun t ht => hnone t (List.mem_of_getElem? ht)

/-- Case: numbers beyond the range at both of its ends. -/
theorem parse?_inUnit_beyond :
    parse? "rgba(1e9, -inf, 51, 2)".toList = some (⟨.one, .zero, ofByte 51⟩, .one) ∧
      ∀ x ∈ components ⟨.one, .zero, ofByte 51⟩ .one, InUnit x := by
  have hparse : parse? "rgba(1e9, -inf, 51, 2)".toList =
      some (⟨.one, .zero, ofByte 51⟩, .one) := by decide +kernel
  have hargs : ∀ t ∈ argumentsOf "rgba(1e9, -inf, 51, 2)".toList, ¬WritesNaN t := by
    decide +kernel
  exact ⟨hparse, (parse?_inUnit hparse).2.mpr hargs⟩

/-- A channel that is not a number is left alone by the clamping; the colour does not even equal
    itself. -/
theorem parse?_nan :
    parse? "rgb(nan,0,0)".toList = some (⟨.nan, .zero, .zero⟩, .one) ∧
      ¬InUnit .nan ∧ ¬(⟨.nan, .zero, .zero⟩ : Color).numEq ⟨.nan, .zero, .zero⟩ := by
  decide +kernel

end Color

end Lettering
