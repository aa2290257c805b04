import Lettering.Proofs.Single.Order
import Lettering.Proofs.Style.FontPart

/-!
# Splitting a style

A style is split entry by entry: one whose name starts with `font` changes a
field of the font, which is there from the first such entry on (`Font.assign`),
and every other one is kept (`Parts.next`). The font that comes out is the one
that is read off the entries at once (`Parts.font_of`), each field off its own
property. So it is the same in whatever order the entries come
(`Font.ofRules_eq_of_perm`).
-/

namespace Lettering

namespace Font

/-! ## The font, field by field -/

theorem isFontKey_iff {name : String} : isFontKey name ↔ ∃ rest, name = "font" ++ rest := by
  rw [isFontKey, List.isPrefixOf_iff_prefix]
  constructor
  · rintro ⟨rest, h⟩
    exact ⟨String.ofList rest, String.toList_inj.mp (by simp [← h])⟩
  · rintro ⟨rest, rfl⟩
    exact ⟨rest.toList, by simp⟩

/-- The font with the field of a property given by its value; any other property
    changes nothing. -/
def assign (font : Font) (name : String) (value : StyleValue) : Font :=
  if name = "fontStyle" then { font with style := value.displayOr "normal" }
  else if name = "fontWeight" then { font with weight := weightOf value }
  else if name = "fontSize" then { font with size := sizeOf value }
  else if name = "fontFamily" then { font with family := value.displayOr "sans-serif" }
  else font

/-- The font with each field read off its own property. -/
def read (rules : Rules) : Font where
  style := (rules.get? "fontStyle").elim "normal" (·.displayOr "normal")
  weight := (rules.get? "fontWeight").elim "400" weightOf
  size := (rules.get? "fontSize").elim (Single.ofInt 10) sizeOf
  family := (rules.get? "fontFamily").elim "sans-serif" (·.displayOr "sans-serif")

variable (rules : Rules)

theorem ofRules_eq :
    ofRules rules = if rules.keys.any isFontKey then some (read rules) else none := by
  have helim {α : Type} (value : Option StyleValue) (default : α) (field : StyleValue → α) :
      value.elim default field = (value.map field).getD default := by cases value <;> rfl
  simp only [ofRules, read, helim]

/-- Without properties of the font, all of its fields are the defaults. -/
theorem getD_ofRules : (ofRules rules).getD {} = read rules := by
  rw [ofRules_eq]
  split
  · rfl
  · rename_i hany
    have hnone (name : String) (hname : isFontKey name) : rules.get? name = none :=
      KeyedList.get?_eq_none_of_not_mem fun hmem =>
        hany (List.any_eq_true.mpr ⟨name, hmem, hname⟩)
    rw [read, hnone "fontStyle" (by decide), hnone "fontWeight" (by decide),
      hnone "fontSize" (by decide), hnone "fontFamily" (by decide)]
    rfl

theorem read_set (name : String) (value : StyleValue) :
    read (rules.set name value) = (read rules).assign name value := by
  simp only [read, assign, KeyedList.get?_set]
  -- at most one of the four names is the one assigned to
  split_ifs <;> first | subst name; contradiction | rfl

/-- A property of the font changes its field, and makes a font if there is none. -/
theorem ofRules_set (name : String) (value : StyleValue) :
    ofRules (rules.set name value) =
      if isFontKey name then some (((ofRules rules).getD {}).assign name value)
      else ofRules rules := by
  split
  · rename_i hname
    have hany : (rules.set name value).keys.any isFontKey :=
      List.any_eq_true.mpr ⟨name, rules.mem_keys_set name value, hname⟩
    rw [ofRules_eq (rules.set name value), if_pos hany, read_set, getD_ofRules]
  · rename_i hname
    rw [← ofRules_fontPart, Rules.fontPart, KeyedList.filterKeys_set, if_neg hname]
    exact ofRules_fontPart rules

/-- The font is the same in whatever order the properties come. -/
theorem ofRules_eq_of_perm {rules rules' : Rules} (h : rules'.entries.Perm rules.entries) :
    ofRules rules' = ofRules rules := by
  have hany : rules'.keys.any isFontKey = rules.keys.any isFontKey := (h.map Prod.fst).any_eq
  simp only [ofRules_eq, read, hany, KeyedList.get?_eq_of_perm h]

/-! ## Sizes -/

theorem isFinite_default : (Single.ofInt 10).isFinite := by decide

theorem isFinite_sizeOf (value : StyleValue) : (sizeOf value).isFinite := by
  have hkept (requested : Option Single) :
      ((requested.filter fun x => x.isFinite && Single.zero.numLt x).getD
        (Single.ofInt 10)).isFinite := by
    cases hsize : requested.filter fun x => x.isFinite && Single.zero.numLt x with
    | none => exact isFinite_default
    | some size => exact (Bool.and_eq_true_iff.mp (Option.filter_eq_some_iff.mp hsize).2).1
  exact hkept _

theorem isFinite_size_read : (read rules).size.isFinite := by
  show ((rules.get? "fontSize").elim (Single.ofInt 10) sizeOf).isFinite
  cases rules.get? "fontSize" with
  | none => exact isFinite_default
  | some value => exact isFinite_sizeOf value

/-- A font of a finite size equals itself. -/
theorem numEq_self {font : Font} (h : font.size.isFinite) : font.numEq font := by
  have hsize : font.size.numEq font.size :=
    Single.numEq_self_iff.mpr (Single.isNaN_of_isFinite h)
  simp [numEq, hsize]

end Font

/-! ## Entry by entry -/

/-- A style that is being split: the font, from the first entry on that belongs to
    it, and the other entries in order. -/
structure Parts where
  font : Option Font := none
  properties : List (String × StyleValue) := []

namespace Parts

/-- What one more entry leads to. -/
def next (parts : Parts) (entry : String × StyleValue) : Parts :=
  if Font.isFontKey entry.1 then
    { parts with font := some ((parts.font.getD {}).assign entry.1 entry.2) }
  else { parts with properties := parts.properties ++ [entry] }

/-- What the entries lead to, one after the other. -/
def of (entries : List (String × StyleValue)) : Parts := entries.foldl next {}

theorem of_append_singleton (entries : List (String × StyleValue)) (entry : String × StyleValue) :
    of (entries ++ [entry]) = (of entries).next entry := by
  rw [of, List.foldl_append]
  rfl

/-- Entry by entry, the font comes out that is read off all of them at once, even
    if names are repeated. -/
theorem font_of (entries : List (String × StyleValue)) :
    (of entries).font = Font.ofRules (.ofList entries) := by
  induction entries using List.reverseRecOn with
  | nil => rfl
  | append_singleton entries entry ih =>
    rw [of_append_singleton, KeyedList.ofList_append_singleton, Font.ofRules_set, ← ih, next]
    split <;> rfl

theorem properties_of (entries : List (String × StyleValue)) :
    (of entries).properties = entries.filter fun e => !Font.isFontKey e.1 := by
  induction entries using List.reverseRecOn with
  | nil => rfl
  | append_singleton entries entry ih =>
    rw [of_append_singleton, List.filter_append, ← ih, next]
    split
    · rename_i hfont
      rw [List.filter_cons_of_neg (by simp [hfont]), List.filter_nil, List.append_nil]
    · rename_i hfont
      rw [List.filter_cons_of_pos (by simp [hfont]), List.filter_nil]

end Parts

namespace Rules

variable (rules : Rules)

theorem font_split_parts : rules.split.font = (Parts.of rules.entries).font := by
  rw [Parts.font_of, KeyedList.ofList_entries]
  rfl

theorem properties_split_parts :
    rules.split.properties.entries = (Parts.of rules.entries).properties :=
  (Parts.properties_of rules.entries).symm

/-- Splitting a style entry by entry sorts out the properties whose names do not
    start with `font`: they are kept in order, each once. There is a font if a name
    is left, and whatever order the entries come in, it is the same one: each field
    follows its own property, or is the default if that is absent. -/
theorem split_entrywise :
    let split := rules.split
    split.font = (Parts.of rules.entries).font ∧
      split.properties.entries = (Parts.of rules.entries).properties ∧
      (∀ name, Font.isFontKey name ↔ ∃ rest, name = "font" ++ rest) ∧
      split.properties.entries = rules.entries.filter (fun e => !Font.isFontKey e.1) ∧
      split.properties.keys.Nodup ∧
      (split.font.isSome ↔ ∃ name ∈ rules.keys, Font.isFontKey name) ∧
      (∀ other : Rules, other.entries.Perm rules.entries →
        other.split.font = split.font ∧
          other.split.properties.entries.Perm split.properties.entries) ∧
      ∀ font, split.font = some font →
        font.numEq font ∧
          font.style = (rules.get? "fontStyle").elim "normal" (·.displayOr "normal") ∧
          font.weight = (rules.get? "fontWeight").elim "400" Font.weightOf ∧
          font.size = (rules.get? "fontSize").elim (Single.ofInt 10) Font.sizeOf ∧
          font.family = (rules.get? "fontFamily").elim "sans-serif" (·.displayOr "sans-serif") := by
  intro split
  have hfont : split.font =
      if rules.keys.any Font.isFontKey then some (Font.read rules) else none :=
    Font.ofRules_eq rules
  refine ⟨rules.font_split_parts, rules.properties_split_parts, fun _ => Font.isFontKey_iff, rfl,
    split.properties.keys_nodup, ?_, fun other h => ⟨Font.ofRules_eq_of_perm h, h.filter _⟩, ?_⟩
  · rw [hfont, ← List.any_eq_true]
    cases rules.keys.any Font.isFontKey <;> simp
  · intro font hsome
    rw [hfont] at hsome
    obtain ⟨-, hread⟩ := Option.ite_none_right_eq_some.mp hsome
    obtain rfl := Option.some.inj hread
    exact ⟨Font.numEq_self (Font.isFinite_size_read rules), rfl, rfl, rfl, rfl⟩

end Rules

end Lettering
