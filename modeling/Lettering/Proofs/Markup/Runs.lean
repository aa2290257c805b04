import Lettering.Markup.Parser
import Lettering.Proofs.Markup.Occurrence

/-!
# Runs

The runs of a text are its gaps, the pieces of text between its tags, in the
order of the text: reading a text into its content and listing the runs of that
content loses no character, and brings none out of its place.

What well-nested tokens hold is a relation with one case for each kind of token
(`Reads`), and statements on the content of a text follow by induction on it.

* `reads_of_parse`: a text that has a content has the one its tokens hold.
* `runs_of_parse`: the texts of the runs are the gaps that are not empty.
-/

namespace Lettering

namespace Markup

/-! ## What tokens hold -/

/-- While the elements `opened`, innermost first, are open, the tokens hold the
    rest of the innermost one, and then what follows each open element. -/
inductive Reads : List String → List Token → Content → List Content → Prop
  | done : Reads [] [] .nil []
  | text {opened : List String} {ts : List Token} {here : Content} {outer : List Content}
    (piece : Text) : Reads opened ts here outer →
      Reads opened (.text piece :: ts) (.text piece here) outer
  | opening {opened : List String} {ts : List Token} {inner next : Content}
    {outer : List Content} (name : String) : Reads (name :: opened) ts inner (next :: outer) →
      Reads opened (.tag (.opening name) :: ts) (.element name inner next) outer
  | closing {opened : List String} {ts : List Token} {here : Content} {outer : List Content}
    (name : String) : Reads opened ts here outer →
      Reads (name :: opened) (.tag (.closing name) :: ts) .nil (here :: outer)

theorem bind_eq_ok {ε α β : Type} {x : Except ε α} {f : α → Except ε β} {b : β}
    (h : x >>= f = .ok b) : ∃ a, x = .ok a ∧ f a = .ok b := by
  cases x with
  | error e => cases h
  | ok a => exact ⟨a, rfl, h⟩

theorem reads_of_assemble {opened : List String} {ts : List Token} {c : Content}
    {outer : List Content} (h : assemble opened ts = .ok (c, outer)) : Reads opened ts c outer := by
  fun_induction assemble opened ts generalizing c outer with
  | case1 =>
    cases h
    exact .done
  | case2 => cases h
  | case3 opened piece rest ih =>
    obtain ⟨⟨here, outer'⟩, hr, he⟩ := bind_eq_ok h
    cases he
    exact .text piece (ih hr)
  | case4 opened name rest ih =>
    obtain ⟨⟨inner, outer'⟩, hr, he⟩ := bind_eq_ok h
    cases outer' with
    | nil => exact absurd (length_of_assemble hr) (by simp)
    | cons next outer' =>
      cases he
      exact .opening name (ih hr)
  | case5 => cases h
  | case6 opened name rest ih =>
    obtain ⟨⟨here, outer'⟩, hr, he⟩ := bind_eq_ok h
    cases he
    exact .closing _ (ih hr)
  | case7 => cases h

/-- A text that has a content has the one its tokens hold. -/
theorem reads_of_parse {t : Text} {c : Content} (h : parse t = .ok c) :
    Reads [] (tokens t) c [] := by
  obtain ⟨⟨c', outer⟩, hr, he⟩ := bind_eq_ok h
  cases he
  cases outer with
  | nil => exact reads_of_assemble hr
  | cons => exact absurd (length_of_assemble hr) (by simp)

/-! ## Pieces of text -/

/-- The gaps of a split text that are not empty. -/
def gapsOf (pieces : List (Text × Text)) (last : Text) : List Text :=
  (pieces.map (·.1) ++ [last]).filter (· ≠ [])

/-- An empty gap adds nothing. -/
theorem flatten_gapsOf (pieces : List (Text × Text)) (last : Text) :
    (gapsOf pieces last).flatten = pieces.flatMap (·.1) ++ last := by
  rw [gapsOf, List.flatten_filter_ne_nil, List.flatten_append, List.flatten_singleton,
    ← List.flatMap_def]

/-- The piece of text that a token is, if it is one and not empty. -/
def textOf? : Token → Option Text
  | .text piece => if piece = [] then none else some piece
  | .tag _ => none

/-- The pieces of text in a content, in order; an empty piece is none. -/
def Content.texts : Content → List Text
  | nil => []
  | text piece next => if piece = [] then next.texts else piece :: next.texts
  | element _ inner next => inner.texts ++ next.texts

/-- The runs hold the pieces of text, whatever is around them. -/
theorem Content.map_text_runs (c : Content) (context : List String) :
    (c.runs context).map Run.text = c.texts := by
  induction c generalizing context with
  | nil => rfl
  | text piece next ih =>
    rw [runs, texts]
    split
    · exact ih context
    · rw [List.map_cons, ih]
  | element name inner next ihi ihn => rw [runs, texts, List.map_append, ihi, ihn]

/-- What tokens hold has their pieces of text, in order. -/
theorem Reads.texts_eq {opened : List String} {ts : List Token} {c : Content}
    {outer : List Content} (h : Reads opened ts c outer) :
    c.texts ++ outer.flatMap Content.texts = ts.filterMap textOf? := by
  induction h with
  | done => rfl
  | text piece _ ih =>
    rw [Content.texts, List.filterMap_cons, textOf?]
    split
    · exact ih
    · rw [List.cons_append, ih]
  | opening name _ ih =>
    rw [List.flatMap_cons, ← List.append_assoc] at ih
    exact ih
  | closing name _ ih => exact ih

/-- The pieces of text among the tokens are the gaps of the split. -/
theorem TagSplit.texts_eq {t last : Text} {pieces : List (Text × Text)}
    (h : TagSplit t pieces last) : (tokens t).filterMap textOf? = gapsOf pieces last := by
  have htext (t : Text) : (textToken t).filterMap textOf? = [t].filter (· ≠ []) := by
    cases t <;> simp [textToken, textOf?]
  rw [h.tokens_eq, gapsOf, List.filterMap_append, List.filter_append, htext, List.filterMap_flatMap]
  congr 1
  rw [List.map_eq_flatMap, List.filter_flatMap]
  congr
  funext p
  rw [List.filterMap_append, htext]
  exact List.append_nil _

/-- The texts of the runs are the gaps that are not empty. -/
theorem runs_of_parse {t last : Text} {pieces : List (Text × Text)} {c : Content}
    (hs : TagSplit t pieces last) (hc : parse t = .ok c) :
    (c.runs []).map Run.text = gapsOf pieces last := by
  rw [c.map_text_runs, ← hs.texts_eq, ← (reads_of_parse hc).texts_eq, List.flatMap_nil,
    List.append_nil]

end Markup

end Lettering
