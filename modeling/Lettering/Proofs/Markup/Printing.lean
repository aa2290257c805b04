import Lettering.Proofs.Markup.Arena
import Lettering.Proofs.Markup.Nesting

/-!
# Printing

A content is written out with its pieces of text as they are and every element
between its two tags (`Content.print`). Reading and printing undo each other.

* `print_of_parse`: what was read is printed as the text it was read from, to the
  last character.
* `parse_print`: what is printed is read again as it was, if its names can stand
  in tags, no piece of text holds a tag, and no two of them meet
  (`Content.Printable`).
-/

namespace Lettering

namespace Markup

/-! ## What was read is printed -/

/-- The written form of a tag. -/
def Tag.print : Tag → Text
  | opening name => '<' :: (name.toList ++ ['>'])
  | closing name => '<' :: '/' :: (name.toList ++ ['>'])

/-- The written form of a token. -/
def Token.print : Token → Text
  | text piece => piece
  | tag t => t.print

/-- For every open element, innermost first, its closing tag and the content
    behind it. -/
def printOuter : List String → List Content → Text
  | name :: opened, c :: outer =>
    (Tag.closing name).print ++ (c.print ++ printOuter opened outer)
  | _, _ => []

/-- What tokens hold is printed as the tokens are. -/
theorem Reads.print_eq {opened : List String} {ts : List Token} {here : Content}
    {outer : List Content} (h : Reads opened ts here outer) :
    here.print ++ printOuter opened outer = ts.flatMap Token.print := by
  induction h with
  | done => rfl
  | text piece _ ih =>
    rw [List.flatMap_cons, ← ih, Content.print, List.append_assoc]
    rfl
  | opening name _ ih =>
    rw [List.flatMap_cons, ← ih]
    simp [Content.print, printOuter, Token.print, Tag.print]
  | closing name _ ih =>
    rw [List.flatMap_cons, ← ih]
    rfl

/-- A tag is printed with its body, unless that is a slash alone. -/
theorem Tag.print_ofBody {body : Text} (h : body ≠ ['/']) :
    (Tag.ofBody body).print = '<' :: (body ++ ['>']) := by
  fun_cases Tag.ofBody body with
  | case1 => exact absurd rfl h
  | case2 name => simp [Tag.print]
  | case3 body => simp [Tag.print]

variable {t last : Text} {pieces : List (Text × Text)} {c : Content}

/-- The gaps of a split text and the tags between them make up the text. -/
theorem TagSplit.eq_append (h : TagSplit t pieces last) :
    t = (pieces.flatMap fun p => p.1 ++ '<' :: (p.2 ++ ['>'])) ++ last := by
  induction h with
  | last => rfl
  | tag hf _ ih =>
    rw [List.flatMap_cons, List.append_assoc, ← ih]
    simpa using hf.eq_append

theorem flatMap_print_textToken (t : Text) : (textToken t).flatMap Token.print = t := by
  cases t with
  | nil => rfl
  | cons c t => exact List.append_nil _

/-- The tokens of a text are printed as the text, if no tag is a slash alone. -/
theorem TagSplit.print_tokens (h : TagSplit t pieces last) (hp : ∀ p ∈ pieces, p.2 ≠ ['/']) :
    (tokens t).flatMap Token.print = t := by
  rw [h.tokens_eq, List.flatMap_append, List.flatMap_assoc, flatMap_print_textToken]
  conv_rhs => rw [h.eq_append]
  congr 1
  rw [List.flatMap_def, List.flatMap_def]
  refine congrArg _ (List.map_congr_left fun p hm => ?_)
  rw [List.flatMap_append, flatMap_print_textToken, ← Tag.print_ofBody (hp p hm)]
  exact congrArg _ (List.append_nil _)

/-- In a text that has a content no tag is a slash alone. -/
theorem body_ne_slash_of_parse (hs : TagSplit t pieces last) (hc : parse t = .ok c) :
    ∀ p ∈ pieces, p.2 ≠ ['/'] := by
  intro p hp hb
  have hm : .closing "/" ∈ tagsOf pieces := List.mem_map.mpr ⟨p, hp, by rw [hb]; rfl⟩
  have he : nestingError [] (tagsOf pieces) = none := by rw [← errorOf?_parse hs, hc]; rfl
  exact not_nested_of_closing_mem hm rfl (nestingError_eq_none_iff.mp he)

/-- A text that has a content is what is printed of it. The content is all that
    is found in the nodes of the text, following the numbers of children from the
    root on. -/
theorem print_of_parse (h : parse t = .ok c) :
    c.print = t ∧ build t = .ok c.nodes ∧
      ∃ children order, c.nodes[0]? = some (.element "" children) ∧
        ∀ visited c', Holds c.nodes children visited c' ↔ visited = order ∧ c' = c := by
  obtain ⟨pieces, last, hs⟩ := exists_tagSplit t
  have hp := (reads_of_parse h).print_eq
  rw [hs.print_tokens (body_ne_slash_of_parse hs h)] at hp
  obtain ⟨hroot, hc⟩ := holds_nodes c
  refine ⟨(List.append_nil _).symm.trans hp, by rw [build_eq, h]; rfl, c.topIds 1,
    List.range' 1 c.size, hroot, fun visited c' => ⟨fun h' => h'.unique hc, ?_⟩⟩
  rintro ⟨rfl, rfl⟩
  exact hc

/-- Case: an element between angle brackets that make no tag. -/
theorem print_of_parse_stray :
    let t : Text := ['<', '>', '<', 'a', ' ', 'b', '>', 'é', '<', '/', 'a', ' ', 'b', '>', '<']
    let c : Content := .text ['<', '>'] (.element "a b" (.text ['é'] .nil) (.text ['<'] .nil))
    parse t = .ok c ∧ c.print = t ∧ build t = .ok c.nodes ∧
      ∃ children order, c.nodes[0]? = some (.element "" children) ∧
        ∀ visited c', Holds c.nodes children visited c' ↔ visited = order ∧ c' = c := by
  intro t c
  have h : parse t = .ok c := by cbv
  exact ⟨h, print_of_parse h⟩

/-! ## What is printed is read -/

/-- The names that can stand in tags. -/
structure IsName (name : String) : Prop where
  ne_nil : name.toList ≠ []
  not_mem : '>' ∉ name.toList
  head?_ne : name.toList.head? ≠ some '/'

/-- In the text a `<` stands only directly before a `>`. -/
def NoTagStarts (t : Text) : Prop :=
  ∀ before after : Text, t = before ++ '<' :: after → after.head? = some '>'

/-- The pieces of text that hold no tag, whatever follows them. -/
structure IsPiece (piece : Text) : Prop where
  ne_nil : piece ≠ []
  noTagStarts : NoTagStarts piece

/-- Whether a content starts with a piece of text. -/
def Content.startsWithText : Content → Bool
  | text .. => true
  | _ => false

/-- The contents that can be told from their written form. -/
inductive Content.Printable : Content → Prop
  | nil : Printable nil
  | text {piece : Text} {next : Content} : IsPiece piece → next.startsWithText = false →
    Printable next → Printable (text piece next)
  | element {name : String} {inner next : Content} : IsName name → Printable inner →
    Printable next → Printable (element name inner next)

/-! ### Finding the tags -/

theorem NoTagStarts.tail {d : Char} {t : Text} (h : NoTagStarts (d :: t)) : NoTagStarts t :=
  fun before after he => h (d :: before) after (by rw [he, List.cons_append])

/-- Where no tag starts none is found. -/
theorem NoTagStarts.not_tagAt {d : Char} {t : Text} (h : NoTagStarts (d :: t))
    (r body after : Text) :
    ¬TagAt (d :: (t ++ r)) [] body after := by
  intro ht
  have he := ht.eq_append
  rw [List.nil_append, List.cons.injEq] at he
  obtain ⟨rfl, he⟩ := he
  -- The character behind the `<` is a `>`, and with it the body would begin.
  obtain ⟨t', rfl⟩ := List.head?_eq_some_iff.mp (h [] t rfl)
  cases hb : body with
  | nil => exact ht.body_ne_nil hb
  | cons d' body' =>
    rw [hb, List.cons_append, List.cons_append, List.cons.injEq] at he
    exact ht.not_mem_body (by rw [hb, ← he.1]; exact List.mem_cons_self)

/-- The tags behind a text without tags are found as they are. -/
theorem NoTagStarts.nextTag_append {t : Text} (h : NoTagStarts t) (r : Text) :
    nextTag (t ++ r) = (nextTag r).map fun cut => { cut with before := t ++ cut.before } := by
  induction t with
  | nil => exact Option.map_id'.symm
  | cons d t ih =>
    rw [List.cons_append, nextTag_of_not_start (h.not_tagAt r), ih h.tail, Option.map_map]
    rfl

theorem tokens_nil : tokens [] = [] := tokens_of_none rfl

/-- A tag stands at the very start, or nothing does. -/
def StartsWithTag (t : Text) : Prop := t = [] ∨ ∃ body after, TagAt t [] body after

/-- A piece of text is read up to the next tag. -/
theorem IsPiece.tokens_append {piece r : Text} (h : IsPiece piece) (hr : StartsWithTag r) :
    tokens (piece ++ r) = .text piece :: tokens r := by
  have hp : textToken piece = [.text piece] := by
    cases piece with
    | nil => exact absurd rfl h.ne_nil
    | cons => rfl
  have hn := h.noTagStarts.nextTag_append r
  rcases hr with rfl | ⟨body, after, ht⟩
  · rw [tokens_of_none hn, List.append_nil, hp, tokens_nil]
  · obtain ⟨r, rfl⟩ : ∃ r', r = '<' :: r' := ⟨_, ht.eq_append⟩
    have hstart := nextTag_of_start ht
    rw [hstart] at hn
    rw [tokens_of_some hn, tokens_of_some hstart]
    simp only [List.append_nil, hp]
    rfl

theorem tagAt_start {body : Text} (hb : body ≠ []) (hn : '>' ∉ body) (r : Text) :
    TagAt ('<' :: (body ++ '>' :: r)) [] body r := ⟨rfl, hb, hn⟩

/-- A tag is read as it stands. -/
theorem tokens_tag {body : Text} (hb : body ≠ []) (hn : '>' ∉ body) (r : Text) :
    tokens ('<' :: (body ++ '>' :: r)) = .tag (.ofBody body) :: tokens r :=
  tokens_of_some (nextTag_of_start (tagAt_start hb hn r))

namespace IsName

variable {name : String}

theorem tokens_opening (h : IsName name) (r : Text) :
    tokens ('<' :: (name.toList ++ '>' :: r)) = .tag (.opening name) :: tokens r := by
  rw [tokens_tag h.ne_nil h.not_mem, Tag.ofBody_of_ne_slash h.head?_ne, String.ofList_toList]

theorem not_mem_slash (h : IsName name) : '>' ∉ '/' :: name.toList := by
  simp [h.not_mem]

theorem tokens_closing (h : IsName name) (r : Text) :
    tokens ('<' :: '/' :: (name.toList ++ '>' :: r)) = .tag (.closing name) :: tokens r := by
  have ht := tokens_tag (List.cons_ne_nil '/' name.toList) h.not_mem_slash r
  rw [Tag.ofBody_slash, if_neg h.ne_nil, String.ofList_toList] at ht
  exact ht

end IsName

namespace Content

/-- The tokens that a content is written with. -/
def written : Content → List Token
  | nil => []
  | text piece next => .text piece :: next.written
  | element name inner next =>
    .tag (.opening name) :: (inner.written ++ .tag (.closing name) :: next.written)

theorem Printable.startsWithTag {c : Content} (h : c.Printable) (hc : c.startsWithText = false)
    {r : Text} (hr : StartsWithTag r) : StartsWithTag (c.print ++ r) := by
  cases h with
  | nil => exact hr
  | text => cases hc
  | @element name inner next hn _ _ =>
    rw [print, List.cons_append, List.append_assoc, List.cons_append]
    exact .inr ⟨_, _, tagAt_start hn.ne_nil hn.not_mem _⟩

/-- A content is read from its written form as the tokens it is written with,
    whatever tags follow. -/
theorem Printable.tokens_print {c : Content} (h : c.Printable) {r : Text} (hr : StartsWithTag r) :
    tokens (c.print ++ r) = c.written ++ tokens r := by
  induction h generalizing r with
  | nil => rfl
  | text hp hs hn ih =>
    rw [print, List.append_assoc, hp.tokens_append (hn.startsWithTag hs hr), ih hr]
    rfl
  | @element name inner next hname _ _ ihi ihn =>
    -- What follows the inner content is the closing tag.
    have hc : StartsWithTag ('<' :: '/' :: (name.toList ++ '>' :: (next.print ++ r))) :=
      .inr ⟨_, _, tagAt_start (List.cons_ne_nil '/' name.toList) hname.not_mem_slash _⟩
    simp only [print, List.cons_append, List.append_assoc]
    rw [hname.tokens_opening, ihi hc, hname.tokens_closing, ihn hr]
    simp [written]

end Content

/-! ### Reading the content -/

theorem assemble_of_reads {opened : List String} {ts : List Token} {here : Content}
    {outer : List Content} (h : Reads opened ts here outer) :
    assemble opened ts = .ok (here, outer) := by
  induction h with
  | done => rfl
  | text piece _ ih =>
    rw [assemble, ih]
    rfl
  | opening name _ ih =>
    rw [assemble, ih]
    rfl
  | closing name _ ih =>
    rw [assemble, if_pos rfl, ih]
    rfl

/-- The tokens that a content is written with hold it, where nothing else
    follows in the innermost element. -/
theorem Content.reads_written (c : Content) {opened : List String} {ts : List Token}
    {outer : List Content} (h : Reads opened ts .nil outer) :
    Reads opened (c.written ++ ts) c outer := by
  induction c generalizing opened ts outer with
  | nil => exact h
  | text piece next ih => exact .text piece (ih h)
  | element name inner next ihi ihn =>
    rw [written, List.cons_append, List.append_assoc]
    exact .opening name (ihi (.closing name (ihn h)))

/-- A content that can be told from its written form is read from it, into nodes
    that are numbered in the order in which they are visited. -/
theorem parse_print {c : Content} (h : c.Printable) :
    parse c.print = .ok c ∧ build c.print = .ok c.nodes ∧
      c.nodes[0]? = some (.element "" (c.topIds 1)) ∧
        Holds c.nodes (c.topIds 1) (List.range' 1 c.size) c := by
  have ht := h.tokens_print (.inl rfl)
  have hr := c.reads_written .done
  rw [List.append_nil, tokens_nil] at ht
  have hp : parse c.print = .ok c := by
    rw [parse, ht, assemble_of_reads hr]
    rfl
  exact ⟨hp, by rw [build_eq, hp]; rfl, holds_nodes c⟩

/-- Case: names with a `<` and a slash in them, and pieces of text with `<>`
    directly before tags. -/
theorem parse_print_nested :
    let c : Content := .element "<a" (.text ['<', '>'] (.element "b/" .nil .nil)) (.text ['>'] .nil)
    c.Printable ∧ parse c.print = .ok c ∧ build c.print = .ok c.nodes ∧
      c.nodes[0]? = some (.element "" (c.topIds 1)) ∧
        Holds c.nodes (c.topIds 1) (List.range' 1 c.size) c := by
  intro c
  have ha : IsName "<a" := ⟨by decide, by decide, by decide⟩
  have hb : IsName "b/" := ⟨by decide, by decide, by decide⟩
  have hbrackets : IsPiece ['<', '>'] := by
    refine ⟨by simp, fun before after he => ?_⟩
    match before with
    | [] => cases he; rfl
    | [_] => cases he
    | _ :: _ :: before => simp at he
  have hgt : IsPiece ['>'] := by
    refine ⟨by simp, fun before after he => ?_⟩
    match before with
    | [] => cases he
    | _ :: before => simp at he
  have hc : c.Printable :=
    .element ha (.text hbrackets rfl (.element hb .nil .nil)) (.text hgt rfl .nil)
  exact ⟨hc, parse_print hc⟩

end Markup

end Lettering
