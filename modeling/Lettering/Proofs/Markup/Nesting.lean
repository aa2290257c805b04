import Lettering.Markup.Parser
import Lettering.Proofs.Markup.Occurrence
import Mathlib.Data.List.Induction

/-!
# Nesting

The well-nested sequences of tags are a language of their own: the empty one,
two of them in a row, and one between an opening and a closing tag of the same
name (`Nested`). What a beginning of such a sequence leaves open follows from
the language (`LeavesOpen`), and so does the first closing tag that is out of
place (`FirstMismatch`): nothing here speaks of a stack.

* `LeavesOpen.nestingError_append`: the elements open after a sequence are those
  it leaves open, whatever follows.
* `leavesOpen_or_firstMismatch`: a sequence leaves elements open, or it has a
  first closing tag that is out of place.
* `parse_nesting`: a text has a content exactly if its tags are well nested, and
  the error is otherwise the first one in the order of the text.
-/

namespace Lettering

namespace Markup

/-- The well-nested sequences of tags. -/
inductive Nested : List Tag → Prop
  | nil : Nested []
  | append {s u : List Tag} : Nested s → Nested u → Nested (s ++ u)
  | element {s : List Tag} (name : String) :
    Nested s → Nested (.opening name :: (s ++ [.closing name]))

/-- In the first sequence every closing tag closes the innermost open element,
    and the named elements, innermost first, are left open. -/
inductive LeavesOpen : List Tag → List String → Prop
  | nested {s : List Tag} : Nested s → LeavesOpen s []
  | opening {p s : List Tag} {opened : List String} (name : String) :
    LeavesOpen p opened → Nested s → LeavesOpen (p ++ .opening name :: s) (name :: opened)

/-- The first closing tag that is out of place has the name `found`, and the
    innermost element open before it the name `expected`, if any is open. Up to
    that tag, every closing tag is in place. -/
def FirstMismatch (ts : List Tag) (expected : Option String) (found : String) : Prop :=
  ∃ p rest opened, ts = p ++ .closing found :: rest ∧ LeavesOpen p opened ∧
    opened.head? = expected ∧ expected ≠ some found

/-- The tags of a split text. -/
def tagsOf (pieces : List (Text × Text)) : List Tag := pieces.map fun p => .ofBody p.2

/-! ## Errors by tags -/

/-- The first error in a sequence of tags while the elements `opened`, innermost
    first, are open. -/
def nestingError : List String → List Tag → Option NestingError
  | [], [] => none
  | name :: _, [] => some (.unclosed name)
  | opened, .opening name :: ts => nestingError (name :: opened) ts
  | [], .closing found :: _ => some (.mismatched none found)
  | name :: opened, .closing found :: ts =>
    if name = found then nestingError opened ts else some (.mismatched (some name) found)

/-- The tags among tokens. -/
def tagOf? : Token → Option Tag
  | .text _ => none
  | .tag tag => some tag

/-- The error of a result. -/
def errorOf? {α : Type} : Except NestingError α → Option NestingError
  | .ok _ => none
  | .error e => some e

/-- What cannot fail adds no error. -/
theorem errorOf?_bind {α β : Type} {x : Except NestingError α} {f : α → Except NestingError β}
    (hf : ∀ a, ∃ b, f a = .ok b) : errorOf? (x >>= f) = errorOf? x := by
  cases x with
  | error e => rfl
  | ok a =>
    obtain ⟨b, hb⟩ := hf a
    exact congrArg errorOf? hb

/-- The pieces of text between tags have no part in the error. -/
theorem errorOf?_assemble (opened : List String) (ts : List Token) :
    errorOf? (assemble opened ts) = nestingError opened (ts.filterMap tagOf?) := by
  fun_induction assemble opened ts with
  | case1 => rfl
  | case2 => rfl
  | case3 opened piece rest ih =>
    rw [errorOf?_bind, ih]
    · rfl
    · exact fun _ => ⟨_, rfl⟩
  | case4 opened name rest ih =>
    rw [errorOf?_bind, ih]
    · cases opened <;> rfl
    · rintro ⟨inner, _ | ⟨next, outer⟩⟩ <;> exact ⟨_, rfl⟩
  | case5 => rfl
  | case6 opened name rest ih =>
    rw [errorOf?_bind, ih]
    · simp [tagOf?, nestingError]
    · exact fun _ => ⟨_, rfl⟩
  | case7 name opened found rest hne => simp [tagOf?, nestingError, errorOf?, hne]

/-- The error of a text is that of the tags of its split. -/
theorem errorOf?_parse {t last : Text} {pieces : List (Text × Text)}
    (h : TagSplit t pieces last) : errorOf? (parse t) = nestingError [] (tagsOf pieces) := by
  have htags : (tokens t).filterMap tagOf? = tagsOf pieces := by
    have htext (t : Text) : (textToken t).filterMap tagOf? = [] := by cases t <;> rfl
    rw [h.tokens_eq, List.filterMap_append, htext, List.append_nil, List.filterMap_flatMap, tagsOf,
      List.map_eq_flatMap]
    congr
    funext p
    rw [List.filterMap_append, htext]
    rfl
  rw [parse, errorOf?_bind, errorOf?_assemble, htags]
  exact fun _ => ⟨_, rfl⟩

/-! ## The language -/

/-- A well-nested sequence changes nothing in what is open. -/
theorem Nested.nestingError_append {s : List Tag} (h : Nested s) (opened : List String)
    (ts : List Tag) : nestingError opened (s ++ ts) = nestingError opened ts := by
  induction h generalizing opened ts with
  | nil => rfl
  | append _ _ ihs ihu => rw [List.append_assoc, ihs, ihu]
  | @element s name _ ih =>
    have he : nestingError opened (.opening name :: (s ++ [.closing name]) ++ ts) =
        nestingError (name :: opened) (s ++ .closing name :: ts) := by
      cases opened <;> simp [nestingError]
    rw [he, ih]
    simp [nestingError]

/-- The elements open after a sequence are those it leaves open. -/
theorem LeavesOpen.nestingError_append {p : List Tag} {names : List String}
    (h : LeavesOpen p names) (ts : List Tag) :
    nestingError [] (p ++ ts) = nestingError names ts := by
  induction h generalizing ts with
  | nested hs => exact hs.nestingError_append [] ts
  | @opening p s opened name _ hs ih =>
    rw [List.append_assoc, List.cons_append, ih]
    have he : nestingError opened (.opening name :: (s ++ ts)) =
        nestingError (name :: opened) (s ++ ts) := by
      cases opened <;> rfl
    rw [he, hs.nestingError_append]

/-- A well-nested sequence at the end leaves nothing more open. -/
theorem LeavesOpen.append_nested {p s : List Tag} {names : List String} (h : LeavesOpen p names)
    (hs : Nested s) : LeavesOpen (p ++ s) names := by
  cases h with
  | nested hp => exact .nested (hp.append hs)
  | opening name h hu =>
    rw [List.append_assoc, List.cons_append]
    exact .opening name h (hu.append hs)

/-- Another tag behind a sequence that leaves elements open is in place, or it is
    the first one out of place. -/
theorem LeavesOpen.append_tag {p : List Tag} {opened : List String} (h : LeavesOpen p opened)
    (tag : Tag) : (∃ opened', LeavesOpen (p ++ [tag]) opened') ∨
      ∃ expected found, FirstMismatch (p ++ [tag]) expected found := by
  cases tag with
  | opening name => exact .inl ⟨name :: opened, .opening name h .nil⟩
  | closing found =>
    by_cases hf : opened.head? = some found
    · cases h with
      | nested => cases hf
      | @opening p s opened name h hs =>
        obtain rfl : name = found := Option.some.inj hf
        -- The element closed is well nested now, and part of what is left open
        -- outside it.
        have he : p ++ .opening name :: s ++ [.closing name] =
            p ++ .opening name :: (s ++ [.closing name]) := by simp
        exact .inl ⟨opened, he ▸ h.append_nested (.element name hs)⟩
    · exact .inr ⟨_, found, p, [], opened, rfl, h, rfl, hf⟩

/-- A sequence leaves elements open, or one of its closing tags is the first out
    of place. -/
theorem leavesOpen_or_firstMismatch (ts : List Tag) :
    (∃ opened, LeavesOpen ts opened) ∨ ∃ expected found, FirstMismatch ts expected found := by
  -- What is open at a tag depends on the tags before it, so the sequence grows at
  -- its end.
  induction ts using List.reverseRecOn with
  | nil => exact .inl ⟨[], .nested .nil⟩
  | append_singleton ts tag ih =>
    rcases ih with ⟨opened, h⟩ | ⟨expected, found, p, rest, opened, rfl, h⟩
    · exact h.append_tag tag
    · exact .inr ⟨expected, found, p, rest ++ [tag], opened, by simp, h⟩

/-- A sequence that leaves nothing open is well nested. -/
theorem LeavesOpen.nested_of_nil {ts : List Tag} (h : LeavesOpen ts []) : Nested ts := by
  cases h with
  | nested hs => exact hs

/-- What a sequence leaves open is its error. -/
theorem LeavesOpen.nestingError_eq {ts : List Tag} {opened : List String}
    (h : LeavesOpen ts opened) : nestingError [] ts = opened.head?.map .unclosed := by
  have he := h.nestingError_append []
  rw [List.append_nil] at he
  rw [he]
  cases opened <;> rfl

/-- The first closing tag out of place is the error of a sequence. -/
theorem FirstMismatch.nestingError_eq {ts : List Tag} {expected : Option String} {found : String}
    (h : FirstMismatch ts expected found) :
    nestingError [] ts = some (.mismatched expected found) := by
  obtain ⟨p, rest, opened, rfl, hp, rfl, hne⟩ := h
  rw [hp.nestingError_append]
  cases opened with
  | nil => rfl
  | cons name opened =>
    have hne : name ≠ found := fun he => hne (by simp [he])
    simp [nestingError, hne]

/-- A sequence is well nested, has a closing tag out of place, or leaves an
    element open: this is the error it has. -/
theorem nestingError_cases (ts : List Tag) :
    (Nested ts ∧ nestingError [] ts = none) ∨
      (∃ expected found, FirstMismatch ts expected found ∧
        nestingError [] ts = some (.mismatched expected found)) ∨
      ∃ name opened, LeavesOpen ts (name :: opened) ∧
        nestingError [] ts = some (.unclosed name) := by
  rcases leavesOpen_or_firstMismatch ts with ⟨_ | ⟨name, opened⟩, h⟩ | ⟨expected, found, h⟩
  · exact .inl ⟨h.nested_of_nil, h.nestingError_eq⟩
  · exact .inr (.inr ⟨name, opened, h, h.nestingError_eq⟩)
  · exact .inr (.inl ⟨expected, found, h, h.nestingError_eq⟩)

theorem nestingError_eq_none_iff {ts : List Tag} : nestingError [] ts = none ↔ Nested ts := by
  refine ⟨fun he => ?_, fun h => (LeavesOpen.nested h).nestingError_eq⟩
  rcases nestingError_cases ts with ⟨h, _⟩ | ⟨_, _, _, he'⟩ | ⟨_, _, _, he'⟩
  · exact h
  · simp [he'] at he
  · simp [he'] at he

theorem nestingError_eq_mismatched_iff {ts : List Tag} {expected : Option String}
    {found : String} :
    nestingError [] ts = some (.mismatched expected found) ↔ FirstMismatch ts expected found := by
  refine ⟨fun he => ?_, FirstMismatch.nestingError_eq⟩
  rcases nestingError_cases ts with ⟨_, he'⟩ | ⟨_, _, h, he'⟩ | ⟨_, _, _, he'⟩
  · simp [he'] at he
  · cases he.symm.trans he'
    exact h
  · simp [he'] at he

theorem nestingError_eq_unclosed_iff {ts : List Tag} {name : String} :
    nestingError [] ts = some (.unclosed name) ↔ ∃ opened, LeavesOpen ts (name :: opened) := by
  refine ⟨fun he => ?_, fun ⟨_, h⟩ => h.nestingError_eq⟩
  rcases nestingError_cases ts with ⟨_, he'⟩ | ⟨_, _, _, he'⟩ | ⟨_, opened, h, he'⟩
  · simp [he'] at he
  · simp [he'] at he
  · cases he.symm.trans he'
    exact ⟨opened, h⟩

/-- In a well-nested sequence only elements that were opened are closed. -/
theorem Nested.opening_mem {ts : List Tag} (h : Nested ts) {name : String}
    (hc : .closing name ∈ ts) : .opening name ∈ ts := by
  induction h with
  | nil => cases hc
  | append _ _ ihs ihu =>
    rw [List.mem_append] at hc ⊢
    exact hc.imp ihs ihu
  | @element s name' _ ih =>
    simp only [List.mem_cons, List.mem_append, reduceCtorEq, Tag.closing.injEq, Tag.opening.injEq,
      List.not_mem_nil, or_false, false_or] at hc ⊢
    exact hc.symm.imp id ih

/-! ## Names -/

/-- A body that starts with a slash closes the element named after it, a slash
    alone one that is named by a slash. -/
theorem Tag.ofBody_slash (r : Text) :
    Tag.ofBody ('/' :: r) = .closing (if r = [] then "/" else String.ofList r) := by
  cases r <;> rfl

/-- Any other body opens the element it names. -/
theorem Tag.ofBody_of_ne_slash {body : Text} (h : body.head? ≠ some '/') :
    Tag.ofBody body = .opening (String.ofList body) := by
  fun_cases Tag.ofBody body with
  | case1 => exact absurd rfl h
  | case2 => exact absurd rfl h
  | case3 => rfl

/-- A tag closes an element exactly if its body starts with a slash. -/
theorem Tag.exists_ofBody_eq_closing_iff {body : Text} :
    (∃ name, Tag.ofBody body = .closing name) ↔ body.head? = some '/' := by
  refine ⟨fun ⟨name, hn⟩ => ?_, fun h => ?_⟩
  · by_contra h
    rw [Tag.ofBody_of_ne_slash h] at hn
    cases hn
  · obtain ⟨r, rfl⟩ := List.head?_eq_some_iff.mp h
    exact ⟨_, Tag.ofBody_slash r⟩

/-- No element is opened whose name starts with a slash. -/
theorem head?_ne_slash_of_opening_mem {pieces : List (Text × Text)} {name : String}
    (h : .opening name ∈ tagsOf pieces) : name.toList.head? ≠ some '/' := by
  obtain ⟨⟨_, body⟩, _, hb⟩ := List.mem_map.mp h
  by_cases hs : body.head? = some '/'
  · obtain ⟨found, hc⟩ := Tag.exists_ofBody_eq_closing_iff.mpr hs
    rw [hc] at hb
    cases hb
  · rw [Tag.ofBody_of_ne_slash hs] at hb
    cases hb
    rwa [String.toList_ofList]

/-- A tag that closes an element whose name would start with a slash is out of
    place wherever it stands. -/
theorem not_nested_of_closing_mem {pieces : List (Text × Text)} {name : String}
    (h : .closing name ∈ tagsOf pieces) (hn : name.toList.head? = some '/') :
    ¬Nested (tagsOf pieces) :=
  fun hs => head?_ne_slash_of_opening_mem (hs.opening_mem h) hn

/-! ## The content of a text -/

theorem errorOf?_eq_none_iff {α : Type} {x : Except NestingError α} :
    errorOf? x = none ↔ ∃ a, x = .ok a := by
  cases x <;> simp [errorOf?]

theorem errorOf?_eq_some_iff {α : Type} {x : Except NestingError α} {e : NestingError} :
    errorOf? x = some e ↔ x = .error e := by
  cases x <;> simp [errorOf?]

/-- A text has a content exactly if its tags are well nested. The error is
    otherwise the first closing tag out of place or, if every closing tag is in
    place, the innermost element left open. As no element is opened whose name
    starts with a slash, the tags `</>` and `<//>` are never in place. -/
theorem parse_nesting (t : Text) :
    ∃ (pieces : List (Text × Text)) (last : Text),
      (∀ ps l, TagSplit t ps l ↔ ps = pieces ∧ l = last) ∧
      (∀ p ∈ pieces, (∃ name, Tag.ofBody p.2 = .closing name) ↔ p.2.head? = some '/') ∧
      ((∃ c, parse t = .ok c) ↔ Nested (tagsOf pieces)) ∧
      (∀ expected found, parse t = .error (.mismatched expected found) ↔
        FirstMismatch (tagsOf pieces) expected found) ∧
      (∀ name, parse t = .error (.unclosed name) ↔
        (∀ expected found, ¬FirstMismatch (tagsOf pieces) expected found) ∧
          ∃ opened, LeavesOpen (tagsOf pieces) (name :: opened)) ∧
      (∀ name, .opening name ∈ tagsOf pieces → name.toList.head? ≠ some '/') ∧
      (∀ p ∈ pieces, p.2 = ['/'] ∨ p.2 = ['/', '/'] → ∃ e, parse t = .error e) := by
  obtain ⟨pieces, last, hs⟩ := exists_tagSplit t
  have he := errorOf?_parse hs
  refine ⟨pieces, last, fun ps l => ⟨fun h => h.unique hs, ?_⟩, fun _ _ =>
    Tag.exists_ofBody_eq_closing_iff, ?_, fun expected found => ?_, fun name => ?_,
    fun _ => head?_ne_slash_of_opening_mem, fun p hp hb => ?_⟩
  · rintro ⟨rfl, rfl⟩
    exact hs
  · rw [← errorOf?_eq_none_iff, he, nestingError_eq_none_iff]
  · rw [← errorOf?_eq_some_iff, he, nestingError_eq_mismatched_iff]
  · rw [← errorOf?_eq_some_iff, he, nestingError_eq_unclosed_iff]
    refine ⟨fun ⟨opened, h⟩ => ⟨fun expected found hm => ?_, opened, h⟩, fun h => h.2⟩
    cases h.nestingError_eq.symm.trans hm.nestingError_eq
  · have hc : .closing "/" ∈ tagsOf pieces := by
      rcases hb with hb | hb <;> exact List.mem_map.mpr ⟨p, hp, by rw [hb]; rfl⟩
    have hn := not_nested_of_closing_mem hc rfl
    rw [← nestingError_eq_none_iff, ← he, errorOf?_eq_none_iff] at hn
    cases hx : parse t with
    | error e => exact ⟨e, rfl⟩
    | ok c => exact absurd ⟨c, hx⟩ hn

end Markup

end Lettering
