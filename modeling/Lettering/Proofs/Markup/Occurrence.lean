import Lettering.Markup.Tag

/-!
# Where tags stand

What the tags of a text are can be said without reading it from left to right. A
tag stands wherever `<`, one or more characters other than `>`, and `>` follow
each other (`TagAt`). Tags may overlap, as `<a<b>` holds two of them, so those
of a text are counted from the left: the leftmost one, then the leftmost one in
what follows it, and so on (`TagSplit`).

* `nextTag_eq_some_iff`, `nextTag_eq_none_iff`: what is found is the leftmost
  tag, and nothing is found only where no tag stands.
* `exists_tagSplit`, `TagSplit.unique`: every text is split in exactly one way.
* `TagSplit.tokens_eq`: its tokens are the gaps and the tags of the split.
-/

namespace Lettering

namespace Markup

/-- A tag with the given body stands in `t`, after `before`: the body is not
    empty and ends at the first `>`. -/
structure TagAt (t before body after : Text) : Prop where
  eq_append : t = before ++ '<' :: (body ++ '>' :: after)
  body_ne_nil : body ≠ []
  not_mem_body : '>' ∉ body

/-- The leftmost tag of `t`: no tag starts before it. -/
structure FirstTag (t before body after : Text) : Prop extends TagAt t before body after where
  length_le : ∀ {b y a : Text}, TagAt t b y a → before.length ≤ b.length

/-- The split of a text at its tags, from left to right: the gap before each tag
    with the body of the tag, and the gap after the last one. -/
inductive TagSplit : Text → List (Text × Text) → Text → Prop
  | last {t : Text} : (∀ b y a, ¬TagAt t b y a) → TagSplit t [] t
  | tag {t before body after last : Text} {pieces : List (Text × Text)} :
    FirstTag t before body after → TagSplit after pieces last →
      TagSplit t ((before, body) :: pieces) last

/-! ## The leftmost tag -/

/-- A text is cut at its first `>` in one way. -/
theorem append_gt_inj {b b' a a' : Text} (hb : '>' ∉ b) (hb' : '>' ∉ b')
    (h : b ++ '>' :: a = b' ++ '>' :: a') : b = b' ∧ a = a' := by
  induction b generalizing b' with
  | nil =>
    cases b' with
    | nil => simpa using h
    | cons c b' =>
      rw [List.nil_append, List.cons_append, List.cons.injEq] at h
      exact absurd (h.1 ▸ List.mem_cons_self) hb'
  | cons c b ih =>
    cases b' with
    | nil =>
      rw [List.nil_append, List.cons_append, List.cons.injEq] at h
      exact absurd (h.1 ▸ List.mem_cons_self) hb
    | cons c' b' =>
      simp only [List.cons_append, List.cons.injEq] at h
      obtain ⟨rfl, h⟩ := h
      rw [List.mem_cons, not_or] at hb hb'
      obtain ⟨rfl, rfl⟩ := ih hb.2 hb'.2 h
      exact ⟨rfl, rfl⟩

/-- At most one tag starts at a place. -/
theorem TagAt.unique {t b y a b' y' a' : Text} (h : TagAt t b y a) (h' : TagAt t b' y' a')
    (hl : b.length = b'.length) : b = b' ∧ y = y' ∧ a = a' := by
  obtain ⟨rfl, he⟩ := List.append_inj (h.eq_append.symm.trans h'.eq_append) hl
  rw [List.cons.injEq] at he
  obtain ⟨rfl, rfl⟩ := append_gt_inj h.not_mem_body h'.not_mem_body he.2
  exact ⟨rfl, rfl, rfl⟩

theorem FirstTag.unique {t b y a b' y' a' : Text} (h : FirstTag t b y a)
    (h' : FirstTag t b' y' a') : b = b' ∧ y = y' ∧ a = a' :=
  h.toTagAt.unique h'.toTagAt (Nat.le_antisymm (h.length_le h'.toTagAt) (h'.length_le h.toTagAt))

/-- A tag of `c :: r` starts with `c`, or is a tag of `r`. -/
theorem tagAt_cons {c : Char} {r b y a : Text} (h : TagAt (c :: r) b y a) :
    (b = [] ∧ c = '<' ∧ r = y ++ '>' :: a) ∨ ∃ b', b = c :: b' ∧ TagAt r b' y a := by
  have he := h.eq_append
  cases b with
  | nil =>
    rw [List.nil_append, List.cons.injEq] at he
    exact .inl ⟨rfl, he⟩
  | cons d b' =>
    rw [List.cons_append, List.cons.injEq] at he
    exact .inr ⟨b', by rw [he.1], he.2, h.body_ne_nil, h.not_mem_body⟩

theorem cutAtClose_append {b a : Text} (hb : '>' ∉ b) :
    cutAtClose (b ++ '>' :: a) = some (b, a) := by
  induction b with
  | nil => simp [cutAtClose]
  | cons c b ih =>
    rw [List.mem_cons, not_or] at hb
    simp [cutAtClose, Ne.symm hb.1, ih hb.2]

/-- What precedes the first `>` is missing only where there is none. -/
theorem not_mem_of_cutAtClose {t : Text} (h : cutAtClose t = none) : '>' ∉ t := by
  induction t with
  | nil => exact List.not_mem_nil
  | cons c r ih =>
    rw [cutAtClose] at h
    split at h
    · cases h
    · rename_i hc
      rw [List.mem_cons, not_or]
      exact ⟨Ne.symm hc, ih (Option.map_eq_none_iff.mp h)⟩

/-- A tag at the very start is found. -/
theorem nextTag_of_start {r y a : Text} (h : TagAt ('<' :: r) [] y a) :
    nextTag ('<' :: r) = some ⟨[], y, a⟩ := by
  have he : r = y ++ '>' :: a := by simpa using h.eq_append
  rw [nextTag, if_pos rfl, he, cutAtClose_append h.not_mem_body]
  cases y with
  | nil => exact absurd rfl h.body_ne_nil
  | cons c y => rfl

/-- Unless a tag stands at the very start, it is looked for in the rest. -/
theorem nextTag_of_not_start {c : Char} {r : Text} (h : ∀ y a, ¬TagAt (c :: r) [] y a) :
    nextTag (c :: r) = (nextTag r).map (.precededBy c) := by
  rw [nextTag]
  split
  · rename_i hc
    subst hc
    split
    · rename_i hr
      -- Without a `>` in the rest there is no tag in it either.
      cases hn : nextTag r with
      | none => rfl
      | some cut =>
        have he := (nextTag_eq_some hn).1
        exact absurd (by rw [he]; simp) (not_mem_of_cutAtClose hr)
    · rfl
    · rename_i body after hbody hr
      obtain ⟨he, hn⟩ := cutAtClose_eq_some hr
      exact absurd ⟨by simp [he], fun hb => hbody (hb ▸ rfl), hn⟩ (h body after)
  · rfl

/-- The leftmost tag of the rest is the leftmost one, unless a tag stands at the
    very start. -/
theorem FirstTag.cons {c : Char} {r b y a : Text} (h : FirstTag r b y a)
    (hc : ∀ y a, ¬TagAt (c :: r) [] y a) : FirstTag (c :: r) (c :: b) y a where
  eq_append := by rw [List.cons_append, ← h.eq_append]
  body_ne_nil := h.body_ne_nil
  not_mem_body := h.not_mem_body
  length_le ht := by
    rcases tagAt_cons ht with ⟨rfl, _⟩ | ⟨b', rfl, hb'⟩
    · exact absurd ht (hc _ _)
    · exact Nat.succ_le_succ (h.length_le hb')

/-- Either the leftmost tag is found, or no tag stands in the text. -/
theorem nextTag_spec (t : Text) :
    (∃ cut, nextTag t = some cut ∧ FirstTag t cut.before cut.body cut.after) ∨
      (nextTag t = none ∧ ∀ b y a, ¬TagAt t b y a) := by
  induction t with
  | nil => exact .inr ⟨rfl, fun b y a h => by simpa using h.eq_append⟩
  | cons c r ih =>
    by_cases hs : ∃ y a, TagAt (c :: r) [] y a
    · obtain ⟨y, a, h⟩ := hs
      obtain rfl : c = '<' := (List.cons.inj h.eq_append).1
      -- No tag starts before the beginning of the text.
      exact .inl ⟨_, nextTag_of_start h, h, fun _ => Nat.zero_le _⟩
    · have hs : ∀ y a, ¬TagAt (c :: r) [] y a := fun y a h => hs ⟨y, a, h⟩
      rw [nextTag_of_not_start hs]
      rcases ih with ⟨cut, hn, hcut⟩ | ⟨hn, hno⟩
      · exact .inl ⟨_, by rw [hn]; rfl, hcut.cons hs⟩
      · refine .inr ⟨by rw [hn]; rfl, fun b y a h => ?_⟩
        rcases tagAt_cons h with ⟨rfl, _⟩ | ⟨b', _, hb'⟩
        · exact hs y a h
        · exact hno b' y a hb'

/-- What is found is the leftmost tag. -/
theorem nextTag_eq_some_iff {t : Text} {cut : Cut} :
    nextTag t = some cut ↔ FirstTag t cut.before cut.body cut.after := by
  rcases nextTag_spec t with ⟨cut', hn, hcut'⟩ | ⟨hn, hno⟩
  · rw [hn, Option.some.injEq]
    constructor
    · rintro rfl
      exact hcut'
    · intro h
      obtain ⟨before, body, after⟩ := cut
      obtain ⟨before', body', after'⟩ := cut'
      obtain ⟨rfl, rfl, rfl⟩ := hcut'.unique h
      rfl
  · exact ⟨fun h => by simp [hn] at h, fun h => absurd h.toTagAt (hno _ _ _)⟩

/-- Nothing is found only where no tag stands. -/
theorem nextTag_eq_none_iff {t : Text} : nextTag t = none ↔ ∀ b y a, ¬TagAt t b y a := by
  rcases nextTag_spec t with ⟨cut, hn, hcut⟩ | ⟨hn, hno⟩
  · exact ⟨fun h => by simp [hn] at h, fun h => absurd hcut.toTagAt (h _ _ _)⟩
  · exact ⟨fun _ => hno, fun _ => hn⟩

/-! ## The split of a text -/

theorem tokens_of_none {t : Text} (h : nextTag t = none) : tokens t = textToken t := by
  rw [tokens]
  split
  · rfl
  · rename_i h'
    exact absurd (h.symm.trans h') (by simp)

theorem tokens_of_some {t : Text} {cut : Cut} (h : nextTag t = some cut) :
    tokens t = textToken cut.before ++ .tag cut.tag :: tokens cut.after := by
  rw [tokens]
  split
  · rename_i h'
    exact absurd (h.symm.trans h') (by simp)
  · rename_i h'
    rw [Option.some.inj (h.symm.trans h')]

/-- A text is split in at most one way. -/
theorem TagSplit.unique {t last last' : Text} {pieces pieces' : List (Text × Text)}
    (h : TagSplit t pieces last) (h' : TagSplit t pieces' last') :
    pieces = pieces' ∧ last = last' := by
  induction h generalizing pieces' last' with
  | last hno =>
    cases h' with
    | last => exact ⟨rfl, rfl⟩
    | tag hf _ => exact absurd hf.toTagAt (hno _ _ _)
  | tag hf _ ih =>
    cases h' with
    | last hno => exact absurd hf.toTagAt (hno _ _ _)
    | tag hf' hs' =>
      obtain ⟨rfl, rfl, rfl⟩ := hf.unique hf'
      obtain ⟨rfl, rfl⟩ := ih hs'
      exact ⟨rfl, rfl⟩

/-- Every text is split. -/
theorem exists_tagSplit (t : Text) : ∃ pieces last, TagSplit t pieces last := by
  fun_induction tokens t with
  | case1 t hn => exact ⟨[], t, .last (nextTag_eq_none_iff.mp hn)⟩
  | case2 t cut hn ih =>
    obtain ⟨pieces, last, hs⟩ := ih
    exact ⟨_, last, .tag (nextTag_eq_some_iff.mp hn) hs⟩

/-- The tokens of a text are the gaps and the tags of its split. -/
theorem TagSplit.tokens_eq {t last : Text} {pieces : List (Text × Text)}
    (h : TagSplit t pieces last) :
    tokens t =
      (pieces.flatMap fun p => textToken p.1 ++ [.tag (.ofBody p.2)]) ++ textToken last := by
  induction h with
  | last hno => rw [tokens_of_none (nextTag_eq_none_iff.mpr hno), List.flatMap_nil, List.nil_append]
  | @tag t before body after _ _ hf _ ih =>
    have hn : nextTag t = some ⟨before, body, after⟩ := nextTag_eq_some_iff.mpr hf
    rw [tokens_of_some hn, ih, List.flatMap_cons, List.append_assoc, List.append_assoc]
    rfl

end Markup

end Lettering
