import Lettering.Text.Basic

/-!
# Tags

A tag is `<`, one or more characters other than `>`, and `>`; it closes an
element when the first of them is a slash. Everything else is text, `<>` and a
`<` without a later `>` included, so every text is a sequence of tokens.

* `nextTag` finds the leftmost tag; nothing is lost: the text before it, its
  written form and the text after it make up the whole (`nextTag_eq_some`).
* `tokens` cuts a text into its tags and the pieces of text between them.
-/

namespace Lettering

namespace Markup

/-- A tag, opening or closing an element. -/
inductive Tag
  | opening (name : String)
  | closing (name : String)
deriving DecidableEq, Repr

/-- A piece of text between tags, or a tag. -/
inductive Token
  | text (content : Text)
  | tag (tag : Tag)
deriving DecidableEq, Repr

/-- The tag with what stands between its angle brackets. A slash alone closes an
    element named by a slash. -/
def Tag.ofBody : Text → Tag
  | ['/'] => .closing "/"
  | '/' :: name => .closing (String.ofList name)
  | name => .opening (String.ofList name)

/-- A text cut around its leftmost tag, kept as its body. -/
structure Cut where
  before : Text
  body : Text
  after : Text
deriving DecidableEq, Repr

/-- The tag at a cut. -/
def Cut.tag (c : Cut) : Tag := .ofBody c.body

/-- The same cut in a text that has the character `c` in front. -/
def Cut.precededBy (c : Char) (cut : Cut) : Cut := { cut with before := c :: cut.before }

/-- What precedes the first `>`, and what follows it. -/
def cutAtClose : Text → Option (Text × Text)
  | [] => none
  | c :: r => if c = '>' then some ([], r) else (cutAtClose r).map fun (b, a) => (c :: b, a)

/-- The leftmost tag. A `<` directly before a `>` opens no tag; after a `<`
    without a later `>` there is none at all. -/
def nextTag : Text → Option Cut
  | [] => none
  | c :: r =>
    if c = '<' then
      match cutAtClose r with
      | none => none
      | some ([], _) => (nextTag r).map (.precededBy c)
      | some (body, after) => some ⟨[], body, after⟩
    else (nextTag r).map (.precededBy c)

theorem cutAtClose_eq_some {t b a : Text} (h : cutAtClose t = some (b, a)) :
    t = b ++ '>' :: a ∧ '>' ∉ b := by
  induction t generalizing b with
  | nil => simp [cutAtClose] at h
  | cons c r ih =>
    simp only [cutAtClose] at h
    split at h
    · rename_i hc
      simp only [Option.some.injEq, Prod.mk.injEq] at h
      obtain ⟨rfl, rfl⟩ := h
      simp [hc]
    · rename_i hc
      obtain ⟨⟨b', a'⟩, hr, he⟩ := Option.map_eq_some_iff.mp h
      simp only [Prod.mk.injEq] at he
      obtain ⟨rfl, rfl⟩ := he
      obtain ⟨rfl, hb⟩ := ih hr
      simp [hb, Ne.symm hc]

/-- The pieces of a cut make up the text, and the body is that of a tag. -/
theorem nextTag_eq_some {t : Text} {cut : Cut} (h : nextTag t = some cut) :
    t = cut.before ++ '<' :: (cut.body ++ '>' :: cut.after) ∧ cut.body ≠ [] ∧ '>' ∉ cut.body := by
  induction t generalizing cut with
  | nil => simp [nextTag] at h
  | cons c r ih =>
    have later : (nextTag r).map (.precededBy c) = some cut →
        c :: r = cut.before ++ '<' :: (cut.body ++ '>' :: cut.after) ∧
          cut.body ≠ [] ∧ '>' ∉ cut.body := by
      intro h
      obtain ⟨cut', hr, rfl⟩ := Option.map_eq_some_iff.mp h
      obtain ⟨he, hb, hn⟩ := ih hr
      exact ⟨by simpa [Cut.precededBy] using he, hb, hn⟩
    simp only [nextTag] at h
    split at h
    · rename_i hc
      split at h
      · simp at h
      · exact later h
      · rename_i body after hbody hcut
        simp only [Option.some.injEq] at h
        subst h
        obtain ⟨he, hn⟩ := cutAtClose_eq_some hcut
        refine ⟨by simp [hc, he], ?_, hn⟩
        rintro rfl
        exact hbody rfl
    · exact later h

/-- What follows a tag is shorter than the text. -/
theorem length_after_lt {t : Text} {cut : Cut} (h : nextTag t = some cut) :
    cut.after.length < t.length := by
  rw [(nextTag_eq_some h).1]
  simp only [List.length_append, List.length_cons]
  omega

/-- A piece of text between tags; an empty one is no token. -/
def textToken : Text → List Token
  | [] => []
  | t => [.text t]

/-- The tags of a text and the pieces of text between them, in order. -/
def tokens (t : Text) : List Token :=
  match _h : nextTag t with
  | none => textToken t
  | some cut => textToken cut.before ++ .tag cut.tag :: tokens cut.after
termination_by t.length
decreasing_by exact length_after_lt _h

end Markup

end Lettering
