import Lettering.Markup.Content
import Lettering.Markup.Tag

/-!
# Parsing

Tags nest: a closing tag closes the innermost open element and has its name, and
at the end of the text no element is open. `parse` reads a text into its content
or reports the first tag that breaks this.
-/

namespace Lettering

namespace Markup

/-- Why a text is not well nested. -/
inductive NestingError
  /-- A closing tag does not have the name of the innermost open element;
      `expected` is nothing when no element is open. -/
  | mismatched (expected : Option String) (found : String)
  /-- The innermost element left open at the end of the text. -/
  | unclosed (name : String)
deriving DecidableEq, Repr

/-- What the tokens hold while the elements `opened`, innermost first, are open:
    the rest of the content of the innermost one, and for every open element what
    follows it, innermost first. -/
def assemble : List String → List Token → Except NestingError (Content × List Content)
  | [], [] => .ok (.nil, [])
  | name :: _, [] => .error (.unclosed name)
  | opened, .text piece :: rest => do
    let (here, outer) ← assemble opened rest
    return (.text piece here, outer)
  | opened, .tag (.opening name) :: rest => do
    match ← assemble (name :: opened) rest with
    | (inner, next :: outer) => return (.element name inner next, outer)
    | (inner, []) => return (.element name inner .nil, [])
  | [], .tag (.closing found) :: _ => .error (.mismatched none found)
  | name :: opened, .tag (.closing found) :: rest =>
    if name = found then do
      let (here, outer) ← assemble opened rest
      return (.nil, here :: outer)
    else .error (.mismatched (some name) found)

/-- The content of a text. -/
def parse (t : Text) : Except NestingError Content := do
  let (content, _) ← assemble [] (tokens t)
  return content

/-- Well-nested tokens leave one content for every open element. -/
theorem length_of_assemble {opened : List String} {ts : List Token} {c : Content}
    {outer : List Content} (h : assemble opened ts = .ok (c, outer)) :
    outer.length = opened.length := by
  induction ts generalizing opened c outer with
  | nil =>
    cases opened with
    | nil => cases h; rfl
    | cons _ _ => simp [assemble] at h
  | cons tk ts ih =>
    cases tk with
    | text piece =>
      simp only [assemble] at h
      match hr : assemble opened ts with
      | .error e => simp [hr, bind, Except.bind] at h
      | .ok (c', outer') =>
        simp only [hr, bind, Except.bind, pure, Except.pure, Except.ok.injEq, Prod.mk.injEq] at h
        exact h.2 ▸ ih hr
    | tag t =>
      cases t with
      | opening name =>
        simp only [assemble] at h
        match hr : assemble (name :: opened) ts with
        | .error e => simp [hr, bind, Except.bind] at h
        | .ok (c', []) => simpa using ih hr
        | .ok (c', next :: outer') =>
          simp only [hr, bind, Except.bind, pure, Except.pure, Except.ok.injEq,
            Prod.mk.injEq] at h
          have := ih hr
          simp only [List.length_cons, Nat.add_right_cancel_iff] at this
          exact h.2 ▸ this
      | closing found =>
        cases opened with
        | nil => simp [assemble] at h
        | cons name opened =>
          simp only [assemble] at h
          split at h
          · match hr : assemble opened ts with
            | .error e => simp [hr, bind, Except.bind] at h
            | .ok (c', outer') =>
              simp only [hr, bind, Except.bind, pure, Except.pure, Except.ok.injEq,
                Prod.mk.injEq] at h
              rw [← h.2]
              simpa using ih hr
          · simp at h

end Markup

end Lettering
