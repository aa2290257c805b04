import Lettering.Proofs.Markup.Nesting
import Lettering.Proofs.Markup.Occurrence
import Lettering.Proofs.Text.Bytes

/-!
# Looking for tags by places

In memory the leftmost tag is looked for from a place in the text on, counted in bytes. A
cursor goes to the next `<`, and to the `>` that follows: what is sliced out between the two
is the body of a tag, unless it is empty; the search then goes on behind the `<`
(`Search.next`). Slicing may fail.

* `Search.next_skip`: the search does not notice a character that is no `<`.
* `Search.run_nextTag`: the search never fails, and finds the tag that `nextTag` cuts out.
* `search_leftmost`: this is the leftmost tag from the place on, if there is one.
-/

namespace Lettering

namespace Markup

open Text (bytes cutAt? slice? offset? IsPlace)

/-- A tag by the places at its ends, the name in it, and whether it closes an element. -/
structure PlacedTag where
  start : Nat
  stop : Nat
  name : Text
  closing : Bool
deriving DecidableEq, Repr

/-- The tag with this name. -/
def PlacedTag.tag (mark : PlacedTag) : Tag :=
  if mark.closing then .closing (String.ofList mark.name)
  else .opening (String.ofList mark.name)

/-- The tag that has a body between a `<` and a `>` at the given places. A slash in front of
    the body is not part of the name, unless it is all of the body; nothing if it cannot be
    sliced off. -/
def PlacedTag.ofBody? (lt gt : Nat) (body : Text) : Option PlacedTag :=
  if body.head? = some '/' ∧ 1 < bytes body then
    (slice? body 1 (bytes body)).map fun name => ⟨lt, gt + 1, name, true⟩
  else some ⟨lt, gt + 1, body, body == ['/']⟩

/-- Where a search stands. -/
inductive Search
  /-- What is before the cursor has been searched. -/
  | seek (cursor : Nat)
  /-- At the end, with what has been found. -/
  | done (found : Option PlacedTag)
deriving DecidableEq, Repr

namespace Search

/-- What the `<` at a place leads to, by the first `>` behind it. -/
def behindLt (t : Text) (lt : Nat) : Option Search :=
  (cutAt? t (lt + 1)).bind fun cut =>
    match offset? (· == '>') cut.2 with
    | none => some (.done none)
    | some offset =>
      let gt := lt + 1 + offset
      if lt + 1 < gt then
        (slice? t (lt + 1) gt).bind fun body =>
          (PlacedTag.ofBody? lt gt body).map fun mark => .done (some mark)
      else some (.seek (lt + 1))

/-- One turn, to the next `<`; nothing if a slice fails. -/
def next (t : Text) : Search → Option Search
  | .seek cursor =>
    (cutAt? t cursor).bind fun cut =>
      match offset? (· == '<') cut.2 with
      | none => some (.done none)
      | some offset => behindLt t (cursor + offset)
  | .done found => some (.done found)

/-- A number of turns; nothing if a slice fails in one of them. -/
def run (t : Text) : Nat → Search → Option Search
  | 0, s => some s
  | n + 1, s => (s.next t).bind (run t n)

end Search

/-- A tag with the given body stands between two places: `<`, the body, which is one or more
    characters other than `>`, and `>`. So it ends behind the first `>` in it. -/
structure StandsBetween (t : Text) (start stop : Nat) (body : Text) : Prop where
  slice?_eq : slice? t start stop = some ('<' :: (body ++ ['>']))
  body_ne_nil : body ≠ []
  not_mem_body : '>' ∉ body

/-- The name in the body of a tag. -/
def nameOf : Text → Text
  | ['/'] => ['/']
  | '/' :: name => name
  | name => name

/-- The tag at a cut of what follows `p`. -/
def Cut.placed (p : Text) (cut : Cut) : PlacedTag where
  start := bytes (p ++ cut.before)
  stop := bytes (p ++ (cut.before ++ '<' :: (cut.body ++ ['>'])))
  name := nameOf cut.body
  closing := cut.body.head? == some '/'

variable {t p r body after : Text} {c : Char} {start stop lt gt pos : Nat} {cut : Cut}

/-! ## Bodies -/

theorem nameOf_of_slash (h : r ≠ []) : nameOf ('/' :: r) = r := by
  obtain ⟨c, r, rfl⟩ := List.exists_cons_of_ne_nil h
  rfl

theorem nameOf_of_ne_slash (h : body.head? ≠ some '/') : nameOf body = body := by
  fun_cases nameOf body with
  | case1 => rfl
  | case2 => exact absurd rfl h
  | case3 => rfl

/-- The slash is sliced off in every case. -/
theorem PlacedTag.ofBody?_eq (lt gt : Nat) (body : Text) :
    ofBody? lt gt body = some ⟨lt, gt + 1, nameOf body, body.head? == some '/'⟩ := by
  by_cases hslash : body.head? = some '/'
  · obtain ⟨name, rfl⟩ := List.head?_eq_some_iff.mp hslash
    by_cases hname : name = []
    · subst hname
      rfl
    · have hlong : 1 < bytes ('/' :: name) := Nat.lt_add_of_pos_right (Text.bytes_pos hname)
      have hslice := Text.slice?_append ['/'] name []
      rw [List.append_nil] at hslice
      rw [ofBody?, if_pos ⟨hslash, hlong⟩, nameOf_of_slash hname]
      exact congrArg (Option.map _) hslice
  · have hne : (body == ['/']) = (body.head? == some '/') := by
      rw [beq_eq_false_iff_ne.mpr hslash, beq_eq_false_iff_ne]
      exact fun h => hslash (h ▸ rfl)
    rw [ofBody?, if_neg fun h => hslash h.1, nameOf_of_ne_slash hslash, hne]

/-! ## Turns -/

namespace Search

theorem next_nil (p : Text) : next p (.seek (bytes p)) = some (.done none) := by
  have hcut := Text.cutAt?_append p []
  rw [List.append_nil] at hcut
  rw [next, hcut]
  rfl

/-- The search does not notice a character that is no `<`. -/
theorem next_skip (p r : Text) (hc : c ≠ '<') :
    next (p ++ c :: r) (.seek (bytes p)) = next (p ++ c :: r) (.seek (bytes (p ++ [c]))) := by
  have hcut := Text.cutAt?_append (p ++ [c]) r
  rw [List.append_assoc, List.singleton_append] at hcut
  have hoffset : offset? (· == '<') (c :: r) = (offset? (· == '<') r).map (c.utf8Size + ·) := by
    rw [offset?, if_neg (by simpa using hc)]
  rw [next, next, Text.cutAt?_append, hcut, Option.bind_some, Option.bind_some, hoffset]
  cases offset? (· == '<') r with
  | none => rfl
  | some offset => simp [Nat.add_assoc]

theorem next_lt (p r : Text) :
    next (p ++ '<' :: r) (.seek (bytes p)) = behindLt (p ++ '<' :: r) (bytes p) := by
  rw [next, Text.cutAt?_append]
  rfl

theorem cutAt?_behindLt (p r : Text) :
    cutAt? (p ++ '<' :: r) (bytes p + 1) = some (p ++ ['<'], r) := by
  have hcut := Text.cutAt?_append (p ++ ['<']) r
  rwa [List.append_assoc, Text.bytes_append] at hcut

/-- The first `>` is where the text is cut. -/
theorem offset?_gt (r : Text) :
    offset? (· == '>') r = (cutAtClose r).map fun cut => bytes cut.1 := by
  have hne {t : Text} (h : '>' ∉ t) : ∀ c ∈ t, (c == '>') = false := by
    rintro c hc
    rw [beq_eq_false_iff_ne]
    rintro rfl
    exact h hc
  cases h : cutAtClose r with
  | none => exact Text.offset?_eq_none (hne (not_mem_of_cutAtClose h))
  | some cut =>
    obtain ⟨hr, hbody⟩ := cutAtClose_eq_some h
    rw [hr]
    exact Text.offset?_append_cons (hne hbody) rfl cut.2

/-- Without a `>` behind it the search ends. -/
theorem behindLt_of_none (p : Text) (h : cutAtClose r = none) :
    behindLt (p ++ '<' :: r) (bytes p) = some (.done none) := by
  rw [behindLt, cutAt?_behindLt, Option.bind_some, offset?_gt, h]
  rfl

/-- With a `>` directly behind it the search goes on. -/
theorem behindLt_of_nil (p : Text) (h : cutAtClose r = some ([], after)) :
    behindLt (p ++ '<' :: r) (bytes p) = some (.seek (bytes (p ++ ['<']))) := by
  rw [behindLt, cutAt?_behindLt, Option.bind_some, offset?_gt, h, Text.bytes_append]
  exact if_neg (Nat.lt_irrefl _)

/-- Otherwise it is a tag. -/
theorem behindLt_of_body (p : Text) (h : cutAtClose r = some (body, after)) (hbody : body ≠ []) :
    behindLt (p ++ '<' :: r) (bytes p) = some (.done (some (Cut.placed p ⟨[], body, after⟩))) := by
  have hslice : slice? (p ++ '<' :: r) (bytes p + 1) (bytes p + 1 + bytes body) = some body := by
    have hslice := Text.slice?_append (p ++ ['<']) body ('>' :: after)
    rwa [← (cutAtClose_eq_some h).1, List.append_assoc, Text.bytes_append, Text.bytes_append,
      Text.bytes_append] at hslice
  have hlt : bytes p + 1 < bytes p + 1 + bytes body :=
    Nat.lt_add_of_pos_right (Text.bytes_pos hbody)
  have hstop : bytes (p ++ ([] ++ '<' :: (body ++ ['>']))) = bytes p + 1 + bytes body + 1 := by
    rw [List.nil_append, Text.bytes_append, Text.bytes_cons, Text.bytes_append, ← Nat.add_assoc,
      ← Nat.add_assoc]
    rfl
  rw [behindLt, cutAt?_behindLt, Option.bind_some, offset?_gt, h, Option.map_some]
  simp only [if_pos hlt, hslice, Option.bind_some, PlacedTag.ofBody?_eq, Option.map_some,
    Cut.placed, hstop, List.append_nil]

/-! ## Runs -/

theorem run_succ {s s' : Search} (h : s.next t = some s') (n : Nat) :
    run t (n + 1) s = run t n s' := by
  rw [run, h]
  rfl

theorem run_done (t : Text) (n : Nat) (found : Option PlacedTag) :
    run t n (.done found) = some (.done found) := by
  induction n with
  | zero => rfl
  | succ n ih => exact ih

theorem run_add (t : Text) (k n : Nat) (s : Search) :
    run t (k + n) s = (run t k s).bind (run t n) := by
  induction k generalizing s with
  | zero => rw [Nat.zero_add, run, Option.bind_some]
  | succ k ih =>
    rw [Nat.succ_add, run, run, Option.bind_assoc]
    exact congrArg _ (funext ih)

/-- However many turns it is given, a search that ends has found the same. -/
theorem run_unique {s : Search} {k n : Nat} {found found' : Option PlacedTag}
    (h : run t k s = some (.done found)) (h' : run t n s = some (.done found')) :
    found = found' := by
  have hk := run_add t k n s
  have hn := run_add t n k s
  rw [h, Option.bind_some, run_done] at hk
  rw [h', Option.bind_some, run_done, Nat.add_comm, hk] at hn
  exact Search.done.inj (Option.some.inj hn)

theorem placed_precededBy (p : Text) (c : Char) (cut : Cut) :
    (cut.precededBy c).placed p = cut.placed (p ++ [c]) := by
  simp only [Cut.placed, Cut.precededBy, List.append_assoc, List.cons_append, List.nil_append]

theorem map_placed_precededBy (p : Text) (c : Char) (found : Option Cut) :
    (found.map (Cut.precededBy c)).map (Cut.placed p) = found.map (Cut.placed (p ++ [c])) := by
  rw [Option.map_map]
  exact congrArg (Option.map · found) (funext (placed_precededBy p c))

/-- The search from a place on never fails, and finds the tag that is cut out of what
    follows, in a turn for every character at most and one more. -/
theorem run_nextTag (p r : Text) :
    ∃ n ≤ r.length, run (p ++ r) (n + 1) (.seek (bytes p)) =
      some (.done ((nextTag r).map (Cut.placed p))) := by
  fun_induction nextTag r generalizing p with
  | case1 =>
    refine ⟨0, Nat.zero_le _, ?_⟩
    rw [List.append_nil]
    exact run_succ (next_nil p) 0
  | case2 r hr =>
    exact ⟨0, Nat.zero_le _, run_succ ((next_lt p r).trans (behindLt_of_none p hr)) 0⟩
  | case3 r after hr ih =>
    obtain ⟨n, hn, hrun⟩ := ih (p ++ ['<'])
    rw [List.append_assoc, List.singleton_append] at hrun
    refine ⟨n + 1, Nat.succ_le_succ hn, ?_⟩
    rw [run_succ ((next_lt p r).trans (behindLt_of_nil p hr)), hrun, map_placed_precededBy]
  | case4 r body after hbody hr =>
    have hne : body ≠ [] := fun he => hbody he
    exact ⟨0, Nat.zero_le _, run_succ ((next_lt p r).trans (behindLt_of_body p hr hne)) 0⟩
  | case5 c r hc ih =>
    -- The turn is the one that would be taken behind the character.
    obtain ⟨n, hn, hrun⟩ := ih (p ++ [c])
    rw [List.append_assoc, List.singleton_append] at hrun
    refine ⟨n, Nat.le_succ_of_le hn, ?_⟩
    rw [run, next_skip p r hc, map_placed_precededBy]
    exact hrun

end Search

/-! ## The leftmost tag -/

/-- The leftmost tag from a place on, with its body: where it stands and what it is. -/
structure LeftmostFrom (t : Text) (pos : Nat) (mark : PlacedTag) (body : Text) : Prop where
  stands : StandsBetween t mark.start mark.stop body
  le_start : pos ≤ mark.start
  start_le : ∀ {start stop : Nat} {other : Text}, pos ≤ start →
    StandsBetween t start stop other → mark.start ≤ start
  closing_iff : mark.closing ↔ body.head? = some '/'
  name_eq : mark.name = nameOf body

/-- What stands between two places is a tag of the text. -/
theorem standsBetween_iff :
    StandsBetween t start stop body ↔ ∃ before after, TagAt t before body after ∧
      bytes before = start ∧ bytes (before ++ '<' :: (body ++ ['>'])) = stop := by
  constructor
  · rintro ⟨hslice, hne, hbody⟩
    obtain ⟨before, after, ht, hstart, hstop⟩ := Text.slice?_eq_some_iff.mp hslice
    exact ⟨before, after, ⟨by simpa using ht, hne, hbody⟩, hstart, hstop⟩
  · rintro ⟨before, after, h, hstart, hstop⟩
    refine ⟨Text.slice?_eq_some_iff.mpr ⟨before, after, ?_, hstart, hstop⟩, h.body_ne_nil,
      h.not_mem_body⟩
    rw [h.eq_append]
    simp

/-- The ends of a tag are places. -/
theorem StandsBetween.isPlace (h : StandsBetween t start stop body) :
    IsPlace t start ∧ IsPlace t stop := by
  obtain ⟨before, after, ht, hstart, hstop⟩ := Text.slice?_eq_some_iff.mp h.slice?_eq
  exact ⟨⟨before, _, ht, hstart⟩, _, after, by rw [ht, List.append_assoc], hstop⟩

/-- The tags of the text from a place on are those of what follows the place. -/
theorem standsBetween_append_iff :
    bytes p ≤ start ∧ StandsBetween (p ++ r) start stop body ↔
      ∃ before after, TagAt r before body after ∧ bytes (p ++ before) = start ∧
        bytes (p ++ (before ++ '<' :: (body ++ ['>']))) = stop := by
  rw [standsBetween_iff]
  constructor
  · rintro ⟨hle, before, after, h, rfl, rfl⟩
    rcases List.append_eq_append_iff.mp h.eq_append with ⟨b, rfl, hr⟩ | ⟨b, rfl, hr⟩
    · exact ⟨b, after, ⟨hr, h.body_ne_nil, h.not_mem_body⟩, rfl, by rw [List.append_assoc]⟩
    · -- The tag starts at the place itself.
      obtain rfl : b = [] := Text.bytes_eq_zero_iff.mp (by rw [Text.bytes_append] at hle; omega)
      exact ⟨[], after, ⟨hr.symm, h.body_ne_nil, h.not_mem_body⟩, by simp, by simp⟩
  · rintro ⟨before, after, h, rfl, rfl⟩
    refine ⟨?_, p ++ before, after, ⟨?_, h.body_ne_nil, h.not_mem_body⟩, rfl, ?_⟩
    · rw [Text.bytes_append]
      exact Nat.le_add_right _ _
    · rw [List.append_assoc, ← h.eq_append]
    · rw [List.append_assoc]

/-- Of two tags, the one with fewer characters before it starts at the lower place. -/
theorem TagAt.bytes_le {b y a b' y' a' : Text} (h : TagAt t b y a) (h' : TagAt t b' y' a')
    (hl : b.length ≤ b'.length) : bytes b ≤ bytes b' := by
  have hb : b <+: t := h.eq_append ▸ List.prefix_append b _
  have hb' : b' <+: t := h'.eq_append ▸ List.prefix_append b' _
  obtain ⟨c, rfl⟩ := List.prefix_of_prefix_length_le hb hb' hl
  rw [Text.bytes_append]
  exact Nat.le_add_right _ _

/-- A cut at the leftmost tag of what follows a place is the leftmost tag from there on. -/
theorem FirstTag.leftmostFrom (h : FirstTag r cut.before cut.body cut.after) (p : Text) :
    LeftmostFrom (p ++ r) (bytes p) (cut.placed p) cut.body := by
  obtain ⟨hle, hstands⟩ := standsBetween_append_iff.mpr ⟨cut.before, cut.after, h.toTagAt, rfl, rfl⟩
  refine ⟨hstands, hle, fun hpos hother => ?_, beq_iff_eq, rfl⟩
  obtain ⟨before, after, htag, rfl, -⟩ := standsBetween_append_iff.mp ⟨hpos, hother⟩
  show bytes (p ++ cut.before) ≤ bytes (p ++ before)
  rw [Text.bytes_append, Text.bytes_append]
  exact Nat.add_le_add_left (h.bytes_le htag (h.length_le htag)) _

/-- There is only one leftmost tag. -/
theorem LeftmostFrom.unique {mark mark' : PlacedTag} {body' : Text}
    (h : LeftmostFrom t pos mark body) (h' : LeftmostFrom t pos mark' body') : mark = mark' := by
  have hstart : mark.start = mark'.start :=
    Nat.le_antisymm (h.start_le h'.le_start h'.stands) (h'.start_le h.le_start h.stands)
  obtain ⟨b, a, htag, hb, hstop⟩ := standsBetween_iff.mp h.stands
  obtain ⟨b', a', htag', hb', hstop'⟩ := standsBetween_iff.mp h'.stands
  obtain ⟨rfl, -⟩ := Text.append_inj_of_bytes (htag.eq_append.symm.trans htag'.eq_append)
    (hb.trans (hstart.trans hb'.symm))
  obtain ⟨-, rfl, -⟩ := htag.unique htag' rfl
  have hclosing : mark.closing = mark'.closing :=
    Bool.eq_iff_iff.mpr (h.closing_iff.trans h'.closing_iff.symm)
  obtain ⟨start, stop, name, closing⟩ := mark
  obtain ⟨start', stop', name', closing'⟩ := mark'
  simp only [PlacedTag.mk.injEq]
  exact ⟨hstart, hstop.symm.trans hstop', h.name_eq.trans h'.name_eq.symm, hclosing⟩

/-- No tag is cut out just where none stands from the place on. -/
theorem map_placed_eq_none_iff :
    (nextTag r).map (Cut.placed p) = none ↔
      ∀ start stop body, bytes p ≤ start → ¬StandsBetween (p ++ r) start stop body := by
  rw [Option.map_eq_none_iff, nextTag_eq_none_iff]
  constructor
  · intro h start stop body hle hstands
    obtain ⟨b, a, htag, -⟩ := standsBetween_append_iff.mp ⟨hle, hstands⟩
    exact h b body a htag
  · intro h b body a htag
    obtain ⟨hle, hstands⟩ := standsBetween_append_iff.mpr ⟨b, a, htag, rfl, rfl⟩
    exact h _ _ body hle hstands

/-- The tag that is cut out is the leftmost one from the place on. -/
theorem map_placed_eq_some_iff {mark : PlacedTag} :
    (nextTag r).map (Cut.placed p) = some mark ↔
      ∃ body, LeftmostFrom (p ++ r) (bytes p) mark body := by
  have hfound {mark : PlacedTag} (hm : (nextTag r).map (Cut.placed p) = some mark) :
      ∃ body, LeftmostFrom (p ++ r) (bytes p) mark body := by
    obtain ⟨cut, hcut, rfl⟩ := Option.map_eq_some_iff.mp hm
    exact ⟨cut.body, (nextTag_eq_some_iff.mp hcut).leftmostFrom p⟩
  refine ⟨hfound, ?_⟩
  rintro ⟨body, hm⟩
  cases hcut : (nextTag r).map (Cut.placed p) with
  | none => exact absurd hm.stands (map_placed_eq_none_iff.mp hcut _ _ _ hm.le_start)
  | some other =>
    obtain ⟨body', hother⟩ := hfound hcut
    exact congrArg some (hother.unique hm)

/-- What is placed in the text is the tag at the cut. -/
theorem tag_placed (p : Text) (cut : Cut) : (cut.placed p).tag = cut.tag := by
  obtain ⟨before, body, after⟩ := cut
  rw [Cut.tag]
  by_cases hslash : body.head? = some '/'
  · obtain ⟨name, rfl⟩ := List.head?_eq_some_iff.mp hslash
    rw [Tag.ofBody_slash]
    split
    · rename_i hname
      subst hname
      rfl
    · rename_i hname
      simp [PlacedTag.tag, Cut.placed, nameOf_of_slash hname]
  · simp [PlacedTag.tag, Cut.placed, nameOf_of_ne_slash hslash, hslash,
      Tag.ofBody_of_ne_slash hslash]

/-- The search from a place between two characters ends, without a slice that fails, in a turn
    for every character at most and one more. It finds nothing just where no tag stands in the
    text from the place on, and otherwise the leftmost one: the one that is cut out of what
    follows the place. -/
theorem search_leftmost (h : IsPlace t pos) :
    ∃ found, (∃ n ≤ t.length + 1, Search.run t n (.seek pos) = some (.done found)) ∧
      (∀ n other, Search.run t n (.seek pos) = some (.done other) → other = found) ∧
      (found = none ↔ ∀ start stop body, pos ≤ start → ¬StandsBetween t start stop body) ∧
      (∀ mark, found = some mark ↔ ∃ body, LeftmostFrom t pos mark body) ∧
      (∀ mark, found = some mark → IsPlace t mark.start ∧ IsPlace t mark.stop) ∧
      ∀ p r, t = p ++ r → bytes p = pos →
        found.map PlacedTag.tag = (nextTag r).map Cut.tag := by
  obtain ⟨p, r, rfl, rfl⟩ := h
  obtain ⟨n, hn, hrun⟩ := Search.run_nextTag p r
  have hn' : n + 1 ≤ (p ++ r).length + 1 := by
    rw [List.length_append]
    omega
  refine ⟨_, ⟨n + 1, hn', hrun⟩, fun k other hk => Search.run_unique hk hrun,
    map_placed_eq_none_iff, fun mark => map_placed_eq_some_iff, fun mark hm => ?_,
    fun p' r' ht hp => ?_⟩
  · obtain ⟨body, hbody⟩ := map_placed_eq_some_iff.mp hm
    exact hbody.stands.isPlace
  · obtain ⟨rfl, rfl⟩ := Text.append_inj_of_bytes ht hp.symm
    rw [Option.map_map]
    exact congrArg (Option.map · _) (funext (tag_placed p))

/-- Case: behind a character of two bytes, a `<` with a `>` directly behind it, and then a tag
    that has another `<` in it. -/
theorem search_leftmost_nested :
    let t : Text := ['é', '<', '>', '<', '/', 'a', '<', '>', '<', 'b', '>']
    let mark : PlacedTag := ⟨4, 9, ['a', '<'], true⟩
    IsPlace t 2 ∧ Search.run t 2 (.seek 2) = some (.done (some mark)) ∧
      ∃ body, LeftmostFrom t 2 mark body := by
  intro t mark
  have hplace : IsPlace t 2 := ⟨['é'], _, rfl, rfl⟩
  have hrun : Search.run t 2 (.seek 2) = some (.done (some mark)) := by decide
  obtain ⟨found, -, hunique, -, hsome, -⟩ := search_leftmost hplace
  exact ⟨hplace, hrun, (hsome mark).mp (hunique 2 _ hrun).symm⟩

end Markup

end Lettering
