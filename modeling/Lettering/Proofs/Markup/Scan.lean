import Lettering.Proofs.Markup.Arena

/-!
# Runs in one pass

The runs of a text can be had in two ways. In memory they are collected from the
nodes, by a walk that keeps a list of what is still to be visited: the children of
an element go in front of it, and behind them a mark at which the element is left
(`Walk.next`). But no nodes are needed for them: they are the gaps between the
tags, each with the names of the elements that the tags before it have left open
(`scan`).

* `Walk.run_visits`: the walk visits a content, finds its runs, and comes back to
  where it was.
* `Reads.scan_eq`: tokens are scanned into the runs of what they hold.
* `runs_eq_scan`: both ways lead to the same runs.
-/

namespace Lettering

namespace Markup

/-- The run of a piece of text, if it is not empty. -/
def runOf (context : List String) (piece : Text) : List Run :=
  if piece = [] then [] else [⟨context, piece⟩]

theorem Content.runs_text (context : List String) (piece : Text) (next : Content) :
    (Content.text piece next).runs context = runOf context piece ++ next.runs context := by
  rw [runs, runOf]
  split <;> rfl

/-! ## Walking through nodes -/

/-- What a walk still has to do: to visit a node, or to leave an element. -/
inductive Visit
  | node (i : Nat)
  | leave
deriving DecidableEq, Repr

/-- A walk: the runs found so far, the names of the elements it is in, outermost
    first, and what it has to do, the next thing first. -/
structure Walk where
  runs : List Run
  context : List String
  pending : List Visit
deriving DecidableEq, Repr

namespace Walk

/-- The walk before its first turn. -/
def start : Walk := ⟨[], [], [.node 0]⟩

/-- Visits the node numbered `i`. The root does not count as an element. -/
def visit (w : Walk) (i : Nat) : Node → Walk
  | .text piece => { w with runs := w.runs ++ runOf w.context piece }
  | .element name children =>
    if i = 0 then { w with pending := children.map .node ++ w.pending }
    else
      { w with
        context := w.context ++ [name]
        pending := children.map .node ++ .leave :: w.pending }

/-- One turn; nothing if there is no node to visit. -/
def next (nodes : List Node) (w : Walk) : Option Walk :=
  match w.pending with
  | [] => some w
  | .leave :: later => some { w with context := w.context.dropLast, pending := later }
  | .node i :: later => nodes[i]?.map (visit { w with pending := later } i)

/-- A number of turns; nothing if a node is missing in one of them. -/
def run (nodes : List Node) : Nat → Walk → Option Walk
  | 0, w => some w
  | n + 1, w => (w.next nodes).bind (run nodes n)

/-- The turns that it takes to visit a content: one for every node, and one to
    leave every element. -/
def turns : Content → Nat
  | .nil => 0
  | .text _ next => turns next + 1
  | .element _ inner next => turns inner + turns next + 2

theorem turns_le (c : Content) : turns c ≤ 2 * c.size := by
  induction c with
  | nil => exact Nat.le_refl 0
  | text _ _ ih =>
    simp only [turns, Content.size]
    omega
  | element _ _ _ ihi ihn =>
    simp only [turns, Content.size]
    omega

variable {nodes : List Node} {ids visited : List Nat} {c : Content}

theorem run_succ {w w' : Walk} (h : w.next nodes = some w') (n : Nat) :
    run nodes (n + 1) w = run nodes n w' := by
  rw [run, h]
  rfl

theorem next_node (runs : List Run) (context : List String) (later : List Visit) {i : Nat}
    {node : Node} (h : nodes[i]? = some node) :
    next nodes ⟨runs, context, .node i :: later⟩ = some (visit ⟨runs, context, later⟩ i node) := by
  show nodes[i]?.map _ = _
  rw [h]
  rfl

theorem next_leave (runs : List Run) (context : List String) (name : String) (later : List Visit) :
    next nodes ⟨runs, context ++ [name], .leave :: later⟩ = some ⟨runs, context, later⟩ := by
  show some (⟨runs, (context ++ [name]).dropLast, later⟩ : Walk) = _
  rw [List.dropLast_concat]

/-- The walk visits a content, finds its runs, and comes back to where it was,
    whatever it has to do next. -/
theorem run_visits (h : Holds nodes ids visited c) (h0 : 0 ∉ visited) (runs : List Run)
    (context : List String) (later : List Visit) (n : Nat) :
    run nodes (turns c + n) ⟨runs, context, ids.map .node ++ later⟩ =
      run nodes n ⟨runs ++ c.runs context, context, later⟩ := by
  induction h generalizing runs context later n with
  | nil =>
    rw [turns, Nat.zero_add, Content.runs, List.append_nil]
    rfl
  | @text i ids visited piece following hi _ ih =>
    rw [turns, Nat.add_right_comm, List.map_cons, List.cons_append,
      run_succ (next_node runs context _ hi), visit, ih (List.not_mem_of_not_mem_cons h0),
      Content.runs_text, List.append_assoc]
  | @element i ids children inside visited name inner following hi _ _ ihi ihn =>
    have hi0 : i ≠ 0 := fun he => h0 (he ▸ List.mem_cons_self)
    have h0 := List.not_mem_of_not_mem_cons h0
    rw [List.mem_append, not_or] at h0
    have ht : turns (.element name inner following) + n =
        turns inner + (turns following + n + 1) + 1 := by
      rw [turns]
      omega
    -- Behind the children the walk comes to the mark at which it leaves the element.
    rw [ht, List.map_cons, List.cons_append, run_succ (next_node runs context _ hi), visit,
      if_neg hi0, ihi h0.1, run_succ (next_leave _ _ _ _), ihn h0.2, List.append_assoc]
    rfl

/-- The walk through the nodes of a content ends with its runs. -/
theorem run_nodes (c : Content) :
    ∃ n ≤ 2 * c.size + 1, run c.nodes n start = some ⟨c.runs [], [], []⟩ := by
  obtain ⟨hroot, hc⟩ := holds_nodes c
  have h0 : 0 ∉ List.range' 1 c.size := fun hm => by
    have := (List.mem_range'_1.mp hm).1
    omega
  refine ⟨turns c + 1, Nat.succ_le_succ (turns_le c), ?_⟩
  rw [start, run_succ (next_node [] [] [] hroot)]
  exact run_visits hc h0 [] [] [] 0

end Walk

/-! ## Scanning -/

/-- The elements open behind a tag, innermost first. -/
def Tag.openBehind (opened : List String) : Tag → List String
  | opening name => name :: opened
  | closing _ => opened.tail

/-- The runs of a split text while the elements `opened`, innermost first, are
    open: one for every gap that is not empty. -/
def scan (opened : List String) : List (Text × Text) → Text → List Run
  | [], last => runOf opened.reverse last
  | (gap, body) :: pieces, last =>
    runOf opened.reverse gap ++ scan ((Tag.ofBody body).openBehind opened) pieces last

/-- The same with tokens. -/
def scanTokens (opened : List String) : List Token → List Run
  | [] => []
  | .text piece :: ts => runOf opened.reverse piece ++ scanTokens opened ts
  | .tag t :: ts => scanTokens (t.openBehind opened) ts

/-- The runs of what follows the open elements, innermost first. -/
def outerRuns : List String → List Content → List Run
  | _ :: opened, c :: outer => c.runs opened.reverse ++ outerRuns opened outer
  | _, _ => []

/-- Tokens are scanned into the runs of what they hold. -/
theorem Reads.scan_eq {opened : List String} {ts : List Token} {here : Content}
    {outer : List Content} (h : Reads opened ts here outer) :
    scanTokens opened ts = here.runs opened.reverse ++ outerRuns opened outer := by
  induction h with
  | done => rfl
  | text piece _ ih => rw [scanTokens, ih, Content.runs_text, List.append_assoc]
  | opening name _ ih =>
    rw [scanTokens, Tag.openBehind, ih, outerRuns, List.reverse_cons, Content.runs,
      List.append_assoc]
  | closing name _ ih => exact ih

theorem scanTokens_textToken (opened : List String) (gap : Text) (ts : List Token) :
    scanTokens opened (textToken gap ++ ts) = runOf opened.reverse gap ++ scanTokens opened ts := by
  cases gap <;> rfl

/-- The tokens of a text are scanned as its split is. -/
theorem TagSplit.scan_eq {t last : Text} {pieces : List (Text × Text)} (h : TagSplit t pieces last)
    (opened : List String) : scanTokens opened (tokens t) = scan opened pieces last := by
  rw [h.tokens_eq]
  clear h
  induction pieces generalizing opened with
  | nil =>
    have hl := scanTokens_textToken opened last []
    rw [List.append_nil] at hl
    exact hl.trans (List.append_nil _)
  | cons p pieces ih =>
    rw [List.flatMap_cons, List.append_assoc, List.append_assoc, scanTokens_textToken, scan]
    exact congrArg _ (ih _)

variable {t : Text} {c : Content}

/-- The runs of a text are had by scanning it from left to right with the names of
    the open elements, and a walk through the nodes built from it finds the same
    ones. -/
theorem runs_eq_scan (h : parse t = .ok c) :
    ∃ pieces last, (∀ ps l, TagSplit t ps l ↔ ps = pieces ∧ l = last) ∧
      c.runs [] = scan [] pieces last ∧
      build t = .ok c.nodes ∧
      ∃ n ≤ 2 * c.size + 1, Walk.run c.nodes n .start = some ⟨scan [] pieces last, [], []⟩ := by
  obtain ⟨pieces, last, hs⟩ := exists_tagSplit t
  have hr : c.runs [] = scan [] pieces last := by
    rw [← hs.scan_eq, (reads_of_parse h).scan_eq]
    exact (List.append_nil _).symm
  refine ⟨pieces, last, fun ps l => ⟨fun h => h.unique hs, ?_⟩, hr, by rw [build_eq, h]; rfl, ?_⟩
  · rintro ⟨rfl, rfl⟩
    exact hs
  · rw [← hr]
    exact Walk.run_nodes c

/-- Case: an element inside one of the same name. -/
theorem runs_eq_scan_nested :
    let t : Text :=
      ['<', 'b', '>', 'x', '<', 'b', '>', 'y', '<', '/', 'b', '>', '<', '/', 'b', '>', 'z']
    let c : Content :=
      .element "b" (.text ['x'] (.element "b" (.text ['y'] .nil) .nil)) (.text ['z'] .nil)
    parse t = .ok c ∧
      ∃ pieces last, (∀ ps l, TagSplit t ps l ↔ ps = pieces ∧ l = last) ∧
        c.runs [] = scan [] pieces last ∧
        build t = .ok c.nodes ∧
        ∃ n ≤ 2 * c.size + 1, Walk.run c.nodes n .start = some ⟨scan [] pieces last, [], []⟩ := by
  intro t c
  have h : parse t = .ok c := by cbv
  exact ⟨h, runs_eq_scan h⟩

end Markup

end Lettering
