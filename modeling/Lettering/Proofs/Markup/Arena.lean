import Lettering.Proofs.Markup.Runs

/-!
# Nodes in memory

In memory the content of a text is one list of nodes. A node is known by its
number, its place in the list; an element names its children by theirs, and
number 0 is the root. While a text is read, the elements that are open are known
by their numbers too, and every piece of text and every element is appended to
the innermost of them (`Builder.next`).

* `build_eq`: the nodes built from a text are those of its content, number by
  number, and building fails exactly as reading the content does.
* `Holds`: what is found when the numbers of children are followed.
* `holds_nodes`, `Holds.unique`: from the root of the nodes of a content one
  finds this content, and nothing else, in the order of the numbers.
-/

namespace Lettering

namespace Markup

/-! ## Building -/

/-- A node with more children, behind those it has; a piece of text has none. -/
def Node.adopt (ids : List Nat) : Node → Node
  | text piece => .text piece
  | element name children => .element name (children ++ ids)

/-- The name of an element. -/
def Node.name? : Node → Option String
  | text _ => none
  | element name _ => some name

/-- A new node at the end, the last child of `parent`. -/
def appendNode (nodes : List Node) (parent : Nat) (node : Node) : List Node :=
  (nodes ++ [node]).modify parent (.adopt [nodes.length])

/-- The nodes built so far, and the numbers of the elements that are open, the
    innermost first; the root is always open and does not count. -/
structure Builder where
  nodes : List Node
  opened : List Nat

namespace Builder

/-- There is only the root yet. -/
def start : Builder := ⟨[.element "" []], []⟩

/-- The innermost open element, or the root. -/
def innermost (b : Builder) : Nat := b.opened.headD 0

/-- The name of a numbered element. -/
def name? (b : Builder) (id : Nat) : Option String := b.nodes[id]?.bind Node.name?

/-- A new child of the innermost open element. -/
def append (b : Builder) (node : Node) : Builder :=
  { b with nodes := appendNode b.nodes b.innermost node }

/-- Takes the next token of a text. -/
def next (b : Builder) : Token → Except NestingError Builder
  | .text piece => .ok (b.append (.text piece))
  | .tag (.opening name) =>
    .ok { b.append (.element name []) with opened := b.nodes.length :: b.opened }
  | .tag (.closing found) =>
    let expected := b.opened.head?.bind b.name?
    if expected = some found then .ok { b with opened := b.opened.tail }
    else .error (.mismatched expected found)

/-- The nodes at the end of a text. -/
def finish (b : Builder) : Except NestingError (List Node) :=
  match b.opened with
  | [] => .ok b.nodes
  | id :: _ => .error (.unclosed ((b.name? id).getD ""))

/-- The nodes after some more tokens, which end the text. -/
def run (b : Builder) (ts : List Token) : Except NestingError (List Node) :=
  ts.foldlM next b >>= finish

end Builder

/-- The nodes of a text. -/
def build (t : Text) : Except NestingError (List Node) := Builder.start.run (tokens t)

/-! ## What is still to come -/

/-- The nodes with a content added at the end of the element `id`. -/
def extend (nodes : List Node) (id : Nat) (c : Content) : List Node :=
  nodes.modify id (.adopt (c.topIds nodes.length)) ++ c.nodesFrom nodes.length

/-- The nodes with a content added at the end of each of the elements, in turn. -/
def extendAll : List Node → List Nat → List Content → List Node
  | nodes, id :: ids, c :: cs => extendAll (extend nodes id c) ids cs
  | nodes, _, _ => nodes

theorem Node.adopt_nil (node : Node) : node.adopt [] = node := by
  cases node with
  | text => rfl
  | element name children => rw [adopt, List.append_nil]

theorem Node.adopt_adopt (ids later : List Nat) (node : Node) :
    (node.adopt ids).adopt later = node.adopt (ids ++ later) := by
  cases node with
  | text => rfl
  | element name children => rw [adopt, adopt, adopt, List.append_assoc]

theorem Node.name?_adopt (ids : List Nat) (node : Node) : (node.adopt ids).name? = node.name? := by
  cases node <;> rfl

theorem modify_append_of_lt {α : Type} {l r : List α} {i : Nat} (h : i < l.length) (f : α → α) :
    (l ++ r).modify i f = l.modify i f ++ r := by
  induction l generalizing i with
  | nil => exact absurd h (Nat.not_lt_zero i)
  | cons a l ih =>
    cases i with
    | zero => rfl
    | succ i =>
      rw [List.cons_append, List.modify_succ_cons, List.modify_succ_cons, List.cons_append,
        ih (Nat.lt_of_succ_lt_succ h)]

theorem modify_append_length {α : Type} (l : List α) (a : α) (f : α → α) :
    (l ++ [a]).modify l.length f = l ++ [f a] := by
  induction l with
  | nil => rfl
  | cons b l ih =>
    rw [List.cons_append, List.length_cons, List.modify_succ_cons, ih, List.cons_append]

variable {nodes : List Node} {i : Nat}

theorem appendNode_eq (h : i < nodes.length) (node : Node) :
    appendNode nodes i node = nodes.modify i (.adopt [nodes.length]) ++ [node] :=
  modify_append_of_lt h _

@[simp] theorem length_appendNode (nodes : List Node) (i : Nat) (node : Node) :
    (appendNode nodes i node).length = nodes.length + 1 := by
  simp [appendNode]

@[simp] theorem length_extend (nodes : List Node) (i : Nat) (c : Content) :
    (extend nodes i c).length = nodes.length + c.size := by
  rw [extend, List.length_append, List.length_modify, Content.length_nodesFrom]

/-- Adopting twice is adopting once. -/
theorem modify_adopt_adopt (nodes : List Node) (i : Nat) (ids later : List Nat) :
    (nodes.modify i (.adopt ids)).modify i (.adopt later) =
      nodes.modify i (.adopt (ids ++ later)) := by
  rw [List.modify_modify_eq]
  congr 1
  funext node
  exact node.adopt_adopt ids later

theorem extend_nil (nodes : List Node) (i : Nat) : extend nodes i .nil = nodes := by
  have h : Node.adopt [] = id := funext Node.adopt_nil
  rw [extend, Content.topIds, Content.nodesFrom, List.append_nil, h, List.modify_id]

/-- A piece of text in front of a content to come. -/
theorem extend_text (h : i < nodes.length) (piece : Text) (next : Content) :
    extend (appendNode nodes i (.text piece)) i next = extend nodes i (.text piece next) := by
  have hi' : i < (nodes.modify i (.adopt [nodes.length])).length := by rwa [List.length_modify]
  rw [extend, length_appendNode, appendNode_eq h, modify_append_of_lt hi', modify_adopt_adopt,
    List.append_assoc]
  rfl

/-- An element in front of a content to come. -/
theorem extend_element (h : i < nodes.length) (name : String) (inner next : Content) :
    extend (extend (appendNode nodes i (.element name [])) nodes.length inner) i next =
      extend nodes i (.element name inner next) := by
  have hl : (nodes.modify i (.adopt [nodes.length])).length = nodes.length := List.length_modify ..
  -- The inner content goes into the node just appended, the last one.
  have hi : extend (appendNode nodes i (.element name [])) nodes.length inner =
      nodes.modify i (.adopt [nodes.length]) ++
        .element name (inner.topIds (nodes.length + 1)) :: inner.nodesFrom (nodes.length + 1) := by
    have hm := modify_append_length (nodes.modify i (.adopt [nodes.length])) (.element name [])
      (.adopt (inner.topIds (nodes.length + 1)))
    rw [hl] at hm
    rw [extend, length_appendNode, appendNode_eq h, hm, List.append_assoc]
    rfl
  have hi' : i < (nodes.modify i (.adopt [nodes.length])).length := by rwa [hl]
  rw [extend, length_extend, length_appendNode, hi, modify_append_of_lt hi', modify_adopt_adopt,
    List.append_assoc, List.cons_append]
  rfl

/-! ## Reading on -/

namespace Builder

variable {b b' : Builder} {names : List String} {tk : Token} {ts : List Token}

theorem run_cons_of_ok (h : b.next tk = .ok b') : b.run (tk :: ts) = b'.run ts := by
  rw [run, List.foldlM_cons, h]
  rfl

theorem run_cons_of_error {e : NestingError} (h : b.next tk = .error e) :
    b.run (tk :: ts) = .error e := by
  rw [run, List.foldlM_cons, h]
  rfl

/-- The open elements have the given names, the innermost first. -/
structure Opens (b : Builder) (names : List String) : Prop where
  nodes_ne_nil : b.nodes ≠ []
  map_name? : b.opened.map b.name? = names.map some

theorem lt_of_name?_eq_some {i : Nat} {name : String} (h : b.name? i = some name) :
    i < b.nodes.length := by
  obtain ⟨node, hnode, -⟩ := Option.bind_eq_some_iff.mp h
  exact (List.getElem?_eq_some_iff.mp hnode).1

theorem Opens.lt (h : b.Opens names) {i : Nat} (hi : i ∈ b.opened) : i < b.nodes.length := by
  have hm : b.name? i ∈ names.map some := h.map_name? ▸ List.mem_map_of_mem hi
  obtain ⟨name, -, hname⟩ := List.mem_map.mp hm
  exact lt_of_name?_eq_some hname.symm

theorem Opens.innermost_lt (h : b.Opens names) : b.innermost < b.nodes.length := by
  rw [innermost]
  cases ho : b.opened with
  | nil => exact List.length_pos_iff.mpr h.nodes_ne_nil
  | cons i _ =>
    have hi : i ∈ b.opened := by
      rw [ho]
      exact List.mem_cons_self
    exact h.lt hi

/-- A new node does not change the names of those there are. -/
theorem name?_append (hb : b.innermost < b.nodes.length) (node : Node) {i : Nat}
    (hi : i < b.nodes.length) : (b.append node).name? i = b.name? i := by
  have hl : i < (b.nodes.modify b.innermost (.adopt [b.nodes.length])).length := by
    rwa [List.length_modify]
  rw [name?, name?, append, appendNode_eq hb, List.getElem?_append_left hl, List.getElem?_modify]
  cases b.nodes[i]? with
  | none => rfl
  | some node =>
    by_cases he : b.innermost = i
    · simp [he, Node.name?_adopt]
    · simp [he]

/-- A new element has its name. -/
theorem name?_append_length (hb : b.innermost < b.nodes.length) (name : String) :
    (b.append (.element name [])).name? b.nodes.length = some name := by
  have hl : (b.nodes.modify b.innermost (.adopt [b.nodes.length])).length = b.nodes.length :=
    List.length_modify ..
  rw [name?, append, appendNode_eq hb, List.getElem?_append_right (Nat.le_of_eq hl), hl,
    Nat.sub_self]
  rfl

theorem Opens.append (h : b.Opens names) (node : Node) : (b.append node).Opens names where
  nodes_ne_nil hn := by
    have hl := length_appendNode b.nodes b.innermost node
    rw [show appendNode b.nodes b.innermost node = [] from hn] at hl
    simp at hl
  map_name? := by
    rw [← h.map_name?]
    exact List.map_congr_left fun i hi => name?_append h.innermost_lt node (h.lt hi)

/-- The new element is the innermost open one. -/
theorem Opens.opening (h : b.Opens names) (name : String) :
    ({ b.append (.element name []) with opened := b.nodes.length :: b.opened } : Builder).Opens
      (name :: names) where
  nodes_ne_nil := (h.append (.element name [])).nodes_ne_nil
  map_name? := by
    have hm := (h.append (.element name [])).map_name?
    rw [List.map_cons, List.map_cons, ← hm]
    exact congrArg (· :: _) (name?_append_length h.innermost_lt name)

/-- The names of the open elements are those that are kept. -/
theorem Opens.head?_bind_name? (h : b.Opens names) : b.opened.head?.bind b.name? = names.head? := by
  have hm := congrArg List.head? h.map_name?
  rw [List.head?_map, List.head?_map] at hm
  cases ho : b.opened.head? <;> cases hn : names.head? <;> simp [ho, hn] at hm ⊢
  exact hm

theorem Opens.closing {name : String} (h : b.Opens (name :: names)) :
    ({ b with opened := b.opened.tail } : Builder).Opens names where
  nodes_ne_nil := h.nodes_ne_nil
  map_name? := by
    have hm := congrArg List.tail h.map_name?
    rw [← List.map_tail, ← List.map_tail] at hm
    exact hm

/-- The elements that more content may go into, the innermost first. -/
theorem waiting_eq (b : Builder) : ∃ outer, b.opened ++ [0] = b.innermost :: outer := by
  rw [innermost]
  cases b.opened with
  | nil => exact ⟨[], rfl⟩
  | cons i outer => exact ⟨outer ++ [0], rfl⟩

/-- The nodes built from more tokens are those there are, with what the tokens
    hold at the end of the open elements. -/
theorem run_eq (h : b.Opens names) (ts : List Token) :
    b.run ts = (assemble names ts).map fun held =>
      extendAll b.nodes (b.opened ++ [0]) (held.1 :: held.2) := by
  -- The induction is on the tokens, in the cases in which they are assembled. There
  -- closing tags are compared with names, here with the numbered elements, which
  -- have the same names.
  fun_induction assemble names ts generalizing b with
  | case1 =>
    have ho : b.opened = [] := List.map_eq_nil_iff.mp h.map_name?
    rw [ho, List.nil_append]
    show b.finish = .ok (extend b.nodes 0 .nil)
    rw [finish, ho, extend_nil]
  | case2 name names =>
    obtain ⟨i, outer, ho, hi, -⟩ := List.map_eq_cons_iff.mp h.map_name?
    show b.finish = .error (.unclosed name)
    rw [finish, ho]
    simp only [hi, Option.getD_some]
  | case3 names piece rest ih =>
    obtain ⟨outer, ho⟩ := b.waiting_eq
    have hr : b.run (.text piece :: rest) = (b.append (.text piece)).run rest := run_cons_of_ok rfl
    rw [hr, ih (h.append _)]
    cases assemble names rest with
    | error e => rfl
    | ok held =>
      refine congrArg Except.ok ?_
      show extendAll (b.append (.text piece)).nodes (b.opened ++ [0]) _ =
        extendAll b.nodes (b.opened ++ [0]) _
      rw [ho, extendAll, extendAll]
      exact congrArg (extendAll · _ _) (extend_text h.innermost_lt piece _)
  | case4 names name rest ih =>
    obtain ⟨outer, ho⟩ := b.waiting_eq
    have hr : b.run (.tag (.opening name) :: rest) =
        Builder.run { b.append (.element name []) with opened := b.nodes.length :: b.opened }
          rest :=
      run_cons_of_ok rfl
    rw [hr, ih (h.opening name)]
    cases ha : assemble (name :: names) rest with
    | error e => rfl
    | ok held =>
      obtain ⟨inner, _ | ⟨next, later⟩⟩ := held
      · -- Behind an open element there is always a content to come.
        exact absurd (length_of_assemble ha) (by simp)
      · refine congrArg Except.ok ?_
        show extendAll (b.append (.element name [])).nodes (b.nodes.length :: (b.opened ++ [0])) _ =
          extendAll b.nodes (b.opened ++ [0]) _
        rw [ho, extendAll, extendAll, extendAll]
        exact congrArg (extendAll · _ _) (extend_element h.innermost_lt name inner next)
  | case5 found rest =>
    refine run_cons_of_error ?_
    rw [next, h.head?_bind_name?]
    rfl
  | case6 names found rest ih =>
    obtain ⟨i, outer, ho, -, -⟩ := List.map_eq_cons_iff.mp h.map_name?
    have hn : b.next (.tag (.closing found)) = .ok { b with opened := b.opened.tail } := by
      rw [next, h.head?_bind_name?]
      exact if_pos rfl
    rw [run_cons_of_ok hn, ih h.closing]
    cases assemble names rest with
    | error e => rfl
    | ok held =>
      refine congrArg Except.ok ?_
      rw [ho]
      show extendAll b.nodes (outer ++ [0]) _ = extendAll (extend b.nodes i .nil) (outer ++ [0]) _
      rw [extend_nil]
  | case7 name names found rest hne =>
    refine run_cons_of_error ?_
    rw [next, h.head?_bind_name?]
    exact if_neg fun he => hne (Option.some.inj he)

end Builder

/-- The nodes of a text are those of its content. -/
theorem build_eq (t : Text) : build t = (parse t).map Content.nodes := by
  have h : Builder.start.Opens [] := ⟨by simp [Builder.start], rfl⟩
  rw [build, Builder.run_eq h, parse]
  cases assemble [] (tokens t) with
  | error e => rfl
  | ok held => rfl

/-! ## Following the numbers -/

/-- Following the numbers `ids` and, from every element to its children, theirs,
    one visits nodes in the order `visited`, and they hold a content. -/
inductive Holds (nodes : List Node) : (ids visited : List Nat) → Content → Prop
  | nil : Holds nodes [] [] .nil
  | text {i : Nat} {ids visited : List Nat} {piece : Text} {next : Content} :
    nodes[i]? = some (.text piece) → Holds nodes ids visited next →
      Holds nodes (i :: ids) (i :: visited) (.text piece next)
  | element {i : Nat} {ids children inside visited : List Nat} {name : String}
    {inner next : Content} :
    nodes[i]? = some (.element name children) → Holds nodes children inside inner →
      Holds nodes ids visited next →
        Holds nodes (i :: ids) (i :: (inside ++ visited)) (.element name inner next)

/-- At most one content is found. -/
theorem Holds.unique {ids visited visited' : List Nat} {c c' : Content}
    (h : Holds nodes ids visited c) (h' : Holds nodes ids visited' c') :
    visited = visited' ∧ c = c' := by
  induction h generalizing visited' c' with
  | nil =>
    cases h'
    exact ⟨rfl, rfl⟩
  | text hi _ ih =>
    cases h' with
    | text hi' h' =>
      cases hi.symm.trans hi'
      obtain ⟨rfl, rfl⟩ := ih h'
      exact ⟨rfl, rfl⟩
    | element hi' => cases hi.symm.trans hi'
  | element hi _ _ ihi ihn =>
    cases h' with
    | text hi' => cases hi.symm.trans hi'
    | element hi' hi'' h' =>
      cases hi.symm.trans hi'
      obtain ⟨rfl, rfl⟩ := ihi hi''
      obtain ⟨rfl, rfl⟩ := ihn h'
      exact ⟨rfl, rfl⟩

theorem getElem?_append_length {α : Type} (l r : List α) (a : α) :
    (l ++ a :: r)[l.length]? = some a := by
  rw [List.getElem?_append_right (Nat.le_refl _), Nat.sub_self]
  rfl

/-- A content is found where its nodes stand. -/
theorem holds_nodesFrom (before after : List Node) (c : Content) :
    Holds (before ++ c.nodesFrom before.length ++ after) (c.topIds before.length)
      (List.range' before.length c.size) c := by
  -- The nodes around the content are arbitrary, as those of an element stand among
  -- the nodes behind it.
  induction c generalizing before after with
  | nil => exact .nil
  | text piece next ih =>
    have ih := ih (before ++ [.text piece]) after
    rw [List.length_append, List.length_singleton, ← List.append_cons] at ih
    rw [Content.nodesFrom, List.append_assoc, List.cons_append]
    rw [List.append_assoc, List.cons_append] at ih
    exact .text (getElem?_append_length before _ _) ih
  | element name inner next ihi ihn =>
    let node : Node := .element name (inner.topIds (before.length + 1))
    have ihi := ihi (before ++ [node]) (next.nodesFrom (before.length + 1 + inner.size) ++ after)
    have ihn := ihn (before ++ node :: inner.nodesFrom (before.length + 1)) after
    have hl : (before ++ node :: inner.nodesFrom (before.length + 1)).length =
        before.length + 1 + inner.size := by
      rw [List.length_append, List.length_cons, Content.length_nodesFrom]
      omega
    rw [List.length_append, List.length_singleton] at ihi
    rw [hl] at ihn
    simp only [List.append_assoc, List.cons_append, List.nil_append] at ihi ihn
    have hs : Content.size (.element name inner next) = inner.size + next.size + 1 := rfl
    rw [Content.nodesFrom, List.append_assoc, List.cons_append, List.append_assoc, hs,
      List.range'_succ, ← List.range'_append_1]
    exact .element (getElem?_append_length before _ node) ihi ihn

/-- The nodes of a content hold it: from the root one visits all others, in the
    order of their numbers. -/
theorem holds_nodes (c : Content) :
    c.nodes[0]? = some (.element "" (c.topIds 1)) ∧
      Holds c.nodes (c.topIds 1) (List.range' 1 c.size) c := by
  have h := holds_nodesFrom [.element "" (c.topIds 1)] [] c
  rw [List.append_nil] at h
  exact ⟨rfl, h⟩

end Markup

end Lettering
