import Lettering.Proofs.Markup.Printing
import Mathlib.Data.List.Chain
import Mathlib.Data.List.Nodup

/-!
# Document order

The nodes of a text are numbered in document order: whoever visits the root and
then, behind every node, its children in turn, comes by all nodes in the order of
their numbers (`Traverses`). This one fact makes them a tree. The numbers visited
are those that the traversal starts with and those in the lists of children, each
as often as it is listed (`Traverses.perm`); as none is visited twice, a node is
listed once, by one parent. And a child is visited behind its parent, so that its
number is greater (`Traverses.lt_of_mem`).

No piece of text is empty, and no two of them are neighbours, because the tokens
of a text are such (`separated_tokens`) and nodes hold what the tokens hold.
-/

namespace Lettering

namespace Markup

/-! ## Traversals -/

/-- The numbers of the children of a node. -/
def Node.children : Node → List Nat
  | text _ => []
  | element _ children => children

/-- The numbers of the children of a numbered node. -/
def childrenOf (nodes : List Node) (id : Nat) : List Nat :=
  (nodes[id]?.map Node.children).getD []

/-- Whoever visits the nodes `ids` in turn, and behind each of them its children in
    the same way, comes by the nodes `visited` in this order. -/
inductive Traverses (nodes : List Node) : (ids visited : List Nat) → Prop
  | nil : Traverses nodes [] []
  | node {i : Nat} {ids inside behind : List Nat} {node : Node} :
    nodes[i]? = some node → Traverses nodes node.children inside →
      Traverses nodes ids behind → Traverses nodes (i :: ids) (i :: (inside ++ behind))

variable {nodes : List Node} {ids visited : List Nat}

theorem childrenOf_eq {i : Nat} {node : Node} (h : nodes[i]? = some node) :
    childrenOf nodes i = node.children := by
  rw [childrenOf, h]
  rfl

/-- Only nodes have children. -/
theorem lt_of_mem_childrenOf {i child : Nat} (h : child ∈ childrenOf nodes i) :
    i < nodes.length := by
  by_contra hi
  rw [childrenOf, List.getElem?_eq_none (Nat.not_lt.mp hi)] at h
  cases h

/-- A traversal is determined by where it starts. -/
theorem Traverses.unique {visited' : List Nat} (h : Traverses nodes ids visited)
    (h' : Traverses nodes ids visited') : visited = visited' := by
  induction h generalizing visited' with
  | nil =>
    cases h'
    rfl
  | node hi _ _ ihi ihb =>
    cases h' with
    | node hi' hin' hb' =>
      cases hi.symm.trans hi'
      rw [ihi hin', ihb hb']

/-- A content is found by traversing its nodes. -/
theorem Holds.traverses {c : Content} (h : Holds nodes ids visited c) :
    Traverses nodes ids visited := by
  induction h with
  | nil => exact .nil
  | text hi _ ih => exact .node hi .nil ih
  | element hi _ _ ihi ihn => exact .node hi ihi ihn

/-- Visited are the nodes at the start, and the children of those that are
    visited. -/
theorem Traverses.perm (h : Traverses nodes ids visited) :
    visited.Perm (ids ++ visited.flatMap (childrenOf nodes)) := by
  induction h with
  | nil => exact .nil
  | @node i ids inside behind node hi _ _ ihi ihb =>
    let ch := childrenOf nodes
    rw [← childrenOf_eq hi] at ihi
    refine .cons i ?_
    calc
      (inside ++ behind).Perm ((ch i ++ inside.flatMap ch) ++ (ids ++ behind.flatMap ch)) :=
        ihi.append ihb
      _ |>.Perm (ids ++ ((ch i ++ inside.flatMap ch) ++ behind.flatMap ch)) :=
        List.perm_append_comm_assoc _ _ _
      _ = ids ++ (i :: (inside ++ behind)).flatMap ch := by
        rw [List.flatMap_cons, List.flatMap_append, List.append_assoc]

/-- In an ascending traversal the children have greater numbers than their
    parents. -/
theorem Traverses.lt_of_mem (h : Traverses nodes ids visited) (ho : visited.Pairwise (· < ·))
    {i child : Nat} (hi : i ∈ visited) (hc : child ∈ childrenOf nodes i) : i < child := by
  induction h with
  | nil => cases hi
  | @node j ids inside behind node hj hin _ ihi ihb =>
    rw [List.pairwise_cons, List.pairwise_append] at ho
    obtain ⟨hj', hoi, hob, -⟩ := ho
    rcases List.mem_cons.mp hi with rfl | hi
    · -- The children of the first node are visited next.
      rw [childrenOf_eq hj] at hc
      exact hj' child (List.mem_append_left _ (hin.perm.mem_iff.mpr (List.mem_append_left _ hc)))
    · rcases List.mem_append.mp hi with hi | hi
      · exact ihi hoi hi
      · exact ihb hob hi

/-- If no node is visited twice, each of them is where the traversal starts or has
    one parent, which lists it once. -/
theorem Traverses.one_parent (h : Traverses nodes ids visited) (hn : visited.Nodup) {i : Nat}
    (hi : i ∈ visited) (hids : i ∉ ids) :
    ∃ parent ∈ visited, (childrenOf nodes parent).count i = 1 ∧
      ∀ other ∈ visited, i ∈ childrenOf nodes other → other = parent := by
  have hnodup := (List.nodup_append.mp (h.perm.nodup_iff.mp hn)).2.1
  obtain ⟨hlists, hdisjoint⟩ := List.nodup_flatMap.mp hnodup
  have hlisted := (List.mem_append.mp (h.perm.mem_iff.mp hi)).resolve_left hids
  obtain ⟨parent, hparent, hmem⟩ := List.mem_flatMap.mp hlisted
  refine ⟨parent, hparent, List.count_eq_one_of_mem (hlists parent hparent) hmem, ?_⟩
  intro other hother hmem'
  by_contra hne
  have : Std.Symm (Function.onFun List.Disjoint (childrenOf nodes)) :=
    ⟨fun _ _ hd _ hb ha => hd ha hb⟩
  exact hdisjoint.forall hother hparent hne hmem' hmem

/-! ## Pieces of text apart -/

/-- Whether a token is a piece of text. -/
def Token.isText : Token → Bool
  | text _ => true
  | tag _ => false

/-- Tokens among which no piece of text is empty, and none follows another. -/
inductive SeparatedTokens : List Token → Prop
  | nil : SeparatedTokens []
  | text {piece : Text} {ts : List Token} : piece ≠ [] → ts.head?.any Token.isText = false →
    SeparatedTokens ts → SeparatedTokens (.text piece :: ts)
  | tag {ts : List Token} (t : Tag) : SeparatedTokens ts → SeparatedTokens (.tag t :: ts)

/-- Contents in which no piece of text is empty, and none follows another. -/
inductive Content.Separated : Content → Prop
  | nil : Separated nil
  | text {piece : Text} {next : Content} : piece ≠ [] → next.startsWithText = false →
    Separated next → Separated (text piece next)
  | element {name : String} {inner next : Content} : Separated inner → Separated next →
    Separated (element name inner next)

theorem SeparatedTokens.textToken_append {ts : List Token} (h : SeparatedTokens ts)
    (hts : ts.head?.any Token.isText = false) (t : Text) :
    SeparatedTokens (textToken t ++ ts) := by
  cases t with
  | nil => exact h
  | cons c t => exact .text (List.cons_ne_nil c t) hts h

/-- The tokens of a text are separated. -/
theorem separated_tokens (t : Text) : SeparatedTokens (tokens t) := by
  fun_induction tokens t with
  | case1 t =>
    have h := SeparatedTokens.nil.textToken_append rfl t
    rwa [List.append_nil] at h
  | case2 t cut _ ih => exact (SeparatedTokens.tag cut.tag ih).textToken_append rfl cut.before

theorem Reads.startsWithText_eq {opened : List String} {ts : List Token} {here : Content}
    {outer : List Content} (h : Reads opened ts here outer) :
    here.startsWithText = ts.head?.any Token.isText := by
  cases h <;> rfl

/-- Separated tokens hold separated contents. -/
theorem Reads.separated {opened : List String} {ts : List Token} {here : Content}
    {outer : List Content} (h : Reads opened ts here outer) (hts : SeparatedTokens ts) :
    here.Separated ∧ ∀ c ∈ outer, c.Separated := by
  induction h with
  | done => exact ⟨.nil, List.forall_mem_nil _⟩
  | text piece hr ih =>
    cases hts with
    | text hpiece hnext hts =>
      obtain ⟨hhere, houter⟩ := ih hts
      exact ⟨.text hpiece (hr.startsWithText_eq.trans hnext) hhere, houter⟩
  | opening name _ ih =>
    cases hts with
    | tag _ hts =>
      obtain ⟨hinner, houter⟩ := ih hts
      obtain ⟨hnext, houter⟩ := List.forall_mem_cons.mp houter
      exact ⟨.element hinner hnext, houter⟩
  | closing name _ ih =>
    cases hts with
    | tag _ hts =>
      obtain ⟨hhere, houter⟩ := ih hts
      exact ⟨.nil, List.forall_mem_cons.mpr ⟨hhere, houter⟩⟩

/-- Whether a number is that of a piece of text. -/
def IsText (nodes : List Node) (id : Nat) : Prop := ∃ piece, nodes[id]? = some (Node.text piece)

theorem Holds.startsWithText {c : Content} {i : Nat} (h : Holds nodes (i :: ids) visited c)
    (hi : IsText nodes i) : c.startsWithText = true := by
  obtain ⟨piece, hi⟩ := hi
  cases h with
  | text => rfl
  | element hi' => cases hi.symm.trans hi'

/-- Where a separated content is found, pieces of text are no neighbours. -/
theorem Holds.isChain {c : Content} (h : Holds nodes ids visited c) (hc : c.Separated) :
    ids.IsChain fun a b => ¬(IsText nodes a ∧ IsText nodes b) := by
  induction h with
  | nil => exact .nil
  | text hi hr ih =>
    cases hc with
    | text _ hnext hc =>
      refine List.isChain_cons.mpr ⟨fun b hb htexts => ?_, ih hc⟩
      obtain ⟨later, rfl⟩ := List.head?_eq_some_iff.mp hb
      rw [hr.startsWithText htexts.2] at hnext
      cases hnext
  | element hi _ _ _ ihn =>
    cases hc with
    | element _ hc =>
      refine List.isChain_cons.mpr ⟨fun b _ ⟨⟨piece, hi'⟩, _⟩ => ?_, ihn hc⟩
      cases hi.symm.trans hi'

/-- So it is with the children of the nodes visited, and no piece of text is
    empty. -/
theorem Holds.separated {c : Content} (h : Holds nodes ids visited c) (hc : c.Separated) :
    ∀ i ∈ visited, (∀ piece, nodes[i]? = some (.text piece) → piece ≠ []) ∧
      (childrenOf nodes i).IsChain fun a b => ¬(IsText nodes a ∧ IsText nodes b) := by
  induction h with
  | nil => exact List.forall_mem_nil _
  | text hi _ ih =>
    cases hc with
    | text hpiece _ hc =>
      refine List.forall_mem_cons.mpr ⟨⟨fun piece hi' => ?_, ?_⟩, ih hc⟩
      · cases hi.symm.trans hi'
        exact hpiece
      · rw [childrenOf_eq hi]
        exact .nil
  | element hi hin _ ihi ihn =>
    cases hc with
    | element hinner hc =>
      refine List.forall_mem_cons.mpr
        ⟨⟨fun piece hi' => ?_, ?_⟩, List.forall_mem_append.mpr ⟨ihi hinner, ihn hc⟩⟩
      · cases hi.symm.trans hi'
      · rw [childrenOf_eq hi]
        exact hin.isChain hinner

/-! ## The nodes of a text -/

/-- The nodes make up a tree that is numbered in document order. -/
structure InDocumentOrder (nodes : List Node) : Prop where
  /-- The root has no name. -/
  root : ∃ children, nodes[0]? = some (Node.element "" children)
  /-- Children are nodes with greater numbers than their parent. -/
  lt_child : ∀ parent, ∀ child ∈ childrenOf nodes parent, parent < child ∧ child < nodes.length
  /-- Every node but the root has one parent, which lists it once. -/
  one_parent : ∀ id, 0 < id → id < nodes.length →
    ∃ parent, (childrenOf nodes parent).count id = 1 ∧
      ∀ other, id ∈ childrenOf nodes other → other = parent
  /-- No piece of text is empty. -/
  text_ne_nil : ∀ (id : Nat) (piece : Text), nodes[id]? = some (Node.text piece) → piece ≠ []
  /-- Of two neighbours at most one is a piece of text. -/
  isChain : ∀ parent,
    (childrenOf nodes parent).IsChain fun a b => ¬(IsText nodes a ∧ IsText nodes b)
  /-- The traversal from the root visits all nodes in the order of their
      numbers. -/
  traverses_iff : ∀ visited, Traverses nodes [0] visited ↔ visited = List.range nodes.length

theorem length_nodes (c : Content) : c.nodes.length = c.size + 1 := by
  rw [Content.nodes, List.length_cons, Content.length_nodesFrom]

/-- The traversal from the root visits all nodes of a content in turn. -/
theorem traverses_nodes (c : Content) : Traverses c.nodes [0] (List.range c.nodes.length) := by
  obtain ⟨hroot, hc⟩ := holds_nodes c
  have hrange : List.range c.nodes.length = 0 :: List.range' 1 c.size := by
    rw [length_nodes, List.range_eq_range', List.range'_succ]
  have h := Traverses.node hroot hc.traverses .nil
  rwa [List.append_nil, ← hrange] at h

/-- Among the nodes of a separated content no piece of text is empty, and none is a
    neighbour of another. -/
theorem separated_nodes {c : Content} (hc : c.Separated) (id : Nat) :
    (∀ piece, c.nodes[id]? = some (Node.text piece) → piece ≠ []) ∧
      (childrenOf c.nodes id).IsChain fun a b => ¬(IsText c.nodes a ∧ IsText c.nodes b) := by
  obtain ⟨hroot, hh⟩ := holds_nodes c
  -- The root is not among the nodes that hold the content.
  by_cases hid : id ∈ List.range' 1 c.size
  · exact hh.separated hc id hid
  · rcases Nat.eq_zero_or_pos id with rfl | hpos
    · rw [childrenOf_eq hroot]
      exact ⟨fun piece hi => by simp [hroot] at hi, hh.isChain hc⟩
    · have hnone : c.nodes[id]? = none := by
        rw [List.mem_range'_1] at hid
        rw [List.getElem?_eq_none_iff, length_nodes]
        omega
      rw [childrenOf, hnone]
      exact ⟨fun piece hi => (Option.some_ne_none _ hi.symm).elim, .nil⟩

/-- The nodes of a separated content are in document order. -/
theorem inDocumentOrder_nodes {c : Content} (hc : c.Separated) : InDocumentOrder c.nodes := by
  have ht := traverses_nodes c
  have hparent {parent child : Nat} (h : child ∈ childrenOf c.nodes parent) :
      parent ∈ List.range c.nodes.length := List.mem_range.mpr (lt_of_mem_childrenOf h)
  refine ⟨⟨_, (holds_nodes c).1⟩, fun parent child h => ⟨?_, ?_⟩, fun id hpos hlt => ?_,
    fun id => (separated_nodes hc id).1, fun id => (separated_nodes hc id).2,
    fun visited => ⟨fun h => h.unique ht, fun h => h ▸ ht⟩⟩
  · exact ht.lt_of_mem List.pairwise_lt_range (hparent h) h
  · have hlisted := List.mem_flatMap.mpr ⟨parent, hparent h, h⟩
    exact List.mem_range.mp (ht.perm.mem_iff.mpr (List.mem_append_right _ hlisted))
  · have hid : id ∉ [0] := by simpa using Nat.ne_of_gt hpos
    obtain ⟨parent, -, hcount, hone⟩ :=
      ht.one_parent List.nodup_range (List.mem_range.mpr hlt) hid
    exact ⟨parent, hcount, fun other h => hone other (hparent h) h⟩

/-- The nodes built from a text that has a content are in document order. -/
theorem build_inDocumentOrder {t : Text} {c : Content} (h : parse t = .ok c) :
    build t = .ok c.nodes ∧ InDocumentOrder c.nodes :=
  ⟨by rw [build_eq, h]; rfl,
    inDocumentOrder_nodes ((reads_of_parse h).separated (separated_tokens t)).1⟩

/-- Case: pieces of text around and inside elements, one of them empty. -/
theorem build_inDocumentOrder_nested :
    let t : Text := ['x', '<', 'b', '>', '<', 'i', '>', '<', '/', 'i', '>', 'y', '<', '/', 'b', '>',
      'z']
    let c : Content :=
      .text ['x'] (.element "b" (.element "i" .nil (.text ['y'] .nil)) (.text ['z'] .nil))
    parse t = .ok c ∧ build t = .ok c.nodes ∧ InDocumentOrder c.nodes := by
  intro t c
  have h : parse t = .ok c := by cbv
  exact ⟨h, build_inDocumentOrder h⟩

end Markup

end Lettering
