import Lettering.Text.Basic

/-!
# Content

What a marked-up text holds is a sequence of pieces of text and elements, an
element having a name and content of its own.

* `Content.runs` lists the pieces of text in order, each with the names of the
  elements around it.
* `Content.nodes` numbers the root and everything in it in document order: a
  node comes before its children, and a child's descendants before the next
  child.
-/

namespace Lettering

namespace Markup

/-- A sequence of pieces of text and elements. -/
inductive Content
  | nil
  | text (piece : Text) (next : Content)
  | element (name : String) (inner next : Content)
deriving DecidableEq, Repr

/-- A piece of text with the names of the elements around it, outermost first. -/
structure Run where
  context : List String
  text : Text
deriving DecidableEq, Repr

/-- A numbered node: a piece of text, or an element with the numbers of its
    children. -/
inductive Node
  | text (piece : Text)
  | element (name : String) (children : List Nat)
deriving DecidableEq, Repr

namespace Content

instance : Inhabited Content := ⟨.nil⟩

/-- The written form: text as it is, an element between its two tags. -/
def print : Content → Text
  | nil => []
  | text piece next => piece ++ next.print
  | element name inner next =>
    '<' :: (name.toList ++ '>' :: (inner.print ++
      '<' :: '/' :: (name.toList ++ '>' :: next.print)))

/-- The pieces of text in order, inside the given context; an empty piece is
    none. -/
def runs (context : List String) : Content → List Run
  | nil => []
  | text piece next =>
    if piece = [] then next.runs context else ⟨context, piece⟩ :: next.runs context
  | element name inner next => inner.runs (context ++ [name]) ++ next.runs context

/-- The number of nodes. -/
def size : Content → Nat
  | nil => 0
  | text _ next => next.size + 1
  | element _ inner next => inner.size + next.size + 1

/-- The numbers of the nodes at the top, the first node having the number
    `first`. -/
def topIds (first : Nat) : Content → List Nat
  | nil => []
  | text _ next => first :: next.topIds (first + 1)
  | element _ inner next => first :: next.topIds (first + 1 + inner.size)

/-- The nodes in document order, the first one having the number `first`. -/
def nodesFrom (first : Nat) : Content → List Node
  | nil => []
  | text piece next => .text piece :: next.nodesFrom (first + 1)
  | element name inner next =>
    .element name (inner.topIds (first + 1)) ::
      (inner.nodesFrom (first + 1) ++ next.nodesFrom (first + 1 + inner.size))

/-- The nodes in document order by their numbers: number 0 is the root, an
    element without a name that holds everything. -/
def nodes (c : Content) : List Node := .element "" (c.topIds 1) :: c.nodesFrom 1

/-- Whether there is neither text nor an element. -/
def isEmpty (c : Content) : Bool := (c.topIds 1).isEmpty

/-- Every node is listed once. -/
theorem length_nodesFrom (c : Content) (first : Nat) : (c.nodesFrom first).length = c.size := by
  induction c generalizing first with
  | nil => rfl
  | text _ _ ih => simp [nodesFrom, size, ih]
  | element _ _ _ ih₁ ih₂ => simp [nodesFrom, size, ih₁, ih₂]

end Content

end Markup

end Lettering
