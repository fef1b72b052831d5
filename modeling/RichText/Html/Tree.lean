import RichText.Html.Name

/-!
Trees of nodes as plain values.

A `Tree` has no identity and no parent: it is what a parsed text means and what is
written out. A template element made from markup is a node of its own kind, since it
holds its contents apart from its children. `Tree.textContent` is the text of a node
and of everything below it, template contents apart.
-/

namespace RichText

/-- A node with all that is below it. -/
inductive Tree where
  | element (e : Element) (children : List Tree)
  | template (attributes : List Attribute) (children contents : List Tree)
  | text (s : String)
  | comment (s : String)
  | doctype (name publicId systemId : String)
  | document (children : List Tree)
  deriving Repr, Inhabited

namespace Tree

/-- The children of a node. -/
def children : Tree → List Tree
  | element _ cs => cs
  | template _ cs _ => cs
  | document cs => cs
  | _ => []

mutual

/-- The text of a node and of its descendants, in document order. -/
def textContent : Tree → String
  | element _ cs => textContentList cs
  | template _ cs _ => textContentList cs
  | text s => s
  | comment _ => ""
  | doctype _ _ _ => ""
  | document cs => textContentList cs

/-- The text of a list of nodes. -/
def textContentList : List Tree → String
  | [] => ""
  | t :: ts => textContent t ++ textContentList ts

end

end Tree

end RichText
