import RichText.Content.Links

/-!
The side effects of a document parse taken out of the written markup.

Content is only a piece of a document. Parsed and written back it comes inside
`<html><head></head><body>…</body></html>`, behind the encoding declaration that was put
in front of it. `recover` removes what the content did not have, in five steps:

* `stripWrapper`: the tags of the document around head and body;
* `restoreLinks`: brackets of shortcode links, if asked for;
* `dropDeclarations`: encoding declarations, unless the content began with one;
* `unwrapParagraph`: a single paragraph around what was plain text;
* `dropNewline`: a line feed at the end that the content did not have.
-/

namespace RichText

/-- The encoding declaration put in front of content before it is parsed. -/
def declaration : List Char :=
  "<?xml encoding=\"UTF-8\">".toList

/-- The encoding declaration as it is written back: it has been read as a comment. -/
def declarationComment : List Char :=
  "<!--?xml encoding=\"UTF-8\"-->".toList

namespace Recovery

/-- Removes the tags around head and body that a document without attributes is written
with. A text without them stays as it is, and what follows the last pair of closing tags
goes with them. -/
def stripWrapper (s : List Char) : List Char :=
  match splitFirst? "<html><head>".toList s with
  | none => s
  | some (before, rest) =>
      match splitFirst? "</head><body>".toList rest with
      | none => s
      | some (head, body) =>
          match splitLast? "</body></html>".toList body with
          | none => before ++ head ++ body
          | some (body, _) => before ++ head ++ body

/-- Removes encoding declarations in both forms, unless the content began with one. -/
def dropDeclarations (content s : List Char) : List Char :=
  if declaration.isPrefixOf content then s
  else replaceAll declaration [] (replaceAll declarationComment [] s)

/-- The inside of a text that is a single paragraph. -/
def paragraph? (s : List Char) : Option (List Char) := do
  let inner ← stripEnd? "</p>".toList (← stripStart? "<p>".toList (trim s))
  if occurs "</p>".toList inner || occurs "<p>".toList inner || occurs "<p ".toList inner then
    none
  else
    some inner

/-- Unwraps a single paragraph, unless the content began with markup. -/
def unwrapParagraph (content s : List Char) : List Char :=
  if (trim content).head? = some '<' then s else (paragraph? s).getD s

/-- Removes one line feed at the end that the content did not have. -/
def dropNewline (content s : List Char) : List Char :=
  if s.getLast? = some '\n' && content.getLast? ≠ some '\n' then s.dropLast else s

end Recovery

open Recovery in
/-- The written form of a parsed document made into content again, in the light of the
content it came from. -/
def recover (serialized content : List Char) (restore : Bool) : List Char :=
  let s := stripWrapper serialized
  let s := if restore then restoreLinks s else s
  let s := dropDeclarations content s
  let s := unwrapParagraph content s
  dropNewline content s

/-- The recovery of content from strings. -/
def recoverContent (serialized content : String) (restore : Bool) : String :=
  String.ofList (recover serialized.toList content.toList restore)

end RichText
