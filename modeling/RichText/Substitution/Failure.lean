/-!
What can go wrong during a substitution.

Content is never at fault: every text has a tree. Errors come from handlers, from the
markup they return, and from handlers that re-enter too deeply. `message` and `code` are
the text and the number under which an error is reported.
-/

namespace RichText

/-- The causes for which a substitution fails; `tag` names the element being replaced. -/
inductive Failure where
  /-- The markup a handler returned has parse errors. -/
  | malformedMarkup (tag : String) (errors : List String)
  /-- A handler reports a failure of its own. -/
  | handler (tag message : String)
  /-- A handler answered with an ancestor of the element. -/
  | invalidReplacement (tag : String)
  /-- Handlers have re-entered more often than `limit` allows. -/
  | nestingTooDeep (limit : Nat)
  /-- The document could not be written. -/
  | serialize (message : String)
  deriving DecidableEq, Repr, Inhabited

namespace Failure

/-- The text under which the error is reported. -/
def message : Failure → String
  | malformedMarkup tag errors =>
      "handler for <" ++ tag ++ "> returned malformed markup: " ++ "; ".intercalate errors
  | handler tag message => "handler for <" ++ tag ++ "> failed: " ++ message
  | invalidReplacement tag =>
      "handler for <" ++ tag ++ "> returned an ancestor of the element as its replacement"
  | nestingTooDeep limit =>
      "custom element nesting exceeded the limit of " ++ toString limit ++ " levels"
  | serialize message => "failed to serialize document: " ++ message

/-- The number under which the error is reported. -/
def code : Failure → Nat
  | malformedMarkup .. => 1
  | handler .. => 2
  | nestingTooDeep .. => 3
  | invalidReplacement .. => 4
  | serialize .. => 99

end Failure

end RichText
