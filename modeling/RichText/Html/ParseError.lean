/-!
The faults that reading markup can report.

Reading never fails: every fault has a repair, and the list of faults only tells that the
text was not clean. `ParseError.message` is the text under which a fault is reported.
-/

namespace RichText

/-- A fault in markup. -/
inductive ParseError where
  -- faults of single tokens
  | badCharacter
  | unexpectedEnd
  | duplicateAttribute
  | attributesOnEndTag
  | selfClosingEndTag
  -- faults of character references
  | referenceWithoutSemicolon
  | unknownReference
  | numberWithoutDigits
  | numberWithoutSemicolon
  | numberAtEnd
  | referenceAtEnd
  | invalidNumber
  -- faults of tokens in their place
  | unexpectedToken
  | selfClosingIgnored
  | misplacedDoctype
  | openAtEnd
  | bodyNotInScope
  | htmlNotInScope
  | nestedHeadings
  | nestedForms
  | nestedButtons
  | nestedNobr
  | noForm
  | formNotInScope
  | formNotCurrent
  | noParagraph
  | noItem
  | noHeading
  | wrongHeading
  | openInside
  | openInsideCell
  | specialInside
  | formattingNotOpen
  | formattingNotInScope
  | formattingNotCurrent
  | textInTable
  | nonspaceInTable
  deriving DecidableEq, Repr, Inhabited

/-- The text under which a fault is reported. -/
def ParseError.message : ParseError → String
  | badCharacter => "Bad character"
  | unexpectedEnd => "Unexpected EOF"
  | duplicateAttribute => "Duplicate attribute"
  | attributesOnEndTag => "Attributes on an end tag"
  | selfClosingEndTag => "Self-closing end tag"
  | referenceWithoutSemicolon => "Character reference does not end with semicolon"
  | unknownReference => "Invalid character reference"
  | numberWithoutDigits => "Numeric character reference without digits"
  | numberWithoutSemicolon => "Semicolon missing after numeric character reference"
  | numberAtEnd => "EOF in numeric character reference"
  | referenceAtEnd => "EOF after '#' in character reference"
  | invalidNumber => "Invalid numeric character reference"
  | unexpectedToken => "Unexpected token"
  | selfClosingIgnored => "Unacknowledged self-closing tag"
  | misplacedDoctype => "DOCTYPE in body"
  | openAtEnd => "Unexpected open tag at end of body"
  | bodyNotInScope => "</body> with no <body> in scope"
  | htmlNotInScope => "</html> with no <body> in scope"
  | nestedHeadings => "nested heading tags"
  | nestedForms => "nested forms"
  | nestedButtons => "nested buttons"
  | nestedNobr => "Nested <nobr>"
  | noForm => "Null form element pointer on </form>"
  | formNotInScope => "Form element not in scope on </form>"
  | formNotCurrent => "Bad open element on </form>"
  | noParagraph => "No <p> tag to close"
  | noItem => "No matching tag to close"
  | noHeading => "No heading tag to close"
  | wrongHeading => "Closing wrong heading tag"
  | openInside => "Unexpected open element"
  | openInsideCell => "expected to close <td> or <th> with cell"
  | specialInside => "Found special tag while closing generic tag"
  | formattingNotOpen => "Formatting element not open"
  | formattingNotInScope => "Formatting element not in scope"
  | formattingNotCurrent => "Formatting element not current node"
  | textInTable => "Unexpected characters in table"
  | nonspaceInTable => "Non-space table text"

end RichText
