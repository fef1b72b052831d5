import RichText.Substitution.Processor
import RichText.Text.Quoted

/-!
Processors, registries and answers described on one line.

A description is a name with named fields in braces (`record`); two dots stand for the
fields that are left out.
-/

namespace RichText

/-- A description of a record: its name and its fields in order. -/
def record (name : String) (fields : List (String × String)) (more : Bool) : String :=
  let shown := fields.map fun (field, value) => field ++ ": " ++ value
  name ++ " \x7b " ++ ", ".intercalate (shown ++ if more then [".."] else []) ++ " \x7d"

/-- A description of a truth value. -/
def describeFlag (b : Bool) : String :=
  if b then "true" else "false"

/-- A description of a limit. -/
def describeLimit : Option Nat → String
  | none => "None"
  | some n => "Some(" ++ toString n ++ ")"

/-- A description of what a registration goes by. -/
def MatchKind.describe : MatchKind → String
  | .tagName => "TagName"
  | .className => "ClassName"

/-- A description of a registration. -/
def Registration.describe (r : Registration) : String :=
  record "Registration" [("match_kind", r.kind.describe), ("match_value", quoted r.value)] true

/-- A description of a registry. -/
def Registry.describe (r : Registry) : String :=
  let registrations := "[" ++ ", ".intercalate (r.toList.map Registration.describe) ++ "]"
  record "ElementRegistry" [("registrations", registrations)] true

/-- A description of options. -/
def Options.describe (o : Options) : String :=
  record "ParserOptions"
    [("strict_fragments", describeFlag o.strictFragments),
      ("max_nesting_depth", describeLimit o.maxNestingDepth),
      ("restore_shortcode_urls", describeFlag o.restoreShortcodeUrls)] false

/-- A description of a processor. -/
def Processor.describe (p : Processor) : String :=
  record "CustomElementsParser"
    [("options", p.options.describe), ("registry", p.registry.describe),
      ("has_context_source", describeFlag p.context.isSome)] true

/-- A description of what a handler has answered; a node is shown by its tag. -/
def Rendering.describe (h : Heap) : Rendering → String
  | .keep => "NoSubstitution"
  | .markup s => "Markup(" ++ quoted s ++ ")"
  | .tree i => "Tree(" ++ quoted ((h.tagName i).getD "#fragment") ++ ")"

end RichText
