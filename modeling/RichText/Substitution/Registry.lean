import RichText.Substitution.Handler
import Std.Data.HashMap

/-!
The registry of handlers.

A registry keeps all registrations in order, and beside them the latest registration of
each tag. Names of tags are kept in lower case, like those of parsed elements; classes are
kept as they are. Registrations are never removed one by one.

* `toList_registerTag`, `toList_registerClass`: a registration goes to the end of the list;
* `forTag_registerTag`: the latest registration of a tag counts;
* `forTag_registerClass`: registrations by class are not found by tag;
* `Every`: what holds of all registered handlers, and `Every.register`: of one more.
-/

namespace RichText

/-- What a registration goes by. -/
inductive MatchKind where
  | tagName
  | className
  deriving DecidableEq, Repr, Inhabited

/-- A handler, the name it is traced under, and what it is registered for. -/
structure Registration where
  kind : MatchKind
  value : String
  label : String
  handler : Handler

/-- The registrations, and the latest of each tag. -/
structure Registry where
  registrations : List Registration := []
  byTag : Std.HashMap String Registration := {}

namespace Registry

/-- The registrations in order. -/
def toList (r : Registry) : List Registration :=
  r.registrations

/-- The number of registrations, those overridden included. -/
def size (r : Registry) : Nat :=
  r.registrations.length

/-- Whether nothing has been registered. -/
def isEmpty (r : Registry) : Bool :=
  r.registrations.isEmpty

/-- The registry with a handler for the elements of a tag. -/
def registerTag (r : Registry) (tag label : String) (handler : Handler) : Registry :=
  let new := { kind := .tagName, value := tag.toLower, label, handler }
  { registrations := r.registrations ++ [new], byTag := r.byTag.insert new.value new }

/-- The registry with a handler for the elements whose class is exactly the given one. -/
def registerClass (r : Registry) (class_ label : String) (handler : Handler) : Registry :=
  let new := { kind := .className, value := class_, label, handler }
  { r with registrations := r.registrations ++ [new] }

/-- The registry with a handler for a tag or a class. -/
def register (r : Registry) (kind : MatchKind) (value label : String) (handler : Handler) :
    Registry :=
  match kind with
  | .tagName => r.registerTag value label handler
  | .className => r.registerClass value label handler

/-- The registration that counts for a tag. -/
def forTag? (r : Registry) (tag : String) : Option Registration :=
  r.byTag[tag]?

/-- The registrations by class, in order. -/
def classes (r : Registry) : List Registration :=
  r.registrations.filter (·.kind = .className)

/-- A registration by tag comes last, with its tag in lower case. -/
@[simp] theorem toList_registerTag (r : Registry) (tag label : String) (handler : Handler) :
    (r.registerTag tag label handler).toList
      = r.toList ++ [{ kind := .tagName, value := tag.toLower, label, handler }] :=
  rfl

/-- A registration by class comes last, with its class as it is. -/
@[simp] theorem toList_registerClass (r : Registry) (class_ label : String) (handler : Handler) :
    (r.registerClass class_ label handler).toList
      = r.toList ++ [{ kind := .className, value := class_, label, handler }] :=
  rfl

/-- A registration by tag is found for its tag, and changes nothing for others. -/
theorem forTag_registerTag (r : Registry) (tag label key : String) (handler : Handler) :
    (r.registerTag tag label handler).forTag? key
      = if tag.toLower = key then some { kind := .tagName, value := tag.toLower, label, handler }
        else r.forTag? key := by
  simp [registerTag, forTag?, Std.HashMap.getElem?_insert]

/-- A tag in lower-case letters is found once it has been registered. -/
theorem forTag_registerTag_self (r : Registry) {tag : String} (htag : tag.toLower = tag)
    (label : String) (handler : Handler) :
    (r.registerTag tag label handler).forTag? tag
      = some { kind := .tagName, value := tag, label, handler } := by
  rw [forTag_registerTag, htag, if_pos rfl]

/-- A registration by class is found for no tag. -/
@[simp] theorem forTag_registerClass (r : Registry) (class_ label key : String)
    (handler : Handler) : (r.registerClass class_ label handler).forTag? key = r.forTag? key :=
  rfl

/-- All registered handlers are of a kind. -/
def Every (P : Handler → Prop) (r : Registry) : Prop :=
  (∀ tag x, r.forTag? tag = some x → P x.handler) ∧ ∀ x ∈ r.classes, P x.handler

variable {P : Handler → Prop} {r : Registry}

/-- A registry without handlers has none of another kind. -/
theorem every_empty : Every P {} :=
  ⟨fun tag x hx => by simp [forTag?] at hx, fun x hx => by simp [classes] at hx⟩

/-- A handler of the kind added to others. -/
theorem Every.register (hr : r.Every P) {handler : Handler} (hP : P handler) (kind : MatchKind)
    (value label : String) : (r.register kind value label handler).Every P := by
  cases kind with
  | tagName =>
      refine ⟨fun tag x hx => ?_, fun x hx => hr.2 x ?_⟩
      · rw [Registry.register, forTag_registerTag] at hx
        split at hx
        · obtain rfl := Option.some.inj hx
          exact hP
        · exact hr.1 tag x hx
      · simpa [Registry.register, registerTag, classes] using hx
  | className =>
      refine ⟨fun tag x hx => hr.1 tag x (by simpa [Registry.register] using hx), fun x hx => ?_⟩
      have hx' : x ∈ r.classes ∨ x = ⟨.className, value, label, handler⟩ := by
        simpa [Registry.register, registerClass, classes, List.filter_append] using hx
      rcases hx' with hx' | rfl
      · exact hr.2 x hx'
      · exact hP

end Registry

end RichText
