import InlineCheck.Json.Fault

/-!
# Shapes of JSON values

A `Shape` says what a reader wants to find and what it keeps of it.  A record is written as an
object, in which fields it does not know are passed over, or as an array of its fields in
their order.  Either way it is kept as an object of the known fields that are present, in the
order in which they were read.
-/

namespace InlineCheck.Json

/-- A field of a record, whose value has shape `σ`. -/
structure Field (σ : Type) where
  name : String
  /-- Whether a record without the field is refused. -/
  required : Bool
  shape : σ

/-- What a reader wants to find. -/
inductive Shape
  /-- Any value, kept whole. -/
  | any
  /-- Any value, passed over. -/
  | passed
  /-- A string or null. -/
  | optionalText
  /-- An array of items of one shape. -/
  | list (item : Shape)
  /-- A record; `title` names it in messages. -/
  | record (title : String) (fields : List (Field Shape))

/-- The fields of a record. -/
abbrev Fields := List (Field Shape)

/-- The field of the given name. -/
def Fields.find? (fields : Fields) (name : String) : Option (Field Shape) :=
  List.find? (fun field => field.name == name) fields

/-- The first required field for which `found` has no member. -/
def Fields.missing? (fields : Fields) (found : List (String × Value)) : Option (Field Shape) :=
  List.find? (fun field => field.required && (found.lookup field.name).isNone) fields

namespace Shape

/-- What a message says was expected. -/
def title : Shape → String
  | .any => "a value"
  | .passed => "a value"
  | .optionalText => "a string"
  | .list _ => "a sequence"
  | .record title _ => title

/-- What is kept of a value that is neither an array nor an object. -/
def scalar : Shape → Value → Except Cause Value
  | .any, v => .ok v
  | .passed, _ => .ok .null
  | .optionalText, .null => .ok .null
  | .optionalText, .string s => .ok (.string s)
  | shape, v => .error (.wrongType v shape.title)

/-- Whether strings and numbers are kept rather than passed over. -/
def keeps : Shape → Bool
  | .passed => false
  | _ => true

end Shape

end InlineCheck.Json
