import InlineCheck.Json.Numeral
import InlineCheck.Json.Quote
import InlineCheck.Json.Shape

/-!
# Reading JSON by shape

A text is read one character at a time.  The arrays and objects still open are kept in a list
of `Slot`s, innermost first, each with what was read of it; so a reader never calls itself,
and what it has read never depends on what comes later.

* `Place.step` moves between values: over blanks, commas, colons and brackets.
* `State.step` also moves inside a word, a number or a string.
* `run` goes over a text and `read` over a whole document of a given shape.

A container that is kept may stand inside at most 126 others.  What is passed over may be
nested without a limit.
-/

namespace InlineCheck.Json

/-- How many containers may be open at once. -/
def maxDepth : Nat := 127

/-- An array that is open, with what was read of it. -/
inductive Row
  /-- An array of items of one shape, the last item first. -/
  | list (item : Shape) (items : List Value)
  /-- A record written as an array: all its fields, those to come, and what was found. -/
  | record (title : String) (fields left : Fields) (found : List (String × Value))
  /-- An array that is passed over. -/
  | passed

/-- An object that is open, with what was read of it. -/
inductive Block
  /-- An object kept whole. -/
  | object (members : List (String × Value))
  /-- A record written as an object. -/
  | record (fields : Fields) (found : List (String × Value))
  /-- An object that is passed over. -/
  | passed

/-- Where the value that is being read belongs. -/
inductive Slot
  | item (row : Row)
  | member (block : Block) (name : String)

/-- Where in an open container a reader stands. -/
inductive Turn
  /-- Behind the opening bracket. -/
  | opened
  /-- Behind an item or member. -/
  | filled
  /-- Behind a comma. -/
  | comma
deriving DecidableEq, Repr

/-- A place where no word, number or string is being read. -/
inductive Place
  /-- A value of the shape must begin. -/
  | value (shape : Shape) (slots : List Slot)
  | row (row : Row) (turn : Turn) (slots : List Slot)
  | block (block : Block) (turn : Turn) (slots : List Slot)
  /-- Behind the name of a member. -/
  | colon (block : Block) (name : String) (slots : List Slot)
  /-- Behind a name that the record has already. -/
  | repeated (name : String)
  /-- Behind the whole document. -/
  | done (v : Value)

/-- How far a text was read. -/
inductive State
  | place (p : Place)
  /-- In one of the words, of which `left` is to come. -/
  | word (left : List Char) (v : Value) (shape : Shape) (slots : List Slot)
  | number (n : Numeral) (shape : Shape) (slots : List Slot)
  | string (q : Quote) (shape : Shape) (slots : List Slot)
  /-- In the name of a member. -/
  | name (q : Quote) (block : Block) (slots : List Slot)

/-- The characters that may stand between the parts of a text. -/
def isSpace (c : Char) : Bool :=
  c = ' ' || c = '\t' || c = '\n' || c = '\r'

/-! ## Containers -/

/-- The array with one more item. -/
def Row.add : Row → Value → Row
  | .list item items, v => .list item (v :: items)
  | .record title fields (field :: left) found, v =>
    .record title fields left (found ++ [(field.name, v)])
  | .record title fields [] found, _ => .record title fields [] found
  | .passed, _ => .passed

/-- The shape of the next item, unless there is none to come. -/
def Row.next? : Row → Option Shape
  | .list item _ => some item
  | .record _ _ left _ => left.head?.map (·.shape)
  | .passed => some .passed

/-- What is kept of the array once it is closed. -/
def Row.close : Row → Except Cause Value
  | .list _ items => .ok (.array items.reverse)
  | .record title fields _ found =>
    match fields.missing? found with
    | some _ => .error (.wrongLength found.length title fields.length)
    | none => .ok (.object found)
  | .passed => .ok .null

/-- The object with one more member; a record drops fields it does not know. -/
def Block.add : Block → String → Value → Block
  | .object members, name, v => .object (Value.insertMember name v members)
  | .record fields found, name, v =>
    if (fields.find? name).isSome then .record fields (found ++ [(name, v)])
    else .record fields found
  | .passed, _, _ => .passed

/-- The shape of the member of the given name. -/
def Block.shape : Block → String → Shape
  | .object _, _ => .any
  | .record fields _, name =>
    match fields.find? name with
    | some field => field.shape
    | none => .passed
  | .passed, _ => .passed

/-- Whether the object is a record that has the field already. -/
def Block.repeats : Block → String → Bool
  | .record _ found, name => (found.lookup name).isSome
  | _, _ => false

/-- Whether the names in the object are kept. -/
def Block.keeps : Block → Bool
  | .passed => false
  | _ => true

/-- What is kept of the object once it is closed. -/
def Block.close : Block → Except Cause Value
  | .object members => .ok (.object members)
  | .record fields found =>
    match fields.missing? found with
    | some field => .error (.missingField field.name)
    | none => .ok (.object found)
  | .passed => .ok .null

/-- The place behind a value that belongs into the innermost of the slots. -/
def deliver (v : Value) : List Slot → Place
  | [] => .done v
  | .item row :: slots => .row (row.add v) .filled slots
  | .member block name :: slots => .block (block.add name v) .filled slots

/-! ## Between values -/

/-- The state behind the character that opens a value of the shape. -/
def openValue (shape : Shape) (slots : List Slot) (c : Char) : Except Refusal State :=
  if c = 'n' then .ok (.word ['u', 'l', 'l'] .null shape slots)
  else if c = 't' then .ok (.word ['r', 'u', 'e'] (.bool true) shape slots)
  else if c = 'f' then .ok (.word ['a', 'l', 's', 'e'] (.bool false) shape slots)
  else if c = '"' then .ok (.string (.start shape.keeps) shape slots)
  else if c = '[' then
    match shape with
    | .passed => .ok (.place (.row .passed .opened slots))
    | .optionalText => .error (.before (.wrongType (.array []) shape.title))
    | .any =>
      if slots.length < maxDepth then .ok (.place (.row (.list .any []) .opened slots))
      else .error (.after .tooDeep)
    | .list item =>
      if slots.length < maxDepth then .ok (.place (.row (.list item []) .opened slots))
      else .error (.after .tooDeep)
    | .record title fields =>
      if slots.length < maxDepth then
        .ok (.place (.row (.record title fields fields []) .opened slots))
      else .error (.after .tooDeep)
  else if c = '\x7b' then
    match shape with
    | .passed => .ok (.place (.block .passed .opened slots))
    | .optionalText => .error (.before (.wrongType (.object []) shape.title))
    | .list _ => .error (.before (.wrongType (.object []) shape.title))
    | .any =>
      if slots.length < maxDepth then .ok (.place (.block (.object []) .opened slots))
      else .error (.after .tooDeep)
    | .record _ fields =>
      if slots.length < maxDepth then .ok (.place (.block (.record fields []) .opened slots))
      else .error (.after .tooDeep)
  else match Numeral.start? c with
    | some n => .ok (.number n shape slots)
    | none => .error (.after .expectedValue)

/-- The place behind a closing bracket. -/
def closeWith (kept : Except Cause Value) (slots : List Slot) : Except Refusal State :=
  match kept with
  | .ok v => .ok (.place (deliver v slots))
  | .error cause => .error (.after cause)

/-- The state behind a character in an open array. -/
def Row.step (row : Row) (turn : Turn) (slots : List Slot) (c : Char) : Except Refusal State :=
  match turn, row.next? with
  | .opened, some shape =>
    if c = ']' then closeWith row.close slots else openValue shape (.item row :: slots) c
  | .filled, some _ =>
    if c = ']' then closeWith row.close slots
    else if c = ',' then .ok (.place (.row row .comma slots))
    else .error (.after .expectedCommaOrBracket)
  | .comma, some shape =>
    if c = ']' ∧ shape.keeps then .error (.after .trailingComma)
    else openValue shape (.item row :: slots) c
  | .comma, none =>
    .error (.after (if c = ']' then .trailingComma else .trailingText))
  | _, none =>
    if c = ']' then closeWith row.close slots
    else if c = ',' then .ok (.place (.row row .comma slots))
    else .error (.after .trailingText)

/-- The state behind a character in an open object. -/
def Block.step (block : Block) (turn : Turn) (slots : List Slot) (c : Char) :
    Except Refusal State :=
  match turn with
  | .opened =>
    if c = '"' then .ok (.name (.start block.keeps) block slots)
    else if c = '\x7d' then closeWith block.close slots
    else .error (.after .keyNotString)
  | .filled =>
    if c = ',' then .ok (.place (.block block .comma slots))
    else if c = '\x7d' then closeWith block.close slots
    else .error (.after .expectedCommaOrBrace)
  | .comma =>
    if c = '"' then .ok (.name (.start block.keeps) block slots)
    else if c = '\x7d' ∧ block.keeps then .error (.after .trailingComma)
    else .error (.after .keyNotString)

/-- The state behind a character that is no blank. -/
def Place.stepSolid (p : Place) (c : Char) : Except Refusal State :=
  match p with
  | .value shape slots => openValue shape slots c
  | .row r turn slots => r.step turn slots c
  | .block b turn slots => b.step turn slots c
  | .colon b name slots =>
    if c = ':' then .ok (.place (.value (b.shape name) (.member b name :: slots)))
    else .error (.after .expectedColon)
  | .repeated name =>
    .error ⟨.duplicateField name, if c = '\x7d' then 1 else 0⟩
  | .done _ => .error (.after .trailingText)

/-- The state behind a character. -/
def Place.step (p : Place) (c : Char) : Except Refusal State :=
  if isSpace c then .ok (.place p) else p.stepSolid c

/-! ## Inside values -/

/-- The place behind a value that is neither an array nor an object. -/
def accept (shape : Shape) (v : Value) (slots : List Slot) : Except Cause Place :=
  (shape.scalar v).map fun kept => deliver kept slots

/-- The place behind a number; the size of one that is passed over does not matter. -/
def acceptNumber (n : Numeral) (shape : Shape) (slots : List Slot) : Except Cause Place :=
  if shape.keeps then do accept shape (.number (← n.value)) slots else accept shape .null slots

/-- The place behind the name of a member. -/
def acceptName (name : String) (block : Block) (slots : List Slot) : Place :=
  if block.repeats name then .repeated name else .colon block name slots

/-- The state behind a character. -/
def State.step (s : State) (c : Char) : Except Refusal State :=
  match s with
  | .place p => p.step c
  | .word left v shape slots =>
    match left with
    | [] => .error (.after .expectedWord)
    | d :: left =>
      if c ≠ d then .error (.after .expectedWord)
      else if left.isEmpty then
        ((accept shape v slots).map State.place).mapError Refusal.after
      else .ok (.word left v shape slots)
  | .number n shape slots => do
    match ← n.step shape.keeps c with
    | some n => .ok (.number n shape slots)
    | none =>
      match acceptNumber n shape slots with
      | .ok p => p.step c
      | .error cause => .error (.before cause)
  | .string q shape slots => do
    match ← q.step c with
    | .more q => .ok (.string q shape slots)
    | .closed text =>
      ((accept shape (.string text) slots).map State.place).mapError Refusal.after
  | .name q block slots => do
    match ← q.step c with
    | .more q => .ok (.name q block slots)
    | .closed text => .ok (.place (acceptName text block slots))

/-! ## The end of the text -/

/-- The document, if the text may end at the place. -/
def Place.finish : Place → Except Cause Value
  | .value _ _ => .error .endInValue
  | .row r .comma _ =>
    match r.next? with
    | some _ => .error .endInValue
    | none => .error .trailingText
  | .row _ _ _ => .error .endInList
  | .block b .comma _ => .error (if b.keeps then .endInValue else .endInObject)
  | .block _ _ _ => .error .endInObject
  | .colon _ _ _ => .error .endInObject
  | .repeated name => .error (.duplicateField name)
  | .done v => .ok v

/-- The document, if the text may end here. -/
def State.finish : State → Except Cause Value
  | .place p => p.finish
  | .word _ _ _ _ => .error .endInValue
  | .number n shape slots =>
    match n.unfinished? shape.keeps with
    | some cause => .error cause
    | none => do (← acceptNumber n shape slots).finish
  | .string _ _ _ => .error .endInString
  | .name _ _ _ => .error .endInString

/-- Goes over the rest of a text, of which `offset` bytes were read already. -/
def run (s : State) (offset : Nat) : List Char → Except Fault Value
  | [] => s.finish.mapError fun cause => ⟨cause, offset⟩
  | c :: cs =>
    match s.step c with
    | .ok s => run s (offset + c.utf8Size) cs
    | .error refusal => .error ⟨refusal.cause, offset + refusal.bytes⟩

/-- What is kept of a document of the shape. -/
def Shape.read (shape : Shape) (text : List Char) : Except Fault Value :=
  run (.place (.value shape [])) 0 text

/-- The value of a document. -/
def Value.read (text : String) : Except Fault Value :=
  Shape.any.read text.toList

end InlineCheck.Json
