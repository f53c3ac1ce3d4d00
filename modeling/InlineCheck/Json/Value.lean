/-!
# JSON values

A JSON text that was read, kept as data.  Whole numbers from `-2 ^ 63` to `2 ^ 64 - 1` are
kept exactly and all others as floating-point numbers.  An object that was read has its
members in ascending order of their names, each name once: `insertMember` keeps that order and
lets the last value of a repeated name win.

Two values are equal (`==`) if they have the same form and equal parts, and numbers are
compared by value within their form: a whole number never equals a floating-point one.
-/

namespace InlineCheck.Json

/-- A number, whole or floating-point. -/
inductive Number
  | whole (n : Int)
  | float (x : Float)
deriving BEq, Inhabited

/-- A JSON value. -/
inductive Value
  | null
  | bool (b : Bool)
  | number (n : Number)
  | string (text : String)
  | array (items : List Value)
  | object (members : List (String × Value))
deriving Inhabited

namespace Value

mutual

/-- Whether two values have the same form and equal parts. -/
def same : Value → Value → Bool
  | .null, .null => true
  | .bool a, .bool b => a == b
  | .number a, .number b => a == b
  | .string a, .string b => a == b
  | .array a, .array b => sameItems a b
  | .object a, .object b => sameMembers a b
  | _, _ => false

/-- Whether two arrays are equal item by item. -/
def sameItems : List Value → List Value → Bool
  | [], [] => true
  | a :: as, b :: bs => same a b && sameItems as bs
  | _, _ => false

/-- Whether two objects are equal member by member. -/
def sameMembers : List (String × Value) → List (String × Value) → Bool
  | [], [] => true
  | (k, a) :: as, (l, b) :: bs => k == l && same a b && sameMembers as bs
  | _, _ => false

end

instance : BEq Value := ⟨same⟩

/-- Puts a member into members in ascending order of names, in place of one of the same
name. -/
def insertMember (name : String) (value : Value) :
    List (String × Value) → List (String × Value)
  | [] => [(name, value)]
  | (name', value') :: rest =>
    match compare name name' with
    | .lt => (name, value) :: (name', value') :: rest
    | .eq => (name, value) :: rest
    | .gt => (name', value') :: insertMember name value rest

/-- The member of an object with the given name; other values have no members. -/
def member? (v : Value) (name : String) : Option Value :=
  match v with
  | .object members => members.lookup name
  | _ => none

/-- The text of a string. -/
def text? : Value → Option String
  | .string text => some text
  | _ => none

/-- The number of a whole number that is not negative. -/
def natural? : Value → Option Nat
  | .number (.whole (.ofNat n)) => some n
  | _ => none

end Value

end InlineCheck.Json
