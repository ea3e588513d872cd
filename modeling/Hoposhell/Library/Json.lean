import Mathlib.Data.List.Basic

/-!
# JSON values

The values of a JSON library and the accessors a program uses on them.  Reading and
printing texts is left to a `Codec`.  A number is kept as its text.
-/

namespace Json

inductive Value where
  | null
  | bool (value : Bool)
  | number (text : String)
  | string (text : String)
  | array (items : List Value)
  | object (fields : List (String × Value))
deriving Repr

/-- The field of an object; other values have none. -/
def Value.get (value : Value) (key : String) : Option Value :=
  match value with
  | .object fields => (fields.find? fun field => field.1 = key).map (·.2)
  | _ => none

/-- The text of a string value. -/
def Value.asStr : Value → Option String
  | .string text => some text
  | _ => none

/-- The items of an array value. -/
def Value.asArray : Value → Option (List Value)
  | .array items => some items
  | _ => none

/-- A reader and a printer of JSON texts. -/
structure Codec where
  fromStr : String → Option Value
  toString : Value → String

/--
An object that holds a text is read back from what is printed of it, nothing is read from
a text that stops before its end, and no text starts with the character NUL.
-/
structure Codec.Lawful (codec : Codec) : Prop where
  read_print : ∀ name text, codec.fromStr (codec.toString (.object [(name, .string text)])) =
    some (.object [(name, .string text)])
  incomplete : ∀ name text part rest,
    codec.toString (.object [(name, .string text)]) = part ++ rest → rest ≠ "" →
      codec.fromStr part = none
  noNul : ∀ rest, codec.fromStr (String.singleton (Char.ofNat 0) ++ rest) = none

/-- The codec of the text `null` alone. -/
def nullCodec : Codec where
  fromStr text := if text = "null" then some .null else none
  toString _ := "null"

end Json
