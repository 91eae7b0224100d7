import Faults.Decimal.Text
import Faults.Json.Basic
import Faults.Text.Quoted

/-!
# Why a text is refused

A text is refused because it ends too early, because it is not JSON, or because it is JSON of
another shape than the one asked for. Only the last carries a message.
-/

namespace Faults.Json

/-- What a reader sees of a value it did not ask for. -/
inductive Glimpse where
  | null
  | bool (b : Bool)
  | int (n : Int)
  | real (x : Float)
  | str (s : String)
  | arr
  | obj
  deriving DecidableEq

namespace Glimpse

/-- The value as a message names it. -/
def text : Glimpse → String
  | null => "null"
  | bool true => "boolean `true`"
  | bool false => "boolean `false`"
  | int n => "integer `" ++ toString n ++ "`"
  | real x => "floating point `" ++ String.ofList (Decimal.text x) ++ "`"
  | str s => "string " ++ Text.quoted s
  | arr => "sequence"
  | obj => "map"

end Glimpse

/-- What can be seen of a whole value. -/
def glimpse : Json → Glimpse
  | null => .null
  | bool b => .bool b
  | int n => .int n
  | real x => .real x
  | str s => .str s
  | arr _ => .arr
  | obj _ => .obj

/-- JSON of the wrong shape. -/
inductive Mismatch where
  | wrongType (found : Glimpse) (expected : String)
  | wrongLength (length : Nat) (expected : String)
  | missingField (name : String)
  | repeatedField (name : String)
  | unknownVariant (name : String) (known : List String)
  deriving DecidableEq

namespace Mismatch

/-- The known names of a choice. -/
def choice : List String → String
  | [first, second] => "`" ++ first ++ "` or `" ++ second ++ "`"
  | names => ", ".intercalate (names.map fun name => "`" ++ name ++ "`")

/-- The message of a mismatch. -/
def message : Mismatch → String
  | wrongType found expected => "invalid type: " ++ found.text ++ ", expected " ++ expected
  | wrongLength length expected =>
    "invalid length " ++ toString length ++ ", expected " ++ expected
  | missingField name => "missing field `" ++ name ++ "`"
  | repeatedField name => "duplicate field `" ++ name ++ "`"
  | unknownVariant name known => "unknown variant `" ++ name ++ "`, expected " ++ choice known

end Mismatch

/-- Why a text is refused. -/
inductive ReadError where
  /-- The text ends before the value does. -/
  | incomplete
  /-- The text is not JSON. -/
  | malformed
  /-- The text is JSON of another shape. -/
  | mismatch (cause : Mismatch)
  deriving DecidableEq

/-- A reader takes a value off the front of a text and leaves the rest. -/
abbrev Reader (α : Type) := List Char → Except ReadError (α × List Char)

end Faults.Json
