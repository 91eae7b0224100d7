import Faults.Json.Number

/-!
# Reading JSON

A reader goes through the text once, from left to right, and the first thing wrong with it decides
the refusal. Arrays and objects may nest up to a bound; a repeated key of an object keeps its last
value. `value` reads a value, `skipValue` passes over one, `entire` asks that nothing but blanks is
left.

The nesting bound is what the recursion of `value` runs on. The loop over items or members runs on
the length of the text: each round takes at least one character.
-/

namespace Faults.Json

/-- A blank between the parts of a JSON text. -/
def isGap (c : Char) : Bool := c == ' ' || c == '\n' || c == '\t' || c == '\r'

/-- The text without the blanks it starts with. -/
def skipGap (cs : List Char) : List Char := cs.dropWhile isGap

/-- Nesting that the texts of other processes may have. -/
def depthLimit : Nat := 127

/-- The rest behind the letters of a literal. -/
def expect : List Char → List Char → Except ReadError (List Char)
  | [], rest => .ok rest
  | _ :: _, [] => .error .incomplete
  | letter :: letters, c :: rest =>
    if c = letter then expect letters rest else .error .malformed

/-! ## Texts -/

/-- The value of a hexadecimal digit. -/
def hexValue (c : Char) : Option Nat :=
  if c.isDigit then some (c.toNat - '0'.toNat)
  else if 'a' ≤ c ∧ c ≤ 'f' then some (c.toNat - 'a'.toNat + 10)
  else if 'A' ≤ c ∧ c ≤ 'F' then some (c.toNat - 'A'.toNat + 10)
  else none

/-- The value of four hexadecimal digits. -/
def codeUnit (a b c d : Char) : Option Nat := do
  return ((← hexValue a) * 16 + (← hexValue b)) * 256 + ((← hexValue c) * 16 + (← hexValue d))

/-- The first half of a pair that stands for one character. -/
def isLeading (unit : Nat) : Bool := 0xd800 ≤ unit && unit ≤ 0xdbff

/-- The second half of such a pair. -/
def isTrailing (unit : Nat) : Bool := 0xdc00 ≤ unit && unit ≤ 0xdfff

/-- The character of a pair. -/
def pairChar (leading trailing : Nat) : Char :=
  Char.ofNat (0x10000 + (leading - 0xd800) * 0x400 + (trailing - 0xdc00))

/-- The character that a one-letter escape stands for. -/
def shortEscape : Char → Option Char
  | '"' => some '"'
  | '\\' => some '\\'
  | '/' => some '/'
  | 'b' => some '\x08'
  | 'f' => some '\x0c'
  | 'n' => some '\n'
  | 'r' => some '\r'
  | 't' => some '\t'
  | _ => none

/-- Fewer than four characters are left for an escape of four digits: it breaks off unless the rest
takes four bytes. -/
def brokenEscape (rest : List Char) : ReadError :=
  if (String.ofList rest).utf8ByteSize < 4 then .incomplete else .malformed

/-- The characters of a text behind its opening quote, `taken` holding those already read in
reverse. -/
def textTail (taken : List Char) : List Char → Except ReadError (List Char × List Char)
  | [] => .error .incomplete
  | '"' :: rest => .ok (taken.reverse, rest)
  | '\\' :: rest =>
    match rest with
    | [] => .error .incomplete
    | 'u' :: rest =>
      match rest with
      | a :: b :: c :: d :: rest =>
        match codeUnit a b c d with
        | none => .error .malformed
        | some unit =>
          if isTrailing unit then .error .malformed
          else if isLeading unit then
            match rest with
            | [] => .error .incomplete
            | ['\\'] => .error .incomplete
            | '\\' :: 'u' :: rest =>
              match rest with
              | a :: b :: c :: d :: rest =>
                match codeUnit a b c d with
                | none => .error .malformed
                | some next =>
                  if isTrailing next then textTail (pairChar unit next :: taken) rest
                  else .error .malformed
              | rest => .error (brokenEscape rest)
            | _ => .error .malformed
          else textTail (Char.ofNat unit :: taken) rest
      | rest => .error (brokenEscape rest)
    | letter :: rest =>
      match shortEscape letter with
      | none => .error .malformed
      | some c => textTail (c :: taken) rest
  | c :: rest => if c.toNat < 0x20 then .error .malformed else textTail (c :: taken) rest

/-- A text behind its opening quote. -/
def textBody : Reader String := fun cs =>
  (textTail [] cs).map fun (chars, rest) => (String.ofList chars, rest)

/-- Passes over a text behind its opening quote; halves of pairs may stand alone. -/
def skipText : List Char → Except ReadError (List Char)
  | [] => .error .incomplete
  | '"' :: rest => .ok rest
  | '\\' :: rest =>
    match rest with
    | [] => .error .incomplete
    | 'u' :: rest =>
      match rest with
      | a :: b :: c :: d :: rest =>
        if (codeUnit a b c d).isSome then skipText rest else .error .malformed
      | rest => .error (brokenEscape rest)
    | letter :: rest => if (shortEscape letter).isSome then skipText rest else .error .malformed
  | c :: rest => if c.toNat < 0x20 then .error .malformed else skipText rest

/-! ## Items and members -/

/-- One piece or more, separated by commas, up to the closing mark. -/
def series {α : Type} (close : Char) (piece : Reader α) : Nat → Reader (List α)
  | 0, _ => .error .incomplete
  | fuel + 1, cs => do
    let (first, rest) ← piece cs
    match skipGap rest with
    | [] => .error .incomplete
    | c :: rest =>
      if c = close then .ok ([first], rest)
      else if c = ',' then do
        let (others, rest) ← series close piece fuel rest
        .ok (first :: others, rest)
      else .error .malformed

/-- The items of an array behind its opening bracket. -/
def arrayBody {α : Type} (item : Reader α) : Reader (List α) := fun cs =>
  match skipGap cs with
  | ']' :: rest => .ok ([], rest)
  | rest => series ']' item (cs.length + 1) rest

/-- The opening quote of a key. -/
def keyMark (cs : List Char) : Except ReadError (List Char) :=
  match skipGap cs with
  | [] => .error .incomplete
  | '"' :: rest => .ok rest
  | _ => .error .malformed

/-- The colon behind a key. -/
def colon (cs : List Char) : Except ReadError (List Char) :=
  match skipGap cs with
  | [] => .error .incomplete
  | ':' :: rest => .ok rest
  | _ => .error .malformed

/-- The members of an object behind its opening brace. -/
def objectBody {α : Type} (member : Reader α) : Reader (List α) := fun cs =>
  match skipGap cs with
  | [] => .error .incomplete
  | '}' :: rest => .ok ([], rest)
  | rest => series '}' member (cs.length + 1) rest

/-- A key, a colon and what `value` reads. -/
def member {α : Type} (value : Reader α) : Reader (String × α) := fun cs => do
  let (key, rest) ← keyMark cs >>= textBody
  let (v, rest) ← colon rest >>= value
  .ok ((key, v), rest)

/-! ## Values -/

/-- Reads the value that starts with `c` if it has no parts: a literal, a number or a text. -/
def scalar? (c : Char) (rest : List Char) : Option (Except ReadError (Json × List Char)) :=
  if c = 'n' then some ((expect ['u', 'l', 'l'] rest).map (null, ·))
  else if c = 't' then some ((expect ['r', 'u', 'e'] rest).map (bool true, ·))
  else if c = 'f' then some ((expect ['a', 'l', 's', 'e'] rest).map (bool false, ·))
  else if c = '-' then some (number true rest)
  else if c.isDigit then some (number false (c :: rest))
  else if c = '"' then some ((textBody rest).map fun (s, rest) => (str s, rest))
  else none

/-- Reads a value whose arrays and objects nest at most `depth` deep. -/
def value : Nat → Reader Json := fun depth cs =>
  match skipGap cs with
  | [] => .error .incomplete
  | c :: rest =>
    match scalar? c rest with
    | some read => read
    | none =>
      match c, depth with
      | '[', inner + 1 =>
        (arrayBody (value inner) rest).map fun (items, rest) => (arr items, rest)
      | '{', inner + 1 =>
        (objectBody (member (value inner)) rest).map fun (members, rest) =>
          (obj (Members.ofList members), rest)
      | _, _ => .error .malformed

/-- Passes over a literal, a number or a text. -/
def skipScalar? (c : Char) (rest : List Char) : Option (Except ReadError (List Char)) :=
  if c = 'n' then some (expect ['u', 'l', 'l'] rest)
  else if c = 't' then some (expect ['r', 'u', 'e'] rest)
  else if c = 'f' then some (expect ['a', 'l', 's', 'e'] rest)
  else if c = '-' then some (skipNumber rest)
  else if c.isDigit then some (skipNumber (c :: rest))
  else if c = '"' then some (skipText rest)
  else none

/-- A key and a value that nobody asked for. -/
def skipMember (value : Reader Unit) : Reader Unit := fun cs => do
  let rest ← keyMark cs >>= skipText >>= colon
  value rest

/-- Passes over a value that nests at most `depth` deep. -/
def skipNested : Nat → Reader Unit := fun depth cs =>
  match skipGap cs with
  | [] => .error .incomplete
  | c :: rest =>
    match skipScalar? c rest with
    | some read => read.map fun rest => ((), rest)
    | none =>
      match c, depth with
      | '[', inner + 1 =>
        (arrayBody (skipNested inner) rest).map fun (_, rest) => ((), rest)
      | '{', inner + 1 =>
        (objectBody (skipMember (skipNested inner)) rest).map fun (_, rest) => ((), rest)
      | _, _ => .error .malformed

/-- Passes over a value of any nesting: no text nests deeper than it is long. -/
def skipValue : Reader Unit := fun cs => skipNested cs.length cs

/-- What can be seen of a value of the wrong shape. An array or an object shows at its opening mark;
any other value is read to its end, and what is wrong with its text counts first. -/
def peek (cs : List Char) : Except ReadError Glimpse :=
  match skipGap cs with
  | [] => .error .incomplete
  | c :: rest =>
    match scalar? c rest with
    | some read => read.map fun (v, _) => v.glimpse
    | none => if c = '[' then .ok .arr else if c = '{' then .ok .obj else .error .malformed

/-- The refusal of a value where another was expected. -/
def refuse {α : Type} (expected : String) (cs : List Char) : Except ReadError α := do
  .error (.mismatch (.wrongType (← peek cs) expected))

/-- Reads a text, and only a text. -/
def textValue (expected : String) : Reader String := fun cs =>
  match skipGap cs with
  | '"' :: rest => textBody rest
  | rest => refuse expected rest

/-- The whole text is one value between blanks. -/
def entire {α : Type} (reader : Reader α) (text : String) : Except ReadError α := do
  let (a, rest) ← reader text.toList
  match skipGap rest with
  | [] => .ok a
  | _ => .error .malformed

/-- The value of a JSON text. -/
def read (text : String) : Except ReadError Json := entire (value depthLimit) text

end Faults.Json
