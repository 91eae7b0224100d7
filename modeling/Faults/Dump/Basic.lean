import Faults.Text.Quoted

/-!
# Dumps

A dump shows the inside of a value to a developer, as nested groups of labelled parts. It has two
layouts: on one line, or with each part on a line of its own, indented by four blanks per level and
followed by a comma. A group without parts is shown closed in both.
-/

namespace Faults

/-- A value taken apart. The label of a part is the text in front of it. -/
inductive Dump where
  | atom (text : String)
  | group (opening closing : String) (spaced : Bool) (parts : List (String × Dump))

namespace Dump

/-- A text between quotes. -/
def text (s : String) : Dump := atom (Text.quoted s)

/-- A truth value. -/
def bool (b : Bool) : Dump := atom (if b then "true" else "false")

/-- Named parts under a name. -/
def record (name : String) (fields : List (String × Dump)) : Dump :=
  group (name ++ " \x7b") "\x7d" true (fields.map fun (field, part) => (field ++ ": ", part))

/-- Parts under a name. -/
def tuple (name : String) (parts : List Dump) : Dump :=
  group (name ++ "(") ")" false (parts.map fun part => ("", part))

/-- Parts between brackets. -/
def list (parts : List Dump) : Dump := group "[" "]" false (parts.map fun part => ("", part))

/-- The value under another opening. -/
def headed (head : String) : Dump → Dump
  | atom text => atom (head ++ text)
  | group opening closing spaced parts => group (head ++ opening) closing spaced parts

/-- Parts by quoted keys. -/
def map (entries : List (String × Dump)) : Dump :=
  group "\x7b" "\x7d" false (entries.map fun (key, part) => (Text.quoted key ++ ": ", part))

mutual

/-- The dump on one line. -/
def inline : Dump → String
  | atom text => text
  | group opening closing _ [] => opening ++ closing
  | group opening closing spaced (part :: rest) =>
    let gap := if spaced then " " else ""
    opening ++ gap ++ inlineParts (part :: rest) ++ gap ++ closing

/-- The parts of a group with commas between them. -/
def inlineParts : List (String × Dump) → String
  | [] => ""
  | [(label, part)] => label ++ part.inline
  | (label, part) :: next :: rest => label ++ part.inline ++ ", " ++ inlineParts (next :: rest)

end

/-- A line break and the indentation of a level. -/
def lineBreak (level : Nat) : String := "\n" ++ "".pushn ' ' (4 * level)

mutual

/-- The dump with a line for each part, inside a group of the given level. -/
def lines (level : Nat) : Dump → String
  | atom text => text
  | group opening closing _ [] => opening ++ closing
  | group opening closing _ (part :: rest) =>
    opening ++ partLines (level + 1) (part :: rest) ++ lineBreak level ++ closing

/-- The lines of the parts of a group. -/
def partLines (level : Nat) : List (String × Dump) → String
  | [] => ""
  | (label, part) :: rest =>
    lineBreak level ++ label ++ part.lines level ++ "," ++ partLines level rest

end

/-- The dump with a line for each part. -/
def indented (dump : Dump) : String := dump.lines 0

end Dump

end Faults
