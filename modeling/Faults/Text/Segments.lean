import Faults.Text.Blank

/-!
# Texts joined by a double colon

A path such as `Leaf::Branch::Root` is its segments joined by `::`. `join` writes it and `segments`
takes it apart again: at the leftmost double colon first, so `a:::b` has the segments `a` and `:b`.
-/

namespace Faults.Text

/-- The segments in order with a double colon between neighbours. -/
def join : List (List Char) → List Char
  | [] => []
  | [segment] => segment
  | segment :: next :: rest => segment ++ ':' :: ':' :: join (next :: rest)

/-- The character put in front of the first segment. -/
def grow (c : Char) : List (List Char) → List (List Char)
  | [] => [[c]]
  | segment :: rest => (c :: segment) :: rest

/-- The pieces between double colons; the empty text is one empty segment. -/
def segments : List Char → List (List Char)
  | ':' :: ':' :: rest => [] :: segments rest
  | c :: rest => grow c (segments rest)
  | [] => [[]]

example : segments ['a', ':', ':', ':', 'b'] = [['a'], [':', 'b']] := rfl

/-- The segments of a path, each without the blanks around it. -/
def names (path : List Char) : List (List Char) :=
  (segments path).map trim

end Faults.Text
