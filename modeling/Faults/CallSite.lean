/-!
# Call sites

A call site is where a failure or an entry is made: a location in the source text, and the stack as
it stands there. The stack is a list of levels, innermost first, and a level holds the symbols that
belong to it, several where calls were inlined. Symbols whose name starts with a built-in or a
registered prefix are machinery: the walk drops them up to the first symbol that is not, and keeps
everything from there on.
-/

namespace Faults

/-- A place in the source text. -/
structure Location where
  file : String
  line : Nat
  deriving DecidableEq, Repr

namespace Location

/-- The location as `file:line`. -/
def text (location : Location) : String := location.file ++ ":" ++ toString location.line

end Location

/-- What is known of one symbol of the stack. -/
structure Symbol where
  name : Option String
  file : Option String := none
  line : Option Nat := none
  deriving DecidableEq, Repr

/-- A symbol with a name, as it is kept. -/
structure Frame where
  function : String
  file : Option String := none
  line : Option Nat := none
  deriving DecidableEq, Repr

namespace Frame

/-- The function, and on a line of its own where it stands as far as that is known. -/
def text (frame : Frame) : String :=
  match frame.file, frame.line with
  | some file, some line => frame.function ++ "\n\tat " ++ file ++ ":" ++ toString line
  | some file, none => frame.function ++ "\n\tat " ++ file
  | none, _ => frame.function

end Frame

/-- The stack around a call, and the prefixes of the names that count as machinery. -/
structure Surroundings where
  levels : List (List Symbol)
  machinery : List String := []
  deriving DecidableEq, Repr

namespace Surroundings

/-- The machinery with one more prefix, each prefix once. -/
def addMachinery (machinery : List String) (start : String) : List String :=
  if machinery.contains start then machinery else machinery ++ [start]

/-- The prefixes that are machinery everywhere: the library itself, and what calls of it go
through. -/
def builtinMachinery : List String :=
  ["error_kind::", "backtrace::", "core::", "std::", "alloc::", "futures_core::",
    "pin_project_lite::", "tower::"]

/-- What stands in the name of a function that implements an interface of the library. -/
def interfaceMark : String := " as error_kind::"

/-- The text has the pattern in it somewhere. -/
def holds (pattern : List Char) : List Char → Bool
  | [] => pattern.isEmpty
  | c :: rest => pattern.isPrefixOf (c :: rest) || holds pattern rest

/-- The name starts with a prefix of the machinery, the brackets it opens with aside, or has the mark
in it. -/
def isInternal (machinery : List String) (name : String) : Bool :=
  let bare := name.toList.dropWhile (· == '<')
  (builtinMachinery.any fun start => start.toList.isPrefixOf bare) ||
    holds interfaceMark.toList name.toList ||
    machinery.any fun start => start.toList.isPrefixOf bare

/-- How far a walk has come: the frames it kept, and whether it has left the machinery. -/
structure Walk where
  frames : List Frame
  outside : Bool
  deriving DecidableEq, Repr

/-- One symbol of the walk. Once `limit` frames are kept, no more are. -/
def Walk.visit (machinery : List String) (limit : Nat) (walk : Walk) (symbol : Symbol) : Walk :=
  if limit ≤ walk.frames.length then walk
  else
    match symbol.name with
    | none => walk
    | some name =>
      if !walk.outside && isInternal machinery name then walk
      else ⟨walk.frames ++ [⟨name, symbol.file, symbol.line⟩], true⟩

/-- The levels in order, until `limit` frames are kept. -/
def Walk.levels (machinery : List String) (limit : Nat) : Walk → List (List Symbol) → Walk
  | walk, [] => walk
  | walk, level :: rest =>
    let walk := level.foldl (Walk.visit machinery limit) walk
    if walk.frames.length < limit then Walk.levels machinery limit walk rest else walk

/-- At most `limit` frames from the first one outside the machinery on. -/
def external (surroundings : Surroundings) (limit : Nat) : List Frame :=
  (Walk.levels surroundings.machinery limit ⟨[], false⟩ surroundings.levels).frames

/-- The most frames a captured stack keeps. -/
def frameLimit : Nat := 64

/-- The stack as it is captured. -/
def capture (surroundings : Surroundings) : List Frame := surroundings.external frameLimit

end Surroundings

/-- Where a call is made. -/
structure CallSite where
  location : Location
  surroundings : Surroundings
  deriving DecidableEq, Repr

/-- Who makes a call: the function as far as it is known, and the location. -/
structure Caller where
  function : Option String
  location : Location
  deriving DecidableEq, Repr

namespace Caller

/-- The function, or a word for an unknown one. -/
def functionName (caller : Caller) : String := caller.function.getD "unknown"

/-- The caller on one line of a trail. -/
def hop (caller : Caller) : String :=
  "[" ++ caller.location.text ++ "] " ++ caller.functionName

/-- What tells the scopes of one caller from those of another. -/
def scopeKey (caller : Caller) : String := caller.function.getD caller.location.text

end Caller

namespace CallSite

/-- The caller at a site, from a walk that stops at the first frame. -/
def caller (site : CallSite) : Caller :=
  ⟨(site.surroundings.external 1).head?.map Frame.function, site.location⟩

/-- The captured stack and the hop of its first function, from a single walk. -/
def origin (site : CallSite) : List Frame × String :=
  let frames := site.surroundings.capture
  (frames, Caller.hop ⟨frames.head?.map Frame.function, site.location⟩)

end CallSite

end Faults
