import Faults.Failure.Basic

/-!
# Along the chain of causes

A source is classified by the outermost layer of its chain: outer layers may have named another
kind, so theirs counts. The text of a chain is the texts of its links in order, neighbours that are
equal written once.
-/

namespace Faults

namespace Source

/-- The failure that begins at the first layer of a chain. -/
def outermost : List Link → Option Failure
  | [] => none
  | .ours layer :: rest => some { layer with below := rest }
  | .foreign _ :: rest => outermost rest

/-- The outermost failure of a source. -/
def classify (source : Source) : Option Failure := outermost source.chain

/-- The outermost failure, if it falls under the kind. -/
def findKind (source : Source) (kind : Kind) : Option Failure :=
  source.classify.filter fun failure => failure.isA kind

/-- The source is classified under the kind. -/
def isKind (source : Source) (kind : Kind) : Bool := (source.findKind kind).isSome

end Source

/-- The texts joined by colons behind a text already written, each text that equals the one written
last left out. -/
def joinTexts (written : Option String) : List String → String
  | [] => ""
  | text :: rest =>
    match written with
    | none => text ++ joinTexts (some text) rest
    | some last =>
      if last = text then joinTexts (some last) rest
      else ": " ++ text ++ joinTexts (some text) rest

namespace Failure

/-- The texts from the failure down to its first cause. -/
def chainText (failure : Failure) : String := joinTexts none (failure.chain.map Link.text)

/-- What is written of a failure: its message, and in the alternate form the texts of its chain. -/
def display (failure : Failure) (alternate : Bool) : String :=
  if alternate then failure.chainText else failure.message

end Failure

end Faults
