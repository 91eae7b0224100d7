import Faults.Entry.Build
import Faults.Entry.View
import Faults.Kind.Builtin

/-!
# Failures

A failure has a kind, a message and a context, and below it stands the chain of what caused it. A
link of the chain is a layer, which is what a failure is without its causes, or something foreign of
which only the text is known.

Wrapping a failure starts from the context of what is wrapped and merges its own entries on top, so
what was attached further down stays. Each wrapping step adds a hop to the trail; raising a failure
and wrapping a foreign one capture the stack as well.
-/

namespace Faults

/-- A failure without its causes. -/
structure Layer where
  kind : Kind
  message : String
  entries : Context

/-- A link in the chain of causes. -/
inductive Link where
  | ours (layer : Layer)
  | foreign (text : String)

instance : Inhabited Link := ⟨.foreign ""⟩

namespace Link

/-- The message of a layer, or the text of something foreign. -/
def text : Link → String
  | ours layer => layer.message
  | foreign text => text

/-- The layer, if it is one. -/
def layer? : Link → Option Layer
  | ours layer => some layer
  | foreign _ => none

end Link

/-- A classified failure and what caused it, the nearest cause first. -/
structure Failure extends Layer where
  below : List Link

/-- Anything that can be wrapped: a link and what caused it. -/
structure Source where
  top : Link
  below : List Link
  deriving Inhabited

namespace Source

/-- All links, the outermost first. -/
def chain (source : Source) : List Link := source.top :: source.below

/-- The failure, if the outermost link is a layer. -/
def failure? (source : Source) : Option Failure :=
  source.top.layer?.map fun layer => { layer with below := source.below }

/-- Something foreign without a cause. -/
def leaf (text : String) : Source := ⟨.foreign text, []⟩

/-- Something foreign caused by `source`. -/
def wrapper (text : String) (source : Source) : Source := ⟨.foreign text, source.chain⟩

/-- Something foreign with the text and the causes of `source`, which itself is hidden. -/
def shell (source : Source) : Source := ⟨.foreign source.top.text, source.below⟩

end Source

namespace Failure

/-- The failure as something that can be wrapped. -/
def source (failure : Failure) : Source := ⟨.ours failure.toLayer, failure.below⟩

/-- The failure itself and everything below it. -/
def chain (failure : Failure) : List Link := failure.source.chain

/-- A failure without causes and without diagnostics. -/
def raw (kind : Kind) (message : String) (entries : List Entry) : Except Clash Failure := do
  return { kind, message, entries := ← Context.ofList entries, below := [] }

/-- The failure with more entries. -/
def attach (failure : Failure) (entries : List Entry) : Except Clash Failure := do
  return { failure with entries := ← failure.entries.addAll entries }

/-- The failure with another kind. -/
def reclassify (failure : Failure) (kind : Kind) : Failure := { failure with kind }

/-- A failure that arises at a site: the stack and the first hop follow its entries. -/
def raise (site : CallSite) (kind : Kind) (message : String) (entries : List Entry) :
    Except Clash Failure := do
  let (frames, hop) := site.origin
  (← raw kind message entries).attach [.stack frames, .trail [hop]]

/-- The diagnostics of wrapping at a site: a hop, and before it the stack where nothing captured one
so far. -/
def diagnostics (site : CallSite) : Link → List Entry
  | .ours _ => [Entry.here site]
  | .foreign _ =>
    let (frames, hop) := site.origin
    [.stack frames, .trail [hop]]

/-- The kind that a wrapping failure has unless another is named. -/
def inheritedKind : Link → Kind
  | .ours layer => layer.kind
  | .foreign _ => .unknownError

/-- The context that a wrapping failure starts from. -/
def inheritedEntries : Link → Context
  | .ours layer => layer.entries
  | .foreign _ => []

/-- A failure caused by `source`: its kind is `kind?` or else the inherited one. -/
def wrap (site : CallSite) (kind? : Option Kind) (source : Source) (message : String)
    (entries : List Entry) : Except Clash Failure := do
  let context ← (inheritedEntries source.top).addAll entries
  let context ← context.addAll (diagnostics site source.top)
  return {
    kind := kind?.getD (inheritedKind source.top)
    message, entries := context, below := source.chain }

/-- The source wrapped under its own text. -/
def rewrap (site : CallSite) (source : Source) : Except Clash Failure :=
  wrap site none source source.top.text []

/-- The failure falls under a kind. -/
def isA (failure : Failure) (kind : Kind) : Bool := failure.kind.isA kind

/-- The entry of a key. -/
def get? (failure : Failure) (key : String) : Option Entry := failure.entries.get? key

/-- What may be told outside, none when there is nothing. -/
def details (failure : Failure) : Option Json.Members :=
  match failure.entries.publicValues with
  | [] => none
  | members => some members

end Failure

end Faults
