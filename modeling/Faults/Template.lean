import Faults.Failure.Basic

/-!
# Templates and bundles

A template fixes the kind, the message and some entries of a failure that arises in several places.
A bundle fixes entries only, for code that attaches the same context to every failure it makes.
-/

namespace Faults

/-- A failure that arises in several places. -/
structure Template where
  kind : Kind
  message : String
  entries : List Entry := []

namespace Template

/-- A failure of the template; its own entries come first, so those of the call win. -/
def raise (template : Template) (site : CallSite) (entries : List Entry) :
    Except Clash Failure :=
  Failure.raise site template.kind template.message (template.entries ++ entries)

/-- The source wrapped as a failure of the template. -/
def propagate (template : Template) (site : CallSite) (source : Source) (entries : List Entry) :
    Except Clash Failure :=
  Failure.wrap site (some template.kind) source template.message (template.entries ++ entries)

end Template

/-- Entries that every failure of some code is given. -/
structure Bundle where
  entries : List Entry

namespace Bundle

/-- The bundle with more entries. They are not merged before a failure takes them. -/
def add (bundle : Bundle) (entries : List Entry) : Bundle := ⟨bundle.entries ++ entries⟩

/-- A failure that arises at a site, with the bundle attached at the end. -/
def raise (bundle : Bundle) (site : CallSite) (kind : Kind) (message : String)
    (entries : List Entry) : Except Clash Failure := do
  (← Failure.raise site kind message entries).attach bundle.entries

/-- A failure without diagnostics, with the bundle attached at the end. -/
def raw (bundle : Bundle) (kind : Kind) (message : String) (entries : List Entry) :
    Except Clash Failure := do
  (← Failure.raw kind message entries).attach bundle.entries

/-- The source wrapped, the bundle behind the entries of the call. -/
def wrap (bundle : Bundle) (site : CallSite) (kind? : Option Kind) (source : Source)
    (message : String) (entries : List Entry) : Except Clash Failure :=
  Failure.wrap site kind? source message (entries ++ bundle.entries)

end Bundle

end Faults
