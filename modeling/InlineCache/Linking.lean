/-
Linking: what a call site remembers about a call that it sees.

A site is specialised only where the handler in force is built in and the operands already have
the classes that an entry takes; a site that is passed through never tries a short cut again.
-/
import InlineCache.Entry

namespace InlineCache

/-- What a call site has remembered. -/
inductive SiteState
  | unlinked
  | passThrough
  | specialized (entry : Entry)
  deriving DecidableEq

namespace SiteState

/-- The name of a state in reports. -/
def name : SiteState → String
  | unlinked => "unlinked"
  | passThrough => "pass-through"
  | specialized _ => "specialized"

/-- Whether the site holds an entry. -/
def isSpecialized : SiteState → Bool
  | specialized _ => true
  | _ => false

end SiteState

/-- The settings of a dispatcher.  Unless told otherwise it specialises sites and truncates. -/
structure DispatchSettings where
  specialize : Bool := true
  narrowing : NarrowingPolicy := .truncate
  deriving DecidableEq, Repr

/-- Decides how a site is linked, from the handler resolved for the receiver and its version: a
built-in handler of the receiver's own element type, called with an `Integer` and a boxed element,
gets an entry; every other call is passed through. -/
def Handler.link (handler : Handler) (settings : DispatchSettings) (version : UInt64)
    (receiver : Value) (argTypes : List String) : SiteState :=
  match handler.builtinType? with
  | some t =>
    if settings.specialize ∧ receiver.elementType? = some t ∧
        argTypes = ["Integer", t.boxedName] then
      .specialized ⟨t, version⟩
    else .passThrough
  | none => .passThrough

end InlineCache
