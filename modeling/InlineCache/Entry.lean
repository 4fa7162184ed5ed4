/-
Cache entries: assignments specialised to one element type, good for one version of its handler.

An entry stores without coercion, and only where the receiver, the index and the payload have
exactly the classes it was made for; everything else it hands back.  The version it was made under
is its guard.
-/
import InlineCache.Store

namespace InlineCache

/-- An assignment specialised to an element type. -/
structure Entry where
  type : ElementType
  guard : UInt64
  deriving DecidableEq, Repr

/-- How the operands of an assignment meet an entry. -/
inductive OperandCheck
  | fits (index : Int32) (element : Element)
  | wrongReceiver
  | mismatchedIndex
  | mismatchedPayload
  deriving DecidableEq

/-- Why an entry hands an assignment back. -/
inductive FallbackReason
  | staleGuard
  | wrongReceiver
  | mismatchedIndex
  | mismatchedPayload
  | arity
  deriving DecidableEq, Repr

/-- What an entry does with an assignment.  Only a performed assignment has a new heap. -/
inductive EntryOutcome
  | done (value : Value) (heap : Heap)
  | fallback (reason : FallbackReason)
  | fault (fault : Fault)

namespace Entry

/-- The classes of index and payload that the entry takes. -/
def signature (e : Entry) : List String := ["Integer", e.type.boxedName]

/-- Whether the handler of the entry's type still has the version of the guard. -/
def valid (e : Entry) (r : Registry) : Bool := r.version e.type == e.guard

/-- Looks at the receiver, then the index, then the payload. -/
def check (e : Entry) (a : Assignment) : OperandCheck :=
  if a.receiver.elementType? = some e.type then
    match a.index with
    | .integer i =>
      match e.type.unbox? a.value with
      | some element => .fits i element
      | none => .mismatchedPayload
    | _ => .mismatchedIndex
  else .wrongReceiver

/-- Stores an element. -/
def store (h : Heap) (receiver : Value) (index : Int32) (element : Element) : EntryOutcome :=
  match receiver.handle? with
  | some array =>
    match h.put array index.toInt64 element with
    | .ok h => .done .null h
    | .error f => .fault f
  | none => .fallback .wrongReceiver

/-- A call with a list of arguments.  The number of arguments is looked at first, then the
guard. -/
def apply (e : Entry) (r : Registry) (h : Heap) (receiver : Value) (args : List Value) :
    EntryOutcome :=
  match args with
  | [index, value] =>
    if e.valid r then
      match e.check ⟨receiver, index, value⟩ with
      | .fits i element => store h receiver i element
      | .wrongReceiver => .fallback .wrongReceiver
      | .mismatchedIndex => .fallback .mismatchedIndex
      | .mismatchedPayload => .fallback .mismatchedPayload
    else .fallback .staleGuard
  | _ => .fallback .arity

/-- A call with an index and a value.  A payload that no coercion could help is a fault here and
now. -/
def assign (e : Entry) (r : Registry) (h : Heap) (a : Assignment) : EntryOutcome :=
  if e.valid r then
    match e.check a with
    | .fits i element => store h a.receiver i element
    | .mismatchedPayload =>
      match e.type.classify a.value with
      | .incompatible => .fault (e.type.mismatch a.value)
      | _ => .fallback .mismatchedPayload
    | .wrongReceiver => .fallback .wrongReceiver
    | .mismatchedIndex => .fallback .mismatchedIndex
  else .fallback .staleGuard

end Entry

end InlineCache
