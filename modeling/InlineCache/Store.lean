/-
The store: everything that an assignment can change, and what it means to run a handler on it.
-/
import InlineCache.Registry

namespace InlineCache

/-- The heap and the registries, one per number; a registry not yet changed is the initial one. -/
structure Store where
  heap : Heap
  registry : Nat → Registry

namespace Store

/-- No arrays, and built-in handlers everywhere. -/
def initial : Store := ⟨.empty, fun _ => .initial⟩

/-- Installs a handler for one type in one registry. -/
def redefine (s : Store) (id : Nat) (t : ElementType) (h : Handler) : Store :=
  { s with registry := fun i => if i = id then (s.registry id).redefine t h else s.registry i }

@[simp] theorem heap_redefine (s : Store) (id : Nat) (t : ElementType) (h : Handler) :
    (s.redefine id t h).heap = s.heap := rfl

@[simp] theorem registry_redefine_self (s : Store) (id : Nat) (t : ElementType) (h : Handler) :
    (s.redefine id t h).registry id = (s.registry id).redefine t h := by simp [redefine]

theorem registry_redefine_of_ne (s : Store) {id i : Nat} (t : ElementType) (h : Handler)
    (hi : i ≠ id) : (s.redefine id t h).registry i = s.registry i := by simp [redefine, hi]

/-- The store after an attempt to change the heap, and whether it succeeded. -/
def update (s : Store) : Except Fault Heap → Except Fault Unit × Store
  | .ok h => (.ok (), { s with heap := h })
  | .error f => (.error f, s)

end Store

namespace Script

/-- Runs an override body. -/
def run : Script Handler → Store → Except Fault Value × Store
  | finish result, s => (result, s)
  | get a i next, s => (next (s.heap.get a i)).run s
  | put a i e next, s =>
    let outcome := s.update (s.heap.put a i e)
    (next outcome.1).run outcome.2
  | snapshot a next, s => (next (s.heap.storage a)).run s
  | allocate storage next, s =>
    let outcome := s.heap.allocate storage
    (next outcome.1).run { s with heap := outcome.2 }
  | assign t service a next, s =>
    let outcome := s.update (t.assign service s.heap a).1
    (next outcome.1).run outcome.2
  | redefine id t h next, s =>
    let s := s.redefine id t h
    (next ((s.registry id).version t)).run s

end Script

/-- What an assignment answers, the store it leaves, and the calls that it made to the coercion
service at hand. -/
structure Reply where
  result : Except Fault Value
  store : Store
  calls : CoercionCalls

namespace Handler

/-- Performs an assignment.  The built-in answer is `null`; an override answers what it likes and
does not use the service. -/
def assign (handler : Handler) (service : CoercionService) (s : Store) (a : Assignment) : Reply :=
  match handler with
  | builtin t =>
    let outcome := t.assign service s.heap a
    let updated := s.update outcome.1
    ⟨updated.1.map fun _ => .null, updated.2, outcome.2⟩
  | override _ body =>
    let outcome := (body a).run s
    ⟨outcome.1, outcome.2, .none⟩

end Handler

end InlineCache
