/-
Programs of assignments, redefinitions and reads, over any number of dispatchers.

The world holds what the steps of a program change: the store, the call sites of each owner, and
how often each dispatcher has called its coercion service.  The dispatchers themselves do not
change.  A step that fails does not end the program.

Design notes: a step comes to its end before the next one begins, so a program is one order of
whole calls.  Calls that overlap, such as two first calls of a site at once, are not described, and
neither is what is logged on the way.
-/
import InlineCache.Site

namespace InlineCache

/-- Where a call site lives: with a dispatcher, or in the table that belongs to none. -/
inductive Owner
  | dispatcher (d : Nat)
  | standalone
  deriving DecidableEq, Repr

/-- Everything that a program changes. -/
structure World where
  store : Store
  sites : Owner → SiteTable
  tally : Nat → CoercionCalls

namespace World

/-- The world of a program that starts from a store. -/
def initial (s : Store) : World := ⟨s, fun _ => .empty, fun _ => .none⟩

/-- Replaces the site table of one owner. -/
def setSites (w : World) (owner : Owner) (t : SiteTable) : World :=
  { w with sites := fun o => if o = owner then t else w.sites o }

/-- Adds to the tally of one dispatcher. -/
def count (w : World) (d : Nat) (calls : CoercionCalls) : World :=
  { w with tally := fun i => if i = d then w.tally d + calls else w.tally i }

/-- Looks up a site, which makes it exist. -/
def visit (w : World) (owner : Owner) (id : UInt64) : Site × World :=
  let found := (w.sites owner).visit id
  (found.1, w.setSites owner found.2)

/-- Takes over the store and the calls of a reply that dispatcher `d` gave. -/
def absorb (w : World) (d : Nat) (reply : Reply) : World :=
  { w with store := reply.store }.count d reply.calls

end World

/-- One step of a program.  Dispatchers and registries are given by number. -/
inductive Step
  /-- An assignment through a site, with a list of arguments. -/
  | applyAt (d : Nat) (owner : Owner) (site : UInt64) (receiver : Value) (args : List Value)
  /-- An assignment through a site, with an index and a value. -/
  | assignAt (d : Nat) (owner : Owner) (site : UInt64) (a : Assignment)
  /-- A generic assignment. -/
  | assign (d : Nat) (a : Assignment)
  /-- A generic assignment with a list of arguments. -/
  | apply (d : Nat) (receiver : Value) (args : List Value)
  /-- A read through a dispatcher. -/
  | read (receiver index : Value)
  /-- A request to the dispatcher's coercion service. -/
  | narrow (d : Nat) (v : Value) (target : ElementType)
  /-- The installation of a handler. -/
  | redefine (registry : Nat) (type : ElementType) (handler : Handler)
  /-- The return to the built-in handler. -/
  | restore (registry : Nat) (type : ElementType)
  /-- A direct read. -/
  | get (array : ArrayHandle) (index : Int64)
  /-- A direct write. -/
  | put (array : ArrayHandle) (index : Int64) (element : Element)
  /-- A copy of an array's storage. -/
  | snapshot (array : ArrayHandle)
  /-- A new array, of a copy of a storage. -/
  | allocate (storage : Storage)
  /-- A look at a site. -/
  | visit (owner : Owner) (site : UInt64)

/-- What a step answers. -/
inductive Answer
  | value (v : Value)
  | element (e : Element)
  | version (version : UInt64)
  | storage (s : Storage)
  | handle (a : ArrayHandle)
  | site (site : Site)
  | done

namespace Step

/-- An assignment through one of the dispatcher's own sites. -/
def invoke (d : Nat) (site : UInt64) (receiver : Value) (args : List Value) : Step :=
  .applyAt d (.dispatcher d) site receiver args

/-- Installs a handler and answers the version that it got. -/
def runRedefine (w : World) (id : Nat) (t : ElementType) (h : Handler) :
    Except Fault Answer × World :=
  let store := w.store.redefine id t h
  (.ok (.version ((store.registry id).version t)), { w with store := store })

/-- Calls through a site and keeps its new state. -/
def runCall (w : World) (d : Nat) (owner : Owner) (id : UInt64) (call : Site → Reply × Site) :
    Except Fault Answer × World :=
  let visited := w.visit owner id
  let called := call visited.1
  let sites := (visited.2.sites owner).replace called.2
  (called.1.result.map .value, (visited.2.setSites owner sites).absorb d called.1)

/-- Runs one step. -/
def run (dispatchers : Nat → Dispatcher) (step : Step) (w : World) :
    Except Fault Answer × World :=
  match step with
  | applyAt d owner id receiver args =>
    runCall w d owner id fun site => site.apply (dispatchers d) w.store receiver args
  | assignAt d owner id a =>
    runCall w d owner id fun site => site.assign (dispatchers d) w.store a
  | assign d a =>
    let reply := (dispatchers d).assign w.store a
    (reply.result.map .value, w.absorb d reply)
  | apply d receiver args =>
    let reply := (dispatchers d).apply w.store receiver args
    (reply.result.map .value, w.absorb d reply)
  | read receiver index => ((Dispatcher.read w.store receiver index).map .value, w)
  | narrow d v target =>
    (((dispatchers d).service.narrow w.store.heap v target).map .element, w.count d ⟨0, 1⟩)
  | redefine id t h => runRedefine w id t h
  | restore id t => runRedefine w id t (.builtin t)
  | get a i => ((w.store.heap.get a i).map .element, w)
  | put a i e =>
    let outcome := w.store.update (w.store.heap.put a i e)
    (outcome.1.map fun _ => .done, { w with store := outcome.2 })
  | snapshot a => (.ok (.storage (w.store.heap.storage a)), w)
  | allocate storage =>
    let outcome := w.store.heap.allocate storage
    (.ok (.handle outcome.1), { w with store := { w.store with heap := outcome.2 } })
  | visit owner id =>
    let visited := w.visit owner id
    (.ok (.site visited.1), visited.2)

/-- Runs a program and lists what each step answers and the world that it leaves. -/
def runAll (dispatchers : Nat → Dispatcher) :
    List Step → World → List (Except Fault Answer × World)
  | [], _ => []
  | step :: steps, w =>
    let outcome := step.run dispatchers w
    outcome :: runAll dispatchers steps outcome.2

end Step

end InlineCache
