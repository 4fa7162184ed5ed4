/-
The redefinitions of a run.

Registries change only by redefinitions, so what a run does to them is told by the list of the
redefinitions that it performs: `Script.redefinitions` for the body of an override, up to
`Step.redefinitions` for a step and `Step.history` for a whole program.

* `Step.registry_run`: a step leaves the registries that its redefinitions lead to;
* `Redefinition.version_replay`: along a history the version of a type grows by the number of its
  redefinitions, as a word;
* `Redefinition.resolve_replay`: a type that is not redefined keeps its handler and its version.
-/
import InlineCache.Proofs.Runs
import InlineCache.Proofs.Shortcut

namespace InlineCache

/-- A redefinition that takes place: in which registry, of which type, and by what. -/
structure Redefinition where
  registry : Nat
  type : ElementType
  handler : Handler

namespace Redefinition

/-- How many redefinitions in a history are of one type in one registry. -/
def count (registry : Nat) (t : ElementType) (history : List Redefinition) : Nat :=
  history.countP fun r => r.registry = registry ∧ r.type = t

theorem count_cons (registry : Nat) (t : ElementType) (r : Redefinition)
    (history : List Redefinition) :
    count registry t (r :: history) =
      count registry t history + if r.registry = registry ∧ r.type = t then 1 else 0 := by
  simp [count, List.countP_cons]

theorem count_append (registry : Nat) (t : ElementType) (h₁ h₂ : List Redefinition) :
    count registry t (h₁ ++ h₂) = count registry t h₁ + count registry t h₂ :=
  List.countP_append

theorem count_le_length (registry : Nat) (t : ElementType) (history : List Redefinition) :
    count registry t history ≤ history.length :=
  List.countP_le_length

/-- The registries after a redefinition. -/
def perform (registries : Nat → Registry) (r : Redefinition) : Nat → Registry :=
  fun i => if i = r.registry then (registries r.registry).redefine r.type r.handler
    else registries i

theorem resolve_perform (registries : Nat → Registry) (r : Redefinition) (i : Nat)
    (t : ElementType) :
    (perform registries r i).resolve t =
      if r.registry = i ∧ r.type = t then ⟨r.handler, (registries i).version t + 1⟩
      else (registries i).resolve t := by
  rw [perform]
  by_cases hi : i = r.registry
  · subst hi
    rw [if_pos rfl]
    by_cases ht : t = r.type
    · subst ht
      rw [Registry.resolve_redefine, if_pos rfl, if_pos ⟨rfl, rfl⟩]
    · rw [Registry.resolve_redefine_of_ne _ _ ht, if_neg fun h => ht h.2.symm]
  · rw [if_neg hi, if_neg fun h => hi h.1.symm]

/-- The registries after a history, its first redefinition first. -/
def replay (history : List Redefinition) (registries : Nat → Registry) : Nat → Registry :=
  history.foldl perform registries

/-- Along a history the version of a type counts its redefinitions. -/
theorem version_replay (history : List Redefinition) (registries : Nat → Registry) (i : Nat)
    (t : ElementType) :
    (replay history registries i).version t =
      (registries i).version t + UInt64.ofNat (count i t history) := by
  induction history generalizing registries with
  | nil => simp [replay, count]
  | cons r rest ih =>
    have hcons : replay (r :: rest) registries = replay rest (perform registries r) := rfl
    -- both sides are words, so the sum may run past the last one
    rw [hcons, ih, count_cons, Registry.version, resolve_perform]
    by_cases hr : r.registry = i ∧ r.type = t
    · rw [if_pos hr, if_pos hr, UInt64.ofNat_add, UInt64.add_comm (UInt64.ofNat _),
        ← UInt64.add_assoc]
      rfl
    · rw [if_neg hr, if_neg hr, Nat.add_zero]
      rfl

/-- A type without redefinitions in a history keeps its handler and its version. -/
theorem resolve_replay {history : List Redefinition} {i : Nat} {t : ElementType}
    (h : count i t history = 0) (registries : Nat → Registry) :
    (replay history registries i).resolve t = (registries i).resolve t := by
  induction history generalizing registries with
  | nil => rfl
  | cons r rest ih =>
    have hcons : replay (r :: rest) registries = replay rest (perform registries r) := rfl
    rw [count_cons] at h
    have hr : ¬ (r.registry = i ∧ r.type = t) := by
      intro hr
      simp [hr] at h
    rw [hcons, ih (by omega), resolve_perform, if_neg hr]

end Redefinition

/-! ### What is redefined by a body, a handler, a dispatcher -/

/-- The redefinitions that running an override body performs. -/
def Script.redefinitions : Script Handler → Store → List Redefinition
  | .finish _, _ => []
  | .get a i next, s => (next (s.heap.get a i)).redefinitions s
  | .put a i e next, s =>
    let outcome := s.update (s.heap.put a i e)
    (next outcome.1).redefinitions outcome.2
  | .snapshot a next, s => (next (s.heap.storage a)).redefinitions s
  | .allocate storage next, s =>
    let outcome := s.heap.allocate storage
    (next outcome.1).redefinitions { s with heap := outcome.2 }
  | .assign t service a next, s =>
    let outcome := s.update (t.assign service s.heap a).1
    (next outcome.1).redefinitions outcome.2
  | .redefine id t h next, s =>
    let s := s.redefine id t h
    ⟨id, t, h⟩ :: (next ((s.registry id).version t)).redefinitions s

@[simp] theorem Store.registry_update (s : Store) (outcome : Except Fault Heap) :
    (s.update outcome).2.registry = s.registry := by
  cases outcome <;> rfl

theorem Script.registry_run (script : Script Handler) (s : Store) :
    (script.run s).2.registry = Redefinition.replay (script.redefinitions s) s.registry := by
  induction script generalizing s with
  | finish result => rfl
  | get a i next ih => exact ih _ s
  | put a i e next ih =>
    rw [run, redefinitions, ih, Store.registry_update]
  | snapshot a next ih => exact ih _ s
  | allocate storage next ih =>
    rw [run, redefinitions, ih]
  | assign t service a next ih =>
    rw [run, redefinitions, ih, Store.registry_update]
  | redefine id t h next ih =>
    -- the one action that touches a registry
    rw [run, redefinitions, ih]
    rfl

/-- The redefinitions that an assignment by a handler performs. -/
def Handler.redefinitions : Handler → Store → Assignment → List Redefinition
  | .builtin _, _, _ => []
  | .override _ body, s, a => (body a).redefinitions s

theorem Handler.registry_assign (handler : Handler) (service : CoercionService) (s : Store)
    (a : Assignment) :
    (handler.assign service s a).store.registry =
      Redefinition.replay (handler.redefinitions s a) s.registry := by
  cases handler with
  | builtin t => exact s.registry_update _
  | override name body => exact (body a).registry_run s

namespace Dispatcher

/-- The redefinitions that a generic assignment performs. -/
def redefinitions (d : Dispatcher) (s : Store) (a : Assignment) : List Redefinition :=
  match a.receiver.elementType? with
  | some t => ((s.registry d.registry).handler t).redefinitions s a
  | none => []

theorem registry_assign (d : Dispatcher) (s : Store) (a : Assignment) :
    (d.assign s a).store.registry = Redefinition.replay (d.redefinitions s a) s.registry := by
  rw [assign, redefinitions]
  cases a.receiver.elementType? with
  | none => rfl
  | some t => exact Handler.registry_assign _ _ s a

/-- The redefinitions that a generic assignment with a list of arguments performs. -/
def redefinitionsOf (d : Dispatcher) (s : Store) (receiver : Value) :
    List Value → List Redefinition
  | [index, value] => d.redefinitions s ⟨receiver, index, value⟩
  | _ => []

theorem registry_apply (d : Dispatcher) (s : Store) (receiver : Value) (args : List Value) :
    (d.apply s receiver args).store.registry =
      Redefinition.replay (d.redefinitionsOf s receiver args) s.registry := by
  match args with
  | [index, value] => exact d.registry_assign s ⟨receiver, index, value⟩
  | [] | [_] | _ :: _ :: _ :: _ => rfl

end Dispatcher

/-! ### What is redefined by a step, a program -/

namespace Site

/-- An entry that answers redefines nothing. -/
theorem registry_shortcut? {site : Site} {s : Store} {attempt : Entry → EntryOutcome}
    {reply : Reply} (h : site.shortcut? s attempt = some reply) :
    reply.store.registry = s.registry := by
  obtain ⟨e, -, he⟩ := Option.bind_eq_some_iff.mp h
  cases hattempt : attempt e with
  | fallback reason =>
    rw [hattempt] at he
    cases he
  | done | fault =>
    rw [hattempt] at he
    obtain rfl := Option.some.inj he
    rfl

/-- The redefinitions that a call with a list of arguments performs. -/
def applyRedefinitions (site : Site) (d : Dispatcher) (s : Store) (receiver : Value)
    (args : List Value) : List Redefinition :=
  if (site.fastApply? d s receiver args).isSome then [] else d.redefinitionsOf s receiver args

/-- The redefinitions that a call with an index and a value performs. -/
def assignRedefinitions (site : Site) (d : Dispatcher) (s : Store) (a : Assignment) :
    List Redefinition :=
  if (site.fastAssign? d s a).isSome then [] else d.redefinitions s a

theorem registry_apply (site : Site) (d : Dispatcher) (s : Store) (receiver : Value)
    (args : List Value) :
    (site.apply d s receiver args).1.store.registry =
      Redefinition.replay (site.applyRedefinitions d s receiver args) s.registry := by
  rw [reply_apply, applyRedefinitions]
  cases h : site.fastApply? d s receiver args with
  | none => exact d.registry_apply s receiver args
  | some reply => exact registry_shortcut? h

theorem registry_assign (site : Site) (d : Dispatcher) (s : Store) (a : Assignment) :
    (site.assign d s a).1.store.registry =
      Redefinition.replay (site.assignRedefinitions d s a) s.registry := by
  rw [reply_assign, assignRedefinitions]
  cases h : site.fastAssign? d s a with
  | none => exact d.registry_assign s a
  | some reply => exact registry_shortcut? h

end Site

namespace Step

variable (dispatchers : Nat → Dispatcher)

/-- The redefinitions that a step performs. -/
def redefinitions (step : Step) (w : World) : List Redefinition :=
  match step with
  | applyAt d owner id receiver args =>
    (w.site owner id).applyRedefinitions (dispatchers d) w.store receiver args
  | assignAt d owner id a => (w.site owner id).assignRedefinitions (dispatchers d) w.store a
  | assign d a => (dispatchers d).redefinitions w.store a
  | apply d receiver args => (dispatchers d).redefinitionsOf w.store receiver args
  | redefine id t h => [⟨id, t, h⟩]
  | restore id t => [⟨id, t, .builtin t⟩]
  | _ => []

/-- The redefinitions of a step say what becomes of the registries. -/
theorem registry_run (step : Step) (w : World) :
    (step.run dispatchers w).2.store.registry =
      Redefinition.replay (step.redefinitions dispatchers w) w.store.registry := by
  cases step with
  | applyAt d owner id receiver args =>
    exact (w.site owner id).registry_apply (dispatchers d) w.store receiver args
  | assignAt d owner id a => exact (w.site owner id).registry_assign (dispatchers d) w.store a
  | assign d a => exact (dispatchers d).registry_assign w.store a
  | apply d receiver args => exact (dispatchers d).registry_apply w.store receiver args
  | put array index element =>
    -- a write may fail, and then leaves the store as it is
    exact w.store.registry_update _
  | _ => rfl

/-- The redefinitions that a program performs, in order. -/
def history : List Step → World → List Redefinition
  | [], _ => []
  | step :: steps, w =>
    step.redefinitions dispatchers w ++ history steps (step.run dispatchers w).2

end Step

end InlineCache
