/-
What a call site can tell of the rest of a program.

To a call site a program is the calls through it and the redefinitions (`Step.concern?`), and of
these it sees no more than the classes of the operands, the length of the array, the version of
its type, and whether a handler is built in.  Which array it is, what lies in it, and what other
sites have cached makes no difference.

* `Entry.ending_apply_congr`, `Entry.ending_assign_congr`: what an entry does with a call depends
  on the outline of the operands (`Value.outline`) and on the guard only;
* `Step.redefinitions_of_quiet`: while no override redefines anything, the registries change by
  the steps that say so;
* `Step.SameFor.run`: steps of equal concern do the same to the site;
* `Step.noninterference`: so a site ends up the same when steps that do not concern it are left
  out of a program.
-/
import InlineCache.Proofs.Assignments
import InlineCache.Proofs.Lifecycle
import Mathlib.Data.List.Basic

namespace InlineCache

/-! ### Outlines -/

namespace Value

/-- A value without what a call site does not look at: the cell of an array, and what a template
is made of. -/
def outline : Value → Value
  | array a => array { a with cell := 0 }
  | template .. => template [] []
  | v => v

@[simp] theorem typeName_outline (v : Value) : v.outline.typeName = v.typeName := by
  cases v <;> rfl

@[simp] theorem elementType?_outline (v : Value) : v.outline.elementType? = v.elementType? := by
  cases v <;> rfl

@[simp] theorem isTextLike_outline (v : Value) : v.outline.isTextLike = v.isTextLike := by
  cases v <;> rfl

@[simp] theorem isNumeric_outline (v : Value) : v.outline.isNumeric = v.isNumeric := by
  cases v <;> rfl

@[simp] theorem unbox?_outline (t : ElementType) (v : Value) :
    t.unbox? v.outline = t.unbox? v := by
  cases v <;> cases t <;> rfl

@[simp] theorem classify_outline (t : ElementType) (v : Value) :
    t.classify v.outline = t.classify v := by
  simp [ElementType.classify]

/-- How it ends to store an element of the right type under an index. -/
def storeEnding (receiver : Value) (i : Int32) : Ending :=
  match receiver.handle? with
  | some a => if (resolveIndex i.toInt64 a.length).isOk then .hit else .fault
  | none => .handedBack .wrongReceiver

@[simp] theorem storeEnding_outline (receiver : Value) (i : Int32) :
    receiver.outline.storeEnding i = receiver.storeEnding i := by
  cases receiver <;> rfl

/-- The value is no array, or an array of the heap. -/
def HeldBy (v : Value) (h : Heap) : Prop := ∀ a, v.handle? = some a → h.Holds a

variable {v v' : Value} {values values' : List Value}

theorem elementType?_congr (h : v.outline = v'.outline) : v.elementType? = v'.elementType? := by
  rw [← elementType?_outline, h, elementType?_outline]

theorem map_typeName_congr (h : values.map outline = values'.map outline) :
    values.map typeName = values'.map typeName := by
  have hnames := congrArg (List.map typeName) h
  simpa [List.map_map, Function.comp_def] using hnames

end Value

/-- The operands in outline. -/
def Assignment.outline (a : Assignment) : Assignment :=
  ⟨a.receiver.outline, a.index.outline, a.value.outline⟩

/-! ### Entries see outlines -/

namespace Entry

variable {e : Entry} {r r' : Registry} {heap heap' : Heap}

theorem check_outline (e : Entry) (a : Assignment) : e.check a.outline = e.check a := by
  obtain ⟨receiver, index, value⟩ := a
  simp only [check, Assignment.outline, Value.elementType?_outline, Value.unbox?_outline]
  cases index <;> rfl

theorem check_congr {a a' : Assignment} (h : a.outline = a'.outline) : e.check a = e.check a' := by
  rw [← check_outline, h, check_outline]

theorem type_of_check {a : Assignment} {i : Int32} {element : Element}
    (h : e.check a = .fits i element) : a.receiver.elementType? = some element.type := by
  rw [check] at h
  split at h
  · rename_i hreceiver
    split at h
    · split at h
      · rename_i found hunbox
        obtain ⟨-, rfl⟩ := OperandCheck.fits.inj h
        rw [ElementType.type_of_unbox? hunbox, hreceiver]
      · cases h
    · cases h
  · cases h

/-- How a store ends can be told without the heap. -/
theorem ending_store {receiver : Value} {i : Int32} {element : Element}
    (hheld : receiver.HeldBy heap) (htype : receiver.elementType? = some element.type) :
    (store heap receiver i element).ending = receiver.storeEnding i := by
  obtain ⟨array, rfl, hown⟩ := Value.exists_array htype
  have hput := Heap.isOk_put (hheld array rfl) i.toInt64 hown.symm
  simp only [store, Value.storeEnding, Value.handle?, ← hput]
  cases heap.put array i.toInt64 element <;> rfl

theorem ending_store_congr {a a' : Assignment} {i : Int32} {element : Element}
    (houtline : a.outline = a'.outline) (hheld : a.receiver.HeldBy heap)
    (hheld' : a'.receiver.HeldBy heap') (hcheck : e.check a = .fits i element) :
    (store heap a.receiver i element).ending = (store heap' a'.receiver i element).ending := by
  have hcheck' : e.check a' = .fits i element := (check_congr houtline).symm.trans hcheck
  have hreceiver : a.receiver.outline = a'.receiver.outline :=
    congrArg Assignment.receiver houtline
  rw [ending_store hheld (type_of_check hcheck), ending_store hheld' (type_of_check hcheck'),
    ← Value.storeEnding_outline, hreceiver, Value.storeEnding_outline]

/-- What an entry does with an index and a value depends on outlines and on the guard. -/
theorem ending_assign_congr {a a' : Assignment} (hvalid : e.valid r = e.valid r')
    (houtline : a.outline = a'.outline) (hheld : a.receiver.HeldBy heap)
    (hheld' : a'.receiver.HeldBy heap') :
    (e.assign r heap a).ending = (e.assign r' heap' a').ending := by
  have hcheck := check_congr (e := e) houtline
  have hpayload : e.type.classify a.value = e.type.classify a'.value := by
    rw [← Value.classify_outline, ← Value.classify_outline _ a'.value]
    exact congrArg (fun a => e.type.classify a.value) houtline
  rw [assign, assign, hvalid]
  by_cases hv : e.valid r' = true
  · rw [if_pos hv, if_pos hv, ← hcheck]
    cases hfits : e.check a with
    | fits i element => exact ending_store_congr houtline hheld hheld' hfits
    | mismatchedPayload =>
      dsimp only
      rw [hpayload]
      cases e.type.classify a'.value <;> rfl
    | wrongReceiver | mismatchedIndex => rfl
  · rw [if_neg hv, if_neg hv]

theorem apply_of_length {receiver : Value} {args : List Value} (h : args.length ≠ 2) :
    e.apply r heap receiver args = .fallback .arity := by
  match args with
  | [_, _] => exact absurd rfl h
  | [] | [_] | _ :: _ :: _ :: _ => rfl

/-- What an entry does with a list of arguments depends on outlines and on the guard. -/
theorem ending_apply_congr {receiver receiver' : Value} {args args' : List Value}
    (hvalid : e.valid r = e.valid r') (hreceiver : receiver.outline = receiver'.outline)
    (hargs : args.map Value.outline = args'.map Value.outline) (hheld : receiver.HeldBy heap)
    (hheld' : receiver'.HeldBy heap') :
    (e.apply r heap receiver args).ending = (e.apply r' heap' receiver' args').ending := by
  have hlengths : args.length = args'.length := by simpa using congrArg List.length hargs
  by_cases hlength : args'.length = 2
  · obtain ⟨index, value, rfl⟩ := List.length_eq_two.mp (hlengths.trans hlength)
    obtain ⟨index', value', rfl⟩ := List.length_eq_two.mp hlength
    have houtline : (⟨receiver, index, value⟩ : Assignment).outline =
        (⟨receiver', index', value'⟩ : Assignment).outline := by
      simp only [List.map_cons, List.map_nil, List.cons.injEq, and_true] at hargs
      simp only [Assignment.outline, hreceiver, hargs]
    have hcheck := check_congr (e := e) houtline
    rw [apply, apply, hvalid]
    by_cases hv : e.valid r' = true
    · rw [if_pos hv, if_pos hv, ← hcheck]
      cases hfits : e.check ⟨receiver, index, value⟩ with
      | fits i element => exact ending_store_congr houtline hheld hheld' hfits
      | wrongReceiver | mismatchedIndex | mismatchedPayload => rfl
    · rw [if_neg hv, if_neg hv]
  · rw [apply_of_length (by rw [hlengths]; exact hlength), apply_of_length hlength]

end Entry

/-! ### Sites see kinds of registries -/

/-- The registries have the same versions, and the same built-in handlers for the same types. -/
structure Registry.SameKind (r r' : Registry) : Prop where
  version : ∀ t, r.version t = r'.version t
  builtin : ∀ t, (r.handler t).builtinType? = (r'.handler t).builtinType?

theorem Registry.SameKind.symm {r r' : Registry} (h : r.SameKind r') : r'.SameKind r :=
  ⟨fun t => (h.version t).symm, fun t => (h.builtin t).symm⟩

theorem Registry.SameKind.perform {registries registries' : Nat → Registry} {i : Nat}
    (h : (registries i).SameKind (registries' i)) (registry : Nat) (t : ElementType)
    {handler handler' : Handler} (hbuiltin : handler.builtinType? = handler'.builtinType?) :
    (Redefinition.perform registries ⟨registry, t, handler⟩ i).SameKind
      (Redefinition.perform registries' ⟨registry, t, handler'⟩ i) := by
  refine ⟨fun u => ?_, fun u => ?_⟩
  · rw [Registry.version, Registry.version, Redefinition.resolve_perform,
      Redefinition.resolve_perform]
    by_cases hown : registry = i ∧ t = u
    · rw [if_pos hown, if_pos hown, h.version]
    · rw [if_neg hown, if_neg hown]
      exact h.version u
  · rw [Registry.handler, Registry.handler, Redefinition.resolve_perform,
      Redefinition.resolve_perform]
    by_cases hown : registry = i ∧ t = u
    · rw [if_pos hown, if_pos hown]
      exact hbuiltin
    · rw [if_neg hown, if_neg hown]
      exact h.builtin u

section

variable {d : Dispatcher} {s s' : Store} {receiver receiver' : Value} {args args' : List Value}

theorem Dispatcher.link_congr
    (hkind : (s.registry d.registry).SameKind (s'.registry d.registry))
    (hreceiver : receiver.outline = receiver'.outline)
    (hargs : args.map Value.outline = args'.map Value.outline) :
    d.link s receiver args = d.link s' receiver' args' := by
  have htype := Value.elementType?_congr hreceiver
  have hnames := Value.map_typeName_congr hargs
  rw [link, link, htype]
  cases receiver'.elementType? with
  | none => rfl
  | some t => simp only [Handler.link, hkind.version, hkind.builtin, htype, hnames]

namespace Site

theorem linked_congr (site : Site) (hlink : d.link s receiver args = d.link s' receiver' args') :
    site.linked d s receiver args = site.linked d s' receiver' args' := by
  rw [linked, linked, hlink]

theorem ending_congr (site : Site) {attempt attempt' : Entry → EntryOutcome}
    (hending : ∀ e, (attempt e).ending = (attempt' e).ending) :
    site.ending attempt = site.ending attempt' := by
  rw [ending, ending]
  cases site.state with
  | specialized e => exact hending e
  | _ => rfl

theorem ended_congr (site : Site) (hlink : d.link s receiver args = d.link s' receiver' args')
    (ending : Ending) :
    site.ended d s receiver args ending = site.ended d s' receiver' args' ending := by
  cases ending with
  | handedBack reason =>
    -- only a relinked site keeps something of the call
    cases reason with
    | staleGuard => rw [ended, ended, fellBack, fellBack, relinked, relinked, hlink]
    | _ => rfl
  | _ => rfl

/-- A site settles calls alike that link alike and that its entry ends alike. -/
theorem settle_congr (site : Site) {attempt attempt' : Entry → EntryOutcome}
    {generic generic' : Reply} (hlink : d.link s receiver args = d.link s' receiver' args')
    (hending : ∀ e, (attempt e).ending = (attempt' e).ending) :
    ((site.linked d s receiver args).settle d s receiver args attempt generic).2 =
      ((site.linked d s' receiver' args').settle d s' receiver' args' attempt' generic').2 := by
  rw [site_settle, site_settle, linked_congr site hlink, ending_congr _ hending,
    ended_congr _ hlink]

theorem apply_congr (site : Site)
    (hkind : (s.registry d.registry).SameKind (s'.registry d.registry))
    (hreceiver : receiver.outline = receiver'.outline)
    (hargs : args.map Value.outline = args'.map Value.outline)
    (hheld : receiver.HeldBy s.heap) (hheld' : receiver'.HeldBy s'.heap) :
    (site.apply d s receiver args).2 = (site.apply d s' receiver' args').2 := by
  refine site.settle_congr (Dispatcher.link_congr hkind hreceiver hargs) fun e => ?_
  refine Entry.ending_apply_congr ?_ hreceiver hargs hheld hheld'
  rw [Entry.valid, Entry.valid, hkind.version]

theorem assign_congr (site : Site) {a a' : Assignment}
    (hkind : (s.registry d.registry).SameKind (s'.registry d.registry))
    (houtline : a.outline = a'.outline) (hheld : a.receiver.HeldBy s.heap)
    (hheld' : a'.receiver.HeldBy s'.heap) :
    (site.assign d s a).2 = (site.assign d s' a').2 := by
  have hargs : [a.index, a.value].map Value.outline = [a'.index, a'.value].map Value.outline := by
    show [a.outline.index, a.outline.value] = [a'.outline.index, a'.outline.value]
    rw [houtline]
  refine site.settle_congr
    (Dispatcher.link_congr hkind (congrArg Assignment.receiver houtline) hargs) fun e => ?_
  refine Entry.ending_assign_congr ?_ houtline hheld hheld'
  rw [Entry.valid, Entry.valid, hkind.version]

end Site

end

/-! ### Quiet handlers -/

/-- The handler redefines nothing, wherever and on whatever it is run. -/
def Handler.Quiet (handler : Handler) : Prop := ∀ s a, handler.redefinitions s a = []

theorem Handler.quiet_builtin (t : ElementType) : (Handler.builtin t).Quiet := fun _ _ => rfl

/-- Every handler in force is quiet. -/
def Store.Quiet (s : Store) : Prop := ∀ i t, ((s.registry i).handler t).Quiet

theorem World.quiet_fresh (heap : Heap) : (World.fresh heap).store.Quiet := by
  intro i t
  rw [World.handler_fresh]
  exact Handler.quiet_builtin t

namespace Dispatcher

variable {s : Store}

theorem redefinitions_of_quiet (hs : s.Quiet) (d : Dispatcher) (a : Assignment) :
    d.redefinitions s a = [] := by
  rw [redefinitions]
  cases a.receiver.elementType? with
  | none => rfl
  | some t => exact hs d.registry t s a

theorem redefinitionsOf_of_quiet (hs : s.Quiet) (d : Dispatcher) (receiver : Value)
    (args : List Value) : d.redefinitionsOf s receiver args = [] := by
  match args with
  | [index, value] => exact redefinitions_of_quiet hs d ⟨receiver, index, value⟩
  | [] | [_] | _ :: _ :: _ :: _ => rfl

end Dispatcher

namespace Step

variable {dispatchers : Nat → Dispatcher} {owner : Owner} {id : UInt64} {w v : World}
  {step step' : Step}

/-- The redefinition that a step asks for. -/
def redefinition? : Step → Option Redefinition
  | redefine registry t h => some ⟨registry, t, h⟩
  | restore registry t => some ⟨registry, t, .builtin t⟩
  | _ => none

/-- The step installs quiet handlers only. -/
def Quiet (step : Step) : Prop := ∀ r, step.redefinition? = some r → r.handler.Quiet

/-- Under quiet handlers, only the steps that ask for a redefinition perform one. -/
theorem redefinitions_of_quiet (hw : w.store.Quiet) (step : Step) :
    step.redefinitions dispatchers w = step.redefinition?.toList := by
  cases step with
  | applyAt d owner id receiver args =>
    rw [redefinitions, Site.applyRedefinitions, Dispatcher.redefinitionsOf_of_quiet hw, ite_self]
    rfl
  | assignAt d owner id a =>
    rw [redefinitions, Site.assignRedefinitions, Dispatcher.redefinitions_of_quiet hw, ite_self]
    rfl
  | assign d a => exact Dispatcher.redefinitions_of_quiet hw _ a
  | apply d receiver args => exact Dispatcher.redefinitionsOf_of_quiet hw _ receiver args
  | _ => rfl

theorem registry_run_of_quiet (hw : w.store.Quiet) (step : Step) :
    (step.run dispatchers w).2.store.registry =
      Redefinition.replay step.redefinition?.toList w.store.registry := by
  rw [registry_run, redefinitions_of_quiet hw]

theorem quiet_run (hw : w.store.Quiet) (hstep : step.Quiet) :
    (step.run dispatchers w).2.store.Quiet := by
  intro i t
  rw [registry_run_of_quiet hw]
  cases hr : step.redefinition? with
  | none => exact hw i t
  | some r =>
    show (Redefinition.perform w.store.registry r i).handler t |>.Quiet
    rw [Registry.handler, Redefinition.resolve_perform]
    by_cases hown : r.registry = i ∧ r.type = t
    · rw [if_pos hown]
      exact hstep r hr
    · rw [if_neg hown]
      exact hw i t

end Step

/-! ### Concerns -/

/-- What a step is to a call site. -/
inductive Concern
  /-- A call through the site, with a list of arguments. -/
  | applied (d : Nat) (receiver : Value) (args : List Value)
  /-- A call through the site, with an index and a value. -/
  | assigned (d : Nat) (a : Assignment)
  /-- A redefinition, by a built-in handler or by an override. -/
  | redefined (registry : Nat) (type : ElementType) (builtin? : Option ElementType)

namespace Step

variable {dispatchers : Nat → Dispatcher} {owner : Owner} {id : UInt64} {w v : World}
  {step step' : Step}

/-- What a step is to a call site; nothing, for everything but calls through the site and
redefinitions. -/
def concern? (owner : Owner) (id : UInt64) : Step → Option Concern
  | applyAt d owner' id' receiver args =>
    if owner' = owner ∧ id' = id then
      some (.applied d receiver.outline (args.map Value.outline))
    else none
  | assignAt d owner' id' a =>
    if owner' = owner ∧ id' = id then some (.assigned d a.outline) else none
  | redefine registry t h => some (.redefined registry t h.builtinType?)
  | restore registry t => some (.redefined registry t (some t))
  | _ => none

theorem concern?_eq_none (h : step.concern? owner id = none) :
    step.redefinition? = none ∧ ∀ d, step.call? ≠ some (d, owner, id) := by
  cases step with
  | applyAt d owner' id' receiver args =>
    refine ⟨rfl, fun d' hcall => ?_⟩
    cases hcall
    rw [concern?, if_pos ⟨rfl, rfl⟩] at h
    cases h
  | assignAt d owner' id' a =>
    refine ⟨rfl, fun d' hcall => ?_⟩
    cases hcall
    rw [concern?, if_pos ⟨rfl, rfl⟩] at h
    cases h
  | redefine | restore => cases h
  | _ => exact ⟨rfl, fun d hcall => by cases hcall⟩

/-- The steps of each concern. -/
theorem concern?_eq_some {concern : Concern} :
    step.concern? owner id = some concern →
      match concern with
      | .applied d receiver args =>
        ∃ receiver' args', step = applyAt d owner id receiver' args' ∧
          receiver'.outline = receiver ∧ args'.map Value.outline = args
      | .assigned d a => ∃ a', step = assignAt d owner id a' ∧ a'.outline = a
      | .redefined registry t builtin? =>
        step.call? = none ∧
          ∃ handler, step.redefinition? = some ⟨registry, t, handler⟩ ∧
            handler.builtinType? = builtin? := by
  intro h
  cases step with
  | applyAt d owner' id' receiver args =>
    by_cases hown : owner' = owner ∧ id' = id
    · rw [concern?, if_pos hown] at h
      obtain ⟨rfl, rfl⟩ := hown
      obtain rfl := Option.some.inj h
      exact ⟨receiver, args, rfl, rfl, rfl⟩
    · rw [concern?, if_neg hown] at h
      cases h
  | assignAt d owner' id' a =>
    by_cases hown : owner' = owner ∧ id' = id
    · rw [concern?, if_pos hown] at h
      obtain ⟨rfl, rfl⟩ := hown
      obtain rfl := Option.some.inj h
      exact ⟨a, rfl, rfl⟩
    · rw [concern?, if_neg hown] at h
      cases h
  | redefine registry t handler =>
    obtain rfl := Option.some.inj h
    exact ⟨rfl, handler, rfl, rfl⟩
  | restore registry t =>
    obtain rfl := Option.some.inj h
    exact ⟨rfl, .builtin t, rfl, rfl⟩
  | _ => cases h

/-- A call through the site has an array of the heap as its receiver, if an array at all. -/
def CallHolds (owner : Owner) (id : UInt64) (step : Step) (w : World) : Prop :=
  ∀ d receiver args, step.call? = some (d, owner, id) →
    step.request? = some (d, receiver, args) → receiver.HeldBy w.store.heap

theorem CallHolds.of_ne (h : step.call?.map Prod.snd ≠ some (owner, id)) :
    step.CallHolds owner id w := by
  intro d receiver args hcall
  rw [hcall] at h
  exact absurd rfl h

theorem CallHolds.of_holds {d : Nat} {array : ArrayHandle} {args : List Value}
    (hrequest : step.request? = some (d, .array array, args)) (h : w.store.heap.Holds array) :
    step.CallHolds owner id w := by
  intro d' receiver args' _ hrequest' a ha
  obtain ⟨-, rfl, -⟩ : d = d' ∧ .array array = receiver ∧ args = args' := by
    simpa [hrequest] using hrequest'
  obtain rfl : array = a := Option.some.inj ha
  exact h

/-! ### Two runs -/

/-- A site is the same in two worlds, and nothing else that it could tell is different. -/
structure SameFor (owner : Owner) (id : UInt64) (w v : World) : Prop where
  site : w.site owner id = v.site owner id
  kinds : ∀ i, (w.store.registry i).SameKind (v.store.registry i)
  quiet : w.store.Quiet
  quiet' : v.store.Quiet

namespace SameFor

theorem symm (h : SameFor owner id w v) : SameFor owner id v w :=
  ⟨h.site.symm, fun i => (h.kinds i).symm, h.quiet', h.quiet⟩

/-- A step that is nothing to the site may be left out. -/
theorem drop (h : SameFor owner id w v) (hnone : step.concern? owner id = none) :
    SameFor owner id (step.run dispatchers w).2 v := by
  obtain ⟨hredefinition, hcall⟩ := concern?_eq_none hnone
  have hregistry : (step.run dispatchers w).2.store.registry = w.store.registry := by
    rw [registry_run_of_quiet h.quiet, hredefinition]
    rfl
  refine ⟨?_, ?_, ?_, h.quiet'⟩
  · rcases site_run_cases dispatchers owner id step w with
      ⟨-, -, hsite⟩ | ⟨d, receiver, args, attempt, generic, hown, -⟩
    · exact hsite.trans h.site
    · exact absurd hown (hcall d)
  · rw [hregistry]
    exact h.kinds
  · intro i t
    rw [hregistry]
    exact h.quiet i t

/-- Steps that are the same to the site leave it the same. -/
theorem run (h : SameFor owner id w v) (hconcern : step.concern? owner id = step'.concern? owner id)
    (hquiet : step.Quiet) (hquiet' : step'.Quiet) (hholds : step.CallHolds owner id w)
    (hholds' : step'.CallHolds owner id v) :
    SameFor owner id (step.run dispatchers w).2 (step'.run dispatchers v).2 := by
  cases hstep : step.concern? owner id with
  | none => exact ((h.drop hstep).symm.drop (hconcern.symm.trans hstep)).symm
  | some concern =>
    have hstep' := hconcern.symm.trans hstep
    cases concern with
    | applied d receiver args =>
      obtain ⟨receiver, args, rfl, rfl, rfl⟩ := concern?_eq_some hstep
      obtain ⟨receiver', args', rfl, hreceiver, hargs⟩ := concern?_eq_some hstep'
      refine ⟨?_, fun i => ?_, quiet_run h.quiet hquiet, quiet_run h.quiet' hquiet'⟩
      · rw [site_run_applyAt, site_run_applyAt, if_pos ⟨rfl, rfl⟩, if_pos ⟨rfl, rfl⟩, h.site]
        exact Site.apply_congr _ (h.kinds _) hreceiver.symm hargs.symm (hholds d _ _ rfl rfl)
          (hholds' d _ _ rfl rfl)
      · rw [registry_run_of_quiet h.quiet, registry_run_of_quiet h.quiet']
        exact h.kinds i
    | assigned d a =>
      obtain ⟨a, rfl, rfl⟩ := concern?_eq_some hstep
      obtain ⟨a', rfl, houtline⟩ := concern?_eq_some hstep'
      refine ⟨?_, fun i => ?_, quiet_run h.quiet hquiet, quiet_run h.quiet' hquiet'⟩
      · rw [site_run_assignAt, site_run_assignAt, if_pos ⟨rfl, rfl⟩, if_pos ⟨rfl, rfl⟩, h.site]
        exact Site.assign_congr _ (h.kinds _) houtline.symm (hholds d _ _ rfl rfl)
          (hholds' d _ _ rfl rfl)
      · rw [registry_run_of_quiet h.quiet, registry_run_of_quiet h.quiet']
        exact h.kinds i
    | redefined registry t builtin? =>
      obtain ⟨hcall, handler, hredefinition, hbuiltin⟩ := concern?_eq_some hstep
      obtain ⟨hcall', handler', hredefinition', hbuiltin'⟩ := concern?_eq_some hstep'
      refine ⟨?_, fun i => ?_, quiet_run h.quiet hquiet, quiet_run h.quiet' hquiet'⟩
      · rw [site_run_of_call?_eq_none dispatchers w hcall,
          site_run_of_call?_eq_none dispatchers v hcall']
        exact h.site
      · rw [registry_run_of_quiet h.quiet, registry_run_of_quiet h.quiet', hredefinition,
          hredefinition']
        exact (h.kinds i).perform registry t (hbuiltin.trans hbuiltin'.symm)

end SameFor

/-! ### Whole programs -/

/-- The second program is the first without some of the steps that are nothing to the site.  The
steps that are left are the same to the site; they may know arrays by other cells, since steps
that are left out may have made arrays. -/
inductive Thinned (owner : Owner) (id : UInt64) : List Step → List Step → Prop
  | nil : Thinned owner id [] []
  | keep {step step' : Step} {steps steps' : List Step} :
      step.concern? owner id = step'.concern? owner id → Thinned owner id steps steps' →
      Thinned owner id (step :: steps) (step' :: steps')
  | drop {step : Step} {steps steps' : List Step} :
      step.concern? owner id = none → Thinned owner id steps steps' →
      Thinned owner id (step :: steps) steps'

theorem SameFor.after {program thinned : List Step} (hthinned : Thinned owner id program thinned)
    (h : SameFor owner id w v) (hquiet : ∀ step ∈ program, step.Quiet)
    (hquiet' : ∀ step ∈ thinned, step.Quiet)
    (hholds : Always dispatchers (CallHolds owner id) program w)
    (hholds' : Always dispatchers (CallHolds owner id) thinned v) :
    SameFor owner id (w.after dispatchers program) (v.after dispatchers thinned) := by
  induction hthinned generalizing w v with
  | nil => exact h
  | keep hconcern _ ih =>
    rw [List.forall_mem_cons] at hquiet hquiet'
    exact ih (h.run hconcern hquiet.1 hquiet'.1 hholds.1 hholds'.1) hquiet.2 hquiet'.2 hholds.2
      hholds'.2
  | drop hnone _ ih =>
    rw [List.forall_mem_cons] at hquiet
    exact ih (h.drop hnone) hquiet.2 hquiet' hholds.2 hholds'

theorem SameFor.fresh (owner : Owner) (id : UInt64) (heap : Heap) :
    SameFor owner id (.fresh heap) (.fresh heap) :=
  ⟨rfl, fun _ => ⟨fun _ => rfl, fun _ => rfl⟩, World.quiet_fresh heap, World.quiet_fresh heap⟩

/-- **Sites do not interfere.**  Leave out of a program any of the steps that are neither calls
through a site nor redefinitions: calls through other sites, generic assignments, reads, direct
writes, snapshots, new arrays.  If no override of either program redefines anything, and the calls
through the site have arrays at hand in both, then the site ends up the same in both: with the same
state, entry and guard included, and the same counters. -/
theorem noninterference (dispatchers : Nat → Dispatcher) (heap : Heap) (owner : Owner)
    (id : UInt64) {program thinned : List Step} (hthinned : Thinned owner id program thinned)
    (hquiet : ∀ step ∈ program, step.Quiet) (hquiet' : ∀ step ∈ thinned, step.Quiet)
    (hholds : Always dispatchers (CallHolds owner id) program (.fresh heap))
    (hholds' : Always dispatchers (CallHolds owner id) thinned (.fresh heap)) :
    ((World.fresh heap).after dispatchers program).site owner id =
      ((World.fresh heap).after dispatchers thinned).site owner id :=
  (SameFor.after hthinned (.fresh owner id heap) hquiet hquiet' hholds hholds').site

/-! A site whose entry is replaced after a redefinition and the return from it.  In between, an
override is run through another site and writes to an array, and arrays are made, of which the
site sees only the last. -/

def scribble : Handler :=
  .override "scribble" fun _ => .get ⟨0, .short, 3⟩ 0 fun _ =>
    .put ⟨0, .short, 3⟩ 2 (.short 1) fun _ => .finish (.ok .null)

/-- A call through the site, a redefinition and its return, and two more calls, on an array in the
given cell; in between, whatever else there is. -/
def busyWith (cell : Nat) (made others : List Step) : List Step :=
  [applyAt 0 .standalone 7 shorts [.integer 0, .short 5]] ++ made ++
    [allocate (Storage.zeroed .short 2), redefine 0 .short scribble] ++ others ++
    [restore 0 .short,
      assignAt 0 .standalone 7 ⟨.array ⟨cell, .short, 2⟩, .integer 1, .short 6⟩,
      applyAt 0 .standalone 7 (.array ⟨cell, .short, 2⟩) [.integer 5, .short 6]]

def busy : List Step :=
  busyWith 2 [allocate (Storage.zeroed .short 3), put ⟨0, .short, 3⟩ 1 (.short 9)]
    [invoke 0 8 shorts [.integer 1, .short 4]]

def idle : List Step := busyWith 1 [] []

theorem noninterference_busy :
    let crowded := (World.fresh threeShorts).after oneRegistry busy
    let alone := (World.fresh threeShorts).after oneRegistry idle
    Thinned .standalone 7 busy idle ∧
    (∀ step ∈ busy, step.Quiet) ∧ (∀ step ∈ idle, step.Quiet) ∧
    Always oneRegistry (CallHolds .standalone 7) busy (.fresh threeShorts) ∧
    Always oneRegistry (CallHolds .standalone 7) idle (.fresh threeShorts) ∧
    crowded.site .standalone 7 = alone.site .standalone 7 ∧
    (alone.site .standalone 7).state = .specialized ⟨.short, 2⟩ ∧
    crowded.store.heap.slot? 0 2 = some (.short 1) ∧
    alone.store.heap.slot? 0 2 = some (.short 0) := by
  intro crowded alone
  have hthinned : Thinned .standalone 7 busy idle :=
    .keep rfl (.drop rfl (.drop rfl (.keep rfl (.keep rfl (.drop rfl (.keep rfl (.keep rfl
      (.keep rfl .nil))))))))
  have hscribble : scribble.Quiet := fun _ _ => rfl
  have hquiet : ∀ step ∈ busy, step.Quiet := by
    simp [busy, busyWith, invoke, Quiet, redefinition?, hscribble, Handler.quiet_builtin]
  have hquiet' : ∀ step ∈ idle, step.Quiet := by
    simp [idle, busyWith, Quiet, redefinition?, hscribble, Handler.quiet_builtin]
  have hholds : Always oneRegistry (CallHolds .standalone 7) busy (.fresh threeShorts) :=
    ⟨.of_holds rfl ⟨by decide +kernel, by decide⟩, .of_ne (by decide), .of_ne (by decide),
      .of_ne (by decide), .of_ne (by decide), .of_ne (by decide), .of_ne (by decide),
      .of_holds rfl ⟨by decide +kernel, by decide⟩, .of_holds rfl ⟨by decide +kernel, by decide⟩,
      trivial⟩
  have hholds' : Always oneRegistry (CallHolds .standalone 7) idle (.fresh threeShorts) :=
    ⟨.of_holds rfl ⟨by decide +kernel, by decide⟩, .of_ne (by decide), .of_ne (by decide),
      .of_ne (by decide), .of_holds rfl ⟨by decide +kernel, by decide⟩,
      .of_holds rfl ⟨by decide +kernel, by decide⟩, trivial⟩
  refine ⟨hthinned, hquiet, hquiet', hholds, hholds',
    noninterference oneRegistry threeShorts .standalone 7 hthinned hquiet hquiet' hholds hholds',
    ?_, ?_, ?_⟩
  · decide +kernel
  · decide +kernel
  · decide +kernel

end Step

end InlineCache
