/-
Calls to the coercion service.

What an assignment asks of the coercion service of its dispatcher is a matter of the call alone.
It does not matter which way the call takes, nor what a call site has cached before: an entry asks
nothing of a service, and it answers only calls for which the built-in assignment asks nothing
either, so no coercion is made twice and none is left out.

* `ElementType.calls_coerce`: the calls that a payload takes, told from its class;
* `Dispatcher.calls_apply`: the calls of a generic assignment;
* `Site.calls_apply`, `Site.calls_assign`: the same calls through a site, in either form;
* `Step.coercion_accounting`: every assignment of a run makes these calls, and nothing but
  assignments and direct requests makes any.
-/
import InlineCache.Proofs.Entries

namespace InlineCache

/-! ### Payloads -/

namespace ElementType

variable {t : ElementType} {service : CoercionService} {h : Heap} {v : Value}

/-- The calls to a coercion service that it takes to make an element of a payload. -/
def consultations (t : ElementType) (service : CoercionService) (h : Heap) (v : Value) :
    CoercionCalls :=
  match v with
  | .null | .boolean _ | .array _ => ⟨0, 0⟩
  | .character _ | .string _ | .template .. =>
    match service.character h v with
    | .ok _ => ⟨1, 1⟩
    | .error _ => ⟨1, 0⟩
  | .byte _ | .short _ | .integer _ | .long _ | .bigInteger _ | .float _ | .double _ =>
    if v.typeName = t.boxedName then ⟨0, 0⟩ else ⟨0, 1⟩

/-- A text goes through its character, and then this is narrowed. -/
theorem calls_coerce_of_isTextLike (hv : v.isTextLike = true) :
    (t.coerce service h v).2 =
      match service.character h v with
      | .ok _ => ⟨1, 1⟩
      | .error _ => ⟨1, 0⟩ := by
  rw [coerce_of_isTextLike hv]
  cases service.character h v <;> rfl

/-- A number is narrowed unless it has the class of the elements. -/
theorem calls_coerce_of_isNumeric (hv : v.isNumeric = true) :
    (t.coerce service h v).2 = if v.typeName = t.boxedName then ⟨0, 0⟩ else ⟨0, 1⟩ := by
  by_cases hname : v.typeName = t.boxedName
  · obtain ⟨e, he⟩ := Option.isSome_iff_exists.mp ((isSome_unbox?_iff t v).mpr hname)
    rw [if_pos hname, coerce, classify_eq_exact_iff.mpr he]
    rfl
  · have hunbox : t.unbox? v = none :=
      Option.not_isSome_iff_eq_none.mp (mt (isSome_unbox?_iff t v).mp hname)
    rw [if_neg hname, coerce, classify_of_isNumeric hv hunbox]

theorem calls_coerce (t : ElementType) (service : CoercionService) (h : Heap) (v : Value) :
    (t.coerce service h v).2 = t.consultations service h v := by
  cases v with
  | null | boolean | array => cases t <;> rfl
  | character | string | template => exact calls_coerce_of_isTextLike rfl
  | byte | short | integer | long | bigInteger | float | double =>
    exact calls_coerce_of_isNumeric rfl

/-- The built-in assignment coerces the payload once receiver and index have passed, and before it
looks for a slot. -/
theorem calls_assign (t : ElementType) (service : CoercionService) (h : Heap) {a : Assignment}
    {array : ArrayHandle} (hreceiver : a.receiver = .array array) :
    (t.assign service h a).2 =
      if t = array.type ∧ a.index.isIntegral = true then t.consultations service h a.value
      else ⟨0, 0⟩ := by
  rw [assign, hreceiver, container]
  by_cases htype : array.type = t
  · rw [if_pos htype, Value.logicalIndex_eq, ← Value.isSome_whole?]
    cases a.index.whole? with
    | none => rw [if_neg (by simp)]; rfl
    | some n =>
      rw [if_pos ⟨htype.symm, rfl⟩]
      exact calls_coerce t service h a.value
  · rw [if_neg htype, if_neg fun h => htype h.1.symm]
    rfl

end ElementType

/-! ### Generic assignments -/

/-- The calls that an assignment makes to the service of its dispatcher.  Only a built-in handler of
the receiver's own type asks for any, of two arguments the first of which can be an index.  Whether
there is a slot for the index does not matter. -/
def Dispatcher.consultations (d : Dispatcher) (s : Store) (receiver : Value) (args : List Value) :
    CoercionCalls :=
  match receiver, args with
  | .array array, [index, value] =>
    if ((s.registry d.registry).handler array.type).builtinType? = some array.type ∧
        index.isIntegral = true then
      array.type.consultations d.service s.heap value
    else ⟨0, 0⟩
  | _, _ => ⟨0, 0⟩

theorem Handler.calls_assign (handler : Handler) (service : CoercionService) (s : Store)
    {a : Assignment} {array : ArrayHandle} (hreceiver : a.receiver = .array array) :
    (handler.assign service s a).calls =
      if handler.builtinType? = some array.type ∧ a.index.isIntegral = true then
        array.type.consultations service s.heap a.value
      else ⟨0, 0⟩ := by
  cases handler with
  | override name body =>
    rw [if_neg fun h => by cases h.1]
    rfl
  | builtin t =>
    show (t.assign service s.heap a).2 = _
    rw [t.calls_assign service s.heap hreceiver]
    by_cases htype : t = array.type
    · subst htype
      simp only [builtinType?, true_and]
    · rw [if_neg fun h => htype h.1, if_neg fun h => htype (Option.some.inj h.1)]

namespace Dispatcher

variable (d : Dispatcher) (s : Store)

theorem calls_assign (a : Assignment) :
    (d.assign s a).calls = d.consultations s a.receiver [a.index, a.value] := by
  obtain ⟨receiver, index, value⟩ := a
  cases receiver with
  | array array =>
    rw [d.assign_of_elementType? s rfl]
    exact Handler.calls_assign _ d.service s rfl
  | _ => rfl

theorem calls_apply (receiver : Value) (args : List Value) :
    (d.apply s receiver args).calls = d.consultations s receiver args := by
  match args with
  | [index, value] => exact d.calls_assign s ⟨receiver, index, value⟩
  | [] | [_] | _ :: _ :: _ :: _ => cases receiver <;> rfl

end Dispatcher

/-! ### Calls through a site -/

/-- An entry asks nothing of a service. -/
theorem EntryOutcome.calls_of_reply? {outcome : EntryOutcome} {s : Store} {reply : Reply}
    (h : outcome.reply? s = some reply) : reply.calls = .none := by
  cases outcome with
  | done | fault =>
    obtain rfl := Option.some.inj h
    rfl
  | fallback => cases h

/-- And what it answers takes nothing on the generic way either, whichever handler is in force
there: the payload has the class of the elements, or else no coercion at all. -/
theorem Dispatcher.consultations_of_answers (d : Dispatcher) (s : Store) {e : Entry} {r : Registry}
    {a : Assignment} (h : e.answers r a = true) :
    d.consultations s a.receiver [a.index, a.value] = .none := by
  obtain ⟨⟨-, htype, -⟩, hpayload⟩ := Entry.answers_iff.mp h
  obtain ⟨array, hreceiver, htype⟩ := Value.exists_array htype
  have hcalls : array.type.consultations d.service s.heap a.value = .none := by
    rw [← ElementType.calls_coerce, ElementType.coerce, htype]
    rcases hpayload with hexact | hincompatible
    · obtain ⟨element, helement⟩ := Option.isSome_iff_exists.mp hexact
      rw [ElementType.classify_eq_exact_iff.mpr helement]
    · rw [hincompatible]
  simp only [consultations, hreceiver, hcalls]
  split <;> rfl

namespace Site

theorem calls_of_shortcut? {site : Site} {s : Store} {attempt : Entry → EntryOutcome}
    {reply : Reply} (h : site.shortcut? s attempt = some reply) : reply.calls = .none := by
  obtain ⟨e, -, hreply⟩ := Option.bind_eq_some_iff.mp h
  exact EntryOutcome.calls_of_reply? hreply

variable (site : Site) (d : Dispatcher) (s : Store)

theorem calls_apply (receiver : Value) (args : List Value) :
    (site.apply d s receiver args).1.calls = d.consultations s receiver args := by
  rw [reply_apply]
  cases hfast : site.fastApply? d s receiver args with
  | none => exact d.calls_apply s receiver args
  | some reply =>
    obtain ⟨index, value, rfl, e, -, hperforms, -⟩ := fastApply?_eq_some hfast
    have hanswers : e.answers (s.registry d.registry) ⟨receiver, index, value⟩ = true := by
      rw [Entry.answers, hperforms, Bool.true_or]
    exact (calls_of_shortcut? hfast).trans (d.consultations_of_answers s hanswers).symm

theorem calls_assign (a : Assignment) :
    (site.assign d s a).1.calls = d.consultations s a.receiver [a.index, a.value] := by
  rw [reply_assign]
  cases hfast : site.fastAssign? d s a with
  | none => exact d.calls_assign s a
  | some reply =>
    obtain ⟨e, -, hanswers, -⟩ := fastAssign?_eq_some hfast
    exact (calls_of_shortcut? hfast).trans (d.consultations_of_answers s hanswers).symm

end Site

/-! ### Runs -/

theorem CoercionCalls.add_assoc (a b c : CoercionCalls) : a + b + c = a + (b + c) :=
  congrArg₂ CoercionCalls.mk (Nat.add_assoc _ _ _) (Nat.add_assoc _ _ _)

theorem World.tally_count (w : World) (d i : Nat) (calls : CoercionCalls) :
    (w.count d calls).tally i = w.tally i + if i = d then calls else .none := by
  simp only [count]
  by_cases hi : i = d
  · rw [if_pos hi, if_pos hi, hi]
  · rw [if_neg hi, if_neg hi, CoercionCalls.add_none]

namespace Step

variable (dispatchers : Nat → Dispatcher)

/-- The calls that a step makes to the service of dispatcher `i`: those of the assignment that it
asks for, and a direct request is one more call. -/
def consultations (s : Store) (i : Nat) (step : Step) : CoercionCalls :=
  match step with
  | narrow d _ _ => if i = d then ⟨0, 1⟩ else .none
  | step =>
    match step.request? with
    | some (d, receiver, args) =>
      if i = d then (dispatchers d).consultations s receiver args else .none
    | none => .none

/-- The calls that a program makes to the service of dispatcher `i`. -/
def allConsultations (i : Nat) : List Step → World → CoercionCalls
  | [], _ => .none
  | step :: steps, w =>
    step.consultations dispatchers w.store i +
      allConsultations i steps (step.run dispatchers w).2

theorem tally_run (step : Step) (w : World) (i : Nat) :
    (step.run dispatchers w).2.tally i =
      w.tally i + step.consultations dispatchers w.store i := by
  cases step with
  | applyAt d owner id receiver args =>
    show (runCall w d owner id _).2.tally i = _
    rw [tally_runCall, World.tally_count, Site.calls_apply]
    rfl
  | assignAt d owner id a =>
    show (runCall w d owner id _).2.tally i = _
    rw [tally_runCall, World.tally_count, Site.calls_assign]
    rfl
  | assign d a =>
    show (w.count d ((dispatchers d).assign w.store a).calls).tally i = _
    rw [World.tally_count, Dispatcher.calls_assign]
    rfl
  | apply d receiver args =>
    show (w.count d ((dispatchers d).apply w.store receiver args).calls).tally i = _
    rw [World.tally_count, Dispatcher.calls_apply]
    rfl
  | narrow d v target => exact w.tally_count d i ⟨0, 1⟩
  | _ => rfl

theorem tally_after (program : List Step) (w : World) (i : Nat) :
    (w.after dispatchers program).tally i =
      w.tally i + allConsultations dispatchers i program w := by
  induction program generalizing w with
  | nil => rfl
  | cons step steps ih =>
    show ((step.run dispatchers w).2.after dispatchers steps).tally i = _
    rw [ih, tally_run, CoercionCalls.add_assoc]
    rfl

/-- **Coercions are accounted for.**  In every run, each assignment, generic or through any site
and in either form, makes the calls to the service of its dispatcher that the call itself
determines, and none to the services of others.  Under the built-in handler of the receiver's type,
with two arguments, the first of which is a whole number, these are none for a payload that has the
class of the elements or no coercion at all; the character and then its element for a text, or only
the attempt at the character if it has none; and one element for every other number.  Every other
assignment makes none.  Neither the site, nor a slot for the index, nor a fault of the service
makes a difference, so after the run the calls of each service are the sum of these, and of the
direct requests. -/
theorem coercion_accounting (start : World) (program : List Step) :
    Always dispatchers (fun step w =>
        ∀ d receiver args, step.request? = some (d, receiver, args) →
          (step.run dispatchers w).2.tally =
            (w.count d ((dispatchers d).consultations w.store receiver args)).tally)
      program start ∧
    ∀ i, (start.after dispatchers program).tally i =
      start.tally i + allConsultations dispatchers i program start := by
  refine ⟨Always.of_invariant (I := fun _ _ => True) ?_ trivial,
    tally_after dispatchers program start⟩
  -- no step needs to know anything about the run before it
  refine fun step _ w _ => ⟨fun d receiver args hrequest => funext fun i => ?_, trivial⟩
  rw [tally_run, World.tally_count]
  cases step with
  | applyAt | assignAt | assign | apply =>
    obtain ⟨rfl, rfl, rfl⟩ := by simpa [request?] using hrequest
    rfl
  | _ => cases hrequest

/-! A site whose entry answers some of the calls and hands others back, with every kind of payload,
and a foreign handler at the end. -/

def consulting : List Step :=
  [applyAt 0 .standalone 7 shorts [.integer 0, .short 5],
    assignAt 0 .standalone 7 ⟨shorts, .integer 3, .character 'A'⟩,
    applyAt 1 .standalone 7 shorts [.integer 0, .string "AB"],
    assign 0 ⟨shorts, .long 1, .byte 7⟩, assignAt 0 .standalone 7 ⟨shorts, .integer 0, .null⟩,
    narrow 1 (.byte 7) .int, redefine 0 .short (.builtin .int),
    apply 0 shorts [.integer 0, .byte 7]]

theorem coercion_accounting_consulting :
    let after := (World.fresh threeShorts).after oneRegistry consulting
    after.tally 0 = ⟨1, 2⟩ ∧ after.tally 1 = ⟨1, 1⟩ ∧
    after.site .standalone 7 = ⟨7, .specialized ⟨.short, 0⟩, ⟨1, 0, 2, 1, 0⟩⟩ := by
  intro after
  obtain ⟨-, htally⟩ := coercion_accounting oneRegistry (.fresh threeShorts) consulting
  refine ⟨?_, ?_, by decide +kernel⟩
  · rw [htally]
    decide +kernel
  · rw [htally]
    decide +kernel

end Step

end InlineCache
