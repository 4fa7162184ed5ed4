/-
Assignments, whichever way they are asked for.

An assignment can be asked for directly or through a call site, in either form (`Step.request?`).
Where the built-in handler of the receiver's type is in force, it makes no difference which, and
what the site has cached before makes none either.

* `Step.run_of_request`: a step that asks for an assignment gives the generic answer and leaves the
  generic store;
* `ElementType.exists_assign`: the built-in assignment of a payload that can be coerced changes the
  slot that the index names, and nothing else;
* `Step.read_assigned`: so the element can be read back through every alias and every index of the
  slot, and whatever else was readable stays as it was.
-/
import InlineCache.Proofs.Cells
import InlineCache.Proofs.Transparency

namespace InlineCache

/-! ### What is asked for -/

/-- The slot that an assignment is for, if there is one, and the cell that it is in. -/
def Assignment.target? (a : Assignment) : Option (Nat × Nat) :=
  a.receiver.handle?.bind fun array => (a.index.slot? array.length).map fun i => (array.cell, i)

namespace Step

/-- What a step asks to be assigned: through which dispatcher, to which receiver, and with which
arguments. -/
def request? : Step → Option (Nat × Value × List Value)
  | applyAt d _ _ receiver args => some (d, receiver, args)
  | assignAt d _ _ a => some (d, a.receiver, [a.index, a.value])
  | assign d a => some (d, a.receiver, [a.index, a.value])
  | apply d receiver args => some (d, receiver, args)
  | _ => none

/-- The assignment that a step asks for, in whichever form, and the dispatcher that is asked. -/
def assignment? (step : Step) : Option (Nat × Assignment) :=
  match step.request? with
  | some (d, receiver, [index, value]) => some (d, ⟨receiver, index, value⟩)
  | _ => none

/-- The slot that a step is to assign to, if there is one, and the cell that it is in. -/
def target? (step : Step) : Option (Nat × Nat) :=
  step.assignment?.bind fun asked => asked.2.target?

theorem request?_of_assignment? {step : Step} {d : Nat} {a : Assignment}
    (h : step.assignment? = some (d, a)) :
    step.request? = some (d, a.receiver, [a.index, a.value]) := by
  rw [assignment?] at h
  split at h
  · rename_i hrequest
    cases h
    exact hrequest
  · cases h

/-- A call with two arguments has one of two forms, and the site makes of it what it makes of
either. -/
theorem exists_outcome_of_call (dispatchers : Nat → Dispatcher) {step : Step} (w : World)
    {d d' : Nat} {owner : Owner} {id : UInt64} {a : Assignment}
    (hcall : step.call? = some (d, owner, id)) (hasked : step.assignment? = some (d', a)) :
    ∃ outcome : Reply × Site,
      (outcome = (w.site owner id).apply (dispatchers d) w.store a.receiver [a.index, a.value] ∨
        outcome = (w.site owner id).assign (dispatchers d) w.store a) ∧
      (step.run dispatchers w).2.site owner id = outcome.2 ∧
      (step.run dispatchers w).2.tally = (w.count d outcome.1.calls).tally := by
  have hrequest := request?_of_assignment? hasked
  cases step with
  | applyAt d owner id receiver args =>
    obtain ⟨rfl, rfl, rfl⟩ : d = _ ∧ owner = _ ∧ id = _ := by simpa [call?] using hcall
    obtain ⟨rfl, rfl, rfl⟩ : d = _ ∧ receiver = _ ∧ args = _ := by simpa [request?] using hrequest
    refine ⟨_, Or.inl rfl, ?_, rfl⟩
    exact (site_runCall w d owner id _ (fun _ => Site.id_apply ..) owner id).trans
      (if_pos ⟨rfl, rfl⟩)
  | assignAt d owner id a =>
    obtain ⟨rfl, rfl, rfl⟩ : d = _ ∧ owner = _ ∧ id = _ := by simpa [call?] using hcall
    obtain ⟨rfl, rfl⟩ := Prod.mk.inj (Option.some.inj hasked)
    refine ⟨_, Or.inr rfl, ?_, rfl⟩
    exact (site_runCall w d owner id _ (fun _ => Site.id_assign ..) owner id).trans
      (if_pos ⟨rfl, rfl⟩)
  | _ => cases hcall

end Step

/-! ### The generic answer on every path -/

theorem Answer.eq_value_of_hideSite {answer : Answer} {v : Value}
    (h : answer.hideSite = .value v) : answer = .value v := by
  cases answer with
  | site => cases h
  | _ => exact h

namespace Step

variable {dispatchers : Nat → Dispatcher} {w : World} {step : Step} {d : Nat} {receiver : Value}
  {args : List Value}

/-- Under the built-in handler of the receiver's type, no entry overlooks anything. -/
theorem not_overlooks_of_request (hstep : step.request? = some (d, receiver, args))
    (hbuiltin : ∀ t, receiver.elementType? = some t →
      (w.store.registry (dispatchers d).registry).handler t = .builtin t) :
    ¬ step.Overlooks dispatchers Entry.performs Entry.answers w := by
  -- an entry that answers has the type of the receiver
  have hnever : ∀ (site : Site) (a : Assignment) (answers : Entry → Registry → Assignment → Bool),
      a.receiver = receiver → (∀ {e r a}, answers e r a = true → e.admits r a = true) →
      ¬ site.Overlooks (dispatchers d) w.store a answers := by
    rintro site a answers rfl hadmits ⟨e, -, hanswers, hoverlooks⟩
    have htype := Entry.elementType?_of_admits (hadmits hanswers)
    exact hoverlooks (by rw [hbuiltin e.type htype])
  cases step with
  | applyAt d' owner id receiver' args' =>
    obtain ⟨rfl, rfl, rfl⟩ : d' = d ∧ receiver' = receiver ∧ args' = args := by
      simpa [request?] using hstep
    match args' with
    | [index, value] => exact hnever _ _ _ rfl Entry.admits_of_performs
    | [] | [_] | _ :: _ :: _ :: _ => exact fun hoverlooks => hoverlooks
  | assignAt d' owner id a =>
    obtain ⟨rfl, hreceiver, -⟩ : d' = d ∧ a.receiver = receiver ∧ [a.index, a.value] = args := by
      simpa [request?] using hstep
    exact hnever _ _ _ hreceiver Entry.admits_of_answers
  | _ => exact fun hoverlooks => hoverlooks

/-- Under the built-in handler of the receiver's type, all that can be observed of a step that asks
for an assignment is the generic reply. -/
theorem observed_run_of_request (hstep : step.request? = some (d, receiver, args))
    (hbuiltin : ∀ t, receiver.elementType? = some t →
      (w.store.registry (dispatchers d).registry).handler t = .builtin t) :
    observed (step.run dispatchers w) = told w d ((dispatchers d).apply w.store receiver args) := by
  have hgeneric : observed (step.run dispatchers w) = observed (step.uncached.run dispatchers w) :=
    (observed_run_eq_iff step ⟨rfl, rfl⟩).mpr (not_overlooks_of_request hstep hbuiltin)
  rw [hgeneric]
  cases step with
  | applyAt | assignAt | assign | apply =>
    obtain ⟨rfl, rfl, rfl⟩ := by simpa [request?] using hstep
    exact observed_absorb w _ _
  | _ => cases hstep

theorem run_of_request (hstep : step.request? = some (d, receiver, args))
    (hbuiltin : ∀ t, receiver.elementType? = some t →
      (w.store.registry (dispatchers d).registry).handler t = .builtin t) :
    (step.run dispatchers w).1 =
        ((dispatchers d).apply w.store receiver args).result.map .value ∧
      (step.run dispatchers w).2.store = ((dispatchers d).apply w.store receiver args).store := by
  have hobserved := observed_run_of_request hstep hbuiltin
  obtain ⟨hanswer, hworld⟩ := Prod.mk.inj hobserved
  refine ⟨?_, (Prod.mk.inj hworld).1⟩
  -- the answer of an assignment is a value, so nothing of it is hidden
  cases hresult : ((dispatchers d).apply w.store receiver args).result with
  | error f =>
    rw [hresult] at hanswer
    cases hown : (step.run dispatchers w).1 with
    | error f' =>
      rw [hown] at hanswer
      exact congrArg Except.error (Except.error.inj hanswer)
    | ok answer =>
      rw [hown] at hanswer
      cases hanswer
  | ok v =>
    rw [hresult] at hanswer
    cases hown : (step.run dispatchers w).1 with
    | error f =>
      rw [hown] at hanswer
      cases hanswer
    | ok answer =>
      rw [hown] at hanswer
      exact congrArg Except.ok (Answer.eq_value_of_hideSite (Except.ok.inj hanswer))

end Step

/-! ### The built-in assignment -/

namespace ElementType

variable {t : ElementType} {v : Value} {e : Element}

theorem type_of_unbox? (hunbox : t.unbox? v = some e) : e.type = t := by
  unfold unbox? at hunbox
  split at hunbox
  case h_7 => cases hunbox
  all_goals
    obtain rfl := Option.some.inj hunbox
    rfl

theorem isNumeric_of_unbox? (hunbox : t.unbox? v = some e) : v.isNumeric = true := by
  unfold unbox? at hunbox
  split at hunbox
  case h_7 => cases hunbox
  all_goals rfl

theorem classify_eq_exact_iff : t.classify v = .exact e ↔ t.unbox? v = some e := by
  rw [classify]
  cases t.unbox? v with
  | some e' => rw [Payload.exact.injEq, Option.some.injEq]
  | none =>
    refine iff_of_false (fun hexact => ?_) (Option.some_ne_none e).symm
    dsimp only at hexact
    split at hexact
    · cases hexact
    · split at hexact <;> cases hexact

theorem classify_of_isNumeric (hv : v.isNumeric = true) (hunbox : t.unbox? v = none) :
    t.classify v = .numeric := by
  have htext : v.isTextLike = false := by
    cases v with
    | character | string | template => cases hv
    | _ => rfl
  rw [classify, hunbox]
  simp only [htext, hv, if_true, Bool.false_eq_true, if_false]

/-- Characters and texts are boxed in no element's class. -/
theorem classify_eq_text_iff : t.classify v = .text ↔ v.isTextLike = true := by
  rw [classify]
  cases hunbox : t.unbox? v with
  | some e =>
    have hnumeric := isNumeric_of_unbox? hunbox
    cases v with
    | character | string | template => cases hnumeric
    | _ => exact iff_of_false (by simp) (by simp [Value.isTextLike])
  | none =>
    cases v.isTextLike with
    | true => exact iff_of_true rfl rfl
    | false => cases v.isNumeric <;> exact iff_of_false (by simp) (by simp)

/-- A text goes through its character. -/
theorem coerce_of_isTextLike (hv : v.isTextLike = true) (service : CoercionService) (h : Heap) :
    t.coerce service h v =
      match service.character h v with
      | .ok c => (service.narrow h (.character c) t, ⟨1, 1⟩)
      | .error f => (.error f, ⟨1, 0⟩) := by
  have hpayload : t.classify v = .text := classify_eq_text_iff.mpr hv
  cases hcharacter : service.character h v with
  | ok c => simp only [coerce, hpayload, hcharacter]
  | error f => simp only [coerce, hpayload, hcharacter]

/-- The built-in assignment of a payload that can be coerced succeeds, if the index names a slot,
and changes that slot. -/
theorem exists_assign {h : Heap} {array : ArrayHandle} (hholds : h.Holds array)
    {service : CoercionService} {index value : Value} {i : Nat}
    (hindex : index.Denotes array.length i)
    (hvalue : (array.type.coerce service h value).1 = .ok e) (he : e.type = array.type) :
    ∃ h', (array.type.assign service h ⟨.array array, index, value⟩).1 = .ok h' ∧
      h.Assigned h' array.cell i e := by
  obtain ⟨logical, hlogical, hi⟩ := hindex.resolve hholds.length_lt
  obtain ⟨h', hput, hassigned⟩ := Heap.exists_put hholds hi he
  refine ⟨h', ?_, hassigned⟩
  simp only [assign, container, if_true, hlogical, hvalue]
  exact hput

end ElementType

/-! ### Reading back -/

theorem World.after_append (w : World) (dispatchers : Nat → Dispatcher) (first second : List Step) :
    w.after dispatchers (first ++ second) = (w.after dispatchers first).after dispatchers second :=
  List.foldl_append

namespace Step

theorem runAll_append (dispatchers : Nat → Dispatcher) (first second : List Step) (w : World) :
    runAll dispatchers (first ++ second) w =
      runAll dispatchers first w ++ runAll dispatchers second (w.after dispatchers first) := by
  induction first generalizing w with
  | nil => rfl
  | cons step steps ih =>
    rw [List.cons_append, runAll, runAll, ih]
    rfl

/-- **What is assigned can be read back, and nothing else changes.**  Let a program have run, and
let the built-in handler of an array's type then be in force in the registry of a dispatcher.  A
step that asks this dispatcher to assign a payload that can be coerced, under an index that names
a slot of the array, directly or through any call site, answers `null`, and takes nothing back of
what earlier steps have answered, such as snapshots.  Afterwards the element is read, boxed,
through every alias of the array and every index of the slot; every other slot of every array has
the element that it had, and every array its type and its length. -/
theorem read_assigned (dispatchers : Nat → Dispatcher) (start : World) (program : List Step)
    {step : Step} {d : Nat} {array : ArrayHandle} {index value : Value} {i : Nat} {e : Element}
    (hstep : step.request? = some (d, .array array, [index, value]))
    (hholds : (start.after dispatchers program).store.heap.Holds array)
    (hbuiltin : ((start.after dispatchers program).store.registry
      (dispatchers d).registry).handler array.type = .builtin array.type)
    (hindex : index.Denotes array.length i)
    (hvalue : (array.type.coerce (dispatchers d).service
      (start.after dispatchers program).store.heap value).1 = .ok e)
    (he : e.type = array.type) :
    let before := (start.after dispatchers program).store
    let after := (start.after dispatchers (program ++ [step])).store
    (runAll dispatchers (program ++ [step]) start).map Prod.fst =
        (runAll dispatchers program start).map Prod.fst ++ [.ok (.value .null)] ∧
      (∀ copy index', after.heap.Holds copy → copy.sharesStorage array = true →
        index'.Denotes copy.length i →
          Dispatcher.read after (.array copy) index' = .ok e.box) ∧
      (∀ cell j, ¬ (cell = array.cell ∧ j = i) →
        after.heap.slot? cell j = before.heap.slot? cell j) ∧
      ∀ cell, after.heap.shape? cell = before.heap.shape? cell := by
  intro before after
  obtain ⟨h', hassign, hassigned⟩ := ElementType.exists_assign hholds hindex hvalue he
  -- the generic reply is that of the built-in handler
  have hreply : (dispatchers d).apply before (.array array) [index, value] =
      ⟨.ok .null, { before with heap := h' }, (array.type.assign (dispatchers d).service before.heap
        ⟨.array array, index, value⟩).2⟩ := by
    show (dispatchers d).assign before ⟨.array array, index, value⟩ = _
    rw [Dispatcher.assign_of_elementType? (dispatchers d) before rfl, hbuiltin, Handler.assign,
      hassign]
    rfl
  obtain ⟨hanswer, hstore⟩ := run_of_request (w := start.after dispatchers program) hstep (by
    rintro t ht
    obtain rfl := Option.some.inj ht
    exact hbuiltin)
  rw [hreply] at hanswer hstore
  have hafter : after.heap = h' := by
    show (start.after dispatchers (program ++ [step])).store.heap = h'
    rw [World.after_append]
    exact congrArg Store.heap hstore
  refine ⟨?_, ?_, ?_, ?_⟩
  · rw [runAll_append, List.map_append]
    exact congrArg _ (congrArg (fun answer => [answer]) hanswer)
  · intro copy index' hcopy hshares hindex'
    rw [hafter] at hcopy
    obtain rfl : copy = array :=
      hholds.eq_of_cell (hassigned.holds hcopy) (by simpa [ArrayHandle.sharesStorage] using hshares)
    obtain ⟨logical, hlogical, hi⟩ := hindex'.resolve hcopy.length_lt
    have hget := Heap.get_eq_ok hcopy hi hassigned.slot
    simp only [Dispatcher.read, Value.handle?, hlogical, hafter]
    show (h'.get copy logical >>= _) = _
    rw [hget]
    rfl
  · intro cell j hother
    rw [hafter]
    exact hassigned.frame cell j hother
  · intro cell
    rw [hafter, hassigned.shape]

/-! An array whose site has an entry that has become stale, and a payload that needs coercion. -/

def aged : List Step :=
  [applyAt 0 .standalone 7 shorts [.integer 0, .short 5], snapshot ⟨0, .short, 3⟩,
    restore 0 .short]

def overdue : Step := assignAt 1 .standalone 7 ⟨shorts, .bigInteger (-1), .character 'A'⟩

theorem read_assigned_overdue :
    let start := World.fresh threeShorts
    let before := (start.after oneRegistry aged).store
    let after := (start.after oneRegistry (aged ++ [overdue])).store
    overdue.request? = some (1, shorts, [.bigInteger (-1), .character 'A']) ∧
    before.heap.Holds ⟨0, .short, 3⟩ ∧
    (before.registry 0).handler .short = .builtin .short ∧
    (Value.bigInteger (-1)).Denotes 3 2 ∧
    (ElementType.short.coerce (oneRegistry 1).service before.heap (.character 'A')).1 =
      .ok (.short 65) ∧
    Dispatcher.read after shorts (.long 2) = .ok (.short 65) ∧
    after.heap.slot? 0 0 = some (.short 5) := by
  intro start before after
  have hstep : overdue.request? = some (1, shorts, [.bigInteger (-1), .character 'A']) := rfl
  have hholds : before.heap.Holds ⟨0, .short, 3⟩ := ⟨by decide +kernel, by decide⟩
  have hbuiltin : (before.registry 0).handler .short = .builtin .short := rfl
  have hindex : (Value.bigInteger (-1)).Denotes 3 2 := ⟨by decide, Or.inr rfl⟩
  have hvalue : (ElementType.short.coerce (oneRegistry 1).service before.heap
      (.character 'A')).1 = .ok (.short 65) := rfl
  obtain ⟨-, hread, hframe, hshape⟩ :=
    read_assigned oneRegistry start aged hstep hholds hbuiltin hindex hvalue rfl
  have hafter : after.heap.Holds ⟨0, .short, 3⟩ := ⟨by rw [hshape]; exact hholds.shape, by decide⟩
  refine ⟨hstep, hholds, hbuiltin, hindex, hvalue, ?_, ?_⟩
  · exact hread ⟨0, .short, 3⟩ (.long 2) hafter rfl ⟨by decide, Or.inl rfl⟩
  · rw [hframe 0 0 (by decide)]
    decide +kernel

end Step

end InlineCache
