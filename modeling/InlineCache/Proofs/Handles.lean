/-
Handles fit their storages.

A handle remembers the element type and the length of its storage, and accesses are measured
against what it remembers.  It fits the heap when it remembers what is there (`Heap.Fits`).

* `Heap.Extends`: a heap in which every storage of another is found again, with the type and the
  length that it had; whatever is run leaves such a heap (`Script.extends_run`,
  `Step.extends_run`);
* `Script.issued`, `Step.issued`: the handles on new arrays that are made on the way, by steps and
  by override bodies alike;
* `Heap.Holds.elements_eq`, `Heap.Holds.faultOf?_get`, `Heap.Holds.faultOf?_put`: what may be
  expected of a handle that fits;
* `Step.handles_fit`: every handle that was ever made fits.

Design notes: a step runs at most one override body (`Step.body?`), or else writes to at most one
slot or makes one array (`Step.heap_run_cases`).  All that follows is an induction on the body and
on the program.
-/
import InlineCache.Proofs.CoercionFaults

namespace InlineCache

/-! ### Heaps that grow -/

namespace Heap

/-- The handle remembers the type and the length of the storage in its cell. -/
def Fits (h : Heap) (a : ArrayHandle) : Prop := h.shape? a.cell = some (a.type, a.length)

/-- Every storage of the heap is there in the other one, with the type and the length it had. -/
def Extends (h h' : Heap) : Prop :=
  ∀ cell shape, h.shape? cell = some shape → h'.shape? cell = some shape

/-- The heap after at most one write. -/
def Written (h h' : Heap) : Prop := h' = h ∨ ∃ a i e, h.put a i e = .ok h'

variable {h h' h'' : Heap}

theorem Extends.refl (h : Heap) : h.Extends h := fun _ _ hshape => hshape

theorem Extends.trans (hfirst : h.Extends h') (hsecond : h'.Extends h'') : h.Extends h'' :=
  fun cell shape hshape => hsecond cell shape (hfirst cell shape hshape)

theorem Fits.mono {a : ArrayHandle} (ha : h.Fits a) (hextends : h.Extends h') : h'.Fits a :=
  hextends _ _ ha

theorem Written.extends (hwritten : h.Written h') : h.Extends h' := by
  obtain rfl | ⟨a, i, e, hput⟩ := hwritten
  · exact Extends.refl h'
  · obtain ⟨slot, -, hassigned⟩ := assigned_of_put hput
    intro cell shape hshape
    rw [hassigned.shape]
    exact hshape

theorem shape?_allocate (h : Heap) (s : Storage) (cell : Nat) :
    (h.allocate s).2.shape? cell =
      if cell = h.cells.size then some (s.type, s.length) else h.shape? cell := by
  show ((h.cells.push s)[cell]?).map _ = _
  rw [Array.getElem?_push]
  by_cases hcell : cell = h.cells.size
  · rw [if_pos hcell, if_pos hcell, Option.map_some]
  · rw [if_neg hcell, if_neg hcell]
    rfl

theorem extends_allocate (h : Heap) (s : Storage) : h.Extends (h.allocate s).2 := by
  intro cell shape hshape
  -- the new cell is none of the old ones
  have hne : cell ≠ h.cells.size := by
    rintro rfl
    simp [shape?] at hshape
  rw [shape?_allocate, if_neg hne]
  exact hshape

theorem fits_allocate (h : Heap) (s : Storage) : (h.allocate s).2.Fits (h.allocate s).1 := by
  rw [Fits, shape?_allocate]
  exact if_pos rfl

theorem written_update (s : Store) (outcome : Except Fault Heap)
    (hput : ∀ h', outcome = .ok h' → ∃ a i e, s.heap.put a i e = .ok h') :
    s.heap.Written (s.update outcome).2.heap := by
  cases outcome with
  | error f => exact Or.inl rfl
  | ok h' => exact Or.inr (hput h' rfl)

end Heap

/-- All that the built-in assignment does to the heap is one write. -/
theorem ElementType.exists_put_of_assign {t : ElementType} {service : CoercionService} {h h' : Heap}
    {a : Assignment} (hassign : (t.assign service h a).1 = .ok h') :
    ∃ array i e, h.put array i e = .ok h' := by
  simp only [assign] at hassign
  split at hassign
  · cases hassign
  · cases hassign
  · rename_i array logical _ _
    cases hcoerce : (t.coerce service h a.value).1 with
    | error f =>
      rw [hcoerce] at hassign
      cases hassign
    | ok e =>
      rw [hcoerce] at hassign
      exact ⟨array, logical, e, hassign⟩

theorem Handler.written_builtin (t : ElementType) (service : CoercionService) (s : Store)
    (a : Assignment) : s.heap.Written ((builtin t).assign service s a).store.heap :=
  Heap.written_update s _ fun _ => ElementType.exists_put_of_assign

/-! ### What override bodies do -/

namespace Script

/-- The handles on new arrays that an override body gets when it is run. -/
def issued : Script Handler → Store → List ArrayHandle
  | finish _, _ => []
  | get a i next, s => (next (s.heap.get a i)).issued s
  | put a i e next, s =>
    let outcome := s.update (s.heap.put a i e)
    (next outcome.1).issued outcome.2
  | snapshot a next, s => (next (s.heap.storage a)).issued s
  | allocate storage next, s =>
    let outcome := s.heap.allocate storage
    outcome.1 :: (next outcome.1).issued { s with heap := outcome.2 }
  | assign t service a next, s =>
    let outcome := s.update (t.assign service s.heap a).1
    (next outcome.1).issued outcome.2
  | redefine id t h next, s =>
    let s := s.redefine id t h
    (next ((s.registry id).version t)).issued s

theorem extends_run (script : Script Handler) (s : Store) :
    s.heap.Extends (script.run s).2.heap := by
  induction script generalizing s with
  | finish result => exact Heap.Extends.refl s.heap
  | get a i next ih => exact ih _ s
  | put a i e next ih =>
    have hwritten := Heap.written_update s (s.heap.put a i e) fun _ hput => ⟨a, i, e, hput⟩
    exact hwritten.extends.trans (ih _ _)
  | snapshot a next ih => exact ih _ s
  | allocate storage next ih =>
    exact (s.heap.extends_allocate storage).trans (ih (s.heap.allocate storage).1
      { s with heap := (s.heap.allocate storage).2 })
  | assign t service a next ih =>
    have hwritten := Heap.written_update s (t.assign service s.heap a).1
      fun _ => ElementType.exists_put_of_assign
    exact hwritten.extends.trans (ih _ _)
  | redefine id t h next ih => exact ih _ (s.redefine id t h)

/-- The handles that a body gets fit the heap that the body leaves. -/
theorem fits_of_mem_issued (script : Script Handler) {s : Store} {a : ArrayHandle}
    (ha : a ∈ script.issued s) : (script.run s).2.heap.Fits a := by
  induction script generalizing s with
  | finish result => cases ha
  | get array i next ih => exact ih _ ha
  | put array i e next ih => exact ih _ ha
  | snapshot array next ih => exact ih _ ha
  | allocate storage next ih =>
    rcases List.mem_cons.mp ha with rfl | hlater
    · -- the new handle fits at once, and the rest of the body leaves it so
      exact (s.heap.fits_allocate storage).mono (extends_run (next (s.heap.allocate storage).1)
        { s with heap := (s.heap.allocate storage).2 })
    · exact ih _ hlater
  | assign t service assignment next ih => exact ih _ ha
  | redefine id t h next ih => exact ih _ ha

end Script

/-! ### What steps do -/

/-- The override body that an assignment by a handler runs. -/
def Handler.body? : Handler → Assignment → Option (Script Handler)
  | .builtin _, _ => none
  | .override _ body, a => some (body a)

/-- The override body that a generic assignment runs. -/
def Dispatcher.body? (d : Dispatcher) (s : Store) (receiver : Value) :
    List Value → Option (Script Handler)
  | [index, value] => receiver.elementType?.bind fun t =>
    ((s.registry d.registry).handler t).body? ⟨receiver, index, value⟩
  | _ => none

/-- A generic assignment runs an override body, or writes to at most one slot. -/
theorem Dispatcher.heap_apply_cases (d : Dispatcher) (s : Store) (receiver : Value)
    (args : List Value) :
    (∃ script, d.body? s receiver args = some script ∧
      (d.apply s receiver args).store = (script.run s).2) ∨
    d.body? s receiver args = none ∧ s.heap.Written (d.apply s receiver args).store.heap := by
  match args with
  | [] | [_] | _ :: _ :: _ :: _ => exact Or.inr ⟨rfl, Or.inl rfl⟩
  | [index, value] =>
    cases ht : receiver.elementType? with
    | none =>
      refine Or.inr ⟨by rw [body?, ht]; rfl, Or.inl ?_⟩
      show (d.assign s ⟨receiver, index, value⟩).store.heap = s.heap
      simp only [assign, ht]
    | some t =>
      have happly : d.apply s receiver [index, value] =
          ((s.registry d.registry).handler t).assign d.service s ⟨receiver, index, value⟩ :=
        d.assign_of_elementType? s ht
      rw [happly, body?, ht, Option.bind_some]
      cases (s.registry d.registry).handler t with
      | builtin u => exact Or.inr ⟨rfl, Handler.written_builtin u d.service s _⟩
      | override name body => exact Or.inl ⟨_, rfl, rfl⟩

namespace Step

variable (dispatchers : Nat → Dispatcher)

/-- The step is a call that the entry of its site answers. -/
def isFast (step : Step) (w : World) : Bool :=
  match step with
  | applyAt d owner id receiver args =>
    ((w.site owner id).fastApply? (dispatchers d) w.store receiver args).isSome
  | assignAt d owner id a => ((w.site owner id).fastAssign? (dispatchers d) w.store a).isSome
  | _ => false

/-- The override body that a step runs. -/
def body? (step : Step) (w : World) : Option (Script Handler) :=
  if step.isFast dispatchers w then none
  else step.request?.bind fun request =>
    (dispatchers request.1).body? w.store request.2.1 request.2.2

/-- The handles on new arrays that a step makes. -/
def issued (step : Step) (w : World) : List ArrayHandle :=
  match step with
  | allocate storage => [(w.store.heap.allocate storage).1]
  | step => (step.body? dispatchers w).elim [] fun script => script.issued w.store

/-- The handles on new arrays that a program makes. -/
def allIssued : List Step → World → List ArrayHandle
  | [], _ => []
  | step :: steps, w => step.issued dispatchers w ++ allIssued steps (step.run dispatchers w).2

/-- What is to be shown of a step, for a step that makes a generic assignment. -/
theorem heap_cases_of_generic {step : Step} {w : World} {d : Nat} {receiver : Value}
    {args : List Value} (hfast : step.isFast dispatchers w = false)
    (hrequest : step.request? = some (d, receiver, args))
    (hstore : (step.run dispatchers w).2.store =
      ((dispatchers d).apply w.store receiver args).store) :
    (∃ script, step.body? dispatchers w = some script ∧
      (step.run dispatchers w).2.store = (script.run w.store).2) ∨
    step.body? dispatchers w = none ∧
      w.store.heap.Written (step.run dispatchers w).2.store.heap := by
  have hbody : step.body? dispatchers w = (dispatchers d).body? w.store receiver args := by
    rw [body?, hfast, hrequest]
    rfl
  rw [hstore, hbody]
  exact (dispatchers d).heap_apply_cases w.store receiver args

/-- A step makes an array, or it runs an override body, or it writes to at most one slot. -/
theorem heap_run_cases (step : Step) (w : World) :
    (∃ storage, step = allocate storage) ∨
    (∃ script, step.body? dispatchers w = some script ∧
      (step.run dispatchers w).2.store = (script.run w.store).2) ∨
    step.body? dispatchers w = none ∧
      w.store.heap.Written (step.run dispatchers w).2.store.heap := by
  cases step with
  | allocate storage => exact Or.inl ⟨storage, rfl⟩
  | applyAt d owner id receiver args =>
    refine Or.inr ?_
    have hstore : ((applyAt d owner id receiver args).run dispatchers w).2.store =
        (((w.site owner id).fastApply? (dispatchers d) w.store receiver args).getD
          ((dispatchers d).apply w.store receiver args)).store :=
      congrArg Reply.store (Site.reply_apply receiver args)
    cases hfast : (w.site owner id).fastApply? (dispatchers d) w.store receiver args with
    | none =>
      rw [hfast] at hstore
      exact heap_cases_of_generic dispatchers (by rw [isFast, hfast]; rfl) rfl hstore
    | some reply =>
      -- an entry answers as the built-in handler does
      obtain ⟨index, value, rfl, e, -, -, rfl⟩ := Site.fastApply?_eq_some hfast
      refine Or.inr ⟨by rw [body?, isFast, hfast]; rfl, ?_⟩
      rw [hstore, hfast]
      exact Handler.written_builtin e.type _ w.store _
  | assignAt d owner id a =>
    refine Or.inr ?_
    have hstore : ((assignAt d owner id a).run dispatchers w).2.store =
        (((w.site owner id).fastAssign? (dispatchers d) w.store a).getD
          ((dispatchers d).assign w.store a)).store :=
      congrArg Reply.store (Site.reply_assign a)
    cases hfast : (w.site owner id).fastAssign? (dispatchers d) w.store a with
    | none =>
      rw [hfast] at hstore
      exact heap_cases_of_generic dispatchers (by rw [isFast, hfast]; rfl) rfl hstore
    | some reply =>
      obtain ⟨e, -, -, rfl⟩ := Site.fastAssign?_eq_some hfast
      refine Or.inr ⟨by rw [body?, isFast, hfast]; rfl, ?_⟩
      rw [hstore, hfast]
      exact Handler.written_builtin e.type _ w.store _
  | assign d a => exact Or.inr (heap_cases_of_generic dispatchers rfl rfl rfl)
  | apply d receiver args => exact Or.inr (heap_cases_of_generic dispatchers rfl rfl rfl)
  | put array i e =>
    exact Or.inr (Or.inr ⟨rfl, Heap.written_update w.store _ fun _ hput => ⟨array, i, e, hput⟩⟩)
  | _ => exact Or.inr (Or.inr ⟨rfl, Or.inl rfl⟩)

variable {dispatchers}

theorem extends_run (step : Step) (w : World) :
    w.store.heap.Extends (step.run dispatchers w).2.store.heap := by
  rcases heap_run_cases dispatchers step w with
    ⟨storage, rfl⟩ | ⟨script, -, hstore⟩ | ⟨-, hwritten⟩
  · exact w.store.heap.extends_allocate storage
  · rw [hstore]
    exact script.extends_run w.store
  · exact hwritten.extends

/-- A new array is made by the step itself or by the override body that it runs. -/
theorem mem_issued_cases {step : Step} {w : World} {a : ArrayHandle}
    (ha : a ∈ step.issued dispatchers w) :
    (∃ storage, step = allocate storage ∧ a = (w.store.heap.allocate storage).1) ∨
      ∃ script, step.body? dispatchers w = some script ∧ a ∈ script.issued w.store := by
  rw [issued.eq_def] at ha
  split at ha
  · exact Or.inl ⟨_, rfl, List.mem_singleton.mp ha⟩
  · cases hbody : step.body? dispatchers w with
    | none =>
      rw [hbody] at ha
      cases ha
    | some script =>
      rw [hbody] at ha
      exact Or.inr ⟨script, rfl, ha⟩

theorem fits_of_mem_issued {step : Step} {w : World} {a : ArrayHandle}
    (ha : a ∈ step.issued dispatchers w) : (step.run dispatchers w).2.store.heap.Fits a := by
  rcases mem_issued_cases ha with ⟨storage, rfl, rfl⟩ | ⟨script, hbody, hissued⟩
  · exact w.store.heap.fits_allocate storage
  · rcases heap_run_cases dispatchers step w with
      ⟨storage, rfl⟩ | ⟨script', hbody', hstore⟩ | ⟨hnone, -⟩
    · cases hbody
    · obtain rfl := Option.some.inj (hbody.symm.trans hbody')
      rw [hstore]
      exact script.fits_of_mem_issued hissued
    · cases hbody.symm.trans hnone

/-- A handle that a step answers is one that it has made. -/
theorem mem_issued_of_answer {step : Step} {w : World} {a : ArrayHandle}
    (hanswer : (step.run dispatchers w).1 = .ok (.handle a)) : a ∈ step.issued dispatchers w := by
  have hcall : ∀ (outcome : Except Fault Value), outcome.map Answer.value ≠ .ok (.handle a) := by
    intro outcome houtcome
    cases outcome <;> cases houtcome
  cases step with
  | allocate storage =>
    obtain rfl := Answer.handle.inj (Except.ok.inj hanswer)
    exact List.mem_singleton.mpr rfl
  | applyAt | assignAt | assign | apply => exact absurd hanswer (hcall _)
  | read receiver index => exact absurd hanswer (hcall (Dispatcher.read w.store receiver index))
  | narrow d v target =>
    change ((dispatchers d).service.narrow w.store.heap v target).map _ = _ at hanswer
    cases hnarrow : (dispatchers d).service.narrow w.store.heap v target <;>
      rw [hnarrow] at hanswer <;> cases hanswer
  | get array i =>
    change (w.store.heap.get array i).map _ = _ at hanswer
    cases hget : w.store.heap.get array i <;> rw [hget] at hanswer <;> cases hanswer
  | put array i e =>
    change (w.store.update (w.store.heap.put array i e)).1.map _ = _ at hanswer
    cases hput : w.store.heap.put array i e <;> rw [hput] at hanswer <;> cases hanswer
  | redefine | restore | snapshot | visit => cases hanswer

theorem extends_after (program : List Step) (w : World) :
    w.store.heap.Extends (w.after dispatchers program).store.heap := by
  induction program generalizing w with
  | nil => exact Heap.Extends.refl w.store.heap
  | cons step steps ih => exact (extends_run step w).trans (ih _)

/-- The handles that a program makes fit the heap that the program leaves. -/
theorem fits_of_mem_allIssued {program : List Step} {w : World} {a : ArrayHandle}
    (ha : a ∈ allIssued dispatchers program w) :
    (w.after dispatchers program).store.heap.Fits a := by
  induction program generalizing w with
  | nil => cases ha
  | cons step steps ih =>
    rcases List.mem_append.mp ha with hnow | hlater
    · exact (fits_of_mem_issued hnow).mono (extends_after steps _)
    · exact ih hlater

end Step

/-! ### What may be expected of a handle that fits -/

theorem faultOf?_resolveIndex {length : Nat} (hlength : length < 2 ^ 63) (logical : Int64)
    (f : Fault) :
    faultOf? (resolveIndex logical length) = some f ↔
      ¬ (-length ≤ logical.toInt ∧ logical.toInt < length) ∧ f = .outOfRange logical length := by
  rw [resolveIndex_eq hlength]
  by_cases hrange : -length ≤ logical.toInt ∧ logical.toInt < length
  · rw [if_pos hrange]
    simp [faultOf?, hrange]
  · rw [if_neg hrange]
    simp only [faultOf?, hrange, Option.some.injEq, not_false_eq_true, true_and, eq_comm]

namespace Heap

theorem filterMap_getElem? (slots : List Element) :
    (List.range slots.length).filterMap (fun i => slots[i]?) = slots := by
  induction slots with
  | nil => rfl
  | cons e slots ih =>
    rw [List.length_cons, List.range_succ_eq_map, List.filterMap_cons, List.filterMap_map]
    show e :: (List.range slots.length).filterMap (fun i => slots[i]?) = e :: slots
    rw [ih]

variable {h : Heap} {a : ArrayHandle}

/-- No slot is missed when the elements are listed. -/
theorem Holds.elements_eq (ha : h.Holds a) : h.elements a = (h.storage a).slots.toList := by
  have hslots := filterMap_getElem? (h.storage a).slots.toList
  rw [Array.length_toList] at hslots
  rw [elements, ← ha.length_storage]
  refine Eq.trans ?_ hslots
  congr 1
  funext i
  rw [Array.getElem?_toList]
  rfl

theorem Holds.length_elements (ha : h.Holds a) : (h.elements a).length = a.length := by
  rw [ha.elements_eq, Array.length_toList, ← ha.length_storage]
  rfl

theorem Holds.getElem?_elements (ha : h.Holds a) (i : Nat) :
    (h.elements a)[i]? = (h.storage a).get? i := by
  rw [ha.elements_eq, Array.getElem?_toList]
  rfl

/-- Reading fails where the index names no slot, and nowhere else. -/
theorem Holds.faultOf?_get (ha : h.Holds a) (logical : Int64) :
    faultOf? (h.get a logical) = faultOf? (resolveIndex logical a.length) := by
  cases hi : resolveIndex logical a.length with
  | error f =>
    rw [get, hi]
    rfl
  | ok i =>
    -- the slot is there
    have hlt : i < (h.storage a).slots.size := by
      have hlt := lt_of_resolveIndex ha.length_lt hi
      rwa [← ha.length_storage] at hlt
    have hslot : h.slot? a.cell i = some (h.storage a).slots[i] := by
      rw [ha.slot?_eq]
      exact Array.getElem?_eq_getElem hlt
    rw [get_eq_ok ha hi hslot]
    rfl

/-- Writing an element of the right type fails where the index names no slot, and nowhere else. -/
theorem Holds.faultOf?_put (ha : h.Holds a) (logical : Int64) {e : Element}
    (he : e.type = a.type) :
    faultOf? (h.put a logical e) = faultOf? (resolveIndex logical a.length) := by
  cases hi : resolveIndex logical a.length with
  | error f =>
    rw [put_eq_error hi]
    rfl
  | ok i =>
    obtain ⟨h', hput, -⟩ := exists_put ha hi he
    rw [hput]
    rfl

/-- The elements that are listed are those that are read one by one. -/
theorem Holds.get_eq_ok_of_elements (ha : h.Holds a) {i : Nat} {e : Element}
    (he : (h.elements a)[i]? = some e) : h.get a (Int64.ofNat i) = .ok e := by
  rw [ha.getElem?_elements] at he
  have hi : i < a.length := by
    rw [← ha.length_storage]
    exact (Array.getElem?_eq_some_iff.mp he).1
  refine get_eq_ok ha ?_ (i := i) (by rw [ha.slot?_eq]; exact he)
  have hwhole : (Int64.ofNat i).toInt = i :=
    Int64.toInt_ofNat_of_lt (Nat.lt_trans hi ha.length_lt)
  rw [resolveIndex_eq ha.length_lt, hwhole, if_pos (by omega), slotOf, if_pos (by omega),
    Int.toNat_natCast]

end Heap

/-! ### Every handle that was ever made -/

namespace Step

variable {dispatchers : Nat → Dispatcher}

/-- The handles that the steps of a program answer are among those that it makes. -/
theorem mem_allIssued_of_answer {program : List Step} {w : World} {a : ArrayHandle}
    (ha : .ok (.handle a) ∈ (runAll dispatchers program w).map Prod.fst) :
    a ∈ allIssued dispatchers program w := by
  induction program generalizing w with
  | nil => cases ha
  | cons step steps ih =>
    rw [allIssued, List.mem_append]
    rcases List.mem_cons.mp ha with hnow | hlater
    · exact Or.inl (mem_issued_of_answer hnow.symm)
    · exact Or.inr (ih hlater)

/-- **Handles fit their storages.**  Whatever a program does, through any dispatchers and override
bodies, every handle that fitted at the start, and every handle on a new array that a step or a
body was given since, remembers the type and the length of its storage, and will do so ever after.
(What holds in the middle of an override body holds after the body that stops there.)  No array
being longer than the greatest signed word, the elements listed through the handle are then as many
as it remembers, and each of them is what is read at its index and what a snapshot has in its slot;
reading fails only for an index outside of the bounds, and reports just that; so does writing an
element of the type of the handle; and no built-in assignment with the standard service, of
whatever type, reports that a storage was offered an element of another type. -/
theorem handles_fit (dispatchers : Nat → Dispatcher) (start : World) (program : List Step) :
    let w := start.after dispatchers program
    let h := w.store.heap
    (∀ a, .ok (.handle a) ∈ (runAll dispatchers program start).map Prod.fst →
      a ∈ allIssued dispatchers program start) ∧
    ∀ a, start.store.heap.Fits a ∨ a ∈ allIssued dispatchers program start →
      h.Fits a ∧ (∀ rest, (w.after dispatchers rest).store.heap.Fits a) ∧
      (a.length < 2 ^ 63 →
        (h.elements a).length = a.length ∧
        (∀ i < a.length, ∃ e, (h.elements a)[i]? = some e ∧ h.get a (Int64.ofNat i) = .ok e ∧
          (h.storage a).get? i = some e) ∧
        (∀ i f, h.get a i = .error f ↔
          ¬ (-a.length ≤ i.toInt ∧ i.toInt < a.length) ∧ f = .outOfRange i a.length) ∧
        (∀ i e f, e.type = a.type → (h.put a i e = .error f ↔
          ¬ (-a.length ≤ i.toInt ∧ i.toInt < a.length) ∧ f = .outOfRange i a.length)) ∧
        ∀ (t u : ElementType) policy index value found,
          ((Handler.builtin t).assign (.standard policy) w.store ⟨.array a, index, value⟩).result ≠
            .error (.typeMismatch u.name found)) := by
  intro w h
  refine ⟨fun a => mem_allIssued_of_answer, fun a ha => ?_⟩
  have hfits : h.Fits a := by
    rcases ha with hstart | hissued
    · exact hstart.mono (extends_after program start)
    · exact fits_of_mem_allIssued hissued
  refine ⟨hfits, fun rest => hfits.mono (extends_after rest w), fun hlength => ?_⟩
  have hholds : h.Holds a := ⟨hfits, hlength⟩
  refine ⟨hholds.length_elements, fun i hi => ?_, fun i f => ?_, fun i e f he => ?_, ?_⟩
  · obtain ⟨e, he⟩ : ∃ e, (h.elements a)[i]? = some e :=
      ⟨_, List.getElem?_eq_getElem (hholds.length_elements.symm ▸ hi)⟩
    exact ⟨e, he, hholds.get_eq_ok_of_elements he, (hholds.getElem?_elements i).symm.trans he⟩
  · rw [← faultOf?_eq_some_iff, hholds.faultOf?_get]
    exact faultOf?_resolveIndex hlength i f
  · rw [← faultOf?_eq_some_iff, hholds.faultOf?_put i he]
    exact faultOf?_resolveIndex hlength i f
  · intro t u policy index value found hresult
    refine ElementType.assign_ne_typeMismatch hholds t u policy index value found ?_
    rw [Handler.assign] at hresult
    cases hassign : (t.assign (.standard policy) h ⟨.array a, index, value⟩).1 with
    | error f =>
      rw [hassign] at hresult
      exact congrArg Except.error (Except.error.inj hresult)
    | ok h' =>
      rw [hassign] at hresult
      cases hresult

/-! An override that copies the array it is called on, and writes to the copy. -/

def copying : Handler :=
  .override "copy" fun _ => .snapshot ⟨0, .short, 3⟩ fun storage => .allocate storage fun copy =>
    .put copy (-1) (.short 7) fun _ => .finish (.ok (.array copy))

def copies : List Step :=
  [applyAt 0 .standalone 7 shorts [.integer 0, .short 5], redefine 0 .short copying,
    assignAt 0 .standalone 7 ⟨shorts, .integer 9, .null⟩, restore 0 .short]

theorem handles_fit_copies :
    let w := (World.fresh threeShorts).after oneRegistry copies
    let copy : ArrayHandle := ⟨1, .short, 3⟩
    copy ∈ allIssued oneRegistry copies (.fresh threeShorts) ∧
    w.store.heap.Fits copy ∧
    (w.store.heap.elements copy).length = 3 ∧
    w.store.heap.elements copy = [.short 5, .short 0, .short 7] ∧
    w.store.heap.get copy 3 = .error (.outOfRange 3 3) := by
  intro w copy
  have hissued : copy ∈ allIssued oneRegistry copies (.fresh threeShorts) := by decide +kernel
  obtain ⟨hfits, -, hheld⟩ :=
    (handles_fit oneRegistry (.fresh threeShorts) copies).2 copy (Or.inr hissued)
  obtain ⟨hlength, -, hget, -⟩ := hheld (by decide)
  exact ⟨hissued, hfits, hlength, by decide +kernel, (hget 3 _).mpr ⟨by decide, rfl⟩⟩

end Step

end InlineCache
