/-
Built-in assignments as plans.

A built-in assignment looks at its operands first and at the bounds of the array last.  By then it
has failed, or it has an element to place under an index (`Placement`); this, with the calls that
it has made to the coercion service, is its plan (`Plan`).

* `CoercionService.steady_standard`: the standard service looks at the heap only to show an array;
* `Handler.assign_builtin`, `Dispatcher.assign_eq_carryOut`: under built-in handlers, an assignment
  is made by carrying out its plan;
* `Dispatcher.plan_congr`: with a service that does not look at arrays, the plan does not depend
  on the heap;
* `Plan.result_carryOut_congr`: whether a plan succeeds does not depend on the elements of arrays;
* `Plan.store_carryOut_comm`: plans for different slots may be carried out in either order.
-/
import InlineCache.Proofs.CoercionFaults

namespace InlineCache

/-! ### Values that show no array -/

mutual

/-- The text of the value has the elements of an array in it. -/
def Value.showsArray : Value → Bool
  | .array _ => true
  | .template fragments values => Value.anyShowsArray fragments values
  | _ => false

/-- One of the values that follow fragments shows an array.  Surplus values are not shown. -/
def Value.anyShowsArray : List String → List Value → Bool
  | _ :: fragments, v :: values => v.showsArray || Value.anyShowsArray fragments values
  | _, _ => false

end

/-- The value is a template that shows an array. -/
def Value.interpolatesArray : Value → Bool
  | template fragments values => anyShowsArray fragments values
  | _ => false

mutual

theorem Value.display_congr (h h' : Heap) :
    ∀ {v : Value}, v.showsArray = false → v.display h = v.display h'
  | .template fragments values, hv => Value.interleave_congr h h' fragments values hv
  | .null, _ | .boolean _, _ | .byte _, _ | .short _, _ | .integer _, _ | .long _, _
  | .bigInteger _, _ | .float _, _ | .double _, _ | .character _, _ | .string _, _ => rfl

theorem Value.interleave_congr (h h' : Heap) :
    ∀ (fragments : List String) (values : List Value), anyShowsArray fragments values = false →
      interleave fragments (displayAll h values) = interleave fragments (displayAll h' values)
  | [], _, _ => rfl
  | _ :: _, [], _ => rfl
  | fragment :: fragments, v :: values, hvalues => by
    rw [anyShowsArray, Bool.or_eq_false_iff] at hvalues
    rw [displayAll, displayAll, interleave, interleave, Value.display_congr h h' hvalues.1,
      Value.interleave_congr h h' fragments values hvalues.2]

end

/-- What the service answers depends on the value and the target only, as long as no array is
shown. -/
def CoercionService.Steady (service : CoercionService) : Prop :=
  ∀ h h' v, v.showsArray = false → service.character h v = service.character h' v ∧
    ∀ t, service.narrow h v t = service.narrow h' v t

theorem CoercionService.steady_standard (policy : NarrowingPolicy) : (standard policy).Steady := by
  intro h h' v hv
  cases v with
  | array => cases hv
  | template fragments values =>
    have htext := Value.interleave_congr h h' fragments values hv
    refine ⟨congrArg NarrowingPolicy.characterOfText htext, fun t => ?_⟩
    exact congrArg (fun text => Except.error (Fault.uncoercible text t.name)) htext
  | _ => exact ⟨rfl, fun _ => rfl⟩

/-- Of what is coerced, only a template can show an array. -/
theorem Value.showsArray_of_interpolatesArray {v : Value} (h : v.interpolatesArray = false)
    (hv : v.isTextLike = true ∨ v.isNumeric = true) : v.showsArray = false := by
  cases v with
  | template => exact h
  | array =>
    rcases hv with hv | hv
    · cases hv
    · cases hv
  | _ => rfl

theorem ElementType.coerce_congr {service : CoercionService} (hservice : service.Steady)
    {v : Value} (hv : v.interpolatesArray = false) (t : ElementType) (h h' : Heap) :
    t.coerce service h v = t.coerce service h' v := by
  rw [coerce, coerce, classify]
  cases t.unbox? v with
  | some e => rfl
  | none =>
    by_cases htext : v.isTextLike = true
    · have hshows := Value.showsArray_of_interpolatesArray hv (Or.inl htext)
      simp only [htext, if_true, (hservice h h' v hshows).1]
      cases service.character h' v with
      | error f => rfl
      | ok c => simp only [(hservice h h' (.character c) rfl).2 t]
    · by_cases hnumeric : v.isNumeric = true
      · have hshows := Value.showsArray_of_interpolatesArray hv (Or.inr hnumeric)
        simp only [htext, hnumeric, if_true, (hservice h h' v hshows).2 t]
        rfl
      · simp only [htext, hnumeric]
        rfl

/-! ### Placements -/

/-- An element that is to be put under an index of an array. -/
structure Placement where
  array : ArrayHandle
  index : Int64
  element : Element

/-- The heap after a placement. -/
def Heap.place (h : Heap) (p : Placement) : Except Fault Heap := h.put p.array p.index p.element

namespace Placement

/-- The slot that the index names, and the cell that it is in. -/
def target? (p : Placement) : Option (Nat × Nat) :=
  (resolveIndex p.index p.array.length).toOption.map fun i => (p.array.cell, i)

/-- The placements are in different slots, if in any. -/
def Apart (p q : Placement) : Prop := ∀ place, p.target? = some place → q.target? ≠ some place

theorem Apart.symm {p q : Placement} (h : p.Apart q) : q.Apart p :=
  fun place hq hp => h place hp hq

end Placement

theorem Storage.faultOf?_set (s : Storage) (i : Nat) (e : Element) :
    faultOf? (s.set i e) =
      if e.type = s.type then
        if i < s.length then none else some (.outOfRange (Int64.ofNat i) s.length)
      else some (.typeMismatch s.type.name e.type.name) := by
  rw [set]
  by_cases he : e.type = s.type
  · rw [dif_pos he, if_pos he]
    by_cases hi : i < s.slots.size
    · rw [dif_pos hi]
      exact (if_pos hi).symm
    · rw [dif_neg hi]
      exact (if_neg hi).symm
  · rw [dif_neg he, if_neg he]
    rfl

namespace Heap

variable {h h' : Heap}

/-- Heaps with the same shapes and the same elements are the same. -/
theorem eq_of_slot? (hshape : h.shape? = h'.shape?)
    (hslot : ∀ cell i, h.slot? cell i = h'.slot? cell i) : h = h' := by
  have hcells : h.cells = h'.cells := by
    refine Array.ext_getElem? fun cell => ?_
    have hcell := congrFun hshape cell
    rw [shape?, shape?] at hcell
    cases hs : h.cells[cell]? with
    | none =>
      rw [hs] at hcell
      exact (Option.map_eq_none_iff.mp hcell.symm).symm
    | some s =>
      rw [hs] at hcell
      obtain ⟨s', hs', hshapes⟩ := Option.map_eq_some_iff.mp hcell.symm
      rw [hs']
      -- storages are told apart by their types and their slots
      have hslots : s.slots = s'.slots := by
        refine Array.ext_getElem? fun i => ?_
        have hi := hslot cell i
        rwa [slot?, slot?, hs, hs'] at hi
      obtain ⟨type, slots, uniform⟩ := s
      obtain ⟨type', slots', uniform'⟩ := s'
      obtain rfl : slots = slots' := hslots
      obtain rfl : type' = type := (Prod.mk.inj hshapes).1
      rfl
  cases h
  cases h'
  exact congrArg Heap.mk hcells

theorem shape_storage_congr (hshape : h.shape? = h'.shape?) (a : ArrayHandle) :
    (h.storage a).type = (h'.storage a).type ∧ (h.storage a).length = (h'.storage a).length := by
  have hcell := congrFun hshape a.cell
  rw [shape?, shape?] at hcell
  rw [storage, storage, Array.getD_eq_getD_getElem?, Array.getD_eq_getD_getElem?]
  cases hs : h.cells[a.cell]? with
  | none =>
    rw [hs] at hcell
    rw [Option.map_eq_none_iff.mp hcell.symm]
    exact ⟨rfl, rfl⟩
  | some s =>
    rw [hs] at hcell
    obtain ⟨s', hs', hshapes⟩ := Option.map_eq_some_iff.mp hcell.symm
    rw [hs']
    exact ⟨(Prod.mk.inj hshapes).1.symm, (Prod.mk.inj hshapes).2.symm⟩

/-- Whether something can be placed does not depend on the elements that are there. -/
theorem faultOf?_place_congr (hshape : h.shape? = h'.shape?) (p : Placement) :
    faultOf? (h.place p) = faultOf? (h'.place p) := by
  obtain ⟨htype, hlength⟩ := shape_storage_congr hshape p.array
  rw [place, place, put, put]
  cases resolveIndex p.index p.array.length with
  | error f => rfl
  | ok i =>
    have hset := Storage.faultOf?_set (h.storage p.array) i p.element
    have hset' := Storage.faultOf?_set (h'.storage p.array) i p.element
    rw [htype, hlength, ← hset'] at hset
    simp only [bind, Except.bind]
    cases hs : (h.storage p.array).set i p.element <;>
      cases hs' : (h'.storage p.array).set i p.element <;> rw [hs, hs'] at hset
    · exact hset
    · cases hset
    · cases hset
    · rfl

theorem assigned_of_place {p : Placement} (hplace : h.place p = .ok h') :
    ∃ cell i, p.target? = some (cell, i) ∧ h.Assigned h' cell i p.element := by
  obtain ⟨i, hi, hassigned⟩ := assigned_of_put hplace
  refine ⟨p.array.cell, i, ?_, hassigned⟩
  rw [Placement.target?, hi]
  rfl

/-- Placements in different slots may be made in either order. -/
theorem place_comm {p q : Placement} (hapart : p.Apart q) {first second both both' : Heap}
    (hp : h.place p = .ok first) (hpq : first.place q = .ok both) (hq : h.place q = .ok second)
    (hqp : second.place p = .ok both') : both = both' := by
  obtain ⟨cell, i, htarget, hfirst⟩ := assigned_of_place hp
  obtain ⟨cell', i', htarget', hsecond⟩ := assigned_of_place hq
  obtain ⟨_, _, htarget'', hboth⟩ := assigned_of_place hpq
  obtain ⟨rfl, rfl⟩ := Prod.mk.inj (Option.some.inj (htarget'.symm.trans htarget''))
  obtain ⟨_, _, htarget'', hboth'⟩ := assigned_of_place hqp
  obtain ⟨rfl, rfl⟩ := Prod.mk.inj (Option.some.inj (htarget.symm.trans htarget''))
  have hne : ¬ (cell' = cell ∧ i' = i) := by
    rintro ⟨rfl, rfl⟩
    exact hapart _ htarget htarget'
  refine eq_of_slot? ?_ fun c j => ?_
  · rw [hboth.shape, hboth'.shape, hfirst.shape, hsecond.shape]
  · by_cases hslot : c = cell ∧ j = i
    · -- the slot of the one placement, which the other leaves alone
      obtain ⟨rfl, rfl⟩ := hslot
      rw [hboth'.slot, hboth.frame _ _ fun heq => hne ⟨heq.1.symm, heq.2.symm⟩, hfirst.slot]
    · rw [hboth'.frame _ _ hslot]
      by_cases hslot' : c = cell' ∧ j = i'
      · obtain ⟨rfl, rfl⟩ := hslot'
        rw [hboth.slot, hsecond.slot]
      · rw [hboth.frame _ _ hslot', hfirst.frame _ _ hslot, hsecond.frame _ _ hslot']

end Heap

/-! ### Plans -/

/-- What is left of an assignment once its operands have been looked at, and the calls to the
coercion service that it took. -/
structure Plan where
  placement : Except Fault Placement
  calls : CoercionCalls

/-- The heap after an assignment whose plan is carried out. -/
def Plan.outcome (plan : Plan) (h : Heap) : Except Fault Heap := plan.placement.bind h.place

/-- The reply to an assignment whose plan is carried out. -/
def Plan.carryOut (plan : Plan) (s : Store) : Reply :=
  let updated := s.update (plan.outcome s.heap)
  ⟨updated.1.map fun _ => .null, updated.2, plan.calls⟩

/-- The plan of the built-in assignment for arrays of the type. -/
def ElementType.plan (t : ElementType) (service : CoercionService) (h : Heap) (a : Assignment) :
    Plan :=
  match t.container a.receiver, a.index.logicalIndex with
  | .error f, _ => ⟨.error f, .none⟩
  | .ok _, .error f => ⟨.error f, .none⟩
  | .ok array, .ok logical =>
    let coerced := t.coerce service h a.value
    ⟨coerced.1.map fun e => ⟨array, logical, e⟩, coerced.2⟩

/-- The plan of an assignment where built-in handlers are in force. -/
def Dispatcher.plan (d : Dispatcher) (h : Heap) (a : Assignment) : Plan :=
  match a.receiver.elementType? with
  | some t => t.plan d.service h a
  | none => ⟨.error (noArray a.receiver), .none⟩

theorem Handler.assign_builtin (t : ElementType) (service : CoercionService) (s : Store)
    (a : Assignment) :
    (builtin t).assign service s a = (t.plan service s.heap a).carryOut s := by
  have hassign : t.assign service s.heap a =
      ((t.plan service s.heap a).outcome s.heap, (t.plan service s.heap a).calls) := by
    rw [ElementType.assign, ElementType.plan]
    cases t.container a.receiver with
    | error f => rfl
    | ok array =>
      cases a.index.logicalIndex with
      | error f => rfl
      | ok logical =>
        dsimp only
        cases (t.coerce service s.heap a.value).1 <;> rfl
  rw [assign, hassign]
  rfl

theorem Dispatcher.assign_eq_carryOut {d : Dispatcher} {s : Store} {a : Assignment}
    (hbuiltin : ∀ t, a.receiver.elementType? = some t →
      (s.registry d.registry).handler t = .builtin t) :
    d.assign s a = (d.plan s.heap a).carryOut s := by
  rw [plan]
  cases ht : a.receiver.elementType? with
  | none =>
    rw [assign, ht]
    rfl
  | some t =>
    rw [d.assign_of_elementType? s ht, hbuiltin t ht]
    exact Handler.assign_builtin t d.service s a

theorem Dispatcher.plan_congr {d : Dispatcher} (hservice : d.service.Steady) {a : Assignment}
    (ha : a.value.interpolatesArray = false) (h h' : Heap) : d.plan h a = d.plan h' a := by
  rw [plan, plan]
  cases a.receiver.elementType? with
  | none => rfl
  | some t =>
    dsimp only
    rw [ElementType.plan, ElementType.plan, ElementType.coerce_congr hservice ha t h h']

theorem ElementType.eq_array_of_container {t : ElementType} {v : Value} {array : ArrayHandle}
    (h : t.container v = .ok array) : v = .array array := by
  cases v with
  | array a =>
    rw [container] at h
    split at h
    · rw [Except.ok.inj h]
    · cases h
  | _ => cases h

/-- An assignment places something in its receiver and under its index. -/
theorem ElementType.operands_of_plan {t : ElementType} {service : CoercionService} {h : Heap}
    {a : Assignment} {p : Placement} (hplan : (t.plan service h a).placement = .ok p) :
    a.receiver = .array p.array ∧ a.index.logicalIndex = .ok p.index := by
  rw [plan] at hplan
  cases hcontainer : t.container a.receiver with
  | error f =>
    rw [hcontainer] at hplan
    cases hplan
  | ok array =>
    have hreceiver := eq_array_of_container hcontainer
    rw [hcontainer] at hplan
    cases hlogical : a.index.logicalIndex with
    | error f =>
      rw [hlogical] at hplan
      cases hplan
    | ok logical =>
      simp only [hlogical] at hplan
      cases hcoerce : (t.coerce service h a.value).1 with
      | error f =>
        rw [hcoerce] at hplan
        cases hplan
      | ok e =>
        rw [hcoerce] at hplan
        obtain rfl := Except.ok.inj hplan
        exact ⟨hreceiver, rfl⟩

/-- What is placed is placed where the assignment says. -/
theorem Dispatcher.target?_of_plan {d : Dispatcher} {h : Heap} {a : Assignment} {p : Placement}
    (hplan : (d.plan h a).placement = .ok p) {place : Nat × Nat} (hp : p.target? = some place) :
    a.target? = some place := by
  rw [plan] at hplan
  split at hplan
  · obtain ⟨hreceiver, hlogical⟩ := ElementType.operands_of_plan hplan
    obtain ⟨i, hi, rfl⟩ := Option.map_eq_some_iff.mp hp
    -- a container in which an index names a slot is not too long
    have hlength : p.array.length < 2 ^ 63 := by
      cases hresolve : resolveIndex p.index p.array.length with
      | error f =>
        rw [hresolve] at hi
        cases hi
      | ok i' => exact length_lt_of_resolveIndex hresolve
    rw [Assignment.target?, hreceiver, Value.handle?, Option.bind_some,
      Value.slot?_eq hlength hlogical, hi]
    rfl
  · cases hplan

namespace Plan

variable {s : Store}

theorem faultOf?_outcome_congr {h h' : Heap} (hshape : h.shape? = h'.shape?) (plan : Plan) :
    faultOf? (plan.outcome h) = faultOf? (plan.outcome h') := by
  rw [outcome, outcome]
  cases plan.placement with
  | error f => rfl
  | ok p => exact Heap.faultOf?_place_congr hshape p

theorem result_carryOut_congr {s' : Store} (hshape : s.heap.shape? = s'.heap.shape?)
    (plan : Plan) : (plan.carryOut s).result = (plan.carryOut s').result := by
  have hfault := faultOf?_outcome_congr hshape plan
  rw [carryOut, carryOut]
  cases ho : plan.outcome s.heap <;> cases ho' : plan.outcome s'.heap <;> rw [ho, ho'] at hfault
  · exact congrArg Except.error (Option.some.inj hfault)
  · cases hfault
  · cases hfault
  · rfl

theorem store_carryOut_of_error {plan : Plan} {f : Fault} (h : plan.outcome s.heap = .error f) :
    (plan.carryOut s).store = s := by
  rw [carryOut, h]
  rfl

theorem store_carryOut_of_ok {plan : Plan} {h : Heap} (hok : plan.outcome s.heap = .ok h) :
    (plan.carryOut s).store = { s with heap := h } := by
  rw [carryOut, hok]
  rfl

theorem exists_place {plan : Plan} {h h' : Heap} (hok : plan.outcome h = .ok h') :
    ∃ p, plan.placement = .ok p ∧ h.place p = .ok h' := by
  rw [outcome] at hok
  cases hp : plan.placement with
  | error f =>
    rw [hp] at hok
    cases hok
  | ok p =>
    rw [hp] at hok
    exact ⟨p, rfl, hok⟩

theorem shape_carryOut (plan : Plan) (s : Store) :
    (plan.carryOut s).store.heap.shape? = s.heap.shape? := by
  cases ho : plan.outcome s.heap with
  | error f => rw [store_carryOut_of_error ho]
  | ok h =>
    obtain ⟨p, -, hplace⟩ := exists_place ho
    obtain ⟨cell, i, -, hassigned⟩ := Heap.assigned_of_place hplace
    rw [store_carryOut_of_ok ho]
    exact hassigned.shape

theorem registry_carryOut (plan : Plan) (s : Store) :
    (plan.carryOut s).store.registry = s.registry :=
  s.registry_update _

/-- A plan fails in a heap with other elements if it fails in the one. -/
theorem outcome_eq_error {plan : Plan} {h h' : Heap} {f : Fault} (hf : plan.outcome h = .error f)
    (hshape : h'.shape? = h.shape?) : plan.outcome h' = .error f := by
  rw [← faultOf?_eq_some_iff, faultOf?_outcome_congr hshape, faultOf?_eq_some_iff, hf]

/-- And it succeeds if it does so in the one. -/
theorem exists_outcome {plan : Plan} {h h' heap : Heap} (hok : plan.outcome h = .ok heap)
    (hshape : h'.shape? = h.shape?) : ∃ heap', plan.outcome h' = .ok heap' := by
  cases ho : plan.outcome h' with
  | error f =>
    have herror := outcome_eq_error ho hshape.symm
    rw [hok] at herror
    cases herror
  | ok heap' => exact ⟨heap', rfl⟩

/-- Where both place something, they do so in different slots. -/
def Apart (plan plan' : Plan) : Prop :=
  ∀ p q, plan.placement = .ok p → plan'.placement = .ok q → p.Apart q

theorem Apart.symm {plan plan' : Plan} (h : plan.Apart plan') : plan'.Apart plan :=
  fun p q hp hq => (h q p hq hp).symm

/-- Plans for different slots may be carried out in either order. -/
theorem store_carryOut_comm {plan plan' : Plan} (hapart : plan.Apart plan') (s : Store) :
    (plan'.carryOut (plan.carryOut s).store).store =
      (plan.carryOut (plan'.carryOut s).store).store := by
  have hshape := plan.shape_carryOut s
  have hshape' := plan'.shape_carryOut s
  cases ho : plan.outcome s.heap with
  | error f =>
    rw [store_carryOut_of_error ho, store_carryOut_of_error (outcome_eq_error ho hshape')]
  | ok h =>
    cases ho' : plan'.outcome s.heap with
    | error f =>
      rw [store_carryOut_of_error ho', store_carryOut_of_error (outcome_eq_error ho' hshape)]
    | ok h' =>
      obtain ⟨both, hboth⟩ := exists_outcome ho' hshape
      obtain ⟨both', hboth'⟩ := exists_outcome ho hshape'
      rw [store_carryOut_of_ok hboth, store_carryOut_of_ok hboth']
      rw [store_carryOut_of_ok ho] at hboth ⊢
      rw [store_carryOut_of_ok ho'] at hboth' ⊢
      obtain ⟨p, hp, hplace⟩ := exists_place ho
      obtain ⟨q, hq, hplace'⟩ := exists_place ho'
      rw [outcome, hq] at hboth
      rw [outcome, hp] at hboth'
      exact congrArg (Store.mk · s.registry)
        (Heap.place_comm (hapart p q hp hq) hplace hboth hplace' hboth')

end Plan

end InlineCache
