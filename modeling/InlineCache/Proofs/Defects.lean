/-
Which fault a defective assignment reports.

An assignment can have several defects at once.  Each defect has its fault, and they are listed
here in the order of precedence (`Assignment.faults`, `callFaults`): the number of arguments, the
receiver, the index, the payload, what the coercion service objects to, and the bounds of the array.

* `CoercionService.typed_standard`: the standard service keeps to the element type it is asked for;
* `ElementType.faultOf?_assign`: the built-in assignment reports the first defect;
* `Step.result_of_request`: so does every way of asking for an assignment, and one that fails
  leaves the arrays and the registries as they are.

Design notes: the lists mention nothing of entries, guards or sites.  That a site looks at the
operands in an order of its own does not show.
-/
import InlineCache.Proofs.Assignments

namespace InlineCache

/-! ### Services that keep to the type they are asked for -/

namespace CoercionService

/-- What the service narrows to a type is an element of that type. -/
def Typed (service : CoercionService) : Prop :=
  ∀ h v t e, service.narrow h v t = .ok e → e.type = t

end CoercionService

theorem Element.type_ofWord (n : Int64) (t : ElementType) : (ofWord n t).type = t := by
  cases t <;> rfl

namespace NarrowingPolicy

variable (policy : NarrowingPolicy) {t : ElementType} {e : Element}

theorem type_narrowWord {n : Int64} (h : policy.narrowWord n t = .ok e) : e.type = t := by
  cases policy with
  | truncate =>
    obtain rfl := Except.ok.inj h
    exact Element.type_ofWord n t
  | checked =>
    rw [narrowWord] at h
    split at h
    · obtain rfl := Except.ok.inj h
      exact Element.type_ofWord n t
    · cases h

theorem type_narrowDouble {x : Binary .double} (h : policy.narrowDouble x t = .ok e) :
    e.type = t := by
  cases policy with
  | truncate =>
    cases t with
    | long | float | double =>
      obtain rfl := Except.ok.inj h
      rfl
    | byte | short | int => exact type_narrowWord .truncate h
  | checked =>
    cases t with
    | double =>
      obtain rfl := Except.ok.inj h
      rfl
    | float =>
      simp only [narrowDouble] at h
      split at h
      · cases h
      · obtain rfl := Except.ok.inj h
        rfl
    | byte | short | int | long =>
      -- an integer target takes whole numbers only
      simp only [narrowDouble] at h
      split at h
      · cases h
      · exact type_narrowWord _ h

theorem type_narrowInt {n : Int} (h : policy.narrowInt n t = .ok e) : e.type = t := by
  cases t with
  | float | double => exact type_narrowDouble policy h
  | byte | short | int | long =>
    cases policy with
    | truncate => exact type_narrowWord .truncate h
    | checked =>
      simp only [narrowInt] at h
      split at h
      · exact type_narrowWord _ h
      · cases h

end NarrowingPolicy

theorem CoercionService.typed_standard (policy : NarrowingPolicy) : (standard policy).Typed := by
  intro h v t e hnarrow
  change policy.narrow h v t = .ok e at hnarrow
  cases v with
  | byte | short | integer | long | character => exact NarrowingPolicy.type_narrowWord _ hnarrow
  | bigInteger => exact NarrowingPolicy.type_narrowInt policy hnarrow
  | float | double => exact NarrowingPolicy.type_narrowDouble policy hnarrow
  | null | boolean | string | template | array => cases hnarrow

/-! ### Defects and their faults -/

/-- The fault of an attempt that has failed. -/
def faultOf? {α : Type} : Except Fault α → Option Fault
  | .error f => some f
  | .ok _ => none

/-- An assignment takes an index and a value. -/
def arityFault? (args : List Value) : Option Fault :=
  if args.length = 2 then none
  else some (.typeMismatch "2 arguments" (toString args.length ++ " arguments"))

/-- Only arrays can be assigned to. -/
def receiverFault? (receiver : Value) : Option Fault :=
  if receiver.handle?.isSome then none
  else some (.typeMismatch "primitive array" receiver.typeName)

/-- Only integers are indices. -/
def indexFault? (index : Value) : Option Fault :=
  if index.isIntegral then none else some (.typeMismatch "Integer" index.typeName)

/-- Some values have nothing in common with elements. -/
def payloadFault? (t : ElementType) (value : Value) : Option Fault :=
  match value with
  | .null | .boolean _ | .array _ => some (.typeMismatch t.boxedName value.typeName)
  | _ => none

/-- The coercion service is asked for the character of a text and then for the element of that
character, or for the element of a number of another class; it may object at any time. -/
def coercionFault? (service : CoercionService) (h : Heap) (t : ElementType) (value : Value) :
    Option Fault :=
  if (t.unbox? value).isSome then none
  else if value.isTextLike then
    match service.character h value with
    | .ok c => faultOf? (service.narrow h (.character c) t)
    | .error f => some f
  else if value.isNumeric then faultOf? (service.narrow h value t)
  else none

/-- An index is less than the length, and a negative one no less than the length negated.  The
fault shows the word nearest to the index. -/
def boundsFault? (length : Nat) (index : Value) : Option Fault :=
  index.whole?.bind fun n =>
    if -length ≤ n ∧ n < length then none else some (.outOfRange (Word.saturate n) length)

/-- The faults of the defects that an assignment can have, in order of precedence. -/
def Assignment.faults (service : CoercionService) (h : Heap) (a : Assignment) :
    List (Option Fault) :=
  receiverFault? a.receiver :: indexFault? a.index ::
    match a.receiver.handle? with
    | some array =>
      [payloadFault? array.type a.value, coercionFault? service h array.type a.value,
        boundsFault? array.length a.index]
    | none => []

/-- The faults of the defects that a call with a list of arguments can have, in order of
precedence. -/
def callFaults (service : CoercionService) (h : Heap) (receiver : Value) (args : List Value) :
    List (Option Fault) :=
  arityFault? args ::
    match args with
    | [index, value] => (Assignment.mk receiver index value).faults service h
    | _ => []

/-! ### What the built-in assignment reports -/

namespace ElementType

variable {t : ElementType} {service : CoercionService} {h : Heap} {v : Value} {e : Element}

theorem type_of_coerce (hservice : service.Typed) (hcoerce : (t.coerce service h v).1 = .ok e) :
    e.type = t := by
  rw [coerce] at hcoerce
  split at hcoerce
  · rename_i element hexact
    obtain rfl := Except.ok.inj hcoerce
    exact type_of_unbox? (classify_eq_exact_iff.mp hexact)
  · split at hcoerce
    · exact hservice _ _ _ _ hcoerce
    · cases hcoerce
  · exact hservice _ _ _ _ hcoerce
  · cases hcoerce

theorem payloadFault?_eq (t : ElementType) (v : Value) :
    payloadFault? t v =
      if v.isTextLike = true ∨ v.isNumeric = true then none else some (t.mismatch v) := by
  cases v <;> rfl

/-- Coercion reports a payload that does not fit, and else what the service objects to. -/
theorem faultOf?_coerce :
    faultOf? (t.coerce service h v).1 = (payloadFault? t v).or (coercionFault? service h t v) := by
  rw [coerce, classify, payloadFault?_eq, coercionFault?]
  cases hunbox : t.unbox? v with
  | some e =>
    rw [if_pos (Or.inr (isNumeric_of_unbox? hunbox))]
    rfl
  | none =>
    by_cases htext : v.isTextLike = true
    · simp only [htext, if_true, true_or, Option.none_or, Option.isSome_none]
      cases service.character h v <;> rfl
    · by_cases hnumeric : v.isNumeric = true
      · simp only [htext, hnumeric, if_true, or_true, Option.none_or, Option.isSome_none]
        rfl
      · simp only [htext, hnumeric, or_self]
        rfl

theorem findSome?_faults (service : CoercionService) (h : Heap) (array : ArrayHandle)
    (index value : Value) :
    ((Assignment.mk (.array array) index value).faults service h).findSome? id =
      (indexFault? index).or (((payloadFault? array.type value).or
        (coercionFault? service h array.type value)).or (boundsFault? array.length index)) := by
  simp only [Assignment.faults, receiverFault?, Value.handle?, Option.isSome_some, if_true,
    List.findSome?_cons, List.findSome?_nil, id]
  cases indexFault? index <;> cases payloadFault? array.type value <;>
      cases coercionFault? service h array.type value <;>
        cases boundsFault? array.length index <;> rfl

/-- The built-in assignment reports the first defect. -/
theorem faultOf?_assign {array : ArrayHandle} (hholds : h.Holds array)
    (hservice : service.Typed) (index value : Value) :
    faultOf? (array.type.assign service h ⟨.array array, index, value⟩).1 =
      ((Assignment.mk (.array array) index value).faults service h).findSome? id := by
  rw [findSome?_faults, assign, container, if_pos rfl, Value.logicalIndex_eq, indexFault?,
    ← Value.isSome_whole?, ← faultOf?_coerce]
  cases hindex : index.whole? with
  | none => rfl
  | some n =>
    simp only [Option.isSome_some, if_true, Option.none_or]
    cases hcoerce : (array.type.coerce service h value).1 with
    | error f => rfl
    | ok e =>
      -- all is well up to the bounds
      have hslot := Value.resolve_of_whole? hholds.length_lt n
      show faultOf? (h.put array (Word.saturate n) e) = boundsFault? array.length index
      rw [boundsFault?, hindex, Option.bind_some]
      by_cases hrange : -array.length ≤ n ∧ n < array.length
      · rw [if_pos hrange] at hslot
        obtain ⟨h', hput, -⟩ := Heap.exists_put hholds hslot (type_of_coerce hservice hcoerce)
        rw [hput, if_pos hrange]
        rfl
      · rw [if_neg hrange] at hslot
        rw [Heap.put_eq_error hslot, if_neg hrange]
        rfl

end ElementType

/-! ### What every path reports -/

/-- The reply tells the first of some faults, and with a fault the store is as it was. -/
structure Reply.Tells (reply : Reply) (s : Store) (faults : List (Option Fault)) : Prop where
  result : reply.result = (faults.findSome? id).elim (.ok .null) .error
  store : ∀ f, reply.result = .error f → reply.store = s

/-- A handler that changes nothing but the heap leaves the store as it is when it fails. -/
theorem Handler.tells_builtin {t : ElementType} {service : CoercionService} {s : Store}
    {a : Assignment} {faults : List (Option Fault)}
    (h : faultOf? (t.assign service s.heap a).1 = faults.findSome? id) :
    ((Handler.builtin t).assign service s a).Tells s faults := by
  rw [Handler.assign]
  cases hassign : (t.assign service s.heap a).1 with
  | ok heap =>
    rw [hassign] at h
    refine ⟨by rw [← h]; rfl, fun f hf => ?_⟩
    cases hf
  | error f =>
    rw [hassign] at h
    exact ⟨by rw [← h]; rfl, fun _ _ => rfl⟩

theorem callFaults_of_length (service : CoercionService) (h : Heap) (receiver : Value)
    {args : List Value} (hargs : args.length ≠ 2) :
    (callFaults service h receiver args).findSome? id =
      some (.typeMismatch "2 arguments" (toString args.length ++ " arguments")) := by
  unfold callFaults
  rw [arityFault?, if_neg hargs]
  rfl

/-- Under the built-in handler of the receiver's type, a generic assignment tells the first
defect. -/
theorem Dispatcher.tells_apply {d : Dispatcher} {s : Store} {receiver : Value}
    (hservice : d.service.Typed)
    (hreceiver : ∀ array, receiver = .array array → s.heap.Holds array ∧
      (s.registry d.registry).handler array.type = .builtin array.type) (args : List Value) :
    (d.apply s receiver args).Tells s (callFaults d.service s.heap receiver args) := by
  match args with
  | [] | [_] | _ :: _ :: _ :: _ =>
    refine ⟨?_, fun _ _ => rfl⟩
    rw [callFaults_of_length _ _ _ (by simp)]
    rfl
  | [index, value] =>
    cases receiver with
    | array array =>
      obtain ⟨hholds, hhandler⟩ := hreceiver array rfl
      have hfaults : faultOf? (array.type.assign d.service s.heap ⟨.array array, index, value⟩).1 =
          (callFaults d.service s.heap (.array array) [index, value]).findSome? id :=
        ElementType.faultOf?_assign hholds hservice index value
      show (d.assign s ⟨.array array, index, value⟩).Tells s _
      rw [Dispatcher.assign_of_elementType? d s rfl, hhandler]
      exact Handler.tells_builtin hfaults
    | _ => exact ⟨rfl, fun _ _ => rfl⟩

namespace Step

/-- **One order of precedence on every path, and no half-done assignments.**  Let the built-in
handler of the receiver's type be in force, if the receiver is an array, in the registry of a
dispatcher with a service that keeps to the types it is asked for.  Whatever receiver and arguments
a step gives this dispatcher to assign, directly or through any call site in any state, it answers
the fault of the first defect in the list, or `null` if there is none; and if it fails, all arrays
and registries stay as they are. -/
theorem result_of_request (dispatchers : Nat → Dispatcher) (w : World) {step : Step} {d : Nat}
    {receiver : Value} {args : List Value}
    (hstep : step.request? = some (d, receiver, args))
    (hservice : (dispatchers d).service.Typed)
    (hreceiver : ∀ array, receiver = .array array → w.store.heap.Holds array ∧
      (w.store.registry (dispatchers d).registry).handler array.type = .builtin array.type) :
    (step.run dispatchers w).1 =
        ((callFaults (dispatchers d).service w.store.heap receiver args).findSome? id).elim
          (.ok (.value .null)) .error ∧
      ∀ f, (step.run dispatchers w).1 = .error f → (step.run dispatchers w).2.store = w.store := by
  have htells := Dispatcher.tells_apply hservice hreceiver args
  obtain ⟨hanswer, hstore⟩ := run_of_request (w := w) hstep (by
    intro t ht
    obtain ⟨array, rfl, rfl⟩ := Value.exists_array ht
    exact (hreceiver array rfl).2)
  rw [hanswer, hstore, htells.result]
  cases hfirst : (callFaults (dispatchers d).service w.store.heap receiver args).findSome? id with
  | none =>
    refine ⟨rfl, fun f hf => ?_⟩
    cases hf
  | some f =>
    refine ⟨rfl, fun _ _ => htells.store f ?_⟩
    rw [htells.result, hfirst]
    rfl

/-! A site with an entry, and a call on it whose payload and whose index are both of no use. -/

def warmed : World :=
  (World.fresh threeShorts).after oneRegistry
    [applyAt 0 .standalone 7 shorts [.integer 0, .short 5]]

def twiceDefective : Step := assignAt 0 .standalone 7 ⟨shorts, .integer 3, .null⟩

theorem result_of_request_twiceDefective :
    twiceDefective.request? = some (0, shorts, [.integer 3, .null]) ∧
    (oneRegistry 0).service.Typed ∧
    (∀ array, shorts = .array array → warmed.store.heap.Holds array ∧
      (warmed.store.registry 0).handler array.type = .builtin array.type) ∧
    (twiceDefective.run oneRegistry warmed).1 = .error (.typeMismatch "Short" "null") ∧
    (twiceDefective.run oneRegistry warmed).2.store = warmed.store := by
  have hstep : twiceDefective.request? = some (0, shorts, [.integer 3, .null]) := rfl
  have hservice : (oneRegistry 0).service.Typed := CoercionService.typed_standard .truncate
  have hreceiver : ∀ array, shorts = .array array → warmed.store.heap.Holds array ∧
      (warmed.store.registry 0).handler array.type = .builtin array.type := by
    intro array harray
    obtain rfl := Value.array.inj harray
    exact ⟨⟨by decide +kernel, by decide⟩, rfl⟩
  obtain ⟨hanswer, hstore⟩ := result_of_request oneRegistry warmed hstep hservice hreceiver
  have hfault : (twiceDefective.run oneRegistry warmed).1 =
      .error (.typeMismatch "Short" "null") := hanswer.trans rfl
  exact ⟨hstep, hservice, hreceiver, hfault, hstore _ hfault⟩

end Step

end InlineCache
