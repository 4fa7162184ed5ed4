/-
Elements stay what they are.

An element that is boxed, and narrowed to its own type again, is the same element under both
policies: an integer is in the range of its type, and a `float` comes back from `double` with its
sign and all its digits.  So the built-in assignment, which stores a payload of exactly the right
class without asking anyone, stores what a service would have answered; and to assign to a slot what
has been read from it changes nothing.

* `Binary.convert_convert_double`: the way from `float` to `double` and back;
* `NarrowingPolicy.narrow_box`: narrowing keeps an element;
* `Heap.put_self`: putting an element where it is keeps the heap;
* `Step.elements_stable`: what has been narrowed, unboxed or read stays what it is.
-/
import InlineCache.Proofs.Effectiveness
import InlineCache.Proofs.Overflow

namespace InlineCache

/-! ### Boxes -/

theorem Element.unbox?_box (e : Element) : e.type.unbox? e.box = some e := by
  cases e <;> rfl

/-- What is boxed in the class of an element type is the box of an element. -/
theorem ElementType.eq_box_of_unbox? {t : ElementType} {v : Value} {e : Element}
    (hunbox : t.unbox? v = some e) : v = e.box := by
  unfold unbox? at hunbox
  split at hunbox
  case h_7 => cases hunbox
  all_goals
    obtain rfl := Option.some.inj hunbox
    rfl

/-! ### Narrowing an element -/

/-- The magnitude of a single is still one of 24 bits after its conversion. -/
theorem Binary.convert_convert_double (x : Binary .single) :
    (x.convert .double).convert .single = x := by
  cases x with
  | nan => rfl
  | infinite _ => rfl
  | finite negative m k h =>
    have hx : (finite negative m k h).Magnitude negative (units m k) := ⟨m, k, h, rfl, rfl⟩
    have hback := ofUnits_convert_single hx.convert_double
    rw [h.nearest 925] at hback
    exact (hback.magnitude h.units_lt_overflow).unique hx

theorem Binary.isFinite_convert_double (x : Binary .single) :
    (x.convert .double).isFinite = x.isFinite := by
  rw [Bool.eq_iff_iff, isFinite_iff, isFinite_iff, reading_convert_double]

theorem Element.inWidth_of_whole? {e : Element} {w : Nat} {n : Int}
    (hw : e.type.width? = some w) (hn : e.whole? = some n) : InWidth w n := by
  cases e with
  | byte x | short x | int x | long x =>
    obtain rfl := Option.some.inj hw
    obtain rfl := Option.some.inj hn
    exact ⟨x.le_toInt, x.toInt_lt⟩
  | float | double => cases hw

namespace NarrowingPolicy

/-- The element of an integer type is in the range of the type, and its own low bits. -/
theorem narrow_box_of_whole? (policy : NarrowingPolicy) (h : Heap) {e : Element} {w : Nat} {n : Int}
    (hw : e.type.width? = some w) (hn : e.whole? = some n) (hcode : e.box.code? = some n) :
    policy.narrow h e.box e.type = .ok e := by
  have hrange := Element.inWidth_of_whole? hw hn
  have hwhole := Element.whole?_ofWord_ofInt hw n
  rw [hrange.bmod_eq (ElementType.width?_bounds hw).1] at hwhole
  have hsame : Element.ofWord (Int64.ofInt n) e.type = e :=
    Element.eq_of_whole? (Element.type_ofWord _ _) hwhole hn
  cases policy with
  | truncate => rw [truncate_narrow hcode hw, hsame]
  | checked => rw [checked_narrow hcode hw hrange, hsame]

theorem narrow_box_single (policy : NarrowingPolicy) (h : Heap) (x : Binary .single) :
    policy.narrow h (.float x) .float = .ok (.float x) := by
  cases policy with
  | truncate => exact congrArg (fun y => Except.ok (Element.float y)) x.convert_convert_double
  | checked =>
    -- infinite singles are infinite as doubles, so no overflow is seen
    have hback : Format.ofDouble .single (x.convert .double) = x := x.convert_convert_double
    have hnarrow := checked_narrowDouble_type (x.convert .double) .single
    rw [hback, x.isFinite_convert_double, Bool.and_not_self] at hnarrow
    exact hnarrow

/-- Narrowing keeps an element of the target. -/
theorem narrow_box (policy : NarrowingPolicy) (h : Heap) (e : Element) :
    policy.narrow h e.box e.type = .ok e := by
  cases e with
  | byte | short | int | long => exact narrow_box_of_whole? policy h rfl rfl rfl
  | float x => exact narrow_box_single policy h x
  | double x => cases policy <;> rfl

/-- So it makes no difference whether an exact payload is narrowed or unboxed. -/
theorem narrow_of_unbox? (policy : NarrowingPolicy) (h : Heap) {t : ElementType} {v : Value}
    {e : Element} (hunbox : t.unbox? v = some e) : policy.narrow h v t = .ok e := by
  obtain rfl : e.type = t := ElementType.type_of_unbox? hunbox
  rw [ElementType.eq_box_of_unbox? hunbox]
  exact policy.narrow_box h e

end NarrowingPolicy

/-! ### Assigning what is there -/

theorem Storage.set_self {s : Storage} {i : Nat} {e : Element} (he : s.get? i = some e) :
    s.set i e = .ok s := by
  obtain ⟨hi, rfl⟩ := Array.getElem?_eq_some_iff.mp he
  rw [set, dif_pos (s.uniform _ (Array.getElem_mem hi)), dif_pos hi]
  simp only [Array.set_getElem_self]

theorem Heap.put_self {h : Heap} {a : ArrayHandle} {logical : Int64} {i : Nat} {e : Element}
    (hi : resolveIndex logical a.length = .ok i) (he : (h.storage a).get? i = some e) :
    h.put a logical e = .ok h := by
  have hlt : i < (h.storage a).length := (Array.getElem?_eq_some_iff.mp he).1
  obtain ⟨hcell, hstorage⟩ := Array.getElem?_eq_some_iff.mp (getElem?_of_lt_length hlt)
  rw [put, hi]
  show (h.storage a).set i e >>= _ = _
  rw [Storage.set_self he]
  show Except.ok (Heap.mk (h.cells.setIfInBounds a.cell (h.storage a))) = _
  rw [Array.setIfInBounds_def, dif_pos hcell, ← hstorage, Array.set_getElem_self]

/-- A boxed element is taken out of its box, by no calls. -/
theorem ElementType.coerce_box (e : Element) (service : CoercionService) (h : Heap) :
    e.type.coerce service h e.box = (.ok e, .none) := by
  rw [coerce, classify_eq_exact_iff.mpr e.unbox?_box]

/-- To assign to a slot the element that it has changes nothing, and takes no calls. -/
theorem ElementType.assign_self {h : Heap} {array : ArrayHandle} (hholds : h.Holds array)
    {index : Value} {i : Nat} (hindex : index.Denotes array.length i) {e : Element}
    (he : (h.storage array).get? i = some e) (htype : e.type = array.type)
    (service : CoercionService) :
    array.type.assign service h ⟨.array array, index, e.box⟩ = (.ok h, .none) := by
  obtain ⟨logical, hlogical, hi⟩ := hindex.resolve hholds.length_lt
  have hput := Heap.put_self hi he
  simp only [assign, container, if_true, hlogical, ← htype, coerce_box]
  exact congrArg (fun result => (result, CoercionCalls.none)) hput

/-- Reading a slot gives the box of an element of the type of the array. -/
theorem Dispatcher.exists_read {s : Store} {array : ArrayHandle} (hholds : s.heap.Holds array)
    {index : Value} {i : Nat} (hindex : index.Denotes array.length i) :
    ∃ e, (s.heap.storage array).get? i = some e ∧ e.type = array.type ∧
      read s (.array array) index = .ok e.box := by
  obtain ⟨logical, hlogical, hi⟩ := hindex.resolve hholds.length_lt
  have hlt : i < (s.heap.storage array).length := by
    rw [hholds.length_storage]
    exact hindex.1
  refine ⟨_, Array.getElem?_eq_getElem hlt, ?_, ?_⟩
  · exact ((s.heap.storage array).uniform _ (Array.getElem_mem hlt)).trans hholds.type_storage
  · have hget := Heap.get_eq_ok hholds hi
      ((hholds.slot?_eq i).trans (Array.getElem?_eq_getElem hlt))
    simp only [read, Value.handle?, hlogical]
    show (s.heap.get array logical >>= _) = _
    rw [hget]
    rfl

namespace Step

variable {dispatchers : Nat → Dispatcher} {w : World} {step : Step} {d : Nat} {array : ArrayHandle}

/-- Whichever way an assignment is asked for, the element of a slot can be assigned to the slot
without a trace but for the counts of the site. -/
theorem run_self (hholds : w.store.heap.Holds array)
    (hbuiltin : (w.store.registry (dispatchers d).registry).handler array.type =
      .builtin array.type)
    {index : Value} {i : Nat} (hindex : index.Denotes array.length i) {e : Element}
    (he : (w.store.heap.storage array).get? i = some e) (htype : e.type = array.type)
    (hstep : step.request? = some (d, .array array, [index, e.box])) :
    (step.run dispatchers w).1 = .ok (.value .null) ∧
      (step.run dispatchers w).2.store = w.store ∧ (step.run dispatchers w).2.tally = w.tally := by
  have hreply : (dispatchers d).apply w.store (.array array) [index, e.box] =
      ⟨.ok .null, w.store, .none⟩ := by
    show (dispatchers d).assign w.store ⟨.array array, index, e.box⟩ = _
    rw [Dispatcher.assign_of_elementType? (dispatchers d) w.store rfl, hbuiltin, Handler.assign,
      ElementType.assign_self hholds hindex he htype]
    rfl
  have hforced : ∀ t, (Value.array array).elementType? = some t →
      (w.store.registry (dispatchers d).registry).handler t = .builtin t := by
    rintro t ht
    obtain rfl := Option.some.inj ht
    exact hbuiltin
  obtain ⟨hanswer, hstore⟩ := run_of_request hstep hforced
  have hobserved := observed_run_of_request hstep hforced
  rw [hreply] at hanswer hstore hobserved
  refine ⟨hanswer, hstore, ?_⟩
  exact (congrArg (fun shown => shown.2.2) hobserved).trans (w.tally_count_none d)

/-- **Elements stay what they are.**  The element that a value is narrowed to is of the target, is
what unboxing its box gives, and is what its box is narrowed to, again and under either policy.  A
payload that is boxed in exactly the class of an element type is narrowed, under either policy, to
the element that unboxing gives, so the service that is not asked for it would have made no
difference.  And where the built-in handler of an array's type is in force, each slot can be read,
under each index of the slot; to assign the value to the slot again, under this or another index of
it, directly or through any call site, succeeds, leaves the arrays and the registries as they are,
and asks no coercion service. -/
theorem elements_stable :
    (∀ (policy : NarrowingPolicy) h v t e, policy.narrow h v t = .ok e →
      e.type = t ∧ t.unbox? e.box = some e ∧
        ∀ (policy' : NarrowingPolicy) h', policy'.narrow h' e.box t = .ok e) ∧
    (∀ (t : ElementType) v e, t.classify v = .exact e →
      ∀ (policy : NarrowingPolicy) h, policy.narrow h v t = .ok e) ∧
    ∀ (dispatchers : Nat → Dispatcher) (w : World) d (array : ArrayHandle) (index : Value) i,
      w.store.heap.Holds array →
      (w.store.registry (dispatchers d).registry).handler array.type = .builtin array.type →
      index.Denotes array.length i →
        ∃ v, Dispatcher.read w.store (.array array) index = .ok v ∧
          ∀ (index' : Value) (step : Step), index'.Denotes array.length i →
            step.request? = some (d, .array array, [index', v]) →
              (step.run dispatchers w).1 = .ok (.value .null) ∧
              (step.run dispatchers w).2.store = w.store ∧
              (step.run dispatchers w).2.tally = w.tally := by
  refine ⟨fun policy h v t e hnarrow => ?_, fun t v e hexact policy h => ?_,
    fun dispatchers w d array index i hholds hbuiltin hindex => ?_⟩
  · obtain rfl : e.type = t := CoercionService.typed_standard policy h v t e hnarrow
    exact ⟨rfl, e.unbox?_box, fun policy' h' => policy'.narrow_box h' e⟩
  · exact policy.narrow_of_unbox? h (ElementType.classify_eq_exact_iff.mp hexact)
  · obtain ⟨e, he, htype, hread⟩ := Dispatcher.exists_read hholds hindex
    exact ⟨e.box, hread, fun index' step hindex' hstep =>
      run_self hholds hbuiltin hindex' he htype hstep⟩

/-! The least `float`, an infinity and a negative zero: narrowed from a `double` under the checked
policy, taken as an exact payload, and read and assigned again through a site that has an entry. -/

def threeFloats : Heap :=
  ⟨#[⟨.float, #[.float (.ofBits .single 1), .float (.infinite true), .float (.zero _ true)],
    by decide⟩]⟩

def floats : Value := .array ⟨0, .float, 3⟩

theorem elements_stable_floats :
    let least : Element := .float (.ofBits .single 1)
    let start := World.fresh threeFloats
    let before := start.after oneRegistry
      [applyAt 0 .standalone 7 floats [.integer 0, .float (.ofBits .single 1)]]
    let again := assignAt 0 .standalone 7 ⟨floats, .integer (-1), .float (.zero _ true)⟩
    NarrowingPolicy.checked.narrow .empty (.double ((Binary.ofBits .single 1).convert .double))
      .float = .ok least ∧
    NarrowingPolicy.truncate.narrow .empty least.box .float = .ok least ∧
    ElementType.float.classify (.float (.infinite true)) = .exact (.float (.infinite true)) ∧
    NarrowingPolicy.checked.narrow .empty (.float (.infinite true)) .float =
      .ok (.float (.infinite true)) ∧
    before.store.heap.Holds ⟨0, .float, 3⟩ ∧
    (before.store.registry 0).handler .float = .builtin .float ∧
    (Value.bigInteger 2).Denotes 3 2 ∧ (Value.integer (-1)).Denotes 3 2 ∧
    Dispatcher.read before.store floats (.bigInteger 2) = .ok (.float (.zero _ true)) ∧
    again.request? = some (0, floats, [.integer (-1), .float (.zero _ true)]) ∧
    (again.run oneRegistry before).1 = .ok (.value .null) ∧
    (again.run oneRegistry before).2.store = before.store ∧
    (again.run oneRegistry before).2.tally = before.tally := by
  intro least start before again
  obtain ⟨hnarrowing, hpayloads, hslots⟩ := elements_stable
  have hleast : NarrowingPolicy.checked.narrow .empty
      (.double ((Binary.ofBits .single 1).convert .double)) .float = .ok least := by
    decide +kernel
  have hexact : ElementType.float.classify (.float (.infinite true)) =
      .exact (.float (.infinite true)) := rfl
  have hholds : before.store.heap.Holds ⟨0, .float, 3⟩ := ⟨by decide +kernel, by decide⟩
  have hbuiltin : (before.store.registry 0).handler .float = .builtin .float := rfl
  have hfront : (Value.bigInteger 2).Denotes 3 2 := ⟨by decide, Or.inl rfl⟩
  have hback : (Value.integer (-1)).Denotes 3 2 := ⟨by decide, Or.inr rfl⟩
  have hread : Dispatcher.read before.store floats (.bigInteger 2) =
      .ok (.float (.zero _ true)) := by rfl
  have hstep : again.request? = some (0, floats, [.integer (-1), .float (.zero _ true)]) := rfl
  obtain ⟨v, hv, hsame⟩ := hslots oneRegistry before 0 ⟨0, .float, 3⟩ (.bigInteger 2) 2 hholds
    hbuiltin hfront
  obtain rfl : v = .float (.zero _ true) := Except.ok.inj (hv.symm.trans hread)
  exact ⟨hleast, (hnarrowing _ _ _ _ _ hleast).2.2 .truncate .empty, hexact,
    hpayloads _ _ _ hexact .checked .empty, hholds, hbuiltin, hfront, hback, hread, hstep,
    hsame _ again hback hstep⟩

end Step

end InlineCache
