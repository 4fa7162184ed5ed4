/-
Entries and the built-in assignment.

An entry looks at the receiver, the index and the payload by itself, and asks no coercion service.
All the same it does nothing that the built-in assignment of its element type would not do, and it
is made for exactly the calls that it can serve.

* `Entry.outcome_cases`: all that an entry can do with an assignment, in either form of a call;
* `Entry.never_disagrees`: where it answers, it answers for the built-in assignment;
* `Dispatcher.link_specialized_iff`: linking goes by the names of the operands' classes, and so does
  the check of an entry, although it looks at the operands themselves;
* `Dispatcher.link_agrees_check`: linking makes an entry exactly where one would take the call, and
  the entry then serves it.
-/
import InlineCache.Proofs.Effectiveness
import InlineCache.Proofs.Handles

namespace InlineCache

/-! ### What an entry does -/

/-- The heap that an outcome leaves. -/
def EntryOutcome.heap (h : Heap) : EntryOutcome → Heap
  | .done _ h' => h'
  | .fallback _ | .fault _ => h

namespace Entry

variable {e : Entry} {r : Registry} {a : Assignment}

theorem admits_iff : e.admits r a = true ↔
    e.guard = r.version e.type ∧ a.receiver.elementType? = some e.type ∧
      ∃ i, a.index = .integer i := by
  constructor
  · intro h
    exact ⟨valid_iff.mp (valid_of_admits h), elementType?_of_admits h, exists_integer_of_admits h⟩
  · rintro ⟨hguard, hreceiver, i, hi⟩
    simp only [admits, valid_iff.mpr hguard, hreceiver, hi, beq_self_eq_true, Bool.and_self]

theorem performs_iff : e.performs r a = true ↔ e.guard = r.version e.type ∧ a.Exact e.type := by
  rw [performs, Bool.and_eq_true, admits_iff]
  constructor
  · rintro ⟨⟨hguard, hreceiver, hindex⟩, hpayload⟩
    exact ⟨hguard, hreceiver, hindex, hpayload⟩
  · rintro ⟨hguard, hreceiver, hindex, hpayload⟩
    exact ⟨⟨hguard, hreceiver, hindex⟩, hpayload⟩

theorem answers_iff : e.answers r a = true ↔
    (e.guard = r.version e.type ∧ a.receiver.elementType? = some e.type ∧
      ∃ i, a.index = .integer i) ∧
      ((e.type.unbox? a.value).isSome = true ∨ e.type.classify a.value = .incompatible) := by
  rw [answers, performs, refuses, ← Bool.and_or_distrib_left, Bool.and_eq_true, admits_iff,
    Bool.or_eq_true, beq_iff_eq]

/-- An entry stores a payload of its class, or it objects to one that has no coercion, if the form
of the call lets it, or it hands the assignment back. -/
theorem outcome_cases (e : Entry) (r : Registry) (heap : Heap) (a : Assignment) :
    let listed := e.apply r heap a.receiver [a.index, a.value]
    let direct := e.assign r heap a
    (e.performs r a = true ∧ ∃ i element, a.index = .integer i ∧
      a.receiver.elementType? = some element.type ∧
      listed = store heap a.receiver i element ∧ direct = store heap a.receiver i element) ∨
    (e.performs r a = false ∧ e.refuses r a = true ∧ listed = .fallback .mismatchedPayload ∧
      direct = .fault (e.type.mismatch a.value)) ∨
    (e.answers r a = false ∧ ∃ reason, listed = .fallback reason ∧ direct = .fallback reason) := by
  intro listed direct
  by_cases hperforms : e.performs r a = true
  · obtain ⟨hguard, ha⟩ := performs_iff.mp hperforms
    obtain ⟨i, element, hi, htype, hstore⟩ :=
      exists_store_of_exact ha (valid_iff.mpr hguard) heap
    exact Or.inl ⟨hperforms, i, element, hi, ha.receiver.trans (congrArg some htype.symm), hstore⟩
  by_cases hrefuses : e.refuses r a = true
  · exact Or.inr (Or.inl ⟨Bool.eq_false_iff.mpr hperforms, hrefuses,
      apply_of_refuses hrefuses heap, assign_of_refuses hrefuses heap⟩)
  · have hanswers : e.answers r a = false := by simp [answers, hperforms, hrefuses]
    have hsame : listed = direct := apply_eq_assign (Bool.eq_false_iff.mpr hrefuses) heap
    have hnone : direct.reply? ⟨heap, fun _ => r⟩ = none := by
      have hreply := e.reply?_assign r (.standard .truncate) ⟨heap, fun _ => r⟩ a
      rw [hanswers, if_neg Bool.false_ne_true] at hreply
      exact hreply
    refine Or.inr (Or.inr ⟨hanswers, ?_⟩)
    rw [hsame]
    cases hdirect : direct with
    | fallback reason => exact ⟨reason, rfl, rfl⟩
    | done | fault =>
      rw [hdirect] at hnone
      cases hnone

/-- Storing in an array of the heap fails only for want of a slot. -/
theorem fault_of_store {heap : Heap} {receiver : Value} {i : Int32} {element : Element} {f : Fault}
    (hheld : receiver.HeldBy heap) (htype : receiver.elementType? = some element.type)
    (h : store heap receiver i element = .fault f) :
    ∃ array, receiver = .array array ∧ f = .outOfRange i.toInt64 array.length := by
  obtain ⟨array, rfl, hown⟩ := Value.exists_array htype
  have hholds := hheld array rfl
  refine ⟨array, rfl, ?_⟩
  simp only [store, Value.handle?] at h
  cases hput : heap.put array i.toInt64 element with
  | ok heap' =>
    rw [hput] at h
    cases h
  | error f' =>
    rw [hput] at h
    obtain rfl := EntryOutcome.fault.inj h
    have hfault := hholds.faultOf?_put i.toInt64 hown.symm
    rw [hput, eq_comm] at hfault
    exact ((faultOf?_resolveIndex hholds.length_lt i.toInt64 f').mp hfault).2

theorem store_ne_fallback {heap : Heap} {receiver : Value} {i : Int32} {element : Element}
    (htype : receiver.elementType? = some element.type) (reason : FallbackReason) :
    store heap receiver i element ≠ .fallback reason := by
  obtain ⟨array, rfl, -⟩ := Value.exists_array htype
  simp only [store, Value.handle?]
  split <;> exact fun h => by cases h

end Entry

/-! ### Answers for the built-in assignment -/

theorem Handler.eq_null_of_builtin {t : ElementType} {service : CoercionService} {s : Store}
    {a : Assignment} {v : Value} (h : ((builtin t).assign service s a).result = .ok v) :
    v = .null := by
  rw [assign] at h
  cases hassign : (t.assign service s.heap a).1 with
  | ok heap =>
    rw [hassign] at h
    exact (Except.ok.inj h).symm
  | error f =>
    rw [hassign] at h
    cases h

/-- What an outcome says is said for another reply: a performed assignment has the same answer and
leaves the same store, and a fault is the same fault, with the arrays as they were.  Handing the
assignment back leaves them as they were, too. -/
structure EntryOutcome.SpeaksFor (outcome : EntryOutcome) (s : Store) (reply : Reply) : Prop where
  fallback : ∀ reason, outcome = .fallback reason → outcome.heap s.heap = s.heap
  done : ∀ v heap, outcome = .done v heap →
    v = .null ∧ reply = ⟨.ok .null, { s with heap := heap }, .none⟩
  fault : ∀ f, outcome = .fault f →
    outcome.heap s.heap = s.heap ∧ reply = ⟨.error f, s, .none⟩

theorem EntryOutcome.speaksFor_builtin {outcome : EntryOutcome} {s : Store} {t : ElementType}
    {service : CoercionService} {a : Assignment} {answers : Bool}
    (h : outcome.reply? s =
      if answers then some ((Handler.builtin t).assign service s a) else none) :
    outcome.SpeaksFor s ((Handler.builtin t).assign service s a) := by
  have hown : ∀ own, outcome.reply? s = some own →
      own = (Handler.builtin t).assign service s a := by
    intro own hreply
    rw [h] at hreply
    split at hreply
    · exact (Option.some.inj hreply).symm
    · cases hreply
  refine ⟨?_, ?_, ?_⟩
  · rintro reason rfl
    rfl
  · rintro v heap rfl
    have hreply := hown _ rfl
    obtain rfl : v = .null := Handler.eq_null_of_builtin (congrArg Reply.result hreply.symm)
    exact ⟨rfl, hreply.symm⟩
  · rintro f rfl
    exact ⟨rfl, (hown _ rfl).symm⟩

namespace Entry

variable {e : Entry} {r : Registry} {a : Assignment}

theorem apply_ne_fallback_iff (heap : Heap) :
    (∀ reason, e.apply r heap a.receiver [a.index, a.value] ≠ .fallback reason) ↔
      e.performs r a = true := by
  rcases e.outcome_cases r heap a with ⟨hperforms, i, element, -, hreceiver, hstore, -⟩ |
    ⟨hnever, -, hback, -⟩ | ⟨hanswers, reason, hback, -⟩
  · refine ⟨fun _ => hperforms, fun _ => ?_⟩
    rw [hstore]
    exact store_ne_fallback hreceiver
  · refine ⟨fun h => absurd hback (h _), fun hperforms => ?_⟩
    rw [hnever] at hperforms
    cases hperforms
  · refine ⟨fun h => absurd hback (h reason), fun hperforms => ?_⟩
    rw [answers, hperforms] at hanswers
    cases hanswers

theorem assign_ne_fallback_iff (heap : Heap) :
    (∀ reason, e.assign r heap a ≠ .fallback reason) ↔ e.answers r a = true := by
  rcases e.outcome_cases r heap a with ⟨hperforms, i, element, -, hreceiver, -, hstore⟩ |
    ⟨-, hrefuses, -, hfault⟩ | ⟨hanswers, reason, -, hback⟩
  · refine ⟨fun _ => by rw [answers, hperforms, Bool.true_or], fun _ => ?_⟩
    rw [hstore]
    exact store_ne_fallback hreceiver
  · refine ⟨fun _ => by rw [answers, hrefuses, Bool.or_true], fun _ reason => ?_⟩
    rw [hfault]
    exact fun h => by cases h
  · refine ⟨fun h => absurd hback (h reason), fun h => ?_⟩
    rw [hanswers] at h
    cases h

/-- **An entry never disagrees with the built-in handler.**  Let an entry have any element type and
any guard, and let the registry, the service and the store be what they are.  Where it hands an
assignment back, it leaves the arrays as they are; where it performs one, it answers `null` and
leaves the store that the built-in assignment of its element type leaves; where it raises a fault,
it is the fault of the built-in assignment, and the arrays are as they were.  On an array of the
heap, a call with a list of arguments raises no other fault than that there is no slot for the
index, and the other form only this and the mismatch of the payload; a list that has not two
members is handed back.  An entry performs or objects exactly under a current guard, for an array
of its type, an `Integer` index, and a payload of its class, or, where it may object, without
coercion. -/
theorem never_disagrees (e : Entry) (r : Registry) (service : CoercionService) (s : Store) :
    (∀ receiver args, args.length ≠ 2 → e.apply r s.heap receiver args = .fallback .arity) ∧
    ∀ a : Assignment,
      let listed := e.apply r s.heap a.receiver [a.index, a.value]
      let direct := e.assign r s.heap a
      let builtin := (Handler.builtin e.type).assign service s a
      listed.SpeaksFor s builtin ∧ direct.SpeaksFor s builtin ∧
      (a.receiver.HeldBy s.heap →
        (∀ f, listed = .fault f → ∃ array i, a.receiver = .array array ∧ a.index = .integer i ∧
          f = .outOfRange i.toInt64 array.length) ∧
        ∀ f, direct = .fault f → f = .typeMismatch e.type.boxedName a.value.typeName ∨
          ∃ array i, a.receiver = .array array ∧ a.index = .integer i ∧
            f = .outOfRange i.toInt64 array.length) ∧
      ((∀ reason, listed ≠ .fallback reason) ↔
        e.guard = r.version e.type ∧ a.receiver.elementType? = some e.type ∧
          (∃ i, a.index = .integer i) ∧ (e.type.unbox? a.value).isSome) ∧
      ((∀ reason, direct ≠ .fallback reason) ↔
        e.guard = r.version e.type ∧ a.receiver.elementType? = some e.type ∧
          (∃ i, a.index = .integer i) ∧
          ((e.type.unbox? a.value).isSome ∨ e.type.classify a.value = .incompatible)) := by
  refine ⟨fun receiver args hlength => apply_of_length hlength, fun a => ?_⟩
  intro listed direct builtin
  refine ⟨EntryOutcome.speaksFor_builtin (e.reply?_apply r service s a.receiver a.index a.value),
    EntryOutcome.speaksFor_builtin (e.reply?_assign r service s a), ?_, ?_, ?_⟩
  · intro hheld
    rcases e.outcome_cases r s.heap a with ⟨-, i, element, hi, hreceiver, hlisted, hdirect⟩ |
      ⟨-, -, hlisted, hdirect⟩ | ⟨-, reason, hlisted, hdirect⟩
    · have hstore : ∀ f, store s.heap a.receiver i element = .fault f →
          ∃ array i, a.receiver = .array array ∧ a.index = .integer i ∧
            f = .outOfRange i.toInt64 array.length := by
        intro f hf
        obtain ⟨array, harray, hfault⟩ := fault_of_store hheld hreceiver hf
        exact ⟨array, i, harray, hi, hfault⟩
      exact ⟨fun f hf => hstore f (hlisted.symm.trans hf),
        fun f hf => Or.inr (hstore f (hdirect.symm.trans hf))⟩
    · refine ⟨fun f hf => ?_, fun f hf => Or.inl ?_⟩
      · cases hlisted.symm.trans hf
      · exact (EntryOutcome.fault.inj (hdirect.symm.trans hf)).symm
    · refine ⟨fun f hf => ?_, fun f hf => ?_⟩
      · cases hlisted.symm.trans hf
      · cases hdirect.symm.trans hf
  · rw [apply_ne_fallback_iff, performs_iff]
    exact ⟨fun ⟨hguard, ha⟩ => ⟨hguard, ha.receiver, ha.index, ha.payload⟩,
      fun ⟨hguard, hreceiver, hindex, hpayload⟩ => ⟨hguard, hreceiver, hindex, hpayload⟩⟩
  · rw [assign_ne_fallback_iff, answers_iff, and_assoc, and_assoc]

/-! A payload without coercion, under an index without a slot. -/

theorem never_disagrees_twice_defective :
    let e : Entry := ⟨.short, 0⟩
    let s : Store := ⟨Step.threeShorts, fun _ => .initial⟩
    let a : Assignment := ⟨Step.shorts, .integer 3, .null⟩
    let mismatch := Fault.typeMismatch "Short" "null"
    [a.index].length ≠ 2 ∧ a.receiver.HeldBy s.heap ∧
    e.apply .initial s.heap a.receiver [a.index] = .fallback .arity ∧
    e.apply .initial s.heap a.receiver [a.index, a.value] = .fallback .mismatchedPayload ∧
    e.assign .initial s.heap a = .fault mismatch ∧
    (Handler.builtin .short).assign (.standard .truncate) s a = ⟨.error mismatch, s, .none⟩ ∧
    (mismatch = .typeMismatch "Short" "null" ∨ ∃ array i, a.receiver = .array array ∧
      a.index = .integer i ∧ mismatch = .outOfRange i.toInt64 array.length) := by
  intro e s a mismatch
  have hlength : [a.index].length ≠ 2 := by decide
  have hheld : a.receiver.HeldBy s.heap := by
    rintro array ⟨⟩
    exact ⟨by decide +kernel, by decide⟩
  have hassign : e.assign .initial s.heap a = .fault mismatch := rfl
  obtain ⟨harity, hspeaks⟩ := never_disagrees e .initial (.standard .truncate) s
  obtain ⟨-, hdirect, hfaults, -, -⟩ := hspeaks a
  exact ⟨hlength, hheld, harity a.receiver [a.index] hlength, rfl, hassign,
    (hdirect.fault mismatch hassign).2, (hfaults hheld).2 mismatch hassign⟩

end Entry

/-! ### When an entry is made -/

/-- The check lets exactly those operands through that are of the classes of the entry. -/
theorem Entry.check_eq_fits_iff {e : Entry} {a : Assignment} :
    (∃ i element, e.check a = .fits i element) ↔ a.Exact e.type := by
  constructor
  · rintro ⟨i, element, hcheck⟩
    -- the check does not look at the guard, so let it be current
    let r : Registry := ⟨.replicate 6 ⟨.builtin e.type, e.guard⟩⟩
    have hresolve : r.resolve e.type = ⟨.builtin e.type, e.guard⟩ := Vector.getElem_replicate ..
    have hvalid : e.valid r = true := valid_iff.mpr (congrArg Resolution.version hresolve).symm
    exact (performs_iff.mp (performs_of_check hvalid hcheck)).2
  · rintro ⟨hreceiver, ⟨i, hi⟩, hpayload⟩
    obtain ⟨element, helement⟩ := Option.isSome_iff_exists.mp hpayload
    exact ⟨i, element, by simp only [check, hreceiver, if_true, hi, helement]⟩

/-- The values of class `Integer` are told by its name. -/
theorem Value.typeName_eq_integer_iff {v : Value} :
    v.typeName = "Integer" ↔ ∃ i, v = .integer i := by
  have hunbox : (ElementType.int.unbox? v).isSome = true ↔ v.typeName = "Integer" :=
    ElementType.isSome_unbox?_iff .int v
  rw [← hunbox]
  cases v with
  | integer i => exact ⟨fun _ => ⟨i, rfl⟩, fun _ => rfl⟩
  | _ => simp [ElementType.unbox?]

namespace Dispatcher

/-- The dispatcher specialises sites, and the call is one that it specialises them for: its receiver
is an array of the type, the built-in handler of the type is in force, and it has the two arguments
that an entry for the type takes. -/
structure Specialises (d : Dispatcher) (s : Store) (receiver : Value) (args : List Value)
    (t : ElementType) : Prop where
  enabled : d.settings.specialize = true
  type : receiver.elementType? = some t
  builtin : (s.registry d.registry).handler t = .builtin t
  fits : ∃ index value, args = [index, value] ∧
    ∃ e : Entry, e.type = t ∧ ∃ i element, e.check ⟨receiver, index, value⟩ = .fits i element

variable {d : Dispatcher} {s : Store} {receiver : Value} {args : List Value}

/-- Linking goes by the names of the classes, and the check of the entry by the operands. -/
theorem link_specialized_iff (e : Entry) :
    d.link s receiver args = .specialized e ↔
      d.Specialises s receiver args e.type ∧
        e.guard = (s.registry d.registry).version e.type := by
  constructor
  · intro h
    obtain ⟨henabled, hreceiver, hbuiltin, hguard, hnames⟩ := link_eq_specialized_iff.mp h
    refine ⟨⟨henabled, hreceiver, hbuiltin, ?_⟩, hguard⟩
    -- two names are the names of two arguments
    match args with
    | [index, value] =>
      simp only [List.map_cons, List.map_nil, List.cons.injEq, and_true] at hnames
      refine ⟨index, value, rfl, e, rfl, Entry.check_eq_fits_iff.mpr ⟨hreceiver, ?_, ?_⟩⟩
      · exact Value.typeName_eq_integer_iff.mp hnames.1
      · exact (ElementType.isSome_unbox?_iff e.type value).mpr hnames.2
    | [] | [_] | _ :: _ :: _ :: _ => simp at hnames
  · rintro ⟨⟨henabled, -, hbuiltin, index, value, rfl, e', htype, hfits⟩, hguard⟩
    have ha : (Assignment.mk receiver index value).Exact e.type :=
      htype ▸ Entry.check_eq_fits_iff.mp hfits
    have hlink := link_of_exact ha henabled hbuiltin
    rw [← hguard] at hlink
    exact hlink

/-- The entry that is made for a call gives it the generic reply, in either form. -/
theorem reply?_of_link {e : Entry} {a : Assignment}
    (h : d.link s a.receiver [a.index, a.value] = .specialized e) :
    let r := s.registry d.registry
    (e.apply r s.heap a.receiver [a.index, a.value]).reply? s = some (d.assign s a) ∧
      (e.assign r s.heap a).reply? s = some (d.assign s a) := by
  intro r
  obtain ⟨hspecialises, hguard⟩ := (link_specialized_iff e).mp h
  obtain ⟨index, value, hargs, e', htype, hfits⟩ := hspecialises.fits
  obtain ⟨rfl, rfl⟩ : a.index = index ∧ a.value = value := by simpa using hargs
  have ha : a.Exact e.type := htype ▸ Entry.check_eq_fits_iff.mp hfits
  have hperforms : e.performs r a = true := Entry.performs_iff.mpr ⟨hguard, ha⟩
  have hgeneric : (Handler.builtin e.type).assign d.service s a = d.assign s a := by
    rw [d.assign_of_elementType? s hspecialises.type, hspecialises.builtin]
  have hlisted := e.reply?_apply r d.service s a.receiver a.index a.value
  have hdirect := e.reply?_assign r d.service s a
  rw [if_pos hperforms, hgeneric] at hlisted
  rw [if_pos (by rw [Entry.answers, hperforms, Bool.true_or]), hgeneric] at hdirect
  exact ⟨hlisted, hdirect⟩

/-- **Linking and the check of an entry agree.**  Linking makes an entry of a call exactly if the
dispatcher specialises sites, the receiver is an array of a type whose built-in handler is in
force, there are two arguments, and an entry for this type finds that the call fits; the entry is
for this type, and has the version in force as its guard.  It then answers the call itself, in
either form, with the generic reply.  Every other call is passed through.  What a site holds does
not matter, be it linked for the first time or again. -/
theorem link_agrees_check (d : Dispatcher) (s : Store) (receiver : Value) (args : List Value) :
    let linked := d.link s receiver args
    let r := s.registry d.registry
    (∀ e, linked = .specialized e ↔
        d.Specialises s receiver args e.type ∧ e.guard = r.version e.type) ∧
      (linked = .passThrough ↔ ∀ t, ¬ d.Specialises s receiver args t) ∧
      (∀ e, linked = .specialized e → ∃ index value, args = [index, value] ∧
        (e.apply r s.heap receiver args).reply? s = some (d.apply s receiver args) ∧
        (e.assign r s.heap ⟨receiver, index, value⟩).reply? s =
          some (d.apply s receiver args)) ∧
      ∀ site : Site, (site.relinked d s receiver args).state = linked ∧
        (site.state = .unlinked → (site.linked d s receiver args).state = linked) := by
  intro linked r
  refine ⟨link_specialized_iff, ⟨fun hlinked t ht => ?_, fun hnever => ?_⟩, fun e hlinked => ?_,
    fun site => ⟨rfl, fun hstate => ?_⟩⟩
  · cases hlinked.symm.trans ((link_specialized_iff ⟨t, r.version t⟩).mpr ⟨ht, rfl⟩)
  · cases hlinked : linked with
    | unlinked => exact absurd hlinked (d.link_ne_unlinked s receiver args)
    | passThrough => rfl
    | specialized e => exact absurd ((link_specialized_iff e).mp hlinked).1 (hnever e.type)
  · obtain ⟨index, value, rfl, -⟩ := ((link_specialized_iff e).mp hlinked).1.fits
    exact ⟨index, value, rfl, reply?_of_link (a := ⟨receiver, index, value⟩) hlinked⟩
  · rw [Site.linked, hstate]

/-! A site that has been passed through, and then sees a call that an entry could serve. -/

theorem link_agrees_check_shorts :
    let d := Step.oneRegistry 0
    let s : Store := ⟨Step.threeShorts, fun _ => .initial⟩
    let args := [Value.integer 0, .short 5]
    let e : Entry := ⟨.short, 0⟩
    d.Specialises s Step.shorts args .short ∧ d.link s Step.shorts args = .specialized e ∧
    (e.apply .initial s.heap Step.shorts args).reply? s = some (d.apply s Step.shorts args) ∧
    ((Site.mk 7 .passThrough ⟨0, 0, 0, 0, 0⟩).relinked d s Step.shorts args).state =
      .specialized e := by
  intro d s args e
  have hspecialises : d.Specialises s Step.shorts args .short :=
    ⟨rfl, rfl, rfl, _, _, rfl, e, rfl, 0, .short 5, rfl⟩
  obtain ⟨hlink, -, hserves, hsites⟩ := link_agrees_check d s Step.shorts args
  have hlinked := (hlink e).mpr ⟨hspecialises, rfl⟩
  obtain ⟨_, _, -, happly, -⟩ := hserves e hlinked
  exact ⟨hspecialises, hlinked, happly, (hsites _).1.trans hlinked⟩

end Dispatcher

end InlineCache
