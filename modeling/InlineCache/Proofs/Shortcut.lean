/-
Calls that an entry answers itself.

An entry hands a call back or answers it, and where it answers, the answer is that of the built-in
assignment of its element type: it performs an assignment whose operands have its own classes
(`Entry.performs`), and in one of the two forms of a call it also refuses a payload that has no
coercion (`Entry.refuses`).

* `Entry.reply?_apply`, `Entry.reply?_assign`: what an entry answers, in either form;
* `Site.reply_settle`: a call gives the answer of the entry, or else the generic reply;
* `Dispatcher.link_eq_specialized_iff`: an entry is made of the version in force, and only where the
  built-in handler of the receiver's type is in force.
-/
import InlineCache.Site

namespace InlineCache

theorem Value.exists_array {v : Value} {t : ElementType} (h : v.elementType? = some t) :
    ∃ array : ArrayHandle, v = .array array ∧ array.type = t := by
  cases v with
  | array array => exact ⟨array, rfl, by simpa [elementType?, handle?] using h⟩
  | _ => simp [elementType?, handle?] at h

/-! ### What an entry answers -/

/-- The reply of an entry to a call that it does not hand back. -/
def EntryOutcome.reply? (s : Store) : EntryOutcome → Option Reply
  | .done value heap => some ⟨.ok value, { s with heap := heap }, .none⟩
  | .fault f => some ⟨.error f, s, .none⟩
  | .fallback _ => none

namespace Entry

/-- The guard is current, and receiver and index have the classes that the entry takes. -/
def admits (e : Entry) (r : Registry) (a : Assignment) : Bool :=
  e.valid r && a.receiver.elementType? == some e.type && a.index matches .integer _

/-- The entry takes the payload too, and so performs the assignment. -/
def performs (e : Entry) (r : Registry) (a : Assignment) : Bool :=
  e.admits r a && (e.type.unbox? a.value).isSome

/-- All is well but the payload, which no coercion could help. -/
def refuses (e : Entry) (r : Registry) (a : Assignment) : Bool :=
  e.admits r a && e.type.classify a.value == .incompatible

/-- The entry gives an answer of its own, if the form of the call lets it refuse. -/
def answers (e : Entry) (r : Registry) (a : Assignment) : Bool :=
  e.performs r a || e.refuses r a

section

variable {e : Entry} {r : Registry} {a : Assignment}

theorem valid_iff : e.valid r = true ↔ e.guard = r.version e.type := by
  rw [valid, beq_iff_eq, eq_comm]

theorem valid_of_admits (h : e.admits r a = true) : e.valid r = true := by
  simp only [admits, Bool.and_eq_true] at h
  exact h.1.1

theorem elementType?_of_admits (h : e.admits r a = true) :
    a.receiver.elementType? = some e.type := by
  simp only [admits, Bool.and_eq_true, beq_iff_eq] at h
  exact h.1.2

theorem exists_integer_of_admits (h : e.admits r a = true) : ∃ i, a.index = .integer i := by
  simp only [admits, Bool.and_eq_true] at h
  have hi := h.2
  split at hi
  · exact ⟨_, ‹_›⟩
  · exact absurd hi (by simp)

theorem admits_of_performs (h : e.performs r a = true) : e.admits r a = true := by
  simp only [performs, Bool.and_eq_true] at h
  exact h.1

theorem admits_of_refuses (h : e.refuses r a = true) : e.admits r a = true := by
  simp only [refuses, Bool.and_eq_true] at h
  exact h.1

theorem admits_of_answers (h : e.answers r a = true) : e.admits r a = true := by
  rcases Bool.or_eq_true_iff.mp h with hperforms | hrefuses
  · exact admits_of_performs hperforms
  · exact admits_of_refuses hrefuses

/-- Where all operands have the classes of the entry, the built-in assignment stores the payload
as it is. -/
theorem builtin_assign_of_performs (h : e.performs r a = true) (service : CoercionService)
    (s : Store) :
    ∃ i element, e.check a = .fits i element ∧
      (store s.heap a.receiver i element).reply? s =
        some ((Handler.builtin e.type).assign service s a) := by
  have ha := admits_of_performs h
  obtain ⟨array, hreceiver, htype⟩ := Value.exists_array (elementType?_of_admits ha)
  obtain ⟨i, hindex⟩ := exists_integer_of_admits ha
  simp only [performs, Bool.and_eq_true, Option.isSome_iff_exists] at h
  obtain ⟨element, helement⟩ := h.2
  refine ⟨i, element, ?_, ?_⟩
  · simp [check, elementType?_of_admits ha, hindex, helement]
  · -- the operands pass every stage of the built-in assignment as they are
    have hassign : e.type.assign service s.heap a
        = (s.heap.put array i.toInt64 element, .none) := by
      simp only [ElementType.assign, ElementType.container, hreceiver, if_pos htype, hindex,
        Value.logicalIndex, ElementType.coerce, ElementType.classify, helement]
      rfl
    rw [Handler.assign, hassign, hreceiver]
    simp only [store, Value.handle?]
    cases s.heap.put array i.toInt64 element <;> rfl

theorem check_of_refuses (h : e.refuses r a = true) : e.check a = .mismatchedPayload := by
  have ha := admits_of_refuses h
  obtain ⟨i, hindex⟩ := exists_integer_of_admits ha
  simp only [refuses, Bool.and_eq_true, beq_iff_eq] at h
  -- a payload of the exact class would not be incompatible
  have hpayload : e.type.unbox? a.value = none := by
    cases hunbox : e.type.unbox? a.value with
    | none => rfl
    | some element => simp [ElementType.classify, hunbox] at h
  simp [check, elementType?_of_admits ha, hindex, hpayload]

theorem classify_of_refuses (h : e.refuses r a = true) :
    e.type.classify a.value = .incompatible := by
  simp only [refuses, Bool.and_eq_true, beq_iff_eq] at h
  exact h.2

/-- A payload without coercion is what the built-in assignment objects to, receiver and index
being right. -/
theorem builtin_assign_of_refuses (h : e.refuses r a = true) (service : CoercionService)
    (s : Store) :
    (Handler.builtin e.type).assign service s a = ⟨.error (e.type.mismatch a.value), s, .none⟩ := by
  have ha := admits_of_refuses h
  obtain ⟨array, hreceiver, htype⟩ := Value.exists_array (elementType?_of_admits ha)
  obtain ⟨i, hindex⟩ := exists_integer_of_admits ha
  have hassign : e.type.assign service s.heap a
      = (.error (e.type.mismatch a.value), .none) := by
    simp only [ElementType.assign, ElementType.container, hreceiver, if_pos htype, hindex,
      Value.logicalIndex, ElementType.coerce, classify_of_refuses h]
    rfl
  rw [Handler.assign, hassign]
  rfl

theorem performs_of_check {i : Int32} {element : Element} (hv : e.valid r = true)
    (h : e.check a = .fits i element) : e.performs r a = true := by
  rw [check] at h
  split at h
  · rename_i hreceiver
    split at h
    · rename_i j hindex
      split at h
      · rename_i found hpayload
        simp [performs, admits, hv, hreceiver, hindex, hpayload]
      · cases h
    · cases h
  · cases h

theorem refuses_of_check (hv : e.valid r = true) (h : e.check a = .mismatchedPayload)
    (hpayload : e.type.classify a.value = .incompatible) : e.refuses r a = true := by
  rw [check] at h
  split at h
  · rename_i hreceiver
    split at h
    · rename_i j hindex
      simp [refuses, admits, hv, hreceiver, hindex, hpayload]
    · cases h
  · cases h

end

variable (e : Entry) (r : Registry) (service : CoercionService) (s : Store)

/-- With a list of two arguments, an entry answers what it performs. -/
theorem reply?_apply (receiver index value : Value) :
    (e.apply r s.heap receiver [index, value]).reply? s =
      if e.performs r ⟨receiver, index, value⟩ then
        some ((Handler.builtin e.type).assign service s ⟨receiver, index, value⟩)
      else none := by
  by_cases hp : e.performs r ⟨receiver, index, value⟩ = true
  · obtain ⟨i, element, hcheck, hstore⟩ := builtin_assign_of_performs hp service s
    have hv := valid_of_admits (admits_of_performs hp)
    rw [if_pos hp, ← hstore]
    simp only [apply, hv, if_true, hcheck]
  · -- whatever the entry objects to, it hands the call back
    rw [if_neg hp, apply]
    by_cases hv : e.valid r = true
    · rw [if_pos hv]
      cases hcheck : e.check ⟨receiver, index, value⟩ with
      | fits i element => exact absurd (performs_of_check hv hcheck) hp
      | wrongReceiver | mismatchedIndex | mismatchedPayload => rfl
    · rw [if_neg hv]
      rfl

/-- With an index and a value, an entry answers what it performs and what it refuses. -/
theorem reply?_assign (a : Assignment) :
    (e.assign r s.heap a).reply? s =
      if e.answers r a then some ((Handler.builtin e.type).assign service s a) else none := by
  by_cases hp : e.performs r a = true
  · obtain ⟨i, element, hcheck, hstore⟩ := builtin_assign_of_performs hp service s
    have hv := valid_of_admits (admits_of_performs hp)
    rw [if_pos (by rw [answers, hp, Bool.true_or]), ← hstore]
    simp only [assign, hv, if_true, hcheck]
  by_cases hr : e.refuses r a = true
  · -- the fault of the entry is the fault that the built-in assignment ends with
    have hv := valid_of_admits (admits_of_refuses hr)
    rw [if_pos (by rw [answers, hr, Bool.or_true]), builtin_assign_of_refuses hr]
    simp only [assign, hv, if_true, check_of_refuses hr, classify_of_refuses hr]
    rfl
  · rw [if_neg (by simp [answers, hp, hr]), assign]
    by_cases hv : e.valid r = true
    · rw [if_pos hv]
      cases hcheck : e.check a with
      | fits i element => exact absurd (performs_of_check hv hcheck) hp
      | mismatchedPayload =>
        cases hpayload : e.type.classify a.value with
        | incompatible => exact absurd (refuses_of_check hv hcheck hpayload) hr
        | exact | text | numeric => rfl
      | wrongReceiver | mismatchedIndex => rfl
    · rw [if_neg hv]
      rfl

end Entry

/-! ### What a site makes of it -/

/-- The entry that a site holds. -/
def SiteState.entry? : SiteState → Option Entry
  | .specialized e => some e
  | _ => none

namespace SiteState

theorem entry?_eq_some {state : SiteState} {e : Entry} (h : state.entry? = some e) :
    state = .specialized e := by
  cases state with
  | specialized e' => rw [Option.some.inj h]
  | _ => cases h

end SiteState

namespace Site

/-- The reply of the entry that a site holds, if it has one and that answers. -/
def shortcut? (site : Site) (s : Store) (attempt : Entry → EntryOutcome) : Option Reply :=
  site.state.entry?.bind fun e => (attempt e).reply? s

theorem reply_settle (site : Site) (d : Dispatcher) (s : Store) (receiver : Value)
    (args : List Value) (attempt : Entry → EntryOutcome) (generic : Reply) :
    (site.settle d s receiver args attempt generic).1 =
      (site.shortcut? s attempt).getD generic := by
  rw [settle, shortcut?]
  cases hstate : site.state with
  | unlinked | passThrough => rfl
  | specialized e =>
    simp only [SiteState.entry?, Option.bind_some]
    cases attempt e <;> rfl

/-- The reply of the fast path to a call with a list of arguments, where it is taken. -/
def fastApply? (site : Site) (d : Dispatcher) (s : Store) (receiver : Value)
    (args : List Value) : Option Reply :=
  (site.linked d s receiver args).shortcut? s fun e =>
    e.apply (s.registry d.registry) s.heap receiver args

/-- The reply of the fast path to a call with an index and a value, where it is taken. -/
def fastAssign? (site : Site) (d : Dispatcher) (s : Store) (a : Assignment) : Option Reply :=
  (site.linked d s a.receiver [a.index, a.value]).shortcut? s fun e =>
    e.assign (s.registry d.registry) s.heap a

section

variable {site : Site} {d : Dispatcher} {s : Store}

theorem reply_apply (receiver : Value) (args : List Value) :
    (site.apply d s receiver args).1 =
      (site.fastApply? d s receiver args).getD (d.apply s receiver args) :=
  reply_settle ..

theorem reply_assign (a : Assignment) :
    (site.assign d s a).1 = (site.fastAssign? d s a).getD (d.assign s a) :=
  reply_settle ..

/-- A fast path that is taken shows the entry that takes it.  The form of the call decides which
entries answer. -/
theorem shortcut?_eq_some {attempt : Entry → EntryOutcome} {answers : Entry → Bool}
    {a : Assignment} {reply : Reply}
    (hattempt : ∀ e, (attempt e).reply? s =
      if answers e then some ((Handler.builtin e.type).assign d.service s a) else none)
    (h : site.shortcut? s attempt = some reply) :
    ∃ e, site.state = .specialized e ∧ answers e = true ∧
      reply = (Handler.builtin e.type).assign d.service s a := by
  obtain ⟨e, hstate, hreply⟩ := Option.bind_eq_some_iff.mp h
  refine ⟨e, SiteState.entry?_eq_some hstate, ?_⟩
  rw [hattempt] at hreply
  split at hreply
  · exact ⟨‹_›, (Option.some.inj hreply).symm⟩
  · cases hreply

/-- The fast path of the list form is taken by entries that perform the call. -/
theorem fastApply?_eq_some {receiver : Value} {args : List Value} {reply : Reply}
    (h : site.fastApply? d s receiver args = some reply) :
    ∃ index value, args = [index, value] ∧
      ∃ e, (site.linked d s receiver args).state = .specialized e ∧
        e.performs (s.registry d.registry) ⟨receiver, index, value⟩ = true ∧
        reply = (Handler.builtin e.type).assign d.service s ⟨receiver, index, value⟩ := by
  match args with
  | [] | [_] | _ :: _ :: _ :: _ =>
    obtain ⟨e, -, hreply⟩ := Option.bind_eq_some_iff.mp h
    cases hreply
  | [index, value] =>
    exact ⟨index, value, rfl, shortcut?_eq_some (fun e => e.reply?_apply ..) h⟩

/-- The fast path of the other form is also taken by entries that refuse the payload. -/
theorem fastAssign?_eq_some {a : Assignment} {reply : Reply}
    (h : site.fastAssign? d s a = some reply) :
    ∃ e, (site.linked d s a.receiver [a.index, a.value]).state = .specialized e ∧
      e.answers (s.registry d.registry) a = true ∧
      reply = (Handler.builtin e.type).assign d.service s a :=
  shortcut?_eq_some (fun e => e.reply?_assign ..) h

end

/-! ### Calls leave the id of a site -/

@[simp] theorem id_linked (site : Site) (d : Dispatcher) (s : Store) (receiver : Value)
    (args : List Value) : (site.linked d s receiver args).id = site.id := by
  rw [linked]
  split <;> rfl

theorem id_fellBack (site : Site) (reason : FallbackReason) (d : Dispatcher) (s : Store)
    (receiver : Value) (args : List Value) :
    (site.fellBack reason d s receiver args).id = site.id := by
  cases reason <;> rfl

theorem id_settle (site : Site) (d : Dispatcher) (s : Store) (receiver : Value)
    (args : List Value) (attempt : Entry → EntryOutcome) (generic : Reply) :
    (site.settle d s receiver args attempt generic).2.id = site.id := by
  rw [settle]
  cases hstate : site.state with
  | unlinked | passThrough => rfl
  | specialized e =>
    cases hattempt : attempt e with
    | done => simp only [hattempt, countHit]
    | fault => simp only [hattempt]
    | fallback reason => simp only [hattempt, id_fellBack]

theorem id_apply (site : Site) (d : Dispatcher) (s : Store) (receiver : Value)
    (args : List Value) : (site.apply d s receiver args).2.id = site.id := by
  rw [apply, id_settle, id_linked]

theorem id_assign (site : Site) (d : Dispatcher) (s : Store) (a : Assignment) :
    (site.assign d s a).2.id = site.id := by
  rw [assign, id_settle, id_linked]

end Site

/-! ### Where entries come from -/

namespace Dispatcher

theorem assign_of_elementType? (d : Dispatcher) (s : Store) {a : Assignment} {t : ElementType}
    (h : a.receiver.elementType? = some t) :
    d.assign s a = ((s.registry d.registry).handler t).assign d.service s a := by
  rw [assign, h]

/-- Linking makes an entry if the dispatcher specialises sites, the built-in handler of the
receiver's type is in force, and the arguments have the classes that the entry takes; its guard is
the version in force. -/
theorem link_eq_specialized_iff {d : Dispatcher} {s : Store} {receiver : Value}
    {args : List Value} {e : Entry} :
    d.link s receiver args = .specialized e ↔ d.settings.specialize = true ∧
      receiver.elementType? = some e.type ∧
      (s.registry d.registry).handler e.type = .builtin e.type ∧
      e.guard = (s.registry d.registry).version e.type ∧
      args.map Value.typeName = ["Integer", e.type.boxedName] := by
  constructor
  · intro h
    rw [link] at h
    cases ht : receiver.elementType? with
    | none => simp [ht] at h
    | some t =>
      simp only [ht, Handler.link] at h
      cases hhandler : (s.registry d.registry).handler t with
      | override name body => simp [hhandler, Handler.builtinType?] at h
      | builtin u =>
        simp only [hhandler, Handler.builtinType?] at h
        split at h
        · rename_i hcond
          obtain rfl : t = u := Option.some.inj hcond.2.1
          obtain rfl : (⟨t, _⟩ : Entry) = e := SiteState.specialized.inj h
          exact ⟨hcond.1, rfl, hhandler, rfl, hcond.2.2⟩
        · cases h
  · rintro ⟨hspecialize, hreceiver, hbuiltin, hguard, hnames⟩
    simp only [link, hreceiver, Handler.link, hbuiltin, Handler.builtinType?, ← hguard]
    exact if_pos ⟨hspecialize, trivial, hnames⟩

theorem link_eq_specialized {d : Dispatcher} {s : Store} {receiver : Value} {args : List Value}
    {e : Entry} (h : d.link s receiver args = .specialized e) :
    receiver.elementType? = some e.type ∧
      (s.registry d.registry).handler e.type = .builtin e.type ∧
      e.guard = (s.registry d.registry).version e.type ∧
      args.map Value.typeName = ["Integer", e.type.boxedName] :=
  (link_eq_specialized_iff.mp h).2

end Dispatcher

end InlineCache
