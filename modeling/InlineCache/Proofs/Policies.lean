/-
Truncation follows the checked policy, as long as that succeeds.

The two policies narrow by different ways: through words of 64 bits or of 32, by comparison or by
the low bits.  Where the checked policy has an element, the ways lead to the same one.  For
characters made from numbers this is not so, but only texts are asked for their character in an
assignment, and a text has the same character under both.

* `NarrowingPolicy.truncate_narrow_of_checked`: the element of the checked policy is that of
  truncation, too;
* `CoercionService.Extends`: a service that answers whatever another one answers, as far as it is
  asked in an assignment;
* `Step.runAll_of_extends`: a program that never fails runs the same with a service that extends its
  own;
* `Step.truncation_follows`: so the arrays do not tell which of the two policies a program without
  faults was run under.
-/
import InlineCache.Proofs.Assignments
import InlineCache.Proofs.Overflow
import InlineCache.Proofs.Truncation

namespace InlineCache

/-! ### Narrowing under the two policies -/

/-- An element type is of a width, or that of a format. -/
theorem ElementType.width?_or_type (t : ElementType) :
    (∃ w, t.width? = some w) ∨ ∃ f : Format, t = f.type := by
  cases t with
  | byte | short | int | long => exact Or.inl ⟨_, rfl⟩
  | float => exact Or.inr ⟨.single, rfl⟩
  | double => exact Or.inr ⟨.double, rfl⟩

theorem ElementType.width_le_saturationWidth {t : ElementType} {w : ℕ} (hw : t.width? = some w) :
    w ≤ t.saturationWidth := by
  cases t with
  | byte | short | int | long =>
    obtain rfl := Option.some.inj hw
    decide
  | float | double => cases hw

namespace NarrowingPolicy

variable {t : ElementType} {e : Element}

theorem truncate_narrowWord_of_checked {n : Int64} (hchecked : checked.narrowWord n t = .ok e) :
    truncate.narrowWord n t = .ok e := by
  rw [narrowWord] at hchecked
  split at hchecked
  · exact hchecked
  · cases hchecked

theorem truncate_narrowDouble_type (x : Binary .double) (f : Format) :
    truncate.narrowDouble x f.type = .ok (f.element (f.ofDouble x)) := by
  cases f with
  | single => rfl
  | double => rfl

/-- What is an integer of the width saturates nowhere. -/
theorem truncate_narrowDouble_of_checked {x : Binary .double}
    (hchecked : checked.narrowDouble x t = .ok e) : truncate.narrowDouble x t = .ok e := by
  rcases t.width?_or_type with ⟨w, hw⟩ | ⟨f, rfl⟩
  · by_cases hwhole : ∃ n : ℤ, x.reading = .exactly n ∧ InWidth w n
    · obtain ⟨n, hn, hrange⟩ := hwhole
      have hsaturated := hrange.mono (ElementType.width_le_saturationWidth hw)
      rw [← hchecked, checked_narrowDouble_of_inWidth hw hn hrange, truncate_narrowDouble hw, hn,
        Reading.saturate_exactly hsaturated]
    · have hnone : ∀ n : ℤ, x.reading = .exactly n → ¬ InWidth w n :=
        fun n hn hrange => hwhole ⟨n, hn, hrange⟩
      obtain ⟨fault, hrefused, -⟩ := checked_narrowDouble_of_not_inWidth hw hnone
      rw [hchecked] at hrefused
      cases hrefused
  · rw [checked_narrowDouble_type] at hchecked
    split at hchecked
    · cases hchecked
    · rw [truncate_narrowDouble_type]
      exact hchecked

/-- What is an integer of 64 bits is its own low bits. -/
theorem truncate_narrowInt_of_checked {n : ℤ} (hchecked : checked.narrowInt n t = .ok e) :
    truncate.narrowInt n t = .ok e := by
  rcases t.width?_or_type with ⟨w, hw⟩ | ⟨f, rfl⟩
  · rw [checked_narrowInt hw] at hchecked
    split at hchecked
    · rename_i hword
      rw [narrowInt_of_width? hw truncate hword]
      exact truncate_narrowWord_of_checked hchecked
    · cases hchecked
  · rw [narrowInt_type] at hchecked ⊢
    exact truncate_narrowDouble_of_checked hchecked

/-- The element of the checked policy is that of truncation, too. -/
theorem truncate_narrow_of_checked {h : Heap} {v : Value}
    (hchecked : checked.narrow h v t = .ok e) : truncate.narrow h v t = .ok e := by
  cases v with
  | byte | short | integer | long | character => exact truncate_narrowWord_of_checked hchecked
  | bigInteger => exact truncate_narrowInt_of_checked hchecked
  | float | double => exact truncate_narrowDouble_of_checked hchecked
  | null | boolean | string | template | array => cases hchecked

theorem exists_truncate_narrowDouble (x : Binary .double) (t : ElementType) :
    ∃ e, truncate.narrowDouble x t = .ok e := by
  rcases t.width?_or_type with ⟨w, hw⟩ | ⟨f, rfl⟩
  · exact ⟨_, truncate_narrowDouble hw x⟩
  · exact ⟨_, truncate_narrowDouble_type x f⟩

/-- Truncation has an element for every number and every character. -/
theorem exists_truncate_narrow {v : Value}
    (hv : v.isNumeric = true ∨ ∃ c, v = .character c) (h : Heap) (t : ElementType) :
    ∃ e, truncate.narrow h v t = .ok e := by
  cases v with
  | byte | short | integer | long | character => exact ⟨_, rfl⟩
  | bigInteger n =>
    rcases t.width?_or_type with ⟨w, hw⟩ | ⟨f, rfl⟩
    · exact ⟨_, truncate_narrow (v := .bigInteger n) rfl hw h⟩
    · rw [narrow, narrowInt_type]
      exact exists_truncate_narrowDouble _ _
  | float | double => exact exists_truncate_narrowDouble _ _
  | null | boolean | string | template | array =>
    rcases hv with hv | ⟨c, hv⟩
    · cases hv
    · cases hv

end NarrowingPolicy

/-! ### Services -/

/-- One service answers as another one does wherever that succeeds.  Only texts are asked for their
character in an assignment, so nothing is said of the characters of numbers. -/
structure CoercionService.Extends (lax strict : CoercionService) : Prop where
  character : ∀ {h v c}, v.isTextLike = true → strict.character h v = .ok c →
    lax.character h v = .ok c
  narrow : ∀ {h v t e}, strict.narrow h v t = .ok e → lax.narrow h v t = .ok e

theorem CoercionService.extends_truncate : (standard .truncate).Extends (standard .checked) where
  character := by
    intro h v c hv hchecked
    -- a text is asked for nothing that the policy has a say in
    cases v with
    | character | string | template => exact hchecked
    | _ => cases hv
  narrow := NarrowingPolicy.truncate_narrow_of_checked

section

variable {lax strict : CoercionService} (hservice : lax.Extends strict)

include hservice

/-- A payload that becomes an element becomes the same one, by the same calls. -/
theorem ElementType.coerce_of_extends {t : ElementType} {h : Heap} {v : Value} {e : Element}
    (hstrict : (t.coerce strict h v).1 = .ok e) : t.coerce lax h v = t.coerce strict h v := by
  rw [coerce] at hstrict ⊢
  rw [coerce]
  cases hpayload : t.classify v with
  | exact | incompatible => rfl
  | text =>
    have htext : v.isTextLike = true := classify_eq_text_iff.mp hpayload
    simp only [hpayload] at hstrict
    cases hcharacter : strict.character h v with
    | error f =>
      simp only [hcharacter] at hstrict
      cases hstrict
    | ok c =>
      simp only [hcharacter] at hstrict
      simp only [hservice.character htext hcharacter, hservice.narrow hstrict, hstrict]
  | numeric =>
    simp only [hpayload] at hstrict
    simp only [hservice.narrow hstrict, hstrict]

theorem ElementType.assign_of_extends {t : ElementType} {h h' : Heap} {a : Assignment}
    (hstrict : (t.assign strict h a).1 = .ok h') : t.assign lax h a = t.assign strict h a := by
  rw [assign] at hstrict ⊢
  rw [assign]
  split
  · rfl
  · rfl
  · rename_i array logical hcontainer hlogical
    simp only [hcontainer, hlogical] at hstrict
    cases hcoerced : (t.coerce strict h a.value).1 with
    | error f =>
      simp only [hcoerced] at hstrict
      cases hstrict
    | ok e => simp only [coerce_of_extends hservice hcoerced]

/-- An override does not ask the service at all. -/
theorem Handler.assign_of_extends {handler : Handler} {s : Store} {a : Assignment}
    (hstrict : (handler.assign strict s a).result.isOk) :
    handler.assign lax s a = handler.assign strict s a := by
  cases handler with
  | override => rfl
  | builtin t =>
    cases hassign : (t.assign strict s.heap a).1 with
    | error f =>
      rw [assign, hassign] at hstrict
      cases hstrict
    | ok h' => rw [assign, assign, ElementType.assign_of_extends hservice hassign]

end

/-! ### Dispatchers and sites -/

/-- One dispatcher does as another one does, with a service that answers more. -/
structure Dispatcher.Extends (lax strict : Dispatcher) : Prop where
  registry : lax.registry = strict.registry
  specialize : lax.settings.specialize = strict.settings.specialize
  service : lax.service.Extends strict.service

section

variable {lax strict : Dispatcher} (hd : lax.Extends strict) {s : Store} {receiver : Value}
  {args : List Value} {a : Assignment}

include hd

theorem Dispatcher.assign_of_extends (hstrict : (strict.assign s a).result.isOk) :
    lax.assign s a = strict.assign s a := by
  rw [assign] at hstrict ⊢
  rw [assign, hd.registry]
  cases htype : a.receiver.elementType? with
  | none => rfl
  | some t =>
    simp only [htype] at hstrict
    exact Handler.assign_of_extends hd.service hstrict

theorem Dispatcher.apply_of_extends (hstrict : (strict.apply s receiver args).result.isOk) :
    lax.apply s receiver args = strict.apply s receiver args :=
  match args with
  | [_, _] => assign_of_extends hd hstrict
  | [] | [_] | _ :: _ :: _ :: _ => rfl

/-- What a site remembers has nothing to do with the service. -/
theorem Dispatcher.link_of_extends (s : Store) (receiver : Value) (args : List Value) :
    lax.link s receiver args = strict.link s receiver args := by
  rw [link, link, hd.registry]
  simp only [Handler.link, hd.specialize]

/-- Nor has what an entry does. -/
theorem Site.settle_of_extends {site : Site} {attempt : Entry → EntryOutcome}
    {generic generic' : Reply} (hgeneric : generic'.result.isOk → generic = generic')
    (hstrict : (site.settle strict s receiver args attempt generic').1.result.isOk) :
    site.settle lax s receiver args attempt generic =
      site.settle strict s receiver args attempt generic' := by
  have hfellBack : ∀ reason, site.fellBack reason lax s receiver args =
      site.fellBack reason strict s receiver args := by
    intro reason
    simp only [fellBack, relinked, Dispatcher.link_of_extends hd]
  rw [settle] at hstrict ⊢
  rw [settle]
  cases hstate : site.state with
  | unlinked | passThrough =>
    simp only [hstate] at hstrict
    rw [hgeneric hstrict]
  | specialized entry =>
    simp only [hstate] at hstrict
    cases hattempt : attempt entry with
    | done | fault => simp only [hattempt]
    | fallback reason =>
      simp only [hattempt] at hstrict
      simp only [hattempt, hgeneric hstrict, hfellBack]

theorem Site.linked_of_extends (site : Site) (s : Store) (receiver : Value) (args : List Value) :
    site.linked lax s receiver args = site.linked strict s receiver args := by
  rw [linked, linked, Dispatcher.link_of_extends hd]

theorem Site.apply_of_extends {site : Site}
    (hstrict : (site.apply strict s receiver args).1.result.isOk) :
    site.apply lax s receiver args = site.apply strict s receiver args := by
  rw [apply, apply, linked_of_extends hd, hd.registry]
  exact settle_of_extends hd (Dispatcher.apply_of_extends hd) hstrict

theorem Site.assign_of_extends {site : Site} (hstrict : (site.assign strict s a).1.result.isOk) :
    site.assign lax s a = site.assign strict s a := by
  rw [assign, assign, linked_of_extends hd, hd.registry]
  exact settle_of_extends hd (Dispatcher.assign_of_extends hd) hstrict

end

/-! ### Programs -/

theorem isOk_map {α β : Type} (f : α → β) (result : Except Fault α) :
    (result.map f).isOk = result.isOk := by
  cases result with
  | error => rfl
  | ok => rfl

namespace Step

variable {lax strict : Nat → Dispatcher} (hd : ∀ i, (lax i).Extends (strict i))

include hd

/-- A step that succeeds does the same with services that answer more. -/
theorem run_of_extends {step : Step} {w : World} (hstrict : (step.run strict w).1.isOk) :
    step.run lax w = step.run strict w := by
  cases step with
  | applyAt d owner id receiver args =>
    rw [run, runCall, isOk_map] at hstrict
    rw [run, run, runCall, runCall, Site.apply_of_extends (hd d) hstrict]
  | assignAt d owner id a =>
    rw [run, runCall, isOk_map] at hstrict
    rw [run, run, runCall, runCall, Site.assign_of_extends (hd d) hstrict]
  | assign d a =>
    rw [run, isOk_map] at hstrict
    rw [run, run, Dispatcher.assign_of_extends (hd d) hstrict]
  | apply d receiver args =>
    rw [run, isOk_map] at hstrict
    rw [run, run, Dispatcher.apply_of_extends (hd d) hstrict]
  | narrow d v target =>
    rw [run, isOk_map] at hstrict
    cases hnarrow : (strict d).service.narrow w.store.heap v target with
    | error f =>
      rw [hnarrow] at hstrict
      cases hstrict
    | ok e => rw [run, run, hnarrow, (hd d).service.narrow hnarrow]
  | _ => rfl

/-- So does a program all of whose steps succeed, to the last world. -/
theorem runAll_of_extends {program : List Step} {w : World}
    (hstrict : ∀ outcome ∈ runAll strict program w, outcome.1.isOk) :
    runAll lax program w = runAll strict program w := by
  induction program generalizing w with
  | nil => rfl
  | cons step steps ih =>
    rw [runAll, List.forall_mem_cons] at hstrict
    rw [runAll, runAll, run_of_extends hd hstrict.1]
    exact congrArg _ (ih hstrict.2)

end Step

/-! ### The two policies -/

/-- The dispatcher with the standard service, set to a policy. -/
def Dispatcher.under (d : Dispatcher) (policy : NarrowingPolicy) : Dispatcher :=
  { d with service := .standard policy, settings := { d.settings with narrowing := policy } }

theorem Dispatcher.extends_under (d : Dispatcher) :
    (d.under .truncate).Extends (d.under .checked) where
  registry := rfl
  specialize := rfl
  service := CoercionService.extends_truncate

namespace Step

/-- **Truncation follows the checked policy.**  Truncation narrows every number and every character
to every type, and where the checked policy has an element, it is the same one.  So an assignment
that succeeds under the checked policy, whatever the store, the receiver, the index and the payload,
gives the same answer under truncation and leaves the same store; and a program whose steps all
succeed under the checked policy, through whatever dispatchers and from whatever world, answers the
same under truncation and goes through the same worlds. -/
theorem truncation_follows :
    (∀ v : Value, (v.isNumeric = true ∨ ∃ c, v = .character c) →
      ∀ h t, ∃ e, NarrowingPolicy.truncate.narrow h v t = .ok e) ∧
    (∀ h v t e, NarrowingPolicy.checked.narrow h v t = .ok e →
      NarrowingPolicy.truncate.narrow h v t = .ok e) ∧
    (∀ (handler : Handler) s a, (handler.assign (.standard .checked) s a).result.isOk →
      handler.assign (.standard .truncate) s a = handler.assign (.standard .checked) s a) ∧
    ∀ (dispatchers : Nat → Dispatcher) program w,
      (∀ outcome ∈ runAll (fun i => (dispatchers i).under .checked) program w, outcome.1.isOk) →
        runAll (fun i => (dispatchers i).under .truncate) program w =
          runAll (fun i => (dispatchers i).under .checked) program w := by
  refine ⟨fun v hv h t => NarrowingPolicy.exists_truncate_narrow hv h t,
    fun h v t e hchecked => NarrowingPolicy.truncate_narrow_of_checked hchecked,
    fun handler s a hchecked => ?_, fun dispatchers program w hchecked => ?_⟩
  · exact Handler.assign_of_extends CoercionService.extends_truncate hchecked
  · exact runAll_of_extends (fun i => (dispatchers i).extends_under) hchecked

/-! NaN, which only truncation narrows to an integer; an integer of any size, under both policies;
and a program that assigns an element, a character, a text and numbers in other boxes. -/

def mixed : List Step :=
  [applyAt 0 .standalone 7 shorts [.integer 0, .short 5],
    assign 1 ⟨shorts, .integer 1, .character 'é'⟩,
    assignAt 1 .standalone 7 ⟨shorts, .integer (-1), .bigInteger (-32768)⟩,
    apply 2 shorts [.long 0, .template ["", ""] [.integer 7]],
    invoke 2 3 shorts [.bigInteger 1, .double (.ofInt .double (-300))],
    narrow 0 (.double (.infinite true)) .float]

theorem truncation_follows_mixed :
    let start := World.fresh threeShorts
    let checkedRun := runAll (fun i => (oneRegistry i).under .checked) mixed start
    let truncatedRun := runAll (fun i => (oneRegistry i).under .truncate) mixed start
    let least := (Handler.builtin .short).assign (.standard .checked) start.store
      ⟨shorts, .integer 0, .bigInteger (-32768)⟩
    (Value.double .nan).isNumeric = true ∧
    (∃ e, NarrowingPolicy.truncate.narrow .empty (.double .nan) .int = .ok e) ∧
    NarrowingPolicy.checked.narrow .empty (.bigInteger (-32768)) .short =
      .ok (.short (-32768)) ∧
    NarrowingPolicy.truncate.narrow .empty (.bigInteger (-32768)) .short =
      .ok (.short (-32768)) ∧
    least.result.isOk ∧
    (Handler.builtin .short).assign (.standard .truncate) start.store
      ⟨shorts, .integer 0, .bigInteger (-32768)⟩ = least ∧
    (∀ outcome ∈ checkedRun, outcome.1.isOk) ∧ truncatedRun = checkedRun ∧
    truncatedRun.getLast?.map (fun outcome => outcome.2.store.heap.cells.map Storage.slots) =
      some #[#[.short 55, .short (-300), .short (-32768)]] := by
  intro start checkedRun truncatedRun least
  obtain ⟨hnumbers, hvalues, hassignments, hprograms⟩ := truncation_follows
  have hnumeric : (Value.double .nan).isNumeric = true := rfl
  have hchecked : NarrowingPolicy.checked.narrow .empty (.bigInteger (-32768)) .short =
      .ok (.short (-32768)) := by decide +kernel
  have hleast : least.result.isOk := by decide +kernel
  have hsucceeds : ∀ outcome ∈ checkedRun, outcome.1.isOk := by decide +kernel
  exact ⟨hnumeric, hnumbers _ (Or.inl hnumeric) .empty .int, hchecked,
    hvalues _ _ _ _ hchecked, hleast, hassignments _ _ _ hleast, hsucceeds,
    hprograms oneRegistry mixed start hsucceeds, by decide +kernel⟩

end Step

end InlineCache
