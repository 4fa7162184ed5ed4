/-
The two forms of a call at one site.

* `Site.apply_eq_assign`: on a site whose entry does not refuse the payload, the two forms are the
  same;
* `Site.apply_of_refuses`, `Site.assign_of_refuses`: where it does, the one form goes to the
  handler and counts a fallback, and the other reports the fault at once;
* `Site.reply_apply_eq_reply_assign_iff`: so the replies differ exactly if the refusal disagrees
  with the handler in force;
* `Site.Alike`: sites that agree but for their fallbacks stay so through calls of either form.
-/
import InlineCache.Proofs.Transparency

namespace InlineCache

/-! ### Entries -/

namespace ElementType

theorem arrayName_ne_boxedName (t u : ElementType) : u.arrayName ≠ t.boxedName := by
  cases t <;> cases u <;> decide

/-- The values of the boxed class are told by its name. -/
theorem isSome_unbox?_iff (t : ElementType) (v : Value) :
    (t.unbox? v).isSome ↔ v.typeName = t.boxedName := by
  cases v with
  | array array =>
    have hne := arrayName_ne_boxedName t array.type
    cases t <;> simpa [unbox?, Value.typeName] using hne
  | _ => cases t <;> simp [unbox?, Value.typeName, boxedName]

end ElementType

namespace Entry

variable {e : Entry} {r : Registry} {a : Assignment}

/-- The forms part only where the entry refuses the payload. -/
theorem apply_eq_assign (h : e.refuses r a = false) (heap : Heap) :
    e.apply r heap a.receiver [a.index, a.value] = e.assign r heap a := by
  show (if e.valid r then _ else _) = e.assign r heap a
  rw [assign]
  by_cases hv : e.valid r = true
  · rw [if_pos hv, if_pos hv]
    cases hcheck : e.check a with
    | mismatchedPayload =>
      cases hpayload : e.type.classify a.value with
      | incompatible =>
        have hrefuses := refuses_of_check hv hcheck hpayload
        rw [h] at hrefuses
        cases hrefuses
      | _ => rfl
    | _ => rfl
  · rw [if_neg hv, if_neg hv]

theorem apply_of_refuses (h : e.refuses r a = true) (heap : Heap) :
    e.apply r heap a.receiver [a.index, a.value] = .fallback .mismatchedPayload := by
  have hv := valid_of_admits (admits_of_refuses h)
  simp only [apply, hv, if_true, check_of_refuses h]

theorem assign_of_refuses (h : e.refuses r a = true) (heap : Heap) :
    e.assign r heap a = .fault (e.type.mismatch a.value) := by
  have hv := valid_of_admits (admits_of_refuses h)
  simp only [assign, hv, if_true, check_of_refuses h, classify_of_refuses h]

/-- What has the name of the boxed class is not refused. -/
theorem refuses_of_typeName {value : Value} (h : value.typeName = e.type.boxedName)
    (receiver index : Value) : e.refuses r ⟨receiver, index, value⟩ = false := by
  obtain ⟨element, helement⟩ :=
    Option.isSome_iff_exists.mp ((ElementType.isSome_unbox?_iff e.type value).mpr h)
  have hclassify : e.type.classify value = .exact element := by
    rw [ElementType.classify, helement]
  rw [refuses, hclassify]
  exact Bool.and_false _

end Entry

/-! ### Sites -/

/-- A site but for the number of its fallbacks. -/
def Site.outline (site : Site) : Site :=
  { site with stats := { site.stats with fallbacks := 0 } }

namespace Site

/-- The site holds an entry that refuses the payload. -/
def refuses (site : Site) (d : Dispatcher) (s : Store) (a : Assignment) : Bool :=
  match site.state with
  | .specialized e => e.refuses (s.registry d.registry) a
  | _ => false

section

variable {site : Site} {d : Dispatcher} {s : Store} {a : Assignment}

theorem exists_of_refuses (h : site.refuses d s a = true) :
    ∃ e, site.state = .specialized e ∧ e.refuses (s.registry d.registry) a = true := by
  rw [refuses] at h
  split at h
  · exact ⟨_, ‹_›, h⟩
  · cases h

/-- An entry does not refuse the call that it is made for. -/
theorem refuses_linked :
    (site.linked d s a.receiver [a.index, a.value]).refuses d s a = site.refuses d s a := by
  cases hstate : site.state with
  | passThrough | specialized =>
    have hsame : site.linked d s a.receiver [a.index, a.value] = site := by rw [linked, hstate]
    rw [hsame]
  | unlinked =>
    -- the entry, if this call makes one, is for the class of its payload
    have hlinked : (site.linked d s a.receiver [a.index, a.value]).state =
        d.link s a.receiver [a.index, a.value] := by rw [linked, hstate]
    have hnever : site.refuses d s a = false := by rw [refuses, hstate]
    rw [hnever, refuses, hlinked]
    cases hlink : d.link s a.receiver [a.index, a.value] with
    | unlinked | passThrough => rfl
    | specialized e =>
      obtain ⟨-, -, -, hnames⟩ := Dispatcher.link_eq_specialized hlink
      have hname : a.value.typeName = e.type.boxedName := by
        simp only [List.map_cons, List.cons.injEq] at hnames
        exact hnames.2.1
      exact Entry.refuses_of_typeName hname a.receiver a.index

/-- Where no entry refuses the payload, the two forms of a call are the same. -/
theorem apply_eq_assign (h : site.refuses d s a = false) :
    site.apply d s a.receiver [a.index, a.value] = site.assign d s a := by
  rw [← refuses_linked] at h
  rw [apply, assign, settle, settle]
  cases hstate : (site.linked d s a.receiver [a.index, a.value]).state with
  | unlinked | passThrough => rfl
  | specialized e =>
    have hentry : e.refuses (s.registry d.registry) a = false := by
      rw [refuses, hstate] at h
      exact h
    simp only [Entry.apply_eq_assign hentry]
    rfl

/-- In the list form, a refused payload is handed back to the handler. -/
theorem apply_of_refuses (h : site.refuses d s a = true) :
    site.apply d s a.receiver [a.index, a.value] = (d.assign s a, site.countFallback) := by
  obtain ⟨e, hstate, hrefuses⟩ := exists_of_refuses h
  have hlinked : site.linked d s a.receiver [a.index, a.value] = site := by rw [linked, hstate]
  rw [apply, hlinked, settle, hstate]
  simp only [Entry.apply_of_refuses hrefuses]
  rfl

/-- In the other form, it is the fault of the built-in assignment, and nothing is counted. -/
theorem assign_of_refuses (h : site.refuses d s a = true) :
    ∃ e, site.state = .specialized e ∧ e.refuses (s.registry d.registry) a = true ∧
      site.assign d s a = ((Handler.builtin e.type).assign d.service s a, site) := by
  obtain ⟨e, hstate, hrefuses⟩ := exists_of_refuses h
  have hlinked : site.linked d s a.receiver [a.index, a.value] = site := by rw [linked, hstate]
  refine ⟨e, hstate, hrefuses, ?_⟩
  rw [assign, hlinked, settle, hstate, Entry.builtin_assign_of_refuses hrefuses]
  simp only [Entry.assign_of_refuses hrefuses]

/-- The two forms of a call get different replies exactly if the entry refuses the payload and
overlooks a handler. -/
theorem reply_apply_eq_reply_assign_iff :
    (site.apply d s a.receiver [a.index, a.value]).1 = (site.assign d s a).1 ↔
      ¬ site.Overlooks d s a Entry.refuses := by
  by_cases h : site.refuses d s a = true
  · obtain ⟨e, hstate, hrefuses, hassign⟩ := assign_of_refuses h
    have hgeneric := d.assign_of_elementType? s
      (Entry.elementType?_of_admits (Entry.admits_of_refuses hrefuses))
    rw [apply_of_refuses h, hassign, hgeneric]
    constructor
    · rintro heq ⟨e', hstate', -, hoverlooks⟩
      obtain rfl : e = e' := SiteState.specialized.inj (hstate.symm.trans hstate')
      exact hoverlooks heq
    · intro hnever
      by_contra hne
      exact hnever ⟨e, hstate, hrefuses, hne⟩
  · have hfalse : site.refuses d s a = false := Bool.eq_false_iff.mpr h
    rw [apply_eq_assign hfalse]
    refine ⟨?_, fun _ => rfl⟩
    rintro - ⟨e, hstate, hrefuses, -⟩
    exact h (by rw [refuses, hstate]; exact hrefuses)

end

/-- Sites that differ only in their fallbacks, which agree, as words, once each has got its
credit. -/
structure Alike (k m : Nat) (x y : Site) : Prop where
  outline : y.outline = x.outline
  fallbacks : x.stats.fallbacks + UInt64.ofNat k = y.stats.fallbacks + UInt64.ofNat m

namespace Alike

/-- It is all the same whether a call is counted before or after the credit is given. -/
theorem counted_credited (counter credit : UInt64) :
    counter + 1 + credit = counter + credit + 1 := by
  rw [UInt64.add_assoc, UInt64.add_comm 1, ← UInt64.add_assoc]

variable {k m : Nat} {x y : Site}

theorem state_eq (h : Alike k m x y) : y.state = x.state := by
  show y.outline.state = x.outline.state
  rw [h.outline]

theorem refuses_eq (h : Alike k m x y) (d : Dispatcher) (s : Store) (a : Assignment) :
    y.refuses d s a = x.refuses d s a := by rw [refuses, refuses, h.state_eq]

theorem symm (h : Alike k m x y) : Alike m k y x := ⟨h.outline.symm, h.fallbacks.symm⟩

/-- Changes that have nothing to do with fallbacks. -/
theorem map (h : Alike k m x y) (f : Site → Site)
    (houtline : ∀ site, (f site).outline = f site.outline)
    (hfallbacks : ∀ site, (f site).stats.fallbacks = site.stats.fallbacks) :
    Alike k m (f x) (f y) := by
  refine ⟨?_, ?_⟩
  · rw [houtline, houtline, h.outline]
  · rw [hfallbacks, hfallbacks]
    exact h.fallbacks

theorem countFallback (h : Alike k m x y) : Alike k m x.countFallback y.countFallback := by
  refine ⟨h.outline, ?_⟩
  show x.stats.fallbacks + 1 + UInt64.ofNat k = y.stats.fallbacks + 1 + UInt64.ofNat m
  rw [counted_credited, h.fallbacks, counted_credited]

variable (d : Dispatcher) (s : Store)

theorem linked (h : Alike k m x y) (receiver : Value) (args : List Value) :
    Alike k m (x.linked d s receiver args) (y.linked d s receiver args) := by
  refine h.map (fun site => site.linked d s receiver args) (fun site => ?_) (fun site => ?_)
  · obtain ⟨id, state, stats⟩ := site
    cases state <;> rfl
  · obtain ⟨id, state, stats⟩ := site
    cases state <;> rfl

theorem settle (h : Alike k m x y) (receiver : Value) (args : List Value)
    (attempt : Entry → EntryOutcome) (generic : Reply) :
    (x.settle d s receiver args attempt generic).1 =
        (y.settle d s receiver args attempt generic).1 ∧
      Alike k m (x.settle d s receiver args attempt generic).2
        (y.settle d s receiver args attempt generic).2 := by
  rw [Site.settle, Site.settle, h.state_eq]
  cases x.state with
  | unlinked | passThrough => exact ⟨rfl, h.map countGeneric (fun _ => rfl) (fun _ => rfl)⟩
  | specialized e =>
    dsimp only
    cases attempt e with
    | done => exact ⟨rfl, h.map countHit (fun _ => rfl) (fun _ => rfl)⟩
    | fault => exact ⟨rfl, h⟩
    | fallback reason =>
      refine ⟨rfl, ?_⟩
      cases reason with
      | staleGuard =>
        exact h.countFallback.map (·.relinked d s receiver args) (fun _ => rfl) (fun _ => rfl)
      | _ => exact h.countFallback

theorem apply (h : Alike k m x y) (receiver : Value) (args : List Value) :
    (x.apply d s receiver args).1 = (y.apply d s receiver args).1 ∧
      Alike k m (x.apply d s receiver args).2 (y.apply d s receiver args).2 :=
  (h.linked d s receiver args).settle d s receiver args _ _

theorem assign (h : Alike k m x y) (a : Assignment) :
    (x.assign d s a).1 = (y.assign d s a).1 ∧
      Alike k m (x.assign d s a).2 (y.assign d s a).2 :=
  (h.linked d s a.receiver [a.index, a.value]).settle d s a.receiver [a.index, a.value] _ _

/-- Two forms of a call that get one reply leave sites that are alike, where a refusal in the list
form counts as credit for the other site. -/
theorem apply_assign (h : Alike k m x y) (a : Assignment) :
    Alike k (m + if x.refuses d s a then 1 else 0)
      (x.apply d s a.receiver [a.index, a.value]).2 (y.assign d s a).2 := by
  by_cases hrefuses : x.refuses d s a = true
  · obtain ⟨e, -, -, hassign⟩ := assign_of_refuses ((h.refuses_eq d s a).trans hrefuses)
    -- one site counts a fallback and the other nothing
    rw [apply_of_refuses hrefuses, hassign, if_pos hrefuses]
    refine ⟨h.outline, ?_⟩
    show x.stats.fallbacks + 1 + UInt64.ofNat k = y.stats.fallbacks + UInt64.ofNat (m + 1)
    rw [counted_credited, h.fallbacks, UInt64.ofNat_add, ← UInt64.add_assoc]
    rfl
  · have hfalse : x.refuses d s a = false := Bool.eq_false_iff.mpr hrefuses
    rw [apply_eq_assign hfalse, if_neg hrefuses]
    exact (h.assign d s a).2

end Alike

end Site

end InlineCache
