/-
Guards are sound.

An entry is sound for a registry when its guard is no later than the version of its type there,
and vouches for the built-in handler while it is that version (`Entry.Sound`).

* `Entry.Sound.replay`: redefinitions keep an entry sound, as long as the version does not run
  past the last word and begin again;
* `Site.sound_apply`, `Site.sound_assign`: calls keep a site sound for the registry of the
  dispatcher that they are made through;
* `guard_sound`: a site that is called through dispatchers of one registry only is sound for that
  registry after every program, so its fast path is taken under built-in handlers only.

Design notes: a call first changes the site, in view of the registries before the call, and then
the registries change by the redefinitions of the call.  The site is shown to be sound for the
registries before, and stays so through the redefinitions.  The bound on redefinitions is carried
as a budget: the present version and the redefinitions still to come must not add up to `2 ^ 64`.
-/
import InlineCache.Proofs.Redefinitions
import Mathlib.Algebra.Group.Nat.Defs

namespace InlineCache

/-- The guard is no later than the version of the type, and while it is that version, the built-in
handler of the type is in force. -/
structure Entry.Sound (e : Entry) (r : Registry) : Prop where
  guard_le : e.guard ≤ r.version e.type
  builtin : e.guard = r.version e.type → r.handler e.type = .builtin e.type

/-- A history that does not exhaust the versions of the type keeps an entry sound. -/
theorem Entry.Sound.replay {e : Entry} {registries : Nat → Registry} {i : Nat}
    (h : e.Sound (registries i)) {history : List Redefinition}
    (hfew : ((registries i).version e.type).toNat + Redefinition.count i e.type history < 2 ^ 64) :
    e.Sound (Redefinition.replay history registries i) := by
  rcases Nat.eq_zero_or_pos (Redefinition.count i e.type history) with hnone | hsome
  · have hkept := Redefinition.resolve_replay hnone registries
    refine ⟨?_, ?_⟩
    · rw [Registry.version, hkept]
      exact h.guard_le
    · rw [Registry.version, Registry.handler, hkept]
      exact h.builtin
  · -- the version has moved on, so the guard vouches for nothing any more
    have hversion : ((Redefinition.replay history registries i).version e.type).toNat =
        ((registries i).version e.type).toNat + Redefinition.count i e.type history := by
      rw [Redefinition.version_replay, UInt64.toNat_add, UInt64.toNat_ofNat']
      omega
    have hguard : e.guard.toNat ≤ ((registries i).version e.type).toNat :=
      UInt64.le_iff_toNat_le.mp h.guard_le
    refine ⟨UInt64.le_iff_toNat_le.mpr (by omega), fun heq => ?_⟩
    have := congrArg UInt64.toNat heq
    omega

/-! ### Calls keep sites sound -/

/-- The entry of the site, if it has one, is sound. -/
def Site.Sound (site : Site) (r : Registry) : Prop :=
  ∀ e, site.state = .specialized e → e.Sound r

namespace Site

variable {d : Dispatcher} {s : Store}

theorem sound_of_state_eq_link {site : Site} {receiver : Value} {args : List Value}
    (h : site.state = d.link s receiver args) : site.Sound (s.registry d.registry) := by
  intro e he
  obtain ⟨-, hhandler, hguard, -⟩ := Dispatcher.link_eq_specialized (h.symm.trans he)
  exact ⟨hguard ▸ UInt64.le_refl _, fun _ => hhandler⟩

theorem sound_linked {site : Site} (h : site.Sound (s.registry d.registry)) (receiver : Value)
    (args : List Value) : (site.linked d s receiver args).Sound (s.registry d.registry) := by
  cases hstate : site.state with
  | unlinked =>
    -- a new entry is made for this very registry
    exact sound_of_state_eq_link (by rw [linked, hstate])
  | passThrough | specialized =>
    have hsame : site.linked d s receiver args = site := by rw [linked, hstate]
    rw [hsame]
    exact h

theorem sound_settle {site : Site} (h : site.Sound (s.registry d.registry)) (receiver : Value)
    (args : List Value) (attempt : Entry → EntryOutcome) (generic : Reply) :
    (site.settle d s receiver args attempt generic).2.Sound (s.registry d.registry) := by
  rw [settle]
  cases site.state with
  | unlinked | passThrough => exact h
  | specialized e =>
    dsimp only
    cases attempt e with
    | done | fault => exact h
    | fallback reason =>
      cases reason with
      | staleGuard => exact sound_of_state_eq_link rfl
      | _ => exact h

theorem sound_apply {site : Site} (h : site.Sound (s.registry d.registry)) (receiver : Value)
    (args : List Value) : (site.apply d s receiver args).2.Sound (s.registry d.registry) :=
  sound_settle (sound_linked h receiver args) receiver args _ _

theorem sound_assign {site : Site} (h : site.Sound (s.registry d.registry)) (a : Assignment) :
    (site.assign d s a).2.Sound (s.registry d.registry) :=
  sound_settle (sound_linked h a.receiver [a.index, a.value]) a.receiver [a.index, a.value] _ _

/-- An entry that could answer a call was made under the handler that is in force. -/
theorem Sound.handler_eq {site : Site} {r : Registry} (h : site.Sound r) {e : Entry}
    (hstate : site.state = .specialized e) {a : Assignment} (ha : e.admits r a = true) :
    r.handler e.type = .builtin e.type := by
  have hvalid := Entry.valid_of_admits ha
  simp only [Entry.valid, beq_iff_eq] at hvalid
  exact (h e hstate).builtin hvalid.symm

/-- The fast path of a sound site is taken under the built-in handler of the receiver's type. -/
theorem handler_of_fastApply? {site : Site} (h : site.Sound (s.registry d.registry))
    {receiver : Value} {args : List Value} {reply : Reply}
    (hfast : site.fastApply? d s receiver args = some reply) :
    ∃ t, receiver.elementType? = some t ∧ (s.registry d.registry).handler t = .builtin t := by
  obtain ⟨index, value, rfl, e, hstate, hperforms, -⟩ := fastApply?_eq_some hfast
  have ha := Entry.admits_of_performs hperforms
  exact ⟨e.type, Entry.elementType?_of_admits ha, (sound_linked h _ _).handler_eq hstate ha⟩

theorem handler_of_fastAssign? {site : Site} (h : site.Sound (s.registry d.registry))
    {a : Assignment} {reply : Reply} (hfast : site.fastAssign? d s a = some reply) :
    ∃ t, a.receiver.elementType? = some t ∧ (s.registry d.registry).handler t = .builtin t := by
  obtain ⟨e, hstate, hanswers, -⟩ := fastAssign?_eq_some hfast
  have ha := Entry.admits_of_answers hanswers
  exact ⟨e.type, Entry.elementType?_of_admits ha, (sound_linked h _ _).handler_eq hstate ha⟩

end Site

/-! ### Whole programs -/

namespace Step

variable {dispatchers : Nat → Dispatcher} {owner : Owner} {id : UInt64} {registry : Nat}

/-- Every call of the site in a program is made through a dispatcher with the registry. -/
def CallsShare (dispatchers : Nat → Dispatcher) (owner : Owner) (id : UInt64) (registry : Nat)
    (program : List Step) : Prop :=
  ∀ step ∈ program, ∀ d, step.call? = some (d, owner, id) → (dispatchers d).registry = registry

/-- A step keeps a site sound for the registries before the step. -/
theorem sound_site_run {step : Step} {w : World}
    (hstep : ∀ d, step.call? = some (d, owner, id) → (dispatchers d).registry = registry)
    (h : (w.site owner id).Sound (w.store.registry registry)) :
    ((step.run dispatchers w).2.site owner id).Sound (w.store.registry registry) := by
  cases step with
  | applyAt d owner' id' receiver args =>
    show ((runCall w d owner' id' _).2.site owner id).Sound _
    rw [site_runCall _ _ _ _ _ fun _ => Site.id_apply ..]
    by_cases hsite : owner = owner' ∧ id = id'
    · obtain ⟨rfl, rfl⟩ := hsite
      obtain rfl := hstep d rfl
      rw [if_pos ⟨rfl, rfl⟩]
      exact Site.sound_apply h receiver args
    · rw [if_neg hsite]
      exact h
  | assignAt d owner' id' a =>
    show ((runCall w d owner' id' _).2.site owner id).Sound _
    rw [site_runCall _ _ _ _ _ fun _ => Site.id_assign ..]
    by_cases hsite : owner = owner' ∧ id = id'
    · obtain ⟨rfl, rfl⟩ := hsite
      obtain rfl := hstep d rfl
      rw [if_pos ⟨rfl, rfl⟩]
      exact Site.sound_assign h a
    · rw [if_neg hsite]
      exact h
  | _ =>
    rw [site_run_of_call?_eq_none dispatchers w rfl]
    exact h

/-- A site is sound for a registry, and remains so whatever of the steps to come is run. -/
structure Guarded (dispatchers : Nat → Dispatcher) (owner : Owner) (id : UInt64) (registry : Nat)
    (steps : List Step) (w : World) : Prop where
  share : CallsShare dispatchers owner id registry steps
  sound : (w.site owner id).Sound (w.store.registry registry)
  few : ∀ t, ((w.store.registry registry).version t).toNat +
    Redefinition.count registry t (history dispatchers steps w) < 2 ^ 64

theorem Guarded.run {step : Step} {steps : List Step} {w : World}
    (h : Guarded dispatchers owner id registry (step :: steps) w) :
    Guarded dispatchers owner id registry steps (step.run dispatchers w).2 := by
  -- what this step redefines comes out of what may still be redefined
  have hbudget : ∀ t, ((w.store.registry registry).version t).toNat +
      (Redefinition.count registry t (step.redefinitions dispatchers w) +
        Redefinition.count registry t (history dispatchers steps (step.run dispatchers w).2))
      < 2 ^ 64 := by
    intro t
    rw [← Redefinition.count_append]
    exact h.few t
  refine ⟨fun later hlater => h.share later (List.mem_cons_of_mem _ hlater), ?_, fun t => ?_⟩
  · rw [registry_run]
    intro e he
    have hsound := sound_site_run (h.share step List.mem_cons_self) h.sound
    exact (hsound e he).replay (by have := hbudget e.type; omega)
  · have := hbudget t
    rw [registry_run, Redefinition.version_replay, UInt64.toNat_add, UInt64.toNat_ofNat']
    omega

/-- Before a program starts, no site has an entry and no version is past zero. -/
theorem Guarded.initial {heap : Heap} {program : List Step}
    (hshare : CallsShare dispatchers owner id registry program)
    (hfew : ∀ t, Redefinition.count registry t
      (history dispatchers program (.fresh heap)) < 2 ^ 64) :
    Guarded dispatchers owner id registry program (.fresh heap) := by
  refine ⟨hshare, ?_, fun t => ?_⟩
  · intro e he
    cases he
  · show (Registry.initial.version t).toNat + _ < _
    rw [Registry.version_initial, UInt64.toNat_zero, Nat.zero_add]
    exact hfew t

/-- **Guards are sound.**  If a site is called only through dispatchers that share a registry, and
that registry sees fewer than `2 ^ 64` redefinitions of any type, then after every program the
guard of the site's entry is at most the current version of its type, and vouches for the built-in
handler of exactly that type if it is the current version.  So no call through the site takes the
fast path while the registry resolves the receiver's type to any other handler. -/
theorem guard_sound (dispatchers : Nat → Dispatcher) (heap : Heap) (program : List Step)
    (owner : Owner) (id : UInt64) (registry : Nat)
    (hshare : CallsShare dispatchers owner id registry program)
    (hfew : ∀ t, Redefinition.count registry t
      (history dispatchers program (.fresh heap)) < 2 ^ 64) :
    let w := (World.fresh heap).after dispatchers program
    let r := w.store.registry registry
    (∀ e, (w.site owner id).state = .specialized e →
      e.guard ≤ r.version e.type ∧
        (e.guard = r.version e.type → r.handler e.type = .builtin e.type)) ∧
    ∀ d : Dispatcher, d.registry = registry →
      (∀ receiver args reply,
        (w.site owner id).fastApply? d w.store receiver args = some reply →
          ∃ t, receiver.elementType? = some t ∧ r.handler t = .builtin t) ∧
      ∀ a reply, (w.site owner id).fastAssign? d w.store a = some reply →
        ∃ t, a.receiver.elementType? = some t ∧ r.handler t = .builtin t := by
  intro w r
  have hguarded : Guarded dispatchers owner id registry [] w :=
    after_of_invariant (fun _ _ _ h => h.run) (Guarded.initial hshare hfew)
  have hsound : (w.site owner id).Sound r := hguarded.sound
  refine ⟨fun e he => ⟨(hsound e he).guard_le, (hsound e he).builtin⟩, ?_⟩
  rintro d rfl
  exact ⟨fun receiver args reply h => Site.handler_of_fastApply? hsound h,
    fun a reply h => Site.handler_of_fastAssign? hsound h⟩

/-! A site that is specialised for `short[]`, sees a foreign built-in handler come and go, and is
specialised again; the last call is made through another dispatcher. -/

def threeShorts : Heap := ⟨#[Storage.zeroed .short 3]⟩

def shorts : Value := .array ⟨0, .short, 3⟩

/-- The dispatchers have one registry, and all but one never specialise. -/
def oneRegistry (d : Nat) : Dispatcher := ⟨0, .standard .truncate, ⟨d == 0, .truncate⟩⟩

def restored : List Step :=
  [applyAt 0 .standalone 7 shorts [.integer 0, .short 5], redefine 0 .short (.builtin .int),
    restore 0 .short, applyAt 0 .standalone 7 shorts [.integer 1, .short 6],
    assignAt 1 .standalone 7 ⟨shorts, .integer 2, .short 7⟩]

theorem guard_sound_restored :
    CallsShare oneRegistry .standalone 7 0 restored ∧
    (∀ t, Redefinition.count 0 t (history oneRegistry restored (.fresh threeShorts)) < 2 ^ 64) ∧
    (((World.fresh threeShorts).after oneRegistry restored).site .standalone 7).state =
      .specialized ⟨.short, 2⟩ ∧
    2 ≤ (((World.fresh threeShorts).after oneRegistry restored).store.registry 0).version .short ∧
    (((World.fresh threeShorts).after oneRegistry restored).store.registry 0).handler .short =
      .builtin .short := by
  have hshare : CallsShare oneRegistry .standalone 7 0 restored := fun _ _ _ _ => rfl
  have hfew : ∀ t,
      Redefinition.count 0 t (history oneRegistry restored (.fresh threeShorts)) < 2 ^ 64 :=
    fun t => Nat.lt_of_le_of_lt (Redefinition.count_le_length 0 t _) (by decide +kernel)
  have hstate : (((World.fresh threeShorts).after oneRegistry restored).site .standalone 7).state =
      .specialized ⟨.short, 2⟩ := by decide +kernel
  have hsound := guard_sound oneRegistry threeShorts restored .standalone 7 0 hshare hfew
  obtain ⟨hguard, hbuiltin⟩ := hsound.1 ⟨.short, 2⟩ hstate
  exact ⟨hshare, hfew, hstate, hguard, hbuiltin (by decide +kernel)⟩

end Step

end InlineCache
