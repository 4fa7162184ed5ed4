/-
Call sites are transparent.

A program without its sites (`Step.uncached`) makes every call generically, through the dispatcher
that the call is made through.  Two runs are compared by all that can be observed of them but
their sites (`Step.observed`).

* `Site.reply_apply_eq_iff`, `Site.reply_assign_eq_iff`: a single call differs from its generic
  form exactly if the site's entry overlooks a handler (`Entry.Overlooks`): the guard is the
  current version in the registry at hand, but the handler in force there is not the built-in one
  that the entry stands for;
* `transparent_iff`: a run differs from the run without sites exactly if some call of it does;
* `transparent`: no call does where every site keeps to one registry.

Design notes: a guard is a number that each registry counts for itself, so it means nothing to
another registry.  `overlooked_override` is a run in which two registries have counted alike.
-/
import InlineCache.Proofs.GuardSoundness
import Mathlib.Tactic.ByContra
import Mathlib.Tactic.Choose

namespace InlineCache

/-- What the entry stands for is not what the handler in force would do. -/
def Entry.Overlooks (e : Entry) (d : Dispatcher) (s : Store) (a : Assignment) : Prop :=
  ((s.registry d.registry).handler e.type).assign d.service s a ≠
    (Handler.builtin e.type).assign d.service s a

/-! ### Single calls -/

namespace Site

variable {site : Site} {d : Dispatcher} {s : Store}

/-- A call tries the entry that the site holds, or else one that it has just got. -/
theorem state_of_linked {receiver : Value} {args : List Value} {e : Entry}
    (h : (site.linked d s receiver args).state = .specialized e) :
    site.state = .specialized e ∨ d.link s receiver args = .specialized e := by
  rw [linked] at h
  split at h
  · exact Or.inr h
  · exact Or.inl h

/-- The site holds an entry that answers, and that overlooks a handler. -/
def Overlooks (site : Site) (d : Dispatcher) (s : Store) (a : Assignment)
    (answers : Entry → Registry → Assignment → Bool) : Prop :=
  ∃ e, site.state = .specialized e ∧ answers e (s.registry d.registry) a = true ∧ e.Overlooks d s a

/-- In whatever form, a call differs from the generic assignment exactly if its entry overlooks a
handler. -/
theorem getD_shortcut?_eq_iff {receiver : Value} {args : List Value} {a : Assignment}
    {attempt : Entry → EntryOutcome} {answers : Entry → Registry → Assignment → Bool}
    (hattempt : ∀ e, (attempt e).reply? s =
      if answers e (s.registry d.registry) a then
        some ((Handler.builtin e.type).assign d.service s a)
      else none)
    (hadmits : ∀ e, answers e (s.registry d.registry) a = true →
      e.admits (s.registry d.registry) a = true) :
    ((site.linked d s receiver args).shortcut? s attempt).getD (d.assign s a) = d.assign s a ↔
      ¬ site.Overlooks d s a answers := by
  have hgeneric : ∀ e, answers e (s.registry d.registry) a = true →
      d.assign s a = ((s.registry d.registry).handler e.type).assign d.service s a :=
    fun e he => d.assign_of_elementType? s (Entry.elementType?_of_admits (hadmits e he))
  constructor
  · rintro hreply ⟨e, hstate, hanswers, hoverlooks⟩
    have hlinked : site.linked d s receiver args = site := by rw [linked, hstate]
    have hfast : (site.linked d s receiver args).shortcut? s attempt =
        some ((Handler.builtin e.type).assign d.service s a) := by
      rw [hlinked, shortcut?, hstate]
      exact (hattempt e).trans (if_pos hanswers)
    rw [hfast, Option.getD_some, hgeneric e hanswers] at hreply
    exact hoverlooks hreply.symm
  · intro hnever
    cases hfast : (site.linked d s receiver args).shortcut? s attempt with
    | none => rfl
    | some reply =>
      obtain ⟨e, hstate, hanswers, rfl⟩ := shortcut?_eq_some hattempt hfast
      rw [Option.getD_some, hgeneric e hanswers]
      rcases state_of_linked hstate with hheld | hmade
      · by_contra hne
        exact hnever ⟨e, hheld, hanswers, fun heq => hne heq.symm⟩
      · -- an entry that this call has made stands for the handler in force
        obtain ⟨-, hhandler, -⟩ := Dispatcher.link_eq_specialized hmade
        rw [hhandler]

theorem reply_apply_eq_iff (receiver index value : Value) :
    (site.apply d s receiver [index, value]).1 = d.assign s ⟨receiver, index, value⟩ ↔
      ¬ site.Overlooks d s ⟨receiver, index, value⟩ Entry.performs := by
  rw [reply_apply]
  exact getD_shortcut?_eq_iff (fun e => e.reply?_apply ..) fun _ => Entry.admits_of_performs

theorem reply_assign_eq_iff (a : Assignment) :
    (site.assign d s a).1 = d.assign s a ↔
      ¬ site.Overlooks d s a Entry.answers := by
  rw [reply_assign]
  exact getD_shortcut?_eq_iff (fun e => e.reply?_assign ..) fun _ => Entry.admits_of_answers

/-- The entry of a sound site overlooks nothing. -/
theorem Sound.not_overlooks (h : site.Sound (s.registry d.registry))
    {answers : Entry → Registry → Assignment → Bool}
    (hadmits : ∀ {e r a}, answers e r a = true → e.admits r a = true) (a : Assignment) :
    ¬ site.Overlooks d s a answers := by
  rintro ⟨e, hstate, hanswers, hoverlooks⟩
  exact hoverlooks (by rw [h.handler_eq hstate (hadmits hanswers)])

end Site

/-! ### What can be observed of a run -/

theorem CoercionCalls.add_left_cancel {a b c : CoercionCalls} (h : a + b = a + c) : b = c := by
  obtain ⟨hcharacters, hnarrowings⟩ := CoercionCalls.mk.inj h
  have hb : b.characters = c.characters := Nat.add_left_cancel hcharacters
  have hn : b.narrowings = c.narrowings := Nat.add_left_cancel hnarrowings
  cases b
  cases c
  simp_all

/-- An answer, but for the site that a look at a site answers. -/
def Answer.hideSite : Answer → Answer
  | .site _ => .done
  | answer => answer

namespace Step

variable {dispatchers : Nat → Dispatcher}

/-- A call through a site becomes a generic one through the same dispatcher. -/
def uncached : Step → Step
  | applyAt d _ _ receiver args => apply d receiver args
  | assignAt d _ _ a => assign d a
  | step => step

/-- What a step answers, the arrays and the registries after it, and what each coercion service
has been asked: all but the sites. -/
def observed (outcome : Except Fault Answer × World) :
    Except Fault Answer × Store × (Nat → CoercionCalls) :=
  (outcome.1.map Answer.hideSite, outcome.2.store, outcome.2.tally)

/-- The step is a call that meets an entry which overlooks a handler, among the entries that answer
calls of its form. -/
def Overlooks (dispatchers : Nat → Dispatcher)
    (listed direct : Entry → Registry → Assignment → Bool) (step : Step) (w : World) : Prop :=
  match step with
  | applyAt d owner id receiver [index, value] =>
    (w.site owner id).Overlooks (dispatchers d) w.store ⟨receiver, index, value⟩ listed
  | assignAt d owner id a => (w.site owner id).Overlooks (dispatchers d) w.store a direct
  | _ => False

/-- What can be observed of a call that gets a reply through dispatcher `d`. -/
def told (w : World) (d : Nat) (reply : Reply) :
    Except Fault Answer × Store × (Nat → CoercionCalls) :=
  (reply.result.map .value, reply.store, (w.count d reply.calls).tally)

/-- Different replies can be told apart. -/
theorem told_inj {w : World} {d : Nat} {reply reply' : Reply} :
    told w d reply = told w d reply' ↔ reply = reply' := by
  refine ⟨fun h => ?_, fun h => by rw [h]⟩
  obtain ⟨result, store, calls⟩ := reply
  obtain ⟨result', store', calls'⟩ := reply'
  simp only [told, Prod.mk.injEq] at h
  obtain ⟨hresult, rfl, htally⟩ := h
  have hcalls : calls = calls' := by
    have hd := congrFun htally d
    simp only [World.count, if_pos] at hd
    exact CoercionCalls.add_left_cancel hd
  have hresults : result = result' := by
    cases result <;> cases result' <;> simp_all [Except.map]
  rw [hcalls, hresults]

section

variable (w : World) (d : Nat)

theorem observed_runCall (owner : Owner) (id : UInt64) (call : Site → Reply × Site) :
    observed (runCall w d owner id call) = told w d (call (w.site owner id)).1 := by
  rw [observed, result_runCall, store_runCall, tally_runCall, told]
  cases (call (w.site owner id)).1.result <;> rfl

theorem observed_absorb (reply : Reply) :
    observed (reply.result.map .value, w.absorb d reply) = told w d reply := by
  rw [observed, told]
  cases reply.result <;> rfl

end

/-- Where the sites do not count, worlds with one store and one tally are alike. -/
structure SameButSites (w v : World) : Prop where
  store : v.store = w.store
  tally : v.tally = w.tally

theorem SameButSites.told_eq {w v : World} (h : SameButSites w v) (d : Nat) (reply : Reply) :
    told v d reply = told w d reply := by
  rw [told, told, World.count, World.count, h.tally]

/-- What is observed of a step includes all that the next one is observed to depend on. -/
theorem SameButSites.of_observed {o o' : Except Fault Answer × World}
    (h : observed o = observed o') : SameButSites o.2 o'.2 := by
  obtain ⟨-, hworld⟩ := Prod.mk.inj h
  obtain ⟨hstore, htally⟩ := Prod.mk.inj hworld
  exact ⟨hstore.symm, htally.symm⟩

/-- A step that is no call through a site does not depend on the sites. -/
theorem observed_run_of_call?_eq_none {step : Step} {w v : World} (hworlds : SameButSites w v)
    (hstep : step.call? = none) :
    observed (step.run dispatchers w) = observed (step.run dispatchers v) := by
  obtain ⟨store, sites, tally⟩ := w
  obtain ⟨store', sites', tally'⟩ := v
  obtain ⟨rfl, rfl⟩ := hworlds
  cases step with
  | applyAt | assignAt => cases hstep
  | _ => rfl

/-- A step is observed as without sites exactly if no entry overlooks a handler in it. -/
theorem observed_run_eq_iff (step : Step) {w v : World} (hworlds : SameButSites w v) :
    observed (step.run dispatchers w) = observed (step.uncached.run dispatchers v) ↔
      ¬ step.Overlooks dispatchers Entry.performs Entry.answers w := by
  cases step with
  | applyAt d owner id receiver args =>
    have hgeneric : observed ((apply d receiver args).run dispatchers v) =
        told w d ((dispatchers d).apply w.store receiver args) := by
      rw [← hworlds.store, ← hworlds.told_eq]
      exact observed_absorb v d _
    show observed (runCall w d owner id _) = observed ((apply d receiver args).run _ v) ↔ _
    rw [observed_runCall, hgeneric, told_inj]
    match args with
    | [index, value] => exact (w.site owner id).reply_apply_eq_iff receiver index value
    | [] | [_] | _ :: _ :: _ :: _ =>
      refine ⟨fun _ h => h, fun _ => ?_⟩
      rw [Site.reply_apply]
      cases hfast : (w.site owner id).fastApply? (dispatchers d) w.store receiver _ with
      | none => rfl
      | some reply =>
        obtain ⟨index, value, hargs, -⟩ := Site.fastApply?_eq_some hfast
        cases hargs
  | assignAt d owner id a =>
    have hgeneric : observed ((assign d a).run dispatchers v) =
        told w d ((dispatchers d).assign w.store a) := by
      rw [← hworlds.store, ← hworlds.told_eq]
      exact observed_absorb v d _
    show observed (runCall w d owner id _) = observed ((assign d a).run _ v) ↔ _
    rw [observed_runCall, hgeneric, told_inj]
    exact (w.site owner id).reply_assign_eq_iff a
  | _ => exact ⟨fun _ h => h, fun _ => observed_run_of_call?_eq_none hworlds rfl⟩

/-- Where every site keeps to one registry, each call finds its site sound. -/
theorem sound_of_guarded {step : Step} {steps : List Step} {w : World}
    {registryOf : Owner → UInt64 → Nat}
    (h : ∀ owner id, Guarded dispatchers owner id (registryOf owner id) (step :: steps) w)
    {d : Nat} {owner : Owner} {id : UInt64} (hcall : step.call? = some (d, owner, id)) :
    (w.site owner id).Sound (w.store.registry (dispatchers d).registry) := by
  rw [(h owner id).share step List.mem_cons_self d hcall]
  exact (h owner id).sound

theorem not_overlooks_of_guarded {step : Step} {steps : List Step} {w : World}
    {registryOf : Owner → UInt64 → Nat}
    (h : ∀ owner id, Guarded dispatchers owner id (registryOf owner id) (step :: steps) w)
    {listed direct : Entry → Registry → Assignment → Bool}
    (hlisted : ∀ {e r a}, listed e r a = true → e.admits r a = true)
    (hdirect : ∀ {e r a}, direct e r a = true → e.admits r a = true) :
    ¬ step.Overlooks dispatchers listed direct w := by
  cases step with
  | applyAt d owner id receiver args =>
    match args with
    | [index, value] => exact (sound_of_guarded h rfl).not_overlooks hlisted _
    | [] | [_] | _ :: _ :: _ :: _ => exact fun hoverlooks => hoverlooks
  | assignAt d owner id a => exact (sound_of_guarded h rfl).not_overlooks hdirect a
  | _ => exact fun hoverlooks => hoverlooks

/-- A run is observed as without sites exactly if no entry overlooks a handler in any step. -/
theorem observed_runAll_eq_iff (program : List Step) {w v : World}
    (hworlds : SameButSites w v) :
    (runAll dispatchers program w).map observed =
        (runAll dispatchers (program.map uncached) v).map observed ↔
      Always dispatchers
        (fun step w => ¬ step.Overlooks dispatchers Entry.performs Entry.answers w) program w := by
  induction program generalizing w v with
  | nil => exact ⟨fun _ => trivial, fun _ => rfl⟩
  | cons step steps ih =>
    simp only [List.map_cons, runAll, List.cons.injEq, Always]
    rw [← observed_run_eq_iff step hworlds]
    -- a step that is observed alike leaves worlds from which the rest can be compared
    refine and_congr_right fun hstep => ?_
    exact ih (SameButSites.of_observed hstep)

/-- **Exactly the overlooked handlers show.**  Whatever sites, registries and arrays a program
starts with, and whichever dispatchers share its sites, every step gives the same result or fault
as in the program without sites, and leaves the same arrays, the same registries and the same
counts of coercions, if and only if no call of the program is answered by an entry whose guard is
the version of its type in the registry of the calling dispatcher, while the handler that this
registry resolves the type to would have done otherwise than the built-in one. -/
theorem transparent_iff (dispatchers : Nat → Dispatcher) (program : List Step) (w : World) :
    (runAll dispatchers program w).map observed =
        (runAll dispatchers (program.map uncached) w).map observed ↔
      Always dispatchers
        (fun step w => ¬ step.Overlooks dispatchers Entry.performs Entry.answers w) program w :=
  observed_runAll_eq_iff program ⟨rfl, rfl⟩

/-! Two registries that have both seen one redefinition of `short`, and a site that is called
through either. -/

/-- Every dispatcher has a registry of its own. -/
def ownRegistry (d : Nat) : Dispatcher := ⟨d, .standard .truncate, ⟨true, .truncate⟩⟩

/-- An override that stores nothing and answers seven. -/
def answerSeven : Handler := .override "user" fun _ => .finish (.ok (.long 7))

def crossing : List Step :=
  [restore 0 .short, redefine 1 .short answerSeven,
    applyAt 0 .standalone 7 shorts [.integer 0, .short 5],
    applyAt 1 .standalone 7 shorts [.integer 1, .short 6]]

/-- The built-in store is performed where the registry at hand holds an override. -/
theorem overlooked_override :
    let start := World.fresh threeShorts
    let cached := (runAll ownRegistry crossing start).map observed
    let generic := (runAll ownRegistry (crossing.map uncached) start).map observed
    cached[3]?.map Prod.fst = some (.ok (.value .null)) ∧
    generic[3]?.map Prod.fst = some (.ok (.value (.long 7))) ∧
    (cached[3]?.bind fun seen => (seen.2.1.heap.get ⟨0, .short, 3⟩ 1).toOption) =
      some (.short 6) ∧
    (generic[3]?.bind fun seen => (seen.2.1.heap.get ⟨0, .short, 3⟩ 1).toOption) =
      some (.short 0) ∧
    cached ≠ generic := by
  intro start cached generic
  have hcached : cached[3]?.map Prod.fst = some (.ok (.value .null)) := rfl
  have hgeneric : generic[3]?.map Prod.fst = some (.ok (.value (.long 7))) := rfl
  refine ⟨hcached, hgeneric, by decide, by decide, fun h => ?_⟩
  rw [h, hgeneric] at hcached
  cases hcached

/-- Where every site keeps to one registry, no call of a program overlooks a handler. -/
theorem never_overlooks_of_share {heap : Heap} {program : List Step}
    (hshare : ∀ owner id, ∃ registry, CallsShare dispatchers owner id registry program)
    (hfew : ∀ registry t, Redefinition.count registry t
      (history dispatchers program (.fresh heap)) < 2 ^ 64)
    {listed direct : Entry → Registry → Assignment → Bool}
    (hlisted : ∀ {e r a}, listed e r a = true → e.admits r a = true)
    (hdirect : ∀ {e r a}, direct e r a = true → e.admits r a = true) :
    Always dispatchers (fun step w => ¬ step.Overlooks dispatchers listed direct w) program
      (.fresh heap) := by
  -- the invariant keeps every site sound, each for the registry that its calls share
  choose registryOf hregistryOf using hshare
  refine Always.of_invariant
    (I := fun steps w => ∀ owner id,
      Guarded dispatchers owner id (registryOf owner id) steps w) ?_ ?_
  · intro step steps w hguarded
    exact ⟨not_overlooks_of_guarded hguarded hlisted hdirect,
      fun owner id => (hguarded owner id).run⟩
  · intro owner id
    exact Guarded.initial (hregistryOf owner id) (hfew _)

/-- **Call sites are transparent.**  Where every site is called only through dispatchers that share
a registry, and no registry sees `2 ^ 64` redefinitions of a type, every step of a program gives
the same result or fault as in the program whose calls are all generic, and leaves the same arrays,
the same registries and the same counts of coercions. -/
theorem transparent (dispatchers : Nat → Dispatcher) (heap : Heap) (program : List Step)
    (hshare : ∀ owner id, ∃ registry, CallsShare dispatchers owner id registry program)
    (hfew : ∀ registry t, Redefinition.count registry t
      (history dispatchers program (.fresh heap)) < 2 ^ 64) :
    (runAll dispatchers program (.fresh heap)).map observed =
      (runAll dispatchers (program.map uncached) (.fresh heap)).map observed := by
  have hnever := never_overlooks_of_share hshare hfew Entry.admits_of_performs
    Entry.admits_of_answers
  exact (observed_runAll_eq_iff program ⟨rfl, rfl⟩).mpr hnever

/-! Two sites of two registries, and an override in one of the registries in between. -/

/-- Each registry has two dispatchers, of which only one specialises. -/
def pairedRegistry (d : Nat) : Dispatcher := ⟨d / 2, .standard .truncate, ⟨d % 2 == 0, .truncate⟩⟩

def interrupted : List Step :=
  [applyAt 0 .standalone 7 shorts [.integer 0, .short 5], redefine 0 .short answerSeven,
    applyAt 1 .standalone 7 shorts [.integer 1, .short 6],
    invoke 2 7 shorts [.integer 1, .short 6],
    assignAt 3 (.dispatcher 2) 7 ⟨shorts, .integer 2, .null⟩]

theorem transparent_interrupted :
    let start := World.fresh threeShorts
    (∀ owner id, ∃ registry, CallsShare pairedRegistry owner id registry interrupted) ∧
    (∀ registry t,
      Redefinition.count registry t (history pairedRegistry interrupted start) < 2 ^ 64) ∧
    (runAll pairedRegistry interrupted start).map observed =
      (runAll pairedRegistry (interrupted.map uncached) start).map observed := by
  intro start
  have hshare : ∀ owner id, ∃ registry,
      CallsShare pairedRegistry owner id registry interrupted := by
    intro owner id
    refine ⟨if owner = .standalone then 0 else 1, ?_⟩
    intro step hstep d hd
    simp only [interrupted, invoke, List.mem_cons, List.not_mem_nil, or_false] at hstep
    rcases hstep with rfl | rfl | rfl | rfl | rfl <;> cases hd <;> rfl
  have hfew : ∀ registry t,
      Redefinition.count registry t (history pairedRegistry interrupted start) < 2 ^ 64 :=
    fun registry t => Nat.lt_of_le_of_lt (Redefinition.count_le_length registry t _) (by decide)
  exact ⟨hshare, hfew, transparent pairedRegistry _ interrupted hshare hfew⟩

end Step

end InlineCache
