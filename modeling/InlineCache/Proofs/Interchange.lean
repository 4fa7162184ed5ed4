/-
The forms of calls over whole runs.

A call with an index and a value can be written with a list of two arguments instead, and the
other way around (`Step.otherForm`).  Runs are compared by everything but the number of times
that an entry handed a call back (`Step.outlined`).

* `Alike.run`: a step and the same step in either form leave worlds that are alike, unless an
  entry refuses a payload and overlooks a handler (`RefusesWrongly`);
* `interchangeable_iff`: all ways of choosing the forms of the calls of a program are alike
  exactly if no refusal is wrong;
* `interchangeable_of_share`: none is where every site keeps to one registry.

Design notes: the fallbacks of two runs do not stay equal.  `Alike` carries a credit for either
run, and a refusal in the list form adds to the credit of the other run.
-/
import InlineCache.Proofs.CallForms
import Mathlib.Data.List.Forall2

namespace InlineCache

/-! ### Single steps -/

/-- An answer, but for the fallbacks of a site that it shows. -/
def Answer.outline : Answer → Answer
  | .site shown => .site shown.outline
  | answer => answer

namespace Step

variable {dispatchers : Nat → Dispatcher} {k m : Owner → UInt64 → Nat} {w v : World}

/-- A call with two arguments becomes one of the other form. -/
def otherForm : Step → Step
  | applyAt d owner id receiver [index, value] => assignAt d owner id ⟨receiver, index, value⟩
  | assignAt d owner id a => applyAt d owner id a.receiver [a.index, a.value]
  | step => step

/-- The steps are the same but for the form of a call. -/
def SameCall (step step' : Step) : Prop :=
  step' = step ∨ step' = step.otherForm

/-- What a step answers and all that it leaves, but for the fallbacks of the sites. -/
def outlined (outcome : Except Fault Answer × World) :
    Except Fault Answer × Store × (Nat → CoercionCalls) × (Owner → UInt64 → Site) :=
  (outcome.1.map Answer.outline, outcome.2.store, outcome.2.tally,
    fun owner id => (outcome.2.site owner id).outline)

/-- The step is a call with two arguments, of either form, on an entry that refuses the payload and
overlooks a handler. -/
def RefusesWrongly (dispatchers : Nat → Dispatcher) (step : Step) (w : World) : Prop :=
  step.Overlooks dispatchers Entry.refuses Entry.refuses w

/-- One for a call of the site, in the list form, on an entry that refuses the payload. -/
def refused (dispatchers : Nat → Dispatcher) (owner : Owner) (id : UInt64) (step : Step)
    (w : World) : Nat :=
  match step with
  | applyAt d owner' id' receiver [index, value] =>
    if owner = owner' ∧ id = id' then
      if (w.site owner' id').refuses (dispatchers d) w.store ⟨receiver, index, value⟩ then 1 else 0
    else 0
  | _ => 0

section

variable {d : Nat} {owner : Owner} {id : UInt64} {receiver index value : Value}

theorem refused_own :
    refused dispatchers owner id (applyAt d owner id receiver [index, value]) w =
      if (w.site owner id).refuses (dispatchers d) w.store ⟨receiver, index, value⟩ then 1
      else 0 :=
  if_pos ⟨rfl, rfl⟩

theorem refused_of_ne {owner' : Owner} {id' : UInt64} (h : ¬ (owner' = owner ∧ id' = id)) :
    refused dispatchers owner' id' (applyAt d owner id receiver [index, value]) w = 0 :=
  if_neg h

end

/-- Worlds that differ only in the fallbacks of the sites, which agree with the credits. -/
structure Alike (k m : Owner → UInt64 → Nat) (w v : World) : Prop extends SameButSites w v where
  site : ∀ owner id, (w.site owner id).Alike (k owner id) (m owner id) (v.site owner id)

namespace Alike

theorem refl (w : World) : Alike (fun _ _ => 0) (fun _ _ => 0) w w :=
  ⟨⟨rfl, rfl⟩, fun _ _ => ⟨rfl, rfl⟩⟩

theorem refused_eq (h : Alike k m w v) (owner : Owner) (id : UInt64) (step : Step) :
    refused dispatchers owner id step v = refused dispatchers owner id step w := by
  cases step with
  | applyAt d owner' id' receiver args =>
    match args with
    | [index, value] => simp only [refused, (h.site owner' id').refuses_eq, h.store]
    | [] | [_] | _ :: _ :: _ :: _ => rfl
  | _ => rfl

/-- Calls with one reply leave worlds alike, if they leave their own sites alike. -/
theorem runCall (h : Alike k m w v) {k' m' : Owner → UInt64 → Nat} {owner : Owner} {id : UInt64}
    (d : Nat) (call call' : Site → Reply × Site)
    (hid : ∀ site, (call site).2.id = site.id) (hid' : ∀ site, (call' site).2.id = site.id)
    (hreply : (call (w.site owner id)).1 = (call' (v.site owner id)).1)
    (hsite : (call (w.site owner id)).2.Alike (k' owner id) (m' owner id)
      (call' (v.site owner id)).2)
    (hothers : ∀ owner' id', ¬ (owner' = owner ∧ id' = id) →
      k' owner' id' = k owner' id' ∧ m' owner' id' = m owner' id') :
    (runCall w d owner id call).1 = (runCall v d owner id call').1 ∧
      Alike k' m' (runCall w d owner id call).2 (runCall v d owner id call').2 := by
  refine ⟨?_, ⟨?_, ?_⟩, ?_⟩
  · rw [result_runCall, result_runCall, hreply]
  · rw [store_runCall, store_runCall, hreply]
  · rw [tally_runCall, tally_runCall, hreply, World.count, World.count, h.tally]
  · intro owner' id'
    rw [site_runCall _ _ _ _ _ hid, site_runCall _ _ _ _ _ hid']
    by_cases hown : owner' = owner ∧ id' = id
    · obtain ⟨rfl, rfl⟩ := hown
      rw [if_pos ⟨rfl, rfl⟩, if_pos ⟨rfl, rfl⟩]
      exact hsite
    · rw [if_neg hown, if_neg hown, (hothers owner' id' hown).1, (hothers owner' id' hown).2]
      exact h.site owner' id'

/-- One step in worlds that are alike. -/
theorem run_self (h : Alike k m w v) (step : Step) :
    (step.run dispatchers w).1.map Answer.outline =
        (step.run dispatchers v).1.map Answer.outline ∧
      Alike k m (step.run dispatchers w).2 (step.run dispatchers v).2 := by
  -- both worlds have the same store and the same tally, literally
  obtain ⟨store, sites, tally⟩ := w
  obtain ⟨store', sites', tally'⟩ := v
  obtain rfl : store' = store := h.store
  obtain rfl : tally' = tally := h.tally
  cases hcall : step.call? with
  | none =>
    have hworlds : SameButSites (step.run dispatchers ⟨store', sites, tally'⟩).2
        (step.run dispatchers ⟨store', sites', tally'⟩).2 :=
      SameButSites.of_observed (observed_run_of_call?_eq_none h.toSameButSites hcall)
    refine ⟨?_, hworlds, ?_⟩
    · cases step with
      | applyAt | assignAt => cases hcall
      | visit owner id =>
        -- the one answer that shows a site
        have hshown := (h.site owner id).outline
        exact congrArg (fun shown => Except.ok (Answer.site shown)) hshown.symm
      | _ => rfl
    · rw [site_run_of_call?_eq_none dispatchers _ hcall,
        site_run_of_call?_eq_none dispatchers _ hcall]
      exact h.site
  | some call =>
    cases step with
    | applyAt d owner id receiver args =>
      have hsite := (h.site owner id).apply (dispatchers d) store' receiver args
      obtain ⟨hanswer, hworlds⟩ := h.runCall d _ _ (fun _ => Site.id_apply ..)
        (fun _ => Site.id_apply ..) hsite.1 hsite.2 fun _ _ _ => ⟨rfl, rfl⟩
      exact ⟨congrArg (Except.map Answer.outline) hanswer, hworlds⟩
    | assignAt d owner id a =>
      have hsite := (h.site owner id).assign (dispatchers d) store' a
      obtain ⟨hanswer, hworlds⟩ := h.runCall d _ _ (fun _ => Site.id_assign ..)
        (fun _ => Site.id_assign ..) hsite.1 hsite.2 fun _ _ _ => ⟨rfl, rfl⟩
      exact ⟨congrArg (Except.map Answer.outline) hanswer, hworlds⟩
    | _ => cases hcall

theorem credit (h : Alike k m w v) (n : Owner → UInt64 → Nat) :
    Alike (fun owner id => k owner id + n owner id) (fun owner id => m owner id + n owner id)
      w v := by
  refine ⟨h.toSameButSites, fun owner id => ⟨(h.site owner id).outline, ?_⟩⟩
  rw [UInt64.ofNat_add, UInt64.ofNat_add, ← UInt64.add_assoc, ← UInt64.add_assoc,
    (h.site owner id).fallbacks]

/-- One step in worlds that are alike, with what it refuses. -/
theorem run_same (h : Alike k m w v) (step : Step) :
    (step.run dispatchers w).1.map Answer.outline =
        (step.run dispatchers v).1.map Answer.outline ∧
      Alike (fun owner id => k owner id + refused dispatchers owner id step v)
        (fun owner id => m owner id + refused dispatchers owner id step w)
        (step.run dispatchers w).2 (step.run dispatchers v).2 := by
  refine ⟨(h.run_self step).1, ?_⟩
  simp only [h.refused_eq]
  exact (h.run_self step).2.credit _

/-- A call and the same call in the other form, where no refusal is wrong. -/
theorem run_otherForm (h : Alike k m w v) {step : Step}
    (hright : ¬ step.RefusesWrongly dispatchers w) :
    (step.run dispatchers w).1.map Answer.outline =
        (step.otherForm.run dispatchers v).1.map Answer.outline ∧
      Alike (fun owner id => k owner id + refused dispatchers owner id step.otherForm v)
        (fun owner id => m owner id + refused dispatchers owner id step w)
        (step.run dispatchers w).2 (step.otherForm.run dispatchers v).2 := by
  obtain ⟨store, sites, tally⟩ := w
  obtain ⟨store', sites', tally'⟩ := v
  obtain rfl : store' = store := h.store
  cases step with
  | applyAt d owner id receiver args =>
    match args with
    | [] | [_] | _ :: _ :: _ :: _ => exact h.run_same _
    | [index, value] =>
      let a : Assignment := ⟨receiver, index, value⟩
      have hsite := h.site owner id
      have hreply := (Site.reply_apply_eq_reply_assign_iff.mpr hright).trans
        (hsite.assign (dispatchers d) store' a).1
      have hown := hsite.apply_assign (dispatchers d) store' a
      refine And.imp_left (congrArg (Except.map Answer.outline))
        (h.runCall d _ _ (fun _ => Site.id_apply ..) (fun _ => Site.id_assign ..) hreply ?_ ?_)
      · simp only [refused_own]
        exact hown
      · -- only the site of the call gets credit
        intro owner' id' hothers
        simp only [refused_of_ne hothers]
        exact ⟨rfl, rfl⟩
  | assignAt d owner id a =>
    have hsite := h.site owner id
    have hreply := (Site.reply_apply_eq_reply_assign_iff.mpr hright).symm.trans
      (hsite.apply (dispatchers d) store' a.receiver [a.index, a.value]).1
    have hown := (hsite.symm.apply_assign (dispatchers d) store' a).symm
    refine And.imp_left (congrArg (Except.map Answer.outline))
      (h.runCall d _ _ (fun _ => Site.id_assign ..) (fun _ => Site.id_apply ..) hreply ?_ ?_)
    · simp only [otherForm, refused_own]
      exact hown
    · intro owner' id' hothers
      simp only [otherForm, refused_of_ne hothers]
      exact ⟨rfl, rfl⟩
  | _ => exact h.run_same _

/-- The number of refusals goes to the credit of the other run. -/
theorem run (h : Alike k m w v) {step step' : Step} (hcall : SameCall step step')
    (hright : ¬ step.RefusesWrongly dispatchers w) :
    (step.run dispatchers w).1.map Answer.outline =
        (step'.run dispatchers v).1.map Answer.outline ∧
      Alike (fun owner id => k owner id + refused dispatchers owner id step' v)
        (fun owner id => m owner id + refused dispatchers owner id step w)
        (step.run dispatchers w).2 (step'.run dispatchers v).2 := by
  rcases hcall with rfl | rfl
  · exact h.run_same step'
  · exact h.run_otherForm hright

theorem outlined_eq {o o' : Except Fault Answer × World} (h : Alike k m o.2 o'.2)
    (hanswer : o.1.map Answer.outline = o'.1.map Answer.outline) : outlined o = outlined o' := by
  have hsites : (fun owner id => (o.2.site owner id).outline) =
      fun owner id => (o'.2.site owner id).outline := by
    funext owner id
    exact (h.site owner id).outline.symm
  rw [outlined, outlined, hanswer, h.store, h.tally, hsites]

/-- Steps that agree but for fallbacks leave worlds that are alike, with some credits. -/
theorem of_outlined {o o' : Except Fault Answer × World} (h : outlined o = outlined o') :
    Alike (fun owner id => (o'.2.site owner id).stats.fallbacks.toNat)
      (fun owner id => (o.2.site owner id).stats.fallbacks.toNat) o.2 o'.2 := by
  obtain ⟨-, hworld⟩ := Prod.mk.inj h
  obtain ⟨hstore, hworld⟩ := Prod.mk.inj hworld
  obtain ⟨htally, hsites⟩ := Prod.mk.inj hworld
  -- each site may be credited with the fallbacks of the other
  refine ⟨⟨hstore.symm, htally.symm⟩, fun owner id => ⟨?_, ?_⟩⟩
  · exact (congrFun (congrFun hsites owner) id).symm
  · rw [UInt64.ofNat_toNat, UInt64.ofNat_toNat, UInt64.add_comm]

end Alike

/-! ### Whole programs -/

/-- How often, in the run of a program, a call of the site in the list form is made on an entry
that refuses the payload. -/
def refusals (dispatchers : Nat → Dispatcher) (owner : Owner) (id : UInt64) :
    List Step → World → Nat
  | [], _ => 0
  | step :: steps, w =>
    refused dispatchers owner id step w +
      refusals dispatchers owner id steps (step.run dispatchers w).2

/-- Programs that differ in the forms of calls only run alike, if no refusal is wrong. -/
theorem Alike.runAll {program program' : List Step}
    (hcalls : List.Forall₂ SameCall program program') (h : Alike k m w v)
    (hright : Always dispatchers (fun step w => ¬ step.RefusesWrongly dispatchers w) program w) :
    (runAll dispatchers program w).map outlined = (runAll dispatchers program' v).map outlined ∧
      Alike (fun owner id => k owner id + refusals dispatchers owner id program' v)
        (fun owner id => m owner id + refusals dispatchers owner id program w)
        (w.after dispatchers program) (v.after dispatchers program') := by
  -- the credits grow from step to step, so the induction is over all of them
  induction hcalls generalizing k m w v with
  | nil => exact ⟨rfl, h⟩
  | cons hcall hcalls ih =>
    obtain ⟨hanswer, hstep⟩ := h.run hcall hright.1
    obtain ⟨hlist, hrest⟩ := ih hstep hright.2
    refine ⟨congrArg₂ List.cons (hstep.outlined_eq hanswer) hlist, ?_⟩
    simp only [refusals, ← Nat.add_assoc]
    exact hrest

theorem observed_of_outlined {o o' : Except Fault Answer × World}
    (h : outlined o = outlined o') : observed o = observed o' := by
  have hhide : ∀ result : Except Fault Answer,
      (result.map Answer.outline).map Answer.hideSite = result.map Answer.hideSite := by
    intro result
    cases result with
    | error => rfl
    | ok answer => cases answer <;> rfl
  obtain ⟨hanswer, hworld⟩ := Prod.mk.inj h
  obtain ⟨hstore, hworld⟩ := Prod.mk.inj hworld
  obtain ⟨htally, -⟩ := Prod.mk.inj hworld
  rw [observed, observed, ← hhide, hanswer, hhide, hstore, htally]

/-- If a call and the same call in the other form agree, then no refusal is wrong. -/
theorem not_refusesWrongly_of_outlined (h : Alike k m w v) {step : Step}
    (houtlined : outlined (step.run dispatchers w) = outlined (step.otherForm.run dispatchers v)) :
    ¬ step.RefusesWrongly dispatchers w := by
  have hobserved := observed_of_outlined houtlined
  cases step with
  | applyAt d owner id receiver args =>
    match args with
    | [] | [_] | _ :: _ :: _ :: _ => exact fun hwrong => hwrong
    | [index, value] =>
      change observed (runCall w d owner id _) = observed (runCall v d owner id _) at hobserved
      rw [observed_runCall, observed_runCall, h.told_eq, told_inj, h.store] at hobserved
      have hsame := ((h.site owner id).assign (dispatchers d) w.store ⟨receiver, index, value⟩).1
      exact Site.reply_apply_eq_reply_assign_iff.mp (hobserved.trans hsame.symm)
  | assignAt d owner id a =>
    change observed (runCall w d owner id _) = observed (runCall v d owner id _) at hobserved
    rw [observed_runCall, observed_runCall, h.told_eq, told_inj, h.store] at hobserved
    have hsame := ((h.site owner id).apply (dispatchers d) w.store a.receiver [a.index, a.value]).1
    exact Site.reply_apply_eq_reply_assign_iff.mp (hsame.trans hobserved.symm)
  | _ => exact fun hwrong => hwrong

/-- If a program and the same program with all calls in the other form agree, then no refusal in
it is wrong. -/
theorem always_of_outlined_eq {program : List Step} (h : Alike k m w v)
    (houtlined : (runAll dispatchers program w).map outlined =
      (runAll dispatchers (program.map otherForm) v).map outlined) :
    Always dispatchers (fun step w => ¬ step.RefusesWrongly dispatchers w) program w := by
  induction program generalizing k m w v with
  | nil => trivial
  | cons step steps ih =>
    simp only [List.map_cons, Step.runAll, List.cons.injEq] at houtlined
    exact ⟨not_refusesWrongly_of_outlined h houtlined.1,
      ih (Alike.of_outlined houtlined.1) houtlined.2⟩

/-- Two programs do the same but for fallbacks, and the fallbacks of a site differ, as words, by its
refusals in calls of the list form. -/
structure Interchangeable (dispatchers : Nat → Dispatcher) (program program' : List Step)
    (w : World) : Prop where
  outlined : (runAll dispatchers program w).map outlined =
    (runAll dispatchers program' w).map outlined
  fallbacks : ∀ owner id,
    ((w.after dispatchers program).site owner id).stats.fallbacks +
        UInt64.ofNat (refusals dispatchers owner id program' w) =
      ((w.after dispatchers program').site owner id).stats.fallbacks +
        UInt64.ofNat (refusals dispatchers owner id program w)

theorem Interchangeable.of_always {program program' : List Step}
    (hcalls : List.Forall₂ SameCall program program')
    (hright : Always dispatchers (fun step w => ¬ step.RefusesWrongly dispatchers w) program w) :
    Interchangeable dispatchers program program' w := by
  obtain ⟨houtlined, hafter⟩ := (Alike.refl w).runAll hcalls hright
  refine ⟨houtlined, fun owner id => ?_⟩
  have hfallbacks := (hafter.site owner id).fallbacks
  rw [Nat.zero_add, Nat.zero_add] at hfallbacks
  exact hfallbacks

/-- **The forms of a call are interchangeable, but for wrong refusals.**  Whatever sites,
registries and arrays a program starts with, its calls with two arguments may all be written in
either form, without a difference in any result, fault, array, registry, count of coercions, site
state or counter other than the fallbacks, and with fallbacks that differ exactly by the refusals
in calls of the list form, if and only if no call with two arguments meets an entry that refuses
its payload while the handler in force does otherwise. -/
theorem interchangeable_iff (dispatchers : Nat → Dispatcher) (program : List Step) (w : World) :
    (∀ program', List.Forall₂ SameCall program program' →
        Interchangeable dispatchers program program' w) ↔
      Always dispatchers (fun step w => ¬ step.RefusesWrongly dispatchers w) program w := by
  constructor
  · -- one rewriting is enough to find a wrong refusal: that of all calls at once
    intro hall
    have hcalls : List.Forall₂ SameCall program (program.map otherForm) :=
      List.forall₂_map_right_iff.mpr (List.forall₂_same.mpr fun _ _ => Or.inr rfl)
    exact always_of_outlined_eq (Alike.refl w) (hall _ hcalls).outlined
  · intro hright program' hcalls
    exact Interchangeable.of_always hcalls hright

/-! A site that holds an entry of one registry, and a payload of no use to it where the other
registry, which has counted alike, has an override. -/

def refusing (last : Step) : List Step :=
  [restore 0 .short, redefine 1 .short answerSeven,
    applyAt 0 .standalone 7 shorts [.integer 0, .short 5], last]

/-- The fault of the built-in assignment is reported where the registry at hand holds an
override. -/
theorem wrongly_refused_override :
    let start := World.fresh threeShorts
    let direct := refusing (assignAt 1 .standalone 7 ⟨shorts, .integer 1, .null⟩)
    let listed := refusing (applyAt 1 .standalone 7 shorts [.integer 1, .null])
    List.Forall₂ SameCall direct listed ∧
    (runAll ownRegistry direct start)[3]?.map Prod.fst =
      some (.error (.typeMismatch "Short" "null")) ∧
    (runAll ownRegistry listed start)[3]?.map Prod.fst = some (.ok (.value (.long 7))) ∧
    ¬ Interchangeable ownRegistry direct listed start := by
  intro start direct listed
  have hcalls : List.Forall₂ SameCall direct listed :=
    .cons (Or.inl rfl) (.cons (Or.inl rfl) (.cons (Or.inl rfl) (.cons (Or.inr rfl) .nil)))
  have hdirect : ((runAll ownRegistry direct start).map outlined)[3]?.map Prod.fst =
      some (.error (.typeMismatch "Short" "null")) := rfl
  have hlisted : ((runAll ownRegistry listed start).map outlined)[3]?.map Prod.fst =
      some (.ok (.value (.long 7))) := rfl
  refine ⟨hcalls, rfl, rfl, fun h => ?_⟩
  rw [h.outlined, hlisted] at hdirect
  cases hdirect

/-- Where every site is called only through dispatchers that share a registry, and no registry
sees `2 ^ 64` redefinitions of a type, the forms of calls are interchangeable. -/
theorem interchangeable_of_share {heap : Heap} {program program' : List Step}
    (hcalls : List.Forall₂ SameCall program program')
    (hshare : ∀ owner id, ∃ registry, CallsShare dispatchers owner id registry program)
    (hfew : ∀ registry t, Redefinition.count registry t
      (history dispatchers program (.fresh heap)) < 2 ^ 64) :
    Interchangeable dispatchers program program' (.fresh heap) :=
  Interchangeable.of_always hcalls
    (never_overlooks_of_share hshare hfew Entry.admits_of_refuses Entry.admits_of_refuses)

end Step

end InlineCache
