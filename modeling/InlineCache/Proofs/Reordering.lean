/-
The order of independent assignments.

Which of several calls links a site depends on their order, and so does the path on which each of
them is performed.  What is assigned does not, as long as built-in handlers are in force and no two
assignments are for the same slot.

* `Step.run_of_plain`: whatever sites there are, a step that asks for a plain assignment
  (`Dispatcher.Plain`) carries out a plan that no plain assignment before it can change;
* `Step.same_after`: so a program of such steps carries out a fixed list of plans;
* `Step.order_immaterial`: every permutation of such a program gives every step the same answer, and
  leaves the same arrays and the same counts of coercions.
-/
import InlineCache.Proofs.Plans
import Mathlib.Data.List.Pairwise

namespace InlineCache

/-! ### Lists of plans -/

theorem CoercionCalls.add_right_comm (a b c : CoercionCalls) : a + b + c = a + c + b :=
  congrArg₂ CoercionCalls.mk (Nat.add_right_comm _ _ _) (Nat.add_right_comm _ _ _)

namespace World

/-- The world in which a dispatcher has carried out a plan. -/
def carryOut (w : World) (planned : Nat × Plan) : World :=
  w.absorb planned.1 (planned.2.carryOut w.store)

theorem tally_count_comm (w : World) (d d' : Nat) (calls calls' : CoercionCalls) :
    ((w.count d calls).count d' calls').tally = ((w.count d' calls').count d calls).tally := by
  funext i
  simp only [count]
  by_cases hd : d' = d
  · subst hd
    by_cases hi : i = d'
    · simp only [hi, if_true]
      exact CoercionCalls.add_right_comm _ _ _
    · simp only [hi, if_false]
  · by_cases hi : i = d
    · subst hi
      simp only [hd, Ne.symm hd, if_true, if_false]
    · simp only [hi, hd, Ne.symm hd, if_false]

theorem carryOut_comm {x y : Nat × Plan} (hapart : x.2.Apart y.2) (w : World) :
    (w.carryOut x).carryOut y = (w.carryOut y).carryOut x := by
  have hstore := Plan.store_carryOut_comm hapart w.store
  have htally := w.tally_count_comm x.1 y.1 x.2.calls y.2.calls
  exact congrArg₂ (fun store tally => World.mk store w.sites tally) hstore htally

/-- Plans for different slots may be carried out in any order. -/
theorem foldl_carryOut_perm {planned planned' : List (Nat × Plan)} (hperm : planned.Perm planned')
    (hapart : planned.Pairwise fun x y => x.2.Apart y.2) (w : World) :
    planned.foldl carryOut w = planned'.foldl carryOut w := by
  have hsymm : Std.Symm fun x y : Nat × Plan => x.2.Apart y.2 := ⟨fun _ _ h => h.symm⟩
  refine hperm.foldl_eq' (fun x hx y hy v => ?_) w
  by_cases heq : x = y
  · rw [heq]
  · exact carryOut_comm (hapart.forall hx hy heq) v

end World

/-! ### Steps that carry out plans -/

/-- The assignment is made by a built-in handler, and its coercion has nothing to do with what is
in arrays. -/
structure Dispatcher.Plain (d : Dispatcher) (s : Store) (a : Assignment) : Prop where
  builtin : ∀ t, a.receiver.elementType? = some t →
    (s.registry d.registry).handler t = .builtin t
  service : d.service.Steady
  payload : a.value.interpolatesArray = false

/-- The stores differ at most in the elements of arrays. -/
structure Store.SameShape (s s' : Store) : Prop where
  registry : s'.registry = s.registry
  shape : s'.heap.shape? = s.heap.shape?

theorem Dispatcher.Plain.congr {d : Dispatcher} {s s' : Store} {a : Assignment}
    (h : d.Plain s a) (hsame : s.SameShape s') : d.Plain s' a := by
  refine ⟨?_, h.service, h.payload⟩
  rw [hsame.registry]
  exact h.builtin

namespace Step

variable {dispatchers : Nat → Dispatcher} {step : Step} {program : List Step} {s : Store}
  {w v : World} {d : Nat} {a : Assignment}

/-- The step asks for an assignment, and a plain one. -/
def Plain (dispatchers : Nat → Dispatcher) (s : Store) (step : Step) : Prop :=
  ∃ d a, step.assignment? = some (d, a) ∧ (dispatchers d).Plain s a

/-- The plan for the assignment that a step asks for, made in view of a heap. -/
def plan? (dispatchers : Nat → Dispatcher) (h : Heap) (step : Step) : Option (Nat × Plan) :=
  step.assignment?.map fun asked => (asked.1, (dispatchers asked.1).plan h asked.2)

/-- A step that asks for a plain assignment carries out the plan for it, in view of whatever
heap that plan was made. -/
theorem run_of_plain (hstep : step.assignment? = some (d, a))
    (hplain : (dispatchers d).Plain w.store a) (hworlds : SameButSites w v) (h : Heap) :
    (step.run dispatchers w).1 =
        (((dispatchers d).plan h a).carryOut w.store).result.map .value ∧
      SameButSites (step.run dispatchers w).2 (v.carryOut (d, (dispatchers d).plan h a)) := by
  have hreply : (dispatchers d).apply w.store a.receiver [a.index, a.value] =
      ((dispatchers d).plan h a).carryOut w.store := by
    rw [← Dispatcher.plan_congr hplain.service hplain.payload w.store.heap h]
    exact Dispatcher.assign_eq_carryOut hplain.builtin
  have hrequest := request?_of_assignment? hstep
  have hobserved := observed_run_of_request hrequest hplain.builtin
  rw [hreply] at hobserved
  refine ⟨?_, ?_⟩
  · rw [(run_of_request hrequest hplain.builtin).1, hreply]
  · -- the same reply, taken over by a world with other sites
    have habsorb := observed_absorb v d (((dispatchers d).plan h a).carryOut w.store)
    rw [hworlds.told_eq, ← hobserved] at habsorb
    have hsame := SameButSites.of_observed habsorb.symm
    rw [← hworlds.store] at hsame
    exact hsame

/-- A plain assignment changes at most elements of arrays. -/
theorem sameShape_run (hstep : step.Plain dispatchers s) (hsame : s.SameShape w.store) :
    s.SameShape (step.run dispatchers w).2.store := by
  obtain ⟨d, a, hasked, hplain⟩ := hstep
  obtain ⟨-, hworlds⟩ := run_of_plain hasked (hplain.congr hsame) ⟨rfl, rfl⟩ w.store.heap (v := w)
  rw [← hworlds.store]
  refine ⟨?_, ?_⟩
  · exact (Plan.registry_carryOut _ _).trans hsame.registry
  · exact (Plan.shape_carryOut _ _).trans hsame.shape

/-- And what it answers does not depend on them. -/
theorem answer_of_plain (hstep : step.Plain dispatchers w.store)
    (hsame : w.store.SameShape v.store) :
    (step.run dispatchers v).1 = (step.run dispatchers w).1 := by
  obtain ⟨d, a, hasked, hplain⟩ := hstep
  rw [(run_of_plain hasked hplain ⟨rfl, rfl⟩ w.store.heap (v := w)).1,
    (run_of_plain hasked (hplain.congr hsame) ⟨rfl, rfl⟩ w.store.heap (v := v)).1,
    Plan.result_carryOut_congr hsame.shape]

/-! ### Programs of plain assignments -/

/-- Every step answers as it would if it were the first. -/
theorem answers_of_plain (hplain : ∀ step ∈ program, step.Plain dispatchers w.store)
    (hsame : w.store.SameShape v.store) :
    (runAll dispatchers program v).map Prod.fst =
      program.map fun step => (step.run dispatchers w).1 := by
  induction program generalizing v with
  | nil => rfl
  | cons step steps ih =>
    rw [List.forall_mem_cons] at hplain
    rw [runAll, List.map_cons, List.map_cons, answer_of_plain hplain.1 hsame,
      ih hplain.2 (sameShape_run hplain.1 hsame)]

/-- A program of plain assignments carries out the plans that are made before it. -/
theorem same_after (hplain : ∀ step ∈ program, step.Plain dispatchers s)
    (hsame : s.SameShape w.store) (hworlds : SameButSites w v) (h : Heap) :
    SameButSites (w.after dispatchers program)
      ((program.filterMap (plan? dispatchers h)).foldl World.carryOut v) := by
  induction program generalizing w v with
  | nil => exact hworlds
  | cons step steps ih =>
    rw [List.forall_mem_cons] at hplain
    obtain ⟨d, a, hasked, hown⟩ := hplain.1
    obtain ⟨-, hstep⟩ := run_of_plain hasked (hown.congr hsame) hworlds h
    have hplan : step.plan? dispatchers h = some (d, (dispatchers d).plan h a) := by
      rw [plan?, hasked]
      rfl
    rw [List.filterMap_cons_some hplan]
    exact ih hplain.2 (sameShape_run hplain.1 hsame) hstep

/-- Plans for different targets are apart. -/
theorem pairwise_apart (htargets : (program.filterMap target?).Nodup) (h : Heap) :
    (program.filterMap (plan? dispatchers h)).Pairwise fun x y => x.2.Apart y.2 := by
  rw [List.pairwise_filterMap]
  refine (List.pairwise_filterMap.mp htargets).imp ?_
  intro first second hne x hx y hy p q hp hq place hplace hplace'
  obtain ⟨⟨d, a⟩, hasked, rfl⟩ := Option.map_eq_some_iff.mp hx
  obtain ⟨⟨d', a'⟩, hasked', rfl⟩ := Option.map_eq_some_iff.mp hy
  refine hne place ?_ place ?_ rfl
  · rw [target?, hasked]
    exact Dispatcher.target?_of_plan hp hplace
  · rw [target?, hasked']
    exact Dispatcher.target?_of_plan hq hplace'

/-- **The order of independent assignments does not matter.**  In whatever state arrays, registries
and sites are, let every step of a program ask for an assignment, directly or through any site, for
which the built-in handler of the receiver's type is in force, with a payload and a service whose
coercion does not look at arrays, and let no two steps have the same slot as their target.  Then in
every order of the program each step answers as it would alone, and the arrays, the registries and
the counts of coercions end up the same. -/
theorem order_immaterial (dispatchers : Nat → Dispatcher) (w : World)
    {program permuted : List Step} (hperm : permuted.Perm program)
    (hplain : ∀ step ∈ program, step.Plain dispatchers w.store)
    (htargets : (program.filterMap target?).Nodup) :
    (runAll dispatchers permuted w).map Prod.fst =
        permuted.map (fun step => (step.run dispatchers w).1) ∧
      (w.after dispatchers permuted).store = (w.after dispatchers program).store ∧
      (w.after dispatchers permuted).tally = (w.after dispatchers program).tally := by
  have hplain' : ∀ step ∈ permuted, step.Plain dispatchers w.store :=
    fun step hstep => hplain step (hperm.mem_iff.mp hstep)
  have hafter := same_after hplain ⟨rfl, rfl⟩ ⟨rfl, rfl⟩ w.store.heap (v := w)
  have hafter' := same_after hplain' ⟨rfl, rfl⟩ ⟨rfl, rfl⟩ w.store.heap (v := w)
  have hplans := World.foldl_carryOut_perm (hperm.symm.filterMap (plan? dispatchers w.store.heap))
    (pairwise_apart htargets w.store.heap) w
  rw [hplans] at hafter
  refine ⟨answers_of_plain hplain' ⟨rfl, rfl⟩, ?_, ?_⟩
  · rw [← hafter.store, ← hafter'.store]
  · rw [← hafter.tally, ← hafter'.tally]

/-! A site that has an entry in one order and is passed through in the other.  One of the payloads
is a template, and one of the indices has no slot. -/

def scattered : List Step :=
  [applyAt 0 .standalone 7 shorts [.integer 0, .short 5],
    assignAt 0 .standalone 7 ⟨shorts, .integer 3, .short 6⟩, assign 0 ⟨shorts, .long 1, .byte 7⟩,
    assignAt 1 .standalone 7 ⟨shorts, .bigInteger (-1), .template ["", ""] [.character 'A']⟩]

theorem order_immaterial_scattered :
    let start := World.fresh threeShorts
    let forward := start.after oneRegistry scattered
    let backward := start.after oneRegistry scattered.reverse
    scattered.reverse.Perm scattered ∧
    (∀ step ∈ scattered, step.Plain oneRegistry start.store) ∧
    (scattered.filterMap target?).Nodup ∧
    backward.store = forward.store ∧ backward.tally = forward.tally ∧
    (runAll oneRegistry scattered.reverse start)[2]?.map Prod.fst =
      some (.error (.outOfRange 3 3)) ∧
    backward.store.heap.slot? 0 2 = some (.short 65) ∧
    (forward.site .standalone 7).state = .specialized ⟨.short, 0⟩ ∧
    (backward.site .standalone 7).state = .passThrough := by
  intro start forward backward
  have hplain : ∀ step ∈ scattered, step.Plain oneRegistry start.store := by
    have hservice : (oneRegistry 0).service.Steady := CoercionService.steady_standard .truncate
    simp only [scattered, List.forall_mem_cons, List.not_mem_nil, false_implies, implies_true,
      and_true]
    have hbuiltin := fun i t (_ : shorts.elementType? = some t) =>
      World.handler_fresh threeShorts i t
    exact ⟨⟨0, _, rfl, hbuiltin 0, hservice, rfl⟩, ⟨0, _, rfl, hbuiltin 0, hservice, rfl⟩,
      ⟨0, _, rfl, hbuiltin 0, hservice, rfl⟩, ⟨1, _, rfl, hbuiltin 0, hservice, rfl⟩⟩
  have htargets : (scattered.filterMap target?).Nodup := by decide
  obtain ⟨hanswers, hstore, htally⟩ :=
    order_immaterial oneRegistry start scattered.reverse_perm hplain htargets
  refine ⟨scattered.reverse_perm, hplain, htargets, hstore, htally, ?_, ?_, ?_, ?_⟩
  · rw [← List.getElem?_map, hanswers]
    rfl
  · rw [hstore]
    decide +kernel
  · decide +kernel
  · decide +kernel

end Step

end InlineCache
