/-
Call sites are effective.

A site that only sees assignments of one kind, an `Integer` index and an exactly boxed payload on
arrays of one element type, is specialised by the first of them, and its entry answers all of them.
How many calls it has answered, and how many of these it has performed, says all there is to say
about the site (`Site.settled`).

* `Dispatcher.link_of_exact`: linking such a call makes an entry for it;
* `Entry.exists_store_of_exact`: an entry with a current guard answers such a call, in either form,
  and performs it if the index names a slot;
* `Step.Served.run`: whatever else goes on, all this remains so as long as the element type is not
  redefined;
* `Step.cache_effective`: what becomes of the site in a whole run.
-/
import InlineCache.Proofs.CallForms
import InlineCache.Proofs.NonInterference

namespace InlineCache

/-! ### Exact assignments -/

/-- The receiver is an array of the type, the index an `Integer`, and the payload is boxed in
exactly the class of the type. -/
structure Assignment.Exact (a : Assignment) (t : ElementType) : Prop where
  receiver : a.receiver.elementType? = some t
  index : ∃ i, a.index = .integer i
  payload : (t.unbox? a.value).isSome = true

/-- Linking an exact call under the built-in handler makes an entry. -/
theorem Dispatcher.link_of_exact {d : Dispatcher} {s : Store} {a : Assignment} {t : ElementType}
    (ha : a.Exact t) (hspecialize : d.settings.specialize = true)
    (hbuiltin : (s.registry d.registry).handler t = .builtin t) :
    d.link s a.receiver [a.index, a.value] =
      .specialized ⟨t, (s.registry d.registry).version t⟩ := by
  obtain ⟨i, hi⟩ := ha.index
  have hname : a.value.typeName = t.boxedName :=
    (ElementType.isSome_unbox?_iff t a.value).mp ha.payload
  have hnames : [a.index, a.value].map Value.typeName = ["Integer", t.boxedName] := by
    rw [hi, List.map_cons, List.map_cons, List.map_nil, hname]
    rfl
  exact link_eq_specialized_iff.mpr ⟨hspecialize, ha.receiver, hbuiltin, rfl, hnames⟩

namespace Entry

variable {e : Entry} {r : Registry} {a : Assignment}

/-- An entry with a current guard answers an exact call of its type, in either form, and performs
it if there is a slot for it. -/
theorem exists_store_of_exact (ha : a.Exact e.type) (hvalid : e.valid r = true) (heap : Heap) :
    ∃ i element, a.index = .integer i ∧ element.type = e.type ∧
      e.apply r heap a.receiver [a.index, a.value] = store heap a.receiver i element ∧
      e.assign r heap a = store heap a.receiver i element := by
  obtain ⟨i, hi⟩ := ha.index
  obtain ⟨element, helement⟩ := Option.isSome_iff_exists.mp ha.payload
  have hcheck : e.check a = .fits i element := by
    simp only [check, ha.receiver, if_true, hi, helement]
  refine ⟨i, element, hi, ElementType.type_of_unbox? helement, ?_, ?_⟩
  · show (if e.valid r then _ else _) = _
    rw [if_pos hvalid, hcheck]
  · rw [assign, if_pos hvalid, hcheck]

end Entry

/-- How it ends to store an element in an array of the heap shows whether there is a slot. -/
theorem Assignment.storeEnding_eq {a : Assignment} {t : ElementType} {i : Int32} {heap : Heap}
    (hreceiver : a.receiver.elementType? = some t) (hi : a.index = .integer i)
    (hheld : a.receiver.HeldBy heap) :
    a.receiver.storeEnding i = if a.target?.isSome then .hit else .fault := by
  obtain ⟨array, harray, -⟩ := Value.exists_array hreceiver
  have hlength : array.length < 2 ^ 63 := (hheld array (by rw [harray]; rfl)).length_lt
  have hslot : a.index.slot? array.length = (resolveIndex i.toInt64 array.length).toOption :=
    Value.slot?_eq hlength (by rw [hi]; rfl)
  have htarget : a.target?.isSome = (resolveIndex i.toInt64 array.length).isOk := by
    rw [target?, harray, Value.handle?, Option.bind_some, hslot]
    cases resolveIndex i.toInt64 array.length <;> rfl
  rw [htarget, harray]
  rfl

/-! ### Sites that are settled -/

namespace Site

/-- A site that has answered some exact calls for the type, and performed so many of them. -/
def settled (id : UInt64) (t : ElementType) (version : UInt64) (calls hits : Nat) : Site where
  id := id
  state := if calls = 0 then .unlinked else .specialized ⟨t, version⟩
  stats :=
    { fastPathHits := UInt64.ofNat hits
      genericCalls := 0
      fallbacks := 0
      links := if calls = 0 then 0 else 1
      relinks := 0 }

theorem countHit_settled (id : UInt64) (t : ElementType) (version : UInt64) (calls hits : Nat) :
    (settled id t version calls hits).countHit = settled id t version calls (hits + 1) := by
  simp only [countHit, settled, UInt64.ofNat_add]
  rfl

variable {d : Dispatcher} {s : Store} {a : Assignment} {t : ElementType} {id version : UInt64}
  {calls hits : Nat}

theorem linked_settled {receiver : Value} {args : List Value}
    (hlink : d.link s receiver args = .specialized ⟨t, version⟩) :
    (settled id t version calls hits).linked d s receiver args =
      settled id t version (calls + 1) hits := by
  cases calls with
  | zero =>
    -- the first call links the site
    show Site.mk id (d.link s receiver args) _ = _
    rw [hlink]
    rfl
  | succ calls => rfl

/-- A call that the entry answers takes nothing of the coercion service. -/
theorem calls_settle {site : Site} {e : Entry} {attempt : Entry → EntryOutcome}
    (hstate : site.state = .specialized e)
    (hanswers : ∀ reason, (attempt e).ending ≠ .handedBack reason) (receiver : Value)
    (args : List Value) (generic : Reply) :
    (site.settle d s receiver args attempt generic).1.calls = .none := by
  rw [settle, hstate]
  dsimp only
  cases ho : attempt e with
  | done | fault => rfl
  | fallback reason =>
    rw [ho] at hanswers
    exact absurd rfl (hanswers reason)

/-- The entry of a settled site answers an exact call, and performs it if there is a slot. -/
theorem settle_settled {attempt : Entry → EntryOutcome} {i : Int32} {element : Element}
    (ha : a.Exact t) (hheld : a.receiver.HeldBy s.heap) (hi : a.index = .integer i)
    (helement : element.type = t)
    (hattempt : attempt ⟨t, version⟩ = Entry.store s.heap a.receiver i element)
    (args : List Value) (generic : Reply) :
    let outcome :=
      (settled id t version (calls + 1) hits).settle d s a.receiver args attempt generic
    outcome.1.calls = .none ∧
      outcome.2 = settled id t version (calls + 1) (hits + if a.target?.isSome then 1 else 0) := by
  intro outcome
  have hending : (attempt ⟨t, version⟩).ending = if a.target?.isSome then .hit else .fault := by
    rw [hattempt, Entry.ending_store hheld (by rw [ha.receiver, helement]),
      Assignment.storeEnding_eq ha.receiver hi hheld]
  refine ⟨calls_settle rfl ?_ a.receiver args generic, ?_⟩
  · intro reason
    rw [hending]
    split <;> exact fun h => by cases h
  · have hsite : outcome.2 = (settled id t version (calls + 1) hits).ended d s a.receiver args
        (attempt ⟨t, version⟩).ending := site_settle ..
    rw [hsite, hending]
    by_cases hslot : a.target?.isSome = true
    · rw [if_pos hslot, if_pos hslot]
      exact countHit_settled id t version (calls + 1) hits
    · rw [if_neg hslot, if_neg hslot]
      rfl

/-- An exact call, of either form, on a site that is settled or new. -/
theorem call_settled (ha : a.Exact t) (hheld : a.receiver.HeldBy s.heap)
    (hspecialize : d.settings.specialize = true)
    (hbuiltin : (s.registry d.registry).handler t = .builtin t)
    (hversion : (s.registry d.registry).version t = version) {outcome : Reply × Site}
    (hcall : outcome = (settled id t version calls hits).apply d s a.receiver [a.index, a.value] ∨
      outcome = (settled id t version calls hits).assign d s a) :
    outcome.1.calls = .none ∧
      outcome.2 = settled id t version (calls + 1) (hits + if a.target?.isSome then 1 else 0) := by
  have hlink := Dispatcher.link_of_exact ha hspecialize hbuiltin
  rw [hversion] at hlink
  have hvalid : (Entry.mk t version).valid (s.registry d.registry) = true := by
    simp only [Entry.valid, hversion, beq_self_eq_true]
  obtain ⟨i, element, hi, helement, happly, hassign⟩ :=
    Entry.exists_store_of_exact ha hvalid s.heap
  rcases hcall with rfl | rfl
  · rw [apply, linked_settled hlink]
    exact settle_settled ha hheld hi helement happly _ _
  · rw [assign, linked_settled hlink]
    exact settle_settled ha hheld hi helement hassign _ _

end Site

/-! ### Steps and programs -/

theorem CoercionCalls.add_none (calls : CoercionCalls) : calls + .none = calls := rfl

theorem World.tally_count_none (w : World) (d : Nat) : (w.count d .none).tally = w.tally := by
  funext i
  simp only [count]
  by_cases hi : i = d
  · rw [if_pos hi, hi, CoercionCalls.add_none]
  · rw [if_neg hi]

namespace Step

variable {dispatchers : Nat → Dispatcher} {owner : Owner} {id : UInt64} {registry : Nat}
  {t : ElementType} {version : UInt64} {step : Step} {steps : List Step} {w : World}

/-- Every call of the site in a program is an exact one for the type, and made through a dispatcher
that specialises sites and has the registry. -/
def CallsExact (dispatchers : Nat → Dispatcher) (owner : Owner) (id : UInt64) (registry : Nat)
    (t : ElementType) (program : List Step) : Prop :=
  ∀ step ∈ program, ∀ d, step.call? = some (d, owner, id) →
    (dispatchers d).registry = registry ∧ (dispatchers d).settings.specialize = true ∧
      ∃ a, step.assignment? = some (d, a) ∧ a.Exact t

/-- The built-in handler of the type is in force and remains so, and all calls of the site that are
still to come are for it. -/
structure Served (dispatchers : Nat → Dispatcher) (owner : Owner) (id : UInt64) (registry : Nat)
    (t : ElementType) (version : UInt64) (steps : List Step) (w : World) : Prop where
  builtin : (w.store.registry registry).handler t = .builtin t
  version : (w.store.registry registry).version t = version
  kept : Redefinition.count registry t (history dispatchers steps w) = 0
  calls : CallsExact dispatchers owner id registry t steps
  holds : Always dispatchers (CallHolds owner id) steps w

namespace Served

theorem run (h : Served dispatchers owner id registry t version (step :: steps) w) :
    Served dispatchers owner id registry t version steps (step.run dispatchers w).2 := by
  have hkept := h.kept
  rw [history, Redefinition.count_append, Nat.add_eq_zero_iff] at hkept
  have hresolve := Redefinition.resolve_replay hkept.1 w.store.registry
  rw [← registry_run] at hresolve
  refine ⟨?_, ?_, hkept.2, fun later hlater => h.calls later (List.mem_cons_of_mem _ hlater),
    h.holds.2⟩
  · rw [Registry.handler, hresolve]
    exact h.builtin
  · rw [Registry.version, hresolve]
    exact h.version

/-- A call through the site settles it further and asks nothing of a coercion service. -/
theorem run_of_call (h : Served dispatchers owner id registry t version (step :: steps) w)
    {calls hits : Nat} (hsite : w.site owner id = .settled id t version calls hits) {d : Nat}
    (hcall : step.call? = some (d, owner, id)) :
    (step.run dispatchers w).2.site owner id =
        .settled id t version (calls + 1) (hits + if step.target?.isSome then 1 else 0) ∧
      (step.run dispatchers w).2.tally = w.tally := by
  obtain ⟨rfl, hspecialize, a, hasked, ha⟩ := h.calls step List.mem_cons_self d hcall
  have hheld := h.holds.1 d _ _ hcall (request?_of_assignment? hasked)
  have htarget : step.target? = a.target? := by
    rw [target?, hasked]
    rfl
  obtain ⟨outcome, hform, hrun, htally⟩ :=
    exists_outcome_of_call dispatchers w hcall hasked
  rw [hsite] at hform
  obtain ⟨hcalls, hnext⟩ :=
    Site.call_settled ha hheld hspecialize h.builtin h.version hform
  refine ⟨by rw [hrun, hnext, htarget], ?_⟩
  rw [htally, hcalls]
  exact w.tally_count_none d

/-- The calls through the site are all that is to be known of a program. -/
theorem site_after {program : List Step}
    (h : Served dispatchers owner id registry t version program w) {calls hits : Nat}
    (hsite : w.site owner id = .settled id t version calls hits) :
    (w.after dispatchers program).site owner id = .settled id t version
      (calls + program.countP fun step => step.call?.map Prod.snd = some (owner, id))
      (hits + program.countP fun step =>
        step.call?.map Prod.snd = some (owner, id) ∧ step.target?.isSome) := by
  induction program generalizing w calls hits with
  | nil => exact hsite
  | cons step steps ih =>
    show ((step.run dispatchers w).2.after dispatchers steps).site owner id = _
    rw [List.countP_cons, List.countP_cons]
    by_cases hcall : step.call?.map Prod.snd = some (owner, id)
    · obtain ⟨⟨d, site⟩, hd, rfl⟩ := Option.map_eq_some_iff.mp hcall
      rw [ih h.run (h.run_of_call hsite hd).1]
      simp only [hcall, true_and, decide_true, if_true, decide_eq_true_eq, Nat.add_assoc,
        Nat.add_comm 1, Nat.add_comm (ite _ _ _)]
    · have hsame := site_run_of_ne dispatchers owner id w hcall
      rw [ih h.run (hsame.trans hsite)]
      simp only [hcall, false_and, decide_false, if_neg Bool.false_ne_true, Nat.add_zero]

end Served

/-- **The cache is effective.**  Let a site be new, let the built-in handler of an element type be
in force in a registry, and let all calls through the site be for this type, with an `Integer`
index and a payload boxed in exactly its class, on arrays of any lengths, in either form, and made
through dispatchers that specialise sites and have this registry.  If a program does not redefine
the type there, then, whatever else it does, the first call specialises the site for the type and
the version in force, and every call leaves it so; there are no generic calls, no fallbacks and no
relinks, and as many hits as there are calls whose index names a slot, counted as a word, and so
exactly as many if these are fewer than `2 ^ 64`; and none of the calls asks anything of a coercion
service. -/
theorem cache_effective (dispatchers : Nat → Dispatcher) (w : World) (program : List Step)
    (owner : Owner) (id : UInt64) (registry : Nat) (t : ElementType)
    (hnew : w.site owner id = .new id)
    (hbuiltin : (w.store.registry registry).handler t = .builtin t)
    (hkept : Redefinition.count registry t (history dispatchers program w) = 0)
    (hcalls : CallsExact dispatchers owner id registry t program)
    (hholds : Always dispatchers (CallHolds owner id) program w) :
    let entry : Entry := ⟨t, (w.store.registry registry).version t⟩
    let site := (w.after dispatchers program).site owner id
    let calls := program.countP fun step => step.call?.map Prod.snd = some (owner, id)
    let inRange := program.countP fun step =>
      step.call?.map Prod.snd = some (owner, id) ∧ step.target?.isSome
    (1 ≤ calls → site.state = .specialized entry) ∧
      site.stats =
        { fastPathHits := UInt64.ofNat inRange
          genericCalls := 0
          fallbacks := 0
          links := if calls = 0 then 0 else 1
          relinks := 0 } ∧
      (inRange < 2 ^ 64 → site.stats.fastPathHits.toNat = inRange) ∧
      Always dispatchers (fun step v => step.call?.map Prod.snd = some (owner, id) →
        ((step.run dispatchers v).2.site owner id).state = .specialized entry ∧
          (step.run dispatchers v).2.tally = v.tally) program w := by
  intro entry site calls inRange
  have hserved : Served dispatchers owner id registry t entry.guard program w :=
    ⟨hbuiltin, rfl, hkept, hcalls, hholds⟩
  have hsettled : w.site owner id = .settled id t entry.guard 0 0 := hnew
  have hsite := hserved.site_after hsettled
  rw [Nat.zero_add, Nat.zero_add] at hsite
  have hstats : site.stats = _ := congrArg Site.stats hsite
  refine ⟨fun hsome => ?_, hstats, fun hfew => ?_, ?_⟩
  · have hstate : site.state = if calls = 0 then .unlinked else .specialized entry :=
      congrArg Site.state hsite
    rw [hstate, if_neg (by omega)]
  · rw [hstats]
    exact UInt64.toNat_ofNat_of_lt hfew
  · -- the site is settled before every step, and so after it
    refine Always.of_invariant (I := fun steps v =>
      Served dispatchers owner id registry t entry.guard steps v ∧
        ∃ calls hits, v.site owner id = .settled id t entry.guard calls hits) ?_
      ⟨hserved, 0, 0, hsettled⟩
    rintro step steps v ⟨hserved', calls', hits', hsite'⟩
    by_cases hcall : step.call?.map Prod.snd = some (owner, id)
    · obtain ⟨⟨d, _⟩, hd, rfl⟩ := Option.map_eq_some_iff.mp hcall
      obtain ⟨hnext, htally⟩ := hserved'.run_of_call hsite' hd
      exact ⟨fun _ => ⟨by rw [hnext]; rfl, htally⟩, hserved'.run, _, _, hnext⟩
    · exact ⟨fun h => absurd h hcall, hserved'.run, _, _,
        (site_run_of_ne dispatchers owner id v hcall).trans hsite'⟩

/-! Three calls in both forms on two arrays, one of them past the end of its array; in between, a
redefinition of another type, the return from it, and a call through another site. -/

def served : List Step :=
  [redefine 0 .int answerSeven, applyAt 0 .standalone 7 shorts [.integer 0, .short 5],
    allocate (Storage.zeroed .short 2), invoke 0 7 shorts [.long 1, .null],
    assignAt 0 .standalone 7 ⟨.array ⟨1, .short, 2⟩, .integer (-1), .short 6⟩,
    restore 0 .int, applyAt 0 .standalone 7 shorts [.integer 3, .short 7]]

theorem cache_effective_served :
    let start := World.fresh threeShorts
    let site := (start.after oneRegistry served).site .standalone 7
    start.site .standalone 7 = .new 7 ∧
    (start.store.registry 0).handler .short = .builtin .short ∧
    Redefinition.count 0 .short (history oneRegistry served start) = 0 ∧
    CallsExact oneRegistry .standalone 7 0 .short served ∧
    Always oneRegistry (CallHolds .standalone 7) served start ∧
    site.state = .specialized ⟨.short, 0⟩ ∧
    site.stats = ⟨2, 0, 0, 1, 0⟩ := by
  intro start site
  have hnew : start.site .standalone 7 = .new 7 := rfl
  have hbuiltin : (start.store.registry 0).handler .short = .builtin .short := rfl
  have hkept : Redefinition.count 0 .short (history oneRegistry served start) = 0 := by
    decide +kernel
  have hcalls : CallsExact oneRegistry .standalone 7 0 .short served := by
    intro step hstep d hd
    simp only [served, invoke, List.mem_cons, List.not_mem_nil, or_false] at hstep
    rcases hstep with rfl | rfl | rfl | rfl | rfl | rfl | rfl <;> cases hd <;>
      exact ⟨rfl, rfl, _, rfl, rfl, ⟨_, rfl⟩, rfl⟩
  have hholds : Always oneRegistry (CallHolds .standalone 7) served start :=
    ⟨.of_ne (by decide), .of_holds rfl ⟨by decide +kernel, by decide⟩, .of_ne (by decide),
      .of_ne (by decide), .of_holds rfl ⟨by decide +kernel, by decide⟩, .of_ne (by decide),
      .of_holds rfl ⟨by decide +kernel, by decide⟩, trivial⟩
  obtain ⟨hstate, hstats, -⟩ := cache_effective oneRegistry start served .standalone 7 0 .short hnew
    hbuiltin hkept hcalls hholds
  exact ⟨hnew, hbuiltin, hkept, hcalls, hholds, hstate (by decide), hstats⟩

end Step

end InlineCache
