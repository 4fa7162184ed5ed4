/-
Versions number the redefinitions.

A redefinition answers the version that it leads to, and with this answer it makes a receipt
(`Receipt`).  The receipts of a run are its log (`Step.allReceipts`), whether the redefinitions were
steps of the program or took place in the bodies of overrides, and the log says all there is to
say about the registries (`Registered`).

* `Script.receipts_eq`, `Step.receipts_eq`: the receipts are those of the redefinitions that are
  performed;
* `Registered.perform`: a redefinition keeps the registries as its log says, and `registered_after`
  draws the conclusion for whole programs;
* `Step.stale_forever`: so every redefinition gets a number of its own, and a guard that has been
  left behind is never reached again.
-/
import InlineCache.Proofs.Handles
import InlineCache.Proofs.Relinking

namespace InlineCache

/-! ### Receipts -/

/-- A redefinition that has taken place, and the version that it has answered. -/
structure Receipt extends Redefinition where
  version : UInt64

namespace Receipt

/-- The receipts for one type in one registry, in order. -/
def only (registry : Nat) (t : ElementType) (log : List Receipt) : List Receipt :=
  log.filter fun r => r.registry = registry ∧ r.type = t

theorem only_append (registry : Nat) (t : ElementType) (log later : List Receipt) :
    only registry t (log ++ later) = only registry t log ++ only registry t later :=
  List.filter_append ..

theorem only_singleton (registry : Nat) (t : ElementType) (r : Receipt) :
    only registry t [r] = if r.registry = registry ∧ r.type = t then [r] else [] := by
  rw [only, List.filter_singleton]
  simp

theorem length_only_le (registry : Nat) (t : ElementType) (log : List Receipt) :
    (only registry t log).length ≤ log.length :=
  List.length_filter_le ..

/-- What a log says of one type in one registry: the handler and the version of the last receipt,
and what a new registry has if there is none. -/
def resolution (registry : Nat) (t : ElementType) (log : List Receipt) : Resolution :=
  match (only registry t log).getLast? with
  | some r => ⟨r.handler, r.version⟩
  | none => Registry.initial.resolve t

end Receipt

namespace Redefinition

/-- The receipt for a redefinition of the given registries. -/
def receipt (r : Redefinition) (registries : Nat → Registry) : Receipt :=
  { r with version := (perform registries r r.registry).version r.type }

theorem version_receipt (r : Redefinition) (registries : Nat → Registry) :
    (r.receipt registries).version = (registries r.registry).version r.type + 1 := by
  show ((perform registries r r.registry).resolve r.type).version = _
  rw [resolve_perform, if_pos ⟨rfl, rfl⟩]

/-- The receipts for a history, its first redefinition first. -/
def receipts : List Redefinition → (Nat → Registry) → List Receipt
  | [], _ => []
  | r :: rest, registries => r.receipt registries :: receipts rest (perform registries r)

end Redefinition

/-! ### Registries are as their log says -/

/-- Of every type the registries hold what the log says of it.  Each receipt shows which of the
redefinitions of its type it is for, and the version of the type shows how many there were. -/
structure Registered (log : List Receipt) (registries : Nat → Registry) : Prop where
  resolve : ∀ i t, (registries i).resolve t = Receipt.resolution i t log
  version : ∀ i t, (registries i).version t = UInt64.ofNat (Receipt.only i t log).length
  numbered : ∀ before r after, log = before ++ r :: after →
    r.version = UInt64.ofNat ((Receipt.only r.registry r.type before).length + 1)

namespace Registered

variable {log : List Receipt} {registries : Nat → Registry}

theorem initial : Registered [] fun _ => .initial := by
  refine ⟨fun _ _ => rfl, fun _ t => Registry.version_initial t, fun before r after h => ?_⟩
  simp at h

theorem perform (h : Registered log registries) (r : Redefinition) :
    Registered (log ++ [r.receipt registries]) (Redefinition.perform registries r) := by
  have hversion : (r.receipt registries).version =
      UInt64.ofNat ((Receipt.only r.registry r.type log).length + 1) := by
    rw [r.version_receipt, h.version, UInt64.ofNat_add]
    rfl
  have honly : ∀ i t, Receipt.only i t (log ++ [r.receipt registries]) =
      Receipt.only i t log ++
        if r.registry = i ∧ r.type = t then [r.receipt registries] else [] := by
    intro i t
    rw [Receipt.only_append, Receipt.only_singleton]
    rfl
  refine ⟨fun i t => ?_, fun i t => ?_, fun before r' after hlog => ?_⟩
  · rw [Redefinition.resolve_perform, Receipt.resolution, honly]
    by_cases hown : r.registry = i ∧ r.type = t
    · obtain ⟨rfl, rfl⟩ := hown
      rw [if_pos ⟨rfl, rfl⟩, if_pos ⟨rfl, rfl⟩, List.getLast?_concat, ← r.version_receipt]
      rfl
    · rw [if_neg hown, if_neg hown, List.append_nil, h.resolve]
      rfl
  · rw [Registry.version, Redefinition.resolve_perform, honly]
    by_cases hown : r.registry = i ∧ r.type = t
    · obtain ⟨rfl, rfl⟩ := hown
      rw [if_pos ⟨rfl, rfl⟩, if_pos ⟨rfl, rfl⟩, List.length_append, List.length_singleton,
        ← hversion, r.version_receipt]
    · rw [if_neg hown, if_neg hown, List.append_nil]
      exact h.version i t
  · -- the receipt is the new one, or one of the log
    rcases List.eq_nil_or_concat after with rfl | ⟨rest, last, rfl⟩
    · obtain ⟨rfl, hr⟩ := List.append_inj' hlog rfl
      obtain rfl := (List.cons.inj hr).1
      exact hversion
    · rw [List.concat_eq_append, ← List.cons_append, ← List.append_assoc] at hlog
      exact h.numbered before r' rest (List.append_inj' hlog rfl).1

theorem replay (h : Registered log registries) (history : List Redefinition) :
    Registered (log ++ Redefinition.receipts history registries)
      (Redefinition.replay history registries) := by
  induction history generalizing log registries with
  | nil =>
    rw [Redefinition.receipts, List.append_nil]
    exact h
  | cons r rest ih =>
    rw [Redefinition.receipts, ← List.singleton_append, ← List.append_assoc]
    exact ih (h.perform r)

theorem toNat_version (h : Registered log registries) {i : Nat} {t : ElementType}
    (hfew : (Receipt.only i t log).length < 2 ^ 64) :
    ((registries i).version t).toNat = (Receipt.only i t log).length := by
  rw [h.version]
  exact UInt64.toNat_ofNat_of_lt' hfew

end Registered

/-! ### The receipts of a run -/

/-- The receipts for the redefinitions of an override body, with the versions that the body is
given for them. -/
def Script.receipts : Script Handler → Store → List Receipt
  | .finish _, _ => []
  | .get a i next, s => (next (s.heap.get a i)).receipts s
  | .put a i e next, s =>
    let outcome := s.update (s.heap.put a i e)
    (next outcome.1).receipts outcome.2
  | .snapshot a next, s => (next (s.heap.storage a)).receipts s
  | .allocate storage next, s =>
    let outcome := s.heap.allocate storage
    (next outcome.1).receipts { s with heap := outcome.2 }
  | .assign t service a next, s =>
    let outcome := s.update (t.assign service s.heap a).1
    (next outcome.1).receipts outcome.2
  | .redefine id t h next, s =>
    let s := s.redefine id t h
    let version := (s.registry id).version t
    ⟨⟨id, t, h⟩, version⟩ :: (next version).receipts s

theorem Script.receipts_eq (script : Script Handler) (s : Store) :
    script.receipts s = Redefinition.receipts (script.redefinitions s) s.registry := by
  induction script generalizing s with
  | finish result => rfl
  | get a i next ih => exact ih _ s
  | put a i e next ih =>
    rw [receipts, redefinitions, ih, Store.registry_update]
  | snapshot a next ih => exact ih _ s
  | allocate storage next ih => exact ih _ _
  | assign t service a next ih =>
    rw [receipts, redefinitions, ih, Store.registry_update]
  | redefine id t h next ih =>
    rw [receipts, redefinitions, ih]
    rfl

/-- A generic assignment redefines what the override body does that it runs. -/
theorem Dispatcher.redefinitionsOf_eq (d : Dispatcher) (s : Store) (receiver : Value)
    (args : List Value) :
    d.redefinitionsOf s receiver args =
      (d.body? s receiver args).elim [] fun script => script.redefinitions s := by
  match args with
  | [] | [_] | _ :: _ :: _ :: _ => rfl
  | [index, value] =>
    rw [redefinitionsOf, redefinitions, body?]
    cases receiver.elementType? with
    | none => rfl
    | some t =>
      show ((s.registry d.registry).handler t).redefinitions s _ =
        (((s.registry d.registry).handler t).body? _).elim [] _
      cases (s.registry d.registry).handler t <;> rfl

namespace Step

variable (dispatchers : Nat → Dispatcher)

/-- The receipts for the redefinitions that a step performs: the one that it asks for, with the
version that it answers, or those of the override body that it runs. -/
def receipts (step : Step) (w : World) : List Receipt :=
  match step.redefinition?, (step.run dispatchers w).1 with
  | some r, .ok (.version version) => [⟨r, version⟩]
  | _, _ => (step.body? dispatchers w).elim [] fun script => script.receipts w.store

/-- The receipts for the redefinitions that a program performs, in order. -/
def allReceipts : List Step → World → List Receipt
  | [], _ => []
  | step :: steps, w => step.receipts dispatchers w ++ allReceipts steps (step.run dispatchers w).2

/-- A step that does not ask for a redefinition redefines what the override body does that it
runs. -/
theorem redefinitions_eq {step : Step} (hstep : step.redefinition? = none) (w : World) :
    step.redefinitions dispatchers w =
      (step.body? dispatchers w).elim [] fun script => script.redefinitions w.store := by
  cases step with
  | redefine | restore => cases hstep
  | applyAt d owner id receiver args =>
    rw [redefinitions, Site.applyRedefinitions, body?, isFast, Dispatcher.redefinitionsOf_eq]
    cases (w.site owner id).fastApply? (dispatchers d) w.store receiver args <;> rfl
  | assignAt d owner id a =>
    have hgeneric := (dispatchers d).redefinitionsOf_eq w.store a.receiver [a.index, a.value]
    rw [Dispatcher.redefinitionsOf] at hgeneric
    rw [redefinitions, Site.assignRedefinitions, body?, isFast, hgeneric]
    cases (w.site owner id).fastAssign? (dispatchers d) w.store a <;> rfl
  | assign d a => exact (dispatchers d).redefinitionsOf_eq w.store a.receiver [a.index, a.value]
  | apply d receiver args => exact (dispatchers d).redefinitionsOf_eq w.store receiver args
  | _ => rfl

theorem receipts_eq (step : Step) (w : World) :
    step.receipts dispatchers w =
      Redefinition.receipts (step.redefinitions dispatchers w) w.store.registry := by
  cases hstep : step.redefinition? with
  | some r =>
    cases step with
    | redefine | restore =>
      obtain rfl := Option.some.inj hstep
      rfl
    | _ => cases hstep
  | none =>
    rw [redefinitions_eq dispatchers hstep, receipts, hstep]
    cases step.body? dispatchers w with
    | none => rfl
    | some script => exact script.receipts_eq w.store

variable {log : List Receipt} {w : World}

theorem registered_run (h : Registered log w.store.registry) (step : Step) :
    Registered (log ++ step.receipts dispatchers w) (step.run dispatchers w).2.store.registry := by
  rw [receipts_eq, registry_run]
  exact h.replay _

theorem registered_after (h : Registered log w.store.registry) (program : List Step) :
    Registered (log ++ allReceipts dispatchers program w)
      (w.after dispatchers program).store.registry := by
  induction program generalizing log w with
  | nil =>
    rw [allReceipts, List.append_nil]
    exact h
  | cons step steps ih =>
    rw [allReceipts, ← List.append_assoc]
    exact ih (registered_run dispatchers h step)

theorem allReceipts_append (first second : List Step) (w : World) :
    allReceipts dispatchers (first ++ second) w =
      allReceipts dispatchers first w ++
        allReceipts dispatchers second (w.after dispatchers first) := by
  induction first generalizing w with
  | nil => rfl
  | cons step steps ih =>
    rw [List.cons_append, allReceipts, allReceipts, ih, List.append_assoc]
    rfl

/-- The version of a type moves on by the number of redefinitions of the type. -/
theorem toNat_version_after (h : Registered log w.store.registry) (program : List Step) {i : Nat}
    {t : ElementType}
    (hfew : (Receipt.only i t (log ++ allReceipts dispatchers program w)).length < 2 ^ 64) :
    (((w.after dispatchers program).store.registry i).version t).toNat =
      ((w.store.registry i).version t).toNat +
        (Receipt.only i t (allReceipts dispatchers program w)).length := by
  have hlength := (registered_after dispatchers h program).toNat_version hfew
  rw [Receipt.only_append, List.length_append] at hfew hlength
  rw [hlength, h.toNat_version (by omega)]

/-- A guard that the version of its type has passed by stays behind. -/
theorem valid_after_of_stale (h : Registered log w.store.registry) {between later : List Step}
    {i : Nat} {e : Entry}
    (hfew : (Receipt.only i e.type
      (log ++ allReceipts dispatchers (between ++ later) w)).length < 2 ^ 64)
    (hguard : e.guard ≤ (w.store.registry i).version e.type)
    (hstale : e.valid ((w.after dispatchers between).store.registry i) = false) :
    e.valid ((w.after dispatchers (between ++ later)).store.registry i) = false := by
  have hlater := toNat_version_after dispatchers h (between ++ later) hfew
  rw [allReceipts_append, Receipt.only_append, List.length_append] at hlater
  rw [allReceipts_append, ← List.append_assoc, Receipt.only_append, List.length_append] at hfew
  have hbetween := toNat_version_after dispatchers h between
    (Nat.lt_of_le_of_lt (Nat.le_add_right _ _) hfew)
  have hle := UInt64.le_iff_toNat_le.mp hguard
  have hne : e.guard.toNat ≠
      (((w.after dispatchers between).store.registry i).version e.type).toNat := by
    intro hsame
    rw [Entry.valid_iff.mpr (UInt64.toNat_inj.mp hsame)] at hstale
    cases hstale
  rw [Bool.eq_false_iff]
  intro hvalid
  have hsame := congrArg UInt64.toNat (Entry.valid_iff.mp hvalid)
  omega

/-- **Stale entries never come back.**  Let a program start where all registries are new, and let no
registry see `2 ^ 64` redefinitions of a type.  Then the version of a type is the number of its
redefinitions, and it is the version that the last of them has answered; the handler in force is the
one that the last of them has installed, and the built-in one if there were none.  Each redefinition
answers its own number; and what is redefined of other types, or in other registries, changes
neither handler nor version.  (What holds in the middle of an override body holds after the body
that stops there.)  Therefore an entry whose guard was no later than the version of its type at some
time, and which has later been found stale, is stale ever after, whatever handler is in force. -/
theorem stale_forever (dispatchers : Nat → Dispatcher) (heap : Heap) (program : List Step)
    (hfew : ∀ i t,
      (Receipt.only i t (allReceipts dispatchers program (.fresh heap))).length < 2 ^ 64) :
    let start := World.fresh heap
    let log := allReceipts dispatchers program start
    let registries := (start.after dispatchers program).store.registry
    (∀ i t,
      ((registries i).version t).toNat = (Receipt.only i t log).length ∧
      (∀ r, (Receipt.only i t log).getLast? = some r →
        (registries i).version t = r.version ∧ (registries i).handler t = r.handler) ∧
      (Receipt.only i t log = [] → (registries i).handler t = .builtin t)) ∧
    (∀ before r after, log = before ++ r :: after →
      r.version.toNat = (Receipt.only r.registry r.type before).length + 1) ∧
    (∀ before rest, program = before ++ rest →
      let w := start.after dispatchers before
      ∀ i t, Receipt.only i t (allReceipts dispatchers rest w) = [] →
        (registries i).resolve t = (w.store.registry i).resolve t) ∧
    ∀ captured between later, program = captured ++ between ++ later →
      let v := start.after dispatchers captured
      let v' := v.after dispatchers between
      ∀ i (e : Entry), e.guard ≤ (v.store.registry i).version e.type →
        e.valid (v'.store.registry i) = false → e.valid (registries i) = false := by
  intro start log registries
  have hstart : Registered [] start.store.registry := .initial
  have hregistered : Registered log registries := registered_after dispatchers hstart program
  refine ⟨fun i t => ⟨hregistered.toNat_version (hfew i t), fun r hr => ?_, fun hnone => ?_⟩,
    fun before r after hlog => ?_, ?_, ?_⟩
  · have hlast := hregistered.resolve i t
    rw [Receipt.resolution, hr] at hlast
    exact ⟨congrArg Resolution.version hlast, congrArg Resolution.handler hlast⟩
  · have hfirst := hregistered.resolve i t
    rw [Receipt.resolution, hnone] at hfirst
    exact (congrArg Resolution.handler hfirst).trans (Registry.handler_initial t)
  · -- the receipts before are fewer than those of the whole log
    have htotal : (Receipt.only r.registry r.type log).length < 2 ^ 64 := hfew _ _
    have hlength : (Receipt.only r.registry r.type log).length =
        (Receipt.only r.registry r.type before).length +
          (Receipt.only r.registry r.type (r :: after)).length := by
      rw [hlog, Receipt.only_append, List.length_append]
    have hown : 0 < (Receipt.only r.registry r.type (r :: after)).length := by
      simp [Receipt.only]
    rw [hregistered.numbered before r after hlog, UInt64.toNat_ofNat_of_lt']
    show _ < 2 ^ 64
    omega
  · rintro before rest rfl w i t hnone
    have hbefore := registered_after dispatchers hstart before
    rw [List.nil_append] at hbefore
    have hsame : Receipt.only i t log =
        Receipt.only i t (allReceipts dispatchers before start) := by
      rw [show log = _ from allReceipts_append dispatchers before rest start,
        Receipt.only_append, hnone, List.append_nil]
    rw [hregistered.resolve, hbefore.resolve, Receipt.resolution, Receipt.resolution, hsame]
  · rintro captured between later rfl v v' i e hguard hstale
    have hcaptured := registered_after dispatchers hstart captured
    have hafter : registries = (v.after dispatchers (between ++ later)).store.registry := by
      show ((start.after dispatchers (captured ++ between ++ later)).store.registry) = _
      rw [List.append_assoc, World.after_append]
    rw [hafter]
    refine valid_after_of_stale dispatchers hcaptured ?_ hguard hstale
    have htotal := hfew i e.type
    rw [List.append_assoc, allReceipts_append] at htotal
    exact htotal

/-! An entry that is overtaken by two redefinitions, one of them in the body of an override, and by
the return to the built-in handler.  Another registry sees a redefinition too. -/

/-- An override that gives way to a foreign built-in handler. -/
def givingWay : Handler :=
  .override "once" fun _ => .redefine 0 .short (.builtin .int) fun _ => .finish (.ok .null)

def overtaken : List Step :=
  [applyAt 0 .standalone 7 shorts [.integer 0, .short 5], redefine 0 .short givingWay,
    redefine 1 .short answerSeven, assign 0 ⟨shorts, .integer 1, .short 6⟩, restore 0 .short]

theorem stale_forever_overtaken :
    let start := World.fresh threeShorts
    let log := allReceipts oneRegistry overtaken start
    let linked := start.after oneRegistry (overtaken.take 1)
    let r := (start.after oneRegistry overtaken).store.registry 0
    let entry : Entry := ⟨.short, 0⟩
    (∀ i t, (Receipt.only i t log).length < 2 ^ 64) ∧
    (linked.site .standalone 7).state = .specialized entry ∧
    (r.version .short).toNat = 3 ∧
    r.handler .short = .builtin .short ∧
    entry.valid r = false := by
  intro start log linked r entry
  have hfew : ∀ i t, (Receipt.only i t log).length < 2 ^ 64 :=
    fun i t => Nat.lt_of_le_of_lt (Receipt.length_only_le i t log) (by decide +kernel)
  have hlast : (Receipt.only 0 .short log).getLast? = some ⟨⟨0, .short, .builtin .short⟩, 3⟩ := rfl
  obtain ⟨hslots, -, -, hstale⟩ := stale_forever oneRegistry threeShorts overtaken hfew
  obtain ⟨hversion, hanswer, -⟩ := hslots 0 .short
  refine ⟨hfew, by decide +kernel, hversion.trans (by decide +kernel), (hanswer _ hlast).2, ?_⟩
  exact hstale (overtaken.take 1) ((overtaken.drop 1).take 1) (overtaken.drop 2) rfl 0 entry
    (by decide) (by decide +kernel)

end Step

end InlineCache
