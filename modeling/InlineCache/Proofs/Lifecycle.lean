/-
The life of a call site, and its accounts.

Every call through a site ends in one of four ways (`Ending`): its entry performs it, its entry
reports a fault, its entry hands it back, or there is no entry.  What a run makes of a site is told
by the list of these endings (`Step.endings`).

* `Step.site_run_cases`: a step leaves a site alone, or it is a call through the site, which links
  the site if need be and then settles the call;
* `Site.Accounts`: what the counters and the state of a site say about its endings; it is kept by
  every call (`Site.Accounts.settle`), and so holds after every run;
* `Site.Counts.toNat_eq`: the counters are words, and exact for fewer calls than there are words;
* `Step.site_after_of_passThrough`: a site that is passed through once is passed through ever after;
* `Step.lifecycle`: all of this together, with the tables in which the sites live.
-/
import InlineCache.Proofs.GuardSoundness

namespace InlineCache

/-! ### Endings -/

/-- How a call through a site ends. -/
inductive Ending
  /-- The entry performed the call. -/
  | hit
  /-- The entry reported a fault. -/
  | fault
  /-- The entry handed the call back, which was then made generically. -/
  | handedBack (reason : FallbackReason)
  /-- There was no entry, and the call was made generically. -/
  | untried
  deriving DecidableEq, Repr

namespace Ending

/-- The entry handed the call back, for whatever reason. -/
def isHandedBack : Ending → Bool
  | handedBack _ => true
  | _ => false

/-- Every ending is of one of the four kinds. -/
theorem length_eq (log : List Ending) :
    log.length = log.count .hit + log.count .untried + log.countP isHandedBack +
      log.count .fault := by
  induction log with
  | nil => rfl
  | cons ending log ih =>
    rw [List.length_cons, ih]
    simp only [List.count_cons, List.countP_cons]
    cases ending <;> simp [isHandedBack] <;> omega

theorem count_stale_le (log : List Ending) :
    log.count (.handedBack .staleGuard) ≤ log.countP isHandedBack := by
  refine List.countP_mono_left fun ending _ hstale => ?_
  obtain rfl : ending = .handedBack .staleGuard := by simpa using hstale
  rfl

end Ending

/-- The ending that an outcome of the entry makes. -/
def EntryOutcome.ending : EntryOutcome → Ending
  | .done .. => .hit
  | .fault _ => .fault
  | .fallback reason => .handedBack reason

theorem EntryOutcome.eq_stale {outcome : EntryOutcome}
    (h : outcome.ending = .handedBack .staleGuard) : outcome = .fallback .staleGuard := by
  cases outcome with
  | fallback reason => exact congrArg EntryOutcome.fallback (Ending.handedBack.inj h)
  | _ => cases h

namespace Entry

variable {e : Entry} {r : Registry} {heap : Heap}

theorem store_ne_stale (heap : Heap) (receiver : Value) (i : Int32) (element : Element) :
    store heap receiver i element ≠ .fallback .staleGuard := by
  rw [store]
  split
  · split <;> exact fun h => by cases h
  · exact fun h => by cases h

/-- An entry takes a call to be stale only if its guard is. -/
theorem valid_of_apply_stale {receiver : Value} {args : List Value}
    (h : e.apply r heap receiver args = .fallback .staleGuard) : e.valid r = false := by
  cases hv : e.valid r with
  | false => rfl
  | true =>
    match args with
    | [] | [_] | _ :: _ :: _ :: _ => cases h
    | [index, value] =>
      simp only [apply, hv, if_true] at h
      cases hcheck : e.check ⟨receiver, index, value⟩ with
      | fits i element =>
        rw [hcheck] at h
        exact absurd h (store_ne_stale heap receiver i element)
      | _ =>
        rw [hcheck] at h
        cases h

theorem valid_of_assign_stale {a : Assignment} (h : e.assign r heap a = .fallback .staleGuard) :
    e.valid r = false := by
  cases hv : e.valid r with
  | false => rfl
  | true =>
    simp only [assign, hv, if_true] at h
    cases hcheck : e.check a with
    | fits i element =>
      rw [hcheck] at h
      exact absurd h (store_ne_stale heap a.receiver i element)
    | mismatchedPayload =>
      rw [hcheck] at h
      cases hpayload : e.type.classify a.value <;> simp [hpayload] at h
    | _ =>
      rw [hcheck] at h
      cases h

end Entry

namespace Site

/-- The ending of a call on a linked site. -/
def ending (site : Site) (attempt : Entry → EntryOutcome) : Ending :=
  match site.state with
  | .specialized e => (attempt e).ending
  | _ => .untried

/-- What a call that ends so makes of a linked site. -/
def ended (site : Site) (d : Dispatcher) (s : Store) (receiver : Value) (args : List Value) :
    Ending → Site
  | .hit => site.countHit
  | .fault => site
  | .handedBack reason => site.fellBack reason d s receiver args
  | .untried => site.countGeneric

theorem site_settle (site : Site) (d : Dispatcher) (s : Store) (receiver : Value)
    (args : List Value) (attempt : Entry → EntryOutcome) (generic : Reply) :
    (site.settle d s receiver args attempt generic).2 =
      site.ended d s receiver args (site.ending attempt) := by
  rw [settle, ending]
  cases site.state with
  | unlinked | passThrough => rfl
  | specialized e =>
    dsimp only
    cases attempt e <;> rfl

end Site

/-! ### Accounts -/

theorem Dispatcher.link_ne_unlinked (d : Dispatcher) (s : Store) (receiver : Value)
    (args : List Value) : d.link s receiver args ≠ .unlinked := by
  rw [link]
  cases receiver.elementType? with
  | none => exact fun h => by cases h
  | some t =>
    dsimp only
    rw [Handler.link]
    split
    · split <;> exact fun h => by cases h
    · exact fun h => by cases h

namespace Site

/-- The counters of a site count the endings of its calls, as words. -/
structure Counts (site : Site) (log : List Ending) : Prop where
  hits : site.stats.fastPathHits = UInt64.ofNat (log.count .hit)
  generic : site.stats.genericCalls = UInt64.ofNat (log.count .untried)
  fallbacks : site.stats.fallbacks = UInt64.ofNat (log.countP Ending.isHandedBack)
  relinks : site.stats.relinks = UInt64.ofNat (log.count (.handedBack .staleGuard))

/-- What the state of a site says about the endings of its calls. -/
structure Coherent (site : Site) (log : List Ending) : Prop where
  specialized : ∀ e, site.state = .specialized e → log.count .untried = 0
  passThrough : site.state = .passThrough → log.count (.handedBack .staleGuard) = 0 →
    log.count .hit = 0 ∧ log.countP Ending.isHandedBack = 0

/-- The accounts of a site after calls with the given endings. -/
structure Accounts (site : Site) (log : List Ending) : Prop
    extends Counts site log, Coherent site log where
  links : site.stats.links = if log = [] then 0 else 1
  unlinked : site.state = .unlinked ↔ log = []

theorem Accounts.new (id : UInt64) : (new id).Accounts [] := by
  refine ⟨⟨rfl, rfl, rfl, rfl⟩, ⟨fun e he => ?_, fun hpass => ?_⟩, rfl, fun _ => rfl, fun _ => rfl⟩
  · cases he
  · cases hpass

variable {site : Site} {log : List Ending} (d : Dispatcher) (s : Store) (receiver : Value)
  (args : List Value)

/-- Each ending moves the counter that stands for it. -/
theorem stats_ended (site : Site) (ending : Ending) :
    (site.ended d s receiver args ending).stats =
      { fastPathHits := site.stats.fastPathHits + UInt64.ofNat ([ending].count .hit)
        genericCalls := site.stats.genericCalls + UInt64.ofNat ([ending].count .untried)
        fallbacks := site.stats.fallbacks + UInt64.ofNat ([ending].countP Ending.isHandedBack)
        links := site.stats.links
        relinks :=
          site.stats.relinks + UInt64.ofNat ([ending].count (.handedBack .staleGuard)) } := by
  cases ending with
  | handedBack reason =>
    cases reason <;> simp [ended, fellBack, relinked, countFallback, Ending.isHandedBack]
  | hit => simp [ended, countHit, Ending.isHandedBack]
  | fault => simp [ended, Ending.isHandedBack]
  | untried => simp [ended, countGeneric, Ending.isHandedBack]

/-- Only a call that was found stale changes the state. -/
theorem state_ended {ending : Ending} (h : ending ≠ .handedBack .staleGuard) :
    (site.ended d s receiver args ending).state = site.state := by
  cases ending with
  | handedBack reason =>
    cases reason with
    | staleGuard => exact absurd rfl h
    | _ => rfl
  | _ => rfl

theorem Counts.ended (h : site.Counts log) (ending : Ending) :
    (site.ended d s receiver args ending).Counts (log ++ [ending]) := by
  refine ⟨?_, ?_, ?_, ?_⟩
  · rw [stats_ended, List.count_append, UInt64.ofNat_add, h.hits]
  · rw [stats_ended, List.count_append, UInt64.ofNat_add, h.generic]
  · rw [stats_ended, List.countP_append, UInt64.ofNat_add, h.fallbacks]
  · rw [stats_ended, List.count_append, UInt64.ofNat_add, h.relinks]

/-- Fewer calls than there are words are counted by numbers. -/
theorem Counts.toNat_eq (h : site.Counts log) (hfew : log.length < 2 ^ 64) :
    site.stats.fastPathHits.toNat = log.count .hit ∧
      site.stats.genericCalls.toNat = log.count .untried ∧
      site.stats.fallbacks.toNat = log.countP Ending.isHandedBack ∧
      site.stats.relinks.toNat = log.count (.handedBack .staleGuard) := by
  have hexact : ∀ p : Ending → Bool, (UInt64.ofNat (log.countP p)).toNat = log.countP p :=
    fun p => UInt64.toNat_ofNat_of_lt (Nat.lt_of_le_of_lt List.countP_le_length hfew)
  rw [h.hits, h.generic, h.fallbacks, h.relinks]
  exact ⟨hexact _, hexact _, hexact _, hexact _⟩

/-- A site that has been linked, now if not before. -/
theorem Accounts.linked (h : site.Accounts log) :
    (site.linked d s receiver args).Counts log ∧
      (site.linked d s receiver args).Coherent log ∧
      (site.linked d s receiver args).stats.links = 1 ∧
      (site.linked d s receiver args).state ≠ .unlinked := by
  by_cases hlog : log = []
  · -- the first call links the site
    have hstate := h.unlinked.mpr hlog
    have hlinks : site.stats.links = 0 := by rw [h.links, if_pos hlog]
    have hlinked : site.linked d s receiver args =
        { site with
          state := d.link s receiver args
          stats := { site.stats with links := site.stats.links + 1 } } := by
      rw [Site.linked, hstate]
    rw [hlinked]
    subst hlog
    refine ⟨⟨h.hits, h.generic, h.fallbacks, h.relinks⟩,
      ⟨fun _ _ => rfl, fun _ _ => ⟨rfl, rfl⟩⟩, ?_, d.link_ne_unlinked s receiver args⟩
    show site.stats.links + 1 = 1
    rw [hlinks, UInt64.zero_add]
  · have hstate : site.state ≠ .unlinked := mt h.unlinked.mp hlog
    have hlinked : site.linked d s receiver args = site := by
      rw [Site.linked]
      split
      · exact absurd ‹_› hstate
      · rfl
    rw [hlinked]
    exact ⟨h.toCounts, h.toCoherent, by rw [h.links, if_neg hlog], hstate⟩

/-- Settling a call keeps a linked site linked, and what its state says about its calls. -/
theorem Coherent.settle (h : site.Coherent log) (hstate : site.state ≠ .unlinked)
    (attempt : Entry → EntryOutcome) (generic : Reply) :
    (site.settle d s receiver args attempt generic).2.Coherent (log ++ [site.ending attempt]) ∧
      (site.settle d s receiver args attempt generic).2.state ≠ .unlinked := by
  rw [site_settle]
  cases hown : site.state with
  | unlinked => exact absurd hown hstate
  | passThrough =>
    have hending : site.ending attempt = .untried := by rw [ending, hown]
    rw [hending]
    refine ⟨⟨fun e he => ?_, fun _ hfresh => ?_⟩, hstate⟩
    · cases hown.symm.trans he
    · rw [List.count_append] at hfresh
      rw [List.count_append, List.countP_append]
      exact h.passThrough hown (Nat.eq_zero_of_add_eq_zero_right hfresh)
  | specialized e =>
    have hending : site.ending attempt = (attempt e).ending := by rw [ending, hown]
    have huntried : (log ++ [(attempt e).ending]).count .untried = 0 := by
      rw [List.count_append, h.specialized e hown]
      cases attempt e <;> rfl
    rw [hending]
    by_cases hback : (attempt e).ending = .handedBack .staleGuard
    · -- whatever takes the place of the entry, a call has been found stale
      refine ⟨⟨fun _ _ => huntried, fun _ hfresh => ?_⟩, ?_⟩
      · rw [hback, List.count_append] at hfresh
        cases Nat.eq_zero_of_add_eq_zero_left hfresh
      · rw [hback]
        exact d.link_ne_unlinked s receiver args
    · have hkept := (state_ended d s receiver args hback).trans hown
      refine ⟨⟨fun _ _ => huntried, fun hpass => ?_⟩, ?_⟩
      · cases hkept.symm.trans hpass
      · rw [hkept]
        exact nofun

/-- A call adds its ending to the accounts of the site. -/
theorem Accounts.settle (h : site.Accounts log) (attempt : Entry → EntryOutcome)
    (generic : Reply) :
    ((site.linked d s receiver args).settle d s receiver args attempt generic).2.Accounts
      (log ++ [(site.linked d s receiver args).ending attempt]) := by
  obtain ⟨hcounts, hcoherent, hlinks, hstate⟩ := h.linked d s receiver args
  obtain ⟨hcoherent', hstate'⟩ := hcoherent.settle d s receiver args hstate attempt generic
  refine ⟨?_, hcoherent', ?_, fun hunlinked => absurd hunlinked hstate', fun hlog => ?_⟩
  · rw [site_settle]
    exact hcounts.ended d s receiver args _
  · rw [site_settle, stats_ended, if_neg (by simp)]
    exact hlinks
  · simp at hlog

end Site

/-! ### Tables -/

namespace SiteTable

/-- How many sites of a table have an id. -/
def count (t : SiteTable) (id : UInt64) : Nat := t.sites.countP fun site => site.id == id

theorem count_visit (t : SiteTable) (id id' : UInt64) :
    (t.visit id).2.count id' = if id' = id ∧ t.count id' = 0 then 1 else t.count id' := by
  rw [visit]
  cases h : t.find? id with
  | some site =>
    -- the table has the site already
    have hpos : 0 < t.count id :=
      List.countP_pos_iff.mpr ⟨site, List.mem_of_find?_eq_some h, by simpa using id_of_find? h⟩
    rw [if_neg]
    rintro ⟨rfl, hzero⟩
    omega
  | none =>
    have hnone : t.count id = 0 := by
      rw [count, List.countP_eq_zero]
      intro site hsite
      simpa using List.find?_eq_none.mp h site hsite
    show (t.sites ++ [Site.new id]).countP _ = _
    rw [List.countP_append]
    by_cases hid : id' = id
    · subst hid
      rw [if_pos ⟨rfl, hnone⟩]
      show t.count id' + _ = 1
      rw [hnone]
      simp [Site.new]
    · have hnew : (id == id') = false := by simpa using Ne.symm hid
      rw [if_neg fun h => hid h.1]
      simp [Site.new, hnew, count]

theorem count_replace (t : SiteTable) (site : Site) (id : UInt64) :
    (t.replace site).count id = t.count id := by
  rw [count, replace, List.countP_map]
  congr 1
  funext old
  by_cases hold : old.id = site.id <;> simp [hold]

end SiteTable

/-! ### Steps and programs -/

namespace Step

/-- The site that a step asks its owner for. -/
def site? : Step → Option (Owner × UInt64)
  | applyAt _ owner id _ _ => some (owner, id)
  | assignAt _ owner id _ => some (owner, id)
  | visit owner id => some (owner, id)
  | _ => none

variable (dispatchers : Nat → Dispatcher) (owner : Owner) (id : UInt64)

/-- A step that asks for a site makes it exist, once. -/
theorem count_run (step : Step) (w : World) :
    ((step.run dispatchers w).2.sites owner).count id =
      if step.site? = some (owner, id) ∧ (w.sites owner).count id = 0 then 1
      else (w.sites owner).count id := by
  have hvisit : ∀ owner' id', ((w.visit owner' id').2.sites owner).count id =
      if some (owner', id') = some (owner, id) ∧ (w.sites owner).count id = 0 then 1
      else (w.sites owner).count id := by
    intro owner' id'
    simp only [World.visit, World.setSites, Option.some.injEq, Prod.mk.injEq]
    by_cases ho : owner = owner'
    · subst ho
      rw [if_pos rfl, SiteTable.count_visit]
      simp only [true_and, eq_comm]
    · rw [if_neg ho, if_neg fun h => ho h.1.1.symm]
  have hcall : ∀ d owner' id' (call : Site → Reply × Site),
      ((runCall w d owner' id' call).2.sites owner).count id =
        ((w.visit owner' id').2.sites owner).count id := by
    intro d owner' id' call
    simp only [runCall, World.absorb, World.count, World.setSites]
    by_cases ho : owner = owner'
    · subst ho
      rw [if_pos rfl, SiteTable.count_replace]
    · rw [if_neg ho]
  cases step with
  | applyAt d owner' id' receiver args => exact (hcall _ _ _ _).trans (hvisit _ _)
  | assignAt d owner' id' a => exact (hcall _ _ _ _).trans (hvisit _ _)
  | visit owner' id' => exact hvisit _ _
  | _ => rw [if_neg fun h => by cases h.1]; rfl

/-- How a call through the site ends, if the step is one. -/
def ending? (step : Step) (w : World) : Option Ending :=
  match step with
  | applyAt d owner' id' receiver args =>
    if owner = owner' ∧ id = id' then
      some (((w.site owner id).linked (dispatchers d) w.store receiver args).ending fun e =>
        e.apply (w.store.registry (dispatchers d).registry) w.store.heap receiver args)
    else none
  | assignAt d owner' id' a =>
    if owner = owner' ∧ id = id' then
      some (((w.site owner id).linked (dispatchers d) w.store a.receiver
        [a.index, a.value]).ending fun e =>
        e.assign (w.store.registry (dispatchers d).registry) w.store.heap a)
    else none
  | _ => none

theorem site_run_applyAt (w : World) (d : Nat) (owner' : Owner) (id' : UInt64) (receiver : Value)
    (args : List Value) :
    ((applyAt d owner' id' receiver args).run dispatchers w).2.site owner id =
      if owner = owner' ∧ id = id' then
        ((w.site owner' id').apply (dispatchers d) w.store receiver args).2
      else w.site owner id :=
  site_runCall w d owner' id' (fun site => site.apply (dispatchers d) w.store receiver args)
    (fun _ => Site.id_apply ..) owner id

theorem site_run_assignAt (w : World) (d : Nat) (owner' : Owner) (id' : UInt64) (a : Assignment) :
    ((assignAt d owner' id' a).run dispatchers w).2.site owner id =
      if owner = owner' ∧ id = id' then ((w.site owner' id').assign (dispatchers d) w.store a).2
      else w.site owner id :=
  site_runCall w d owner' id' (fun site => site.assign (dispatchers d) w.store a)
    (fun _ => Site.id_assign ..) owner id

/-- A step leaves a site alone, or it is a call through it, and then the site is linked if need be
and settles the call. -/
theorem site_run_cases (step : Step) (w : World) :
    (step.ending? dispatchers owner id w = none ∧ (∀ d, step.call? ≠ some (d, owner, id)) ∧
      (step.run dispatchers w).2.site owner id = w.site owner id) ∨
    ∃ d receiver args attempt generic,
      step.call? = some (d, owner, id) ∧
      step.ending? dispatchers owner id w =
        some (((w.site owner id).linked (dispatchers d) w.store receiver args).ending attempt) ∧
      (step.run dispatchers w).2.site owner id =
        (((w.site owner id).linked (dispatchers d) w.store receiver args).settle (dispatchers d)
          w.store receiver args attempt generic).2 ∧
      ∀ e, attempt e = .fallback .staleGuard →
        e.valid (w.store.registry (dispatchers d).registry) = false := by
  cases step with
  | applyAt d owner' id' receiver args =>
    have hsite := site_run_applyAt dispatchers owner id w d owner' id' receiver args
    by_cases hown : owner = owner' ∧ id = id'
    · obtain ⟨rfl, rfl⟩ := hown
      rw [if_pos ⟨rfl, rfl⟩] at hsite
      exact Or.inr ⟨d, receiver, args, _, _, rfl, if_pos ⟨rfl, rfl⟩, hsite,
        fun _ => Entry.valid_of_apply_stale⟩
    · rw [if_neg hown] at hsite
      refine Or.inl ⟨if_neg hown, fun d' hcall => ?_, hsite⟩
      cases hcall
      exact hown ⟨rfl, rfl⟩
  | assignAt d owner' id' a =>
    have hsite := site_run_assignAt dispatchers owner id w d owner' id' a
    by_cases hown : owner = owner' ∧ id = id'
    · obtain ⟨rfl, rfl⟩ := hown
      rw [if_pos ⟨rfl, rfl⟩] at hsite
      exact Or.inr ⟨d, a.receiver, [a.index, a.value], _, _, rfl, if_pos ⟨rfl, rfl⟩, hsite,
        fun _ => Entry.valid_of_assign_stale⟩
    · rw [if_neg hown] at hsite
      refine Or.inl ⟨if_neg hown, fun d' hcall => ?_, hsite⟩
      cases hcall
      exact hown ⟨rfl, rfl⟩
  | _ =>
    refine Or.inl ⟨rfl, fun d hcall => ?_, ?_⟩
    · cases hcall
    · rw [site_run_of_call?_eq_none dispatchers w rfl]

theorem site_run_of_ne {step : Step} (w : World)
    (h : step.call?.map Prod.snd ≠ some (owner, id)) :
    (step.run dispatchers w).2.site owner id = w.site owner id := by
  rcases site_run_cases dispatchers owner id step w with
    ⟨-, -, hsite⟩ | ⟨d, receiver, args, attempt, generic, hcall, -⟩
  · exact hsite
  · rw [hcall] at h
    exact absurd rfl h

/-- How the calls through the site end in the run of a program. -/
def endings : List Step → World → List Ending
  | [], _ => []
  | step :: steps, w =>
    (step.ending? dispatchers owner id w).toList ++ endings steps (step.run dispatchers w).2

variable {dispatchers owner id} {w : World} {log : List Ending}

theorem accounts_run (h : (w.site owner id).Accounts log) (step : Step) :
    ((step.run dispatchers w).2.site owner id).Accounts
      (log ++ (step.ending? dispatchers owner id w).toList) := by
  rcases site_run_cases dispatchers owner id step w with
    ⟨hending, -, hsite⟩ | ⟨d, receiver, args, attempt, generic, -, hending, hsite, -⟩
  · rw [hsite, hending, Option.toList_none, List.append_nil]
    exact h
  · rw [hsite, hending, Option.toList_some]
    exact h.settle (dispatchers d) w.store receiver args attempt generic

theorem accounts_after (h : (w.site owner id).Accounts log) (program : List Step) :
    ((w.after dispatchers program).site owner id).Accounts
      (log ++ endings dispatchers owner id program w) := by
  induction program generalizing w log with
  | nil =>
    rw [endings, List.append_nil]
    exact h
  | cons step steps ih =>
    rw [endings, ← List.append_assoc]
    exact ih (accounts_run h step)

/-- A site that has passed a number of calls through. -/
def passing (site : Site) (calls : Nat) : Site :=
  { site with
    stats := { site.stats with genericCalls := site.stats.genericCalls + UInt64.ofNat calls } }

theorem passing_zero (site : Site) : passing site 0 = site := by
  have hnone : site.stats.genericCalls + UInt64.ofNat 0 = site.stats.genericCalls :=
    UInt64.add_zero _
  rw [passing, hnone]

theorem passing_passing (site : Site) (m n : Nat) :
    passing (passing site m) n = passing site (m + n) := by
  simp only [passing, UInt64.ofNat_add, UInt64.add_assoc]

theorem site_run_of_passThrough (h : (w.site owner id).state = .passThrough) (step : Step) :
    (step.run dispatchers w).2.site owner id =
      passing (w.site owner id) (step.ending? dispatchers owner id w).toList.length := by
  rcases site_run_cases dispatchers owner id step w with
    ⟨hending, -, hsite⟩ | ⟨d, receiver, args, attempt, generic, -, hending, hsite, -⟩
  · rw [hsite, hending]
    exact (passing_zero _).symm
  · have hlinked : (w.site owner id).linked (dispatchers d) w.store receiver args =
        w.site owner id := by rw [Site.linked, h]
    rw [hsite, hending, hlinked, Site.settle, h]
    rfl

/-- A site that is passed through once is passed through ever after. -/
theorem site_after_of_passThrough (h : (w.site owner id).state = .passThrough)
    (program : List Step) :
    (w.after dispatchers program).site owner id =
      passing (w.site owner id) (endings dispatchers owner id program w).length := by
  induction program generalizing w with
  | nil => exact (passing_zero _).symm
  | cons step steps ih =>
    have hstep : (step.run dispatchers w).2.site owner id = _ := site_run_of_passThrough h step
    have hrest := ih (w := (step.run dispatchers w).2) (by rw [hstep]; exact h)
    rw [endings, List.length_append, ← passing_passing, ← hstep]
    exact hrest

/-- An entry gives way only in a call that finds its guard stale. -/
theorem stale_of_replaced {e : Entry} {step : Step} (h : (w.site owner id).state = .specialized e)
    (hreplaced : ((step.run dispatchers w).2.site owner id).state ≠ .specialized e) :
    ∃ d, step.call? = some (d, owner, id) ∧
      step.ending? dispatchers owner id w = some (.handedBack .staleGuard) ∧
      e.valid (w.store.registry (dispatchers d).registry) = false := by
  rcases site_run_cases dispatchers owner id step w with
    ⟨-, -, hsite⟩ | ⟨d, receiver, args, attempt, generic, hcall, hending, hsite, hstale⟩
  · rw [hsite] at hreplaced
    exact absurd h hreplaced
  · have hlinked : (w.site owner id).linked (dispatchers d) w.store receiver args =
        w.site owner id := by rw [Site.linked, h]
    rw [hlinked] at hsite hending
    have hown : (w.site owner id).ending attempt = (attempt e).ending := by rw [Site.ending, h]
    by_cases hback : (attempt e).ending = .handedBack .staleGuard
    · exact ⟨d, hcall, by rw [hending, hown, hback], hstale e (EntryOutcome.eq_stale hback)⟩
    · rw [hsite, Site.site_settle, hown, Site.state_ended _ _ _ _ hback] at hreplaced
      exact absurd h hreplaced

variable (dispatchers owner id)

theorem count_after (program : List Step) (w : World) :
    ((w.after dispatchers program).sites owner).count id =
      if program.any (fun step => step.site? = some (owner, id)) = true ∧
          (w.sites owner).count id = 0 then 1
      else (w.sites owner).count id := by
  induction program generalizing w with
  | nil =>
    rw [if_neg fun h => by cases h.1]
    rfl
  | cons step steps ih =>
    have hrun := count_run dispatchers owner id step w
    refine (ih (step.run dispatchers w).2).trans ?_
    rw [hrun, List.any_cons]
    by_cases hcount : (w.sites owner).count id = 0
    · by_cases hstep : step.site? = some (owner, id) <;> simp [hcount, hstep]
    · simp [hcount]

/-- Every call through a site has one ending. -/
theorem length_endings (program : List Step) (w : World) :
    (endings dispatchers owner id program w).length =
      program.countP fun step => step.call?.map Prod.snd = some (owner, id) := by
  induction program generalizing w with
  | nil => rfl
  | cons step steps ih =>
    rw [endings, List.length_append, ih, List.countP_cons, Nat.add_comm]
    congr 1
    rcases site_run_cases dispatchers owner id step w with
      ⟨hending, hcall, -⟩ | ⟨d, receiver, args, attempt, generic, hcall, hending, -⟩
    · have hnone : ¬ step.call?.map Prod.snd = some (owner, id) := by
        rw [Option.map_eq_some_iff]
        rintro ⟨⟨d, site⟩, hd, rfl⟩
        exact hcall d hd
      rw [hending, if_neg (by simpa using hnone)]
      rfl
    · rw [hending, hcall, if_pos (by simp)]
      rfl

/-- **The life of a site, and its accounts.**  After every program, over any dispatchers and
registries, a table has one site for each id that was ever asked for, and none for the others, and
asking for a site shows it as it is and changes none.  The calls through a site are those that its
entry performed, those made without an entry, those that its entry handed back, and those that
ended with a fault of its entry; each kind but the last has its counter.  The first call links the
site, once and for all.  The relinks are the calls found stale, which are among those handed back.
A site that is passed through remains so, and then only its generic calls grow; a site with an
entry has made no generic call; a site that is passed through and was never relinked has tried no
entry; and an entry is replaced only in a call that finds its guard stale.

The counters are words.  So the sum holds as one of words, and the relinks are the calls found stale
as a word; for fewer than `2 ^ 64` calls of the site the counters are the numbers themselves. -/
theorem lifecycle (dispatchers : Nat → Dispatcher) (s : Store) (program : List Step)
    (owner : Owner) (id : UInt64) :
    let w := (World.initial s).after dispatchers program
    let site := w.site owner id
    let log := endings dispatchers owner id program (.initial s)
    let calls := program.countP fun step => step.call?.map Prod.snd = some (owner, id)
    ((w.sites owner).count id =
      if program.any fun step => step.site? = some (owner, id) then 1 else 0) ∧
    (∀ owner' id', ((visit owner' id').run dispatchers w).1 = .ok (.site (w.site owner' id')) ∧
      ((visit owner' id').run dispatchers w).2.site = w.site) ∧
    log.length = calls ∧
    UInt64.ofNat calls = site.stats.fastPathHits + site.stats.genericCalls + site.stats.fallbacks +
      UInt64.ofNat (log.count .fault) ∧
    site.stats.links = (if 1 ≤ calls then 1 else 0) ∧
    (site.state = .unlinked ↔ calls = 0) ∧
    site.stats.relinks = UInt64.ofNat (log.count (.handedBack .staleGuard)) ∧
    (site.state = .passThrough → ∀ rest, (w.after dispatchers rest).site owner id =
      passing site (endings dispatchers owner id rest w).length) ∧
    (∀ e, site.state = .specialized e → site.stats.genericCalls = 0) ∧
    (site.state = .passThrough → log.count (.handedBack .staleGuard) = 0 →
      site.stats.fastPathHits = 0 ∧ site.stats.fallbacks = 0) ∧
    (∀ (e : Entry) (step : Step), site.state = .specialized e →
      ((step.run dispatchers w).2.site owner id).state ≠ .specialized e →
        ∃ d, step.call? = some (d, owner, id) ∧
          step.ending? dispatchers owner id w = some (.handedBack .staleGuard) ∧
          e.valid (w.store.registry (dispatchers d).registry) = false) ∧
    (calls < 2 ^ 64 →
      calls = site.stats.fastPathHits.toNat + site.stats.genericCalls.toNat +
        site.stats.fallbacks.toNat + log.count .fault ∧
      site.stats.relinks ≤ site.stats.fallbacks ∧
      site.stats.relinks.toNat = log.count (.handedBack .staleGuard) ∧
      (site.state = .passThrough → site.stats.relinks = 0 →
        site.stats.fastPathHits = 0 ∧ site.stats.fallbacks = 0)) := by
  intro w site log calls
  have hnew : ((World.initial s).site owner id).Accounts [] := Site.Accounts.new id
  have haccounts : site.Accounts log := accounts_after hnew program
  have hlength : log.length = calls := length_endings dispatchers owner id program (.initial s)
  have hempty : log = [] ↔ calls = 0 := by rw [← List.length_eq_zero_iff, hlength]
  refine ⟨?_, fun _ _ => ⟨rfl, w.site_visit _ _⟩, hlength, ?_, ?_, haccounts.unlinked.trans hempty,
    haccounts.relinks, fun h rest => site_after_of_passThrough h rest, fun e h => ?_,
    fun h hfresh => ?_, fun _ _ h hreplaced => stale_of_replaced h hreplaced, fun hfew => ?_⟩
  · -- the tables are empty before the program
    rw [count_after]
    simp [World.initial, SiteTable.empty, SiteTable.count]
  · rw [← hlength, Ending.length_eq log, haccounts.hits, haccounts.generic, haccounts.fallbacks]
    simp only [UInt64.ofNat_add]
  · rw [haccounts.links]
    by_cases hlog : log = []
    · rw [if_pos hlog, if_neg (by rw [hempty.mp hlog]; decide)]
    · rw [if_neg hlog, if_pos (Nat.one_le_iff_ne_zero.mpr (mt hempty.mpr hlog))]
  · rw [haccounts.generic, haccounts.specialized e h]
    rfl
  · obtain ⟨hhits, hfallbacks⟩ := haccounts.passThrough h hfresh
    rw [haccounts.hits, haccounts.fallbacks, hhits, hfallbacks]
    exact ⟨rfl, rfl⟩
  · obtain ⟨hhits, hgeneric, hfallbacks, hrelinks⟩ :=
      haccounts.toCounts.toNat_eq (by rwa [hlength])
    refine ⟨?_, ?_, hrelinks, fun h hzero => ?_⟩
    · rw [← hlength, Ending.length_eq log, hhits, hgeneric, hfallbacks]
    · rw [UInt64.le_iff_toNat_le, hrelinks, hfallbacks]
      exact Ending.count_stale_le log
    · rw [hzero] at hrelinks
      obtain ⟨hnoHits, hnoFallbacks⟩ := haccounts.passThrough h hrelinks.symm
      rw [haccounts.hits, haccounts.fallbacks, hnoHits, hnoFallbacks]
      exact ⟨rfl, rfl⟩

end Step

end InlineCache
