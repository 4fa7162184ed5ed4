/-
Runs of programs, and the call sites as a run sees them.

* `World.site` is the view of the site tables through which everything here is stated: one site
  per owner and id, new where nobody has asked for it.  A call changes the site that it goes
  through and no other (`Step.site_runCall`); a step that is no call changes none
  (`Step.site_run_of_call?_eq_none`);
* `World.after` is the world that a program leaves, and `Step.Always` says that something holds
  of every step of a program in the world in which it is run.  It is shown by an invariant on
  what is still to be run and the world so far (`Step.Always.of_invariant`).
-/
import InlineCache.World

namespace InlineCache

/-! ### Sites by owner and id -/

namespace SiteTable

theorem visit_fst (t : SiteTable) (id : UInt64) :
    (t.visit id).1 = (t.find? id).getD (Site.new id) := by
  rw [visit]
  cases t.find? id <;> rfl

theorem id_of_find? {t : SiteTable} {id : UInt64} {site : Site} (h : t.find? id = some site) :
    site.id = id := by
  simpa using List.find?_some h

theorem id_visit (t : SiteTable) (id : UInt64) : (t.visit id).1.id = id := by
  rw [visit_fst]
  cases h : t.find? id with
  | none => rfl
  | some site => exact id_of_find? h

/-- A visit makes its own site exist and leaves the others alone. -/
theorem find?_visit (t : SiteTable) (id id' : UInt64) :
    (t.visit id).2.find? id' = if id' = id then some (t.visit id).1 else t.find? id' := by
  rw [visit]
  cases h : t.find? id with
  | some site =>
    by_cases hid : id' = id
    · rw [if_pos hid, hid, h]
    · rw [if_neg hid]
  | none =>
    by_cases hid : id' = id
    · -- the new site is last in the table, and no other has its id
      subst hid
      have hnone : List.find? (fun site => site.id == id') t.sites = none := h
      simp [find?, List.find?_append, hnone, Site.new]
    · have hnew : (id == id') = false := by simpa using Ne.symm hid
      simp [find?, List.find?_append, Site.new, hid, hnew]

/-- Replacing a site shows only at its own id. -/
theorem find?_replace (t : SiteTable) (site : Site) (id : UInt64) :
    (t.replace site).find? id =
      if id = site.id then (t.find? id).map fun _ => site else t.find? id := by
  -- the ids of a table do not change, so both searches stop at the same place
  have hids : ((fun s : Site => s.id == id) ∘ fun old => if old.id = site.id then site else old)
      = fun s => s.id == id := by
    funext old
    by_cases hold : old.id = site.id <;> simp [hold]
  rw [find?, replace, List.find?_map, hids]
  cases h : t.find? id with
  | none =>
    rw [find?] at h
    simp [h]
  | some found =>
    have hfound : found.id = id := id_of_find? h
    rw [find?] at h
    rw [h, Option.map_some, hfound]
    by_cases hid : id = site.id
    · rw [if_pos hid, if_pos hid, Option.map_some]
    · rw [if_neg hid, if_neg hid]

end SiteTable

namespace World

/-- The site with an id, a new one if nobody has asked for it. -/
def site (w : World) (owner : Owner) (id : UInt64) : Site := ((w.sites owner).visit id).1

@[simp] theorem id_site (w : World) (owner : Owner) (id : UInt64) : (w.site owner id).id = id :=
  (w.sites owner).id_visit id

/-- The world of a program that starts from a heap, with built-in handlers everywhere. -/
def fresh (h : Heap) : World := initial ⟨h, fun _ => .initial⟩

theorem handler_fresh (h : Heap) (i : Nat) (t : ElementType) :
    ((fresh h).store.registry i).handler t = .builtin t :=
  Registry.handler_initial t

theorem site_of_sites_eq {v w : World} (h : v.sites = w.sites) : v.site = w.site := by
  funext owner id
  rw [site, site, h]

/-- Asking for a site changes no site. -/
theorem site_visit (w : World) (owner : Owner) (id : UInt64) :
    (w.visit owner id).2.site = w.site := by
  funext owner' id'
  by_cases ho : owner' = owner
  · subst ho
    have hid := SiteTable.find?_visit (w.sites owner') id id'
    rw [site, site, SiteTable.visit_fst, SiteTable.visit_fst]
    simp only [visit, setSites, if_pos]
    rw [hid]
    by_cases h : id' = id
    · rw [if_pos h, h, SiteTable.visit_fst, Option.getD_some]
    · rw [if_neg h]
  · simp [site, visit, setSites, ho]

end World

namespace Step

section Call

variable (w : World) (d : Nat) (owner : Owner) (id : UInt64) (call : Site → Reply × Site)

theorem result_runCall :
    (runCall w d owner id call).1 = (call (w.site owner id)).1.result.map .value := rfl

theorem store_runCall : (runCall w d owner id call).2.store = (call (w.site owner id)).1.store :=
  rfl

theorem tally_runCall :
    (runCall w d owner id call).2.tally = (w.count d (call (w.site owner id)).1.calls).tally := rfl

/-- A call changes its own site only. -/
theorem site_runCall (h : ∀ site, (call site).2.id = site.id) (owner' : Owner) (id' : UInt64) :
    (runCall w d owner id call).2.site owner' id' =
      if owner' = owner ∧ id' = id then (call (w.site owner id)).2 else w.site owner' id' := by
  have hvisit : (w.visit owner id).1 = w.site owner id := rfl
  have hid : (call (w.site owner id)).2.id = id := (h _).trans (w.id_site owner id)
  rw [World.site, SiteTable.visit_fst]
  simp only [runCall, World.absorb, World.count, World.setSites, hvisit]
  by_cases ho : owner' = owner
  · subst ho
    rw [if_pos rfl, SiteTable.find?_replace, hid]
    simp only [World.visit, World.setSites, if_pos, SiteTable.find?_visit]
    by_cases hown : id' = id
    · simp [hown]
    · simp [hown, World.site, SiteTable.visit_fst]
  · simp [ho, World.site, World.visit, World.setSites, SiteTable.visit_fst]

end Call

/-- The dispatcher, the owner and the id of a call through a site. -/
def call? : Step → Option (Nat × Owner × UInt64)
  | applyAt d owner id _ _ => some (d, owner, id)
  | assignAt d owner id _ => some (d, owner, id)
  | _ => none

/-- A step that is no call changes no site. -/
theorem site_run_of_call?_eq_none (dispatchers : Nat → Dispatcher) {step : Step} (w : World)
    (h : step.call? = none) : (step.run dispatchers w).2.site = w.site := by
  cases step with
  | applyAt | assignAt => simp [call?] at h
  | visit owner id => exact World.site_visit w owner id
  | _ => exact World.site_of_sites_eq rfl

end Step

/-! ### Whole programs -/

/-- The world that a program leaves. -/
def World.after (w : World) (dispatchers : Nat → Dispatcher) (program : List Step) : World :=
  program.foldl (fun w step => (step.run dispatchers w).2) w

namespace Step

variable {dispatchers : Nat → Dispatcher}

/-- Something holds of every step of a program in the world in which the step is run. -/
def Always (dispatchers : Nat → Dispatcher) (P : Step → World → Prop) : List Step → World → Prop
  | [], _ => True
  | step :: steps, w => P step w ∧ Always dispatchers P steps (step.run dispatchers w).2

/-- An invariant on the steps to come and the world so far gives what it implies at each step. -/
theorem Always.of_invariant {P : Step → World → Prop} {I : List Step → World → Prop}
    (hI : ∀ step steps w, I (step :: steps) w →
      P step w ∧ I steps (step.run dispatchers w).2) :
    ∀ {program : List Step} {w : World}, I program w → Always dispatchers P program w := by
  intro program
  induction program with
  | nil =>
    intro w _
    trivial
  | cons step steps ih =>
    intro w h
    obtain ⟨hstep, hrest⟩ := hI step steps w h
    exact ⟨hstep, ih hrest⟩

/-- The same invariant, with nothing left to run, holds in the world that the program leaves. -/
theorem after_of_invariant {I : List Step → World → Prop}
    (hI : ∀ step steps w, I (step :: steps) w → I steps (step.run dispatchers w).2) :
    ∀ {program : List Step} {w : World}, I program w → I [] (w.after dispatchers program) := by
  intro program
  induction program with
  | nil =>
    intro w h
    exact h
  | cons step steps ih =>
    intro w h
    exact ih (hI step steps w h)

end Step

end InlineCache
