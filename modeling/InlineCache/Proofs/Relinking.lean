/-
Call sites heal themselves, and do not thrash.

A redefinition makes entries stale, and a site replaces a stale entry when it is next called.  A
site that is called through dispatchers of one registry only is relinked no more often than that.

* `Site.healed_call`: a call with two arguments leaves a site that is passed through or has an entry
  with a current guard (`Site.Healed`);
* `Step.relink_cases`: a step relinks a site only if the site has a stale entry, and then heals it;
* `Step.current_after`: the guard of an entry remains current until the entry's type is redefined;
* `Step.stale_endings_le`: relinks are paid for by redefinitions;
* `Step.self_healing`: all of this for the site in a whole run.

Design notes: a relink does not use up a redefinition at once, since a stale entry waits for the
next call, and several redefinitions may have made it stale.  The bound is shown with a potential,
which is one while the entry is stale (`Site.staleness`).
-/
import InlineCache.Proofs.NonInterference

namespace InlineCache

/-! ### Current guards -/

/-- A history without redefinitions of its type leaves a guard as current as it was. -/
theorem Entry.valid_replay {e : Entry} {registry : Nat} {history : List Redefinition}
    (h : Redefinition.count registry e.type history = 0) (registries : Nat → Registry) :
    e.valid (Redefinition.replay history registries registry) = e.valid (registries registry) := by
  rw [valid, valid, Registry.version, Redefinition.resolve_replay h]
  rfl

namespace Site

/-- The site is passed through, or has an entry with a current guard. -/
def Healed (site : Site) (r : Registry) : Prop :=
  site.state = .passThrough ∨ ∃ e, site.state = .specialized e ∧ e.valid r = true

/-- One while the guard of the site's entry is not current. -/
def staleness (site : Site) (r : Registry) : Nat :=
  match site.state with
  | .specialized e => if e.valid r then 0 else 1
  | _ => 0

variable {site : Site} {d : Dispatcher} {s : Store} {receiver : Value} {args : List Value}

theorem Healed.valid {r : Registry} (h : site.Healed r) {e : Entry}
    (hstate : site.state = .specialized e) : e.valid r = true := by
  rcases h with hpass | ⟨e', hstate', hvalid⟩
  · cases hstate.symm.trans hpass
  · obtain rfl := SiteState.specialized.inj (hstate.symm.trans hstate')
    exact hvalid

theorem Healed.staleness_eq {r : Registry} (h : site.Healed r) : site.staleness r = 0 := by
  rw [staleness]
  split
  · exact if_pos (h.valid ‹_›)
  · rfl

theorem healed_of_state_eq_link (h : site.state = d.link s receiver args) :
    site.Healed (s.registry d.registry) := by
  cases hlink : d.link s receiver args with
  | unlinked => exact absurd hlink (d.link_ne_unlinked s receiver args)
  | passThrough => exact Or.inl (h.trans hlink)
  | specialized e =>
    obtain ⟨-, -, hguard, -⟩ := Dispatcher.link_eq_specialized hlink
    exact Or.inr ⟨e, h.trans hlink, Entry.valid_iff.mpr hguard⟩

/-- A site is linked already, or else it is healed by being linked. -/
theorem state_linked_cases (site : Site) (d : Dispatcher) (s : Store) (receiver : Value)
    (args : List Value) :
    (site.linked d s receiver args).state = site.state ∨
      (site.linked d s receiver args).Healed (s.registry d.registry) := by
  cases hstate : site.state with
  | unlinked => exact Or.inr (healed_of_state_eq_link (by rw [linked, hstate]))
  | passThrough | specialized =>
    have hsame : site.linked d s receiver args = site := by rw [linked, hstate]
    exact Or.inl ((congrArg state hsame).trans hstate)

theorem relinks_linked (site : Site) (d : Dispatcher) (s : Store) (receiver : Value)
    (args : List Value) :
    (site.linked d s receiver args).stats.relinks = site.stats.relinks := by
  rw [linked]
  split <;> rfl

theorem exists_of_ending_stale {attempt : Entry → EntryOutcome}
    (h : site.ending attempt = .handedBack .staleGuard) :
    ∃ e, site.state = .specialized e ∧ attempt e = .fallback .staleGuard := by
  rw [ending] at h
  split at h
  · exact ⟨_, ‹_›, EntryOutcome.eq_stale h⟩
  · cases h

/-- Settling a call heals a linked site, if the entry hands the call back whenever it is stale. -/
theorem healed_settle (hstate : site.state ≠ .unlinked) {attempt : Entry → EntryOutcome}
    (hattempt : ∀ e, attempt e = .fallback .staleGuard ↔ e.valid (s.registry d.registry) = false)
    (generic : Reply) :
    (site.settle d s receiver args attempt generic).2.Healed (s.registry d.registry) := by
  rw [site_settle]
  cases hown : site.state with
  | unlinked => exact absurd hown hstate
  | passThrough =>
    rw [ending, hown]
    exact Or.inl hown
  | specialized e =>
    have hending : site.ending attempt = (attempt e).ending := by rw [ending, hown]
    rw [hending]
    cases hvalid : e.valid (s.registry d.registry) with
    | false =>
      rw [(hattempt e).mpr hvalid]
      exact healed_of_state_eq_link rfl
    | true =>
      have hfresh : (attempt e).ending ≠ .handedBack .staleGuard := by
        intro hback
        rw [(hattempt e).mp (EntryOutcome.eq_stale hback)] at hvalid
        cases hvalid
      exact Or.inr ⟨e, (state_ended d s receiver args hfresh).trans hown, hvalid⟩

/-- A call with two arguments, of either form, heals a site. -/
theorem healed_call {a : Assignment} {outcome : Reply × Site}
    (hcall : outcome = site.apply d s a.receiver [a.index, a.value] ∨
      outcome = site.assign d s a) :
    outcome.2.Healed (s.registry d.registry) := by
  have hlinked : (site.linked d s a.receiver [a.index, a.value]).state ≠ .unlinked := by
    rw [linked]
    split
    · exact d.link_ne_unlinked s _ _
    · exact fun h => absurd h ‹_›
  rcases hcall with rfl | rfl
  · refine healed_settle hlinked (fun e => ⟨Entry.valid_of_apply_stale, fun h => ?_⟩) _
    show (if e.valid (s.registry d.registry) then _ else _) = _
    rw [h]
    rfl
  · refine healed_settle hlinked (fun e => ⟨Entry.valid_of_assign_stale, fun h => ?_⟩) _
    rw [Entry.assign, h]
    rfl

end Site

/-! ### Steps -/

namespace Step

variable {dispatchers : Nat → Dispatcher} {owner : Owner} {id : UInt64} {registry : Nat}
  {step : Step} {w : World}

/-- A step leaves the relinks of a site alone, and its state too unless it links the site; or it is
a call that finds the entry of the site stale, and relinks it.  A site that is linked or relinked is
healed, for the registries before the step. -/
theorem relink_cases
    (hstep : ∀ d, step.call? = some (d, owner, id) → (dispatchers d).registry = registry) :
    let before := w.site owner id
    let after := (step.run dispatchers w).2.site owner id
    let r := w.store.registry registry
    step.ending? dispatchers owner id w ≠ some (.handedBack .staleGuard) ∧
        after.stats.relinks = before.stats.relinks ∧ (after.state = before.state ∨ after.Healed r) ∨
      step.ending? dispatchers owner id w = some (.handedBack .staleGuard) ∧ after.Healed r ∧
        ∃ e, before.state = .specialized e ∧ e.valid r = false := by
  intro before after r
  rcases site_run_cases dispatchers owner id step w with
    ⟨hending, -, hsite⟩ | ⟨d, receiver, args, attempt, generic, hcall, hending, hsite, hstale⟩
  · exact Or.inl ⟨by rw [hending]; exact nofun, congrArg (fun site => site.stats.relinks) hsite,
      Or.inl (congrArg Site.state hsite)⟩
  · obtain rfl := hstep d hcall
    let linked := before.linked (dispatchers d) w.store receiver args
    have hafter : after = linked.ended (dispatchers d) w.store receiver args
        (linked.ending attempt) := hsite.trans (Site.site_settle ..)
    have hlinked := before.state_linked_cases (dispatchers d) w.store receiver args
    by_cases hback : linked.ending attempt = .handedBack .staleGuard
    · refine Or.inr ⟨hending.trans (congrArg some hback), ?_, ?_⟩
      · rw [hafter, hback]
        exact Site.healed_of_state_eq_link rfl
      · obtain ⟨e, hstate, hattempt⟩ := Site.exists_of_ending_stale hback
        have hinvalid := hstale e hattempt
        -- an entry that this call has made would not be stale
        rcases hlinked with hsame | hhealed
        · exact ⟨e, hsame.symm.trans hstate, hinvalid⟩
        · rw [hhealed.valid hstate] at hinvalid
          cases hinvalid
    · refine Or.inl ⟨fun hstale => hback (Option.some.inj (hending.symm.trans hstale)), ?_, ?_⟩
      · have hnone : [linked.ending attempt].count (.handedBack .staleGuard) = 0 := by
          rw [List.count_singleton, if_neg (by simpa using hback)]
        rw [hafter, Site.stats_ended, hnone]
        exact (UInt64.add_zero _).trans
          (before.relinks_linked (dispatchers d) w.store receiver args)
      · have hstate : after.state = linked.state := by
          rw [hafter, Site.state_ended _ _ _ _ hback]
        rcases hlinked with hsame | hhealed
        · exact Or.inl (hstate.trans hsame)
        · rw [Site.Healed, hstate]
          exact Or.inr hhealed

/-- The entry of a site, if it has one for the type, has a current guard. -/
def CurrentFor (t : ElementType) (owner : Owner) (id : UInt64) (registry : Nat) (w : World) :
    Prop :=
  ∀ e, (w.site owner id).state = .specialized e → e.type = t →
    e.valid (w.store.registry registry) = true

/-- The guard of an entry remains current in a step that does not redefine the entry's type. -/
theorem current_run {t : ElementType}
    (hstep : ∀ d, step.call? = some (d, owner, id) → (dispatchers d).registry = registry)
    (hkept : Redefinition.count registry t (step.redefinitions dispatchers w) = 0)
    (h : CurrentFor t owner id registry w ∨
      ((step.run dispatchers w).2.site owner id).Healed (w.store.registry registry)) :
    CurrentFor t owner id registry (step.run dispatchers w).2 := by
  rintro e hstate rfl
  rw [registry_run, Entry.valid_replay hkept]
  rcases h with hcurrent | hhealed
  · rcases relink_cases (w := w) hstep with ⟨-, -, hsame | hhealed⟩ | ⟨-, hhealed, -⟩
    · exact hcurrent e (hsame.symm.trans hstate) rfl
    · exact hhealed.valid hstate
    · exact hhealed.valid hstate
  · exact hhealed.valid hstate

theorem current_after {t : ElementType} {program : List Step}
    (hshare : CallsShare dispatchers owner id registry program)
    (hkept : Redefinition.count registry t (history dispatchers program w) = 0)
    (h : CurrentFor t owner id registry w) :
    CurrentFor t owner id registry (w.after dispatchers program) := by
  induction program generalizing w with
  | nil => exact h
  | cons step steps ih =>
    rw [history, Redefinition.count_append, Nat.add_eq_zero_iff] at hkept
    exact ih (fun later hlater => hshare later (List.mem_cons_of_mem _ hlater)) hkept.2
      (current_run (hshare step List.mem_cons_self) hkept.1 (Or.inl h))

/-! ### The number of relinks -/

/-- A history makes a site stale only if it has a redefinition. -/
theorem staleness_replay_le (registry : Nat) (site : Site) (history : List Redefinition)
    (registries : Nat → Registry) :
    site.staleness (Redefinition.replay history registries registry) ≤
      site.staleness (registries registry) +
        history.countP fun r => r.registry = registry := by
  rw [Site.staleness, Site.staleness]
  split
  · rename_i e hstate
    rcases Nat.eq_zero_or_pos (Redefinition.count registry e.type history) with hnone | hsome
    · rw [Entry.valid_replay hnone]
      exact Nat.le_add_right _ _
    · -- the potential is never more than one
      have hle : Redefinition.count registry e.type history ≤
          history.countP fun r => r.registry = registry :=
        List.countP_mono_left fun r _ hr => by simpa using (of_decide_eq_true hr).1
      split <;> omega
  · exact Nat.zero_le _

/-- A call that finds an entry stale makes up for a relink that was due, and another one becomes due
by a redefinition only. -/
theorem stale_ending_le
    (hstep : ∀ d, step.call? = some (d, owner, id) → (dispatchers d).registry = registry) :
    (step.ending? dispatchers owner id w).toList.count (.handedBack .staleGuard) +
        ((step.run dispatchers w).2.site owner id).staleness
          ((step.run dispatchers w).2.store.registry registry) ≤
      (w.site owner id).staleness (w.store.registry registry) +
        (step.redefinitions dispatchers w).countP fun r => r.registry = registry := by
  have hreplay := staleness_replay_le registry
    ((step.run dispatchers w).2.site owner id) (step.redefinitions dispatchers w) w.store.registry
  rw [← registry_run] at hreplay
  rcases relink_cases (w := w) hstep with ⟨hfresh, -, hafter⟩ |
    ⟨hstale, hhealed, e, hstate, hinvalid⟩
  · have hnone : (step.ending? dispatchers owner id w).toList.count (.handedBack .staleGuard) = 0 :=
      List.count_eq_zero.mpr (by simpa using hfresh)
    have hle : ((step.run dispatchers w).2.site owner id).staleness (w.store.registry registry) ≤
        (w.site owner id).staleness (w.store.registry registry) := by
      rcases hafter with hsame | hhealed
      · exact Nat.le_of_eq (by rw [Site.staleness, Site.staleness, hsame])
      · rw [hhealed.staleness_eq]
        exact Nat.zero_le _
    omega
  · have hone :
        (step.ending? dispatchers owner id w).toList.count (.handedBack .staleGuard) = 1 := by
      rw [hstale]
      rfl
    have hdue : (w.site owner id).staleness (w.store.registry registry) = 1 := by
      rw [Site.staleness, hstate]
      exact if_neg (by rw [hinvalid]; exact Bool.false_ne_true)
    have hnone := hhealed.staleness_eq
    omega

theorem stale_endings_le {program : List Step}
    (hshare : CallsShare dispatchers owner id registry program) :
    (endings dispatchers owner id program w).count (.handedBack .staleGuard) +
        ((w.after dispatchers program).site owner id).staleness
          ((w.after dispatchers program).store.registry registry) ≤
      (w.site owner id).staleness (w.store.registry registry) +
        (history dispatchers program w).countP fun r => r.registry = registry := by
  induction program generalizing w with
  | nil => exact Nat.le_of_eq (Nat.zero_add _)
  | cons step steps ih =>
    have hstep := stale_ending_le (w := w) (hshare step List.mem_cons_self)
    have hrest := ih (w := (step.run dispatchers w).2)
      fun later hlater => hshare later (List.mem_cons_of_mem _ hlater)
    have hafter : w.after dispatchers (step :: steps) =
        (step.run dispatchers w).2.after dispatchers steps := rfl
    rw [endings, List.count_append, history, List.countP_append, hafter]
    omega

/-- The counter of relinks of a site that was new counts the calls that found its entry stale. -/
theorem relinks_after_of_new (hnew : w.site owner id = .new id) (program : List Step) :
    ((w.after dispatchers program).site owner id).stats.relinks =
      UInt64.ofNat ((endings dispatchers owner id program w).count (.handedBack .staleGuard)) := by
  have haccounts : (w.site owner id).Accounts [] := by
    rw [hnew]
    exact Site.Accounts.new id
  exact (accounts_after haccounts program).relinks

/-! ### Whole programs -/

/-- The step moves the site's counter of relinks. -/
def Relinks (dispatchers : Nat → Dispatcher) (owner : Owner) (id : UInt64) (step : Step)
    (w : World) : Prop :=
  ((step.run dispatchers w).2.site owner id).stats.relinks ≠ (w.site owner id).stats.relinks

instance (step : Step) (w : World) : Decidable (step.Relinks dispatchers owner id w) :=
  inferInstanceAs (Decidable (_ ≠ _))

theorem healed_of_relinks
    (hstep : ∀ d, step.call? = some (d, owner, id) → (dispatchers d).registry = registry)
    (h : step.Relinks dispatchers owner id w) :
    ((step.run dispatchers w).2.site owner id).Healed (w.store.registry registry) ∧
      ∃ e, (w.site owner id).state = .specialized e ∧
        e.valid (w.store.registry registry) = false := by
  rcases relink_cases (w := w) hstep with ⟨-, hrelinks, -⟩ | ⟨-, hhealed, hstale⟩
  · exact absurd hrelinks h
  · exact ⟨hhealed, hstale⟩

/-- Between two relinks, the entry that the second one replaces has become stale. -/
theorem redefined_between {first second : Step} {between rest : List Step}
    (hshare : CallsShare dispatchers owner id registry (first :: (between ++ second :: rest)))
    (hfirst : first.Relinks dispatchers owner id w)
    (hsecond : second.Relinks dispatchers owner id (w.after dispatchers (first :: between))) :
    ∃ e, ((w.after dispatchers (first :: between)).site owner id).state = .specialized e ∧
      0 < Redefinition.count registry e.type (history dispatchers (first :: between) w) := by
  have hstep := hshare first List.mem_cons_self
  obtain ⟨-, e, hstate, hinvalid⟩ := healed_of_relinks (hshare second (by simp)) hsecond
  refine ⟨e, hstate, Nat.pos_of_ne_zero fun hnone => ?_⟩
  -- the first relink has left no stale entry, and nothing has made one since
  rw [history, Redefinition.count_append, Nat.add_eq_zero_iff] at hnone
  have hcurrent := current_run hstep hnone.1 (Or.inr (healed_of_relinks hstep hfirst).1)
  have hlater := current_after
    (fun step hbetween => hshare step (by simp [hbetween])) hnone.2 hcurrent
  exact Bool.eq_false_iff.mp hinvalid (hlater e hstate rfl)

theorem quiet_after (dispatchers : Nat → Dispatcher) {program : List Step} (hw : w.store.Quiet)
    (hprogram : ∀ step ∈ program, step.Quiet) : (w.after dispatchers program).store.Quiet := by
  induction program generalizing w with
  | nil => exact hw
  | cons step steps ih =>
    rw [List.forall_mem_cons] at hprogram
    exact ih (quiet_run hw hprogram.1) hprogram.2

/-- Under quiet handlers, a call through a site redefines nothing. -/
theorem redefinitions_of_call (hw : w.store.Quiet)
    (hcall : step.call?.map Prod.snd = some (owner, id)) :
    step.redefinitions dispatchers w = [] := by
  rw [redefinitions_of_quiet hw]
  cases step with
  | redefine | restore => cases hcall
  | _ => rfl

/-- A call with two arguments heals the site. -/
theorem healed_run_of_call (dispatchers : Nat → Dispatcher) (w : World) {d d' : Nat}
    {a : Assignment}
    (hcall : step.call? = some (d, owner, id)) (hasked : step.assignment? = some (d', a)) :
    ((step.run dispatchers w).2.site owner id).Healed
      (w.store.registry (dispatchers d).registry) := by
  obtain ⟨outcome, hform, hsite, -⟩ :=
    exists_outcome_of_call dispatchers w hcall hasked
  rw [hsite]
  exact Site.healed_call hform

/-- **Sites heal themselves, and do not thrash.**  Let a site be called only through dispatchers
that share a registry, and let no override redefine anything.  After every call through the site
with two arguments, the site is passed through, or the guard of its entry is the current version of
the entry's type.  Between any two relinks of the site, the type of the entry that the second one
replaces is redefined in the registry.  And from any time on at which the site is still new, no more
calls through it find its entry stale than the registry sees redefinitions, so that the counter of
its relinks does not exceed their number either. -/
theorem self_healing (dispatchers : Nat → Dispatcher) (w : World) (program : List Step)
    (owner : Owner) (id : UInt64) (registry : Nat)
    (hshare : CallsShare dispatchers owner id registry program) (hquiet : w.store.Quiet)
    (hprogram : ∀ step ∈ program, step.Quiet) :
    (∀ before step rest, program = before ++ step :: rest →
      step.call?.map Prod.snd = some (owner, id) → step.assignment?.isSome →
        let v := (step.run dispatchers (w.after dispatchers before)).2
        (v.site owner id).state = .passThrough ∨
          ∃ e, (v.site owner id).state = .specialized e ∧
            e.guard = (v.store.registry registry).version e.type) ∧
    (∀ before first between second rest,
      program = before ++ first :: (between ++ second :: rest) →
        let v := w.after dispatchers before
        let v' := (first.run dispatchers v).2.after dispatchers between
        first.Relinks dispatchers owner id v → second.Relinks dispatchers owner id v' →
          ∃ e, (v'.site owner id).state = .specialized e ∧
            0 < Redefinition.count registry e.type
              (history dispatchers between (first.run dispatchers v).2)) ∧
    ∀ before rest, program = before ++ rest →
      let v := w.after dispatchers before
      v.site owner id = .new id →
        (endings dispatchers owner id rest v).count (.handedBack .staleGuard) ≤
            (history dispatchers rest v).countP (fun r => r.registry = registry) ∧
          ((w.after dispatchers program).site owner id).stats.relinks.toNat ≤
            (history dispatchers rest v).countP fun r => r.registry = registry := by
  refine ⟨?_, ?_, ?_⟩
  · rintro before step rest rfl hcall hasked v
    have hquiet' := quiet_after dispatchers hquiet fun step hstep =>
      hprogram step (List.mem_append_left _ hstep)
    have hsame : v.store.registry = (w.after dispatchers before).store.registry := by
      rw [registry_run, redefinitions_of_call hquiet' hcall]
      rfl
    obtain ⟨⟨d, _⟩, hd, rfl⟩ := Option.map_eq_some_iff.mp hcall
    obtain ⟨⟨d', a⟩, hasked⟩ := Option.isSome_iff_exists.mp hasked
    obtain rfl := hshare step (by simp) d hd
    rw [hsame]
    rcases healed_run_of_call dispatchers (w.after dispatchers before) hd hasked with
      hpass | ⟨e, hstate, hvalid⟩
    · exact Or.inl hpass
    · exact Or.inr ⟨e, hstate, Entry.valid_iff.mp hvalid⟩
  · rintro before first between second rest rfl v v' hfirst hsecond
    have hquiet' := quiet_after dispatchers hquiet fun step hstep =>
      hprogram step (List.mem_append_left _ hstep)
    obtain ⟨e, hstate, hredefined⟩ := redefined_between
      (fun step hstep => hshare step (List.mem_append_right _ hstep)) hfirst hsecond
    have hcall : first.call?.map Prod.snd = some (owner, id) := by
      by_contra hne
      exact hfirst (congrArg (fun site => site.stats.relinks) (site_run_of_ne _ _ _ _ hne))
    rw [history, redefinitions_of_call hquiet' hcall] at hredefined
    exact ⟨e, hstate, hredefined⟩
  · rintro before rest rfl v hnew
    have hdue := stale_endings_le (w := v) fun step hstep =>
      hshare step (List.mem_append_right _ hstep)
    have hnone : (v.site owner id).staleness (v.store.registry registry) = 0 := by
      rw [hnew]
      rfl
    rw [hnone, Nat.zero_add] at hdue
    have hbound := Nat.le_trans (Nat.le_add_right _ _) hdue
    refine ⟨hbound, ?_⟩
    rw [World.after_append, relinks_after_of_new hnew, UInt64.toNat_ofNat']
    exact Nat.le_trans (Nat.mod_le _ _) hbound

/-! A site that is relinked twice: by a call on an array of another type, and after a redefinition
of that type, with a call in between that has no arguments. -/

def ints : Value := .array ⟨1, .int, 2⟩

def relinking : List Step :=
  [allocate (Storage.zeroed .int 2), applyAt 0 .standalone 7 shorts [.integer 0, .short 5],
    restore 0 .short, assignAt 0 .standalone 7 ⟨ints, .integer 0, .integer 6⟩,
    redefine 0 .int answerSeven, applyAt 0 .standalone 7 shorts [],
    applyAt 0 .standalone 7 ints [.integer 1, .integer 7]]

theorem self_healing_relinking :
    let start := World.fresh threeShorts
    let linked := start.after oneRegistry (relinking.take 1)
    let relinked := start.after oneRegistry (relinking.take 4)
    CallsShare oneRegistry .standalone 7 0 relinking ∧
    start.store.Quiet ∧
    (∀ step ∈ relinking, step.Quiet) ∧
    (relinked.site .standalone 7).state = .specialized ⟨.int, 0⟩ ∧
    0 < Redefinition.count 0 .int (history oneRegistry ((relinking.drop 4).take 2) relinked) ∧
    ((start.after oneRegistry relinking).site .standalone 7).stats.relinks = 2 ∧
    2 ≤ (history oneRegistry (relinking.drop 1) linked).countP fun r => r.registry = 0 := by
  intro start linked relinked
  have hshare : CallsShare oneRegistry .standalone 7 0 relinking := fun _ _ _ _ => rfl
  have hquiet : start.store.Quiet := World.quiet_fresh threeShorts
  have hseven : answerSeven.Quiet := fun _ _ => rfl
  have hprogram : ∀ step ∈ relinking, step.Quiet := by
    simp [relinking, Quiet, redefinition?, hseven, Handler.quiet_builtin]
  have hrelinks : ((start.after oneRegistry relinking).site .standalone 7).stats.relinks = 2 := by
    decide +kernel
  have hstate : (relinked.site .standalone 7).state = .specialized ⟨.int, 0⟩ := by decide +kernel
  obtain ⟨-, hbetween, hbound⟩ :=
    self_healing oneRegistry start relinking .standalone 7 0 hshare hquiet hprogram
  refine ⟨hshare, hquiet, hprogram, hstate, ?_, hrelinks, ?_⟩
  · obtain ⟨e, he, hpos⟩ := hbetween (relinking.take 3) _ ((relinking.drop 4).take 2) _ [] rfl
      (by decide +kernel) (by decide +kernel)
    have hheld : e = ⟨.int, 0⟩ := by
      have hstill : ((relinked.after oneRegistry ((relinking.drop 4).take 2)).site
          .standalone 7).state = .specialized ⟨.int, 0⟩ := by decide +kernel
      exact SiteState.specialized.inj (he.symm.trans hstill)
    rw [hheld] at hpos
    exact hpos
  · have hcounter := (hbound (relinking.take 1) (relinking.drop 1) rfl rfl).2
    rw [hrelinks] at hcounter
    exact hcounter

end Step

end InlineCache
