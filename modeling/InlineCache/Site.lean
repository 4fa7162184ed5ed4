/-
Call sites: places in a program that assign, with a memory of how they were linked.

The first call through a site links it.  A linked site tries its entry, if it has one, and goes to
the dispatcher for everything the entry hands back; an entry whose guard is stale is first
replaced by what linking the present call gives.
-/
import InlineCache.Dispatcher

namespace InlineCache

/-- What has happened at a site.  The counters are words, which start again at zero after
`2 ^ 64 - 1`. -/
structure SiteStats where
  fastPathHits : UInt64
  genericCalls : UInt64
  fallbacks : UInt64
  links : UInt64
  relinks : UInt64
  deriving DecidableEq, Repr

/-- A call site. -/
structure Site where
  id : UInt64
  state : SiteState
  stats : SiteStats
  deriving DecidableEq

namespace Site

/-- A site that has seen no call. -/
def new (id : UInt64) : Site := ⟨id, .unlinked, ⟨0, 0, 0, 0, 0⟩⟩

/-- The name of a site in reports. -/
def label (site : Site) : String := "site#" ++ toString site.id

/-- Links a site that is not yet linked. -/
def linked (site : Site) (d : Dispatcher) (s : Store) (receiver : Value) (args : List Value) :
    Site :=
  match site.state with
  | .unlinked =>
    { site with
      state := d.link s receiver args
      stats := { site.stats with links := site.stats.links + 1 } }
  | _ => site

/-- Counts a call that the entry performed. -/
def countHit (site : Site) : Site :=
  { site with stats := { site.stats with fastPathHits := site.stats.fastPathHits + 1 } }

/-- Counts a call that no entry was tried for. -/
def countGeneric (site : Site) : Site :=
  { site with stats := { site.stats with genericCalls := site.stats.genericCalls + 1 } }

/-- Counts a call that the entry handed back. -/
def countFallback (site : Site) : Site :=
  { site with stats := { site.stats with fallbacks := site.stats.fallbacks + 1 } }

/-- Replaces the entry by what linking the present call gives. -/
def relinked (site : Site) (d : Dispatcher) (s : Store) (receiver : Value) (args : List Value) :
    Site :=
  { site with
    state := d.link s receiver args
    stats := { site.stats with relinks := site.stats.relinks + 1 } }

/-- Records that the entry handed a call back. -/
def fellBack (site : Site) (reason : FallbackReason) (d : Dispatcher) (s : Store)
    (receiver : Value) (args : List Value) : Site :=
  match reason with
  | .staleGuard => site.countFallback.relinked d s receiver args
  | _ => site.countFallback

/-- Finishes a call on a linked site, given what its entry would do and the generic reply. -/
@[inline] def settle (site : Site) (d : Dispatcher) (s : Store) (receiver : Value)
    (args : List Value) (attempt : Entry → EntryOutcome) (generic : Reply) : Reply × Site :=
  match site.state with
  | .specialized entry =>
    match attempt entry with
    | .done value heap => (⟨.ok value, { s with heap := heap }, .none⟩, site.countHit)
    | .fault f => (⟨.error f, s, .none⟩, site)
    | .fallback reason => (generic, site.fellBack reason d s receiver args)
  | _ => (generic, site.countGeneric)

/-- An assignment through the site, with a list of arguments. -/
def apply (site : Site) (d : Dispatcher) (s : Store) (receiver : Value) (args : List Value) :
    Reply × Site :=
  (site.linked d s receiver args).settle d s receiver args
    (fun entry => entry.apply (s.registry d.registry) s.heap receiver args)
    (d.apply s receiver args)

/-- An assignment through the site, with an index and a value. -/
def assign (site : Site) (d : Dispatcher) (s : Store) (a : Assignment) : Reply × Site :=
  (site.linked d s a.receiver [a.index, a.value]).settle d s a.receiver [a.index, a.value]
    (fun entry => entry.assign (s.registry d.registry) s.heap a)
    (d.assign s a)

end Site

/-- The sites of one owner, in the order in which they were first asked for. -/
structure SiteTable where
  sites : List Site

namespace SiteTable

/-- The table of an owner that was never asked. -/
def empty : SiteTable := ⟨[]⟩

/-- The number of sites. -/
def size (t : SiteTable) : Nat := t.sites.length

/-- The site with an id, if it exists. -/
def find? (t : SiteTable) (id : UInt64) : Option Site := t.sites.find? fun site => site.id == id

/-- The site with an id; a new one joins the table if there is none. -/
def visit (t : SiteTable) (id : UInt64) : Site × SiteTable :=
  match t.find? id with
  | some site => (site, t)
  | none => (Site.new id, ⟨t.sites ++ [Site.new id]⟩)

/-- Replaces the site that has the same id. -/
def replace (t : SiteTable) (site : Site) : SiteTable :=
  ⟨t.sites.map fun old => if old.id = site.id then site else old⟩

end SiteTable

end InlineCache
