/-
Registries: the handler in force for each element type, with a version.

A registry is a table with a row for each of the six element types.  Every redefinition of a type,
restoring the built-in handler included, moves the type to its next version.  That it leaves the
other types alone is a matter of the positions in the table, which are all different.
-/
import InlineCache.Handler

namespace InlineCache

namespace ElementType

/-- The position of an element type in a table of all of them. -/
def position : ElementType → Fin 6
  | byte => 0
  | short => 1
  | int => 2
  | long => 3
  | float => 4
  | double => 5

/-- The types are listed in the order of their positions. -/
theorem getElem_all_position (t : ElementType) : all[t.position] = t := by
  cases t <;> rfl

theorem position_inj {t u : ElementType} : t.position = u.position ↔ t = u := by
  constructor
  · intro h
    rw [← getElem_all_position t, ← getElem_all_position u, h]
  · exact congrArg position

end ElementType

/-- A handler and the number of redefinitions that led to it, as a word. -/
structure Resolution where
  handler : Handler
  version : UInt64

/-- The resolutions of all element types, each at the position of its type. -/
structure Registry where
  table : Vector Resolution 6

namespace Registry

/-- The registry in which every type has its built-in handler. -/
def initial : Registry :=
  ⟨⟨(ElementType.all.map fun t => ⟨.builtin t, 0⟩).toArray, rfl⟩⟩

/-- The resolution of a type. -/
def resolve (r : Registry) (t : ElementType) : Resolution := r.table[t.position]

/-- The handler in force for a type. -/
def handler (r : Registry) (t : ElementType) : Handler := (r.resolve t).handler

/-- The number of redefinitions of a type, as a word. -/
def version (r : Registry) (t : ElementType) : UInt64 := (r.resolve t).version

/-- The registry with a new handler for one type. -/
def redefine (r : Registry) (t : ElementType) (h : Handler) : Registry :=
  ⟨r.table.set t.position ⟨h, r.version t + 1⟩⟩

/-- The built-in handlers are put into the table at the positions of their types. -/
theorem resolve_initial (t : ElementType) : initial.resolve t = ⟨.builtin t, 0⟩ := by
  have ht : ElementType.all[t.position.val] = t := t.getElem_all_position
  show (ElementType.all.map fun t => (⟨.builtin t, 0⟩ : Resolution))[t.position.val] = _
  rw [List.getElem_map, ht]

@[simp] theorem handler_initial (t : ElementType) : initial.handler t = .builtin t := by
  rw [handler, resolve_initial]

@[simp] theorem version_initial (t : ElementType) : initial.version t = 0 := by
  rw [version, resolve_initial]

theorem resolve_redefine (r : Registry) (t u : ElementType) (h : Handler) :
    (r.redefine t h).resolve u = if u = t then ⟨h, r.version t + 1⟩ else r.resolve u := by
  have hposition : t.position.val = u.position.val ↔ u = t := by
    rw [← Fin.ext_iff, ElementType.position_inj, eq_comm]
  simp only [redefine, resolve, Fin.getElem_fin, Vector.getElem_set, hposition]

@[simp] theorem handler_redefine_self (r : Registry) (t : ElementType) (h : Handler) :
    (r.redefine t h).handler t = h := by rw [handler, resolve_redefine, if_pos rfl]

@[simp] theorem version_redefine_self (r : Registry) (t : ElementType) (h : Handler) :
    (r.redefine t h).version t = r.version t + 1 := by rw [version, resolve_redefine, if_pos rfl]

theorem resolve_redefine_of_ne (r : Registry) {t u : ElementType} (h : Handler) (hu : u ≠ t) :
    (r.redefine t h).resolve u = r.resolve u := by rw [resolve_redefine, if_neg hu]

end Registry

end InlineCache
