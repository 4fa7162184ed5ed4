/-
The heap as slots of cells.

Everything that is said about arrays is said through two views of the heap: the element in a slot
of a cell (`Heap.slot?`), and the type and the length of the storage in a cell (`Heap.shape?`).
A handle belongs to a heap when it remembers the shape of its cell (`Heap.Holds`).

* `Heap.get_eq_ok`: reading through a handle gives the element of the slot that the index names;
* `Heap.assigned_of_put`: a write that succeeds leaves a heap that differs in the slot only that the
  index names (`Heap.Assigned`);
* `Heap.exists_put`: writing an element of the right type to a slot does succeed;
* `Heap.put_eq_error`, `Heap.isOk_put`: writing fails exactly where the index names no slot,
  and with the fault for that.
-/
import InlineCache.Proofs.Indices

namespace InlineCache

/-! ### Storages -/

namespace Storage

/-- An element of the type of the storage can be put into each of its slots. -/
theorem exists_set {s : Storage} {i : Nat} {e : Element} (he : e.type = s.type)
    (hi : i < s.length) :
    ∃ s', s.set i e = .ok s' ∧ s'.type = s.type ∧ s'.length = s.length ∧
      ∀ j, s'.get? j = if j = i then some e else s.get? j := by
  have hi' : i < s.slots.size := hi
  refine ⟨⟨s.type, s.slots.set i e, ?_⟩, ?_, rfl, ?_, fun j => ?_⟩
  · intro x hx
    rcases Array.mem_or_eq_of_mem_set hx with hx | rfl
    · exact s.uniform x hx
    · exact he
  · rw [set, dif_pos he, dif_pos hi']
  · exact Array.size_set hi'
  · show (s.slots.set i e)[j]? = if j = i then some e else s.slots[j]?
    rw [Array.getElem?_set]
    by_cases hj : j = i
    · rw [if_pos hj.symm, if_pos hj]
    · rw [if_neg (Ne.symm hj), if_neg hj]

/-- Only elements of the type of the storage are taken, and only into its slots. -/
theorem of_set {s s' : Storage} {i : Nat} {e : Element} (h : s.set i e = .ok s') :
    e.type = s.type ∧ i < s.length := by
  rw [set] at h
  split at h
  · split at h
    · exact ⟨‹_›, ‹_›⟩
    · cases h
  · cases h

end Storage

namespace Heap

/-! ### Cells, and the handles on them -/

/-- The element in a slot of a cell. -/
def slot? (h : Heap) (cell i : Nat) : Option Element := h.cells[cell]?.bind fun s => s.get? i

/-- The element type and the length of the storage in a cell. -/
def shape? (h : Heap) (cell : Nat) : Option (ElementType × Nat) :=
  h.cells[cell]?.map fun s => (s.type, s.length)

/-- The handle is one of the heap's: its cell has the type and the length that it remembers.  No
array is longer than the greatest signed word. -/
structure Holds (h : Heap) (a : ArrayHandle) : Prop where
  shape : h.shape? a.cell = some (a.type, a.length)
  length_lt : a.length < 2 ^ 63

section

variable {h : Heap} {a : ArrayHandle}

theorem Holds.getElem? (ha : h.Holds a) : h.cells[a.cell]? = some (h.storage a) := by
  obtain ⟨s, hs, -⟩ := Option.map_eq_some_iff.mp ha.shape
  rw [hs, storage, Array.getD_eq_getD_getElem?, hs, Option.getD_some]

theorem Holds.type_storage (ha : h.Holds a) : (h.storage a).type = a.type := by
  have hshape := ha.shape
  rw [shape?, ha.getElem?, Option.map_some, Option.some.injEq, Prod.mk.injEq] at hshape
  exact hshape.1

theorem Holds.length_storage (ha : h.Holds a) : (h.storage a).length = a.length := by
  have hshape := ha.shape
  rw [shape?, ha.getElem?, Option.map_some, Option.some.injEq, Prod.mk.injEq] at hshape
  exact hshape.2

theorem Holds.slot?_eq (ha : h.Holds a) (i : Nat) : h.slot? a.cell i = (h.storage a).get? i := by
  rw [slot?, ha.getElem?, Option.bind_some]

/-- Handles of a heap on one cell are the same handle. -/
theorem Holds.eq_of_cell {b : ArrayHandle} (ha : h.Holds a) (hb : h.Holds b)
    (hcell : b.cell = a.cell) : b = a := by
  have hshape := hb.shape
  rw [hcell, ha.shape, Option.some.injEq, Prod.mk.injEq] at hshape
  obtain ⟨cell, type, length⟩ := a
  obtain ⟨cell', type', length'⟩ := b
  obtain rfl : cell' = cell := hcell
  obtain ⟨rfl, rfl⟩ := hshape
  rfl

/-! ### Reading and writing -/

theorem getElem?_of_lt_length {i : Nat} (hi : i < (h.storage a).length) :
    h.cells[a.cell]? = some (h.storage a) := by
  rw [storage, Array.getD_eq_getD_getElem?] at hi ⊢
  cases hcell : h.cells[a.cell]? with
  | some s => rfl
  | none => simp [hcell, Storage.zeroed, Storage.length] at hi

theorem get_eq_ok (ha : h.Holds a) {logical : Int64} {i : Nat} {e : Element}
    (hi : resolveIndex logical a.length = .ok i) (he : h.slot? a.cell i = some e) :
    h.get a logical = .ok e := by
  rw [ha.slot?_eq] at he
  simp only [get, hi, bind, Except.bind, he]

theorem put_eq_error {logical : Int64} {f : Fault} (hi : resolveIndex logical a.length = .error f)
    (e : Element) : h.put a logical e = .error f := by
  rw [put, hi]
  rfl

/-- A heap that differs from another in the element of one slot only. -/
structure Assigned (h h' : Heap) (cell i : Nat) (e : Element) : Prop where
  shape : h'.shape? = h.shape?
  slot : h'.slot? cell i = some e
  frame : ∀ cell' j, ¬ (cell' = cell ∧ j = i) → h'.slot? cell' j = h.slot? cell' j

/-- Handles do not notice what an assignment does to the elements. -/
theorem Assigned.holds {h' : Heap} {cell i : Nat} {e : Element} (hh : h.Assigned h' cell i e)
    {b : ArrayHandle} (hb : h'.Holds b) : h.Holds b :=
  ⟨by rw [← hh.shape]; exact hb.shape, hb.length_lt⟩

/-- Putting the storage with a slot set in the place of the old one changes that slot. -/
theorem assigned_of_set {i : Nat} {e : Element} {s : Storage}
    (hset : (h.storage a).set i e = .ok s) :
    h.Assigned ⟨h.cells.setIfInBounds a.cell s⟩ a.cell i e := by
  obtain ⟨he, hi⟩ := Storage.of_set hset
  obtain ⟨s', hset', htype, hlength, hslots⟩ := Storage.exists_set he hi
  obtain rfl : s' = s := Except.ok.inj (hset'.symm.trans hset)
  -- a storage with a slot is not the empty one that stands for a missing cell
  have hstorage := getElem?_of_lt_length hi
  have hcell : a.cell < h.cells.size := (Array.getElem?_eq_some_iff.mp hstorage).1
  have hcells : ∀ cell, (h.cells.setIfInBounds a.cell s')[cell]? =
      if cell = a.cell then some s' else h.cells[cell]? := by
    intro cell
    rw [Array.getElem?_setIfInBounds]
    by_cases hown : cell = a.cell
    · rw [if_pos hown.symm, if_pos hown, if_pos hcell]
    · rw [if_neg (Ne.symm hown), if_neg hown]
  refine ⟨?_, ?_, ?_⟩
  · funext cell
    rw [shape?, hcells]
    by_cases hown : cell = a.cell
    · rw [if_pos hown, hown, shape?, hstorage, Option.map_some, Option.map_some, htype, hlength]
    · rw [if_neg hown]
      rfl
  · rw [slot?, hcells, if_pos rfl, Option.bind_some, hslots, if_pos rfl]
  · intro cell j hother
    rw [slot?, hcells]
    by_cases hown : cell = a.cell
    · -- another slot of the same cell
      have hj : j ≠ i := fun hj => hother ⟨hown, hj⟩
      rw [if_pos hown, Option.bind_some, hslots, if_neg hj, hown, slot?, hstorage,
        Option.bind_some]
    · rw [if_neg hown]
      rfl

/-- A write that succeeds changes the slot that the index names. -/
theorem assigned_of_put {logical : Int64} {e : Element} {h' : Heap}
    (hput : h.put a logical e = .ok h') :
    ∃ i, resolveIndex logical a.length = .ok i ∧ h.Assigned h' a.cell i e := by
  rw [put] at hput
  cases hi : resolveIndex logical a.length with
  | error f =>
    rw [hi] at hput
    cases hput
  | ok i =>
    cases hset : (h.storage a).set i e with
    | error f =>
      simp only [hi, hset, bind, Except.bind] at hput
      cases hput
    | ok s =>
      simp only [hi, hset, bind, Except.bind] at hput
      obtain rfl := Except.ok.inj hput
      exact ⟨i, rfl, assigned_of_set hset⟩

theorem exists_put (ha : h.Holds a) {logical : Int64} {i : Nat} {e : Element}
    (hi : resolveIndex logical a.length = .ok i) (he : e.type = a.type) :
    ∃ h', h.put a logical e = .ok h' ∧ h.Assigned h' a.cell i e := by
  have hlt : i < (h.storage a).length := by
    rw [ha.length_storage]
    exact lt_of_resolveIndex ha.length_lt hi
  obtain ⟨s, hset, -⟩ := Storage.exists_set (he.trans ha.type_storage.symm) hlt
  refine ⟨⟨h.cells.setIfInBounds a.cell s⟩, ?_, assigned_of_set hset⟩
  rw [put, hi]
  show (h.storage a).set i e >>= _ = _
  rw [hset]
  rfl

/-- Whether a write succeeds is a matter of the index and the length only. -/
theorem isOk_put (ha : h.Holds a) (logical : Int64) {e : Element} (he : e.type = a.type) :
    (h.put a logical e).isOk = (resolveIndex logical a.length).isOk := by
  cases hi : resolveIndex logical a.length with
  | error f =>
    rw [put_eq_error hi]
    rfl
  | ok i =>
    obtain ⟨h', hput, -⟩ := exists_put ha hi he
    rw [hput]
    rfl

end

end Heap

end InlineCache
