/-
Storages: fixed numbers of slots, all of one element type.

`Storage.set` replaces the element of one slot and keeps type and length; it refuses an element of
another type before it looks at the slot.
-/
import InlineCache.Element
import InlineCache.Fault

namespace InlineCache

/-- A row of slots of one element type. -/
structure Storage where
  type : ElementType
  slots : Array Element
  uniform : ∀ e ∈ slots, e.type = type

namespace Storage

/-- A storage of the given length, filled with zeros. -/
def zeroed (type : ElementType) (length : Nat) : Storage where
  type := type
  slots := Array.replicate length (Element.zero type)
  uniform := fun e h => by
    obtain ⟨_, rfl⟩ := Array.mem_replicate.1 h
    simp

/-- The storage with the given slots, if they all have the type. -/
def ofArray? (type : ElementType) (slots : Array Element) : Option Storage :=
  if h : ∀ e ∈ slots, e.type = type then some ⟨type, slots, h⟩ else none

/-- The number of slots. -/
def length (s : Storage) : Nat := s.slots.size

/-- The element of a slot. -/
def get? (s : Storage) (i : Nat) : Option Element := s.slots[i]?

/-- Replaces the element of a slot.  The fault for a missing slot shows its number as a signed
word. -/
def set (s : Storage) (i : Nat) (e : Element) : Except Fault Storage :=
  if h : e.type = s.type then
    if hi : i < s.slots.size then
      .ok { s with
        slots := s.slots.set i e
        uniform := fun x hx => by
          rcases Array.mem_or_eq_of_mem_set hx with hx | rfl
          · exact s.uniform x hx
          · exact h }
    else .error (.outOfRange (Int64.ofNat i) s.length)
  else .error (.typeMismatch s.type.name e.type.name)

/-- Equality of types and of numbers slot by slot. -/
def numericEq (s t : Storage) : Bool :=
  s.type == t.type && s.length == t.length &&
    (s.slots.toList.zip t.slots.toList).all fun p => p.1.numericEq p.2

end Storage

end InlineCache
