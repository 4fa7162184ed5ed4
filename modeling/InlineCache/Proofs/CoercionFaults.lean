/-
Faults of the standard coercion service.

* `NarrowingPolicy.isUncoercible_narrow`, `NarrowingPolicy.isUncoercible_character`: whatever the
  standard service objects to, it says that a value has no counterpart in a type;
* `ElementType.assign_ne_typeMismatch`: so a built-in assignment with this service never reports
  that a storage was offered an element of another type.
-/
import InlineCache.Proofs.Defects

namespace InlineCache

/-- The fault says that a value has no counterpart in a type. -/
def Fault.IsUncoercible (f : Fault) : Prop := ∃ value target, f = .uncoercible value target

/-! ### The standard service -/

namespace NarrowingPolicy

variable (policy : NarrowingPolicy) {t : ElementType} {f : Fault} {h : Heap} {v : Value}

theorem isUncoercible_narrowWord {n : Int64} (hf : policy.narrowWord n t = .error f) :
    f.IsUncoercible := by
  cases policy with
  | truncate => cases hf
  | checked =>
    rw [narrowWord] at hf
    split at hf
    · cases hf
    · exact ⟨_, _, (Except.error.inj hf).symm⟩

theorem isUncoercible_narrowDouble {x : Binary .double} (hf : policy.narrowDouble x t = .error f) :
    f.IsUncoercible := by
  cases policy with
  | truncate =>
    cases t with
    | long | float | double => cases hf
    | byte | short | int => exact isUncoercible_narrowWord .truncate hf
  | checked =>
    cases t with
    | double => cases hf
    | float =>
      simp only [narrowDouble] at hf
      split at hf
      · exact ⟨_, _, (Except.error.inj hf).symm⟩
      · cases hf
    | byte | short | int | long =>
      simp only [narrowDouble] at hf
      split at hf
      · exact ⟨_, _, (Except.error.inj hf).symm⟩
      · exact isUncoercible_narrowWord _ hf

theorem isUncoercible_narrowInt {n : Int} (hf : policy.narrowInt n t = .error f) :
    f.IsUncoercible := by
  cases t with
  | float | double =>
    rw [narrowInt] at hf
    exact isUncoercible_narrowDouble policy hf
  | byte | short | int | long =>
    cases policy with
    | truncate => exact isUncoercible_narrowWord .truncate hf
    | checked =>
      simp only [narrowInt] at hf
      split at hf
      · exact isUncoercible_narrowWord _ hf
      · exact ⟨_, _, (Except.error.inj hf).symm⟩

theorem isUncoercible_narrow (hf : policy.narrow h v t = .error f) : f.IsUncoercible := by
  cases v with
  | byte | short | integer | long | character => exact isUncoercible_narrowWord _ hf
  | bigInteger => exact isUncoercible_narrowInt policy hf
  | float | double => exact isUncoercible_narrowDouble policy hf
  | null | boolean | string | template | array => exact ⟨_, _, (Except.error.inj hf).symm⟩

theorem isUncoercible_characterOfText {text : String} (hf : characterOfText text = .error f) :
    f.IsUncoercible := by
  rw [characterOfText] at hf
  split at hf
  · cases hf
  · exact ⟨_, _, (Except.error.inj hf).symm⟩

theorem isUncoercible_characterOfNumber (hf : policy.characterOfNumber h v = .error f) :
    f.IsUncoercible := by
  rw [characterOfNumber] at hf
  cases hnarrow : policy.narrow h v .long with
  | error f' =>
    rw [hnarrow] at hf
    obtain rfl : f' = f := Except.error.inj hf
    exact isUncoercible_narrow policy hnarrow
  | ok e =>
    simp only [hnarrow, bind, Except.bind] at hf
    split at hf
    · split at hf
      · cases hf
      · exact ⟨_, _, (Except.error.inj hf).symm⟩
    · exact ⟨_, _, (Except.error.inj hf).symm⟩

theorem isUncoercible_character (hf : policy.character h v = .error f) : f.IsUncoercible := by
  rw [character.eq_def] at hf
  split at hf
  · cases hf
  · split at hf
    · exact isUncoercible_characterOfText hf
    · split at hf
      · exact isUncoercible_characterOfNumber policy hf
      · exact ⟨_, _, (Except.error.inj hf).symm⟩

end NarrowingPolicy

/-! ### The built-in assignment -/

theorem faultOf?_eq_some_iff {α : Type} {attempt : Except Fault α} {f : Fault} :
    faultOf? attempt = some f ↔ attempt = .error f := by
  cases attempt with
  | error f' => simp [faultOf?]
  | ok v => simp [faultOf?]

namespace ElementType

theorem name_ne_arrayName (t u : ElementType) : u.name ≠ t.arrayName := by
  cases t <;> cases u <;> decide

theorem name_ne_boxedName (t u : ElementType) : u.name ≠ t.boxedName := by
  cases t <;> cases u <;> decide

theorem name_ne_integer (u : ElementType) : u.name ≠ "Integer" := name_ne_boxedName .int u

theorem isUncoercible_of_coercionFault? {policy : NarrowingPolicy} {h : Heap} {t : ElementType}
    {v : Value} {f : Fault} (hf : coercionFault? (.standard policy) h t v = some f) :
    f.IsUncoercible := by
  rw [coercionFault?] at hf
  have hnarrow : ∀ {v}, faultOf? ((CoercionService.standard policy).narrow h v t) = some f →
      f.IsUncoercible := by
    intro v hv
    have hfault : policy.narrow h v t = .error f := faultOf?_eq_some_iff.mp hv
    exact NarrowingPolicy.isUncoercible_narrow policy hfault
  split at hf
  · cases hf
  · split at hf
    · split at hf
      · exact hnarrow hf
      · obtain rfl := Option.some.inj hf
        exact NarrowingPolicy.isUncoercible_character policy ‹_›
    · split at hf
      · exact hnarrow hf
      · cases hf

/-- With the standard service, no built-in assignment gets as far as a storage that objects to the
type of the element: a storage that does names a primitive type, which no other fault expects. -/
theorem assign_ne_typeMismatch {h : Heap} {a : ArrayHandle} (ha : h.Holds a) (t u : ElementType)
    (policy : NarrowingPolicy) (index value : Value) (found : String) :
    (t.assign (.standard policy) h ⟨.array a, index, value⟩).1 ≠
      .error (.typeMismatch u.name found) := by
  intro hf
  by_cases ht : a.type = t
  · subst ht
    have hfaults := faultOf?_assign ha (CoercionService.typed_standard policy) index value
    rw [faultOf?_eq_some_iff.mpr hf, findSome?_faults, eq_comm, Option.or_eq_some_iff,
      Option.or_eq_some_iff, Option.or_eq_some_iff] at hfaults
    rcases hfaults with hindex | ⟨-, (hpayload | ⟨-, hcoercion⟩) | ⟨-, hbounds⟩⟩
    · rw [indexFault?] at hindex
      split at hindex
      · cases hindex
      · exact name_ne_integer u (Fault.typeMismatch.inj (Option.some.inj hindex)).1.symm
    · rw [payloadFault?_eq] at hpayload
      split at hpayload
      · cases hpayload
      · exact name_ne_boxedName a.type u (Fault.typeMismatch.inj (Option.some.inj hpayload)).1.symm
    · obtain ⟨_, _, hf⟩ := isUncoercible_of_coercionFault? hcoercion
      cases hf
    · rw [boundsFault?] at hbounds
      obtain ⟨n, -, hbounds⟩ := Option.bind_eq_some_iff.mp hbounds
      split at hbounds
      · cases hbounds
      · cases hbounds
  · -- an array of another type is refused as a receiver
    rw [assign, container, if_neg ht] at hf
    exact name_ne_arrayName t u (Fault.typeMismatch.inj (Except.error.inj hf)).1.symm

end ElementType

end InlineCache
