/-
Equality of values is a partial equivalence.

One value stands for all that are equal to it: its zeros are positive, and its handles remember
nothing but the cell.  Two values are equal if the same value stands for both and no NaN occurs in
them (`Value.equals_iff`).  So equality is symmetric and transitive because the equality of what
stands for values is, and a value differs from itself only by a NaN.

* `Value.equals_iff`: the equality of values in terms of what stands for them, by the one induction
  over nested templates;
* `Value.HasNaN.of_representative`: a NaN shows in what stands for a value;
* `Value.equality_laws`: symmetry, transitivity, the values that are equal to themselves, and the
  arrays that are equal.
-/
import InlineCache.Value.Equality

namespace InlineCache

/-! ### Numbers -/

namespace Binary

variable {f : Format}

/-- The number, with a positive sign if it is a zero. -/
def unsignZero : Binary f → Binary f
  | .finite negative m k h => .finite (negative && m != 0) m k h
  | x => x

theorem eq_nan_of_unsignZero {x : Binary f} (h : x.unsignZero = .nan) : x = .nan := by
  cases x with
  | nan => rfl
  | infinite | finite => cases h

theorem numericEq_iff (x y : Binary f) :
    x.numericEq y = true ↔ x.unsignZero = y.unsignZero ∧ x ≠ .nan := by
  cases x with
  | nan => exact iff_of_false Bool.false_ne_true fun h => h.2 rfl
  | infinite s =>
    cases y with
    | infinite t => simp [numericEq, unsignZero]
    | nan | finite => simp [numericEq, unsignZero]
  | finite s m k h =>
    cases y with
    | finite t n l h' =>
      simp only [numericEq, unsignZero, Bool.and_eq_true, Bool.or_eq_true, beq_iff_eq, finite.injEq]
      constructor
      · rintro ⟨⟨rfl, rfl⟩, rfl | rfl⟩
        · simp
        · simp
      · rintro ⟨⟨hsign, rfl, rfl⟩, -⟩
        refine ⟨⟨rfl, rfl⟩, ?_⟩
        by_cases hm : m = 0
        · exact Or.inr hm
        · have hnonzero : (m != 0) = true := by simpa using hm
          rw [hnonzero, Bool.and_true, Bool.and_true] at hsign
          exact Or.inl hsign
    | nan | infinite => simp [numericEq, unsignZero]

end Binary

namespace Value

/-! ### NaN in a value -/

/-- A NaN occurs in the value: it is one, or it is a template and one occurs in one of its values.
What an array holds does not count. -/
inductive HasNaN : Value → Prop
  | float : HasNaN (.float .nan)
  | double : HasNaN (.double .nan)
  | template {fragments : List String} {values : List Value} {v : Value} (hv : v ∈ values)
      (hnan : HasNaN v) : HasNaN (.template fragments values)

theorem hasNaN_float_iff {x : Binary .single} : HasNaN (.float x) ↔ x = .nan := by
  constructor
  · rintro ⟨⟩
    rfl
  · rintro rfl
    exact .float

theorem hasNaN_double_iff {x : Binary .double} : HasNaN (.double x) ↔ x = .nan := by
  constructor
  · rintro ⟨⟩
    rfl
  · rintro rfl
    exact .double

theorem hasNaN_template_iff {fragments : List String} {values : List Value} :
    HasNaN (.template fragments values) ↔ ∃ v ∈ values, v.HasNaN := by
  constructor
  · intro h
    cases h with
    | template hv hnan => exact ⟨_, hv, hnan⟩
  · rintro ⟨v, hv, hnan⟩
    exact .template hv hnan

/-! ### What stands for a value -/

mutual

/-- The value that stands for a value and all its equals. -/
def representative : Value → Value
  | .float x => .float x.unsignZero
  | .double x => .double x.unsignZero
  | .template fragments values => .template fragments (representatives values)
  | .array a => .array ⟨a.cell, .byte, 0⟩
  | v => v

/-- The values that stand for several values. -/
def representatives : List Value → List Value
  | [] => []
  | v :: vs => v.representative :: representatives vs

end

theorem representatives_eq_map (vs : List Value) : representatives vs = vs.map representative := by
  induction vs with
  | nil => rfl
  | cons v vs ih => rw [representatives, List.map_cons, ih]

/-- A NaN shows in what stands for a value. -/
theorem HasNaN.of_representative {a b : Value} (ha : a.HasNaN)
    (h : a.representative = b.representative) : b.HasNaN := by
  induction ha generalizing b with
  | float =>
    cases b with
    | float y =>
      have hy : y.unsignZero = .nan := (Value.float.inj h).symm
      rw [Binary.eq_nan_of_unsignZero hy]
      exact .float
    | _ => simp [representative] at h
  | double =>
    cases b with
    | double y =>
      have hy : y.unsignZero = .nan := (Value.double.inj h).symm
      rw [Binary.eq_nan_of_unsignZero hy]
      exact .double
    | _ => simp [representative] at h
  | @template fragments values v hv _ ih =>
    cases b with
    | template fragments' values' =>
      -- what stands for the value with the NaN stands for some value of the other template
      have hvalues : values.map representative = values'.map representative := by
        rw [← representatives_eq_map, ← representatives_eq_map]
        exact (Value.template.inj h).2
      have hmem : v.representative ∈ values'.map representative := by
        rw [← hvalues]
        exact List.mem_map_of_mem hv
      obtain ⟨w, hw, hsame⟩ := List.mem_map.mp hmem
      exact .template hw (ih hsame.symm)
    | _ => simp [representative] at h

mutual

theorem equals_iff : ∀ a b : Value,
    a.equals b = true ↔ a.representative = b.representative ∧ ¬ a.HasNaN
  | .float x, b => by
    cases b with
    | float y => simp [equals, representative, hasNaN_float_iff, Binary.numericEq_iff]
    | _ => simp [equals, representative]
  | .double x, b => by
    cases b with
    | double y => simp [equals, representative, hasNaN_double_iff, Binary.numericEq_iff]
    | _ => simp [equals, representative]
  | .template fragments values, b => by
    cases b with
    | template fragments' values' =>
      simp [equals, representative, hasNaN_template_iff, allEqual_iff values values', and_assoc]
    | _ => simp [equals, representative]
  | .array a, b => by
    have hnone : ¬ HasNaN (.array a) := nofun
    cases b with
    | array a' => simp [equals, representative, ArrayHandle.sharesStorage, hnone]
    | _ => simp [equals, representative]
  | .null, b | .boolean _, b | .byte _, b | .short _, b | .integer _, b | .long _, b
  | .bigInteger _, b | .character _, b | .string _, b => by
    -- these stand for themselves
    rw [and_iff_left (by nofun)]
    cases b <;> simp [equals, representative]

theorem allEqual_iff : ∀ vs ws : List Value,
    allEqual vs ws = true ↔ representatives vs = representatives ws ∧ ∀ v ∈ vs, ¬ v.HasNaN
  | [], [] => by simp [allEqual]
  | [], _ :: _ => by simp [allEqual, representatives]
  | _ :: _, [] => by simp [allEqual, representatives]
  | v :: vs, w :: ws => by
    rw [allEqual, Bool.and_eq_true, equals_iff v w, allEqual_iff vs ws, representatives,
      representatives, List.cons.injEq, List.forall_mem_cons]
    exact and_and_and_comm

end

/-! ### The laws of equality -/

theorem beq_iff {a b : Value} :
    (a == b) = true ↔ a.representative = b.representative ∧ ¬ a.HasNaN := equals_iff a b

instance : PartialEquivBEq Value where
  symm := by
    intro a b hab
    obtain ⟨hsame, hnone⟩ := beq_iff.mp hab
    exact beq_iff.mpr ⟨hsame.symm, fun hb => hnone (hb.of_representative hsame.symm)⟩
  trans := by
    intro a b c hab hbc
    obtain ⟨hsame, hnone⟩ := beq_iff.mp hab
    obtain ⟨hsame', -⟩ := beq_iff.mp hbc
    exact beq_iff.mpr ⟨hsame.trans hsame', hnone⟩

theorem beq_self_iff {v : Value} : (v == v) = true ↔ ¬ v.HasNaN := by
  rw [beq_iff, and_iff_right rfl]

theorem array_beq_iff {x y : ArrayHandle} :
    (Value.array x == .array y) = true ↔ x.cell = y.cell := by
  have hbeq : (Value.array x == .array y) = x.sharesStorage y := rfl
  rw [hbeq, ArrayHandle.sharesStorage, beq_iff_eq]

/-- **Equality is a partial equivalence.**  Equality of values is symmetric and transitive.  What
differs from itself is exactly what a NaN occurs in, at whatever depth of templates.  Arrays are
never among that: two of them are equal if they share their storage, whatever it holds. -/
theorem equality_laws (a b c : Value) :
    ((a == b) = true → (b == a) = true) ∧
    ((a == b) = true → (b == c) = true → (a == c) = true) ∧
    ((a == a) = true ↔ ¬ a.HasNaN) ∧
    ∀ x y : ArrayHandle, ¬ (Value.array x).HasNaN ∧
      ((Value.array x == .array y) = true ↔ x.cell = y.cell) :=
  ⟨BEq.symm, PartialEquivBEq.trans, beq_self_iff, fun _ _ => ⟨nofun, array_beq_iff⟩⟩

/-! Templates with zeros of both signs under two templates, beside an array; and a NaN as deep. -/

/-- A value under two templates. -/
def nested (v : Value) : Value :=
  .template ["<", ">"] [.template [] [v], .array ⟨0, .double, 3⟩]

theorem equality_laws_nested :
    let negative := nested (.float (Binary.zero .single true))
    let positive := nested (.float (Binary.zero .single false))
    (negative == positive) = true ∧ (positive == negative) = true ∧
    (negative == negative) = true ∧ (nested (.double .nan)).HasNaN ∧
    ¬ (nested (.double .nan) == nested (.double .nan)) = true := by
  intro negative positive
  have hequal : (negative == positive) = true := by decide
  obtain ⟨hsymm, htrans, -, -⟩ := equality_laws negative positive negative
  obtain ⟨-, -, hself, -⟩ := equality_laws (nested (.double .nan)) positive negative
  have hnan : (nested (.double .nan)).HasNaN := .template (.head _) (.template (.head _) .double)
  exact ⟨hequal, hsymm hequal, htrans hequal (hsymm hequal), hnan,
    fun hbeq => hself.mp hbeq hnan⟩

end Value

end InlineCache
