/-
The index law: what an integral index of any width names in a container of any length.

The integer that an index stands for is cut to a word, then resolved in the arithmetic of words.
Neither does harm: a container whose length is a word ends before the integers that are cut, and
the one sum that is formed has a length and a negative word for its summands.

* `resolveIndexStrictly_eq`: resolving an index in arithmetic that stops at an overflow does not
  stop, and gives what the arithmetic of words gives;
* `Value.exists_logicalIndex`: when an index names a slot, which one, and what the fault is
  otherwise;
* `Step.run_congr`: indices of the same slot make no difference to an assignment, in
  whichever form and through whichever site it is asked for;
* `Step.index_law`: the three together.
-/
import InlineCache.Proofs.Idempotence

namespace InlineCache

/-! ### Arithmetic that stops at an overflow -/

/-- The sum of two words, if it is a word. -/
def Word.sum? (x y : Int64) : Option Int64 :=
  if InWidth 64 (x.toInt + y.toInt) then some (x + y) else none

/-- A length and a negative word add up to a word. -/
theorem Word.sum?_length {length : Nat} (hlength : length < 2 ^ 63) {x : Int64} (hx : x < 0) :
    Word.sum? (Int64.ofNat length) x = some (Int64.ofNat length + x) := by
  have hsize : (Int64.ofNat length).toInt = length := Int64.toInt_ofNat_of_lt hlength
  have hnegative : x.toInt < 0 := Int64.lt_iff_toInt_lt.mp hx
  have hlow : -2 ^ 63 ≤ x.toInt := x.le_toInt
  have hrange : InWidth 64 ((Int64.ofNat length).toInt + x.toInt) := by
    rw [hsize]
    exact ⟨by omega, by omega⟩
  rw [sum?, if_pos hrange]

/-- The slot that a logical index names, in arithmetic that stops at an overflow: no outcome if it
does. -/
def resolveIndexStrictly (logical : Int64) (length : Nat) : Option (Except Fault Nat) :=
  if length < 2 ^ 63 then
    let size := Int64.ofNat length
    (if 0 ≤ logical then some logical else Word.sum? size logical).map fun physical =>
      if physical < 0 ∨ size ≤ physical then .error (.outOfRange logical length)
      else .ok physical.toNatClampNeg
  else some (.error (.outOfRange logical length))

theorem resolveIndexStrictly_eq (logical : Int64) (length : Nat) :
    resolveIndexStrictly logical length = some (resolveIndex logical length) := by
  rw [resolveIndexStrictly, resolveIndex]
  by_cases hlength : length < 2 ^ 63
  · rw [if_pos hlength, if_pos hlength]
    by_cases hsign : 0 ≤ logical
    · simp only [if_pos hsign, Option.map_some]
    · have hnegative : logical < 0 := Int64.not_le.mp hsign
      simp only [if_neg hsign, Word.sum?_length hlength hnegative, Option.map_some]
  · rw [if_neg hlength, if_neg hlength]

/-! ### What an index names -/

namespace Value

/-- An integral index is read off as the nearest word.  That word names the slot of the integer if
the integer is in range, and is reported if not. -/
theorem exists_logicalIndex {index : Value} {n : Int} (hn : index.whole? = some n) (length : Nat) :
    ∃ x : Int64, index.logicalIndex = .ok x ∧ x.toInt = max (-2 ^ 63) (min (2 ^ 63 - 1) n) ∧
      (length < 2 ^ 63 → -length ≤ n → n < length →
        ∃ i : Nat, resolveIndex x length = .ok i ∧ (i : Int) = if 0 ≤ n then n else length + n) ∧
      (2 ^ 63 ≤ length ∨ n < -length ∨ length ≤ n →
        resolveIndex x length = .error (.outOfRange x length)) := by
  refine ⟨Word.saturate n, by rw [logicalIndex_eq, hn], Word.toInt_saturate n, ?_, ?_⟩
  · intro hlength hlow hhigh
    refine ⟨slotOf n length, ?_, ?_⟩
    · rw [resolve_of_whole? hlength, if_pos ⟨hlow, hhigh⟩]
    · rw [slotOf]
      split
      · omega
      · omega
  · intro houtside
    by_cases hlength : length < 2 ^ 63
    · rw [resolve_of_whole? hlength, if_neg (by omega)]
    · rw [resolveIndex, if_neg hlength]

end Value

/-! ### Indices of one slot -/

section

variable {h : Heap} {array : ArrayHandle} {index index' : Value} {i : Nat}

theorem Heap.put_congr {x x' : Int64} (hx : resolveIndex x array.length = .ok i)
    (hx' : resolveIndex x' array.length = .ok i) (e : Element) :
    h.put array x e = h.put array x' e := by
  rw [put, put, hx, hx']

theorem Heap.get_congr (hholds : h.Holds array) {x x' : Int64}
    (hx : resolveIndex x array.length = .ok i) (hx' : resolveIndex x' array.length = .ok i) :
    h.get array x = h.get array x' := by
  have hlt : i < (h.storage array).length := by
    rw [hholds.length_storage]
    exact lt_of_resolveIndex hholds.length_lt hx
  have hslot : h.slot? array.cell i = some (h.storage array).slots[i] :=
    (hholds.slot?_eq i).trans (Array.getElem?_eq_getElem hlt)
  rw [get_eq_ok hholds hx hslot, get_eq_ok hholds hx' hslot]

variable (hindex : index.Denotes array.length i) (hindex' : index'.Denotes array.length i)

include hindex hindex'

/-- The built-in assignment of any type does the same under both indices. -/
theorem ElementType.assign_congr (hlength : array.length < 2 ^ 63) (t : ElementType)
    (service : CoercionService) (h : Heap) (value : Value) :
    t.assign service h ⟨.array array, index, value⟩ =
      t.assign service h ⟨.array array, index', value⟩ := by
  obtain ⟨x, hlogical, hx⟩ := hindex.resolve hlength
  obtain ⟨x', hlogical', hx'⟩ := hindex'.resolve hlength
  have hput : h.put array x = h.put array x' := funext (Heap.put_congr hx hx')
  cases hcontainer : t.container (.array array) with
  | error f => simp only [assign, hcontainer]
  | ok array' =>
    obtain rfl : array' = array := by
      rw [container] at hcontainer
      split at hcontainer
      · exact (Except.ok.inj hcontainer).symm
      · cases hcontainer
    simp only [assign, hcontainer, hlogical, hlogical', hput]

/-- Reading gives the same under both. -/
theorem Dispatcher.read_congr {s : Store} (hholds : s.heap.Holds array) :
    Dispatcher.read s (.array array) index = Dispatcher.read s (.array array) index' := by
  obtain ⟨e, he, -, hread⟩ := exists_read hholds hindex
  obtain ⟨e', he', -, hread'⟩ := exists_read hholds hindex'
  obtain rfl : e = e' := Option.some.inj (he.symm.trans he')
  rw [hread, hread']

/-- So does each way of asking for an assignment. -/
theorem Step.run_congr (hlength : array.length < 2 ^ 63) {dispatchers : Nat → Dispatcher}
    {w : World} {d : Nat} {value : Value} {step step' : Step}
    (hbuiltin : (w.store.registry (dispatchers d).registry).handler array.type =
      .builtin array.type)
    (hstep : step.request? = some (d, .array array, [index, value]))
    (hstep' : step'.request? = some (d, .array array, [index', value])) :
    (step.run dispatchers w).1 = (step'.run dispatchers w).1 ∧
      (step.run dispatchers w).2.store = (step'.run dispatchers w).2.store ∧
      (step.run dispatchers w).2.tally = (step'.run dispatchers w).2.tally := by
  have hforced : ∀ t, (Value.array array).elementType? = some t →
      (w.store.registry (dispatchers d).registry).handler t = .builtin t := by
    rintro t ht
    obtain rfl := Option.some.inj ht
    exact hbuiltin
  have hsame : (dispatchers d).apply w.store (.array array) [index, value] =
      (dispatchers d).apply w.store (.array array) [index', value] := by
    show (dispatchers d).assign w.store ⟨.array array, index, value⟩ =
      (dispatchers d).assign w.store ⟨.array array, index', value⟩
    rw [Dispatcher.assign_of_elementType? (dispatchers d) w.store rfl,
      Dispatcher.assign_of_elementType? (dispatchers d) w.store rfl, hbuiltin, Handler.assign,
      Handler.assign, ElementType.assign_congr hindex hindex' hlength]
  obtain ⟨hanswer, hstore⟩ := run_of_request hstep hforced
  obtain ⟨hanswer', hstore'⟩ := run_of_request hstep' hforced
  have hobserved : observed (step.run dispatchers w) = observed (step'.run dispatchers w) := by
    rw [observed_run_of_request hstep hforced, observed_run_of_request hstep' hforced, hsame]
  refine ⟨?_, ?_, congrArg (fun shown => shown.2.2) hobserved⟩
  · rw [hanswer, hanswer', hsame]
  · rw [hstore, hstore', hsame]

end

namespace Step

/-- **The index law.**  Let an index of any width stand for the integer `n`.  It is read off as the
word nearest to `n`.  In a container of at most `2 ^ 63 - 1` slots that word names a slot exactly if
`n` lies from `-length` up to `length`: slot `n`, or slot `length + n` if `n` is negative.
Otherwise, and in every longer container, it is out of range, and the fault has that word and the
length.  Resolving it is safe from overflow, whatever the word and the length.

So a negative index in range and the index that is greater by the length of the array, each of any
width, are the same to every direct read and write, to the built-in assignments of all types, to
every read through a dispatcher, and, where the built-in handler of the type of the array is in
force, to every form of assignment, through sites in whatever state.  (An override is handed the
index itself, to do with it what it likes.) -/
theorem index_law :
    (∀ (index : Value) (n : ℤ), index.whole? = some n → ∀ length : ℕ,
      ∃ x : Int64, index.logicalIndex = .ok x ∧ x.toInt = max (-2 ^ 63) (min (2 ^ 63 - 1) n) ∧
        (length < 2 ^ 63 → -length ≤ n → n < length →
          ∃ i : ℕ, resolveIndex x length = .ok i ∧ (i : ℤ) = if 0 ≤ n then n else length + n) ∧
        (2 ^ 63 ≤ length ∨ n < -length ∨ length ≤ n →
          resolveIndex x length = .error (.outOfRange x length))) ∧
    (∀ (x : Int64) (length : ℕ), resolveIndexStrictly x length = some (resolveIndex x length)) ∧
    ∀ (array : ArrayHandle) (index index' : Value) (n : ℤ), array.length < 2 ^ 63 →
      index.whole? = some n → index'.whole? = some (array.length + n) →
      -array.length ≤ n → n < 0 →
        (∀ (h : Heap) x x', index.logicalIndex = .ok x → index'.logicalIndex = .ok x' →
          (h.Holds array → h.get array x = h.get array x') ∧
          ∀ e, h.put array x e = h.put array x' e) ∧
        (∀ (t : ElementType) service (h : Heap) value,
          t.assign service h ⟨.array array, index, value⟩ =
            t.assign service h ⟨.array array, index', value⟩) ∧
        (∀ s : Store, s.heap.Holds array →
          Dispatcher.read s (.array array) index = Dispatcher.read s (.array array) index') ∧
        ∀ (dispatchers : ℕ → Dispatcher) (w : World) d value (step step' : Step),
          (w.store.registry (dispatchers d).registry).handler array.type = .builtin array.type →
          step.request? = some (d, .array array, [index, value]) →
          step'.request? = some (d, .array array, [index', value]) →
            (step.run dispatchers w).1 = (step'.run dispatchers w).1 ∧
            (step.run dispatchers w).2.store = (step'.run dispatchers w).2.store ∧
            (step.run dispatchers w).2.tally = (step'.run dispatchers w).2.tally := by
  refine ⟨fun index n hn length => Value.exists_logicalIndex hn length, resolveIndexStrictly_eq,
    fun array index index' n hlength hn hn' hlow hnegative => ?_⟩
  -- both indices are those of one slot, the one from the end and the other from the front
  have hslot : ((array.length + n).toNat : ℤ) = array.length + n := Int.toNat_of_nonneg (by omega)
  have hindex : index.Denotes array.length (array.length + n).toNat := by
    refine ⟨by omega, Or.inr ?_⟩
    rw [hn, hslot, add_sub_cancel_left]
  have hindex' : index'.Denotes array.length (array.length + n).toNat := by
    refine ⟨by omega, Or.inl ?_⟩
    rw [hn', hslot]
  refine ⟨fun h x x' hx hx' => ?_, ElementType.assign_congr hindex hindex' hlength,
    fun s hholds => Dispatcher.read_congr hindex hindex' hholds,
    fun dispatchers w d value step step' hbuiltin hstep hstep' =>
      run_congr hindex hindex' hlength hbuiltin hstep hstep'⟩
  obtain ⟨y, hy, hresolve⟩ := hindex.resolve hlength
  obtain ⟨y', hy', hresolve'⟩ := hindex'.resolve hlength
  obtain rfl : y = x := Except.ok.inj (hy.symm.trans hx)
  obtain rfl : y' = x' := Except.ok.inj (hy'.symm.trans hx')
  exact ⟨fun hholds => Heap.get_congr hholds hresolve hresolve', Heap.put_congr hresolve hresolve'⟩

/-! An integer past the words is cut to the greatest word; and the last slot, by an integer of any
size from the end through a site that has an entry, and by a byte from the front without a site. -/

def fromEnd : Step := .assignAt 0 .standalone 7 ⟨shorts, .bigInteger (-1), .short 6⟩

def fromFront : Step := .assign 0 ⟨shorts, .byte 2, .short 6⟩

theorem index_law_pastWords :
    let w := (World.fresh threeShorts).after oneRegistry
      [applyAt 0 .standalone 7 shorts [.integer 0, .short 5]]
    (Value.bigInteger (2 ^ 64)).whole? = some (2 ^ 64) ∧
    (Value.bigInteger (2 ^ 64)).logicalIndex = .ok Int64.maxValue ∧
    resolveIndex Int64.maxValue (2 ^ 63 - 1) = .error (.outOfRange Int64.maxValue (2 ^ 63 - 1)) ∧
    (Value.bigInteger (-1)).whole? = some (-1) ∧ (Value.byte 2).whole? = some (3 + -1) ∧
    (w.store.registry 0).handler .short = .builtin .short ∧
    fromEnd.request? = some (0, shorts, [.bigInteger (-1), .short 6]) ∧
    fromFront.request? = some (0, shorts, [.byte 2, .short 6]) ∧
    (fromEnd.run oneRegistry w).1 = (fromFront.run oneRegistry w).1 ∧
    (fromEnd.run oneRegistry w).2.store.heap = ⟨#[⟨.short, #[.short 5, .short 0, .short 6],
      by decide⟩]⟩ := by
  intro w
  obtain ⟨hresolve, -, hsame⟩ := index_law
  obtain ⟨x, hlogical, hx, -, houtside⟩ :=
    hresolve (.bigInteger (2 ^ 64)) (2 ^ 64) rfl (2 ^ 63 - 1)
  obtain rfl : x = Int64.maxValue := Int64.toInt_inj.mp (hx.trans (by decide))
  have hbuiltin : (w.store.registry 0).handler .short = .builtin .short := rfl
  have hend : fromEnd.request? = some (0, shorts, [.bigInteger (-1), .short 6]) := rfl
  have hfront : fromFront.request? = some (0, shorts, [.byte 2, .short 6]) := rfl
  obtain ⟨-, -, -, hrun⟩ := hsame ⟨0, .short, 3⟩ (.bigInteger (-1)) (.byte 2) (-1) (by decide) rfl
    rfl (by decide) (by decide)
  obtain ⟨hanswer, hstore, -⟩ := hrun oneRegistry w 0 (.short 6) fromEnd fromFront hbuiltin hend
    hfront
  refine ⟨rfl, hlogical, houtside (Or.inr (Or.inr (by decide))), rfl, rfl, hbuiltin, hend, hfront,
    hanswer, ?_⟩
  rw [hstore]
  rfl

end Step

end InlineCache
