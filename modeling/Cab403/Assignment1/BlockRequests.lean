/-
What `dv_ensure_capacity` asks `realloc` for. The number of bytes is a product modulo
2^64, so a large capacity may be recorded for a small block. The growth step goes
through a double; up to which capacity it stays harmless is worked out exactly.
-/

import Cab403.Assignment1.DblVector

namespace Cab403.Assignment1

/-! ### Rounding to a double -/

/-- A number with `52 + exponent` as its logarithm is rounded to a multiple of
`2 ^ exponent`. -/
theorem toDouble_eq {value exponent : Nat} (positive : 0 < exponent)
    (low : 2 ^ (52 + exponent) ≤ value) (high : value < 2 ^ (53 + exponent)) :
    toDouble value =
      if 2 * (value % 2 ^ exponent) < 2 ^ exponent ∨
          (2 * (value % 2 ^ exponent) = 2 ^ exponent ∧ value / 2 ^ exponent % 2 = 0) then
        value / 2 ^ exponent * 2 ^ exponent
      else (value / 2 ^ exponent + 1) * 2 ^ exponent := by
  have large : ¬ value < 2 ^ 53 := by
    have power : 2 ^ 53 ≤ 2 ^ (52 + exponent) :=
      Nat.pow_le_pow_right (by decide) (show 53 ≤ 52 + exponent by omega)
    omega
  have logarithm : Nat.log 2 value = 52 + exponent :=
    Nat.log_eq_of_pow_le_of_lt_pow low
      (by
        rw [show 52 + exponent + 1 = 53 + exponent by omega]
        exact high)
  rw [toDouble, if_neg large, logarithm, Nat.add_sub_cancel_left]

theorem exists_exponent {value : Nat} (large : 2 ^ 53 ≤ value) :
    ∃ exponent, 0 < exponent ∧ 2 ^ (52 + exponent) ≤ value ∧ value < 2 ^ (53 + exponent) := by
  have nonzero : value ≠ 0 := by
    rintro rfl
    exact absurd large (by decide)
  have reached : 53 ≤ Nat.log 2 value := Nat.le_log_of_pow_le (by decide) large
  refine ⟨Nat.log 2 value - 52, by omega, ?_, ?_⟩
  · rw [show 52 + (Nat.log 2 value - 52) = Nat.log 2 value by omega]
    exact Nat.pow_log_le_self 2 nonzero
  · rw [show 53 + (Nat.log 2 value - 52) = Nat.log 2 value + 1 by omega]
    exact Nat.lt_pow_succ_log_self (by decide) value

/-- Rounding does not go beyond a power of two. -/
theorem toDouble_le_pow {value bound : Nat} (inside : value ≤ 2 ^ bound) :
    toDouble value ≤ 2 ^ bound := by
  by_cases small : value < 2 ^ 53
  · rw [toDouble_exact small]
    exact inside
  obtain ⟨exponent, positive, low, high⟩ := exists_exponent (not_lt.mp small)
  have power : 2 ^ (52 + exponent) ≤ 2 ^ bound := low.trans inside
  have below : 52 + exponent ≤ bound := (Nat.pow_le_pow_iff_right (by decide)).mp power
  have unit : 0 < 2 ^ exponent := Nat.two_pow_pos exponent
  rw [toDouble_eq positive low high]
  split
  · exact (Nat.div_mul_le_self value _).trans inside
  · rename_i up
    by_cases last : 52 + exponent = bound
    · -- the value is the power itself, which is not rounded up
      have same : value = 2 ^ 52 * 2 ^ exponent := by
        rw [← pow_add, last]
        exact le_antisymm inside (last ▸ low)
      apply absurd _ up
      left
      rw [same, Nat.mul_mod_left]
      omega
    · have kept : value / 2 ^ exponent + 1 ≤ 2 ^ 53 := by
        apply Nat.succ_le_of_lt
        apply (Nat.div_lt_iff_lt_mul unit).mpr
        rw [← pow_add]
        exact high
      calc (value / 2 ^ exponent + 1) * 2 ^ exponent
          ≤ 2 ^ 53 * 2 ^ exponent := Nat.mul_le_mul_right _ kept
        _ = 2 ^ (53 + exponent) := (pow_add 2 53 exponent).symm
        _ ≤ 2 ^ bound := Nat.pow_le_pow_right (by decide) (by omega)

/-- Rounding does not fall below a power of two. -/
theorem pow_le_toDouble {value bound : Nat} (inside : 2 ^ bound ≤ value) (large : 53 ≤ bound) :
    2 ^ bound ≤ toDouble value := by
  obtain ⟨exponent, positive, low, high⟩ :=
    exists_exponent ((Nat.pow_le_pow_right (by decide) large).trans inside)
  have below : bound < 53 + exponent :=
    (Nat.pow_lt_pow_iff_right (by decide)).mp (inside.trans_lt high)
  have kept : 2 ^ 52 ≤ value / 2 ^ exponent := by
    apply (Nat.le_div_iff_mul_le (Nat.two_pow_pos exponent)).mpr
    rw [← pow_add]
    exact low
  have floor : 2 ^ bound ≤ value / 2 ^ exponent * 2 ^ exponent := by
    calc 2 ^ bound ≤ 2 ^ (52 + exponent) := Nat.pow_le_pow_right (by decide) (by omega)
      _ = 2 ^ 52 * 2 ^ exponent := pow_add 2 52 exponent
      _ ≤ value / 2 ^ exponent * 2 ^ exponent := Nat.mul_le_mul_right _ kept
  rw [toDouble_eq positive low high]
  split
  · exact floor
  · exact floor.trans (Nat.mul_le_mul_right _ (Nat.le_succ _))

/-! ### How far the growth step goes -/

/-- The largest capacity that grows to less than 2^61 elements. -/
def largestGrowable : Nat := 1844674407370955135

theorem toDouble_le_of_growable {capacity : Nat} (small : capacity ≤ largestGrowable) :
    toDouble capacity ≤ 1844674407370955008 := by
  unfold largestGrowable at small
  by_cases low : 2 ^ 60 ≤ capacity
  · rw [toDouble_eq (show 0 < 8 by decide) low (by omega)]
    split <;> omega
  · have below := toDouble_le_pow (show capacity ≤ 2 ^ 60 by omega)
    omega

theorem le_toDouble_of_not_growable {capacity : Nat} (large : largestGrowable < capacity)
    (inMemory : capacity < 2 ^ 61) : 1844674407370955264 ≤ toDouble capacity := by
  unfold largestGrowable at large
  rw [toDouble_eq (show 0 < 8 by decide) (show 2 ^ (52 + 8) ≤ capacity by omega) inMemory]
  split <;> omega

theorem toDouble_lt_of_product {product : Nat} (small : product ≤ 5 * 1844674407370955008) :
    toDouble product < 2 ^ 63 := by
  by_cases low : 2 ^ 62 ≤ product
  · rw [toDouble_eq (show 0 < 10 by decide) low (by omega)]
    split <;> omega
  · have below := toDouble_le_pow (show product ≤ 2 ^ 62 by omega)
    omega

theorem grown_of_growable {capacity : Nat} (small : capacity ≤ largestGrowable) :
    ∃ larger, grown capacity = some larger ∧ larger < 2 ^ 61 := by
  have rounded := toDouble_le_of_growable small
  have product := toDouble_lt_of_product (show 5 * toDouble capacity ≤ _ by omega)
  exact ⟨_, if_pos (by omega), by omega⟩

theorem grown_of_not_growable {capacity : Nat} (large : largestGrowable < capacity)
    (inMemory : capacity < 2 ^ 61) :
    ∃ larger, grown capacity = some larger ∧ 2 ^ 61 ≤ larger ∧ larger < 2 ^ 64 := by
  have rounded := le_toDouble_of_not_growable large inMemory
  have bounded := toDouble_le_pow (Nat.le_of_lt inMemory)
  have product := pow_le_toDouble (show 2 ^ 63 ≤ 5 * toDouble capacity by omega) (by decide)
  have limit := toDouble_le_pow (show 5 * toDouble capacity ≤ 2 ^ 64 by omega)
  exact ⟨_, if_pos (by omega), by omega, by omega⟩

/-! ### The request -/

section Requests

variable {Double : Type*}

/-- A call that returns: the vector, and the bytes asked for if `realloc` was called. -/
structure Ensured (Double : Type*) where
  vec : DblVector Double
  requested : Option Nat

/-- `dv_ensure_capacity` with any allocator; it exits where `realloc` returns no block. -/
def ensureCapacity (allocator : List (Option Double) → Nat → Option (List (Option Double)))
    (vec : DblVector Double) (newSize : Nat) : Option (Ensured Double) :=
  if newSize > vec.capacity then
    (grown vec.capacity).bind fun larger =>
      let newCapacity := if larger < newSize then newSize else larger
      let newMemSize := newCapacity * sizeofDouble % 2 ^ 64
      (allocator vec.data newMemSize).map fun newData =>
        { vec := { vec with data := newData, capacity := newCapacity }
          requested := some newMemSize }
  else some { vec := vec, requested := none }

/-- With an allocator that never fails this is the function of the vector's operations. -/
theorem ensureCapacity_granted (vec : DblVector Double) (newSize : Nat) :
    (ensureCapacity (fun data bytes => some (realloc data bytes)) vec newSize).map Ensured.vec =
      dvEnsureCapacity vec newSize := by
  unfold ensureCapacity dvEnsureCapacity
  by_cases more : newSize > vec.capacity
  · rw [if_pos more, if_pos more]
    cases grown vec.capacity with
    | none => rfl
    | some larger => rfl
  · rw [if_neg more, if_neg more]
    rfl

structure InMemory (vec : DblVector Double) : Prop where
  whole : vec.data.length = vec.capacity
  addressable : vec.data.length * sizeofDouble < 2 ^ 64

/-- The recorded capacity suffices and was asked for in full. -/
structure Truthful (newSize : Nat) (ensured : Ensured Double) : Prop where
  enough : newSize ≤ ensured.vec.capacity
  covered : ∀ bytes, ensured.requested = some bytes → ensured.vec.capacity * sizeofDouble ≤ bytes

def NeverLies (vec : DblVector Double) (newSize : Nat) : Prop :=
  ∀ allocator ensured, ensureCapacity allocator vec newSize = some ensured →
    Truthful newSize ensured

theorem InMemory.capacity_lt {vec : DblVector Double} (inMemory : InMemory vec) :
    vec.capacity < 2 ^ 61 := by
  have addressable := inMemory.addressable
  rw [inMemory.whole, sizeofDouble] at addressable
  omega

variable {vec : DblVector Double} {newSize larger : Nat}

theorem neverLies_of_fits (fits : newSize ≤ vec.capacity) : NeverLies vec newSize := by
  intro allocator ensured returned
  rw [ensureCapacity, if_neg (Nat.not_lt.mpr fits)] at returned
  cases returned
  exact ⟨fits, nofun⟩

/-- A call that grows is truthful exactly if the new capacity is below 2^61. -/
theorem neverLies_iff_of_grows (more : newSize > vec.capacity)
    (step : grown vec.capacity = some larger) :
    NeverLies vec newSize ↔ (if larger < newSize then newSize else larger) < 2 ^ 61 := by
  have chosen : newSize ≤ if larger < newSize then newSize else larger := by
    split <;> omega
  constructor
  · intro never
    have truthful := never (fun _ _ => some []) _ (by rw [ensureCapacity, if_pos more, step]; rfl)
    have covered := truthful.covered _ rfl
    dsimp only at covered
    by_contra large
    have wraps := Nat.mod_lt ((if larger < newSize then newSize else larger) * sizeofDouble)
      (show 2 ^ 64 > 0 by decide)
    unfold sizeofDouble at covered wraps
    omega
  · intro small allocator ensured returned
    rw [ensureCapacity, if_pos more, step] at returned
    obtain ⟨newData, _, rfl⟩ := Option.map_eq_some_iff.mp returned
    constructor
    case enough => exact chosen
    case covered =>
      intro bytes requested
      cases requested
      rw [Nat.mod_eq_of_lt (by unfold sizeofDouble; omega)]

/-- The vectors and sizes for which `dv_ensure_capacity` never lies about the block. -/
theorem ensureCapacity_truthful_iff (vec : DblVector Double) (newSize : Nat)
    (inMemory : InMemory vec) :
    NeverLies vec newSize ↔
      newSize ≤ vec.capacity ∨ newSize < 2 ^ 61 ∧ vec.capacity ≤ largestGrowable := by
  by_cases fits : newSize ≤ vec.capacity
  · exact iff_of_true (neverLies_of_fits fits) (Or.inl fits)
  have more : newSize > vec.capacity := Nat.not_le.mp fits
  rw [or_iff_right fits]
  by_cases small : vec.capacity ≤ largestGrowable
  · obtain ⟨larger, step, below⟩ := grown_of_growable small
    rw [neverLies_iff_of_grows more step]
    constructor
    · intro bounded
      split at bounded
      · exact ⟨bounded, small⟩
      · exact ⟨by omega, small⟩
    · intro bounded
      split
      · exact bounded.1
      · exact below
  · obtain ⟨larger, step, above, _⟩ :=
      grown_of_not_growable (Nat.not_le.mp small) inMemory.capacity_lt
    rw [neverLies_iff_of_grows more step]
    constructor
    · intro bounded
      split at bounded
      · omega
      · omega
    · intro bounded
      exact absurd bounded.2 small

end Requests

theorem dvInit_inMemory : InMemory (dvInit : DblVector Unit) where
  whole := rfl
  addressable := by decide

theorem ensureCapacity_truthful_initial :
    NeverLies (dvInit : DblVector Unit) 100 ↔
      100 ≤ (dvInit : DblVector Unit).capacity ∨
        100 < 2 ^ 61 ∧ (dvInit : DblVector Unit).capacity ≤ largestGrowable :=
  ensureCapacity_truthful_iff dvInit 100 dvInit_inMemory

/-- Room for `2 ^ 61 + 1` numbers: eight bytes are asked for. -/
theorem ensureCapacity_lies :
    ¬ ∀ (vec : DblVector Unit) (newSize : Nat), newSize < 2 ^ 64 → InMemory vec →
      NeverLies vec newSize := by
  intro always
  have truthful := always dvInit (2 ^ 61 + 1) (by decide) dvInit_inMemory
    (fun data bytes => some (realloc data bytes)) _ rfl
  exact absurd (truthful.covered 8 rfl) (by decide)

end Cab403.Assignment1
