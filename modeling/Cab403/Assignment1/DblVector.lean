/-
The growing array of dbl_vector.c. A block is the list of its elements, `none` for one
that nothing has been stored in; an access outside the block, or to such an element,
has no result. Allocation succeeds, and `realloc` keeps the elements that fit.
-/

import Cab403.Library.ActionRuns
import Mathlib.Algebra.Order.Ring.Nat
import Mathlib.Data.Fintype.Basic
import Mathlib.Data.List.Induction
import Mathlib.Data.Nat.Log
import Mathlib.Logic.Function.Basic

namespace Cab403.Assignment1

open ActionRuns

def DV_INITIAL_CAPACITY : Nat := 4

def sizeofDouble : Nat := 8

structure DblVector (Double : Type*) where
  size : Nat
  capacity : Nat
  data : List (Option Double)
  deriving DecidableEq

/-! ### Capacities -/

/-- The double nearest to a natural number, ties to even: 53 significant bits. -/
def toDouble (value : Nat) : Nat :=
  if value < 2 ^ 53 then value
  else
    let unit := 2 ^ (Nat.log 2 value - 52)
    let kept := value / unit
    let rest := value % unit
    if 2 * rest < unit ∨ (2 * rest = unit ∧ kept % 2 = 0) then kept * unit else (kept + 1) * unit

/-- `capacity * DV_GROWTH_FACTOR` as a `size_t`: conversion, product with 5/4 and
truncation; the conversion of a double from 2^64 on has no result. -/
def grown (capacity : Nat) : Option Nat :=
  if toDouble (5 * toDouble capacity) / 4 < 2 ^ 64 then
    some (toDouble (5 * toDouble capacity) / 4)
  else none

section Code

variable {Double : Type*}

def realloc (data : List (Option Double)) (bytes : Nat) : List (Option Double) :=
  data.take (bytes / sizeofDouble) ++
    List.replicate (bytes / sizeofDouble - data.length) none

def load (data : List (Option Double)) (index : Nat) : Option Double := data[index]?.join

def store (data : List (Option Double)) (index : Nat) (item : Double) :
    Option (List (Option Double)) :=
  if index < data.length then some (data.set index (some item)) else none

def dvInit : DblVector Double where
  size := 0
  capacity := DV_INITIAL_CAPACITY
  data := List.replicate DV_INITIAL_CAPACITY none

def dvEnsureCapacity (vec : DblVector Double) (newSize : Nat) : Option (DblVector Double) :=
  if newSize > vec.capacity then
    (grown vec.capacity).map fun larger =>
      let newCapacity := if larger < newSize then newSize else larger
      { vec with
        data := realloc vec.data (newCapacity * sizeofDouble % 2 ^ 64)
        capacity := newCapacity }
  else some vec

def copyItems (source : List (Option Double)) :
    List (Option Double) → Nat → Nat → Option (List (Option Double))
  | data, _, 0 => some data
  | data, i, count + 1 => do
      let item ← load source i
      let data ← store data i item
      copyItems source data (i + 1) count

def dvCopy (vec dest : DblVector Double) : Option (DblVector Double) := do
  let dest ← dvEnsureCapacity { dest with size := vec.size } vec.size
  let data ← copyItems vec.data dest.data 0 vec.size
  return { dest with data := data }

def dvClear (vec : DblVector Double) : DblVector Double := { vec with size := 0 }

def dvPush (vec : DblVector Double) (newItem : Double) : Option (DblVector Double) := do
  let grown ← dvEnsureCapacity { vec with size := vec.size + 1 } (vec.size + 1)
  let data ← store grown.data vec.size newItem
  return { grown with data := data }

def dvPop (vec : DblVector Double) : DblVector Double :=
  if vec.size > 0 then { vec with size := vec.size - 1 } else vec

def dvLast (nan : Double) (vec : DblVector Double) : Option Double :=
  if vec.size > 0 then load vec.data (vec.size - 1) else some nan

/-- The loop of `dv_insert_at` with `i` counting down to `loc`. -/
def makeRoom (loc : Nat) : List (Option Double) → Nat → Option (List (Option Double))
  | data, 0 => some data
  | data, i + 1 =>
      if i + 1 > loc then do
        let item ← load data i
        let data ← store data (i + 1) item
        makeRoom loc data i
      else some data

def dvInsertAt (vec : DblVector Double) (pos : Nat) (newItem : Double) :
    Option (DblVector Double) := do
  let loc := if pos > vec.size then vec.size else pos
  let grown ← dvEnsureCapacity vec (vec.size + 1)
  let shifted ← makeRoom loc grown.data grown.size
  let data ← store shifted loc newItem
  return { grown with data := data, size := vec.size + 1 }

def closeGap : List (Option Double) → Nat → Nat → Option (List (Option Double))
  | data, _, 0 => some data
  | data, i, count + 1 => do
      let item ← load data (i + 1)
      let data ← store data i item
      closeGap data (i + 1) count

def dvRemoveAt (vec : DblVector Double) (pos : Nat) : Option (DblVector Double) :=
  if pos ≥ vec.size then some vec
  else do
    let data ← closeGap vec.data pos (vec.size - 1 - pos)
    return { vec with data := data, size := vec.size - 1 }

def visitItems (data : List (Option Double)) : Nat → Nat → Option (List Double)
  | _, 0 => some []
  | i, count + 1 => do
      let item ← load data i
      let later ← visitItems data (i + 1) count
      return item :: later

def dvForeach (vec : DblVector Double) : Option (List Double) := visitItems vec.data 0 vec.size

end Code

/-! ### The growth rule -/

theorem toDouble_exact {value : Nat} (small : value < 2 ^ 53) : toDouble value = value :=
  if_pos small

theorem grown_exact {capacity : Nat} (small : capacity < 2 ^ 50) :
    grown capacity = some (5 * capacity / 4) := by
  rw [grown, toDouble_exact (show capacity < 2 ^ 53 by omega),
    toDouble_exact (show 5 * capacity < 2 ^ 53 by omega)]
  exact if_pos (by omega)

/-! ### What a vector holds -/

section Contents

variable {Double : Type*} {vec : DblVector Double} {items : List Double}

/-- The elements in use are the items, and the block has as many elements as it says. -/
structure Holds (vec : DblVector Double) (items : List Double) : Prop where
  size : vec.size = items.length
  elements : ∃ spare, vec.data = items.map some ++ spare
  capacity : vec.capacity = vec.data.length

theorem Holds.size_le (holds : Holds vec items) : vec.size ≤ vec.capacity := by
  obtain ⟨spare, elements⟩ := holds.elements
  rw [holds.size, holds.capacity, elements, List.length_append, List.length_map]
  exact Nat.le_add_right _ _

theorem holds_dvInit : Holds (dvInit : DblVector Double) [] where
  size := rfl
  elements := ⟨_, rfl⟩
  capacity := (List.length_replicate ..).symm

/-- Room for `newSize` items, and what the block held is still there. -/
structure Grows (vec grown : DblVector Double) (newSize : Nat) : Prop where
  size : grown.size = vec.size
  elements : ∃ spare, grown.data = vec.data ++ spare
  capacity : grown.capacity = grown.data.length
  enough : newSize ≤ grown.capacity

theorem dvEnsureCapacity_eq (whole : vec.capacity = vec.data.length)
    (small : vec.capacity < 2 ^ 50) (newSize : Nat) :
    ∃ larger, dvEnsureCapacity vec newSize = some larger ∧ vec.capacity ≤ larger.capacity ∧
      newSize ≤ larger.capacity ∧ (newSize < 2 ^ 61 → Grows vec larger newSize) := by
  unfold dvEnsureCapacity
  split
  · rename_i more
    rw [grown_exact small]
    refine ⟨_, rfl, ?_, ?_, ?_⟩
    · dsimp only
      split <;> omega
    · dsimp only
      split <;> omega
    · dsimp only
      intro fits
      generalize chosen : (if 5 * vec.capacity / 4 < newSize then newSize
        else 5 * vec.capacity / 4) = newCapacity
      have above : newSize ≤ newCapacity ∧ newCapacity < 2 ^ 61 := by
        rw [← chosen]
        split <;> omega
      have elements : newCapacity * sizeofDouble % 2 ^ 64 / sizeofDouble = newCapacity := by
        rw [Nat.mod_eq_of_lt (by unfold sizeofDouble; omega), sizeofDouble,
          Nat.mul_div_cancel _ (by decide)]
      have block : realloc vec.data (newCapacity * sizeofDouble % 2 ^ 64) =
          vec.data ++ List.replicate (newCapacity - vec.data.length) none := by
        rw [realloc, elements, List.take_of_length_le (by omega)]
      constructor
      case size => rfl
      case elements => exact ⟨_, block⟩
      case capacity =>
        rw [block, List.length_append, List.length_replicate]
        dsimp only
        omega
      case enough => exact above.1
  · rename_i fits
    refine ⟨vec, rfl, Nat.le_refl _, by omega, fun _ => ?_⟩
    exact ⟨rfl, ⟨[], (List.append_nil _).symm⟩, whole, by omega⟩

theorem Holds.grow {grown : DblVector Double} {newSize : Nat} (holds : Holds vec items)
    (grows : Grows vec grown newSize) : Holds grown items where
  size := grows.size.trans holds.size
  elements := by
    obtain ⟨spare, elements⟩ := holds.elements
    obtain ⟨added, larger⟩ := grows.elements
    exact ⟨spare ++ added, by rw [larger, elements, List.append_assoc]⟩
  capacity := grows.capacity

/-! ### The loops -/

theorem load_at (before after : List (Option Double)) (item : Double) :
    load (before ++ some item :: after) before.length = some item := by
  rw [load, List.getElem?_append_right (Nat.le_refl _), Nat.sub_self, List.getElem?_cons_zero]
  rfl

theorem store_at (before after : List (Option Double)) (old : Option Double) (item : Double) :
    store (before ++ old :: after) before.length item = some (before ++ some item :: after) := by
  rw [store, if_pos (by rw [List.length_append, List.length_cons]; omega),
    List.set_append_right _ _ (Nat.le_refl _), Nat.sub_self, List.set_cons_zero]

theorem copyItems_eq (front back : List Double) (old spare : List (Option Double))
    (room : old.length = back.length) (rest : List (Option Double)) :
    copyItems ((front ++ back).map some ++ rest) (front.map some ++ old ++ spare) front.length
        back.length = some ((front ++ back).map some ++ spare) := by
  induction back generalizing front old with
  | nil =>
      rw [List.eq_nil_of_length_eq_zero room]
      simp [copyItems]
  | cons item back ih =>
      cases old with
      | nil => cases room
      | cons first old =>
          have loaded := load_at (front.map some) (back.map some ++ rest) item
          have stored := store_at (front.map some) (old ++ spare) first item
          have later := ih (front ++ [item]) old (Nat.succ.inj room)
          rw [List.length_map] at loaded stored
          simp only [List.map_append, List.map_cons, List.map_nil, List.append_assoc,
            List.cons_append, List.nil_append, List.length_append, List.length_singleton] at later
          simp only [copyItems, List.length_cons, List.map_append, List.map_cons, List.append_assoc,
            List.cons_append, loaded, stored, Option.bind_eq_bind, Option.bind_some]
          exact later

/-- The items from `loc` on move one element up. -/
theorem makeRoom_eq (front back : List Double) (old : Option Double)
    (spare : List (Option Double)) :
    ∃ left, makeRoom front.length ((front ++ back).map some ++ old :: spare)
        (front.length + back.length) =
      some (front.map some ++ left :: (back.map some ++ spare)) := by
  induction back using List.reverseRecOn generalizing old spare with
  | nil =>
      refine ⟨old, ?_⟩
      rw [List.append_nil, List.length_nil, Nat.add_zero, List.map_nil, List.nil_append]
      cases front with
      | nil => rfl
      | cons first front => exact if_neg (Nat.lt_irrefl _)
  | append_singleton back item ih =>
      obtain ⟨left, moved⟩ := ih (some item) (some item :: spare)
      refine ⟨left, ?_⟩
      have loaded := load_at ((front ++ back).map some) (old :: spare) item
      have stored := store_at ((front ++ back).map some ++ [some item]) spare old item
      rw [List.length_map, List.length_append] at loaded
      rw [List.length_append, List.length_map, List.length_append, List.length_singleton,
        List.append_assoc] at stored
      have beyond : front.length + back.length + 1 > front.length := by omega
      simp only [List.map_append, List.map_cons, List.map_nil, List.append_assoc, List.cons_append,
        List.nil_append] at loaded stored moved ⊢
      rw [List.length_append, List.length_singleton, ← Nat.add_assoc, makeRoom, if_pos beyond,
        loaded, Option.bind_eq_bind, Option.bind_some, stored]
      exact moved

/-- The items behind `pos` move one element down. -/
theorem closeGap_eq (front back : List Double) (old : Double) (spare : List (Option Double)) :
    ∃ left, closeGap ((front ++ old :: back).map some ++ spare) front.length back.length =
      some ((front ++ back).map some ++ left :: spare) := by
  induction back generalizing front old with
  | nil => exact ⟨some old, by simp [closeGap]⟩
  | cons item back ih =>
      obtain ⟨left, moved⟩ := ih (front ++ [item]) item
      refine ⟨left, ?_⟩
      have loaded := load_at (front.map some ++ [some old]) (back.map some ++ spare) item
      have stored :=
        store_at (front.map some) (some item :: (back.map some ++ spare)) (some old) item
      rw [List.length_append, List.length_map, List.length_singleton] at loaded
      rw [List.length_map] at stored
      simp only [List.map_append, List.map_cons, List.append_assoc, List.cons_append,
        List.nil_append, List.length_append, List.length_singleton] at loaded stored moved ⊢
      rw [List.length_cons, closeGap, loaded, Option.bind_eq_bind, Option.bind_some, stored]
      exact moved

theorem visitItems_eq (front back : List Double) (spare : List (Option Double)) :
    visitItems ((front ++ back).map some ++ spare) front.length back.length = some back := by
  induction back generalizing front with
  | nil => rfl
  | cons item back ih =>
      have loaded := load_at (front.map some) (back.map some ++ spare) item
      have later := ih (front ++ [item])
      rw [List.length_map] at loaded
      simp only [List.map_append, List.map_cons, List.append_assoc, List.cons_append,
        List.nil_append, List.length_append, List.length_singleton] at loaded later ⊢
      rw [List.length_cons, visitItems, loaded, Option.bind_eq_bind, Option.bind_some, later]
      rfl

/-! ### The operations -/

/-- A vector that comes out of an operation: what it holds, in a block no smaller. -/
def Yields (result : Option (DblVector Double)) (vec : DblVector Double) (items : List Double) :
    Prop :=
  ∃ next, result = some next ∧ Holds next items ∧ vec.capacity ≤ next.capacity

theorem dvClear_yields (holds : Holds vec items) : Yields (some (dvClear vec)) vec [] :=
  ⟨_, rfl, ⟨rfl, ⟨_, rfl⟩, holds.capacity⟩, Nat.le_refl _⟩

theorem dvPop_yields (holds : Holds vec items) : Yields (some (dvPop vec)) vec items.dropLast := by
  refine ⟨_, rfl, ?_⟩
  unfold dvPop
  rcases List.eq_nil_or_concat items with rfl | ⟨front, last, rfl⟩
  · rw [if_neg (by rw [holds.size]; exact Nat.lt_irrefl 0)]
    exact ⟨holds, Nat.le_refl _⟩
  · obtain ⟨spare, elements⟩ := holds.elements
    have size := holds.size
    rw [List.concat_eq_append, List.length_append, List.length_singleton] at size
    rw [if_pos (by omega), List.concat_eq_append, List.dropLast_concat]
    refine ⟨⟨by dsimp only; omega, ⟨some last :: spare, ?_⟩, holds.capacity⟩, Nat.le_refl _⟩
    rw [elements, List.concat_eq_append, List.map_append, List.append_assoc]
    rfl

/-- A vector that has been asked for room, whatever size it was given first. -/
theorem ensured_room (holds : Holds vec items) (small : vec.capacity < 2 ^ 50)
    (size newSize : Nat) (fits : newSize < 2 ^ 61) :
    ∃ larger, dvEnsureCapacity { vec with size := size } newSize = some larger ∧
      larger.size = size ∧ larger.capacity = larger.data.length ∧
      vec.capacity ≤ larger.capacity ∧
      ∃ spare, larger.data = items.map some ++ spare ∧ newSize ≤ items.length + spare.length := by
  have whole : ({ vec with size := size } : DblVector Double).capacity = vec.data.length :=
    holds.capacity
  obtain ⟨larger, ensured, more, enough, grows⟩ := dvEnsureCapacity_eq whole small newSize
  obtain ⟨spare, elements⟩ := holds.elements
  obtain ⟨sized, ⟨added, grown⟩, still, _⟩ := grows fits
  refine ⟨larger, ensured, sized, still, more, spare ++ added, ?_, ?_⟩
  · rw [grown, elements, List.append_assoc]
  · rw [still, grown, elements] at enough
    simpa [Nat.add_assoc] using enough

theorem dvPush_yields (holds : Holds vec items) (small : vec.capacity < 2 ^ 50)
    (newItem : Double) : Yields (dvPush vec newItem) vec (items ++ [newItem]) := by
  have within := holds.size_le
  have size := holds.size
  obtain ⟨larger, ensured, sized, whole, more, spare, elements, room⟩ :=
    ensured_room holds small (vec.size + 1) (vec.size + 1) (by omega)
  cases spare with
  | nil =>
      rw [List.length_nil] at room
      omega
  | cons first spare =>
      have stored := store_at (items.map some) spare first newItem
      rw [List.length_map, ← size, ← elements] at stored
      rw [dvPush, ensured, Option.bind_eq_bind, Option.bind_some, stored]
      refine ⟨_, rfl, ?_, more⟩
      constructor
      case size =>
        rw [List.length_append, List.length_singleton, ← size]
        exact sized
      case elements => exact ⟨spare, by simp⟩
      case capacity =>
        rw [elements] at whole
        simpa using whole

theorem dvInsertAt_yields (holds : Holds vec items) (small : vec.capacity < 2 ^ 50) (pos : Nat)
    (newItem : Double) :
    Yields (dvInsertAt vec pos newItem) vec (items.take pos ++ newItem :: items.drop pos) := by
  have within := holds.size_le
  have size := holds.size
  obtain ⟨larger, ensured, sized, whole, more, spare, elements, room⟩ :=
    ensured_room holds small vec.size (vec.size + 1) (by omega)
  cases spare with
  | nil =>
      rw [List.length_nil] at room
      omega
  | cons first spare =>
      have loc : (if pos > vec.size then vec.size else pos) = (items.take pos).length := by
        rw [List.length_take, size]
        split <;> omega
      have whereAll : vec.size = (items.take pos).length + (items.drop pos).length := by
        rw [← List.length_append, List.take_append_drop, size]
      obtain ⟨left, moved⟩ := makeRoom_eq (items.take pos) (items.drop pos) first spare
      rw [List.take_append_drop, ← elements, ← whereAll] at moved
      have stored := store_at ((items.take pos).map some)
        ((items.drop pos).map some ++ spare) left newItem
      rw [List.length_map] at stored
      rw [dvInsertAt, ensured]
      simp only [Option.bind_eq_bind, Option.bind_some, loc, sized, moved, stored]
      refine ⟨_, rfl, ?_, more⟩
      constructor
      case size =>
        rw [List.length_append, List.length_cons, ← Nat.add_assoc, ← whereAll]
      case elements => exact ⟨spare, by simp⟩
      case capacity =>
        rw [elements, ← List.take_append_drop pos items] at whole
        simp only [List.map_append, List.length_append, List.length_map,
          List.length_cons] at whole ⊢
        omega

theorem dvRemoveAt_yields (holds : Holds vec items) (pos : Nat) :
    Yields (dvRemoveAt vec pos) vec (items.eraseIdx pos) := by
  have size := holds.size
  unfold dvRemoveAt
  split
  · rename_i beyond
    rw [List.eraseIdx_of_length_le (by omega)]
    exact ⟨vec, rfl, holds, Nat.le_refl _⟩
  · rename_i within
    obtain ⟨spare, elements⟩ := holds.elements
    obtain ⟨old, back, behind⟩ : ∃ old back, items.drop pos = old :: back :=
      List.exists_cons_of_ne_nil fun none_ => by
        rw [List.drop_eq_nil_iff] at none_
        omega
    have split : items = items.take pos ++ old :: back := by
      rw [← behind, List.take_append_drop]
    have front : (items.take pos).length = pos := by
      rw [List.length_take]
      omega
    have count : back.length = vec.size - 1 - pos := by
      have whole := congrArg List.length split
      rw [List.length_append, List.length_cons, front] at whole
      omega
    obtain ⟨left, moved⟩ := closeGap_eq (items.take pos) back old spare
    rw [← split, ← elements, front, count] at moved
    rw [moved, Option.bind_eq_bind, Option.bind_some]
    have erased : items.eraseIdx pos = items.take pos ++ back := by
      rw [List.eraseIdx_eq_take_drop_succ, ← List.drop_drop, behind, List.drop_one, List.tail_cons]
    refine ⟨_, rfl, ?_, Nat.le_refl _⟩
    rw [erased]
    constructor
    case size =>
      rw [List.length_append, front, count]
      dsimp only
      omega
    case elements => exact ⟨left :: spare, rfl⟩
    case capacity =>
      have whole := holds.capacity
      rw [elements, split] at whole
      simp only [List.map_append, List.map_cons, List.length_append, List.length_map,
        List.length_cons] at whole ⊢
      omega

theorem dvCopy_yields {source : DblVector Double} {copied : List Double}
    (holds : Holds vec items) (small : vec.capacity < 2 ^ 50) (sourceHolds : Holds source copied)
    (sourceSmall : source.capacity < 2 ^ 50) :
    Yields (dvCopy source vec) vec copied := by
  have within := sourceHolds.size_le
  have size := sourceHolds.size
  obtain ⟨larger, ensured, sized, whole, more, spare, elements, room⟩ :=
    ensured_room holds small source.size source.size (by omega)
  obtain ⟨rest, sourceElements⟩ := sourceHolds.elements
  have old : (larger.data.take copied.length).length = copied.length := by
    rw [List.length_take, elements, List.length_append, List.length_map]
    omega
  have stored := copyItems_eq [] copied (larger.data.take copied.length)
    (larger.data.drop copied.length) old rest
  simp only [List.nil_append, List.map_nil, List.length_nil, List.take_append_drop,
    ← sourceElements, ← size] at stored
  rw [dvCopy, ensured, Option.bind_eq_bind, Option.bind_some, Option.bind_eq_bind, stored]
  refine ⟨_, rfl, ?_, more⟩
  constructor
  case size => exact sized.trans size
  case elements => exact ⟨_, rfl⟩
  case capacity =>
    have split := congrArg List.length (List.take_append_drop copied.length larger.data)
    rw [List.length_append, old] at split
    rw [List.length_append, List.length_map, size, split]
    exact whole

theorem dvLast_eq (holds : Holds vec items) (nan : Double) :
    dvLast nan vec = some (items.getLast?.getD nan) := by
  have size := holds.size
  unfold dvLast
  rcases List.eq_nil_or_concat items with rfl | ⟨front, last, rfl⟩
  · rw [if_neg (by rw [size]; exact Nat.lt_irrefl 0)]
    rfl
  · obtain ⟨spare, elements⟩ := holds.elements
    rw [List.concat_eq_append, List.length_append, List.length_singleton] at size
    have loaded := load_at (front.map some) spare last
    rw [List.length_map] at loaded
    rw [if_pos (by omega), elements, size, Nat.add_sub_cancel, List.concat_eq_append,
      List.getLast?_concat, List.map_append, List.append_assoc]
    exact loaded

theorem dvForeach_eq (holds : Holds vec items) : dvForeach vec = some items := by
  obtain ⟨spare, elements⟩ := holds.elements
  rw [dvForeach, elements, holds.size]
  exact visitItems_eq [] items spare

end Contents

/-! ### Runs -/

section Runs

variable {Id Double : Type*}

inductive Operation (Id Double : Type*) where
  | push (vec : Id) (newItem : Double)
  | pop (vec : Id)
  | last (vec : Id)
  | insertAt (vec : Id) (pos : Nat) (newItem : Double)
  | removeAt (vec : Id) (pos : Nat)
  | clear (vec : Id)
  | copy (vec dest : Id) (distinct : vec ≠ dest)
  | ensureCapacity (vec : Id) (newSize : Nat)
  | foreach (vec : Id)

inductive Output (Double : Type*) where
  | last (item : Double)
  | visited (items : List Double)
  deriving DecidableEq

structure Program (Id Double : Type*) where
  vectors : Id → DblVector Double
  outputs : List (Output Double)

structure Lists (Id Double : Type*) where
  items : Id → List Double
  outputs : List (Output Double)

def Program.initial : Program Id Double where
  vectors := fun _ => dvInit
  outputs := []

def Lists.initial : Lists Id Double where
  items := fun _ => []
  outputs := []

structure Refines (program : Program Id Double) (lists : Lists Id Double) : Prop where
  holds : ∀ id, Holds (program.vectors id) (lists.items id)
  outputs : program.outputs = lists.outputs

def Program.Small (program : Program Id Double) : Prop :=
  ∀ id, (program.vectors id).capacity < 2 ^ 50

theorem refines_initial : Refines (Program.initial : Program Id Double) Lists.initial where
  holds _ := holds_dvInit
  outputs := rfl

theorem small_initial : (Program.initial : Program Id Double).Small :=
  fun _ => show DV_INITIAL_CAPACITY < 2 ^ 50 by decide

variable [DecidableEq Id]

def Program.set (program : Program Id Double) (id : Id) (vec : DblVector Double) :
    Program Id Double :=
  { program with vectors := Function.update program.vectors id vec }

def Lists.set (lists : Lists Id Double) (id : Id) (items : List Double) : Lists Id Double :=
  { lists with items := Function.update lists.items id items }

def step (nan : Double) (program : Program Id Double) :
    Operation Id Double → Option (Program Id Double)
  | .push vec newItem => (dvPush (program.vectors vec) newItem).map (program.set vec)
  | .pop vec => some (program.set vec (dvPop (program.vectors vec)))
  | .last vec =>
      (dvLast nan (program.vectors vec)).map fun item =>
        { program with outputs := program.outputs ++ [.last item] }
  | .insertAt vec pos newItem =>
      (dvInsertAt (program.vectors vec) pos newItem).map (program.set vec)
  | .removeAt vec pos => (dvRemoveAt (program.vectors vec) pos).map (program.set vec)
  | .clear vec => some (program.set vec (dvClear (program.vectors vec)))
  | .copy vec dest _ =>
      (dvCopy (program.vectors vec) (program.vectors dest)).map (program.set dest)
  | .ensureCapacity vec newSize =>
      (dvEnsureCapacity (program.vectors vec) newSize).map (program.set vec)
  | .foreach vec =>
      (dvForeach (program.vectors vec)).map fun items =>
        { program with outputs := program.outputs ++ [.visited items] }

/-- The operations on lists. A position at or beyond the end appends, or removes nothing. -/
def Lists.apply (nan : Double) (lists : Lists Id Double) : Operation Id Double → Lists Id Double
  | .push vec newItem => lists.set vec (lists.items vec ++ [newItem])
  | .pop vec => lists.set vec (lists.items vec).dropLast
  | .last vec =>
      { lists with outputs := lists.outputs ++ [.last ((lists.items vec).getLast?.getD nan)] }
  | .insertAt vec pos newItem =>
      lists.set vec ((lists.items vec).take pos ++ newItem :: (lists.items vec).drop pos)
  | .removeAt vec pos => lists.set vec ((lists.items vec).eraseIdx pos)
  | .clear vec => lists.set vec []
  | .copy vec dest _ => lists.set dest (lists.items vec)
  | .ensureCapacity _ _ => lists
  | .foreach vec => { lists with outputs := lists.outputs ++ [.visited (lists.items vec)] }

def Lists.applyAll (nan : Double) (lists : Lists Id Double)
    (operations : List (Operation Id Double)) : Lists Id Double :=
  operations.foldl (Lists.apply nan) lists

variable {program next : Program Id Double} {lists : Lists Id Double}

theorem Program.set_self (program : Program Id Double) (id : Id) (vec : DblVector Double) :
    (program.set id vec).vectors id = vec := Function.update_self ..

theorem Lists.set_items (lists : Lists Id Double) (id : Id) :
    lists.set id (lists.items id) = lists := by
  rw [Lists.set, Function.update_eq_self]

theorem Program.set_capacity (program : Program Id Double) {id : Id} {vec : DblVector Double}
    (more : (program.vectors id).capacity ≤ vec.capacity) (other : Id) :
    (program.vectors other).capacity ≤ ((program.set id vec).vectors other).capacity := by
  change _ ≤ (Function.update program.vectors id vec other).capacity
  by_cases same : other = id
  · subst same
    rwa [Function.update_self]
  · rw [Function.update_of_ne same]

theorem Refines.set (refines : Refines program lists) {id : Id} {vec : DblVector Double}
    {items : List Double} (holds : Holds vec items) :
    Refines (program.set id vec) (lists.set id items) where
  holds other := by
    change Holds (Function.update program.vectors id vec other)
      (Function.update lists.items id items other)
    by_cases same : other = id
    · subst same
      rw [Function.update_self, Function.update_self]
      exact holds
    · rw [Function.update_of_ne same, Function.update_of_ne same]
      exact refines.holds other
  outputs := refines.outputs

/-- A step that does what the list operation does, and shrinks no block. -/
def Steps (program : Program Id Double) (result : Option (Program Id Double))
    (lists : Lists Id Double) : Prop :=
  ∃ next, result = some next ∧ (next.Small → Refines next lists) ∧
    ∀ id, (program.vectors id).capacity ≤ (next.vectors id).capacity

theorem Yields.steps {result : Option (DblVector Double)} {id : Id} {items : List Double}
    (refines : Refines program lists) (yields : Yields result (program.vectors id) items) :
    Steps program (result.map (program.set id)) (lists.set id items) := by
  obtain ⟨vec, rfl, holds, more⟩ := yields
  exact ⟨program.set id vec, rfl, fun _ => refines.set holds, program.set_capacity more⟩

theorem step_steps (nan : Double) (refines : Refines program lists) (small : program.Small)
    (operation : Operation Id Double) :
    Steps program (step nan program operation) (lists.apply nan operation) := by
  cases operation with
  | push vec newItem => exact (dvPush_yields (refines.holds vec) (small vec) newItem).steps refines
  | pop vec => exact (dvPop_yields (refines.holds vec)).steps refines
  | last vec =>
      rw [step, dvLast_eq (refines.holds vec)]
      exact ⟨_, rfl, fun _ => ⟨refines.holds, congrArg (· ++ _) refines.outputs⟩,
        fun _ => Nat.le_refl _⟩
  | insertAt vec pos newItem =>
      exact (dvInsertAt_yields (refines.holds vec) (small vec) pos newItem).steps refines
  | removeAt vec pos => exact (dvRemoveAt_yields (refines.holds vec) pos).steps refines
  | clear vec => exact (dvClear_yields (refines.holds vec)).steps refines
  | copy vec dest distinct =>
      exact (dvCopy_yields (refines.holds dest) (small dest) (refines.holds vec)
        (small vec)).steps refines
  | ensureCapacity vec newSize =>
      obtain ⟨larger, ensured, more, enough, grows⟩ :=
        dvEnsureCapacity_eq (refines.holds vec).capacity (small vec) newSize
      refine ⟨program.set vec larger, by rw [step, ensured]; rfl, fun smallNext => ?_, ?_⟩
      · have below := smallNext vec
        rw [Program.set_self] at below
        have holds := (refines.holds vec).grow (grows (by omega))
        have same : Refines (program.set vec larger) (lists.set vec (lists.items vec)) :=
          refines.set holds
        rwa [Lists.set_items] at same
      · exact program.set_capacity more
  | foreach vec =>
      rw [step, dvForeach_eq (refines.holds vec)]
      exact ⟨_, rfl, fun _ => ⟨refines.holds, congrArg (· ++ _) refines.outputs⟩,
        fun _ => Nat.le_refl _⟩

def StaysSmall (nan : Double) (program : Program Id Double)
    (operations : List (Operation Id Double)) : Prop :=
  Along (step nan) (fun program operation =>
    ∀ next, step nan program operation = some next → next.Small) program operations

theorem run_refines (nan : Double) (refines : Refines program lists) (small : program.Small)
    {operations : List (Operation Id Double)} (along : StaysSmall nan program operations) :
    ∃ reached, run (step nan) program operations = some reached ∧ reached.Small ∧
      Refines reached (lists.applyAll nan operations) ∧
      ∀ id, (program.vectors id).capacity ≤ (reached.vectors id).capacity := by
  induction operations generalizing program lists with
  | nil => exact ⟨program, rfl, small, refines, fun _ => Nat.le_refl _⟩
  | cons operation rest ih =>
      obtain ⟨next, taken, kept, more⟩ := step_steps nan refines small operation
      have smallNext := along.head next taken
      obtain ⟨reached, ran, smallReached, held, grew⟩ :=
        ih (kept smallNext) smallNext (along.tail taken)
      exact ⟨reached, run_cons_eq_some.mpr ⟨next, taken, ran⟩, smallReached, held,
        fun id => (more id).trans (grew id)⟩

/-- The view the program has of its vectors, beside the lists it should see. -/
structure Program.Matches (program : Program Id Double) (lists : Lists Id Double) : Prop where
  elements : ∀ id, (program.vectors id).data.take (program.vectors id).size =
    (lists.items id).map some
  size : ∀ id, (program.vectors id).size = (lists.items id).length
  outputs : program.outputs = lists.outputs
  within : ∀ id, (program.vectors id).size ≤ (program.vectors id).capacity
  allocated : ∀ id, (program.vectors id).capacity = (program.vectors id).data.length

omit [DecidableEq Id] in
theorem Refines.matches (refines : Refines program lists) : program.Matches lists where
  elements id := by
    obtain ⟨spare, elements⟩ := (refines.holds id).elements
    rw [elements, (refines.holds id).size, List.take_left' (List.length_map _)]
  size id := (refines.holds id).size
  outputs := refines.outputs
  within id := (refines.holds id).size_le
  allocated id := (refines.holds id).capacity

/-- Whatever is done to the vectors, no access leaves its block, the vectors match the
lists after every part of the run, and no capacity shrinks from one part to the next. -/
theorem dblVector_refines (nan : Double) (first later : List (Operation Id Double))
    (small : StaysSmall nan Program.initial (first ++ later)) :
    ∃ midway reached, run (step nan) Program.initial first = some midway ∧
      run (step nan) midway later = some reached ∧
      midway.Matches (Lists.initial.applyAll nan first) ∧
      reached.Matches (Lists.initial.applyAll nan (first ++ later)) ∧
      ∀ id, (midway.vectors id).capacity ≤ (reached.vectors id).capacity := by
  obtain ⟨smallFirst, smallLater⟩ := Along.of_append small
  obtain ⟨midway, ran, smallMidway, refines, _⟩ :=
    run_refines nan refines_initial small_initial smallFirst
  obtain ⟨reached, ranLater, _, refinesLater, grew⟩ :=
    run_refines nan refines smallMidway (smallLater midway ran)
  rw [Lists.applyAll, Lists.applyAll, ← List.foldl_append] at refinesLater
  exact ⟨midway, reached, ran, ranLater, refines.matches, refinesLater.matches, grew⟩

end Runs

instance {Id Double : Type*} [Fintype Id] (program : Program Id Double) :
    Decidable program.Small :=
  inferInstanceAs (Decidable (∀ id, (program.vectors id).capacity < 2 ^ 50))

instance {Id Double : Type*} [Fintype Id] [DecidableEq Id] (nan : Double)
    (program : Program Id Double) (operations : List (Operation Id Double)) :
    Decidable (StaysSmall nan program operations) :=
  have (program : Program Id Double) (operation : Operation Id Double) :
      Decidable (∀ next, step nan program operation = some next → next.Small) :=
    inferInstanceAs (Decidable (∀ next ∈ step nan program operation, next.Small))
  Along.decidable _ _ _ _

def fillsFirst : List (Operation (Fin 2) Int) :=
  [.push 0 1, .push 0 2, .insertAt 0 0 3, .insertAt 0 9 4, .push 0 5]

def usesBoth : List (Operation (Fin 2) Int) :=
  [.copy 0 1 (by decide), .removeAt 1 1, .removeAt 1 7, .pop 0, .last 1, .foreach 1]

theorem dblVector_refines_copied :
    ∃ midway reached, run (step 0) Program.initial fillsFirst = some midway ∧
      run (step 0) midway usesBoth = some reached ∧
      midway.Matches (Lists.initial.applyAll 0 fillsFirst) ∧
      reached.Matches (Lists.initial.applyAll 0 (fillsFirst ++ usesBoth)) ∧
      ∀ id, (midway.vectors id).capacity ≤ (reached.vectors id).capacity :=
  dblVector_refines 0 fillsFirst usesBoth (by decide +kernel)

end Cab403.Assignment1
