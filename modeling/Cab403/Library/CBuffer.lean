/-
Character arrays that a program fills byte by byte. A store outside of the array has no
result, so a row of stores that has one stayed inside.
-/

import Cab403.Library.CText

namespace Cab403.CBuffer

open CText

variable {room : Nat}

def store (dest : Vector UInt8 room) (index : Nat) (byte : UInt8) : Option (Vector UInt8 room) :=
  if inside : index < room then some (dest.set index byte inside) else none

/-- The stores of some bytes, one behind the other. -/
def storeAll (dest : Vector UInt8 room) (start : Nat) : List UInt8 → Option (Vector UInt8 room)
  | [] => some dest
  | byte :: rest => (store dest start byte).bind fun next => storeAll next (start + 1) rest

/-- `snprintf(dest, size, …)`, which knows nothing of the array but the size it is told. -/
def snprintfTo (dest : Vector UInt8 room) (size : Nat) (formatted : List UInt8) :
    Option (Vector UInt8 room) :=
  if size = 0 then some dest else storeAll dest 0 (snprintf size formatted ++ [0])

/-- `char name[room] = literal`. -/
def initialised (room : Nat) (literal : List UInt8) : Vector UInt8 room :=
  Vector.ofFn fun index => literal[index.val]?.getD 0

def charAt (text : List UInt8) (i : Nat) : UInt8 := text[i]?.getD 0

theorem lt_length_of_charAt {text : List UInt8} {i : Nat} (solid : charAt text i ≠ 0) :
    i < text.length := by
  by_contra past
  apply solid
  unfold charAt
  rw [List.getElem?_eq_none (Nat.not_lt.mp past), Option.getD_none]

theorem charAt_eq_getElem {text : List UInt8} {i : Nat} (inside : i < text.length) :
    charAt text i = text[i] := by
  unfold charAt
  rw [List.getElem?_eq_getElem inside, Option.getD_some]

theorem length_le_of_charAt {text : List UInt8} (noNul : (0 : UInt8) ∉ text) {i : Nat}
    (ends : charAt text i = 0) : text.length ≤ i := by
  by_contra inside
  have early := Nat.not_le.mp inside
  rw [charAt_eq_getElem early] at ends
  exact noNul (ends ▸ List.getElem_mem early)

theorem initialised_take {literal : List UInt8} (fits : literal.length ≤ room) :
    (initialised room literal).toList.take literal.length = literal := by
  apply List.ext_getElem
  · rw [List.length_take, Vector.length_toList, Nat.min_eq_left fits]
  · intro index left right
    rw [List.getElem_take, Vector.getElem_toList]
    exact (Vector.getElem_ofFn _).trans (charAt_eq_getElem right)

theorem store_inside (dest : Vector UInt8 room) {index : Nat} (inside : index < room)
    (byte : UInt8) : store dest index byte = some (dest.set index byte inside) :=
  dif_pos inside

theorem store_outside (dest : Vector UInt8 room) {index : Nat} (outside : room ≤ index)
    (byte : UInt8) : store dest index byte = none :=
  dif_neg (Nat.not_lt.mpr outside)

theorem storeAll_singleton (dest : Vector UInt8 room) (start : Nat) (byte : UInt8) :
    storeAll dest start [byte] = store dest start byte := by
  unfold storeAll
  cases store dest start byte with
  | none => rfl
  | some next => rfl

theorem storeAll_outside (dest : Vector UInt8 room) {start : Nat} {text : List UInt8}
    (inside : start ≤ room) (outside : room < start + text.length) :
    storeAll dest start text = none := by
  induction text generalizing dest start with
  | nil =>
      rw [List.length_nil] at outside
      omega
  | cons byte rest ih =>
      rw [List.length_cons] at outside
      unfold storeAll
      by_cases here : start < room
      · rw [store_inside dest here]
        exact ih _ here (by omega)
      · rw [store_outside dest (Nat.not_lt.mp here)]
        rfl

theorem storeAll_inside (dest : Vector UInt8 room) {start : Nat} {text : List UInt8}
    (inside : start + text.length ≤ room) :
    ∃ result, storeAll dest start text = some result ∧
      result.toList =
        dest.toList.take start ++ (text ++ dest.toList.drop (start + text.length)) := by
  induction text generalizing dest start with
  | nil =>
      refine ⟨dest, rfl, ?_⟩
      rw [List.length_nil, Nat.add_zero, List.nil_append, List.take_append_drop]
  | cons byte rest ih =>
      rw [List.length_cons] at inside ⊢
      have here : start < room := by omega
      obtain ⟨result, stored, same⟩ :=
        ih (dest.set start byte here) (show start + 1 + rest.length ≤ room by omega)
      refine ⟨result, ?_, ?_⟩
      · unfold storeAll
        rw [store_inside dest here]
        exact stored
      · have long : start < (dest.toList.set start byte).length := by
          rw [List.length_set, Vector.length_toList]
          exact here
        rw [same, Vector.toList_set, List.drop_set_of_lt (by omega),
          List.take_succ_eq_append_getElem long, List.getElem_set_self,
          List.take_set_of_le (Nat.le_refl start), List.append_assoc, List.singleton_append,
          List.cons_append, Nat.add_assoc, Nat.add_comm 1]

/-- A text and its terminator, written behind what stands before them, are read back. -/
theorem stringAt_storeAll {dest result : Vector UInt8 room} {start : Nat} {text : List UInt8}
    (noNul : (0 : UInt8) ∉ dest.toList.take start ++ text)
    (stored : storeAll dest start (text ++ [0]) = some result) (inside : start ≤ room) :
    stringAt result.toList = dest.toList.take start ++ text := by
  have fits : start + (text ++ [0]).length ≤ room := by
    by_contra outside
    rw [storeAll_outside dest inside (Nat.not_le.mp outside)] at stored
    cases stored
  obtain ⟨other, storedOther, same⟩ := storeAll_inside dest fits
  cases stored.symm.trans storedOther
  rw [same, List.append_assoc, ← List.append_assoc, stringAt_append noNul, List.singleton_append,
    stringAt_nul, List.append_nil]

end Cab403.CBuffer
