/-
The two functions called `validate_floor_input`, of the safety monitor and of shared.h,
on strings of any length. The first looks at four bytes and at no number; the second
lets `strtol` skip blanks and a plus sign.
-/

import Cab403.Elevator.CallMessage
import Cab403.Elevator.ServiceRecovery

namespace Cab403.Elevator.Validators

open CText CDecimal Safety

def NamesNumber (highest : Nat) (text : List UInt8) : Prop :=
  ∃ digits, Unsigned (text.dropWhile isBlank) digits ∧
    1 ≤ digitsValue digits ∧ digitsValue digits ≤ highest

def NamesFloor (floor : List UInt8) : Prop :=
  (∃ rest, floor = 66 :: rest ∧ NamesNumber 99 rest) ∨ NamesNumber 999 floor

/-- The validators agree on a string, and neither accepts it if it names no floor. -/
structure Agree (floor : CString) : Prop where
  same : Safety.validateFloorInput floor.text = true ↔
    CallTool.validateFloorInput floor.text = true
  safety : Safety.validateFloorInput floor.text = true → NamesFloor floor.text
  shared : CallTool.validateFloorInput floor.text = true → NamesFloor floor.text

/-! ### Where they part -/

def AllDigits (digits : List UInt8) : Prop :=
  digits ≠ [] ∧ ∀ byte ∈ digits, isDigit byte = true

structure Overlong (floor : List UInt8) : Prop where
  numeric : Numeric (floor.take 4)
  long : 4 < floor.length

structure OutOfRange (floor : List UInt8) : Prop where
  short : floor.length ≤ 4
  number : ∃ digits, AllDigits digits ∧
    (floor = digits ∧ ¬ (1 ≤ digitsValue digits ∧ digitsValue digits ≤ 999) ∨
      floor = 66 :: digits ∧ ¬ (1 ≤ digitsValue digits ∧ digitsValue digits ≤ 99))

def IsPadding (padding : List UInt8) : Prop :=
  ∃ blanks, (∀ byte ∈ blanks, isBlank byte = true) ∧
    (padding = blanks ∨ padding = blanks ++ [43])

/-- A floor whose digits do not follow the beginning or the `B` at once. -/
structure Padded (floor : List UInt8) : Prop where
  short : floor.length ≤ 4
  number : ∃ padding digits, padding ≠ [] ∧ IsPadding padding ∧ AllDigits digits ∧
    (floor = padding ++ digits ∧ 1 ≤ digitsValue digits ∧ digitsValue digits ≤ 999 ∨
      floor = 66 :: (padding ++ digits) ∧ 1 ≤ digitsValue digits ∧ digitsValue digits ≤ 99)

/-! ### The validator of the monitor -/

theorem boundedLength_take {limit : Nat} {text : List UInt8} (noNul : (0 : UInt8) ∉ text) :
    boundedLength limit text = (text.take limit).length := by
  induction limit generalizing text with
  | zero => rfl
  | succ limit ih =>
      cases text with
      | nil => rfl
      | cons head tail =>
          have solid : head ≠ 0 := (List.ne_of_not_mem_cons noNul).symm
          rw [boundedLength, if_neg solid, List.take_succ_cons, List.length_cons,
            ih (List.not_mem_of_not_mem_cons noNul)]

theorem safety_iff {floor : List UInt8} (noNul : (0 : UInt8) ∉ floor) :
    Safety.validateFloorInput floor = true ↔ Numeric (floor.take 4) := by
  have noNulFront : (0 : UInt8) ∉ floor.take 4 := fun member => noNul (List.mem_of_mem_take member)
  have whole : floor.take (floor.take 4).length = floor.take 4 := by
    rw [List.take_eq_take_iff, List.length_take, Nat.min_assoc, Nat.min_self]
  have front : Safety.validateFloorInput floor = Safety.validateFloorInput (floor.take 4) := by
    unfold Safety.validateFloorInput
    dsimp only
    rw [boundedLength_take noNul, boundedLength_take noNulFront, List.take_take, Nat.min_self,
      List.take_length, whole]
    cases floor with
    | nil => rfl
    | cons head tail => rfl
  rw [front]
  exact validateFloorInput_iff
    { text := floor.take 4, noNul := noNulFront, fits := List.length_take_le 4 floor }

/-! ### The validator of shared.h -/

theorem strtol_blanks {input digits : List UInt8}
    (spelled : Unsigned (input.dropWhile isBlank) digits) :
    strtol input = ((digitsValue digits : Int), []) := by
  have again : (input.dropWhile isBlank).dropWhile isBlank = input.dropWhile isBlank :=
    dropWhile_blank_of_solid fun byte first => spelled.solid byte (List.mem_of_mem_head? first)
  have read := spelled.strtol
  unfold CDecimal.strtol at read ⊢
  rw [again] at read
  dsimp only at read ⊢
  split at read
  · rename_i nothing
    exact absurd (Prod.mk.inj read).2 spelled.ne_nil
  · rename_i found
    rw [if_neg found]
    exact read

theorem validateNumber_iff (highest : Nat) (text : List UInt8) :
    CallTool.validateNumber highest text = true ↔ NamesNumber highest text := by
  constructor
  · intro valid
    obtain ⟨digits, spelled, positive, value⟩ := CallTool.validateNumber_spelled valid
    refine ⟨digits, spelled, positive, ?_⟩
    unfold CallTool.validateNumber at valid
    rw [strtol_blanks spelled] at valid
    dsimp only at valid
    by_contra above
    rw [if_pos (Or.inr (Or.inr (by omega)))] at valid
    cases valid
  · intro named
    rcases named with ⟨digits, spelled, positive, bounded⟩
    unfold CallTool.validateNumber
    rw [strtol_blanks spelled]
    dsimp only
    rw [if_neg]
    rintro (rest | low | high)
    · exact rest rfl
    · omega
    · omega

theorem namesNumber_ne_nil {highest : Nat} {text : List UInt8} (named : NamesNumber highest text) :
    text ≠ [] := by
  rintro rfl
  rcases named with ⟨digits, spelled, _⟩
  exact spelled.ne_nil rfl

theorem namesNumber_ground {highest : Nat} {text rest : List UInt8}
    (named : NamesNumber highest text) : text ≠ 66 :: rest := by
  rintro rfl
  rcases named with ⟨digits, spelled, _⟩
  have unblanked : (66 :: rest).dropWhile isBlank = 66 :: rest :=
    List.dropWhile_cons_of_neg (by decide)
  rw [unblanked] at spelled
  exact CallTool.ground_of_unsigned spelled List.mem_cons_self

theorem shared_iff (floor : List UInt8) :
    CallTool.validateFloorInput floor = true ↔ floor.length ≤ 4 ∧ NamesFloor floor := by
  unfold CallTool.validateFloorInput
  by_cases inside : floor.length > 4 ∨ floor.length < 1
  · rw [if_pos inside]
    apply iff_of_false Bool.false_ne_true
    rintro ⟨short, ⟨rest, rfl, _⟩ | named⟩
    · rw [List.length_cons] at inside short
      omega
    · have nonempty := List.length_pos_iff.mpr (namesNumber_ne_nil named)
      omega
  · rw [if_neg inside]
    have short : floor.length ≤ 4 := by omega
    split
    · rename_i rest
      rw [show (99 : Int) = (99 : Nat) from rfl, validateNumber_iff]
      constructor
      · intro named
        exact ⟨short, Or.inl ⟨rest, rfl, named⟩⟩
      · rintro ⟨_, ⟨other, same, named⟩ | named⟩
        · cases same
          exact named
        · exact absurd rfl (namesNumber_ground named)
    · rename_i ground
      rw [show (999 : Int) = (999 : Nat) from rfl, validateNumber_iff]
      constructor
      · intro named
        exact ⟨short, Or.inr named⟩
      · rintro ⟨_, ⟨rest, same, _⟩ | named⟩
        · exact absurd same (ground rest)
        · exact named

/-! ### The strings on which they agree -/

theorem unsigned_of_allDigits {digits : List UInt8} (all : AllDigits digits) :
    Unsigned (digits.dropWhile isBlank) digits := by
  have unblanked : digits.dropWhile isBlank = digits :=
    dropWhile_blank_of_solid fun byte first =>
      isSolid_of_isDigit (all.2 byte (List.mem_of_mem_head? first))
  rw [unblanked]
  exact ⟨all.1, all.2, Or.inl rfl⟩

/-- Digits name their own value and no other. -/
theorem namesNumber_digits {highest : Nat} {digits : List UInt8} (all : AllDigits digits) :
    NamesNumber highest digits ↔ 1 ≤ digitsValue digits ∧ digitsValue digits ≤ highest := by
  constructor
  · intro named
    rcases named with ⟨others, spelled, positive, bounded⟩
    have first := (unsigned_of_allDigits all).strtol
    rw [spelled.strtol] at first
    have same : digitsValue others = digitsValue digits := by
      exact_mod_cast (Prod.mk.inj first).1
    rw [← same]
    exact ⟨positive, bounded⟩
  · intro inside
    exact ⟨digits, unsigned_of_allDigits all, inside⟩

/-- What names a number is its digits, behind padding if it is not digits alone. -/
theorem namesNumber_cases {highest : Nat} {text : List UInt8} (named : NamesNumber highest text) :
    ∃ padding digits, IsPadding padding ∧ AllDigits digits ∧ text = padding ++ digits ∧
      1 ≤ digitsValue digits ∧ digitsValue digits ≤ highest := by
  rcases named with ⟨digits, spelled, inside⟩
  have blanks : ∀ byte ∈ text.takeWhile isBlank, isBlank byte = true :=
    fun byte member => List.mem_takeWhile_imp member
  have split := List.takeWhile_append_dropWhile (p := isBlank) (l := text)
  rcases spelled.shape with plain | signed
  · refine ⟨_, digits, ⟨_, blanks, Or.inl rfl⟩, ⟨spelled.nonempty, spelled.allDigits⟩, ?_, inside⟩
    rw [← plain, split]
  · refine ⟨_, digits, ⟨_, blanks, Or.inr rfl⟩, ⟨spelled.nonempty, spelled.allDigits⟩, ?_, inside⟩
    rw [List.append_assoc, List.singleton_append, ← signed, split]

theorem namesNumber_padded {highest : Nat} {padding digits : List UInt8}
    (padded : IsPadding padding) (all : AllDigits digits) (positive : 1 ≤ digitsValue digits)
    (bounded : digitsValue digits ≤ highest) : NamesNumber highest (padding ++ digits) := by
  rcases padded with ⟨blanks, blank, rfl | rfl⟩
  · refine ⟨digits, ?_, positive, bounded⟩
    rw [List.dropWhile_append_of_pos blank]
    exact unsigned_of_allDigits all
  · refine ⟨digits, ?_, positive, bounded⟩
    rw [List.append_assoc, List.dropWhile_append_of_pos blank, List.singleton_append,
      List.dropWhile_cons_of_neg (by decide)]
    exact ⟨all.1, all.2, Or.inr rfl⟩

/-- Padding is no digit, so a padded number is not digits alone. -/
theorem not_allDigits_of_padding {padding digits : List UInt8} (padded : IsPadding padding)
    (nonempty : padding ≠ []) : ¬ AllDigits (padding ++ digits) := by
  intro all
  have digit : ∀ byte ∈ padding, isDigit byte = true :=
    fun byte member => all.2 byte (List.mem_append_left digits member)
  have notBlank {byte : UInt8} (blank : isBlank byte = true) : ¬ isDigit byte = true := by
    intro isIt
    have solid := isSolid_of_isDigit isIt
    simp [isSolid, blank] at solid
  rcases padded with ⟨blanks, blank, rfl | rfl⟩
  · obtain ⟨byte, member⟩ := List.exists_mem_of_ne_nil _ nonempty
    exact notBlank (blank byte member) (digit byte member)
  · exact absurd (digit 43 (List.mem_append_right blanks List.mem_cons_self)) (by decide)

theorem padding_ground {padding digits rest : List UInt8} (padded : IsPadding padding)
    (nonempty : padding ≠ []) : padding ++ digits ≠ 66 :: rest := by
  intro same
  have head : padding.head? = some 66 := by
    cases padding with
    | nil => exact absurd rfl nonempty
    | cons byte more => exact congrArg some (List.cons.inj same).1
  have member := List.mem_of_mem_head? head
  rcases padded with ⟨blanks, blank, rfl | rfl⟩
  · exact absurd (blank 66 member) (by decide)
  · rcases List.mem_append.mp member with inBlanks | plus
    · exact absurd (blank 66 inBlanks) (by decide)
    · exact absurd (List.mem_singleton.mp plus) (by decide)

theorem namesFloor_of_numeric {floor : List UInt8} (short : floor.length ≤ 4)
    (numeric : Numeric floor) (inRange : ¬ OutOfRange floor) : NamesFloor floor := by
  rcases numeric with ⟨digits, nonempty, allDigits, rfl | rfl⟩
  · right
    rw [namesNumber_digits ⟨nonempty, allDigits⟩]
    by_contra outside
    exact inRange ⟨short, floor, ⟨nonempty, allDigits⟩, Or.inl ⟨rfl, outside⟩⟩
  · left
    refine ⟨digits, rfl, ?_⟩
    rw [namesNumber_digits ⟨nonempty, allDigits⟩]
    by_contra outside
    exact inRange ⟨short, digits, ⟨nonempty, allDigits⟩, Or.inr ⟨rfl, outside⟩⟩

theorem numeric_of_namesFloor {floor : List UInt8} (short : floor.length ≤ 4)
    (named : NamesFloor floor) (unpadded : ¬ Padded floor) : Numeric floor := by
  rcases named with ⟨rest, rfl, named⟩ | named
  · obtain ⟨padding, digits, padded, all, rfl, inside⟩ := namesNumber_cases named
    by_cases empty : padding = []
    · subst empty
      exact ⟨digits, all.1, all.2, Or.inr rfl⟩
    · exact absurd ⟨short, padding, digits, empty, padded, all, Or.inr ⟨rfl, inside⟩⟩ unpadded
  · obtain ⟨padding, digits, padded, all, rfl, inside⟩ := namesNumber_cases named
    by_cases empty : padding = []
    · subst empty
      exact ⟨digits, all.1, all.2, Or.inl rfl⟩
    · exact absurd ⟨short, padding, digits, empty, padded, all, Or.inl ⟨rfl, inside⟩⟩ unpadded

theorem OutOfRange.not_namesFloor {floor : List UInt8} (outside : OutOfRange floor) :
    ¬ NamesFloor floor := by
  rcases outside with ⟨_, digits, all, ⟨rfl, outside⟩ | ⟨rfl, outside⟩⟩
  · rintro (⟨rest, rfl, _⟩ | named)
    · exact absurd (all.2 66 List.mem_cons_self) (by decide)
    · exact outside ((namesNumber_digits all).mp named)
  · rintro (⟨rest, same, named⟩ | named)
    · cases same
      exact outside ((namesNumber_digits all).mp named)
    · exact absurd rfl (namesNumber_ground named)

theorem OutOfRange.numeric {floor : List UInt8} (outside : OutOfRange floor) : Numeric floor := by
  rcases outside with ⟨_, digits, all, ⟨rfl, _⟩ | ⟨rfl, _⟩⟩
  · exact ⟨floor, all.1, all.2, Or.inl rfl⟩
  · exact ⟨digits, all.1, all.2, Or.inr rfl⟩

theorem Padded.namesFloor {floor : List UInt8} (padded : Padded floor) : NamesFloor floor := by
  rcases padded with ⟨_, padding, digits, _, padding_, all, ⟨rfl, low, high⟩ | ⟨rfl, low, high⟩⟩
  · exact Or.inr (namesNumber_padded padding_ all low high)
  · exact Or.inl ⟨_, rfl, namesNumber_padded padding_ all low high⟩

theorem Padded.not_numeric {floor : List UInt8} (padded : Padded floor) : ¬ Numeric floor := by
  rcases padded with ⟨_, padding, digits, nonempty, padding_, all, ⟨rfl, _⟩ | ⟨rfl, _⟩⟩
  · rintro ⟨others, othersNonempty, othersAll, same | same⟩
    · rw [← same] at othersNonempty othersAll
      exact not_allDigits_of_padding padding_ nonempty ⟨othersNonempty, othersAll⟩
    · exact padding_ground padding_ nonempty same
  · rintro ⟨others, othersNonempty, othersAll, same | same⟩
    · rw [← same] at othersAll
      exact absurd (othersAll 66 List.mem_cons_self) (by decide)
    · rw [← (List.cons.inj same).2] at othersNonempty othersAll
      exact not_allDigits_of_padding padding_ nonempty ⟨othersNonempty, othersAll⟩

/-- The validators agree on the strings that are neither overlong, nor out of range, nor
padded, and on no others. -/
theorem validators_agree_iff (floor : CString) :
    Agree floor ↔
      ¬ Overlong floor.text ∧ ¬ OutOfRange floor.text ∧ ¬ Padded floor.text := by
  have safety := safety_iff floor.noNul
  have shared := shared_iff floor.text
  constructor
  · intro agree
    have same := (safety.symm.trans agree.same).trans shared
    refine ⟨fun overlong => ?_, fun outside => ?_, fun padded => ?_⟩
    · have short := (same.mp overlong.numeric).1
      exact absurd overlong.long (Nat.not_lt.mpr short)
    · have front : Numeric (floor.text.take 4) := by
        rw [List.take_of_length_le outside.short]
        exact outside.numeric
      exact outside.not_namesFloor (same.mp front).2
    · have front := same.mpr ⟨padded.short, padded.namesFloor⟩
      rw [List.take_of_length_le padded.short] at front
      exact padded.not_numeric front
  · rintro ⟨notOverlong, inRange, unpadded⟩
    have same : Numeric (floor.text.take 4) ↔ floor.text.length ≤ 4 ∧ NamesFloor floor.text := by
      constructor
      · intro front
        have short : floor.text.length ≤ 4 := by
          by_contra long
          exact notOverlong ⟨front, by omega⟩
        rw [List.take_of_length_le short] at front
        exact ⟨short, namesFloor_of_numeric short front inRange⟩
      · rintro ⟨short, named⟩
        rw [List.take_of_length_le short]
        exact numeric_of_namesFloor short named unpadded
    exact
      { same := (safety.trans same).trans shared.symm
        safety := fun accepted => (same.mp (safety.mp accepted)).2
        shared := fun accepted => (shared.mp accepted).2 }

/-- The floor `0`: the monitor accepts it. -/
theorem validators_disagree_zero : ¬ ∀ floor, Agree floor := by
  intro always
  have same := (always ⟨bytes "0", by decide⟩).same
  exact absurd (same.mp (by decide)) (by decide)

end Cab403.Elevator.Validators
