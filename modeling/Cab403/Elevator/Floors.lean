/-
Floors of the lift: the integer arithmetic of `move_floor` in the car and of
`floor_number` in the controller, the string cases of `floor_above` and
`floor_below` in the service tool, and the levels of the building that both are
meant to walk. The building has no level zero.
-/

import Cab403.Library.CDecimal

namespace Cab403.Elevator

open CText CDecimal

def digitFloor (number : Nat) : Token 3 :=
  Token.ofText [digitByte (number % 10)]
    ⟨List.cons_ne_nil _ _,
      by simp [isSolid_of_isDigit (isDigit_digitByte (Nat.mod_lt number (by decide : 10 > 0)))],
      by simp⟩

/-! ### The source's functions -/

def floorNumber (floorStr : List UInt8) : Int :=
  match floorStr with
  | 66 :: rest => -atoi rest
  | _ => atoi floorStr

/-- `floor_str_to_int` in the car, the same body as the controller's `floor_number`. -/
def floorStrToInt (floorStr : CharArray 4) : Int := floorNumber floorStr.text

private theorem basement_noNul (value : Int) : (0 : UInt8) ∉ 66 :: formatInt value := by
  intro member
  rcases List.mem_cons.mp member with same | later
  · exact absurd same (by decide)
  · exact formatInt_noNul value later

def floorIntToStr (floorNum : Int) : CharArray 4 :=
  if floorNum < 0 then CharArray.format 4 (66 :: formatInt (-floorNum)) (basement_noNul _)
  else CharArray.format 4 (formatInt floorNum) (formatInt_noNul _)

def moveFloor (currentFloor destinationFloor : CharArray 4) : CharArray 4 :=
  let current := floorStrToInt currentFloor
  let destination := floorStrToInt destinationFloor
  if current < destination then floorIntToStr (current + 1)
  else if current > destination then floorIntToStr (current - 1)
  else currentFloor

def copyFloor (currentFloor : CharArray 4) : CharArray 4 :=
  CharArray.format 4 currentFloor.text currentFloor.noNul

def floorAbove (currentFloor : CharArray 4) : CharArray 4 :=
  match currentFloor.text with
  | 66 :: rest =>
      let floorNum := atoi rest
      if floorNum = 1 then CharArray.format 4 (formatInt 1) (formatInt_noNul _)
      else CharArray.format 4 (66 :: formatInt (floorNum - 1)) (basement_noNul _)
  | text =>
      let floorNum := atoi text
      if floorNum < 999 then CharArray.format 4 (formatInt (floorNum + 1)) (formatInt_noNul _)
      else copyFloor currentFloor

def floorBelow (currentFloor : CharArray 4) : CharArray 4 :=
  match currentFloor.text with
  | 66 :: rest =>
      let floorNum := atoi rest
      if floorNum < 99 then CharArray.format 4 (66 :: formatInt (floorNum + 1)) (basement_noNul _)
      else copyFloor currentFloor
  | text =>
      let floorNum := atoi text
      if floorNum = 1 then CharArray.format 4 (66 :: formatInt 1) (basement_noNul _)
      else CharArray.format 4 (formatInt (floorNum - 1)) (formatInt_noNul _)

/-! ### Levels of the building -/

/-- A level: `B99` to `B1` are negative, `1` to `999` positive, and none is zero. -/
@[ext] structure Level where
  number : Int
  lowest : -99 ≤ number
  highest : number ≤ 999
  nonzero : number ≠ 0
  deriving DecidableEq

namespace Level

def label (level : Level) : List UInt8 :=
  if level.number < 0 then 66 :: decimal level.number.natAbs else decimal level.number.natAbs

def above (level : Level) : Level :=
  if top : level.number = 999 then level
  else if ground : level.number = -1 then
    { number := 1, lowest := by decide, highest := by decide, nonzero := by decide }
  else
    { number := level.number + 1
      lowest := by have := level.lowest; omega
      highest := by have := level.highest; omega
      nonzero := by omega }

def below (level : Level) : Level :=
  if bottom : level.number = -99 then level
  else if ground : level.number = 1 then
    { number := -1, lowest := by decide, highest := by decide, nonzero := by decide }
  else
    { number := level.number - 1
      lowest := by have := level.lowest; omega
      highest := by have := level.highest; omega
      nonzero := by omega }

end Level

def ValidFloor (floor : CharArray 4) : Prop := ∃ level : Level, floor.text = level.label

/-! ### The number range of a floor field -/

theorem floorNumber_eq_atoi {text : List UInt8} (ground : text.head? ≠ some 66) :
    floorNumber text = atoi text := by
  unfold floorNumber
  split
  · exact absurd rfl ground
  · rfl

theorem floorStrToInt_bounds {floor : CharArray 4} (terminated : floor.Terminated) :
    -99 ≤ floorStrToInt floor ∧ floorStrToInt floor ≤ 999 := by
  have short : floor.text.length ≤ 3 := by
    unfold CharArray.Terminated at terminated
    omega
  unfold floorStrToInt floorNumber
  split
  · rename_i rest shape
    have fits : rest.length ≤ 1 + 1 := by
      rw [shape, List.length_cons] at short
      omega
    have bounds := atoi_bounds 1 fits
    norm_num at bounds
    omega
  · have bounds := atoi_bounds 2 short
    norm_num at bounds
    omega

theorem decimal_head_ne_basement (value : Nat) : (decimal value).head? ≠ some 66 := by
  intro basement
  exact absurd (decimal_isDigit value 66 (List.mem_of_head? basement)) (by decide)

theorem decimal_snprintf {value : Nat} (small : value < 1000) :
    snprintf 4 (decimal value) = decimal value := by
  apply snprintf_of_fits
  have length := decimal_length_le 3 (by decide) small
  omega

theorem basement_snprintf {value : Nat} (small : value < 100) :
    snprintf 4 (66 :: decimal value) = 66 :: decimal value := by
  apply snprintf_of_fits
  have length := decimal_length_le 2 (by decide) small
  rw [List.length_cons]
  omega

theorem floorIntToStr_text_of_nonneg (value : Nat) (small : value < 1000) :
    (floorIntToStr value).text = decimal value := by
  simp only [floorIntToStr, if_neg (show ¬ (value : Int) < 0 by omega), CharArray.format_text,
    formatInt_natCast, decimal_snprintf small]

theorem floorIntToStr_text_of_neg (value : Nat) (positive : 0 < value) (small : value < 100) :
    (floorIntToStr (-(value : Int))).text = 66 :: decimal value := by
  simp only [floorIntToStr, if_pos (show -(value : Int) < 0 by omega), CharArray.format_text,
    neg_neg, formatInt_natCast, basement_snprintf small]

theorem floorStrToInt_floorIntToStr {number : Int} (low : -99 ≤ number) (high : number ≤ 999) :
    floorStrToInt (floorIntToStr number) = number := by
  by_cases basement : number < 0
  · obtain ⟨value, rfl⟩ : ∃ value : Nat, number = -(value : Int) :=
      ⟨number.natAbs, by omega⟩
    have text := floorIntToStr_text_of_neg value (by omega) (by omega)
    simp only [floorStrToInt, text, floorNumber, atoi_decimal]
  · obtain ⟨value, rfl⟩ : ∃ value : Nat, number = (value : Int) := ⟨number.natAbs, by omega⟩
    have text := floorIntToStr_text_of_nonneg value (by omega)
    rw [floorStrToInt, text, floorNumber_eq_atoi (decimal_head_ne_basement value), atoi_decimal]

theorem floorIntToStr_terminated (number : Int) : (floorIntToStr number).Terminated := by
  unfold floorIntToStr
  split <;> exact CharArray.format_terminated (by decide) _ _

theorem floorAbove_terminated (floor : CharArray 4) : (floorAbove floor).Terminated := by
  unfold floorAbove
  dsimp only
  split
  · split <;> exact CharArray.format_terminated (by decide) _ _
  · split <;> exact CharArray.format_terminated (by decide) _ _

theorem floorBelow_terminated (floor : CharArray 4) : (floorBelow floor).Terminated := by
  unfold floorBelow
  dsimp only
  split
  · split <;> exact CharArray.format_terminated (by decide) _ _
  · split <;> exact CharArray.format_terminated (by decide) _ _

theorem moveFloor_terminated {current destination : CharArray 4}
    (terminated : current.Terminated) : (moveFloor current destination).Terminated := by
  unfold moveFloor
  dsimp only
  split
  · exact floorIntToStr_terminated _
  · split
    · exact floorIntToStr_terminated _
    · exact terminated

/-- `move_floor` changes the floor number by at most one, on any two terminated fields. -/
theorem moveFloor_number {current destination : CharArray 4}
    (currentTerminated : current.Terminated) (destinationTerminated : destination.Terminated) :
    (floorStrToInt (moveFloor current destination) - floorStrToInt current).natAbs ≤ 1 := by
  have currentBounds := floorStrToInt_bounds currentTerminated
  have destinationBounds := floorStrToInt_bounds destinationTerminated
  unfold moveFloor
  dsimp only
  split
  · rw [floorStrToInt_floorIntToStr (by omega) (by omega)]
    omega
  · split
    · rw [floorStrToInt_floorIntToStr (by omega) (by omega)]
      omega
    · omega

/-! ### The two notions of the next floor -/

theorem Level.label_of_nonneg {level : Level} {value : Nat} (number : level.number = value) :
    level.label = decimal value := by
  simp only [Level.label, number, if_neg (show ¬ (value : Int) < 0 by omega), Int.natAbs_natCast]

theorem Level.label_of_neg {level : Level} {value : Nat} (positive : 0 < value)
    (number : level.number = -(value : Int)) : level.label = 66 :: decimal value := by
  simp only [Level.label, number, if_pos (show -(value : Int) < 0 by omega), Int.natAbs_neg,
    Int.natAbs_natCast]

theorem Level.cases (level : Level) :
    (∃ value : Nat, 1 ≤ value ∧ value ≤ 99 ∧ level.number = -(value : Int) ∧
        level.label = 66 :: decimal value) ∨
      (∃ value : Nat, 1 ≤ value ∧ value ≤ 999 ∧ level.number = (value : Int) ∧
        level.label = decimal value) := by
  have low := level.lowest
  have high := level.highest
  have nonzero := level.nonzero
  by_cases basement : level.number < 0
  · have number : level.number = -(level.number.natAbs : Int) := by omega
    exact Or.inl ⟨level.number.natAbs, by omega, by omega, number,
      Level.label_of_neg (by omega) number⟩
  · have number : level.number = (level.number.natAbs : Int) := by omega
    exact Or.inr ⟨level.number.natAbs, by omega, by omega, number, Level.label_of_nonneg number⟩

theorem floorNumber_label (level : Level) : floorNumber level.label = level.number := by
  rcases level.cases with ⟨value, _, _, number, label⟩ | ⟨value, _, _, number, label⟩
  · rw [label, number]
    simp only [floorNumber, atoi_decimal]
  · rw [label, number, floorNumber_eq_atoi (decimal_head_ne_basement value), atoi_decimal]

theorem floorStrToInt_of_label {floor : CharArray 4} {level : Level}
    (text : floor.text = level.label) : floorStrToInt floor = level.number := by
  rw [floorStrToInt, text, floorNumber_label]

theorem floorIntToStr_label (level : Level) : (floorIntToStr level.number).text = level.label := by
  rcases level.cases with ⟨value, low, high, number, label⟩ | ⟨value, low, high, number, label⟩
  · rw [number, label, floorIntToStr_text_of_neg value (by omega) (by omega)]
  · rw [number, label, floorIntToStr_text_of_nonneg value (by omega)]

/-- The levels are the numbers that survive being parsed and printed again. -/
theorem validFloor_iff (floor : CharArray 4) :
    ValidFloor floor ↔
      (-99 ≤ floorStrToInt floor ∧ floorStrToInt floor ≤ 999 ∧ floorStrToInt floor ≠ 0) ∧
        floorIntToStr (floorStrToInt floor) = floor := by
  constructor
  · intro valid
    rcases valid with ⟨level, text⟩
    rw [floorStrToInt_of_label text]
    refine ⟨⟨level.lowest, level.highest, level.nonzero⟩, CharArray.text_injective ?_⟩
    rw [floorIntToStr_label, text]
  · intro survives
    rcases survives with ⟨⟨lowest, highest, nonzero⟩, printed⟩
    refine ⟨⟨floorStrToInt floor, lowest, highest, nonzero⟩, ?_⟩
    rw [← floorIntToStr_label, printed]

instance (floor : CharArray 4) : Decidable (ValidFloor floor) :=
  decidable_of_iff' _ (validFloor_iff floor)

theorem Level.above_number (level : Level) (below : level.number < 999)
    (notGround : level.number ≠ -1) : level.above.number = level.number + 1 := by
  simp only [Level.above, dif_neg (show level.number ≠ 999 by omega), dif_neg notGround]

theorem Level.below_number (level : Level) (above : -99 < level.number)
    (notGround : level.number ≠ 1) : level.below.number = level.number - 1 := by
  simp only [Level.below, dif_neg (show level.number ≠ -99 by omega), dif_neg notGround]

private theorem decimal_cases_ne_basement {value : Nat} {rest : List UInt8} :
    decimal value ≠ 66 :: rest := by
  intro shape
  exact decimal_head_ne_basement value (by rw [shape]; rfl)

theorem floorAbove_label {floor : CharArray 4} {level : Level} (text : floor.text = level.label) :
    (floorAbove floor).text = level.above.label := by
  rcases level.cases with ⟨value, low, high, number, label⟩ | ⟨value, low, high, number, label⟩
  · rw [label] at text
    simp only [floorAbove, text, atoi_decimal]
    by_cases ground : value = 1
    · subst ground
      have next : level.above.number = ((1 : Nat) : Int) := by
        simp only [Level.above, number]
        rfl
      rw [Level.label_of_nonneg next]
      rfl
    · have next : level.above.number = -((value - 1 : Nat) : Int) := by
        rw [Level.above_number level (by omega) (by omega), number]
        omega
      rw [if_neg (by omega), Level.label_of_neg (by omega) next, CharArray.format_text,
        show (value : Int) - 1 = ((value - 1 : Nat) : Int) by omega, formatInt_natCast,
        basement_snprintf (by omega)]
  · rw [label] at text
    have ground : ∀ rest, floor.text ≠ 66 :: rest := by
      intro rest
      rw [text]
      exact decimal_cases_ne_basement
    unfold floorAbove
    split
    · rename_i rest shape
      exact absurd shape (ground rest)
    · simp only [text, atoi_decimal]
      by_cases top : value = 999
      · subst top
        have next : level.above = level := by
          simp only [Level.above, number]
          rfl
        rw [if_neg (by omega), next, label, copyFloor, CharArray.format_text, text,
          decimal_snprintf (by omega)]
      · have next : level.above.number = ((value + 1 : Nat) : Int) := by
          rw [Level.above_number level (by omega) (by omega), number]
          omega
        rw [if_pos (by omega), Level.label_of_nonneg next, CharArray.format_text,
          show (value : Int) + 1 = ((value + 1 : Nat) : Int) by omega, formatInt_natCast,
          decimal_snprintf (by omega)]

theorem floorBelow_label {floor : CharArray 4} {level : Level} (text : floor.text = level.label) :
    (floorBelow floor).text = level.below.label := by
  rcases level.cases with ⟨value, low, high, number, label⟩ | ⟨value, low, high, number, label⟩
  · rw [label] at text
    simp only [floorBelow, text, atoi_decimal]
    by_cases bottom : value = 99
    · subst bottom
      have next : level.below = level := by
        simp only [Level.below, number]
        rfl
      rw [if_neg (by omega), next, label, copyFloor, CharArray.format_text, text,
        basement_snprintf (by omega)]
    · have next : level.below.number = -((value + 1 : Nat) : Int) := by
        rw [Level.below_number level (by omega) (by omega), number]
        omega
      rw [if_pos (by omega), Level.label_of_neg (by omega) next, CharArray.format_text,
        show (value : Int) + 1 = ((value + 1 : Nat) : Int) by omega, formatInt_natCast,
        basement_snprintf (by omega)]
  · rw [label] at text
    have ground : ∀ rest, floor.text ≠ 66 :: rest := by
      intro rest
      rw [text]
      exact decimal_cases_ne_basement
    unfold floorBelow
    split
    · rename_i rest shape
      exact absurd shape (ground rest)
    · simp only [text, atoi_decimal]
      by_cases first : value = 1
      · subst first
        have next : level.below.number = -((1 : Nat) : Int) := by
          simp only [Level.below, number]
          rfl
        rw [Level.label_of_neg (by omega) next]
        rfl
      · have next : level.below.number = ((value - 1 : Nat) : Int) := by
          rw [Level.below_number level (by omega) (by omega), number]
          omega
        rw [if_neg (by omega), Level.label_of_nonneg next, CharArray.format_text,
          show (value : Int) - 1 = ((value - 1 : Nat) : Int) by omega, formatInt_natCast,
          decimal_snprintf (by omega)]

theorem validFloor_floorAbove {floor : CharArray 4} (valid : ValidFloor floor) :
    ValidFloor (floorAbove floor) := by
  obtain ⟨level, text⟩ := valid
  exact ⟨level.above, floorAbove_label text⟩

theorem validFloor_floorBelow {floor : CharArray 4} (valid : ValidFloor floor) :
    ValidFloor (floorBelow floor) := by
  obtain ⟨level, text⟩ := valid
  exact ⟨level.below, floorBelow_label text⟩

/-- The step of `move_floor` that lands between `B1` and `1`: leaving `B1`
upwards or `1` downwards. -/
def CrossesGround (current destination : CharArray 4) : Prop :=
  (floorStrToInt current = -1 ∧ -1 < floorStrToInt destination) ∨
    (floorStrToInt current = 1 ∧ floorStrToInt destination < 1)

instance (current destination : CharArray 4) : Decidable (CrossesGround current destination) :=
  inferInstanceAs (Decidable (_ ∨ _))

/-- Away from the ground boundary the car's integer arithmetic and the service
tool's string cases name the same next floor. -/
theorem moveFloor_of_not_crossesGround {current destination : CharArray 4}
    (currentValid : ValidFloor current) (destinationValid : ValidFloor destination)
    (away : ¬ CrossesGround current destination) :
    moveFloor current destination = current ∨
      moveFloor current destination = floorAbove current ∨
      moveFloor current destination = floorBelow current := by
  obtain ⟨level, text⟩ := currentValid
  obtain ⟨target, targetText⟩ := destinationValid
  have number := floorStrToInt_of_label text
  have targetNumber := floorStrToInt_of_label targetText
  have low := target.lowest
  have high := target.highest
  simp only [CrossesGround, number, targetNumber, not_or, not_and] at away
  simp only [moveFloor, number, targetNumber]
  split
  · rename_i rising
    have next : level.above.number = level.number + 1 :=
      Level.above_number level (by omega) (fun ground => away.1 ground (by omega))
    refine Or.inr (Or.inl (CharArray.text_injective ?_))
    rw [floorAbove_label text, ← next, floorIntToStr_label]
  · split
    · rename_i falling
      have next : level.below.number = level.number - 1 :=
        Level.below_number level (by omega) (fun ground => away.2 ground (by omega))
      refine Or.inr (Or.inr (CharArray.text_injective ?_))
      rw [floorBelow_label text, ← next, floorIntToStr_label]
    · exact Or.inl rfl

/-- At the boundary `move_floor` stores the floor string `0`, which names no level. -/
theorem moveFloor_of_crossesGround {current destination : CharArray 4}
    (crosses : CrossesGround current destination) :
    ¬ ValidFloor (moveFloor current destination) := by
  have stored : moveFloor current destination = floorIntToStr 0 := by
    rcases crosses with ⟨ground, rising⟩ | ⟨ground, falling⟩
    · simp only [moveFloor, ground, if_pos rising]
      rfl
    · simp only [moveFloor, ground, if_neg (show ¬ (1 : Int) < floorStrToInt destination by omega),
        if_pos (show (1 : Int) > floorStrToInt destination by omega)]
      rfl
  intro valid
  rcases valid with ⟨level, text⟩
  have number := floorStrToInt_of_label text
  rw [stored, floorStrToInt_floorIntToStr (by decide) (by decide)] at number
  exact level.nonzero number.symm

end Cab403.Elevator
