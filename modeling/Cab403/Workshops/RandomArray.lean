/-
The random numbers that shm_reverse_array.c shares with its child, and the parsers of
ancillary_functions.c in front of them. The arithmetic on int and the accesses to the
mapped bytes can go wrong; a run ends with the first thing that does.
-/

import Cab403.Library.CBuffer
import Cab403.Library.CDecimal
import Mathlib.Algebra.Order.Ring.Int

namespace Cab403.Workshops.RandomArray

open CText CBuffer CDecimal

def INT_MAX : Int := 2147483647
def INT_MIN : Int := -2147483648
def LONG_MAX : Int := 9223372036854775807
def LONG_MIN : Int := -9223372036854775808

/-! ### The arguments -/

/-- 1 for an invalid name. -/
def checkShMemName (name : CString) : Nat :=
  if charAt name.text 0 ≠ 47 ∨ name.strlen = 1 then 1 else 0

/-- 1 for a text that has a byte that is not a digit. -/
def isNumber : List UInt8 → Nat
  | [] => 0
  | byte :: rest => if isDigit byte then isNumber rest else 1

/-- The value of `strtol`, which is cut at the limits of `long`. -/
def toLong (exact : Int) : Int :=
  if LONG_MAX < exact then LONG_MAX else if exact < LONG_MIN then LONG_MIN else exact

/-- `charToInt`, with what it leaves in `out`. -/
def charToInt (value : List UInt8) : Option Int :=
  let (exact, rest) := strtol value
  let val := toLong exact
  if rest.length = value.length then none
  else if rest ≠ [] then none
  else if val ≠ exact ∧ (val = LONG_MAX ∨ val = LONG_MIN) then none
  else if val > INT_MAX ∨ val < INT_MIN then none
  else some val

structure Arguments where
  name : CString
  lowerRange : Int
  upperRange : Int
  count : Int

def usage (program : CString) : List UInt8 :=
  bytes "usage: " ++ program.text ++ bytes " shm_name lower_range upper_range count\n"

def checkNumber (program : CString) (field : List UInt8) (value : CString) :
    Except (List UInt8) Unit :=
  if isNumber value.text ≠ 0 then
    .error (bytes "Invalid " ++ field ++ bytes ": " ++ value.text ++
      bytes " (should be an integer)\n" ++ usage program)
  else .ok ()

def convert (field : List UInt8) (value : CString) : Except (List UInt8) Int :=
  match charToInt value.text with
  | none => .error (bytes "Error converting " ++ field ++ bytes " to int\n")
  | some out => .ok out

/-- `main` as far as the arguments behind `argv[0]`: what it takes them for, or what it
writes to `stderr`. -/
def arguments (program : CString) (argv : List CString) : Except (List UInt8) Arguments :=
  match argv with
  | [name, lower, upper, number] =>
      if checkShMemName name ≠ 0 then
        .error (bytes "Invalid shm_name: " ++ name.text ++ bytes "\n" ++ usage program)
      else do
        checkNumber program (bytes "lower_range") lower
        checkNumber program (bytes "upper_range") upper
        checkNumber program (bytes "count") number
        let lowerRange ← convert (bytes "lower_range") lower
        let upperRange ← convert (bytes "upper_range") upper
        let count ← convert (bytes "count") number
        return { name, lowerRange, upperRange, count }
  | _ => .error (usage program)

/-! ### The numbers -/

/-- What is left to the library: whether `malloc` finds memory, and the results of `rand`. -/
structure Surroundings where
  malloc : Bool
  rand : Nat → Int
  randRange : ∀ call, 0 ≤ rand call ∧ rand call ≤ INT_MAX

/-- Division by zero or overflow of an int, and an access behind the shared bytes. -/
inductive Fault where
  | arithmetic
  | outside
  deriving DecidableEq

def intResult (value : Int) : Except Fault Int :=
  if INT_MIN ≤ value ∧ value ≤ INT_MAX then .ok value else .error .arithmetic

def intRemainder (left right : Int) : Except Fault Int :=
  if right = 0 then .error .arithmetic else intResult (left.tmod right)

def randomNumber (rand lowerRange upperRange : Int) : Except Fault Int := do
  let difference ← intResult (upperRange - lowerRange)
  let modulus ← intResult (difference + 1)
  let remainder ← intRemainder rand modulus
  intResult (remainder + lowerRange)

def randomNumbers (surroundings : Surroundings) (lowerRange upperRange : Int) :
    Nat → Nat → Except Fault (List Int)
  | _, 0 => .ok []
  | i, remaining + 1 => do
      let number ← randomNumber (surroundings.rand i) lowerRange upperRange
      let later ← randomNumbers surroundings lowerRange upperRange (i + 1) remaining
      return number :: later

def genRandomIntegerNumbers (surroundings : Surroundings) (lowerRange upperRange count : Int) :
    Except Fault (Option (List Int)) :=
  if surroundings.malloc then
    (randomNumbers surroundings lowerRange upperRange 0 count.toNat).map some
  else .ok none

/-! ### The shared memory -/

def SIZEOF_INT : Nat := 4

/-- Without the flexible array at its end. -/
def SIZEOF_DATA_SHARE : Nat := 4

/-- `data_share_t` in the bytes of the object and of the mapping. -/
structure Shared where
  sized : Nat
  mapped : Nat
  arrSize : Int
  arrayData : Nat → Int

/-- The bytes `ftruncate` is asked for, as a `size_t`. -/
def createSharedMemoryObject (arrSize : Int) : Nat :=
  ((SIZEOF_DATA_SHARE + arrSize) % 18446744073709551616).toNat

def mapSHMObject (arrSize : Int) : Nat :=
  ((SIZEOF_DATA_SHARE + arrSize) % 18446744073709551616).toNat

/-- The memory after `data->arrSize = count`. An object that existed keeps its numbers. -/
def shared (count : Int) (arrayData : Nat → Int) : Shared :=
  { sized := createSharedMemoryObject count
    mapped := mapSHMObject count
    arrSize := count
    arrayData := arrayData }

def Shared.Within (data : Shared) (i : Nat) : Prop :=
  SIZEOF_DATA_SHARE + (i + 1) * SIZEOF_INT ≤ data.sized ∧
    SIZEOF_DATA_SHARE + (i + 1) * SIZEOF_INT ≤ data.mapped

instance (data : Shared) (i : Nat) : Decidable (data.Within i) :=
  inferInstanceAs (Decidable (_ ∧ _))

def readElements (data : Shared) : Nat → Nat → Except Fault (List Int)
  | _, 0 => .ok []
  | i, remaining + 1 =>
      if data.Within i then (readElements data (i + 1) remaining).map (data.arrayData i :: ·)
      else .error .outside

def writeElements (data : Shared) (i : Nat) : List Int → Except Fault Shared
  | [] => .ok data
  | number :: rest =>
      if data.Within i then
        writeElements { data with arrayData := Function.update data.arrayData i number } (i + 1)
          rest
      else .error .outside

def compareA (val1 val2 : Int) : Int := val1 - val2

def compareB (val1 val2 : Int) : Int := val2 - val1

def qsort (data : Shared) (compare : Int → Int → Int) : Except Fault Shared :=
  if data.arrSize.toNat ≤ 1 then .ok data
  else do
    let numbers ← readElements data 0 data.arrSize.toNat
    writeElements data 0 (numbers.mergeSort fun left right => compare left right ≤ 0)

def printArray (narr : List UInt8) (data : Shared) : Except Fault (List UInt8) :=
  (readElements data 0 data.arrSize.toNat).map fun numbers =>
    bytes "\nValues in the array\n" ++ narr ++ bytes " " ++
      (numbers.flatMap fun number => formatInt number ++ bytes " ") ++ bytes "\n"

/-- The child of `main`: what it prints, or its message if it has no numbers. -/
def child (surroundings : Surroundings) (accepted : Arguments) (data : Shared) :
    Except Fault (List UInt8) := do
  match ← genRandomIntegerNumbers surroundings accepted.lowerRange accepted.upperRange
      accepted.count with
  | none => return bytes "Failed to generate random numbers\n"
  | some numbers =>
      let copied ← writeElements data 0 numbers
      let original ← printArray (bytes "Child Operation: Original sequence: ") copied
      let sorted ← qsort copied compareA
      let ascending ← printArray (bytes "Child Operation: Sorted sequence ASC: ") sorted
      return original ++ ascending

/-- The parent of `main` behind `wait`, with what the child has left in the memory. -/
def parent (data : Shared) : Except Fault (List UInt8) := do
  let current ← printArray (bytes "Parent Operation: Current sequence: ") data
  let sorted ← qsort data compareB
  let descending ← printArray (bytes "Parent Operation: Sorted sequence DEC: ") sorted
  return current ++ descending

/-! ### What main accepts -/

theorem bind_ok {Error Value Result : Type} {value : Except Error Value}
    {next : Value → Except Error Result} {result : Result}
    (ran : value >>= next = .ok result) :
    ∃ middle, value = .ok middle ∧ next middle = .ok result := by
  cases value with
  | error error => cases ran
  | ok middle => exact ⟨middle, rfl, ran⟩

theorem ok_bind {Error Value Result : Type} (value : Value)
    (next : Value → Except Error Result) :
    ((.ok value : Except Error Value) >>= next) = next value := rfl

theorem isNumber_eq_zero {value : List UInt8} (checked : isNumber value = 0) :
    ∀ byte ∈ value, isDigit byte = true := by
  induction value with
  | nil => exact fun byte member => absurd member List.not_mem_nil
  | cons first rest ih =>
      unfold isNumber at checked
      split at checked
      · rename_i digit
        intro byte member
        rcases List.mem_cons.mp member with rfl | later
        · exact digit
        · exact ih checked byte later
      · cases checked

/-- Behind both parsers there are the values of `int` from zero on. -/
theorem charToInt_bounds {value : List UInt8} {out : Int} (checked : isNumber value = 0)
    (converted : charToInt value = some out) : 0 ≤ out ∧ out ≤ INT_MAX := by
  have allDigits := isNumber_eq_zero checked
  by_cases empty : value = []
  · subst empty
    cases converted
  · unfold charToInt at converted
    rw [strtol_digits empty allDigits] at converted
    dsimp only at converted
    split at converted
    · cases converted
    split at converted
    · cases converted
    split at converted
    · cases converted
    split at converted
    · cases converted
    · rename_i inRange
      cases converted
      constructor
      · unfold toLong
        split
        · decide
        · split
          · rename_i low
            exact absurd (Int.natCast_nonneg (digitsValue value)) (Int.not_le.mpr
              (Int.lt_trans low (by decide)))
          · exact Int.natCast_nonneg _
      · exact Int.not_lt.mp fun large => inRange (.inl large)

theorem checkNumber_ok {program value : CString} {field : List UInt8}
    (checked : checkNumber program field value = .ok ()) : isNumber value.text = 0 := by
  unfold checkNumber at checked
  split at checked
  · cases checked
  · rename_i digits
    exact Decidable.not_not.mp digits

theorem convert_ok {value : CString} {field : List UInt8} {out : Int}
    (converted : convert field value = .ok out) : charToInt value.text = some out := by
  unfold convert at converted
  split at converted
  · cases converted
  · rename_i same
    cases converted
    exact same

structure Accepted (accepted : Arguments) : Prop where
  lowerRange : 0 ≤ accepted.lowerRange ∧ accepted.lowerRange ≤ INT_MAX
  upperRange : 0 ≤ accepted.upperRange ∧ accepted.upperRange ≤ INT_MAX
  count : 0 ≤ accepted.count ∧ accepted.count ≤ INT_MAX

theorem arguments_accepted {program : CString} {argv : List CString} {accepted : Arguments}
    (parsed : arguments program argv = .ok accepted) : Accepted accepted := by
  unfold arguments at parsed
  split at parsed
  · rename_i name lower upper number
    split at parsed
    · cases parsed
    · obtain ⟨_, lowerDigits, parsed⟩ := bind_ok parsed
      obtain ⟨_, upperDigits, parsed⟩ := bind_ok parsed
      obtain ⟨_, numberDigits, parsed⟩ := bind_ok parsed
      obtain ⟨lowerRange, lowerValue, parsed⟩ := bind_ok parsed
      obtain ⟨upperRange, upperValue, parsed⟩ := bind_ok parsed
      obtain ⟨count, numberValue, parsed⟩ := bind_ok parsed
      cases parsed
      constructor
      case lowerRange => exact charToInt_bounds (checkNumber_ok lowerDigits) (convert_ok lowerValue)
      case upperRange => exact charToInt_bounds (checkNumber_ok upperDigits) (convert_ok upperValue)
      case count => exact charToInt_bounds (checkNumber_ok numberDigits) (convert_ok numberValue)
  · cases parsed

/-! ### The generator -/

theorem intResult_ok {value result : Int} (ran : intResult value = .ok result) :
    result = value ∧ value ≤ INT_MAX := by
  unfold intResult at ran
  split at ran
  · rename_i inRange
    cases ran
    exact ⟨rfl, inRange.2⟩
  · cases ran

theorem intResult_of_range {value : Int} (low : INT_MIN ≤ value) (high : value ≤ INT_MAX) :
    intResult value = .ok value :=
  if_pos ⟨low, high⟩

/-- A number comes from a span that is an int and not zero. -/
theorem randomNumber_ok {rand lowerRange upperRange number : Int}
    (ran : randomNumber rand lowerRange upperRange = .ok number) :
    upperRange - lowerRange + 1 ≤ INT_MAX ∧
      number = rand.tmod (upperRange - lowerRange + 1) + lowerRange := by
  obtain ⟨difference, subtracted, ran⟩ := bind_ok ran
  obtain ⟨modulus, added, ran⟩ := bind_ok ran
  obtain ⟨remainder, divided, ran⟩ := bind_ok ran
  obtain ⟨rfl, _⟩ := intResult_ok subtracted
  obtain ⟨rfl, high⟩ := intResult_ok added
  unfold intRemainder at divided
  split at divided
  · cases divided
  · obtain ⟨rfl, _⟩ := intResult_ok divided
    exact ⟨high, (intResult_ok ran).1⟩

theorem randomNumber_between {rand lowerRange upperRange : Int} (positive : 0 ≤ rand)
    (low : 0 ≤ lowerRange) (high : upperRange ≤ INT_MAX) (ordered : lowerRange ≤ upperRange)
    (narrow : upperRange - lowerRange < INT_MAX) :
    ∃ number, randomNumber rand lowerRange upperRange = .ok number ∧
      lowerRange ≤ number ∧ number ≤ upperRange := by
  have nonnegative := Int.tmod_nonneg (upperRange - lowerRange + 1) positive
  have small := Int.tmod_lt_of_pos rand (show 0 < upperRange - lowerRange + 1 by omega)
  have limits : INT_MIN ≤ 0 := by decide
  refine ⟨rand.tmod (upperRange - lowerRange + 1) + lowerRange, ?_, by omega, by omega⟩
  unfold randomNumber intRemainder
  rw [intResult_of_range (by omega) (by omega), ok_bind,
    intResult_of_range (by omega) (by omega), ok_bind, if_neg (by omega),
    intResult_of_range (by omega) (by omega), ok_bind,
    intResult_of_range (by omega) (by omega)]

def Generates (accepted : Arguments) : Prop :=
  ∀ surroundings : Surroundings, ∃ numbers,
    genRandomIntegerNumbers surroundings accepted.lowerRange accepted.upperRange accepted.count =
        .ok numbers ∧
      ∀ list ∈ numbers, ∀ number ∈ list,
        accepted.lowerRange ≤ number ∧ number ≤ accepted.upperRange

theorem randomNumbers_between (surroundings : Surroundings) {lowerRange upperRange : Int}
    (low : 0 ≤ lowerRange) (high : upperRange ≤ INT_MAX) (ordered : lowerRange ≤ upperRange)
    (narrow : upperRange - lowerRange < INT_MAX) (i remaining : Nat) :
    ∃ numbers, randomNumbers surroundings lowerRange upperRange i remaining = .ok numbers ∧
      ∀ number ∈ numbers, lowerRange ≤ number ∧ number ≤ upperRange := by
  induction remaining generalizing i with
  | zero => exact ⟨[], rfl, fun number member => absurd member List.not_mem_nil⟩
  | succ remaining ih =>
      obtain ⟨number, drawn, between⟩ :=
        randomNumber_between (surroundings.randRange i).1 low high ordered narrow
      obtain ⟨later, ran, laterBetween⟩ := ih (i + 1)
      refine ⟨number :: later, ?_, ?_⟩
      · unfold randomNumbers
        rw [drawn, ok_bind, ran, ok_bind]
        rfl
      · intro other member
        rcases List.mem_cons.mp member with rfl | member
        · exact between
        · exact laterBetween other member

theorem randomNumbers_cons {surroundings : Surroundings} {lowerRange upperRange : Int}
    {i remaining : Nat} {numbers : List Int}
    (ran : randomNumbers surroundings lowerRange upperRange i (remaining + 1) = .ok numbers) :
    ∃ number ∈ numbers,
      randomNumber (surroundings.rand i) lowerRange upperRange = .ok number := by
  obtain ⟨number, drawn, ran⟩ := bind_ok ran
  obtain ⟨later, _, ran⟩ := bind_ok ran
  cases ran
  exact ⟨number, List.mem_cons_self, drawn⟩

def zeros : Surroundings :=
  { malloc := true
    rand := fun _ => 0
    randRange := fun _ => by decide }

/-- Zeros are enough to see what the range has to be. -/
theorem Generates.range {accepted : Arguments} (generates : Generates accepted)
    (positive : 0 < accepted.count) :
    accepted.lowerRange ≤ accepted.upperRange ∧
      accepted.upperRange - accepted.lowerRange < INT_MAX := by
  obtain ⟨numbers, generated, between⟩ := generates zeros
  obtain ⟨remaining, counted⟩ := Nat.exists_eq_succ_of_ne_zero
    (show accepted.count.toNat ≠ 0 by omega)
  unfold genRandomIntegerNumbers at generated
  rw [if_pos (show zeros.malloc = true from rfl), counted] at generated
  cases ran : randomNumbers zeros accepted.lowerRange accepted.upperRange 0 (remaining + 1) with
  | error fault =>
      rw [ran] at generated
      cases generated
  | ok list =>
      rw [ran] at generated
      cases generated
      obtain ⟨number, member, drawn⟩ := randomNumbers_cons ran
      obtain ⟨small, same⟩ := randomNumber_ok drawn
      have inRange := between list rfl number member
      have zero : number = accepted.lowerRange := by
        rw [same]
        change (0 : Int).tmod _ + _ = _
        rw [Int.zero_tmod, Int.zero_add]
      omega

theorem generates_of_randomNumbers {accepted : Arguments}
    (ran : ∀ surroundings, ∃ numbers,
      randomNumbers surroundings accepted.lowerRange accepted.upperRange 0
          accepted.count.toNat = .ok numbers ∧
        ∀ number ∈ numbers, accepted.lowerRange ≤ number ∧ number ≤ accepted.upperRange) :
    Generates accepted := by
  intro surroundings
  unfold genRandomIntegerNumbers
  cases surroundings.malloc with
  | false => exact ⟨none, rfl, fun list member => nomatch member⟩
  | true =>
      obtain ⟨numbers, drawn, between⟩ := ran surroundings
      refine ⟨some numbers, ?_, ?_⟩
      · rw [if_pos rfl, drawn]
        rfl
      · intro list member
        cases member
        exact between

theorem generates_iff {accepted : Arguments} (bounds : Accepted accepted) :
    Generates accepted ↔
      accepted.count = 0 ∨
        (accepted.lowerRange ≤ accepted.upperRange ∧
          accepted.upperRange - accepted.lowerRange < INT_MAX) := by
  constructor
  · intro generates
    by_cases nothing : accepted.count = 0
    · exact .inl nothing
    · have low := bounds.count.1
      exact .inr (generates.range (by omega))
  · intro condition
    apply generates_of_randomNumbers
    intro surroundings
    rcases condition with nothing | ⟨ordered, narrow⟩
    · rw [nothing]
      exact ⟨[], rfl, fun number member => absurd member List.not_mem_nil⟩
    · exact randomNumbers_between surroundings bounds.lowerRange.1 bounds.upperRange.2
        ordered narrow 0 _

/-! ### The bytes -/

/-- Neither process touches an element behind the bytes, whatever numbers there are before. -/
def TouchesWithin (accepted : Arguments) : Prop :=
  ∀ (surroundings : Surroundings) (arrayData : Nat → Int),
    child surroundings accepted (shared accepted.count arrayData) ≠ .error .outside ∧
      parent (shared accepted.count arrayData) ≠ .error .outside

/-- The object has a byte, not an int, for each element. -/
theorem shared_within_iff {count : Int} (arrayData : Nat → Int)
    (bounds : 0 ≤ count ∧ count ≤ INT_MAX) (i : Nat) :
    (shared count arrayData).Within i ↔ (i + 1) * SIZEOF_INT ≤ count.toNat := by
  have limit : INT_MAX = 2147483647 := rfl
  unfold Shared.Within shared createSharedMemoryObject mapSHMObject SIZEOF_DATA_SHARE SIZEOF_INT
  dsimp only
  omega

theorem readElements_outside {data : Shared} {i remaining last : Nat} (first : i ≤ last)
    (before : last < i + remaining) (outside : ¬ data.Within last) :
    readElements data i remaining = .error .outside := by
  induction remaining generalizing i with
  | zero => omega
  | succ remaining ih =>
      unfold readElements
      by_cases here : data.Within i
      · have apart : i ≠ last := by
          rintro rfl
          exact outside here
        rw [if_pos here, ih (by omega) (by omega)]
        rfl
      · exact if_neg here

theorem parent_outside {count : Int} (arrayData : Nat → Int)
    (bounds : 0 ≤ count ∧ count ≤ INT_MAX) (positive : count ≠ 0) :
    parent (shared count arrayData) = .error .outside := by
  have last : ¬ (shared count arrayData).Within (count.toNat - 1) := by
    rw [shared_within_iff arrayData bounds]
    unfold SIZEOF_INT
    omega
  have unread : readElements (shared count arrayData) 0 (shared count arrayData).arrSize.toNat =
      .error .outside := by
    apply readElements_outside (Nat.zero_le _) _ last
    change count.toNat - 1 < 0 + count.toNat
    omega
  unfold parent printArray
  rw [unread]
  rfl

theorem touchesWithin_iff {accepted : Arguments} (bounds : Accepted accepted) :
    TouchesWithin accepted ↔ accepted.count = 0 := by
  constructor
  · intro within
    by_contra positive
    exact (within zeros fun _ => 0).2 (parent_outside _ bounds.count positive)
  · intro nothing surroundings arrayData
    rw [nothing]
    constructor
    · unfold child genRandomIntegerNumbers
      rw [nothing]
      cases surroundings.malloc with
      | false => exact nofun
      | true => exact nofun
    · exact nofun

/-- The array is well formed: its numbers are those that were asked for, and it lies within
the shared bytes. -/
def WellFormed (accepted : Arguments) : Prop := Generates accepted ∧ TouchesWithin accepted

theorem wellFormed_iff {program : CString} {argv : List CString} {accepted : Arguments}
    (parsed : arguments program argv = .ok accepted) :
    WellFormed accepted ↔ accepted.count = 0 := by
  have bounds := arguments_accepted parsed
  unfold WellFormed
  rw [generates_iff bounds, touchesWithin_iff bounds]
  exact ⟨And.right, fun nothing => ⟨.inl nothing, nothing⟩⟩

def textOf (text : List UInt8) (noNul : (0 : UInt8) ∉ text) : CString := ⟨text, noNul⟩

def noDice : List CString :=
  [textOf [47, 109] (by decide), textOf [49] (by decide), textOf [54] (by decide),
    textOf [48] (by decide)]

def oneDie : List CString :=
  [textOf [47, 109] (by decide), textOf [49] (by decide), textOf [54] (by decide),
    textOf [49] (by decide)]

def diceArguments (count : Int) : Arguments :=
  { name := textOf [47, 109] (by decide)
    lowerRange := 1
    upperRange := 6
    count := count }

theorem wellFormed_noDice :
    arguments (textOf [] (by decide)) noDice = .ok (diceArguments 0) ∧
      WellFormed (diceArguments 0) := by
  have parsed : arguments (textOf [] (by decide)) noDice = .ok (diceArguments 0) := rfl
  exact ⟨parsed, (wellFormed_iff parsed).mpr rfl⟩

/-- The fifth to the eighth byte are written and read, and the object ends with the fifth. -/
theorem oneDie_outside :
    arguments (textOf [] (by decide)) oneDie = .ok (diceArguments 1) ∧
      child zeros (diceArguments 1) (shared 1 fun _ => 0) = .error .outside ∧
        parent (shared 1 fun _ => 0) = .error .outside ∧ ¬ WellFormed (diceArguments 1) := by
  have outside : parent (shared 1 fun _ => 0) = .error .outside := by decide
  exact ⟨rfl, by decide, outside, fun formed => (formed.2 zeros fun _ => 0).2 outside⟩

end Cab403.Workshops.RandomArray
