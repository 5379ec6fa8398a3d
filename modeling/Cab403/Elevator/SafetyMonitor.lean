/-
One check pass of the safety monitor in safety.c, on arbitrary memory contents:
its own floor and status checks, the hand-written string functions and the four
successive checks. A pass leaves the memory flagged or safe.
-/

import Cab403.Library.CDecimal
import Cab403.Elevator.SharedMemory
import Mathlib.Tactic.MkIffOfInductiveProp

namespace Cab403.Elevator.Safety

open CText CDecimal

/-! ### The monitor's string functions -/

def boundedLength : Nat → List UInt8 → Nat
  | 0, _ => 0
  | _ + 1, [] => 0
  | limit + 1, byte :: rest => if byte = 0 then 0 else boundedLength limit rest + 1

def validateFloorInput (floor : List UInt8) : Bool :=
  let len := boundedLength 4 floor
  if len > 4 ∨ len < 1 then false
  else if floor.head? = some 66 then
    if len < 2 then false else ((floor.take len).drop 1).all isDigit
  else (floor.take len).all isDigit

/-- The comparison with one of the five strings: equal bytes up to where one of
the two ends, and then both at their terminator. -/
def statusMatches : Nat → List UInt8 → List UInt8 → Bool
  | limit + 1, byte :: status, expected :: valid =>
      if byte ≠ expected then false else statusMatches limit status valid
  | _, status, valid => status.headD 0 = 0 && valid.headD 0 = 0

def validateStatus (status : List UInt8) : Bool :=
  [Status.opening, .opened, .closing, .closed, .between].any
    (fun valid => statusMatches 8 status valid.text)

def safeStrncpy {size : Nat} (src : CharArray size) (maxLength : Nat) : CharArray maxLength :=
  CharArray.format maxLength src.text src.noNul

def safeStrcmp : List UInt8 → List UInt8 → Nat → Bool
  | left :: str1, right :: str2, limit + 1 =>
      if left ≠ right then false else safeStrcmp str1 str2 limit
  | _, _, 0 => true
  | str1, str2, _ + 1 => str1.headD 0 = str2.headD 0

/-! ### The four checks -/

structure Pass where
  shm : CarSharedMem
  written : List (List UInt8)

def checkObstruction (pass : Pass) : Pass :=
  if pass.shm.doorObstruction = 1 ∧
      safeStrcmp pass.shm.status.text Status.closing.text 8 = true then
    { pass with shm := { pass.shm with status := safeStrncpy Status.opening.chars 8 } }
  else pass

def checkEmergencyStop (pass : Pass) : Pass :=
  if pass.shm.emergencyStop = 1 ∧ pass.shm.emergencyMode = 0 then
    { shm := { pass.shm with emergencyMode := 1 }
      written := pass.written ++ [bytes "The emergency stop button has been pressed!\n"] }
  else pass

def checkOverload (pass : Pass) : Pass :=
  if pass.shm.overload = 1 ∧ pass.shm.emergencyMode = 0 then
    { shm := { pass.shm with emergencyMode := 1 }
      written := pass.written ++ [bytes "The overload sensor has been tripped!\n"] }
  else pass

/-- The disjunction of the last check, less its guard on the emergency mode. -/
def Inconsistent (shm : CarSharedMem) : Prop :=
  validateFloorInput shm.currentFloor.text = false ∨
    validateFloorInput shm.destinationFloor.text = false ∨
    validateStatus shm.status.text = false ∨
    shm.openButton > 1 ∨ shm.closeButton > 1 ∨
    shm.doorObstruction > 1 ∨ shm.overload > 1 ∨
    shm.emergencyStop > 1 ∨ shm.individualServiceMode > 1 ∨
    shm.emergencyMode > 1 ∨
    (shm.doorObstruction = 1 ∧
      ¬ (safeStrcmp shm.status.text Status.opening.text 8 = true ∨
          safeStrcmp shm.status.text Status.closing.text 8 = true))

instance (shm : CarSharedMem) : Decidable (Inconsistent shm) := by
  unfold Inconsistent
  infer_instance

def checkConsistency (pass : Pass) : Pass :=
  if pass.shm.emergencyMode ≠ 1 ∧ Inconsistent pass.shm then
    { shm := { pass.shm with emergencyMode := 1 }
      written := pass.written ++ [bytes "Data consistency error!\n"] }
  else pass

/-- The body of the monitor loop between the wait and the unlock. -/
def monitorPass (shm : CarSharedMem) : Pass :=
  checkConsistency (checkOverload (checkEmergencyStop (checkObstruction ⟨shm, []⟩)))

/-! ### What a pass guarantees -/

@[mk_iff] structure Consistent (shm : CarSharedMem) : Prop where
  emergencyMode : shm.emergencyMode = 0
  emergencyStop : shm.emergencyStop = 0
  overload : shm.overload = 0
  currentFloor : validateFloorInput shm.currentFloor.text = true
  destinationFloor : validateFloorInput shm.destinationFloor.text = true
  status : validateStatus shm.status.text = true
  openButton : shm.openButton ≤ 1
  closeButton : shm.closeButton ≤ 1
  doorObstruction : shm.doorObstruction ≤ 1
  individualServiceMode : shm.individualServiceMode ≤ 1
  obstructedOpening : shm.doorObstruction = 1 → shm.status = Status.opening.chars

def FlaggedOrSafe (shm : CarSharedMem) : Prop := shm.emergencyMode = 1 ∨ Consistent shm

instance (shm : CarSharedMem) : Decidable (Consistent shm) :=
  decidable_of_iff' _ (consistent_iff shm)

instance (shm : CarSharedMem) : Decidable (FlaggedOrSafe shm) :=
  inferInstanceAs (Decidable (_ ∨ _))

/-- Within its limit `safe_strcmp` decides equality of strings. -/
theorem safeStrcmp_eq_true_iff {str1 str2 : List UInt8} (limit : Nat)
    (noNul1 : (0 : UInt8) ∉ str1) (noNul2 : (0 : UInt8) ∉ str2) (short : str2.length < limit) :
    safeStrcmp str1 str2 limit = true ↔ str1 = str2 := by
  apply comparison_iff (fun _ _ _ _ _ => rfl) _ limit noNul1 noNul2 short
  intro str1 str2 limit ended
  cases str1 with
  | nil => simp only [safeStrcmp, decide_eq_true_eq]
  | cons left rest1 =>
      cases str2 with
      | nil => simp only [safeStrcmp, decide_eq_true_eq]
      | cons right rest2 => simp at ended

theorem safeStrcmp_status (field : CharArray 8) (status : Status) :
    safeStrcmp field.text status.text 8 = true ↔ field = status.chars := by
  have equal := safeStrcmp_eq_true_iff 8 field.noNul status.chars.noNul
    (by cases status <;> decide)
  exact equal.trans CharArray.ext_iff.symm

theorem flag_eq_zero {flag : UInt8} (small : ¬ flag > 1) (notOne : flag ≠ 1) : flag = 0 := by
  have value : flag.toNat ≤ 1 := UInt8.le_iff_toNat_le.mp (UInt8.not_lt.mp small)
  have other : flag.toNat ≠ 1 := fun one => notOne (UInt8.toNat_inj.mp one)
  exact UInt8.toNat_inj.mp (show flag.toNat = 0 by omega)

private theorem consistent_of_not_inconsistent {shm : CarSharedMem}
    (mode : shm.emergencyMode ≠ 1) (stop : ¬ (shm.emergencyStop = 1 ∧ shm.emergencyMode = 0))
    (load : ¬ (shm.overload = 1 ∧ shm.emergencyMode = 0))
    (turned : ¬ (shm.doorObstruction = 1 ∧ shm.status = Status.closing.chars))
    (consistent : ¬ Inconsistent shm) : Consistent shm := by
  simp only [Inconsistent, not_or] at consistent
  obtain ⟨current, destination, status, openButton, closeButton, obstruction, overload,
    emergencyStop, service, emergency, obstructed⟩ := consistent
  have modeZero := flag_eq_zero emergency mode
  exact
    { emergencyMode := modeZero
      emergencyStop := flag_eq_zero emergencyStop (fun one => stop ⟨one, modeZero⟩)
      overload := flag_eq_zero overload (fun one => load ⟨one, modeZero⟩)
      currentFloor := Bool.not_eq_false _ |>.mp current
      destinationFloor := Bool.not_eq_false _ |>.mp destination
      status := Bool.not_eq_false _ |>.mp status
      openButton := UInt8.not_lt.mp openButton
      closeButton := UInt8.not_lt.mp closeButton
      doorObstruction := UInt8.not_lt.mp obstruction
      individualServiceMode := UInt8.not_lt.mp service
      obstructedOpening := by
        intro one
        by_contra notOpening
        refine obstructed ⟨one, ?_, ?_⟩
        · rw [safeStrcmp_status]
          exact notOpening
        · rw [safeStrcmp_status]
          exact fun closing => turned ⟨one, closing⟩ }

theorem safeStrncpy_opening :
    safeStrncpy Status.opening.chars 8 = Status.opening.chars := by decide

private theorem checkObstruction_turned (pass : Pass) :
    ¬ ((checkObstruction pass).shm.doorObstruction = 1 ∧
      (checkObstruction pass).shm.status = Status.closing.chars) := by
  unfold checkObstruction
  split
  · simp [safeStrncpy_opening]
  · rename_i kept
    rw [safeStrcmp_status] at kept
    exact kept

/-- Whatever the memory held, a pass leaves it flagged or safe. -/
theorem monitorPass_flaggedOrSafe (shm : CarSharedMem) :
    FlaggedOrSafe (monitorPass shm).shm := by
  have turned := checkObstruction_turned ⟨shm, []⟩
  revert turned
  unfold monitorPass
  generalize checkObstruction ⟨shm, []⟩ = obstructed
  intro turned
  unfold checkEmergencyStop
  split
  · -- the stop flags the pass, and no later check clears the flag
    apply Or.inl
    simp [checkOverload, checkConsistency]
  · rename_i stop
    unfold checkOverload
    split
    · exact Or.inl (by simp [checkConsistency])
    · rename_i load
      unfold checkConsistency
      split
      · exact Or.inl rfl
      · rename_i quiet
        by_cases mode : obstructed.shm.emergencyMode = 1
        · exact Or.inl mode
        · exact Or.inr (consistent_of_not_inconsistent mode stop load turned
            (fun inconsistent => quiet ⟨mode, inconsistent⟩))

/-! ### What a pass may write -/

theorem monitorPass_frame (shm : CarSharedMem) :
    (monitorPass shm).shm =
      { shm with
        status := (monitorPass shm).shm.status
        emergencyMode := (monitorPass shm).shm.emergencyMode } := by
  unfold monitorPass checkConsistency checkOverload checkEmergencyStop checkObstruction
  split_ifs <;> rfl

/-- The only status a pass writes is `Opening`, over `Closing`. -/
theorem monitorPass_status (shm : CarSharedMem) :
    (monitorPass shm).shm.status = shm.status ∨
      (shm.status = Status.closing.chars ∧
        (monitorPass shm).shm.status = Status.opening.chars) := by
  have kept : (monitorPass shm).shm.status = (checkObstruction ⟨shm, []⟩).shm.status := by
    unfold monitorPass checkConsistency checkOverload checkEmergencyStop
    split_ifs <;> rfl
  rw [kept]
  unfold checkObstruction
  split
  · rename_i turned
    rw [safeStrcmp_status] at turned
    exact Or.inr ⟨turned.2, safeStrncpy_opening⟩
  · exact Or.inl rfl

end Cab403.Elevator.Safety
