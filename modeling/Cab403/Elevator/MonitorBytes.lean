/-
A check pass of the safety monitor on the bytes of the shared memory. A string that is
not terminated within its field runs on into the next one; the passes of the monitor
are those on the text of the fields all the same.
-/

import Cab403.Elevator.ServiceRecovery

namespace Cab403.Elevator.SafetyBytes

open CText Safety

/-! ### The bytes of the memory -/

/-- The struct from `current_floor` on. -/
structure CarBytes where
  currentFloor : Vector UInt8 4
  destinationFloor : Vector UInt8 4
  status : Vector UInt8 8
  openButton : UInt8
  closeButton : UInt8
  doorObstruction : UInt8
  overload : UInt8
  emergencyStop : UInt8
  individualServiceMode : UInt8
  emergencyMode : UInt8
  deriving DecidableEq

namespace CarBytes

def flags (memory : CarBytes) : List UInt8 :=
  [memory.openButton, memory.closeButton, memory.doorObstruction, memory.overload,
    memory.emergencyStop, memory.individualServiceMode, memory.emergencyMode]

def statusPtr (memory : CarBytes) : List UInt8 := memory.status.toList ++ memory.flags

def destinationFloorPtr (memory : CarBytes) : List UInt8 :=
  memory.destinationFloor.toList ++ memory.statusPtr

def currentFloorPtr (memory : CarBytes) : List UInt8 :=
  memory.currentFloor.toList ++ memory.destinationFloorPtr

end CarBytes

/-- `safe_strncpy`: up to `maxLength - 1` bytes of the string and the terminator. -/
def safeStrncpy {size : Nat} (dest : Vector UInt8 size) (src : List UInt8) (maxLength : Nat) :
    Vector UInt8 size :=
  let i := boundedLength (maxLength - 1) src
  Vector.ofFn fun index =>
    if index.val < i then src.getD index.val 0 else if index.val = i then 0 else dest.get index

/-! ### The four checks -/

structure Pass where
  memory : CarBytes
  written : List (List UInt8)
  deriving DecidableEq

def Turned (memory : CarBytes) : Prop :=
  memory.doorObstruction = 1 ∧ safeStrcmp memory.statusPtr (bytes "Closing") 8 = true

instance (memory : CarBytes) : Decidable (Turned memory) := inferInstanceAs (Decidable (_ ∧ _))

def checkObstruction (pass : Pass) : Pass :=
  if Turned pass.memory then
    { pass with
      memory :=
        { pass.memory with status := safeStrncpy pass.memory.status (bytes "Opening") 8 } }
  else pass

def checkEmergencyStop (pass : Pass) : Pass :=
  if pass.memory.emergencyStop = 1 ∧ pass.memory.emergencyMode = 0 then
    { memory := { pass.memory with emergencyMode := 1 }
      written := pass.written ++ [bytes "The emergency stop button has been pressed!\n"] }
  else pass

def checkOverload (pass : Pass) : Pass :=
  if pass.memory.overload = 1 ∧ pass.memory.emergencyMode = 0 then
    { memory := { pass.memory with emergencyMode := 1 }
      written := pass.written ++ [bytes "The overload sensor has been tripped!\n"] }
  else pass

def Inconsistent (memory : CarBytes) : Prop :=
  validateFloorInput memory.currentFloorPtr = false ∨
    validateFloorInput memory.destinationFloorPtr = false ∨
    validateStatus memory.statusPtr = false ∨
    memory.openButton > 1 ∨ memory.closeButton > 1 ∨
    memory.doorObstruction > 1 ∨ memory.overload > 1 ∨
    memory.emergencyStop > 1 ∨ memory.individualServiceMode > 1 ∨
    memory.emergencyMode > 1 ∨
    (memory.doorObstruction = 1 ∧
      ¬ (safeStrcmp memory.statusPtr (bytes "Opening") 8 = true ∨
          safeStrcmp memory.statusPtr (bytes "Closing") 8 = true))

instance (memory : CarBytes) : Decidable (Inconsistent memory) := by
  unfold Inconsistent
  infer_instance

def checkConsistency (pass : Pass) : Pass :=
  if pass.memory.emergencyMode ≠ 1 ∧ Inconsistent pass.memory then
    { memory := { pass.memory with emergencyMode := 1 }
      written := pass.written ++ [bytes "Data consistency error!\n"] }
  else pass

def monitorPass (memory : CarBytes) : Pass :=
  checkConsistency (checkOverload (checkEmergencyStop (checkObstruction ⟨memory, []⟩)))

/-! ### Strings in their fields -/

/-- The text of a field, all of it where the field has no terminator. -/
def fieldText {size : Nat} (field : Vector UInt8 size) : CharArray size :=
  { text := stringAt field.toList
    noNul := by
      intro member
      have solid := List.mem_takeWhile_imp member
      exact absurd solid (by decide)
    fits := by
      have length := (List.takeWhile_prefix (· != 0) (l := field.toList)).length_le
      rw [Vector.length_toList] at length
      exact length }

theorem boundedLength_field (field rest : List UInt8) :
    boundedLength field.length (field ++ rest) = (stringAt field).length := by
  induction field with
  | nil => rfl
  | cons byte field ih =>
      rw [List.length_cons, List.cons_append, boundedLength]
      by_cases ended : byte = 0
      · subst ended
        rw [if_pos rfl, stringAt_nul, List.length_nil]
      · rw [if_neg ended, ih, stringAt_cons_of_ne ended, List.length_cons]

theorem take_stringAt (field rest : List UInt8) :
    (field ++ rest).take (stringAt field).length = stringAt field := by
  have front : stringAt field <+: field ++ rest :=
    (List.takeWhile_prefix _).trans (List.prefix_append field rest)
  exact (List.prefix_iff_eq_take.mp front).symm

theorem validateFloorInput_field (field : Vector UInt8 4) (rest : List UInt8) :
    validateFloorInput (field.toList ++ rest) = validateFloorInput (fieldText field).text := by
  have length : boundedLength 4 (field.toList ++ rest) = (stringAt field.toList).length := by
    have counted := boundedLength_field field.toList rest
    rw [Vector.length_toList] at counted
    exact counted
  have textLength : boundedLength 4 (stringAt field.toList) = (stringAt field.toList).length :=
    boundedLength_eq (fieldText field).noNul (fieldText field).fits
  change _ = validateFloorInput (stringAt field.toList)
  unfold validateFloorInput
  dsimp only
  rw [length, textLength, take_stringAt, List.take_length]
  by_cases empty : (stringAt field.toList).length < 1
  · rw [if_pos (Or.inr empty), if_pos (Or.inr empty)]
  · -- a nonempty text begins as the memory does
    have first : (field.toList ++ rest).head? = (stringAt field.toList).head? := by
      obtain ⟨later, split⟩ := (List.takeWhile_prefix (· != 0)).trans
        (List.prefix_append field.toList rest)
      change stringAt field.toList ++ later = _ at split
      rw [← split]
      cases found : stringAt field.toList with
      | nil =>
          rw [found] at empty
          exact absurd (show [].length < 1 by decide) empty
      | cons head tail => rfl
    rw [first]

theorem safeStrcmp_field (field rest : List UInt8) {valid : List UInt8}
    (noNul : (0 : UInt8) ∉ valid) :
    safeStrcmp (field ++ rest) valid field.length =
      safeStrcmp (stringAt field) valid field.length := by
  induction field generalizing valid with
  | nil =>
      cases rest <;> cases valid <;> rfl
  | cons byte field ih =>
      rw [List.length_cons, List.cons_append]
      cases valid with
      | nil =>
          by_cases ended : byte = 0
          · subst ended
            rfl
          · rw [stringAt_cons_of_ne ended]
            rfl
      | cons expected valid =>
          by_cases ended : byte = 0
          · subst ended
            have differs : (0 : UInt8) ≠ expected := List.ne_of_not_mem_cons noNul
            rw [stringAt_nul, safeStrcmp, if_pos differs]
            exact (decide_eq_false differs).symm
          · rw [stringAt_cons_of_ne ended, safeStrcmp, safeStrcmp,
              ih (List.not_mem_of_not_mem_cons noNul)]

theorem statusMatches_field (field rest : List UInt8) {valid : List UInt8}
    (noNul : (0 : UInt8) ∉ valid) (shorter : valid.length < field.length) :
    statusMatches field.length (field ++ rest) valid =
      statusMatches field.length (stringAt field) valid := by
  induction field generalizing valid with
  | nil => exact absurd shorter (Nat.not_lt_zero _)
  | cons byte field ih =>
      rw [List.length_cons, List.cons_append]
      cases valid with
      | nil =>
          by_cases ended : byte = 0
          · subst ended
            rfl
          · rw [stringAt_cons_of_ne ended]
            rfl
      | cons expected valid =>
          by_cases ended : byte = 0
          · subst ended
            have differs : (0 : UInt8) ≠ expected := List.ne_of_not_mem_cons noNul
            rw [stringAt_nul, statusMatches, if_pos differs]
            simp [statusMatches, differs.symm]
          · rw [stringAt_cons_of_ne ended, statusMatches, statusMatches,
              ih (List.not_mem_of_not_mem_cons noNul) (Nat.lt_of_succ_lt_succ shorter)]

/-! ### The pass on the text of the fields -/

def CarBytes.view (memory : CarBytes) : CarSharedMem :=
  { currentFloor := fieldText memory.currentFloor
    destinationFloor := fieldText memory.destinationFloor
    status := fieldText memory.status
    openButton := memory.openButton
    closeButton := memory.closeButton
    doorObstruction := memory.doorObstruction
    overload := memory.overload
    emergencyStop := memory.emergencyStop
    individualServiceMode := memory.individualServiceMode
    emergencyMode := memory.emergencyMode }

def Pass.view (pass : Pass) : Safety.Pass :=
  { shm := pass.memory.view
    written := pass.written }

theorem Pass.view_shm (pass : Pass) : pass.view.shm = pass.memory.view := rfl

theorem safeStrcmp_statusPtr (memory : CarBytes) (status : Status) :
    safeStrcmp memory.statusPtr status.text 8 =
      safeStrcmp memory.view.status.text status.text 8 := by
  have same := safeStrcmp_field memory.status.toList memory.flags status.chars.noNul
  rw [Vector.length_toList] at same
  exact same

theorem validateStatus_statusPtr (memory : CarBytes) :
    validateStatus memory.statusPtr = validateStatus memory.view.status.text := by
  have same (status : Status) : statusMatches 8 memory.statusPtr status.text =
      statusMatches 8 memory.view.status.text status.text := by
    have shorter : status.text.length < memory.status.toList.length := by
      rw [Vector.length_toList]
      cases status <;> decide
    have matched :=
      statusMatches_field memory.status.toList memory.flags status.chars.noNul shorter
    rw [Vector.length_toList] at matched
    exact matched
  simp only [validateStatus, List.any_cons, List.any_nil, same]

theorem inconsistent_iff_view (memory : CarBytes) :
    Inconsistent memory ↔ Safety.Inconsistent memory.view := by
  unfold Inconsistent Safety.Inconsistent
  rw [validateStatus_statusPtr, CarBytes.currentFloorPtr, validateFloorInput_field,
    CarBytes.destinationFloorPtr, validateFloorInput_field]
  have opening := safeStrcmp_statusPtr memory .opening
  have closing := safeStrcmp_statusPtr memory .closing
  change safeStrcmp memory.statusPtr (bytes "Opening") 8 = _ at opening
  change safeStrcmp memory.statusPtr (bytes "Closing") 8 = _ at closing
  rw [opening, closing]
  exact Iff.rfl

theorem turned_iff_view (memory : CarBytes) :
    Turned memory ↔
      memory.view.doorObstruction = 1 ∧ memory.view.status = Status.closing.chars := by
  have closing := safeStrcmp_statusPtr memory .closing
  change safeStrcmp memory.statusPtr (bytes "Closing") 8 = _ at closing
  unfold Turned
  rw [closing, safeStrcmp_status]
  exact Iff.rfl

theorem safeStrncpy_status (status : Vector UInt8 8) :
    fieldText (safeStrncpy status (bytes "Opening") 8) = Status.opening.chars := by
  have copied : safeStrncpy status (bytes "Opening") 8 =
      safeStrncpy (Vector.replicate 8 0) (bytes "Opening") 8 := by
    apply Vector.ext
    intro index inside
    have length : boundedLength (8 - 1) (bytes "Opening") = 7 := by decide
    simp only [safeStrncpy, Vector.getElem_ofFn, length]
    by_cases letter : index < 7
    · rw [if_pos letter, if_pos letter]
    · have last : index = 7 := by omega
      rw [if_neg letter, if_neg letter, if_pos last, if_pos last]
  rw [copied]
  decide

theorem checkObstruction_view (pass : Pass) :
    (checkObstruction pass).view = Safety.checkObstruction pass.view := by
  unfold checkObstruction Safety.checkObstruction
  have guards : Turned pass.memory ↔ pass.view.shm.doorObstruction = 1 ∧
      safeStrcmp pass.view.shm.status.text Status.closing.text 8 = true := by
    rw [turned_iff_view, safeStrcmp_status]
    exact Iff.rfl
  by_cases turned : Turned pass.memory
  · rw [if_pos turned, if_pos (guards.mp turned)]
    simp only [Pass.view, CarBytes.view, safeStrncpy_status, safeStrncpy_opening]
  · rw [if_neg turned, if_neg (fun found => turned (guards.mpr found))]

theorem checkEmergencyStop_view (pass : Pass) :
    (checkEmergencyStop pass).view = Safety.checkEmergencyStop pass.view := by
  unfold checkEmergencyStop Safety.checkEmergencyStop
  by_cases stop : pass.memory.emergencyStop = 1 ∧ pass.memory.emergencyMode = 0
  · exact (congrArg Pass.view (if_pos stop)).trans (if_pos stop).symm
  · exact (congrArg Pass.view (if_neg stop)).trans (if_neg stop).symm

theorem checkOverload_view (pass : Pass) :
    (checkOverload pass).view = Safety.checkOverload pass.view := by
  unfold checkOverload Safety.checkOverload
  by_cases load : pass.memory.overload = 1 ∧ pass.memory.emergencyMode = 0
  · exact (congrArg Pass.view (if_pos load)).trans (if_pos load).symm
  · exact (congrArg Pass.view (if_neg load)).trans (if_neg load).symm

theorem checkConsistency_view (pass : Pass) :
    (checkConsistency pass).view = Safety.checkConsistency pass.view := by
  unfold checkConsistency Safety.checkConsistency
  have guards := inconsistent_iff_view pass.memory
  by_cases found : pass.memory.emergencyMode ≠ 1 ∧ Inconsistent pass.memory
  · rw [if_pos found, if_pos ⟨found.1, guards.mp found.2⟩]
    rfl
  · rw [if_neg found, if_neg (fun viewed => found ⟨viewed.1, guards.mpr viewed.2⟩)]

/-- The pass on the bytes is the pass on the text. -/
theorem monitorPass_view (memory : CarBytes) :
    (monitorPass memory).view = Safety.monitorPass memory.view := by
  unfold monitorPass Safety.monitorPass
  rw [checkConsistency_view, checkOverload_view, checkEmergencyStop_view, checkObstruction_view]
  rfl

/-! ### What a pass guarantees -/

structure Safe (memory : CarBytes) : Prop where
  emergencyMode : memory.emergencyMode = 0
  emergencyStop : memory.emergencyStop = 0
  overload : memory.overload = 0
  openButton : memory.openButton ≤ 1
  closeButton : memory.closeButton ≤ 1
  doorObstruction : memory.doorObstruction ≤ 1
  individualServiceMode : memory.individualServiceMode ≤ 1
  status : ∃ status : Status, fieldText memory.status = status.chars
  currentFloor : validateFloorInput memory.currentFloorPtr = true
  destinationFloor : validateFloorInput memory.destinationFloorPtr = true
  obstructedOpening :
    memory.doorObstruction = 1 → fieldText memory.status = Status.opening.chars

theorem safe_of_consistent {memory : CarBytes} (consistent : Consistent memory.view) :
    Safe memory :=
  { emergencyMode := consistent.emergencyMode
    emergencyStop := consistent.emergencyStop
    overload := consistent.overload
    openButton := consistent.openButton
    closeButton := consistent.closeButton
    doorObstruction := consistent.doorObstruction
    individualServiceMode := consistent.individualServiceMode
    status := (validateStatus_iff _).mp consistent.status
    currentFloor := (validateFloorInput_field _ _).trans consistent.currentFloor
    destinationFloor := (validateFloorInput_field _ _).trans consistent.destinationFloor
    obstructedOpening := consistent.obstructedOpening }

theorem Safe.not_inconsistent {memory : CarBytes} (safe : Safe memory) :
    ¬ Inconsistent memory := by
  have small {flag : UInt8} (bounded : flag ≤ 1) : ¬ flag > 1 := UInt8.not_lt.mpr bounded
  intro inconsistent
  rcases inconsistent with floor | floor | status | pressed | pressed | obstructed | load | stop |
    service | emergency | wrong
  · exact absurd (safe.currentFloor.symm.trans floor) (by decide)
  · exact absurd (safe.destinationFloor.symm.trans floor) (by decide)
  · rw [validateStatus_statusPtr] at status
    have accepted := (validateStatus_iff memory.view.status).mpr safe.status
    exact absurd (accepted.symm.trans status) (by decide)
  · exact small safe.openButton pressed
  · exact small safe.closeButton pressed
  · exact small safe.doorObstruction obstructed
  · rw [safe.overload] at load
    exact absurd load (by decide)
  · rw [safe.emergencyStop] at stop
    exact absurd stop (by decide)
  · exact small safe.individualServiceMode service
  · rw [safe.emergencyMode] at emergency
    exact absurd emergency (by decide)
  · apply wrong.2
    left
    have compared := safeStrcmp_statusPtr memory .opening
    exact compared.trans ((safeStrcmp_status _ _).mpr (safe.obstructedOpening wrong.1))

theorem monitorPass_flagged_or_safe (memory : CarBytes) :
    (monitorPass memory).memory.emergencyMode = 1 ∨ Safe (monitorPass memory).memory := by
  have outcome := monitorPass_flaggedOrSafe memory.view
  rw [← monitorPass_view, Pass.view_shm] at outcome
  rcases outcome with flagged | consistent
  · exact Or.inl flagged
  · exact Or.inr (safe_of_consistent consistent)

theorem monitorPass_not_turned (memory : CarBytes) : ¬ Turned (monitorPass memory).memory := by
  have unturned : ¬ Turned (checkObstruction ⟨memory, []⟩).memory := by
    rw [turned_iff_view]
    unfold checkObstruction
    by_cases turned : Turned memory
    · rw [if_pos turned]
      simp only [CarBytes.view, safeStrncpy_status]
      intro both
      exact absurd (Status.chars_inj.mp both.2) (by decide)
    · rw [if_neg turned, ← turned_iff_view]
      exact turned
  have kept : Turned (monitorPass memory).memory ↔
      Turned (checkObstruction ⟨memory, []⟩).memory := by
    rw [turned_iff_view, turned_iff_view]
    unfold monitorPass checkConsistency checkOverload checkEmergencyStop
    split_ifs <;> exact Iff.rfl
  rw [kept]
  exact unturned

/-- Where no check finds anything, a pass neither writes nor prints. -/
theorem monitorPass_quiet {memory : CarBytes} (unturned : ¬ Turned memory)
    (outcome : memory.emergencyMode = 1 ∨ Safe memory) :
    monitorPass memory = ⟨memory, []⟩ := by
  have stop : ¬ (memory.emergencyStop = 1 ∧ memory.emergencyMode = 0) := by
    rintro ⟨pressed, clear⟩
    rcases outcome with flagged | safe
    · exact absurd (flagged.symm.trans clear) (by decide)
    · exact absurd (safe.emergencyStop.symm.trans pressed) (by decide)
  have load : ¬ (memory.overload = 1 ∧ memory.emergencyMode = 0) := by
    rintro ⟨tripped, clear⟩
    rcases outcome with flagged | safe
    · exact absurd (flagged.symm.trans clear) (by decide)
    · exact absurd (safe.overload.symm.trans tripped) (by decide)
  have consistency : ¬ (memory.emergencyMode ≠ 1 ∧ Inconsistent memory) := by
    rintro ⟨unflagged, inconsistent⟩
    rcases outcome with flagged | safe
    · exact unflagged flagged
    · exact safe.not_inconsistent inconsistent
  rw [monitorPass, checkObstruction, if_neg unturned, checkEmergencyStop, if_neg stop,
    checkOverload, if_neg load, checkConsistency, if_neg consistency]

theorem monitorPass_writes (memory : CarBytes) :
    (monitorPass memory).memory =
      { memory with
        status := (monitorPass memory).memory.status
        emergencyMode := (monitorPass memory).memory.emergencyMode } := by
  unfold monitorPass checkConsistency checkOverload checkEmergencyStop checkObstruction
  split_ifs <;> rfl

/-- Whatever bytes the memory holds: a pass leaves them flagged or safe, a second one finds
nothing more to do, and only the status and the emergency mode are written. -/
theorem monitorPass_settles (memory : CarBytes) :
    ((monitorPass memory).memory.emergencyMode = 1 ∨ Safe (monitorPass memory).memory) ∧
      monitorPass (monitorPass memory).memory = ⟨(monitorPass memory).memory, []⟩ ∧
      (monitorPass memory).memory =
        { memory with
          status := (monitorPass memory).memory.status
          emergencyMode := (monitorPass memory).memory.emergencyMode } := by
  have outcome := monitorPass_flagged_or_safe memory
  have quiet := monitorPass_quiet (monitorPass_not_turned memory) outcome
  exact ⟨outcome, quiet, monitorPass_writes memory⟩

end Cab403.Elevator.SafetyBytes
