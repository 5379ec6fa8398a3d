/-
From the arguments of the call tool to the call the controller queues:
`validate_floor_input` of shared.h, the message `main` of call.c prints into its
buffer, and the scan of `handle_call_connection`. Arguments are any C strings.
-/

import Cab403.Elevator.ControllerPeers

namespace Cab403.Elevator.CallTool

open CText CDecimal Controller Peers

/-! ### The call tool -/

def validateNumber (highest : Int) (text : List UInt8) : Bool :=
  let (floorNumber, endptr) := strtol text
  if endptr ≠ [] ∨ floorNumber < 1 ∨ floorNumber > highest then false else true

/-- `validate_floor_input` in shared.h. No string of four bytes makes `strtol` set `errno`. -/
def validateFloorInput (floor : List UInt8) : Bool :=
  if floor.length > 4 ∨ floor.length < 1 then false
  else
    match floor with
    | 66 :: rest => validateNumber 99 rest
    | _ => validateNumber 999 floor

def callText (source destination : CString) : List UInt8 :=
  bytes "CALL " ++ (source.text ++ 32 :: destination.text)

/-- The message `main` sends, unless it stops at one of its checks. -/
def callMain (source destination : CString) : Option (List UInt8) :=
  if validateFloorInput source.text = false then none
  else if validateFloorInput destination.text = false then none
  else if source = destination then none
  else some (snprintf 15 (callText source destination))

structure CallDecodes (source destination : CString) (message : List UInt8) : Prop where
  untruncated : message = callText source destination
  parsed : ∃ call, callMessage? message = some call ∧
    tokenFloorNumber call.currentFloor = floorNumber source.text ∧
    tokenFloorNumber call.destinationFloor = floorNumber destination.text

/-- Behind its leading blanks the string is a field of at most three bytes. -/
def Plain (floor : List UInt8) : Prop := Token.Spells 3 (floor.dropWhile isBlank)

instance (floor : List UInt8) : Decidable (Plain floor) :=
  inferInstanceAs (Decidable (Token.Spells _ _))

/-! ### What the validator accepts -/

theorem validateNumber_spelled {highest : Int} {text : List UInt8}
    (valid : validateNumber highest text = true) :
    ∃ digits, Unsigned (text.dropWhile isBlank) digits ∧ 1 ≤ digitsValue digits ∧
      atoi text = digitsValue digits := by
  unfold validateNumber at valid
  dsimp only at valid
  split at valid
  · cases valid
  · rename_i inside
    rw [not_or, not_or, not_not, not_lt, not_lt] at inside
    obtain ⟨whole, positive, _⟩ := inside
    obtain ⟨digits, spelled, value⟩ :=
      strtol_whole (show strtol text = ((strtol text).1, []) from Prod.ext rfl whole) positive
    refine ⟨digits, spelled, ?_, value⟩
    omega

theorem validateFloorInput_short {floor : List UInt8} (valid : validateFloorInput floor = true) :
    floor.length ≤ 4 := by
  unfold validateFloorInput at valid
  split at valid
  · cases valid
  · omega

/-- An accepted string is `B` and a number, or a number. -/
theorem validateFloorInput_cases {floor : List UInt8} (valid : validateFloorInput floor = true) :
    (∃ rest digits, floor = 66 :: rest ∧ Unsigned (rest.dropWhile isBlank) digits ∧
        1 ≤ digitsValue digits ∧ floorNumber floor = -digitsValue digits) ∨
      ∃ digits, Unsigned (floor.dropWhile isBlank) digits ∧
        1 ≤ digitsValue digits ∧ floorNumber floor = digitsValue digits := by
  unfold validateFloorInput at valid
  split at valid
  · cases valid
  · split at valid
    · rename_i rest _
      obtain ⟨digits, spelled, positive, value⟩ := validateNumber_spelled valid
      refine Or.inl ⟨rest, digits, rfl, spelled, positive, ?_⟩
      rw [floorNumber, value]
    · rename_i ground
      obtain ⟨digits, spelled, positive, value⟩ := validateNumber_spelled valid
      refine Or.inr ⟨digits, spelled, positive, ?_⟩
      rw [floorNumber_eq_atoi, value]
      intro basement
      obtain ⟨rest, rfl⟩ := List.head?_eq_some_iff.mp basement
      exact ground rest rfl

theorem ground_of_unsigned {text digits : List UInt8} (spelled : Unsigned text digits) :
    (66 : UInt8) ∉ text := by
  intro member
  rcases spelled.shape with rfl | rfl
  · exact absurd (spelled.allDigits 66 member) (by decide)
  · rcases List.mem_cons.mp member with same | later
    · exact absurd same (by decide)
    · exact absurd (spelled.allDigits 66 later) (by decide)

theorem unblanked_ne_nil {floor : List UInt8} (valid : validateFloorInput floor = true) :
    floor.dropWhile isBlank ≠ [] := by
  rcases validateFloorInput_cases valid with ⟨rest, digits, rfl, _⟩ | ⟨digits, spelled, _⟩
  · rw [List.dropWhile_cons_of_neg (by decide)]
    exact List.cons_ne_nil _ _
  · exact spelled.ne_nil

/-! ### The field the controller reads -/

theorem firstField_of_solid {floor : List UInt8}
    (solid : ∀ byte ∈ floor.dropWhile isBlank, isSolid byte = true) :
    firstField 3 floor = (floor.dropWhile isBlank).take 3 := by
  rw [firstField, List.takeWhile_eq_self_iff.mpr solid]

theorem ground_field_iff {floor digits : List UInt8} (short : floor.length ≤ 4)
    (spelled : Unsigned (floor.dropWhile isBlank) digits) (positive : 1 ≤ digitsValue digits) :
    floorNumber (firstField 3 floor) = digitsValue digits ↔ Plain floor := by
  have unblanked : (floor.dropWhile isBlank).length ≤ 3 + 1 :=
    (List.length_dropWhile_le isBlank floor).trans short
  have ground : ((floor.dropWhile isBlank).take 3).head? ≠ some 66 := fun basement =>
    ground_of_unsigned spelled (List.mem_of_mem_take (List.mem_of_head? basement))
  rw [firstField_of_solid spelled.solid, floorNumber_eq_atoi ground,
    spelled.atoi_take_iff positive unblanked]
  constructor
  · intro fits
    exact ⟨spelled.ne_nil, List.all_eq_true.mpr spelled.solid, fits⟩
  · intro plain
    exact plain.2.2

theorem basement_field_iff {rest digits : List UInt8} (short : rest.length ≤ 3)
    (spelled : Unsigned (rest.dropWhile isBlank) digits) (positive : 1 ≤ digitsValue digits) :
    floorNumber (firstField 3 (66 :: rest)) = -digitsValue digits ↔ Plain (66 :: rest) := by
  have unblanked : (66 :: rest).dropWhile isBlank = 66 :: rest :=
    List.dropWhile_cons_of_neg (by decide)
  have plain_iff : Plain (66 :: rest) ↔ (∀ byte ∈ rest, isSolid byte = true) ∧ rest.length ≤ 2 := by
    have marker : isSolid 66 = true := by decide
    rw [Plain, unblanked, Token.Spells, List.all_eq_true, List.forall_mem_cons, List.length_cons]
    constructor
    · intro spells
      exact ⟨spells.2.1.2, by omega⟩
    · intro fits
      exact ⟨List.cons_ne_nil _ _, ⟨marker, fits.1⟩, by omega⟩
  rw [plain_iff]
  by_cases solid : ∀ byte ∈ rest, isSolid byte = true
  · have whole : rest.dropWhile isBlank = rest :=
      dropWhile_blank_of_solid fun byte first => solid byte (List.mem_of_mem_head? first)
    rw [whole] at spelled
    have allSolid : ∀ byte ∈ (66 :: rest).dropWhile isBlank, isSolid byte = true := by
      rw [unblanked]
      intro byte member
      rcases List.mem_cons.mp member with rfl | later
      · decide
      · exact solid byte later
    rw [firstField_of_solid allSolid, unblanked]
    change -atoi (rest.take 2) = _ ↔ _
    rw [neg_inj, spelled.atoi_take_iff positive short]
    exact (and_iff_right solid).symm
  · have blankFirst : firstField 3 (66 :: rest) = [66] := by
      cases rest with
      | nil => exact absurd rfl spelled.ne_nil
      | cons head tail =>
          cases blank : isBlank head with
          | true =>
              have stops : (head :: tail).takeWhile isSolid = [] := by
                rw [List.takeWhile_cons_of_neg]
                simp [isSolid, blank]
              rw [firstField, unblanked, List.takeWhile_cons_of_pos (by decide), stops]
              rfl
          | false =>
              rw [List.dropWhile_cons_of_neg (by rw [blank]; exact Bool.false_ne_true)] at spelled
              exact absurd spelled.solid solid
    rw [blankFirst]
    constructor
    · intro same
      change -0 = -(digitsValue digits : Int) at same
      omega
    · intro plain
      exact absurd plain.1 solid

/-- The controller reads the number of an accepted string exactly when it is plain. -/
theorem field_number_iff {floor : List UInt8} (valid : validateFloorInput floor = true) :
    floorNumber (firstField 3 floor) = floorNumber floor ↔ Plain floor := by
  have short := validateFloorInput_short valid
  rcases validateFloorInput_cases valid with
    ⟨rest, digits, rfl, spelled, positive, value⟩ | ⟨digits, spelled, positive, value⟩
  · rw [List.length_cons] at short
    rw [value]
    exact basement_field_iff (by omega) spelled positive
  · rw [value]
    exact ground_field_iff short spelled positive

/-! ### The whole message -/

section Message

variable {source destination : CString} {message : List UInt8}

/-- Both strings were accepted, and the buffer holds the whole message. -/
theorem callMain_sent (sent : callMain source destination = some message) :
    validateFloorInput source.text = true ∧ validateFloorInput destination.text = true ∧
      message = callText source destination := by
  unfold callMain at sent
  split at sent
  · cases sent
  · rename_i validSource
    split at sent
    · cases sent
    · rename_i validDestination
      rw [Bool.not_eq_false] at validSource validDestination
      obtain ⟨_, printed⟩ := Option.ite_none_left_eq_some.mp sent
      obtain rfl := Option.some.inj printed
      refine ⟨validSource, validDestination, ?_⟩
      have sourceShort := validateFloorInput_short validSource
      have destinationShort := validateFloorInput_short validDestination
      apply snprintf_of_fits
      have literal : (bytes "CALL ").length = 5 := by decide
      simp only [callText, List.length_append, List.length_cons, literal]
      omega

theorem callMessage?_callText :
    callMessage? (callText source destination) =
      (scanString 3 (32 :: source.text ++ 32 :: destination.text)).bind fun current =>
        (scanString 3 current.2).bind fun next =>
          some { currentFloor := current.1, destinationFloor := next.1 } := by
  have stripped : stripLiteral (bytes "CALL") (callText source destination) =
      some (32 :: source.text ++ 32 :: destination.text) :=
    stripLiteral_append (bytes "CALL") (32 :: source.text ++ 32 :: destination.text)
  unfold callMessage?
  rw [stripped]
  rfl

theorem unblanked_space (text : List UInt8) :
    (32 :: text).dropWhile isBlank = text.dropWhile isBlank :=
  List.dropWhile_cons_of_pos (by decide)

/-- A plain floor is scanned whole, and what follows it is left. -/
theorem scanString_plain {floor : List UInt8} (plain : Plain floor) {rest : List UInt8}
    (ends : FieldEnds rest) :
    scanString 3 (32 :: floor ++ rest) =
      some (Token.ofText (floor.dropWhile isBlank) plain, rest) :=
  scanString_blanks (Token.ofText (floor.dropWhile isBlank) plain) (unblanked_space floor) ends

theorem scanString_accepted {floor rest later : List UInt8} {token : Token 3}
    (valid : validateFloorInput floor = true) (ends : FieldEnds rest)
    (scanned : scanString 3 (32 :: floor ++ rest) = some (token, later)) :
    token.text = firstField 3 floor := by
  have found : (32 :: floor).dropWhile isBlank ≠ [] := by
    rw [unblanked_space]
    exact unblanked_ne_nil valid
  rw [scanString_firstField scanned, firstField_append found ends, firstField_space]

theorem plain_of_scanned {floor rest later : List UInt8} {token : Token 3}
    (valid : validateFloorInput floor = true) (ends : FieldEnds rest)
    (scanned : scanString 3 (32 :: floor ++ rest) = some (token, later))
    (same : tokenFloorNumber token = floorNumber floor) : Plain floor := by
  rw [← field_number_iff valid, ← scanString_accepted valid ends scanned]
  exact same

theorem number_of_plain {floor : List UInt8} (valid : validateFloorInput floor = true)
    (plain : Plain floor) :
    tokenFloorNumber (Token.ofText (floor.dropWhile isBlank) plain) = floorNumber floor := by
  rw [← (field_number_iff valid).mpr plain,
    firstField_of_solid (List.all_eq_true.mp plain.2.1), List.take_of_length_le plain.2.2]
  rfl

end Message

/-- The message for two different accepted strings is decoded exactly when both are plain. -/
theorem callDecodes_iff (source destination : CString) (message : List UInt8)
    (sent : callMain source destination = some message) :
    CallDecodes source destination message ↔ Plain source.text ∧ Plain destination.text := by
  obtain ⟨validSource, validDestination, whole⟩ := callMain_sent sent
  have noMore : 32 :: destination.text ++ [] = 32 :: destination.text := List.append_nil _
  constructor
  · intro decodes
    obtain ⟨call, parsed, current, next⟩ := decodes.parsed
    rw [whole, callMessage?_callText] at parsed
    obtain ⟨⟨currentFloor, later⟩, scanned, parsed⟩ := Option.bind_eq_some_iff.mp parsed
    obtain ⟨⟨destinationFloor, left⟩, scannedNext, parsed⟩ := Option.bind_eq_some_iff.mp parsed
    cases parsed
    have plainSource : Plain source.text :=
      plain_of_scanned validSource (fieldEnds_blank _) scanned current
    rw [scanString_plain plainSource (fieldEnds_blank destination.text)] at scanned
    cases scanned
    dsimp only at scannedNext
    rw [← noMore] at scannedNext
    exact ⟨plainSource, plain_of_scanned validDestination fieldEnds_nil scannedNext next⟩
  · rintro ⟨plainSource, plainDestination⟩
    have first := scanString_plain plainSource (fieldEnds_blank destination.text)
    have second := scanString_plain plainDestination fieldEnds_nil
    rw [noMore] at second
    refine ⟨whole, ?_⟩
    rw [whole, callMessage?_callText, first, Option.bind_some, second, Option.bind_some]
    exact ⟨_, rfl, number_of_plain validSource plainSource,
      number_of_plain validDestination plainDestination⟩

/-! ### A string of four characters -/

def zeroZeroTwelve : CString := { text := bytes "0012", noNul := by decide }

def five : CString := { text := bytes "5", noNul := by decide }

def twelve : CString := { text := bytes "12", noNul := by decide }

theorem call_decodes_wrong :
    ¬ ∀ (source destination : CString) (message : List UInt8),
      callMain source destination = some message → CallDecodes source destination message := by
  intro always
  have sent : callMain zeroZeroTwelve five = some (bytes "CALL 0012 5") := by decide
  obtain ⟨call, parsed, current, _⟩ := (always zeroZeroTwelve five _ sent).parsed
  have readsOne : (callMessage? (bytes "CALL 0012 5")).map
      (fun call => tokenFloorNumber call.currentFloor) = some 1 := by decide
  rw [parsed, Option.map_some, current] at readsOne
  exact absurd readsOne (by decide)

theorem callDecodes_iff_twelve :
    CallDecodes twelve five (bytes "CALL 12 5") ↔ Plain twelve.text ∧ Plain five.text :=
  callDecodes_iff twelve five (bytes "CALL 12 5") (by decide)

end Cab403.Elevator.CallTool
