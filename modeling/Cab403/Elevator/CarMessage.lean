/-
The messages of a car: the arguments of `main` copied into a structure nobody has
initialised, the `CAR` message printed from it, the `STATUS` and `FLOOR` messages,
and how the other side scans them. The bytes the structure held before are arbitrary.
-/

import Cab403.Elevator.ControllerPeers

namespace Cab403.Elevator.CarMessage

open CText Controller CarRegistry Peers

/-! ### The arguments of the connection thread -/

/-- `controller_con_args_t`, the pipe descriptors as part of what lies behind the floors. -/
structure ControllerConArgs where
  name : Vector UInt8 100
  lowestFloor : Vector UInt8 4
  highestFloor : Vector UInt8 4
  behind : List UInt8

namespace ControllerConArgs

def copy (args : ControllerConArgs) (name : Token 98) (lowestFloor highestFloor : Token 3) :
    ControllerConArgs :=
  { args with
    name := strncpy args.name name.text 99
    lowestFloor := strncpy args.lowestFloor lowestFloor.text 3
    highestFloor := strncpy args.highestFloor highestFloor.text 3 }

def fromHighest (args : ControllerConArgs) : List UInt8 :=
  args.highestFloor.toList ++ args.behind

def fromLowest (args : ControllerConArgs) : List UInt8 :=
  args.lowestFloor.toList ++ args.fromHighest

def fromName (args : ControllerConArgs) : List UInt8 :=
  args.name.toList ++ args.fromLowest

/-- The last byte of `lowest_floor`, which no copy writes. -/
def leftover (args : ControllerConArgs) : UInt8 := args.lowestFloor[3]

def initialMessage (args : ControllerConArgs) : List UInt8 :=
  snprintf 256
    (bytes "CAR" ++ 32 :: (stringAt args.fromName ++
      32 :: (stringAt args.fromLowest ++ 32 :: stringAt args.fromHighest)))

end ControllerConArgs

/-! ### Decoding -/

def readName (name : Token 98) : Token 255 :=
  { text := name.text
    nonempty := name.nonempty
    solid := name.solid
    short := by have short := name.short; omega }

def CarDecodes (args : ControllerConArgs) (name : Token 98) (lowestFloor highestFloor : Token 3) :
    Prop :=
  carMessage? (args.copy name lowestFloor highestFloor).initialMessage =
    some (readName name, { lowestFloor := lowestFloor, highestFloor := highestFloor })

def StatusDecodes (status : Status) (currentFloor destinationFloor : Token 3) : Prop :=
  statusMessage? (snprintf 256 (statusLine status.text currentFloor.text destinationFloor.text)) =
    some
      { currentFloor := currentFloor
        destinationFloor := destinationFloor
        status := statusToken status }

def FloorDecodes (floor : Token 3) : Prop :=
  floorMessage? (snprintf 10 (floorText floor).text ++ [0]) = some floor

/-- The byte behind `lowest_floor` does no harm: a terminator is written over it, it is
one or a blank, or the next field reads the same with it. -/
def Harmless (args : ControllerConArgs) (lowestFloor highestFloor : Token 3) : Prop :=
  lowestFloor.text.length < 3 ∨ args.leftover = 0 ∨ isBlank args.leftover = true ∨
    (args.leftover :: highestFloor.text).take 3 = highestFloor.text

/-! ### What is printed -/

section Printed

variable (args : ControllerConArgs) (name : Token 98) (lowestFloor highestFloor : Token 3)

def gap : UInt8 :=
  if lowestFloor.text.length < 3 ∨ args.leftover = 0 then 32 else args.leftover

theorem stringAt_fromName :
    stringAt (args.copy name lowestFloor highestFloor).fromName = name.text := by
  have short := name.short
  exact stringAt_strncpy args.name name.noNul (by omega) (by omega) _

theorem stringAt_fromHighest :
    ∃ extra, stringAt (args.copy name lowestFloor highestFloor).fromHighest =
        highestFloor.text ++ extra ∧
      (highestFloor.text.length = 3 ∨ extra = []) := by
  have short := highestFloor.short
  by_cases full : highestFloor.text.length = 3
  · refine ⟨stringAt (args.highestFloor.toList.drop 3 ++ args.behind), ?_, Or.inl full⟩
    have copied := strncpy_toList args.highestFloor (Nat.le_of_eq full) (show 3 ≤ 4 by decide)
    rw [full] at copied
    rw [ControllerConArgs.fromHighest, ControllerConArgs.copy, copied, List.append_assoc,
      stringAt_append highestFloor.noNul]
    rfl
  · refine ⟨[], ?_, Or.inr rfl⟩
    rw [List.append_nil]
    exact stringAt_strncpy args.highestFloor highestFloor.noNul (by omega) (by omega) _

theorem fromLowest_of_full (full : lowestFloor.text.length = 3) :
    (args.copy name lowestFloor highestFloor).fromLowest =
      lowestFloor.text ++
        args.leftover :: (args.copy name lowestFloor highestFloor).fromHighest := by
  have copied := strncpy_toList args.lowestFloor (Nat.le_of_eq full) (show 3 ≤ 4 by decide)
  have lastByte : args.lowestFloor.toList.drop 3 = [args.leftover] := by
    have size : args.lowestFloor.toList.length = 4 := args.lowestFloor.length_toList
    rw [List.drop_eq_getElem_cons (by omega), List.drop_of_length_le (by omega)]
    rfl
  rw [full, lastByte] at copied
  rw [ControllerConArgs.fromLowest]
  simp only [ControllerConArgs.copy, copied, Nat.sub_self, List.replicate_zero, List.nil_append,
    List.append_assoc, List.singleton_append]

theorem floors_printed :
    ∃ later, stringAt (args.copy name lowestFloor highestFloor).fromLowest ++
        32 :: stringAt (args.copy name lowestFloor highestFloor).fromHighest =
        lowestFloor.text ++ gap args lowestFloor :: (highestFloor.text ++ later) ∧
      (highestFloor.text.length = 3 ∨ FieldEnds later) := by
  obtain ⟨extra, highest, bounded⟩ := stringAt_fromHighest args name lowestFloor highestFloor
  have short := lowestFloor.short
  have ends : highestFloor.text.length = 3 ∨ FieldEnds extra := by
    rcases bounded with full | rfl
    · exact Or.inl full
    · exact Or.inr fieldEnds_nil
  by_cases terminated : lowestFloor.text.length < 3 ∨ args.leftover = 0
  · have lowest : stringAt (args.copy name lowestFloor highestFloor).fromLowest =
        lowestFloor.text := by
      by_cases full : lowestFloor.text.length = 3
      · have nul := terminated.resolve_left (by omega)
        rw [fromLowest_of_full args name lowestFloor highestFloor full, nul,
          stringAt_append lowestFloor.noNul, stringAt_nul, List.append_nil]
      · exact stringAt_strncpy args.lowestFloor lowestFloor.noNul (by omega) (by omega) _
    refine ⟨extra, ?_, ends⟩
    rw [lowest, highest, gap, if_pos terminated]
  · have full : lowestFloor.text.length = 3 := by
      rw [not_or] at terminated
      omega
    have notNul : args.leftover ≠ 0 := fun nul => terminated (Or.inr nul)
    refine ⟨extra ++ 32 :: (highestFloor.text ++ extra), ?_, ?_⟩
    · rw [fromLowest_of_full args name lowestFloor highestFloor full,
        stringAt_append lowestFloor.noNul, stringAt_cons_of_ne notNul, highest, gap,
        if_neg terminated]
      simp only [List.append_assoc, List.cons_append]
    · rcases bounded with wide | rfl
      · exact Or.inl wide
      · exact Or.inr (fieldEnds_blank _)

/-- The message up to the second floor: its cut lies behind. -/
theorem initialMessage_shape :
    ∃ later, (args.copy name lowestFloor highestFloor).initialMessage =
        bytes "CAR" ++ 32 :: (name.text ++
          32 :: (lowestFloor.text ++ gap args lowestFloor :: (highestFloor.text ++ later))) ∧
      (highestFloor.text.length = 3 ∨ FieldEnds later) := by
  obtain ⟨later, printed, ends⟩ := floors_printed args name lowestFloor highestFloor
  have nameShort := name.short
  have lowestShort := lowestFloor.short
  have highestShort := highestFloor.short
  let front := bytes "CAR" ++ 32 :: (name.text ++
    32 :: (lowestFloor.text ++ gap args lowestFloor :: highestFloor.text))
  have frontFits : front.length ≤ 255 := by
    have literal : (bytes "CAR").length = 3 := by decide
    simp only [front, List.length_append, List.length_cons, literal]
    omega
  refine ⟨later.take (255 - front.length), ?_, ends.imp_right fun ends => ends.take _⟩
  rw [ControllerConArgs.initialMessage, stringAt_fromName, printed]
  have whole : bytes "CAR" ++ 32 :: (name.text ++
      32 :: (lowestFloor.text ++ gap args lowestFloor :: (highestFloor.text ++ later))) =
      front ++ later := by
    simp only [front, List.append_assoc, List.cons_append]
  rw [whole, snprintf, List.take_append, List.take_of_length_le frontFits]
  simp only [front, List.append_assoc, List.cons_append]

end Printed

/-! ### What is scanned -/

section Scanned

variable {name : Token 98} {lowestFloor highestFloor : Token 3} {next : UInt8}
  {later : List UInt8}

theorem carMessage?_floors (ends : lowestFloor.text.length = 3 ∨ next = 32) :
    carMessage? (bytes "CAR" ++ 32 :: (name.text ++
        32 :: (lowestFloor.text ++ next :: (highestFloor.text ++ later)))) =
      (scanString 3 (next :: (highestFloor.text ++ later))).map fun scanned =>
        (readName name, { lowestFloor := lowestFloor, highestFloor := scanned.1 }) := by
  have first : scanString 255 (32 :: (name.text ++
      32 :: (lowestFloor.text ++ next :: (highestFloor.text ++ later)))) =
      some (readName name, 32 :: (lowestFloor.text ++ next :: (highestFloor.text ++ later))) :=
    scanString_space (readName name) (fieldEnds_blank _)
  have second : scanString 3 (32 :: (lowestFloor.text ++ next :: (highestFloor.text ++ later))) =
      some (lowestFloor, next :: (highestFloor.text ++ later)) := by
    rcases ends with full | rfl
    · rw [scanString_skip (by decide), scanString_full lowestFloor full]
    · exact scanString_space lowestFloor (fieldEnds_blank _)
  simp only [carMessage?, stripLiteral_append, Option.bind_eq_bind, Option.bind_some, first, second,
    Option.pure_def]
  cases scanString 3 (next :: (highestFloor.text ++ later)) with
  | none => rfl
  | some scanned => rfl

/-- A byte that is no blank becomes part of the second floor. -/
theorem firstField_cons (solid : isSolid next = true)
    (ends : highestFloor.text.length = 3 ∨ FieldEnds later) :
    firstField 3 (next :: (highestFloor.text ++ later)) = (next :: highestFloor.text).take 3 := by
  have allSolid : ∀ byte ∈ next :: highestFloor.text, isSolid byte = true :=
    List.forall_mem_cons.mpr ⟨solid, highestFloor.solid⟩
  have unblanked : (next :: highestFloor.text).dropWhile isBlank = next :: highestFloor.text :=
    dropWhile_blank_of_solid fun byte first => allSolid byte (List.mem_of_mem_head? first)
  have found : (next :: highestFloor.text).dropWhile isBlank ≠ [] := by
    rw [unblanked]
    exact List.cons_ne_nil _ _
  have own : firstField 3 (next :: highestFloor.text) = (next :: highestFloor.text).take 3 := by
    rw [firstField, unblanked, List.takeWhile_eq_self_iff.mpr allSolid]
  rw [← List.cons_append]
  rcases ends with full | ends
  · rw [firstField, dropWhile_blank_append found, unblanked,
      List.takeWhile_append_of_pos allSolid, List.take_append_of_le_length]
    rw [List.length_cons]
    omega
  · rw [firstField_append found ends, own]

theorem secondFloor_iff (notNul : next ≠ 0)
    (ends : highestFloor.text.length = 3 ∨ FieldEnds later) :
    (∃ rest, scanString 3 (next :: (highestFloor.text ++ later)) = some (highestFloor, rest)) ↔
      isBlank next = true ∨ (next :: highestFloor.text).take 3 = highestFloor.text := by
  cases blank : isBlank next with
  | true =>
      refine iff_of_true ⟨later, ?_⟩ (Or.inl rfl)
      rw [scanString_skip blank]
      rcases ends with full | ends
      · exact scanString_full highestFloor full later
      · exact scanString_token highestFloor ends
  | false =>
      have solid : isSolid next = true := by simp [isSolid, blank, notNul]
      have field := firstField_cons solid ends
      rw [or_iff_right Bool.false_ne_true]
      constructor
      · rintro ⟨rest, scanned⟩
        rw [← field, ← scanString_firstField scanned]
      · intro same
        rw [← field] at same
        exact scanString_of_firstField same

end Scanned

theorem carDecodes_iff (args : ControllerConArgs) (name : Token 98)
    (lowestFloor highestFloor : Token 3) :
    CarDecodes args name lowestFloor highestFloor ↔ Harmless args lowestFloor highestFloor := by
  obtain ⟨later, shape, ends⟩ := initialMessage_shape args name lowestFloor highestFloor
  have short := lowestFloor.short
  have lowestEnds : lowestFloor.text.length = 3 ∨ gap args lowestFloor = 32 := by
    unfold gap
    split
    · exact Or.inr rfl
    · rename_i open_
      rw [not_or] at open_
      exact Or.inl (by omega)
  have notNul : gap args lowestFloor ≠ 0 := by
    unfold gap
    split
    · decide
    · rename_i open_
      rw [not_or] at open_
      exact open_.2
  have decodes : CarDecodes args name lowestFloor highestFloor ↔
      ∃ rest, scanString 3 (gap args lowestFloor :: (highestFloor.text ++ later)) =
        some (highestFloor, rest) := by
    rw [CarDecodes, shape, carMessage?_floors lowestEnds, Option.map_eq_some_iff]
    constructor
    · rintro ⟨⟨floor, rest⟩, scanned, same⟩
      cases same
      exact ⟨rest, scanned⟩
    · rintro ⟨rest, scanned⟩
      exact ⟨_, scanned, rfl⟩
  rw [decodes, secondFloor_iff notNul ends, Harmless, ← or_assoc]
  unfold gap
  split
  · rename_i terminated
    exact iff_of_true (Or.inl (by decide)) (Or.inl terminated)
  · rename_i open_
    exact (or_iff_right open_).symm

theorem statusDecodes (status : Status) (currentFloor destinationFloor : Token 3) :
    StatusDecodes status currentFloor destinationFloor := by
  have statusShort : status.text.length ≤ 7 := by cases status <;> decide
  have currentShort := currentFloor.short
  have destinationShort := destinationFloor.short
  have literal : (bytes "STATUS").length = 6 := by decide
  rw [StatusDecodes, snprintf_of_fits]
  · exact statusMessage?_statusLine
      { currentFloor := currentFloor
        destinationFloor := destinationFloor
        status := statusToken status }
  · simp only [statusLine, List.length_append, List.length_cons, literal]
    omega

theorem floorDecodes (floor : Token 3) : FloorDecodes floor := by
  have short := floor.short
  have literal : (bytes "FLOOR ").length = 6 := by decide
  rw [FloorDecodes, snprintf_of_fits]
  · exact floorMessage?_floorText floor
  · simp only [floorText, List.length_append, literal]
    omega

/-- The messages are decoded exactly when the byte behind `lowest_floor` is harmless. -/
theorem carMessages_decode_iff (args : ControllerConArgs) (name : Token 98)
    (lowestFloor highestFloor : Token 3) (status : Status)
    (currentFloor destinationFloor : Token 3) :
    (CarDecodes args name lowestFloor highestFloor ∧
        StatusDecodes status currentFloor destinationFloor ∧ FloorDecodes currentFloor) ↔
      Harmless args lowestFloor highestFloor := by
  rw [carDecodes_iff, and_iff_left]
  exact ⟨statusDecodes status currentFloor destinationFloor, floorDecodes currentFloor⟩

/-! ### A floor of three characters -/

def dirtyArgs : ControllerConArgs :=
  { name := Vector.replicate 100 120
    lowestFloor := Vector.replicate 4 120
    highestFloor := Vector.replicate 4 120
    behind := [0] }

def basementTwelve : Level :=
  { number := -12
    lowest := by decide
    highest := by decide
    nonzero := by decide }

def levelFive : Level :=
  { number := 5
    lowest := by decide
    highest := by decide
    nonzero := by decide }

theorem carMessage_decodes_wrong :
    ¬ ∀ (args : ControllerConArgs) (name : Token 98) (lowestFloor highestFloor : Token 3)
      (lowest highest : Level), lowestFloor.text = lowest.label →
      highestFloor.text = highest.label → CarDecodes args name lowestFloor highestFloor := by
  intro always
  have lowestLabel : (Token.ofText (bytes "B12") : Token 3).text = basementTwelve.label := by
    norm_num [Level.label, basementTwelve, CDecimal.decimal]
    decide
  have highestLabel : (digitFloor 5).text = levelFive.label := by
    norm_num [Level.label, levelFive, CDecimal.decimal]
    decide
  have decodes := always dirtyArgs (Token.ofText (bytes "A")) (Token.ofText (bytes "B12"))
    (digitFloor 5) basementTwelve levelFive lowestLabel highestLabel
  exact absurd decodes (by unfold CarDecodes; decide +kernel)

end Cab403.Elevator.CarMessage
