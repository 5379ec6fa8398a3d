/-
How car.c, internal.c and safety.c make the name of the shared memory out of the name of
a car, each in its own way: car.c in a fixed array with a size taken from the argument,
internal.c in an array of that size, safety.c byte by byte with an 8-bit counter.
-/

import Cab403.Library.CBuffer

namespace Cab403.Elevator.CarNames

open CText CBuffer

def MAX_NAME_SIZE : Nat := 256
def MAX_ERROR_MSG_SIZE : Nat := MAX_NAME_SIZE + 25
def PREFIX_LENGTH : Nat := 4

def fullName (name : CString) : List UInt8 := bytes "/car" ++ name.text

inductive Outcome where
  | stopped
  | outside
  | found (name : List UInt8) (opened : Bool)

/-- `snprintf(name, shm_name_size, "/car%s", argv[1])`, in car.c and in internal.c. -/
def formatName {room : Nat} (name : Vector UInt8 room) (argument : CString) :
    Option (Vector UInt8 room) :=
  snprintfTo name (argument.strlen + 5) (fullName argument)

def openNamed (shmOpen : List UInt8 → Bool) {room : Nat} :
    Option (Vector UInt8 room) → Outcome
  | none => .outside
  | some name => .found (stringAt name.toList) (shmOpen (stringAt name.toList))

/-- `main` of car.c as far as the shared memory, with whether there is a pipe. `shm_name` is
static. -/
def carMain (shmOpen : List UInt8 → Bool) (pipe : Bool) (argv : List CString) : Outcome :=
  match argv with
  | [_, argument, _, _, _] =>
      if pipe then openNamed shmOpen (formatName (initialised 256 []) argument) else .stopped
  | _ => .stopped

/-- `main` of internal.c as far as the shared memory. `stack` is what an array holds that is
not initialised. -/
def internalMain (shmOpen : List UInt8 → Bool) (stack : (room : Nat) → Vector UInt8 room)
    (argv : List CString) : Outcome :=
  match argv with
  | [_, argument, _] => openNamed shmOpen (formatName (stack (argument.strlen + 5)) argument)
  | _ => .stopped

/-! ### safety.c -/

/-- `i` counts on where the loop goes on. -/
theorem counter_next {i : UInt8} (inside : i.toNat + 4 < MAX_NAME_SIZE) :
    (i + 1).toNat = i.toNat + 1 := by
  unfold MAX_NAME_SIZE at inside
  rw [UInt8.toNat_add, UInt8.toNat_one]
  omega

theorem length_next {len : UInt16} (inside : len.toNat < MAX_ERROR_MSG_SIZE - 1) :
    (len + 1).toNat = len.toNat + 1 := by
  unfold MAX_ERROR_MSG_SIZE MAX_NAME_SIZE at inside
  rw [UInt16.toNat_add, UInt16.toNat_one]
  omega

def copyName (argument : CString) (name : Vector UInt8 MAX_NAME_SIZE) (i : UInt8) :
    Option (Vector UInt8 MAX_NAME_SIZE × UInt8) :=
  if charAt argument.text i.toNat ≠ 0 ∧ i.toNat + 4 < MAX_NAME_SIZE then
    (store name (PREFIX_LENGTH + i.toNat) (charAt argument.text i.toNat)).bind fun name =>
      copyName argument name (i + 1)
  else some (name, i)
termination_by 256 - i.toNat
decreasing_by
  rename_i goesOn
  have next := counter_next goesOn.2
  have inside := goesOn.2
  unfold MAX_NAME_SIZE at inside
  omega

def safetyName (argument : CString) : Option (Vector UInt8 MAX_NAME_SIZE) :=
  (copyName argument (initialised MAX_NAME_SIZE (bytes "/car")) 0).bind fun copied =>
    store copied.1 (PREFIX_LENGTH + copied.2.toNat) 0

def baseMsg : List UInt8 := bytes "Unable to access car "

def copyBase (errorMsg : Vector UInt8 MAX_ERROR_MSG_SIZE) (len : UInt16) :
    Option (Vector UInt8 MAX_ERROR_MSG_SIZE × UInt16) :=
  if charAt baseMsg len.toNat ≠ 0 ∧ len.toNat < MAX_ERROR_MSG_SIZE - 1 then
    (store errorMsg len.toNat (charAt baseMsg len.toNat)).bind fun errorMsg =>
      copyBase errorMsg (len + 1)
  else some (errorMsg, len)
termination_by MAX_ERROR_MSG_SIZE - len.toNat
decreasing_by
  rename_i goesOn
  have next := length_next goesOn.2
  omega

def copyArgument (argument : CString) (errorMsg : Vector UInt8 MAX_ERROR_MSG_SIZE)
    (len : UInt16) (i : UInt8) : Option (Vector UInt8 MAX_ERROR_MSG_SIZE × UInt16) :=
  if charAt argument.text i.toNat ≠ 0 ∧ len.toNat < MAX_ERROR_MSG_SIZE - 2 then
    (store errorMsg len.toNat (charAt argument.text i.toNat)).bind fun errorMsg =>
      copyArgument argument errorMsg (len + 1) (i + 1)
  else some (errorMsg, len)
termination_by MAX_ERROR_MSG_SIZE - len.toNat
decreasing_by
  rename_i goesOn
  have next := length_next (Nat.lt_trans goesOn.2 (Nat.lt_succ_self _))
  omega

/-- The end of the message: the full stop and the line feed if there is room for both. -/
def endMessage (errorMsg : Vector UInt8 MAX_ERROR_MSG_SIZE) (len : UInt16) :
    Option (Vector UInt8 MAX_ERROR_MSG_SIZE × UInt16) :=
  if len.toNat < MAX_ERROR_MSG_SIZE - 2 then
    (store errorMsg len.toNat 46).bind fun errorMsg =>
      (store errorMsg (len + 1).toNat 10).bind fun errorMsg =>
        (store errorMsg (len + 2).toNat 0).map fun errorMsg => (errorMsg, len + 2)
  else (store errorMsg len.toNat 0).map fun errorMsg => (errorMsg, len)

def unableToAccess (argument : CString) (errorMsg : Vector UInt8 MAX_ERROR_MSG_SIZE) :
    Option (Vector UInt8 MAX_ERROR_MSG_SIZE × UInt16) :=
  (copyBase errorMsg 0).bind fun base =>
    (copyArgument argument base.1 base.2 0).bind fun copied => endMessage copied.1 copied.2

/-- `main` of safety.c as far as the shared memory. -/
def safetyMain (shmOpen : List UInt8 → Bool) (stack : (room : Nat) → Vector UInt8 room)
    (argv : List CString) : Outcome :=
  match argv with
  | [_, argument] =>
      match openNamed shmOpen (safetyName argument) with
      | .found name false =>
          if (unableToAccess argument (stack MAX_ERROR_MSG_SIZE)).isSome then .found name false
          else .outside
      | outcome => outcome
  | _ => .stopped

/-! ### The name -/

variable {argument : CString}

/-- The loop and the terminator behind it store what fits of the argument. -/
theorem copyName_eq (argument : CString) (name : Vector UInt8 MAX_NAME_SIZE) (i : UInt8)
    (reached : i.toNat ≤ argument.strlen) (early : i.toNat ≤ 252) :
    ((copyName argument name i).bind fun copied =>
        store copied.1 (PREFIX_LENGTH + copied.2.toNat) 0) =
      storeAll name (PREFIX_LENGTH + i.toNat)
        ((argument.text.drop i.toNat).take (252 - i.toNat) ++ [0]) := by
  induction name, i using copyName.induct argument with
  | case1 name i goesOn ih =>
      have inside := lt_length_of_charAt goesOn.1
      have next := counter_next goesOn.2
      have room := goesOn.2
      unfold MAX_NAME_SIZE at room
      rw [copyName, if_pos goesOn, List.drop_eq_getElem_cons inside,
        show 252 - i.toNat = 252 - (i + 1).toNat + 1 by omega, List.take_succ_cons,
        List.cons_append, storeAll, charAt_eq_getElem inside, Option.bind_assoc]
      apply Option.bind_congr
      intro stored _
      rw [ih stored (by rw [next]; exact inside) (by omega), next, Nat.add_assoc]
  | case2 name i ends =>
      rw [copyName, if_neg ends, Option.bind_some]
      have nothing : (argument.text.drop i.toNat).take (252 - i.toNat) = [] := by
        rcases Decidable.not_and_iff_or_not.mp ends with last | full
        · have past := length_le_of_charAt argument.noNul (Decidable.not_not.mp last)
          rw [List.drop_eq_nil_of_le past, List.take_nil]
        · unfold MAX_NAME_SIZE at full
          rw [show 252 - i.toNat = 0 by omega, List.take_zero]
      rw [nothing, List.nil_append, storeAll_singleton]

theorem safetyName_eq (argument : CString) :
    safetyName argument =
      storeAll (initialised MAX_NAME_SIZE (bytes "/car")) PREFIX_LENGTH
        (argument.text.take 252 ++ [0]) :=
  copyName_eq argument _ 0 (Nat.zero_le _) (Nat.zero_le _)

theorem fullName_noNul (name : CString) : (0 : UInt8) ∉ fullName name := by
  unfold fullName
  rw [List.mem_append, not_or]
  exact ⟨by decide, name.noNul⟩

theorem fullName_length (name : CString) : (fullName name).length = name.strlen + 4 := by
  unfold fullName
  rw [List.length_append, Nat.add_comm]
  rfl

theorem prefix_taken :
    (initialised MAX_NAME_SIZE (bytes "/car")).toList.take PREFIX_LENGTH = bytes "/car" := by
  have length : (bytes "/car").length = PREFIX_LENGTH := rfl
  rw [← length]
  apply initialised_take
  rw [length]
  decide

theorem safetyName_outside (long : 252 ≤ argument.strlen) : safetyName argument = none := by
  rw [safetyName_eq]
  apply storeAll_outside
  · decide
  · rw [List.length_append, List.length_take]
    change 252 ≤ argument.text.length at long
    rw [Nat.min_eq_left long]
    decide

theorem safetyName_fullName (short : argument.strlen ≤ 251) :
    ∃ name, safetyName argument = some name ∧ stringAt name.toList = fullName argument := by
  have whole : argument.text.take 252 = argument.text :=
    List.take_of_length_le (Nat.le_succ_of_le short)
  rw [safetyName_eq, whole]
  have fits : PREFIX_LENGTH + (argument.text ++ [0]).length ≤ MAX_NAME_SIZE := by
    rw [List.length_append]
    change 4 + (argument.strlen + 1) ≤ 256
    omega
  obtain ⟨name, stored, _⟩ :=
    storeAll_inside (initialised MAX_NAME_SIZE (bytes "/car")) fits
  refine ⟨name, stored, ?_⟩
  have noNul := fullName_noNul argument
  unfold fullName at noNul ⊢
  rw [← prefix_taken] at noNul ⊢
  exact stringAt_storeAll noNul stored (by decide)

/-- The size that is passed is always that of the name and its terminator. -/
theorem formatName_eq {room : Nat} (name : Vector UInt8 room) (argument : CString) :
    formatName name argument = storeAll name 0 (fullName argument ++ [0]) := by
  have length := fullName_length argument
  unfold formatName snprintfTo
  rw [if_neg (Nat.succ_ne_zero _), snprintf_of_fits (by omega)]

theorem formatName_outside {room : Nat} (name : Vector UInt8 room)
    (long : room < argument.strlen + 5) : formatName name argument = none := by
  rw [formatName_eq]
  apply storeAll_outside name (Nat.zero_le room)
  rw [List.length_append, fullName_length, List.length_singleton]
  omega

theorem formatName_fullName {room : Nat} (start : Vector UInt8 room)
    (fits : argument.strlen + 5 ≤ room) :
    ∃ name, formatName start argument = some name ∧
      stringAt name.toList = fullName argument := by
  have enough : 0 + (fullName argument ++ [0]).length ≤ room := by
    rw [List.length_append, fullName_length, List.length_singleton]
    omega
  rw [formatName_eq]
  obtain ⟨name, stored, _⟩ := storeAll_inside start enough
  refine ⟨name, stored, ?_⟩
  have noNul : (0 : UInt8) ∉ start.toList.take 0 ++ fullName argument := fullName_noNul argument
  rw [stringAt_storeAll noNul stored (Nat.zero_le room), List.take_zero, List.nil_append]

/-! ### The message -/

theorem copyBase_inside (errorMsg : Vector UInt8 MAX_ERROR_MSG_SIZE) (len : UInt16)
    (short : len.toNat ≤ 21) :
    ∃ copied, copyBase errorMsg len = some copied ∧ copied.2.toNat ≤ 21 := by
  induction errorMsg, len using copyBase.induct with
  | case1 errorMsg len goesOn ih =>
      have inside : len.toNat < 21 := lt_length_of_charAt goesOn.1
      have next := length_next goesOn.2
      rw [copyBase, if_pos goesOn, store_inside errorMsg (Nat.lt_trans inside (by decide)),
        Option.bind_some]
      exact ih _ (by omega)
  | case2 errorMsg len ends =>
      rw [copyBase, if_neg ends]
      exact ⟨_, rfl, short⟩

/-- Whatever the 8-bit counter reads, the stores are bounded by the length. -/
theorem copyArgument_inside (argument : CString) (errorMsg : Vector UInt8 MAX_ERROR_MSG_SIZE)
    (len : UInt16) (i : UInt8) (short : len.toNat ≤ 279) :
    ∃ copied, copyArgument argument errorMsg len i = some copied ∧ copied.2.toNat ≤ 279 := by
  induction errorMsg, len, i using copyArgument.induct argument with
  | case1 errorMsg len i goesOn ih =>
      have inside : len.toNat < 279 := goesOn.2
      have next := length_next (Nat.lt_trans inside (by decide))
      rw [copyArgument, if_pos goesOn, store_inside errorMsg (Nat.lt_trans inside (by decide)),
        Option.bind_some]
      exact ih _ (by omega)
  | case2 errorMsg len i ends =>
      rw [copyArgument, if_neg ends]
      exact ⟨_, rfl, short⟩

theorem endMessage_inside (errorMsg : Vector UInt8 MAX_ERROR_MSG_SIZE) {len : UInt16}
    (short : len.toNat ≤ 279) : (endMessage errorMsg len).isSome := by
  unfold endMessage
  have size : MAX_ERROR_MSG_SIZE = 281 := rfl
  split
  · rename_i inside
    have next : (len + 1).toNat = len.toNat + 1 := length_next (by omega)
    have last : (len + 2).toNat = len.toNat + 2 := by
      rw [UInt16.toNat_add]
      change (len.toNat + 2) % 65536 = len.toNat + 2
      omega
    rw [store_inside _ (by omega), Option.bind_some, store_inside _ (by omega), Option.bind_some,
      store_inside _ (by omega)]
    rfl
  · rw [store_inside _ (by omega)]
    rfl

/-- No name is too long for the message. -/
theorem unableToAccess_inside (argument : CString)
    (errorMsg : Vector UInt8 MAX_ERROR_MSG_SIZE) : (unableToAccess argument errorMsg).isSome := by
  obtain ⟨base, copiedBase, shortBase⟩ := copyBase_inside errorMsg 0 (Nat.zero_le 21)
  obtain ⟨copied, copiedArgument, short⟩ :=
    copyArgument_inside argument base.1 base.2 0 (by omega)
  unfold unableToAccess
  rw [copiedBase, Option.bind_some, copiedArgument, Option.bind_some]
  exact endMessage_inside copied.1 short

/-! ### The three programs -/

/-- A program that ends early, or asks for the full name, with no store outside. -/
def Finds (name : CString) (outcome : Outcome) : Prop :=
  outcome = .stopped ∨ ∃ opened, outcome = .found (fullName name) opened

/-- Whatever else the programs are given, with the name as `argv[1]` each of them finds the
car. -/
def FindTheSameCar (name : CString) : Prop :=
  ∀ (shmOpen : List UInt8 → Bool) (stack : (room : Nat) → Vector UInt8 room) (pipe : Bool)
    (carArgv internalArgv safetyArgv : List CString),
    carArgv[1]? = some name → internalArgv[1]? = some name → safetyArgv[1]? = some name →
      Finds name (carMain shmOpen pipe carArgv) ∧
        Finds name (internalMain shmOpen stack internalArgv) ∧
          Finds name (safetyMain shmOpen stack safetyArgv)

variable {shmOpen : List UInt8 → Bool} {stack : (room : Nat) → Vector UInt8 room}
  {argv : List CString} {name : CString}

theorem openNamed_finds {room : Nat} {built : Option (Vector UInt8 room)}
    (full : ∃ array, built = some array ∧ stringAt array.toList = fullName name) :
    openNamed shmOpen built = .found (fullName name) (shmOpen (fullName name)) := by
  obtain ⟨array, rfl, same⟩ := full
  unfold openNamed
  dsimp only
  rw [same]

theorem carMain_finds (pipe : Bool) (given : argv[1]? = some name) (short : name.strlen ≤ 251) :
    Finds name (carMain shmOpen pipe argv) := by
  unfold carMain
  split
  · cases given
    cases pipe with
    | false => exact .inl rfl
    | true => exact .inr ⟨_, openNamed_finds (formatName_fullName _ (by omega))⟩
  · exact .inl rfl

theorem internalMain_finds (given : argv[1]? = some name) :
    Finds name (internalMain shmOpen stack argv) := by
  unfold internalMain
  split
  · cases given
    exact .inr ⟨_, openNamed_finds (formatName_fullName _ (Nat.le_refl _))⟩
  · exact .inl rfl

theorem safetyMain_finds (given : argv[1]? = some name) (short : name.strlen ≤ 251) :
    Finds name (safetyMain shmOpen stack argv) := by
  unfold safetyMain
  split
  · cases given
    rw [openNamed_finds (safetyName_fullName short), unableToAccess_inside]
    cases shmOpen (fullName name) with
    | false => exact .inr ⟨false, rfl⟩
    | true => exact .inr ⟨true, rfl⟩
  · exact .inl rfl

theorem carMain_outside (program floor delay : CString) (long : 252 ≤ name.strlen) :
    carMain shmOpen true [program, name, floor, floor, delay] = .outside := by
  unfold carMain
  dsimp only
  rw [if_pos rfl, formatName_outside _ (by omega)]
  rfl

theorem safetyMain_outside (program : CString) (long : 252 ≤ name.strlen) :
    safetyMain shmOpen stack [program, name] = .outside := by
  unfold safetyMain
  dsimp only
  rw [safetyName_outside long]
  rfl

theorem not_finds_outside : ¬ Finds name .outside := by
  rintro (stopped | ⟨opened, found⟩)
  · cases stopped
  · cases found

theorem findTheSameCar_iff (name : CString) : FindTheSameCar name ↔ name.strlen ≤ 251 := by
  constructor
  · intro finds
    by_contra long
    have car := (finds (fun _ => true) (fun room => initialised room []) true
      [name, name, name, name, name] [name, name] [name, name] rfl rfl rfl).1
    rw [carMain_outside name name name (by omega)] at car
    exact not_finds_outside car
  · intro short shmOpen stack pipe carArgv internalArgv safetyArgv car internal safety
    exact ⟨carMain_finds pipe car short, internalMain_finds internal,
      safetyMain_finds safety short⟩

def longName : CString :=
  { text := List.replicate 252 65
    noNul := fun member => absurd (List.eq_of_mem_replicate member) (by decide) }

/-- With 252 letters, car.c and safety.c write behind the 256 bytes of their arrays. -/
theorem longName_outside :
    carMain (fun _ => true) true [longName, longName, longName, longName, longName] = .outside ∧
      safetyMain (fun _ => true) (fun room => initialised room []) [longName, longName] =
        .outside ∧
      ¬ FindTheSameCar longName := by
  have long : longName.strlen = 252 := List.length_replicate
  have car : carMain (fun _ => true) true [longName, longName, longName, longName, longName] =
      .outside := carMain_outside longName longName longName (Nat.le_of_eq long.symm)
  refine ⟨car, safetyMain_outside longName (Nat.le_of_eq long.symm), fun finds => ?_⟩
  have found := (finds (fun _ => true) (fun room => initialised room []) true
    [longName, longName, longName, longName, longName] [longName, longName] [longName, longName]
    rfl rfl rfl).1
  rw [car] at found
  exact not_finds_outside found

end Cab403.Elevator.CarNames
