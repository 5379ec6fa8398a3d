/-
Text as a C program holds it: bytes in fixed-size character arrays, fields that
`%Ns` scans out of a message, and bounded formatting. Lengths, the absence of an
embedded terminator and the absence of blanks are carried by the types.
-/

import Mathlib.Data.List.TakeDrop
import Mathlib.Data.List.TakeWhile

namespace Cab403.CText

def bytes (literal : String) : List UInt8 := literal.toList.map Char.toUInt8

def isBlank (byte : UInt8) : Bool :=
  byte == 32 || (9 ≤ byte && byte ≤ 13)

/-- A byte that `%s` stores: neither a blank nor the terminator. -/
def isSolid (byte : UInt8) : Bool := !isBlank byte && byte != 0

/-- What a `char[size]` holds: the bytes before the first terminator, or all of
them when there is none. Nothing reads the bytes behind the terminator. -/
@[ext] structure CharArray (size : Nat) where
  text : List UInt8
  noNul : (0 : UInt8) ∉ text
  fits : text.length ≤ size
  deriving DecidableEq

namespace CharArray

def empty (size : Nat) : CharArray size :=
  { text := []
    noNul := List.not_mem_nil
    fits := Nat.zero_le size }

def Terminated {size : Nat} (array : CharArray size) : Prop := array.text.length < size

instance {size : Nat} (array : CharArray size) : Decidable array.Terminated :=
  inferInstanceAs (Decidable (_ < _))

theorem text_injective {size : Nat} {left right : CharArray size}
    (same : left.text = right.text) : left = right :=
  CharArray.ext same

end CharArray

/-- A C string of any length, less its terminator. -/
@[ext] structure CString where
  text : List UInt8
  noNul : (0 : UInt8) ∉ text
  deriving DecidableEq

def CString.strlen (string : CString) : Nat := string.text.length

/-- `snprintf` into a `char[size]`: the formatted bytes, cut so that a
terminator still fits. -/
def snprintf (size : Nat) (formatted : List UInt8) : List UInt8 :=
  formatted.take (size - 1)

theorem snprintf_of_fits {size : Nat} {formatted : List UInt8}
    (fits : formatted.length < size) : snprintf size formatted = formatted :=
  List.take_of_length_le (by omega)

/-- `snprintf` as a write to the array itself. -/
def CharArray.format (size : Nat) (formatted : List UInt8) (noNul : (0 : UInt8) ∉ formatted) :
    CharArray size :=
  { text := snprintf size formatted
    noNul := fun member => noNul (List.mem_of_mem_take member)
    fits := (List.length_take_le (size - 1) formatted).trans (Nat.sub_le size 1) }

theorem CharArray.format_terminated {size : Nat} (positive : 0 < size) (formatted : List UInt8)
    (noNul : (0 : UInt8) ∉ formatted) : (CharArray.format size formatted noNul).Terminated := by
  have length := List.length_take_le (size - 1) formatted
  change (formatted.take (size - 1)).length < size
  omega

@[simp] theorem CharArray.format_text (size : Nat) (formatted : List UInt8)
    (noNul : (0 : UInt8) ∉ formatted) :
    (CharArray.format size formatted noNul).text = snprintf size formatted := rfl

/-! ### Strings in memory -/

/-- What `%s` reads: everything before the next terminator, past the end of an array if
the array has none. -/
def stringAt (memory : List UInt8) : List UInt8 := memory.takeWhile (· != 0)

def strncpy {size : Nat} (dest : Vector UInt8 size) (src : List UInt8) (count : Nat) :
    Vector UInt8 size :=
  Vector.ofFn fun index => if index.val < count then src[index.val]?.getD 0 else dest[index]

theorem strncpy_toList {size : Nat} (dest : Vector UInt8 size) {src : List UInt8} {count : Nat}
    (fits : src.length ≤ count) (room : count ≤ size) :
    (strncpy dest src count).toList =
      src ++ (List.replicate (count - src.length) 0 ++ dest.toList.drop count) := by
  apply List.ext_getElem
  · simp only [Vector.length_toList, List.length_append, List.length_replicate, List.length_drop]
    omega
  · intro index left right
    rw [Vector.length_toList] at left
    simp only [strncpy, Vector.getElem_toList, Vector.getElem_ofFn]
    by_cases copied : index < src.length
    · rw [if_pos (by omega), List.getElem_append_left copied, List.getElem?_eq_getElem copied,
        Option.getD_some]
    · rw [List.getElem_append_right (by omega)]
      by_cases filled : index < count
      · rw [if_pos filled, List.getElem?_eq_none (by omega), Option.getD_none,
          List.getElem_append_left, List.getElem_replicate]
        simp only [List.length_replicate]
        omega
      · rw [if_neg filled, List.getElem_append_right, List.getElem_drop]
        · simp only [List.length_replicate, Vector.getElem_toList, Fin.getElem_fin]
          congr 1
          omega
        · simp only [List.length_replicate]
          omega

theorem stringAt_append {text : List UInt8} (noNul : (0 : UInt8) ∉ text) (rest : List UInt8) :
    stringAt (text ++ rest) = text ++ stringAt rest := by
  apply List.takeWhile_append_of_pos
  intro byte member
  rw [bne_iff_ne]
  rintro rfl
  exact noNul member

theorem stringAt_nul (rest : List UInt8) : stringAt (0 :: rest) = [] := rfl

theorem stringAt_cons_of_ne {byte : UInt8} (solid : byte ≠ 0) (rest : List UInt8) :
    stringAt (byte :: rest) = byte :: stringAt rest :=
  List.takeWhile_cons_of_pos (bne_iff_ne.mpr solid)

/-- A copy that leaves room for a terminator is read back. -/
theorem stringAt_strncpy {size : Nat} (dest : Vector UInt8 size) {src : List UInt8} {count : Nat}
    (noNul : (0 : UInt8) ∉ src) (shorter : src.length < count) (room : count ≤ size)
    (rest : List UInt8) : stringAt ((strncpy dest src count).toList ++ rest) = src := by
  obtain ⟨more, padding⟩ := Nat.exists_eq_succ_of_ne_zero (show count - src.length ≠ 0 by omega)
  rw [strncpy_toList dest (Nat.le_of_lt shorter) room, padding, List.replicate_succ,
    List.append_assoc, stringAt_append noNul, List.cons_append, List.cons_append, stringAt_nul,
    List.append_nil]

/-- A bounded comparison that goes on past equal bytes and compares the ends decides
equality of strings within its limit. -/
theorem comparison_iff {compare : List UInt8 → List UInt8 → Nat → Bool}
    (past : ∀ left right rest1 rest2 limit,
      compare (left :: rest1) (right :: rest2) (limit + 1) =
        if left ≠ right then false else compare rest1 rest2 limit)
    (ends : ∀ str1 str2 limit, str1 = [] ∨ str2 = [] →
      (compare str1 str2 (limit + 1) = true ↔ str1.headD 0 = str2.headD 0))
    {str1 str2 : List UInt8} (limit : Nat) (noNul1 : (0 : UInt8) ∉ str1)
    (noNul2 : (0 : UInt8) ∉ str2) (short : str2.length < limit) :
    compare str1 str2 limit = true ↔ str1 = str2 := by
  induction limit generalizing str1 str2 with
  | zero => exact absurd short (Nat.not_lt_zero _)
  | succ limit ih =>
      cases str1 with
      | nil =>
          rw [ends [] str2 limit (Or.inl rfl)]
          cases str2 with
          | nil => simp
          | cons right rest => simp [List.ne_of_not_mem_cons noNul2]
      | cons left rest1 =>
          cases str2 with
          | nil =>
              rw [ends (left :: rest1) [] limit (Or.inr rfl)]
              simp [(List.ne_of_not_mem_cons noNul1).symm]
          | cons right rest2 =>
              have tail := ih (List.not_mem_of_not_mem_cons noNul1)
                (List.not_mem_of_not_mem_cons noNul2) (Nat.lt_of_succ_lt_succ short)
              rw [past, List.cons.injEq, ← tail]
              by_cases same : left = right
              · simp only [same, ne_eq, not_true, if_false, true_and]
              · simp only [same, ne_eq, not_false_iff, if_true, Bool.false_eq_true, false_and]

/-! ### Scanned fields -/

/-- A field stored by `%Ns`: at least one byte, at most `width`, all solid. -/
@[ext] structure Token (width : Nat) where
  text : List UInt8
  nonempty : text ≠ []
  solid : ∀ byte ∈ text, isSolid byte = true
  short : text.length ≤ width
  deriving DecidableEq

namespace Token

theorem text_injective {width : Nat} {left right : Token width}
    (same : left.text = right.text) : left = right :=
  Token.ext same

/-- `%<width>s` stores all of `text`. -/
def Spells (width : Nat) (text : List UInt8) : Prop :=
  text ≠ [] ∧ text.all isSolid = true ∧ text.length ≤ width

instance (width : Nat) (text : List UInt8) : Decidable (Spells width text) :=
  inferInstanceAs (Decidable (_ ∧ _ ∧ _))

def ofText {width : Nat} (text : List UInt8) (spells : Spells width text := by decide) :
    Token width :=
  { text := text
    nonempty := spells.1
    solid := List.all_eq_true.mp spells.2.1
    short := spells.2.2 }

theorem noNul {width : Nat} (token : Token width) : (0 : UInt8) ∉ token.text := by
  intro member
  have solid := token.solid 0 member
  simp [isSolid] at solid

def chars {width : Nat} (token : Token width) : CharArray (width + 1) :=
  { text := token.text
    noNul := token.noNul
    fits := by have short := token.short; omega }

@[simp] theorem chars_text {width : Nat} (token : Token width) :
    token.chars.text = token.text := rfl

theorem chars_terminated {width : Nat} (token : Token width) : token.chars.Terminated := by
  have short := token.short
  simp only [CharArray.Terminated, chars_text]
  omega

theorem chars_inj {width : Nat} {left right : Token width} :
    left.chars = right.chars ↔ left = right := by
  constructor
  · intro same
    exact text_injective (congrArg CharArray.text same)
  · rintro rfl
    rfl

theorem chars_ne_empty {width : Nat} (token : Token width) :
    token.chars ≠ CharArray.empty (width + 1) := by
  intro same
  exact token.nonempty (congrArg CharArray.text same)

end Token

private theorem field_solid (width : Nat) (input : List UInt8) :
    ∀ byte ∈ (input.takeWhile isSolid).take width, isSolid byte = true := by
  intro byte member
  exact List.mem_takeWhile_imp (List.mem_of_mem_take member)

/-- One `%Ns` conversion: skip blanks, then store up to `width` solid bytes.
Yields the stored field and the unread input. -/
def scanString (width : Nat) (input : List UInt8) : Option (Token width × List UInt8) :=
  let unblanked := input.dropWhile isBlank
  let field := (unblanked.takeWhile isSolid).take width
  if found : field = [] then none
  else
    some
      ({ text := field
         nonempty := found
         solid := field_solid width unblanked
         short := List.length_take_le width _ },
        unblanked.drop field.length)

def stripLiteral (literal input : List UInt8) : Option (List UInt8) :=
  if literal <+: input then some (input.drop literal.length) else none

theorem stripLiteral_append (literal rest : List UInt8) :
    stripLiteral literal (literal ++ rest) = some rest := by
  simp only [stripLiteral, List.prefix_append, if_true, List.drop_left]

/-- The next byte ends a field: the input is over or goes on with a byte that
`%s` does not store. -/
def FieldEnds (rest : List UInt8) : Prop := ∀ byte ∈ rest.head?, isSolid byte = false

theorem fieldEnds_nil : FieldEnds [] := by
  intro byte member
  cases member

theorem FieldEnds.take {rest : List UInt8} (ends : FieldEnds rest) (count : Nat) :
    FieldEnds (rest.take count) := by
  cases count with
  | zero => exact fieldEnds_nil
  | succ count =>
      cases rest with
      | nil => exact fieldEnds_nil
      | cons head tail => exact ends

theorem fieldEnds_blank (rest : List UInt8) : FieldEnds (32 :: rest) := by
  intro byte member
  cases member
  decide

private theorem isBlank_of_isSolid {byte : UInt8} (solid : isSolid byte = true) :
    isBlank byte = false := by
  cases blank : isBlank byte with
  | false => rfl
  | true => simp [isSolid, blank] at solid

/-- A text that begins with a byte that `%s` stores has no leading blanks. -/
theorem dropWhile_blank_of_solid {text : List UInt8}
    (solid : ∀ byte ∈ text.head?, isSolid byte = true) : text.dropWhile isBlank = text := by
  cases text with
  | nil => rfl
  | cons head tail =>
      rw [List.dropWhile_cons_of_neg]
      rw [isBlank_of_isSolid (solid head rfl)]
      exact Bool.false_ne_true

private theorem dropWhile_token {width : Nat} (token : Token width) (rest : List UInt8) :
    (token.text ++ rest).dropWhile isBlank = token.text ++ rest := by
  apply dropWhile_blank_of_solid
  intro byte first
  cases shape : token.text with
  | nil => exact absurd shape token.nonempty
  | cons head tail =>
      rw [shape] at first
      have same : head = byte := Option.some.inj first
      exact token.solid byte (by rw [shape, same]; exact List.mem_cons_self)

private theorem takeWhile_token {width : Nat} (token : Token width) {rest : List UInt8}
    (ends : FieldEnds rest) : (token.text ++ rest).takeWhile isSolid = token.text := by
  rw [List.takeWhile_append_of_pos token.solid]
  cases rest with
  | nil => simp
  | cons head tail =>
      have stop : isSolid head = false := ends head rfl
      simp [stop]

private theorem scanString_of_field {width : Nat} (token : Token width) {rest : List UInt8}
    (field : ((token.text ++ rest).takeWhile isSolid).take width = token.text) :
    scanString width (token.text ++ rest) = some (token, rest) := by
  have found : (((token.text ++ rest).dropWhile isBlank).takeWhile isSolid).take width =
      token.text := by
    rw [dropWhile_token]
    exact field
  simp only [scanString, found, token.nonempty, dite_false, Option.some.injEq, Prod.mk.injEq]
  exact ⟨trivial, by rw [dropWhile_token]; exact List.drop_left⟩

/-- Scanning reads back a field that was written before a blank or the end. -/
theorem scanString_token {width : Nat} (token : Token width) {rest : List UInt8}
    (ends : FieldEnds rest) : scanString width (token.text ++ rest) = some (token, rest) := by
  apply scanString_of_field
  rw [takeWhile_token token ends]
  exact List.take_of_length_le token.short

/-- A field of full width is read back before any byte. -/
theorem scanString_full {width : Nat} (token : Token width) (full : token.text.length = width)
    (rest : List UInt8) : scanString width (token.text ++ rest) = some (token, rest) := by
  apply scanString_of_field
  rw [List.takeWhile_append_of_pos token.solid]
  exact List.take_left' full

theorem scanString_skip {width : Nat} {byte : UInt8} (blank : isBlank byte = true)
    (input : List UInt8) : scanString width (byte :: input) = scanString width input := by
  simp only [scanString, List.dropWhile_cons_of_pos blank]

theorem scanString_space {width : Nat} (token : Token width) {rest : List UInt8}
    (ends : FieldEnds rest) :
    scanString width (32 :: (token.text ++ rest)) = some (token, rest) := by
  rw [scanString_skip (by decide), scanString_token token ends]

/-! ### The field at the beginning of a text -/

def firstField (width : Nat) (text : List UInt8) : List UInt8 :=
  ((text.dropWhile isBlank).takeWhile isSolid).take width

theorem scanString_firstField {width : Nat} {input rest : List UInt8} {token : Token width}
    (scanned : scanString width input = some (token, rest)) :
    token.text = firstField width input := by
  unfold scanString at scanned
  dsimp only at scanned
  split at scanned
  · cases scanned
  · cases scanned
    rfl

theorem scanString_of_firstField {width : Nat} {input : List UInt8} {token : Token width}
    (field : firstField width input = token.text) :
    ∃ rest, scanString width input = some (token, rest) := by
  have found : ((input.dropWhile isBlank).takeWhile isSolid).take width = token.text := field
  refine ⟨(input.dropWhile isBlank).drop token.text.length, ?_⟩
  simp only [scanString, found, token.nonempty, dite_false]

theorem firstField_space (width : Nat) (text : List UInt8) :
    firstField width (32 :: text) = firstField width text := by
  simp only [firstField, List.dropWhile_cons_of_pos (show isBlank 32 = true by decide)]

theorem dropWhile_blank_append {text rest : List UInt8} (found : text.dropWhile isBlank ≠ []) :
    (text ++ rest).dropWhile isBlank = text.dropWhile isBlank ++ rest := by
  rw [List.dropWhile_append, if_neg]
  rw [List.isEmpty_iff]
  exact found

theorem firstField_append {width : Nat} {text rest : List UInt8}
    (found : text.dropWhile isBlank ≠ []) (ends : FieldEnds rest) :
    firstField width (text ++ rest) = firstField width text := by
  have stops : rest.takeWhile isSolid = [] := by
    cases rest with
    | nil => rfl
    | cons head tail =>
        rw [List.takeWhile_cons_of_neg]
        rw [ends head rfl]
        exact Bool.false_ne_true
  unfold firstField
  rw [dropWhile_blank_append found, List.takeWhile_append, stops, List.append_nil]
  split
  · rename_i whole
    rw [List.IsPrefix.eq_of_length (List.takeWhile_prefix isSolid) whole]
  · rfl

/-- A field that fits is scanned whole, also behind further blanks. -/
theorem scanString_blanks {width : Nat} (token : Token width) {text rest : List UInt8}
    (same : text.dropWhile isBlank = token.text) (ends : FieldEnds rest) :
    scanString width (text ++ rest) = some (token, rest) := by
  have found : text.dropWhile isBlank ≠ [] := by
    rw [same]
    exact token.nonempty
  have unblanked :
      (text ++ rest).dropWhile isBlank = (token.text ++ rest).dropWhile isBlank := by
    rw [dropWhile_blank_append found, same, dropWhile_token]
  rw [← scanString_token token ends]
  simp only [scanString, unblanked]

end Cab403.CText
