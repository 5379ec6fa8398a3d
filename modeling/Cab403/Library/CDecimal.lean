/-
Decimal integers as C reads and prints them: `strtol` in base ten, `atoi` and
`%d`. Values are unbounded; a module whose fields may be longer than a few bytes
cuts them at the limits of `long` itself.
-/

import Cab403.Library.CText
import Mathlib.Data.Nat.Digits.Lemmas

namespace Cab403.CDecimal

open CText

def isDigit (byte : UInt8) : Bool := 48 ≤ byte && byte ≤ 57

def digitValue (byte : UInt8) : Nat := byte.toNat - 48

def digitByte (digit : Nat) : UInt8 := UInt8.ofNat (48 + digit)

def digitsValue (digits : List UInt8) : Nat :=
  digits.foldl (fun value byte => 10 * value + digitValue byte) 0

def readSign : List UInt8 → Int × List UInt8
  | 43 :: rest => (1, rest)
  | 45 :: rest => (-1, rest)
  | rest => (1, rest)

/-- `strtol(input, &endptr, 10)`: the value and the bytes from `endptr` on.
Without a digit nothing is converted and `endptr` is the start. -/
def strtol (input : List UInt8) : Int × List UInt8 :=
  let (sign, unsigned) := readSign (input.dropWhile isBlank)
  let digits := unsigned.takeWhile isDigit
  if digits = [] then (0, input)
  else (sign * digitsValue digits, unsigned.drop digits.length)

def atoi (input : List UInt8) : Int := (strtol input).1

def decimal (value : Nat) : List UInt8 :=
  if value = 0 then [48] else (Nat.digits 10 value).reverse.map digitByte

def formatInt (value : Int) : List UInt8 :=
  if value < 0 then 45 :: decimal value.natAbs else decimal value.natAbs

/-! ### Printing and reading back -/

private theorem digitByte_toNat {digit : Nat} (small : digit < 10) :
    (digitByte digit).toNat = 48 + digit := by
  simp only [digitByte, UInt8.toNat_ofNat']
  omega

theorem digitValue_digitByte {digit : Nat} (small : digit < 10) :
    digitValue (digitByte digit) = digit := by
  simp only [digitValue, digitByte_toNat small]
  omega

theorem isDigit_digitByte {digit : Nat} (small : digit < 10) :
    isDigit (digitByte digit) = true := by
  have exact := digitByte_toNat small
  simp only [isDigit, Bool.and_eq_true, decide_eq_true_eq, UInt8.le_iff_toNat_le, exact]
  constructor
  · change 48 ≤ 48 + digit
    omega
  · change 48 + digit ≤ 57
    omega

theorem isSolid_of_isDigit {byte : UInt8} (digit : isDigit byte = true) :
    isSolid byte = true := by
  simp only [isDigit, Bool.and_eq_true, decide_eq_true_eq, UInt8.le_iff_toNat_le] at digit
  have low : 48 ≤ byte.toNat := digit.1
  have notSpace : byte ≠ 32 := by rintro rfl; exact absurd low (by decide)
  have notNul : byte ≠ 0 := by rintro rfl; exact absurd low (by decide)
  have notControl : ¬ byte ≤ 13 := by
    rw [UInt8.le_iff_toNat_le]
    change ¬ byte.toNat ≤ 13
    omega
  simp [isSolid, isBlank, notSpace, notNul, notControl]

private theorem digitsValue_reverse (digits : List Nat) (small : ∀ digit ∈ digits, digit < 10) :
    digitsValue (digits.reverse.map digitByte) = Nat.ofDigits 10 digits := by
  induction digits with
  | nil => rfl
  | cons digit rest ih =>
      have later := ih (fun other member => small other (List.mem_cons_of_mem digit member))
      simp only [digitsValue, List.reverse_cons, List.map_append, List.map_cons, List.map_nil,
        List.foldl_append, List.foldl_cons, List.foldl_nil] at later ⊢
      rw [later, digitValue_digitByte (small digit List.mem_cons_self), Nat.ofDigits_cons]
      change 10 * Nat.ofDigits 10 rest + digit = digit + 10 * Nat.ofDigits 10 rest
      omega

theorem decimal_ne_nil (value : Nat) : decimal value ≠ [] := by
  unfold decimal
  split
  · exact List.cons_ne_nil _ _
  · rename_i positive
    simpa [Nat.digits_ne_nil_iff_ne_zero] using positive

theorem decimal_isDigit (value : Nat) : ∀ byte ∈ decimal value, isDigit byte = true := by
  unfold decimal
  split
  · intro byte member
    rw [List.mem_singleton.mp member]
    rfl
  · intro byte member
    obtain ⟨digit, digitMember, rfl⟩ := List.mem_map.mp member
    exact isDigit_digitByte (Nat.digits_lt_base (by decide) (List.mem_reverse.mp digitMember))

theorem digitsValue_decimal (value : Nat) : digitsValue (decimal value) = value := by
  unfold decimal
  split
  · rename_i zero
    rw [zero]
    rfl
  · rw [digitsValue_reverse _ (fun digit member => Nat.digits_lt_base (by decide) member),
      Nat.ofDigits_digits]

theorem decimal_length_le {value : Nat} (width : Nat) (positive : 0 < width)
    (small : value < 10 ^ width) : (decimal value).length ≤ width := by
  unfold decimal
  split
  · exact positive
  · rw [List.length_map, List.length_reverse]
    exact (Nat.digits_length_le_iff (by decide) value).mpr small

theorem formatInt_natCast (value : Nat) : formatInt value = decimal value := by
  simp only [formatInt, Int.natAbs_natCast, if_neg (show ¬ (value : Int) < 0 by omega)]

theorem formatInt_noNul (value : Int) : (0 : UInt8) ∉ formatInt value := by
  have digits : (0 : UInt8) ∉ decimal value.natAbs := by
    intro member
    exact absurd (decimal_isDigit value.natAbs 0 member) (by decide)
  unfold formatInt
  split
  · simpa using digits
  · exact digits

private theorem dropWhile_digits {digits : List UInt8}
    (allDigits : ∀ byte ∈ digits, isDigit byte = true) :
    digits.dropWhile isBlank = digits := by
  cases digits with
  | nil => rfl
  | cons head tail =>
      have solid := isSolid_of_isDigit (allDigits head List.mem_cons_self)
      rw [List.dropWhile_cons_of_neg]
      intro blank
      simp [isSolid, blank] at solid

private theorem readSign_digits {digits : List UInt8}
    (allDigits : ∀ byte ∈ digits, isDigit byte = true) : readSign digits = (1, digits) := by
  unfold readSign
  split
  · exact absurd (allDigits 43 List.mem_cons_self) (by decide)
  · exact absurd (allDigits 45 List.mem_cons_self) (by decide)
  · rfl

theorem strtol_digits {digits : List UInt8} (nonempty : digits ≠ [])
    (allDigits : ∀ byte ∈ digits, isDigit byte = true) :
    strtol digits = ((digitsValue digits : Int), []) := by
  have whole : digits.takeWhile isDigit = digits := List.takeWhile_eq_self_iff.mpr allDigits
  simp only [strtol, dropWhile_digits allDigits, readSign_digits allDigits, whole, nonempty,
    if_false, one_mul, List.drop_length]

theorem digitsValue_snoc (front : List UInt8) (last : UInt8) :
    digitsValue (front ++ [last]) = 10 * digitsValue front + digitValue last := by
  simp only [digitsValue, List.foldl_append, List.foldl_cons, List.foldl_nil]

structure Unsigned (text : List UInt8) (digits : List UInt8) : Prop where
  nonempty : digits ≠ []
  allDigits : ∀ byte ∈ digits, isDigit byte = true
  shape : text = digits ∨ text = 43 :: digits

theorem Unsigned.ne_nil {text digits : List UInt8} (spelled : Unsigned text digits) :
    text ≠ [] := by
  rcases spelled.shape with rfl | rfl
  · exact spelled.nonempty
  · exact List.cons_ne_nil _ _

theorem Unsigned.solid {text digits : List UInt8} (spelled : Unsigned text digits) :
    ∀ byte ∈ text, isSolid byte = true := by
  have digitsSolid : ∀ byte ∈ digits, isSolid byte = true := fun byte member =>
    isSolid_of_isDigit (spelled.allDigits byte member)
  rcases spelled.shape with rfl | rfl
  · exact digitsSolid
  · intro byte member
    rcases List.mem_cons.mp member with rfl | later
    · decide
    · exact digitsSolid byte later

theorem Unsigned.strtol {text digits : List UInt8} (spelled : Unsigned text digits) :
    strtol text = ((digitsValue digits : Int), []) := by
  have whole : digits.takeWhile isDigit = digits := List.takeWhile_eq_self_iff.mpr spelled.allDigits
  rcases spelled.shape with rfl | rfl
  · exact strtol_digits spelled.nonempty spelled.allDigits
  · have unblanked : (43 :: digits).dropWhile isBlank = 43 :: digits :=
      List.dropWhile_cons_of_neg (by decide)
    simp only [CDecimal.strtol, unblanked, readSign, whole, spelled.nonempty, if_false, one_mul,
      List.drop_length]

/-- What `strtol` converts whole to a positive value is digits behind blanks and at most
a plus sign. -/
theorem strtol_whole {input : List UInt8} {value : Int} (whole : strtol input = (value, []))
    (positive : 1 ≤ value) :
    ∃ digits, Unsigned (input.dropWhile isBlank) digits ∧ value = digitsValue digits := by
  have converted (factor : Int) (unsigned : List UInt8)
      (signed : readSign (input.dropWhile isBlank) = (factor, unsigned)) :
      unsigned ≠ [] ∧ (∀ byte ∈ unsigned, isDigit byte = true) ∧
        value = factor * digitsValue unsigned := by
    simp only [strtol, signed] at whole
    split at whole
    · have zero := (Prod.mk.inj whole).1
      omega
    · rename_i found
      obtain ⟨product, rest⟩ := Prod.mk.inj whole
      have all : unsigned.takeWhile isDigit = unsigned :=
        (List.takeWhile_prefix isDigit).eq_of_length_le (List.drop_eq_nil_iff.mp rest)
      rw [all] at found product
      exact ⟨found, List.takeWhile_eq_self_iff.mp all, product.symm⟩
  unfold readSign at converted
  split at converted
  · rename_i rest shape
    obtain ⟨nonempty, allDigits, product⟩ := converted 1 rest rfl
    refine ⟨rest, ⟨nonempty, allDigits, Or.inr shape⟩, ?_⟩
    rw [product, one_mul]
  · rename_i rest shape
    obtain ⟨_, _, product⟩ := converted (-1) rest rfl
    omega
  · obtain ⟨nonempty, allDigits, product⟩ := converted 1 (input.dropWhile isBlank) rfl
    refine ⟨_, ⟨nonempty, allDigits, Or.inl rfl⟩, ?_⟩
    rw [product, one_mul]

/-- A positive number loses its value with its last digit. -/
theorem Unsigned.atoi_dropLast_ne {text digits : List UInt8} (spelled : Unsigned text digits)
    (positive : 1 ≤ digitsValue digits) : atoi text.dropLast ≠ digitsValue digits := by
  rcases List.eq_nil_or_concat digits with empty | ⟨front, last, rfl⟩
  · exact absurd empty spelled.nonempty
  rw [List.concat_eq_append, digitsValue_snoc] at positive ⊢
  have dropped : text.dropLast = front ∨ text.dropLast = 43 :: front := by
    rcases spelled.shape with rfl | rfl
    · left
      rw [List.concat_eq_append, List.dropLast_concat]
    · right
      rw [List.concat_eq_append, ← List.cons_append, List.dropLast_concat]
  by_cases none : front = []
  · subst none
    have zero : atoi text.dropLast = 0 := by
      rcases dropped with same | same
      · rw [same]
        rfl
      · rw [same]
        rfl
    rw [zero]
    omega
  · have shorter : Unsigned text.dropLast front :=
      { nonempty := none
        allDigits := fun byte member =>
          spelled.allDigits byte (by
            rw [List.concat_eq_append]
            exact List.mem_append_left _ member)
        shape := dropped }
    rw [atoi, shorter.strtol]
    dsimp only
    omega

/-- A field that is one byte short keeps the value exactly if it holds the whole text. -/
theorem Unsigned.atoi_take_iff {text digits : List UInt8} (spelled : Unsigned text digits)
    (positive : 1 ≤ digitsValue digits) {width : Nat} (short : text.length ≤ width + 1) :
    atoi (text.take width) = digitsValue digits ↔ text.length ≤ width := by
  constructor
  · intro same
    by_contra long
    apply spelled.atoi_dropLast_ne positive
    rw [List.dropLast_eq_take, show text.length - 1 = width by omega]
    exact same
  · intro fits
    rw [List.take_of_length_le fits, atoi, spelled.strtol]

theorem atoi_decimal (value : Nat) : atoi (decimal value) = value := by
  rw [atoi, strtol_digits (decimal_ne_nil value) (decimal_isDigit value), digitsValue_decimal]

/-! ### How far a short field can reach -/

theorem digitsValue_lt (digits : List UInt8) (allDigits : ∀ byte ∈ digits, isDigit byte = true) :
    digitsValue digits < 10 ^ digits.length := by
  induction digits using List.reverseRecOn with
  | nil => decide
  | append_singleton front last ih =>
      have before := ih (fun byte member => allDigits byte (List.mem_append_left _ member))
      have digit := allDigits last (List.mem_append_right _ List.mem_cons_self)
      simp only [isDigit, Bool.and_eq_true, decide_eq_true_eq, UInt8.le_iff_toNat_le] at digit
      have high : last.toNat ≤ 57 := digit.2
      simp only [digitsValue, List.foldl_append, List.foldl_cons, List.foldl_nil,
        List.length_append, List.length_cons, List.length_nil] at before ⊢
      have value : digitValue last ≤ 9 := by
        unfold digitValue
        omega
      rw [pow_succ]
      omega

private theorem readSign_cases (input : List UInt8) :
    readSign input = (1, input) ∨
      (∃ sign rest, (sign = 1 ∨ sign = -1) ∧ rest.length + 1 = input.length ∧
        readSign input = (sign, rest)) := by
  unfold readSign
  split
  · exact Or.inr ⟨1, _, Or.inl rfl, by simp, rfl⟩
  · exact Or.inr ⟨-1, _, Or.inr rfl, by simp, rfl⟩
  · exact Or.inl rfl

/-- A field of `width + 1` bytes has at most `width + 1` digits, and at most
`width` of them behind a sign. -/
theorem atoi_bounds {input : List UInt8} (width : Nat) (short : input.length ≤ width + 1) :
    -(10 ^ width : Int) < atoi input ∧ atoi input < 10 ^ (width + 1) := by
  have positive : (0 : Int) < 10 ^ width := by positivity
  have larger : (10 : Int) ^ width ≤ 10 ^ (width + 1) := by
    rw [pow_succ]
    omega
  have unblanked : (input.dropWhile isBlank).length ≤ width + 1 :=
    (List.length_dropWhile_le isBlank input).trans short
  have digitsBound (unsigned : List UInt8) (limit : Nat) (fits : unsigned.length ≤ limit) :
      (digitsValue (unsigned.takeWhile isDigit) : Int) < 10 ^ limit := by
    have value := digitsValue_lt (unsigned.takeWhile isDigit)
      (fun byte member => List.mem_takeWhile_imp member)
    have length : (unsigned.takeWhile isDigit).length ≤ limit :=
      (List.takeWhile_prefix isDigit).length_le.trans fits
    have power := Nat.pow_le_pow_right (show 0 < 10 by decide) length
    exact_mod_cast value.trans_le power
  unfold atoi strtol
  rcases readSign_cases (input.dropWhile isBlank) with
    unsigned | ⟨sign, rest, factor, length, signed⟩
  · simp only [unsigned, one_mul]
    split
    · constructor <;> dsimp only <;> omega
    · have bound := digitsBound (input.dropWhile isBlank) (width + 1) unblanked
      constructor <;> dsimp only <;> omega
  · have bound := digitsBound rest width (by omega)
    simp only [signed]
    split
    · constructor <;> dsimp only <;> omega
    · rcases factor with rfl | rfl <;> constructor <;> dsimp only <;> omega

end Cab403.CDecimal
