import Mathlib
import MrAgent.BrokerModel

namespace MrAgent

/-!
# Percent-encoded names

Redis keys carry names that users choose. They are percent-encoded first, so
that a name contains no separator and no character that a key pattern reads as
a wildcard, and two names never become one.
-/

/-- `urllib.parse.quote(text, safe="")`. -/
def quote (text : String) : List Char :=
  text.toUTF8.data.toList.flatMap quoteByte

/-- `str` of an integer. -/
def intText (number : Int) : List Char :=
  (toString number).toList

/-- The value of a hexadecimal digit in capitals. -/
def hexDigitValue (c : Char) : Nat :=
  if c.isDigit then c.toNat - '0'.toNat else c.toNat - 'A'.toNat + 10

/-- The first byte of an encoded text and what follows it. -/
def unquoteByte : List Char → Option (Nat × List Char)
  | '%' :: high :: low :: rest => some (hexDigitValue high * 16 + hexDigitValue low, rest)
  | c :: rest => some (c.toNat, rest)
  | [] => none

theorem hexDigitValue_digit :
    ∀ digit < 16, hexDigitValue (Nat.digitChar digit).toUpper = digit := by
  decide

variable {c : Char}

theorem unquoteByte_plain
    (plain : c ≠ '%')
    (rest : List Char) :
    unquoteByte (c :: rest) = some (c.toNat, rest) := by
  unfold unquoteByte
  split
  · next same =>
      injection same with head
      exact absurd head plain
  · next same =>
      injection same with head tail
      rw [head, tail]
  · next same =>
      cases same

variable {byte : UInt8}

theorem toNat_ofNat_byte
    (small : byte < 128) :
    (Char.ofNat byte.toNat).toNat = byte.toNat := by
  have bound : byte.toNat < 128 := UInt8.lt_iff_toNat_lt.mp small
  have valid : byte.toNat.isValidChar := Or.inl (by omega)
  simp [Char.ofNat, valid, Char.ofNatAux, Char.toNat]

theorem unquoteByte_quoteByte
    (byte : UInt8)
    (rest : List Char) :
    unquoteByte (quoteByte byte ++ rest) = some (byte.toNat, rest) := by
  unfold quoteByte
  simp only
  split
  · next safe =>
      simp only [Bool.and_eq_true, decide_eq_true_eq] at safe
      have plain : Char.ofNat byte.toNat ≠ '%' := by
        intro percent
        have letters := safe.2
        rw [percent] at letters
        revert letters
        decide
      rw [List.singleton_append, unquoteByte_plain plain, toNat_ofNat_byte safe.1]
  · have bound : byte.toNat < 256 := byte.toNat_lt
    have high : byte.toNat / 16 < 16 := by omega
    have low : byte.toNat % 16 < 16 := by omega
    simp only [List.cons_append, List.nil_append, unquoteByte]
    rw [hexDigitValue_digit _ high, hexDigitValue_digit _ low]
    simp only [Option.some.injEq, Prod.mk.injEq, and_true]
    omega

theorem flatMap_quoteByte_inj
    {bytes others : List UInt8} :
    bytes.flatMap quoteByte = others.flatMap quoteByte ↔ bytes = others := by
  constructor
  · intro same
    induction bytes generalizing others with
    | nil =>
        cases others with
        | nil => rfl
        | cons byte rest =>
            have read := unquoteByte_quoteByte byte (rest.flatMap quoteByte)
            rw [← List.flatMap_cons, ← same] at read
            simp [unquoteByte] at read
    | cons byte rest ih =>
        have read := unquoteByte_quoteByte byte (rest.flatMap quoteByte)
        rw [← List.flatMap_cons, same] at read
        cases others with
        | nil => simp [unquoteByte] at read
        | cons other more =>
            rw [List.flatMap_cons, unquoteByte_quoteByte] at read
            simp only [Option.some.injEq, Prod.mk.injEq] at read
            rw [UInt8.toNat_inj.mp read.1, ih read.2.symm]
  · rintro rfl
    rfl

@[simp]
theorem quote_inj
    {text other : String} :
    quote text = quote other ↔ text = other := by
  unfold quote
  rw [flatMap_quoteByte_inj, Array.toList_inj]
  constructor
  · intro same
    exact String.toByteArray_inj.mp (ByteArray.ext same)
  · rintro rfl
    rfl

/-- A character that an encoded text can contain. -/
def quotedChar (c : Char) : Bool :=
  c.isAlphanum || c ∈ ['_', '.', '-', '~', '%']

theorem quotedChar_digit :
    ∀ digit < 16, quotedChar (Nat.digitChar digit).toUpper := by
  decide

theorem quotedChar_of_mem_quoteByte
    (member : c ∈ quoteByte byte) :
    quotedChar c := by
  unfold quoteByte at member
  simp only at member
  split at member
  · next safe =>
      rw [List.mem_singleton.mp member]
      simp only [Bool.and_eq_true, Bool.or_eq_true, decide_eq_true_eq, List.mem_cons] at safe
      unfold quotedChar
      simp only [List.mem_cons, Bool.or_eq_true, decide_eq_true_eq]
      tauto
  · have bound : byte.toNat < 256 := byte.toNat_lt
    simp only [List.mem_cons, List.not_mem_nil, or_false] at member
    rcases member with percent | high | low
    · rw [percent]
      rfl
    · rw [high]
      exact quotedChar_digit _ (by omega)
    · rw [low]
      exact quotedChar_digit _ (by omega)

theorem quotedChar_of_mem_quote
    {text : String}
    (member : c ∈ quote text) :
    quotedChar c := by
  obtain ⟨byte, _, inByte⟩ := List.mem_flatMap.mp member
  exact quotedChar_of_mem_quoteByte inByte

@[simp]
theorem colon_notMem_quote
    (text : String) :
    ':' ∉ quote text := by
  intro member
  have safe := quotedChar_of_mem_quote member
  revert safe
  decide

theorem toDigits_ten_inj
    {number other : Nat}
    (same : Nat.toDigits 10 number = Nat.toDigits 10 other) :
    number = other := by
  rw [← Nat.ofDigitChars_ten_toDigits (n := number), same, Nat.ofDigitChars_ten_toDigits]

variable (number : Nat)

theorem intText_ofNat :
    intText number = Nat.toDigits 10 number := by
  change (Nat.repr number).toList = _
  exact Nat.toList_repr

theorem intText_negSucc :
    intText (Int.negSucc number) = '-' :: Nat.toDigits 10 (number + 1) := by
  change ("-" ++ Nat.repr (number + 1)).toList = _
  rw [String.toList_append, Nat.toList_repr]
  rfl

theorem minus_notMem_toDigits :
    '-' ∉ Nat.toDigits 10 number := by
  intro member
  have digit := Nat.isDigit_of_mem_toDigits (by decide) (by decide) member
  revert digit
  decide

variable {number other : Int}

@[simp]
theorem intText_inj :
    intText number = intText other ↔ number = other := by
  constructor
  · intro same
    cases number with
    | ofNat n =>
        cases other with
        | ofNat m =>
            rw [Int.ofNat_eq_natCast, Int.ofNat_eq_natCast, intText_ofNat, intText_ofNat] at same
            rw [toDigits_ten_inj same]
        | negSucc m =>
            rw [Int.ofNat_eq_natCast, intText_ofNat, intText_negSucc] at same
            have minus := minus_notMem_toDigits n
            rw [same] at minus
            simp at minus
    | negSucc n =>
        cases other with
        | ofNat m =>
            rw [Int.ofNat_eq_natCast, intText_ofNat, intText_negSucc] at same
            have minus := minus_notMem_toDigits m
            rw [← same] at minus
            simp at minus
        | negSucc m =>
            rw [intText_negSucc, intText_negSucc] at same
            injection same with _ digits
            have equal := toDigits_ten_inj digits
            rw [Nat.succ.inj equal]
  · rintro rfl
    rfl

@[simp]
theorem toString_int_inj :
    toString number = toString other ↔ number = other := by
  rw [← intText_inj, intText, intText, String.toList_inj]

end MrAgent
