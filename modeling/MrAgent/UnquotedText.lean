import Mathlib
import MrAgent.PatchText
import MrAgent.QuotedText
import MrAgent.Utf8Replace

namespace MrAgent

/-!
# Reading percent-encoded names

`urllib.parse.unquote` reads the ASCII parts of a text as bytes, in which a
percent sign with two hexadecimal digits stands for a byte, and decodes them.
An encoded name is one such part, so that it is read back as it was.
-/

/-- The value of a hexadecimal digit in either case. -/
def hexByteDigit (c : Char) : Option Nat :=
  if c.isDigit then some (c.toNat - '0'.toNat)
  else if 'A' ≤ c ∧ c ≤ 'F' then some (c.toNat - 'A'.toNat + 10)
  else if 'a' ≤ c ∧ c ≤ 'f' then some (c.toNat - 'a'.toNat + 10)
  else none

/-- `urllib.parse.unquote_to_bytes` on ASCII text. -/
def unquoteToBytes : List Char → List UInt8
  | '%' :: high :: low :: rest =>
    match hexByteDigit high, hexByteDigit low with
    | some first, some second => UInt8.ofNat (first * 16 + second) :: unquoteToBytes rest
    | _, _ => UInt8.ofNat '%'.toNat :: unquoteToBytes (high :: low :: rest)
  | c :: rest => UInt8.ofNat c.toNat :: unquoteToBytes rest
  | [] => []

/-- A character of `[\x00-\x7f]`. -/
def isAsciiChar (c : Char) : Bool :=
  c.toNat < 0x80

/-- `urllib.parse.unquote`: the ASCII runs are decoded, the others are kept. -/
def unquote (text : List Char) : List Char :=
  (text.splitBy fun first second => isAsciiChar first == isAsciiChar second).flatMap fun run =>
    if run.all isAsciiChar then Utf8Replace.decode (unquoteToBytes run) else run

theorem hexByteDigit_digit :
    ∀ digit < 16, hexByteDigit (Nat.digitChar digit).toUpper = some digit := by
  decide

theorem unquoteToBytes_quoteByte
    (byte : UInt8)
    (rest : List Char) :
    unquoteToBytes (quoteByte byte ++ rest) = byte :: unquoteToBytes rest := by
  unfold quoteByte
  extract_lets c
  split
  · next safe =>
      simp only [Bool.and_eq_true, decide_eq_true_eq] at safe
      have plain : c ≠ '%' := by
        intro percent
        have letters := safe.2
        rw [percent] at letters
        revert letters
        decide
      rw [List.singleton_append, unquoteToBytes, toNat_ofNat_byte safe.1, UInt8.ofNat_toNat]
      intro high low more same
      exact absurd same plain
  · have bound : byte.toNat < 256 := byte.toNat_lt
    have value : byte.toNat / 16 * 16 + byte.toNat % 16 = byte.toNat := by omega
    rw [List.cons_append, List.cons_append, List.singleton_append, unquoteToBytes,
      hexByteDigit_digit _ (by omega), hexByteDigit_digit _ (by omega)]
    simp only [value, UInt8.ofNat_toNat]

theorem unquoteToBytes_flatMap
    (bytes : List UInt8) :
    unquoteToBytes (bytes.flatMap quoteByte) = bytes := by
  induction bytes with
  | nil => rfl
  | cons byte rest ih =>
      rw [List.flatMap_cons, unquoteToBytes_quoteByte, ih]

variable (text : String)

theorem decode_toUTF8 :
    Utf8Replace.decode text.toUTF8.data.toList = text.toList := by
  have bytes : text.toUTF8.data.toList = text.toList.flatMap String.utf8EncodeChar := by
    change text.toByteArray.data.toList = _
    rw [← String.utf8Encode_toList, List.utf8Encode, List.data_toByteArray]
  rw [bytes]
  induction text.toList with
  | nil => rfl
  | cons c rest ih =>
      rw [List.flatMap_cons, Utf8Replace.decode_utf8EncodeChar_append, ih]

theorem isAsciiChar_of_quotedChar
    {c : Char}
    (plain : quotedChar c) :
    isAsciiChar c := by
  simp only [quotedChar, Char.isAlphanum, Char.isAlpha, Char.isUpper, Char.isLower, Char.isDigit,
    Bool.or_eq_true, Bool.and_eq_true, decide_eq_true_eq, ge_iff_le, UInt32.le_iff_toNat_le,
    List.mem_cons, List.not_mem_nil, or_false] at plain
  refine decide_eq_true ?_
  change c.val.toNat < 0x80
  rcases plain with letter | rfl | rfl | rfl | rfl | rfl
  · have bounds : c.val.toNat ≤ 122 := by
      rcases letter with (⟨_, upper⟩ | ⟨_, lower⟩) | ⟨_, digit⟩
      · exact le_trans upper (by decide)
      · exact lower
      · exact le_trans digit (by decide)
    omega
  all_goals decide

/-- A name that was percent-encoded is read back as it was. -/
theorem unquote_quote :
    unquote (quote text) = text.toList := by
  have ascii : ∀ c ∈ quote text, isAsciiChar c :=
    fun c member => isAsciiChar_of_quotedChar (quotedChar_of_mem_quote member)
  have bytes : unquoteToBytes (quote text) = text.toUTF8.data.toList :=
    unquoteToBytes_flatMap _
  unfold unquote
  by_cases filled : quote text = []
  · have empty : text.toUTF8.data.toList = [] := by
      rw [← bytes, filled]
      rfl
    rw [filled, List.splitBy_nil, List.flatMap_nil, ← decode_toUTF8, empty]
    rfl
  · have one : (quote text).splitBy (fun first second =>
        isAsciiChar first == isAsciiChar second) = [quote text] := by
      refine List.splitBy_of_isChain filled ?_
      refine List.Pairwise.isChain ?_
      refine List.pairwise_of_forall_mem_list fun first firstMember second secondMember => ?_
      rw [ascii first firstMember, ascii second secondMember]
      rfl
    rw [one, List.flatMap_singleton, if_pos (List.all_eq_true.mpr ascii), bytes, decode_toUTF8]

end MrAgent
