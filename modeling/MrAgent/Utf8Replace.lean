import Mathlib

namespace Utf8Replace

/-!
# Decoding bytes with replacement

UTF-8 is read byte by byte. A sequence that breaks off, and a byte that starts
none, become one replacement character, and reading goes on with the byte that
did not fit. An ASCII byte therefore always stands for itself, and no other
byte gives an ASCII character.
-/

/-- A character that has begun: its value so far and the bytes that may follow. -/
structure Pending where
  value : Nat
  /-- The bytes that follow the next one. -/
  remaining : Nat
  low : Nat
  high : Nat
  continues : 0x80 ≤ low
  large : 0x80 ≤ (value * 64 + (low - 0x80)) * 64 ^ remaining

/-- `U+FFFD` -/
def replacement : Char :=
  Char.ofNat 0xfffd

/-- A byte between characters: what it gives at once, or the character it begins. -/
def start (byte : UInt8) : Char ⊕ Pending :=
  let b := byte.toNat
  if b < 0x80 then .inl (Char.ofNat b)
  else if two : 0xc2 ≤ b ∧ b ≤ 0xdf then
    .inr ⟨b - 0xc0, 0, 0x80, 0xbf, by omega, by omega⟩
  else if b = 0xe0 then .inr ⟨0, 1, 0xa0, 0xbf, by decide, by decide⟩
  else if b = 0xed then .inr ⟨0xd, 1, 0x80, 0x9f, by decide, by decide⟩
  else if three : 0xe1 ≤ b ∧ b ≤ 0xef then
    .inr ⟨b - 0xe0, 1, 0x80, 0xbf, by omega, by omega⟩
  else if b = 0xf0 then .inr ⟨0, 2, 0x90, 0xbf, by decide, by decide⟩
  else if b = 0xf4 then .inr ⟨4, 2, 0x80, 0x8f, by decide, by decide⟩
  else if four : 0xf1 ≤ b ∧ b ≤ 0xf3 then
    .inr ⟨b - 0xf0, 2, 0x80, 0xbf, by omega, by omega⟩
  else .inl replacement

/-- A character that is given at once, or the state behind a first byte. -/
def begin_ (read : Option Pending → List Char) : Char ⊕ Pending → List Char
  | .inl c => c :: read none
  | .inr pending => read (some pending)

/-- A character that goes on with a byte that fits. -/
def Pending.next (pending : Pending) (byte : UInt8) (fits : pending.low ≤ byte.toNat) :
    Char ⊕ Pending :=
  match remains : pending.remaining with
  | 0 => .inl (Char.ofNat (pending.value * 64 + (byte.toNat - 0x80)))
  | remaining + 1 =>
    .inr {
      value := pending.value * 64 + (byte.toNat - 0x80)
      remaining
      low := 0x80
      high := 0xbf
      continues := Nat.le_refl _
      large := by
        have before := pending.large
        rw [remains, Nat.pow_succ, Nat.mul_comm (64 ^ remaining), ← Nat.mul_assoc] at before
        refine Nat.le_trans before (Nat.mul_le_mul_right _ ?_)
        omega }

/-- The bytes behind a character that may have begun. -/
def decodeFrom : Option Pending → List UInt8 → List Char
  | none, [] => []
  | some _, [] => [replacement]
  | none, byte :: rest => begin_ (fun pending => decodeFrom pending rest) (start byte)
  | some pending, byte :: rest =>
    if fits : pending.low ≤ byte.toNat ∧ byte.toNat ≤ pending.high then
      begin_ (fun next => decodeFrom next rest) (pending.next byte fits.1)
    else replacement :: begin_ (fun next => decodeFrom next rest) (start byte)

/-- `bytes.decode("utf-8", errors="replace")` -/
def decode (bytes : List UInt8) : List Char :=
  decodeFrom none bytes

variable {byte : UInt8}

theorem start_ascii
    (ascii : byte.toNat < 0x80) :
    start byte = .inl (Char.ofNat byte.toNat) := by
  rw [start]
  exact if_pos ascii

theorem decodeFrom_ascii
    (ascii : byte.toNat < 0x80)
    (pending : Option Pending)
    (rest : List UInt8) :
    decodeFrom pending (byte :: rest) =
      decodeFrom pending [] ++ Char.ofNat byte.toNat :: decode rest := by
  cases pending with
  | none =>
      conv_lhs => rw [decodeFrom, start_ascii ascii]
      rfl
  | some pending =>
      have continues := pending.continues
      have broken : ¬ (pending.low ≤ byte.toNat ∧ byte.toNat ≤ pending.high) := by
        omega
      conv_lhs => rw [decodeFrom, dif_neg broken, start_ascii ascii]
      rfl

theorem decodeFrom_append_ascii
    (ascii : byte.toNat < 0x80)
    (pending : Option Pending)
    (bytes rest : List UInt8) :
    decodeFrom pending (bytes ++ byte :: rest) =
      decodeFrom pending bytes ++ Char.ofNat byte.toNat :: decode rest := by
  induction bytes generalizing pending with
  | nil =>
      exact decodeFrom_ascii ascii pending rest
  | cons head tail ih =>
      have begun : ∀ next : Char ⊕ Pending,
          begin_ (fun pending => decodeFrom pending (tail ++ byte :: rest)) next =
            begin_ (fun pending => decodeFrom pending tail) next ++
              Char.ofNat byte.toNat :: decode rest := by
        intro next
        cases next with
        | inl c => rw [begin_, begin_, ih, List.cons_append]
        | inr next => rw [begin_, begin_, ih]
      rw [List.cons_append]
      cases pending with
      | none =>
          rw [decodeFrom, decodeFrom, begun]
      | some pending =>
          rw [decodeFrom, decodeFrom]
          split
          · rw [begun]
          · rw [begun, List.cons_append]

theorem decode_append_ascii
    (ascii : byte.toNat < 0x80)
    (bytes rest : List UInt8) :
    decode (bytes ++ byte :: rest) = decode bytes ++ Char.ofNat byte.toNat :: decode rest :=
  decodeFrom_append_ascii ascii none bytes rest

variable {bytes : List UInt8}

theorem decodeFrom_ne_nil
    {pending : Option Pending}
    (filled : pending ≠ none ∨ bytes ≠ []) :
    decodeFrom pending bytes ≠ [] := by
  induction bytes generalizing pending with
  | nil =>
      cases pending with
      | none => exact absurd rfl (filled.resolve_right fun none => none rfl)
      | some pending => exact List.cons_ne_nil _ _
  | cons byte rest ih =>
      have begun : ∀ next : Char ⊕ Pending,
          begin_ (fun pending => decodeFrom pending rest) next ≠ [] := by
        intro next
        cases next with
        | inl c => exact List.cons_ne_nil _ _
        | inr next => exact ih (Or.inl (Option.some_ne_none next))
      cases pending with
      | none =>
          rw [decodeFrom]
          exact begun _
      | some pending =>
          rw [decodeFrom]
          split
          · exact begun _
          · exact List.cons_ne_nil _ _

theorem decode_eq_nil_iff :
    decode bytes = [] ↔ bytes = [] := by
  constructor
  · intro none
    by_contra filled
    exact decodeFrom_ne_nil (Or.inr filled) none
  · rintro rfl
    rfl

theorem toNat_ofNat_cases
    (number : Nat) :
    (Char.ofNat number).toNat = number ∨ (Char.ofNat number).toNat = 0 := by
  rw [Char.ofNat]
  split
  · exact Or.inl rfl
  · exact Or.inr rfl

theorem start_foreign
    (foreign : ¬ byte.toNat < 0x80) :
    start byte = .inl replacement ∨ ∃ pending, start byte = .inr pending := by
  rw [start, if_neg foreign]
  repeat' split
  all_goals first
    | exact Or.inr ⟨_, rfl⟩
    | exact Or.inl rfl

variable {pending : Pending} {c : Char}

theorem next_foreign
    {fits : pending.low ≤ byte.toNat}
    (ended : pending.next byte fits = .inl c) :
    0x80 ≤ c.toNat ∨ c.toNat = 0 := by
  have large := pending.large
  rw [Pending.next] at ended
  split at ended
  · next remains =>
      rw [remains, Nat.pow_zero, Nat.mul_one] at large
      rw [← Sum.inl.inj ended]
      rcases toNat_ofNat_cases (pending.value * 64 + (byte.toNat - 0x80)) with same | zero
      · rw [same]
        omega
      · exact Or.inr zero
  · cases ended

theorem mem_of_mem_decodeFrom
    {pending : Option Pending}
    (member : c ∈ decodeFrom pending bytes)
    (ascii : c.toNat < 0x80)
    (visible : c.toNat ≠ 0) :
    ∃ byte ∈ bytes, byte.toNat = c.toNat := by
  have foreign : c ≠ replacement := by
    rintro rfl
    exact absurd ascii (by decide)
  induction bytes generalizing pending with
  | nil =>
      cases pending with
      | none => exact absurd member List.not_mem_nil
      | some pending => exact absurd (List.mem_singleton.mp member) foreign
  | cons byte rest ih =>
      have later : ∀ {pending}, c ∈ decodeFrom pending rest →
          ∃ other ∈ byte :: rest, other.toNat = c.toNat := by
        intro pending inRest
        obtain ⟨other, inBytes, same⟩ := ih inRest
        exact ⟨other, List.mem_cons_of_mem _ inBytes, same⟩
      have begun : c ∈ begin_ (fun pending => decodeFrom pending rest) (start byte) →
          ∃ other ∈ byte :: rest, other.toNat = c.toNat := by
        intro inBegun
        by_cases plain : byte.toNat < 0x80
        · rw [start_ascii plain, begin_] at inBegun
          rcases List.mem_cons.mp inBegun with here | there
          · refine ⟨byte, List.mem_cons_self, ?_⟩
            rcases toNat_ofNat_cases byte.toNat with same | zero
            · rw [here, same]
            · rw [here] at visible
              exact absurd zero visible
          · exact later there
        · rcases start_foreign plain with replaced | ⟨next, begins⟩
          · rw [replaced, begin_] at inBegun
            rcases List.mem_cons.mp inBegun with here | there
            · exact absurd here foreign
            · exact later there
          · rw [begins] at inBegun
            exact later inBegun
      cases pending with
      | none =>
          rw [decodeFrom] at member
          exact begun member
      | some pending =>
          rw [decodeFrom] at member
          split at member
          · next fits =>
              cases ended : pending.next byte fits.1 with
              | inl other =>
                  rw [ended, begin_] at member
                  rcases List.mem_cons.mp member with here | there
                  · have beyond := next_foreign ended
                    rw [here] at ascii visible
                    omega
                  · exact later there
              | inr next =>
                  rw [ended] at member
                  exact later member
          · rcases List.mem_cons.mp member with here | there
            · exact absurd here foreign
            · exact begun there

theorem head_of_pending
    (opened : (decodeFrom (some pending) bytes).head? = some c) :
    0x80 ≤ c.toNat ∨ c.toNat = 0 := by
  have replaced : ∀ {rest : List Char}, (replacement :: rest).head? = some c →
      0x80 ≤ c.toNat ∨ c.toNat = 0 := by
    intro rest same
    rw [← Option.some.inj same]
    exact Or.inl (by decide)
  induction bytes generalizing pending with
  | nil =>
      exact replaced opened
  | cons byte rest ih =>
      rw [decodeFrom] at opened
      split at opened
      · next fits =>
          cases ended : pending.next byte fits.1 with
          | inl other =>
              rw [ended, begin_, List.head?_cons] at opened
              rw [← Option.some.inj opened]
              exact next_foreign ended
          | inr next =>
              rw [ended] at opened
              exact ih opened
      · exact replaced opened

theorem head_of_decode
    (opened : (decode bytes).head? = some c)
    (ascii : c.toNat < 0x80)
    (visible : c.toNat ≠ 0) :
    ∃ byte, bytes.head? = some byte ∧ byte.toNat = c.toNat := by
  cases bytes with
  | nil =>
      cases opened
  | cons byte rest =>
      refine ⟨byte, rfl, ?_⟩
      rw [decode, decodeFrom] at opened
      by_cases plain : byte.toNat < 0x80
      · rw [start_ascii plain, begin_, List.head?_cons] at opened
        rw [← Option.some.inj opened] at visible ⊢
        rcases toNat_ofNat_cases byte.toNat with same | zero
        · exact same.symm
        · exact absurd zero visible
      · exfalso
        rcases start_foreign plain with replaced | ⟨next, begins⟩
        · rw [replaced, begin_, List.head?_cons] at opened
          rw [← Option.some.inj opened] at ascii
          exact absurd ascii (by decide)
        · rw [begins] at opened
          have beyond := head_of_pending opened
          omega

theorem decodeFrom_last
    (last : pending.remaining = 0)
    (fits : pending.low ≤ byte.toNat ∧ byte.toNat ≤ pending.high)
    (rest : List UInt8) :
    decodeFrom (some pending) (byte :: rest) =
      Char.ofNat (pending.value * 64 + (byte.toNat - 0x80)) :: decode rest := by
  rw [decodeFrom, dif_pos fits]
  unfold Pending.next
  split
  · rfl
  · next more => omega

theorem decodeFrom_inner
    (byte : UInt8)
    {remaining : Nat}
    (more : pending.remaining = remaining + 1)
    (fits : pending.low ≤ byte.toNat ∧ byte.toNat ≤ pending.high)
    (rest : List UInt8) :
    ∃ next : Pending, decodeFrom (some pending) (byte :: rest) = decodeFrom (some next) rest ∧
      next.value = pending.value * 64 + (byte.toNat - 0x80) ∧ next.remaining = remaining ∧
      next.low = 0x80 ∧ next.high = 0xbf := by
  rw [decodeFrom, dif_pos fits]
  unfold Pending.next
  split
  · next last => omega
  · next count same =>
      exact ⟨_, rfl, rfl, Nat.succ.inj (same.symm.trans more), rfl, rfl⟩

theorem decodeFrom_first
    (started : start byte = .inr pending)
    (rest : List UInt8) :
    decodeFrom none (byte :: rest) = decodeFrom (some pending) rest := by
  conv_lhs => rw [decodeFrom, started]
  rfl

theorem start_two
    (byte : UInt8)
    (range : 0xc2 ≤ byte.toNat ∧ byte.toNat ≤ 0xdf) :
    ∃ pending, start byte = .inr pending ∧ pending.value = byte.toNat - 0xc0 ∧
      pending.remaining = 0 ∧ pending.low = 0x80 ∧ pending.high = 0xbf := by
  refine ⟨⟨byte.toNat - 0xc0, 0, 0x80, 0xbf, by omega, by omega⟩, ?_, rfl, rfl, rfl, rfl⟩
  simp only [start]
  rw [if_neg (by omega), dif_pos range]

theorem start_three
    (byte : UInt8)
    (range : 0xe0 ≤ byte.toNat ∧ byte.toNat ≤ 0xef) :
    ∃ pending, start byte = .inr pending ∧ pending.value = byte.toNat - 0xe0 ∧
      pending.remaining = 1 ∧ pending.low = (if byte.toNat = 0xe0 then 0xa0 else 0x80) ∧
      pending.high = if byte.toNat = 0xed then 0x9f else 0xbf := by
  simp only [start]
  rw [if_neg (by omega), dif_neg (by omega)]
  split
  · next least => exact ⟨_, rfl, by simp [least], rfl, rfl, by simp [least]⟩
  · next positive =>
      split
      · next surrogates => exact ⟨_, rfl, by simp [surrogates], rfl, rfl, rfl⟩
      · next plain =>
          rw [dif_pos (by omega)]
          exact ⟨_, rfl, rfl, rfl, rfl, rfl⟩

theorem start_four
    (byte : UInt8)
    (range : 0xf0 ≤ byte.toNat ∧ byte.toNat ≤ 0xf4) :
    ∃ pending, start byte = .inr pending ∧ pending.value = byte.toNat - 0xf0 ∧
      pending.remaining = 2 ∧ pending.low = (if byte.toNat = 0xf0 then 0x90 else 0x80) ∧
      pending.high = if byte.toNat = 0xf4 then 0x8f else 0xbf := by
  simp only [start]
  rw [if_neg (by omega), dif_neg (by omega), if_neg (by omega), if_neg (by omega),
    dif_neg (by omega)]
  split
  · next least => exact ⟨_, rfl, by simp [least], rfl, rfl, by simp [least]⟩
  · next positive =>
      split
      · next greatest => exact ⟨_, rfl, by simp [greatest], rfl, rfl, rfl⟩
      · next plain =>
          rw [dif_pos (by omega)]
          exact ⟨_, rfl, rfl, rfl, rfl, rfl⟩

theorem decode_utf8EncodeChar_append
    (c : Char)
    (rest : List UInt8) :
    decode (String.utf8EncodeChar c ++ rest) = c :: decode rest := by
  have valid : c.val.toNat < 0xd800 ∨ 0xdfff < c.val.toNat ∧ c.val.toNat < 0x110000 := c.valid
  have back : Char.ofNat c.val.toNat = c := Char.ofNat_toNat c
  have byteValue : ∀ {n : Nat}, n < 256 → (UInt8.ofNat n).toNat = n := UInt8.toNat_ofNat_of_lt'
  unfold String.utf8EncodeChar decode
  extract_lets v
  split
  · next one =>
      rw [List.singleton_append, decodeFrom, start_ascii (by rw [byteValue] <;> omega), byteValue (by omega), back]
      rfl
  · next large =>
      split
      · next two =>
          have lead := @byteValue (v / 64 % 0x20 + 0xc0) (by omega)
          have tail := @byteValue (v % 0x40 + 0x80) (by omega)
          obtain ⟨pending, started, value, last, low, high⟩ :=
            start_two (UInt8.ofNat (v / 64 % 0x20 + 0xc0)) (by omega)
          have whole : pending.value * 64 + ((UInt8.ofNat (v % 0x40 + 0x80)).toNat - 0x80) = v := by
            omega
          rw [List.cons_append, List.singleton_append, decodeFrom_first started,
            decodeFrom_last last (by omega), whole, back]
          rfl
      · next larger =>
          split
          · next three =>
              have lead := @byteValue (v / 4096 % 0x10 + 0xe0) (by omega)
              have inner := @byteValue (v / 64 % 0x40 + 0x80) (by omega)
              have tail := @byteValue (v % 0x40 + 0x80) (by omega)
              obtain ⟨pending, started, value, more, low, high⟩ :=
                start_three (UInt8.ofNat (v / 4096 % 0x10 + 0xe0)) (by omega)
              obtain ⟨next, continued, nextValue, last, nextLow, nextHigh⟩ :=
                decodeFrom_inner (UInt8.ofNat (v / 64 % 0x40 + 0x80)) more
                  (by split at low <;> split at high <;> omega)
                  (UInt8.ofNat (v % 0x40 + 0x80) :: rest)
              have whole : next.value * 64 + ((UInt8.ofNat (v % 0x40 + 0x80)).toNat - 0x80) = v := by
                omega
              rw [List.cons_append, List.cons_append, List.singleton_append,
                decodeFrom_first started, continued, decodeFrom_last last (by omega), whole, back]
              rfl
          · next largest =>
              have lead := @byteValue (v / 262144 % 0x08 + 0xf0) (by omega)
              have first := @byteValue (v / 4096 % 0x40 + 0x80) (by omega)
              have second := @byteValue (v / 64 % 0x40 + 0x80) (by omega)
              have tail := @byteValue (v % 0x40 + 0x80) (by omega)
              obtain ⟨pending, started, value, more, low, high⟩ :=
                start_four (UInt8.ofNat (v / 262144 % 0x08 + 0xf0)) (by omega)
              obtain ⟨next, continued, nextValue, still, nextLow, nextHigh⟩ :=
                decodeFrom_inner (UInt8.ofNat (v / 4096 % 0x40 + 0x80)) more
                  (by split at low <;> split at high <;> omega)
                  (UInt8.ofNat (v / 64 % 0x40 + 0x80) :: UInt8.ofNat (v % 0x40 + 0x80) :: rest)
              obtain ⟨final, finished, finalValue, last, finalLow, finalHigh⟩ :=
                decodeFrom_inner (UInt8.ofNat (v / 64 % 0x40 + 0x80)) still (by omega)
                  (UInt8.ofNat (v % 0x40 + 0x80) :: rest)
              have whole : final.value * 64 + ((UInt8.ofNat (v % 0x40 + 0x80)).toNat - 0x80) = v := by
                omega
              rw [List.cons_append, List.cons_append, List.cons_append, List.singleton_append,
                decodeFrom_first started, continued, finished, decodeFrom_last last (by omega),
                whole, back]
              rfl

end Utf8Replace
