/-
# ConfigUpkeep.Proofs.Utf8RoundTrip -- what is written is read back

The bytes of one character take the reader from between characters back to between
characters and spell that character (`decodeFrom_utf8EncodeChar`): the first byte says how
many follow and which range the second is in, and the bits of all of them put the number of
the character together again.  So the bytes of a text spell the text (`decodeAll_encode`).

Reading drops a byte order mark at the front.  A text that starts with one is therefore not
read back (`decode_encode`), and bytes are kept by reading and writing exactly if they are
the bytes of a text that does not start with one (`encode_decode_iff`).  Bytes that spell no
character are lost: a replacement character is written in their place.
-/
import ConfigUpkeep.Text.Utf8

namespace ConfigUpkeep.Utf8

set_option autoImplicit false

/-! ## One byte -/

section

variable {b : UInt8} {rest : Bytes}

/-- A byte that spells nothing yet. -/
theorem decodeFrom_begin {pending : Pending} (opens : Pending.begin b.toNat = ([], pending)) :
    decodeFrom .idle (b :: rest) = decodeFrom pending rest := by
  simp [decodeFrom, Pending.feed, opens]

variable {low high bits : Nat} (above : low ≤ b.toNat) (below : b.toNat ≤ high)

include above below

/-- A byte inside a character, with more to come. -/
theorem decodeFrom_more (missing : Nat) :
    decodeFrom (.within (missing + 2) low high bits) (b :: rest) =
      decodeFrom (.within (missing + 1) 0x80 0xBF (bits * 64 + (b.toNat - 0x80))) rest := by
  simp [decodeFrom, Pending.feed, above, below]

/-- The last byte of a character. -/
theorem decodeFrom_last :
    decodeFrom (.within 1 low high bits) (b :: rest) =
      Char.ofNat (bits * 64 + (b.toNat - 0x80)) :: decodeFrom .idle rest := by
  simp [decodeFrom, Pending.feed, above, below]

end

/-! ## One character -/

/-- The first byte of a character of three, and the range of the second one. -/
theorem begin_three {n : Nat} (large : 0x800 ≤ n) (small : n < 0xD800 ∨ 0xDFFF < n ∧ n < 0x10000) :
    ∃ low high, Pending.begin (n / 4096 % 16 + 224) = ([], .within 2 low high (n / 4096)) ∧
      low ≤ n / 64 % 64 + 128 ∧ n / 64 % 64 + 128 ≤ high := by
  unfold Pending.begin
  by_cases e0 : n / 4096 % 16 + 224 = 0xE0
  · refine ⟨0xA0, 0xBF, ?_, by omega, by omega⟩
    have : n / 4096 = 0 := by omega
    simp [this]
  · by_cases ed : n / 4096 % 16 + 224 = 0xED
    · refine ⟨0x80, 0x9F, ?_, by omega, by omega⟩
      have : n / 4096 = 0xD := by omega
      simp [this]
    · refine ⟨0x80, 0xBF, ?_, by omega, by omega⟩
      have top : n / 4096 % 16 + 224 - 0xE0 = n / 4096 := by omega
      rw [if_neg (by omega), if_neg (by omega), if_neg (by omega), if_neg e0, if_neg ed,
        if_pos (by omega), top]

/-- The first byte of a character of four, and the range of the second one. -/
theorem begin_four {n : Nat} (large : 0x10000 ≤ n) (small : n < 0x110000) :
    ∃ low high, Pending.begin (n / 262144 % 8 + 240) = ([], .within 3 low high (n / 262144)) ∧
      low ≤ n / 4096 % 64 + 128 ∧ n / 4096 % 64 + 128 ≤ high := by
  unfold Pending.begin
  by_cases f0 : n / 262144 % 8 + 240 = 0xF0
  · refine ⟨0x90, 0xBF, ?_, by omega, by omega⟩
    have : n / 262144 = 0 := by omega
    simp [this]
  · by_cases f4 : n / 262144 % 8 + 240 = 0xF4
    · refine ⟨0x80, 0x8F, ?_, by omega, by omega⟩
      have : n / 262144 = 4 := by omega
      simp [this]
    · refine ⟨0x80, 0xBF, ?_, by omega, by omega⟩
      have top : n / 262144 % 8 + 240 - 0xF0 = n / 262144 := by omega
      rw [if_neg (by omega), if_neg (by omega), if_neg (by omega), if_neg (by omega),
        if_neg (by omega), if_neg (by omega), if_neg f0, if_pos (by omega), top]

/-- **The bytes of a character spell it**, and nothing that follows is taken. -/
theorem decodeFrom_utf8EncodeChar (c : Char) (rest : Bytes) :
    decodeFrom .idle (String.utf8EncodeChar c ++ rest) = c :: decodeFrom .idle rest := by
  have bounds : c.toNat < 0xD800 ∨ 0xDFFF < c.toNat ∧ c.toNat < 0x110000 := c.valid
  have spelt {n : Nat} (same : n = c.toNat) : Char.ofNat n = c := by
    rw [same, Char.ofNat_toNat]
  simp only [String.utf8EncodeChar]
  have number : c.val.toNat = c.toNat := rfl
  rw [number]
  generalize c.toNat = n at bounds spelt
  -- The characters of one, two, three and four bytes, by their numbers.
  split
  · simp [decodeFrom, Pending.feed, Pending.begin, UInt8.toNat_ofNat_of_lt' (show n < 256 by omega),
      show n < 128 by omega, spelt rfl]
  · split
    · have first : (UInt8.ofNat (n / 64 % 32 + 192)).toNat = n / 64 + 192 := by
        rw [UInt8.toNat_ofNat_of_lt' (show n / 64 % 32 + 192 < 256 by omega)]
        omega
      have opens : Pending.begin (n / 64 + 192) = ([], .within 1 0x80 0xBF (n / 64)) := by
        unfold Pending.begin
        rw [if_neg (by omega), if_neg (by omega), if_pos (by omega)]
        simp
      have second := UInt8.toNat_ofNat_of_lt' (show n % 64 + 128 < 256 by omega)
      rw [List.cons_append, decodeFrom_begin (first ▸ opens), List.cons_append, List.nil_append,
        decodeFrom_last (by omega) (by omega), second, spelt (by omega)]
    · split
      · obtain ⟨low, high, opens, above, below⟩ := begin_three (n := n) (by omega) (by omega)
        have first := UInt8.toNat_ofNat_of_lt' (show n / 4096 % 16 + 224 < 256 by omega)
        have second := UInt8.toNat_ofNat_of_lt' (show n / 64 % 64 + 128 < 256 by omega)
        have third := UInt8.toNat_ofNat_of_lt' (show n % 64 + 128 < 256 by omega)
        rw [List.cons_append, decodeFrom_begin (first.symm ▸ opens), List.cons_append,
          decodeFrom_more (by omega) (by omega) 0, List.cons_append, List.nil_append,
          decodeFrom_last (by omega) (by omega), second, third, spelt (by omega)]
      · obtain ⟨low, high, opens, above, below⟩ := begin_four (n := n) (by omega) (by omega)
        have first := UInt8.toNat_ofNat_of_lt' (show n / 262144 % 8 + 240 < 256 by omega)
        have second := UInt8.toNat_ofNat_of_lt' (show n / 4096 % 64 + 128 < 256 by omega)
        have third := UInt8.toNat_ofNat_of_lt' (show n / 64 % 64 + 128 < 256 by omega)
        have fourth := UInt8.toNat_ofNat_of_lt' (show n % 64 + 128 < 256 by omega)
        rw [List.cons_append, decodeFrom_begin (first.symm ▸ opens), List.cons_append,
          decodeFrom_more (by omega) (by omega) 1, List.cons_append,
          decodeFrom_more (by omega) (by omega) 0, List.cons_append, List.nil_append,
          decodeFrom_last (by omega) (by omega), second, third, fourth, spelt (by omega)]

/-! ## Texts -/

/-- **The bytes of a text spell it.** -/
theorem decodeAll_encode (t : Text) : decodeAll (encode t) = t := by
  induction t with
  | nil => rfl
  | cons c t ih =>
      have front : encode (c :: t) = String.utf8EncodeChar c ++ encode t := rfl
      rw [decodeAll] at ih ⊢
      rw [front, decodeFrom_utf8EncodeChar, ih]

/-- Texts are told apart by their bytes. -/
theorem encode_inj {s t : Text} (same : encode s = encode t) : s = t := by
  rw [← decodeAll_encode s, same, decodeAll_encode]

/-- A text is kept by dropping a byte order mark if and only if it does not start with one. -/
theorem dropMark_eq_self {t : Text} : dropMark t = t ↔ t.head? ≠ some mark := by
  cases t with
  | nil => simp [dropMark]
  | cons c rest =>
      by_cases marked : c = mark
      · simp [dropMark, marked]
      · simp [dropMark, marked]

/-- A text that does not start with a byte order mark is read back. -/
theorem decode_encode {t : Text} (unmarked : t.head? ≠ some mark) : decode (encode t) = t := by
  rw [decode, decodeAll_encode, dropMark_eq_self.2 unmarked]

/-- **Which bytes survive reading and writing**: those of a text that does not start with a
byte order mark, and no others. -/
theorem encode_decode_iff {bytes : Bytes} :
    encode (decode bytes) = bytes ↔ ∃ t, encode t = bytes ∧ t.head? ≠ some mark := by
  constructor
  · intro kept
    refine ⟨decode bytes, kept, dropMark_eq_self.1 ?_⟩
    have read : decode bytes = dropMark (decodeAll bytes) := rfl
    rw [← kept, decodeAll_encode] at read
    rw [kept] at read
    exact read.symm
  · rintro ⟨t, rfl, unmarked⟩
    rw [decode_encode unmarked]

end ConfigUpkeep.Utf8
