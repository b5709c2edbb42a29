import Phrasebook.Proofs.Markup.View
import Phrasebook.Proofs.Text.ByteOrder
import Phrasebook.Proofs.Text.Numeral

/-!
# Texts as documents

A document that is a text in UTF-8 is read character by character.

- `read_encoded`: the bytes of one character.
- `read_of_readsTo`: the bytes of characters that can be read.
-/

namespace Phrasebook.Markup

open Text

/-! ## One character -/

theorem decodeUtf8Next_more {missing value least digit : Nat} (more : 1 < missing)
    (small : digit < 64) :
    decodeUtf8Next missing value least (digit + 0x80)
      = .more (.utf8 (missing - 1) (value * 64 + digit) least) := by
  have within : ¬ (decide (digit + 0x80 < 0x80) || decide (0xc0 ≤ digit + 0x80)) = true := by
    simp only [Bool.or_eq_true, decide_eq_true_eq]
    omega
  rw [decodeUtf8Next, if_neg within, Nat.add_sub_cancel]
  exact if_pos more

theorem decodeUtf8Next_last {value least digit : Nat} (small : digit < 64)
    (enough : least ≤ value * 64 + digit) :
    decodeUtf8Next 1 value least (digit + 0x80) = .ofScalar (value * 64 + digit) := by
  have within : ¬ (decide (digit + 0x80 < 0x80) || decide (0xc0 ≤ digit + 0x80)) = true := by
    simp only [Bool.or_eq_true, decide_eq_true_eq]
    omega
  rw [decodeUtf8Next, if_neg within, Nat.add_sub_cancel]
  exact if_neg (Nat.not_lt.mpr enough)

theorem decodeUtf8Lead_two {n : Nat} (small : n < 0x20) :
    decodeUtf8Lead (n + 0xc0) = .more (.utf8 1 n 0x80) := by
  unfold decodeUtf8Lead
  rw [if_neg (by omega), if_neg (by omega), if_pos (by omega), Nat.add_sub_cancel]

theorem decodeUtf8Lead_three {n : Nat} (small : n < 0x10) :
    decodeUtf8Lead (n + 0xe0) = .more (.utf8 2 n 0x800) := by
  unfold decodeUtf8Lead
  rw [if_neg (by omega), if_neg (by omega), if_neg (by omega), if_pos (by omega),
    Nat.add_sub_cancel]

theorem decodeUtf8Lead_four {n : Nat} (small : n < 8) :
    decodeUtf8Lead (n + 0xf0) = .more (.utf8 3 n 0x10000) := by
  unfold decodeUtf8Lead
  rw [if_neg (by omega), if_neg (by omega), if_neg (by omega), if_neg (by omega),
    if_pos (by omega), Nat.add_sub_cancel]

theorem ofScalar_toNat (c : Char) : Decoded.ofScalar c.toNat = .char c := by
  unfold Decoded.ofScalar
  rw [scalar?_toNat]

variable {s s' : State} {byte : UInt8} {bytes : List UInt8} {cs : List Char}

theorem read_more {unfinished unfinished' : Unfinished}
    (more : decode s.encoding unfinished byte = .more unfinished') :
    Events.read (byte :: bytes) unfinished s = Events.read bytes unfinished' s := by
  rw [Events.read, more]

theorem read_char {unfinished : Unfinished} {c : Char}
    (complete : decode s.encoding unfinished byte = .char c) (first : s.readChar c = .ok s') :
    Events.read (byte :: bytes) unfinished s = Events.read bytes .nothing s' := by
  rw [Events.read, complete]
  simp only [first]

theorem read_lead (encoding : s.encoding = .assumedUtf8) {n : Nat} (small : n < 256)
    {unfinished : Unfinished} (lead : decodeUtf8Lead n = .more unfinished) :
    Events.read (.ofNat n :: bytes) .nothing s = Events.read bytes unfinished s := by
  apply read_more
  rw [encoding]
  show decodeUtf8Lead (UInt8.ofNat n).toNat = _
  rw [UInt8.toNat_ofNat_of_lt' small, lead]

/-- A byte that is not the last one of a character adds its six bits. -/
theorem read_next (encoding : s.encoding = .assumedUtf8) {missing value least digit : Nat}
    (more : 1 < missing) (small : digit < 64) :
    Events.read (.ofNat (digit + 0x80) :: bytes) (.utf8 missing value least) s
      = Events.read bytes (.utf8 (missing - 1) (value * 64 + digit) least) s := by
  apply read_more
  rw [encoding]
  show decodeUtf8Next missing value least (UInt8.ofNat (digit + 0x80)).toNat = _
  rw [UInt8.toNat_ofNat_of_lt' (by show digit + 0x80 < 256; omega), decodeUtf8Next_more more small]

/-- The last byte of a character. -/
theorem read_last (encoding : s.encoding = .assumedUtf8) {c : Char} {least : Nat}
    (enough : least ≤ c.toNat) (first : s.readChar c = .ok s') :
    Events.read (.ofNat (c.toNat % 64 + 0x80) :: bytes) (.utf8 1 (c.toNat / 64) least) s
      = Events.read bytes .nothing s' := by
  apply read_char _ first
  have whole : c.toNat / 64 * 64 + c.toNat % 64 = c.toNat := Nat.div_add_mod' ..
  rw [encoding]
  show decodeUtf8Next 1 _ least (UInt8.ofNat (c.toNat % 64 + 0x80)).toNat = _
  rw [UInt8.toNat_ofNat_of_lt' (by show c.toNat % 64 + 0x80 < 256; omega),
    decodeUtf8Next_last (by omega) (by omega), whole, ofScalar_toNat]

/-- **The bytes of a character.** -/
theorem read_encoded {c : Char} (encoding : s.encoding = .assumedUtf8)
    (first : s.readChar c = .ok s') :
    Events.read (String.utf8EncodeChar c ++ bytes) .nothing s = Events.read bytes .nothing s' := by
  have last {least : Nat} (enough : least ≤ c.toNat) :
      Events.read (.ofNat (c.toNat % 64 + 0x80) :: bytes) (.utf8 1 (c.toNat / 64) least) s
        = Events.read bytes .nothing s' := read_last encoding enough first
  rcases utf8EncodeChar_cases c with ⟨most, written⟩ | ⟨least, most, written⟩ |
    ⟨least, most, written⟩ | ⟨least, most, written⟩
  case inl =>
    have lead : decode s.encoding .nothing (.ofNat c.toNat) = .char c := by
      rw [encoding]
      show decodeUtf8Lead (UInt8.ofNat c.toNat).toNat = _
      rw [UInt8.toNat_ofNat_of_lt' (by show c.toNat < 256; omega), decodeUtf8Lead, if_pos most,
        ofScalar_toNat]
    rw [written]
    exact read_char lead first
  case inr.inl =>
    rw [written]
    exact (read_lead encoding (by omega) (decodeUtf8Lead_two (by omega))).trans (last least)
  case inr.inr.inl =>
    have middle : c.toNat / 4096 * 64 + c.toNat / 64 % 64 = c.toNat / 64 := by omega
    rw [written]
    refine (read_lead encoding (by omega) (decodeUtf8Lead_three (by omega))).trans ?_
    refine (read_next encoding (by decide) (by omega)).trans ?_
    rw [middle]
    exact last least
  case inr.inr.inr =>
    have upper : c.toNat / 262144 * 64 + c.toNat / 4096 % 64 = c.toNat / 4096 := by omega
    have middle : c.toNat / 4096 * 64 + c.toNat / 64 % 64 = c.toNat / 64 := by omega
    rw [written]
    refine (read_lead encoding (by omega) (decodeUtf8Lead_four (by omega))).trans ?_
    refine (read_next encoding (by decide) (by omega)).trans ?_
    rw [upper]
    refine (read_next encoding (by decide) (by omega)).trans ?_
    rw [middle]
    exact last least

/-! ## Whole texts -/

/-- The bytes of characters that can be read. -/
theorem read_of_readsTo (reads : ReadsTo s cs s') :
    Events.read (cs.flatMap String.utf8EncodeChar) .nothing s = s'.finish := by
  induction reads with
  | nil => rfl
  | cons encoding first _ ih => rw [List.flatMap_cons, read_encoded encoding first, ih]

end Phrasebook.Markup
