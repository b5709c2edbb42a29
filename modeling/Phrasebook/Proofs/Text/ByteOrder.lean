import Phrasebook.Storage.Access

/-!
# Texts as bytes

A text is compared character by character, and a file holds its bytes. Both come to the same
order, as the bytes of a character grow with its number.

- `utf8EncodeChar_cases`: the bytes of one character.
- `bytesOf_eq`: the bytes of a text are those of its characters.
- `bytesOf_lt_iff`: the order of texts is that of their bytes.
-/

namespace Phrasebook.Text

open Storage (bytesOf)

/-- The bytes of a character, by their number. -/
theorem utf8EncodeChar_cases (c : Char) :
    (c.toNat < 0x80 ∧ String.utf8EncodeChar c = [.ofNat c.toNat]) ∨
    (0x80 ≤ c.toNat ∧ c.toNat < 0x800 ∧
      String.utf8EncodeChar c = [.ofNat (c.toNat / 64 + 0xc0), .ofNat (c.toNat % 64 + 0x80)]) ∨
    (0x800 ≤ c.toNat ∧ c.toNat < 0x10000 ∧
      String.utf8EncodeChar c = [.ofNat (c.toNat / 4096 + 0xe0),
        .ofNat (c.toNat / 64 % 64 + 0x80), .ofNat (c.toNat % 64 + 0x80)]) ∨
    (0x10000 ≤ c.toNat ∧ c.toNat < 0x110000 ∧
      String.utf8EncodeChar c = [.ofNat (c.toNat / 262144 + 0xf0),
        .ofNat (c.toNat / 4096 % 64 + 0x80), .ofNat (c.toNat / 64 % 64 + 0x80),
        .ofNat (c.toNat % 64 + 0x80)]) := by
  have valid := c.valid
  simp only [UInt32.isValidChar, Nat.isValidChar] at valid
  have same : c.toNat = c.val.toNat := rfl
  rw [same]
  fun_cases String.utf8EncodeChar with
  | case1 v one => exact .inl ⟨by omega, rfl⟩
  | case2 v one two =>
    rw [Nat.mod_eq_of_lt (a := v / 64) (by omega)]
    exact .inr (.inl ⟨by omega, by omega, rfl⟩)
  | case3 v one two three =>
    rw [Nat.mod_eq_of_lt (a := v / 4096) (by omega)]
    exact .inr (.inr (.inl ⟨by omega, by omega, rfl⟩))
  | case4 v one two three =>
    rw [Nat.mod_eq_of_lt (a := v / 262144) (by omega)]
    exact .inr (.inr (.inr ⟨by omega, by omega, rfl⟩))

/-- The bytes of a text are those of its characters. -/
theorem bytesOf_eq (text : String) :
    bytesOf text = text.toList.flatMap String.utf8EncodeChar := by
  have same : text.toUTF8 = (text.toList.flatMap String.utf8EncodeChar).toByteArray :=
    String.utf8Encode_toList.symm
  unfold bytesOf
  rw [same, List.toList_data_toByteArray]

/-! ## Order -/

/-- Bytes are compared as numbers, and what follows them counts where they are equal. -/
theorem ofNat_cons_lt {m n : Nat} {xs ys : List UInt8} (byte : n < 256) (le : m ≤ n)
    (rest : m = n → xs < ys) : UInt8.ofNat m :: xs < UInt8.ofNat n :: ys := by
  rw [List.cons_lt_cons_iff]
  rcases Nat.lt_or_eq_of_le le with less | rfl
  · left
    rw [UInt8.lt_iff_toNat_lt, UInt8.toNat_ofNat_of_lt' (Nat.lt_trans less byte),
      UInt8.toNat_ofNat_of_lt' byte]
    exact less
  · exact .inr ⟨rfl, rest rfl⟩

/-- **A smaller character has smaller bytes**, whatever follows them. -/
theorem utf8EncodeChar_lt {c d : Char} (less : c < d) (xs ys : List UInt8) :
    String.utf8EncodeChar c ++ xs < String.utf8EncodeChar d ++ ys := by
  have less : c.toNat < d.toNat := less
  rcases utf8EncodeChar_cases c with ⟨hc, written⟩ | ⟨hc, hc', written⟩ | ⟨hc, hc', written⟩ |
    ⟨hc, hc', written⟩ <;>
  rcases utf8EncodeChar_cases d with ⟨hd, written'⟩ | ⟨hd, hd', written'⟩ | ⟨hd, hd', written'⟩ |
    ⟨hd, hd', written'⟩ <;>
  rw [written, written']
  -- with more bytes comes a greater first byte
  any_goals (refine ofNat_cons_lt ?_ ?_ ?_ <;> omega)
  case inr.inl.inr.inl =>
    refine ofNat_cons_lt (by omega) (by omega) fun first => ?_
    exact ofNat_cons_lt (by omega) (by omega) (by omega)
  case inr.inr.inl.inr.inr.inl =>
    refine ofNat_cons_lt (by omega) (by omega) fun first => ?_
    refine ofNat_cons_lt (by omega) (by omega) fun second => ?_
    exact ofNat_cons_lt (by omega) (by omega) (by omega)
  case inr.inr.inr.inr.inr.inr =>
    refine ofNat_cons_lt (by omega) (by omega) fun first => ?_
    refine ofNat_cons_lt (by omega) (by omega) fun second => ?_
    refine ofNat_cons_lt (by omega) (by omega) fun third => ?_
    exact ofNat_cons_lt (by omega) (by omega) (by omega)

/-- The bytes of characters are in the order of the characters. -/
theorem flatMap_utf8EncodeChar_lt {cs ds : List Char} (less : cs < ds) :
    cs.flatMap String.utf8EncodeChar < ds.flatMap String.utf8EncodeChar := by
  induction cs generalizing ds with
  | nil =>
    cases ds with
    | nil => exact absurd less (List.lt_irrefl [])
    | cons d ds =>
      rw [List.flatMap_nil, List.flatMap_cons]
      rcases utf8EncodeChar_cases d with ⟨-, written⟩ | ⟨-, -, written⟩ | ⟨-, -, written⟩ |
        ⟨-, -, written⟩ <;> rw [written] <;> exact List.nil_lt_cons _ _
  | cons c cs ih =>
    cases ds with
    | nil => exact absurd less (List.not_lt_nil _)
    | cons d ds =>
      rw [List.flatMap_cons, List.flatMap_cons]
      rcases List.cons_lt_cons_iff.mp less with first | ⟨rfl, rest⟩
      · exact utf8EncodeChar_lt first _ _
      · exact List.append_left_lt (ih rest)

/-- **The order of texts is that of their bytes.** -/
theorem bytesOf_lt_iff (s t : String) : bytesOf s < bytesOf t ↔ s < t := by
  have keeps : ∀ {s t : String}, s < t → bytesOf s < bytesOf t := by
    intro s t less
    rw [bytesOf_eq, bytesOf_eq]
    exact flatMap_utf8EncodeChar_lt less
  constructor
  · intro less
    rcases Std.lt_trichotomy s t with lower | same | upper
    · exact lower
    · rw [same] at less
      exact absurd less (List.lt_irrefl _)
    · exact absurd (keeps upper) (List.lt_asymm less)
  · exact keeps

theorem compare_eq_lt_iff (s t : String) : compare s t = .lt ↔ bytesOf s < bytesOf t := by
  rw [bytesOf_lt_iff]
  exact compareOfLessAndEq_eq_lt

theorem isLE_compare_iff (s t : String) : (compare s t).isLE = true ↔ bytesOf s ≤ bytesOf t := by
  have swapped : compare t s = (compare s t).swap := Std.OrientedCmp.eq_swap
  rw [← List.not_lt, ← compare_eq_lt_iff, swapped]
  cases compare s t <;> decide

end Phrasebook.Text
