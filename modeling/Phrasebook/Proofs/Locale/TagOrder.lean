import Phrasebook.Proofs.Locale.Casing
import Phrasebook.Proofs.Text.ByteOrder
import Phrasebook.Proofs.Text.Trimming

/-!
# Tags and their texts

Tags are compared by their texts, and a table of catalogs is kept in that order. This is sound
because a tag can be read off its text: no subtag contains the `-` that stands between subtags.

- `Tag.toList_text`: the characters of a text.
- `Tag.text_injective`: tags with one text are one tag.
- The instances say that comparing tags is a linear order.
- `Tag.compare_eq_lt_iff`: it is the order of the bytes of their texts.
- `Tag.languageOnly_le`: a bare language comes before all other tags of the language.
-/

namespace Phrasebook.Locale

open Text
open Storage (bytesOf)

namespace Tag

/-- The subtags of a tag, the language first. -/
def allSubtags (t : Tag) : List (List Char) :=
  t.language.toList :: t.subtags.map String.toList

theorem toList_text (t : Tag) : t.text.toList = ['-'].intercalate t.allSubtags := by
  -- for the fold, the text written so far has to vary
  have written : ∀ (ss : List String) (w : String),
      (ss.foldl (fun written s => written ++ "-" ++ s) w).toList
        = w.toList ++ (ss.map String.toList).flatMap fun s => '-' :: s := by
    intro ss
    induction ss with
    | nil => intro w; exact (List.append_nil w.toList).symm
    | cons s ss ih =>
      intro w
      rw [List.foldl_cons, ih, String.toList_append, String.toList_append]
      simp
  unfold allSubtags
  rw [intercalate_cons]
  exact written t.subtags t.language

theorem isAlphanum_of_mem {s : List Char} (hs : isSubtag s = true ∨ isLanguage s = true)
    {c : Char} (hc : c ∈ s) : c.isAlphanum = true := by
  rcases hs with hs | hs
  · simp only [isSubtag, Bool.and_eq_true, List.all_eq_true] at hs
    exact hs.2 c hc
  · simp only [isLanguage, Bool.and_eq_true, List.all_eq_true] at hs
    rw [Char.isAlphanum, hs.1.2 c hc, Bool.true_or]

theorem isAlphanum_of_mem_allSubtags (t : Tag) :
    ∀ s ∈ t.allSubtags, ∀ c ∈ s, c.isAlphanum = true := by
  intro s hs c hc
  rcases List.mem_cons.mp hs with rfl | hs
  · exact isAlphanum_of_mem (.inr t.canonical.language_valid) hc
  · exact isAlphanum_of_mem (.inl (List.all_eq_true.mp t.canonical.subtags_valid s hs)) hc

/-- A tag contains no `-` but those between its subtags. -/
theorem dash_not_mem_allSubtags (t : Tag) : ∀ s ∈ t.allSubtags, '-' ∉ s := by
  intro s hs dash
  exact absurd (t.isAlphanum_of_mem_allSubtags s hs '-' dash) (by decide)

theorem splitOn_text (t : Tag) : t.text.toList.splitOn '-' = t.allSubtags := by
  rw [toList_text]
  exact List.splitOn_intercalate '-' t.dash_not_mem_allSubtags (List.cons_ne_nil _ _)

/-- **A tag can be read off its text.** -/
theorem text_injective {t u : Tag} (h : t.text = u.text) : t = u := by
  have same : t.allSubtags = u.allSubtags := by
    rw [← splitOn_text, ← splitOn_text, h]
  obtain ⟨language, subtags⟩ := List.cons.inj same
  have hl : t.language = u.language := String.toList_inj.mp language
  have hs : t.subtags = u.subtags :=
    (List.map_inj_right fun _ _ => String.toList_inj.mp).mp subtags
  cases t
  cases u
  cases hl
  cases hs
  rfl

instance : Std.TransOrd Tag where
  eq_swap {t u} := by
    show compare t.text u.text = (compare u.text t.text).swap
    exact Std.OrientedCmp.eq_swap
  isLE_trans {t u v} htu huv := by
    show (compare t.text v.text).isLE = true
    exact Std.TransCmp.isLE_trans htu huv

instance : Std.LawfulEqOrd Tag where
  compare_self {t} := by
    show compare t.text t.text = .eq
    exact Std.ReflCmp.compare_self
  eq_of_compare h := text_injective (Std.LawfulEqOrd.eq_of_compare h)

/-! ## The order of bytes -/

theorem compare_eq_lt_iff (t u : Tag) : compare t u = .lt ↔ bytesOf t.text < bytesOf u.text :=
  Text.compare_eq_lt_iff t.text u.text

theorem isLE_compare_iff (t u : Tag) :
    (compare t u).isLE = true ↔ bytesOf t.text ≤ bytesOf u.text :=
  Text.isLE_compare_iff t.text u.text

/-- **A bare language is the least tag of its language**, since its text begins all others. -/
theorem languageOnly_le {t u : Tag} (same : t.language = u.language) :
    bytesOf t.languageOnly.text ≤ bytesOf u.text := by
  have bare : t.languageOnly.text.toList = u.language.toList := by
    rw [← same, toList_text]
    exact List.intercalate_singleton
  have whole : u.text.toList
      = u.language.toList ++ (u.subtags.map String.toList).flatMap fun s => '-' :: s := by
    rw [toList_text, allSubtags, intercalate_cons]
  rw [bytesOf_eq, bytesOf_eq, bare, whole, List.flatMap_append]
  exact List.le_append_left

end Tag

end Phrasebook.Locale
