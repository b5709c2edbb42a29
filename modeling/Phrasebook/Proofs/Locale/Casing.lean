import Mathlib
import Phrasebook.Locale.Tag
import Phrasebook.Proofs.Text.Letter

/-!
# What casing changes

Casing changes the case of letters and nothing else. So a piece of a tag keeps its shape, a second
pass changes nothing, and the pieces of every tag are valid and in their casing.

- `isRegion_lowerCase` and its companions: the shapes of pieces do not depend on their case.
- `recase_recase`, `map_lowerCase_recase`, `recase_map_lowerCase`: the casing of subtags is settled
  in one pass, and it neither keeps nor needs the case before.
- `canonical_iff`: what this means for the pieces of a tag.
-/

namespace Phrasebook.Locale

open Text

@[simp] theorem isAlphanum_toUpper (c : Char) : c.toUpper.isAlphanum = c.isAlphanum := by
  simp [Char.isAlphanum]

@[simp] theorem isAlphanum_toLower (c : Char) : c.toLower.isAlphanum = c.isAlphanum := by
  simp [Char.isAlphanum]

/-! ## Shapes -/

@[simp] theorem isRegion_lowerCase (s : List Char) : isRegion (lowerCase s) = isRegion s := by
  simp [isRegion, lowerCase, List.all_map, Function.comp_def]

@[simp] theorem isRegion_upperCase (s : List Char) : isRegion (upperCase s) = isRegion s := by
  simp [isRegion, upperCase, List.all_map, Function.comp_def]

@[simp] theorem isRegion_titleCase (s : List Char) : isRegion (titleCase s) = isRegion s := by
  cases s <;> simp [isRegion, titleCase, List.all_map, Function.comp_def]

@[simp] theorem isScript_lowerCase (s : List Char) : isScript (lowerCase s) = isScript s := by
  simp [isScript, lowerCase, List.all_map, Function.comp_def]

@[simp] theorem isScript_titleCase (s : List Char) : isScript (titleCase s) = isScript s := by
  cases s <;> simp [isScript, titleCase, List.all_map, Function.comp_def]

@[simp] theorem isSubtag_lowerCase (s : List Char) : isSubtag (lowerCase s) = isSubtag s := by
  simp [isSubtag, lowerCase, List.all_map, Function.comp_def]

@[simp] theorem isSubtag_upperCase (s : List Char) : isSubtag (upperCase s) = isSubtag s := by
  simp [isSubtag, upperCase, List.all_map, Function.comp_def]

@[simp] theorem isSubtag_titleCase (s : List Char) : isSubtag (titleCase s) = isSubtag s := by
  cases s <;> simp [isSubtag, titleCase, List.all_map, Function.comp_def]

@[simp] theorem isLanguage_lowerCase (s : List Char) :
    isLanguage (lowerCase s) = isLanguage s := by
  simp [isLanguage, lowerCase, List.all_map, Function.comp_def]

/-! ## One case after another -/

@[simp] theorem lowerCase_lowerCase (s : List Char) :
    lowerCase (lowerCase s) = lowerCase s := by
  simp [lowerCase, Function.comp_def]

@[simp] theorem upperCase_upperCase (s : List Char) :
    upperCase (upperCase s) = upperCase s := by
  simp [upperCase, Function.comp_def]

@[simp] theorem titleCase_titleCase (s : List Char) :
    titleCase (titleCase s) = titleCase s := by
  cases s <;> simp [titleCase, Function.comp_def]

theorem lowerCase_upperCase (s : List Char) : lowerCase (upperCase s) = lowerCase s := by
  simp [lowerCase, upperCase]

theorem lowerCase_titleCase (s : List Char) : lowerCase (titleCase s) = lowerCase s := by
  cases s <;> simp [lowerCase, titleCase]

theorem upperCase_lowerCase (s : List Char) : upperCase (lowerCase s) = upperCase s := by
  simp [lowerCase, upperCase]

theorem titleCase_lowerCase (s : List Char) : titleCase (lowerCase s) = titleCase s := by
  cases s <;> simp [lowerCase, titleCase]

/-! ## The casing of subtags -/

/-- Casing is settled in one pass. -/
theorem recase_recase (seen : Bool) (ss : List (List Char)) :
    recase seen (recase seen ss) = recase seen ss := by
  induction ss generalizing seen with
  | nil => rfl
  | cons s ss ih =>
    by_cases region : (isRegion s && !seen) = true
    · simp [recase, region, ih]
    · by_cases script : isScript s = true <;> simp [recase, region, script, ih]

/-- Casing makes a subtag out of a subtag. -/
theorem all_isSubtag_recase (seen : Bool) (ss : List (List Char)) :
    (recase seen ss).all isSubtag = ss.all isSubtag := by
  induction ss generalizing seen with
  | nil => rfl
  | cons s ss ih =>
    by_cases region : (isRegion s && !seen) = true
    · simp [recase, region, ih]
    · by_cases script : isScript s = true <;> simp [recase, region, script, ih]

/-- Casing changes nothing but the case. -/
theorem map_lowerCase_recase (seen : Bool) (ss : List (List Char)) :
    (recase seen ss).map lowerCase = ss.map lowerCase := by
  induction ss generalizing seen with
  | nil => rfl
  | cons s ss ih =>
    rw [recase]
    split
    · simp [ih, lowerCase_upperCase]
    · split <;> simp [ih, lowerCase_titleCase]

/-- Casing does not depend on the case before. -/
theorem recase_map_lowerCase (seen : Bool) (ss : List (List Char)) :
    recase seen (ss.map lowerCase) = recase seen ss := by
  induction ss generalizing seen with
  | nil => rfl
  | cons s ss ih =>
    simp only [List.map_cons, recase, isRegion_lowerCase, isScript_lowerCase, upperCase_lowerCase,
      titleCase_lowerCase, lowerCase_lowerCase, ih]

/-! ## Tags -/

namespace Canonical

variable {language : List Char} {subtags : List (List Char)}

theorem language_valid (h : Canonical language subtags) : isLanguage language = true := by
  cases h with
  | of_pieces hl _ => rw [isLanguage_lowerCase, hl]

theorem language_lower (h : Canonical language subtags) : lowerCase language = language := by
  cases h with
  | of_pieces _ _ => rw [lowerCase_lowerCase]

theorem subtags_valid (h : Canonical language subtags) : subtags.all isSubtag = true := by
  cases h with
  | of_pieces _ hs => rw [all_isSubtag_recase, hs]

theorem subtags_cased (h : Canonical language subtags) : recase false subtags = subtags := by
  cases h with
  | of_pieces _ _ => rw [recase_recase]

end Canonical

/-- **The pieces of a tag are the valid ones that casing leaves alone.** -/
theorem canonical_iff (language : List Char) (subtags : List (List Char)) :
    Canonical language subtags ↔
      isLanguage language = true ∧ lowerCase language = language ∧
        subtags.all isSubtag = true ∧ recase false subtags = subtags := by
  constructor
  · intro h
    exact ⟨h.language_valid, h.language_lower, h.subtags_valid, h.subtags_cased⟩
  · rintro ⟨valid, lower, subtags_valid, cased⟩
    have built := Canonical.of_pieces valid subtags_valid
    rwa [lower, cased] at built

end Phrasebook.Locale
