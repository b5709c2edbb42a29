import Phrasebook.Linguist.Catalog
import Phrasebook.Proofs.Catalog.Lookup
import Phrasebook.Proofs.Markup.Text

/-!
# What the root of a catalog says

The root gives the language of the translations and that of the messages, as tags in attributes
that may be missing or blank. This module says when both can be read and what comes out.

- `NamesTag`, `Blank`: what can stand in an attribute of the root.
- `readTag_eq_ok_iff`: reading the attribute tells the two apart.
- `HasLanguage`, `readLanguage_eq_ok_iff`: the language of the translations.
- `readHeader_ok_iff`, `pushed_header`: the other facts.
-/

namespace Phrasebook.Linguist

open Phrasebook.Locale Markup Text

/-- The attribute, without the blanks around it, is a spelling of the tag. -/
def NamesTag (root : Element) (name : String) (tag : Tag) : Prop :=
  ∃ written, root.attribute? name = some written ∧ Tag.parse (trim written) = .ok tag

/-- The attribute is missing or there is nothing in it. -/
def Blank (root : Element) (name : String) : Prop :=
  ∀ written, root.attribute? name = some written → trim written = ""

/-- The language of the translations, as the root or else the reader's options give it. -/
def HasLanguage (options : Options) (root : Element) (language : Tag) : Prop :=
  NamesTag root "language" language ∨
    Blank root "language" ∧ options.defaultLanguage = some language

theorem readTag_eq_ok_iff (root : Element) (name : String) (tag : Option Tag) :
    readTag root name = .ok tag ↔
      (Blank root name ∧ tag = none) ∨ ∃ t, NamesTag root name t ∧ tag = some t := by
  constructor
  · intro read
    unfold readTag at read
    cases found : root.attribute? name with
    | none =>
      rw [found] at read
      cases read
      refine .inl ⟨fun written present => ?_, rfl⟩
      rw [found] at present
      cases present
    | some written =>
      rw [found] at read
      simp only [Option.map_some, String.isEmpty_iff] at read
      split at read
      · rename_i blank
        cases read
        refine .inl ⟨fun written' present => ?_, rfl⟩
        rw [found] at present
        cases present
        exact blank
      · cases parsed : Tag.parse (trim written) with
        | error fault => rw [parsed] at read; cases read
        | ok t =>
          rw [parsed] at read
          cases read
          exact .inr ⟨t, ⟨written, found, parsed⟩, rfl⟩
  · rintro (⟨blank, rfl⟩ | ⟨t, ⟨written, found, parsed⟩, rfl⟩)
    · unfold readTag
      cases found : root.attribute? name with
      | none => rfl
      | some written => simp [blank written found]
    · -- nothing spells a tag, so this text has not been taken for a missing one
      have text : trim written ≠ "" := by
        intro empty
        rw [empty] at parsed
        cases parsed
      unfold readTag
      rw [found]
      simp [text, parsed]

theorem readLanguage_eq_ok_iff (options : Options) (root : Element) (language : Tag) :
    readLanguage options root = .ok language ↔ HasLanguage options root language := by
  unfold readLanguage
  rw [bind_eq_ok_iff]
  constructor
  · rintro ⟨tag, read, given⟩
    rcases (readTag_eq_ok_iff root "language" tag).mp read with ⟨blank, rfl⟩ | ⟨t, named, rfl⟩
    · refine .inr ⟨blank, ?_⟩
      cases standard : options.defaultLanguage with
      | none => rw [standard] at given; cases given
      | some t => rw [standard] at given; cases given; rfl
    · cases given
      exact .inl named
  · rintro (named | ⟨blank, standard⟩)
    · exact ⟨some language, (readTag_eq_ok_iff _ _ _).mpr (.inr ⟨language, named, rfl⟩), rfl⟩
    · refine ⟨none, (readTag_eq_ok_iff _ _ _).mpr (.inl ⟨blank, rfl⟩), ?_⟩
      rw [standard]
      rfl

theorem exists_hasLanguage_iff (options : Options) (root : Element) :
    (∃ language, HasLanguage options root language) ↔
      (∃ tag, NamesTag root "language" tag) ∨
        Blank root "language" ∧ options.defaultLanguage ≠ none := by
  constructor
  · rintro ⟨language, named | ⟨blank, standard⟩⟩
    · exact .inl ⟨language, named⟩
    · refine .inr ⟨blank, ?_⟩
      rw [standard]
      exact Option.some_ne_none language
  · rintro (⟨tag, named⟩ | ⟨blank, standard⟩)
    · exact ⟨tag, .inl named⟩
    · obtain ⟨language, standard⟩ := Option.ne_none_iff_exists'.mp standard
      exact ⟨language, .inr ⟨blank, standard⟩⟩

theorem readHeader_ok_iff (root : Element) :
    (∃ header, readHeader root = .ok header) ↔
      Blank root "sourcelanguage" ∨ ∃ tag, NamesTag root "sourcelanguage" tag := by
  unfold readHeader
  constructor
  · rintro ⟨header, read⟩
    obtain ⟨tag, read, -⟩ := bind_eq_ok_iff.mp read
    rcases (readTag_eq_ok_iff _ _ _).mp read with ⟨blank, -⟩ | ⟨t, named, -⟩
    · exact .inl blank
    · exact .inr ⟨t, named⟩
  · rintro (blank | ⟨t, named⟩)
    · exact ⟨_, bind_eq_ok_iff.mpr
        ⟨none, (readTag_eq_ok_iff _ _ _).mpr (.inl ⟨blank, rfl⟩), rfl⟩⟩
    · exact ⟨_, bind_eq_ok_iff.mpr
        ⟨some t, (readTag_eq_ok_iff _ _ _).mpr (.inr ⟨t, named, rfl⟩), rfl⟩⟩

/-- The header adds no entries. -/
theorem pushed_header {root : Element} {header : List Catalog.Edit}
    (read : readHeader root = .ok header) : Catalog.pushed header = [] := by
  obtain ⟨tag, -, built⟩ := bind_eq_ok_iff.mp read
  cases built
  cases tag <;> cases root.attribute? "version" <;> rfl

end Phrasebook.Linguist
