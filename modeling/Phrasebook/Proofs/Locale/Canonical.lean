import Mathlib.Data.List.Forall2
import Phrasebook.Proofs.Locale.Grammar

/-!
# The spellings of one tag

A tag has one text and many spellings. They are told apart by the case of letters, by the two
separators and by what stands around the part that names a locale, and by nothing else, so tags
can be compared in place of the spellings they were read from.

- `Tag.SameSpelling`: spellings that make no difference. `Tag.sameSpelling_iff` compares them
  through one character for all that a tag does not tell apart.
- `Tag.splitOnP_map_fold`, `Tag.map_fold_eq_intercalate`: such spellings have the same pieces, up to
  case, and no others have.
- `Tag.alike_of_sameSpelling`: the same comes of them.
- `Tag.sameSpelling_text`: the text of a tag is one of its spellings.
- `Tag.parse_text`: it is read as the tag itself.
- `Tag.parse_eq_iff_sameSpelling`: all of it, with the order of tags.
-/

namespace Phrasebook.Locale

open Text

namespace Tag

/-- Characters that make no difference: a letter in two cases, and the two separators. -/
inductive SameSign (c d : Char) : Prop
  | letter (same : c.toLower = d.toLower)
  | separators (left : isSeparator c = true) (right : isSeparator d = true)

/-- Texts of which each character makes no difference. -/
def SameSpelling (cs ds : List Char) : Prop :=
  List.Forall₂ SameSign cs ds

/-- One character for all that make no difference, so that they can be compared by equality. -/
def fold (c : Char) : Char :=
  if isSeparator c then '-' else c.toLower

theorem isSeparator_iff (c : Char) : isSeparator c = true ↔ c = '-' ∨ c = '_' := by
  simp [isSeparator]

theorem isSeparator_toLower (c : Char) : isSeparator c.toLower = isSeparator c := by
  rw [Bool.eq_iff_iff, isSeparator_iff, isSeparator_iff]
  simp only [← Char.toNat_inj, toNat_toLower]
  have dash : '-'.toNat = 45 := rfl
  have line : '_'.toNat = 95 := rfl
  grind

theorem sameSign_iff (c d : Char) : SameSign c d ↔ fold c = fold d := by
  show SameSign c d ↔
    (if isSeparator c then '-' else c.toLower) = (if isSeparator d then '-' else d.toLower)
  constructor
  · rintro (same | ⟨left, right⟩)
    · have both : isSeparator c = isSeparator d := by
        rw [← isSeparator_toLower, same, isSeparator_toLower]
      rw [both, same]
    · rw [if_pos left, if_pos right]
  · intro same
    by_cases left : isSeparator c = true <;> by_cases right : isSeparator d = true
    · exact .separators left right
    -- no letter is a separator in lower case, so the two kinds do not meet
    · rw [if_pos left, if_neg right] at same
      rw [← isSeparator_toLower, ← same] at right
      exact absurd rfl right
    · rw [if_neg left, if_pos right] at same
      rw [← isSeparator_toLower, same] at left
      exact absurd rfl left
    · rw [if_neg left, if_neg right] at same
      exact .letter same

theorem sameSpelling_iff (cs ds : List Char) : SameSpelling cs ds ↔ cs.map fold = ds.map fold := by
  rw [← List.forall₂_eq_eq_eq, List.forall₂_map_left_iff, List.forall₂_map_right_iff]
  exact ⟨fun same => same.imp fun c d => (sameSign_iff c d).mp,
    fun same => same.imp fun c d => (sameSign_iff c d).mpr⟩

/-! ## Pieces -/

/-- A text without separators is in lower case where they would be told apart. -/
theorem map_fold_of_plain {p : List Char} (plain : ∀ c ∈ p, isSeparator c = false) :
    p.map fold = lowerCase p :=
  List.map_congr_left fun c mem => if_neg (by rw [plain c mem]; exact Bool.false_ne_true)

theorem map_fold_intercalate {ps : List (List Char)}
    (plain : ∀ p ∈ ps, ∀ c ∈ p, isSeparator c = false) :
    (['-'].intercalate ps).map fold = ['-'].intercalate (ps.map lowerCase) := by
  cases ps with
  | nil => rfl
  | cons p ps =>
    obtain ⟨first, others⟩ := List.forall_mem_cons.mp plain
    have later : ps.flatMap (fun q => ('-' :: q).map fold)
        = ps.flatMap fun q => '-' :: lowerCase q :=
      List.flatMap_congr fun q mem => by
        rw [List.map_cons, map_fold_of_plain (others q mem)]
        rfl
    rw [List.map_cons, intercalate_cons, intercalate_cons, List.map_append, map_fold_of_plain first,
      List.map_flatMap, later, List.flatMap_map]

theorem splitOnP_cons_ne_nil (cs : List Char) :
    ∃ first later, cs.splitOnP isSeparator = first :: later :=
  List.exists_cons_of_ne_nil (List.splitOnP_ne_nil isSeparator cs)

/-- Pieces that differ in case only come from texts that make no difference. -/
theorem map_fold_eq_intercalate (cs : List Char) :
    cs.map fold = ['-'].intercalate ((cs.splitOnP isSeparator).map lowerCase) := by
  induction cs with
  | nil => rfl
  | cons c cs ih =>
    obtain ⟨first, later, pieces⟩ := splitOnP_cons_ne_nil cs
    rw [List.map_cons, ih, List.splitOnP_cons_eq_if_modifyHead, pieces]
    by_cases here : isSeparator c = true
    · have dash : fold c = '-' := if_pos here
      rw [if_pos here, dash]
      rfl
    · have letter : fold c = c.toLower := if_neg here
      rw [if_neg here, letter, List.modifyHead_cons, List.map_cons, List.map_cons, intercalate_cons,
        intercalate_cons]
      rfl

/-- Texts that make no difference have pieces that differ in case only. -/
theorem splitOnP_map_fold (cs : List Char) :
    (cs.map fold).splitOnP isSeparator = (cs.splitOnP isSeparator).map lowerCase := by
  induction cs with
  | nil => rfl
  | cons c cs ih =>
    obtain ⟨first, later, pieces⟩ := splitOnP_cons_ne_nil cs
    rw [List.map_cons, List.splitOnP_cons_eq_if_modifyHead, List.splitOnP_cons_eq_if_modifyHead,
      ih, pieces]
    by_cases here : isSeparator c = true
    · have dash : fold c = '-' := if_pos here
      rw [if_pos here, dash]
      rfl
    · have letter : fold c = c.toLower := if_neg here
      rw [if_neg here, letter, isSeparator_toLower, if_neg here]
      rfl

theorem SameSpelling.map_pieces {cs ds : List Char} (same : SameSpelling cs ds) :
    (cs.splitOnP isSeparator).map lowerCase = (ds.splitOnP isSeparator).map lowerCase := by
  rw [← splitOnP_map_fold, ← splitOnP_map_fold, (sameSpelling_iff cs ds).mp same]

/-! ## What comes of spellings that make no difference -/

/-- Two results agree: they are one tag, or errors of one kind. The subtags that they report
differ in case only. -/
inductive Alike : Except TagError Tag → Except TagError Tag → Prop
  | tag (t : Tag) : Alike (.ok t) (.ok t)
  | empty : Alike (.error .empty) (.error .empty)
  | invalidLanguage (a b : String) :
      Alike (.error (.invalidLanguage a)) (.error (.invalidLanguage b))
  | invalidSubtag (a b : String) {s s' : List Char} (same : lowerCase s = lowerCase s') :
      Alike (.error (.invalidSubtag a (String.ofList s)))
        (.error (.invalidSubtag b (String.ofList s')))

theorem isLanguage_congr {p q : List Char} (same : lowerCase p = lowerCase q) :
    isLanguage p = isLanguage q := by
  rw [← isLanguage_lowerCase, same, isLanguage_lowerCase]

theorem isSubtag_congr {p q : List Char} (same : lowerCase p = lowerCase q) :
    isSubtag p = isSubtag q := by
  rw [← isSubtag_lowerCase, same, isSubtag_lowerCase]

theorem forall_isSubtag_congr {ps qs : List (List Char)}
    (same : ps.map lowerCase = qs.map lowerCase) (valid : ∀ p ∈ ps, isSubtag p = true) :
    ∀ q ∈ qs, isSubtag q = true := by
  intro q mem
  have lowered : lowerCase q ∈ ps.map lowerCase := same ▸ List.mem_map_of_mem mem
  obtain ⟨p, mem', same'⟩ := List.mem_map.mp lowered
  rw [← isSubtag_congr same', valid p mem']

theorem Cased.congr {ps qs cased : List (List Char)} {region : Option (List Char)}
    (casing : Cased ps cased region) (same : ps.map lowerCase = qs.map lowerCase) :
    Cased qs cased region := by
  rw [cased_iff] at casing ⊢
  rwa [← recase_map_lowerCase false qs, ← same, recase_map_lowerCase]

/-- **Spellings that make no difference** lead to one tag or to one kind of error. -/
theorem alike_of_sameSpelling {a b : String} (same : SameSpelling (bare a) (bare b)) :
    Alike (parse a) (parse b) := by
  obtain ⟨result, outcome⟩ := exists_outcome a
  have lowered := same.map_pieces
  rw [outcome.parse_eq]
  -- what comes of the second spelling is built from the pieces of the first
  cases outcome with
  | empty nothing =>
    rw [nothing] at same
    rw [parse_of_empty (List.forall₂_nil_left_iff.mp same)]
    exact .empty
  | invalidLanguage something pieces defect =>
    obtain ⟨first', later', pieces'⟩ := splitOnP_cons_ne_nil (bare b)
    rw [pieces, pieces', List.map_cons, List.map_cons, List.cons.injEq] at lowered
    have something' : bare b ≠ [] := by
      intro nothing
      rw [nothing] at same
      exact something (List.forall₂_nil_right_iff.mp same)
    have defect' : isLanguage first' = false := by
      rw [← isLanguage_congr lowered.1, defect]
    rw [(Outcome.invalidLanguage something' pieces' defect').parse_eq]
    exact .invalidLanguage _ _
  | invalidSubtag pieces language valid defect =>
    rw [pieces, eq_comm, List.map_cons, List.map_append, List.map_cons] at lowered
    obtain ⟨first', later', pieces', first, later⟩ := List.map_eq_cons_iff.mp lowered
    obtain ⟨before', behind', rfl, before, behind⟩ := List.map_eq_append_iff.mp later
    obtain ⟨s', after', rfl, offending, -⟩ := List.map_eq_cons_iff.mp behind
    have language' : isLanguage first' = true := by
      rw [isLanguage_congr first, language]
    have defect' : isSubtag s' = false := by
      rw [isSubtag_congr offending, defect]
    have valid' := forall_isSubtag_congr before.symm valid
    rw [(Outcome.invalidSubtag pieces' language' valid' defect').parse_eq]
    exact .invalidSubtag _ _ offending.symm
  | tag pieces language valid casing text named place =>
    rw [pieces, eq_comm, List.map_cons] at lowered
    obtain ⟨first', later', pieces', first, later⟩ := List.map_eq_cons_iff.mp lowered
    have language' : isLanguage first' = true := by
      rw [isLanguage_congr first, language]
    have valid' := forall_isSubtag_congr later.symm valid
    rw [← first] at text named
    have outcome' := Outcome.tag pieces' language' valid' (casing.congr later.symm) text named place
    rw [outcome'.parse_eq]
    exact .tag _

/-! ## The text of a tag as a spelling -/

theorem isSeparator_of_isAlphanum {c : Char} (alphanum : c.isAlphanum = true) :
    isSeparator c = false := by
  rw [Bool.eq_false_iff, ne_eq, isSeparator_iff]
  rintro (rfl | rfl) <;> exact absurd alphanum (by decide)

theorem plain_allSubtags (t : Tag) : ∀ s ∈ t.allSubtags, ∀ c ∈ s, isSeparator c = false :=
  fun s hs c hc => isSeparator_of_isAlphanum (t.isAlphanum_of_mem_allSubtags s hs c hc)

/-- The text of a tag makes no difference to the spellings that the tag is read from. -/
theorem sameSpelling_text {spelling : String} {t : Tag} (parsed : parse spelling = .ok t) :
    SameSpelling t.text.toList (bare spelling) := by
  have outcome := outcome_parse spelling
  rw [parsed] at outcome
  cases outcome with
  | tag pieces language valid casing text =>
    have hs := List.all_eq_true.mpr valid
    have same := ofPieces_eq_of_text language hs (by rw [text, casing.recase_eq])
    rw [sameSpelling_iff, toList_text, map_fold_intercalate t.plain_allSubtags,
      map_fold_eq_intercalate, pieces, ← same, allSubtags_ofPieces, List.map_cons, List.map_cons,
      lowerCase_lowerCase, map_lowerCase_recase]

theorem mem_text {t : Tag} {c : Char} (mem : c ∈ t.text.toList) :
    c.isAlphanum = true ∨ c = '-' := by
  rw [toList_text, allSubtags, intercalate_cons, List.mem_append, List.mem_flatMap] at mem
  rcases mem with mem | ⟨s, inside, mem⟩
  · exact .inl (t.isAlphanum_of_mem_allSubtags _ List.mem_cons_self c mem)
  · rcases List.mem_cons.mp mem with rfl | mem
    · exact .inr rfl
    · exact .inl (t.isAlphanum_of_mem_allSubtags s (List.mem_cons_of_mem _ inside) c mem)

/-- The whole text of a tag names a locale. -/
theorem bare_text (t : Tag) : bare t.text = t.text.toList := by
  have solid : ∀ c ∈ t.text.toList, isBlank c = false ∧ c ≠ '.' ∧ c ≠ '@' := by
    intro c mem
    rcases mem_text mem with alphanum | rfl
    · refine ⟨isBlank_of_isAlphanum alphanum, ?_, ?_⟩ <;>
        rintro rfl <;> exact absurd alphanum (by decide)
    · decide
  have parts : Parts t.text t.text.toList t.text.toList :=
    { blanks := ⟨[], [], by simp⟩
      first := fun c head => (solid c (List.mem_of_head? head)).1
      last := fun c last => (solid c (List.mem_of_getLast? last)).1
      behind := ⟨[], by simp⟩
      plain := fun c mem => (solid c mem).2 }
  exact ((parts_iff _ _ _).mp parts).2.symm

/-- **A tag is read back from its text.** -/
theorem parse_text (t : Tag) : parse t.text = .ok t := by
  have whole : (bare t.text).splitOnP isSeparator = t.allSubtags := by
    rw [bare_text, toList_text]
    exact splitOnP_intercalate rfl (List.cons_ne_nil _ _) t.plain_allSubtags
  have casing : Cased (t.subtags.map String.toList) (t.subtags.map String.toList)
      (t.region?.map String.toList) := by
    rw [cased_iff, t.canonical.subtags_cased, region?, List.find?_map]
    exact ⟨rfl, rfl⟩
  have text : t.text.toList = ['-'].intercalate (lowerCase t.language.toList ::
      t.subtags.map String.toList) := by
    rw [toList_text, t.canonical.language_lower]
    rfl
  exact (Outcome.tag whole t.canonical.language_valid
    (List.all_eq_true.mp t.canonical.subtags_valid) casing text t.canonical.language_lower.symm
    rfl).parse_eq

/-! ## Tags in place of spellings -/

/-- Tags compared by their texts and then by the lengths of their languages in them. -/
def compareParts (t u : Tag) : Ordering :=
  (compare t.text u.text).then (compare t.language.length u.language.length)

/-- The texts decide, as the language ends at the same place in equal texts. -/
theorem compareParts_eq (t u : Tag) : compareParts t u = compare t u := by
  show (compare t.text u.text).then _ = compare t.text u.text
  cases order : compare t.text u.text with
  | lt => rfl
  | gt => rfl
  | eq =>
    have same : t = u := text_injective (Std.LawfulEqOrd.eq_of_compare order)
    rw [same]
    exact Nat.compare_eq_eq.mpr rfl

/-- **Tags stand for their spellings.** A tag is read back from its text, and its language is what
the text has before the first `-`, which is the text of the tag reduced to it. The same comes of
spellings that make no difference, and those of which one tag comes make none. So tags are equal
and in order as their texts are. -/
theorem parse_eq_iff_sameSpelling (a b : String) (t u : Tag) :
    (parse t.text = .ok t ∧ parse t.language = .ok t.languageOnly ∧
      t.language.length = (t.text.toList.takeWhile (· != '-')).length) ∧
    (SameSpelling (bare a) (bare b) → Alike (parse a) (parse b)) ∧
    (parse a = .ok t → parse b = .ok u → (t = u ↔ SameSpelling (bare a) (bare b))) ∧
    (t = u ↔ t.text = u.text ∧ t.language.length = u.language.length) ∧
    (t = u ↔ t.text = u.text) ∧
    compareParts t u = compare t.text u.text := by
  refine ⟨⟨t.parse_text, t.languageOnly.parse_text, ?_⟩, alike_of_sameSpelling, ?_, ?_,
    ⟨congrArg text, text_injective⟩, compareParts_eq t u⟩
  · rw [← language_eq_takeWhile, String.length_toList]
  · intro parsed parsed'
    constructor
    · rintro rfl
      have same := (sameSpelling_iff _ _).mp (sameSpelling_text parsed)
      have same' := (sameSpelling_iff _ _).mp (sameSpelling_text parsed')
      rw [sameSpelling_iff, ← same, same']
    · intro same
      have alike := alike_of_sameSpelling same
      rw [parsed, parsed'] at alike
      cases alike
      rfl
  · constructor
    · rintro rfl
      exact ⟨rfl, rfl⟩
    · exact fun same => text_injective same.1

end Tag

end Phrasebook.Locale
