import Phrasebook.Proofs.Locale.TagOrder
import Phrasebook.Proofs.Text.Trimming

/-!
# The grammar of locale tags

A tag is spelled with blanks around it, an encoding behind it, either separator and any casing.
This module says which spellings there are and which tag each of them names, without following
the reader: what a spelling is made of, which of its defects is reported, and how the pieces of a
tag are cased.

- `Tag.Parts`, `Tag.parts_iff`: the part of a spelling that names a locale.
- `Tag.Cased`, `Tag.cased_iff`: the casing of subtags, with the region among them.
- `Tag.Outcome`: what comes of a spelling. `Tag.exists_outcome` and `Tag.Outcome.parse_eq` say
  that it always is one thing and that this is what is read.
- `Tag.language_eq_takeWhile`, `Tag.region?_eq_find?`: language and region, seen in the text.
- `Tag.parse_outcome`: all of it.
-/

namespace Phrasebook.Locale.Tag

open Text

/-! ## The part that names a locale -/

/-- A spelling without the blanks around it. -/
def trimmed (spelling : String) : List Char :=
  trimBlanks spelling.toList

/-- The part of a spelling that names a locale. -/
def bare (spelling : String) : List Char :=
  (trimmed spelling).takeWhile fun c => !isTerminator c

/-- A spelling is made of blanks around a text that neither begins nor ends with one. The part of
this text that names a locale has no `.` and no `@`, and one of them follows unless it is all. -/
structure Parts (spelling : String) (text named : List Char) : Prop where
  blanks : ∃ front back, spelling.toList = front ++ text ++ back ∧
    ∀ c ∈ front ++ back, isBlank c = true
  first : ∀ c, text.head? = some c → isBlank c = false
  last : ∀ c, text.getLast? = some c → isBlank c = false
  behind : ∃ rest, text = named ++ rest ∧ ∀ c, rest.head? = some c → c = '.' ∨ c = '@'
  plain : ∀ c ∈ named, c ≠ '.' ∧ c ≠ '@'

theorem isTerminator_iff (c : Char) : isTerminator c = true ↔ c = '.' ∨ c = '@' := by
  simp [isTerminator]

/-- **The parts of a spelling** are what the reader takes for them. -/
theorem parts_iff (spelling : String) (text named : List Char) :
    Parts spelling text named ↔ text = trimmed spelling ∧ named = bare spelling := by
  constructor
  · rintro ⟨⟨front, back, whole, blank⟩, first, last, ⟨rest, rfl, behind⟩, plain⟩
    have is_trimmed : trimmed spelling = named ++ rest := by
      rw [trimmed, whole, trimBlanks_around blank first last]
    refine ⟨is_trimmed.symm, ?_⟩
    have inside : ∀ c ∈ named, (!isTerminator c) = true := by
      intro c mem
      simpa [isTerminator] using plain c mem
    rw [bare, is_trimmed, List.takeWhile_append_of_pos inside]
    cases rest with
    | nil => exact (List.append_nil named).symm
    | cons c rest =>
      have stops : isTerminator c = true := (isTerminator_iff c).mpr (behind c rfl)
      simp [stops]
  · rintro ⟨rfl, rfl⟩
    obtain ⟨blanks, first, last⟩ := exists_around_trimBlanks spelling.toList
    refine ⟨blanks, first, last, ⟨(trimmed spelling).dropWhile fun c => !isTerminator c,
      List.takeWhile_append_dropWhile.symm, fun c head => ?_⟩, fun c mem => ?_⟩
    · have stops := head?_dropWhile head
      rw [← isTerminator_iff]
      simpa using stops
    · have inside := List.all_eq_true.mp List.all_takeWhile c mem
      simpa [isTerminator] using inside

/-! ## The casing of subtags -/

/-- The casing of a subtag by itself: a script is title case, all else is lower case. -/
def ownCase (s : List Char) : List Char :=
  if isScript s then titleCase s else lowerCase s

/-- Subtags with the casing of a tag, and the region among them. The region is the first subtag
of that shape, and no other one is upper case. -/
inductive Cased : List (List Char) → List (List Char) → Option (List Char) → Prop
  | noRegion {ss : List (List Char)} (others : ∀ s ∈ ss, isRegion s = false) :
      Cased ss (ss.map ownCase) none
  | region {before after : List (List Char)} {s : List Char}
      (others : ∀ p ∈ before, isRegion p = false) (shape : isRegion s = true) :
      Cased (before ++ s :: after) (before.map ownCase ++ upperCase s :: after.map ownCase)
        (some (upperCase s))

theorem isRegion_ownCase (s : List Char) : isRegion (ownCase s) = isRegion s := by
  show isRegion (if isScript s then titleCase s else lowerCase s) = isRegion s
  split
  · exact isRegion_titleCase s
  · exact isRegion_lowerCase s

/-- A subtag that is not taken for the region is cased by itself. -/
theorem recase_cons_other {seen : Bool} {s : List Char} (other : (isRegion s && !seen) = false)
    (ss : List (List Char)) : recase seen (s :: ss) = ownCase s :: recase seen ss := by
  rw [recase, other, if_neg Bool.false_ne_true, ownCase]
  split <;> rfl

theorem recase_cons_region {s : List Char} (shape : isRegion s = true) (ss : List (List Char)) :
    recase false (s :: ss) = upperCase s :: recase true ss := by
  rw [recase, shape]
  rfl

/-- Behind the region there is no other one. -/
theorem recase_regionSeen (ss : List (List Char)) : recase true ss = ss.map ownCase := by
  induction ss with
  | nil => rfl
  | cons s ss ih => rw [recase_cons_other (Bool.and_false _), ih, List.map_cons]

theorem recase_others {before : List (List Char)} (others : ∀ p ∈ before, isRegion p = false)
    (ss : List (List Char)) :
    recase false (before ++ ss) = before.map ownCase ++ recase false ss := by
  induction before with
  | nil => rfl
  | cons p before ih =>
    obtain ⟨other, others⟩ := List.forall_mem_cons.mp others
    have alone : (isRegion p && !false) = false := by rw [other, Bool.false_and]
    rw [List.cons_append, recase_cons_other alone, ih others, List.map_cons, List.cons_append]

theorem Cased.recase_eq {ss cased : List (List Char)} {region : Option (List Char)}
    (h : Cased ss cased region) : recase false ss = cased := by
  cases h with
  | noRegion others =>
    have all := recase_others others []
    rw [List.append_nil, recase, List.append_nil] at all
    exact all
  | region others shape => rw [recase_others others, recase_cons_region shape, recase_regionSeen]

theorem Cased.find?_eq {ss cased : List (List Char)} {region : Option (List Char)}
    (h : Cased ss cased region) : cased.find? isRegion = region := by
  have unfound : ∀ {ss : List (List Char)}, (∀ s ∈ ss, isRegion s = false) →
      (ss.map ownCase).find? isRegion = none := by
    intro ss others
    rw [List.find?_eq_none]
    intro s mem
    obtain ⟨p, inside, rfl⟩ := List.mem_map.mp mem
    rw [isRegion_ownCase, others p inside]
    exact Bool.false_ne_true
  cases h with
  | noRegion others => exact unfound others
  | region others shape =>
    rw [List.find?_append, unfound others, Option.none_or,
      List.find?_cons_of_pos (by rw [isRegion_upperCase, shape])]

theorem exists_cased (ss : List (List Char)) : ∃ cased region, Cased ss cased region := by
  cases found : ss.find? isRegion with
  | none =>
    refine ⟨_, _, .noRegion fun s mem => ?_⟩
    exact Bool.eq_false_iff.mpr (List.find?_eq_none.mp found s mem)
  | some s =>
    obtain ⟨shape, before, after, rfl, others⟩ := List.find?_eq_some_iff_append.mp found
    refine ⟨_, _, .region (fun p mem => ?_) shape⟩
    simpa using others p mem

/-- **The casing of subtags** is settled in one pass over them. -/
theorem cased_iff (ss cased : List (List Char)) (region : Option (List Char)) :
    Cased ss cased region ↔
      cased = recase false ss ∧ region = (recase false ss).find? isRegion := by
  constructor
  · intro h
    rw [h.recase_eq, h.find?_eq]
    exact ⟨rfl, rfl⟩
  · rintro ⟨rfl, rfl⟩
    obtain ⟨cased, region, h⟩ := exists_cased ss
    rwa [h.recase_eq, h.find?_eq]

/-! ## What comes of a spelling -/

/-- What comes of a spelling, by the pieces of the part that names a locale. Of two defects the
first one is reported, where the pieces are looked at in order. -/
inductive Outcome (spelling : String) : Except TagError Tag → Prop
  /-- There is no such part. -/
  | empty (nothing : bare spelling = []) : Outcome spelling (.error .empty)
  /-- Else the first piece is not a language. -/
  | invalidLanguage {first : List Char} {later : List (List Char)} (something : bare spelling ≠ [])
      (pieces : (bare spelling).splitOnP isSeparator = first :: later)
      (defect : isLanguage first = false) :
      Outcome spelling (.error (.invalidLanguage (String.ofList (trimmed spelling))))
  /-- Else there is a first piece among the others that is not a subtag. -/
  | invalidSubtag {first s : List Char} {before after : List (List Char)}
      (pieces : (bare spelling).splitOnP isSeparator = first :: (before ++ s :: after))
      (language : isLanguage first = true) (valid : ∀ p ∈ before, isSubtag p = true)
      (defect : isSubtag s = false) :
      Outcome spelling
        (.error (.invalidSubtag (String.ofList (trimmed spelling)) (String.ofList s)))
  /-- Else the tag has the pieces, joined by `-`. -/
  | tag {first : List Char} {later cased : List (List Char)} {region : Option (List Char)} {t : Tag}
      (pieces : (bare spelling).splitOnP isSeparator = first :: later)
      (language : isLanguage first = true) (valid : ∀ s ∈ later, isSubtag s = true)
      (casing : Cased later cased region)
      (text : t.text.toList = ['-'].intercalate (lowerCase first :: cased))
      (named : t.language.toList = lowerCase first)
      (place : t.region?.map String.toList = region) :
      Outcome spelling (.ok t)

section

variable {spelling : String} {first : List Char} {later : List (List Char)}

theorem bare_ne_nil (pieces : (bare spelling).splitOnP isSeparator = first :: later)
    (language : isLanguage first = true) : bare spelling ≠ [] := by
  intro nothing
  rw [nothing] at pieces
  obtain ⟨rfl, -⟩ := List.cons.inj pieces
  cases language

theorem parse_of_empty (nothing : bare spelling = []) : parse spelling = .error .empty := by
  unfold parse
  exact if_pos (by rw [← trimmed, ← bare, nothing]; rfl)

theorem parse_of_pieces (something : bare spelling ≠ [])
    (pieces : (bare spelling).splitOnP isSeparator = first :: later) :
    parse spelling =
      if hl : isLanguage first = true then
        if hs : later.all isSubtag = true then .ok (ofPieces first later hl hs)
        else .error (.invalidSubtag (String.ofList (trimmed spelling))
          (String.ofList ((later.find? fun s => !isSubtag s).getD [])))
      else .error (.invalidLanguage (String.ofList (trimmed spelling))) := by
  unfold parse
  simp only [bare, trimmed] at pieces something ⊢
  rw [if_neg (by simpa using something), pieces]
  rfl

theorem allSubtags_ofPieces (hl : isLanguage first = true) (hs : later.all isSubtag = true) :
    (ofPieces first later hl hs).allSubtags = lowerCase first :: recase false later := by
  simp [allSubtags, ofPieces, Function.comp_def]

theorem toList_text_ofPieces (hl : isLanguage first = true) (hs : later.all isSubtag = true) :
    (ofPieces first later hl hs).text.toList
      = ['-'].intercalate (lowerCase first :: recase false later) := by
  rw [toList_text, allSubtags_ofPieces]

theorem region?_ofPieces (hl : isLanguage first = true) (hs : later.all isSubtag = true) :
    (ofPieces first later hl hs).region?.map String.toList
      = (recase false later).find? isRegion := by
  show (((recase false later).map String.ofList).find? fun s => isRegion s.toList).map
    String.toList = _
  rw [List.find?_map, Option.map_map]
  simp [Function.comp_def]

/-- A tag is known by its text. -/
theorem ofPieces_eq_of_text {t : Tag} (hl : isLanguage first = true)
    (hs : later.all isSubtag = true)
    (text : t.text.toList = ['-'].intercalate (lowerCase first :: recase false later)) :
    ofPieces first later hl hs = t := by
  apply text_injective
  rw [← String.toList_inj, toList_text_ofPieces, text]

end

theorem Outcome.parse_eq {spelling : String} {result : Except TagError Tag}
    (h : Outcome spelling result) : parse spelling = result := by
  cases h with
  | empty nothing => exact parse_of_empty nothing
  | invalidLanguage something pieces defect =>
    rw [parse_of_pieces something pieces, dif_neg (by rw [defect]; exact Bool.false_ne_true)]
  | @invalidSubtag first s before after pieces language valid defect =>
    have offending : ¬(before ++ s :: after).all isSubtag = true := by
      simp [defect]
    have found : (before ++ s :: after).find? (fun s => !isSubtag s) = some s := by
      refine List.find?_eq_some_iff_append.mpr ⟨by simp [defect], before, after, rfl, ?_⟩
      intro p mem
      simp [valid p mem]
    rw [parse_of_pieces (bare_ne_nil pieces language) pieces, dif_pos language,
      dif_neg offending, found]
    rfl
  | @tag first later cased region t pieces language valid casing text =>
    have hs : later.all isSubtag = true := List.all_eq_true.mpr valid
    have same := ofPieces_eq_of_text language hs (by rw [text, casing.recase_eq])
    rw [parse_of_pieces (bare_ne_nil pieces language) pieces, dif_pos language, dif_pos hs, same]

theorem exists_outcome (spelling : String) : ∃ result, Outcome spelling result := by
  by_cases something : bare spelling = []
  · exact ⟨_, .empty something⟩
  cases pieces : (bare spelling).splitOnP isSeparator with
  | nil => exact absurd pieces (List.splitOnP_ne_nil _ _)
  | cons first later =>
    cases language : isLanguage first with
    | false => exact ⟨_, .invalidLanguage something pieces language⟩
    | true =>
      cases offending : later.find? fun s => !isSubtag s with
      | some s =>
        obtain ⟨defect, before, after, rfl, valid⟩ := List.find?_eq_some_iff_append.mp offending
        refine ⟨_, .invalidSubtag pieces language (fun p mem => ?_) (by simpa using defect)⟩
        simpa using valid p mem
      | none =>
        have valid : ∀ s ∈ later, isSubtag s = true := by
          intro s mem
          simpa using List.find?_eq_none.mp offending s mem
        have hs : later.all isSubtag = true := List.all_eq_true.mpr valid
        have casing := (cased_iff later _ _).mpr ⟨rfl, rfl⟩
        exact ⟨_, .tag pieces language valid casing (toList_text_ofPieces language hs)
          String.toList_ofList (region?_ofPieces language hs)⟩

theorem outcome_parse (spelling : String) : Outcome spelling (parse spelling) := by
  obtain ⟨result, h⟩ := exists_outcome spelling
  rwa [h.parse_eq]

/-! ## Language and region in the text -/

theorem toList_text_eq_append (t : Tag) :
    t.text.toList = t.language.toList ++ (t.subtags.map String.toList).flatMap fun s => '-' :: s := by
  rw [toList_text, allSubtags, intercalate_cons]

/-- The language is the text up to the first `-`. -/
theorem language_eq_takeWhile (t : Tag) :
    t.language.toList = t.text.toList.takeWhile (· != '-') := by
  have plain : ∀ c ∈ t.language.toList, (c != '-') = true := by
    intro c mem
    rw [bne_iff_ne]
    rintro rfl
    exact t.dash_not_mem_allSubtags _ List.mem_cons_self mem
  rw [toList_text_eq_append, List.takeWhile_append_of_pos plain]
  cases t.subtags with
  | nil => exact (List.append_nil _).symm
  | cons s ss => exact (List.append_nil _).symm

/-- The region is the first piece of that shape in the text behind the language. -/
theorem region?_eq_find? (t : Tag) :
    t.region?.map String.toList
      = ((t.text.toList.drop t.language.length).splitOn '-').find? isRegion := by
  have behind : t.text.toList.drop t.language.length
      = ['-'].intercalate ([] :: t.subtags.map String.toList) := by
    rw [toList_text_eq_append, ← String.length_toList, List.drop_left, intercalate_cons,
      List.nil_append]
  have plain : ∀ p ∈ [] :: t.subtags.map String.toList, '-' ∉ p :=
    List.forall_mem_cons.mpr ⟨nofun, (List.forall_mem_cons.mp t.dash_not_mem_allSubtags).2⟩
  have pieces : (t.text.toList.drop t.language.length).splitOn '-'
      = [] :: t.subtags.map String.toList := by
    rw [behind]
    exact List.splitOn_intercalate '-' plain (List.cons_ne_nil _ _)
  have empty : isRegion [] = false := rfl
  rw [pieces, List.find?_cons, empty, List.find?_map]
  rfl

/-- **The grammar of locale tags.** Of a spelling there is one part that names a locale, and what
is read is what `Outcome` says about its pieces: the first defect, or the tag with these pieces in
their casing. The language and the region of a tag are those that its text shows. -/
theorem parse_outcome (spelling : String) :
    (∀ text named, Parts spelling text named ↔ text = trimmed spelling ∧ named = bare spelling) ∧
    (∀ result, parse spelling = result ↔ Outcome spelling result) ∧
    ∀ t : Tag, t.language.toList = t.text.toList.takeWhile (· != '-') ∧
      t.region?.map String.toList
        = ((t.text.toList.drop t.language.length).splitOn '-').find? isRegion := by
  refine ⟨parts_iff spelling, fun result => ⟨?_, Outcome.parse_eq⟩, fun t => ?_⟩
  · rintro rfl
    exact outcome_parse spelling
  · exact ⟨t.language_eq_takeWhile, t.region?_eq_find?⟩

/-- The second of two regions is not one. -/
example : (parse " sr_latn_rs_CS.UTF-8@euro").toOption.map text = some "sr-Latn-RS-cs" := by
  decide

end Phrasebook.Locale.Tag
