import Phrasebook.Proofs.Toml.Text
import Phrasebook.Toml.Document

/-!
# Files in TOML read back

A file is written as tables of texts, line by line, and is read line by line, while the tables
grow. This module says that a file which is written with proper names is read back.

- `AreProper`: tables whose names need no quotes, each of them once.
- `line?_header`, `line?_field`: the two kinds of lines with something in them.
- `lines?_fields`, `lines?_writeSections`: the lines of one table, and of all.
- `readDocument?_writeDocument`: the file.
-/

namespace Phrasebook.Toml

/-! ## Names -/

/-- The name needs no quotes. -/
def IsBareName (name : String) : Prop :=
  (!name.toList.isEmpty && name.toList.all isBare) = true

instance (name : String) : Decidable (IsBareName name) :=
  inferInstanceAs (Decidable ((_ : Bool) = true))

theorem ne_of_isBare {c d : Char} (bare : isBare c = true) (other : isBare d = false) : c ≠ d := by
  rintro rfl
  rw [bare] at other
  cases other

theorem cons_ne_of_isBare {c d : Char} (bare : isBare c = true) (other : isBare d = false)
    (cs ds : List Char) : c :: cs ≠ d :: ds :=
  fun same => ne_of_isBare bare other (List.cons_eq_cons.mp same).1

theorem IsBareName.forall_mem {name : String} (bare : IsBareName name) :
    ∀ c ∈ name.toList, isBare c = true :=
  List.all_eq_true.mp (Bool.and_eq_true_iff.mp bare).2

theorem IsBareName.exists_cons {name : String} (bare : IsBareName name) :
    ∃ c cs, name.toList = c :: cs ∧ isBare c = true := by
  cases spelt : name.toList with
  | nil =>
    rw [IsBareName, spelt] at bare
    cases bare
  | cons c cs => exact ⟨c, cs, rfl, bare.forall_mem c (spelt ▸ List.mem_cons_self)⟩

theorem IsBareName.dropBlanks_append {name : String} (bare : IsBareName name)
    (rest : List Char) : dropBlanks (name.toList ++ rest) = name.toList ++ rest := by
  obtain ⟨c, cs, spelt, first⟩ := bare.exists_cons
  rw [spelt]
  exact dropBlanks_of_ne (ne_of_isBare first rfl) (ne_of_isBare first rfl) _

theorem readName?_append {name : String} (bare : IsBareName name) {stop : Char}
    (other : isBare stop = false) (rest : List Char) :
    readName? (name.toList ++ stop :: rest) = some (name, stop :: rest) := by
  obtain ⟨c, cs, spelt, first⟩ := bare.exists_cons
  have stops : ¬ isBare stop = true := by rw [other]; exact Bool.false_ne_true
  have front : (name.toList ++ stop :: rest).takeWhile isBare = name.toList := by
    rw [List.takeWhile_append_of_pos bare.forall_mem, List.takeWhile_cons_of_neg stops,
      List.append_nil]
  have behind : (name.toList ++ stop :: rest).dropWhile isBare = stop :: rest := by
    rw [List.dropWhile_append_of_pos bare.forall_mem, List.dropWhile_cons_of_neg stops]
  rw [spelt, List.cons_append] at front behind ⊢
  rw [readName?, if_neg (ne_of_isBare first rfl), if_neg (ne_of_isBare first rfl), if_pos first,
    front, behind, ← spelt, String.ofList_toList]

/-- A single name is read without the blanks that follow it. -/
theorem readNames?_append {name : String} (bare : IsBareName name) {stop : Char}
    (other : isBare stop = false) {rest : List Char}
    (single : (dropBlanks (stop :: rest)).head? ≠ some '.') :
    readNames? (name.toList ++ stop :: rest) = some ([name], dropBlanks (stop :: rest)) := by
  have found : nameList? (name.toList ++ stop :: rest) =
      some ([name], dropBlanks (stop :: rest)) := by
    rw [nameList?, bare.dropBlanks_append, readName?_append bare other]
    dsimp only
    split
    case h_1 dot => exact absurd (congrArg List.head? dot) single
    case h_2 => rfl
  rw [readNames?, found]
  rfl

/-! ## Values -/

theorem readValue?_writeText (value : String) {rest : List Char} (double : rest.head? ≠ some '"')
    (single : rest.head? ≠ some '\'') :
    readValue? (writeText value.toList ++ rest) = some (.text value, rest) := by
  obtain ⟨quote, tail, written, isQuote⟩ := exists_writeText_eq_cons value.toList
  have back := readText?_writeText value.toList double single
  rw [written, List.cons_append] at back ⊢
  show readNested? nestingLimit (quote :: (tail ++ rest)) = _
  rw [readNested?.eq_def]
  show (if quote = '"' ∨ quote = '\'' then _ else _) = _
  rw [if_pos isQuote, back]
  show some (Datum.text (String.ofList value.toList), rest) = _
  rw [String.ofList_toList]

/-- The line of a field, less its end. -/
def writeField (field : String × String) : List Char :=
  field.1.toList ++ " = ".toList ++ writeText field.2.toList

theorem assignment?_writeField {field : String × String} (bare : IsBareName field.1)
    (rest : List Char) : assignment? readValue? (writeField field ++ '\n' :: rest) =
      some (([field.1], .text field.2), '\n' :: rest) := by
  have value : dropBlanks (' ' :: (writeText field.2.toList ++ '\n' :: rest)) =
      writeText field.2.toList ++ '\n' :: rest := by
    obtain ⟨quote, tail, written, isQuote⟩ := exists_writeText_eq_cons field.2.toList
    rw [written]
    obtain rfl | rfl := isQuote <;> rfl
  have names : readNames? (writeField field ++ '\n' :: rest) =
      some ([field.1], '=' :: ' ' :: (writeText field.2.toList ++ '\n' :: rest)) := by
    show readNames? ((field.1.toList ++ [' ', '=', ' '] ++ writeText field.2.toList) ++ _) = _
    rw [List.append_assoc, List.append_assoc]
    exact readNames?_append bare rfl (by simp [dropBlanks])
  rw [assignment?, names]
  show ((readValue? (dropBlanks _)).bind _) = _
  rw [value, readValue?_writeText field.2 (by simp) (by simp)]
  rfl

/-! ## Tables -/

theorem alter_new {name : String} {fields : Fields} (new : name ∉ fields.map Prod.fst)
    (change : Option Node → Option Node) :
    alter name change fields = (change none).map fun node => fields ++ [(name, node)] := by
  induction fields with
  | nil => rfl
  | cons field fields ih =>
    rw [List.map_cons, List.mem_cons, not_or] at new
    rw [alter, if_neg (Ne.symm new.1), ih new.2]
    cases change none <;> rfl

theorem alter_last {name : String} {fields : Fields} (new : name ∉ fields.map Prod.fst)
    (node : Node) (change : Option Node → Option Node) :
    alter name change (fields ++ [(name, node)]) =
      (change (some node)).map fun node => fields ++ [(name, node)] := by
  induction fields with
  | nil =>
    rw [List.nil_append, alter, if_pos rfl]
    rfl
  | cons field fields ih =>
    rw [List.map_cons, List.mem_cons, not_or] at new
    rw [List.cons_append, alter, if_neg (Ne.symm new.1), ih new.2]
    cases change (some node) <;> rfl

/-- The fields of a table while its lines are read. -/
def textFields (fields : List (String × String)) : Fields :=
  fields.map fun field => (field.1, .value (.text field.2))

/-- A table whose lines have been read. -/
def Section.node (s : Section) : Node :=
  .table .header (textFields s.fields)

/-- Where a file has been read up to the lines of a table. -/
def progressIn (earlier : Fields) (s : Section) : Progress :=
  ⟨earlier ++ [(s.name, s.node)], [s.name]⟩

/-! ## Lines -/

/-- A line up to its end, and the lines behind it. -/
theorem lines?_line {p next : Progress} {cs rest : List Char} (start : dropBlanks cs = cs)
    (line : line? p cs = some (next, '\n' :: rest)) (shorter : rest.length < cs.length) :
    lines? p cs = lines? next rest := by
  have nonempty : ¬ cs.isEmpty = true := by
    intro empty
    rw [List.isEmpty_iff.mp empty] at shorter
    cases shorter
  rw [lines?, if_neg nonempty, start, line]
  show (if rest.length < cs.length then _ else _) = _
  rw [if_pos shorter]

theorem lines?_nil (p : Progress) : lines? p [] = some p := by
  rw [lines?]
  rfl

theorem lines?_blank (p : Progress) (rest : List Char) :
    lines? p ('\n' :: rest) = lines? p rest :=
  lines?_line rfl rfl (Nat.lt_succ_self _)

theorem line?_header {earlier : Fields} {name : String} (bare : IsBareName name)
    (new : name ∉ earlier.map Prod.fst) (header : List String) (rest : List Char) :
    line? ⟨earlier, header⟩ ('[' :: (name.toList ++ ']' :: rest)) =
      some (progressIn earlier ⟨name, []⟩, rest) := by
  have names : readNames? (name.toList ++ ']' :: rest) = some ([name], ']' :: rest) :=
    readNames?_append bare rfl (by simp [dropBlanks])
  have opened : openTable name earlier = some (progressIn earlier ⟨name, []⟩).fields := by
    rw [openTable, alter_new new]
    rfl
  have read : header? ⟨earlier, header⟩ openTable (name.toList ++ ']' :: rest) =
      some (progressIn earlier ⟨name, []⟩, ']' :: rest) := by
    rw [header?, names]
    show (openTable name earlier).bind _ = _
    rw [opened]
    rfl
  unfold line?
  split
  -- a second bracket would be the first character of the name
  case h_1 twice =>
    obtain ⟨c, cs, spelt, first⟩ := bare.exists_cons
    rw [spelt] at twice
    exact absurd (List.cons_eq_cons.mp twice).2 (cons_ne_of_isBare first rfl _ _)
  case h_2 same =>
    obtain rfl := (List.cons_eq_cons.mp same).2
    rw [read]
    rfl
  case h_3 other => exact absurd rfl (other _)

theorem IsBareName.exists_writeField {field : String × String} (bare : IsBareName field.1) :
    ∃ c cs, writeField field = c :: cs ∧ isBare c = true := by
  obtain ⟨c, cs, spelt, first⟩ := bare.exists_cons
  refine ⟨c, cs ++ " = ".toList ++ writeText field.2.toList, ?_, first⟩
  rw [writeField, spelt]
  rfl

theorem within_assign {earlier : Fields} {s : Section} (new : s.name ∉ earlier.map Prod.fst)
    {field : String × String} (newField : field.1 ∉ s.fields.map Prod.fst) :
    within (assign (.text field.2) [field.1]) [s.name] (progressIn earlier s).fields =
      some (progressIn earlier ⟨s.name, s.fields ++ [field]⟩).fields := by
  have names : (textFields s.fields).map Prod.fst = s.fields.map Prod.fst := by
    rw [textFields, List.map_map]
    rfl
  have assigned : assign (.text field.2) [field.1] (textFields s.fields) =
      some (textFields (s.fields ++ [field])) := by
    rw [assign, alter_new (names ▸ newField), textFields, textFields, List.map_append]
    rfl
  rw [progressIn, within, alter_last new]
  show ((within (assign (.text field.2) [field.1]) [] (textFields s.fields)).map _).map _ = _
  rw [within, assigned]
  rfl

theorem line?_field {earlier : Fields} {s : Section} (new : s.name ∉ earlier.map Prod.fst)
    {field : String × String} (bare : IsBareName field.1)
    (newField : field.1 ∉ s.fields.map Prod.fst) (rest : List Char) :
    line? (progressIn earlier s) (writeField field ++ '\n' :: rest) =
      some (progressIn earlier ⟨s.name, s.fields ++ [field]⟩, '\n' :: rest) := by
  have assigned := assignment?_writeField bare rest
  obtain ⟨c, cs, spelt, first⟩ := bare.exists_writeField
  rw [spelt, List.cons_append] at assigned ⊢
  have full : afterLine? (c :: (cs ++ '\n' :: rest)) = none := by
    rw [afterLine?, dropBlanks_of_ne (ne_of_isBare first rfl) (ne_of_isBare first rfl)]
    split
    case h_1 comment => exact absurd comment (cons_ne_of_isBare first rfl _ _)
    case h_2 =>
      exact afterNewline?_eq_none (ne_of_isBare first rfl) (ne_of_isBare first rfl) _
  unfold line?
  split
  case h_1 header => exact absurd header (cons_ne_of_isBare first rfl _ _)
  case h_2 header => exact absurd header (cons_ne_of_isBare first rfl _ _)
  case h_3 =>
    rw [full, assigned]
    show (within (assign (.text field.2) [field.1]) [s.name] _).bind _ = _
    rw [within_assign new newField]
    rfl

/-! ## All lines -/

/-- **The lines of a table** fill it, if their names are new to it. -/
theorem lines?_fields {earlier : Fields} {s : Section} (new : s.name ∉ earlier.map Prod.fst)
    {fields : List (String × String)} (bare : ∀ field ∈ fields, IsBareName field.1)
    (once : ((s.fields ++ fields).map Prod.fst).Nodup) (rest : List Char) :
    lines? (progressIn earlier s)
        ((fields.flatMap fun field => writeField field ++ ['\n']) ++ rest) =
      lines? (progressIn earlier ⟨s.name, s.fields ++ fields⟩) rest := by
  -- the fields that have been read move from `fields` to those of `s`
  induction fields generalizing s with
  | nil =>
    rw [List.append_nil]
    rfl
  | cons field fields ih =>
    have newField : field.1 ∉ s.fields.map Prod.fst := by
      intro old
      rw [List.map_append, List.nodup_append] at once
      exact once.2.2 _ old _ List.mem_cons_self rfl
    have bareField := bare field List.mem_cons_self
    obtain ⟨c, cs, spelt, first⟩ := bareField.exists_writeField
    have line := line?_field new bareField newField
      ((fields.flatMap fun field => writeField field ++ ['\n']) ++ rest)
    have start : ∀ tail, dropBlanks (writeField field ++ tail) = writeField field ++ tail := by
      intro tail
      rw [spelt]
      exact dropBlanks_of_ne (ne_of_isBare first rfl) (ne_of_isBare first rfl) _
    have once : (((s.fields ++ [field]) ++ fields).map Prod.fst).Nodup := by
      rwa [List.append_assoc, List.singleton_append]
    rw [List.flatMap_cons, List.append_assoc, List.append_assoc, List.singleton_append,
      lines?_line (start _) line (by simp; omega),
      ih (s := ⟨s.name, s.fields ++ [field]⟩) new
        (fun f inside => bare f (List.mem_cons_of_mem _ inside)) once,
      List.append_assoc, List.singleton_append]

/-- The names in a table need no quotes, and no field has two values. -/
structure Section.IsProper (s : Section) : Prop where
  bare : IsBareName s.name
  bareFields : ∀ name ∈ s.fields.map Prod.fst, IsBareName name
  once : (s.fields.map Prod.fst).Nodup

/-- All tables are proper, and none of them stands twice. -/
structure AreProper (sections : List Section) : Prop where
  each : ∀ s ∈ sections, s.IsProper
  once : (sections.map Section.name).Nodup

theorem AreProper.tail {s : Section} {sections : List Section}
    (proper : AreProper (s :: sections)) : AreProper sections where
  each t inside := proper.each t (List.mem_cons_of_mem _ inside)
  once := (List.nodup_cons.mp proper.once).2

/-- The fields of a file that has been read. -/
def sectionFields (sections : List Section) : Fields :=
  sections.map fun s => (s.name, s.node)

/-- **The lines of one table**, from its header on. -/
theorem lines?_writeSection {earlier : Fields} {s : Section} (proper : s.IsProper)
    (new : s.name ∉ earlier.map Prod.fst) (header : List String) (rest : List Char) :
    lines? ⟨earlier, header⟩ (writeSection s ++ rest) = lines? (progressIn earlier s) rest := by
  have lines : writeSection s ++ rest = '[' :: (s.name.toList ++ ']' :: '\n' ::
      ((s.fields.flatMap fun field => writeField field ++ ['\n']) ++ rest)) := by
    simp [writeSection, writeField]
  rw [lines, lines?_line rfl (line?_header proper.bare new header _) (by simp; omega)]
  exact lines?_fields (s := ⟨s.name, []⟩) new
    (fun field inside => proper.bareFields _ (List.mem_map_of_mem inside)) proper.once rest

theorem lines?_writeSections {earlier : Fields} {sections : List Section}
    (proper : AreProper sections) (new : ∀ s ∈ sections, s.name ∉ earlier.map Prod.fst)
    (header : List String) :
    (lines? ⟨earlier, header⟩ (writeSections sections)).map Progress.fields =
      some (earlier ++ sectionFields sections) := by
  -- the tables that have been read become earlier ones, whose names are not used again
  fun_induction writeSections sections generalizing earlier header with
  | case1 =>
    rw [lines?_nil, sectionFields, List.map_nil, List.append_nil]
    rfl
  | case2 s =>
    have lines := lines?_writeSection (proper.each s List.mem_cons_self)
      (new s List.mem_cons_self) header []
    rw [List.append_nil] at lines
    rw [lines, lines?_nil]
    rfl
  | case3 s t rest ih =>
    have later : ∀ u ∈ t :: rest, u.name ∉ (progressIn earlier s).fields.map Prod.fst := by
      intro u inside old
      rw [progressIn, List.map_append, List.mem_append] at old
      rcases old with old | same
      · exact new u (List.mem_cons_of_mem _ inside) old
      · have same : u.name = s.name := List.mem_singleton.mp same
        exact (List.nodup_cons.mp proper.once).1 (same ▸ List.mem_map_of_mem inside)
    rw [lines?_writeSection (proper.each s List.mem_cons_self) (new s List.mem_cons_self),
      lines?_blank]
    show (lines? ⟨(progressIn earlier s).fields, [s.name]⟩ _).map _ = _
    rw [ih proper.tail later]
    show some ((earlier ++ [(s.name, s.node)]) ++ _) = some (earlier ++ (s.name, s.node) :: _)
    rw [List.append_assoc]
    rfl

/-- The value of a file that has been read. -/
def Section.datum (s : Section) : Datum :=
  .record (s.fields.map fun field => (field.1, .text field.2))

theorem fieldData_textFields (fields : List (String × String)) :
    fieldData (textFields fields) = fields.map fun field => (field.1, .text field.2) := by
  induction fields with
  | nil => rfl
  | cons field fields ih =>
    show (field.1, Datum.text field.2) :: fieldData (textFields fields) = _
    rw [ih]
    rfl

theorem fieldData_sectionFields (sections : List Section) :
    fieldData (sectionFields sections) = sections.map fun s => (s.name, s.datum) := by
  induction sections with
  | nil => rfl
  | cons s sections ih =>
    show (s.name, Datum.record (fieldData (textFields s.fields))) ::
      fieldData (sectionFields sections) = _
    rw [ih, fieldData_textFields]
    rfl

/-- **A file that is written is read back**: a record of its tables, which are records of their
texts, whatever the texts are. -/
theorem readDocument?_writeDocument {sections : List Section} (proper : AreProper sections) :
    readDocument? (writeDocument sections) =
      some (.record (sections.map fun s => (s.name, s.datum))) := by
  have read : (lines? ⟨[], []⟩ (writeSections sections)).map Progress.fields =
      some (sectionFields sections) :=
    lines?_writeSections proper (fun _ _ => List.not_mem_nil) []
  -- what is written begins with a bracket, so no byte order mark is dropped
  have unmarked : ∀ cs, writeSections sections ≠ '\ufeff' :: cs := by
    intro cs marked
    match sections with
    | [] => cases marked
    | [s] => exact absurd (List.cons_eq_cons.mp marked).1 (by decide)
    | s :: t :: rest => exact absurd (List.cons_eq_cons.mp marked).1 (by decide)
  obtain ⟨p, lines, fields⟩ := Option.map_eq_some_iff.mp read
  rw [readDocument?, writeDocument, String.toList_ofList]
  split
  case h_1 marked => exact absurd marked (unmarked _)
  case h_2 =>
    rw [lines, Option.map_some, fields, fieldData_sectionFields]

end Phrasebook.Toml
