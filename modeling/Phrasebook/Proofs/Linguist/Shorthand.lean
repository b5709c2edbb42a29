import Phrasebook.Proofs.Linguist.Structure
import Phrasebook.Proofs.Text.Numeral

/-!
# Hints in short form

Most hints of a context are about the same few files, so a catalog is written with less: a hint
need not name the file that the hint before it named, and a line may be given as a distance from
the last line written for its file. This module says what may be written for a place, from the
places written before it alone, and that reading gives the places back.

- `lastFile`, `lastLineIn`: what a writer can refer back to.
- `WritesLine`, `WritesPlace`, `WritesPlaces`: all ways to write a place, or several.
- `WritesMessages`, `WritesBlocks`: places written in the messages of a context, or of a tree.
  Each context begins anew, and the messages outside of contexts go on from one another.
- `Trail.Recalls`: the invariant. The reader recalls what the writer can refer to.
- `readBlocks_around_context`: a context neither sees nor changes what is around it.
- `places_read_back`: every place comes back, whichever way it was written.
-/

namespace Phrasebook.Linguist

open Markup Text

/-! ## Writing places -/

/-- A place where a message is used. -/
structure Place where
  file : String
  line : UInt32
deriving DecidableEq

/-- The place as an entry holds it. -/
def Place.location (place : Place) : Location :=
  ⟨some place.file, some place.line.toNat⟩

/-- The file of the last place. -/
def lastFile (before : List Place) : Option String :=
  before.getLast?.map Place.file

/-- The last line in a file, 0 if there is none. -/
def lastLineIn (before : List Place) (file : String) : Nat :=
  ((before.reverse.find? fun place => place.file == file).map fun place =>
    place.line.toNat).getD 0

/-- The ways to write a line: as it is, or by its distance from a line before or behind it. -/
inductive WritesLine (base line : Nat) : String → Prop
  | absolute : WritesLine base line (toString line)
  | forward (ahead : base ≤ line) : WritesLine base line ("+" ++ toString (line - base))
  | backward (behind : line ≤ base) : WritesLine base line ("-" ++ toString (base - line))

/-- The hint stands for a place, where others have been written before. -/
structure WritesPlace (before : List Place) (place : Place) (hint : Element) : Prop where
  /-- The file is named, unless it is the last one. -/
  file : hint.attribute? "filename" = some place.file ∨
    hint.attribute? "filename" = none ∧ lastFile before = some place.file
  line : ∃ written, hint.attribute? "line" = some written ∧
    WritesLine (lastLineIn before place.file) place.line.toNat written

/-- Hints stand for places, one after the other. -/
inductive WritesPlaces : List Place → List Place → List Element → Prop
  | nil {before : List Place} : WritesPlaces before [] []
  | cons {before places : List Place} {place : Place} {hint : Element} {hints : List Element}
      (first : WritesPlace before place hint)
      (others : WritesPlaces (before ++ [place]) places hints) :
      WritesPlaces before (place :: places) (hint :: hints)

/-- The hints of messages stand for places, a list of them for each message. -/
inductive WritesMessages : List Place → List (List Place) → List Element → Prop
  | nil {before : List Place} : WritesMessages before [] []
  | cons {before places : List Place} {others : List (List Place)} {message : Element}
      {messages : List Element} (first : WritesPlaces before places (hints message))
      (rest : WritesMessages (before ++ places) others messages) :
      WritesMessages before (places :: others) (message :: messages)

/-- The hints of all messages among and within children of the root stand for places, a list of
them for each message. The messages among them refer back to one another, those within a context
to each other only. -/
inductive WritesBlocks : List Place → List (List Place) → List Element → Prop
  | nil {before : List Place} : WritesBlocks before [] []
  | context {before : List Place} {places others : List (List Place)} {child : Element}
      {children : List Element} (named : child.name = "context")
      (within : WritesMessages [] places (childrenNamed child "message"))
      (rest : WritesBlocks before others children) :
      WritesBlocks before (places ++ others) (child :: children)
  | message {before places : List Place} {others : List (List Place)} {child : Element}
      {children : List Element} (named : child.name = "message")
      (here : WritesPlaces before places (hints child))
      (rest : WritesBlocks (before ++ places) others children) :
      WritesBlocks before (places :: others) (child :: children)
  | other {before : List Place} {others : List (List Place)} {child : Element}
      {children : List Element} (notContext : child.name ≠ "context")
      (notMessage : child.name ≠ "message") (rest : WritesBlocks before others children) :
      WritesBlocks before others (child :: children)

theorem lastFile_snoc (before : List Place) (place : Place) :
    lastFile (before ++ [place]) = some place.file := by
  unfold lastFile
  rw [List.getLast?_append, List.getLast?_singleton, Option.some_or, Option.map_some]

theorem lastLineIn_snoc (before : List Place) (place : Place) (file : String) :
    lastLineIn (before ++ [place]) file
      = if place.file = file then place.line.toNat else lastLineIn before file := by
  unfold lastLineIn
  rw [List.reverse_append, List.reverse_singleton, List.singleton_append, List.find?_cons]
  by_cases same : place.file = file
  · simp [same]
  · rw [if_neg same, beq_eq_false_iff_ne.mpr same]

/-- Hints that stand for places can be followed by others that refer back to them. -/
theorem WritesPlaces.append {before places later : List Place} {hints rest : List Element}
    (writes : WritesPlaces before places hints)
    (others : WritesPlaces (before ++ places) later rest) :
    WritesPlaces before (places ++ later) (hints ++ rest) := by
  induction writes with
  | nil =>
    rw [List.append_nil] at others
    exact others
  | cons first _ ih =>
    refine .cons first (ih ?_)
    rw [List.append_assoc]
    exact others

/-- It makes no difference how the hints are spread over messages. -/
theorem WritesMessages.writesPlaces {before : List Place} {all : List (List Place)}
    {messages : List Element} (writes : WritesMessages before all messages) :
    WritesPlaces before all.flatten (messages.flatMap hints) := by
  induction writes with
  | nil => exact .nil
  | cons first _ ih => exact first.append ih

/-! ## Reading a line -/

theorem natural?_ne_sign {c : Char} {cs : List Char} {n : Nat}
    (number : natural? 10 (c :: cs) = some n) : c ≠ '+' ∧ c ≠ '-' := by
  have alphanum := isAlphanum_of_natural? number c List.mem_cons_self
  constructor <;> rintro rfl <;> cases alphanum

theorem writtenLine?_of_natural? {base n : Nat} {cs : List Char}
    (number : natural? 10 cs = some n) : writtenLine? base cs = some n := by
  unfold writtenLine?
  split
  · exact absurd rfl (natural?_ne_sign number).1
  · exact absurd rfl (natural?_ne_sign number).2
  · exact number

/-- A line is read back from all that may be written for it. -/
theorem writtenLine?_of_writesLine {base line : Nat} {written : String}
    (writes : WritesLine base line written) : writtenLine? base written.toList = some line := by
  cases writes with
  | absolute => exact writtenLine?_of_natural? (natural?_toString line)
  | forward ahead =>
    rw [String.toList_append]
    show (natural? 10 (toString (line - base)).toList).map (fun n => base + n) = some line
    rw [natural?_toString, Option.map_some, Nat.add_sub_cancel' ahead]
  | backward behind =>
    rw [String.toList_append]
    show (natural? 10 (toString (base - line)).toList).bind _ = some line
    rw [natural?_toString, Option.bind_some, if_pos (Nat.sub_le base line),
      Nat.sub_sub_self behind]

theorem lineNumber?_of_writesLine {base : Nat} {line : UInt32} {written : String}
    (writes : WritesLine base line.toNat written) :
    lineNumber? base written = some line.toNat := by
  have bound : line.toNat < lineBound := line.toNat_lt
  rw [lineNumber?, writtenLine?_of_writesLine writes, Option.filter_some,
    if_pos (decide_eq_true bound)]

/-! ## Reading hints -/

/-- The trail holds what can be referred to after some places. -/
structure Trail.Recalls (t : Trail) (before : List Place) : Prop where
  file : t.file = lastFile before
  line : ∀ file, t.lines[file]?.getD 0 = lastLineIn before file

theorem Trail.recalls_start : start.Recalls [] where
  file := rfl
  line file := by
    rw [show start.lines[file]? = none from Std.HashMap.getElem?_empty]
    rfl

section Reading

variable {t : Trail} {before places : List Place}

/-- The file is the one that was meant, whether it is named or left out. -/
theorem Trail.Recalls.file_nameFile {place : Place} {hint : Element} (h : t.Recalls before)
    (writes : WritesPlace before place hint) :
    (t.nameFile hint).file = some place.file ∧ (t.nameFile hint).lines = t.lines := by
  unfold nameFile
  rcases writes.file with named | ⟨omitted, last⟩
  · rw [named]
    exact ⟨rfl, rfl⟩
  · rw [omitted]
    exact ⟨h.file.trans last, rfl⟩

/-- **One hint**: the place comes back, and the next hint can refer to it. -/
theorem Trail.Recalls.follow {place : Place} {hint : Element} (h : t.Recalls before)
    (writes : WritesPlace before place hint) :
    ∃ after, t.follow hint = .ok (place.location, after) ∧ after.Recalls (before ++ [place]) := by
  obtain ⟨file, lines⟩ := h.file_nameFile writes
  obtain ⟨written, given, line⟩ := writes.line
  have key : (t.nameFile hint).fileKey = place.file := by
    rw [fileKey, file, Option.getD_some]
  have number : lineNumber? (t.nameFile hint).lastLine written = some place.line.toNat := by
    rw [lastLine, key, lines, h.line]
    exact lineNumber?_of_writesLine line
  -- the line is noted under the file that was meant, also where its name was left out
  refine ⟨{ t.nameFile hint with
    lines := (t.nameFile hint).lines.insert place.file place.line.toNat }, ?_, ?_⟩
  · unfold Trail.follow
    simp only [given, number, key, file]
    rfl
  · refine { file := ?_, line := fun other => ?_ }
    · rw [lastFile_snoc]
      exact file
    · rw [lastLineIn_snoc, lines, Std.HashMap.getElem?_insert, ← h.line other]
      by_cases same : place.file = other
      · simp [same]
      · simp [same]

/-- **Several hints** give their places back, one after the other. -/
theorem Trail.Recalls.followAll {hints : List Element} (h : t.Recalls before)
    (writes : WritesPlaces before places hints) :
    ∃ after, t.followAll hints = .ok (places.map Place.location, after) ∧
      after.Recalls (before ++ places) := by
  induction writes generalizing t with
  | nil => exact ⟨t, followAll_nil t, by rw [List.append_nil]; exact h⟩
  | @cons before places place hint hints first others ih =>
    obtain ⟨mid, step, recalls⟩ := h.follow first
    obtain ⟨after, walk, recalls⟩ := ih recalls
    rw [List.append_assoc] at recalls
    exact ⟨after, (followAll_cons_eq_ok_iff _ _ _ _ _).mpr
      ⟨place.location, mid, places.map Place.location, step, walk, rfl⟩, recalls⟩

/-! ## Reading messages -/

/-- The hints read so far stand for the places so far. -/
def Recalled (earlier : List Element) (before : List Place) : Prop :=
  ∃ locations trail, Trail.start.followAll earlier = .ok (locations, trail) ∧
    trail.Recalls before

theorem recalled_nil : Recalled [] [] :=
  ⟨[], Trail.start, Trail.start.followAll_nil, Trail.recalls_start⟩

/-- The hints of a message stand for its places, and then they are among those read so far. -/
theorem Recalled.site {earlier : List Element} {message : Element} {block : Option Element}
    (h : Recalled earlier before) (writes : WritesPlaces before places (hints message)) :
    (⟨block, earlier, message⟩ : Site).HasPlaces (places.map Place.location) ∧
      Recalled (earlier ++ hints message) (before ++ places) := by
  obtain ⟨locations, trail, followed, recalls⟩ := h
  obtain ⟨after, walk, recalls⟩ := recalls.followAll writes
  have whole := (Trail.followAll_append_eq_ok_iff _ _ _ _ _).mpr
    ⟨locations, trail, places.map Place.location, followed, walk, rfl⟩
  exact ⟨⟨locations, trail, after, followed, walk⟩, _, after, whole, recalls⟩

end Reading

/-- The hints at a site stand for the places. -/
def Site.Shows (site : Site) (places : List Place) : Prop :=
  site.HasPlaces (places.map Place.location)

theorem shows_sitesOf {before : List Place} {all : List (List Place)} {messages : List Element}
    (writes : WritesMessages before all messages) {earlier : List Element}
    (h : Recalled earlier before) (block : Option Element) :
    List.Forall₂ Site.Shows (sitesOf block earlier messages) all := by
  induction writes generalizing earlier with
  | nil => exact .nil
  | cons first rest ih =>
    obtain ⟨shown, recalled⟩ := h.site first
    exact .cons shown (ih recalled)

/-- **The hints of a tree** stand for the places that were written. -/
theorem shows_sitesAmong {before : List Place} {all : List (List Place)} {children : List Element}
    (writes : WritesBlocks before all children) {earlier : List Element}
    (h : Recalled earlier before) :
    List.Forall₂ Site.Shows (sitesAmong earlier children) all := by
  induction writes generalizing earlier with
  | nil => exact .nil
  | context named within rest ih =>
    -- whatever was read outside, the context has a trail of its own
    rw [sitesAmong, if_pos named]
    exact List.rel_append (shows_sitesOf within recalled_nil _) (ih h)
  | message named here rest ih =>
    rw [sitesAmong, if_neg (by simp [named]), if_pos named]
    obtain ⟨shown, recalled⟩ := h.site here
    exact .cons shown (ih recalled)
  | other notContext notMessage rest ih =>
    rw [sitesAmong, if_neg notContext, if_neg notMessage]
    exact ih h

/-! ## Reading trees -/

theorem Site.HasPlaces.unique {site : Site} {locations others : List Location}
    (h : site.HasPlaces locations) (h' : site.HasPlaces others) : locations = others := by
  obtain ⟨before, trail, after, followed, walk⟩ := h
  obtain ⟨before', trail', after', followed', walk'⟩ := h'
  cases followed.symm.trans followed'
  cases walk.symm.trans walk'
  rfl

/-- The entries of messages are at the places that their hints stand for. -/
theorem locations_of_shows {options : Options} {among : List Site} {entries : List Entry}
    {all : List (List Place)} (rendered : List.Forall₂ (Renders options) among entries)
    (shown : List.Forall₂ Site.Shows among all) :
    entries.map Entry.locations = all.map (List.map Place.location) := by
  induction rendered generalizing all with
  | nil =>
    cases shown
    rfl
  | cons here _ ih =>
    cases shown with
    | cons first rest => rw [List.map_cons, List.map_cons, here.places.unique first, ih rest]

/-- A tree whose hints can all be followed is a catalog when its other parts are sound. -/
theorem readCatalog_ok_iff_of_places (options : Options) (root : Element)
    (followed : ∀ site ∈ sites root, ∃ locations, site.HasPlaces locations) :
    (∃ catalog, readCatalog options root = .ok catalog) ↔
      root.name = "TS" ∧ (∃ language, HasLanguage options root language) ∧
      (∃ header, readHeader root = .ok header) ∧
      (∀ child ∈ root.elements, child.name = "context" → ∃ name, HasText child "name" name) ∧
      ∀ place ∈ root.elements.flatMap messagesIn, Sound place.2 := by
  -- hints were the only condition that concerned more than one message at a time
  have resolve := fun site mem => (exists_hasPlaces_iff site).mp (followed site mem)
  constructor
  · rintro ⟨catalog, read⟩
    obtain ⟨name, language, header, blocks, first, second, third, -⟩ :=
      (readCatalog_eq_ok_iff options root catalog).mp read
    obtain ⟨named, rendered⟩ := (readBlocks_ok_iff options root).mp ⟨blocks, third⟩
    exact ⟨name, ⟨language, first⟩, ⟨header, second⟩, named,
      ((forall_renders_iff options root named).mp rendered).1⟩
  · rintro ⟨name, ⟨language, first⟩, ⟨header, second⟩, named, sound⟩
    have rendered := (forall_renders_iff options root named).mpr ⟨sound, resolve⟩
    obtain ⟨blocks, third⟩ := (readBlocks_ok_iff options root).mpr ⟨named, rendered⟩
    exact ⟨_, (readCatalog_eq_ok_iff options root _).mpr
      ⟨name, language, header, blocks, first, second, third, rfl⟩⟩

/-! ## Contexts on their own -/

/-- A child of the root adds something and leaves a trail, or ends the reading with its fault. -/
theorem readBlocks_cons (options : Options) (trail : Trail) (child : Element) :
    ∃ first : Except Fault (List Catalog.Edit × Trail), ∀ rest,
      readBlocks options trail (child :: rest) = first >>= fun read =>
        (readBlocks options read.2 rest).map fun back => read.1 ++ back := by
  by_cases context : child.name = "context"
  · refine ⟨(readContext options child).map fun own => (own, trail), fun rest => ?_⟩
    rw [readBlocks, if_pos context]
    cases readContext options child <;> rfl
  · by_cases message : child.name = "message"
    · refine ⟨(readMessage options "" trail child).map fun read => ([.push read.1], read.2),
        fun rest => ?_⟩
      rw [readBlocks, if_neg context, if_pos message]
      cases readMessage options "" trail child <;> rfl
    · refine ⟨.ok ([], trail), fun rest => ?_⟩
      rw [readBlocks, if_neg context, if_neg message]
      show _ = (readBlocks options trail rest).map id
      rw [Except.map_id, id]

/-- So do several of them. -/
theorem readBlocks_append (options : Options) (trail : Trail) (before : List Element) :
    ∃ first : Except Fault (List Catalog.Edit × Trail), ∀ rest,
      readBlocks options trail (before ++ rest) = first >>= fun read =>
        (readBlocks options read.2 rest).map fun back => read.1 ++ back := by
  induction before generalizing trail with
  | nil =>
    refine ⟨.ok ([], trail), fun rest => ?_⟩
    show _ = (readBlocks options trail rest).map id
    rw [Except.map_id, id, List.nil_append]
  | cons child before ih =>
    obtain ⟨first, step⟩ := readBlocks_cons options trail child
    cases first with
    | error fault => exact ⟨.error fault, fun rest => step (before ++ rest)⟩
    | ok read =>
      obtain ⟨others, walk⟩ := ih read.2
      refine ⟨others.map fun later => (read.1 ++ later.1, later.2), fun rest => ?_⟩
      rw [List.cons_append, step]
      show (readBlocks options read.2 (before ++ rest)).map _ = _
      rw [walk]
      cases others with
      | error fault => rfl
      | ok later =>
        show ((readBlocks options later.2 rest).map _).map _
          = (readBlocks options later.2 rest).map _
        cases readBlocks options later.2 rest with
        | error fault => rfl
        | ok back => exact congrArg Except.ok (List.append_assoc _ _ _).symm

/-- **Contexts are on their own**: what one adds is read from it alone, and everything before and
behind it adds what it would add without it. -/
theorem readBlocks_around_context (options : Options) {block : Element}
    (named : block.name = "context") (trail : Trail) (before after : List Element)
    (edits : List Catalog.Edit) :
    readBlocks options trail (before ++ block :: after) = .ok edits ↔
      ∃ front own back, readBlocks options trail before = .ok front ∧
        readContext options block = .ok own ∧
        readBlocks options trail (before ++ after) = .ok (front ++ back) ∧
        edits = front ++ own ++ back := by
  -- the context is read after the same additions and the same trail as what is behind it
  obtain ⟨first, walk⟩ := readBlocks_append options trail before
  have alone := walk []
  rw [List.append_nil] at alone
  rw [alone, walk, walk]
  cases first with
  | error fault =>
    constructor
    · intro read
      cases read
    · rintro ⟨front, own, back, impossible, -⟩
      cases impossible
  | ok read =>
    obtain ⟨front, behind⟩ := read
    show (readBlocks options behind (block :: after)).map _ = _ ↔ _
    rw [readBlocks, if_pos named]
    cases readContext options block with
    | error fault => simp [bind, Except.bind, Except.map]
    | ok own =>
      cases there : readBlocks options behind after with
      | error fault => simp [there, bind, Except.bind, Except.map]
      | ok back =>
        simp [there, readBlocks, bind, Except.bind, Except.map, pure, Except.pure, eq_comm]

/-! ## The main result -/

/-- **Places are read back.** Whichever way the hints of consecutive messages are written, they
are followed to the places that were meant. In a tree no hint is in the way of reading it, and the
catalog that is read has every entry at its places. Whatever its hints are, a context is read as
if it stood alone, and what stands around it is read as if it were not there. -/
theorem places_read_back (options : Options) (root : Element) (places : List (List Place))
    (writes : WritesBlocks [] places root.elements) :
    (∀ all messages, WritesMessages [] all messages → ∃ after,
      Trail.start.followAll (messages.flatMap hints)
        = .ok (all.flatten.map Place.location, after)) ∧
    ((∃ catalog, readCatalog options root = .ok catalog) ↔
      root.name = "TS" ∧ (∃ language, HasLanguage options root language) ∧
      (∃ header, readHeader root = .ok header) ∧
      (∀ child ∈ root.elements, child.name = "context" → ∃ name, HasText child "name" name) ∧
      ∀ place ∈ root.elements.flatMap messagesIn, Sound place.2) ∧
    (∀ catalog, readCatalog options root = .ok catalog →
      catalog.entries.toList.map Entry.locations
        = places.map (List.map Place.location)) ∧
    ∀ before block after edits, block.name = "context" →
      (readBlocks options Trail.start (before ++ block :: after) = .ok edits ↔
        ∃ front own back, readBlocks options Trail.start before = .ok front ∧
          readContext options block = .ok own ∧
          readBlocks options Trail.start (before ++ after) = .ok (front ++ back) ∧
          edits = front ++ own ++ back) := by
  have shown : List.Forall₂ Site.Shows (sites root) places := shows_sitesAmong writes recalled_nil
  refine ⟨?_, ?_, ?_, ?_⟩
  · intro all messages writes
    obtain ⟨after, walk, -⟩ := Trail.recalls_start.followAll writes.writesPlaces
    exact ⟨after, walk⟩
  · apply readCatalog_ok_iff_of_places
    intro site mem
    obtain ⟨places, here⟩ := exists_forall₂_iff.mp ⟨_, shown⟩ site mem
    exact ⟨places.map Place.location, here⟩
  · intro catalog read
    obtain ⟨language, edits, -, rfl, rendered⟩ := exists_renders_of_readCatalog read
    rw [Catalog.entries_ofEdits]
    exact locations_of_shows rendered shown
  · intro before block after edits named
    exact readBlocks_around_context options named Trail.start before after edits

/-- A context between two messages that stand outside: the second of them goes on from the first
one, and the context begins anew. Within it a message goes back to a file named earlier, and to
the last line given for it. -/
theorem places_read_back_around_context :
    let hint (attributes : List (String × String)) : Node :=
      .element "location" attributes Position.start []
    let message (hints : List Node) : Node :=
      .element "message" [] Position.start
        (hints ++ [.element "source" [] Position.start [.text "Open"]])
    let root : Element := ⟨"TS", [("language", "hr")], Position.start, [
      message [hint [("filename", "main.cpp"), ("line", "7")]],
      .element "context" [] Position.start [
        .element "name" [] Position.start [.text "Menu"],
        message [hint [("filename", "menu.cpp"), ("line", "+100")], hint [("line", "105")]],
        message [hint [("filename", "menu.ui"), ("line", "-0")],
          hint [("filename", "menu.cpp"), ("line", "-10")]]],
      message [hint [("line", "+4294967288")]]]⟩
    let places : List (List Place) :=
      [[⟨"main.cpp", 7⟩], [⟨"menu.cpp", 100⟩, ⟨"menu.cpp", 105⟩],
        [⟨"menu.ui", 0⟩, ⟨"menu.cpp", 95⟩], [⟨"main.cpp", 4294967295⟩]]
    WritesBlocks [] places root.elements ∧
    ∃ catalog, readCatalog {} root = .ok catalog ∧
      catalog.entries.toList.map Entry.locations
        = places.map (List.map Place.location) := by
  intro hint message root places
  have writes : WritesBlocks [] places root.elements := by
    refine .message rfl (.cons ⟨.inl rfl, "7", rfl, .absolute⟩ .nil) ?_
    show WritesBlocks _ ([[_, _], [_, _]] ++ [[_]]) _
    refine .context rfl ?_ ?_
    · refine .cons (.cons ⟨.inl rfl, "+100", rfl, .forward (by decide)⟩
        (.cons ⟨.inr ⟨rfl, rfl⟩, "105", rfl, .absolute⟩ .nil)) ?_
      refine .cons (.cons ⟨.inl rfl, "-0", rfl, .backward (by decide)⟩
        (.cons ⟨.inl rfl, "-10", rfl, .backward (by decide)⟩ .nil)) ?_
      exact .nil
    · refine .message rfl (.cons ⟨.inr ⟨rfl, rfl⟩, "+4294967288", rfl, .forward (by decide)⟩
        .nil) ?_
      exact .nil
  let entry : Entry :=
    { context := "", source := "Open", translation := "", status := .unfinished }
  have sound {message : Element} (spelled : Spells {} message entry) : Sound message :=
    (exists_spells_iff {} message "" []).mp ⟨entry, rfl, spelled, rfl⟩
  have messages : List.Forall (fun place => Sound place.2) (root.elements.flatMap messagesIn) := by
    refine ⟨sound ?_, sound ?_, sound ?_, sound ?_⟩ <;>
      exact ⟨⟨_, rfl, rfl⟩, .inl ⟨rfl, rfl, rfl⟩, rfl, rfl, rfl, rfl, rfl⟩
  have contexts : List.Forall (fun child => child.name = "context" → ∃ name,
      HasText child "name" name) root.elements := by
    refine ⟨?_, fun _ => ⟨"Menu", _, rfl, rfl⟩, ?_⟩ <;>
      exact fun impossible => absurd impossible (by decide)
  obtain ⟨-, readable, places, -⟩ := places_read_back {} root places writes
  obtain ⟨catalog, read⟩ := readable.mpr ⟨rfl, ⟨_, .inl ⟨"hr", rfl, rfl⟩⟩, ⟨_, rfl⟩,
    List.forall_iff_forall_mem.mp contexts, List.forall_iff_forall_mem.mp messages⟩
  exact ⟨writes, catalog, read, places catalog read⟩

end Phrasebook.Linguist
