import Phrasebook.Proofs.Markup.Text
import Phrasebook.Proofs.Text.Positional

/-!
# Characters written as escapes

A character that a document cannot contain is written as an element `byte` with its code, and any
other one may be. This module says what the text of an element is by what its children are, and
not by how they are read: which values write a character, what a list of children writes, and
which child is to blame if there is no text.

- `NamesCode`, `IsScalar`: the codes that values name, and those that characters have.
- `WritesChar`: the plain ways to write a character, by its hexadecimal or its decimal code.
- `Writes`: the characters that children write, by whatever values are allowed.
- `Refuses`: an escape that stands for no character, and the fault that is reported.
- `text_exact`: the texts of elements, and the faults in their place.
-/

namespace Phrasebook.Markup.Element

open Text

/-- The code that a value names. Hexadecimal digits stand behind an `x` or an `X`. -/
inductive NamesCode : List Char → Nat → Prop
  | hexadecimal {mark : Char} {cs : List Char} {n : Nat} (marked : mark = 'x' ∨ mark = 'X')
      (number : DenotesUnsigned 16 cs n) : NamesCode (mark :: cs) n
  | decimal {cs : List Char} {n : Nat} (number : DenotesUnsigned 10 cs n) : NamesCode cs n

/-- The code of a character: a number of 32 bits, within the range of codes and not one of the
surrogates. -/
def IsScalar (n : Nat) : Prop :=
  n < 0x100000000 ∧ ¬(0xd800 ≤ n ∧ n ≤ 0xdfff) ∧ n ≤ 0x10ffff

/-- The value is the hexadecimal code of a character behind an `x` or an `X`, or its decimal
code. Letters may have either case, and zeros may stand in front. -/
inductive WritesChar (c : Char) : List Char → Prop
  | hexadecimal {mark : Char} {cs : List Char} (marked : mark = 'x' ∨ mark = 'X')
      (digits : Spells 16 c.toNat cs) : WritesChar c (mark :: cs)
  | decimal {cs : List Char} (digits : Spells 10 c.toNat cs) : WritesChar c cs

/-- The characters that nodes write, each one in a text or as an escape with a value that is
allowed. Any other elements may stand between. -/
inductive Writes (allowed : Char → List Char → Prop) : List Node → List Char → Prop
  | nil : Writes allowed [] []
  | text {content : String} {nodes : List Node} {cs : List Char}
      (rest : Writes allowed nodes cs) :
      Writes allowed (.text content :: nodes) (content.toList ++ cs)
  | escape {e : Element} {c : Char} {written : String} {nodes : List Node} {cs : List Char}
      (named : e.name = "byte") (given : e.attribute? "value" = some written)
      (value : allowed c written.toList) (rest : Writes allowed nodes cs) :
      Writes allowed (e.node :: nodes) (c :: cs)
  | other {e : Element} {nodes : List Node} {cs : List Char} (named : e.name ≠ "byte")
      (rest : Writes allowed nodes cs) : Writes allowed (e.node :: nodes) cs

/-- The element is an escape that stands for no character, and what is wrong with it. -/
inductive Refuses (e : Element) : Fault → Prop
  | missing (named : e.name = "byte") (missing : e.attribute? "value" = none) :
      Refuses e (.missingAttribute "byte" "value" e.position)
  | invalid {written : String} (named : e.name = "byte")
      (given : e.attribute? "value" = some written)
      (outside : ∀ n, NamesCode written.toList n → ¬ IsScalar n) :
      Refuses e (.invalidAttribute "byte" "value" written e.position)

/-! ## Values -/

theorem isScalar_iff (n : Nat) : IsScalar n ↔ ∃ c : Char, c.toNat = n := by
  constructor
  · rintro ⟨-, surrogate, most⟩
    have valid : n.isValidChar := by
      unfold Nat.isValidChar
      omega
    have found : scalar? n = some (Char.ofNat n) := if_pos valid
    exact ⟨_, scalar?_eq_some_iff.mp found⟩
  · rintro ⟨c, rfl⟩
    have valid : c.toNat.isValidChar := c.valid
    unfold Nat.isValidChar at valid
    unfold IsScalar
    omega

/-- A mark is no decimal digit. -/
theorem unsigned?_ten_of_mark {mark : Char} (marked : mark = 'x' ∨ mark = 'X') (cs : List Char) :
    unsigned? 10 (mark :: cs) = none := by
  have lower : digit? 10 'x' = none := by decide
  have upper : digit? 10 'X' = none := by decide
  rcases marked with rfl | rfl
  · show natural? 10 ('x' :: cs) = none
    exact natural?_eq_none lower
  · show natural? 10 ('X' :: cs) = none
    exact natural?_eq_none upper

theorem escapeCode?_eq_some_iff {cs : List Char} {n : Nat} :
    escapeCode? cs = some n ↔ NamesCode cs n := by
  have sixteen {ds : List Char} : unsigned? 16 ds = some n ↔ DenotesUnsigned 16 ds n :=
    unsigned?_eq_some_iff (Nat.le_refl 16)
  have ten {ds : List Char} : unsigned? 10 ds = some n ↔ DenotesUnsigned 10 ds n :=
    unsigned?_eq_some_iff (by decide)
  unfold escapeCode?
  constructor
  · intro read
    split at read
    case h_1 => exact .hexadecimal (.inl rfl) (sixteen.mp read)
    case h_2 => exact .hexadecimal (.inr rfl) (sixteen.mp read)
    case h_3 => exact .decimal (ten.mp read)
  · intro names
    cases names with
    | hexadecimal marked number => rcases marked with rfl | rfl <;> exact sixteen.mpr number
    | decimal number =>
      have read := ten.mpr number
      split
      case h_1 => rw [unsigned?_ten_of_mark (.inl rfl)] at read; cases read
      case h_2 => rw [unsigned?_ten_of_mark (.inr rfl)] at read; cases read
      case h_3 => exact read

/-- The plain ways to write a character name its code. -/
theorem WritesChar.namesCode {c : Char} {cs : List Char} (writes : WritesChar c cs) :
    NamesCode cs c.toNat := by
  cases writes with
  | hexadecimal marked digits =>
    exact .hexadecimal marked (.bare ((denotes_iff_spells (by decide)).mpr digits))
  | decimal digits => exact .decimal (.bare ((denotes_iff_spells (by decide)).mpr digits))

theorem escapes_iff (e : Element) (c : Char) :
    e.Escapes c ↔
      ∃ written, e.attribute? "value" = some written ∧ NamesCode written.toList c.toNat := by
  refine exists_congr fun written => and_congr_right fun _ => ?_
  simp only [Option.bind_eq_some_iff, scalar?_eq_some_iff, escapeCode?_eq_some_iff,
    exists_eq_right']

/-- An escape is refused exactly if there is no character to be read. -/
theorem refuses_iff (e : Element) (fault : Fault) :
    Refuses e fault ↔ e.name = "byte" ∧ e.escapedChar = .error fault := by
  have unreadable (written : String) :
      (escapeCode? written.toList).bind scalar? = none ↔
        ∀ n, NamesCode written.toList n → ¬ IsScalar n := by
    simp only [Option.eq_none_iff_forall_ne_some, ne_eq, Option.bind_eq_some_iff,
      scalar?_eq_some_iff, escapeCode?_eq_some_iff, isScalar_iff, not_exists, not_and]
    exact ⟨fun none n names c same => none c n names same,
      fun outside c n names same => outside n names c same⟩
  unfold escapedChar
  constructor
  · rintro (⟨named, missing⟩ | ⟨named, given, outside⟩)
    · rw [missing]
      exact ⟨named, rfl⟩
    · rw [given]
      simp only [(unreadable _).mpr outside, and_true]
      exact named
  · rintro ⟨named, refused⟩
    split at refused
    · rename_i missing
      cases refused
      exact .missing named missing
    · rename_i written given
      split at refused
      · cases refused
      · rename_i unread
        cases refused
        exact .invalid named given ((unreadable written).mp unread)

/-! ## Texts -/

theorem Writes.imp {allowed wider : Char → List Char → Prop} {nodes : List Node}
    {cs : List Char} (writes : Writes allowed nodes cs)
    (more : ∀ c value, allowed c value → wider c value) : Writes wider nodes cs := by
  induction writes with
  | nil => exact .nil
  | text _ ih => exact .text ih
  | escape named given value _ ih => exact .escape named given (more _ _ value) ih
  | other named _ ih => exact .other named ih

/-- The values that are read as a character are those that name its code. -/
def Names (c : Char) (value : List Char) : Prop :=
  NamesCode value c.toNat

/-- **The characters that are read** are those that the nodes write. -/
theorem textOfNodes_eq_ok_iff (nodes : List Node) (cs : List Char) :
    textOfNodes nodes = .ok cs ↔ Writes Names nodes cs := by
  constructor
  · intro read
    induction nodes generalizing cs with
    | nil =>
      cases read
      exact .nil
    | cons node nodes ih =>
      obtain ⟨first, head, read⟩ := bind_eq_ok_iff.mp read
      obtain ⟨rest, tail, read⟩ := bind_eq_ok_iff.mp read
      cases read
      have later := ih rest tail
      cases node with
      | text content =>
        cases head
        exact .text later
      | element name attributes position children =>
        rw [textOfNode] at head
        split at head
        · rename_i named
          obtain ⟨c, escaped, rfl⟩ := map_eq_ok_iff.mp head
          obtain ⟨written, given, names⟩ :=
            (escapes_iff _ c).mp ((escapedChar_eq_ok_iff _ c).mp escaped)
          exact .escape (e := ⟨name, attributes, position, children⟩) named given names later
        · rename_i named
          cases head
          exact .other (e := ⟨name, attributes, position, children⟩) named later
  · intro writes
    have chain {node : Node} {nodes : List Node} {first rest : List Char}
        (head : textOfNode node = .ok first) (tail : textOfNodes nodes = .ok rest) :
        textOfNodes (node :: nodes) = .ok (first ++ rest) :=
      bind_eq_ok_iff.mpr ⟨first, head, bind_eq_ok_iff.mpr ⟨rest, tail, rfl⟩⟩
    induction writes with
    | nil => rfl
    | text _ ih => exact chain rfl ih
    | @escape e c written nodes cs named given value _ ih =>
      have escaped := (escapedChar_eq_ok_iff e c).mpr
        ((escapes_iff e c).mpr ⟨written, given, value⟩)
      have head : textOfNode e.node = .ok [c] := by
        rw [node, textOfNode, if_pos named]
        exact map_eq_ok_iff.mpr ⟨c, escaped, rfl⟩
      exact chain head ih
    | @other e nodes cs named _ ih =>
      have head : textOfNode e.node = .ok [] := by
        rw [node, textOfNode, if_neg named]
      exact chain head ih

theorem textOfNode_eq_error_iff (node : Node) (fault : Fault) :
    textOfNode node = .error fault ↔ ∃ e, node.element? = some e ∧ Refuses e fault := by
  cases node with
  | text content => simp [textOfNode, Node.element?]
  | element name attributes position children =>
    simp only [Node.element?, Option.some_inj, exists_eq_left', refuses_iff]
    by_cases named : name = "byte"
    · rw [textOfNode, if_pos named, map_eq_error_iff]
      simp [named]
    · rw [textOfNode, if_neg named]
      simp [named]

/-- The first one of some elements that satisfies a condition, told by the first element. -/
theorem exists_first_cons_iff {clean found : Element → Prop} {e : Element} {es : List Element} :
    (∃ before x after, e :: es = before ++ x :: after ∧ (∀ b ∈ before, clean b) ∧ found x) ↔
      found e ∨ clean e ∧
        ∃ before x after, es = before ++ x :: after ∧ (∀ b ∈ before, clean b) ∧ found x := by
  constructor
  · rintro ⟨before, x, after, split, cleared, here⟩
    cases before with
    | nil =>
      cases split
      exact .inl here
    | cons b before =>
      cases split
      obtain ⟨first, others⟩ := List.forall_mem_cons.mp cleared
      exact .inr ⟨first, before, x, after, rfl, others, here⟩
  · rintro (here | ⟨first, before, x, after, rfl, others, here⟩)
    · exact ⟨[], e, es, rfl, nofun, here⟩
    · exact ⟨e :: before, x, after, rfl, List.forall_mem_cons.mpr ⟨first, others⟩, here⟩

/-- **The fault that is reported** is that of the first escape that stands for no character. -/
theorem textOfNodes_eq_error_iff (nodes : List Node) (fault : Fault) :
    textOfNodes nodes = .error fault ↔
      ∃ before refused after, nodes.filterMap Node.element? = before ++ refused :: after ∧
        (∀ e ∈ before, ∀ other, ¬ Refuses e other) ∧ Refuses refused fault := by
  induction nodes with
  | nil => simp [textOfNodes]
  | cons node nodes ih =>
    -- either the first node fails, or it has a text and the others fail
    have parts : textOfNodes (node :: nodes) = .error fault ↔
        textOfNode node = .error fault ∨
          (∀ other, textOfNode node ≠ .error other) ∧ textOfNodes nodes = .error fault := by
      rw [textOfNodes, bind_eq_error_iff]
      simp only [bind_eq_error_iff, reduceCtorEq, and_false, exists_false, or_false, pure,
        Except.pure]
      cases textOfNode node with
      | error other => simp
      | ok first => simp
    rw [parts, ih]
    simp only [ne_eq, textOfNode_eq_error_iff]
    cases found : node.element? with
    | none => simp [found]
    | some e =>
      rw [List.filterMap_cons_some found, exists_first_cons_iff]
      simp

/-- **Escapes lose nothing.** Whatever way its characters are written, in texts or as escapes, and
whatever other elements stand between them, an element has the text that its children write: a
`+` before the digits of a code is the only other way. It has no text exactly if one of its
escapes has no value or one that names no character, and the first such escape is reported. -/
theorem text_exact (e : Element) :
    (∀ s, Writes WritesChar e.children s.toList → e.text = .ok s) ∧
    (∀ s, e.text = .ok s ↔ Writes Names e.children s.toList) ∧
    ∀ fault, e.text = .error fault ↔
      ∃ before refused after, e.elements = before ++ refused :: after ∧
        (∀ child ∈ before, ∀ other, ¬ Refuses child other) ∧ Refuses refused fault := by
  have succeeds (s : String) : e.text = .ok s ↔ Writes Names e.children s.toList := by
    rw [← textOfNodes_eq_ok_iff, text, map_eq_ok_iff]
    constructor
    · rintro ⟨cs, read, rfl⟩
      rw [String.toList_ofList]
      exact read
    · intro read
      exact ⟨s.toList, read, String.ofList_toList⟩
  refine ⟨fun s writes => ?_, succeeds, fun fault => ?_⟩
  · exact (succeeds s).mpr (writes.imp fun c value plain => plain.namesCode)
  · rw [text, map_eq_error_iff]
    exact textOfNodes_eq_error_iff e.children fault

end Phrasebook.Markup.Element
