import Phrasebook.Proofs.Placeholder.Numbers
import Phrasebook.Proofs.Text.ByteOrder
import Phrasebook.Proofs.Text.Numeral

/-!
# Reading a text once, from left to right

Filling a text takes two walks that each keep a place: one looks for placeholders and skips those
it has found, the other copies up to them. What comes out is what a reader sees who goes through
the text once, character by character, and never turns back.

- `Item`, `Reads`: a text as the characters and placeholders that such a reader meets.
- `exists_reads`, `Reads.unique`: every text is read in one way.
- `scanFrom_of_reads`, `fillFrom_places`: the two places are those of the reader.
- `Reads.append`: only a digit can change the reading of the text before it.
- `Reads.encode`: the bytes of a text are read like its characters.
- `fill_single_pass`: the filled text is what the reader sees.
- `fill_append`: two texts in a row are filled one by one.
-/

namespace Phrasebook.Placeholder

open Text
open Storage (bytesOf)

/-! ## Readings -/

/-- What a text consists of. -/
inductive Item where
  /-- A character that stands for itself. -/
  | plain (c : Char)
  /-- A `%` and the digits after it, in place of an argument. -/
  | argument (digits : List Char)

/-- The number that decimal digits denote, 0 if there are none. -/
def denoted (digits : List Char) : Nat :=
  Nat.ofDigitChars 10 digits 0

/-- The characters of an item in the text. -/
def Item.written : Item → List Char
  | plain c => [c]
  | argument digits => '%' :: digits

/-- The characters of an item in the filled text. A placeholder without an argument stays. -/
def Item.shown (arguments : List (List Char)) : Item → List Char
  | plain c => [c]
  | argument digits => arguments[denoted digits - 1]?.getD ('%' :: digits)

/-- No digit comes first. -/
def NoDigitFirst (cs : List Char) : Prop :=
  ∀ c, cs.head? = some c → c.isDigit = false

/-- The digits at the beginning of a text, as many as there are but no more than two. -/
structure Run (cs digits rest : List Char) : Prop where
  split : cs = digits ++ rest
  decimal : ∀ d ∈ digits, d.isDigit = true
  short : digits.length ≤ 2
  longest : digits.length = 2 ∨ NoDigitFirst rest

/-- A text is read from left to right. A `%` and the digits after it are a placeholder if they
denote a number from 1 on, and then the reading goes on behind them. Otherwise the `%` stands for
itself, and the reading goes on with the next character. -/
inductive Reads : List Char → List Item → Prop
  | nothing : Reads [] []
  | plain {c : Char} {cs : List Char} {items : List Item} (other : c ≠ '%')
      (rest : Reads cs items) : Reads (c :: cs) (.plain c :: items)
  | percent {cs digits behind : List Char} {items : List Item} (run : Run cs digits behind)
      (zero : denoted digits = 0) (rest : Reads cs items) : Reads ('%' :: cs) (.plain '%' :: items)
  | argument {cs digits behind : List Char} {items : List Item} (run : Run cs digits behind)
      (counted : 1 ≤ denoted digits) (rest : Reads behind items) :
      Reads ('%' :: cs) (.argument digits :: items)

/-- A reading leaves nothing out. -/
theorem Reads.written {cs : List Char} {items : List Item} (reads : Reads cs items) :
    items.flatMap Item.written = cs := by
  induction reads with
  | nothing => rfl
  | plain _ _ ih => simp [Item.written, ih]
  | percent _ _ _ ih => simp [Item.written, ih]
  | argument run _ _ ih => simp [Item.written, ih, run.split]

/-- A placeholder has nothing but digits behind its sign. -/
theorem Reads.decimal {cs digits : List Char} {items : List Item} (reads : Reads cs items)
    (mem : .argument digits ∈ items) : ∀ d ∈ digits, d.isDigit = true := by
  induction reads with
  | nothing => cases mem
  | plain _ _ ih => exact ih (by simpa using mem)
  | percent _ _ _ ih => exact ih (by simpa using mem)
  | argument run _ _ ih =>
    rcases List.mem_cons.mp mem with same | mem
    · cases same
      exact run.decimal
    · exact ih mem

/-! ## One reading for each text -/

theorem run_leadingDigits (cs : List Char) :
    Run cs (leadingDigits cs) (cs.drop (leadingDigits cs).length) := by
  rw [leadingDigits]
  match cs with
  | [] => constructor <;> simp [NoDigitFirst]
  | [c] =>
    by_cases first : c.isDigit = true <;> constructor <;> simp [NoDigitFirst, first]
  | c :: d :: cs =>
    by_cases first : c.isDigit = true <;> by_cases second : d.isDigit = true <;> constructor <;>
      simp [NoDigitFirst, first, second]

/-- There is one longest run of digits, and it is the one that a scan looks at. -/
theorem Run.leadingDigits_eq {cs digits rest : List Char} (run : Run cs digits rest) :
    leadingDigits cs = digits := by
  obtain ⟨rfl, decimal, short, longest⟩ := run
  match digits with
  | [] =>
    have apart : NoDigitFirst rest := longest.resolve_left (by simp)
    cases rest with
    | nil => rfl
    | cons c rest => simp [leadingDigits, apart c rfl]
  | [d] =>
    have apart : NoDigitFirst rest := longest.resolve_left (by simp)
    have digit : d.isDigit = true := decimal d (by simp)
    cases rest with
    | nil => simp [leadingDigits, digit]
    | cons c rest => simp [leadingDigits, digit, apart c rfl]
  | [d, e] =>
    have digit : d.isDigit = true := decimal d (by simp)
    have digit' : e.isDigit = true := decimal e (by simp)
    simp [leadingDigits, digit, digit']
  | _ :: _ :: _ :: _ => simp at short

theorem Run.unique {cs digits rest digits' rest' : List Char} (run : Run cs digits rest)
    (run' : Run cs digits' rest') : digits = digits' ∧ rest = rest' := by
  have same : digits = digits' := run.leadingDigits_eq.symm.trans run'.leadingDigits_eq
  have whole : digits ++ rest = digits ++ rest' := by
    rw [← run.split, run'.split, same]
  exact ⟨same, List.append_cancel_left whole⟩

theorem exists_reads (cs : List Char) : ∃ items, Reads cs items := by
  -- behind a placeholder the text is shorter by more than one character
  match cs with
  | [] => exact ⟨_, .nothing⟩
  | c :: cs =>
    by_cases other : c = '%'
    · have run := run_leadingDigits cs
      rw [other]
      rcases Nat.eq_zero_or_pos (denoted (leadingDigits cs)) with zero | counted
      · obtain ⟨items, rest⟩ := exists_reads cs
        exact ⟨_, .percent run zero rest⟩
      · obtain ⟨items, rest⟩ := exists_reads (cs.drop (leadingDigits cs).length)
        exact ⟨_, .argument run counted rest⟩
    · obtain ⟨items, rest⟩ := exists_reads cs
      exact ⟨_, .plain other rest⟩
termination_by cs.length

theorem Reads.unique {cs : List Char} {items items' : List Item} (reads : Reads cs items)
    (reads' : Reads cs items') : items' = items := by
  induction reads generalizing items' with
  | nothing =>
    cases reads'
    rfl
  | plain other _ ih =>
    cases reads' with
    | plain _ rest' => rw [ih rest']
    | percent => exact absurd rfl other
    | argument => exact absurd rfl other
  | percent run zero _ ih =>
    cases reads' with
    | plain other => exact absurd rfl other
    | percent _ _ rest' => rw [ih rest']
    | argument run' counted => rw [(run'.unique run).1, zero] at counted; cases counted
  | argument run counted _ ih =>
    cases reads' with
    | plain other => exact absurd rfl other
    | percent run' zero => rw [(run.unique run').1, zero] at counted; cases counted
    | argument run' _ rest' =>
      obtain ⟨rfl, rfl⟩ := run'.unique run
      rw [ih rest']

/-! ## The scan -/

/-- Two ways to compute with digits. -/
theorem number_eq_denoted {digits : List Char} (decimal : ∀ d ∈ digits, d.isDigit = true) :
    number digits = denoted digits := by
  have values : digits.filterMap (digit? 10) = digits.map fun d => d.toNat - '0'.toNat := by
    rw [← List.filterMap_eq_map]
    exact List.filterMap_congr fun d mem => digit?_of_isDigit (decimal d mem)
  rw [number, values, ofDigits_map]
  rfl

/-- The placeholders of a reading that begins at a place. -/
def places (place : Nat) : List Item → List Placeholder
  | [] => []
  | .plain _ :: items => places (place + 1) items
  | .argument digits :: items =>
    ⟨place, place + 1 + digits.length, denoted digits⟩ ::
      places (place + 1 + digits.length) items

theorem scanFrom_skip (skipped rest : List Char) (place : Nat) :
    scanFrom skipped.length place (skipped ++ rest) = scanFrom 0 (place + skipped.length) rest := by
  induction skipped generalizing place with
  | nil => rfl
  | cons c skipped ih =>
    rw [List.length_cons, List.cons_append, scanFrom, ih, Nat.add_right_comm, Nat.add_assoc]

theorem scanFrom_plain {c : Char} {cs : List Char} (place : Nat)
    (literal : ¬(c = '%' ∧ number (leadingDigits cs) ≠ 0)) :
    scanFrom 0 place (c :: cs) = scanFrom 0 (place + 1) cs := by
  rw [scanFrom]
  exact if_neg literal

theorem scanFrom_argument {cs digits behind : List Char} (place : Nat)
    (run : Run cs digits behind) (counted : 1 ≤ denoted digits) :
    scanFrom 0 place ('%' :: cs) = ⟨place, place + 1 + digits.length, denoted digits⟩ ::
      scanFrom 0 (place + 1 + digits.length) behind := by
  have number_eq := number_eq_denoted run.decimal
  have found : '%' = '%' ∧ number digits ≠ 0 := ⟨rfl, by omega⟩
  rw [scanFrom, run.leadingDigits_eq]
  -- the digits are what is left to skip
  refine (if_pos found).trans ?_
  rw [number_eq, run.split, scanFrom_skip]

/-- **The scan finds the placeholders of the reading**, wherever it begins. -/
theorem scanFrom_of_reads {cs : List Char} {items : List Item} (reads : Reads cs items)
    (place : Nat) : scanFrom 0 place cs = places place items := by
  induction reads generalizing place with
  | nothing => rfl
  | plain other _ ih => rw [scanFrom_plain place fun found => other found.1, ih, places]
  | @percent cs _ _ _ run zero _ ih =>
    have none : number (leadingDigits cs) = 0 := by
      rw [run.leadingDigits_eq, number_eq_denoted run.decimal, zero]
    rw [scanFrom_plain place fun found => found.2 none, ih, places]
  | argument run counted _ ih => rw [scanFrom_argument place run counted, ih, places]

/-- The numbers of a text are those of the placeholders that a reader meets. -/
theorem mem_indices_of_reads {text : String} {items : List Item}
    (reads : Reads text.toList items) (i : Nat) :
    i ∈ indices text ↔ ∃ digits, .argument digits ∈ items ∧ denoted digits = i := by
  have found : ∀ (items : List Item) (place : Nat), (∃ p ∈ places place items, p.index = i) ↔
      ∃ digits, .argument digits ∈ items ∧ denoted digits = i := by
    intro items
    induction items with
    | nil => simp [places]
    | cons item items ih => cases item <;> simp [places, ih, or_and_right, exists_or]
  rw [mem_indices, scan, scanFrom_of_reads reads]
  exact found items 0

/-! ## Filling -/

/-- **The copied text keeps up with the scan.** What has been read but not copied is `pending`. -/
theorem fillFrom_places (arguments : List (List Char)) (items : List Item) {place copied : Nat}
    {pending : List Char} (behind : copied + pending.length = place) :
    fillFrom arguments copied (pending ++ items.flatMap Item.written) (places place items)
      = pending ++ items.flatMap (Item.shown arguments) := by
  induction items generalizing place copied pending with
  | nil => rfl
  | cons item items ih =>
    rw [List.flatMap_cons, List.flatMap_cons, ← List.append_assoc]
    cases item with
    | plain c =>
      rw [places, ih (by simp [Item.written]; omega)]
      simp [Item.written, Item.shown]
    | argument digits =>
      rw [places, fillFrom]
      cases given : arguments[denoted digits - 1]? with
      | none =>
        -- the placeholder stays, and is copied with what follows it
        simp only
        rw [ih (by simp [Item.written]; omega)]
        simp [Item.written, Item.shown, given]
      | some argument =>
        -- all that is pending is copied, and nothing is behind the placeholder
        have before : place - copied = pending.length := by omega
        have upTo : place + 1 + digits.length - copied
            = (pending ++ Item.written (.argument digits)).length := by
          simp [Item.written]
          omega
        have tail := @ih _ _ [] (Nat.add_zero (place + 1 + digits.length))
        rw [List.nil_append, List.nil_append] at tail
        simp only
        rw [upTo, List.drop_left, before, List.append_assoc pending, List.take_left, tail]
        simp [Item.shown, given]

theorem fillChars_of_reads {cs : List Char} {items : List Item} (reads : Reads cs items)
    (arguments : List (List Char)) :
    fillChars cs arguments = items.flatMap (Item.shown arguments) := by
  have filled := @fillFrom_places arguments items 0 0 [] rfl
  rw [List.nil_append, List.nil_append, reads.written] at filled
  rw [fillChars, scan, scanFrom_of_reads reads, filled]

theorem toList_fill_of_reads {text : String} {items : List Item} (reads : Reads text.toList items)
    (arguments : List String) :
    (fill text arguments).toList = items.flatMap (Item.shown (arguments.map String.toList)) := by
  rw [fill, String.toList_ofList, fillChars_of_reads reads]

/-! ## Two texts in a row -/

theorem NoDigitFirst.append {cs ds : List Char} (first : NoDigitFirst cs)
    (second : NoDigitFirst ds) : NoDigitFirst (cs ++ ds) := by
  cases cs with
  | nil => exact second
  | cons c cs => exact fun d head => first d head

theorem Run.append {cs digits rest ds : List Char} (run : Run cs digits rest)
    (apart : NoDigitFirst ds) : Run (cs ++ ds) digits (rest ++ ds) where
  split := by rw [run.split, List.append_assoc]
  decimal := run.decimal
  short := run.short
  longest := run.longest.imp id fun last => last.append apart

/-- **Only a digit can change the reading of the text before it.** -/
theorem Reads.append {cs ds : List Char} {items items' : List Item} (reads : Reads cs items)
    (reads' : Reads ds items') (apart : NoDigitFirst ds) : Reads (cs ++ ds) (items ++ items') := by
  induction reads with
  | nothing => exact reads'
  | plain other _ ih => exact .plain other ih
  | percent run zero _ ih => exact .percent (run.append apart) zero ih
  | argument run counted _ ih => exact .argument (run.append apart) counted ih

/-! ## Bytes -/

/-- The bytes of a character, each taken as the character with its number. -/
def encodeChar (c : Char) : List Char :=
  (String.utf8EncodeChar c).map Char.ofUInt8

/-- The bytes of some characters. -/
def encode (cs : List Char) : List Char :=
  cs.flatMap encodeChar

/-- The bytes of a text. -/
def byteChars (text : String) : List Char :=
  (bytesOf text).map Char.ofUInt8

theorem byteChars_eq (text : String) : byteChars text = encode text.toList := by
  rw [byteChars, bytesOf_eq, List.map_flatMap]
  rfl

theorem toNat_ofUInt8 {n : Nat} (byte : n < 256) : (Char.ofUInt8 (.ofNat n)).toNat = n := by
  have same : (Char.ofUInt8 (.ofNat n)).toNat = (UInt8.ofNat n).toNat := rfl
  rw [same, UInt8.toNat_ofNat_of_lt' byte]

/-- A character is its own byte, or it has bytes that no such character has. -/
theorem encodeChar_cases (c : Char) :
    (c.toNat < 0x80 ∧ encodeChar c = [c]) ∨
    (0x80 ≤ c.toNat ∧ encodeChar c ≠ [] ∧ ∀ d ∈ encodeChar c, 0x80 ≤ d.toNat) := by
  rw [encodeChar]
  rcases utf8EncodeChar_cases c with ⟨hc, written⟩ | ⟨hc, hc', written⟩ | ⟨hc, hc', written⟩ |
    ⟨hc, hc', written⟩ <;> rw [written]
  · refine .inl ⟨hc, ?_⟩
    rw [List.map_singleton, List.singleton_inj, ← Char.toNat_inj, toNat_ofUInt8 (by omega)]
  all_goals
    refine .inr ⟨by omega, by simp, ?_⟩
    simp (disch := omega) only [List.map_cons, List.map_nil, List.forall_mem_cons, toNat_ofUInt8,
      List.not_mem_nil, false_imp_iff, implies_true, and_true]
    omega

theorem encodeChar_of_isDigit {d : Char} (digit : d.isDigit = true) : encodeChar d = [d] := by
  have range := (isDigit_iff d).mp digit
  rcases encodeChar_cases d with ⟨-, own⟩ | ⟨high, -⟩
  · exact own
  · omega

theorem encode_append (cs ds : List Char) : encode (cs ++ ds) = encode cs ++ encode ds :=
  List.flatMap_append

theorem encode_cons_percent (cs : List Char) : encode ('%' :: cs) = '%' :: encode cs := by
  have own : encodeChar '%' = ['%'] := by decide
  rw [encode, List.flatMap_cons, own]
  rfl

theorem encode_of_decimal {digits : List Char} (decimal : ∀ d ∈ digits, d.isDigit = true) :
    encode digits = digits := by
  induction digits with
  | nil => rfl
  | cons d digits ih =>
    obtain ⟨first, rest⟩ := List.forall_mem_cons.mp decimal
    rw [encode, List.flatMap_cons, encodeChar_of_isDigit first]
    exact congrArg (d :: ·) (ih rest)

/-- No byte of another character is taken for a `%`. -/
theorem ne_percent_of_mem_encodeChar {c d : Char} (other : c ≠ '%') (mem : d ∈ encodeChar c) :
    d ≠ '%' := by
  rintro rfl
  rcases encodeChar_cases c with ⟨-, own⟩ | ⟨-, -, high⟩
  · rw [own, List.mem_singleton] at mem
    exact other mem.symm
  · exact absurd (high '%' mem) (by decide)

/-- No byte of another character is taken for a digit. -/
theorem NoDigitFirst.encode {cs : List Char} (apart : NoDigitFirst cs) :
    NoDigitFirst (encode cs) := by
  cases cs with
  | nil => exact apart
  | cons c cs =>
    intro d head
    rw [Placeholder.encode, List.flatMap_cons] at head
    rcases encodeChar_cases c with ⟨-, own⟩ | ⟨-, some, high⟩
    · rw [own] at head
      exact apart d head
    · obtain ⟨e, es, bytes⟩ := List.exists_cons_of_ne_nil some
      rw [bytes] at head
      cases head
      have range := high d (bytes ▸ List.mem_cons_self)
      rw [Bool.eq_false_iff, ne_eq, isDigit_iff]
      omega

theorem Run.encode {cs digits rest : List Char} (run : Run cs digits rest) :
    Run (encode cs) digits (encode rest) where
  split := by rw [run.split, encode_append, encode_of_decimal run.decimal]
  decimal := run.decimal
  short := run.short
  longest := run.longest.imp id NoDigitFirst.encode

/-- An item in bytes. -/
def Item.encode : Item → List Item
  | plain c => (encodeChar c).map plain
  | argument digits => [argument digits]

theorem Reads.plains {cs ds : List Char} {items : List Item} (others : ∀ d ∈ ds, d ≠ '%')
    (reads : Reads cs items) : Reads (ds ++ cs) (ds.map Item.plain ++ items) := by
  induction ds with
  | nil => exact reads
  | cons d ds ih =>
    obtain ⟨other, others⟩ := List.forall_mem_cons.mp others
    exact .plain other (ih others)

/-- **The bytes of a text are read like its characters.** -/
theorem Reads.encode {cs : List Char} {items : List Item} (reads : Reads cs items) :
    Reads (encode cs) (items.flatMap Item.encode) := by
  induction reads with
  | nothing => exact .nothing
  | plain other _ ih => exact ih.plains fun d => ne_percent_of_mem_encodeChar other
  | percent run zero _ ih =>
    rw [encode_cons_percent]
    exact .percent run.encode zero ih
  | argument run counted _ ih =>
    rw [encode_cons_percent]
    exact .argument run.encode counted ih

/-- What an item shows in bytes are the bytes of what it shows. -/
theorem Reads.flatMap_shown_encode {cs : List Char} {items : List Item} (reads : Reads cs items)
    (arguments : List (List Char)) :
    (items.flatMap Item.encode).flatMap (Item.shown (arguments.map Placeholder.encode))
      = Placeholder.encode (items.flatMap (Item.shown arguments)) := by
  rw [Placeholder.encode, List.flatMap_assoc, List.flatMap_assoc]
  refine List.flatMap_congr fun item mem => ?_
  cases item with
  | plain c =>
    show ((encodeChar c).map Item.plain).flatMap _ = [c].flatMap encodeChar
    rw [List.flatMap_map, List.flatMap_singleton]
    exact List.flatMap_singleton' (encodeChar c)
  | argument digits =>
    show [Item.argument digits].flatMap _ = Placeholder.encode _
    rw [List.flatMap_singleton, Item.shown, Item.shown, List.getElem?_map]
    cases arguments[denoted digits - 1]? with
    | none => simp [encode_cons_percent, encode_of_decimal (reads.decimal mem)]
    | some argument => rfl

theorem fillChars_encode (cs : List Char) (arguments : List (List Char)) :
    fillChars (encode cs) (arguments.map encode) = encode (fillChars cs arguments) := by
  obtain ⟨items, reads⟩ := exists_reads cs
  rw [fillChars_of_reads reads.encode, reads.flatMap_shown_encode, fillChars_of_reads reads]

/-! ## Texts -/

/-- **Filling is a single pass.** A text has one reading, which leaves nothing out, and the filled
text shows its items one after the other: each character as it is, each placeholder as its
argument, or as it is written where there is none. It is the same whether characters or bytes are
walked through. -/
theorem fill_single_pass (text : String) (arguments : List String) :
    (∃ items, Reads text.toList items ∧ (∀ other, Reads text.toList other → other = items) ∧
      items.flatMap Item.written = text.toList ∧
      (fill text arguments).toList = items.flatMap (Item.shown (arguments.map String.toList))) ∧
    fillChars (byteChars text) (arguments.map byteChars) = byteChars (fill text arguments) := by
  constructor
  · obtain ⟨items, reads⟩ := exists_reads text.toList
    exact ⟨items, reads, fun _ => reads.unique, reads.written, toList_fill_of_reads reads arguments⟩
  · have bytes : arguments.map byteChars = (arguments.map String.toList).map encode := by
      rw [List.map_map]
      exact List.map_congr_left fun argument _ => byteChars_eq argument
    rw [bytes, byteChars_eq, byteChars_eq, fillChars_encode, fill, String.toList_ofList]

/-- Signs without a number, a number of two digits, a third digit, an argument that looks like a
placeholder, and a sign at the end. -/
example : fill "%%1 %0 %05 %123 %" ["%1"] = "%%1 %0 %05 %123 %" := by decide

/-- **Filling is local.** If the second of two texts does not begin with a digit, they are filled
one by one and refer to the arguments that either of them refers to, whatever the first one ends
with. -/
theorem fill_append (a b : String) (apart : NoDigitFirst b.toList) (arguments : List String) :
    fill (a ++ b) arguments = fill a arguments ++ fill b arguments ∧
    numbers (a ++ b) = numbers a ∪ numbers b ∧
    indices (a ++ b) = (numbers a ∪ numbers b).sort (· ≤ ·) := by
  obtain ⟨items, reads⟩ := exists_reads a.toList
  obtain ⟨items', reads'⟩ := exists_reads b.toList
  have both : Reads (a ++ b).toList (items ++ items') := by
    rw [String.toList_append]
    exact reads.append reads' apart
  have union : numbers (a ++ b) = numbers a ∪ numbers b := by
    ext i
    rw [Finset.mem_union, mem_numbers, mem_numbers, mem_numbers, mem_indices_of_reads both,
      mem_indices_of_reads reads, mem_indices_of_reads reads']
    simp only [List.mem_append, or_and_right, exists_or]
  refine ⟨?_, union, by rw [indices_eq_sort, union]⟩
  rw [← String.toList_inj, String.toList_append, toList_fill_of_reads both,
    toList_fill_of_reads reads, toList_fill_of_reads reads', List.flatMap_append]

/-- A text that ends with a number of one digit, in front of a sign. -/
theorem fill_append_number : NoDigitFirst "%2%".toList ∧
    fill ("50%1" ++ "%2%") ["x", "y"] = fill "50%1" ["x", "y"] ++ fill "%2%" ["x", "y"] ∧
    numbers ("50%1" ++ "%2%") = numbers "50%1" ∪ numbers "%2%" := by
  have apart : NoDigitFirst "%2%".toList := by
    intro c head
    cases head
    rfl
  have filled := fill_append "50%1" "%2%" apart ["x", "y"]
  exact ⟨apart, filled.1, filled.2.1⟩

/-- A digit behind the seam belongs to the number before it. -/
example : fill ("%1" ++ "0") ["x"] ≠ fill "%1" ["x"] ++ fill "0" ["x"] := by decide

end Phrasebook.Placeholder
