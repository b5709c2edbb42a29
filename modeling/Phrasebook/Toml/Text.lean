import Phrasebook.Text.Numeral

/-!
# Texts in TOML

TOML has four ways to write a text: on one line or over several, and with escapes or without.

| | one line | several lines |
|---|---|---|
| with escapes | `"a\tb"` | `"""…"""` |
| as it is | `'C:\lang'` | `'''…'''` |

The plainest way that fits is written, and all four are read.

- `Style`, `Style.of`: the ways, and the one that is chosen for a text.
- `writeText`: a text as it is written.
- `readText?`: the text at the beginning of some characters, and what follows it.
-/

namespace Phrasebook.Toml

open Text

/-! ## Characters -/

/-- A character that stands for itself: any but the control characters, of which only the tab
does. -/
def isPlain (c : Char) : Bool :=
  c == '\t' || (' ' ≤ c && c != '\x7f')

/-- A character that can be written in an escaped form only. -/
def needsEscape (c : Char) : Bool :=
  !isPlain c && c != '\n'

/-- The length of the longest run of a character. -/
def longestRun (quote : Char) (cs : List Char) : Nat :=
  (cs.foldl (fun (run, longest) c =>
    if c = quote then (run + 1, max longest (run + 1)) else (0, longest)) (0, 0)).2

/-! ## Writing -/

/-- A way to write a text. -/
inductive Style where
  | basic
  | literal
  | basicLines
  | literalLines
deriving DecidableEq, Repr

/-- The way to write a text: without an escape if possible, on one line rather than over several,
and with double quotes rather than single ones. -/
def Style.of (cs : List Char) : Style :=
  let escaped := cs.any needsEscape
  let lines := cs.contains '\n'
  let bare := !escaped && !cs.contains '\\'
  if bare && !lines && !cs.contains '"' then .basic
  else if !escaped && !lines && !cs.contains '\'' then .literal
  else if bare && longestRun '"' cs ≤ 2 then .basicLines
  else if !escaped && longestRun '\'' cs ≤ 2 then .literalLines
  else if lines then .basicLines
  else .basic

/-- Four hexadecimal digits. -/
def fourDigits (n : Nat) : List Char :=
  let digits := (Nat.toDigits 16 n).map Char.toUpper
  List.replicate (4 - digits.length) '0' ++ digits

/-- A character between double quotes. Over several lines, a line end stands for itself. -/
def escape (lines : Bool) (c : Char) : List Char :=
  match c with
  | '\x08' => ['\\', 'b']
  | '\t' => ['\\', 't']
  | '\n' => if lines then ['\n'] else ['\\', 'n']
  | '\x0c' => ['\\', 'f']
  | '\r' => ['\\', 'r']
  | '"' => ['\\', '"']
  | '\\' => ['\\', '\\']
  | c => if needsEscape c then '\\' :: 'u' :: fourDigits c.toNat else [c]

/-- A text between double quotes. Over several lines three quotes would be the end, so two in a
row stand as they are; `run` counts those that do. -/
def escapeAll (lines : Bool) (run : Nat) : List Char → List Char
  | [] => []
  | c :: cs =>
    if lines ∧ c = '"' ∧ run < 2 then '"' :: escapeAll lines (run + 1) cs
    else escape lines c ++ escapeAll lines 0 cs

/-- What separates the opening quotes from a text over several lines. It is not part of the
text. -/
def opening (cs : List Char) : List Char :=
  if cs.contains '\n' then ['\n'] else []

/-- A text in some way. -/
def writeAs (cs : List Char) : Style → List Char
  | .basic => ['"'] ++ escapeAll false 0 cs ++ ['"']
  | .literal => ['\''] ++ cs ++ ['\'']
  | .basicLines => ['"', '"', '"'] ++ opening cs ++ escapeAll true 0 cs ++ ['"', '"', '"']
  | .literalLines => ['\'', '\'', '\''] ++ opening cs ++ cs ++ ['\'', '\'', '\'']

/-- A text as it is written. -/
def writeText (cs : List Char) : List Char :=
  writeAs cs (Style.of cs)

/-! ## Reading -/

/-- The character with a code point in hexadecimal digits. -/
def codePoint? (digits : List Char) : Option Char :=
  (natural? 16 digits).bind scalar?

/-- The character whose code point is written in exactly `n` digits. -/
def coded? (n : Nat) (cs : List Char) : Option (Char × List Char) :=
  if (cs.take n).length = n then (codePoint? (cs.take n)).map (·, cs.drop n) else none

theorem coded?_length_le {n : Nat} {cs rest : List Char} {c : Char}
    (h : coded? n cs = some (c, rest)) : rest.length ≤ cs.length := by
  unfold coded? at h
  split at h
  · obtain ⟨_, _, hc⟩ := Option.map_eq_some_iff.1 h
    simp only [Prod.mk.injEq] at hc
    simp [← hc.2]
  · simp at h

/-- The character that an escape stands for, given what follows the backslash. -/
def escaped? : List Char → Option (Char × List Char)
  | 'b' :: rest => some ('\x08', rest)
  | 't' :: rest => some ('\t', rest)
  | 'n' :: rest => some ('\n', rest)
  | 'f' :: rest => some ('\x0c', rest)
  | 'r' :: rest => some ('\r', rest)
  | '"' :: rest => some ('"', rest)
  | '\\' :: rest => some ('\\', rest)
  | 'u' :: rest => coded? 4 rest
  | 'U' :: rest => coded? 8 rest
  | _ => none

theorem escaped?_length_lt {cs rest : List Char} {c : Char} (h : escaped? cs = some (c, rest)) :
    rest.length < cs.length := by
  unfold escaped? at h
  split at h
  case h_8 | h_9 => exact Nat.lt_succ_of_le (coded?_length_le h)
  all_goals grind

/-- Drops blanks and line ends. -/
def dropBreaks : List Char → List Char
  | '\r' :: '\n' :: cs => dropBreaks cs
  | c :: cs => if c = ' ' ∨ c = '\t' ∨ c = '\n' then dropBreaks cs else c :: cs
  | [] => []

theorem dropBreaks_length_le (cs : List Char) : (dropBreaks cs).length ≤ cs.length := by
  fun_induction dropBreaks cs <;> grind

/-- Drops blanks. -/
def dropBlanks (cs : List Char) : List Char :=
  cs.dropWhile fun c => c == ' ' || c == '\t'

theorem dropBlanks_length_le (cs : List Char) : (dropBlanks cs).length ≤ cs.length :=
  (List.dropWhile_suffix _).length_le

/-- What follows a line end. -/
def afterNewline? : List Char → Option (List Char)
  | '\n' :: cs => some cs
  | '\r' :: '\n' :: cs => some cs
  | _ => none

theorem afterNewline?_length_lt {cs rest : List Char} (h : afterNewline? cs = some rest) :
    rest.length < cs.length := by
  unfold afterNewline? at h
  split at h <;> grind

/-- What follows a backslash at the end of a line, together with the blanks and line ends up to
the next word. -/
def afterFold? (cs : List Char) : Option (List Char) :=
  (afterNewline? (dropBlanks cs)).map dropBreaks

theorem afterFold?_length_lt {cs rest : List Char} (h : afterFold? cs = some rest) :
    rest.length < cs.length := by
  unfold afterFold? at h
  obtain ⟨r, hr, rfl⟩ := Option.map_eq_some_iff.1 h
  have := afterNewline?_length_lt hr
  have := dropBlanks_length_le cs
  have := dropBreaks_length_le r
  omega

/-- The rest of a text on one line with escapes. -/
def basic? (cs : List Char) : Option (List Char × List Char) :=
  match cs with
  | [] => none
  | c :: cs =>
    if c = '"' then some ([], cs)
    else if c = '\\' then
      match _h : escaped? cs with
      | none => none
      | some (e, rest) => (basic? rest).map fun (text, rest) => (e :: text, rest)
    else if isPlain c then (basic? cs).map fun (text, rest) => (c :: text, rest)
    else none
termination_by cs.length
decreasing_by
  · have := escaped?_length_lt ‹_›
    simp only [List.length_cons]
    omega
  · simp

/-- The rest of a text on one line without escapes. -/
def literal? : List Char → Option (List Char × List Char)
  | [] => none
  | c :: cs =>
    if c = '\'' then some ([], cs)
    else if isPlain c then (literal? cs).map fun (text, rest) => (c :: text, rest)
    else none

/-- The end of a text over several lines. Of more than three quotes, up to two belong to the
text. -/
def closing? (quote : Char) : List Char → Option (List Char × List Char)
  | a :: b :: c :: cs =>
    if a = quote ∧ b = quote ∧ c = quote then
      let more := (cs.take 2).takeWhile (· == quote)
      some (more, cs.drop more.length)
    else none
  | _ => none

/-- The rest of a text over several lines with escapes. -/
def basicLines? (cs : List Char) : Option (List Char × List Char) :=
  match closing? '"' cs with
  | some found => some found
  | none =>
    match cs with
    | [] => none
    | c :: cs =>
      if c = '\\' then
        match _hf : afterFold? cs with
        | some rest => basicLines? rest
        | none =>
          match _he : escaped? cs with
          | none => none
          | some (e, rest) => (basicLines? rest).map fun (text, rest) => (e :: text, rest)
      else
        match _hn : afterNewline? (c :: cs) with
        | some rest => (basicLines? rest).map fun (text, rest) => ('\n' :: text, rest)
        | none =>
          if isPlain c then (basicLines? cs).map fun (text, rest) => (c :: text, rest) else none
termination_by cs.length
decreasing_by
  · have := afterFold?_length_lt ‹_›
    simp only [List.length_cons]
    omega
  · have := escaped?_length_lt ‹_›
    simp only [List.length_cons]
    omega
  · exact afterNewline?_length_lt ‹_›
  · simp

/-- The rest of a text over several lines without escapes. -/
def literalLines? (cs : List Char) : Option (List Char × List Char) :=
  match closing? '\'' cs with
  | some found => some found
  | none =>
    match cs with
    | [] => none
    | c :: cs =>
      match _hn : afterNewline? (c :: cs) with
      | some rest => (literalLines? rest).map fun (text, rest) => ('\n' :: text, rest)
      | none =>
        if isPlain c then (literalLines? cs).map fun (text, rest) => (c :: text, rest) else none
termination_by cs.length
decreasing_by
  · exact afterNewline?_length_lt ‹_›
  · simp

/-- What follows the opening quotes of a text over several lines, less a line end. -/
def dropOpening (cs : List Char) : List Char :=
  (afterNewline? cs).getD cs

/-- The text that some characters begin with, and what follows it. -/
def readText? : List Char → Option (List Char × List Char)
  | '"' :: '"' :: '"' :: cs => basicLines? (dropOpening cs)
  | '"' :: cs => basic? cs
  | '\'' :: '\'' :: '\'' :: cs => literalLines? (dropOpening cs)
  | '\'' :: cs => literal? cs
  | _ => none

end Phrasebook.Toml
