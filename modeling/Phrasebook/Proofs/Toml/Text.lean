import Mathlib
import Phrasebook.Proofs.Text.Positional
import Phrasebook.Toml.Text

/-!
# Texts in TOML read back

A text is written in one of four ways, and there is none that fits all texts. This module says that
whichever way is chosen, the text is read back.

- `escape_cases`: a character between double quotes.
- `basic?_escapeAll`, `literal?_append`: texts on one line.
- `basicLines?_escapeAll`, `literalLines?_append`: texts over several lines, where quotes at the end
  of the text stand next to those that close it.
- `readText?_writeText`: all ways.
-/

namespace Phrasebook.Toml

open Text

/-! ## Characters -/

theorem isPlain_iff (c : Char) :
    isPlain c = true ↔ c = '\t' ∨ (32 ≤ c.toNat ∧ c.toNat ≠ 127) := by
  have last : c = '\x7f' ↔ c.toNat = 127 := by
    rw [← Char.toNat_inj]
    rfl
  simp [isPlain, last, Char.le_def, UInt32.le_iff_toNat_le]

/-- A line end is not plain. -/
theorem ne_newline_of_isPlain {c : Char} (plain : isPlain c = true) : c ≠ '\n' ∧ c ≠ '\r' := by
  constructor <;> rintro rfl <;> cases plain

theorem small_of_needsEscape {c : Char} (needed : needsEscape c = true) : c.toNat < 128 := by
  have other : ¬ isPlain c = true := by
    intro plain
    simp [needsEscape, plain] at needed
  rw [isPlain_iff] at other
  omega

/-- Four digits denote the number that they are made from. -/
theorem natural?_fourDigits (n : Nat) : natural? 16 (fourDigits n) = some n := by
  rw [natural?_eq_some_iff_denotes (Nat.le_refl 16), denotes_iff_spells (by decide)]
  refine ⟨4 - ((Nat.toDigits 16 n).map Char.toUpper).length, ?_⟩
  have lower : ((Nat.toDigits 16 n).map Char.toUpper).map Char.toLower = Nat.toDigits 16 n := by
    rw [List.map_map, ← map_toLower_toDigits (by decide) (Nat.le_refl 16) n, List.map_map]
    exact List.map_congr_left fun d _ => by simp [Char.toLower_toUpper_eq_toLower]
  show (List.replicate _ '0' ++ _).map Char.toLower = _
  rw [List.map_append, List.map_replicate, lower]
  rfl

theorem length_fourDigits {n : Nat} (small : n < 65536) : (fourDigits n).length = 4 := by
  have short : (Nat.toDigits 16 n).length ≤ 4 :=
    (Nat.length_toDigits_le_iff (by decide) (by decide)).mpr small
  show (List.replicate _ '0' ++ (Nat.toDigits 16 n).map Char.toUpper).length = 4
  rw [List.length_append, List.length_replicate, List.length_map]
  omega

/-- The code point of a character in four digits. -/
theorem coded?_fourDigits {c : Char} (small : c.toNat < 65536) (rest : List Char) :
    coded? 4 (fourDigits c.toNat ++ rest) = some (c, rest) := by
  have length := length_fourDigits small
  have front : (fourDigits c.toNat ++ rest).take 4 = fourDigits c.toNat := by
    rw [← length]
    exact List.take_left
  have behind : (fourDigits c.toNat ++ rest).drop 4 = rest := by
    rw [← length]
    exact List.drop_left
  rw [coded?, front, behind, if_pos length, codePoint?, natural?_fourDigits, Option.bind_some,
    scalar?_toNat]
  rfl

theorem afterNewline?_eq_none {c : Char} (line : c ≠ '\n') (return' : c ≠ '\r')
    (rest : List Char) : afterNewline? (c :: rest) = none := by
  unfold afterNewline?
  split
  case h_1 same => exact absurd (List.cons_eq_cons.mp same).1 line
  case h_2 same => exact absurd (List.cons_eq_cons.mp same).1 return'
  case h_3 => rfl

theorem dropBlanks_of_ne {c : Char} (space : c ≠ ' ') (tab : c ≠ '\t') (rest : List Char) :
    dropBlanks (c :: rest) = c :: rest :=
  List.dropWhile_cons_of_neg (by simp [space, tab])

/-- A character that a line can neither end with nor be folded before. -/
def isInk (c : Char) : Bool :=
  c != ' ' && c != '\t' && c != '\n' && c != '\r'

theorem afterFold?_of_ink {c : Char} (ink : isInk c = true) (rest : List Char) :
    afterFold? (c :: rest) = none := by
  simp only [isInk, Bool.and_eq_true, bne_iff_ne] at ink
  obtain ⟨⟨⟨space, tab⟩, line⟩, return'⟩ := ink
  rw [afterFold?, dropBlanks_of_ne space tab, afterNewline?_eq_none line return']
  rfl

/-- **A character between double quotes** stands as it is, or behind a backslash as an escape that
stands for it and is not taken for the end of a line. -/
theorem escape_cases (lines : Bool) (c : Char) :
    (∃ code, escape lines c = '\\' :: code ∧
      ∀ rest, escaped? (code ++ rest) = some (c, rest) ∧ afterFold? (code ++ rest) = none) ∨
    (escape lines c = [c] ∧ c ≠ '"' ∧ c ≠ '\\' ∧
      (isPlain c = true ∨ (lines = true ∧ c = '\n'))) := by
  unfold escape
  split
  -- the line end, which is escaped on one line only
  case h_3 =>
    cases lines
    · exact .inl ⟨['n'], rfl, fun rest => ⟨rfl, afterFold?_of_ink rfl rest⟩⟩
    · exact .inr ⟨rfl, by decide, by decide, .inr ⟨rfl, rfl⟩⟩
  -- any character without an escape of its own
  case h_8 other =>
    split
    case isTrue needed =>
      have small := small_of_needsEscape needed
      refine .inl ⟨'u' :: fourDigits c.toNat, rfl, fun rest => ⟨?_, afterFold?_of_ink rfl _⟩⟩
      exact coded?_fourDigits (by omega) rest
    case isFalse bare =>
      refine .inr ⟨rfl, by grind, by grind, .inl ?_⟩
      by_contra dark
      exact bare (by simp [needsEscape, dark]; grind)
  all_goals exact .inl ⟨[_], rfl, fun rest => ⟨rfl, afterFold?_of_ink rfl rest⟩⟩

theorem exists_escape_eq_cons (lines : Bool) (c : Char) :
    ∃ first code, escape lines c = first :: code ∧ first ≠ '"' := by
  rcases escape_cases lines c with ⟨code, written, -⟩ | ⟨written, quote, -⟩
  · exact ⟨'\\', code, written, by decide⟩
  · exact ⟨c, [], written, quote⟩

/-! ## One line -/

theorem basic?_escape (c : Char) (tail : List Char) :
    basic? (escape false c ++ tail) = (basic? tail).map fun (text, rest) => (c :: text, rest) := by
  rcases escape_cases false c with ⟨code, written, back⟩ | ⟨written, quote, backslash, plain⟩
  · rw [written, List.cons_append, basic?, if_neg (by decide), if_pos rfl]
    split
    case h_1 lost => rw [(back tail).1] at lost; cases lost
    case h_2 found =>
      rw [(back tail).1] at found
      cases found
      rfl
  · have plain : isPlain c = true := plain.resolve_right fun h => Bool.noConfusion h.1
    rw [written, List.singleton_append, basic?, if_neg quote, if_neg backslash, if_pos plain]

theorem basic?_escapeAll (run : Nat) (cs rest : List Char) :
    basic? (escapeAll false run cs ++ '"' :: rest) = some (cs, rest) := by
  induction cs generalizing run with
  | nil => rw [escapeAll, List.nil_append, basic?, if_pos rfl]
  | cons c cs ih =>
    rw [escapeAll, if_neg fun h => Bool.noConfusion h.1, List.append_assoc, basic?_escape, ih]
    rfl

theorem literal?_append {cs : List Char} (plain : ∀ c ∈ cs, isPlain c = true ∧ c ≠ '\'')
    (rest : List Char) : literal? (cs ++ '\'' :: rest) = some (cs, rest) := by
  induction cs with
  | nil => rw [List.nil_append, literal?, if_pos rfl]
  | cons c cs ih =>
    obtain ⟨isPlain, quote⟩ := plain c List.mem_cons_self
    rw [List.cons_append, literal?, if_neg quote, if_pos isPlain,
      ih fun d inside => plain d (List.mem_cons_of_mem _ inside)]
    rfl

/-! ## Several lines -/

/-- Three quotes in a row are needed for the end. -/
theorem closing?_eq_none {quote : Char} {cs : List Char} (open' : ¬ [quote, quote, quote] <+: cs) :
    closing? quote cs = none := by
  unfold closing?
  split
  case h_1 a b c cs =>
    refine if_neg fun ⟨ha, hb, hc⟩ => open' ⟨cs, ?_⟩
    rw [ha, hb, hc]
    rfl
  case h_2 => rfl

/-- One or two quotes before the last three belong to the text. -/
theorem closing?_replicate {quote : Char} {k : Nat} (few : k ≤ 2) {rest : List Char}
    (other : rest.head? ≠ some quote) :
    closing? quote (List.replicate k quote ++ quote :: quote :: quote :: rest) =
      some (List.replicate k quote, rest) := by
  have takeWhile_rest : ∀ n, (rest.take n).takeWhile (· == quote) = [] := by
    intro n
    cases rest with
    | nil => simp
    | cons r rest =>
      cases n with
      | zero => rfl
      | succ n =>
        rw [List.take_succ_cons, List.takeWhile_cons_of_neg]
        simpa using other
  obtain rfl | rfl | rfl : k = 0 ∨ k = 1 ∨ k = 2 := by omega
  all_goals simp [closing?, List.replicate, takeWhile_rest]

theorem replicate_or_open {quote : Char} {cs : List Char}
    (open' : ¬ [quote, quote, quote] <+: cs) :
    (∃ k ≤ 2, cs = List.replicate k quote) ∨
      ∀ rest, ¬ [quote, quote, quote] <+: cs ++ quote :: quote :: quote :: rest := by
  match cs, open' with
  | [], _ => exact .inl ⟨0, by decide, rfl⟩
  | [a], _ =>
    by_cases same : a = quote
    · exact .inl ⟨1, by decide, by rw [same]; rfl⟩
    · exact .inr fun rest h => same (List.cons_prefix_cons.mp h).1.symm
  | [a, b], _ =>
    by_cases same : a = quote ∧ b = quote
    · exact .inl ⟨2, by decide, by rw [same.1, same.2]; rfl⟩
    · refine .inr fun rest h => same ?_
      obtain ⟨ha, h⟩ := List.cons_prefix_cons.mp h
      exact ⟨ha.symm, (List.cons_prefix_cons.mp h).1.symm⟩
  | a :: b :: c :: cs, open' =>
    refine .inr fun rest h => open' ?_
    simp only [List.cons_append, List.cons_prefix_cons] at h ⊢
    exact ⟨h.1, h.2.1, h.2.2.1, List.nil_prefix⟩

/-- Quotes that stand as they are come in twos at most. -/
theorem le_of_replicate_prefix {run n : Nat} {cs : List Char} (small : run ≤ 2)
    (front : List.replicate n '"' <+: escapeAll true run cs) : n + run ≤ 2 ∨ n = 0 := by
  induction cs generalizing run n with
  | nil =>
    rw [escapeAll, List.prefix_nil, List.replicate_eq_nil_iff] at front
    exact .inr front
  | cons c cs ih =>
    cases n with
    | zero => exact .inr rfl
    | succ n =>
      rw [List.replicate_succ, escapeAll] at front
      split at front
      case isTrue raw =>
        have := ih (by omega) (List.cons_prefix_cons.mp front).2
        omega
      case isFalse =>
        obtain ⟨first, code, written, quote⟩ := exists_escape_eq_cons true c
        rw [written] at front
        exact absurd (List.cons_prefix_cons.mp front).1.symm quote

/-- Where nothing but quotes is written, nothing but quotes was to be written. -/
theorem eq_of_escapeAll_eq_replicate {run n : Nat} {cs : List Char}
    (written : escapeAll true run cs = List.replicate n '"') : cs = List.replicate n '"' := by
  induction cs generalizing run n with
  | nil => exact written
  | cons c cs ih =>
    rw [escapeAll] at written
    split at written
    case isTrue raw =>
      cases n with
      | zero => cases written
      | succ n =>
        rw [List.replicate_succ, List.cons_inj_right] at written
        rw [raw.2.1, ih written, List.replicate_succ]
    case isFalse =>
      obtain ⟨first, code, begins, quote⟩ := exists_escape_eq_cons true c
      rw [begins] at written
      cases n with
      | zero => cases written
      | succ n => exact absurd (List.cons_eq_cons.mp written).1 quote

theorem basicLines?_escape (c : Char) (tail : List Char) :
    basicLines? (escape true c ++ tail) =
      (basicLines? tail).map fun (text, rest) => (c :: text, rest) := by
  have unclosed : closing? '"' (escape true c ++ tail) = none := by
    obtain ⟨first, code, written, quote⟩ := exists_escape_eq_cons true c
    rw [written]
    exact closing?_eq_none fun h => quote (List.cons_prefix_cons.mp h).1.symm
  rcases escape_cases true c with ⟨code, written, back⟩ | ⟨written, -, backslash, plain⟩
  · rw [written] at unclosed ⊢
    rw [basicLines?.eq_def, unclosed]
    simp only [List.cons_append, if_true]
    split
    case h_1 folded => rw [(back tail).2] at folded; cases folded
    case h_2 =>
      split
      case h_1 lost => rw [(back tail).1] at lost; cases lost
      case h_2 found =>
        rw [(back tail).1] at found
        cases found
        rfl
  · rw [written] at unclosed ⊢
    rw [basicLines?.eq_def, unclosed]
    simp only [List.singleton_append, if_neg backslash]
    rcases plain with plain | ⟨-, rfl⟩
    · obtain ⟨line, return'⟩ := ne_newline_of_isPlain plain
      split
      case h_1 ended => rw [afterNewline?_eq_none line return'] at ended; cases ended
      case h_2 => rw [if_pos plain]
    · rfl

theorem basicLines?_quote {tail : List Char} (unclosed : closing? '"' ('"' :: tail) = none) :
    basicLines? ('"' :: tail) =
      (basicLines? tail).map fun (text, rest) => ('"' :: text, rest) := by
  rw [basicLines?.eq_def, unclosed]
  rfl

theorem basicLines?_replicate {k : Nat} (few : k ≤ 2) {rest : List Char}
    (other : rest.head? ≠ some '"') :
    basicLines? (List.replicate k '"' ++ '"' :: '"' :: '"' :: rest) =
      some (List.replicate k '"', rest) := by
  rw [basicLines?.eq_def, closing?_replicate few other]

theorem basicLines?_escapeAll {run : Nat} (small : run ≤ 2) (cs : List Char) {rest : List Char}
    (other : rest.head? ≠ some '"') :
    basicLines? (escapeAll true run cs ++ '"' :: '"' :: '"' :: rest) = some (cs, rest) := by
  induction cs generalizing run with
  | nil => exact basicLines?_replicate (k := 0) (Nat.zero_le 2) other
  | cons c cs ih =>
    have few : ¬ ['"', '"', '"'] <+: escapeAll true run (c :: cs) := by
      intro three
      have := le_of_replicate_prefix (n := 3) small three
      omega
    -- either quotes are all that is left, which the reader takes together with the closing ones,
    -- or the reader takes one character
    rcases replicate_or_open few with ⟨k, twice, only⟩ | unclosed
    · rw [only, eq_of_escapeAll_eq_replicate only]
      exact basicLines?_replicate twice other
    · replace unclosed := closing?_eq_none (unclosed rest)
      rw [escapeAll] at unclosed ⊢
      split at unclosed
      case isTrue raw =>
        rw [List.cons_append] at unclosed
        rw [if_pos raw, List.cons_append, basicLines?_quote unclosed, ih raw.2.2, raw.2.1]
        rfl
      case isFalse coded =>
        rw [if_neg coded, List.append_assoc, basicLines?_escape, ih (Nat.zero_le 2)]
        rfl

theorem literalLines?_replicate {k : Nat} (few : k ≤ 2) {rest : List Char}
    (other : rest.head? ≠ some '\'') :
    literalLines? (List.replicate k '\'' ++ '\'' :: '\'' :: '\'' :: rest) =
      some (List.replicate k '\'', rest) := by
  rw [literalLines?.eq_def, closing?_replicate few other]

theorem literalLines?_append {cs : List Char} (plain : ∀ c ∈ cs, isPlain c = true ∨ c = '\n')
    (few : ¬ ['\'', '\'', '\''] <:+: cs) {rest : List Char} (other : rest.head? ≠ some '\'') :
    literalLines? (cs ++ '\'' :: '\'' :: '\'' :: rest) = some (cs, rest) := by
  induction cs with
  | nil => exact literalLines?_replicate (k := 0) (Nat.zero_le 2) other
  | cons c cs ih =>
    have ih := ih (fun d inside => plain d (List.mem_cons_of_mem _ inside))
      fun three => few (List.infix_cons three)
    rcases replicate_or_open fun front => few front.isInfix with ⟨k, twice, only⟩ | unclosed
    · rw [only]
      exact literalLines?_replicate twice other
    · rw [literalLines?.eq_def, closing?_eq_none (unclosed rest)]
      simp only [List.cons_append]
      rcases plain c List.mem_cons_self with plain | rfl
      · obtain ⟨line, return'⟩ := ne_newline_of_isPlain plain
        split
        case h_1 ended => rw [afterNewline?_eq_none line return'] at ended; cases ended
        case h_2 => rw [if_pos plain, ih]; rfl
      · show (literalLines? (cs ++ '\'' :: '\'' :: '\'' :: rest)).map _ = _
        rw [ih]
        rfl

/-! ## The way that is chosen -/

/-- One step in counting runs. -/
def countRun (quote : Char) (counts : Nat × Nat) (c : Char) : Nat × Nat :=
  if c = quote then (counts.1 + 1, max counts.2 (counts.1 + 1)) else (0, counts.2)

theorem le_foldl_countRun (quote : Char) (cs : List Char) (counts : Nat × Nat) :
    counts.2 ≤ (cs.foldl (countRun quote) counts).2 := by
  induction cs generalizing counts with
  | nil => exact Nat.le_refl _
  | cons c cs ih =>
    apply Nat.le_trans _ (ih _)
    unfold countRun
    split
    · exact Nat.le_max_left _ _
    · exact Nat.le_refl _

theorem not_infix_of_longestRun {quote : Char} {cs : List Char}
    (short : longestRun quote cs ≤ 2) : ¬ [quote, quote, quote] <:+: cs := by
  rintro ⟨before, behind, rfl⟩
  have counted : longestRun quote (before ++ [quote, quote, quote] ++ behind) =
      (behind.foldl (countRun quote) ([quote, quote, quote].foldl (countRun quote)
        (before.foldl (countRun quote) (0, 0)))).2 := by
    rw [← List.foldl_append, ← List.foldl_append, ← List.append_assoc]
    rfl
  have kept := le_foldl_countRun quote behind ([quote, quote, quote].foldl (countRun quote)
    (before.foldl (countRun quote) (0, 0)))
  rw [← counted] at kept
  simp only [List.foldl_cons, List.foldl_nil, countRun, if_true] at kept
  omega

/-- The texts that can be written in some way at all. -/
def Style.Fits (cs : List Char) : Style → Prop
  | .basic | .basicLines => True
  | .literal => ∀ c ∈ cs, isPlain c = true ∧ c ≠ '\''
  | .literalLines =>
    (∀ c ∈ cs, isPlain c = true ∨ c = '\n') ∧ ¬ ['\'', '\'', '\''] <:+: cs

theorem Style.fits_of (cs : List Char) : (Style.of cs).Fits cs := by
  have plain : cs.any needsEscape = false → ∀ c ∈ cs, isPlain c = true ∨ c = '\n' := by
    intro bare c inside
    have kept := List.any_eq_false.mp bare c inside
    by_cases plain : isPlain c = true
    · exact .inl plain
    · exact .inr (by simpa [needsEscape, plain] using kept)
  show Style.Fits cs (if _ then .basic else if _ then .literal else if _ then .basicLines
    else if _ then .literalLines else if _ then .basicLines else .basic)
  split
  · trivial
  split
  case isTrue literal =>
    simp only [Bool.and_eq_true, Bool.not_eq_true', List.contains_eq_mem,
      decide_eq_false_iff_not] at literal
    refine fun c inside => ⟨?_, fun same => literal.2 (same ▸ inside)⟩
    exact (plain literal.1.1 c inside).resolve_right fun same => literal.1.2 (same ▸ inside)
  split
  · trivial
  split
  case isTrue literal =>
    simp only [Bool.and_eq_true, Bool.not_eq_true', decide_eq_true_eq] at literal
    exact ⟨plain literal.1, not_infix_of_longestRun literal.2⟩
  split <;> trivial

/-! ## Reading what was written -/

theorem readText?_basic {tail : List Char} (short : ¬ ['"', '"'] <+: tail) :
    readText? ('"' :: tail) = basic? tail := by
  unfold readText?
  split <;> grind

theorem readText?_literal {tail : List Char} (short : ¬ ['\'', '\''] <+: tail) :
    readText? ('\'' :: tail) = literal? tail := by
  unfold readText?
  split <;> grind

theorem dropOpening_opening {cs tail : List Char}
    (stays : '\n' ∉ cs → afterNewline? tail = none) :
    dropOpening (opening cs ++ tail) = tail := by
  by_cases lines : '\n' ∈ cs
  · rw [opening, if_pos (List.contains_iff_mem.mpr lines)]
    rfl
  · rw [opening, if_neg fun h => lines (List.contains_iff_mem.mp h), List.nil_append, dropOpening,
      stays lines]
    rfl

theorem afterNewline?_escapeAll {cs : List Char} (oneLine : '\n' ∉ cs) (rest : List Char) :
    afterNewline? (escapeAll true 0 cs ++ '"' :: rest) = none := by
  cases cs with
  | nil => rfl
  | cons c cs =>
    rw [escapeAll]
    split
    · exact afterNewline?_eq_none (by decide) (by decide) _
    rcases escape_cases true c with ⟨code, written, -⟩ | ⟨written, -, -, plain⟩
    · rw [written]
      exact afterNewline?_eq_none (by decide) (by decide) _
    · have plain := plain.resolve_right fun same => oneLine (same.2 ▸ List.mem_cons_self)
      obtain ⟨line, return'⟩ := ne_newline_of_isPlain plain
      rw [written]
      exact afterNewline?_eq_none line return' _

/-- Whatever way a text is written in, if it can be, it is read back. -/
theorem readText?_writeAs {cs : List Char} {style : Style} (fits : style.Fits cs)
    {rest : List Char} (double : rest.head? ≠ some '"') (single : rest.head? ≠ some '\'') :
    readText? (writeAs cs style ++ rest) = some (cs, rest) := by
  cases style with
  | basic =>
    -- an empty text is not taken for the opening of one over several lines
    have short : ¬ ['"', '"'] <+: escapeAll false 0 cs ++ '"' :: rest := by
      intro two
      cases cs with
      | nil =>
        obtain ⟨behind, rfl⟩ := (List.cons_prefix_cons.mp two).2
        exact double rfl
      | cons c cs =>
        obtain ⟨first, code, written, quote⟩ := exists_escape_eq_cons false c
        rw [escapeAll, if_neg fun h => Bool.noConfusion h.1, written] at two
        exact quote (List.cons_prefix_cons.mp two).1.symm
    show readText? (('"' :: escapeAll false 0 cs ++ ['"']) ++ rest) = _
    rw [List.append_assoc, List.cons_append, List.singleton_append, readText?_basic short,
      basic?_escapeAll]
  | literal =>
    have short : ¬ ['\'', '\''] <+: cs ++ '\'' :: rest := by
      intro two
      cases cs with
      | nil =>
        obtain ⟨behind, rfl⟩ := (List.cons_prefix_cons.mp two).2
        exact single rfl
      | cons c cs =>
        exact (fits c List.mem_cons_self).2 (List.cons_prefix_cons.mp two).1.symm
    show readText? (('\'' :: cs ++ ['\'']) ++ rest) = _
    rw [List.append_assoc, List.cons_append, List.singleton_append, readText?_literal short,
      literal?_append fits]
  | basicLines =>
    -- without a line end in it, a text does not begin with one that would be dropped
    have stays : '\n' ∉ cs →
        afterNewline? (escapeAll true 0 cs ++ '"' :: '"' :: '"' :: rest) = none :=
      fun oneLine => afterNewline?_escapeAll oneLine _
    show readText? ((['"', '"', '"'] ++ opening cs ++ escapeAll true 0 cs ++ ['"', '"', '"']) ++
      rest) = _
    simp only [List.append_assoc]
    show basicLines? (dropOpening (opening cs ++ (_ ++ '"' :: '"' :: '"' :: rest))) = _
    rw [dropOpening_opening stays]
    exact basicLines?_escapeAll (Nat.zero_le 2) cs double
  | literalLines =>
    have stays : '\n' ∉ cs →
        afterNewline? (cs ++ '\'' :: '\'' :: '\'' :: rest) = none := by
      intro oneLine
      cases cs with
      | nil => rfl
      | cons c cs =>
        have plain := (fits.1 c List.mem_cons_self).resolve_right fun same =>
          oneLine (same ▸ List.mem_cons_self)
        obtain ⟨line, return'⟩ := ne_newline_of_isPlain plain
        exact afterNewline?_eq_none line return' _
    show readText? ((['\'', '\'', '\''] ++ opening cs ++ cs ++ ['\'', '\'', '\'']) ++ rest) = _
    simp only [List.append_assoc]
    show literalLines? (dropOpening (opening cs ++ (cs ++ '\'' :: '\'' :: '\'' :: rest))) = _
    rw [dropOpening_opening stays]
    exact literalLines?_append fits.1 fits.2 single

/-- **Every text is read back**, with what follows it left over. -/
theorem readText?_writeText (cs : List Char) {rest : List Char} (double : rest.head? ≠ some '"')
    (single : rest.head? ≠ some '\'') : readText? (writeText cs ++ rest) = some (cs, rest) :=
  readText?_writeAs (Style.fits_of cs) double single

theorem exists_writeText_eq_cons (cs : List Char) :
    ∃ quote tail, writeText cs = quote :: tail ∧ (quote = '"' ∨ quote = '\'') := by
  unfold writeText writeAs
  split
  · exact ⟨'"', _, rfl, .inl rfl⟩
  · exact ⟨'\'', _, rfl, .inr rfl⟩
  · exact ⟨'"', _, rfl, .inl rfl⟩
  · exact ⟨'\'', _, rfl, .inr rfl⟩

end Phrasebook.Toml
