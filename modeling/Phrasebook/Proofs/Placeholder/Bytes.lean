import Phrasebook.Proofs.Placeholder.Reading

/-!
# Filling a text by its bytes

A text lies in memory as bytes. A walk over them finds a placeholder by its places, computes its
number in a single byte, and cuts the text at those places. All of this can go wrong: a sum may
not fit in a byte, a place may lie within a character, and the end of a part may lie before its
beginning. This module says that none of it happens, whatever the text and the arguments are.

- `byte?`, `slice?`: a byte and a part of a text, if there is one.
- `scanBytes?`, `fillSlices?`: the walks over the bytes, without a result if a step has none.
- `scanBytes?_eq`: the first walk finds what `scan` finds, in all bytes.
- `Laid`: placeholders that stand between the characters of a text, one behind the other.
  `laid_places` says that those of a reading do, and `Laid.exists_fillSlices?` that the text can be
  cut around any of them.
- `scan_safe`: both walks on a text.
-/

namespace Phrasebook.Placeholder

open Text
open Storage (Bytes bytesOf)

/-! ## Numbers in bytes -/

/-- A number as a byte, if it fits. -/
def byte? (n : Nat) : Option UInt8 :=
  if n < UInt8.size then some (.ofNat n) else none

/-- The distance of a byte from the digit 0, unless the byte is smaller. -/
def units? (digit : UInt8) : Option UInt8 :=
  if 48 ≤ digit then some (digit - 48) else none

/-- A number with one more digit, each step in a byte. -/
def extend? (index digit : UInt8) : Option UInt8 := do
  let tens ← byte? (index.toNat * 10)
  let units ← units? digit
  byte? (tens.toNat + units.toNat)

/-- The digits behind a `%` at the place `start`, of which those before `stop` are read. The place
behind the last one, and the number. -/
def indexFrom? (bytes : Bytes) (start stop : Nat) (index : UInt8) : Option (Nat × UInt8) :=
  if _inside : stop < bytes.length then
    if stop - start ≤ 2 ∧ (Char.ofUInt8 bytes[stop]).isDigit = true then
      match extend? index bytes[stop] with
      | none => none
      | some index => indexFrom? bytes start (stop + 1) index
    else some (stop, index)
  else some (stop, index)
termination_by bytes.length - stop

/-- The placeholders in some bytes from a place on. -/
def scanBytes? (bytes : Bytes) (place : Nat) : Option (List Placeholder) :=
  if _inside : place < bytes.length then
    if Char.ofUInt8 bytes[place] = '%' then
      match indexFrom? bytes place (place + 1) 0 with
      | none => none
      | some (stop, index) =>
        if _literal : stop ≤ place + 1 ∨ index = 0 then scanBytes? bytes (place + 1)
        else (scanBytes? bytes stop).map (⟨place, stop, index.toNat⟩ :: ·)
    else scanBytes? bytes (place + 1)
  else some []
termination_by bytes.length - place

theorem byte?_of_lt {n : Nat} (fits : n < 256) : byte? n = some (.ofNat n) :=
  if_pos fits

/-- One more digit, if the number fits. -/
theorem extend?_eq {index digit : UInt8} (decimal : (Char.ofUInt8 digit).isDigit = true)
    (fits : 10 * index.toNat + (digit.toNat - 48) < 256) :
    extend? index digit = some (.ofNat (10 * index.toNat + (digit.toNat - 48))) := by
  have range := (isDigit_iff _).mp decimal
  have same : (Char.ofUInt8 digit).toNat = digit.toNat := rfl
  have large : 48 ≤ digit := UInt8.le_iff_toNat_le.mpr (by simp; omega)
  have units : (digit - 48).toNat = digit.toNat - 48 := UInt8.toNat_sub_of_le _ _ large
  rw [extend?, byte?_of_lt (by omega), units?, if_pos large]
  show byte? ((UInt8.ofNat (index.toNat * 10)).toNat + (digit - 48).toNat) = _
  have tens : index.toNat * 10 < UInt8.size := show index.toNat * 10 < 256 by omega
  rw [units, UInt8.toNat_ofNat_of_lt' tens, byte?_of_lt (by omega), Nat.mul_comm]

/-- Digits never make a number smaller. -/
theorem le_ofDigitChars (digits : List Char) (n : Nat) : n ≤ Nat.ofDigitChars 10 digits n := by
  induction digits generalizing n with
  | nil => exact Nat.le_refl n
  | cons d digits ih =>
    rw [Nat.ofDigitChars_cons]
    have := ih (10 * n + (d.toNat - '0'.toNat))
    omega

/-- Two digits denote a number up to 99. -/
theorem denoted_lt {digits : List Char} (decimal : ∀ d ∈ digits, d.isDigit = true)
    (short : digits.length ≤ 2) : denoted digits < 100 := by
  have value : ∀ d ∈ digits, d.toNat - '0'.toNat < 10 := by
    intro d mem
    have range := (isDigit_iff d).mp (decimal d mem)
    have zero : '0'.toNat = 48 := rfl
    omega
  match digits with
  | [] => decide
  | [d] =>
    have first := value d (by simp)
    simp only [denoted, Nat.ofDigitChars_cons, Nat.ofDigitChars_nil]
    omega
  | [d, e] =>
    have first := value d (by simp)
    have second := value e (by simp)
    simp only [denoted, Nat.ofDigitChars_cons, Nat.ofDigitChars_nil]
    omega
  | _ :: _ :: _ :: _ => simp at short

/-- **The number of a placeholder fits in a byte** while it is computed, and it is the number that
the digits denote. -/
theorem indexFrom?_eq {bytes : Bytes} {start stop : Nat} {index : UInt8}
    {digits behind : List Char}
    (split : (bytes.drop stop).map Char.ofUInt8 = digits ++ behind)
    (decimal : ∀ d ∈ digits, d.isDigit = true) (room : stop + digits.length ≤ start + 3)
    (longest : stop + digits.length = start + 3 ∨ NoDigitFirst behind)
    (fits : Nat.ofDigitChars 10 digits index.toNat < 256) :
    indexFrom? bytes start stop index
      = some (stop + digits.length, .ofNat (Nat.ofDigitChars 10 digits index.toNat)) := by
  induction digits generalizing stop index with
  | nil =>
    have done : indexFrom? bytes start stop index = some (stop, index) := by
      rw [indexFrom?]
      by_cases inside : stop < bytes.length
      · rw [List.drop_eq_getElem_cons inside, List.map_cons, List.nil_append] at split
        rw [dif_pos inside, if_neg]
        rintro ⟨near, digit⟩
        rcases longest with full | apart
        · rw [List.length_nil] at full
          omega
        · rw [apart _ (by rw [← split]; rfl)] at digit
          cases digit
      · exact dif_neg inside
    rw [done, Nat.ofDigitChars_nil, UInt8.ofNat_toNat]
    rfl
  | cons d digits ih =>
    obtain ⟨digit, decimals⟩ := List.forall_mem_cons.mp decimal
    have inside : stop < bytes.length := by
      have length := congrArg List.length split
      simp only [List.length_map, List.length_drop, List.cons_append, List.length_cons] at length
      omega
    rw [List.drop_eq_getElem_cons inside, List.map_cons, List.cons_append] at split
    obtain ⟨rfl, rest⟩ := List.cons_eq_cons.mp split
    rw [List.length_cons] at room longest ⊢
    rw [Nat.ofDigitChars_cons] at fits ⊢
    have same : (Char.ofUInt8 bytes[stop]).toNat - '0'.toNat = bytes[stop].toNat - 48 := rfl
    rw [same] at fits ⊢
    have sum : 10 * index.toNat + (bytes[stop].toNat - 48) < 256 :=
      Nat.lt_of_le_of_lt (le_ofDigitChars digits _) fits
    have next : (UInt8.ofNat (10 * index.toNat + (bytes[stop].toNat - 48))).toNat
        = 10 * index.toNat + (bytes[stop].toNat - 48) := UInt8.toNat_ofNat_of_lt' sum
    rw [indexFrom?, dif_pos inside, if_pos ⟨by omega, digit⟩, extend?_eq digit sum]
    show indexFrom? bytes start (stop + 1) _ = _
    rw [ih rest decimals (by omega) (longest.imp (fun full => by omega) id)
      (by rw [next]; exact fits), next]
    congr 2
    omega

theorem indexFrom?_of_run {bytes : Bytes} {place : Nat} {digits behind : List Char}
    (run : Run ((bytes.drop (place + 1)).map Char.ofUInt8) digits behind) :
    indexFrom? bytes place (place + 1) 0
      = some (place + 1 + digits.length, .ofNat (denoted digits)) := by
  have small := denoted_lt run.decimal run.short
  have room := run.short
  exact indexFrom?_eq run.split run.decimal (by omega) (run.longest.imp (fun two => by omega) id)
    (Nat.lt_trans small (by decide))

/-! ## The walk over bytes -/

section

variable {bytes : Bytes} {place : Nat}

theorem scanBytes?_end (outside : bytes.length ≤ place) : scanBytes? bytes place = some [] := by
  rw [scanBytes?]
  exact dif_neg (Nat.not_lt_of_le outside)

theorem scanBytes?_plain (inside : place < bytes.length)
    (other : Char.ofUInt8 bytes[place] ≠ '%') :
    scanBytes? bytes place = scanBytes? bytes (place + 1) := by
  rw [scanBytes?, dif_pos inside, if_neg other]

/-- A `%` without a number is a byte like any other. -/
theorem scanBytes?_percent (inside : place < bytes.length)
    (sign : Char.ofUInt8 bytes[place] = '%') {digits behind : List Char}
    (run : Run ((bytes.drop (place + 1)).map Char.ofUInt8) digits behind)
    (zero : denoted digits = 0) :
    scanBytes? bytes place = scanBytes? bytes (place + 1) := by
  rw [scanBytes?, dif_pos inside, if_pos sign, indexFrom?_of_run run]
  exact dif_pos (.inr (by rw [zero]; rfl))

/-- A `%` with a number is a placeholder, and the walk goes on behind it. -/
theorem scanBytes?_argument (inside : place < bytes.length)
    (sign : Char.ofUInt8 bytes[place] = '%') {digits behind : List Char}
    (run : Run ((bytes.drop (place + 1)).map Char.ofUInt8) digits behind)
    (counted : 1 ≤ denoted digits) :
    scanBytes? bytes place
      = (scanBytes? bytes (place + 1 + digits.length)).map
          (⟨place, place + 1 + digits.length, denoted digits⟩ :: ·) := by
  have small := denoted_lt run.decimal run.short
  have value : (UInt8.ofNat (denoted digits)).toNat = denoted digits :=
    UInt8.toNat_ofNat_of_lt' (Nat.lt_trans small (by decide))
  have written : digits.length ≠ 0 := by
    intro none
    rw [List.length_eq_zero_iff.mp none] at counted
    cases counted
  have nonzero : UInt8.ofNat (denoted digits) ≠ 0 := by
    intro zero
    rw [← value, zero] at counted
    cases counted
  rw [scanBytes?, dif_pos inside, if_pos sign, indexFrom?_of_run run]
  refine (dif_neg ?_).trans (by rw [value])
  rintro (short | zero)
  · omega
  · exact nonzero zero

end

/-- **The walk over bytes finds what a scan finds**, in any bytes and from any place, and no step of
it goes wrong. -/
theorem scanBytes?_eq (bytes : Bytes) (place : Nat) :
    scanBytes? bytes place = some (scanFrom 0 place ((bytes.drop place).map Char.ofUInt8)) := by
  by_cases inside : place < bytes.length
  · have onward := scanBytes?_eq bytes (place + 1)
    rw [List.drop_eq_getElem_cons inside, List.map_cons]
    by_cases sign : Char.ofUInt8 bytes[place] = '%'
    · have run := run_leadingDigits ((bytes.drop (place + 1)).map Char.ofUInt8)
      rw [sign]
      rcases Nat.eq_zero_or_pos (denoted (leadingDigits ((bytes.drop (place + 1)).map Char.ofUInt8)))
        with zero | counted
      · rw [scanBytes?_percent inside sign run zero, onward, scanFrom_plain]
        rw [number_eq_denoted run.decimal]
        exact fun found => found.2 zero
      · rw [scanBytes?_argument inside sign run counted, scanBytes?_eq, scanFrom_argument place run
          counted, ← List.map_drop, List.drop_drop]
        rfl
    · rw [scanBytes?_plain inside sign, onward, scanFrom_plain]
      exact fun found => sign found.1
  · have outside := Nat.le_of_not_lt inside
    rw [scanBytes?_end outside, List.drop_eq_nil_of_le outside]
    rfl
termination_by bytes.length - place

/-! ## Parts of a text -/

/-- A place among the bytes of a text that lies at an end or between two characters. -/
def IsBoundary (text : String) (place : Nat) : Prop :=
  String.Pos.Raw.IsValid text ⟨place⟩

instance (text : String) (place : Nat) : Decidable (IsBoundary text place) :=
  inferInstanceAs (Decidable (String.Pos.Raw.IsValid text ⟨place⟩))

/-- The part of a text between two places among its bytes. There is none unless both are
boundaries, the first one not behind the second. -/
def slice? (text : String) (start stop : Nat) : Option String :=
  if h : IsBoundary text start ∧ IsBoundary text stop ∧ start ≤ stop then
    some (String.extract (⟨⟨start⟩, h.1⟩ : text.Pos) ⟨⟨stop⟩, h.2.1⟩)
  else none

/-- Writes out a text from the byte `copied` on, with something else in place of the placeholders
for which it is given. -/
def fillSlices? (text : String) (given : Placeholder → Option String) (copied : Nat) :
    List Placeholder → Option String
  | [] => slice? text copied text.utf8ByteSize
  | p :: ps =>
    match given p with
    | none => fillSlices? text given copied ps
    | some argument => do
      let before ← slice? text copied p.start
      let rest ← fillSlices? text given p.stop ps
      return before ++ argument ++ rest

theorem isBoundary_append (front behind : String) :
    IsBoundary (front ++ behind) front.utf8ByteSize :=
  String.Pos.Raw.isValid_iff_exists_append.mpr ⟨front, behind, rfl, rfl⟩

theorem isBoundary_size (text : String) : IsBoundary text text.utf8ByteSize := by
  have boundary := isBoundary_append text ""
  rw [String.append_empty] at boundary
  exact boundary

theorem IsBoundary.le_size {text : String} {place : Nat} (boundary : IsBoundary text place) :
    place ≤ text.utf8ByteSize :=
  String.Pos.Raw.IsValid.le_rawEndPos boundary

theorem size_le_append (front behind : String) :
    front.utf8ByteSize ≤ (front ++ behind).utf8ByteSize := by
  rw [String.utf8ByteSize_append]
  exact Nat.le_add_right _ _

theorem exists_slice? {text : String} {start stop : Nat} (first : IsBoundary text start)
    (last : IsBoundary text stop) (ordered : start ≤ stop) :
    ∃ part, slice? text start stop = some part :=
  ⟨_, dif_pos ⟨first, last, ordered⟩⟩

/-- A part is found between the sizes of the texts up to its ends. -/
theorem slice?_append (front part behind : String) :
    slice? (front ++ part ++ behind) front.utf8ByteSize (front ++ part).utf8ByteSize
      = some part := by
  have first : IsBoundary (front ++ part ++ behind) front.utf8ByteSize := by
    rw [String.append_assoc]
    exact isBoundary_append front (part ++ behind)
  have last := isBoundary_append (front ++ part) behind
  have ordered := size_le_append front part
  let start : (front ++ part ++ behind).Pos := ⟨⟨front.utf8ByteSize⟩, first⟩
  let stop : (front ++ part ++ behind).Pos := ⟨⟨(front ++ part).utf8ByteSize⟩, last⟩
  have copied : ∃ order : start ≤ stop, (String.slice _ start stop order).copy = part :=
    String.copy_slice_eq_iff_splits.mpr
      ⟨front, behind, ⟨String.append_assoc .., rfl⟩, ⟨rfl, rfl⟩⟩
  obtain ⟨order, copied⟩ := copied
  rw [slice?, dif_pos ⟨first, last, ordered⟩, String.extract_eq_copy_slice start stop order, copied]

/-! ## Placeholders between characters -/

/-- Placeholders from a place on, one behind the other. Each one takes up some bytes, from one
boundary of the text to another, and has a number that is written in two digits. -/
inductive Laid (text : String) : Nat → List Placeholder → Prop
  | nothing {place : Nat} : Laid text place []
  | cons {place : Nat} {p : Placeholder} {ps : List Placeholder} (behind : place ≤ p.start)
      (filled : p.start < p.stop) (start : IsBoundary text p.start)
      (stop : IsBoundary text p.stop) (low : 1 ≤ p.index) (high : p.index ≤ 99)
      (rest : Laid text p.stop ps) : Laid text place (p :: ps)

namespace Laid

variable {text : String} {place : Nat} {ps : List Placeholder}

theorem weaken {earlier : Nat} (laid : Laid text place ps) (before : earlier ≤ place) :
    Laid text earlier ps := by
  cases laid with
  | nothing => exact .nothing
  | cons behind filled start stop low high rest =>
    exact .cons (Nat.le_trans before behind) filled start stop low high rest

theorem behind (laid : Laid text place ps) : ∀ p ∈ ps, place ≤ p.start := by
  induction laid with
  | nothing => nofun
  | cons behind filled _ _ _ _ _ ih =>
    exact List.forall_mem_cons.mpr ⟨behind, fun p mem =>
      Nat.le_trans behind (Nat.le_trans (Nat.le_of_lt filled) (ih p mem))⟩

/-- No two placeholders share a byte, and they come in order. -/
theorem pairwise (laid : Laid text place ps) : ps.Pairwise fun p q => p.stop ≤ q.start := by
  induction laid with
  | nothing => exact .nil
  | cons _ _ _ _ _ _ rest ih => exact .cons rest.behind ih

theorem sound (laid : Laid text place ps) : ∀ p ∈ ps,
    p.start < p.stop ∧ p.stop ≤ text.utf8ByteSize ∧ IsBoundary text p.start ∧
      IsBoundary text p.stop ∧ 1 ≤ p.index ∧ p.index ≤ 99 := by
  induction laid with
  | nothing => nofun
  | cons _ filled start stop low high _ ih =>
    exact List.forall_mem_cons.mpr ⟨⟨filled, stop.le_size, start, stop, low, high⟩, ih⟩

/-- **The text can be cut around any of them.** The cursor of the copy stands on a boundary, and no
placeholder that is still to come begins before it. -/
theorem exists_fillSlices? (laid : Laid text place ps) (given : Placeholder → Option String)
    {copied : Nat} (boundary : IsBoundary text copied) (before : copied ≤ place) :
    ∃ filled, fillSlices? text given copied ps = some filled := by
  induction laid generalizing copied with
  | nothing => exact exists_slice? boundary (isBoundary_size text) boundary.le_size
  | @cons place p ps behind filled start stop low high rest ih =>
    have before := Nat.le_trans before behind
    cases argument : given p with
    | none =>
      -- the cursor stays where it is, and so falls further back
      obtain ⟨shown, eq⟩ := ih boundary (Nat.le_trans before (Nat.le_of_lt filled))
      refine ⟨shown, ?_⟩
      rw [fillSlices?, argument]
      exact eq
    | some argument' =>
      obtain ⟨part, cut⟩ := exists_slice? boundary start before
      obtain ⟨shown, eq⟩ := ih stop (Nat.le_refl p.stop)
      refine ⟨part ++ argument' ++ shown, ?_⟩
      rw [fillSlices?, argument]
      dsimp only
      rw [cut, eq]
      rfl

end Laid

/-! ## The placeholders of a text -/

theorem length_encode (cs : List Char) : (encode cs).length = (String.ofList cs).utf8ByteSize := by
  rw [← String.toList_ofList (l := cs), ← byteChars_eq, byteChars, List.length_map,
    String.toList_ofList]
  rfl

theorem size_append_ofList (front : String) (cs : List Char) :
    (front ++ String.ofList cs).utf8ByteSize = front.utf8ByteSize + (encode cs).length := by
  rw [String.utf8ByteSize_append, length_encode]

theorem append_ofList (front : String) (cs ds : List Char) :
    front ++ String.ofList (cs ++ ds) = front ++ String.ofList cs ++ String.ofList ds := by
  rw [String.ofList_append, String.append_assoc]

theorem places_plains (cs : List Char) (place : Nat) (items : List Item) :
    places place (cs.map Item.plain ++ items) = places (place + cs.length) items := by
  induction cs generalizing place with
  | nil => rfl
  | cons c cs ih =>
    rw [List.map_cons, List.cons_append, places, ih, List.length_cons, Nat.add_assoc,
      Nat.add_comm 1]

/-- A character takes up its bytes. -/
theorem places_encode_plain (front : String) (c : Char) (items : List Item) :
    places front.utf8ByteSize ((Item.plain c :: items).flatMap Item.encode)
      = places (front ++ String.ofList [c]).utf8ByteSize (items.flatMap Item.encode) := by
  have same : encode [c] = encodeChar c := List.append_nil (encodeChar c)
  rw [List.flatMap_cons, Item.encode, places_plains, size_append_ofList, same]

/-- A placeholder takes up as many bytes as characters. -/
theorem places_encode_argument (front : String) {digits : List Char}
    (decimal : ∀ d ∈ digits, d.isDigit = true) (items : List Item) :
    places front.utf8ByteSize ((Item.argument digits :: items).flatMap Item.encode)
      = ⟨front.utf8ByteSize, (front ++ String.ofList ('%' :: digits)).utf8ByteSize,
          denoted digits⟩ ::
        places (front ++ String.ofList ('%' :: digits)).utf8ByteSize
          (items.flatMap Item.encode) := by
  have size : (front ++ String.ofList ('%' :: digits)).utf8ByteSize
      = front.utf8ByteSize + 1 + digits.length := by
    rw [size_append_ofList, encode_cons_percent, encode_of_decimal decimal, List.length_cons]
    omega
  rw [size]
  rfl

/-- The numbers do not depend on how places are counted. -/
theorem index_places_encode (items : List Item) (place place' : Nat) :
    (places place (items.flatMap Item.encode)).map Placeholder.index
      = (places place' items).map Placeholder.index := by
  induction items generalizing place place' with
  | nil => rfl
  | cons item items ih =>
    cases item with
    | plain c =>
      rw [List.flatMap_cons, Item.encode, places_plains]
      exact ih _ _
    | argument digits => exact congrArg (denoted digits :: ·) (ih _ _)

/-- **The placeholders of a reading stand between the characters of the text.** -/
theorem laid_places {cs : List Char} {items : List Item} (reads : Reads cs items)
    {text front : String} (whole : text = front ++ String.ofList cs) :
    Laid text front.utf8ByteSize (places front.utf8ByteSize (items.flatMap Item.encode)) := by
  induction reads generalizing front with
  | nothing => exact .nothing
  | @plain c cs items _ _ ih =>
    rw [places_encode_plain]
    exact (ih (whole.trans (append_ofList front [c] cs))).weaken (size_le_append front _)
  | @percent cs _ _ items _ _ _ ih =>
    rw [places_encode_plain]
    exact (ih (whole.trans (append_ofList front ['%'] cs))).weaken (size_le_append front _)
  | @argument cs digits behind items run counted _ ih =>
    have after : text = front ++ String.ofList ('%' :: digits) ++ String.ofList behind := by
      rw [whole, run.split]
      exact append_ofList front ('%' :: digits) behind
    rw [places_encode_argument front run.decimal]
    refine .cons (Nat.le_refl _) ?_ ?_ ?_ counted ?_ (ih after)
    · rw [size_append_ofList, encode_cons_percent, List.length_cons]
      exact Nat.lt_add_of_pos_right (Nat.succ_pos _)
    · rw [whole]
      exact isBoundary_append front _
    · rw [after]
      exact isBoundary_append _ _
    · exact Nat.le_of_lt_succ (denoted_lt run.decimal run.short)

/-- **The parts and the arguments make up the filled text.** What has been read but not copied is
`pending`. -/
theorem fillSlices?_places {cs : List Char} {items : List Item} (reads : Reads cs items)
    (arguments : List String) {text front pending : String}
    (whole : text = front ++ pending ++ String.ofList cs) :
    fillSlices? text (fun p => arguments[p.index - 1]?) front.utf8ByteSize
        (places (front ++ pending).utf8ByteSize (items.flatMap Item.encode))
      = some (pending ++
          String.ofList (items.flatMap (Item.shown (arguments.map String.toList)))) := by
  induction reads generalizing front pending with
  | nothing =>
    have cut := slice?_append front pending ""
    rw [String.append_empty] at cut
    have all : text = front ++ pending := whole.trans String.append_empty
    show slice? text front.utf8ByteSize text.utf8ByteSize = some (pending ++ "")
    rw [String.append_empty, all]
    exact cut
  | @plain c cs items _ _ ih =>
    have next : text = front ++ (pending ++ String.ofList [c]) ++ String.ofList cs := by
      rw [← String.append_assoc]
      exact whole.trans (append_ofList (front ++ pending) [c] cs)
    rw [places_encode_plain, String.append_assoc, ih next, ← append_ofList]
    rfl
  | @percent cs _ _ items _ _ _ ih =>
    have next : text = front ++ (pending ++ String.ofList ['%']) ++ String.ofList cs := by
      rw [← String.append_assoc]
      exact whole.trans (append_ofList (front ++ pending) ['%'] cs)
    rw [places_encode_plain, String.append_assoc, ih next, ← append_ofList]
    rfl
  | @argument cs digits behind items run counted _ ih =>
    have after : text
        = front ++ pending ++ String.ofList ('%' :: digits) ++ String.ofList behind := by
      rw [whole, run.split]
      exact append_ofList (front ++ pending) ('%' :: digits) behind
    rw [places_encode_argument _ run.decimal, fillSlices?, List.flatMap_cons, Item.shown,
      List.getElem?_map]
    cases argument : arguments[denoted digits - 1]? with
    | none =>
      -- the placeholder stays, and is copied with what follows it
      have next : text
          = front ++ (pending ++ String.ofList ('%' :: digits)) ++ String.ofList behind := by
        rw [← String.append_assoc]
        exact after
      dsimp only
      rw [String.append_assoc, ih next, ← append_ofList]
      rfl
    | some shown =>
      have cut := slice?_append front pending (String.ofList ('%' :: digits) ++ String.ofList behind)
      rw [← String.append_assoc, ← after] at cut
      have rest := @ih (front ++ pending ++ String.ofList ('%' :: digits)) "" (by
        rw [String.append_empty]
        exact after)
      rw [String.append_empty, String.empty_append] at rest
      dsimp only
      rw [cut, rest, append_ofList, Option.map_some, Option.getD_some, String.ofList_toList]
      rfl

/-- **Nothing goes wrong in the bytes of a text.** The walk over them ends, with every number that it
computes in a byte, and finds what `scan` finds there. What it finds takes up some bytes of the
text, from one boundary between characters to another, one behind the other, and has a number from
1 to 99, the same as in a scan by characters. Then the text can be cut around any of it, whichever
placeholders have an argument, and with the arguments of a list the parts make up the filled
text. -/
theorem scan_safe (text : String) :
    ∃ found, scanBytes? (bytesOf text) 0 = some found ∧
      found = scan (byteChars text) ∧
      found.map Placeholder.index = (scan text.toList).map Placeholder.index ∧
      (∀ p ∈ found, p.start < p.stop ∧ p.stop ≤ text.utf8ByteSize ∧ IsBoundary text p.start ∧
        IsBoundary text p.stop ∧ 1 ≤ p.index ∧ p.index ≤ 99) ∧
      found.Pairwise (fun p q => p.stop ≤ q.start) ∧
      (∀ given : Placeholder → Option String,
        ∃ filled, fillSlices? text given 0 found = some filled) ∧
      ∀ arguments : List String,
        fillSlices? text (fun p => arguments[p.index - 1]?) 0 found
          = some (fill text arguments) := by
  obtain ⟨items, reads⟩ := exists_reads text.toList
  have whole : text = "" ++ String.ofList text.toList := by
    rw [String.empty_append, String.ofList_toList]
  have found : scan (byteChars text) = places 0 (items.flatMap Item.encode) := by
    rw [byteChars_eq]
    exact scanFrom_of_reads reads.encode 0
  have laid : Laid text 0 (scan (byteChars text)) := by
    rw [found]
    exact laid_places reads whole
  refine ⟨scan (byteChars text), scanBytes?_eq (bytesOf text) 0, rfl, ?indices, laid.sound,
    laid.pairwise, fun given => ?given, ?filled⟩
  case indices =>
    rw [found, scan, scanFrom_of_reads reads 0]
    exact index_places_encode items 0 0
  case given =>
    have first := isBoundary_append "" text
    rw [String.empty_append] at first
    exact laid.exists_fillSlices? given first (Nat.le_refl 0)
  case filled =>
    intro arguments
    have made := @fillSlices?_places _ _ reads arguments text "" "" whole
    rw [String.empty_append, ← toList_fill_of_reads reads, String.ofList_toList] at made
    rw [found]
    exact made

end Phrasebook.Placeholder
