import Std.Data.HashMap
import Phrasebook.Catalog.Entry
import Phrasebook.Markup.Element

/-!
# Location hints

A catalog tells where its messages are used. To keep files small it may leave out the name of a
file that was named just before, and give a line relative to the last line given for that file.

- `Trail`: what a hint can refer back to.
- `lineNumber?`: the line that a hint gives, relative or not.
- `Trail.follow`: the location that a hint stands for, and the trail after it.
-/

namespace Phrasebook.Linguist

open Markup Text

/-- The hints so far, as later hints can refer to them. -/
structure Trail where
  /-- The last file that was named. -/
  file : Option String
  /-- The last line given for each file; hints before any name count for the empty one. -/
  lines : Std.HashMap String Nat

/-- Nothing to refer to. -/
def Trail.start : Trail :=
  ⟨none, ∅⟩

/-- Line numbers have 32 bits. -/
def lineBound : Nat := Nat.pow 2 32

/-- The line that is written, `base` being the line that a signed number is relative to. -/
def writtenLine? (base : Nat) : List Char → Option Nat
  | '+' :: digits => (natural? 10 digits).map fun n => base + n
  | '-' :: digits => (natural? 10 digits).bind fun n => if n ≤ base then some (base - n) else none
  | digits => natural? 10 digits

/-- The line that is written, if it is a line number. -/
def lineNumber? (base : Nat) (written : String) : Option Nat :=
  (writtenLine? base written.toList).filter fun n => n < lineBound

namespace Trail

/-- The name under which the lines of the current file are noted. -/
def fileKey (t : Trail) : String :=
  t.file.getD ""

/-- The last line given for the current file, 0 if there was none. -/
def lastLine (t : Trail) : Nat :=
  t.lines[t.fileKey]?.getD 0

/-- Moves on to the file that a hint names, if it names one. -/
def nameFile (t : Trail) (hint : Element) : Trail :=
  match hint.attribute? "filename" with
  | some file => { t with file := some file }
  | none => t

/-- The location that a hint stands for. -/
def follow (t : Trail) (hint : Element) : Except Fault (Location × Trail) :=
  let here := t.nameFile hint
  match hint.attribute? "line" with
  | none => .ok (⟨here.file, none⟩, here)
  | some written =>
    match lineNumber? here.lastLine written with
    | some n => .ok (⟨here.file, some n⟩, { here with lines := here.lines.insert here.fileKey n })
    | none => .error (.invalidAttribute "location" "line" written hint.position)

/-- The locations that hints stand for, one after the other. -/
def followAll : Trail → List Element → Except Fault (List Location × Trail)
  | t, [] => .ok ([], t)
  | t, hint :: hints => do
    let (location, t) ← t.follow hint
    let (locations, t) ← t.followAll hints
    return (location :: locations, t)

end Trail

end Phrasebook.Linguist
