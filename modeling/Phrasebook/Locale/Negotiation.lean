import Phrasebook.Locale.Tag

/-!
# Choosing a tag for a request

A request rarely names an available tag to the letter: the system asks for `pt`, a user for
`pt-BR`, and `pt-PT` is there. `negotiate` settles a request in three tiers and depends only on
which tags are available, not on their order.

- `Match`: the outcome, with the tier it was found in.
- `negotiate`: the tag itself; else the bare language, else the least tag of that language;
  else the language of the messages.
-/

namespace Phrasebook.Locale

/-- What a request led to. -/
inductive Match where
  /-- The requested tag is available. -/
  | exact (tag : Tag)
  /-- Another tag of the requested language was chosen. -/
  | language (tag : Tag)
  /-- Nothing fits, and messages are shown as they were written. -/
  | source
deriving DecidableEq

/-- The chosen tag, unless messages are shown as they were written. -/
def Match.tag? : Match → Option Tag
  | .exact tag => some tag
  | .language tag => some tag
  | .source => none

/-- The first of two tags in the order of their texts; the left one if they are equal. -/
def Tag.least (t u : Tag) : Tag :=
  if compare u t = .lt then u else t

/-- The least tag of a list. -/
def leastTag? : List Tag → Option Tag
  | [] => none
  | t :: ts => some (ts.foldl Tag.least t)

/-- The available tags of the requested language, in order. There is no need to know them when
the requested tag itself comes up. -/
def relatives? (requested : Tag) : List Tag → Option (List Tag)
  | [] => some []
  | t :: ts =>
    if t = requested then
      none
    else
      (relatives? requested ts).map fun found =>
        if t.sameLanguage requested then t :: found else found

/-- Chooses among the available tags. -/
def negotiate (requested : Tag) (available : List Tag) : Match :=
  match relatives? requested available with
  | none => .exact requested
  | some sameLanguage =>
    match sameLanguage.find? Tag.isLanguageOnly with
    | some bare => .language bare
    | none =>
      match leastTag? sameLanguage with
      | some tag => .language tag
      | none => .source

end Phrasebook.Locale
