import Phrasebook.Environment
import Phrasebook.Locale.Tag

/-!
# The locale of a system

A POSIX environment names the user's locale in up to three variables. The first one that says
anything decides, also when what it says is no tag: `LC_ALL=C` asks for no language, whatever
`LANG` says.

- `localeVariables`: the variables, the strongest first.
- `systemLocale?`: the tag an environment asks for.
-/

namespace Phrasebook.Locale

open Text

/-- The variables that can name a locale, the strongest first. -/
def localeVariables : List String :=
  ["LC_ALL", "LC_MESSAGES", "LANG"]

/-- The value of a variable, unless it is blank. -/
def nonBlank? (environment : Environment) (name : String) : Option String :=
  (environment name).filter fun value => !(trimBlanks value.toList).isEmpty

/-- The tag named by the first locale variable that is set and not blank. -/
def systemLocale? (environment : Environment) : Option Tag :=
  (localeVariables.findSome? (nonBlank? environment)).bind fun value =>
    (Tag.parse value).toOption

end Phrasebook.Locale
