/-!
# Environments

The settings a program is started with: some names have a value, all others have none. An
empty value is a value.

- `Environment`: the value of each name that is set.
- `Environment.ofList`: the environment of a list of settings.
-/

namespace Phrasebook

/-- The values of the names that are set. -/
abbrev Environment := String → Option String

namespace Environment

/-- The environment of a list of settings, of which the first for a name counts. -/
def ofList (settings : List (String × String)) : Environment :=
  fun name => settings.lookup name

end Environment

end Phrasebook
