/-!
# Words of a command line

A command line is read from left to right, and the first thing wrong with it ends the reading.
Options have a value, which is the next word or stands behind an equals sign; flags have none;
every other word is an operand or the name of a command. A word `--` makes operands of all words
after it.

- `Word.of`: what a single word looks like.
- `Grammar`: the options, flags, operands and commands that are known at some place.
- `Grammar.read`: the words of that place, up to the name of a command.
-/

namespace Phrasebook.CommandLine

/-! ## Single words -/

/-- What a word looks like. -/
inductive Word where
  /-- Two dashes. -/
  | terminator
  /-- A name behind two dashes, perhaps with a value behind an equals sign. -/
  | long (name : List Char) (value : Option (List Char))
  /-- Letters behind a single dash. -/
  | short (letters : List Char)
  | plain
deriving DecidableEq, Repr

/-- What a word looks like. A dash alone is a word like any other. -/
def Word.of (word : List Char) : Word :=
  match word with
  | ['-', '-'] => .terminator
  | '-' :: '-' :: rest =>
    let name := rest.takeWhile (· != '=')
    .long name ((rest.drop name.length).tail?)
  | '-' :: c :: rest => .short (c :: rest)
  | _ => .plain

/-! ## Grammars -/

/-- What a word can stand for. -/
structure Parameter where
  /-- The word has a meaning here. -/
  accepts : String → Bool
  /-- The option may be given more than once. -/
  repeats : Bool := false

/-- What is known at some place of a command line. -/
structure Grammar where
  /-- The option with a name. -/
  option? : String → Option Parameter := fun _ => none
  /-- The names of flags. -/
  flags : List String := []
  /-- The operand after `n` others. -/
  operand? : Nat → Option Parameter := fun _ => none
  /-- The names of commands. -/
  commands : List String := []
  /-- There is a flag for the version. -/
  showsVersion : Bool := false

/-- Why reading ended early. -/
inductive Stop where
  /-- The command line is not understood. -/
  | misuse
  /-- The user wants to know how the program is used. -/
  | help
  /-- The user wants to know its version. -/
  | version
deriving DecidableEq, Repr

/-- The words that were read. -/
structure Found where
  options : List (String × String) := []
  flags : List String := []
  operands : List String := []
deriving DecidableEq, Repr

namespace Found

/-- The value of an option. -/
def option? (found : Found) (name : String) : Option String :=
  found.options.lookup name

/-- The values of an option that may be given more than once. -/
def values (found : Found) (name : String) : List String :=
  (found.options.filter fun option => option.1 == name).map Prod.snd

/-- A flag was given. -/
def has (found : Found) (name : String) : Bool :=
  found.flags.contains name

end Found

namespace Grammar

/-- Adds an option with its value. -/
def addOption (g : Grammar) (found : Found) (name value : String) : Except Stop Found :=
  match g.option? name with
  | none => .error .misuse
  | some parameter =>
    if parameter.accepts value && (parameter.repeats || (found.option? name).isNone) then
      .ok { found with options := found.options ++ [(name, value)] }
    else .error .misuse

/-- Adds a flag. -/
def addFlag (g : Grammar) (found : Found) (name : String) : Except Stop Found :=
  if name = "help" then .error .help
  else if name = "version" ∧ g.showsVersion then .error .version
  else if g.flags.contains name && !found.has name then
    .ok { found with flags := found.flags ++ [name] }
  else .error .misuse

/-- What letters behind a dash ask for. The first one decides, and none is an option. -/
def stopOf (g : Grammar) : List Char → Stop
  | 'h' :: _ => .help
  | 'V' :: _ => if g.showsVersion then .version else .misuse
  | _ => .misuse

/-- Adds an operand. -/
def addOperand (g : Grammar) (found : Found) (word : String) : Except Stop Found :=
  match g.operand? found.operands.length with
  | none => .error .misuse
  | some parameter =>
    if parameter.accepts word then .ok { found with operands := found.operands ++ [word] }
    else .error .misuse

/-- Reads words after `found`. The second component is what follows: the name of a command with
the words behind it, or nothing. -/
def readFrom (g : Grammar) (found : Found) : List String → Except Stop (Found × List String)
  | [] => .ok (found, [])
  | word :: words =>
    match Word.of word.toList with
    | .terminator => do return (← words.foldlM g.addOperand found, [])
    | .long name (some value) => do
      if (g.option? (String.ofList name)).isSome then
        g.readFrom (← g.addOption found (String.ofList name) (String.ofList value)) words
      else throw .misuse
    | .long name none =>
      if (g.option? (String.ofList name)).isSome then
        match words with
        | [] => .error .misuse
        | value :: words => do
          if Word.of value.toList = .plain then
            g.readFrom (← g.addOption found (String.ofList name) value) words
          else throw .misuse
      else do
        g.readFrom (← g.addFlag found (String.ofList name)) words
    | .short letters => .error (g.stopOf letters)
    | .plain =>
      if g.commands.contains word then .ok (found, word :: words)
      else do
        g.readFrom (← g.addOperand found word) words

/-- Reads the words of a place. -/
def read (g : Grammar) (words : List String) : Except Stop (Found × List String) :=
  g.readFrom {} words

end Grammar

end Phrasebook.CommandLine
