import Phrasebook.Command.Words
import Phrasebook.Environment
import Phrasebook.Locale.Tag
import Phrasebook.Storage.Pathname

/-!
# Commands

What a command line consists of, and the commands with their arguments:

    [--config <PATH>] [--dir <PATH>] <COMMAND>

    check [--strict] <FILE>...
    report [--json]
    lookup [--locale <TAG>] --context <TEXT> [--arg <TEXT>]... <SOURCE>
    languages
    set-language <TAG>

The two options before the command may stand behind it as well, and each may be given in the
environment instead. Nearer to the command counts more, and the environment counts least.

- `Command`: the commands with their arguments.
- `Invocation`: a command, and where its settings and catalogs are.
- `Request.parse`: what a command line asks for.
-/

namespace Phrasebook

open CommandLine Phrasebook.Locale Storage

/-- What is to be done. -/
inductive Command where
  /-- Read catalogs and summarise each; with `strict`, be content with clean ones only. -/
  | check (files : List Pathname) (strict : Bool)
  /-- Report on every catalog in the directory, as text or as JSON. -/
  | report (asJson : Bool)
  /-- Show one message as a program would. -/
  | lookup (locale : Option Tag) (context source : String) (arguments : List String)
  /-- List the catalogs in the directory with the names of their languages. -/
  | languages
  /-- Remember a language in the settings. -/
  | setLanguage (tag : Tag)
deriving DecidableEq

/-- A command, and what it is to use instead of the usual. -/
structure Invocation where
  /-- The file of settings. -/
  config : Option Pathname
  /-- The directory of catalogs. -/
  directory : Option Pathname
  command : Command
deriving DecidableEq

/-- What a command line asks for. -/
inductive Request where
  | run (invocation : Invocation)
  | showHelp
  | showVersion
  /-- The command line is not understood. -/
  | refuse
deriving DecidableEq

/-! ## What is said of the tool -/

/-- The name of the tool and the number of its version. -/
def versionText : String :=
  "leap-i18n 0.1.0"

/-- How the tool is used. -/
def usageText : String :=
  "Usage: leap-i18n [--config <PATH>] [--dir <PATH>] <COMMAND>\n\n" ++
  "Commands:\n" ++
  "  check [--strict] <FILE>...\n" ++
  "  report [--json]\n" ++
  "  lookup [--locale <TAG>] --context <TEXT> [--arg <TEXT>]... <SOURCE>\n" ++
  "  languages\n" ++
  "  set-language <TAG>"

namespace CommandLine

/-! ## The grammar -/

/-- Any text. -/
def anyText : Parameter where
  accepts _ := true

/-- The path of a file or directory. -/
def somePath : Parameter where
  accepts word := !word.isEmpty

/-- The tag of a locale. -/
def someTag : Parameter where
  accepts word := (Tag.parse word).toOption.isSome

/-- The options that may stand on either side of the command. -/
def commonOption? : String → Option Parameter
  | "config" | "dir" => some somePath
  | _ => none

/-- The names of the commands. -/
def commandNames : List String :=
  ["check", "report", "lookup", "languages", "set-language"]

/-- The words before a command. -/
def outerGrammar : Grammar where
  option? := commonOption?
  commands := "help" :: commandNames
  showsVersion := true

/-- The words behind a command. -/
def innerGrammar : String → Grammar
  | "check" => {
      option? := commonOption?
      flags := ["strict"]
      operand? := fun _ => some somePath }
  | "report" => {
      option? := commonOption?
      flags := ["json"] }
  | "lookup" => {
      option?
        | "locale" => some someTag
        | "context" => some anyText
        | "arg" => some { anyText with repeats := true }
        | name => commonOption? name
      operand? := fun n => if n = 0 then some anyText else none }
  | "set-language" => {
      option? := commonOption?
      operand? := fun n => if n = 0 then some someTag else none }
  | _ => { option? := commonOption? }

/-- The tag that a word names. -/
def tag? (word : String) : Option Tag :=
  (Tag.parse word).toOption

/-- The command with a name and the words behind it, unless some are missing. -/
def command? (name : String) (found : Found) : Option Command :=
  match name, found.operands with
  | "check", file :: files =>
    some (.check ((file :: files).map Pathname.mk) (found.has "strict"))
  | "report", [] => some (.report (found.has "json"))
  | "lookup", [source] =>
    (found.option? "context").map fun context =>
      .lookup ((found.option? "locale").bind tag?) context source (found.values "arg")
  | "languages", [] => some .languages
  | "set-language", [word] => (tag? word).map .setLanguage
  | _, _ => none

/-! ## Reading -/

/-- The value of a common option, from both sides of the command and from the environment. The
environment is looked at unless the option stands on both sides, and must not name an empty
path. -/
def commonValue (variableValue : Option String) (outer inner : Found) (name : String) :
    Except Stop (Option Pathname) :=
  match outer.option? name, inner.option? name with
  | some _, some nearer => .ok (some ⟨nearer⟩)
  | farther, nearer =>
    if variableValue = some "" then .error .misuse
    else .ok (((nearer.or farther).or variableValue).map Pathname.mk)

/-- The words behind a request for help may name one command. -/
def helpStop : List String → Stop
  | [] => .help
  | [name] => if outerGrammar.commands.contains name then .help else .misuse
  | _ => .misuse

/-- The invocation that a command line stands for. -/
def invocation (environment : Environment) (words : List String) : Except Stop Invocation := do
  match ← outerGrammar.read words with
  | (_, []) => throw .misuse
  | (_, "help" :: words) => throw (helpStop words)
  | (outer, name :: words) =>
    let (inner, _) ← (innerGrammar name).read words
    let config ← commonValue (environment "LEAP_I18N_CONFIG") outer inner "config"
    let directory ← commonValue (environment "LEAP_I18N_DIR") outer inner "dir"
    match command? name inner with
    | some command => return { config, directory, command }
    | none => throw .misuse

end CommandLine

/-- What a command line asks for. -/
def Request.parse (environment : Environment) (words : List String) : Request :=
  match CommandLine.invocation environment words with
  | .ok invocation => .run invocation
  | .error .help => .showHelp
  | .error .version => .showVersion
  | .error .misuse => .refuse

end Phrasebook
