import Phrasebook.Command.Run

/-!
# The command line tool

Answers the requests of a command with the files of the system, and shows the outcome: what the
command has written on standard output, a failure on standard error. The exit status is 0 if all
went well, 1 after a failure and 2 if the command line is not understood.
-/

namespace Phrasebook

open Storage

/-- The variables of the environment that the tool looks at. -/
def variableNames : List String :=
  ["LEAP_I18N_CONFIG", "LEAP_I18N_DIR", "XDG_CONFIG_HOME", "HOME", "LC_ALL", "LC_MESSAGES",
    "LANG"]

/-- The reason for an error of the system. -/
def accessError : IO.Error → AccessError
  | .noFileOrDirectory .. => .notFound
  | _ => .refused

/-- The result of an action on files. -/
def attempt {α : Type} (action : IO α) : IO (Except AccessError α) := do
  try
    return .ok (← action)
  catch e =>
    return .error (accessError e)

instance : MonadStorage IO where
  read p := attempt do return (← IO.FS.readBinFile p.text).data.toList
  list p := attempt do
    let directory : IO.FS.DirEntry := { root := p.text, fileName := "" }
    return (← directory.root.readDir).toList.map IO.FS.DirEntry.fileName
  createDirectories p := attempt (unless p.text.isEmpty do IO.FS.createDirAll p.text)
  write p bytes := attempt (IO.FS.writeBinFile p.text ⟨bytes.toArray⟩)

/-- The environment of the process. -/
def processEnvironment : IO Environment := do
  let settings ← variableNames.filterMapM fun name => do
    return (← IO.getEnv name).map fun value => (name, value)
  return Environment.ofList settings

end Phrasebook

open Phrasebook in
/-- Runs the command that the arguments ask for. -/
def main (arguments : List String) : IO UInt32 := do
  let environment ← processEnvironment
  match Request.parse environment arguments with
  | .showVersion =>
    IO.println versionText
    return 0
  | .showHelp =>
    IO.println usageText
    return 0
  | .refuse =>
    IO.eprintln usageText
    return 2
  | .run invocation =>
    let outcome ← invocation.run (m := IO) environment
    IO.print outcome.output
    match outcome.failure with
    | none => return 0
    | some failure =>
      IO.eprintln ("Error: " ++ failure.message)
      return 1
