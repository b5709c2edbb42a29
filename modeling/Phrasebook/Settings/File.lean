import Phrasebook.Settings.Basic

/-!
# Files of settings

- `SettingsFault`: why settings could not be loaded or saved.
- `Settings.load`: the settings in a file. A file that does not exist has the defaults.
- `Settings.saveAs`, `Settings.save`: writes settings to a file, after the directories on the way
  to it.
-/

namespace Phrasebook

open Storage

/-- Why settings could not be loaded or saved. -/
inductive SettingsFault where
  /-- The platform has no place for settings. -/
  | noPlatformDirectory
  /-- A file or directory could not be read or written. -/
  | inaccessible (path : Pathname)
  /-- The file does not hold settings. -/
  | malformed
deriving DecidableEq, Repr

/-- The wording of a fault. What the system says of a file and what is wrong with a text would
follow; both are left out, since the first differs by the system and nothing here tells the
second. -/
def SettingsFault.message : SettingsFault → String
  | noPlatformDirectory => "could not determine platform config directory"
  | inaccessible path => "I/O error accessing config at " ++ path.text
  | malformed => "failed to parse config TOML"

namespace Settings

/-- The file for the settings of this program, as a result. -/
def platformPath (environment : Environment) : Except SettingsFault Pathname :=
  match platformPath? environment with
  | some path => .ok path
  | none => .error .noPlatformDirectory

/-- The settings that a file at `path` with some content holds. -/
def ofContent (path : Pathname) : Except AccessError Bytes → Except SettingsFault Settings
  | .ok bytes =>
    match textOf? bytes with
    | none => .error (.inaccessible path)
    | some text =>
      match ofToml? text with
      | none => .error .malformed
      | some settings => .ok settings
  | .error .notFound => .ok {}
  | .error _ => .error (.inaccessible path)

variable {m : Type → Type} [Monad m] [MonadStorage m]

/-- The settings in a file. -/
def load (path : Pathname) : ExceptT SettingsFault m Settings :=
  ExceptT.mk do return ofContent path (← MonadStorage.read path)

/-- A request whose failure is put down to a path. -/
def accessing {α : Type} (path : Pathname) (request : m (Except AccessError α)) :
    ExceptT SettingsFault m α :=
  ExceptT.mk do return (← request).mapError fun _ => .inaccessible path

/-- Creates the directories on the way to a file. -/
def prepare (path : Pathname) : ExceptT SettingsFault m Unit :=
  match path.parent? with
  | some directory => accessing directory (MonadStorage.createDirectories directory)
  | none => pure ()

/-- Writes settings to a file, as the text that they have if they have one. -/
def saveAs (text? : Settings → Except SettingsFault String) (settings : Settings)
    (path : Pathname) : ExceptT SettingsFault m Unit := do
  prepare path
  let text ← ExceptT.mk (pure (text? settings))
  accessing path (MonadStorage.write path (bytesOf text))

/-- Writes settings to a file. -/
def save : Settings → Pathname → ExceptT SettingsFault m Unit :=
  saveAs fun settings => .ok settings.toml

end Settings

end Phrasebook
