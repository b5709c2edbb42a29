import Phrasebook.Proofs.Settings.Written
import Phrasebook.Proofs.Storage.Tree
import Phrasebook.Settings.File

/-!
# Settings that have been saved

Settings are saved in three steps: the directories on the way to the file are created, the text is
made, and the file is written. Only the last one touches what there is.

- `askSave_cases`: how far saving gets.
- `askLoad_of_askSave`: settings that have been saved are loaded.
- `askSave_unspelt`: settings that have no text harm no file.
-/

namespace Phrasebook.Settings

open Storage

/-- What a file of settings holds, and the tree afterwards. -/
def askLoad (path : Pathname) (t : Tree) : Except SettingsFault Settings × Tree :=
  (load path : ExceptT SettingsFault (StateM Tree) Settings).run.run t

/-- Whether settings could be saved, and the tree afterwards. -/
def askSave (text? : Settings → Except SettingsFault String) (settings : Settings)
    (path : Pathname) (t : Tree) : Except SettingsFault Unit × Tree :=
  (saveAs text? settings path : ExceptT SettingsFault (StateM Tree) Unit).run.run t

theorem askLoad_eq (path : Pathname) (t : Tree) :
    askLoad path t = (ofContent path (t.read path), t) :=
  rfl

theorem askLoad_missing {path : Pathname} {t : Tree} (missing : t.read path = .error .notFound) :
    askLoad path t = (.ok {}, t) := by
  rw [askLoad_eq, missing]
  rfl

theorem askLoad_of_read {settings : Settings} {path : Pathname} {t : Tree}
    (read : t.read path = .ok (bytesOf settings.toml)) : askLoad path t = (.ok settings, t) := by
  rw [askLoad_eq, read]
  unfold ofContent
  simp only [textOf?_bytesOf, ofToml?_toml]

/-- Directories are created beside what there is. -/
theorem keeps_prepare (path : Pathname) (t : Tree) :
    Tree.Keeps (fun _ => True) t
      ((prepare path : ExceptT SettingsFault (StateM Tree) Unit).run.run t).2 := by
  unfold prepare
  split
  case h_1 directory _ => exact Tree.keeps_createDirectories t directory
  case h_2 => exact .refl _ t

/-- Saving creates directories, and writes the text of the settings unless something failed. -/
theorem askSave_cases {text? : Settings → Except SettingsFault String} {settings : Settings}
    {path : Pathname} {t t' : Tree} {result : Except SettingsFault Unit}
    (ran : askSave text? settings path t = (result, t')) :
    ∃ ready, Tree.Keeps (fun _ => True) t ready ∧
      ((∃ fault, result = .error fault ∧ t' = ready) ∨
        ∃ text, text? settings = .ok text ∧ result = .ok () ∧
          ready.write path (bytesOf text) = (.ok (), t')) := by
  have kept := keeps_prepare path t
  rw [askSave, saveAs, ask_bind] at ran
  rcases prepared : (prepare path : ExceptT SettingsFault (StateM Tree) Unit).run.run t with
    ⟨fault | done, ready⟩
  · rw [prepared] at ran kept
    cases ran
    exact ⟨t', kept, .inl ⟨fault, rfl, rfl⟩⟩
  rw [prepared] at ran kept
  refine ⟨ready, kept, ?_⟩
  dsimp only at ran
  rw [ask_bind] at ran
  cases spelt : text? settings with
  | error fault =>
    rw [spelt] at ran
    cases ran
    exact .inl ⟨fault, rfl, rfl⟩
  | ok text =>
    rw [spelt] at ran
    have ran : ((ready.write path (bytesOf text)).1.mapError fun _ => .inaccessible path,
      (ready.write path (bytesOf text)).2) = (result, t') := ran
    rcases written : ready.write path (bytesOf text) with ⟨fault | done, left⟩
    · rw [written] at ran
      cases ran
      exact .inl ⟨_, rfl, Tree.eq_of_write_error written⟩
    · rw [written] at ran
      cases ran
      exact .inr ⟨text, rfl, rfl, written⟩

/-- **Settings that have been saved are loaded**, all of them as they were. -/
theorem askLoad_of_askSave {settings : Settings} {path : Pathname} {t t' : Tree}
    (saved : askSave (fun settings => .ok settings.toml) settings path t = (.ok (), t')) :
    askLoad path t' = (.ok settings, t') := by
  obtain ⟨ready, -, ⟨fault, failed, -⟩ | ⟨text, spelt, -, written⟩⟩ := askSave_cases saved
  · cases failed
  · cases spelt
    exact askLoad_of_read (Tree.read_of_write written)

/-- **Settings that have no text** are not saved, and no file is harmed. -/
theorem askSave_unspelt {text? : Settings → Except SettingsFault String} {settings : Settings}
    {fault : SettingsFault} (unspelt : text? settings = .error fault) {path : Pathname}
    {t t' : Tree} {result : Except SettingsFault Unit}
    (ran : askSave text? settings path t = (result, t')) :
    (∃ fault, result = .error fault) ∧ Tree.Keeps (fun _ => True) t t' := by
  obtain ⟨ready, kept, ⟨fault, failed, rfl⟩ | ⟨text, spelt, -⟩⟩ := askSave_cases ran
  · exact ⟨⟨fault, failed⟩, kept⟩
  · rw [unspelt] at spelt
    cases spelt

end Phrasebook.Settings
