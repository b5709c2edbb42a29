import Phrasebook.Storage.Pathname

/-!
# Access to files

What the rest of the library asks of a file system. It is asked of a monad, so that one
definition runs on real files and on a `Tree` in memory.

- `AccessError`: why a request failed.
- `bytesOf`, `textOf?`: a text as the content of a file.
- `MonadStorage`: the requests.
-/

namespace Phrasebook.Storage

/-- Why a file or a directory was not to be had. -/
inductive AccessError where
  /-- There is nothing at the path. -/
  | notFound
  /-- The path leads through something that is not a directory, or ends there. -/
  | notDirectory
  /-- The path names a directory where a file was asked for. -/
  | isDirectory
  /-- The system refused for another reason. -/
  | refused
deriving DecidableEq, Repr

/-- The content of a file. -/
abbrev Bytes := List UInt8

/-- The content of a file that holds a text. -/
def bytesOf (text : String) : Bytes :=
  text.toUTF8.data.toList

/-- The text that a file holds, unless its content is not in UTF-8. -/
def textOf? (bytes : Bytes) : Option String :=
  String.fromUTF8? ⟨bytes.toArray⟩

theorem textOf?_bytesOf (text : String) : textOf? (bytesOf text) = some text := by
  have same : (⟨(bytesOf text).toArray⟩ : ByteArray) = text.toByteArray := rfl
  unfold textOf? String.fromUTF8?
  split
  · rfl
  · next invalid => exact absurd (same ▸ text.isValidUTF8) invalid

/-- A monad with files. A request that fails says why. -/
class MonadStorage (m : Type → Type) where
  /-- The bytes of a file. -/
  read : Pathname → m (Except AccessError Bytes)
  /-- The names in a directory, in no particular order. -/
  list : Pathname → m (Except AccessError (List String))
  /-- Creates a directory and those on the way to it, as far as they do not exist. -/
  createDirectories : Pathname → m (Except AccessError Unit)
  /-- Writes a file anew. The directory it lies in has to exist. -/
  write : Pathname → Bytes → m (Except AccessError Unit)

end Phrasebook.Storage
