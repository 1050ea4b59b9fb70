/-!
# Files

What can go wrong with a file, the content of a file as text, which has to be UTF-8, and what is
used of a file system.
-/

namespace ParamClass

/-- Why a file could not be read or written. -/
inductive FileFault where
  /-- There is no such file. -/
  | notFound
  /-- A part of the path is a file and no directory. -/
  | notDirectory
  /-- It is a directory. -/
  | isDirectory
  /-- The path or a part of it is too long. -/
  | nameTooLong
  /-- The content is not UTF-8. -/
  | notText
  /-- Anything else, in the system's words. -/
  | other (message : String)
  deriving DecidableEq, Repr

/-- The wording of a fault. -/
def FileFault.message : FileFault → String
  | notFound => "No such file or directory (os error 2)"
  | notDirectory => "Not a directory (os error 20)"
  | isDirectory => "Is a directory (os error 21)"
  | nameTooLong => "File name too long (os error 36)"
  | notText => "stream did not contain valid UTF-8"
  | other message => message

/-- The bytes of a file, if it could be read. -/
abbrev FileContent := Except FileFault ByteArray

/-- The text of a file. -/
def FileContent.text (content : FileContent) : Except FileFault String :=
  match content with
  | .error fault => .error fault
  | .ok bytes =>
    match String.fromUTF8? bytes with
    | some text => .ok text
    | none => .error .notText

/-- A file system whose states are of type `σ`. -/
structure FileSystem (σ : Type) where
  /-- Reads the file at a path. -/
  read : σ → String → FileContent
  /-- Writes the file at a path: whether that could be done, and the state afterwards. -/
  write : σ → String → ByteArray → Except FileFault Unit × σ

end ParamClass
