import ThriftIdl.Text.Quoted
import ThriftIdl.Text.Utf8
import ThriftIdl.Tool.FileTree

/-!
# File contents

Reading a file as text. There are two things that can go wrong: the path leads to no file, or the
file is not UTF-8.
-/

namespace ThriftIdl

/-- Why a path has no text. -/
inductive ContentError where
  /-- The path leads to a directory or to nothing. -/
  | notFile (path : String)
  /-- The file has a fault at which it stops being UTF-8. -/
  | notText (path : String) (content : List UInt8) (fault : Utf8.Fault)
  deriving Repr

namespace ContentError

/-- The error in words. -/
def message : ContentError → String
  | .notFile path => Quoted.text path ++ " is not a file"
  | .notText path _ fault => Quoted.text path ++ " is not valid UTF-8: " ++ fault.message

/-- The error in words, followed by what caused it. -/
def messageWithCause : ContentError → String
  | .notFile path => (notFile path).message
  | .notText path content fault => (notText path content fault).message ++ ": " ++ fault.message

/-- Whether two errors are the same, however their paths are spelled. -/
def same : ContentError → ContentError → Bool
  | .notFile first, .notFile second => Path.components first == Path.components second
  | .notText first firstContent _, .notText second secondContent _ =>
    Path.components first == Path.components second && firstContent == secondContent
  | _, _ => false

end ContentError

namespace FileNode

/-- The text of a file at a path. -/
def text (path : String) : FileNode → Except ContentError String
  | .directory _ => .error (.notFile path)
  | .file content =>
    match Utf8.decode content with
    | .ok characters => .ok (String.ofList characters)
    | .error fault => .error (.notText path content fault)

end FileNode

namespace Disk

/-- The text of the file at a path. -/
def read (disk : Disk) (path : String) : Except ContentError String :=
  match disk path with
  | .error _ => .error (.notFile path)
  | .ok located => located.node.text path

end Disk

end ThriftIdl
