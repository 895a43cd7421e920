import ThriftIdl.Text.Split

/-!
# File trees

What a command sees of a disk: for each path either a file or a directory together with its
canonical path, or the reason why there is nothing. A finite tree of files without links gives such
a view, and `FileNode.visits` lists everything at or under a path.
-/

namespace ThriftIdl

/-- A file with its bytes, or a directory with its named entries. -/
inductive FileNode where
  | file (content : List UInt8)
  | directory (entries : List (String × FileNode))
  deriving Repr, Inhabited

/-- Why there is nothing at a path. -/
inductive Missing where
  /-- A name does not occur in its directory. -/
  | notFound
  /-- A name is looked up in a file. -/
  | notDirectory
  /-- The path or a name in it is longer than any on a disk. -/
  | tooLong
  /-- The path holds a character that no path on a disk can hold. -/
  | notPath
  deriving DecidableEq, Repr

namespace Missing

/-- The reason in words. -/
def message : Missing → String
  | .notFound => "No such file or directory (os error 2)"
  | .notDirectory => "Not a directory (os error 20)"
  | .tooLong => "File name too long (os error 36)"
  | .notPath => "file name contained an unexpected NUL byte"

end Missing

/-- What is at a path, and the canonical path of the same place. -/
structure Located where
  canonicalPath : String
  node : FileNode
  deriving Repr, Inhabited

/-- What a command sees of a disk. -/
abbrev Disk := String → Except Missing Located

namespace Path

/-- Whether a character separates the components of a path. -/
def isSlash (character : Char) : Bool := character == '/'

/-- How many bytes a path on a disk has at most. -/
def maxSize : Nat := 4095

/-- How many bytes a name on a disk has at most. -/
def maxNameSize : Nat := 255

/-- Why a text is no path on any disk. -/
def flaw? (path : String) : Option Missing :=
  if path.toList.contains '\x00' then some .notPath
  else if maxSize < path.utf8ByteSize then some .tooLong
  else none

/-- The path of an entry of a directory. -/
def join (directory name : String) : String :=
  if directory.toList.getLast? = some '/' then directory ++ name
  else directory ++ "/" ++ name

/-- The last component of a path, without a slash behind it. -/
def fileName (path : String) : String :=
  match ((Split.text isSlash path).filter fun part => part != "" && part != ".").getLast? with
  | some name => name
  | none => ""

/-- The text behind the last dot of a file name, unless the name has no other character before. -/
def fileExtension? (path : String) : Option String :=
  let name := fileName path
  if name = ".." then none
  else
    let parts := Split.parts (· == '.') name.toList
    match parts.dropLast with
    | [] => none
    | [[]] => none
    | _ => parts.getLast?.map String.ofList

/--
What two spellings of one path have in common: whether it starts at the root, and its components.
Slashes may be repeated or stand at the end, and single dots mean nothing except at the beginning.
-/
def components (path : String) : Bool × List String :=
  let parts := Split.text isSlash path
  let named := (parts.drop 1).filter fun part => part != "" && part != "."
  match parts with
  | [] => (false, [])
  | [""] => (false, [])
  | "" :: _ => (true, named)
  | first :: _ => (false, first :: named)

end Path

namespace FileNode

/-- The way from the root of a tree to a place in it, the innermost name first. -/
abbrev Trail := List (String × FileNode)

/-- Goes one component further. -/
def step (root : FileNode) (trail : Trail) (component : String) : Except Missing Trail :=
  match (trail.head?.map Prod.snd).getD root with
  | .file _ => .error .notDirectory
  | .directory entries =>
    if component = "" || component = "." then .ok trail
    else if component = ".." then .ok trail.tail
    else if Path.maxNameSize < component.utf8ByteSize then .error .tooLong
    else
      match entries.lookup component with
      | none => .error .notFound
      | some node => .ok ((component, node) :: trail)

/-- The canonical path of the end of a trail. -/
def canonicalPath (rootPath : String) (trail : Trail) : String :=
  trail.foldr (fun (name, _) path => Path.join path name) rootPath

/--
The view of a tree from its root, which has the given canonical path. Paths are relative to the
root; nothing outside the tree exists.
-/
def disk (rootPath : String) (root : FileNode) : Disk := fun path =>
  match Path.flaw? path with
  | some flaw => .error flaw
  | none =>
    if path.isEmpty || path.toList.head? = some '/' then .error .notFound
    else
      ((Split.text Path.isSlash path).foldlM (step root) []).map fun trail =>
        ⟨canonicalPath rootPath trail, (trail.head?.map Prod.snd).getD root⟩

/-- Replaces the entry of a name, or appends one if there is none. -/
def putEntry (name : String) (node : FileNode) :
    List (String × FileNode) → List (String × FileNode)
  | [] => [(name, node)]
  | (other, old) :: rest =>
    if other = name then (name, node) :: rest else (other, old) :: putEntry name node rest

/-- Puts a node at a place in a tree, with all directories on the way there. -/
def insert (tree : FileNode) : List String → FileNode → FileNode
  | [], node => node
  | name :: names, node =>
    let entries := match tree with
      | .file _ => []
      | .directory entries => entries
    let child := (entries.lookup name).getD (.directory [])
    .directory (putEntry name (child.insert names node) entries)

/-- Something at or under a path: the path as it was given and continued, and the contents. -/
structure Visit where
  path : String
  canonicalPath : String
  /-- The bytes of a file; a directory has none. -/
  content : Option (List UInt8)

mutual

/-- Everything at or under a path, each directory before its entries. -/
def visits (path canonicalPath : String) : FileNode → List Visit
  | .file content => [⟨path, canonicalPath, some content⟩]
  | .directory entries =>
    ⟨path, canonicalPath, none⟩ :: visitsOfEntries path canonicalPath entries

/-- Everything under a directory. -/
def visitsOfEntries (path canonicalPath : String) : List (String × FileNode) → List Visit
  | [] => []
  | (name, node) :: rest =>
    visits (Path.join path name) (Path.join canonicalPath name) node
      ++ visitsOfEntries path canonicalPath rest

end

end FileNode

end ThriftIdl
