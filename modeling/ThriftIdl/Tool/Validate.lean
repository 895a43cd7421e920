import ThriftIdl.Reading.Basic
import ThriftIdl.Tool.Annotations
import ThriftIdl.Tool.Content
import ThriftIdl.Tool.Report

/-!
# The command that validates files

Every file at or under the given paths is selected if its extension is one of those asked for. If
none is, a single path that leads to a file is taken at its word. The selected files are then read;
one that cannot be read does not keep the others from being read.
-/

namespace ThriftIdl

/-- What the user asks of the validation. -/
structure Validate where
  extensions : List String
  keepAnnotations : Bool
  paths : List String
  deriving DecidableEq, Repr

/-- A file that is to be validated. -/
structure SelectedFile where
  canonicalPath : String
  content : List UInt8

namespace Validate

/-- Items between brackets. -/
def listed (items : List String) : String :=
  "[" ++ ", ".intercalate (items.map Quoted.text) ++ "]"

/-- The request as the log shows it. -/
def description (request : Validate) : String :=
  "ValidateCmd \x7b thrift_file_exts: " ++ listed request.extensions
    ++ ", keep_annotations: " ++ Report.truth request.keepAnnotations
    ++ ", file_or_dir_paths: " ++ listed request.paths ++ " \x7d"

/-- The extensions asked for, without the dots in front of them. -/
def plainExtensions (request : Validate) : List String :=
  (request.extensions.map fun text =>
    String.ofList (text.toList.dropWhile (· == '.'))).eraseDups

/-- What a walk at and under a path has come by, or why there is nothing. -/
abbrev Walk := Except Missing (List FileNode.Visit)

/-- The walk at and under a path that takes the entries of directories in their order. -/
def walk (disk : Disk) (path : String) : Walk :=
  (disk path).map fun located => located.node.visits path located.canonicalPath

/-- Whether the extension of a file is one of those asked for. -/
def wants (request : Validate) (visit : FileNode.Visit) : Bool :=
  (Path.fileExtension? visit.path).any request.plainExtensions.contains

/-- What the search for files has found. -/
structure Search where
  selected : List SelectedFile
  /-- How many files have another extension. -/
  skipped : Nat
  /-- The paths that lead nowhere. -/
  missing : List (String × Missing)
  log : List LogRecord

namespace Search

/-- Nothing found yet. -/
def empty : Search := ⟨[], 0, [], []⟩

/-- What two searches have found, one after the other. -/
def append (first second : Search) : Search :=
  ⟨first.selected ++ second.selected, first.skipped + second.skipped,
    first.missing ++ second.missing, first.log ++ second.log⟩

end Search

/-- Takes note of one place. -/
def searchVisit (request : Validate) (visit : FileNode.Visit) : Search :=
  match visit.content with
  | none => ⟨[], 0, [], [⟨.trace, "Skipping non-file: " ++ Quoted.text visit.path ++ "."⟩]⟩
  | some content =>
    if request.wants visit then
      ⟨[⟨visit.canonicalPath, content⟩], 0, [],
        [⟨.trace, "Found Thrift file at " ++ Quoted.text visit.path ++ "."⟩]⟩
    else ⟨[], 1, [], []⟩

/-- Takes note of the walk at and under a path. -/
def searchWalk (request : Validate) (path : String) : Walk → Search
  | .error missing =>
    ⟨[], 0, [(path, missing)],
      [⟨.trace, "Encountered an error while iterating recursive filesystem entities at/under "
        ++ Quoted.text path ++ "."⟩]⟩
  | .ok visits => (visits.map request.searchVisit).foldl Search.append .empty

/-- The only path, if there is one path and it leads to a file. -/
def onlyFile? (request : Validate) (disk : Disk) : Option (String × SelectedFile) :=
  match request.paths with
  | [path] =>
    match disk path with
    | .ok ⟨canonicalPath, .file content⟩ => some (path, ⟨canonicalPath, content⟩)
    | _ => none
  | _ => none

/-- The warning about a file with another extension. -/
def otherExtensionRecord (request : Validate) (path : String) : LogRecord :=
  ⟨.warn, "Proceeding to validate " ++ Quoted.text path
    ++ " even though it doesn't match any of the --thrift-file-exts ("
    ++ ", ".intercalate (request.plainExtensions.map fun extension => "`." ++ extension ++ "`")
    ++ ")."⟩

/-- Takes note of the walks at and under all paths. -/
def searchWalks (request : Validate) (walks : List (String × Walk)) : Search :=
  (walks.map fun (path, walk) => request.searchWalk path walk).foldl Search.append .empty

/-- Selects the only path after all, if nothing has been selected and it leads to a file. -/
def orOnlyFile (request : Validate) (disk : Disk) (found : Search) : Search :=
  match found.selected, request.onlyFile? disk with
  | [], some (path, file) =>
    { found with
      selected := [file]
      skipped := found.skipped - 1
      log := found.log ++ [request.otherExtensionRecord path] }
  | _, _ => found

/-- Searches all paths on the given walks. -/
def searchAlong (request : Validate) (disk : Disk) (walks : List (String × Walk)) : Search :=
  request.orOnlyFile disk (request.searchWalks walks)

/-- Searches all paths. -/
def search (request : Validate) (disk : Disk) : Search :=
  request.searchAlong disk (request.paths.map fun path => (path, walk disk path))

/-- What is read from the text of a file. -/
def reading (request : Validate) (source : String) : Reading :=
  Reading.ofSource (Annotations.prepare request.keepAnnotations source) 0

/-- The number of declarations in a file, or why it is invalid; and the records. -/
def checkFile (request : Validate) (file : SelectedFile) :
    Except String Nat × List LogRecord :=
  match (FileNode.file file.content).text file.canonicalPath with
  | .error error =>
    (.error ("failed to load " ++ Quoted.text file.canonicalPath ++ ": "
      ++ error.messageWithCause), [])
  | .ok source =>
    let reading := request.reading source
    match reading.document with
    | .error error => (.error (error.detailed (some file.canonicalPath)), reading.log)
    | .ok document =>
      (.ok document.size, reading.log ++
        [⟨.trace, "Validated " ++ Quoted.text file.canonicalPath ++ " ("
          ++ Numeral.ofNat document.size ++ " declarations)."⟩])

/-- The error about a path that leads nowhere. -/
def missingMessage (path : String) (missing : Missing) : String :=
  "IO error for operation on " ++ path ++ ": " ++ missing.message ++ ": " ++ missing.message

/-- The error of an outcome, if it is one. -/
def errorOf? {α : Type} : Except String α → Option String
  | .ok _ => none
  | .error message => some message

/-- The number of declarations in a valid file. -/
def countOf : Except String Nat → Nat
  | .ok count => count
  | .error _ => 0

/-- The report of a failed validation. -/
def failureText (failed analyzed : Nat) (messages : List String) : String :=
  Report.failureMark ++ " " ++ Numeral.ofNat failed ++ " of " ++ Numeral.ofNat analyzed
    ++ " Thrift files failed validation (" ++ Numeral.ofNat messages.length ++ " errors):\n\n"
    ++ "\n\n".intercalate messages

/-- The report of a successful validation. -/
def successText (analyzed skipped declarations : Nat) : String :=
  Report.successMark ++ " All Thrift validated successfully:\n"
    ++ "  * Analyzed " ++ Numeral.ofNat analyzed ++ " files.\n"
    ++ "  * Skipped " ++ Numeral.ofNat skipped ++ " non-thrift files.\n"
    ++ "  * Parsed " ++ Numeral.ofNat declarations ++ " declarations."

/-- Validates the files that were found. -/
def report (request : Validate) (found : Search) : Report :=
  let checks := found.selected.map request.checkFile
  let outcomes := checks.map Prod.fst
  let fileErrors := outcomes.filterMap errorOf?
  let errors := (found.missing.map fun (path, missing) => missingMessage path missing) ++ fileErrors
  let log :=
    [⟨.debug, "Scanning " ++ Numeral.ofNat request.paths.length ++ " input paths..."⟩]
      ++ found.log
      ++ [⟨.debug, "Found " ++ Numeral.ofNat found.selected.length
        ++ " Thrift files to be validated."⟩]
      ++ checks.flatMap Prod.snd
  if errors.isEmpty then
    let declarations := outcomes.foldl (fun total outcome => total + countOf outcome) 0
    ⟨true, successText found.selected.length found.skipped declarations, log⟩
  else ⟨false, failureText fileErrors.length found.selected.length errors, log⟩

/-- Validates the files at and under the paths. -/
def run (request : Validate) (disk : Disk) : Report := request.report (request.search disk)

end Validate

end ThriftIdl
