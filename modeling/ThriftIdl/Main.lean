import ThriftIdl.Tool.Program

/-!
# The executable

Looks at the disk as far as the arguments ask for it, runs the program on what it saw, and prints
the result.
-/

namespace ThriftIdl

/-- Loads a file, or a directory with all its entries. -/
partial def loadNode (path : String) : IO FileNode := do
  let resolved ← IO.FS.realPath path
  if ← resolved.isDir then
    let entries ← resolved.readDir
    let nodes ← entries.toList.mapM fun entry => do
      return (entry.fileName, ← loadNode entry.path.toString)
    return .directory nodes
  else
    let content ← IO.FS.readBinFile resolved
    return .file content.data.toList

/-- Looks for a path on the disk. -/
def locate (path : String) : IO (Except Missing Located) := do
  if path.isEmpty then return .error .notFound
  try
    let place := (← IO.currentDir) / path
    let _ ← place.metadata
    let resolved ← IO.FS.realPath place
    return .ok ⟨resolved.toString, ← loadNode resolved.toString⟩
  catch error =>
    match error with
    | .inappropriateType .. => return .error .notDirectory
    | .invalidArgument .. => return .error .tooLong
    | _ => return .error .notFound

/-- The view of the disk at some paths. -/
def viewOf (paths : List String) : IO Disk := do
  let places ← paths.mapM fun path => do return (path, ← locate path)
  return fun path => (places.lookup path).getD (.error .notFound)

end ThriftIdl

open ThriftIdl

/-- Runs the program with its arguments. -/
def main (arguments : List String) : IO UInt32 := do
  let environment ← IO.getEnv LogLevel.variableName
  let paths := match Invocation.ofArguments arguments with
    | .ok ⟨_, some command⟩ => command.paths
    | _ => []
  let disk ← viewOf paths
  let exit := Program.run arguments disk environment
  IO.print exit.output
  IO.eprint exit.errorOutput
  return UInt32.ofNat exit.code
