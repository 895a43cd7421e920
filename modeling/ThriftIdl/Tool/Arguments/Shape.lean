/-!
# The shape of the command line

Which options, operands and subcommands there are, with the sentences that explain them. Reading
arguments and writing help are both driven by these descriptions.
-/

namespace ThriftIdl

/-- What an option is for. -/
inductive OptionPurpose where
  /-- It is either given or not. -/
  | flag
  /-- It takes a text, which may hold several values with commas between them. -/
  | values (placeholder : String)
  /-- It asks for help. -/
  | help
  /-- It asks for the version. -/
  | version
  deriving DecidableEq, Repr

/-- An option. -/
structure OptionShape where
  long : String
  short : Option Char
  purpose : OptionPurpose
  explanation : String
  deriving DecidableEq, Repr

namespace OptionShape

/-- The option as messages show it. -/
def text (option : OptionShape) : String :=
  match option.purpose with
  | .values placeholder => "--" ++ option.long ++ " <" ++ placeholder ++ ">"
  | _ => "--" ++ option.long

/-- Whether the option steers a run; the other options ask for an explanation instead of a run. -/
def steers (option : OptionShape) : Bool :=
  match option.purpose with
  | .flag | .values _ => true
  | .help | .version => false

/-- The option that asks for help. -/
def help : OptionShape := ⟨"help", some 'h', .help, "Print help"⟩

end OptionShape

/-- An operand, which is always required. -/
structure OperandShape where
  placeholder : String
  /-- Whether there may be more than one. -/
  repeated : Bool
  explanation : String
  deriving DecidableEq, Repr

namespace OperandShape

/-- The operand as messages show it. -/
def text (operand : OperandShape) : String :=
  "<" ++ operand.placeholder ++ ">" ++ if operand.repeated then "..." else ""

end OperandShape

/-- A command with its full name. -/
structure CommandShape where
  name : String
  about : String
  options : List OptionShape
  operand : Option OperandShape
  /-- The subcommands and what they do. -/
  subcommands : List (String × String)
  deriving DecidableEq, Repr

namespace CommandShape

/-- The name of the program. -/
def programName : String := "thrift"

/-- The version of the program. -/
def version : String := "0.1.0"

/-- The option for more output. -/
def verbose : OptionShape :=
  ⟨"verbose", some 'v', .flag,
    "Enable verbose output. Overrides the `LOG_LEVEL` environment variable."⟩

/-- The option for JSON on one line. -/
def compact : OptionShape :=
  ⟨"compact", none, .flag, "Print compact single-line JSON instead of pretty-printed JSON."⟩

/-- The name of the option that keeps annotations. -/
def keepAnnotationsName : String := "keep-annotations"

/-- The option for the extensions of files. -/
def extensions : OptionShape :=
  ⟨"thrift-file-exts", none, .values "THRIFT_FILE_EXTS",
    "Set of file extensions to filter to when searching for files within a directory. "
      ++ "[default: thrift]"⟩

/-- The name of the command that converts a file. -/
def toJsonName : String := "to-json"

/-- The name of the command that validates files. -/
def validateName : String := "validate"

/-- The name of the command that explains others. -/
def helpName : String := "help"

/-- The command that converts a file. -/
def toJson : CommandShape where
  name := programName ++ " " ++ toJsonName
  about := "Parse one Thrift file and print its AST as JSON"
  options :=
    [ compact,
      ⟨keepAnnotationsName, none, .flag,
        "Parse the file as-is instead of first stripping `(js.type = \"Long\")` annotations."⟩,
      OptionShape.help ]
  operand := some ⟨"FILE", false, "Path to the Thrift file to convert."⟩
  subcommands := []

/-- The command that validates files. -/
def validate : CommandShape where
  name := programName ++ " " ++ validateName
  about := "Parse every Thrift file at or under the given paths and report any that fail"
  options :=
    [ extensions,
      ⟨keepAnnotationsName, none, .flag,
        "Parse files as-is instead of first stripping `(js.type = \"Long\")` annotations."⟩,
      OptionShape.help ]
  operand := some
    ⟨"FILE_OR_DIR_PATHS", true,
      "Paths to one or more Thrift files or directories containing Thrift files which need to be "
        ++ "validated."⟩
  subcommands := []

/-- What the command that explains others does. -/
def helpAbout : String := "Print this message or the help of the given subcommand(s)"

/-- The program itself. -/
def program : CommandShape where
  name := programName
  about := "Utilities for parsing and checking Thrift IDL files."
  options := [verbose, OptionShape.help, ⟨"version", some 'V', .version, "Print version"⟩]
  operand := none
  subcommands :=
    [(toJsonName, toJson.about), (validateName, validate.about), (helpName, helpAbout)]

/-- The names of the subcommands. -/
def subcommandNames (shape : CommandShape) : List String := shape.subcommands.map Prod.fst

/-- The option with a long name. -/
def long? (shape : CommandShape) (name : String) : Option OptionShape :=
  shape.options.find? fun option => option.long = name

/-- The option with a letter. -/
def short? (shape : CommandShape) (letter : Char) : Option OptionShape :=
  shape.options.find? fun option => option.short = some letter

end CommandShape

end ThriftIdl
