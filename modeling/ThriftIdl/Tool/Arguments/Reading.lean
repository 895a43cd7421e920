import ThriftIdl.Text.Similarity
import ThriftIdl.Text.Split
import ThriftIdl.Tool.Arguments.Rejection
import ThriftIdl.Tool.Command

/-!
# Reading arguments

The arguments are read from left to right, and the first thing wrong with them decides. An option
waits for its value, and operands wait for more of them, until the next option or the end; only then
are they checked. After two dashes every argument is an operand.
-/

namespace ThriftIdl

namespace Arguments

/-- What has been read and not been checked yet. -/
inductive Pending where
  | nothing
  /-- An option and its value, if that has come. -/
  | option (option : OptionShape) (value : Option String)
  /-- Operands in a row. -/
  | operands (texts : List String)
  deriving DecidableEq, Repr

/-- What has been read of the arguments of a command. -/
structure Progress where
  /-- The options that were given, each once. -/
  given : List OptionShape
  /-- The values of the option that takes values. -/
  values : List String
  operands : List String
  pending : Pending
  /-- Whether two dashes were read. -/
  escaped : Bool
  deriving DecidableEq, Repr

namespace Progress

/-- Nothing read yet. -/
def start : Progress := ⟨[], [], [], .nothing, false⟩

/-- Notes an option. -/
def give (progress : Progress) (option : OptionShape) : Progress :=
  if option ∈ progress.given then progress
  else { progress with given := progress.given ++ [option] }

/-- Notes the values that a text has between its commas. -/
def addValues (progress : Progress) (option : OptionShape) (text : String) : Progress :=
  let noted := progress.give option
  { noted with values := noted.values ++ Split.text (· == ',') text }

/-- Takes what has been waiting as it is; an option that has no value does not count. -/
def absorb (progress : Progress) : Progress :=
  let absorbed := { progress with pending := .nothing }
  match progress.pending with
  | .nothing | .option _ none => absorbed
  | .option option (some text) => absorbed.addValues option text
  | .operands texts => { absorbed with operands := absorbed.operands ++ texts }

/-- Checks what has been waiting. -/
def settle (shape : CommandShape) (progress : Progress) : Except Rejection Progress :=
  match progress.pending with
  | .option option none => .error (.emptyValue option.text)
  | .operands texts =>
    if texts.contains "" then
      .error (.emptyValue ((shape.operand.map OperandShape.text).getD ""))
    else .ok progress.absorb
  | _ => .ok progress.absorb

/-- How many operands have been read. -/
def operandCount (progress : Progress) : Nat :=
  progress.operands.length +
    match progress.pending with
    | .operands texts => texts.length
    | _ => 0

end Progress

/-- Does what an option without a value asks for. -/
def react (shape : CommandShape) (progress : Progress) (option : OptionShape) :
    Except Rejection Progress := do
  let settled ← progress.settle shape
  match option.purpose with
  | .help => .error (.help shape)
  | .version => .error .version
  | .values _ => .ok { settled with pending := .option option none }
  | .flag =>
    if option ∈ settled.given then .error (.repeatedFlag shape option)
    else .ok (settled.give option)

/-- The option of a subcommand that is similar to a name; the subcommand is among the arguments. -/
def optionOfSubcommand? (name : String) (shapes : List (String × CommandShape))
    (remaining : List String) : Option (String × String) :=
  remaining.findSome? fun word =>
    (shapes.find? fun (subcommand, _) => subcommand = word).bind fun (subcommand, shape) =>
      (Similarity.candidates name (shape.options.map OptionShape.long)).getLast?.map
        fun long => (subcommand, long)

/-- The shapes of the subcommands that have options. -/
def subshapes (shape : CommandShape) : List (String × CommandShape) :=
  if shape.subcommands.isEmpty then []
  else
    [(CommandShape.toJsonName, CommandShape.toJson),
      (CommandShape.validateName, CommandShape.validate)]

/-- How messages show the usage once some options and operands were given. -/
def usageAfter (progress : Progress) : Usage :=
  if progress.given.isEmpty && progress.operands.isEmpty then .general else .given progress.given

/-- How messages show the usage when an option has a value that it does not need. -/
def usageWith (progress : Progress) (option : OptionShape) : Usage :=
  let given := (progress.give option).given
  if progress.given.isEmpty && progress.operands.isEmpty then .given given else .choice given

/-- The rejection of an unknown long option. -/
def unknownLong (shape : CommandShape) (progress : Progress) (name : String)
    (remaining : List String) : Rejection :=
  let absorbed := progress.absorb
  let argument := "--" ++ name
  match (Similarity.candidates name (shape.options.map OptionShape.long)).getLast? with
  | some long =>
    let known := (shape.long? long).elim absorbed absorbed.give
    .unknownArgument shape (usageAfter known) argument (some (.similarOption long))
  | none =>
    match optionOfSubcommand? name (subshapes shape) remaining with
    | some (subcommand, long) =>
      .unknownArgument shape (usageAfter absorbed) argument (some (.optionOf subcommand long))
    | none =>
      .unknownArgument shape (usageAfter absorbed) argument
        (if shape.operand.isSome then some .escape else none)

/-- Reads a long option, whose name may have a value behind an equals sign. -/
def readLong (shape : CommandShape) (progress : Progress) (text : String)
    (remaining : List String) : Except Rejection Progress :=
  match Split.once (· == '=') text with
  | (name, value) =>
    match shape.long? name with
    | none => .error (unknownLong shape progress name remaining)
    | some option =>
      match option.purpose, value with
      | _, none => react shape progress option
      | .values _, some value =>
        (progress.settle shape).map fun settled => settled.addValues option value
      | _, some value =>
        .error (.unneededValue shape (usageWith progress option) option value)

/-- Reads letters that each stand for an option. -/
def readLetters (shape : CommandShape) (progress : Progress) :
    List Char → Except Rejection Progress
  | [] => .ok progress
  | letter :: letters =>
    match shape.short? letter with
    | none =>
      .error (.unknownArgument shape .general ("-" ++ String.singleton letter)
        (if shape.operand.isSome then some .escape else none))
    | some option => do
      let after ← react shape progress option
      readLetters shape after letters

/-- Reads an operand. -/
def readOperand (shape : CommandShape) (progress : Progress) (text : String) :
    Except Rejection Progress :=
  match shape.operand with
  | none =>
    if progress.escaped then
      .error <|
        if text ∈ shape.subcommandNames then
          .unknownArgument shape .general text (some .unescape)
        else .unknownSubcommand shape text (Similarity.candidates text shape.subcommandNames)
    else .error (.unknownSubcommand shape text (Similarity.candidates text shape.subcommandNames))
  | some operand =>
    if !operand.repeated && 0 < progress.operandCount then
      .error (.unknownArgument shape .general text
        (if !progress.escaped && text.toList.head? = some '-' && text != "-" then some .escape
          else none))
    else
      match progress.pending with
      | .operands texts => .ok { progress with pending := .operands (texts ++ [text]) }
      | _ =>
        (progress.settle shape).map fun settled => { settled with pending := .operands [text] }

/-- Reads one argument; `remaining` are those behind it. -/
def readArgument (shape : CommandShape) (progress : Progress) (argument : String)
    (remaining : List String) : Except Rejection Progress :=
  if progress.escaped then readOperand shape progress argument
  else
    match argument.toList with
    | ['-', '-'] => .ok { progress with escaped := true }
    | '-' :: '-' :: text => readLong shape progress (String.ofList text) remaining
    | '-' :: letter :: letters => readLetters shape progress (letter :: letters)
    | _ =>
      match progress.pending with
      | .option option none =>
        .ok { progress with pending := .option option (some argument) }
      | _ => readOperand shape progress argument

/-- Reads the arguments of a command without subcommands. -/
def readAll (shape : CommandShape) : Progress → List String → Except Rejection Progress
  | progress, [] => do
    let settled ← progress.settle shape
    match shape.operand with
    | some operand =>
      if settled.operands.isEmpty then .error (.missingOperand shape operand settled.given)
      else .ok settled
    | none => .ok settled
  | progress, argument :: remaining => do
    let after ← readArgument shape progress argument remaining
    readAll shape after remaining

/-- Whether a flag was given. -/
def has (progress : Progress) (long : String) : Bool :=
  progress.given.any fun option => option.long = long

/-- The command that converts a file. -/
def toJsonOf (progress : Progress) : Command :=
  .toJson
    { compact := has progress CommandShape.compact.long
      keepAnnotations := has progress CommandShape.keepAnnotationsName
      file := progress.operands.headD "" }

/-- The extensions where none are asked for. -/
def defaultExtensions : List String := ["thrift"]

/-- The command that validates files. -/
def validateOf (progress : Progress) : Command :=
  .validate
    { extensions :=
        if has progress CommandShape.extensions.long then progress.values else defaultExtensions
      keepAnnotations := has progress CommandShape.keepAnnotationsName
      paths := progress.operands }

/-- What the command that explains others is asked for. -/
def explain : List String → Rejection
  | [] => .help .program
  | word :: words =>
    if word = CommandShape.helpName then words.head?.elim .helpOnHelp .noSubcommandOfHelp
    else
      match (subshapes .program).lookup word with
      | none => .unknownSubcommand .program word []
      | some shape =>
        words.head?.elim (.help shape) fun word => .unknownSubcommand shape word []

end Arguments

/-- What the arguments of the program say. -/
structure Invocation where
  verbose : Bool
  command : Option Command
  deriving DecidableEq, Repr

namespace Invocation

open Arguments

/-- Reads the arguments up to the subcommand and then those of the subcommand. -/
def ofArgumentsFrom : Progress → List String → Except Rejection Invocation
  | progress, [] => .ok ⟨has progress CommandShape.verbose.long, none⟩
  | progress, argument :: remaining => do
    let verbose := has progress CommandShape.verbose.long
    if !progress.escaped && argument = CommandShape.toJsonName then
      let read ← readAll .toJson .start remaining
      return ⟨verbose, some (toJsonOf read)⟩
    else if !progress.escaped && argument = CommandShape.validateName then
      let read ← readAll .validate .start remaining
      return ⟨verbose, some (validateOf read)⟩
    else if !progress.escaped && argument = CommandShape.helpName then
      .error (explain remaining)
    else
      let after ← readArgument .program progress argument remaining
      ofArgumentsFrom after remaining

/-- Reads the arguments of the program. -/
def ofArguments (arguments : List String) : Except Rejection Invocation :=
  ofArgumentsFrom .start arguments

end Invocation

end ThriftIdl
