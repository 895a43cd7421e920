import ThriftIdl.Tool.Arguments.Shape

/-!
# Rejections

Why the arguments of the program lead to no run: help or the version was asked for, or something is
wrong with them.
-/

namespace ThriftIdl

/-- What may have been meant by an unknown argument. -/
inductive Tip where
  /-- The argument could be an operand behind two dashes. -/
  | escape
  /-- An option has a similar name. -/
  | similarOption (long : String)
  /-- An option of a subcommand has a similar name. -/
  | optionOf (subcommand long : String)
  /-- The argument is a subcommand if the two dashes go. -/
  | unescape
  deriving DecidableEq, Repr

/-- How a message shows the usage of a command. -/
inductive Usage where
  /-- Whatever the command can take. -/
  | general
  /-- Only the options that were given, and what is required. -/
  | given (options : List OptionShape)
  /-- Only the options that were given and steer no run, and a choice of what steers one. -/
  | choice (options : List OptionShape)
  deriving DecidableEq, Repr

/-- Why there is no run. -/
inductive Rejection where
  /-- Help on a command was asked for. -/
  | help (shape : CommandShape)
  /-- Help on the command that explains others was asked for. -/
  | helpOnHelp
  /-- The version was asked for. -/
  | version
  /-- The required operand is missing. -/
  | missingOperand (shape : CommandShape) (operand : OperandShape) (given : List OptionShape)
  /-- A flag was given twice. -/
  | repeatedFlag (shape : CommandShape) (option : OptionShape)
  /-- A flag was given a value. -/
  | unneededValue (shape : CommandShape) (usage : Usage) (option : OptionShape) (value : String)
  /-- Something that needs a value has none. -/
  | emptyValue (placeholder : String)
  /-- There is no such option, or there is one operand too many. -/
  | unknownArgument (shape : CommandShape) (usage : Usage) (argument : String) (tip : Option Tip)
  /-- A command has no such subcommand. -/
  | unknownSubcommand (shape : CommandShape) (word : String) (similar : List String)
  /-- The command that explains others has no subcommands. -/
  | noSubcommandOfHelp (word : String)
  deriving DecidableEq, Repr

namespace Rejection

/-- Whether what was asked for is an explanation, so that nothing is wrong. -/
def isExplanation : Rejection → Bool
  | .help _ | .helpOnHelp | .version => true
  | _ => false

end Rejection

end ThriftIdl
