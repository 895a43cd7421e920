import ThriftIdl.Text.Terminal
import ThriftIdl.Tool.Arguments.Rejection

/-!
# Help and usage errors

The texts for people who ask how to use the program or who use it wrongly. Explanations stand next
to what they explain as long as they fit, and otherwise on a line of their own.
-/

namespace ThriftIdl

namespace CommandShape

/-- The usage of a command: whatever it can take. -/
def generalUsage (shape : CommandShape) : String :=
  shape.name ++ " [OPTIONS]"
    ++ (match shape.operand with | some operand => " " ++ operand.text | none => "")
    ++ if shape.subcommands.isEmpty then "" else " [COMMAND]"

/-- The usage of a command: the options that were given, and what is required. -/
def givenUsage (shape : CommandShape) (options : List OptionShape) : String :=
  shape.name ++ String.join (options.map fun option => " " ++ option.text)
    ++ match shape.operand with | some operand => " " ++ operand.text | none => ""

/-- All that steers a run of a command: its options and its operand. -/
def steering (shape : CommandShape) : List String :=
  (shape.options.filter OptionShape.steers).map OptionShape.text
    ++ (shape.operand.map OperandShape.placeholder).toList

/-- The usage of a command: the given options that steer no run, and a choice of all that does. -/
def choiceUsage (shape : CommandShape) (options : List OptionShape) : String :=
  let others := options.filter fun option => !option.steers
  shape.name ++ String.join (others.map fun option => " " ++ option.text)
    ++ " <" ++ "|".intercalate shape.steering ++ ">"

/-- The usage of a command. -/
def usage (shape : CommandShape) : Usage → String
  | .general => shape.generalUsage
  | .given options => shape.givenUsage options
  | .choice options => shape.choiceUsage options

end CommandShape

namespace HelpText

/-- How many columns a line has. -/
def width : Nat := 100

/-- A text with blanks behind it up to a width. -/
def padded (text : String) (columns : Nat) : String :=
  text ++ String.ofList (List.replicate (columns - text.length) ' ')

/-- An entry: how it is introduced, what it is, and its explanation. -/
structure Entry where
  lead : String
  term : String
  explanation : String

/-- The width of the longest term. -/
def longest (entries : List Entry) : Nat :=
  entries.foldl (fun columns entry => max columns entry.term.length) 0

/-- Whether an explanation is too long for the columns that the terms leave. -/
def overflows (entries : List Entry) (entry : Entry) : Bool :=
  let taken := longest entries + 12
  taken ≤ width && 2 * width < 5 * taken && width - taken < entry.explanation.length

/-- Entries under a heading. -/
def titled (heading : String) (entries : List Entry) : String :=
  let columns := longest entries
  let line (entry : Entry) : String :=
    if entries.any (overflows entries) then
      entry.lead ++ entry.term ++ "\n          " ++ entry.explanation
    else entry.lead ++ padded entry.term columns ++ "  " ++ entry.explanation
  "\n" ++ heading ++ ":\n" ++ "\n".intercalate (entries.map line) ++ "\n"

/-- The entry of an option. -/
def ofOption (option : OptionShape) : Entry :=
  let lead :=
    match option.short with
    | some letter => "  -" ++ String.singleton letter ++ ", "
    | none => "      "
  ⟨lead, option.text, option.explanation⟩

/-- The entry of an operand. -/
def ofOperand (operand : OperandShape) : Entry := ⟨"  ", operand.text, operand.explanation⟩

/-- The entry of a subcommand. -/
def ofSubcommand (subcommand : String × String) : Entry := ⟨"  ", subcommand.1, subcommand.2⟩

/-- The explanation of a command. -/
def ofCommand (shape : CommandShape) : String :=
  shape.about ++ "\n\nUsage: " ++ shape.generalUsage ++ "\n"
    ++ (if shape.subcommands.isEmpty then ""
      else titled "Commands" (shape.subcommands.map ofSubcommand))
    ++ (match shape.operand with
      | some operand => titled "Arguments" [ofOperand operand]
      | none => "")
    ++ titled "Options" (shape.options.map ofOption)

/-- The usage of the command that explains others. -/
def usageOfHelp : String :=
  CommandShape.programName ++ " " ++ CommandShape.helpName ++ " [COMMAND]..."

/-- The explanation of the command that explains others. -/
def ofHelp : String :=
  CommandShape.helpAbout ++ "\n\nUsage: " ++ usageOfHelp ++ "\n"
    ++ titled "Arguments" [⟨"  ", "[COMMAND]...", "Print help for the subcommand(s)"⟩]

end HelpText

namespace Rejection

/-- A word between single quotes. -/
def named (word : String) : String := "'" ++ word ++ "'"

/-- A word that the user wrote: what steers a terminal is not repeated to the user. -/
def echoed (word : String) : String := named (Terminal.plain word)

/-- The last line of errors of commands that can be asked for help. -/
def closing : String := "\nFor more information, try '--help'.\n"

/-- An error with a usage. -/
def withUsage (message : String) (usage : String) : String :=
  "error: " ++ message ++ "\n\nUsage: " ++ usage ++ "\n"

/-- A suggestion on a line of its own. -/
def tipLine (text : String) : String := "\n\n  tip: " ++ text

/-- What may have been meant by an unknown argument. -/
def tipText (argument : String) : Tip → String
  | .escape => "to pass " ++ echoed argument ++ " as a value, use " ++ echoed ("-- " ++ argument)
  | .similarOption long => "a similar argument exists: " ++ named ("--" ++ long)
  | .optionOf subcommand long => named (subcommand ++ " --" ++ long) ++ " exists"
  | .unescape =>
    "subcommand " ++ echoed argument ++ " exists; to use it, remove the " ++ named "--"
      ++ " before it"

/-- The message that there is no such subcommand. -/
def unknownSubcommandText (word : String) : String := "unrecognized subcommand " ++ echoed word

/-- What may have been meant by an unknown subcommand. -/
def similarText : List String → String
  | [] => ""
  | [word] => tipLine ("a similar subcommand exists: " ++ named word)
  | words =>
    tipLine ("some similar subcommands exist: " ++ ", ".intercalate (words.map named))

/-- The text that the program prints. -/
def text : Rejection → String
  | .help shape => HelpText.ofCommand shape
  | .helpOnHelp => HelpText.ofHelp
  | .version => CommandShape.programName ++ " " ++ CommandShape.version ++ "\n"
  | .missingOperand shape operand given =>
    withUsage ("the following required arguments were not provided:\n  " ++ operand.text)
      (shape.givenUsage given) ++ closing
  | .repeatedFlag shape option =>
    withUsage ("the argument " ++ named option.text ++ " cannot be used multiple times")
      shape.generalUsage ++ closing
  | .unneededValue shape usage option value =>
    withUsage ("unexpected value " ++ echoed value ++ " for " ++ named option.text
      ++ " found; no more were expected") (shape.usage usage) ++ closing
  | .emptyValue placeholder =>
    "error: a value is required for " ++ named placeholder ++ " but none was supplied\n" ++ closing
  | .unknownArgument shape usage argument tip =>
    withUsage ("unexpected argument " ++ echoed argument ++ " found"
      ++ (tip.map fun tip => tipLine (tipText argument tip)).getD "") (shape.usage usage) ++ closing
  | .unknownSubcommand shape word similar =>
    withUsage (unknownSubcommandText word ++ similarText similar) shape.generalUsage ++ closing
  | .noSubcommandOfHelp word => withUsage (unknownSubcommandText word) HelpText.usageOfHelp

/-- The exit code of the program. -/
def exitCode (rejection : Rejection) : Nat := if rejection.isExplanation then 0 else 2

end Rejection

end ThriftIdl
