import ThriftIdl.Grammar.Action

/-!
# Rules

The grammar is data: a rule is built from tokens by sequence, choice, option and repetition, and
`Rule.run` gives it a meaning. Whatever holds of each constructor therefore holds of the whole
grammar by one induction.
-/

namespace ThriftIdl

/-- A rule of the grammar whose values have the given type. -/
inductive Rule : Type → Type 1 where
  /-- Matches nothing. -/
  | pure {α : Type} (value : α) : Rule α
  /-- One rule and then another that may depend on its value. -/
  | bind {α β : Type} (first : Rule α) (next : α → Rule β) : Rule β
  /-- A token with the gap behind it. -/
  | token {α : Type} (terminal : Token α) : Rule α
  /-- A separator, which may be absent. -/
  | separator : Rule Bool
  /-- The first of several rules that matches. -/
  | choice {α : Type} {count : Nat} (expected : String) (alternatives : Fin count → Rule α) :
      Rule α
  /-- A rule that may be absent. -/
  | optional {α : Type} (rule : Rule α) : Rule (Option α)
  /-- A rule as often as it matches. -/
  | many {α : Type} (rule : Rule α) : Rule (List α)
  /-- A rule one level deeper. -/
  | nested {α : Type} (rule : Rule α) : Rule α
  /-- The refusal of values or types that nest too deeply. -/
  | refuseNesting {α : Type} : Rule α

namespace Rule

instance : Monad Rule where
  pure := Rule.pure
  bind := Rule.bind

/-- Reads what a rule matches. -/
def run {α : Type} : Rule α → Action α
  | .pure value => Action.succeed value
  | .bind first next => Action.andThen first.run fun value => (next value).run
  | .token terminal => Action.take terminal
  | .separator => Action.separator
  | .choice expected alternatives =>
    Action.choice expected (List.ofFn fun index => (alternatives index).run)
  | .optional rule => Action.optional rule.run
  | .many rule => Action.many rule.run
  | .nested rule => Action.nested rule.run
  | .refuseNesting => Action.refuseNesting

/-- The first rule of a list that matches. -/
def oneOf {α : Type} (expected : String) (alternatives : List (Rule α)) : Rule α :=
  .choice expected alternatives.get

/-- A name. -/
def identifier : Rule String := .token .identifier

/-- A certain word. -/
def keyword (word : String) : Rule String := .token (.keyword word)

/-- A certain punctuation mark. -/
def mark (byte : UInt8) : Rule Unit := .token (.mark byte)

/-- A rule with another value. -/
def as {α β : Type} (rule : Rule α) (value : β) : Rule β := .bind rule fun _ => .pure value

/-- A rule with the separator that may follow it. -/
def separated {α : Type} (rule : Rule α) : Rule α :=
  .bind rule fun value => .bind .separator fun _ => .pure value

end Rule

end ThriftIdl
