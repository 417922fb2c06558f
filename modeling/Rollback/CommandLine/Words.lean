import Rollback.Text.Pieces

/-!
# Words of a command line

How the words after the name of a program are read: options by name or by letter, with or without a
value, and operands.

- `readWords`: the options and operands up to the end or up to the name of a command
-/

set_option autoImplicit false

namespace Rollback.CommandLine

/-- What an option takes. -/
inductive OptionKind where
  /-- The option takes no value. -/
  | flag
  | text
  /-- A text that is not empty. -/
  | path
  /-- Texts with commas between them; the option may be given several times. -/
  | texts
  /-- Texts that are not empty, with commas between them. -/
  | paths
deriving DecidableEq, Repr

/-- An option. -/
structure OptionForm where
  name : String
  letter : Option Char
  kind : OptionKind
deriving DecidableEq, Repr

/-- The operands that may follow. -/
inductive OperandForm where
  /-- A single operand, which names a command and ends the words that are read. -/
  | command
  /-- At most one text. -/
  | text
  /-- At most one text that is not empty. -/
  | path
  /-- Texts that are not empty. -/
  | paths
deriving DecidableEq, Repr

/-- Why a command line is not run. -/
inductive Refusal where
  /-- The words make no sense. -/
  | usage
  | help
  | version
deriving DecidableEq, Repr

/-- The options that were given, with their values, and the operands. -/
structure Given where
  options : List (String × List String)
  operands : List String
deriving DecidableEq, Repr

namespace Given

/-- Nothing. -/
def nothing : Given := ⟨[], []⟩

/-- The values of an option, if it was given. -/
def values? (g : Given) (name : String) : Option (List String) :=
  g.options.lookup name

/-- The first value of an option, if it was given. -/
def value? (g : Given) (name : String) : Option String :=
  (g.values? name).bind List.head?

/-- Whether an option was given. -/
def has (g : Given) (name : String) : Bool :=
  (g.values? name).isSome

/-- One more operand, where the form admits it. -/
def withOperand (form : OperandForm) (g : Given) (operand : String) : Except Refusal Given :=
  let admitted := match form with
    | .command => false
    | .text => g.operands.isEmpty
    | .path => g.operands.isEmpty && !operand.isEmpty
    | .paths => !operand.isEmpty
  if admitted then .ok { g with operands := g.operands ++ [operand] } else .error .usage

/-- An option that may be given once. -/
def withOption (g : Given) (name : String) (values : List String) : Except Refusal Given :=
  if g.has name then .error .usage else .ok { g with options := (name, values) :: g.options }

/-- More values of an option that may be given several times. -/
def withMore (g : Given) (name : String) (values : List String) : Given :=
  let others := g.options.filter fun option => option.1 != name
  { g with options := (name, (g.values? name).getD [] ++ values) :: others }

/-- An option with the value that was given to it. -/
def withValue (g : Given) (form : OptionForm) (value : String) : Except Refusal Given :=
  let parts := (Text.pieces ',' value.toList).map String.ofList
  match form.kind with
  | .flag => .error .usage
  | .text => g.withOption form.name [value]
  | .path => if value.isEmpty then .error .usage else g.withOption form.name [value]
  | .texts => .ok (g.withMore form.name parts)
  | .paths => if parts.any String.isEmpty then .error .usage else .ok (g.withMore form.name parts)

end Given

/-- The options that ask for information about the program. -/
def informationForms : List (OptionForm × Refusal) :=
  [(⟨"help", some 'h', .flag⟩, .help), (⟨"version", some 'V', .flag⟩, .version)]

/-- What an option asks for, found by a property of its form. -/
def information? (isMeant : OptionForm → Bool) : Option Refusal :=
  (informationForms.find? fun entry => isMeant entry.1).map Prod.snd

/-- An option of some forms, found by a property of its form. -/
def findForm (forms : List OptionForm) (isMeant : OptionForm → Bool) :
    Except Refusal OptionForm :=
  match forms.find? isMeant with
  | some form => .ok form
  | none => .error .usage

/-- The options after one word, and the option that takes the next word as its value, if any. -/
abbrev Awaiting := Given × Option OptionForm

/-- An option with the value in its own word, if there is one there. -/
def giveOption (g : Given) (form : OptionForm) (value : Option String) :
    Except Refusal Awaiting := do
  match form.kind, value with
  | .flag, none => return (← g.withOption form.name [], none)
  | .flag, some _ => .error .usage
  | _, some value => return (← g.withValue form value, none)
  | _, none => return (g, some form)

/-- The options of a word that starts with two hyphens, given without them. -/
def readLong (forms : List OptionForm) (g : Given) (body : List Char) :
    Except Refusal Awaiting := do
  let (name, value) := match Text.cutAtFirst '=' body with
    | some (name, value) => (name, some (String.ofList value))
    | none => (body, none)
  let isMeant := fun (form : OptionForm) => form.name == String.ofList name
  match information? isMeant, value with
  | some refusal, none => .error refusal
  | some _, some _ => .error .usage
  | none, value => giveOption g (← findForm forms isMeant) value

/-- The options of a word that starts with one hyphen, given without it. -/
def readLetters (forms : List OptionForm) (g : Given) : List Char → Except Refusal Awaiting
  | [] => .ok (g, none)
  | c :: rest => do
    let isMeant := fun (form : OptionForm) => form.letter == some c
    match information? isMeant with
    | some refusal => .error refusal
    | none =>
      let form ← findForm forms isMeant
      match form.kind, rest with
      | .flag, _ => readLetters forms (← g.withOption form.name []) rest
      | _, [] => return (g, some form)
      | _, '=' :: value => giveOption g form (some (String.ofList value))
      | _, value => giveOption g form (some (String.ofList value))

/-- Whether a word is read as options. -/
def isOptionWord (word : String) : Bool :=
  match word.toList with
  | '-' :: _ :: _ => true
  | _ => false

/-- The options of a word that is read as options. -/
def readOptionWord (forms : List OptionForm) (g : Given) (word : String) :
    Except Refusal Awaiting :=
  match word.toList with
  | '-' :: '-' :: body => readLong forms g body
  | _ :: body => readLetters forms g body
  | [] => .error .usage

/--
The options and operands of some words, up to the name of a command if one may follow. After two
hyphens there are operands only. A word is refused before a later one is looked at, so what follows
a wrong operand asks for nothing.
-/
def readWords (forms : List OptionForm) (operands : OperandForm) (g : Given) :
    List String → Except Refusal (Given × List String)
  | [] => .ok (g, [])
  | word :: rest =>
    if word == "--" then do
      return (← rest.foldlM (Given.withOperand operands) g, [])
    else if isOptionWord word then do
      let (g, awaiting) ← readOptionWord forms g word
      match awaiting with
      | none => readWords forms operands g rest
      | some form =>
        match rest with
        | [] => .error .usage
        | value :: rest =>
          -- A value that looks like an option must stand in the word of its option.
          if isOptionWord value then .error .usage
          else readWords forms operands (← g.withValue form value) rest
    else if operands == .command then .ok (g, word :: rest)
    else do readWords forms operands (← g.withOperand operands word) rest

end Rollback.CommandLine
