import Rollback.CommandLine.Words
import Rollback.Report.Rollback
import Rollback.Settings.Document

/-!
# Invocations

What a command line asks for.

- `Invocation.ofWords`: the request that the words make, or why they make none
-/

set_option autoImplicit false

namespace Rollback.CommandLine

/-- What is to be reversed. -/
inductive ReversalSubject where
  | deployment (source : DeploymentSource)
  /-- All tables of the catalog. -/
  | catalog
  | nothing

/-- A command with what belongs to it. -/
inductive Command where
  | scan (root : String) (save : Bool)
  | reverse (subject : ReversalSubject) (targets : RollbackTargets) (useCatalog strict : Bool)
  | classify (paths : List String)
  | inspect (name : Option String)
  | verify (root : String)

/-- What a command line asks for. -/
structure Invocation where
  configPath : Option String
  /-- Settings that count more than all others. -/
  overrides : SettingsLayer
  /-- Whether the output is to be read by programs. -/
  json : Bool
  quiet : Bool
  command : Command

/-- Options that may stand before and after the name of a command. -/
def generalForms : List OptionForm :=
  [⟨"config", some 'c', .text⟩, ⟨"catalog", none, .path⟩, ⟨"json", none, .flag⟩,
    ⟨"quiet", some 'q', .flag⟩, ⟨"verbose", some 'v', .flag⟩]

/-- Options of the command that scans. -/
def scanForms : List OptionForm :=
  [⟨"skip-dirs", none, .texts⟩, ⟨"no-save", none, .flag⟩]

/-- Options of the command that reverses. -/
def reverseForms : List OptionForm :=
  [⟨"files", none, .paths⟩, ⟨"manifest", none, .path⟩, ⟨"from-catalog", none, .flag⟩,
    ⟨"output", some 'o', .path⟩, ⟨"per-file", none, .path⟩, ⟨"prefix", none, .text⟩,
    ⟨"no-annotate", none, .flag⟩, ⟨"no-catalog", none, .flag⟩, ⟨"strict", none, .flag⟩]

/-- Refuses the command line if a condition holds. -/
def refuseIf (condition : Bool) : Except Refusal Unit :=
  if condition then .error .usage else .ok ()

/-- The root of a repository: the operand, or the working directory. -/
def rootOf (g : Given) : String :=
  g.operands.head?.getD "."

/-- Refuses options that contradict each other. -/
def refuseConflicts (g : Given) : Except Refusal Unit := do
  let units := !g.operands.isEmpty
  let files := g.has "files"
  let manifest := g.has "manifest"
  refuseIf (units && (files || manifest))
  refuseIf (files && manifest)
  refuseIf (g.has "from-catalog" &&
    (units || files || manifest || g.has "per-file" || g.has "no-catalog"))

/-- What is to be reversed. -/
def subjectOf (g : Given) : ReversalSubject :=
  if g.has "from-catalog" then .catalog
  else
    match g.value? "manifest", (g.values? "files").getD [], g.operands with
    | some path, _, _ => .deployment (.manifest path)
    | none, file :: files, _ => .deployment (.files (file :: files))
    | none, [], unit :: units => .deployment (.directories (unit :: units))
    | none, [], [] => .nothing

/-- The options and operands of a command. -/
structure CommandForm where
  options : List OptionForm
  operands : OperandForm

/-- The form of the command with some name. -/
def CommandForm.ofName? (name : String) : Option CommandForm :=
  match name with
  | "scan" => some ⟨scanForms, .path⟩
  | "reverse" => some ⟨reverseForms, .paths⟩
  | "classify" => some ⟨[], .paths⟩
  | "inspect" => some ⟨[], .text⟩
  | "verify" => some ⟨[], .path⟩
  | _ => none

/-- A command with its options and operands. -/
def commandOf (name : String) (g : Given) : Except Refusal Command :=
  match name with
  | "scan" => .ok (.scan (rootOf g) (!g.has "no-save"))
  | "reverse" => do
    refuseConflicts g
    return .reverse (subjectOf g) ⟨g.value? "output", g.value? "per-file"⟩ (!g.has "no-catalog")
      (g.has "strict")
  | "classify" => do
    refuseIf g.operands.isEmpty
    return .classify g.operands
  | "inspect" => .ok (.inspect g.operands.head?)
  | "verify" => .ok (.verify (rootOf g))
  | _ => .error .usage

/-- The settings that the options of a command give. -/
def overridesOf (general command : Given) : SettingsLayer :=
  { SettingsLayer.empty with
    catalogPath := command.value? "catalog" <|> general.value? "catalog"
    skippedDirectories := command.values? "skip-dirs"
    filePrefix := command.value? "prefix"
    annotate := if command.has "no-annotate" then some false else none }

/-- The request for information about a command that the word `help` makes. -/
def helpRefusal : List String → Refusal
  | [] => .help
  | [name] => if name == "help" || (CommandForm.ofName? name).isSome then .help else .usage
  | _ => .usage

/-- The request that the words make, or why they make none. -/
def Invocation.ofWords (words : List String) : Except Refusal Invocation := do
  let (general, rest) ← readWords generalForms .command .nothing words
  match rest with
  | [] => .error .usage
  | name :: rest =>
    match CommandForm.ofName? name with
    | none => .error (if name == "help" then helpRefusal rest else .usage)
    | some form =>
      let (given, _) ← readWords (generalForms ++ form.options) form.operands .nothing rest
      let command ← commandOf name given
      let either (name : String) : Bool := given.has name || general.has name
      return ⟨given.value? "config" <|> general.value? "config", overridesOf general given,
        either "json", either "quiet", command⟩

end Rollback.CommandLine
