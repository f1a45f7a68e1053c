import ApiClient.Manifest.Parser

/-! The arguments of the program.

A command has options with a value, switches, and at most one operand. A value follows its option
as the next argument, after an equals sign, or right after the letter of the option. No option is
given twice, and after two dashes every argument is an operand.
-/

set_option autoImplicit false

namespace ApiClient.Command

inductive Shell where
  | bash
  | elvish
  | fish
  | powershell
  | zsh
  deriving DecidableEq

def Shell.ofName? : String → Option Shell
  | "bash" => some .bash
  | "elvish" => some .elvish
  | "fish" => some .fish
  | "powershell" => some .powershell
  | "zsh" => some .zsh
  | _ => none

inductive Invocation where
  | generate (config output : String) (dryRun strict : Bool)
  | check (config : String)
  | render (tree : String) (strict : Bool)
  | completions (shell : Shell)
  deriving DecidableEq

inductive Stop where
  | usage
  | help
  | version
  deriving DecidableEq

structure Signature where
  options : List (Char × String) := []
  switches : List String := []
  operands : Nat := 0

structure Given where
  values : List (String × String) := []
  switches : List String := []
  operands : List String := []

namespace Given

def value (given : Given) (name fallback : String) : String :=
  (given.values.lookup name).getD fallback

def hasSwitch (given : Given) (name : String) : Bool :=
  given.switches.contains name

def addValue (given : Given) (name value : String) : Except Stop Given :=
  if value.isEmpty || (given.values.lookup name).isSome then .error .usage
  else .ok { given with values := given.values ++ [(name, value)] }

def addSwitch (given : Given) (name : String) : Except Stop Given :=
  if given.hasSwitch name then .error .usage
  else .ok { given with switches := given.switches ++ [name] }

def addOperand (signature : Signature) (given : Given) (operand : String) : Except Stop Given :=
  if given.operands.length < signature.operands then
    .ok { given with operands := given.operands ++ [operand] }
  else .error .usage

end Given

inductive Form where
  | separator
  | long (name : String) (value : Option String)
  | short (letter : Char) (rest : List Char)
  | operand

def longForm (cs : List Char) : Form :=
  match cs.dropWhile (· != '=') with
  | [] => .long (String.ofList cs) none
  | _ :: value => .long (String.ofList (cs.takeWhile (· != '='))) (some (String.ofList value))

def form (argument : String) : Form :=
  match argument.toList with
  | ['-', '-'] => .separator
  | '-' :: '-' :: name => longForm name
  | '-' :: letter :: rest => .short letter rest
  | _ => .operand

def isOperand (argument : String) : Bool :=
  match form argument with
  | .operand => true
  | _ => false

/-- The value right after the letter of an option; an equals sign in front is not part of it. -/
def attachedValue : List Char → String
  | '=' :: rest => String.ofList rest
  | rest => String.ofList rest

def option? (signature : Signature) : Form → Option (String × Option String)
  | .long name value => (signature.options.find? (·.2 == name)).map fun found => (found.2, value)
  | .short letter rest =>
    (signature.options.find? (·.1 == letter)).map fun found =>
      (found.2, if rest.isEmpty then none else some (attachedValue rest))
  | _ => none

/-- An argument that is neither an option with a value nor an operand. -/
def addOther (signature : Signature) (given : Given) : Form → Except Stop Given
  | .long "help" none => .error .help
  | .short 'h' _ => .error .help
  | .long name none =>
    if signature.switches.contains name then given.addSwitch name else .error .usage
  | _ => .error .usage

def scan (signature : Signature) (given : Given) : List String → Except Stop Given
  | [] => .ok given
  | argument :: rest =>
    match form argument with
    | .separator => rest.foldlM (Given.addOperand signature) given
    | .operand => do scan signature (← given.addOperand signature argument) rest
    | found =>
      match option? signature found with
      | some (name, some value) => do scan signature (← given.addValue name value) rest
      | some (name, none) =>
        match rest with
        | [] => .error .usage
        | value :: rest =>
          if isOperand value then do scan signature (← given.addValue name value) rest
          else .error .usage
      | none => do scan signature (← addOther signature given found) rest

def configOption : Char × String := ('c', "config")
def outputOption : Char × String := ('o', "output")

def defaultOutput : String := "client.ts"

def Given.operand (given : Given) : Except Stop String :=
  match given.operands with
  | [operand] => if operand.isEmpty then .error .usage else .ok operand
  | _ => .error .usage

def parseGenerate (arguments : List String) : Except Stop Invocation := do
  let given ← scan
    { options := [configOption, outputOption], switches := ["dry-run", "strict"] } {} arguments
  return .generate (given.value "config" Manifest.defaultFile)
    (given.value "output" defaultOutput) (given.hasSwitch "dry-run") (given.hasSwitch "strict")

def parseCheck (arguments : List String) : Except Stop Invocation := do
  let given ← scan { options := [configOption] } {} arguments
  return .check (given.value "config" Manifest.defaultFile)

def parseRender (arguments : List String) : Except Stop Invocation := do
  let given ← scan { switches := ["strict"], operands := 1 } {} arguments
  return .render (← given.operand) (given.hasSwitch "strict")

def parseCompletions (arguments : List String) : Except Stop Invocation := do
  let given ← scan { operands := 1 } {} arguments
  match Shell.ofName? (← given.operand) with
  | some shell => return .completions shell
  | none => throw .usage

def commandNames : List String :=
  ["generate", "check", "render", "completions", "help"]

def parseHelp : List String → Except Stop Invocation
  | [] => .error .help
  | [name] => if commandNames.contains name then .error .help else .error .usage
  | _ => .error .usage

def parseArguments : List String → Except Stop Invocation
  | "generate" :: rest => parseGenerate rest
  | "check" :: rest => parseCheck rest
  | "render" :: rest => parseRender rest
  | "completions" :: rest => parseCompletions rest
  | "help" :: rest => parseHelp rest
  | first :: _ =>
    match form first with
    | .long "version" none => .error .version
    | .short 'V' _ => .error .version
    | .long "help" none => .error .help
    | .short 'h' _ => .error .help
    | _ => .error .usage
  | [] => .error .usage

end ApiClient.Command
