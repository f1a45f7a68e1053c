import ApiClient.Manifest.Source

/-! What can be wrong with a description.

Each cause has a message and may have a code, a help text and labels for places in the text.
-/

set_option autoImplicit false

namespace ApiClient.Manifest

structure Label where
  text : String
  span : Span
  deriving DecidableEq

inductive Cause where
  | malformed
  | invalid (message : String) (place : Option Span)
  | invalidIdentifier (name context reason : String) (place : Option Span)
  | duplicateOperation (name : String) (first second : Option Span)
  | unknownUriVariable (operation wanted : String) (place : Option Span)
  deriving DecidableEq

inductive ManifestError where
  | unreadable (path : String)
  | wrong (file : String) (cause : Cause)
  deriving DecidableEq

def unknownVariableMessage (operation wanted : String) : String :=
  "operation '" ++ operation ++ "' uses URI variable '" ++ wanted ++
    "' which is not a parameter"

namespace Cause

def message : Cause → String
  | .malformed => "failed to parse API description"
  | .invalid message _ => message
  | .invalidIdentifier name context _ _ => "invalid " ++ context ++ " name '" ++ name ++ "'"
  | .duplicateOperation name _ _ => "duplicate operation '" ++ name ++ "'"
  | .unknownUriVariable operation wanted _ => unknownVariableMessage operation wanted

def code : Cause → String
  | .malformed => "tsdom::parse_error"
  | .invalid .. => "tsdom::validation_error"
  | .invalidIdentifier .. => "tsdom::invalid_identifier"
  | .duplicateOperation .. => "tsdom::duplicate_operation"
  | .unknownUriVariable .. => "tsdom::unknown_uri_variable"

def help? : Cause → Option String
  | .malformed => none
  | .invalid .. => none
  | .invalidIdentifier _ _ reason _ =>
    some (reason ++ ". Use only letters, digits, '_' and '$', not starting with a digit.")
  | .duplicateOperation .. =>
    some "every operation becomes a method of the client class, so names must be unique"
  | .unknownUriVariable _ wanted _ =>
    some ("add a parameter named '" ++ wanted ++ "' to the operation")

def label (text : String) : Option Span → List Label
  | none => []
  | some span => [⟨text, span⟩]

def labels : Cause → List Label
  | .malformed => []
  | .invalid message place => label message place
  | .invalidIdentifier _ _ _ place => label "invalid identifier" place
  | .duplicateOperation _ first second =>
    label "first defined here" first ++ label "defined again here" second
  | .unknownUriVariable _ _ place => label "in this path" place

end Cause

namespace ManifestError

def message : ManifestError → String
  | .unreadable path => "failed to read '" ++ path ++ "'"
  | .wrong _ cause => cause.message

def file? : ManifestError → Option String
  | .unreadable _ => none
  | .wrong file _ => some file

def code? : ManifestError → Option String
  | .unreadable _ => none
  | .wrong _ cause => some cause.code

def help? : ManifestError → Option String
  | .unreadable _ => some "create a tsdom.toml describing the API operations"
  | .wrong _ cause => cause.help?

def labels : ManifestError → List Label
  | .unreadable _ => []
  | .wrong _ cause => cause.labels

end ManifestError

namespace Source

def malformed (source : Source) : ManifestError :=
  .wrong source.name .malformed

/-- An error that points at `needle` where that is given and found. -/
def invalid (source : Source) (message : String) (needle : Option String) : ManifestError :=
  .wrong source.name (.invalid message (needle.bind source.find?))

def invalidIdentifier (source : Source) (name context reason : String) : ManifestError :=
  .wrong source.name (.invalidIdentifier name context reason (source.find? name))

def duplicateOperation (source : Source) (name : String) : ManifestError :=
  let (first, second) := source.findTwice name
  .wrong source.name (.duplicateOperation name first second)

def unknownUriVariable (source : Source) (operation path wanted : String) : ManifestError :=
  .wrong source.name (.unknownUriVariable operation wanted (source.find? path))

end Source

end ApiClient.Manifest
