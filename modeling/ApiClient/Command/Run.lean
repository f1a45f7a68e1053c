import ApiClient.Client.Generator
import ApiClient.Command.Arguments
import ApiClient.Command.FileSystem
import ApiClient.Manifest.Parser
import ApiClient.Text.Padding
import ApiClient.TypeScript.Document

/-! Running a command.

Every command reads at most one file and answers with a text to print or a file to write. The
file is written only after everything else has succeeded.
-/

set_option autoImplicit false

namespace ApiClient.Command

open ApiClient.Client ApiClient.Layout ApiClient.Manifest ApiClient.TypeScript

def versionText : String := "tsdom 0.5.0\n"

inductive Failure where
  | manifest (cause : ManifestError)
  | client (cause : ClientError)
  | generate (cause : GenerateError)
  | unreadableTree (path : String)
  | document (cause : DocumentError)
  deriving DecidableEq

/-- The headline of a failure; errors of a description report themselves. -/
def Failure.report? : Failure → Option String
  | .manifest _ => none
  | .client _ => some "Validation failed"
  | .generate _ => some "Failed to generate code"
  | .unreadableTree path => some ("Failed to read '" ++ path ++ "'")
  | .document cause => some cause.message

inductive Answer where
  | print (text : String)
  | write (path text summary : String)

def Invocation.input? : Invocation → Option String
  | .generate config .. => some config
  | .check config => some config
  | .render tree _ => some tree
  | .completions _ => none

def openManifest (path : String) : Option String → Except ManifestError ApiDescription
  | none => .error (.unreadable path)
  | some content => parse content path

def renderOptions (strict : Bool) : Options :=
  if strict then .strict else {}

def countText (count : Nat) (noun : String) : String :=
  Number.wholeText count ++ " " ++ noun ++ (if count = 1 then "" else "s")

def summary (path : String) (operations bytes : Nat) : String :=
  "Generated " ++ path ++ " (" ++ countText operations "operation" ++ ", " ++
    Number.wholeText bytes ++ " bytes)\n"

def operationLine (camel : Bool) (operation : ApiOperation) : String :=
  "    " ++ Text.padEnd 7 operation.method.name ++ " " ++ operation.path ++ " -> " ++
    methodName camel operation.name ++ "()\n"

def checkReport (path : String) (manifest : ApiDescription) : String :=
  "✓ " ++ path ++ " is valid\n\n  client " ++ manifest.client.name ++ "\n\n  " ++
    countText manifest.operations.length "operation" ++ ":\n" ++
    String.join (manifest.operations.map (operationLine manifest.client.camelCase))

/-- What a command does, given the text of the file that it reads. The name of a shell is
accepted, but no script for it is printed. -/
def Invocation.answer (content : Option String) : Invocation → Except Failure Answer
  | .generate config output dryRun strict => do
    let manifest ← (openManifest config content).mapError .manifest
    let text ← (preview (renderOptions strict) manifest).mapError .generate
    if dryRun then return .print text
    else return .write output text (summary output manifest.operations.length text.utf8ByteSize)
  | .check config => do
    let manifest ← (openManifest config content).mapError .manifest
    let _ ← (configuredClass manifest.client manifest.operations).mapError .client
    return .print (checkReport config manifest)
  | .render tree strict =>
    match content with
    | none => .error (.unreadableTree tree)
    | some text => do
      return .print (← (renderDocument (renderOptions strict) text).mapError .document)
  | .completions _ => .ok (.print "")

def writeOutput (system : FileSystem) (path text : String) :
    Except GenerateError Unit × FileSystem :=
  match system.createParent path with
  | (false, system) => (.error (.createDirectory ((Path.parent? path).getD "")), system)
  | (true, system) =>
    match system.write? path text with
    | none => (.error (.writeFile path), system)
    | some system => (.ok (), system)

def Invocation.run (system : FileSystem) (invocation : Invocation) :
    Except Failure String × FileSystem :=
  match invocation.answer (invocation.input?.bind system.read?) with
  | .error failure => (.error failure, system)
  | .ok (.print text) => (.ok text, system)
  | .ok (.write path text summary) =>
    match writeOutput system path text with
    | (.error error, system) => (.error (.generate error), system)
    | (.ok (), system) => (.ok summary, system)

end ApiClient.Command
