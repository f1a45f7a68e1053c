import ApiClient.Command.Run

/-! The command line: the file that a command reads, what it prints, and the file it writes. A
request for help succeeds and a usage error fails, both without a text. -/

set_option autoImplicit false

namespace ApiClient.Command

def readText? (path : String) : IO (Option String) := do
  try
    return String.fromUTF8? (← IO.FS.readBinFile path)
  catch _ => return none

def writeText (path text : String) : IO (Except Client.GenerateError Unit) := do
  let parent := (Path.parent? path).getD ""
  try
    unless parent.isEmpty do IO.FS.createDirAll parent
  catch _ => return .error (.createDirectory parent)
  try
    IO.FS.writeBinFile path text.toUTF8
    return .ok ()
  catch _ => return .error (.writeFile path)

def fail (failure : Failure) : IO UInt32 := do
  match failure with
  | .manifest cause => IO.eprintln cause.message
  | other => IO.eprintln (other.report?.getD "")
  return 1

def perform (invocation : Invocation) : IO UInt32 := do
  let content ← match invocation.input? with
    | some path => readText? path
    | none => pure none
  match invocation.answer content with
  | .error failure => fail failure
  | .ok (.print text) => IO.print text; return 0
  | .ok (.write path text summary) =>
    match ← writeText path text with
    | .error cause => fail (.generate cause)
    | .ok () => IO.print summary; return 0

end ApiClient.Command

open ApiClient.Command in
def main (arguments : List String) : IO UInt32 := do
  match parseArguments arguments with
  | .ok invocation => perform invocation
  | .error .version => IO.print versionText; return 0
  | .error .help => return 0
  | .error .usage => return 2
