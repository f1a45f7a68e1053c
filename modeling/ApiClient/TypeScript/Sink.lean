import ApiClient.TypeScript.Declaration

/-! Writing declarations to a sink.

A declaration is rendered first and written as a whole, so a sink never holds a part of one. A
sink may refuse a text, and a closed one refuses every text; then it stays as it is.
-/

set_option autoImplicit false

namespace ApiClient.TypeScript

open ApiClient.Layout ApiClient.Tree

structure Sink where
  content : String
  closed : Bool := false
  /-- Which texts a sink takes behind its content while it is open. -/
  takes : (content text : String) → Bool := fun _ _ => true

namespace Sink

def admits (sink : Sink) (text : String) : Bool :=
  !sink.closed && sink.takes sink.content text

def write (sink : Sink) (text : String) : Except EmitError Sink :=
  if sink.admits text then .ok { sink with content := sink.content ++ text }
  else .error .refusedWrite

def writeDeclaration (mapper : TypeMapper) (options : Options) (sink : Sink)
    (declaration : Declaration) : Except EmitError Sink :=
  declarationText mapper options declaration >>= sink.write

def call (mapper : TypeMapper) (options : Options) (sink : Sink) (declaration : Declaration) :
    Option EmitError × Sink :=
  match sink.writeDeclaration mapper options declaration with
  | .ok written => (none, written)
  | .error error => (some error, sink)

def run (mapper : TypeMapper) (options : Options) (sink : Sink) :
    List Declaration → List (Option EmitError × Sink)
  | [] => []
  | declaration :: rest =>
    let result := sink.call mapper options declaration
    result :: run mapper options result.2 rest

end Sink

end ApiClient.TypeScript
