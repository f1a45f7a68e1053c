import ApiClient.Layout.Indent

/-! Text written line by line.

A buffer holds the text written so far and the depth of the next line. Every step adds to the end
of the text; closing a scope that was never opened leaves the depth at zero.
-/

set_option autoImplicit false

namespace ApiClient.Layout

structure LineBuffer where
  indent : Indent := .standard
  depth : Nat := 0
  text : String := ""

namespace LineBuffer

def margin (buffer : LineBuffer) : String :=
  buffer.indent.times buffer.depth

def raw (buffer : LineBuffer) (text : String) : LineBuffer :=
  { buffer with text := buffer.text ++ text }

def line (buffer : LineBuffer) (text : String) : LineBuffer :=
  buffer.raw (buffer.margin ++ text ++ "\n")

def blank (buffer : LineBuffer) : LineBuffer :=
  buffer.raw "\n"

def deeper (buffer : LineBuffer) : LineBuffer :=
  { buffer with depth := buffer.depth + 1 }

def shallower (buffer : LineBuffer) : LineBuffer :=
  { buffer with depth := buffer.depth - 1 }

def comment (buffer : LineBuffer) (text : String) : LineBuffer :=
  buffer.line ("// " ++ text)

def docLine (text : String) : String :=
  if text.isEmpty then " *" else " * " ++ text

/-- A documentation comment with a line for each text; without any there is no comment. -/
def docComment (buffer : LineBuffer) (texts : List String) : LineBuffer :=
  if texts.isEmpty then buffer
  else (texts.foldl (fun buffer text => buffer.line (docLine text)) (buffer.line "/**")).line " */"

inductive Step where
  | line (text : String)
  | blank
  | raw (text : String)
  | deeper
  | shallower
  | docComment (texts : List String)
  | comment (text : String)

def apply (buffer : LineBuffer) : Step → LineBuffer
  | .line text => buffer.line text
  | .blank => buffer.blank
  | .raw text => buffer.raw text
  | .deeper => buffer.deeper
  | .shallower => buffer.shallower
  | .docComment texts => buffer.docComment texts
  | .comment text => buffer.comment text

end LineBuffer

end ApiClient.Layout
