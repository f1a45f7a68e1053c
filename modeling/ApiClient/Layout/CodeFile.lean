import ApiClient.Layout.LineBuffer
import ApiClient.Text.Lines

/-! A file of generated code: a header comment, then declarations with an empty line between
two of them. -/

set_option autoImplicit false

namespace ApiClient.Layout

structure CodeFile where
  header : Option String := none
  body : List String := []

namespace CodeFile

def add (file : CodeFile) (code : String) : CodeFile :=
  { file with body := file.body ++ [code] }

def addAll (file : CodeFile) (codes : List String) : CodeFile :=
  { file with body := file.body ++ codes }

def isEmpty (file : CodeFile) : Bool :=
  file.header.isNone && file.body.isEmpty

def headerText : Option String → String
  | none => ""
  | some header => ((Text.lines header).foldl LineBuffer.comment {}).text

def render (file : CodeFile) : String :=
  headerText file.header ++
    (if file.header.isSome && !file.body.isEmpty then "\n" else "") ++
    "\n".intercalate file.body

end CodeFile

end ApiClient.Layout
