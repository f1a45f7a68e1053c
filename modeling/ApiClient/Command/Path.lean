import ApiClient.Text.Lines

/-! Paths of files.

A path is a text with slashes. Empty segments and single dots say nothing, except in front; two
dots lead back to the directory above. A path that ends in a slash or a dot means a directory.
-/

set_option autoImplicit false

namespace ApiClient.Command.Path

def segments (path : String) : List String :=
  (Text.split '/' path.toList).map String.ofList

def saysNothing (segment : String) : Bool :=
  segment == "" || segment == "."

/-- The names on the way, where two dots stand for the directory above. -/
def names (path : String) : List String :=
  (segments path).filter (!saysNothing ·)

def isAbsolute (path : String) : Bool :=
  path.toList.head? == some '/'

def meansDirectory (path : String) : Bool :=
  match (segments path).getLast? with
  | some last => saysNothing last
  | none => false

/-- Segments in reverse without those at the end that say nothing; the first segment stays. -/
def dropIdle : List String → List String
  | [] => []
  | [first] => [first]
  | last :: previous => if saysNothing last then dropIdle previous else last :: previous

/-- The text of the directory that holds what a path names, empty for a single name. -/
def parent? (path : String) : Option String :=
  match dropIdle (segments path).reverse with
  | [] => none
  | [first] => if first = "" then none else some ""
  | _ :: previous =>
    match (dropIdle previous).reverse with
    | [""] => some "/"
    | kept => some ("/".intercalate kept)

end ApiClient.Command.Path
