import ApiClient.Json.Quoted
import ApiClient.Json.Basic
import ApiClient.Number.Notation

/-! Writing data as text without blanks. -/

set_option autoImplicit false

namespace ApiClient.Json

open ApiClient.Number

mutual

def render : Json → String
  | .null => "null"
  | .bool value => if value then "true" else "false"
  | .integer value => wholeText value
  | .double value => value.dataText?.getD "null"
  | .string text => Quoted.write text
  | .array items => "[" ++ ",".intercalate (renderItems items) ++ "]"
  | .object fields => "\x7b" ++ ",".intercalate (renderFields fields) ++ "\x7d"

def renderItems : List Json → List String
  | [] => []
  | item :: rest => item.render :: renderItems rest

def renderFields : List (String × Json) → List String
  | [] => []
  | (name, value) :: rest => (Quoted.write name ++ ":" ++ value.render) :: renderFields rest

end

end ApiClient.Json
