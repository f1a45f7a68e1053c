/-! The verbs of an operation. -/

set_option autoImplicit false

namespace ApiClient.Manifest

inductive HttpMethod where
  | get
  | post
  | put
  | delete
  | patch
  | head
  | options
  deriving DecidableEq

namespace HttpMethod

def all : List HttpMethod :=
  [.get, .post, .put, .delete, .patch, .head, .options]

def name : HttpMethod → String
  | .get => "GET"
  | .post => "POST"
  | .put => "PUT"
  | .delete => "DELETE"
  | .patch => "PATCH"
  | .head => "HEAD"
  | .options => "OPTIONS"

def ofName? (text : String) : Option HttpMethod :=
  all.find? (·.name == text)

def hasBody : HttpMethod → Bool
  | .post => true
  | .put => true
  | .patch => true
  | _ => false

end HttpMethod

end ApiClient.Manifest
