import ApiClient.Layout.LineBuffer
import ApiClient.Tree.Declaration
import ApiClient.TypeScript.Statement

/-! Text of type declarations.

A declaration is a head line, its members one unit deeper, and a closing brace. An enumeration
has its members on the head line and admits constant fields only. A nullable field is optional:
the mark moves from its type to its name.
-/

set_option autoImplicit false

namespace ApiClient.TypeScript

open ApiClient.Layout ApiClient.Tree

def typeParamText (mapper : TypeMapper) (param : TypeParam) : String :=
  match param.bounds with
  | [] => param.name
  | bound :: _ => param.name ++ " extends " ++ mapper.type bound

def genericClause (mapper : TypeMapper) (declaration : Declaration) : String :=
  if declaration.isEnum || declaration.typeParams.isEmpty then ""
  else "<" ++ ", ".intercalate (declaration.typeParams.map (typeParamText mapper)) ++ ">"

/-- The bases that can be extended. -/
def baseClause (mapper : TypeMapper) (declaration : Declaration) : String :=
  let bases := (declaration.bases.filter mapper.derivable).map mapper.type
  if declaration.isEnum || bases.isEmpty then "" else " extends " ++ ",".intercalate bases

/-- A name with its type, optional when the type is nullable. -/
def nameAndType (mapper : TypeMapper) (name : String) (type : TypeRef) : String :=
  let (base, nullable) := splitNullable (mapper.type type)
  name ++ (if nullable then "?: " else ": ") ++ base

/-- A nullable mark anywhere in the return type leaves the type open. -/
def returnClause (mapper : TypeMapper) (method : Method) : String :=
  match method.isConstructor, method.returnType with
  | false, some type =>
    let text := mapper.type type
    if text = "void" then ""
    else if text.toList.contains nullableMark then ": any"
    else ": " ++ text
  | _, _ => ""

def docText (options : Options) (doc : List String) : String :=
  (LineBuffer.docComment { indent := options.indent, depth := options.depth }
    (doc.flatMap Text.bareLines)).text

def methodText (mapper : TypeMapper) (options : Options) (method : Method) :
    Except EmitError String := do
  let params := method.parameters.map fun p => p.name ++ ": " ++ mapper.type p.type
  let body ← blockText mapper options method.body
  return "\n" ++ docText options method.doc ++ options.margin ++
    (if method.isConstructor then "constructor" else method.name) ++
    "(" ++ ", ".intercalate params ++ ")" ++ returnClause mapper method ++ "\x7b\n" ++ body ++
    options.margin ++ "\x7d\n"

def memberText (mapper : TypeMapper) (options : Options) : Member → Except EmitError String
  | .field name type _ => .ok (options.margin ++ nameAndType mapper name type ++ ";\n")
  | .property name type => .ok (options.margin ++ nameAndType mapper name type ++ ";\n")
  | .method method => methodText mapper options method
  | .snippet text => .ok (options.margin ++ text ++ "\n")

def memberTexts (mapper : TypeMapper) (options : Options) :
    List Member → Except EmitError String
  | [] => .ok ""
  | member :: rest => do
    let text ← memberText mapper options member
    let texts ← memberTexts mapper options rest
    return text ++ texts

def memberPhrase : Member → String
  | .field name _ _ => "field '" ++ name ++ "'"
  | .property name _ => "property '" ++ name ++ "'"
  | .method method => "method '" ++ method.name ++ "'"
  | .snippet _ => "a snippet"

def enumMemberText (enumName : String) : Member → Except EmitError String
  | .field name _ none => .ok name
  | .field name _ (some init) =>
    match init.literal? with
    | some value => .ok (name ++ "=" ++ value.text)
    | none => .error (.nonConstantInitializer enumName name)
  | member => .error (.invalidEnumMember enumName (memberPhrase member))

def enumMemberTexts (enumName : String) : List Member → Except EmitError (List String)
  | [] => .ok []
  | member :: rest => do
    let text ← enumMemberText enumName member
    let texts ← enumMemberTexts enumName rest
    return text :: texts

def membersText (mapper : TypeMapper) (options : Options) (declaration : Declaration) :
    Except EmitError String := do
  if declaration.isEnum then
    let texts ← enumMemberTexts declaration.name declaration.members
    return ", ".intercalate texts ++ "\x7d\n"
  else
    let texts ← memberTexts mapper options.nested declaration.members
    return "\n" ++ texts ++ options.margin ++ "\x7d\n"

def headText (mapper : TypeMapper) (options : Options) (declaration : Declaration) : String :=
  options.margin ++ (if declaration.exported then "export " else "") ++
    declaration.kind.keyword ++ " " ++ declaration.name ++ genericClause mapper declaration ++
    baseClause mapper declaration ++ " \x7b"

def declarationText (mapper : TypeMapper) (options : Options) (declaration : Declaration) :
    Except EmitError String := do
  let members ← membersText mapper options declaration
  return headText mapper options declaration ++ members

end ApiClient.TypeScript
