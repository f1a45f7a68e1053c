import ApiClient.Tree.Declaration

/-! Nodes that have no text, by the words for them in messages and in the order of the source. -/

set_option autoImplicit false

namespace ApiClient.Tree

mutual

/-- A target stands before the arguments of a call. -/
def Expression.gaps : Expression → List String
  | .argument _ => []
  | .field target _ => target.gaps
  | .call target _ args => target.gaps ++ gapsOfArgs args
  | .methodRef target _ _ => target.gaps
  | .create _ args => gapsOfArgs args
  | .parameter _ _ => []
  | .literal _ => []
  | .property target _ => target.gaps
  | .snippet _ => []
  | .this => []
  | .typeName _ => []
  | .variable _ => []
  | .unsupported form => [form.phrase]

def gapsOfArgs : List Expression → List String
  | [] => []
  | arg :: rest => arg.gaps ++ gapsOfArgs rest

end

def gapsOfOption : Option Expression → List String
  | none => []
  | some value => value.gaps

mutual

def Statement.gaps : Statement → List String
  | .assign left right => left.gaps ++ right.gaps
  | .comment _ => []
  | .branch test thenBody elseBody => test.gaps ++ gapsOfBlock thenBody ++ gapsOfElse elseBody
  | .expression value => value.gaps
  | .loop init test step body => init.gaps ++ test.gaps ++ step.gaps ++ gapsOfBlock body
  | .returning value => gapsOfOption value
  | .throw value => value.gaps
  | .guarded body catches finallyBody =>
    gapsOfBlock body ++ gapsOfCatches catches ++ gapsOfBlock finallyBody
  | .declare _ _ init => gapsOfOption init
  | .snippet _ => []
  | .unsupported form => [form.phrase]

def gapsOfBlock : List Statement → List String
  | [] => []
  | statement :: rest => statement.gaps ++ gapsOfBlock rest

def gapsOfElse : Option (List Statement) → List String
  | none => []
  | some body => gapsOfBlock body

def gapsOfCatches : List (CatchClause Statement) → List String
  | [] => []
  | ⟨_, body⟩ :: rest => gapsOfBlock body ++ gapsOfCatches rest

end

/-- Initialisers of fields do not count: only enumerations have a text for them. -/
def Member.gaps : Member → List String
  | .method value => gapsOfBlock value.body
  | _ => []

/-- A field without an initialiser or with a literal one. -/
def Member.isConstant : Member → Bool
  | .field _ _ none => true
  | .field _ _ (some (.literal _)) => true
  | _ => false

def Member.withoutInit : Member → Member
  | .field name type _ => .field name type none
  | member => member

def Declaration.gaps (declaration : Declaration) : List String :=
  declaration.members.flatMap Member.gaps

def Declaration.withoutInits (declaration : Declaration) : Declaration :=
  { declaration with members := declaration.members.map Member.withoutInit }

end ApiClient.Tree
