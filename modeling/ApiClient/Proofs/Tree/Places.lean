import ApiClient.Tree.Statement

/-! Trees with a place left open.

A place is what surrounds a list of statements inside a block, or an expression inside a statement
or an expression, at any depth. Filling it gives the tree with the filling where the place is.
-/

set_option autoImplicit false

namespace ApiClient.Tree

mutual

inductive BlockPlace where
  | whole
  | within (front : List Statement) (place : StatementPlace) (back : List Statement)

/-- A statement that is open inside one of its blocks, or inside the head of a loop. -/
inductive StatementPlace where
  | thenBody (test : Expression) (place : BlockPlace) (elseBody : Option (List Statement))
  | elseBody (test : Expression) (thenBody : List Statement) (place : BlockPlace)
  | loopInit (place : StatementPlace) (test : Expression) (step : Statement)
      (body : List Statement)
  | loopStep (init : Statement) (test : Expression) (place : StatementPlace)
      (body : List Statement)
  | loopBody (init : Statement) (test : Expression) (step : Statement) (place : BlockPlace)
  | tryBody (place : BlockPlace) (catches : List (CatchClause Statement))
      (finallyBody : List Statement)
  | catchBody (body : List Statement) (front : List (CatchClause Statement)) (localName : String)
      (place : BlockPlace) (back : List (CatchClause Statement)) (finallyBody : List Statement)
  | finallyBody (body : List Statement) (catches : List (CatchClause Statement))
      (place : BlockPlace)

end

mutual

def BlockPlace.fill (filling : List Statement) : BlockPlace → List Statement
  | .whole => filling
  | .within front place back => front ++ place.fill filling :: back

def StatementPlace.fill (filling : List Statement) : StatementPlace → Statement
  | .thenBody test place elseBody => .branch test (place.fill filling) elseBody
  | .elseBody test thenBody place => .branch test thenBody (some (place.fill filling))
  | .loopInit place test step body => .loop (place.fill filling) test step body
  | .loopStep init test place body => .loop init test (place.fill filling) body
  | .loopBody init test step place => .loop init test step (place.fill filling)
  | .tryBody place catches finallyBody => .guarded (place.fill filling) catches finallyBody
  | .catchBody body front localName place back finallyBody =>
    .guarded body (front ++ ⟨localName, place.fill filling⟩ :: back) finallyBody
  | .finallyBody body catches place => .guarded body catches (place.fill filling)

end

def BlockPlace.isWhole : BlockPlace → Bool
  | .whole => true
  | .within _ _ _ => false

mutual

/-- Whether the open list stands behind a `finally`, which is written only if the list is not
empty. -/
def BlockPlace.isFinal : BlockPlace → Bool
  | .whole => false
  | .within _ place _ => place.isFinal

def StatementPlace.isFinal : StatementPlace → Bool
  | .thenBody _ place _ => place.isFinal
  | .elseBody _ _ place => place.isFinal
  | .loopInit place _ _ _ => place.isFinal
  | .loopStep _ _ place _ => place.isFinal
  | .loopBody _ _ _ place => place.isFinal
  | .tryBody place _ _ => place.isFinal
  | .catchBody _ _ _ place _ _ => place.isFinal
  | .finallyBody _ _ place => place.isWhole || place.isFinal

end

/-- A list may fill a place unless it is empty and would take a `finally` away. -/
def BlockPlace.Admits (place : BlockPlace) (filling : List Statement) : Prop :=
  place.isFinal = true → filling ≠ []

def StatementPlace.Admits (place : StatementPlace) (filling : List Statement) : Prop :=
  place.isFinal = true → filling ≠ []

mutual

/-- How many units deeper than the block the open list stands, the block itself included. -/
def BlockPlace.depth : BlockPlace → Nat
  | .whole => 1
  | .within _ place _ => place.depth + 1

def StatementPlace.depth : StatementPlace → Nat
  | .thenBody _ place _ => place.depth
  | .elseBody _ _ place => place.depth
  | .loopInit place _ _ _ => place.depth
  | .loopStep _ _ place _ => place.depth
  | .loopBody _ _ _ place => place.depth
  | .tryBody place _ _ => place.depth
  | .catchBody _ _ _ place _ _ => place.depth
  | .finallyBody _ _ place => place.depth

end

theorem BlockPlace.fill_ne_nil {place : BlockPlace} {filling : List Statement}
    (filled : place.isWhole = true → filling ≠ []) : place.fill filling ≠ [] := by
  cases place with
  | whole => exact filled rfl
  | within front place back => simp [BlockPlace.fill]

/-- A list that may fill a place behind `finally` leaves something there. -/
theorem StatementPlace.Admits.finallyBody {body : List Statement}
    {catches : List (CatchClause Statement)} {place : BlockPlace} {filling : List Statement}
    (admitted : (StatementPlace.finallyBody body catches place).Admits filling) :
    place.Admits filling ∧ place.fill filling ≠ [] := by
  have either : place.isWhole || place.isFinal → filling ≠ [] := admitted
  rw [Bool.or_eq_true] at either
  exact ⟨fun final => either (.inr final), BlockPlace.fill_ne_nil fun whole => either (.inl whole)⟩

/-- An expression that is open as a whole, or inside one of its parts. -/
inductive ExpressionPlace where
  | whole
  | fieldTarget (place : ExpressionPlace) (name : String)
  | propertyTarget (place : ExpressionPlace) (name : String)
  | callTarget (place : ExpressionPlace) (method : String) (args : List Expression)
  | callArg (target : Expression) (method : String) (front : List Expression)
      (place : ExpressionPlace) (back : List Expression)
  | methodRefTarget (place : ExpressionPlace) (method : String) (typeArgs : List TypeRef)
  | createArg (type : TypeRef) (front : List Expression) (place : ExpressionPlace)
      (back : List Expression)

def ExpressionPlace.fill (filling : Expression) : ExpressionPlace → Expression
  | .whole => filling
  | .fieldTarget place name => .field (place.fill filling) name
  | .propertyTarget place name => .property (place.fill filling) name
  | .callTarget place method args => .call (place.fill filling) method args
  | .callArg target method front place back =>
    .call target method (front ++ place.fill filling :: back)
  | .methodRefTarget place method typeArgs => .methodRef (place.fill filling) method typeArgs
  | .createArg type front place back => .create type (front ++ place.fill filling :: back)

/-- A statement with an open expression outside of its blocks. -/
inductive ValuePlace where
  | assigned (right : Expression)
  | assignment (left : Expression)
  | branchTest (thenBody : List Statement) (elseBody : Option (List Statement))
  | expression
  | loopInit (place : ValuePlace) (test : Expression) (step : Statement) (body : List Statement)
  | loopTest (init step : Statement) (body : List Statement)
  | loopStep (init : Statement) (test : Expression) (place : ValuePlace) (body : List Statement)
  | returning
  | throw
  | declare (type : TypeRef) (name : String)

def ValuePlace.fill (filling : Expression) : ValuePlace → Statement
  | .assigned right => .assign filling right
  | .assignment left => .assign left filling
  | .branchTest thenBody elseBody => .branch filling thenBody elseBody
  | .expression => .expression filling
  | .loopInit place test step body => .loop (place.fill filling) test step body
  | .loopTest init step body => .loop init filling step body
  | .loopStep init test place body => .loop init test (place.fill filling) body
  | .returning => .returning (some filling)
  | .throw => .throw filling
  | .declare type name => .declare type name (some filling)

end ApiClient.Tree
