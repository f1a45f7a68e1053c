import ApiClient.Proofs.Tree.Gaps
import ApiClient.Proofs.Tree.Induction
import ApiClient.Proofs.Tree.Words

/-! Trees from which the nodes without text have been taken.

A statement of that kind leaves the list it stands in. Where something has to stand, as the part of
another node or in the header of a loop, an empty snippet takes its place. A list behind `finally`
is printed with its braces if it has statements at all, so one that would lose all of them stays
hollow as it is. Otherwise no gap is left.
-/

set_option autoImplicit false

namespace ApiClient.Tree

mutual

def Expression.filled : Expression → Expression
  | .argument name => .argument name
  | .field target name => .field target.filled name
  | .call target method args => .call target.filled method (filledArgs args)
  | .methodRef target method typeArgs => .methodRef target.filled method typeArgs
  | .create type args => .create type (filledArgs args)
  | .parameter name type => .parameter name type
  | .literal value => .literal value
  | .property target name => .property target.filled name
  | .snippet text => .snippet text
  | .this => .this
  | .typeName type => .typeName type
  | .variable name => .variable name
  | .unsupported _ => .snippet ""

def filledArgs : List Expression → List Expression
  | [] => []
  | arg :: rest => arg.filled :: filledArgs rest

end

def Statement.isGap : Statement → Bool
  | .unsupported _ => true
  | _ => false

/-- Whether a list has statements, but none with a text. -/
def isHollow (body : List Statement) : Bool :=
  !body.isEmpty && body.all Statement.isGap

mutual

def Statement.pruned : Statement → Statement
  | .assign left right => .assign left.filled right.filled
  | .comment text => .comment text
  | .branch test thenBody elseBody =>
    .branch test.filled (prunedBlock thenBody) (prunedElse elseBody)
  | .expression value => .expression value.filled
  | .loop init test step body => .loop init.pruned test.filled step.pruned (prunedBlock body)
  | .returning value => .returning (value.map Expression.filled)
  | .throw value => .throw value.filled
  | .guarded body catches finallyBody =>
    .guarded (prunedBlock body) (prunedCatches catches)
      (if isHollow finallyBody then finallyBody else prunedBlock finallyBody)
  | .declare type name init => .declare type name (init.map Expression.filled)
  | .snippet text => .snippet text
  | .unsupported _ => .snippet ""

def prunedBlock : List Statement → List Statement
  | [] => []
  | statement :: rest =>
    if statement.isGap then prunedBlock rest else statement.pruned :: prunedBlock rest

/-- An alternative branch stays where it is, empty or not. -/
def prunedElse : Option (List Statement) → Option (List Statement)
  | none => none
  | some body => some (prunedBlock body)

def prunedCatches : List (CatchClause Statement) → List (CatchClause Statement)
  | [] => []
  | ⟨localName, body⟩ :: rest => ⟨localName, prunedBlock body⟩ :: prunedCatches rest

end

def Member.pruned : Member → Member
  | .field name type init => .field name type (init.map Expression.filled)
  | .property name type => .property name type
  | .method value => .method { value with body := prunedBlock value.body }
  | .snippet text => .snippet text

def Declaration.pruned (declaration : Declaration) : Declaration :=
  { declaration with members := declaration.members.map Member.pruned }

section Expressions

theorem gapsOfArgs_filledArgs {args : List Expression} (each : ∀ arg ∈ args, arg.filled.gaps = []) :
    gapsOfArgs (filledArgs args) = [] := by
  induction args with
  | nil => rfl
  | cons arg rest ih =>
    obtain ⟨first, later⟩ := List.forall_mem_cons.1 each
    rw [filledArgs, gapsOfArgs, first, ih later, List.append_nil]

theorem Expression.gaps_filled (expression : Expression) : expression.filled.gaps = [] := by
  induction expression with
  | field target name ih | property target name ih | methodRef target method typeArgs ih => exact ih
  | call target method args ih each =>
    rw [filled, gaps, ih, gapsOfArgs_filledArgs each, List.append_nil]
  | create type args each => exact gapsOfArgs_filledArgs each
  | argument | parameter | literal | snippet | this | typeName | variableRef | unsupported => rfl

theorem gapsOfOption_filled (value : Option Expression) :
    gapsOfOption (value.map Expression.filled) = [] := by
  cases value with
  | none => rfl
  | some value => exact value.gaps_filled

end Expressions

/-- A list behind `finally` without a statement that has a text. -/
def Statement.hasHollowEnding : Statement → Bool
  | .guarded _ _ finallyBody => isHollow finallyBody
  | _ => false

/-- No statement has a hollow ending, those in its blocks included. -/
def Statement.EndsFull (statement : Statement) : Prop :=
  ∀ part ∈ statement.parts, part.hasHollowEnding = false

instance : DecidablePred Statement.EndsFull := fun statement =>
  inferInstanceAs (Decidable (∀ part ∈ statement.parts, part.hasHollowEnding = false))

section Statements

variable {body : List Statement}

theorem prunedBlock_eq_map (body : List Statement) :
    prunedBlock body = (body.filter fun statement => !statement.isGap).map Statement.pruned := by
  induction body with
  | nil => rfl
  | cons statement rest ih =>
    rw [prunedBlock, List.filter_cons]
    cases statement.isGap with
    | true => exact ih
    | false => exact congrArg (statement.pruned :: ·) ih

theorem prunedBlock_eq_nil_iff : prunedBlock body = [] ↔ body.all Statement.isGap = true := by
  simp [prunedBlock_eq_map]

theorem isEmpty_prunedBlock (full : isHollow body = false) :
    (prunedBlock body).isEmpty = body.isEmpty := by
  cases body with
  | nil => rfl
  | cons statement rest =>
    have some : (statement :: rest).all Statement.isGap ≠ true := Bool.eq_false_iff.1 full
    exact List.isEmpty_eq_false_iff.2 (mt prunedBlock_eq_nil_iff.1 some)

theorem gapsOfBlock_prunedBlock (full : ∀ part ∈ partsOfBlock body, part.hasHollowEnding = false)
    (each : ∀ statement ∈ body, statement.EndsFull → statement.pruned.gaps = []) :
    gapsOfBlock (prunedBlock body) = [] := by
  induction body with
  | nil => rfl
  | cons statement rest ih =>
    rw [partsOfBlock, List.forall_mem_append] at full
    obtain ⟨first, later⟩ := List.forall_mem_cons.1 each
    rw [prunedBlock]
    split
    · exact ih full.2 later
    · rw [gapsOfBlock, first full.1, ih full.2 later, List.append_nil]

theorem gapsOfElse_prunedElse {elseBody : Option (List Statement)}
    (full : ∀ part ∈ partsOfElse elseBody, part.hasHollowEnding = false)
    (each : ∀ body ∈ elseBody, ∀ statement ∈ body, statement.EndsFull →
      statement.pruned.gaps = []) :
    gapsOfElse (prunedElse elseBody) = [] := by
  cases elseBody with
  | none => rfl
  | some body => exact gapsOfBlock_prunedBlock full (each body rfl)

theorem gapsOfCatches_prunedCatches {catches : List (CatchClause Statement)}
    (full : ∀ part ∈ partsOfCatches catches, part.hasHollowEnding = false)
    (each : ∀ clause ∈ catches, ∀ statement ∈ clause.body, statement.EndsFull →
      statement.pruned.gaps = []) :
    gapsOfCatches (prunedCatches catches) = [] := by
  induction catches with
  | nil => rfl
  | cons clause rest ih =>
    rw [partsOfCatches, List.forall_mem_append] at full
    obtain ⟨first, later⟩ := List.forall_mem_cons.1 each
    rw [prunedCatches, gapsOfCatches, gapsOfBlock_prunedBlock full.1 first, ih full.2 later,
      List.append_nil]

theorem Statement.gaps_pruned (statement : Statement) (full : statement.EndsFull) :
    statement.pruned.gaps = [] := by
  induction statement with
  | assign left right =>
    rw [pruned, gaps, left.gaps_filled, right.gaps_filled, List.append_nil]
  | branch test thenBody elseBody thenEach elseEach =>
    obtain ⟨-, inner⟩ := List.forall_mem_cons.1 full
    obtain ⟨thenFull, elseFull⟩ := List.forall_mem_append.1 inner
    rw [pruned, gaps, test.gaps_filled, gapsOfBlock_prunedBlock thenFull thenEach,
      gapsOfElse_prunedElse elseFull elseEach, List.append_nil, List.append_nil]
  | expression value | throw value => exact value.gaps_filled
  | loop init test step body initGaps stepGaps each =>
    obtain ⟨-, inner⟩ := List.forall_mem_cons.1 full
    obtain ⟨header, bodyFull⟩ := List.forall_mem_append.1 inner
    obtain ⟨initFull, stepFull⟩ := List.forall_mem_append.1 header
    rw [pruned, gaps, initGaps initFull, test.gaps_filled, stepGaps stepFull,
      gapsOfBlock_prunedBlock bodyFull each, List.append_nil, List.append_nil, List.append_nil]
  | returning value => exact gapsOfOption_filled value
  | guarded body catches finallyBody bodyEach catchEach finallyEach =>
    obtain ⟨own, inner⟩ := List.forall_mem_cons.1 full
    obtain ⟨front, finallyFull⟩ := List.forall_mem_append.1 inner
    obtain ⟨bodyFull, catchFull⟩ := List.forall_mem_append.1 front
    -- only a hollow list would be left as it is
    have notHollow : isHollow finallyBody = false := own
    rw [pruned, gaps, notHollow, if_neg Bool.false_ne_true,
      gapsOfBlock_prunedBlock bodyFull bodyEach, gapsOfCatches_prunedCatches catchFull catchEach,
      gapsOfBlock_prunedBlock finallyFull finallyEach, List.append_nil, List.append_nil]
  | declare type name init => exact gapsOfOption_filled init
  | comment | snippet | unsupported => rfl

theorem Declaration.gaps_pruned (declaration : Declaration)
    (full : ∀ member ∈ declaration.members, ∀ statement ∈ member.body, statement.EndsFull) :
    declaration.pruned.gaps = [] := by
  rw [gaps, pruned, List.flatMap_map, List.flatMap_eq_nil_iff]
  intro member inside
  cases member with
  | method value =>
    have each := full (.method value) inside
    exact gapsOfBlock_prunedBlock (forall_mem_partsOfBlock.2 each) fun statement _ =>
      statement.gaps_pruned
  | field | property | snippet => rfl

end Statements

end ApiClient.Tree
