import ApiClient.Proofs.Layout.Depth
import ApiClient.Proofs.Tree.Places
import ApiClient.TypeScript.Declaration

/-! Texts that are made of pieces.

A rendering is a list of pieces, one behind the other, or the first error among them. What stands
in a place of a tree has its own pieces in the rendering of the tree, between pieces that do not
depend on it, however deep the place lies.
-/

set_option autoImplicit false

namespace ApiClient.TypeScript

open ApiClient.Layout ApiClient.Tree

/-- Pieces one behind the other, or the first error among them. -/
def joined : List (Except EmitError String) → Except EmitError String
  | [] => .ok ""
  | piece :: rest => do
    let text ← piece
    let texts ← joined rest
    return text ++ texts

section Joined

theorem ok_bind {α β : Type} (value : α) (next : α → Except EmitError β) :
    (Except.ok value >>= next) = next value := rfl

theorem joined_map {α : Type} (piece : α → Except EmitError String) (siblings : List α) :
    joined (siblings.map piece) = do return String.join (← siblings.mapM piece) := by
  induction siblings with
  | nil => rfl
  | cons sibling rest ih =>
    rw [List.map_cons, joined, ih, List.mapM_cons]
    simp only [bind_assoc, pure_bind, String.join_cons]

theorem joined_singleton (piece : Except EmitError String) : joined [piece] = piece := by
  simp only [joined, ok_bind, String.append_empty, bind_pure]

theorem joined_append (front back : List (Except EmitError String)) :
    joined (front ++ back) = do return (← joined front) ++ (← joined back) := by
  induction front with
  | nil => simp only [List.nil_append, joined, ok_bind, String.empty_append, bind_pure]
  | cons piece rest ih =>
    rw [List.cons_append, joined, joined, ih]
    simp only [bind_assoc, pure_bind, String.append_assoc]

/-- A piece that is made of pieces may be replaced by them. -/
theorem joined_nested (front inner back : List (Except EmitError String)) :
    joined (front ++ joined inner :: back) = joined (front ++ inner ++ back) := by
  have nested : joined (joined inner :: back) = joined (inner ++ back) := by
    rw [joined_append]
    rfl
  rw [List.append_assoc, joined_append, nested, ← joined_append]

end Joined

section Equations

variable (mapper : TypeMapper) (options : Options)

def statementPiece (statement : Statement) : Except EmitError String :=
  chunk options statement (statementText mapper options statement)

def bracedPiece (opening : String) (body : List Statement) : Except EmitError String :=
  joined [.ok opening, blockText mapper options body, .ok (options.margin ++ "\x7d")]

def clausePiece (clause : CatchClause Statement) : Except EmitError String :=
  bracedPiece mapper options ("\n" ++ options.margin ++ "catch (" ++ clause.localName ++ ") \x7b\n")
    clause.body

def finallyPiece (finallyBody : List Statement) : Except EmitError String :=
  if finallyBody.isEmpty then .ok ""
  else bracedPiece mapper options ("\n" ++ options.margin ++ "finally \x7b\n") finallyBody

theorem finallyPiece_of_ne_nil {finallyBody : List Statement} (filled : finallyBody ≠ []) :
    finallyPiece mapper options finallyBody =
      bracedPiece mapper options ("\n" ++ options.margin ++ "finally \x7b\n") finallyBody := by
  rw [finallyPiece, List.isEmpty_eq_false_iff.2 filled, if_neg Bool.false_ne_true]

theorem blockText_eq_joined (body : List Statement) :
    blockText mapper options body = joined (body.map (statementPiece mapper options.nested)) := by
  induction body with
  | nil => rfl
  | cons statement rest ih =>
    rw [blockText, ih]
    rfl

theorem memberTexts_eq_joined (members : List Member) :
    memberTexts mapper options members = joined (members.map (memberText mapper options)) := by
  induction members with
  | nil => rfl
  | cons member rest ih =>
    rw [memberTexts, ih]
    rfl

theorem catchesText_eq_joined (catches : List (CatchClause Statement)) :
    catchesText mapper options catches = joined (catches.map (clausePiece mapper options)) := by
  induction catches with
  | nil => rfl
  | cons clause rest ih =>
    rw [catchesText, ih]
    simp only [List.map_cons, clausePiece, bracedPiece, joined, ok_bind, bind_assoc, pure_bind,
      String.append_assoc, String.append_empty]

theorem statementText_branch (test : Expression) (thenBody : List Statement)
    (elseBody : Option (List Statement)) :
    statementText mapper options (.branch test thenBody elseBody) =
      joined [.ok "if (", expressionText mapper options.unsupported test, .ok ")\x7b\n",
        blockText mapper options thenBody, .ok (options.margin ++ "\x7d"),
        elseBranchText mapper options elseBody] := by
  simp only [statementText, joined, ok_bind, bind_assoc, pure_bind, String.append_assoc,
    String.append_empty]

theorem elseBranchText_some (body : List Statement) :
    elseBranchText mapper options (some body) =
      bracedPiece mapper options ("\n" ++ options.margin ++ "\x7b\n") body := by
  simp only [elseBranchText, bracedPiece, joined, ok_bind, bind_assoc, pure_bind,
    String.append_assoc, String.append_empty]

theorem statementText_loop (init step : Statement) (test : Expression) (body : List Statement) :
    statementText mapper options (.loop init test step body) =
      joined [.ok "for (", statementText mapper options init, .ok "; ",
        expressionText mapper options.unsupported test, .ok "; ",
        statementText mapper options step, .ok ")\x7b\n", blockText mapper options body,
        .ok (options.margin ++ "\x7d")] := by
  simp only [statementText, joined, ok_bind, bind_assoc, pure_bind, String.append_assoc,
    String.append_empty]

theorem statementText_guarded (body finallyBody : List Statement)
    (catches : List (CatchClause Statement)) :
    statementText mapper options (.guarded body catches finallyBody) =
      joined [.ok "try \x7b\n", blockText mapper options body, .ok (options.margin ++ "\x7d"),
        catchesText mapper options catches, finallyPiece mapper options finallyBody] := by
  cases finallyBody with
  | nil =>
    simp only [statementText, blockText, finallyPiece, List.isEmpty_nil, if_true, joined, ok_bind,
      bind_assoc, pure_bind, String.append_assoc, String.append_empty]
  | cons statement rest =>
    simp only [statementText, finallyPiece, bracedPiece, List.isEmpty_cons, Bool.false_eq_true,
      if_false, joined, ok_bind, bind_assoc, pure_bind, String.append_assoc, String.append_empty]

def methodHead (method : Method) : String :=
  "\n" ++ docText options method.doc ++ options.margin ++
    (if method.isConstructor then "constructor" else method.name) ++ "(" ++
    ", ".intercalate (method.parameters.map fun p => p.name ++ ": " ++ mapper.type p.type) ++ ")" ++
    returnClause mapper method ++ "\x7b\n"

theorem methodText_eq_joined (method : Method) (body : List Statement) :
    methodText mapper options { method with body } =
      joined [.ok (methodHead mapper options method), blockText mapper options body,
        .ok (options.margin ++ "\x7d\n")] := by
  have clause : returnClause mapper { method with body } = returnClause mapper method := rfl
  simp only [methodText, clause, methodHead, joined, ok_bind, bind_assoc, pure_bind,
    String.append_assoc, String.append_empty]

theorem membersText_of_not_isEnum {declaration : Declaration}
    (plain : declaration.isEnum = false) :
    membersText mapper options declaration = do
      let texts ← declaration.members.mapM (memberText mapper options.nested)
      return "\n" ++ String.join texts ++ options.margin ++ "\x7d\n" := by
  simp only [membersText, plain, Bool.false_eq_true, if_false, memberTexts_eq_joined, joined_map,
    bind_assoc, pure_bind]

theorem declarationText_eq_joined {declaration : Declaration}
    (plain : declaration.isEnum = false) (members : List Member) :
    declarationText mapper options { declaration with members } =
      joined [.ok (headText mapper options declaration ++ "\n"),
        memberTexts mapper options.nested members, .ok (options.margin ++ "\x7d\n")] := by
  have head : headText mapper options { declaration with members } =
      headText mapper options declaration := rfl
  have same : { declaration with members }.isEnum = false := plain
  simp only [declarationText, membersText, head, same, Bool.false_eq_true, if_false, joined,
    ok_bind, bind_assoc, pure_bind, String.append_assoc, String.append_empty]

end Equations

section Pieces

variable {α : Type} {pieces : α → List (Except EmitError String)} {admitted : α → Prop}
variable {render : α → Except EmitError String}

/-- The rendering of something has its pieces between pieces that do not depend on it. -/
def InPieces (pieces : α → List (Except EmitError String)) (admitted : α → Prop)
    (render : α → Except EmitError String) : Prop :=
  ∃ before after, ∀ x, admitted x → render x = joined (before ++ pieces x ++ after)

theorem InPieces.within {outer : α → Except EmitError String}
    (front back : List (Except EmitError String)) (inner : InPieces pieces admitted render)
    (made : ∀ x, admitted x → outer x = joined (front ++ render x :: back)) :
    InPieces pieces admitted outer := by
  obtain ⟨before, after, rendered⟩ := inner
  refine ⟨front ++ before, after ++ back, fun x may => ?_⟩
  rw [made x may, rendered x may, joined_nested]
  simp only [List.append_assoc]

theorem InPieces.siblings (piece : α → Except EmitError String) (admitted : List α → Prop) :
    InPieces (List.map piece) admitted fun siblings => joined (siblings.map piece) :=
  ⟨[], [], fun siblings _ => by rw [List.nil_append, List.append_nil]⟩

theorem InPieces.among {β : Type} {piece : β → Except EmitError String} {sibling : α → β}
    (front back : List β) (inner : InPieces pieces admitted fun x => piece (sibling x)) :
    InPieces pieces admitted fun x => joined ((front ++ sibling x :: back).map piece) :=
  inner.within (front.map piece) (back.map piece) fun x _ => by
    rw [List.map_append, List.map_cons]

theorem InPieces.braced {mapper : TypeMapper} {options : Options} {body : α → List Statement}
    (opening : String)
    (inner : InPieces pieces admitted fun x => blockText mapper options (body x)) :
    InPieces pieces admitted fun x => bracedPiece mapper options opening (body x) :=
  inner.within [_] [_] fun _ _ => rfl

theorem InPieces.congr {other : α → Except EmitError String}
    (inner : InPieces pieces admitted render) (same : ∀ x, admitted x → other x = render x) :
    InPieces pieces admitted other := by
  obtain ⟨before, after, rendered⟩ := inner
  exact ⟨before, after, fun x may => (same x may).trans (rendered x may)⟩

theorem InPieces.mono {fewer : α → Prop} (inner : InPieces pieces admitted render)
    (narrow : ∀ x, fewer x → admitted x) : InPieces pieces fewer render := by
  obtain ⟨before, after, rendered⟩ := inner
  exact ⟨before, after, fun x may => rendered x (narrow x may)⟩

end Pieces

theorem sunk_one (options : Options) : options.sunk 1 = options.nested := by
  rw [Options.sunk, Options.nested, Nat.add_comm]

theorem sunk_nested (options : Options) (extra : Nat) :
    options.nested.sunk extra = options.sunk (extra + 1) := by
  rw [Options.sunk, Options.sunk, Options.nested, Nat.add_assoc, Nat.add_comm 1]

section Places

variable (mapper : TypeMapper)

theorem map_eq_joined (head tail : String) (text : Except EmitError String) :
    text.map (fun text => head ++ text ++ tail) = joined [.ok head, text, .ok tail] := by
  cases text with
  | error error => rfl
  | ok text => simp [joined, ok_bind, Except.map, pure, Except.pure, String.append_assoc]

theorem statementPiece_fill (options : Options) (place : StatementPlace) :
    ∃ head, ∀ body, statementPiece mapper options (place.fill body) =
      joined [.ok head, statementText mapper options (place.fill body), .ok ";\n"] := by
  cases place with
  | thenBody | elseBody | loopInit | loopStep | loopBody =>
    exact ⟨options.margin, fun body => map_eq_joined _ _ _⟩
  | tryBody | catchBody | finallyBody =>
    exact ⟨"\n" ++ options.margin, fun body => map_eq_joined _ _ _⟩

theorem statementPiece_value (options : Options) (place : ValuePlace) (value : Expression) :
    statementPiece mapper options (place.fill value) =
      joined [.ok options.margin, statementText mapper options (place.fill value), .ok ";\n"] := by
  cases place <;> exact map_eq_joined _ _ _

mutual

theorem blockText_inPieces (options : Options) : (place : BlockPlace) →
    InPieces (List.map (statementPiece mapper (options.sunk place.depth))) place.Admits
      fun body => blockText mapper options (place.fill body)
  | .whole => by
    rw [BlockPlace.depth, sunk_one]
    exact (InPieces.siblings _ _).congr fun body _ => blockText_eq_joined mapper options body
  | .within front place back => by
    obtain ⟨head, text⟩ := statementPiece_fill mapper options.nested place
    have inner := (statementText_inPieces options.nested place).within [_] [_] fun body _ =>
      text body
    rw [sunk_nested] at inner
    exact (inner.among front back).congr fun body _ => blockText_eq_joined mapper options _

theorem statementText_inPieces (options : Options) : (place : StatementPlace) →
    InPieces (List.map (statementPiece mapper (options.sunk place.depth))) place.Admits
      fun body => statementText mapper options (place.fill body)
  | .thenBody test place elseBody =>
    (blockText_inPieces options place).within [_, _, _] [_, _] fun body _ =>
      statementText_branch mapper options test (place.fill body) elseBody
  | .elseBody test thenBody place =>
    have inner := ((blockText_inPieces options place).braced _).congr fun body _ =>
      elseBranchText_some mapper options (place.fill body)
    inner.within [_, _, _, _, _] [] fun body _ =>
      statementText_branch mapper options test thenBody (some (place.fill body))
  | .loopInit place test step body =>
    (statementText_inPieces options place).within [_] [_, _, _, _, _, _, _] fun init _ =>
      statementText_loop mapper options (place.fill init) step test body
  | .loopStep init test place body =>
    (statementText_inPieces options place).within [_, _, _, _, _] [_, _, _] fun step _ =>
      statementText_loop mapper options init (place.fill step) test body
  | .loopBody init test step place =>
    (blockText_inPieces options place).within [_, _, _, _, _, _, _] [_] fun body _ =>
      statementText_loop mapper options init step test (place.fill body)
  | .tryBody place catches finallyBody =>
    (blockText_inPieces options place).within [_] [_, _, _] fun body _ =>
      statementText_guarded mapper options (place.fill body) finallyBody catches
  | .catchBody body front localName place back finallyBody => by
    have clause := (blockText_inPieces options place).braced
      ("\n" ++ options.margin ++ "catch (" ++ localName ++ ") \x7b\n")
    have clauses := (InPieces.among front back clause).congr fun inside _ =>
      catchesText_eq_joined mapper options (front ++ ⟨localName, place.fill inside⟩ :: back)
    exact clauses.within [_, _, _] [_] fun inside _ =>
      statementText_guarded mapper options body finallyBody _
  | .finallyBody body catches place => by
    have inner := (blockText_inPieces options place).mono fun inside
      (admitted : (StatementPlace.finallyBody body catches place).Admits inside) =>
        admitted.finallyBody.1
    have ending := (inner.braced _).congr fun inside admitted =>
      finallyPiece_of_ne_nil mapper options admitted.finallyBody.2
    exact ending.within [_, _, _, _] [] fun inside _ =>
      statementText_guarded mapper options body (place.fill inside) catches

end

end Places

section Declarations

variable (mapper : TypeMapper) (options : Options)

theorem members_inPieces {declaration : Declaration} (plain : declaration.isEnum = false) :
    InPieces (List.map (memberText mapper options.nested)) (fun _ => True) fun members =>
      declarationText mapper options { declaration with members } :=
  ((InPieces.siblings _ _).congr fun members _ =>
    memberTexts_eq_joined mapper options.nested members).within [_] [_] fun members _ =>
      declarationText_eq_joined mapper options plain members

theorem body_inPieces {declaration : Declaration} (plain : declaration.isEnum = false)
    (front back : List Member) (method : Method) (place : BlockPlace) :
    InPieces (List.map (statementPiece mapper (options.sunk (place.depth + 1)))) place.Admits
      fun body => declarationText mapper options { declaration with
        members := front ++ .method { method with body := place.fill body } :: back } := by
  have inner := (blockText_inPieces mapper options.nested place).within [_] [_] fun body _ =>
    methodText_eq_joined mapper options.nested method (place.fill body)
  rw [sunk_nested] at inner
  have members := (inner.among front back).congr fun body _ =>
    memberTexts_eq_joined mapper options.nested
      (front ++ .method { method with body := place.fill body } :: back)
  exact members.within [_] [_] fun body _ => declarationText_eq_joined mapper options plain _

end Declarations

end ApiClient.TypeScript
