import Mathlib.Data.List.Perm.Basic
import ApiClient.Proofs.TypeScript.Pieces
import ApiClient.TypeScript.TypeNames

/-! Siblings and their pieces.

The statements of a block, and the members of a class or an interface, are rendered one by one: the
piece of a sibling depends on nothing but the sibling and the options. The text around the pieces
does not depend on the siblings, however deep a block lies in a declaration. Putting siblings in,
taking them out or moving them does the same to their pieces and leaves the rest of the text as it
is.
-/

set_option autoImplicit false

namespace ApiClient.TypeScript

open ApiClient.Layout ApiClient.Tree

section Siblingwise

variable {α : Type}

/-- The rendering of siblings is their pieces in order between two texts that do not depend on
them, or the first error. So siblings bring their own pieces with them and take nothing else away,
and siblings in another order have their pieces in that order. -/
structure Siblingwise (piece : α → Except EmitError String) (admitted : List α → Prop)
    (render : List α → Except EmitError String) : Prop where
  between : ∃ before after : Except EmitError String, ∀ siblings, admitted siblings →
    render siblings = do return (← before) ++ String.join (← siblings.mapM piece) ++ (← after)
  inserted : ∀ front new back texts text,
    admitted (front ++ back) → admitted (front ++ new ++ back) →
    new.mapM piece = .ok texts → render (front ++ back) = .ok text →
    ∃ head tail, text = head ++ tail ∧
      render (front ++ new ++ back) = .ok (head ++ String.join texts ++ tail)
  removed : ∀ front old back text,
    admitted (front ++ old ++ back) → admitted (front ++ back) →
    render (front ++ old ++ back) = .ok text →
    ∃ head texts tail, old.mapM piece = .ok texts ∧ text = head ++ String.join texts ++ tail ∧
      render (front ++ back) = .ok (head ++ tail)
  reordered : ∀ siblings others text, siblings.Perm others →
    admitted siblings → admitted others → render siblings = .ok text →
    ∃ head texts otherTexts tail, siblings.mapM piece = .ok texts ∧
      others.mapM piece = .ok otherTexts ∧ texts.Perm otherTexts ∧
      text = head ++ String.join texts ++ tail ∧
      render others = .ok (head ++ String.join otherTexts ++ tail)

variable {piece : α → Except EmitError String}

theorem bind_eq_ok_iff {ε β γ : Type} {run : Except ε β} {next : β → Except ε γ} {result : γ} :
    (run >>= next) = .ok result ↔ ∃ value, run = .ok value ∧ next value = .ok result := by
  cases run <;> simp [bind, Except.bind]

theorem between_eq_ok_iff {before after : Except EmitError String}
    {pieces : Except EmitError (List String)} {text : String} :
    (do return (← before) ++ String.join (← pieces) ++ (← after)) = Except.ok text ↔
      ∃ head, before = .ok head ∧ ∃ texts, pieces = .ok texts ∧ ∃ tail, after = .ok tail ∧
        head ++ String.join texts ++ tail = text := by
  simp only [bind_eq_ok_iff, pure, Except.pure, Except.ok.injEq]

theorem mapM_append_eq_ok_iff {front back : List α} {texts : List String} :
    (front ++ back).mapM piece = .ok texts ↔
      ∃ first, front.mapM piece = .ok first ∧ ∃ second, back.mapM piece = .ok second ∧
        first ++ second = texts := by
  simp only [List.mapM_append, bind_eq_ok_iff, pure, Except.pure, Except.ok.injEq]

theorem mapM_eq_ok_iff {siblings : List α} {texts : List String} :
    siblings.mapM piece = .ok texts ↔
      List.Forall₂ (fun sibling text => piece sibling = .ok text) siblings texts := by
  induction siblings generalizing texts with
  | nil => simp [pure, Except.pure, eq_comm]
  | cons sibling rest ih =>
    simp only [List.mapM_cons, bind_eq_ok_iff, ih, List.forall₂_cons_left_iff, pure, Except.pure,
      Except.ok.injEq, exists_and_left, @eq_comm _ texts]

theorem mapM_perm {siblings others : List α} {texts : List String}
    (reordered : siblings.Perm others) (pieces : siblings.mapM piece = .ok texts) :
    ∃ otherTexts, others.mapM piece = .ok otherTexts ∧ texts.Perm otherTexts := by
  obtain ⟨otherTexts, each, moved⟩ :=
    List.perm_comp_forall₂ reordered.symm (mapM_eq_ok_iff.1 pieces)
  exact ⟨otherTexts, mapM_eq_ok_iff.2 each, moved.symm⟩

variable {admitted : List α → Prop} {render : List α → Except EmitError String}

theorem Siblingwise.of_between (before after : Except EmitError String)
    (between : ∀ siblings, admitted siblings → render siblings =
      do return (← before) ++ String.join (← siblings.mapM piece) ++ (← after)) :
    Siblingwise piece admitted render where
  between := ⟨before, after, between⟩
  inserted front new back texts text may more pieces rendered := by
    rw [between _ may, between_eq_ok_iff] at rendered
    obtain ⟨head, start, all, both, tail, stop, rfl⟩ := rendered
    obtain ⟨first, earlier, second, later, rfl⟩ := mapM_append_eq_ok_iff.1 both
    refine ⟨head ++ String.join first, String.join second ++ tail, ?_, ?_⟩
    · simp only [String.join_append, String.append_assoc]
    · rw [between _ more, between_eq_ok_iff]
      have inner := mapM_append_eq_ok_iff.2 ⟨first, earlier, texts, pieces, rfl⟩
      have every := mapM_append_eq_ok_iff.2 ⟨_, inner, second, later, rfl⟩
      refine ⟨head, start, _, every, tail, stop, ?_⟩
      simp only [String.join_append, String.append_assoc]
  removed front old back text may fewer rendered := by
    rw [between _ may, between_eq_ok_iff] at rendered
    obtain ⟨head, start, all, every, tail, stop, rfl⟩ := rendered
    obtain ⟨both, inner, second, later, rfl⟩ := mapM_append_eq_ok_iff.1 every
    obtain ⟨first, earlier, texts, pieces, rfl⟩ := mapM_append_eq_ok_iff.1 inner
    refine ⟨head ++ String.join first, texts, String.join second ++ tail, pieces, ?_, ?_⟩
    · simp only [String.join_append, String.append_assoc]
    · rw [between _ fewer, between_eq_ok_iff]
      have rest := mapM_append_eq_ok_iff.2 ⟨first, earlier, second, later, rfl⟩
      refine ⟨head, start, _, rest, tail, stop, ?_⟩
      simp only [String.join_append, String.append_assoc]
  reordered siblings others text moved may might rendered := by
    rw [between _ may, between_eq_ok_iff] at rendered
    obtain ⟨head, start, texts, pieces, tail, stop, rfl⟩ := rendered
    obtain ⟨otherTexts, otherPieces, same⟩ := mapM_perm moved pieces
    refine ⟨head, texts, otherTexts, tail, pieces, otherPieces, same, rfl, ?_⟩
    rw [between _ might, between_eq_ok_iff]
    exact ⟨head, start, otherTexts, otherPieces, tail, stop, rfl⟩

theorem InPieces.siblingwise (pieces : InPieces (List.map piece) admitted render) :
    Siblingwise piece admitted render := by
  obtain ⟨before, after, made⟩ := pieces
  refine .of_between (joined before) (joined after) fun siblings may => ?_
  rw [made siblings may, joined_append, joined_append, joined_map]
  simp only [bind_assoc, pure_bind]

end Siblingwise

section Declarations

variable (mapper : TypeMapper) (options : Options)

/-- A block of two lists is the two blocks, and the members of a class or an interface stand
between a line feed and the closing brace. Statements in a block and members of a class or an
interface are siblings that do not influence each other, wherever the block stands in the
declaration. -/
theorem declarationText_siblings :
    (∀ front back, blockText mapper options (front ++ back) =
      do return (← blockText mapper options front) ++ (← blockText mapper options back)) ∧
    (∀ place : BlockPlace,
      Siblingwise (statementPiece mapper (options.sunk place.depth)) place.Admits fun body =>
        blockText mapper options (place.fill body)) ∧
    ∀ declaration : Declaration, declaration.isEnum = false →
      membersText mapper options declaration = (do
        let texts ← declaration.members.mapM (memberText mapper options.nested)
        return "\n" ++ String.join texts ++ options.margin ++ "\x7d\n") ∧
      (Siblingwise (memberText mapper options.nested) (fun _ => True) fun members =>
        declarationText mapper options { declaration with members }) ∧
      ∀ (front back : List Member) (method : Method) (place : BlockPlace),
        Siblingwise (statementPiece mapper (options.sunk (place.depth + 1))) place.Admits
          fun body => declarationText mapper options { declaration with
            members := front ++ .method { method with body := place.fill body } :: back } := by
  refine ⟨fun front back => ?_, fun place => ?_, fun declaration plain => ⟨?_, ?_, ?_⟩⟩
  · rw [blockText_eq_joined, List.map_append, joined_append, ← blockText_eq_joined,
      ← blockText_eq_joined]
  · exact (blockText_inPieces mapper options place).siblingwise
  · exact membersText_of_not_isEnum mapper options plain
  · exact (members_inPieces mapper options plain).siblingwise
  · intro front back method place
    exact (body_inPieces mapper options plain front back method place).siblingwise

end Declarations

def closingClass (body : List Statement) : Declaration :=
  let place : BlockPlace := .within [] (.finallyBody [] [] .whole) []
  { kind := .classType, name := "Box"
    members := [.method { Method.initializer with body := place.fill body }] }

theorem declarationText_siblings_swapped :
    (closingClass []).isEnum = false ∧
      ∃ head texts otherTexts tail, texts.Perm otherTexts ∧
        declarationText typeMapper {} (closingClass [.snippet "a()", .returning none]) =
          .ok (head ++ String.join texts ++ tail) ∧
        declarationText typeMapper {} (closingClass [.returning none, .snippet "a()"]) =
          .ok (head ++ String.join otherTexts ++ tail) := by
  have plain : (closingClass []).isEnum = false := rfl
  have siblings := ((declarationText_siblings typeMapper {}).2.2 (closingClass []) plain).2.2
    [] [] Method.initializer (.within [] (.finallyBody [] [] .whole) [])
  obtain ⟨head, texts, otherTexts, tail, -, -, moved, rendered, others⟩ :=
    siblings.reordered [.snippet "a()", .returning none] [.returning none, .snippet "a()"] _
      (.swap _ _ _) (fun _ => nofun) (fun _ => nofun) rfl
  exact ⟨plain, head, texts, otherTexts, tail, moved, congrArg Except.ok rendered, others⟩

end ApiClient.TypeScript
