import ApiClient.Proofs.TypeScript.Pieces
import ApiClient.TypeScript.Sink
import ApiClient.TypeScript.TypeNames

/-! What a sink holds after declarations were written to it.

One call adds the whole text of its declaration or leaves the sink as it is, and its error does not
depend on the calls before it. So the content grows by whole texts, those of the declarations that
have a text and that the sink takes.
-/

set_option autoImplicit false

namespace ApiClient.TypeScript

open ApiClient.Layout ApiClient.Tree

section

variable (mapper : TypeMapper) (options : Options)

def rendered? (declaration : Declaration) : Option String :=
  (declarationText mapper options declaration).toOption

def failure? (declaration : Declaration) : Option EmitError :=
  match declarationText mapper options declaration with
  | .ok _ => none
  | .error error => some error

namespace Sink

def grown (sink : Sink) (text : String) : Sink :=
  { sink with content := sink.content ++ text }

/-- What one call may return and leave behind: a whole text is added, or nothing is. -/
inductive Call (sink : Sink) (declaration : Declaration) : Option EmitError → Sink → Prop where
  | written {text : String} : declarationText mapper options declaration = .ok text →
      sink.admits text = true → Call sink declaration none (sink.grown text)
  | refused {text : String} : declarationText mapper options declaration = .ok text →
      sink.admits text = false → Call sink declaration (some .refusedWrite) sink
  | failed {error : EmitError} : declarationText mapper options declaration = .error error →
      Call sink declaration (some error) sink

def after (sink : Sink) (declarations : List Declaration) : Sink :=
  declarations.foldl (fun sink declaration => (sink.call mapper options declaration).2) sink

def TakesAll (sink : Sink) : Prop :=
  ∀ before text, (sink.grown before).admits text = true

def TakesNothing (sink : Sink) : Prop :=
  ∀ text, sink.admits text = false

end Sink

end

namespace Sink

@[simp] theorem content_grown (sink : Sink) (text : String) :
    (sink.grown text).content = sink.content ++ text := rfl

variable {mapper : TypeMapper} {options : Options} {sink : Sink} {declaration : Declaration}

theorem call_of_failed {error : EmitError}
    (failed : declarationText mapper options declaration = .error error) :
    sink.call mapper options declaration = (some error, sink) := by
  unfold call writeDeclaration
  rw [failed]
  rfl

theorem call_of_rendered {text : String}
    (rendered : declarationText mapper options declaration = .ok text) :
    sink.call mapper options declaration =
      if sink.admits text then (none, sink.grown text)
      else (some .refusedWrite, sink) := by
  unfold call writeDeclaration
  rw [rendered, ok_bind, write]
  cases sink.admits text <;> rfl

variable (mapper options sink) in
theorem call_outcome (declaration : Declaration) :
    Call mapper options sink declaration (sink.call mapper options declaration).1
      (sink.call mapper options declaration).2 := by
  cases rendered : declarationText mapper options declaration with
  | error error =>
    rw [call_of_failed rendered]
    exact .failed rendered
  | ok text =>
    rw [call_of_rendered rendered]
    cases admitted : sink.admits text with
    | true => exact .written rendered admitted
    | false => exact .refused rendered admitted

variable (mapper options sink) in
/-- A run is made of calls, each on the sink that the calls before it left. -/
theorem getElem?_run (declarations : List Declaration) (n : Nat) :
    (sink.run mapper options declarations)[n]? = declarations[n]?.map
      ((sink.after mapper options (declarations.take n)).call mapper options) := by
  induction declarations generalizing sink n with
  | nil => rfl
  | cons declaration rest ih =>
    cases n with
    | zero => rfl
    | succ n => exact ih _ n

theorem after_cons (declaration : Declaration) (rest : List Declaration) :
    sink.after mapper options (declaration :: rest) =
      (sink.call mapper options declaration).2.after mapper options rest := rfl

variable (mapper options sink) in
theorem after_take_succ {declarations : List Declaration} {n : Nat}
    (here : declarations[n]? = some declaration) :
    sink.after mapper options (declarations.take (n + 1)) =
      ((sink.after mapper options (declarations.take n)).call mapper options declaration).2 := by
  rw [List.take_add_one, here]
  unfold after
  rw [List.foldl_append]
  rfl

variable (mapper options sink) in
theorem content_call (declaration : Declaration) :
    ∃ texts, texts.Sublist ([declaration].filterMap (rendered? mapper options)) ∧
      (sink.call mapper options declaration).2.content = sink.content ++ String.join texts := by
  cases rendered : declarationText mapper options declaration with
  | error error =>
    rw [call_of_failed rendered]
    exact ⟨[], List.nil_sublist _, String.append_empty.symm⟩
  | ok text =>
    rw [call_of_rendered rendered]
    split
    · refine ⟨[text], ?_, by simp⟩
      simp [rendered?, rendered, Except.toOption]
    · exact ⟨[], List.nil_sublist _, String.append_empty.symm⟩

variable (mapper options sink) in
theorem content_after (declarations : List Declaration) :
    ∃ texts, texts.Sublist (declarations.filterMap (rendered? mapper options)) ∧
      (sink.after mapper options declarations).content = sink.content ++ String.join texts := by
  induction declarations generalizing sink with
  | nil => exact ⟨[], .slnil, String.append_empty.symm⟩
  | cons declaration rest ih =>
    obtain ⟨first, one, held⟩ := content_call mapper options sink declaration
    obtain ⟨later, among, grown⟩ := ih (sink.call mapper options declaration).2
    refine ⟨first ++ later, ?_, ?_⟩
    · rw [← List.singleton_append, List.filterMap_append]
      exact one.append among
    · rw [after_cons, grown, held, String.join_append, String.append_assoc]

theorem TakesAll.grown (all : sink.TakesAll) (text : String) : (sink.grown text).TakesAll := by
  intro before after
  have admitted := all (text ++ before) after
  rwa [Sink.grown, ← String.append_assoc] at admitted

theorem call_of_takesAll (all : sink.TakesAll) (declaration : Declaration) :
    sink.call mapper options declaration = (failure? mapper options declaration,
      sink.grown (String.join ([declaration].filterMap (rendered? mapper options)))) := by
  cases rendered : declarationText mapper options declaration with
  | error error =>
    rw [call_of_failed rendered]
    simp [rendered?, failure?, rendered, Except.toOption, grown]
  | ok text =>
    have taken : sink.admits text = true := by simpa [grown] using all "" text
    rw [call_of_rendered rendered, if_pos taken]
    simp [rendered?, failure?, rendered, Except.toOption, String.join_cons]

theorem run_of_takesAll (all : sink.TakesAll) (declarations : List Declaration) :
    (sink.after mapper options declarations).content =
        sink.content ++ String.join (declarations.filterMap (rendered? mapper options)) ∧
      (sink.run mapper options declarations).map Prod.fst =
        declarations.map (failure? mapper options) := by
  induction declarations generalizing sink with
  | nil => exact ⟨String.append_empty.symm, rfl⟩
  | cons declaration rest ih =>
    obtain ⟨content, errors⟩ :=
      ih (all.grown (String.join ([declaration].filterMap (rendered? mapper options))))
    rw [after_cons, run, call_of_takesAll all]
    refine ⟨?_, congrArg (failure? mapper options declaration :: ·) errors⟩
    rw [content, ← List.singleton_append (l := rest), List.filterMap_append, String.join_append,
      ← String.append_assoc]
    rfl

theorem call_of_takesNothing (nothing : sink.TakesNothing) (declaration : Declaration) :
    sink.call mapper options declaration =
      (some ((failure? mapper options declaration).getD .refusedWrite), sink) := by
  cases rendered : declarationText mapper options declaration with
  | error error =>
    rw [call_of_failed rendered, failure?, rendered]
    rfl
  | ok text =>
    have refused : ¬sink.admits text = true := Bool.not_eq_true _ ▸ nothing text
    rw [call_of_rendered rendered, if_neg refused, failure?, rendered]
    rfl

theorem run_of_takesNothing (nothing : sink.TakesNothing) (declarations : List Declaration) :
    sink.run mapper options declarations = declarations.map fun declaration =>
      (some ((failure? mapper options declaration).getD .refusedWrite), sink) := by
  induction declarations with
  | nil => rfl
  | cons declaration rest ih =>
    rw [run, call_of_takesNothing nothing, List.map_cons]
    exact congrArg _ ih

end Sink

/-- A sink receives whole declarations only. Each call adds the text of its declaration or leaves
the sink as it is, and its error is that of the rendering, or a refusal where there was a text. So
the content grows by texts of declarations in their order: by all that there are if nothing is
refused, and by none if everything is. -/
theorem sink_wholeDeclarations (mapper : TypeMapper) (options : Options) (sink : Sink)
    (declarations : List Declaration) :
    (∀ n declaration, declarations[n]? = some declaration → ∃ error,
      (sink.run mapper options declarations)[n]? =
          some (error, sink.after mapper options (declarations.take (n + 1))) ∧
        Sink.Call mapper options (sink.after mapper options (declarations.take n)) declaration error
          (sink.after mapper options (declarations.take (n + 1)))) ∧
    (∃ texts, texts.Sublist (declarations.filterMap (rendered? mapper options)) ∧
      (sink.after mapper options declarations).content = sink.content ++ String.join texts) ∧
    (sink.TakesAll →
      (sink.after mapper options declarations).content =
          sink.content ++ String.join (declarations.filterMap (rendered? mapper options)) ∧
        (sink.run mapper options declarations).map Prod.fst =
          declarations.map (failure? mapper options)) ∧
    (sink.TakesNothing →
      sink.run mapper options declarations = declarations.map fun declaration =>
        (some ((failure? mapper options declaration).getD .refusedWrite), sink)) := by
  refine ⟨fun n declaration here => ?_, Sink.content_after mapper options sink declarations,
    fun all => Sink.run_of_takesAll all declarations,
    fun nothing => Sink.run_of_takesNothing nothing declarations⟩
  rw [Sink.getElem?_run, here, Sink.after_take_succ mapper options sink here]
  exact ⟨_, rfl, Sink.call_outcome mapper options _ declaration⟩

def jumpingClass : Declaration :=
  { kind := .classType, name := "Jumper"
    members := [
      .property "name" .string,
      .method {
        name := "jump"
        body := [.guarded [] [⟨"outer", [.guarded [] [⟨"inner", [
          .comment "first", .snippet "second();", .unsupported .goto]⟩] []]⟩] []] }] }

def patchyDeclarations : List Declaration :=
  [{ kind := .interfaceType, name := "Named", members := [.property "name" .string] },
   jumpingClass,
   { kind := .enumType, name := "Color", members := [.property "Red" .int] },
   { kind := .classType, name := "Empty" }]

theorem sink_wholeDeclarations_patchy :
    let sink : Sink := { content := "// types\n" }
    sink.TakesAll ∧
    (sink.after typeMapper .strict patchyDeclarations).content =
      "// types\nexport interface Named \x7b\n    name: string;\n\x7d\n" ++
        "export class Empty \x7b\n\x7d\n" ∧
    (sink.run typeMapper .strict patchyDeclarations).map Prod.fst =
      [none, some (.unsupported "goto"), some (.invalidEnumMember "Color" "property 'Red'"), none] ∧
    sink.after typeMapper .strict (patchyDeclarations.take 2) =
      sink.after typeMapper .strict (patchyDeclarations.take 1) := by
  intro sink
  have all : sink.TakesAll := fun _ _ => rfl
  obtain ⟨calls, -, whole, -⟩ := sink_wholeDeclarations typeMapper .strict sink patchyDeclarations
  obtain ⟨content, errors⟩ := whole all
  obtain ⟨error, -, outcome⟩ := calls 1 jumpingClass rfl
  have failed : declarationText typeMapper .strict jumpingClass = .error (.unsupported "goto") := by
    decide +kernel
  refine ⟨all, content.trans (by decide +kernel), errors.trans (by decide +kernel), ?_⟩
  generalize sink.after typeMapper .strict (patchyDeclarations.take (1 + 1)) = next at outcome ⊢
  cases outcome with
  | written rendered => cases failed.symm.trans rendered
  | refused rendered => rfl
  | failed other => rfl

end ApiClient.TypeScript
