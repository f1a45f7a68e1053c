import ApiClient.Proofs.Client.Naming

/-! The two ways to name methods.

Methods are named in camel case or as their operations are. The suffix is dropped after the first
letter has lost its case, but dropping it first comes to the same: no lower-case form has a capital
in it, so the suffix never begins inside the form of the first letter.
-/

set_option autoImplicit false

namespace ApiClient.Client

open ApiClient.Manifest

theorem toNat_ofNat_eq_or (code : Nat) :
    (Char.ofNat code).toNat = code ∨ (Char.ofNat code).toNat = 0 := by
  by_cases valid : code.isValidChar
  · rw [Char.ofNat, dif_pos valid]
    exact .inl rfl
  · rw [Char.ofNat, dif_neg valid]
    exact .inr rfl

theorem capitals_lt_caseRuns : ∀ run ∈ Text.caseRuns, 90 < run.first + run.distance := by
  decide +kernel

theorem not_capital_of_mem_lowerCase {c d : Char} (member : d ∈ Text.lowerCase c) :
    ¬('A' ≤ d ∧ d ≤ 'Z') := by
  have range : 'A' ≤ d ∧ d ≤ 'Z' ↔ 65 ≤ d.toNat ∧ d.toNat ≤ 90 := Iff.rfl
  rw [Text.lowerCase] at member
  split at member
  · -- the one form of two characters
    have codes : ∀ d ∈ ['i', Char.ofNat 0x307], 90 < d.toNat :=
      List.forall_mem_cons.2 ⟨by decide, List.forall_mem_singleton.2 (by decide)⟩
    have above := codes d member
    rw [range]
    omega
  · split at member
    · next run found =>
      have above := capitals_lt_caseRuns run (List.mem_of_find?_eq_some found)
      have covered : run.covers c.toNat = true :=
        List.find?_some (p := fun run : Text.CaseRun => run.covers c.toNat) found
      simp only [Text.CaseRun.covers, Bool.and_eq_true, decide_eq_true_eq] at covered
      obtain rfl := List.mem_singleton.1 member
      have code := toNat_ofNat_eq_or (c.toNat + run.distance).toNat
      rw [range]
      omega
    · next found =>
      -- a character that is its own form is no capital, as those have a run
      obtain rfl := List.mem_singleton.1 member
      intro capital
      have basic : d.toNat < 0x80 := by
        have := range.1 capital
        omega
      rw [find?_caseRuns_of_basic basic, if_pos capital] at found
      cases found

theorem lowerCase_ne_nil (c : Char) : Text.lowerCase c ≠ [] := by
  unfold Text.lowerCase
  split
  · exact List.cons_ne_nil _ _
  · split <;> exact List.cons_ne_nil _ _

section

variable {name : String}

theorem toList_camelCase_of_cons {c : Char} {rest : List Char} (text : name.toList = c :: rest) :
    (camelCase name).toList = Text.lowerCase c ++ rest := by
  simp [camelCase, text]

theorem camelCase_eq_empty_iff : camelCase name = "" ↔ name = "" := by
  cases text : name.toList with
  | nil => simp [camelCase, String.toList_eq_nil_iff.1 text]
  | cons c rest =>
    rw [← String.toList_eq_nil_iff, ← String.toList_eq_nil_iff, toList_camelCase_of_cons text, text]
    simp [lowerCase_ne_nil]

theorem camelCase_append (full : name ≠ "") (ending : String) :
    camelCase (name ++ ending) = camelCase name ++ ending := by
  cases text : name.toList with
  | nil => exact absurd (String.toList_eq_nil_iff.1 text) full
  | cons c rest =>
    have longer : (name ++ ending).toList = c :: (rest ++ ending.toList) := by simp [text]
    rw [← String.toList_inj, toList_camelCase_of_cons longer, String.toList_append,
      toList_camelCase_of_cons text, List.append_assoc]

/-- A name in camel case has the suffix only where the name had it. -/
theorem exists_stem_of_camelCase {stem : String} (suffixed : camelCase name = stem ++ "Async") :
    ∃ first, first ≠ "" ∧ name = first ++ "Async" := by
  have ending : "Async".toList = ['A', 's', 'y', 'n', 'c'] := rfl
  cases text : name.toList with
  | nil =>
    have empty : camelCase name = "" := camelCase_eq_empty_iff.2 (String.toList_eq_nil_iff.1 text)
    have letters := congrArg String.toList (empty.symm.trans suffixed)
    simp [ending] at letters
  | cons c rest =>
    have rebuilt (between : List Char) (split : rest = between ++ "Async".toList) :
        ∃ first, first ≠ "" ∧ name = first ++ "Async" := by
      refine ⟨String.ofList (c :: between), ?_, ?_⟩
      · rw [ne_eq, String.ofList_eq_empty_iff]
        exact List.cons_ne_nil _ _
      · rw [← String.toList_inj, text, split]
        simp
    rw [← String.toList_inj, toList_camelCase_of_cons text, String.toList_append,
      List.append_eq_append_iff] at suffixed
    rcases suffixed with ⟨between, -, split⟩ | ⟨overlap, form, split⟩
    · exact rebuilt between split
    · cases overlap with
      | nil => exact rebuilt [] split.symm
      | cons d overlap =>
        -- the suffix would begin inside the form of the first letter
        rw [ending, List.cons_append, List.cons.injEq] at split
        obtain ⟨rfl, -⟩ := split
        refine absurd ?_ (not_capital_of_mem_lowerCase (c := c) (d := 'A') ?_)
        · decide
        · rw [form]
          exact List.mem_append_right _ (List.mem_cons_self ..)

theorem methodName_true_eq (name : String) :
    methodName true name = camelCase (methodName false name) := by
  change dropAsync (camelCase name) = camelCase (dropAsync name)
  rcases dropAsync_outcome name with ⟨stem, full, rfl, left⟩ | ⟨same, plain⟩
  · rw [left, camelCase_append full]
    exact dropAsync_append (camelCase_eq_empty_iff.not.2 full)
  · rw [same]
    rcases dropAsync_outcome (camelCase name) with ⟨stem, -, suffixed, -⟩ | ⟨kept, -⟩
    · obtain ⟨first, filled, split⟩ := exists_stem_of_camelCase suffixed
      exact absurd split (plain first filled)
    · exact kept

theorem dropAsync_eq_empty_iff : dropAsync name = "" ↔ name = "" := by
  rcases dropAsync_outcome name with ⟨stem, full, rfl, left⟩ | ⟨same, -⟩
  · simp [left, full]
  · rw [same]

theorem methodName_eq_empty_iff (camel : Bool) : methodName camel name = "" ↔ name = "" := by
  cases camel with
  | false => exact dropAsync_eq_empty_iff
  | true => exact dropAsync_eq_empty_iff.trans camelCase_eq_empty_iff

end

/-- Both modes name the same operations: a name in camel case is the camel case of the other name.
No name gets lost, and what makes a name a word is kept. -/
theorem methodName_modes (name : String) :
    methodName true name = camelCase (methodName false name) ∧
    (∀ camel, methodName camel name = "" ↔ name = "") ∧
    (Identifier.problem? name = none → ∀ camel,
      (∀ c ∈ (methodName camel name).toList, Identifier.isIdentifierChar c = true) ∧
      ∀ c ∈ (methodName camel name).toList.head?, c.isDigit = false) := by
  refine ⟨methodName_true_eq name, methodName_eq_empty_iff, fun accepted camel => ?_⟩
  have identifier := (problem?_eq_none_iff_isIdentifier name).1 accepted
  obtain ⟨c, rest, text, notDigit, chars⟩ :=
    (isWord_iff _).1 (isWord_methodName identifier.toIsWord camel)
  rw [text]
  refine ⟨chars, ?_⟩
  rintro _ ⟨⟩
  exact notDigit

theorem methodName_modes_twiceAsync :
    methodName true "AsyncAsync" = "async" ∧ methodName false "AsyncAsync" = "Async" ∧
      (∀ c ∈ (methodName true "AsyncAsync").toList, Identifier.isIdentifierChar c = true) := by
  have accepted : Identifier.problem? "AsyncAsync" = none := by decide +kernel
  obtain ⟨camel, -, valid⟩ := methodName_modes "AsyncAsync"
  have plain : methodName false "AsyncAsync" = "Async" := by decide +kernel
  refine ⟨?_, plain, (valid accepted true).1⟩
  rw [camel, plain]
  decide +kernel

end ApiClient.Client
