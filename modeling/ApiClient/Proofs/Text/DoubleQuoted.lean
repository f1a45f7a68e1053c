import ApiClient.Text.Quoted
import Mathlib.Data.List.Basic
import Mathlib.Data.Option.Basic

/-! Texts between double quotes read back as they were written, whatever follows them. A token ends
at the first quote that is not escaped, so nothing shorter at its beginning is a token. -/

set_option autoImplicit false

namespace ApiClient.Text

/-- The character that an escaped letter stands for. -/
def unescaped? : Char → Option Char
  | '\\' => some '\\'
  | '"' => some '"'
  | 'n' => some '\n'
  | 'r' => some '\r'
  | _ => none

/-- The characters that do not stand for themselves between double quotes. -/
def mustEscape : List Char := ['\\', '"', '\n', '\r']

/-- The text up to the closing quote, and what follows the quote. A line end breaks the token. -/
def readContent? : List Char → Option (List Char × List Char)
  | [] => none
  | '\\' :: letter :: rest => do
    let c ← unescaped? letter
    let (content, rest) ← readContent? rest
    return (c :: content, rest)
  | c :: rest =>
    if c = '"' then some ([], rest)
    else if c ∈ mustEscape then none
    else do
      let (content, rest) ← readContent? rest
      return (c :: content, rest)

def readDoubleQuoted? (text : String) : Option (String × String) :=
  match text.toList with
  | '"' :: rest => (readContent? rest).map fun (content, rest) =>
      (String.ofList content, String.ofList rest)
  | _ => none

theorem doubleQuotedChar_eq (c : Char) :
    (∃ letter, unescaped? letter = some c ∧ doubleQuotedChar c = ['\\', letter]) ∨
      c ∉ mustEscape ∧ doubleQuotedChar c = [c] := by
  unfold doubleQuotedChar
  split
  case h_5 backslash quote feed carriage =>
    refine .inr ⟨?_, rfl⟩
    simp only [mustEscape, List.mem_cons, List.not_mem_nil, or_false, not_or]
    exact ⟨backslash, quote, feed, carriage⟩
  all_goals exact .inl ⟨_, rfl, rfl⟩

theorem readContent?_plain {c : Char} (plain : c ∉ mustEscape) (rest : List Char) :
    readContent? (c :: rest) =
      (readContent? rest).map fun (content, rest) => (c :: content, rest) := by
  have quote : c ≠ '"' := fun same => plain (by rw [same]; decide)
  rw [readContent?, if_neg quote, if_neg plain]
  · cases readContent? rest <;> rfl
  · intro _ _ backslash _
    exact plain (by rw [backslash]; decide)

theorem readContent?_doubleQuotedChar (c : Char) (rest : List Char) :
    readContent? (doubleQuotedChar c ++ rest) =
      (readContent? rest).map fun (content, rest) => (c :: content, rest) := by
  obtain ⟨letter, escape, written⟩ | ⟨plain, written⟩ := doubleQuotedChar_eq c
  · rw [written, List.cons_append, List.singleton_append, readContent?, escape]
    cases readContent? rest <;> rfl
  · rw [written, List.singleton_append, readContent?_plain plain]

theorem readContent?_written (content rest : List Char) :
    readContent? (content.flatMap doubleQuotedChar ++ '"' :: rest) = some (content, rest) := by
  induction content with
  | nil => rfl
  | cons c content ih =>
    rw [List.flatMap_cons, List.append_assoc, readContent?_doubleQuotedChar, ih]
    rfl

theorem toList_doubleQuoted (text : String) :
    (doubleQuoted text).toList = '"' :: (text.toList.flatMap doubleQuotedChar ++ ['"']) := by
  simp [doubleQuoted, escapeWith]

theorem readDoubleQuoted?_append (text rest : String) :
    readDoubleQuoted? (doubleQuoted text ++ rest) = some (text, rest) := by
  rw [readDoubleQuoted?, String.toList_append, toList_doubleQuoted, List.cons_append,
    List.append_assoc, List.singleton_append]
  simp only [readContent?_written, Option.map_some, String.ofList_toList]

example : readDoubleQuoted? "\"say \\\"no\\\"\" + name" = some ("say \"no\"", " + name") := by
  decide

theorem readContent?_append {cs content rest : List Char}
    (read : readContent? cs = some (content, rest)) (more : List Char) :
    readContent? (cs ++ more) = some (content, rest ++ more) := by
  induction cs using readContent?.induct generalizing content with
  | case1 => contradiction
  | case2 letter cs ih =>
    simp only [readContent?, Option.bind_eq_bind, Option.bind_eq_some_iff] at read
    obtain ⟨c, escape, ⟨inner, left⟩, found, same⟩ := read
    cases same
    simp only [List.cons_append, readContent?, escape, ih found]
    rfl
  | case3 cs escaped =>
    cases read
    rfl
  | case4 c cs escaped quote special =>
    rw [readContent?, if_neg quote, if_pos special] at read
    · contradiction
    · exact escaped
  | case5 c cs escaped quote plain ih =>
    rw [readContent?_plain plain, Option.map_eq_some_iff] at read
    obtain ⟨⟨inner, left⟩, found, same⟩ := read
    cases same
    rw [List.cons_append, readContent?_plain plain, ih found]
    rfl

theorem readDoubleQuoted?_append_of_read {token text rest : String}
    (read : readDoubleQuoted? token = some (text, rest)) (more : String) :
    readDoubleQuoted? (token ++ more) = some (text, rest ++ more) := by
  unfold readDoubleQuoted? at read ⊢
  rw [String.toList_append]
  split at read
  case h_1 cs opened =>
    rw [Option.map_eq_some_iff] at read
    obtain ⟨⟨content, left⟩, found, same⟩ := read
    cases same
    simp only [opened, List.cons_append, readContent?_append found more.toList, Option.map_some,
      String.ofList_append, String.ofList_toList]
  case h_2 => contradiction

/-- No token begins another, so a written token and what follows it determine each other. -/
theorem doubleQuoted_append_inj {text other rest otherRest : String}
    (same : doubleQuoted text ++ rest = doubleQuoted other ++ otherRest) :
    text = other ∧ rest = otherRest := by
  have read := readDoubleQuoted?_append text rest
  rw [same, readDoubleQuoted?_append] at read
  cases read
  exact ⟨rfl, rfl⟩

theorem readDoubleQuoted?_eq_none_of_part {text part missing : String}
    (token : doubleQuoted text = part ++ missing) (short : missing ≠ "") :
    readDoubleQuoted? part = none := by
  cases read : readDoubleQuoted? part with
  | none => rfl
  | some result =>
    obtain ⟨content, rest⟩ := result
    have whole := readDoubleQuoted?_append_of_read read missing
    have full := readDoubleQuoted?_append text ""
    rw [String.append_empty, token, whole] at full
    have left : rest ++ missing = "" := congrArg Prod.snd (Option.some.inj full)
    exact absurd (String.append_eq_empty_iff.1 left).2 short

end ApiClient.Text
