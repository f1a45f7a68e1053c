/-! Occurrences of one text in another.

A position is counted in characters here and in UTF-8 bytes where a diagnostic reports it;
`byteSize` turns the characters before it into bytes.
-/

set_option autoImplicit false

namespace ApiClient.Text

/-- What precedes and what follows the first occurrence of `needle`. -/
def cutAt? (needle : List Char) : List Char → Option (List Char × List Char)
  | [] => if needle = [] then some ([], []) else none
  | c :: rest =>
    if needle.isPrefixOf (c :: rest) then some ([], (c :: rest).drop needle.length)
    else (cutAt? needle rest).map fun (before, after) => (c :: before, after)

theorem append_of_cutAt? {needle text before after : List Char}
    (found : cutAt? needle text = some (before, after)) : before ++ needle ++ after = text := by
  induction text generalizing before with
  | nil => simp_all [cutAt?]
  | cons c rest ih =>
    rw [cutAt?] at found
    split at found
    · next here =>
      obtain ⟨rfl, rfl⟩ : [] = before ∧ _ = after := by simpa using found
      obtain ⟨tail, eq⟩ := List.isPrefixOf_iff_prefix.1 here
      simp [← eq]
    · obtain ⟨⟨front, back⟩, cut, same⟩ := Option.map_eq_some_iff.1 found
      obtain ⟨rfl, rfl⟩ : c :: front = before ∧ back = after := by simpa using same
      simpa using ih cut

def eraseFirst (needle text : List Char) : List Char :=
  match cutAt? needle text with
  | some (before, after) => before ++ after
  | none => text

def byteSize : List Char → Nat
  | [] => 0
  | c :: rest => c.utf8Size + byteSize rest

def dropBytes? : Nat → List Char → Option (List Char)
  | 0, cs => some cs
  | _ + 1, [] => none
  | count + 1, c :: rest =>
    if c.utf8Size ≤ count + 1 then dropBytes? (count + 1 - c.utf8Size) rest else none

end ApiClient.Text
