import ApiClient.Text.Search

/-! Texts as bytes.

A character begins with a byte that no other byte of a character can be, so the bytes of a text show
where its characters begin. A text that occurs among the bytes of another occurs among its
characters.
-/

set_option autoImplicit false

namespace ApiClient.Text

def utf8 (cs : List Char) : List UInt8 :=
  cs.flatMap String.utf8EncodeChar

theorem toByteArray_utf8 (cs : List Char) : (utf8 cs).toByteArray = cs.utf8Encode := rfl

theorem utf8_append (front back : List Char) : utf8 (front ++ back) = utf8 front ++ utf8 back :=
  List.flatMap_append

theorem length_utf8 (cs : List Char) : (utf8 cs).length = byteSize cs := by
  induction cs with
  | nil => rfl
  | cons c rest ih =>
    rw [byteSize, ← ih]
    simp [utf8]

theorem byteSize_append (front back : List Char) :
    byteSize (front ++ back) = byteSize front + byteSize back := by
  rw [← length_utf8, utf8_append, List.length_append, length_utf8, length_utf8]

theorem prefix_of_utf8_append {cs ds : List Char} {bytes : List UInt8}
    (same : utf8 cs ++ bytes = utf8 ds) : cs <+: ds := by
  refine List.isPrefix_of_utf8Encode_append_eq_utf8Encode bytes.toByteArray ?_
  rw [← toByteArray_utf8, ← toByteArray_utf8, ← same]
  simp

theorem exists_firstByte (c : Char) :
    ∃ byte rest, String.utf8EncodeChar c = byte :: rest ∧ byte.IsUTF8FirstByte := by
  obtain ⟨byte, rest, bytes⟩ := List.exists_cons_of_ne_nil (String.utf8EncodeChar_ne_nil (c := c))
  have first := UInt8.isUTF8FirstByte_getElem_zero_utf8EncodeChar (c := c)
  simp only [bytes, List.getElem_cons_zero] at first
  exact ⟨byte, rest, bytes, first⟩

theorem nil_of_firstByte {c : Char} {before after : List UInt8} {byte : UInt8}
    (first : byte.IsUTF8FirstByte) (here : String.utf8EncodeChar c = before ++ byte :: after) :
    before = [] := by
  have inside : before.length < (String.utf8EncodeChar c).length := by simp [here]
  have same : (String.utf8EncodeChar c)[before.length] = byte := by simp [here]
  exact List.length_eq_zero_iff.1 (UInt8.isUTF8FirstByte_getElem_utf8EncodeChar.1 (same ▸ first))

theorem exists_of_firstByte {text : List Char} {before after : List UInt8} {byte : UInt8}
    (first : byte.IsUTF8FirstByte) (here : utf8 text = before ++ byte :: after) :
    ∃ front back, text = front ++ back ∧ utf8 front = before ∧ utf8 back = byte :: after := by
  induction text generalizing before with
  | nil => simp [utf8] at here
  | cons c rest ih =>
    have parts : String.utf8EncodeChar c ++ utf8 rest = before ++ byte :: after := here
    rcases List.append_eq_append_iff.1 parts with ⟨inner, rfl, tail⟩ | ⟨inner, head, tail⟩
    · obtain ⟨front, back, rfl, rfl, follows⟩ := ih tail
      exact ⟨c :: front, back, rfl, rfl, follows⟩
    · cases inner with
      | nil =>
        exact ⟨[c], rest, rfl, by simpa [utf8] using head, by simpa using tail.symm⟩
      | cons b inner =>
        obtain ⟨rfl, -⟩ := List.cons.inj tail
        obtain rfl := nil_of_firstByte first head
        exact ⟨[], c :: rest, rfl, rfl, here⟩

theorem utf8_eq_append_iff {text needle : List Char} {before after : List UInt8}
    (filled : needle ≠ []) :
    utf8 text = before ++ utf8 needle ++ after ↔
      ∃ front back, text = front ++ needle ++ back ∧ utf8 front = before ∧ utf8 back = after := by
  constructor
  · intro occurs
    obtain ⟨c, rest, rfl⟩ := List.exists_cons_of_ne_nil filled
    obtain ⟨byte, bytes, encoded, first⟩ := exists_firstByte c
    have start : utf8 (c :: rest) ++ after = byte :: (bytes ++ utf8 rest ++ after) := by
      simp [utf8, encoded]
    rw [List.append_assoc, start] at occurs
    obtain ⟨front, back, rfl, rfl, tail⟩ := exists_of_firstByte first occurs
    rw [← start] at tail
    obtain ⟨behind, rfl⟩ := prefix_of_utf8_append tail.symm
    refine ⟨front, behind, (List.append_assoc ..).symm, rfl, ?_⟩
    rw [utf8_append] at tail
    exact List.append_cancel_left tail
  · rintro ⟨front, back, rfl, rfl, rfl⟩
    rw [utf8_append, utf8_append]

theorem mem_of_mem_utf8 {c : Char} {byte : UInt8} (single : utf8 [c] = [byte]) {text : List Char}
    (inside : byte ∈ utf8 text) : c ∈ text := by
  obtain ⟨before, after, bytes⟩ := List.append_of_mem inside
  have occurs : utf8 text = before ++ utf8 [c] ++ after := by simp [bytes, single]
  obtain ⟨front, back, rfl, -, -⟩ := (utf8_eq_append_iff (List.cons_ne_nil c [])).1 occurs
  simp

theorem byteSize_eq_zero_iff {cs : List Char} : byteSize cs = 0 ↔ cs = [] := by
  cases cs with
  | nil => simp [byteSize]
  | cons c rest =>
    have := c.utf8Size_pos
    simp [byteSize]
    omega

/-- Dropping bytes succeeds at the start of a character and at the end of the text. -/
theorem dropBytes?_eq_some_iff {count : Nat} {text rest : List Char} :
    dropBytes? count text = some rest ↔ ∃ front, text = front ++ rest ∧ byteSize front = count := by
  induction count, text using dropBytes?.induct with
  | case1 text => simp [dropBytes?, byteSize_eq_zero_iff]
  | case2 count =>
    refine iff_of_false nofun ?_
    rintro ⟨front, nothing, size⟩
    obtain ⟨rfl, -⟩ := List.append_eq_nil_iff.1 nothing.symm
    contradiction
  | case3 count c text fits ih =>
    rw [dropBytes?, if_pos fits, ih]
    constructor
    · rintro ⟨front, rfl, size⟩
      exact ⟨c :: front, rfl, by rw [byteSize, size, Nat.add_sub_of_le fits]⟩
    · rintro ⟨front, whole, size⟩
      cases front with
      | nil => contradiction
      | cons d front =>
        obtain ⟨rfl, rfl⟩ := List.cons.inj whole
        rw [byteSize] at size
        exact ⟨front, rfl, Nat.eq_sub_of_add_eq' size⟩
  | case4 count c text long =>
    refine iff_of_false (by simp [dropBytes?, long]) ?_
    rintro ⟨front, whole, size⟩
    cases front with
    | nil => contradiction
    | cons d front =>
      obtain ⟨rfl, -⟩ := List.cons.inj whole
      rw [byteSize] at size
      omega

theorem prefix_of_byteSize_le {front other text : List Char} (first : front <+: text)
    (second : other <+: text) (shorter : byteSize front ≤ byteSize other) : front <+: other := by
  rcases List.prefix_or_prefix_of_prefix first second with within | ⟨more, rfl⟩
  · exact within
  · cases more with
    | nil => simp
    | cons c more =>
      rw [byteSize_append, byteSize] at shorter
      have := c.utf8Size_pos
      omega

theorem byteSize_le_of_prefix {front text : List Char} (first : front <+: text) :
    byteSize front ≤ byteSize text := by
  obtain ⟨more, rfl⟩ := first
  rw [byteSize_append]
  exact Nat.le_add_right _ _

theorem byteSize_toList (text : String) : byteSize text.toList = text.utf8ByteSize := by
  rw [← length_utf8, ← String.size_toByteArray, ← String.utf8Encode_toList, ← toByteArray_utf8]
  simp

end ApiClient.Text
