import ApiClient.Manifest.Error
import ApiClient.Proofs.Text.Bytes
import ApiClient.Proofs.Text.Search

/-! Places that diagnostics point to.

A span is counted in bytes. It covers a value that stands between double quotes, and it is the first
such place at or after the offset where the search starts. The second place of a duplicate is looked
for from the closing quote of the first, which may open the second.
-/

set_option autoImplicit false

namespace ApiClient.Manifest

open ApiClient.Text

namespace Source

def bytes (source : Source) : List UInt8 :=
  utf8 source.text.toList

def quoteByte : UInt8 := 0x22

/-- The bytes of a span are the value, and there is a double quote on either side. -/
structure Quotes (source : Source) (value : String) (span : Span) : Prop where
  started : 0 < span.offset
  opening : source.bytes[span.offset - 1]? = some quoteByte
  content : (source.bytes.drop span.offset).take span.length = utf8 value.toList
  closing : source.bytes[span.offset + span.length]? = some quoteByte

def IsBoundary (source : Source) (offset : Nat) : Prop :=
  (⟨offset⟩ : String.Pos.Raw).IsValid source.text

/-- The first quoted place with its opening quote at or after an offset. -/
structure FirstFrom (source : Source) (value : String) (offset : Nat) (span : Span) : Prop where
  quotes : source.Quotes value span
  behind : offset < span.offset
  first : ∀ other, source.Quotes value other → offset < other.offset → span.offset ≤ other.offset

theorem utf8_quoted (value : String) :
    utf8 (quoted value) = quoteByte :: (utf8 value.toList ++ [quoteByte]) := by
  have quote : utf8 ['"'] = [quoteByte] := rfl
  rw [quoted, utf8_append, quote]
  rfl

theorem length_bytes (source : Source) : source.bytes.length = source.text.utf8ByteSize := by
  rw [bytes, length_utf8, byteSize_toList]

section

variable {source : Source} {value : String} {offset : Nat} {span : Span}

theorem isBoundary_iff : source.IsBoundary offset ↔
    ∃ front back, source.text.toList = front ++ back ∧ byteSize front = offset := by
  rw [IsBoundary, String.Pos.Raw.isValid_iff_exists_append]
  constructor
  · rintro ⟨front, back, whole, size⟩
    refine ⟨front.toList, back.toList, by simp [whole], ?_⟩
    rw [byteSize_toList]
    exact (congrArg String.Pos.Raw.byteIdx size).symm
  · rintro ⟨front, back, whole, rfl⟩
    refine ⟨String.ofList front, String.ofList back, ?_, ?_⟩
    · rw [← String.ofList_append, ← whole, String.ofList_toList]
    · rw [String.Pos.Raw.ext_iff, String.byteIdx_rawEndPos, ← byteSize_toList, String.toList_ofList]

theorem quotes_iff : source.Quotes value span ↔
    ∃ front back, source.text.toList = front ++ quoted value ++ back ∧
      span = ⟨byteSize front + 1, byteSize value.toList⟩ := by
  obtain ⟨start, length⟩ := span
  have filled : quoted value ≠ [] := List.cons_ne_nil _ _
  constructor
  · rintro ⟨started, opening, content, closing⟩
    dsimp only at started opening content closing
    have inside : start + length < source.bytes.length := (List.getElem?_eq_some_iff.1 closing).1
    have size : length = byteSize value.toList := by
      rw [← length_utf8, ← content, List.length_take, List.length_drop]
      omega
    have whole : source.bytes = source.bytes.take (start - 1) ++ utf8 (quoted value) ++
        source.bytes.drop (start + length + 1) := by
      have behind : source.bytes.drop (start + length) =
          quoteByte :: source.bytes.drop (start + length + 1) := by
        rw [List.drop_eq_getElem?_toList_append, closing]
        rfl
      have middle : source.bytes.drop (start - 1) = quoteByte :: source.bytes.drop start := by
        rw [List.drop_eq_getElem?_toList_append, opening, Nat.sub_add_cancel started]
        rfl
      rw [utf8_quoted, ← content, List.append_assoc, List.cons_append, List.append_assoc,
        List.singleton_append, ← behind, ← List.drop_drop, List.take_append_drop, ← middle,
        List.take_append_drop]
    obtain ⟨front, back, text, bytes, -⟩ := (utf8_eq_append_iff filled).1 whole
    refine ⟨front, back, text, ?_⟩
    rw [← length_utf8 front, bytes, List.length_take, Span.mk.injEq]
    omega
  · rintro ⟨front, back, whole, ⟨⟩⟩
    have bytes : source.bytes =
        utf8 front ++ quoteByte :: (utf8 value.toList ++ quoteByte :: utf8 back) := by
      rw [Source.bytes, whole, utf8_append, utf8_append, utf8_quoted]
      simp
    rw [← length_utf8, ← length_utf8]
    refine ⟨Nat.succ_pos _, ?_, ?_, ?_⟩
    · simp [bytes]
    · simp [bytes]
    · rw [bytes, Nat.add_assoc, List.getElem?_append_right (Nat.le_add_right _ _)]
      simp [Nat.add_comm 1]

theorem Quotes.inside (quotes : source.Quotes value span) :
    span.offset + span.length < source.text.utf8ByteSize := by
  rw [← length_bytes]
  exact (List.getElem?_eq_some_iff.1 quotes.closing).1

theorem Quotes.length_eq (quotes : source.Quotes value span) :
    span.length = byteSize value.toList := by
  obtain ⟨_, _, -, rfl⟩ := quotes_iff.1 quotes
  rfl

/-- A place behind the bytes that are skipped lies in the text that is searched. -/
theorem Quotes.searched {skipped rest : List Char} (whole : source.text.toList = skipped ++ rest)
    (quotes : source.Quotes value span) (behind : byteSize skipped < span.offset) :
    ∃ inner back, rest = inner ++ quoted value ++ back ∧
      span.offset = byteSize skipped + byteSize inner + 1 := by
  obtain ⟨front, back, text, rfl⟩ := quotes_iff.1 quotes
  have later : skipped <+: front :=
    prefix_of_byteSize_le ⟨rest, whole.symm⟩ ⟨quoted value ++ back, by rw [text]; simp⟩
      (Nat.le_of_lt_succ behind)
  obtain ⟨inner, rfl⟩ := later
  refine ⟨inner, back, ?_, by rw [byteSize_append]⟩
  rw [whole, List.append_assoc, List.append_assoc] at text
  simpa using List.append_cancel_left text

theorem firstFrom_of_findFrom? (found : source.findFrom? value offset = some span) :
    source.IsBoundary offset ∧ source.FirstFrom value offset span := by
  obtain ⟨rest, dropped, found⟩ := Option.bind_eq_some_iff.1 found
  obtain ⟨⟨before, after⟩, cut, same⟩ := Option.bind_eq_some_iff.1 found
  cases same
  obtain ⟨skipped, whole, rfl⟩ := dropBytes?_eq_some_iff.1 dropped
  refine ⟨isBoundary_iff.2 ⟨skipped, rest, whole, rfl⟩, ?_, ?_, ?_⟩
  · refine quotes_iff.2 ⟨skipped ++ before, after, ?_, ?_⟩
    · rw [whole, ← append_of_cutAt? cut]
      simp
    · rw [byteSize_append]
  · exact Nat.lt_succ_of_le (Nat.le_add_right _ _)
  · intro other quotes behind
    obtain ⟨inner, back, searched, start⟩ := quotes.searched whole behind
    have size := byteSize_le_of_prefix (prefix_of_cutAt? cut searched)
    dsimp only
    omega

theorem exists_findFrom? (boundary : source.IsBoundary offset)
    (quotes : source.Quotes value span) (behind : offset < span.offset) :
    ∃ found, source.findFrom? value offset = some found := by
  obtain ⟨skipped, rest, whole, rfl⟩ := isBoundary_iff.1 boundary
  obtain ⟨inner, back, searched, -⟩ := quotes.searched whole behind
  have dropped := dropBytes?_eq_some_iff.2 ⟨skipped, whole, rfl⟩
  cases cut : cutAt? (quoted value) rest with
  | none => exact absurd ⟨inner, back, searched.symm⟩ (cutAt?_eq_none_iff.1 cut)
  | some parts =>
    refine ⟨⟨byteSize skipped + byteSize parts.1 + 1, byteSize value.toList⟩, ?_⟩
    rw [findFrom?, dropped, Option.bind_eq_bind, Option.bind_some, cut]
    rfl

theorem FirstFrom.unique {other : Span} (left : source.FirstFrom value offset span)
    (right : source.FirstFrom value offset other) : span = other := by
  have start := Nat.le_antisymm (left.first other right.quotes right.behind)
    (right.first span left.quotes left.behind)
  have length := left.quotes.length_eq.trans right.quotes.length_eq.symm
  cases span
  cases other
  exact (Span.mk.injEq ..).mpr ⟨start, length⟩

/-- A search from the start of a character finds the first place, and one from within a character
finds nothing. -/
theorem findFrom?_eq_some_iff : source.findFrom? value offset = some span ↔
    source.IsBoundary offset ∧ source.FirstFrom value offset span := by
  refine ⟨firstFrom_of_findFrom?, ?_⟩
  rintro ⟨boundary, first⟩
  obtain ⟨other, found⟩ := exists_findFrom? boundary first.quotes first.behind
  rw [found, first.unique (firstFrom_of_findFrom? found).2]

/-- Places of a value without a double quote do not overlap, but the closing quote of one may open
the next. -/
theorem Quotes.end_lt {other : Span} (quotes : source.Quotes value span)
    (plain : '"' ∉ value.toList) (another : source.Quotes value other)
    (later : span.offset < other.offset) : span.offset + span.length < other.offset := by
  by_contra within
  have opening := another.opening
  have inside : quoteByte ∈ utf8 value.toList := by
    rw [← quotes.content]
    refine List.mem_iff_getElem?.2 ⟨other.offset - 1 - span.offset, ?_⟩
    rw [List.getElem?_take_of_lt (by omega), List.getElem?_drop, ← opening]
    congr 1
    omega
  exact plain (mem_of_mem_utf8 rfl inside)

theorem isBoundary_zero (source : Source) : source.IsBoundary 0 :=
  isBoundary_iff.2 ⟨[], source.text.toList, rfl, rfl⟩

theorem Quotes.isBoundary_end (quotes : source.Quotes value span) :
    source.IsBoundary (span.offset + span.length) := by
  obtain ⟨front, back, whole, rfl⟩ := quotes_iff.1 quotes
  refine isBoundary_iff.2 ⟨front ++ '"' :: value.toList, '"' :: back, ?_, ?_⟩
  · rw [whole, quoted]
    simp
  · have quote : '"'.utf8Size = 1 := rfl
    rw [byteSize_append, byteSize, quote, Nat.add_assoc]

end

def duplicateLabels (first second : Span) : List Label :=
  [⟨"first defined here", first⟩, ⟨"defined again here", second⟩]

section

variable {source : Source} {name : String} {first second : Span}

theorem labels_duplicateOperation : (source.duplicateOperation name).labels =
    Cause.label "first defined here" (source.find? name) ++
      Cause.label "defined again here" ((source.find? name).bind fun first =>
        source.findFrom? name (first.offset + first.length)) := by
  unfold duplicateOperation findTwice
  cases source.find? name <;> rfl

theorem labels_eq_iff_found :
    (source.duplicateOperation name).labels = duplicateLabels first second ↔
      source.find? name = some first ∧
        source.findFrom? name (first.offset + first.length) = some second := by
  rw [labels_duplicateOperation, duplicateLabels]
  cases one : source.find? name with
  | none => simp [Cause.label]
  | some place =>
    rw [Option.bind_some]
    cases next : source.findFrom? name (place.offset + place.length) with
    | none =>
      refine iff_of_false (by simp [Cause.label]) ?_
      rintro ⟨⟨⟩, again⟩
      exact absurd (next.symm.trans again) nofun
    | some again =>
      simp only [Cause.label, List.cons_append, List.nil_append, List.cons.injEq, Label.mk.injEq,
        true_and, and_true, Option.some.injEq]
      constructor
      · rintro ⟨rfl, rfl⟩
        exact ⟨rfl, next⟩
      · rintro ⟨rfl, found⟩
        exact ⟨rfl, Option.some.inj (next.symm.trans found)⟩

theorem labels_eq_iff :
    (source.duplicateOperation name).labels = duplicateLabels first second ↔
      source.FirstFrom name 0 first ∧
        source.FirstFrom name (first.offset + first.length) second := by
  rw [labels_eq_iff_found, find?, findFrom?_eq_some_iff, findFrom?_eq_some_iff]
  constructor
  · rintro ⟨⟨-, one⟩, -, next⟩
    exact ⟨one, next⟩
  · rintro ⟨one, next⟩
    exact ⟨⟨isBoundary_zero source, one⟩, one.quotes.isBoundary_end, next⟩

theorem exists_firstFrom {offset : Nat} {place : Span} (boundary : source.IsBoundary offset)
    (quotes : source.Quotes name place) (behind : offset < place.offset) :
    ∃ first, source.FirstFrom name offset first := by
  obtain ⟨first, found⟩ := exists_findFrom? boundary quotes behind
  exact ⟨first, (firstFrom_of_findFrom? found).2⟩

theorem exists_labels_iff (plain : '"' ∉ name.toList) :
    (∃ first second, (source.duplicateOperation name).labels = duplicateLabels first second) ↔
      ∃ place other, place.offset ≠ other.offset ∧ source.Quotes name place ∧
        source.Quotes name other := by
  simp only [labels_eq_iff]
  constructor
  · rintro ⟨first, second, one, next⟩
    have := next.behind
    exact ⟨first, second, by omega, one.quotes, next.quotes⟩
  · rintro ⟨place, other, distinct, quotes, another⟩
    obtain ⟨first, one⟩ := exists_firstFrom (isBoundary_zero source) quotes quotes.started
    -- one of the two places is not the first
    obtain ⟨later, again, behind⟩ :
        ∃ later, source.Quotes name later ∧ first.offset < later.offset := by
      have least := one.first place quotes quotes.started
      have leastOther := one.first other another another.started
      by_cases same : first.offset = place.offset
      · exact ⟨other, another, by omega⟩
      · exact ⟨place, quotes, by omega⟩
    obtain ⟨second, next⟩ := exists_firstFrom one.quotes.isBoundary_end again
      (one.quotes.end_lt plain again behind)
    exact ⟨first, second, one, next⟩

end

/-- A search finds the first place behind an offset where the value stands between double quotes,
and nothing only if there is none or the offset is no boundary. The labels of a duplicate show two
places exactly if there are two, and then the first and the next one, which lie apart and inside the
text. -/
theorem spans_quoted (source : Source) :
    (∀ value offset span, source.findFrom? value offset = some span ↔
      source.IsBoundary offset ∧ source.FirstFrom value offset span) ∧
    (∀ value offset, (∃ span, source.findFrom? value offset = some span) ↔
      source.IsBoundary offset ∧ ∃ span, source.Quotes value span ∧ offset < span.offset) ∧
    ∀ name, '"' ∉ name.toList →
      ((∃ first second, (source.duplicateOperation name).labels = duplicateLabels first second) ↔
        ∃ place other, place.offset ≠ other.offset ∧ source.Quotes name place ∧
          source.Quotes name other) ∧
      ∀ first second, (source.duplicateOperation name).labels = duplicateLabels first second →
        source.FirstFrom name 0 first ∧ source.FirstFrom name first.offset second ∧
          first.offset + first.length < second.offset ∧
          second.offset + second.length < source.text.utf8ByteSize := by
  refine ⟨fun _ _ _ => findFrom?_eq_some_iff, fun value offset => ?_,
    fun name plain => ⟨exists_labels_iff plain, fun first second labels => ?_⟩⟩
  · constructor
    · rintro ⟨span, found⟩
      obtain ⟨boundary, first⟩ := firstFrom_of_findFrom? found
      exact ⟨boundary, span, first.quotes, first.behind⟩
    · rintro ⟨boundary, span, quotes, behind⟩
      exact exists_findFrom? boundary quotes behind
  · obtain ⟨one, next⟩ := labels_eq_iff.1 labels
    have apart := next.behind
    refine ⟨one, ⟨next.quotes, by omega, fun other quotes later => ?_⟩, apart, next.quotes.inside⟩
    exact next.first other quotes (one.quotes.end_lt plain quotes later)

def sharedQuoteSource : Source :=
  ⟨"é = \"X\"X\"", "api.toml"⟩

theorem spans_quoted_sharedQuote :
    '"' ∉ "X".toList ∧
      (sharedQuoteSource.duplicateOperation "X").labels = duplicateLabels ⟨6, 1⟩ ⟨8, 1⟩ ∧
      sharedQuoteSource.FirstFrom "X" 0 ⟨6, 1⟩ ∧ sharedQuoteSource.FirstFrom "X" 6 ⟨8, 1⟩ ∧
      ¬sharedQuoteSource.IsBoundary 1 := by
  obtain ⟨exact_, -, duplicates⟩ := spans_quoted sharedQuoteSource
  have plain : '"' ∉ "X".toList := by decide
  have labels : (sharedQuoteSource.duplicateOperation "X").labels =
      duplicateLabels ⟨6, 1⟩ ⟨8, 1⟩ := by decide
  obtain ⟨first, second, -⟩ := (duplicates "X" plain).2 _ _ labels
  have within : sharedQuoteSource.findFrom? "X" 1 = none := by decide
  have whole : sharedQuoteSource.FirstFrom "X" 1 ⟨6, 1⟩ :=
    ⟨first.quotes, by decide, fun other quotes _ => first.first other quotes quotes.started⟩
  refine ⟨plain, labels, first, second, fun boundary => ?_⟩
  exact absurd ((exact_ _ _ _).2 ⟨boundary, whole⟩) (by rw [within]; nofun)

end Source

end ApiClient.Manifest
