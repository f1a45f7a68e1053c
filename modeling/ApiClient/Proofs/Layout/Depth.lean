import ApiClient.Layout.LineBuffer
import ApiClient.Proofs.Text.Shift

/-! Margins and line buffers at a greater depth. Where a line is written at some depth already,
writing it deeper moves it to the right by the margin of the difference. -/

set_option autoImplicit false

namespace ApiClient.Layout

open ApiClient.Text

theorem Indent.times_add (indent : Indent) (first second : Nat) :
    indent.times (first + second) = indent.times first ++ indent.times second := by
  unfold times
  rw [List.replicate_add, String.join_append]

theorem Indent.unit_oneLine (indent : Indent) : OneLine indent.unit := by
  unfold unit
  split <;> decide

theorem Indent.unit_ne_empty (indent : Indent) : indent.unit ≠ "" := by
  unfold unit
  split <;> decide

theorem Indent.times_oneLine (indent : Indent) (depth : Nat) : OneLine (indent.times depth) := by
  induction depth with
  | zero => exact .empty
  | succ depth ih =>
    rw [times_add]
    have unit : OneLine (indent.times 1) := by simpa [times] using indent.unit_oneLine
    exact ih.append unit

theorem Indent.times_ne_empty (indent : Indent) {depth : Nat} (positive : 0 < depth) :
    indent.times depth ≠ "" := by
  obtain ⟨rest, rfl⟩ := Nat.exists_eq_add_of_lt positive
  intro empty
  have unit := indent.unit_ne_empty
  simp_all [times, List.replicate_succ, String.join_cons]

/-- A margin deeper by some units; without a margin there is nothing to move. -/
theorem Indent.times_shifted (indent : Indent) (extra : Nat) {depth : Nat} (positive : 0 < depth) :
    Shifted (indent.times extra) true false (indent.times depth)
      (indent.times (extra + depth)) := by
  rw [times_add]
  exact .line (indent.times_oneLine depth) (indent.times_ne_empty positive)

def Options.sunk (extra : Nat) (options : Options) : Options :=
  { options with depth := extra + options.depth }

theorem Options.margin_sunk (extra : Nat) (options : Options) :
    (options.sunk extra).margin = options.indent.times extra ++ options.margin :=
  options.indent.times_add extra options.depth

namespace LineBuffer

theorem docLines_eq (buffer : LineBuffer) (texts : List String) :
    texts.foldl (fun buffer text => buffer.line (docLine text)) buffer =
      buffer.raw (String.join (texts.map fun text => buffer.margin ++ docLine text ++ "\n")) := by
  induction texts generalizing buffer with
  | nil => simp [raw]
  | cons text rest ih =>
    rw [List.foldl_cons, ih]
    simp [line, raw, margin, String.append_assoc]

/-- The second buffer has the same lines, written deeper. -/
structure Sunk (indent : Indent) (extra : Nat) (buffer deep : LineBuffer) : Prop where
  indent_eq : buffer.indent = indent
  deepIndent_eq : deep.indent = indent
  depth_eq : deep.depth = extra + buffer.depth
  positive : 0 < buffer.depth
  text : Shifted (indent.times extra) true true buffer.text deep.text

variable {indent : Indent} {extra : Nat} {buffer deep : LineBuffer}

theorem Sunk.line (sunk : Sunk indent extra buffer deep) {text : String}
    (oneLine : OneLine text) : Sunk indent extra (buffer.line text) (deep.line text) := by
  have margin : Shifted (indent.times extra) true false buffer.margin deep.margin := by
    unfold LineBuffer.margin
    rw [sunk.indent_eq, sunk.deepIndent_eq, sunk.depth_eq]
    exact indent.times_shifted extra sunk.positive
  exact ⟨sunk.indent_eq, sunk.deepIndent_eq, sunk.depth_eq, sunk.positive,
    sunk.text.append ((margin.append (.within oneLine)).append .feed)⟩

theorem docLine_oneLine {text : String} (oneLine : OneLine text) : OneLine (docLine text) := by
  have star : OneLine " * " := by decide
  unfold docLine
  split
  · decide
  · exact star.append oneLine

theorem Sunk.docLines (sunk : Sunk indent extra buffer deep) {texts : List String}
    (each : ∀ text ∈ texts, OneLine text) :
    Sunk indent extra (texts.foldl (fun buffer text => buffer.line (docLine text)) buffer)
      (texts.foldl (fun buffer text => buffer.line (docLine text)) deep) := by
  induction texts generalizing buffer deep with
  | nil => exact sunk
  | cons text rest ih =>
    obtain ⟨first, later⟩ := List.forall_mem_cons.1 each
    exact ih (sunk.line (docLine_oneLine first)) later

theorem Sunk.docComment (sunk : Sunk indent extra buffer deep) {texts : List String}
    (each : ∀ text ∈ texts, OneLine text) :
    Sunk indent extra (buffer.docComment texts) (deep.docComment texts) := by
  unfold LineBuffer.docComment
  split
  · exact sunk
  · have first : OneLine "/**" := by decide
    exact ((sunk.line first).docLines each).line (by decide)

end LineBuffer

end ApiClient.Layout
