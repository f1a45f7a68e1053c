/-! Indentation of generated code.

The unit of indentation is a tab or a number of spaces; only widths of two, four and eight are
honoured, any other width means four. Options carry the depth down a rendering, so a nested scope
cannot change the depth of what follows it.
-/

set_option autoImplicit false

namespace ApiClient.Layout

inductive Indent where
  | spaces (width : Nat)
  | tab
  deriving DecidableEq

namespace Indent

def standard : Indent := .spaces 4
def compact : Indent := .spaces 2

def unit : Indent → String
  | .spaces 2 => "  "
  | .spaces 8 => "        "
  | .spaces _ => "    "
  | .tab => "\t"

def times (indent : Indent) (depth : Nat) : String :=
  String.join (List.replicate depth indent.unit)

end Indent

/-- What becomes of a node that has no text. -/
inductive Policy where
  | omit
  | reject
  deriving DecidableEq

structure Options where
  depth : Nat := 0
  indent : Indent := .standard
  unsupported : Policy := .omit
  deriving DecidableEq

namespace Options

def strict : Options := { unsupported := .reject }

def margin (options : Options) : String :=
  options.indent.times options.depth

def nested (options : Options) : Options :=
  { options with depth := options.depth + 1 }

end Options

end ApiClient.Layout
