/-!
# Places in a source text

A place is a range of byte offsets into the UTF-8 form of the source.
-/

namespace Blockwork.Script

/-- The bytes from `start` up to, and without, `stop`. -/
structure Span where
  start : Nat
  stop : Nat
deriving Repr, DecidableEq, Inhabited

end Blockwork.Script
