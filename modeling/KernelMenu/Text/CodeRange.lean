/-!
Classes of characters, given by the ranges of their code points.
-/

namespace KernelMenu.Text

/-- The first and the last code point. -/
abbrev CodeRange := Nat × Nat

def CodeRange.holds (range : CodeRange) (char : Char) : Bool :=
  range.1 ≤ char.toNat && char.toNat ≤ range.2

end KernelMenu.Text
