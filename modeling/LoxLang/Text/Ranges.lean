/-! Classes of characters given as tables of closed code point ranges, in ascending order.
Each table module names the property; membership is a search of its ranges. -/
namespace LoxLang.Text

/-- The code point lies in one of the ranges, both ends included. -/
def inRanges (ranges : List (Nat × Nat)) (c : Char) : Bool :=
  ranges.any fun (low, high) => low ≤ c.toNat && c.toNat ≤ high

end LoxLang.Text
