import Strix.Engine.Constant
import Mathlib.Algebra.Order.Field.Basic
import Mathlib.Data.List.FinRange
import Mathlib.Tactic.Linarith

/-! # Similarity scores (avx_math.hh)

`CheckCache` uses scores only through the similarity function, two comparisons
and two literals. Rounding arithmetic is any such structure; exact arithmetic
is the instance over an ordered field, with the scalar loop as the similarity.
-/
namespace Strix

abbrev Vec (K : Type*) := Fin vectorDim → K

instance : NeZero vectorDim := ⟨by decide⟩

/-- What the service needs of `float`. The one law says that the start value of
the running maximum does not pass the threshold. -/
class Scoring (K : Type*) where
  zero : K
  cosineSimilarity : Vec K → Vec K → K
  greater : K → K → Bool
  atLeast : K → K → Bool
  minusOne : K
  similarityThreshold : K
  minusOne_below : atLeast minusOne similarityThreshold = false

section Similar
variable {K : Type*} [Scoring K]

def Similar (query vector : Vec K) : Prop :=
  Scoring.atLeast (Scoring.cosineSimilarity query vector) (Scoring.similarityThreshold : K) = true

def Normalized [One K] (query : Vec K) : Prop := Scoring.cosineSimilarity query query = 1

end Similar

def scalarCosineSimilarity {K : Type*} [Zero K] [Add K] [Mul K] (query nodeVector : Vec K) : K :=
  (List.finRange vectorDim).foldl (fun dotProduct i => dotProduct + query i * nodeVector i) 0

section Exact
variable {K : Type*} [Field K] [LinearOrder K] [IsStrictOrderedRing K]

/-- The value of the literal `0.85f`. -/
def exactThreshold : K := 7130317 / 8388608

theorem exactThreshold_pos : (0 : K) < exactThreshold := by
  unfold exactThreshold
  norm_num

theorem exactThreshold_lt_one : (exactThreshold : K) < 1 := by
  unfold exactThreshold
  norm_num

instance exactScoring : Scoring K where
  zero := 0
  cosineSimilarity := scalarCosineSimilarity
  greater := fun a b => decide (b < a)
  atLeast := fun a b => decide (b ≤ a)
  minusOne := -1
  similarityThreshold := exactThreshold
  minusOne_below := by
    have := exactThreshold_pos (K := K)
    simp only [decide_eq_false_iff_not, not_le]
    linarith

end Exact

end Strix
