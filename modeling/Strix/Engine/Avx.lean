import Strix.Engine.Scoring
import Mathlib.Algebra.BigOperators.Fin
import Mathlib.Data.Matrix.Mul
import Mathlib.Tactic.Abel

/-! # The vectorised score (avx_math.hh)

The x86 `CosineSimilarity` in exact arithmetic: the intrinsics on registers of
lanes, the loop over strides of 32 entries with its four accumulators, and the
reduction of the accumulators to one number.
-/
namespace Strix

abbrev M256 (K : Type*) := Fin 8 → K
abbrev M128 (K : Type*) := Fin 4 → K

section Intrinsics
variable {K : Type*}

def mm256SetzeroPs [Zero K] : M256 K := fun _ => 0

def mm256LoadPs (p : Vec K) (offset : ℕ) (h : offset + 8 ≤ vectorDim) : M256 K :=
  fun lane => p ⟨offset + lane,by omega⟩

def mm256FmaddPs [Add K] [Mul K] (a b c : M256 K) : M256 K := fun lane => a lane * b lane + c lane

def mm256AddPs [Add K] (a b : M256 K) : M256 K := fun lane => a lane + b lane

def mm256Castps256Ps128 (a : M256 K) : M128 K := fun lane => a ⟨lane,by omega⟩

def mm256Extractf128Ps (a : M256 K) (imm : Fin 2) : M128 K :=
  fun lane => a ⟨4 * imm + lane,by omega⟩

def mmAddPs [Add K] (a b : M128 K) : M128 K := fun lane => a lane + b lane

def mmHaddPs [Add K] (a b : M128 K) : M128 K := ![a 0 + a 1,a 2 + a 3,b 0 + b 1,b 2 + b 3]

def mmCvtssF32 (a : M128 K) : K := a 0

end Intrinsics

section Model
variable {K : Type*} [Zero K] [Add K] [Mul K] (query nodeVector : Vec K)

theorem stride_le (k : Fin (vectorDim / 32)) (j : Fin 4) :
    32 * k.val + 8 * j.val + 8 ≤ vectorDim := by
  have hk : k.val < 12 := k.isLt
  have hdim : vectorDim = 384 := rfl
  omega

/-- The body of the loop; `sums j` is the register `sumj`. -/
def accumulate (sums : Fin 4 → M256 K) (k : Fin (vectorDim / 32)) : Fin 4 → M256 K :=
  fun j => mm256FmaddPs (mm256LoadPs query (32 * k.val + 8 * j.val) (stride_le k j))
    (mm256LoadPs nodeVector (32 * k.val + 8 * j.val) (stride_le k j)) (sums j)

/-- Behind the loop: the registers, the two halves and two horizontal additions. -/
def reduceSums (sums : Fin 4 → M256 K) : K :=
  let sumVec := mm256AddPs (mm256AddPs (sums 0) (sums 1)) (mm256AddPs (sums 2) (sums 3))
  let sumLow := mm256Castps256Ps128 sumVec
  let sumHigh := mm256Extractf128Ps sumVec 1
  let sum128 := mmAddPs sumLow sumHigh
  let sum128 := mmHaddPs sum128 sum128
  let sum128 := mmHaddPs sum128 sum128
  mmCvtssF32 sum128

def avxCosineSimilarity : K :=
  reduceSums ((List.finRange (vectorDim / 32)).foldl (accumulate query nodeVector)
    fun _ => mm256SetzeroPs)

end Model

section Strides
variable {K : Type*} [AddCommMonoid K]

theorem foldl_add_eq {ι : Type*} (f : ι → K) (l : List ι) (s : K) :
    l.foldl (fun acc i => acc + f i) s = s + (l.map f).sum := by
  induction l generalizing s with
  | nil => simp
  | cons i l ih => rw [List.foldl_cons, ih, List.map_cons, List.sum_cons, add_assoc]

theorem sum_strides {m n : ℕ} (f : Fin (m * n) → K) :
    ∑ i, f i = ∑ k : Fin m, ∑ r : Fin n, f (finProdFinEquiv (k, r)) := by
  rw [← finProdFinEquiv.sum_comp, Fintype.sum_prod_type]

end Strides

section Exact
variable {K : Type*} [CommSemiring K] (query nodeVector : Vec K)

theorem scalarCosineSimilarity_eq_dotProduct :
    scalarCosineSimilarity query nodeVector = query ⬝ᵥ nodeVector := by
  rw [scalarCosineSimilarity, foldl_add_eq, zero_add, dotProduct, Fin.sum_univ_def]

def entry (k : Fin (vectorDim / 32)) (j : Fin 4) (lane : Fin 8) : Fin vectorDim :=
  ⟨32 * k.val + 8 * j.val + lane,by have := stride_le k j; omega⟩

/-- The lane schedule covers every index once. -/
theorem sum_entries (f : Fin vectorDim → K) :
    ∑ i, f i = ∑ k, ∑ j, ∑ lane, f (entry k j lane) := by
  refine (sum_strides (m := vectorDim / 32) (n := 4 * 8) f).trans ?_
  refine Finset.sum_congr rfl fun k _ => ?_
  rw [sum_strides]
  refine Finset.sum_congr rfl fun j _ => Finset.sum_congr rfl fun lane _ => congrArg f ?_
  apply Fin.ext
  simp only [finProdFinEquiv_apply_val, entry]
  omega

theorem accumulate_foldl (l : List (Fin (vectorDim / 32))) (sums : Fin 4 → M256 K) (j : Fin 4)
    (lane : Fin 8) : l.foldl (accumulate query nodeVector) sums j lane =
      sums j lane +
        (l.map fun k => query (entry k j lane) * nodeVector (entry k j lane)).sum := by
  induction l generalizing sums with
  | nil => simp
  | cons k l ih =>
    have hstep : accumulate query nodeVector sums k j lane =
        query (entry k j lane) * nodeVector (entry k j lane) + sums j lane := rfl
    rw [List.foldl_cons, ih, hstep, List.map_cons, List.sum_cons]
    ring

theorem reduceSums_eq (sums : Fin 4 → M256 K) : reduceSums sums = ∑ j, ∑ lane, sums j lane := by
  simp only [reduceSums, mmCvtssF32, mmHaddPs, mmAddPs, mm256Castps256Ps128, mm256Extractf128Ps,
    mm256AddPs, Fin.sum_univ_four, Fin.sum_univ_eight]
  simp
  abel

theorem avxCosineSimilarity_eq_dotProduct :
    avxCosineSimilarity query nodeVector = query ⬝ᵥ nodeVector := by
  have hlane : ∀ j lane, (List.finRange (vectorDim / 32)).foldl (accumulate query nodeVector)
      (fun _ => mm256SetzeroPs) j lane =
      ∑ k, query (entry k j lane) * nodeVector (entry k j lane) := by
    intro j lane
    rw [accumulate_foldl, mm256SetzeroPs, zero_add, Fin.sum_univ_def]
  calc avxCosineSimilarity query nodeVector
      = ∑ j, ∑ lane, ∑ k, query (entry k j lane) * nodeVector (entry k j lane) := by
        simp only [avxCosineSimilarity, reduceSums_eq, hlane]
    _ = ∑ j, ∑ k, ∑ lane, query (entry k j lane) * nodeVector (entry k j lane) :=
        Finset.sum_congr rfl fun _ _ => Finset.sum_comm
    _ = ∑ k, ∑ j, ∑ lane, query (entry k j lane) * nodeVector (entry k j lane) :=
        Finset.sum_comm
    _ = query ⬝ᵥ nodeVector := (sum_entries fun i => query i * nodeVector i).symm

/-- The vectorised score is the scalar one: every product enters it once. -/
theorem avxCosineSimilarity_exact :
    avxCosineSimilarity query nodeVector = scalarCosineSimilarity query nodeVector ∧
    avxCosineSimilarity query nodeVector = ∑ i, query i * nodeVector i ∧
    avxCosineSimilarity query nodeVector = avxCosineSimilarity nodeVector query := by
  refine ⟨?_,avxCosineSimilarity_eq_dotProduct query nodeVector,?_⟩
  · rw [avxCosineSimilarity_eq_dotProduct, scalarCosineSimilarity_eq_dotProduct]
  · rw [avxCosineSimilarity_eq_dotProduct, avxCosineSimilarity_eq_dotProduct, dotProduct_comm]

end Exact

end Strix
