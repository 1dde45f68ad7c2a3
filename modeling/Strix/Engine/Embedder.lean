import Strix.Engine.Avx
import Mathlib.Algebra.BigOperators.Field
import Mathlib.Analysis.SpecialFunctions.Sqrt
import Mathlib.Tactic.FieldSimp
import Mathlib.Tactic.Positivity

/-! # The embedder (embedder.cc)

The inference session is code of a third party: what it returns for a text is an
argument. `Encode` checks the shape of its output, takes the mean over the tokens and
scales it to unit length. The square root of the standard library is an argument as well.
-/
namespace Strix
open Finset

/-- The output tensor of the session: its shape and its floats, row by row. -/
structure OutputTensor (K : Type*) where
  batch : Int64
  seqLength : Int64
  vecDimension : Int64
  floatArray : ℕ → K

/-- The bytes of a `std::string` that `c_str` hands on. -/
def cString (prompt : List UInt8) : List UInt8 := prompt.takeWhile (· ≠ 0)

section Model
variable {K : Type*} [Field K] [LinearOrder K]

/-- The value of the literal `1e-9f`. -/
def degenerateBound : K := 9007199 / 9007199254740992

def meanPooling (seqLength vecDimension : ℕ) (floatArray : ℕ → K) : Vec K :=
  let sums := (List.range seqLength).foldl
    (fun (alignedBuffer : Vec K) i j => alignedBuffer j + floatArray (i * vecDimension + j)) 0
  fun i => sums i / seqLength

def sumSquares (alignedBuffer : Vec K) : K :=
  (List.finRange vectorDim).foldl (fun sumSq i => sumSq + alignedBuffer i * alignedBuffer i) 0

def l2Normalize (sqrt : K → K) (alignedBuffer : Vec K) : Except String (Vec K) :=
  let sumSq := sumSquares alignedBuffer
  if sumSq < degenerateBound then .error "Degenerate zero vector from model"
  else
    let invMagnitude := 1 / sqrt sumSq
    .ok fun i => alignedBuffer i * invMagnitude

def encode (sqrt : K → K) (session : List UInt8 → Except String (OutputTensor K))
    (prompt : List UInt8) : Except String (Vec K) :=
  match session (cString prompt) with
  | .error what => .error what
  | .ok outputTensor =>
    let seqLength := outputTensor.seqLength.toUInt64
    let vecDimension := outputTensor.vecDimension.toUInt64
    if outputTensor.batch ≠ 1 then .error "Batching Inference is not supported"
    else if seqLength = 0 then .error "Sequence length is 0. Cannot compute mean pooling."
    else if vecDimension ≠ vectorDim.toUInt64 then .error "Unexpected vector length"
    else l2Normalize sqrt
      (meanPooling seqLength.toNat vecDimension.toNat outputTensor.floatArray)

end Model

section Facts
variable {K : Type*} [Field K]

theorem meanPooling_apply (seqLength vecDimension : ℕ) (floatArray : ℕ → K) (j : Fin vectorDim) :
    meanPooling seqLength vecDimension floatArray j =
      (∑ i ∈ range seqLength, floatArray (i * vecDimension + j)) / seqLength := by
  have hsums := foldl_add_eq (fun i (j : Fin vectorDim) => floatArray (i * vecDimension + j))
    (List.range seqLength) 0
  have hmean : meanPooling seqLength vecDimension floatArray j =
      ((List.range seqLength).map fun i (j : Fin vectorDim) =>
        floatArray (i * vecDimension + j)).sum j / seqLength := by
    rw [← zero_add (List.sum _), ← hsums]
    rfl
  rw [hmean, Pi.list_sum_apply, List.map_map]
  rfl

theorem sumSquares_eq (alignedBuffer : Vec K) :
    sumSquares alignedBuffer = ∑ i, alignedBuffer i * alignedBuffer i :=
  scalarCosineSimilarity_eq_dotProduct alignedBuffer alignedBuffer

/-- A prompt counts up to its first zero byte. -/
theorem encode_congr [LinearOrder K] {sqrt : K → K}
    {session : List UInt8 → Except String (OutputTensor K)} {prompt prompt' : List UInt8}
    (h : cString prompt = cString prompt') :
    encode sqrt session prompt = encode sqrt session prompt' := by
  rw [encode, h, encode]

end Facts

section Exact
variable {K : Type*} [Field K] [LinearOrder K] [IsStrictOrderedRing K]

/-- What the standard library promises of `sqrt`. -/
structure IsSqrt (sqrt : K → K) : Prop where
  nonneg : ∀ x, 0 ≤ x → 0 ≤ sqrt x
  square : ∀ x, 0 ≤ x → sqrt x * sqrt x = x

variable {sqrt : K → K} {session : List UInt8 → Except String (OutputTensor K)}
  {prompt : List UInt8} {query alignedBuffer : Vec K}

theorem degenerateBound_pos : (0 : K) < degenerateBound := by
  unfold degenerateBound
  positivity

theorem IsSqrt.mul_self (hsqrt : IsSqrt sqrt) {r : K} (hr : 0 < r) : sqrt (r * r) = r :=
  (mul_self_inj (hsqrt.nonneg _ (mul_pos hr hr).le) hr.le).mp (hsqrt.square _ (mul_pos hr hr).le)

theorem sumSquares_scale (hunit : Normalized query) {r : K}
    (hscale : ∀ i, r * query i = alignedBuffer i) : sumSquares alignedBuffer = r * r := by
  have hone : ∑ i, query i * query i = 1 :=
    (scalarCosineSimilarity_eq_dotProduct query query).symm.trans hunit
  calc sumSquares alignedBuffer
      = ∑ i, r * r * (query i * query i) := by
        rw [sumSquares_eq]
        refine sum_congr rfl fun i _ => ?_
        rw [← hscale]
        ring
    _ = r * r := by rw [← mul_sum, hone, mul_one]

theorem l2Normalize_eq_ok (hsqrt : IsSqrt sqrt) : l2Normalize sqrt alignedBuffer = .ok query ↔
    degenerateBound ≤ sumSquares alignedBuffer ∧ Normalized query ∧
      ∃ r, 0 < r ∧ ∀ i, r * query i = alignedBuffer i := by
  by_cases hbound : sumSquares alignedBuffer < degenerateBound
  · simp [l2Normalize, hbound, not_le.mpr hbound]
  · have hpos : 0 < sumSquares alignedBuffer :=
      lt_of_lt_of_le degenerateBound_pos (not_lt.mp hbound)
    have hroot := hsqrt.square _ hpos.le
    have hne : sqrt (sumSquares alignedBuffer) ≠ 0 := fun h0 => by
      rw [h0, zero_mul] at hroot
      exact hpos.ne hroot
    have hrpos : 0 < sqrt (sumSquares alignedBuffer) :=
      lt_of_le_of_ne (hsqrt.nonneg _ hpos.le) hne.symm
    simp only [l2Normalize, if_neg hbound, Except.ok.injEq, not_lt.mp hbound, true_and]
    constructor
    · rintro rfl
      refine ⟨?_,_,hrpos,fun i => by field_simp⟩
      change scalarCosineSimilarity _ _ = 1
      rw [scalarCosineSimilarity_eq_dotProduct]
      calc (∑ i, alignedBuffer i * (1 / sqrt (sumSquares alignedBuffer)) *
            (alignedBuffer i * (1 / sqrt (sumSquares alignedBuffer))))
          = (∑ i, alignedBuffer i * alignedBuffer i) /
              (sqrt (sumSquares alignedBuffer) * sqrt (sumSquares alignedBuffer)) := by
            rw [sum_div]
            refine sum_congr rfl fun i _ => ?_
            field_simp
        _ = 1 := by rw [← sumSquares_eq, hroot, div_self hpos.ne']
    · rintro ⟨hunit,r,hr,hscale⟩
      funext i
      rw [sumSquares_scale hunit hscale, hsqrt.mul_self hr, ← hscale]
      field_simp

/-- `Encode` succeeds when the session returns one sequence of at least one token, of the
expected dimension, and the mean of its tokens is not too short; it returns the unit
vector along the mean. -/
theorem encode_eq_ok (hsqrt : IsSqrt sqrt) : encode sqrt session prompt = .ok query ↔
    ∃ tensor, session (cString prompt) = .ok tensor ∧ tensor.batch = 1 ∧
      tensor.seqLength.toUInt64 ≠ 0 ∧ tensor.vecDimension.toUInt64 = vectorDim.toUInt64 ∧
      degenerateBound ≤ sumSquares (meanPooling tensor.seqLength.toUInt64.toNat
        tensor.vecDimension.toUInt64.toNat tensor.floatArray) ∧
      Normalized query ∧ ∃ r, 0 < r ∧ ∀ j : Fin vectorDim, r * query j =
        (∑ i ∈ range tensor.seqLength.toUInt64.toNat, tensor.floatArray
          (i * tensor.vecDimension.toUInt64.toNat + j)) / (tensor.seqLength.toUInt64.toNat : K) := by
  unfold encode
  cases hrun : session (cString prompt) with
  | error what => simp
  | ok tensor =>
    simp only [Except.ok.injEq, exists_eq_left']
    by_cases hbatch : tensor.batch = 1
    · by_cases hlength : tensor.seqLength.toUInt64 = 0
      · simp [hbatch, hlength]
      · by_cases hdim : tensor.vecDimension.toUInt64 = vectorDim.toUInt64
        · simp only [hbatch, hlength, hdim, ne_eq, not_true_eq_false, if_false, not_false_eq_true,
            true_and, l2Normalize_eq_ok hsqrt, meanPooling_apply]
        · simp [hbatch, hlength, hdim]
    · simp [hbatch]

theorem encode_normalized (hsqrt : IsSqrt sqrt) (h : encode sqrt session prompt = .ok query) :
    Normalized query := by
  unfold encode at h
  split at h
  · cases h
  · simp only at h
    split_ifs at h
    exact ((l2Normalize_eq_ok hsqrt).mp h).2.1

end Exact

section Replay

theorem isSqrt_real : IsSqrt Real.sqrt where
  nonneg x _ := Real.sqrt_nonneg x
  square _ hx := Real.mul_self_sqrt hx

def oneToken (_ : List UInt8) : Except String (OutputTensor ℝ) :=
  .ok ⟨1,1,384,fun i => if i = 0 then 1 else 0⟩

theorem encode_oneToken (prompt : List UInt8) :
    encode Real.sqrt oneToken prompt = .ok (Pi.single 0 1) := by
  have hmean : meanPooling 1 384 (fun i => if i = 0 then (1 : ℝ) else 0) = Pi.single 0 1 := by
    funext j
    rw [meanPooling_apply, sum_range_one, zero_mul, zero_add, Nat.cast_one, div_one,
      Pi.single_apply]
    simp only [Fin.ext_iff, Fin.val_zero]
  have hdot : (Pi.single 0 1 : Vec ℝ) ⬝ᵥ Pi.single 0 1 = 1 := by
    rw [single_dotProduct, Pi.single_eq_same, mul_one]
  have hone : Normalized (Pi.single 0 1 : Vec ℝ) :=
    (scalarCosineSimilarity_eq_dotProduct _ _).trans hdot
  change l2Normalize Real.sqrt (meanPooling 1 384 _) = _
  rw [hmean, l2Normalize_eq_ok isSqrt_real]
  refine ⟨?_,hone,1,one_pos,fun i => one_mul _⟩
  rw [(sumSquares_eq _).trans hdot]
  norm_num [degenerateBound]

theorem encode_eq_ok_replay : encode Real.sqrt oneToken [1] = .ok (Pi.single 0 1) ∧
    Normalized (Pi.single 0 1 : Vec ℝ) := by
  obtain ⟨-,-,-,-,-,-,hunit,-⟩ := (encode_eq_ok isSqrt_real).mp (encode_oneToken [1])
  exact ⟨encode_oneToken [1],hunit⟩

end Replay

end Strix
