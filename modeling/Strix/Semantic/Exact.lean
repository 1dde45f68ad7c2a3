import Strix.Engine.Avx
import Strix.Semantic.CheckOutcome

/-! # The scan under exact arithmetic

Over an ordered field the score is the dot product, which is symmetric, and the
first maximum of the scan is a maximum. A query then misses exactly when no
matchable slot is similar to it.
-/
namespace Strix
open FirstMax Scoring

section Exact
variable {K : Type*} [Field K] [LinearOrder K] [IsStrictOrderedRing K] {query vector : Vec K}
  {t : UInt64} {arena : MemoryArena (Vec K)} {n : ℕ}

theorem cosineSimilarity_eq_dotProduct : cosineSimilarity query vector = query ⬝ᵥ vector :=
  scalarCosineSimilarity_eq_dotProduct query vector

theorem cosineSimilarity_comm : cosineSimilarity query vector = cosineSimilarity vector query := by
  rw [cosineSimilarity_eq_dotProduct, cosineSimilarity_eq_dotProduct, dotProduct_comm]

theorem similar_iff : Similar query vector ↔ exactThreshold ≤ cosineSimilarity query vector :=
  decide_eq_true_iff

theorem not_similar_iff :
    ¬ Similar query vector ↔ cosineSimilarity query vector < exactThreshold := by
  rw [similar_iff, not_le]

theorem Similar.symm (h : Similar query vector) : Similar vector query := by
  rw [similar_iff, cosineSimilarity_comm]
  exact similar_iff.mp h

theorem Normalized.similar (h : Normalized query) : Similar query query := by
  rw [similar_iff, h]
  exact exactThreshold_lt_one.le

theorem below_iff : atLeast (bestSlot query t arena l0MaxSlots).1 (similarityThreshold : K) = false ↔
    ∀ i < l0MaxSlots, (arena.metadata i).matchable t = true →
      ¬ Similar query (arena.vectors i) := by
  constructor
  · intro h i hi hm hs
    have hkey : slotScore query t arena i = some (cosineSimilarity query (arena.vectors i)) :=
      if_pos hm
    have hle := key_le (minusOne : K) hi hkey
    have hlt : (bestSlot query t arena l0MaxSlots).1 < exactThreshold :=
      not_le.mp (of_decide_eq_false h)
    exact absurd (le_trans (similar_iff.mp hs) hle) (not_le.mpr hlt)
  · intro h
    cases hb : (bestSlot query t arena l0MaxSlots).2 with
    | none =>
      rw [bestSlot, fst_eq_init hb]
      exact minusOne_below
    | some i =>
      obtain ⟨hi,hm,hscore⟩ := matchable_of_best hb
      rw [← hscore]
      exact Bool.eq_false_iff.mpr (h i hi hm)

theorem bestSlot_of_greatest (hn : n < l0MaxSlots) (hm : (arena.metadata n).matchable t = true)
    (hsimilar : Similar query (arena.vectors n))
    (hother : ∀ i < l0MaxSlots, i ≠ n → (arena.metadata i).matchable t = true →
      cosineSimilarity query (arena.vectors i) < cosineSimilarity query (arena.vectors n)) :
    bestSlot query t arena l0MaxSlots = (cosineSimilarity query (arena.vectors n), some n) := by
  refine snd_of_greatest hn (if_pos hm) ?_ ?_
  · have hpos := exactThreshold_pos (K := K)
    have hscore := similar_iff.mp hsimilar
    have : (minusOne : K) = -1 := rfl
    rw [this]
    linarith
  · intro i hi hne l hl
    by_cases hmi : (arena.metadata i).matchable t
    · rw [slotScore, if_pos hmi] at hl
      rw [← Option.some.inj hl]
      exact hother i hi hne hmi
    · rw [slotScore, if_neg hmi] at hl
      simp at hl

theorem missOutcome (hn : n < l0MaxSlots) (hr : (arena.metadata n).reusable t = true)
    (hbefore : ∀ i < n, (arena.metadata i).reusable t = false)
    (hother : ∀ i < l0MaxSlots, (arena.metadata i).matchable t = true →
      ¬ Similar query (arena.vectors i)) :
    CheckOutcome query t arena (.ok ⟨.miss,n,[]⟩)
      ((((expireSlots t arena).storeControl n (packControl .pending .hot 0 0)).storeVector n
        query).storeCreatedAt n t) :=
  .miss (below_iff.mpr hother) (reusableSlot_eq hn hr hbefore)

theorem hitOutcome (hn : n < l0MaxSlots) (hready : (arena.metadata n).loadControl.state = .ready)
    (hsimilar : Similar query (arena.vectors n))
    (hother : ∀ i < l0MaxSlots, i ≠ n → (arena.metadata i).matchable t = true →
      cosineSimilarity query (arena.vectors i) < cosineSimilarity query (arena.vectors n)) :
    CheckOutcome query t arena
        (.ok ⟨.hit,-1,arena.readPayload (arena.metadata n).loadControl.virtualOffset
          (arena.metadata n).loadControl.length⟩)
        ((expireSlots t arena).storeControl n (packControl (arena.metadata n).loadControl.state .hot
          (arena.metadata n).loadControl.length (arena.metadata n).loadControl.virtualOffset)) := by
  have hbest := bestSlot_of_greatest hn (MetaNode.matchable_eq_true.mpr (.inl hready)) hsimilar
    hother
  exact .hit (by rw [hbest]) (by rw [hbest]; exact hsimilar) (.inl hready)

def axis (i : Fin vectorDim) : Vec K := Pi.single i 1

theorem axis_normalized (i : Fin vectorDim) : Normalized (axis i : Vec K) := by
  rw [Normalized, cosineSimilarity_eq_dotProduct]
  simp [axis]

theorem axis_not_similar {i j : Fin vectorDim} (h : i ≠ j) :
    ¬ Similar (axis i : Vec K) (axis j) := by
  rw [not_similar_iff, cosineSimilarity_eq_dotProduct]
  simp [axis, h, exactThreshold_pos]

def tilted : Vec K := (40 / 41 : K) • axis 0 + (9 / 41 : K) • axis 1

theorem axis_similar_tilted : Similar (axis 0 : Vec K) tilted := by
  have hscore : (axis 0 : Vec K) ⬝ᵥ tilted = 40 / 41 := by
    have hother : (axis 0 : Vec K) 1 = 0 := Pi.single_eq_of_ne (by decide) 1
    simpa [tilted, axis] using hother
  rw [similar_iff, cosineSimilarity_eq_dotProduct, hscore, exactThreshold]
  norm_num

end Exact

end Strix
