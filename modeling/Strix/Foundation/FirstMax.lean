import Mathlib.Order.Lattice
import Mathlib.Tactic.Common

/-! # The first maximum of a left-to-right scan

A scan over the indices below `n` keeps the best key so far and the index it
came from; an index without a key is passed over, and a later key replaces the
best one only when it is greater. The comparison is arbitrary: what depends on
an order is stated for a linear one.
-/
namespace FirstMax
variable {K : Type*}

def firstMax (greater : K → K → Bool) (key : ℕ → Option K) (init : K) : ℕ → K × Option ℕ
  | 0 => (init, none)
  | n + 1 =>
    let best := firstMax greater key init n
    match key n with
    | some k => if greater k best.1 then (k, some n) else best
    | none => best

section Any
variable {greater : K → K → Bool} {key : ℕ → Option K} {init : K} {n i : ℕ}

theorem firstMax_succ_none (h : key n = none) :
    firstMax greater key init (n + 1) = firstMax greater key init n := by
  simp [firstMax, h]

theorem firstMax_succ_some {k : K} (h : key n = some k) :
    firstMax greater key init (n + 1) =
      if greater k (firstMax greater key init n).1 then (k, some n)
      else firstMax greater key init n := by
  simp [firstMax, h]

theorem firstMax_congr {key' : ℕ → Option K} (h : ∀ i < n, key i = key' i) :
    firstMax greater key init n = firstMax greater key' init n := by
  induction n with
  | zero => rfl
  | succ n ih => rw [firstMax, firstMax, ih fun i hi => h i (by omega), h n (by omega)]

theorem fst_eq_init (h : (firstMax greater key init n).2 = none) :
    (firstMax greater key init n).1 = init := by
  induction n with
  | zero => rfl
  | succ n ih =>
    cases hk : key n with
    | none =>
      rw [firstMax_succ_none hk] at h ⊢
      exact ih h
    | some k =>
      rw [firstMax_succ_some hk] at h ⊢
      split at h
      · simp at h
      · next hg =>
        rw [if_neg hg]
        exact ih h

theorem key_of_snd (h : (firstMax greater key init n).2 = some i) :
    i < n ∧ key i = some (firstMax greater key init n).1 := by
  induction n with
  | zero => simp [firstMax] at h
  | succ n ih =>
    cases hk : key n with
    | none =>
      rw [firstMax_succ_none hk] at h ⊢
      have := ih h
      exact ⟨by omega,this.2⟩
    | some k =>
      rw [firstMax_succ_some hk] at h ⊢
      split at h
      · next hg =>
        rw [if_pos hg]
        obtain rfl : n = i := by simpa using h
        exact ⟨by omega,hk⟩
      · next hg =>
        rw [if_neg hg]
        have := ih h
        exact ⟨by omega,this.2⟩

end Any

section Linear
variable [LinearOrder K] {key : ℕ → Option K} {init : K} {n i : ℕ}

abbrev scanMax (key : ℕ → Option K) (init : K) (n : ℕ) : K × Option ℕ :=
  firstMax (fun a b => decide (b < a)) key init n

theorem fst_mono : (scanMax key init n).1 ≤ (scanMax key init (n + 1)).1 := by
  cases hk : key n with
  | none => rw [scanMax, scanMax, firstMax_succ_none hk]
  | some k =>
    rw [scanMax, scanMax, firstMax_succ_some hk]
    split
    · next hg => exact le_of_lt (of_decide_eq_true hg)
    · exact le_rfl

theorem key_le (init : K) {k : K} (hi : i < n) (hk : key i = some k) :
    k ≤ (scanMax key init n).1 := by
  induction n with
  | zero => omega
  | succ n ih =>
    rcases Nat.lt_succ_iff_lt_or_eq.mp hi with hlt | rfl
    · exact le_trans (ih hlt) fst_mono
    · rw [scanMax, firstMax_succ_some hk]
      split
      · exact le_rfl
      · next hg => exact not_lt.mp (of_decide_eq_false (by simpa using hg))

theorem lt_of_before {j : ℕ} {l : K} (h : (scanMax key init n).2 = some i) (hj : j < i)
    (hk : key j = some l) : l < (scanMax key init n).1 := by
  induction n with
  | zero => simp [firstMax] at h
  | succ n ih =>
    cases hn : key n with
    | none =>
      rw [scanMax, firstMax_succ_none hn] at h ⊢
      exact ih h
    | some k =>
      rw [scanMax, firstMax_succ_some hn] at h ⊢
      split at h
      · next hg =>
        rw [if_pos hg]
        obtain rfl : n = i := by simpa using h
        exact lt_of_le_of_lt (key_le init hj hk) (of_decide_eq_true hg)
      · next hg =>
        rw [if_neg hg]
        exact ih h

/-- A key above all other keys and above the start value wins the scan. -/
theorem snd_of_greatest {k : K} (hi : i < n) (hk : key i = some k) (hinit : init < k)
    (hother : ∀ j < n, j ≠ i → ∀ l, key j = some l → l < k) :
    scanMax key init n = (k, some i) := by
  have hle := key_le init hi hk
  cases hs : (scanMax key init n).2 with
  | none =>
    rw [fst_eq_init hs] at hle
    exact absurd hle (not_le.mpr hinit)
  | some j =>
    obtain ⟨hj,hkey⟩ := key_of_snd hs
    obtain rfl : j = i := by
      by_contra hne
      exact absurd hle (not_le.mpr (hother j hj hne _ hkey))
    exact Prod.ext (Option.some.inj (hkey.symm.trans hk)) hs

end Linear

end FirstMax
