import Mathlib.Data.Nat.ModEq
import Mathlib.Tactic.Common

/-! # Byte strings in a ring memory addressed by unbounded positions

A ring of `N` cells is a flat buffer; position `v` of the unbounded stream lives
in cell `v % N`. A string is stored at a position, a copy changes the cells of
one range and no others, and two ranges that lie within one turn of the ring
share no cell.
-/
namespace ByteRing
variable {α : Type*} (N : ℕ)

def memcpy (buf : ℕ → α) (dst : ℕ) (bytes : List α) : ℕ → α := fun i =>
  if h : dst ≤ i ∧ i - dst < bytes.length then bytes[i - dst] else buf i

def load (buf : ℕ → α) (src n : ℕ) : List α := (List.range n).map (fun j => buf (src + j))

/-- The string `xs` occupies the stream positions from `v` on. -/
def Stored (buf : ℕ → α) (v : ℕ) (xs : List α) : Prop :=
  ∀ j (h : j < xs.length), buf ((v + j) % N) = xs[j]

/-- The ranges of `m` positions from `v` and of `n` positions from `w` share no cell. -/
def Apart (v m w n : ℕ) : Prop := ∀ i < m, ∀ j < n, (v + i) % N ≠ (w + j) % N

/-- Only cells of the `n` positions from `w` differ between the two buffers. -/
def UnchangedOutside (buf buf' : ℕ → α) (w n : ℕ) : Prop :=
  ∀ i, (∀ j < n, i ≠ (w + j) % N) → buf' i = buf i

/-- `buf'` is `buf` with `xs` written at position `w`. -/
structure Writes (buf buf' : ℕ → α) (w : ℕ) (xs : List α) : Prop where
  stored : Stored N buf' w xs
  unchanged : UnchangedOutside N buf buf' w xs.length

@[simp] theorem load_length (buf : ℕ → α) (src n : ℕ) : (load buf src n).length = n := by
  simp [load]

variable {N} {buf buf' buf'' : ℕ → α} {v w m n : ℕ} {xs ys : List α}

theorem mod_ne (hlt : v < w) (hturn : w < v + N) : v % N ≠ w % N := by
  intro h
  have hz := Nat.sub_mod_eq_zero_of_mod_eq h.symm
  have hd := Nat.le_of_dvd (by omega) (Nat.dvd_of_mod_eq_zero hz)
  omega

theorem mod_add_of_fits {j : ℕ} (h : v % N + j < N) : (v + j) % N = v % N + j := by
  rw [← Nat.mod_add_mod, Nat.mod_eq_of_lt h]

theorem apart_of_le (h : v + m ≤ w) (hturn : w + n ≤ v + N) : Apart N v m w n := by
  intro i hi j hj
  exact mod_ne (by omega) (by omega)

theorem apart_iff (hm : 0 < m) (h : v + m = w) (hle : w ≤ v + N) :
    Apart N v m w n ↔ w + n ≤ v + N := by
  refine ⟨fun ha => ?_,apart_of_le h.le⟩
  by_contra hlong
  have hhit := ha 0 hm (v + N - w) (by omega)
  rw [show w + (v + N - w) = v + N by omega, Nat.add_zero, Nat.add_mod_right] at hhit
  exact hhit rfl

theorem apart_congr {v' w' : ℕ} (hv : v % N = v' % N) (hw : w % N = w' % N) :
    Apart N v m w n ↔ Apart N v' m w' n := by
  have hadd : ∀ i, (v + i) % N = (v' + i) % N := fun i => Nat.ModEq.add_right i hv
  have hadd' : ∀ j, (w + j) % N = (w' + j) % N := fun j => Nat.ModEq.add_right j hw
  simp only [Apart, hadd, hadd']

theorem Apart.symm (h : Apart N v m w n) : Apart N w n v m := fun j hj i hi => (h i hi j hj).symm

theorem Apart.drop (h : Apart N v m w n) {k : ℕ} : Apart N (v + k) (m - k) (w + k) (n - k) := by
  intro i hi j hj
  rw [Nat.add_assoc, Nat.add_assoc]
  exact h _ (by omega) _ (by omega)

theorem UnchangedOutside.refl : UnchangedOutside N buf buf w n := fun _ _ => rfl

theorem stored_nil : Stored N buf v [] := by intro j h; simp at h

theorem exists_stored (buf : ℕ → α) (v n : ℕ) : ∃ xs, xs.length = n ∧ Stored N buf v xs :=
  ⟨(List.range n).map fun j => buf ((v + j) % N),by simp,fun j hj => by simp⟩

theorem Stored.frame (h : Stored N buf v xs) (hu : UnchangedOutside N buf buf' w n)
    (ha : Apart N v xs.length w n) : Stored N buf' v xs := by
  intro j hj
  rw [hu _ (fun k hk => ha j hj k hk)]
  exact h j hj

theorem stored_append : Stored N buf v (xs ++ ys) ↔
    Stored N buf v xs ∧ Stored N buf (v + xs.length) ys := by
  constructor
  · intro h
    refine ⟨fun j hj => ?_, fun j hj => ?_⟩
    · have := h j (by rw [List.length_append]; omega)
      rwa [List.getElem_append_left hj] at this
    · have := h (xs.length + j) (by rw [List.length_append]; omega)
      rw [List.getElem_append_right (by omega), ← Nat.add_assoc] at this
      simpa using this
  · rintro ⟨hx,hy⟩ j hj
    by_cases hjx : j < xs.length
    · rw [List.getElem_append_left hjx]
      exact hx j hjx
    · rw [List.length_append] at hj
      have := hy (j - xs.length) (by omega)
      rw [List.getElem_append_right (by omega), ← this]
      congr 2
      omega

theorem Stored.load_eq (h : Stored N buf v xs) (hn : n ≤ xs.length) (hfit : v % N + n ≤ N) :
    load buf (v % N) n = xs.take n := by
  apply List.ext_getElem (by simp [hn])
  intro j hj _
  rw [load_length] at hj
  have := h j (by omega)
  rw [mod_add_of_fits (by omega)] at this
  simpa [load] using this

theorem memcpy_writes (buf : ℕ → α) (v : ℕ) (xs : List α) (hfit : v % N + xs.length ≤ N) :
    Writes N buf (memcpy buf (v % N) xs) v xs := by
  constructor
  · intro j hj
    rw [mod_add_of_fits (by omega)]
    simp [memcpy, hj]
  · intro i hi
    rw [memcpy, dif_neg]
    rintro ⟨hle,hlt⟩
    apply hi (i - v % N) hlt
    rw [mod_add_of_fits (by omega)]
    omega

theorem Writes.nil : Writes N buf buf v [] := ⟨stored_nil,.refl⟩

/-- Two adjacent writes that do not run over each other are one write. -/
theorem Writes.append (h : Writes N buf buf' v xs) (ys : List α)
    (k : Writes N buf' buf'' (v + xs.length) ys) (hlen : xs.length + ys.length ≤ N) :
    Writes N buf buf'' v (xs ++ ys) := by
  constructor
  · refine stored_append.mpr ⟨h.stored.frame k.unchanged (apart_of_le le_rfl (by omega)),k.stored⟩
  · intro i hi
    rw [List.length_append] at hi
    rw [k.unchanged i, h.unchanged i]
    · exact fun j hj => hi j (by omega)
    · intro j hj
      rw [Nat.add_assoc]
      exact hi _ (by omega)

theorem memcpy_wrap_writes (hN : 0 < N) (hlen : xs.length ≤ N) (hwrap : N - v % N < xs.length) :
    Writes N buf (memcpy (memcpy buf (v % N) (xs.take (N - v % N))) 0 (xs.drop (N - v % N)))
      v xs := by
  have hlt := Nat.mod_lt v hN
  have htake : (xs.take (N - v % N)).length = N - v % N := by rw [List.length_take]; omega
  have hend : (v + (xs.take (N - v % N)).length) % N = 0 := by
    rw [htake, show v + (N - v % N) = N * (v / N) + N by have := Nat.div_add_mod v N; omega]
    simp
  have hfirst := memcpy_writes (N := N) buf v (xs.take (N - v % N)) (by omega)
  have hsecond := memcpy_writes (N := N) (memcpy buf (v % N) (xs.take (N - v % N)))
    (v + (xs.take (N - v % N)).length) (xs.drop (N - v % N))
    (by rw [hend, List.length_drop]; omega)
  rw [hend] at hsecond
  simpa using hfirst.append _ hsecond (by rw [htake, List.length_drop]; omega)

theorem Stored.load_wrap_eq (hN : 0 < N) (h : Stored N buf v xs) (hlen : xs.length ≤ N)
    (hwrap : N - v % N < xs.length) :
    load buf (v % N) (N - v % N) ++ load buf 0 (xs.length - (N - v % N)) = xs := by
  have hlt := Nat.mod_lt v hN
  have hrest : Stored N buf (v + (N - v % N)) (xs.drop (N - v % N)) := by
    have hsplit : Stored N buf v (xs.take (N - v % N) ++ xs.drop (N - v % N)) := by
      rwa [List.take_append_drop]
    have := (stored_append.mp hsplit).2
    rwa [List.length_take, Nat.min_eq_left hwrap.le] at this
  have hend : (v + (N - v % N)) % N = 0 := by
    rw [show v + (N - v % N) = N * (v / N) + N by have := Nat.div_add_mod v N; omega]
    simp
  have hload := hrest.load_eq (n := xs.length - (N - v % N)) (by rw [List.length_drop])
    (by rw [hend]; omega)
  rw [hend, ← List.length_drop, List.take_length] at hload
  rw [h.load_eq hwrap.le (by omega), ← List.length_drop, hload, List.take_append_drop]

end ByteRing
