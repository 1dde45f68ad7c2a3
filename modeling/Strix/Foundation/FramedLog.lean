import Strix.Foundation.ByteRing
import Mathlib.Algebra.Order.BigOperators.Group.Finset

/-! # A queue of framed strings in a byte ring

Entries are laid one behind the other at increasing stream positions. A frame
header of `hdr` bytes must not straddle the ring end, so an entry that would
start in the last cells of a turn starts at the next turn instead, and the
cells in between are a gap. The lay-out is a function of the front position
and the entries, which makes the writer and the reader agree by construction.
-/
namespace FramedLog
open ByteRing

structure Entry (R : Type*) where
  offset : ℕ
  item : R

variable (N hdr : ℕ) {α R : Type*} (encode : R → List α)

/-- The gap in front of an entry that is placed when the stream has reached `v`. -/
def padding (v : ℕ) : ℕ := if N - v % N < hdr then N - v % N else 0

def place (v : ℕ) : ℕ := v + padding N hdr v

/-- The entries fill the stream from `T` to `H`. -/
def Laid : ℕ → List (Entry R) → ℕ → Prop
  | T, [], H => T = H
  | T, e :: es, H => e.offset = place N hdr T ∧ Laid (e.offset + (encode e.item).length) es H

structure Holds (buf : ℕ → α) (T : ℕ) (es : List (Entry R)) (H : ℕ) : Prop where
  laid : Laid N hdr encode T es H
  stored : ∀ e ∈ es, Stored N buf e.offset (encode e.item)

variable {N hdr} {encode}

theorem padding_lt (N : ℕ) (hhdr : 0 < hdr) (v : ℕ) : padding N hdr v < hdr := by
  unfold padding
  split <;> omega

theorem le_place (N hdr v : ℕ) : v ≤ place N hdr v := Nat.le_add_right _ _

theorem place_of_fits {v : ℕ} (h : v % N + hdr ≤ N) : place N hdr v = v := by
  rw [place, padding, if_neg (by omega), Nat.add_zero]

theorem place_mod_of_gap (hN : 0 < N) {v : ℕ} (h : N - v % N < hdr) :
    place N hdr v = v + (N - v % N) ∧ place N hdr v % N = 0 := by
  have hlt := Nat.mod_lt v hN
  have heq : place N hdr v = v + (N - v % N) := by rw [place, padding, if_pos h]
  refine ⟨heq,?_⟩
  rw [heq, show v + (N - v % N) = N * (v / N) + N by have := Nat.div_add_mod v N; omega]
  simp

theorem place_fits (hN : 0 < N) (hhdr : hdr ≤ N) (v : ℕ) : place N hdr v % N + hdr ≤ N := by
  have hlt := Nat.mod_lt v hN
  by_cases h : N - v % N < hdr
  · rw [(place_mod_of_gap hN h).2]
    omega
  · rw [place_of_fits (by omega)]
    omega

theorem place_place (hN : 0 < N) (hhdr : hdr ≤ N) (v : ℕ) :
    place N hdr (place N hdr v) = place N hdr v := place_of_fits (place_fits hN hhdr v)

section Laid
variable {T H : ℕ} {e : Entry R} {es : List (Entry R)}

theorem Laid.le (h : Laid N hdr encode T es H) : T ≤ H := by
  induction es generalizing T with
  | nil => exact (show T = H from h).le
  | cons e es ih =>
    obtain ⟨hoff,hrest⟩ := h
    have hplace := le_place N hdr T
    have := ih hrest
    omega

theorem Laid.bounds (h : Laid N hdr encode T es H) (he : e ∈ es) :
    T ≤ e.offset ∧ e.offset + (encode e.item).length ≤ H := by
  induction es generalizing T with
  | nil => simp at he
  | cons a es ih =>
    obtain ⟨hoff,hrest⟩ := h
    have hplace := le_place N hdr T
    rcases List.mem_cons.mp he with rfl | he
    · exact ⟨by omega,hrest.le⟩
    · have := ih hrest he
      omega

theorem Laid.fits (hN : 0 < N) (hhdr : hdr ≤ N) (h : Laid N hdr encode T es H) (he : e ∈ es) :
    e.offset % N + hdr ≤ N := by
  induction es generalizing T with
  | nil => simp at he
  | cons a es ih =>
    obtain ⟨hoff,hrest⟩ := h
    rcases List.mem_cons.mp he with rfl | he
    · rw [hoff]
      exact place_fits hN hhdr T
    · exact ih hrest he

theorem Laid.sum_le (h : Laid N hdr encode T es H) :
    T + (es.map fun e => (encode e.item).length).sum ≤ H := by
  induction es generalizing T with
  | nil => simpa using h.le
  | cons e es ih =>
    obtain ⟨hoff,hrest⟩ := h
    have hplace := le_place N hdr T
    have := ih hrest
    rw [List.map_cons, List.sum_cons]
    omega

/-- Distinct keys found at entries of the list weigh no more than the list. -/
theorem sum_le_of_keyed {κ : Type*} [DecidableEq κ] (key : Entry R → κ) (size : Entry R → ℕ)
    (weight : κ → ℕ) {s : Finset κ} {es : List (Entry R)}
    (h : ∀ n ∈ s, ∃ e ∈ es, key e = n ∧ weight n ≤ size e) :
    ∑ n ∈ s, weight n ≤ (es.map size).sum := by
  induction es generalizing s with
  | nil =>
    have hempty : s = ∅ := Finset.eq_empty_of_forall_notMem fun n hn => by simpa using h n hn
    simp [hempty]
  | cons e es ih =>
    rw [List.map_cons, List.sum_cons]
    -- either the first entry accounts for its own key, or the others cover every key
    by_cases he : key e ∈ s ∧ weight (key e) ≤ size e
    · have hrest : ∑ n ∈ s.erase (key e), weight n ≤ (es.map size).sum := by
        refine ih fun n hn => ?_
        rw [Finset.mem_erase] at hn
        obtain ⟨a,ha,hkey,hle⟩ := h n hn.2
        rcases List.mem_cons.mp ha with rfl | ha
        · exact absurd hkey.symm hn.1
        · exact ⟨a,ha,hkey,hle⟩
      rw [← Finset.add_sum_erase s weight he.1]
      exact Nat.add_le_add he.2 hrest
    · have hrest : ∑ n ∈ s, weight n ≤ (es.map size).sum := by
        refine ih fun n hn => ?_
        obtain ⟨a,ha,rfl,hle⟩ := h n hn
        rcases List.mem_cons.mp ha with rfl | ha
        · exact absurd ⟨hn,hle⟩ he
        · exact ⟨a,ha,rfl,hle⟩
      omega

theorem Laid.snoc (h : Laid N hdr encode T es H) (r : R) :
    Laid N hdr encode T (es ++ [⟨place N hdr H,r⟩]) (place N hdr H + (encode r).length) := by
  induction es generalizing T with
  | nil =>
    obtain rfl : T = H := h
    exact ⟨rfl,rfl⟩
  | cons a es ih =>
    obtain ⟨hoff,hrest⟩ := h
    exact ⟨hoff,ih hrest⟩

theorem Laid.eq_of_offset (h : Laid N hdr encode T es H)
    (hpos : ∀ r : R, 0 < (encode r).length) {a b : Entry R} (ha : a ∈ es) (hb : b ∈ es)
    (hab : a.offset = b.offset) : a = b := by
  induction es generalizing T with
  | nil => simp at ha
  | cons c es ih =>
    obtain ⟨hoff,hrest⟩ := h
    have hc := hpos c.item
    rcases List.mem_cons.mp ha with rfl | ha' <;> rcases List.mem_cons.mp hb with rfl | hb'
    · rfl
    · have := (hrest.bounds hb').1
      omega
    · have := (hrest.bounds ha').1
      omega
    · exact ih hrest ha' hb'

theorem Laid.ordered (h : Laid N hdr encode T es H) {a b : Entry R} (ha : a ∈ es) (hb : b ∈ es)
    (hab : a ≠ b) : a.offset + (encode a.item).length ≤ b.offset ∨
      b.offset + (encode b.item).length ≤ a.offset := by
  induction es generalizing T with
  | nil => simp at ha
  | cons c es ih =>
    obtain ⟨-,hrest⟩ := h
    rcases List.mem_cons.mp ha with rfl | ha' <;> rcases List.mem_cons.mp hb with rfl | hb'
    · exact absurd rfl hab
    · exact .inl (hrest.bounds hb').1
    · exact .inr (hrest.bounds ha').1
    · exact ih hrest ha' hb'

/-- Entries of a stream no longer than one turn share no cell. -/
theorem Laid.apart {M : ℕ} (h : Laid N hdr encode T es H) (hturn : H ≤ T + M) {a b : Entry R}
    (ha : a ∈ es) (hb : b ∈ es) (hab : a ≠ b) :
    Apart M a.offset (encode a.item).length b.offset (encode b.item).length := by
  have hbounds := h.bounds ha
  have hbounds' := h.bounds hb
  rcases h.ordered ha hb hab with hle | hle
  · exact apart_of_le hle (by omega)
  · exact Apart.symm (apart_of_le hle (by omega))

end Laid

section Holds
variable {buf buf' : ℕ → α} {T H : ℕ} {e : Entry R} {es : List (Entry R)}

theorem holds_nil (buf : ℕ → α) (T : ℕ) : Holds N hdr encode buf T ([] : List (Entry R)) T :=
  ⟨rfl,by simp⟩

theorem Holds.drop (h : Holds N hdr encode buf T (e :: es) H) :
    Holds N hdr encode buf (e.offset + (encode e.item).length) es H :=
  ⟨h.laid.2,fun a ha => h.stored a (List.mem_cons_of_mem _ ha)⟩

theorem Holds.leap (hN : 0 < N) (hhdr : hdr ≤ N) (h : Holds N hdr encode buf T (e :: es) H) :
    Holds N hdr encode buf (place N hdr T) (e :: es) H :=
  ⟨⟨by rw [place_place hN hhdr]; exact h.laid.1,h.laid.2⟩,h.stored⟩

theorem Holds.frame {w n : ℕ} (h : Holds N hdr encode buf T es H)
    (hu : UnchangedOutside N buf buf' w n) (hw : H ≤ w) (hn : w + n ≤ T + N) :
    Holds N hdr encode buf' T es H := by
  refine ⟨h.laid,fun a ha => (h.stored a ha).frame hu ?_⟩
  have hb := h.laid.bounds ha
  exact apart_of_le (by omega) (by omega)

theorem Holds.append (h : Holds N hdr encode buf T es H) {r : R}
    (hw : Writes N buf buf' (place N hdr H) (encode r))
    (hroom : place N hdr H + (encode r).length ≤ T + N) :
    Holds N hdr encode buf' T (es ++ [⟨place N hdr H,r⟩])
      (place N hdr H + (encode r).length) := by
  refine ⟨h.laid.snoc r,fun a ha => ?_⟩
  rcases List.mem_append.mp ha with ha | ha
  · exact (h.frame hw.unchanged (le_place N hdr H) hroom).stored a ha
  · rw [List.mem_singleton.mp ha]
    exact hw.stored

end Holds

theorem eq_of_mod_eq {M T a b : ℕ} (ha : T ≤ a) (ha' : a < T + M) (hb : T ≤ b) (hb' : b < T + M)
    (h : a % M = b % M) : a = b := by
  rcases lt_trichotomy a b with hab | hab | hab
  · exact (mod_ne hab (by omega) h).elim
  · exact hab
  · exact (mod_ne hab (by omega) h.symm).elim

end FramedLog
