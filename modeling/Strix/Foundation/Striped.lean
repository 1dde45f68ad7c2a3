import Mathlib.Logic.Function.Basic
import Mathlib.Tactic.Common

/-! # Striped maps

A map split over stripes, each key living in the stripe that a placement function
names. Reading and writing go to that stripe only, and together they behave as
one flat map, whatever keys share a stripe.
-/
namespace Striped

variable {ι κ β : Type*} [DecidableEq ι] [DecidableEq κ] (place : κ → ι)

def get (m : ι → κ → Option β) (k : κ) : Option β := m (place k) k

def put (m : ι → κ → Option β) (k : κ) (v : Option β) : ι → κ → Option β :=
  Function.update m (place k) (Function.update (m (place k)) k v)

variable {place} {m : ι → κ → Option β} {k l : κ} {v : Option β}

/-- A striped map reads as one flat map. -/
theorem get_put : get place (put place m k v) = Function.update (get place m) k v := by
  funext l
  unfold get put
  by_cases hl : l = k
  · subst hl
    simp
  · rw [Function.update_of_ne hl]
    by_cases hplace : place l = place k
    · rw [hplace, Function.update_self, Function.update_of_ne hl]
    · rw [Function.update_of_ne hplace]

theorem get_put_self : get place (put place m k v) k = v := by
  rw [get_put, Function.update_self]

variable (place) in
/-- Each key lies in its own stripe. -/
def Placed (m : ι → κ → Option β) : Prop := ∀ i k, m i k ≠ none → place k = i

omit [DecidableEq ι] [DecidableEq κ] in
theorem placed_empty : Placed place (fun (_ : ι) (_ : κ) => (none : Option β)) := by
  intro i k h
  exact absurd rfl h

theorem Placed.put (h : Placed place m) : Placed place (put place m k v) := by
  intro i l hl
  unfold Striped.put at hl
  by_cases hi : i = place k
  · subst hi
    rw [Function.update_self] at hl
    by_cases hlk : l = k
    · rw [hlk]
    · rw [Function.update_of_ne hlk] at hl
      exact h _ l hl
  · rw [Function.update_of_ne hi] at hl
    exact h i l hl

omit [DecidableEq ι] [DecidableEq κ] in
theorem Placed.empty_iff (h : Placed place m) :
    (∀ i k, m i k = none) ↔ ∀ k, get place m k = none := by
  constructor
  · exact fun hall k => hall _ k
  · intro hget i k
    by_contra hne
    have hplace := h i k hne
    subst hplace
    exact hne (hget k)

end Striped
