import Strix.Foundation.ThreadPool
import Mathlib.Algebra.BigOperators.Ring.List
import Mathlib.Algebra.Ring.Nat

/-! # How many steps a thread takes

A thread's steps are paid for by a rank of its own place that each of them lowers,
and by what the pool gives it: where another thread spoils its work, the rank may
rise, and the rise is counted. So the steps of a thread are bounded by where it
started and by how often it was disturbed, in every interleaving.
-/
namespace ThreadPool
open RunHistory

variable {ι S L A : Type*}

def total {τ : Type*} (gain : τ → ℕ) (es : List τ) : ℕ := (es.map gain).sum

section Total
variable {τ : Type*} {gain : τ → ℕ} {es fs : List τ} {e : τ}

@[simp] theorem total_nil : total gain [] = 0 := rfl

@[simp] theorem total_append : total gain (es ++ fs) = total gain es + total gain fs := by
  simp [total]

@[simp] theorem total_cons : total gain (e :: es) = gain e + total gain es := by
  simp [total]

theorem total_eq_zero (h : ∀ e ∈ es, gain e = 0) : total gain es = 0 :=
  List.sum_eq_zero fun _ hn => by
    obtain ⟨e,he,rfl⟩ := List.mem_map.mp hn
    exact h e he

@[simp] theorem total_zero (es : List τ) : total (fun _ => 0) es = 0 :=
  total_eq_zero fun _ _ => rfl

theorem total_add {gain' : τ → ℕ} :
    total (fun e => gain e + gain' e) es = total gain es + total gain' es := by
  simp only [total, List.sum_map_add]

theorem total_mul (n : ℕ) :
    total (fun e => n * gain e) es = n * total gain es :=
  List.sum_map_mul_left _ _ _

end Total

variable [DecidableEq ι] {step : S → L → A → S → L → Prop} {p q : Pool ι S L}
  {es fs : List (Transition (Pool ι S L) (ι × A))} {i : ι}

def stepsOf (i : ι) (es : List (Transition (Pool ι S L) (ι × A))) : ℕ :=
  total (fun τ => if τ.act.1 = i then 1 else 0) es

@[simp] theorem stepsOf_append : stepsOf i (es ++ fs) = stepsOf i es + stepsOf i fs := total_append

@[simp] theorem stepsOf_cons {τ : Transition (Pool ι S L) (ι × A)} :
    stepsOf i (τ :: es) = (if τ.act.1 = i then 1 else 0) + stepsOf i es := total_cons

@[simp] theorem stepsOf_nil : stepsOf i ([] : List (Transition (Pool ι S L) (ι × A))) = 0 := rfl

theorem stepsOf_eq_zero {start : L} (leaves : ∀ s l a s' l', step s l a s' l' → l' ≠ start)
    (h : Run (Moves step) p es q) (hq : q.threads i = start) : stepsOf i es = 0 := by
  revert hq
  refine h.historyInvariant (I := fun es u => u.threads i = start → stepsOf i es = 0)
    (P := fun _ => True) ?_ (fun _ _ => trivial) fun _ => rfl
  intro es τ hmove _ ih hstart
  by_cases hi : τ.act.1 = i
  · subst hi
    exact absurd hstart (leaves _ _ _ _ _ hmove.own)
  · rw [hmove.others i (Ne.symm hi)] at hstart
    simp [ih hstart, hi]

/-- The rule of step budgets. While `J` holds of the thread, each of its own steps lowers
its rank and no step of another raises it, up to what the step gives. -/
theorem steps_le {J : L → Prop} (rank : S → L → ℕ)
    (gain : Transition (Pool ι S L) (ι × A) → ℕ)
    (own : ∀ τ : Transition (Pool ι S L) (ι × A), τ.act.1 = i →
      step τ.before.shared (τ.before.threads i) τ.act.2 τ.after.shared (τ.after.threads i) →
      J (τ.before.threads i) → J (τ.after.threads i) ∧ rank τ.after.shared (τ.after.threads i) + 1 ≤
        rank τ.before.shared (τ.before.threads i) + gain τ)
    (others : ∀ τ, Moves step τ.before τ.act τ.after → τ.act.1 ≠ i → J (τ.before.threads i) →
      rank τ.after.shared (τ.before.threads i) ≤
        rank τ.before.shared (τ.before.threads i) + gain τ)
    (h : Run (Moves step) p es q) (hJ : J (p.threads i)) :
    J (q.threads i) ∧ stepsOf i es + rank q.shared (q.threads i) ≤
      rank p.shared (p.threads i) + total gain es := by
  refine h.historyInvariant (I := fun es u => J (u.threads i) ∧
      stepsOf i es + rank u.shared (u.threads i) ≤
        rank p.shared (p.threads i) + total gain es)
    (P := fun _ => True) ?_ (fun _ _ => trivial) ⟨hJ,by simp⟩
  intro es τ hmove _ ⟨hJτ,hle⟩
  by_cases hi : τ.act.1 = i
  · have hown := hmove.own
    rw [hi] at hown
    obtain ⟨hJ',hstep⟩ := own τ hi hown hJτ
    refine ⟨hJ',?_⟩
    simp only [stepsOf_append, stepsOf_cons, if_pos hi, stepsOf_nil, total_append, total_cons,
      total_nil]
    omega
  · have hstep := others τ hmove hi hJτ
    rw [hmove.others i (Ne.symm hi)]
    refine ⟨hJτ,?_⟩
    simp only [stepsOf_append, stepsOf_cons, if_neg hi, stepsOf_nil, total_append, total_cons,
      total_nil]
    omega

end ThreadPool
