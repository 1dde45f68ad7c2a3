import Strix.Foundation.History

/-! # Threads over a shared state

A pool is a shared state and the local state of each thread; a run interleaves
the atomic steps of the threads in any order. What holds in every interleaving
is reduced here to two questions: what a thread's own steps do, and what the
steps of the others leave alone.
-/
namespace ThreadPool
open RunHistory

structure Pool (ι S L : Type*) where
  shared : S
  threads : ι → L

variable {ι S L A : Type*}

/-- One thread takes an atomic step, the others stand still. -/
structure Moves (step : S → L → A → S → L → Prop) (p : Pool ι S L) (act : ι × A)
    (p' : Pool ι S L) : Prop where
  own : step p.shared (p.threads act.1) act.2 p'.shared (p'.threads act.1)
  others : ∀ j, j ≠ act.1 → p'.threads j = p.threads j

variable {step : S → L → A → S → L → Prop} {p q : Pool ι S L}
  {es : List (Transition (Pool ι S L) (ι × A))}

theorem moves_update [DecidableEq ι] {i : ι} {a : A} {s' : S} {l' : L}
    (h : step p.shared (p.threads i) a s' l') :
    Moves step p (i, a) ⟨s',Function.update p.threads i l'⟩ :=
  ⟨by simpa using h,fun _ hj => Function.update_of_ne hj _ _⟩

theorem threads_of_run {j : ι} (h : Run (Moves step) p es q) (hj : ∀ τ ∈ es, τ.act.1 ≠ j) :
    q.threads j = p.threads j :=
  h.invariant (I := fun u => u.threads j = p.threads j) (P := fun τ => τ.act.1 ≠ j)
    (fun _ hmove hne hτ => (hmove.others j (Ne.symm hne)).trans hτ) hj rfl

theorem run_local {J : ι → L → Prop} (own : ∀ i s l a s' l', step s l a s' l' → J i l → J i l')
    (h : Run (Moves step) p es q) (hJ : ∀ i, J i (p.threads i)) (i : ι) : J i (q.threads i) := by
  refine h.invariant (I := fun u => ∀ i, J i (u.threads i)) (P := fun _ => True) ?_
    (fun _ _ => trivial) hJ i
  intro τ hmove _ hτ j
  by_cases hj : j = τ.act.1
  · subst hj
    exact own _ _ _ _ _ _ hmove.own (hτ _)
  · rw [hmove.others j hj]
    exact hτ j

/-- An invariant of the shared state and of each thread, tied to the history:
a step keeps it for its own thread and for every other. -/
theorem run_invariant {G : List (Transition (Pool ι S L) (ι × A)) → S → Prop}
    {J : List (Transition (Pool ι S L) (ι × A)) → S → ι → L → Prop}
    {P : Transition (Pool ι S L) (ι × A) → Prop}
    (own : ∀ es τ, Moves step τ.before τ.act τ.after → P τ → G es τ.before.shared →
      (∀ i, J es τ.before.shared i (τ.before.threads i)) →
      G (es ++ [τ]) τ.after.shared ∧
        J (es ++ [τ]) τ.after.shared τ.act.1 (τ.after.threads τ.act.1))
    (others : ∀ es τ j, Moves step τ.before τ.act τ.after → P τ → G es τ.before.shared →
      (∀ i, J es τ.before.shared i (τ.before.threads i)) → j ≠ τ.act.1 →
      J (es ++ [τ]) τ.after.shared j (τ.before.threads j))
    (h : Run (Moves step) p es q) (hP : ∀ τ ∈ es, P τ) (hG : G [] p.shared)
    (hJ : ∀ i, J [] p.shared i (p.threads i)) :
    G es q.shared ∧ ∀ i, J es q.shared i (q.threads i) := by
  refine h.historyInvariant (I := fun es u => G es u.shared ∧ ∀ i, J es u.shared i (u.threads i))
    (P := P) ?_ hP ⟨hG,hJ⟩
  intro es τ hfire hPτ ⟨hGτ,hJτ⟩
  obtain ⟨hG',hown⟩ := own es τ hfire hPτ hGτ hJτ
  refine ⟨hG',fun j => ?_⟩
  by_cases hj : j = τ.act.1
  · subst hj
    exact hown
  · rw [hfire.others j hj]
    exact others es τ j hfire hPτ hGτ hJτ hj

/-- One thread's steps, with nobody in between. -/
def Solo (step : S → L → A → S → L → Prop) (c : S × L) (a : A) (c' : S × L) : Prop :=
  step c.1 c.2 a c'.1 c'.2

theorem run_of_solo [DecidableEq ι] {i : ι} {s' : S} {l' : L} {fs : List (Transition (S × L) A)}
    (h : Run (Solo step) (p.shared, p.threads i) fs (s', l')) :
    ∃ es, Run (Moves step) p es ⟨s',Function.update p.threads i l'⟩ ∧
      es.map (fun τ => τ.act) = fs.map fun τ => (i, τ.act) := by
  generalize hstart : (p.shared, p.threads i) = start at h
  generalize hend : (s', l') = stop at h
  induction h generalizing s' l' with
  | nil =>
    rw [← hend, Prod.mk.injEq] at hstart
    obtain ⟨rfl,rfl⟩ := hstart
    exact ⟨[],by rw [Function.update_eq_self]; exact .nil p,rfl⟩
  | @snoc c d fs a run fire ih =>
    subst hend
    obtain ⟨es,hes,hacts⟩ := ih rfl
    have hstep : step (⟨c.1,Function.update p.threads i c.2⟩ : Pool ι S L).shared
        ((⟨c.1,Function.update p.threads i c.2⟩ : Pool ι S L).threads i) a s' l' := by
      simpa [Solo] using fire
    have hfire := moves_update (ι := ι) (i := i) hstep
    simp only [Function.update_idem] at hfire
    exact ⟨_,hes.snoc hfire,by simp [hacts]⟩

end ThreadPool
