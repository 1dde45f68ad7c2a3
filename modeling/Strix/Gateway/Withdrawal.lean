import Strix.Gateway.Broadcast

/-! # Which promise a pioneer withdraws

A registration overwrites by node ID and the last step of `pioneerFulfill`
deletes by node ID, whatever promise is stored there. The latest promise of a
node ID can be found until it is fulfilled exactly when no deletion meets an
unfulfilled promise.
-/
namespace Strix
open RunHistory ThreadPool

variable {ι E : Type*} {es : List (RegistryBeat ι E)} {pool : RegistryPool ι E}

/-- The latest promise of each node ID, unless it is fulfilled, is what a look-up finds. -/
def LatestFound (es : List (RegistryBeat ι E)) (r : Registry E) : Prop :=
  ∀ n p, latest registration es n = some p → (r.promises p).ready = false → r.lookUp n = some p

/-- A deletion under a node ID meets no promise that is still to be fulfilled. -/
def SparesUnfulfilled (τ : RegistryBeat ι E) : Prop :=
  ∀ n p payload err q, τ.before.threads τ.act.1 = .fulfilling .remove n p payload err →
    τ.before.shared.lookUp n = some q → (τ.before.shared.promises q).ready = true

theorem latest_registration_snoc {τ : RegistryBeat ι E}
    (h : ∀ n, τ.act.2 ≠ .register n) :
    latest registration (es ++ [τ]) = latest registration es := by
  rw [latest_snoc, record_none]
  unfold registration
  split
  · rename_i n hact
    exact absurd hact (h n)
  · rfl

/-- A look-up finds the latest promise or none. -/
theorem latest_of_lookUp (hrun : RegistryRun es pool) : ∀ n p, pool.shared.lookUp n = some p →
    latest registration es n = some p := by
  refine hrun.historyInvariant (P := fun _ => True)
    (I := fun es u => ∀ n p, u.shared.lookUp n = some p → latest registration es n = some p)
    ?_ (fun _ _ => trivial) ?_
  · intro es τ hmove _ ih n p hlook
    have hstep := hmove.own
    rcases hstep.lookUp_cases with ⟨m,hact,heq⟩ | ⟨m,q,payload,err,-,hact,heq⟩ | ⟨hact,-,heq⟩
    · have hreg : registration τ = some (m, τ.before.shared.allocated) := by
        rw [registration, hact]
      rw [latest_snoc, record_some _ hreg]
      rw [heq] at hlook
      by_cases hm : n = m
      · subst hm
        rwa [Function.update_self] at hlook ⊢
      · rw [Function.update_of_ne hm] at hlook ⊢
        exact ih n p hlook
    · rw [latest_registration_snoc (by simp [hact])]
      rw [heq] at hlook
      by_cases hm : n = m
      · subst hm
        simp at hlook
      · rw [Function.update_of_ne hm] at hlook
        exact ih n p hlook
    · rw [latest_registration_snoc hact]
      rw [heq] at hlook
      exact ih n p hlook
  · intro n p h
    simp [freshRegistry, Registry.lookUp, Striped.get] at h

theorem LatestFound.snoc {τ : RegistryBeat ι E} (hrun : RegistryRun es τ.before)
    (hmove : Moves CallerStep τ.before τ.act τ.after) (hspares : SparesUnfulfilled τ)
    (h : LatestFound es τ.before.shared) : LatestFound (es ++ [τ]) τ.after.shared := by
  obtain ⟨hG,hJ⟩ := registry_invariant hrun
  have hstep := hmove.own
  have hopen : ∀ p, (τ.after.shared.promises p).ready = false →
      (τ.before.shared.promises p).ready = false := by
    intro p hp
    by_contra hready
    rw [Bool.not_eq_false] at hready
    rw [hG.ready_stays (hJ _) hstep hready, hready] at hp
    cases hp
  intro n p hlatest hp
  rcases hstep.lookUp_cases with ⟨m,hact,heq⟩ | ⟨m,q,payload,err,hremove,hact,heq⟩ | ⟨hact,-,heq⟩
  · have hreg : registration τ = some (m, τ.before.shared.allocated) := by
      rw [registration, hact]
    rw [latest_snoc, record_some _ hreg] at hlatest
    rw [heq]
    by_cases hm : n = m
    · subst hm
      rwa [Function.update_self] at hlatest ⊢
    · rw [Function.update_of_ne hm] at hlatest ⊢
      exact h n p hlatest (hopen p hp)
  · rw [latest_registration_snoc (by simp [hact])] at hlatest
    have hfound := h n p hlatest (hopen p hp)
    have hm : n ≠ m := by
      rintro rfl
      have hready := hspares n q payload err p hremove hfound
      rw [hopen p hp] at hready
      cases hready
    rw [heq, Function.update_of_ne hm]
    exact hfound
  · rw [latest_registration_snoc hact] at hlatest
    rw [heq]
    exact h n p hlatest (hopen p hp)

/-- In every state of a run a look-up finds the latest unfulfilled promise of its node
ID, if and only if each deletion of the run spares unfulfilled promises. -/
theorem latest_found_iff (hrun : RegistryRun es pool) :
    (∀ es₁ τ es₂, es = es₁ ++ τ :: es₂ → LatestFound (es₁ ++ [τ]) τ.after.shared) ↔
      ∀ τ ∈ es, SparesUnfulfilled τ := by
  constructor
  · intro hfound τ hτ n p payload err q hremove hlook
    obtain ⟨es₁,es₂,rfl⟩ := List.append_of_mem hτ
    obtain ⟨hbefore,hmove,-⟩ := hrun.split_at
    have hlatest := latest_of_lookUp hbefore n q hlook
    by_contra hopen
    rw [Bool.not_eq_true] at hopen
    have hstep := hmove.own
    rw [hremove] at hstep
    obtain ⟨hact,hafter,-⟩ := hstep.remove_eq
    have hkept : latest registration (es₁ ++ [τ]) n = some q := by
      rw [latest_registration_snoc (by simp [hact]), hlatest]
    have hgone := hfound es₁ τ es₂ rfl n q hkept (by rw [hafter]; exact hopen)
    rw [hafter, Registry.lookUp, Striped.get_put_self] at hgone
    cases hgone
  · rintro hspares es₁ τ es₂ rfl
    obtain ⟨hbefore,hmove,-⟩ := hrun.split_at
    have hrun' : RegistryRun (es₁ ++ [τ]) τ.after := hbefore.snoc hmove
    refine hrun'.historyInvariant_of_run (I := fun es u => LatestFound es u.shared)
      (P := SparesUnfulfilled) ?_ ?_ ?_
    · intro es σ hrun hmove hσ ih
      exact ih.snoc hrun hmove hσ
    · intro σ hσ
      exact hspares σ (by simp only [List.mem_append, List.mem_cons] at hσ ⊢; tauto)
    · intro n p h
      simp at h

/-- The promise of a node ID's only pioneer is found as long as the pioneer is in flight. -/
theorem lookUp_of_inFlight {n : Int32} (hrun : RegistryRun es pool)
    (hone : ∀ i j p q, Happened (Registers i n p) es → Happened (Registers j n q) es → i = j) :
    ∀ j p, (pool.threads j).InFlight n p → pool.shared.lookUp n = some p := by
  revert hone
  refine hrun.historyInvariant_of_run (P := fun _ => True) (I := fun es u =>
    (∀ i j p q, Happened (Registers i n p) es → Happened (Registers j n q) es → i = j) →
      ∀ j p, (u.threads j).InFlight n p → u.shared.lookUp n = some p) ?_ (fun _ _ => trivial) ?_
  · intro es τ hbefore hmove _ ih hone j p hin
    have hfound := ih fun i j p q hi hj => hone i j p q (hi.mono [τ]) (hj.mono [τ])
    obtain ⟨-,hJ⟩ := registry_invariant hbefore
    have hstep := hmove.own
    -- a pioneer in flight that is not the actor
    have hother : j ≠ τ.act.1 → (τ.before.threads j).InFlight n p := by
      intro hj
      rwa [hmove.others j hj] at hin
    rcases hstep.lookUp_cases with ⟨m,hact,heq⟩ | ⟨m,q,payload,err,hremove,-,heq⟩ | ⟨hact,-,heq⟩
    · rw [hact] at hstep
      by_cases hm : n = m
      · subst hm
        have hreg : Registers τ.act.1 n τ.before.shared.allocated τ :=
          ⟨Prod.ext rfl hact,hstep.register_eq.2⟩
        have hj : j = τ.act.1 := by
          by_contra hj
          exact hj (hone _ _ _ _ (((hJ j).registered (hother hj)).mono [τ]) (happened_last es hreg))
        subst hj
        rw [hstep.register_eq.2] at hin
        rw [heq, Function.update_self, hin.2]
      · rw [heq, Function.update_of_ne hm]
        refine hfound j p (hother ?_)
        rintro rfl
        rw [hstep.register_eq.2] at hin
        exact hm hin.1.symm
    · have hj : j ≠ τ.act.1 := by
        rintro rfl
        rw [hremove] at hstep
        rw [hstep.remove_eq.2.2] at hin
        exact hin
      have hm : n ≠ m := by
        rintro rfl
        have hactor := hJ τ.act.1
        rw [hremove] at hactor
        exact hj (hone _ _ _ _ (((hJ j).registered (hother hj)).mono [τ]) (hactor.1.mono [τ]))
      rw [heq, Function.update_of_ne hm]
      exact hfound j p (hother hj)
    · rw [heq]
      by_cases hj : j = τ.act.1
      · subst hj
        rcases hstep.inFlight_of hin with hin | ⟨hregister,-⟩
        · exact hfound _ p hin
        · exact absurd hregister (hact n)
      · exact hfound j p (hother hj)
  · intro _ j p hin
    exact absurd hin id

/-- Where each node ID has one pioneer at most, no deletion meets another's promise. -/
theorem spares_of_one (hrun : RegistryRun es pool) (hone : ∀ n i j p q,
    Happened (Registers i n p) es → Happened (Registers j n q) es → i = j) :
    ∀ τ ∈ es, SparesUnfulfilled τ := by
  intro τ hτ n p payload err q hremove hlook
  obtain ⟨es₁,es₂,rfl⟩ := List.append_of_mem hτ
  obtain ⟨hbefore,-,-⟩ := hrun.split_at
  have hin : (τ.before.threads τ.act.1).InFlight n p := by
    rw [hremove]
    exact ⟨rfl,rfl⟩
  have hfound := lookUp_of_inFlight hbefore (fun i j p q hi hj =>
    hone n i j p q (hi.mono _) (hj.mono _)) _ _ hin
  obtain rfl : q = p := Option.some.inj (hlook.symm.trans hfound)
  have hsound := (registry_invariant hbefore).2 τ.act.1
  rw [hremove] at hsound
  exact hsound.2.2.1

section Replay

/-- Two pioneers whose node IDs share a shard: the first withdraws its promise, the
second's is still found. -/
theorem latest_found_replay : ∃ (es : List (RegistryBeat ℕ String)) (pool : RegistryPool ℕ String),
    RegistryRun es pool ∧
      es.map (fun τ => τ.act) = [(0, .register 10), (1, .register 266), (0, .fulfill [7] none),
        (0, .proceed), (0, .proceed), (0, .proceed), (0, .proceed)] ∧
      pool.shared.lookUp 10 = none ∧ pool.shared.lookUp 266 = some 1 ∧
      ∀ es₁ τ es₂, es = es₁ ++ τ :: es₂ → LatestFound (es₁ ++ [τ]) τ.after.shared := by
  obtain ⟨es,pool,hrun,hacts,-,hzero,-,-,hlook,-⟩ := exists_registered (E := String) 10 266
  obtain ⟨fs,pool',hrun',hacts',hlook',-⟩ := exists_fulfilled hrun hzero [7] none
  have hall := List.map_append.trans (congrArg₂ HAppend.hAppend hacts hacts')
  have hone : ∀ n i j p q, Happened (Registers i n p) (es ++ fs) →
      Happened (Registers j n q) (es ++ fs) → i = j := by
    rintro n i j p q ⟨σ,hσ,hi,-⟩ ⟨τ,hτ,hj,-⟩
    have hmem := Transition.act_mem hall hσ
    have hmem' := Transition.act_mem hall hτ
    simp only [hi, hj, List.cons_append, List.nil_append, List.mem_cons, Prod.mk.injEq,
      CallerAction.register.injEq, reduceCtorEq, and_false, or_false,
      List.not_mem_nil] at hmem hmem'
    rcases hmem with ⟨rfl,rfl⟩ | ⟨rfl,rfl⟩ <;> rcases hmem' with ⟨rfl,hn⟩ | ⟨rfl,hn⟩
    · rfl
    · exact absurd hn (by decide)
    · exact absurd hn (by decide)
    · rfl
  refine ⟨es ++ fs,pool',hrun',hall,?_,?_,(latest_found_iff hrun').mpr (spares_of_one hrun' hone)⟩
  · rw [hlook', Function.update_self]
  · rw [hlook', hlook]
    decide

/-- Two pioneers of one node ID: the first deletes the second's promise. -/
theorem withdrawn_by_other : ∃ (es : List (RegistryBeat ℕ String)) (pool : RegistryPool ℕ String),
    RegistryRun es pool ∧
      es.map (fun τ => τ.act) = [(0, .register 42), (1, .register 42), (0, .fulfill [7] none),
        (0, .proceed), (0, .proceed), (0, .proceed), (0, .proceed)] ∧
      pool.threads 1 = .pioneer 42 1 ∧ latest registration es 42 = some 1 ∧
      (pool.shared.promises 1).ready = false ∧ pool.shared.lookUp 42 = none := by
  obtain ⟨es,pool,hrun,hacts,hlatest,hzero,hone,-,-,hopen⟩ :=
    exists_registered (E := String) 42 42
  obtain ⟨fs,pool',hrun',hacts',hlook,hpromises,hthreads⟩ := exists_fulfilled hrun hzero [7] none
  have hnone : latest registration fs 42 = none := by
    rw [latest_eq_none]
    intro τ hτ p hreg
    have hmem := Transition.act_mem hacts' hτ
    unfold registration at hreg
    simp only [List.mem_cons, List.not_mem_nil, or_false] at hmem
    rcases hmem with h | h | h | h | h <;> simp [h] at hreg
  refine ⟨_,pool',hrun',by rw [List.map_append, hacts, hacts']; rfl,?_,?_,?_,?_⟩
  · rw [hthreads, Function.update_of_ne (by decide), hone]
  · rw [latest_append, hnone, hlatest]
    rfl
  · rw [hpromises, Function.update_of_ne (by decide), hopen]
  · rw [hlook, Function.update_self]

end Replay

end Strix
