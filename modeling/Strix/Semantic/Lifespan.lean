import Strix.Semantic.Publication

/-! # The lifespan of a reservation

A scan takes the age of a pending slot as a difference of 64-bit clock readings
and expires the slot in a later step. The age is the natural difference while
the birth time lies in the scan's past, and it is the node's age while the birth
time still stands at the exchange.
-/
namespace Strix
open RunHistory ThreadPool Scoring

variable {K : Type*}

def Expires (n : ℕ) (t : UInt64) (τ : AtomicBeat K) : Prop :=
  τ.before.shared.stateOf n = .pending ∧ τ.after.shared.stateOf n = .dead ∧
    ∃ query phase, τ.before.threads τ.act.1 = .checking query t phase

/-- Clock readings do not decrease in the order in which they are taken. -/
def ClockOrdered (es : List (AtomicBeat K)) : Prop :=
  es.Pairwise fun τ σ => ∀ prompt prompt' embedding embedding' t t',
    τ.act.2 = .check prompt embedding t → σ.act.2 = .check prompt' embedding' t' → t ≤ t'

theorem lt_of_age {birth t : UInt64} (hpast : birth ≤ t)
    (hage : pendingLifespan.toUInt64 < t - birth) :
    birth.toNat + pendingLifespan.toNat < t.toNat := by
  have hlife : pendingLifespan.toUInt64.toNat = pendingLifespan.toNat := UInt32.toNat_toUInt64 _
  rw [UInt64.lt_iff_toNat_lt, UInt64.toNat_sub_of_le _ _ hpast, hlife] at hage
  omega

section Expiry
variable {arena arena' : MemoryArena (Vec K)} {actor actor' : Actor K} {n : ℕ}

/-- A check turns a pending node dead at the exchange of its scan only. -/
theorem NodeMove.expires [Scoring K] {query : Vec K} {t : UInt64} {phase : CheckPhase K}
    (h : NodeMove arena (.checking query t phase) arena' actor')
    (hpending : arena.stateOf n = .pending) (hdead : arena'.stateOf n = .dead) :
    ∃ scan birthTime, phase = .expiring n scan (arena.metadata n).controlBlock birthTime := by
  have hsame : arena'.stateOf n ≠ arena.stateOf n := by
    rw [hpending, hdead]
    decide
  generalize hactor : Actor.checking query t phase = before at h
  cases h with
  | quiet hmeta => exact absurd (by rw [MemoryArena.stateOf, hmeta]; rfl) hsame
  | @expire _ _ _ i =>
    by_cases hn : n = i
    · subst hn
      cases hactor
      exact ⟨_,_,rfl⟩
    · exact absurd (by rw [MemoryArena.stateOf_storeControl, if_neg hn]) hsame
  | reset | stamp => exact absurd (MemoryArena.stateOf_storeCreatedAt ..) hsame
  | @claim _ _ id =>
    rw [MemoryArena.stateOf_storeControl] at hdead
    split at hdead
    · simp at hdead
    · exact absurd (hpending.symm.trans hdead) (by decide)
  | copy => exact absurd rfl hsame
  | @touch _ _ m _ ctrl loaded =>
    refine absurd ?_ hsame
    rw [MemoryArena.stateOf_storeControl]
    split
    · rename_i hn
      rw [unpackControl_packControl_state, ← loaded, hn]
      rfl
    · rfl
  | publish | evict | evictMissed | clear | rehome => cases hactor

end Expiry

section Runs
variable [Scoring K] {es : List (AtomicBeat K)} {pool : AtomicPool K}

/-- No reservation ends young: when each exchange that expires a slot is timely, the
slot's birth time lies more than the lifespan before the call's clock reading, and so
does the reading of the slot's latest claim when the claims are undisturbed. -/
theorem reservation_lifespan (hrun : AtomicRun es pool) (htimely : ∀ τ ∈ es, Timely τ) :
    ∀ es₁ τ es₂ n t, es = es₁ ++ τ :: es₂ → Expires n t τ →
      (τ.before.shared.metadata n).createdAt.toNat + pendingLifespan.toNat < t.toNat ∧
      ((∀ σ ∈ es, Undisturbed σ) → ∃ σ query t', LatestReservation es₁ n σ ∧
        (∃ phase, σ.before.threads σ.act.1 = .checking query t' phase) ∧
        t'.toNat + pendingLifespan.toNat < t.toNat) := by
  rintro es₁ τ es₂ n t rfl ⟨hpending,hdead,query,phase,hphase⟩
  obtain ⟨hbefore,hmove,-⟩ := hrun.split_at
  have hmoved := move_of_moves hmove
  rw [hphase] at hmoved
  obtain ⟨scan,birthTime,rfl⟩ := hmoved.expires hpending hdead
  have hwell := (atomic_threads hbefore τ.act.1).1
  rw [hphase] at hwell
  obtain ⟨-,-,-,hbirth,hage⟩ := hwell
  obtain ⟨hstands,hpast⟩ := htimely τ (by simp) query t n scan _ birthTime hphase rfl
  have hold := lt_of_age hpast hage
  rw [← hstands] at hold hbirth
  refine ⟨hold,fun hcalm => ?_⟩
  obtain ⟨σ,query',t',h⟩ := exists_standing hbefore (fun σ hσ => hcalm σ (by simp [hσ])) hpending
  refine ⟨σ,query',t',h.latest,h.maker,?_⟩
  rcases h.stage with ⟨-,-,-,hzero⟩ | ⟨-,-,-,hzero,-⟩ | ⟨-,hmade,-⟩
  · exact absurd hzero hbirth
  · exact absurd hzero hbirth
  · rw [← hmade]
    exact hold

end Runs

section Replay

theorem reservation_lifespan_replay : ∃ (es : List (AtomicBeat ℚ)) (pool : AtomicPool ℚ)
    (τ : AtomicBeat ℚ), AtomicRun (es ++ [τ]) pool ∧ Expires 0 32 τ ∧
      (τ.before.shared.metadata 0).createdAt.toNat + pendingLifespan.toNat < 32 := by
  obtain ⟨es,scan,τ,hrun,-,-,htimely,hpending,⟨phase,hphase⟩,hdead,-⟩ := exists_halfExpired
  have hexpires : Expires 0 32 τ := ⟨hpending,hdead 0,_,phase,hphase⟩
  exact ⟨es,_,τ,hrun,hexpires,(reservation_lifespan hrun htimely es τ [] 0 32 rfl hexpires).1⟩

/-- A scan that has begun before the claim takes a birth time from its future: the age
wraps and the reservation ends at once. -/
theorem young_reservation_expired : ∃ (es : List (AtomicBeat ℚ)) (pool : AtomicPool ℚ)
    (τ : AtomicBeat ℚ), AtomicRun (es ++ [τ]) pool ∧ ClockPositive (es ++ [τ]) ∧
      ClockOrdered (es ++ [τ]) ∧ Expires 0 5 τ ∧
      (τ.before.shared.metadata 0).createdAt = 6 ∧
      ¬((τ.before.shared.metadata 0).createdAt.toNat + pendingLifespan.toNat <
        (5 : UInt64).toNat) := by
  set start := startAtomic (freshArena ℚ) with hstart
  set begun : AtomicPool ℚ := ⟨start.shared,Function.update start.threads (some 1)
    (beginCheck [1] (.ok (axis 1)) 5)⟩ with hbegun
  have hbegin : Moves AtomicStep start (some 1, .check [1] (.ok (axis 1)) 5) begun :=
    moves_update .check
  obtain ⟨one,hone,hnode,-⟩ := exists_firstMiss (axis 0 : Vec ℚ) 6
  obtain ⟨fs,hfs,hacts⟩ := run_check begun 0 [1] (.ok (axis 0)) 6 (by simp [hbegun, hstart,
    startAtomic]) (proceeds_checkCache (fires_checkCache.mp hone))
  set claimed : AtomicPool ℚ := ⟨one,Function.update begun.threads (some 0)
    (.finished (.checked (.ok ⟨.miss,0,[]⟩)))⟩ with hclaimed
  have hscanning : claimed.threads (some 1) =
      .checking (axis 1) 5 (.scanning 0 ⟨minusOne,-1,-1⟩) := by
    simp [hclaimed, hbegun, beginCheck]
  obtain ⟨loaded,aged,expired,w,dead,scan,scan',hload,hage,hexpire,hloaded,-,haged,hexpiring,
    hexpired,hdead,-⟩ := exists_expiry hscanning hnode (by decide) (by decide)
  have hbirth : (aged.shared.metadata 0).createdAt = 6 := by rw [haged, hclaimed, hnode]
  have hreading : ∀ τ ∈ fs ++ [⟨claimed,(some 1, .proceed false),loaded⟩] ++
      [⟨loaded,(some 1, .proceed false),aged⟩] ++ [⟨aged,(some 1, .proceed false),expired⟩],
      ∀ prompt embedding t, τ.act.2 = .check prompt embedding t → t = 6 := by
    intro τ hτ prompt embedding t hact
    simp only [List.mem_append, List.mem_singleton] at hτ
    rcases hτ with ((hτ | rfl) | rfl) | rfl
    · rcases hacts τ hτ with h | h <;> rw [h] at hact <;> cases hact
      rfl
    · cases hact
    · cases hact
    · cases hact
  have hrun := (((Run.cons hbegin hfs).snoc hload).snoc hage).snoc hexpire
  refine ⟨_,expired,_,hrun,?_,?_,⟨?_,?_,_,_,hexpiring⟩,hbirth,?_⟩
  · intro τ hτ prompt embedding t hact
    rcases List.mem_cons.mp hτ with rfl | hτ
    · cases hact
      decide
    · rw [hreading τ hτ prompt embedding t hact]
      decide
  · refine List.pairwise_cons.mpr ⟨fun σ hσ => ?_,List.pairwise_of_forall_mem_list ?_⟩
    · intro _ prompt _ embedding _ t hfirst hlater
      cases hfirst
      rw [hreading σ hσ prompt embedding t hlater]
      decide
    · intro τ hτ σ hσ _ _ _ _ t t' hearlier hlater
      rw [hreading τ hτ _ _ t hearlier, hreading σ hσ _ _ t' hlater]
      decide
  · rw [MemoryArena.stateOf, haged, hclaimed, hnode]
    decide
  · rw [hexpired, MemoryArena.stateOf_storeControl, if_pos rfl]
    exact hdead
  · rw [hbirth]
    decide

end Replay

end Strix
