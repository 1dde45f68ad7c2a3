import Strix.Ring.Hit

/-! # Reading one's own write

A filled slot keeps its vector and its content until the collector frees it.
Its query then finds it again, because no other live slot comes near the query.
-/
namespace Strix
open RunHistory Scoring

section Claims
variable {K : Type*} [Scoring K] {es : List (Step K)} {arena arena' : MemoryArena (Vec K)} {n : ℕ}

/-- A slot holds the vector of the query that has claimed it last. -/
theorem vectors_eq_latest (hrun : Run Fires arena es arena') :
    arena'.vectors n = (latest claims es n).getD (arena.vectors n) := by
  refine hrun.store_eq_latest claims (fun arena => arena.vectors) (fun τ hfire => ?_) n
  rcases step_effect hfire with ⟨hnone,hvec,-⟩ | ⟨m,query,prompt,t,-,hsome,hclaim⟩
  · exact .inl ⟨hnone,hvec⟩
  · exact .inr ⟨m,query,hsome,hclaim.vectors⟩

theorem claimed_of_miss {prompt : List UInt8} {query : Vec K} {t : UInt64}
    (h : Fires arena (.checkCache prompt (.ok query) t, .checked (.ok ⟨.miss,n,[]⟩)) arena') :
    Claimed n query t arena arena' := by
  rcases step_effect h with ⟨hnone,-⟩ | ⟨m,query',prompt',t',hact,-,hclaim⟩
  · simp [claims] at hnone
  · simp only [Prod.mk.injEq, Call.checkCache.injEq, Except.ok.injEq, Reply.checked.injEq,
      CheckCacheResponse.mk.injEq, Nat.cast_inj, true_and, and_true] at hact
    obtain ⟨⟨-,rfl,rfl⟩,rfl⟩ := hact
    exact hclaim

theorem MetaNode.not_reusable_of_ready {node : MetaNode} {t : UInt64}
    (h : node.loadControl.state = .ready) : node.reusable t = false := by
  rw [← Bool.not_eq_true, reusable_eq_true, expired_eq_true]
  simp [h]

theorem ready_step {act : Call K × Reply} (hfire : Fires arena act arena')
    (hready : (arena.metadata n).loadControl.state = .ready)
    (hlive : act = (.collect, .collected) → (arena'.metadata n).loadControl.state ≠ .dead) :
    (arena'.metadata n).loadControl.state = .ready ∧ arena'.vectors n = arena.vectors n ∧
      ∀ payload, publishes (⟨arena,act,arena'⟩ : Step K) ≠ some (n, payload) := by
  have hpub : ∀ payload, publishes (⟨arena,act,arena'⟩ : Step K) ≠ some (n, payload) := by
    intro payload hp
    rcases fires_cases hfire with ⟨_,_,_,_,rfl,-⟩ | ⟨nodeId,payload',result,rfl,hc⟩ | ⟨rfl,-⟩
    · simp [publishes] at hp
    · rcases result with status | ⟨_ | _⟩
      · simp [publishes] at hp
      · simp [publishes] at hp
      · obtain ⟨rfl,-⟩ : wireNode nodeId = n ∧ payload' = payload := by simpa [publishes] using hp
        have := (pending_of_setCache hc).1
        simp [hready] at this
    · simp [publishes] at hp
  rcases step_effect hfire with ⟨-,hvec,hsettle | ⟨hact,hfree⟩⟩ | ⟨m,query,prompt,t,-,-,hclaim⟩
  · exact ⟨(hsettle n).ready hready,by rw [hvec],hpub⟩
  · refine ⟨?_,by rw [hvec],hpub⟩
    rcases hfree n with hdead | ⟨-,hs⟩
    · exact absurd hdead (hlive hact)
    · exact hs.trans hready
  · have hne : n ≠ m := by
      rintro rfl
      have := hclaim.reusable
      rw [MetaNode.not_reusable_of_ready hready] at this
      simp at this
    exact ⟨(hclaim.settles hne).ready hready,by rw [hclaim.vectors, Function.update_of_ne hne],hpub⟩

theorem ready_run (hrun : Run Fires arena es arena')
    (hready : (arena.metadata n).loadControl.state = .ready)
    (hlive : ∀ υ ∈ es, υ.act = (.collect, .collected) →
      (υ.after.metadata n).loadControl.state ≠ .dead) :
    (arena'.metadata n).loadControl.state = .ready ∧ arena'.vectors n = arena.vectors n ∧
      latest publishes es n = none := by
  induction hrun with
  | nil => exact ⟨hready,rfl,rfl⟩
  | snoc run fire ih =>
    rw [List.forall_mem_append, List.forall_mem_singleton] at hlive
    obtain ⟨hr,hv,hp⟩ := ih hlive.1
    obtain ⟨hr',hv',hp'⟩ := ready_step fire hr hlive.2
    refine ⟨hr',hv'.trans hv,latest_eq_none publishes |>.mpr ?_⟩
    rw [List.forall_mem_append, List.forall_mem_singleton]
    exact ⟨latest_eq_none publishes |>.mp hp,hp'⟩

end Claims

section ReadWrite
variable {K : Type*} [Field K] [LinearOrder K] [IsStrictOrderedRing K]
  {es es₁ es₂ es₃ : List (Step K)} {τ σ ρ : Step K} {arena : MemoryArena (Vec K)} {query : Vec K}
  {n : ℕ} {payload : List UInt8}

/-- A query whose answer has been stored is answered with it until the collector
frees the slot. -/
theorem read_your_write (hrun : EngineRun (es ++ [ρ]) arena)
    (hsplit : es = es₁ ++ τ :: (es₂ ++ σ :: es₃)) (hb : ∀ υ ∈ es, Bounded υ)
    (hclock : ∀ υ ∈ es, ∀ t, clockReading υ = some t → t ≠ 0) (hunit : Normalized query)
    (hmiss : ∃ prompt t,
      τ.act = (.checkCache prompt (.ok query) t, .checked (.ok ⟨.miss,n,[]⟩)))
    (hkept : latest claims es₂ n = none)
    (hstored : σ.act = (.setCache n payload, .stored (.ok true)))
    (hlive : ∀ υ ∈ es₃, υ.act = (.collect, .collected) →
      (υ.after.metadata n).loadControl.state ≠ .dead)
    (hasked : ∃ prompt t, ρ.act.1 = .checkCache prompt (.ok query) t ∧ prompt ≠ []) :
    ρ.act.2 = .checked (.ok ⟨.hit,-1,payload⟩) := by
  obtain ⟨hbefore,hask,-⟩ := Run.snoc_inv hrun
  obtain ⟨log,hintact⟩ := EngineRun.intact hbefore hb
  have hsep := EngineRun.separated hbefore hclock
  rw [hsplit] at hbefore
  obtain ⟨-,hτ,hrest⟩ := hbefore.split_at
  obtain ⟨hes₂,hσ,hes₃⟩ := hrest.split_at
  obtain ⟨prompt,t,hact⟩ := hmiss
  rw [hact] at hτ
  have hclaim := claimed_of_miss hτ
  rw [hstored, fires_setCache] at hσ
  have hwire := wireNode_natCast (l0_lt_total hclaim.lt)
  have hfilled := (pending_of_setCache hσ).2
  rw [hwire] at hfilled
  obtain ⟨hready,hvec,hpub⟩ := ready_run hes₃ hfilled hlive
  have hquery : ρ.before.vectors n = query := by
    rw [hvec, (setCache_effect hσ).1, vectors_eq_latest hes₂, hkept, hclaim.vectors,
      Function.update_self]
    rfl
  have hcontent : latest publishes es n = some payload := by
    refine (latest_eq_some publishes).mpr ⟨es₁ ++ τ :: es₂,σ,es₃,by simp [hsplit],?_,hpub⟩
    simp [publishes, hstored, hwire]
  have hread := hintact.readPayload hready
  rw [hcontent, Option.some.injEq] at hread
  obtain ⟨prompt',t',hact',hprompt⟩ := hasked
  obtain ⟨before,⟨call,reply⟩,after⟩ := ρ
  simp only at hact' hask hready hquery hread ⊢
  subst hact'
  have ho := hitOutcome (t := t') hclaim.lt hready (by rw [hquery]; exact hunit.similar) (by
    intro i hi hne hm
    have hdissimilar := hsep.apart n hclaim.lt i hi (Ne.symm hne) (by simp [hready])
      (MetaNode.live_of_matchable hm)
    rw [hquery] at hdissimilar ⊢
    rw [hunit]
    exact lt_trans (not_similar_iff.mp hdissimilar) exactThreshold_lt_one)
  rw [← hread] at ho
  exact (Fires.unique hask (fires_checkCache.mpr (ho.checkCache_eq hprompt))).1

theorem read_your_write_replay : ∃ (es : List (Step ℚ)) (ρ : Step ℚ) (arena : MemoryArena (Vec ℚ)),
    EngineRun (es ++ [ρ]) arena ∧ es.length = 2 ∧
      ρ.act = (.checkCache [1] (.ok (axis 0)) 9, .checked (.ok ⟨.hit,-1,[7]⟩)) := by
  have hw := oneByte_wellFormed
  obtain ⟨claimed,stored,hclaim,hset,hhead,htail,-,-,-,hring⟩ :=
    exists_publishedRun (axis 0 : Vec ℚ) 1 hw
  obtain ⟨reply,after,ho⟩ := exists_checkOutcome (axis 0 : Vec ℚ) 9 stored
  have hask : Fires stored (.checkCache [1] (.ok (axis 0)) 9, .checked reply) after :=
    fires_checkCache.mpr (ho.checkCache_eq (by simp))
  have hrun := (Run.single hclaim).snoc hset
  have hreply := @read_your_write ℚ _ _ _ _ [] [] [] _ _ _ _ (axis 0) 0 [7] (hrun.snoc hask) rfl
    (by
      simp only [List.cons_append, List.nil_append, List.forall_mem_cons, List.not_mem_nil,
        false_imp_iff, implies_true, and_true]
      exact ⟨bounded_of_head_eq (by rw [hhead, freshArena_writeHead]),
        bounded_of_ring hring (by rw [hring.tail, htail]; rfl)⟩)
    (by simp [clockReading]) (axis_normalized 0) ⟨_,_,rfl⟩ rfl rfl (by simp)
    ⟨_,_,rfl,by simp⟩
  exact ⟨_,_,after,hrun.snoc hask,rfl,Prod.ext rfl hreply⟩

end ReadWrite

end Strix
