import Strix.Semantic.Effect
import Strix.Semantic.Exact

/-! # Live slots stand for dissimilar queries

A slot is claimed only when the scan has matched no live slot. The scan skips a
reservation without a birth time, so the separation of the slots is kept
together with the fact that there is none.
-/
namespace Strix
open RunHistory Scoring

def clockReading {K : Type*} (τ : Step K) : Option UInt64 :=
  match τ.act.1 with
  | .checkCache _ _ currTime => some currTime
  | _ => none

/-- Reservations have a birth time and live L0 slots are pairwise dissimilar. -/
structure Separated {K : Type*} [Scoring K] (arena : MemoryArena (Vec K)) : Prop where
  born : ∀ i < l0MaxSlots, (arena.metadata i).loadControl.state = .pending →
    (arena.metadata i).createdAt ≠ 0
  apart : ∀ i < l0MaxSlots, ∀ j < l0MaxSlots, i ≠ j →
    (arena.metadata i).loadControl.state ≠ .dead → (arena.metadata j).loadControl.state ≠ .dead →
      ¬ Similar (arena.vectors i) (arena.vectors j)

theorem MetaNode.matchable_of_live {node : MetaNode} {t : UInt64}
    (hlive : node.loadControl.state ≠ .dead)
    (hborn : node.loadControl.state = .pending → node.createdAt ≠ 0)
    (hfresh : node.expired t = false) : node.matchable t = true := by
  rw [matchable_eq_true]
  cases hs : node.loadControl.state with
  | dead => exact absurd hs hlive
  | ready => exact .inl rfl
  | migrating => exact .inr (.inl rfl)
  | pending =>
    refine .inr (.inr ⟨rfl,hborn hs,fun hage => ?_⟩)
    rw [expired_eq_true.mpr ⟨hs,hborn hs,hage⟩] at hfresh
    simp at hfresh

section Keep
variable {K : Type*} [Scoring K] {arena arena' : MemoryArena (Vec K)}

theorem separated_fresh : Separated (freshArena K) := by
  constructor
  · intro i _ hp
    rw [freshArena_state] at hp
    simp at hp
  · intro i _ j _ _ hlive
    exact absurd (freshArena_state i) hlive

theorem Separated.of_nodes (h : Separated arena) (hvec : arena'.vectors = arena.vectors)
    (hlive : ∀ i, (arena'.metadata i).loadControl.state ≠ .dead →
      (arena.metadata i).loadControl.state ≠ .dead)
    (hpending : ∀ i, (arena'.metadata i).loadControl.state = .pending →
      (arena.metadata i).loadControl.state = .pending ∧
        (arena'.metadata i).createdAt = (arena.metadata i).createdAt) : Separated arena' := by
  constructor
  · intro i hi hp
    obtain ⟨hold,hcreated⟩ := hpending i hp
    rw [hcreated]
    exact h.born i hi hold
  · intro i hi j hj hne hli hlj
    rw [hvec]
    exact h.apart i hi j hj hne (hlive i hli) (hlive j hlj)

end Keep

section Runs
variable {K : Type*} [Field K] [LinearOrder K] [IsStrictOrderedRing K] {es : List (Step K)}
  {arena arena' : MemoryArena (Vec K)} {query : Vec K} {t : UInt64} {n : ℕ}

theorem exists_miss (query : Vec K) (t : UInt64) (hn : n < l0MaxSlots)
    (hr : (arena.metadata n).reusable t = true)
    (hbefore : ∀ i < n, (arena.metadata i).reusable t = false)
    (hother : ∀ i < l0MaxSlots, (arena.metadata i).matchable t = true →
      ¬ Similar query (arena.vectors i)) :
    ∃ arena', Fires arena (.checkCache [1] (.ok query) t, .checked (.ok ⟨.miss,n,[]⟩)) arena' ∧
      Claimed n query t arena arena' ∧ arena'.bufferPayload = arena.bufferPayload ∧
      arena'.writeHead = arena.writeHead ∧ arena'.readTail = arena.readTail := by
  have ho := missOutcome hn hr hbefore hother
  obtain ⟨hbuf,hhead,htail⟩ := ho.ring
  rcases ho.effect with ⟨-,-,hno⟩ | ⟨m,hm,hclaim⟩
  · exact absurd rfl (hno _ rfl)
  · obtain rfl : n = m := by simpa using hm
    exact ⟨_,fires_checkCache.mpr (ho.checkCache_eq (by simp)),hclaim,hbuf,hhead,htail⟩

/-- A claimed slot is dissimilar to every slot that is live after the claim. -/
theorem Claimed.dissimilar (h : Claimed n query t arena arena') (hs : Separated arena) {i : ℕ}
    (hi : i < l0MaxSlots) (hne : i ≠ n) (hlive : (arena'.metadata i).loadControl.state ≠ .dead) :
    ¬ Similar query (arena.vectors i) := by
  refine below_iff.mp h.below i hi (MetaNode.matchable_of_live ((h.settles hne).live hlive)
    (hs.born i hi) ?_)
  rw [← Bool.not_eq_true]
  intro hexpired
  rw [h.others i hne, expireSlots_metadata, if_pos ⟨hi,hexpired⟩] at hlive
  exact hlive MetaNode.expire_state

theorem Separated.claim (hs : Separated arena) (h : Claimed n query t arena arena') (ht : t ≠ 0) :
    Separated arena' := by
  constructor
  · intro i hi hp
    by_cases hne : i = n
    · rw [hne, h.node]
      exact ht
    · obtain ⟨hold,hcreated⟩ := (h.settles hne).pending hp
      rw [hcreated]
      exact hs.born i hi hold
  · intro i hi j hj hij hli hlj
    rw [h.vectors]
    by_cases hni : i = n
    · have hnj : j ≠ n := fun hj => hij (hni.trans hj.symm)
      rw [hni, Function.update_self, Function.update_of_ne hnj]
      exact h.dissimilar hs hj hnj hlj
    · rw [Function.update_of_ne hni]
      by_cases hnj : j = n
      · rw [hnj, Function.update_self]
        exact fun hsim => h.dissimilar hs hi hni hli hsim.symm
      · rw [Function.update_of_ne hnj]
        exact hs.apart i hi j hj hij ((h.settles hni).live hli) ((h.settles hnj).live hlj)

theorem Separated.step {act : Call K × Reply} (hs : Separated arena)
    (hfire : Fires arena act arena')
    (hclock : ∀ t, clockReading (⟨arena,act,arena'⟩ : Step K) = some t → t ≠ 0) :
    Separated arena' := by
  rcases step_effect hfire with ⟨-,hvec,hsettle | ⟨-,hfree⟩⟩ | ⟨n,query,prompt,t,rfl,-,hclaim⟩
  · exact hs.of_nodes hvec (fun i => (hsettle i).live) fun i => (hsettle i).pending
  · exact hs.of_nodes hvec (fun i => (hfree i).live) fun i => (hfree i).pending
  · exact hs.claim hclaim (hclock t rfl)

theorem EngineRun.separated (hrun : EngineRun es arena)
    (hclock : ∀ τ ∈ es, ∀ t, clockReading τ = some t → t ≠ 0) : Separated arena :=
  Run.invariant (P := fun τ => ∀ t, clockReading τ = some t → t ≠ 0)
    (fun _ hfire hclock hs => hs.step hfire hclock) hrun hclock separated_fresh

/-- No two live slots stand for the same semantic query. -/
theorem live_slots_dissimilar (hrun : EngineRun es arena)
    (hclock : ∀ τ ∈ es, ∀ t, clockReading τ = some t → t ≠ 0) :
    ∀ i < l0MaxSlots, ∀ j < l0MaxSlots, i ≠ j →
      (arena.metadata i).loadControl.state ≠ .dead →
        (arena.metadata j).loadControl.state ≠ .dead →
          cosineSimilarity (arena.vectors i) (arena.vectors j) < similarityThreshold := by
  intro i hi j hj hne hli hlj
  exact not_similar_iff.mp (hrun.separated hclock |>.apart i hi j hj hne hli hlj)

theorem exists_firstMiss (query : Vec K) (t : UInt64) :
    ∃ arena', Fires (freshArena K) (.checkCache [1] (.ok query) t, .checked (.ok ⟨.miss,0,[]⟩))
        arena' ∧ arena'.metadata 0 = ⟨t,packControl .pending .hot 0 0⟩ ∧
      (∀ i, i ≠ 0 → arena'.metadata i = ⟨0,0⟩) ∧ arena'.vectors 0 = query ∧
      arena'.bufferPayload = (freshArena K).bufferPayload ∧ arena'.writeHead = 0 ∧
      arena'.readTail = 0 := by
  obtain ⟨arena',hfire,hclaim,hring⟩ := exists_miss (n := 0) query t (by decide)
    (MetaNode.reusable_eq_true.mpr (.inl (freshArena_state 0))) (fun i hi => by omega)
    (fun i _ hm => by
      rw [MetaNode.not_matchable_of_dead (freshArena_state i)] at hm
      exact absurd hm Bool.false_ne_true)
  refine ⟨arena',hfire,hclaim.node,fun i hi => ?_,?_,hring⟩
  · rw [hclaim.others i hi,
      expireSlots_of_not (MetaNode.not_expired_of_dead (freshArena_state i))]
    rfl
  · rw [hclaim.vectors, Function.update_self]

theorem exists_secondMiss (query : Vec K) (t : UInt64)
    (hused : (arena.metadata 0).reusable t = false)
    (hother : ∀ i, i ≠ 0 → arena.metadata i = ⟨0,0⟩) (hfar : ¬ Similar query (arena.vectors 0)) :
    ∃ arena', Fires arena (.checkCache [1] (.ok query) t, .checked (.ok ⟨.miss,1,[]⟩)) arena' ∧
      arena'.metadata = Function.update arena.metadata 1 ⟨t,packControl .pending .hot 0 0⟩ ∧
      arena'.vectors = Function.update arena.vectors 1 query ∧
      arena'.bufferPayload = arena.bufferPayload ∧ arena'.writeHead = arena.writeHead ∧
      arena'.readTail = arena.readTail := by
  have hdead : ∀ i, i ≠ 0 → (arena.metadata i).loadControl.state = .dead := by
    intro i hi
    rw [hother i hi]
    decide
  have hkept : ∀ i, (arena.metadata i).expired t = false := by
    intro i
    by_cases hi : i = 0
    · subst hi
      rw [← Bool.not_eq_true]
      intro hexpired
      rw [MetaNode.reusable_eq_true.mpr (.inr hexpired)] at hused
      cases hused
    · exact MetaNode.not_expired_of_dead (hdead i hi)
  obtain ⟨arena',hfire,hclaim,hring⟩ := exists_miss (n := 1) query t (by decide)
    (MetaNode.reusable_eq_true.mpr (.inl (hdead 1 (by decide))))
    (fun i hi => by
      obtain rfl : i = 0 := by omega
      exact hused)
    (fun i _ hm => by
      by_cases hi : i = 0
      · rwa [hi]
      · rw [MetaNode.not_matchable_of_dead (hdead i hi)] at hm
        cases hm)
  refine ⟨arena',hfire,?_,hclaim.vectors,hring⟩
  funext i
  by_cases hi : i = 1
  · subst hi
    rw [hclaim.node, Function.update_self]
  · rw [hclaim.others i hi, expireSlots_of_not (hkept i), Function.update_of_ne hi]

theorem live_slots_dissimilar_replay : ∃ (es : List (Step ℚ)) (arena : MemoryArena (Vec ℚ)),
    EngineRun es arena ∧ (arena.metadata 0).loadControl.state = .pending ∧
      (arena.metadata 1).loadControl.state = .pending ∧
      cosineSimilarity (arena.vectors 0) (arena.vectors 1) < similarityThreshold := by
  obtain ⟨one,hfire,hnode,hother,hvec,-⟩ := exists_firstMiss (axis 0 : Vec ℚ) 1
  obtain ⟨two,hfire',hmeta,-⟩ := exists_secondMiss (axis 1) 1 (by rw [hnode]; decide) hother
    (by rw [hvec]; exact axis_not_similar (by decide))
  have hfirst : (two.metadata 0).loadControl.state = .pending := by
    rw [hmeta, Function.update_of_ne (by decide), hnode]
    decide
  have hsecond : (two.metadata 1).loadControl.state = .pending := by
    rw [hmeta, Function.update_self]
    decide
  have hrun : EngineRun _ two := ((Run.nil _).snoc hfire).snoc hfire'
  refine ⟨_,two,hrun,hfirst,hsecond,?_⟩
  refine live_slots_dissimilar hrun ?_ 0 (by decide) 1 (by decide) (by decide)
    (by rw [hfirst]; decide) (by rw [hsecond]; decide)
  simp [clockReading]

end Runs

end Strix
