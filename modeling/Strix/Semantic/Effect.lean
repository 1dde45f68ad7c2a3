import Strix.Ring.Collector
import Strix.Semantic.CheckOutcome
import Strix.Semantic.SetOutcome

/-! # What a step does to the nodes and the vectors

Only a `CheckCache` that claims a slot writes a vector. Every other change of a
node is an expiry, a publication, an eviction or keeps its state. The statements
hold on any arena, whatever its ring contains.
-/
namespace Strix
open Scoring

/-- A call leaves the node's state alone, expires it or fills it. -/
def MetaNode.Settles (old new : MetaNode) : Prop :=
  (old.loadControl.state = .pending ∧ new.loadControl.state = .dead) ∨
    (new.createdAt = old.createdAt ∧ (new.loadControl.state = old.loadControl.state ∨
      (old.loadControl.state = .pending ∧ new.loadControl.state = .ready)))

def MetaNode.Frees (old new : MetaNode) : Prop :=
  new.loadControl.state = .dead ∨
    (new.createdAt = old.createdAt ∧ new.loadControl.state = old.loadControl.state)

theorem MetaNode.Settles.refl (node : MetaNode) : node.Settles node := .inr ⟨rfl,.inl rfl⟩

theorem MetaNode.Frees.refl (node : MetaNode) : node.Frees node := .inr ⟨rfl,rfl⟩

theorem MetaNode.Settles.live {old new : MetaNode} (h : old.Settles new)
    (hlive : new.loadControl.state ≠ .dead) : old.loadControl.state ≠ .dead := by
  rcases h with ⟨hp,-⟩ | ⟨-,hs | ⟨hp,-⟩⟩
  · simp [hp]
  · rwa [← hs]
  · simp [hp]

theorem MetaNode.Settles.pending {old new : MetaNode} (h : old.Settles new)
    (hpending : new.loadControl.state = .pending) :
    old.loadControl.state = .pending ∧ new.createdAt = old.createdAt := by
  rcases h with ⟨-,hd⟩ | ⟨hc,hs | ⟨-,hr⟩⟩
  · simp [hpending] at hd
  · exact ⟨hs.symm.trans hpending,hc⟩
  · simp [hpending] at hr

theorem MetaNode.Frees.live {old new : MetaNode} (h : old.Frees new)
    (hlive : new.loadControl.state ≠ .dead) : old.loadControl.state ≠ .dead := by
  rcases h with hd | ⟨-,hs⟩
  · exact absurd hd hlive
  · rwa [← hs]

theorem MetaNode.Frees.pending {old new : MetaNode} (h : old.Frees new)
    (hpending : new.loadControl.state = .pending) :
    old.loadControl.state = .pending ∧ new.createdAt = old.createdAt := by
  rcases h with hd | ⟨hc,hs⟩
  · simp [hpending] at hd
  · exact ⟨hs.symm.trans hpending,hc⟩

theorem MetaNode.Settles.ready {old new : MetaNode} (h : old.Settles new)
    (hready : old.loadControl.state = .ready) : new.loadControl.state = .ready := by
  rcases h with ⟨hp,-⟩ | ⟨-,hs | ⟨hp,-⟩⟩
  · simp [hready] at hp
  · exact hs.trans hready
  · simp [hready] at hp

section Check
variable {K : Type*} [Scoring K] {query : Vec K} {t : UInt64} {arena arena' : MemoryArena (Vec K)}
  {reply : Except Status CheckCacheResponse} {n : ℕ}

structure Claimed (n : ℕ) (query : Vec K) (t : UInt64) (arena arena' : MemoryArena (Vec K)) :
    Prop where
  lt : n < l0MaxSlots
  reusable : (arena.metadata n).reusable t = true
  below : atLeast (bestSlot query t arena l0MaxSlots).1 (similarityThreshold : K) = false
  node : arena'.metadata n = ⟨t,packControl .pending .hot 0 0⟩
  vectors : arena'.vectors = Function.update arena.vectors n query
  others : ∀ i, i ≠ n → arena'.metadata i = (expireSlots t arena).metadata i

omit [Scoring K] in
theorem expireSlots_settles (i : ℕ) :
    (arena.metadata i).Settles ((expireSlots t arena).metadata i) := by
  rw [expireSlots_metadata]
  split
  · next h => exact .inl ⟨(MetaNode.expired_eq_true.mp h.2).1,MetaNode.expire_state⟩
  · exact .refl _

theorem Claimed.settles (h : Claimed n query t arena arena') {i : ℕ} (hi : i ≠ n) :
    (arena.metadata i).Settles (arena'.metadata i) := by
  rw [h.others i hi]
  exact expireSlots_settles i

theorem CheckOutcome.effect (h : CheckOutcome query t arena reply arena') :
    (arena'.vectors = arena.vectors ∧ (∀ i, (arena.metadata i).Settles (arena'.metadata i)) ∧
      ∀ response, reply = .ok response → response.checkState ≠ .miss) ∨
    ∃ n : ℕ, reply = .ok ⟨.miss,n,[]⟩ ∧ Claimed n query t arena arena' := by
  cases h with
  | @hit n best above filled =>
    refine .inl ⟨rfl,fun i => ?_,?_⟩
    · by_cases hi : i = n
      · subst hi
        have hnode := (expireSlots_of_best best).2
        exact .inr ⟨by simp [hnode],.inl (by simp [MetaNode.loadControl])⟩
      · rw [MemoryArena.storeControl_of_ne _ _ _ hi]
        exact expireSlots_settles i
    · rintro _ ⟨⟩
      simp
  | pending =>
    refine .inl ⟨rfl,expireSlots_settles,?_⟩
    rintro _ ⟨⟩
    simp
  | @miss n below free =>
    obtain ⟨hn,hr⟩ := reusable_of_free free
    refine .inr ⟨n,rfl,hn,hr,below,?_,rfl,fun i hi => ?_⟩
    · simp
    · rw [MemoryArena.storeCreatedAt_of_ne _ _ _ hi, MemoryArena.storeVector_metadata,
        MemoryArena.storeControl_of_ne _ _ _ hi]
  | full => exact .inl ⟨rfl,fun i => .refl _,by simp⟩

end Check

section Set
variable {V : Type*} {arena arena' : MemoryArena V}

theorem setCache_effect {nodeId : ℤ} {payload : List UInt8} {reply : Except Status Bool}
    (h : setCache nodeId payload arena = .ok (reply, arena')) :
    arena'.vectors = arena.vectors ∧ ∀ i, (arena.metadata i).Settles (arena'.metadata i) := by
  rcases setCache_cases h with ⟨-,rfl⟩ | ⟨hw,offset,written,hwrite,hout⟩
  · exact ⟨rfl,fun i => .refl _⟩
  obtain ⟨hmeta,hvec,-⟩ := writePayload_fields hwrite
  rcases hout with ⟨-,-,rfl⟩ | ⟨hpending,-,rfl⟩
  · refine ⟨hvec,fun i => ?_⟩
    rw [hmeta]
    exact .refl _
  · refine ⟨hvec,fun i => ?_⟩
    by_cases hi : i = wireNode nodeId
    · subst hi
      exact .inr ⟨by simp [hmeta],.inr ⟨hpending,by simp [MetaNode.loadControl]⟩⟩
    · rw [MemoryArena.storeControl_of_ne _ _ _ hi, hmeta]
      exact .refl _

theorem pending_of_setCache {nodeId : ℤ} {payload : List UInt8}
    (h : setCache nodeId payload arena = .ok (.ok true, arena')) :
    (arena.metadata (wireNode nodeId)).loadControl.state = .pending ∧
      (arena'.metadata (wireNode nodeId)).loadControl.state = .ready := by
  rcases setCache_cases h with ⟨⟨status,hs⟩,-⟩ | ⟨hw,offset,written,hwrite,hout⟩
  · simp at hs
  rcases hout with ⟨-,hs,-⟩ | ⟨hpending,-,rfl⟩
  · simp at hs
  · exact ⟨hpending,by simp [MetaNode.loadControl]⟩

end Set

section Collect
variable {V : Type*} {arena arena' : MemoryArena V}

theorem collect_effect (h : arena.runGarbageCollectorPass = .ok arena') :
    arena'.vectors = arena.vectors ∧ ∀ i, (arena.metadata i).Frees (arena'.metadata i) := by
  cases pass_move h with
  | asleep | leap | resync | skip => exact ⟨rfl,fun i => .refl _⟩
  | @evict header =>
    rw [evictExchange_eq]
    refine ⟨rfl,fun i => ?_⟩
    by_cases hi : i = header.nodeId.toNat
    · subst hi
      exact .inl (by simp [MetaNode.loadControl])
    · simp only [MemoryArena.advanceReadTail_metadata, ne_eq, hi, not_false_eq_true,
        MemoryArena.storeCreatedAt_of_ne, MemoryArena.storeControl_of_ne]
      exact .refl _
  | @rescue header offset rescued _ _ _ hot hrescue =>
    obtain ⟨hmeta,hvec,-⟩ := rescuePayload_fields hrescue
    have hexchange := rehomeExchange_eq rescued header.nodeId.toNat offset (by rw [hmeta, hot])
    rw [hmeta] at hexchange
    rw [hexchange]
    refine ⟨hvec,fun i => ?_⟩
    by_cases hi : i = header.nodeId.toNat
    · subst hi
      exact .inr ⟨by simp [hmeta],by simp [MetaNode.loadControl]⟩
    · simp only [MemoryArena.advanceReadTail_metadata, ne_eq, hi, not_false_eq_true,
        MemoryArena.storeControl_of_ne, hmeta]
      exact .refl _

end Collect

section Step
variable {K : Type*}

/-- The slot and the query of a `CheckCache` that returned a reservation. -/
def claims (τ : Step K) : Option (ℕ × Vec K) :=
  match τ.act with
  | (.checkCache _ (.ok query) _, .checked (.ok response)) =>
    if response.checkState = .miss ∧ 0 ≤ response.nodeId then some (response.nodeId.toNat, query)
    else none
  | _ => none

variable [Scoring K] {arena arena' : MemoryArena (Vec K)} {act : Call K × Reply}

/-- A step claims one slot, or it keeps the vectors and settles or frees the nodes. -/
theorem step_effect (h : Fires arena act arena') :
    (claims (⟨arena,act,arena'⟩ : Step K) = none ∧ arena'.vectors = arena.vectors ∧
      ((∀ i, (arena.metadata i).Settles (arena'.metadata i)) ∨
        (act = (.collect, .collected) ∧ ∀ i, (arena.metadata i).Frees (arena'.metadata i)))) ∨
    ∃ (n : ℕ) (query : Vec K) (prompt : List UInt8) (t : UInt64),
      act = (.checkCache prompt (.ok query) t, .checked (.ok ⟨.miss,n,[]⟩)) ∧
      claims (⟨arena,act,arena'⟩ : Step K) = some (n, query) ∧ Claimed n query t arena arena' := by
  rcases fires_cases h with ⟨prompt,embedding,t,result,rfl,hc⟩ |
    ⟨nodeId,payload,result,rfl,hc⟩ | ⟨rfl,hc⟩
  · rcases checkCache_cases hc with ⟨⟨status,rfl⟩,rfl⟩ | ⟨query,rfl,-,ho⟩
    · refine .inl ⟨?_,rfl,.inl fun i => .refl _⟩
      cases embedding <;> rfl
    · rcases ho.effect with ⟨hvec,hsettle,hmiss⟩ | ⟨n,rfl,hclaim⟩
      · refine .inl ⟨?_,hvec,.inl hsettle⟩
        cases result with
        | error status => rfl
        | ok response => simp [claims, hmiss response rfl]
      · exact .inr ⟨n,query,prompt,t,rfl,by simp [claims],hclaim⟩
  · obtain ⟨hvec,hsettle⟩ := setCache_effect hc
    exact .inl ⟨rfl,hvec,.inl hsettle⟩
  · obtain ⟨hvec,hfree⟩ := collect_effect hc
    exact .inl ⟨rfl,hvec,.inr ⟨rfl,hfree⟩⟩

end Step

end Strix
