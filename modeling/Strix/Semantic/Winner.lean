import Strix.Semantic.NodeMove
import Strix.Semantic.Separation

/-! # One winner per reservation

Only a claiming compare-exchange makes a dead node pending, and each call makes
at most one. What a call has claimed stays readable from its phase, which ties
the answers to the transitions in the history.
-/
namespace Strix
open RunHistory ThreadPool Scoring

variable {K : Type*}

def Reserves (n : ℕ) (τ : AtomicBeat K) : Prop :=
  τ.before.shared.stateOf n = .dead ∧ τ.after.shared.stateOf n = .pending

/-- The step is the one by which a `SetCache` on node `n` returns success. -/
def Publishes (n : ℕ) (τ : AtomicBeat K) : Prop :=
  ∃ nodeId payload phase, τ.before.threads τ.act.1 = .setting nodeId payload phase ∧
    nodeId.toNat = n ∧ τ.after.threads τ.act.1 = .finished (.stored (.ok true))

/-- A call that has not begun, or is or was a `SetCache` without success. -/
def Actor.Unpublished : Actor K → Prop
  | .idle => True
  | .setting _ _ _ => True
  | .finished (.stored (.ok success)) => success = false
  | .finished (.stored (.error _)) => True
  | _ => False

section Moves
variable {arena arena' : MemoryArena (Vec K)} {actor actor' : Actor K}

theorem NodeMove.state_cases [Scoring K] (h : NodeMove arena actor arena' actor')
    (hwell : actor.WellFormed) (n : ℕ) :
    arena'.stateOf n = arena.stateOf n ∨
    (arena.stateOf n = .dead ∧ arena'.stateOf n = .pending ∧ ∃ query t id,
      actor = .checking query t (.exchanging id (arena.metadata (toSize id)).controlBlock) ∧
        actor' = .checking query t (.copying id) ∧ toSize id = n) ∨
    (arena.stateOf n = .pending ∧ arena'.stateOf n = .ready) ∨
    arena'.stateOf n = .dead := by
  have hctrl : ∀ m w, arena'= arena.storeControl m w → n ≠ m →
      arena'.stateOf n = arena.stateOf n := by
    rintro m w rfl hne
    rw [MemoryArena.stateOf_storeControl, if_neg hne]
  cases h with
  | quiet hmeta => exact .inl (by rw [MemoryArena.stateOf, hmeta]; rfl)
  | @expire _ _ _ i _ _ ctrl loaded =>
    by_cases hn : n = i
    · exact .inr (.inr (.inr (by simp [MemoryArena.stateOf_storeControl, hn])))
    · exact .inl (hctrl _ _ rfl hn)
  | reset => exact .inl (MemoryArena.stateOf_storeCreatedAt ..)
  | @claim query t id =>
    by_cases hn : n = toSize id
    · subst hn
      exact .inr (.inl ⟨hwell.2,by simp [MemoryArena.stateOf_storeControl],_,_,_,rfl,rfl,rfl⟩)
    · exact .inl (hctrl _ _ rfl hn)
  | copy => exact .inl rfl
  | stamp => exact .inl (MemoryArena.stateOf_storeCreatedAt ..)
  | @touch _ _ m _ ctrl loaded =>
    by_cases hn : n = m
    · subst hn
      refine .inl ?_
      rw [MemoryArena.stateOf_storeControl, if_pos rfl, unpackControl_packControl_state, ← loaded]
      rfl
    · exact .inl (hctrl _ _ rfl hn)
  | @publish nodeId =>
    by_cases hn : n = nodeId.toNat
    · subst hn
      exact .inr (.inr (.inl ⟨hwell,by simp [MemoryArena.stateOf_storeControl]⟩))
    · exact .inl (hctrl _ _ rfl hn)
  | @evict header ctrl loaded =>
    by_cases hn : n = header.nodeId.toNat
    · exact .inr (.inr (.inr (by simp [MemoryArena.stateOf_storeControl, hn])))
    · exact .inl (hctrl _ _ rfl hn)
  | evictMissed => exact .inl rfl
  | clear => exact .inl (MemoryArena.stateOf_storeCreatedAt ..)
  | @rehome header ctrl offset _ loaded =>
    by_cases hn : n = header.nodeId.toNat
    · subst hn
      refine .inl ?_
      rw [MemoryArena.stateOf_storeControl, if_pos rfl, unpackControl_packControl_state,
        MemoryArena.stateOf, MetaNode.loadControl, loaded, unpackControl_packControl_state]
    · exact .inl (hctrl _ _ rfl hn)

theorem NodeMove.claimed_cases [Scoring K] (h : NodeMove arena actor arena' actor')
    (hwell : actor.WellFormed) :
    (actor'.claimed = actor.claimed ∧
      ∀ n, ¬(arena.stateOf n = .dead ∧ arena'.stateOf n = .pending)) ∨
    ∃ id, actor.claimed = none ∧ actor'.claimed = some id ∧
      ∀ n : ℕ, (arena.stateOf n = .dead ∧ arena'.stateOf n = .pending) ↔ (n : ℤ) = id := by
  -- a transition from dead to pending is a claim
  have honly : ∀ n, arena.stateOf n = .dead ∧ arena'.stateOf n = .pending →
      ∃ query t id,
        actor = .checking query t (.exchanging id (arena.metadata (toSize id)).controlBlock) ∧
          toSize id = n := by
    rintro n ⟨hdead,hpending⟩
    rcases h.state_cases hwell n with hs | ⟨-,-,query,t,id,hactor,-,hid⟩ | ⟨hs,-⟩ | hs
    · rw [hs, hdead] at hpending
      cases hpending
    · exact ⟨query,t,id,hactor,hid⟩
    · rw [hs] at hdead
      cases hdead
    · rw [hs] at hpending
      cases hpending
  have hnone : (∀ query t id w, actor ≠ .checking query t (.exchanging id w)) →
      ∀ n, ¬(arena.stateOf n = .dead ∧ arena'.stateOf n = .pending) := by
    intro hne n hn
    obtain ⟨query,t,id,hactor,-⟩ := honly n hn
    exact hne _ _ _ _ hactor
  cases h with
  | quiet hmeta _ _ unclaimed _ claimed =>
    refine .inl ⟨claimed.trans unclaimed.symm,?_⟩
    rintro n ⟨hdead,hpending⟩
    rw [MemoryArena.stateOf, hmeta] at hpending
    rw [MemoryArena.stateOf, hpending] at hdead
    cases hdead
  | @claim query t id =>
    refine .inr ⟨id,rfl,rfl,fun n => ⟨fun hn => ?_,fun hn => ?_⟩⟩
    · obtain ⟨_,_,id',hactor,rfl⟩ := honly n hn
      cases hactor
      exact hwell.1.toSize_eq
    · obtain rfl : n = toSize id := by
        have := hwell.1.toSize_eq
        omega
      exact ⟨hwell.2,by simp [MemoryArena.stateOf_storeControl]⟩
  | @stamp query t id =>
    refine .inl ⟨?_,hnone (by simp)⟩
    have hslot : IsSlot id := hwell
    simp [Actor.claimed, hslot.ne]
  | _ => exact .inl ⟨rfl,hnone (by simp)⟩

theorem NodeMove.control_of_set [Scoring K] (h : NodeMove arena actor arena' actor')
    (hactor : actor = .idle ∨ ∃ nodeId payload phase, actor = .setting nodeId payload phase)
    (hnext : actor'.published = false) (n : ℕ) :
    (arena'.metadata n).controlBlock = (arena.metadata n).controlBlock := by
  cases h with
  | quiet hmeta => rw [hmeta]
  | publish => simp [Actor.published] at hnext
  | _ => simp at hactor

theorem NodeMove.published_states [Scoring K] {nodeId : UInt32} {payload : List UInt8}
    {phase : SetPhase} (h : NodeMove arena (.setting nodeId payload phase) arena' actor')
    (hwell : (Actor.setting (K := K) nodeId payload phase).WellFormed)
    (hnext : actor'.published = true) :
    arena.stateOf nodeId.toNat = .pending ∧ arena'.stateOf nodeId.toNat = .ready := by
  cases h with
  | quiet _ _ _ _ _ _ _ published =>
    rw [published] at hnext
    cases hnext
  | publish => exact ⟨hwell,by simp [MemoryArena.stateOf_storeControl]⟩

theorem Actor.Unpublished.published (h : actor.Unpublished) : actor.published = false := by
  unfold Actor.Unpublished at h
  split at h
  · rfl
  · rfl
  · exact h
  · rfl
  · exact h.elim

theorem AtomicStep.of_unpublished [Scoring K] {action : Action K}
    (h : AtomicStep arena actor action arena' actor') (hnext : actor'.Unpublished) :
    actor = .idle ∨ ∃ nodeId payload phase, actor = .setting nodeId payload phase := by
  cases h with
  | check => exact .inl rfl
  | set => exact .inl rfl
  | checking h =>
    rcases checkStep_next h with ⟨_,rfl⟩ | ⟨_,rfl⟩ <;> exact hnext.elim
  | setting => exact .inr ⟨_,_,_,rfl⟩
  | collecting => exact hnext.elim

end Moves

section Runs
variable [Scoring K] {arena : MemoryArena (Vec K)} {es es₁ es₂ es₃ : List (AtomicBeat K)}
  {pool : AtomicPool K} {τ σ : AtomicBeat K}

theorem move_of_moves (h : Moves AtomicStep τ.before τ.act τ.after) :
    NodeMove τ.before.shared (τ.before.threads τ.act.1) τ.after.shared
      (τ.after.threads τ.act.1) := atomicStep_move h.own

/-- A thread has claimed the slots that its steps have turned from dead to pending. -/
theorem claimed_iff (hrun : Run (Moves AtomicStep) (startAtomic arena) es pool) (i : Option ℕ)
    (n : ℕ) : (pool.threads i).claimed = some (n : ℤ) ↔
      ∃ τ ∈ es, τ.act.1 = i ∧ Reserves n τ := by
  refine hrun.historyInvariant_of_run (I := fun es u => ∀ i, (u.threads i).claimed = some (n : ℤ) ↔
    ∃ τ ∈ es, τ.act.1 = i ∧ Reserves n τ) (P := fun _ => True) ?_ (fun _ _ => trivial) ?_ i
  · intro es τ hbefore hmove _ ih i
    have hsplit : (∃ σ ∈ es ++ [τ], σ.act.1 = i ∧ Reserves n σ) ↔
        (∃ σ ∈ es, σ.act.1 = i ∧ Reserves n σ) ∨ (τ.act.1 = i ∧ Reserves n τ) := by
      simp only [List.mem_append, List.mem_singleton, or_and_right, exists_or, exists_eq_left]
    rw [hsplit, ← ih]
    by_cases hi : i = τ.act.1
    · subst hi
      rcases (move_of_moves hmove).claimed_cases (atomic_threads hbefore _).1 with
        ⟨hsame,hno⟩ | ⟨id,hold,hnew,hiff⟩
      · rw [hsame]
        exact ⟨.inl,fun h => h.resolve_right fun hr => hno n hr.2⟩
      · rw [hnew, hold]
        simp only [Reserves, hiff, Option.some.injEq, reduceCtorEq, true_and, false_or]
        exact eq_comm
    · rw [hmove.others i hi]
      exact ⟨.inl,fun h => h.resolve_right fun hr => hi hr.1.symm⟩
  · intro i
    cases i <;> simp [startAtomic, Actor.claimed]

theorem reserves_unique
    (hrun : Run (Moves AtomicStep) (startAtomic arena) (es₁ ++ τ :: (es₂ ++ σ :: es₃)) pool)
    {n m : ℕ} (hτ : Reserves n τ) (hσ : Reserves m σ) : τ.act.1 ≠ σ.act.1 := by
  intro hsame
  rw [← List.cons_append, ← List.append_assoc] at hrun
  obtain ⟨hfirst,hmove,-⟩ := hrun.split_at
  have hclaimed := (claimed_iff hfirst τ.act.1 n).mpr ⟨τ,by simp,rfl,hτ⟩
  rcases (move_of_moves hmove).claimed_cases (atomic_threads hfirst _).1 with
    ⟨-,hno⟩ | ⟨id,hold,-⟩
  · exact hno m hσ
  · rw [← hsame, hclaimed] at hold
    cases hold

theorem check_of_reserves (hbefore : Run (Moves AtomicStep) (startAtomic arena) es τ.before)
    (hmove : Moves AtomicStep τ.before τ.act τ.after) {n : ℕ} (hτ : Reserves n τ) :
    ∃ id query t phase, τ.act.1 = some id ∧
      τ.before.threads (some id) = .checking query t phase := by
  obtain ⟨hwell,hcollector⟩ := atomic_threads hbefore τ.act.1
  rcases (move_of_moves hmove).state_cases hwell n with hs | ⟨-,-,query,t,id,hactor,-⟩ | ⟨hs,-⟩ | hs
  · rw [hτ.1, hτ.2] at hs
    cases hs
  · rw [hactor] at hcollector
    obtain ⟨i,hi⟩ := Option.ne_none_iff_exists'.mp
      (fun hnone : τ.act.1 = none => by rw [hnone] at hcollector; cases hcollector)
    exact ⟨i,query,t,_,hi,by rw [← hi]; exact hactor⟩
  · rw [hτ.1] at hs
    cases hs
  · rw [hτ.2] at hs
    cases hs

theorem pending_of_run {pool' : AtomicPool K}
    (hbefore : Run (Moves AtomicStep) (startAtomic arena) es pool')
    (hrun : Run (Moves AtomicStep) pool' es₂ pool) {n : ℕ}
    (hpool' : pool'.shared.stateOf n ≠ .pending) (hpool : pool.shared.stateOf n = .pending) :
    ∃ τ ∈ es₂, Reserves n τ := by
  by_contra hno
  push Not at hno
  refine hrun.historyInvariant_of_run (I := fun _ u => u.shared.stateOf n ≠ .pending)
    (P := fun τ => ¬Reserves n τ) ?_ hno hpool' hpool
  intro fs τ hfs hmove hτ ih hpending
  rcases (move_of_moves hmove).state_cases (atomic_threads (hbefore.append hfs) _).1 n with
    hs | ⟨hdead,-⟩ | ⟨hs,-⟩ | hs
  · exact ih (hs.symm.trans hpending)
  · exact hτ ⟨hdead,hpending⟩
  · exact ih hs
  · rw [hpending] at hs
    cases hs

theorem Publishes.states {n : ℕ} (hbefore : Run (Moves AtomicStep) (startAtomic arena) es τ.before)
    (hmove : Moves AtomicStep τ.before τ.act τ.after) (hτ : Publishes n τ) :
    τ.before.shared.stateOf n = .pending ∧ τ.after.shared.stateOf n = .ready := by
  obtain ⟨nodeId,payload,phase,hactor,rfl,hnext⟩ := hτ
  have hmoved := move_of_moves hmove
  have hwell := (atomic_threads hbefore τ.act.1).1
  rw [hactor] at hmoved hwell
  exact hmoved.published_states hwell (by rw [hnext]; rfl)

/-- Two successful publications of a node have a reservation between them. -/
theorem reserves_between
    (hrun : Run (Moves AtomicStep) (startAtomic arena) (es₁ ++ τ :: (es₂ ++ σ :: es₃)) pool)
    {n : ℕ} (hτ : Publishes n τ) (hσ : Publishes n σ) : ∃ υ ∈ es₂, Reserves n υ := by
  obtain ⟨hfirst,hmove,hrest⟩ := hrun.split_at
  obtain ⟨hbetween,hmove',-⟩ := hrest.split_at
  have hafter := (hfirst.append (Run.single hmove))
  have hready := (hτ.states hfirst hmove).2
  have hpending := (hσ.states (hafter.append hbetween) hmove').1
  exact pending_of_run hafter hbetween (by rw [hready]; simp) hpending

theorem control_of_unpublished (hrun : Run (Moves AtomicStep) (startAtomic arena) es pool)
    {i : Option ℕ} (hi : (pool.threads i).Unpublished) :
    ∀ τ ∈ es, τ.act.1 = i → ∀ n,
      (τ.after.shared.metadata n).controlBlock = (τ.before.shared.metadata n).controlBlock := by
  refine hrun.historyInvariant (I := fun es u => (u.threads i).Unpublished → ∀ τ ∈ es,
      τ.act.1 = i → ∀ n,
        (τ.after.shared.metadata n).controlBlock = (τ.before.shared.metadata n).controlBlock)
    (P := fun _ => True) ?_ (fun _ _ => trivial) (by simp) hi
  intro es τ hmove _ ih hun σ hσ hby n
  by_cases hτ : i = τ.act.1
  · subst hτ
    have hback := hmove.own.of_unpublished hun
    rcases List.mem_append.mp hσ with hσ | hσ
    · refine ih ?_ σ hσ hby n
      rcases hback with h | ⟨nodeId,payload,phase,h⟩ <;> rw [h] <;> trivial
    · obtain rfl := List.mem_singleton.mp hσ
      exact (move_of_moves hmove).control_of_set hback hun.published n
  · rw [hmove.others i hτ] at hun
    rcases List.mem_append.mp hσ with hσ | hσ
    · exact ih hun σ hσ hby n
    · obtain rfl := List.mem_singleton.mp hσ
      exact absurd hby.symm hτ

/-- Each transition of a node from dead to pending is made by one check, no call
makes two, and the calls answered with a slot are those that made one; between two
successful publications lies a reservation, and a `SetCache` without success
changes no control word. -/
theorem reservation_winner (hrun : AtomicRun es pool) :
    (∀ τ ∈ es, ∀ n, Reserves n τ → ∃ id query t phase, τ.act.1 = some id ∧
      τ.before.threads (some id) = .checking query t phase) ∧
    (∀ es₁ es₂ es₃ τ σ n m, es = es₁ ++ τ :: (es₂ ++ σ :: es₃) → Reserves n τ → Reserves m σ →
      τ.act.1 ≠ σ.act.1) ∧
    (∀ id result, pool.threads (some id) = .finished (.checked result) → ∀ z : ℤ, z ≠ -1 →
      ((∃ payload, result = .ok ⟨.miss,z,payload⟩) ↔
        ∃ n : ℕ, z = n ∧ ∃ τ ∈ es, τ.act.1 = some id ∧ Reserves n τ)) ∧
    (∀ es₁ es₂ es₃ τ σ n, es = es₁ ++ τ :: (es₂ ++ σ :: es₃) → Publishes n τ → Publishes n σ →
      ∃ υ ∈ es₂, Reserves n υ) ∧
    ∀ id, pool.threads (some id) = .finished (.stored (.ok false)) → ∀ τ ∈ es,
      τ.act.1 = some id → ∀ n,
        (τ.after.shared.metadata n).controlBlock = (τ.before.shared.metadata n).controlBlock := by
  refine ⟨?_,?_,?_,?_,?_⟩
  · intro τ hτ n hres
    obtain ⟨fs,gs,rfl⟩ := List.append_of_mem hτ
    obtain ⟨hbefore,hmove,-⟩ := hrun.split_at
    exact check_of_reserves hbefore hmove hres
  · rintro es₁ es₂ es₃ τ σ n m rfl hτ hσ
    exact reserves_unique hrun hτ hσ
  · intro id result hfinished z hz
    have hclaimed := claimed_iff hrun (some id)
    have hwell := (atomic_threads hrun (some id)).1
    rw [hfinished] at hclaimed hwell
    constructor
    · rintro ⟨payload,rfl⟩
      obtain ⟨n,-,hn⟩ : IsSlot z := hwell.resolve_left hz
      refine ⟨n,hn,(hclaimed n).mp ?_⟩
      simp [Actor.claimed, hn]
    · rintro ⟨n,rfl,hτ⟩
      have hsome := (hclaimed n).mpr hτ
      unfold Actor.claimed at hsome
      split at hsome
      · rename_i heq
        cases heq
      · rename_i heq
        cases heq
      · rename_i z' payload heq
        cases heq
        split at hsome
        · cases hsome
        · obtain rfl := Option.some.inj hsome
          exact ⟨payload,rfl⟩
      · cases hsome
  · rintro es₁ es₂ es₃ τ σ n rfl hτ hσ
    exact reserves_between hrun hτ hσ
  · intro id hfinished
    exact control_of_unpublished hrun (by rw [hfinished]; rfl)

end Runs

section Replay

theorem reservation_winner_replay : ∃ (es : List (AtomicBeat ℚ)) (pool : AtomicPool ℚ),
    AtomicRun es pool ∧ pool.threads (some 0) = .finished (.checked (.ok ⟨.miss,0,[]⟩)) ∧
      ∃ τ ∈ es, τ.act.1 = some 0 ∧ Reserves 0 τ := by
  obtain ⟨arena,hmiss,-⟩ := exists_firstMiss (axis 0 : Vec ℚ) 1
  obtain ⟨es,hrun,-⟩ := run_check (startAtomic (freshArena ℚ)) 0 [1] (.ok (axis 0)) 1 rfl
    (proceeds_checkCache (fires_checkCache.mp hmiss))
  have hfinished := Function.update_self (some 0)
    (Actor.finished (.checked (.ok ⟨.miss,0,[]⟩))) (startAtomic (freshArena ℚ)).threads
  refine ⟨es,_,hrun,hfinished,?_⟩
  obtain ⟨n,hn,hτ⟩ := ((reservation_winner hrun).2.2.1 0 _ hfinished 0 (by decide)).mp ⟨[],rfl⟩
  obtain rfl : n = 0 := by omega
  exact hτ

end Replay

end Strix
