import Strix.Ring.Records
import Strix.Semantic.NodeMove

/-! # The second tier (constant.hh, service.cc, arena.cc)

The constructor makes room for `l1MaxSlots` nodes behind the first tier, and
`CheckCache` leaves the scan of these for later. A client can still send their
ids, and the collector takes node ids from the ring, so that nobody writes to
these nodes is an invariant of all threads together.
-/
namespace Strix
open RunHistory ThreadPool Scoring

variable {K : Type*} [Scoring K]

/-- The nodes behind the first tier are as the constructor leaves them. -/
def FreshL1 (arena : MemoryArena (Vec K)) : Prop :=
  ∀ n, l0MaxSlots ≤ n →
    arena.metadata n = (freshArena K).metadata n ∧ arena.vectors n = (freshArena K).vectors n

/-- The node that the thread is about to write to, or names in its reply, is in the
first tier. -/
def Actor.InL0 : Actor K → Prop
  | .checking _ _ (.reading n _) => n < l0MaxSlots
  | .checking _ _ (.touching n _ _) => n < l0MaxSlots
  | .finished (.checked (.ok response)) => response.nodeId = -1 ∨ IsSlot response.nodeId
  | .setting nodeId _ (.exchanging _ _) => nodeId.toNat < l0MaxSlots
  | .collector (.evicting header _) => header.nodeId.toNat < l0MaxSlots
  | .collector (.resetting header) => header.nodeId.toNat < l0MaxSlots
  | .collector (.rescuing _ header _) => header.nodeId.toNat < l0MaxSlots
  | .collector (.rehoming header _ _) => header.nodeId.toNat < l0MaxSlots
  | _ => True

theorem IsSlot.toSize_lt {id : ℤ} (h : IsSlot id) : toSize id < l0MaxSlots := by
  obtain ⟨i,hi,rfl⟩ := h
  have hsize := (IsSlot.toSize_eq ⟨i,hi,rfl⟩ : (toSize (i : ℤ) : ℤ) = i)
  omega

variable {arena arena' : MemoryArena (Vec K)} {actor actor' : Actor K}

theorem FreshL1.lt_of_ne_dead (h : FreshL1 arena) {n : ℕ} (hn : arena.stateOf n ≠ .dead) :
    n < l0MaxSlots := by
  refine not_le.mp fun hle => hn ?_
  rw [MemoryArena.stateOf, (h n hle).1]
  exact freshArena_state n

theorem beginCheck_inL0 (prompt : List UInt8) (embedding : Except String (Vec K)) (t : UInt64) :
    (beginCheck prompt embedding t).InL0 := by
  unfold beginCheck
  split
  · trivial
  · cases embedding <;> trivial

omit [Scoring K] in
theorem beginClaim_inL0 (query : Vec K) (t : UInt64) (id : ℤ) : (beginClaim query t id).InL0 := by
  unfold beginClaim
  split <;> trivial

theorem checkStep_inL0 {query : Vec K} {t : UInt64} {phase : CheckPhase K}
    (h : checkStep query t arena phase = .ok (arena', actor')) (hphase : phase.WellFormed t)
    (hin : (Actor.checking query t phase).InL0) : actor'.InL0 := by
  cases phase with
  | scanning i scan =>
    simp only [checkStep] at h
    split at h <;> split at h <;> obtain ⟨rfl,rfl⟩ := Prod.mk.inj (Except.ok.inj h)
    any_goals trivial
    exact beginClaim_inL0 ..
  | aging i scan w =>
    simp only [checkStep] at h
    split at h
    · obtain ⟨rfl,rfl⟩ := Prod.mk.inj (Except.ok.inj h)
      trivial
    · split at h <;> obtain ⟨rfl,rfl⟩ := Prod.mk.inj (Except.ok.inj h) <;> trivial
  | expiring i scan w birthTime =>
    rcases checkStep_expiring h with ⟨-,-,rfl⟩ | ⟨-,rfl⟩ <;> trivial
  | resetting i scan | scoring i scan =>
    obtain ⟨rfl,rfl⟩ := Prod.mk.inj (Except.ok.inj h)
    trivial
  | answering scan =>
    have hbest : IsSlot scan.bestNodeId := hphase
    simp only [checkStep] at h
    split at h
    · simp only [reduceCtorEq] at h
    split at h <;> obtain ⟨rfl,rfl⟩ := Prod.mk.inj (Except.ok.inj h)
    · exact hbest.toSize_lt
    · exact hbest.toSize_lt
    · exact .inr hbest
    · exact beginClaim_inL0 ..
  | reading n w =>
    obtain ⟨rfl,rfl⟩ := Prod.mk.inj (Except.ok.inj h)
    exact hin
  | touching n w payload =>
    obtain ⟨rfl,rfl⟩ := Prod.mk.inj (Except.ok.inj h)
    exact .inl rfl
  | claiming id =>
    simp only [checkStep] at h
    split at h
    · simp only [reduceCtorEq] at h
    split at h <;> obtain ⟨rfl,rfl⟩ := Prod.mk.inj (Except.ok.inj h)
    · trivial
    · exact .inl rfl
  | exchanging id w =>
    rcases checkStep_exchanging h with ⟨-,-,rfl⟩ | ⟨-,rfl⟩
    · trivial
    · exact .inl rfl
  | copying id =>
    obtain ⟨rfl,rfl⟩ := Prod.mk.inj (Except.ok.inj h)
    trivial
  | stamping id =>
    obtain ⟨rfl,rfl⟩ := Prod.mk.inj (Except.ok.inj h)
    exact .inr hphase

theorem publishLoop_inL0 (hfresh : FreshL1 arena) (nodeId : UInt32)
    (payload : List UInt8) (offset : UInt64) :
    (publishLoop nodeId payload offset (arena.metadata nodeId.toNat).controlBlock :
      Actor K).InL0 := by
  unfold publishLoop
  split
  · trivial
  · rename_i hpending
    have hstate : arena.stateOf nodeId.toNat = .pending := not_not.mp hpending
    exact hfresh.lt_of_ne_dead (by simp [hstate])

theorem setStep_inL0 {nodeId : UInt32} {payload : List UInt8} {spurious : Bool} {phase : SetPhase}
    (h : setStep nodeId payload spurious arena phase = .ok (arena', actor'))
    (hfresh : FreshL1 arena) : actor'.InL0 := by
  cases phase with
  | writing =>
    simp only [setStep] at h
    split at h
    · obtain ⟨rfl,rfl⟩ := Prod.mk.inj (Except.ok.inj h)
      trivial
    · simp only [reduceCtorEq] at h
    · obtain ⟨rfl,rfl⟩ := Prod.mk.inj (Except.ok.inj h)
      trivial
  | loading offset =>
    obtain ⟨rfl,rfl⟩ := Prod.mk.inj (Except.ok.inj h)
    exact publishLoop_inL0 hfresh ..
  | exchanging offset w =>
    simp only [setStep] at h
    split at h <;> obtain ⟨rfl,rfl⟩ := Prod.mk.inj (Except.ok.inj h)
    · trivial
    · exact publishLoop_inL0 hfresh ..

theorem collectorStep_inL0 {phase : CollectorPhase} {s : Stepwise (Vec K)}
    (h : collectorStep ⟨arena,phase⟩ = .ok s) (hfresh : FreshL1 arena)
    (hin : (Actor.collector phase : Actor K).InL0) : (Actor.collector s.phase : Actor K).InL0 := by
  cases phase with
  | idle =>
    simp only [collectorStep] at h
    split at h <;> obtain rfl := Except.ok.inj h <;> trivial
  | found tail header =>
    simp only [collectorStep] at h
    split at h
    · simp only [reduceCtorEq] at h
    rename_i node hnode
    obtain rfl := arena.getNode_eq hnode
    split at h
    · obtain rfl := Except.ok.inj h
      trivial
    -- the record is not stale: its node is in use
    rename_i hcurrent
    have hlt : header.nodeId.toNat < l0MaxSlots := hfresh.lt_of_ne_dead fun hdead => by
      simp only [MemoryArena.stateOf] at hdead
      simp [MemoryArena.stale, hdead] at hcurrent
    split at h <;> obtain rfl := Except.ok.inj h <;> exact hlt
  | evicting header ctrl =>
    obtain rfl := Except.ok.inj h
    exact hin
  | resetting header =>
    obtain rfl := Except.ok.inj h
    trivial
  | rescuing tail header ctrl =>
    simp only [collectorStep] at h
    split at h
    · simp only [reduceCtorEq] at h
    obtain rfl := Except.ok.inj h
    exact hin
  | rehoming header ctrl offset | advancing n =>
    obtain rfl := Except.ok.inj h
    trivial

theorem AtomicStep.inL0 {action : Action K} (h : AtomicStep arena actor action arena' actor')
    (hwell : actor.WellFormed) (hfresh : FreshL1 arena) (hin : actor.InL0) : actor'.InL0 := by
  cases h with
  | check => exact beginCheck_inL0 ..
  | set h => rcases beginSet_cases h with ⟨status,rfl⟩ | ⟨node,rfl⟩ <;> trivial
  | checking h => exact checkStep_inL0 h hwell hin
  | setting h => exact setStep_inL0 h hfresh
  | collecting h => exact collectorStep_inL0 h hfresh hin

theorem NodeMove.freshL1 (h : NodeMove arena actor arena' actor') (hwell : actor.WellFormed)
    (hin : actor.InL0) (hfresh : FreshL1 arena) : FreshL1 arena' := by
  intro n hn
  have hne : ∀ {i : ℕ}, i < l0MaxSlots → n ≠ i := fun hi => (hi.trans_le hn).ne'
  cases h with
  | quiet metadata vectors =>
    rw [metadata, vectors]
    exact hfresh n hn
  | expire =>
    rw [arena.storeControl_of_ne _ _ (hne hwell.1)]
    exact hfresh n hn
  | reset =>
    rw [arena.storeCreatedAt_of_ne _ _ (hne hwell.1)]
    exact hfresh n hn
  | claim =>
    rw [arena.storeControl_of_ne _ _ (hne (IsSlot.toSize_lt hwell.1))]
    exact hfresh n hn
  | copy =>
    rw [arena.storeVector_of_ne _ _ (hne (IsSlot.toSize_lt hwell))]
    exact hfresh n hn
  | stamp =>
    rw [arena.storeCreatedAt_of_ne _ _ (hne (IsSlot.toSize_lt hwell))]
    exact hfresh n hn
  | touch | publish | evict | rehome =>
    rw [arena.storeControl_of_ne _ _ (hne hin)]
    exact hfresh n hn
  | evictMissed => exact hfresh n hn
  | clear =>
    rw [arena.storeCreatedAt_of_ne _ _ (hne hin)]
    exact hfresh n hn

variable {es : List (AtomicBeat K)} {pool : AtomicPool K}

/-- The invariant of the second tier, of every interleaving. -/
theorem AtomicRun.inL0 (hrun : AtomicRun es pool) :
    FreshL1 pool.shared ∧ ∀ i, (pool.threads i).InL0 ∧ (pool.threads i).WellFormed := by
  refine run_invariant (G := fun _ arena => FreshL1 arena)
    (J := fun _ _ _ actor => actor.InL0 ∧ actor.WellFormed) (P := fun _ => True) ?_ ?_
    hrun (fun _ _ => trivial) (fun _ _ => ⟨rfl,rfl⟩) ?_
  · intro es τ hmove _ hfresh hthreads
    obtain ⟨hin,hwell⟩ := hthreads τ.act.1
    exact ⟨(atomicStep_move hmove.own).freshL1 hwell hin hfresh,
      hmove.own.inL0 hwell hfresh hin,atomicStep_wellFormed hmove.own hwell⟩
  · intro es τ j _ _ _ hthreads _
    exact hthreads j
  · intro i
    cases i <;> exact ⟨trivial,trivial⟩

/-- In every interleaving the second tier stays as the constructor leaves it,
`CheckCache` names slots of the first tier only, and a `SetCache` for a node of the
second never succeeds. -/
theorem l1_untouched (hrun : AtomicRun es pool) : FreshL1 pool.shared ∧
    (∀ i response, pool.threads i = .finished (.checked (.ok response)) →
      response.nodeId = -1 ∨ IsSlot response.nodeId) ∧
    ∀ τ ∈ es, ∀ nodeId payload phase, τ.before.threads τ.act.1 = .setting nodeId payload phase →
      τ.after.threads τ.act.1 = .finished (.stored (.ok true)) → nodeId.toNat < l0MaxSlots := by
  refine ⟨hrun.inL0.1,fun i response hi => ?_,fun τ hτ nodeId payload phase hbefore hafter => ?_⟩
  · have hin := (hrun.inL0.2 i).1
    rw [hi] at hin
    exact hin
  · obtain ⟨front,back,rfl⟩ := List.append_of_mem hτ
    obtain ⟨hfront,hmove,-⟩ := Run.split_at hrun
    have hin := (AtomicRun.inL0 hfront).2 τ.act.1
    have hstep := atomicStep_move hmove.own
    rw [hbefore] at hin hstep
    rw [hafter] at hstep
    generalize τ.after.shared = arena' at hstep
    cases hstep with
    | quiet _ _ _ _ _ _ _ published => cases published
    | publish => exact hin.1

/-- An answer for the first node of the second tier takes room in the ring and goes to
no node. -/
theorem l1_untouched_replay : ∃ (es : List (AtomicBeat ℚ)) (pool : AtomicPool ℚ),
    AtomicRun es pool ∧ Happened (fun τ => τ.act = (some 0, .set 1000 [7])) es ∧
      pool.threads (some 0) = .finished (.stored (.ok false)) ∧ pool.shared.writeHead = 13 ∧
      FreshL1 pool.shared := by
  have hw : WellFormedSet 1000 [7] := by decide
  obtain ⟨buf,hwrite,-⟩ := @writePayload_ok _ (freshArena ℚ) 0 0 (.ofNat (Int.toNat 1000))
    (.ofNat [7].length) [7] rfl rfl le_rfl (by decide) rfl (by decide)
  have hset := setCache_of_late hw hwrite (by rw [freshArena_state]; decide)
  obtain ⟨actor,hbeginSet,hproceeds⟩ := proceeds_setCache hset
  have hbegin : Moves AtomicStep (startAtomic (freshArena ℚ)) (some 0, .set 1000 [7])
      ⟨freshArena ℚ,Function.update (startAtomic (freshArena ℚ)).threads (some 0) actor⟩ :=
    moves_update (.set hbeginSet)
  obtain ⟨es,hes,-⟩ := run_proceeds
    ⟨freshArena ℚ,Function.update (startAtomic (freshArena ℚ)).threads (some 0) actor⟩ (some 0)
    (by simpa only [Function.update_self] using hproceeds)
  have hrun := Run.cons hbegin hes
  exact ⟨_,_,hrun,⟨_,List.mem_cons_self,rfl⟩,by simp only [Function.update_self],rfl,
    (l1_untouched hrun).1⟩

end Strix
