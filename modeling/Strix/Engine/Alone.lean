import Strix.Engine.Atomic

/-! # A call that runs alone

With no step of another thread in between, the atomic steps of a call add up to
the call as a whole: the interleaved engine has every run of whole calls.
-/
namespace Strix
open RunHistory ThreadPool Scoring

def Proceeds {K : Type*} [Scoring K] (c c' : MemoryArena (Vec K) × Actor K) : Prop :=
  ∃ es, Run (Solo AtomicStep) c es c' ∧ ∀ τ ∈ es, τ.act = .proceed false

section Check
variable {K : Type*} [Scoring K] {query : Vec K} {t : UInt64} {arena arena' : MemoryArena (Vec K)}
  {c c' c'' : MemoryArena (Vec K) × Actor K}

theorem Proceeds.refl (c : MemoryArena (Vec K) × Actor K) : Proceeds c c := ⟨[],.nil c,by simp⟩

theorem Proceeds.single (h : Solo AtomicStep c (.proceed false) c') : Proceeds c c' :=
  ⟨_,Run.single h,by simp⟩

theorem Proceeds.trans (h : Proceeds c c') (h' : Proceeds c' c'') : Proceeds c c'' := by
  obtain ⟨es,hes,hall⟩ := h
  obtain ⟨fs,hfs,hall'⟩ := h'
  refine ⟨_,hes.append hfs,fun τ hτ => ?_⟩
  rcases List.mem_append.mp hτ with hτ | hτ
  · exact hall τ hτ
  · exact hall' τ hτ

theorem proceeds_check {phase : CheckPhase K} {next : Actor K}
    (h : checkStep query t arena phase = .ok (arena', next)) :
    Proceeds (arena, .checking query t phase) (arena', next) := .single (.checking h)

theorem proceeds_scanDead (query : Vec K) (t : UInt64) (scan : Scan K) {i : ℕ}
    (hi : i < l0MaxSlots) (hdead : (arena.metadata i).loadControl.state = .dead) :
    Proceeds (arena, .checking query t (.scanning i scan))
      (arena, .checking query t (.scanning (i + 1) { scan with
        reusableNodeId := if scan.reusableNodeId = -1 then i else scan.reusableNodeId })) := by
  have hstate : (unpackControl (arena.metadata i).controlBlock).state = .dead := hdead
  refine proceeds_check ?_
  simp only [checkStep, hi, if_true, hstate, true_and]

theorem proceeds_deadSlots (query : Vec K) (t : UInt64) (scan : Scan K) {i n : ℕ}
    (hn : n ≤ l0MaxSlots) (hin : i ≤ n)
    (hdead : ∀ j, i ≤ j → j < n → (arena.metadata j).loadControl.state = .dead)
    (hscan : scan.reusableNodeId ≠ -1) :
    Proceeds (arena, .checking query t (.scanning i scan))
      (arena, .checking query t (.scanning n scan)) := by
  induction n, hin using Nat.le_induction with
  | base => exact .refl _
  | succ n hin ih =>
    have hstep := proceeds_scanDead query t scan (by omega : n < l0MaxSlots)
      (hdead n hin (by omega))
    rw [if_neg hscan] at hstep
    exact (ih (by omega) fun j hj hjn => hdead j hj (by omega)).trans hstep

theorem proceeds_claimFirst {k : ℕ} (hk : k < l0MaxSlots)
    (hdead : ∀ j, k ≤ j → j < l0MaxSlots → (arena.metadata j).loadControl.state = .dead) :
    Proceeds (arena, .checking query t (.scanning k ⟨minusOne,-1,-1⟩))
      (arena, .checking query t (.exchanging k (arena.metadata k).controlBlock)) := by
  have hfirst := proceeds_scanDead query t ⟨minusOne,-1,-1⟩ hk (hdead k le_rfl hk)
  rw [if_pos rfl] at hfirst
  have hrest := proceeds_deadSlots query t ⟨minusOne,-1,k⟩ le_rfl
    (by omega : k + 1 ≤ l0MaxSlots) (fun j hj hjn => hdead j (by omega) hjn)
    (by simp only; omega)
  have hend : Proceeds (arena, .checking query t (.scanning l0MaxSlots ⟨minusOne,-1,k⟩))
      (arena, .checking query t (.claiming k)) := proceeds_check
    (by
      have hsome : (k : ℤ) ≠ -1 := by omega
      simp only [checkStep, lt_irrefl, if_false, minusOne_below, beginClaim, hsome,
        Bool.false_eq_true])
  have hrange : k < totalMaxSlots := hk.trans_le l0MaxSlots_le_totalMaxSlots
  have hload : Proceeds (arena, .checking query t (.claiming k))
      (arena, .checking query t (.exchanging k (arena.metadata k).controlBlock)) := proceeds_check
    (by
      have hstate : NodeState.ofBits ((arena.metadata k).controlBlock >>> 62) = .dead :=
        hdead k le_rfl hk
      simp only [checkStep, toSize_natCast hrange, arena.getNode_of_lt hrange, hstate, if_true])
  exact ((hfirst.trans hrest).trans hend).trans hload

theorem proceeds_scanSlot {i : ℕ} (hi : i < l0MaxSlots) (scan : Scan K) :
    Proceeds (arena, .checking query t (.scanning i scan))
      ((scanSlot query t (arena, scan) i).1,
        .checking query t (.scanning (i + 1) (scanSlot query t (arena, scan) i).2)) := by
  set w := (arena.metadata i).controlBlock with hw
  set loaded : Scan K := { scan with
    reusableNodeId :=
      if (unpackControl w).state = .dead ∧ scan.reusableNodeId = -1 then i
      else scan.reusableNodeId } with hloaded
  cases hstate : (unpackControl w).state with
  | dead =>
    have hslot : scanSlot query t (arena, scan) i = (arena, loaded) := by
      simp [scanSlot, ← hw, hstate, hloaded]
    rw [hslot]
    exact proceeds_check (by simp only [checkStep, hi, if_true, ← hw, hstate, hloaded])
  | ready | migrating =>
    have hslot : scanSlot query t (arena, scan) i =
        (arena, scoreSlot query (arena.vectors i) i loaded) := by
      simp [scanSlot, ← hw, hstate, hloaded]
    rw [hslot]
    have hload : Proceeds (arena, .checking query t (.scanning i scan))
        (arena, .checking query t (.scoring i loaded)) :=
      proceeds_check (by simp only [checkStep, hi, if_true, ← hw, hstate, hloaded])
    exact hload.trans (proceeds_check rfl)
  | pending =>
    have hload : Proceeds (arena, .checking query t (.scanning i scan))
        (arena, .checking query t (.aging i loaded w)) := proceeds_check
      (by simp only [checkStep, hi, if_true, ← hw, hstate, hloaded])
    by_cases hzero : (arena.metadata i).createdAt = 0
    · have hslot : scanSlot query t (arena, scan) i = (arena, loaded) := by
        simp [scanSlot, ← hw, hstate, hloaded, hzero]
      rw [hslot]
      refine hload.trans (proceeds_check ?_)
      simp only [checkStep, hzero, if_true]
    by_cases hold : pendingLifespan.toUInt64 < t - (arena.metadata i).createdAt
    · have hage : Proceeds (arena, .checking query t (.aging i loaded w))
          (arena, .checking query t (.expiring i loaded w (arena.metadata i).createdAt)) :=
        proceeds_check (by simp only [checkStep, hzero, if_false, hold, if_true])
      set dead := packControl .dead (unpackControl w).refBit (unpackControl w).length
        (unpackControl w).virtualOffset with hdead
      set taken : Scan K := { loaded with
        reusableNodeId := if loaded.reusableNodeId = -1 then i else loaded.reusableNodeId }
        with htaken
      have hexchange : arena.compareExchange i w dead = (true, arena.storeControl i dead) :=
        arena.compareExchange_self i dead
      have hslot : scanSlot query t (arena, scan) i =
          ((arena.storeControl i dead).storeCreatedAt i 0, taken) := by
        simp [scanSlot, ← hw, hstate, hloaded, hzero, hold, htaken, ← hdead, hexchange]
      have hexpire :
          Proceeds (arena, .checking query t (.expiring i loaded w (arena.metadata i).createdAt))
            (arena.storeControl i dead, .checking query t (.resetting i taken)) :=
        proceeds_check (by simp only [checkStep, ← hdead, hexchange, if_true, htaken])
      rw [hslot]
      exact ((hload.trans hage).trans hexpire).trans (proceeds_check rfl)
    · have hage : Proceeds (arena, .checking query t (.aging i loaded w))
          (arena, .checking query t (.scoring i loaded)) := proceeds_check
        (by simp only [checkStep, hzero, if_false, hold])
      have hslot : scanSlot query t (arena, scan) i =
          (arena, scoreSlot query (arena.vectors i) i loaded) := by
        simp [scanSlot, ← hw, hstate, hloaded, hzero, hold]
      rw [hslot]
      exact (hload.trans hage).trans (proceeds_check rfl)

theorem proceeds_scan (scan : Scan K) {n : ℕ} (hn : n ≤ l0MaxSlots) :
    Proceeds (arena, .checking query t (.scanning 0 scan))
      (((List.range n).foldl (scanSlot query t) (arena, scan)).1,
        .checking query t (.scanning n
          ((List.range n).foldl (scanSlot query t) (arena, scan)).2)) := by
  induction n with
  | zero => exact .refl _
  | succ n ih =>
    rw [List.range_succ, List.foldl_append]
    exact (ih (by omega)).trans (proceeds_scanSlot (by omega) _)

theorem proceeds_claim {id : ℤ} {result : Except Status CheckCacheResponse}
    (h : claimSlot query t id arena = .ok (result, arena')) :
    Proceeds (arena, beginClaim query t id) (arena', .finished (.checked result)) := by
  unfold claimSlot at h
  unfold beginClaim
  split at h
  · rename_i hnone
    rw [Except.ok.injEq, Prod.mk.injEq] at h
    obtain ⟨rfl,rfl⟩ := h
    rw [if_pos hnone]
    exact .refl _
  rename_i hsome
  rw [if_neg hsome]
  cases hnode : arena.getNode (toSize id) with
  | error fault => simp only [hnode, reduceCtorEq] at h
  | ok node =>
    obtain rfl := arena.getNode_eq hnode
    simp only [hnode] at h
    by_cases hdead : NodeState.ofBits ((arena.metadata (toSize id)).controlBlock >>> 62) = .dead
    · simp only [hdead, if_true, arena.compareExchange_self, Except.ok.injEq,
        Prod.mk.injEq] at h
      obtain ⟨rfl,rfl⟩ := h
      have hload : Proceeds (arena, .checking query t (.claiming id))
          (arena, .checking query t (.exchanging id (arena.metadata (toSize id)).controlBlock)) :=
        proceeds_check (by simp only [checkStep, hnode, hdead, if_true])
      have hexchange :
          Proceeds
            (arena, .checking query t (.exchanging id (arena.metadata (toSize id)).controlBlock))
            (arena.storeControl (toSize id) (packControl .pending .hot 0 0),
              .checking query t (.copying id)) :=
        proceeds_check (by simp only [checkStep, arena.compareExchange_self, if_true])
      exact ((hload.trans hexchange).trans (proceeds_check rfl)).trans (proceeds_check rfl)
    · simp only [hdead, if_false, Except.ok.injEq, Prod.mk.injEq] at h
      obtain ⟨rfl,rfl⟩ := h
      exact proceeds_check (by simp only [checkStep, hnode, hdead, if_false])

theorem proceeds_answer {scan : Scan K} {result : Except Status CheckCacheResponse}
    (h : answerScan query t scan arena = .ok (result, arena')) :
    Proceeds (arena, .checking query t (.scanning l0MaxSlots scan))
      (arena', .finished (.checked result)) := by
  unfold answerScan at h
  by_cases hbest : atLeast scan.maxScore (similarityThreshold : K) = true
  · have hend : Proceeds (arena, .checking query t (.scanning l0MaxSlots scan))
        (arena, .checking query t (.answering scan)) := proceeds_check
      (by simp only [checkStep, lt_irrefl, if_false, hbest, if_true])
    simp only [hbest, if_true] at h
    cases hnode : arena.getNode (toSize scan.bestNodeId) with
    | error fault => simp only [hnode, reduceCtorEq] at h
    | ok node =>
      simp only [hnode] at h
      cases hstate : (unpackControl node.controlBlock).state with
      | ready | migrating =>
        simp only [hstate, Except.ok.injEq, Prod.mk.injEq] at h
        obtain ⟨rfl,rfl⟩ := h
        have hload : Proceeds (arena, .checking query t (.answering scan))
            (arena, .checking query t (.reading (toSize scan.bestNodeId) node.controlBlock)) :=
          proceeds_check (by simp only [checkStep, hnode, MetaNode.loadControl, hstate])
        refine ((hend.trans hload).trans (proceeds_check rfl)).trans (proceeds_check ?_)
        simp only [checkStep, hstate]
      | pending =>
        simp only [hstate, Except.ok.injEq, Prod.mk.injEq] at h
        obtain ⟨rfl,rfl⟩ := h
        refine hend.trans (proceeds_check ?_)
        simp only [checkStep, hnode, MetaNode.loadControl, hstate]
      | dead =>
        simp only [hstate] at h
        have hload : Proceeds (arena, .checking query t (.answering scan))
            (arena, beginClaim query t scan.bestNodeId) := proceeds_check
          (by simp only [checkStep, hnode, MetaNode.loadControl, hstate])
        exact (hend.trans hload).trans (proceeds_claim h)
  · have hend : Proceeds (arena, .checking query t (.scanning l0MaxSlots scan))
        (arena, beginClaim query t scan.reusableNodeId) := proceeds_check
      (by simp only [checkStep, lt_irrefl, if_false, hbest]; rfl)
    simp only [hbest] at h
    exact hend.trans (proceeds_claim h)

/-- A `CheckCache` that runs alone is `checkCache`. -/
theorem proceeds_checkCache {prompt : List UInt8} {embedding : Except String (Vec K)}
    {result : Except Status CheckCacheResponse}
    (h : checkCache prompt embedding t arena = .ok (result, arena')) :
    Proceeds (arena, beginCheck prompt embedding t) (arena', .finished (.checked result)) := by
  unfold checkCache at h
  unfold beginCheck
  split at h
  · rename_i hempty
    rw [Except.ok.injEq, Prod.mk.injEq] at h
    obtain ⟨rfl,rfl⟩ := h
    rw [if_pos hempty]
    exact .refl _
  rename_i hprompt
  rw [if_neg hprompt]
  cases embedding with
  | error what =>
    simp only [Except.ok.injEq, Prod.mk.injEq] at h
    obtain ⟨rfl,rfl⟩ := h
    exact .refl _
  | ok query => exact (proceeds_scan _ le_rfl).trans (proceeds_answer h)

end Check

section Others
variable {K : Type*} [Scoring K] {arena arena' : MemoryArena (Vec K)}

theorem proceeds_set {nodeId : UInt32} {payload : List UInt8} {phase : SetPhase} {next : Actor K}
    (h : setStep nodeId payload false arena phase = .ok (arena', next)) :
    Proceeds (arena, .setting nodeId payload phase) (arena', next) := .single (.setting h)

theorem proceeds_setCache {requestNodeId : ℤ} {payload : List UInt8} {result : Except Status Bool}
    (h : setCache requestNodeId payload arena = .ok (result, arena')) :
    ∃ actor : Actor K, beginSet requestNodeId payload = .ok actor ∧
      Proceeds (arena, actor) (arena', .finished (.stored result)) := by
  unfold beginSet
  unfold setCache at h
  split at h
  · rename_i hneg
    rw [Except.ok.injEq, Prod.mk.injEq] at h
    obtain ⟨rfl,rfl⟩ := h
    exact ⟨_,if_pos hneg,.refl _⟩
  rename_i hneg
  split at h
  · rename_i hempty
    rw [Except.ok.injEq, Prod.mk.injEq] at h
    obtain ⟨rfl,rfl⟩ := h
    exact ⟨_,by rw [if_neg hneg, if_pos hempty],.refl _⟩
  rename_i hempty
  simp only at h
  split at h
  · rename_i hlong
    rw [Except.ok.injEq, Prod.mk.injEq] at h
    obtain ⟨rfl,rfl⟩ := h
    exact ⟨_,by rw [if_neg hneg, if_neg hempty, if_pos hlong],.refl _⟩
  rename_i hlong
  set nodeId : UInt32 := .ofNat requestNodeId.toNat with hid
  by_cases hrange : nodeId.toNat < totalMaxSlots
  swap
  · simp only [MemoryArena.getNode, hrange, if_false, reduceCtorEq] at h
  refine ⟨.setting nodeId payload .writing,
    by rw [if_neg hneg, if_neg hempty, if_neg hlong]; simp only [hrange, if_true],?_⟩
  simp only [MemoryArena.getNode_of_lt arena hrange] at h
  cases hwrite : arena.writePayload nodeId payload (.ofNat payload.length) with
  | error fault =>
    cases fault with
    | outOfRange i => simp only [hwrite, reduceCtorEq] at h
    | thrown what =>
      simp only [hwrite, Except.ok.injEq, Prod.mk.injEq] at h
      obtain ⟨rfl,rfl⟩ := h
      exact proceeds_set (by simp only [setStep, hwrite])
  | ok written =>
    obtain ⟨newOffset,written⟩ := written
    simp only [hwrite] at h
    set w := (written.metadata nodeId.toNat).controlBlock with hw
    have hstored : Proceeds (K := K) (arena, .setting nodeId payload .writing)
        (written, .setting nodeId payload (.loading newOffset)) :=
      proceeds_set (by simp only [setStep, hwrite])
    have hloaded : Proceeds (arena, .setting nodeId payload .writing)
        (written, publishLoop nodeId payload newOffset w) := hstored.trans (proceeds_set rfl)
    unfold publishLoop at hloaded
    by_cases hpending : NodeState.ofBits (w >>> 62) = .pending
    · simp only [hpending, ne_eq, not_true_eq_false, if_false, Except.ok.injEq,
        Prod.mk.injEq] at h hloaded
      obtain ⟨rfl,rfl⟩ := h
      refine hloaded.trans (proceeds_set ?_)
      rw [hw, written.compareExchange_self]
      simp only [setStep, and_self, if_true]
    · simp only [hpending, ne_eq, not_false_eq_true, if_true, Except.ok.injEq,
        Prod.mk.injEq] at h hloaded
      obtain ⟨rfl,rfl⟩ := h
      exact hloaded

theorem proceeds_collect {phase : CollectorPhase} {s : Stepwise (Vec K)}
    (h : collectorStep ⟨arena,phase⟩ = .ok s) :
    Proceeds (arena, .collector phase) (s.arena, .collector s.phase) := .single (.collecting h)

theorem proceeds_pass (h : arena.runGarbageCollectorPass = .ok arena') :
    Proceeds (K := K) (arena, .collector .idle) (arena', .collector .idle) := by
  have hsteps : ∀ {s s' : Stepwise (Vec K)} {es : List (Beat K)}, Run StepwiseFires s es s' →
      (∀ τ ∈ es, τ.act = .collector) →
      Proceeds (s.arena, .collector s.phase) (s'.arena, .collector s'.phase) := by
    intro s s' es hrun hes
    induction hrun with
    | nil => exact .refl _
    | @snoc t u es turn run fire ih =>
      rw [List.forall_mem_append, List.forall_mem_singleton] at hes
      have hturn : turn = .collector := hes.2
      subst hturn
      exact (ih hes.1).trans (proceeds_collect fire)
  obtain ⟨es,hes,hall⟩ := pass_stepwise h
  exact hsteps hes fun τ hτ => (hall τ hτ).1

end Others

section Pool
variable {K : Type*} [Scoring K] {pool : AtomicPool K} {i : Option ℕ}
  {arena' : MemoryArena (Vec K)} {next : Actor K}

theorem moves_check {query : Vec K} {t : UInt64} {phase : CheckPhase K}
    (hi : pool.threads i = .checking query t phase)
    (h : checkStep query t pool.shared phase = .ok (arena', next)) :
    Moves AtomicStep pool (i, .proceed false) ⟨arena',Function.update pool.threads i next⟩ :=
  moves_update (by rw [hi]; exact .checking h)

theorem run_proceeds (pool : AtomicPool K) (i : Option ℕ)
    (h : Proceeds (pool.shared, pool.threads i) (arena', next)) : ∃ es,
    Run (Moves AtomicStep) pool es ⟨arena',Function.update pool.threads i next⟩ ∧
      ∀ τ ∈ es, τ.act = (i, .proceed false) := by
  obtain ⟨fs,hfs,hall⟩ := h
  obtain ⟨es,hes,hacts⟩ := run_of_solo hfs
  refine ⟨es,hes,fun τ hτ => ?_⟩
  obtain ⟨σ,hσ,hact⟩ := List.mem_map.mp (Transition.act_mem hacts hτ)
  rw [← hact, hall σ hσ]

theorem run_check (pool : AtomicPool K) (id : ℕ) (prompt : List UInt8)
    (embedding : Except String (Vec K)) (t : UInt64) (hidle : pool.threads (some id) = .idle)
    (h : Proceeds (pool.shared, beginCheck prompt embedding t) (arena', next)) : ∃ es,
    Run (Moves AtomicStep) pool es ⟨arena',Function.update pool.threads (some id) next⟩ ∧
      ∀ τ ∈ es, τ.act = (some id, .check prompt embedding t) ∨
        τ.act = (some id, .proceed false) := by
  have hbegin : Moves AtomicStep pool (some id, .check prompt embedding t)
      ⟨pool.shared,Function.update pool.threads (some id) (beginCheck prompt embedding t)⟩ :=
    moves_update (by rw [hidle]; exact .check)
  obtain ⟨es,hes,hall⟩ := run_proceeds
    ⟨pool.shared,Function.update pool.threads (some id) (beginCheck prompt embedding t)⟩ (some id)
    (by simpa only [Function.update_self] using h)
  simp only [Function.update_idem] at hes
  refine ⟨_,Run.cons hbegin hes,fun τ hτ => ?_⟩
  rcases List.mem_cons.mp hτ with rfl | hτ
  · exact .inl rfl
  · exact .inr (hall τ hτ)

theorem run_call {id : ℕ} {act : Call K × Reply} (hcollector : pool.threads none = .collector .idle)
    (hidle : pool.threads (some id) = .idle) (h : Fires pool.shared act arena') : ∃ es pool',
    Run (Moves AtomicStep) pool es pool' ∧ pool'.shared = arena' ∧
      pool'.threads none = .collector .idle ∧
      ∀ j, j ≠ id → pool'.threads (some j) = pool.threads (some j) := by
  rcases fires_cases h with ⟨prompt,embedding,t,result,-,hcheck⟩ |
    ⟨nodeId,payload,result,-,hset⟩ | ⟨-,hpass⟩
  · obtain ⟨es,hes,-⟩ := run_check pool id prompt embedding t hidle (proceeds_checkCache hcheck)
    exact ⟨es,_,hes,rfl,by simpa using hcollector,fun j hj => by simp [hj]⟩
  · obtain ⟨actor,hbegin,hproceeds⟩ := proceeds_setCache hset
    have hmove : Moves AtomicStep pool (some id, .set nodeId payload)
        ⟨pool.shared,Function.update pool.threads (some id) actor⟩ :=
      moves_update (by rw [hidle]; exact .set hbegin)
    obtain ⟨es,hes,-⟩ := run_proceeds
      ⟨pool.shared,Function.update pool.threads (some id) actor⟩ (some id)
      (by simpa only [Function.update_self] using hproceeds)
    exact ⟨_,_,Run.cons hmove hes,rfl,by simpa using hcollector,fun j hj => by simp [hj]⟩
  · obtain ⟨es,hes,-⟩ := run_proceeds pool none (by rw [hcollector]; exact proceeds_pass hpass)
    exact ⟨es,_,hes,rfl,by simp,fun j _ => by simp⟩

/-- The interleaved engine reaches every arena that whole calls reach. -/
theorem atomicRun_of_engineRun {es : List (Step K)} (h : EngineRun es arena') :
    ∃ fs pool, AtomicRun (K := K) fs pool ∧ pool.shared = arena' := by
  suffices ∃ fs pool, AtomicRun (K := K) fs pool ∧ pool.shared = arena' ∧
      pool.threads none = .collector .idle ∧
      ∀ j, es.length ≤ j → pool.threads (some j) = .idle by
    obtain ⟨fs,pool,hrun,hshared,-⟩ := this
    exact ⟨fs,pool,hrun,hshared⟩
  induction h with
  | nil => exact ⟨[],_,.nil _,rfl,rfl,fun _ _ => rfl⟩
  | @snoc u v es act run fire ih =>
    obtain ⟨fs,pool,hrun,rfl,hcollector,hidle⟩ := ih
    obtain ⟨gs,pool',hcall,hshared,hcollector',hother⟩ :=
      run_call hcollector (hidle es.length le_rfl) fire
    refine ⟨_,pool',Run.append hrun hcall,hshared,hcollector',fun j hj => ?_⟩
    rw [List.length_append, List.length_singleton] at hj
    rw [hother j (by omega)]
    exact hidle j (by omega)

end Pool

end Strix
