import Strix.Engine.Alone
import Strix.Semantic.SetOutcome

/-! # What an atomic step does to the nodes

Most steps leave every node and vector alone. The others are the stores and the
successful compare-exchanges; each is listed once with the phase it is taken
from, and every invariant of the interleaved engine is a case analysis over this
list.
-/
namespace Strix
open RunHistory ThreadPool Scoring

variable {K : Type*}

def IsSlot (id : ℤ) : Prop := ∃ i < l0MaxSlots, id = (i : ℕ)

theorem IsSlot.toSize_eq {id : ℤ} (h : IsSlot id) : (toSize id : ℤ) = id := by
  obtain ⟨i,hi,rfl⟩ := h
  have hsmall : i < 1000 := hi
  unfold toSize
  omega

theorem IsSlot.ne {id : ℤ} (h : IsSlot id) : id ≠ -1 := by
  obtain ⟨i,-,rfl⟩ := h
  omega

def Actor.claimed : Actor K → Option ℤ
  | .checking _ _ (.copying id) => some id
  | .checking _ _ (.stamping id) => some id
  | .finished (.checked (.ok ⟨.miss,id,_⟩)) => if id = -1 then none else some id
  | _ => none

/-- The node on which the thread stands between a compare-exchange and its last
store. -/
def Actor.window : Actor K → Option ℕ
  | .checking _ _ (.resetting i _) => some i
  | .checking _ _ (.copying id) => some (toSize id)
  | .checking _ _ (.stamping id) => some (toSize id)
  | .collector (.resetting header) => some header.nodeId.toNat
  | _ => none

/-- The node that the collector is about to evict, with the word it has loaded. -/
def Actor.evicting : Actor K → Option (ℕ × UnpackedControl)
  | .collector (.evicting header ctrl) => some (header.nodeId.toNat, ctrl)
  | _ => none

def Actor.published : Actor K → Bool
  | .finished (.stored (.ok success)) => success
  | _ => false

def Actor.isCollector : Actor K → Bool
  | .collector _ => true
  | _ => false

structure Actor.Calm (actor : Actor K) : Prop where
  client : actor.isCollector = false
  claimed : actor.claimed = none
  window : actor.window = none
  evicting : actor.evicting = none
  published : actor.published = false

theorem beginCheck_calm [Scoring K] (prompt : List UInt8) (embedding : Except String (Vec K))
    (t : UInt64) : (beginCheck prompt embedding t).Calm := by
  unfold beginCheck
  split
  · exact ⟨rfl,rfl,rfl,rfl,rfl⟩
  · cases embedding <;> exact ⟨rfl,rfl,rfl,rfl,rfl⟩

theorem beginClaim_calm (query : Vec K) (t : UInt64) (id : ℤ) : (beginClaim query t id).Calm := by
  unfold beginClaim
  split <;> exact ⟨rfl,rfl,rfl,rfl,rfl⟩

theorem beginSet_cases {nodeId : ℤ} {payload : List UInt8} {actor : Actor K}
    (h : beginSet nodeId payload = .ok actor) :
    (∃ status, actor = .finished (.stored (.error status))) ∨
      ∃ node, actor = .setting node payload .writing := by
  unfold beginSet at h
  split at h
  · exact .inl ⟨_,(Except.ok.inj h).symm⟩
  split at h
  · exact .inl ⟨_,(Except.ok.inj h).symm⟩
  split at h
  · exact .inl ⟨_,(Except.ok.inj h).symm⟩
  simp only at h
  split at h
  · exact .inr ⟨_,(Except.ok.inj h).symm⟩
  · simp only [reduceCtorEq] at h

theorem beginSet_calm {nodeId : ℤ} {payload : List UInt8} {actor : Actor K}
    (h : beginSet nodeId payload = .ok actor) : actor.Calm := by
  rcases beginSet_cases h with ⟨status,rfl⟩ | ⟨node,rfl⟩ <;> exact ⟨rfl,rfl,rfl,rfl,rfl⟩

theorem publishLoop_calm (nodeId : UInt32) (payload : List UInt8) (offset w : UInt64) :
    (publishLoop nodeId payload offset w : Actor K).Calm := by
  unfold publishLoop
  split <;> exact ⟨rfl,rfl,rfl,rfl,rfl⟩

section Moves

/-- An atomic step, by what it does to the nodes and vectors. -/
inductive NodeMove (arena : MemoryArena (Vec K)) : Actor K → MemoryArena (Vec K) → Actor K → Prop
  | quiet {actor actor' : Actor K} {arena' : MemoryArena (Vec K)}
    (metadata : arena'.metadata = arena.metadata) (vectors : arena'.vectors = arena.vectors)
    (same : actor'.isCollector = actor.isCollector) (unclaimed : actor.claimed = none)
    (outside : actor.window = none) (claimed : actor'.claimed = none)
    (window : actor'.window = none) (published : actor'.published = false)
    (evicting : ∀ n ctrl, actor'.evicting = some (n, ctrl) →
      ctrl = (arena.metadata n).loadControl) : NodeMove arena actor arena' actor'
  | expire {query : Vec K} {t birthTime : UInt64} {i : ℕ} {scan scan' : Scan K}
    {ctrl : UnpackedControl} (loaded : (arena.metadata i).loadControl = ctrl) :
    NodeMove arena
      (.checking query t (.expiring i scan (arena.metadata i).controlBlock birthTime))
      (arena.storeControl i (packControl .dead ctrl.refBit ctrl.length ctrl.virtualOffset))
      (.checking query t (.resetting i scan'))
  | reset {query : Vec K} {t : UInt64} {i : ℕ} {scan : Scan K} :
    NodeMove arena (.checking query t (.resetting i scan)) (arena.storeCreatedAt i 0)
      (.checking query t (.scanning (i + 1) scan))
  | claim {query : Vec K} {t : UInt64} {id : ℤ} :
    NodeMove arena
      (.checking query t (.exchanging id (arena.metadata (toSize id)).controlBlock))
      (arena.storeControl (toSize id) (packControl .pending .hot 0 0))
      (.checking query t (.copying id))
  | copy {query : Vec K} {t : UInt64} {id : ℤ} :
    NodeMove arena (.checking query t (.copying id)) (arena.storeVector (toSize id) query)
      (.checking query t (.stamping id))
  | stamp {query : Vec K} {t : UInt64} {id : ℤ} :
    NodeMove arena (.checking query t (.stamping id)) (arena.storeCreatedAt (toSize id) t)
      (.finished (.checked (.ok ⟨.miss,id,[]⟩)))
  | touch {query : Vec K} {t : UInt64} {n : ℕ} {payload : List UInt8} {ctrl : UnpackedControl}
    (loaded : (arena.metadata n).loadControl = ctrl) :
    NodeMove arena (.checking query t (.touching n (arena.metadata n).controlBlock payload))
      (arena.storeControl n (packControl ctrl.state .hot ctrl.length ctrl.virtualOffset))
      (.finished (.checked (.ok ⟨.hit,-1,payload⟩)))
  | publish {nodeId : UInt32} {payload : List UInt8} {newOffset : UInt64} :
    NodeMove arena
      (.setting nodeId payload
        (.exchanging newOffset (arena.metadata nodeId.toNat).controlBlock))
      (arena.storeControl nodeId.toNat
        (packControl .ready .hot (.ofNat payload.length) newOffset))
      (.finished (.stored (.ok true)))
  | evict {header : PayloadHeader} {ctrl : UnpackedControl}
    (loaded : (arena.metadata header.nodeId.toNat).controlBlock =
      packControl ctrl.state ctrl.refBit ctrl.length ctrl.virtualOffset) :
    NodeMove arena (.collector (.evicting header ctrl))
      (arena.storeControl header.nodeId.toNat
        (packControl .dead ctrl.refBit ctrl.length ctrl.virtualOffset))
      (.collector (.resetting header))
  | evictMissed {header : PayloadHeader} {ctrl : UnpackedControl}
    (other : (arena.metadata header.nodeId.toNat).controlBlock ≠
      packControl ctrl.state ctrl.refBit ctrl.length ctrl.virtualOffset) :
    NodeMove arena (.collector (.evicting header ctrl)) arena (.collector (.resetting header))
  | clear {header : PayloadHeader} {n : UInt64} :
    NodeMove arena (.collector (.resetting header))
      (arena.storeCreatedAt header.nodeId.toNat 0) (.collector (.advancing n))
  | rehome {header : PayloadHeader} {ctrl : UnpackedControl} {rescuedOffset n : UInt64}
    (loaded : (arena.metadata header.nodeId.toNat).controlBlock =
      packControl ctrl.state .hot ctrl.length ctrl.virtualOffset) :
    NodeMove arena (.collector (.rehoming header ctrl rescuedOffset))
      (arena.storeControl header.nodeId.toNat
        (packControl ctrl.state .cold ctrl.length rescuedOffset))
      (.collector (.advancing n))

variable {arena arena' : MemoryArena (Vec K)} {actor actor' : Actor K}

theorem NodeMove.load (client : actor.isCollector = false) (unclaimed : actor.claimed = none)
    (outside : actor.window = none) (calm : actor'.Calm) : NodeMove arena actor arena actor' :=
  .quiet rfl rfl (calm.client.trans client.symm) unclaimed outside calm.claimed calm.window
    calm.published (by simp [calm.evicting])

theorem NodeMove.turn {phase phase' : CollectorPhase} (metadata : arena'.metadata = arena.metadata)
    (vectors : arena'.vectors = arena.vectors)
    (outside : (.collector phase : Actor K).window = none)
    (window : (.collector phase' : Actor K).window = none)
    (evicting : (.collector phase' : Actor K).evicting = none) :
    NodeMove arena (.collector phase) arena' (.collector phase') :=
  .quiet metadata vectors rfl rfl outside rfl window rfl (by simp [evicting])

theorem NodeMove.collector_eq (h : NodeMove arena actor arena' actor') :
    actor'.isCollector = actor.isCollector := by
  cases h with
  | quiet _ _ same => exact same
  | _ => rfl

variable [Scoring K]

theorem checkStep_expiring {query : Vec K} {t w birthTime : UInt64} {i : ℕ} {scan : Scan K}
    (h : checkStep query t arena (.expiring i scan w birthTime) = .ok (arena', actor')) :
    ((arena.metadata i).controlBlock = w ∧
      arena' = arena.storeControl i (packControl .dead (unpackControl w).refBit
        (unpackControl w).length (unpackControl w).virtualOffset) ∧
      actor' = .checking query t (.resetting i { scan with
        reusableNodeId := if scan.reusableNodeId = -1 then i else scan.reusableNodeId })) ∨
    (arena' = arena ∧ actor' = .checking query t (.scanning (i + 1) scan)) := by
  by_cases hw : (arena.metadata i).controlBlock = w
  · subst hw
    simp only [checkStep, arena.compareExchange_self, if_true, Except.ok.injEq,
      Prod.mk.injEq] at h
    exact .inl ⟨rfl,h.1.symm,h.2.symm⟩
  · simp only [checkStep, arena.compareExchange_of_ne i _ hw, Bool.false_eq_true, if_false,
      Except.ok.injEq, Prod.mk.injEq] at h
    exact .inr ⟨h.1.symm,h.2.symm⟩

theorem checkStep_exchanging {query : Vec K} {t w : UInt64} {id : ℤ}
    (h : checkStep query t arena (.exchanging id w) = .ok (arena', actor')) :
    ((arena.metadata (toSize id)).controlBlock = w ∧
      arena' = arena.storeControl (toSize id) (packControl .pending .hot 0 0) ∧
      actor' = .checking query t (.copying id)) ∨
    (arena' = arena ∧ actor' = .finished (.checked (.ok ⟨.miss,-1,[]⟩))) := by
  by_cases hw : (arena.metadata (toSize id)).controlBlock = w
  · subst hw
    simp only [checkStep, arena.compareExchange_self, if_true, Except.ok.injEq,
      Prod.mk.injEq] at h
    exact .inl ⟨rfl,h.1.symm,h.2.symm⟩
  · simp only [checkStep, arena.compareExchange_of_ne _ _ hw, Bool.false_eq_true, if_false,
      Except.ok.injEq, Prod.mk.injEq] at h
    exact .inr ⟨h.1.symm,h.2.symm⟩

theorem checkStep_move {query : Vec K} {t : UInt64} {phase : CheckPhase K}
    (h : checkStep query t arena phase = .ok (arena', actor')) :
    NodeMove arena (.checking query t phase) arena' actor' := by
  cases phase with
  | scanning i scan =>
    simp only [checkStep] at h
    split at h
    · split at h <;> obtain ⟨rfl,rfl⟩ := Prod.mk.inj (Except.ok.inj h) <;>
        exact .load rfl rfl rfl ⟨rfl,rfl,rfl,rfl,rfl⟩
    · split at h <;> obtain ⟨rfl,rfl⟩ := Prod.mk.inj (Except.ok.inj h)
      · exact .load rfl rfl rfl ⟨rfl,rfl,rfl,rfl,rfl⟩
      · exact .load rfl rfl rfl (beginClaim_calm ..)
  | aging i scan w =>
    simp only [checkStep] at h
    split at h
    · obtain ⟨rfl,rfl⟩ := Prod.mk.inj (Except.ok.inj h)
      exact .load rfl rfl rfl ⟨rfl,rfl,rfl,rfl,rfl⟩
    · split at h <;> obtain ⟨rfl,rfl⟩ := Prod.mk.inj (Except.ok.inj h) <;>
        exact .load rfl rfl rfl ⟨rfl,rfl,rfl,rfl,rfl⟩
  | expiring i scan w birthTime =>
    rcases checkStep_expiring h with ⟨rfl,rfl,rfl⟩ | ⟨rfl,rfl⟩
    · exact .expire rfl
    · exact .load rfl rfl rfl ⟨rfl,rfl,rfl,rfl,rfl⟩
  | resetting i scan =>
    obtain ⟨rfl,rfl⟩ := Prod.mk.inj (Except.ok.inj h)
    exact .reset
  | scoring i scan =>
    obtain ⟨rfl,rfl⟩ := Prod.mk.inj (Except.ok.inj h)
    exact .load rfl rfl rfl ⟨rfl,rfl,rfl,rfl,rfl⟩
  | answering scan =>
    simp only [checkStep] at h
    split at h
    · simp only [reduceCtorEq] at h
    · split at h <;> obtain ⟨rfl,rfl⟩ := Prod.mk.inj (Except.ok.inj h)
      · exact .load rfl rfl rfl ⟨rfl,rfl,rfl,rfl,rfl⟩
      · exact .load rfl rfl rfl ⟨rfl,rfl,rfl,rfl,rfl⟩
      · exact .load rfl rfl rfl ⟨rfl,rfl,rfl,rfl,rfl⟩
      · exact .load rfl rfl rfl (beginClaim_calm ..)
  | reading n w =>
    obtain ⟨rfl,rfl⟩ := Prod.mk.inj (Except.ok.inj h)
    exact .load rfl rfl rfl ⟨rfl,rfl,rfl,rfl,rfl⟩
  | touching n w payload =>
    obtain ⟨rfl,rfl⟩ := Prod.mk.inj (Except.ok.inj h)
    by_cases hw : (arena.metadata n).controlBlock = w
    · subst hw
      rw [arena.compareExchange_self]
      exact .touch rfl
    · rw [arena.compareExchange_of_ne n _ hw]
      exact .load rfl rfl rfl ⟨rfl,rfl,rfl,rfl,rfl⟩
  | claiming id =>
    simp only [checkStep] at h
    split at h
    · simp only [reduceCtorEq] at h
    · split at h <;> obtain ⟨rfl,rfl⟩ := Prod.mk.inj (Except.ok.inj h) <;>
        exact .load rfl rfl rfl ⟨rfl,rfl,rfl,rfl,rfl⟩
  | exchanging id w =>
    rcases checkStep_exchanging h with ⟨rfl,rfl,rfl⟩ | ⟨rfl,rfl⟩
    · exact .claim
    · exact .load rfl rfl rfl ⟨rfl,rfl,rfl,rfl,rfl⟩
  | copying id =>
    obtain ⟨rfl,rfl⟩ := Prod.mk.inj (Except.ok.inj h)
    exact .copy
  | stamping id =>
    obtain ⟨rfl,rfl⟩ := Prod.mk.inj (Except.ok.inj h)
    exact .stamp

theorem checkStep_next {query : Vec K} {t : UInt64} {phase : CheckPhase K}
    (h : checkStep query t arena phase = .ok (arena', actor')) :
    (∃ phase', actor' = .checking query t phase') ∨
      ∃ result, actor' = .finished (.checked result) := by
  have hclaim : ∀ id, (∃ phase', beginClaim query t id = .checking query t phase') ∨
      ∃ result, beginClaim query t id = .finished (.checked result) := by
    intro id
    unfold beginClaim
    split
    · exact .inr ⟨_,rfl⟩
    · exact .inl ⟨_,rfl⟩
  cases phase <;> simp only [checkStep] at h <;> (repeat' split at h) <;>
    first
    | simp only [reduceCtorEq] at h
    | (obtain ⟨-,rfl⟩ := Prod.mk.inj (Except.ok.inj h)
       first | exact .inl ⟨_,rfl⟩ | exact .inr ⟨_,rfl⟩ | exact hclaim _)

omit [Scoring K] in
theorem setStep_move {nodeId : UInt32} {payload : List UInt8} {spurious : Bool} {phase : SetPhase}
    (h : setStep nodeId payload spurious arena phase = .ok (arena', actor')) :
    NodeMove arena (.setting nodeId payload phase) arena' actor' := by
  have hloop : ∀ offset w, NodeMove arena (.setting nodeId payload phase) arena
      (publishLoop nodeId payload offset w : Actor K) := fun offset w =>
    .load rfl rfl rfl (publishLoop_calm nodeId payload offset w)
  cases phase with
  | writing =>
    simp only [setStep] at h
    cases hwrite : arena.writePayload nodeId payload (.ofNat payload.length) with
    | error fault =>
      cases fault with
      | outOfRange i => simp only [hwrite, reduceCtorEq] at h
      | thrown what =>
        simp only [hwrite, Except.ok.injEq, Prod.mk.injEq] at h
        obtain ⟨rfl,rfl⟩ := h
        exact .load rfl rfl rfl ⟨rfl,rfl,rfl,rfl,rfl⟩
    | ok written =>
      obtain ⟨offset,written⟩ := written
      simp only [hwrite, Except.ok.injEq, Prod.mk.injEq] at h
      obtain ⟨rfl,rfl⟩ := h
      obtain ⟨hmeta,hvec,-⟩ := writePayload_fields hwrite
      exact .quiet hmeta hvec rfl rfl rfl rfl rfl rfl (by simp [Actor.evicting])
  | loading offset =>
    obtain ⟨rfl,rfl⟩ := Prod.mk.inj (Except.ok.inj h)
    exact hloop _ _
  | exchanging offset w =>
    simp only [setStep] at h
    split at h <;> obtain ⟨rfl,rfl⟩ := Prod.mk.inj (Except.ok.inj h)
    · rename_i hexchange
      obtain ⟨rfl,-⟩ := hexchange
      exact .publish
    · exact hloop _ _

omit [Scoring K] in
theorem setStep_next {nodeId : UInt32} {payload : List UInt8} {spurious : Bool} {phase : SetPhase}
    (h : setStep nodeId payload spurious arena phase = .ok (arena', actor')) :
    (∃ phase', actor' = .setting nodeId payload phase') ∨
      ∃ result, actor' = .finished (.stored result) := by
  have hloop : ∀ offset w,
      (∃ phase', (publishLoop nodeId payload offset w : Actor K) =
        .setting nodeId payload phase') ∨
      ∃ result, (publishLoop nodeId payload offset w : Actor K) = .finished (.stored result) := by
    intro offset w
    unfold publishLoop
    split
    · exact .inr ⟨_,rfl⟩
    · exact .inl ⟨_,rfl⟩
  cases phase <;> simp only [setStep] at h <;> (repeat' split at h) <;>
    first
    | simp only [reduceCtorEq] at h
    | (obtain ⟨-,rfl⟩ := Prod.mk.inj (Except.ok.inj h)
       first | exact .inl ⟨_,rfl⟩ | exact .inr ⟨_,rfl⟩ | exact hloop _ _)

omit [Scoring K] in
theorem collectorStep_move {phase : CollectorPhase} {s : Stepwise (Vec K)}
    (h : collectorStep ⟨arena,phase⟩ = .ok s) :
    NodeMove arena (.collector phase) s.arena (.collector s.phase) := by
  cases phase with
  | idle =>
    simp only [collectorStep] at h
    split at h <;> obtain rfl := Except.ok.inj h <;>
      exact .turn rfl rfl rfl rfl rfl
  | found tail header =>
    simp only [collectorStep] at h
    split at h
    · simp only [reduceCtorEq] at h
    rename_i node hnode
    obtain rfl := arena.getNode_eq hnode
    split at h
    · obtain rfl := Except.ok.inj h
      exact .turn rfl rfl rfl rfl rfl
    split at h <;> obtain rfl := Except.ok.inj h
    · refine .quiet rfl rfl rfl rfl rfl rfl rfl rfl ?_
      rintro n ctrl hevict
      obtain ⟨rfl,rfl⟩ := Prod.mk.inj (Option.some.inj hevict)
      rfl
    · exact .turn rfl rfl rfl rfl rfl
  | evicting header ctrl =>
    obtain rfl := Except.ok.inj h
    simp only [MemoryArena.evictExchange]
    by_cases hw : (arena.metadata header.nodeId.toNat).controlBlock =
        packControl ctrl.state ctrl.refBit ctrl.length ctrl.virtualOffset
    · rw [← hw, arena.compareExchange_self]
      exact .evict hw
    · rw [arena.compareExchange_of_ne _ _ hw]
      exact .evictMissed hw
  | resetting header =>
    obtain rfl := Except.ok.inj h
    exact .clear
  | rescuing tail header ctrl =>
    simp only [collectorStep] at h
    split at h
    · simp only [reduceCtorEq] at h
    rename_i offset rescued hrescue
    obtain rfl := Except.ok.inj h
    obtain ⟨hmeta,hvec,-⟩ := rescuePayload_fields hrescue
    exact .turn hmeta hvec rfl rfl rfl
  | rehoming header ctrl offset =>
    obtain rfl := Except.ok.inj h
    simp only [MemoryArena.rehomeExchange]
    by_cases hw : (arena.metadata header.nodeId.toNat).controlBlock =
        packControl ctrl.state .hot ctrl.length ctrl.virtualOffset
    · rw [← hw, arena.compareExchange_self]
      exact .rehome hw
    · rw [arena.compareExchange_of_ne _ _ hw]
      exact .turn rfl rfl rfl rfl rfl
  | advancing n =>
    obtain rfl := Except.ok.inj h
    exact .turn rfl rfl rfl rfl rfl

/-- Every atomic step is on the list. -/
theorem atomicStep_move {action : Action K} (h : AtomicStep arena actor action arena' actor') :
    NodeMove arena actor arena' actor' := by
  cases h with
  | check => exact .load rfl rfl rfl (beginCheck_calm ..)
  | set h => exact .load rfl rfl rfl (beginSet_calm h)
  | checking h => exact checkStep_move h
  | setting h => exact setStep_move h
  | collecting h => exact collectorStep_move h

theorem AtomicStep.running {action : Action K} (h : AtomicStep arena actor action arena' actor')
    (reply : Reply) : actor ≠ .finished reply := by
  cases h <;> simp

theorem AtomicStep.of_checking {action : Action K} {query : Vec K} {t : UInt64}
    {phase : CheckPhase K} (h : AtomicStep arena actor action arena' (.checking query t phase)) :
    (actor = .idle ∧ ∃ prompt, action = .check prompt (.ok query) t) ∨
      ∃ phase', actor = .checking query t phase' := by
  generalize hnext : Actor.checking query t phase = next at h
  cases h with
  | @check prompt embedding t' =>
    unfold beginCheck at hnext
    split at hnext
    · cases hnext
    · cases embedding with
      | error what => cases hnext
      | ok query' =>
        cases hnext
        exact .inl ⟨rfl,prompt,rfl⟩
  | set hset => rcases beginSet_cases hset with ⟨status,rfl⟩ | ⟨node,rfl⟩ <;> cases hnext
  | checking hcheck =>
    rcases checkStep_next hcheck with ⟨phase',rfl⟩ | ⟨result,rfl⟩
    · cases hnext
      exact .inr ⟨_,rfl⟩
    · cases hnext
  | setting hset =>
    rcases setStep_next hset with ⟨phase',rfl⟩ | ⟨result,rfl⟩ <;> cases hnext
  | collecting => cases hnext

theorem check_begun {es : List (AtomicBeat K)} {pool : AtomicPool K}
    (hrun : Run (Moves AtomicStep) (startAtomic arena) es pool) {i : Option ℕ} {query : Vec K}
    {t : UInt64} {phase : CheckPhase K} (hi : pool.threads i = .checking query t phase) :
    ∃ τ ∈ es, ∃ prompt, τ.act = (i, .check prompt (.ok query) t) := by
  refine hrun.historyInvariant (I := fun es u => ∀ phase,
      u.threads i = .checking query t phase →
        ∃ τ ∈ es, ∃ prompt, τ.act = (i, .check prompt (.ok query) t))
    (P := fun _ => True) ?_ (fun _ _ => trivial) ?_ phase hi
  · intro es τ hmove _ ih phase hphase
    by_cases hτ : i = τ.act.1
    · subst hτ
      have hown := hmove.own
      rw [hphase] at hown
      rcases hown.of_checking with ⟨-,prompt,haction⟩ | ⟨phase',hold⟩
      · exact ⟨τ,by simp,prompt,Prod.ext rfl haction⟩
      · obtain ⟨σ,hσ,hbegun⟩ := ih phase' hold
        exact ⟨σ,by simp [hσ],hbegun⟩
    · rw [hmove.others i hτ] at hphase
      obtain ⟨σ,hσ,hbegun⟩ := ih phase hphase
      exact ⟨σ,by simp [hσ],hbegun⟩
  · intro phase hphase
    cases i <;> cases hphase

end Moves

section WellFormed
variable [Scoring K]

structure Scan.InRange (scan : Scan K) : Prop where
  best : (scan.bestNodeId = -1 ∧ scan.maxScore = minusOne) ∨ IsSlot scan.bestNodeId
  reusable : scan.reusableNodeId = -1 ∨ IsSlot scan.reusableNodeId

def CheckPhase.WellFormed (t : UInt64) : CheckPhase K → Prop
  | .scanning _ scan => scan.InRange
  | .aging i scan w => i < l0MaxSlots ∧ scan.InRange ∧ (unpackControl w).state = .pending
  | .expiring i scan w birthTime => i < l0MaxSlots ∧ scan.InRange ∧
      (unpackControl w).state = .pending ∧ birthTime ≠ 0 ∧
        pendingLifespan.toUInt64 < t - birthTime
  | .resetting i scan => i < l0MaxSlots ∧ scan.InRange
  | .scoring i scan => i < l0MaxSlots ∧ scan.InRange
  | .answering scan => IsSlot scan.bestNodeId
  | .reading _ w => (unpackControl w).state = .ready ∨ (unpackControl w).state = .migrating
  | .touching _ w _ => (unpackControl w).state = .ready ∨ (unpackControl w).state = .migrating
  | .claiming id => IsSlot id
  | .exchanging id w => IsSlot id ∧ (unpackControl w).state = .dead
  | .copying id => IsSlot id
  | .stamping id => IsSlot id

def Actor.WellFormed : Actor K → Prop
  | .checking _ t phase => phase.WellFormed t
  | .setting _ _ (.exchanging _ w) => (unpackControl w).state = .pending
  | .finished (.checked (.ok ⟨.miss,id,_⟩)) => id = -1 ∨ IsSlot id
  | _ => True

variable {arena arena' : MemoryArena (Vec K)} {actor actor' : Actor K}

theorem Scan.InRange.reuse {scan : Scan K} (h : scan.InRange) {i : ℕ} (hi : i < l0MaxSlots)
    (p : Prop) [Decidable p] :
    ({ scan with
      reusableNodeId := if p then (i : ℤ) else scan.reusableNodeId } : Scan K).InRange := by
  refine ⟨h.best,?_⟩
  simp only
  split
  · exact .inr ⟨i,hi,rfl⟩
  · exact h.reusable

theorem Scan.InRange.score {scan : Scan K} (h : scan.InRange) {i : ℕ} (hi : i < l0MaxSlots)
    (query vector : Vec K) : (scoreSlot query vector i scan).InRange := by
  refine ⟨?_,h.reusable⟩
  simp only [scoreSlot]
  split
  · exact .inr ⟨i,hi,rfl⟩
  · exact h.best

theorem beginClaim_wellFormed {query : Vec K} {t : UInt64} {id : ℤ} (h : id = -1 ∨ IsSlot id) :
    (beginClaim query t id).WellFormed := by
  unfold beginClaim
  split
  · trivial
  · rename_i hid
    exact h.resolve_left hid

theorem checkStep_wellFormed {query : Vec K} {t : UInt64} {phase : CheckPhase K}
    (h : checkStep query t arena phase = .ok (arena', actor')) (hphase : phase.WellFormed t) :
    actor'.WellFormed := by
  cases phase with
  | scanning i scan =>
    have hscan : scan.InRange := hphase
    simp only [checkStep] at h
    split at h
    · rename_i hi
      have hreuse := hscan.reuse hi
        ((unpackControl (arena.metadata i).controlBlock).state = .dead ∧ scan.reusableNodeId = -1)
      split at h <;> obtain ⟨rfl,rfl⟩ := Prod.mk.inj (Except.ok.inj h)
      · exact ⟨hi,hreuse,by assumption⟩
      · exact ⟨hi,hreuse⟩
      · exact ⟨hi,hreuse⟩
      · exact hreuse
    · split at h <;> obtain ⟨rfl,rfl⟩ := Prod.mk.inj (Except.ok.inj h)
      · rename_i hbest
        refine hscan.best.resolve_left fun hnone => ?_
        rw [hnone.2, minusOne_below] at hbest
        exact Bool.false_ne_true hbest
      · exact beginClaim_wellFormed hscan.reusable
  | aging i scan w =>
    obtain ⟨hi,hscan,hpending⟩ := hphase
    simp only [checkStep] at h
    split at h
    · obtain ⟨rfl,rfl⟩ := Prod.mk.inj (Except.ok.inj h)
      exact hscan
    rename_i hbirth
    split at h <;> obtain ⟨rfl,rfl⟩ := Prod.mk.inj (Except.ok.inj h)
    · exact ⟨hi,hscan,hpending,hbirth,by assumption⟩
    · exact ⟨hi,hscan⟩
  | expiring i scan w birthTime =>
    obtain ⟨hi,hscan,-⟩ := hphase
    simp only [checkStep] at h
    split at h <;> obtain ⟨rfl,rfl⟩ := Prod.mk.inj (Except.ok.inj h)
    · exact ⟨hi,hscan.reuse hi (scan.reusableNodeId = -1)⟩
    · exact hscan
  | resetting i scan =>
    obtain ⟨rfl,rfl⟩ := Prod.mk.inj (Except.ok.inj h)
    exact hphase.2
  | scoring i scan =>
    obtain ⟨rfl,rfl⟩ := Prod.mk.inj (Except.ok.inj h)
    exact hphase.2.score hphase.1 _ _
  | answering scan =>
    simp only [checkStep] at h
    split at h
    · simp only [reduceCtorEq] at h
    rename_i node hnode
    split at h <;> rename_i hstate <;> obtain ⟨rfl,rfl⟩ := Prod.mk.inj (Except.ok.inj h)
    · exact .inl hstate
    · exact .inr hstate
    · trivial
    · exact beginClaim_wellFormed (.inr hphase)
  | reading n w =>
    obtain ⟨rfl,rfl⟩ := Prod.mk.inj (Except.ok.inj h)
    exact hphase
  | touching n w payload =>
    obtain ⟨rfl,rfl⟩ := Prod.mk.inj (Except.ok.inj h)
    trivial
  | claiming id =>
    simp only [checkStep] at h
    split at h
    · simp only [reduceCtorEq] at h
    split at h <;> obtain ⟨rfl,rfl⟩ := Prod.mk.inj (Except.ok.inj h)
    · exact ⟨hphase,by assumption⟩
    · exact .inl rfl
  | exchanging id w =>
    simp only [checkStep] at h
    split at h <;> obtain ⟨rfl,rfl⟩ := Prod.mk.inj (Except.ok.inj h)
    · exact hphase.1
    · exact .inl rfl
  | copying id =>
    obtain ⟨rfl,rfl⟩ := Prod.mk.inj (Except.ok.inj h)
    exact hphase
  | stamping id =>
    obtain ⟨rfl,rfl⟩ := Prod.mk.inj (Except.ok.inj h)
    exact .inr hphase

theorem publishLoop_wellFormed (nodeId : UInt32) (payload : List UInt8) (offset w : UInt64) :
    (publishLoop nodeId payload offset w : Actor K).WellFormed := by
  unfold publishLoop
  split
  · trivial
  · rename_i hpending
    exact not_not.mp hpending

theorem atomicStep_wellFormed {action : Action K}
    (h : AtomicStep arena actor action arena' actor') (hactor : actor.WellFormed) :
    actor'.WellFormed := by
  cases h with
  | @check prompt embedding t =>
    unfold beginCheck
    split
    · trivial
    · cases embedding with
      | error what => trivial
      | ok query => exact ⟨.inl ⟨rfl,rfl⟩,.inl rfl⟩
  | set h => rcases beginSet_cases h with ⟨status,rfl⟩ | ⟨node,rfl⟩ <;> trivial
  | checking h => exact checkStep_wellFormed h hactor
  | @setting _ nodeId payload phase spurious _ h =>
    cases phase with
    | writing =>
      simp only [setStep] at h
      split at h
      · obtain ⟨rfl,rfl⟩ := Prod.mk.inj (Except.ok.inj h)
        trivial
      · simp only [reduceCtorEq] at h
      · obtain ⟨rfl,rfl⟩ := Prod.mk.inj (Except.ok.inj h)
        trivial
    | loading offset =>
      obtain ⟨rfl,rfl⟩ := Prod.mk.inj (Except.ok.inj h)
      exact publishLoop_wellFormed ..
    | exchanging offset w =>
      simp only [setStep] at h
      split at h <;> obtain ⟨rfl,rfl⟩ := Prod.mk.inj (Except.ok.inj h)
      · trivial
      · exact publishLoop_wellFormed ..
  | collecting h => trivial

/-- What holds of every thread in every interleaving: its phase is well formed, and
it is the collector exactly if it is the thread set aside for it. -/
theorem atomic_threads {es : List (AtomicBeat K)} {pool : AtomicPool K}
    (hrun : Run (Moves AtomicStep) (startAtomic arena) es pool) (i : Option ℕ) :
    (pool.threads i).WellFormed ∧ (pool.threads i).isCollector = i.isNone := by
  refine run_local (J := fun i actor => actor.WellFormed ∧ actor.isCollector = i.isNone) ?_ hrun
    ?_ i
  · rintro i s l a s' l' hstep ⟨hwell,hsame⟩
    exact ⟨atomicStep_wellFormed hstep hwell,(atomicStep_move hstep).collector_eq.trans hsame⟩
  · intro i
    cases i <;> exact ⟨trivial,rfl⟩

end WellFormed

end Strix
