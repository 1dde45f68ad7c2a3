import Strix.Foundation.StepBudget
import Strix.Ring.Hit
import Strix.Semantic.NodeMove

/-! # No call of the service waits for another

`CheckCache` gives up where a compare-exchange fails, so its steps are bounded whatever
the other threads do. The publish loop of `SetCache` turns again only when its exchange
has failed spuriously or somebody else has changed the node's control word.
-/
namespace Strix
open RunHistory ThreadPool Scoring

section Model
variable {K : Type*}

/-- How many steps a `CheckCache` has before it at most. -/
def CheckPhase.rank : CheckPhase K → ℕ
  | .scanning i _ => 6 + 4 * (l0MaxSlots - i)
  | .aging i _ _ => 9 + 4 * (l0MaxSlots - (i + 1))
  | .expiring i _ _ _ => 8 + 4 * (l0MaxSlots - (i + 1))
  | .resetting i _ | .scoring i _ => 7 + 4 * (l0MaxSlots - (i + 1))
  | .answering _ => 5
  | .claiming _ => 4
  | .exchanging _ _ => 3
  | .reading _ _ | .copying _ => 2
  | .touching _ _ _ | .stamping _ => 1

/-- How many steps a `SetCache` has before it while nobody else changes the word `w`. -/
def SetPhase.rank (w : UInt64) : SetPhase → ℕ
  | .writing => 3
  | .loading _ => 2
  | .exchanging _ expectedControl => if expectedControl = w then 1 else 2

def Actor.rank (n : ℕ) (arena : MemoryArena (Vec K)) : Actor K → ℕ
  | .checking _ _ phase => phase.rank
  | .setting _ _ phase => phase.rank (arena.metadata n).controlBlock
  | .collector _ | .idle | .finished _ => 0

/-- The step is an exchange of the publish loop that fails on the word it expects. -/
def Actor.failsSpuriously (arena : MemoryArena (Vec K)) : Actor K → Action K → Bool
  | .setting nodeId _ (.exchanging _ expectedControl), .proceed true =>
    expectedControl = (arena.metadata nodeId.toNat).controlBlock
  | _, _ => false

end Model

section Steps
variable {K : Type*} [Scoring K] {arena arena' : MemoryArena (Vec K)} {actor actor' : Actor K}
  {query : Vec K} {t : UInt64} {phase : CheckPhase K} {n : ℕ}

omit [Scoring K] in
theorem beginClaim_rank (id : ℤ) : (beginClaim query t id).rank n arena ≤ 4 := by
  unfold beginClaim
  split
  · exact Nat.zero_le _
  · exact le_rfl

omit [Scoring K] in
theorem scanning_rank {i : ℕ} (hi : i < l0MaxSlots) (scan : Scan K) :
    (CheckPhase.scanning i scan).rank = 10 + 4 * (l0MaxSlots - (i + 1)) := by
  simp only [CheckPhase.rank]
  omega

theorem checkStep_rank (h : checkStep query t arena phase = .ok (arena', actor')) :
    actor'.rank n arena' + 1 ≤ phase.rank := by
  cases phase with
  | scanning i scan =>
    simp only [checkStep] at h
    split at h
    · rename_i hi
      rw [scanning_rank hi]
      split at h <;> obtain ⟨-,rfl⟩ := Prod.mk.inj (Except.ok.inj h) <;>
        simp only [Actor.rank, CheckPhase.rank] <;> omega
    · have hrest : 6 ≤ (CheckPhase.scanning i scan).rank := Nat.le_add_right _ _
      split at h <;> obtain ⟨-,rfl⟩ := Prod.mk.inj (Except.ok.inj h)
      · exact hrest
      · have : (beginClaim query t scan.reusableNodeId).rank n arena' ≤ 4 := beginClaim_rank _
        omega
  | aging i scan w =>
    simp only [checkStep] at h
    split at h
    · obtain ⟨-,rfl⟩ := Prod.mk.inj (Except.ok.inj h)
      simp only [Actor.rank, CheckPhase.rank]
      omega
    · split at h <;> obtain ⟨-,rfl⟩ := Prod.mk.inj (Except.ok.inj h) <;>
        simp only [Actor.rank, CheckPhase.rank] <;> omega
  | expiring i scan w birthTime =>
    rcases checkStep_expiring h with ⟨-,-,rfl⟩ | ⟨-,rfl⟩ <;>
      simp only [Actor.rank, CheckPhase.rank] <;> omega
  | resetting i scan | scoring i scan =>
    obtain ⟨-,rfl⟩ := Prod.mk.inj (Except.ok.inj h)
    simp only [Actor.rank, CheckPhase.rank]
    omega
  | answering scan =>
    simp only [checkStep] at h
    split at h
    · simp only [reduceCtorEq] at h
    split at h <;> obtain ⟨-,rfl⟩ := Prod.mk.inj (Except.ok.inj h)
    · simp [Actor.rank, CheckPhase.rank]
    · simp [Actor.rank, CheckPhase.rank]
    · simp [Actor.rank, CheckPhase.rank]
    · exact Nat.succ_le_succ (beginClaim_rank _)
  | reading n w | touching n w payload | copying id | stamping id =>
    obtain ⟨-,rfl⟩ := Prod.mk.inj (Except.ok.inj h)
    simp [Actor.rank, CheckPhase.rank]
  | claiming id =>
    simp only [checkStep] at h
    split at h
    · simp only [reduceCtorEq] at h
    split at h <;> obtain ⟨-,rfl⟩ := Prod.mk.inj (Except.ok.inj h) <;>
      simp [Actor.rank, CheckPhase.rank]
  | exchanging id w =>
    rcases checkStep_exchanging h with ⟨-,-,rfl⟩ | ⟨-,rfl⟩ <;>
      simp [Actor.rank, CheckPhase.rank]

theorem exists_checkStep (hphase : phase.WellFormed t) (arena : MemoryArena (Vec K)) :
    ∃ r, checkStep query t arena phase = .ok r := by
  have hslot : ∀ {id : ℤ}, IsSlot id → toSize id < totalMaxSlots := by
    rintro _ ⟨i,hi,rfl⟩
    have hrange := hi.trans_le l0MaxSlots_le_totalMaxSlots
    rwa [toSize_natCast hrange]
  cases phase with
  | scanning i scan =>
    simp only [checkStep]
    split
    · split <;> exact ⟨_,rfl⟩
    · split <;> exact ⟨_,rfl⟩
  | aging i scan w =>
    simp only [checkStep]
    split
    · exact ⟨_,rfl⟩
    · split <;> exact ⟨_,rfl⟩
  | expiring | exchanging =>
    simp only [checkStep]
    split <;> exact ⟨_,rfl⟩
  | answering scan =>
    simp only [checkStep, arena.getNode_of_lt (hslot hphase)]
    split <;> exact ⟨_,rfl⟩
  | claiming id =>
    simp only [checkStep, arena.getNode_of_lt (hslot hphase)]
    split <;> exact ⟨_,rfl⟩
  | resetting | scoring | reading | touching | copying | stamping => exact ⟨_,rfl⟩

omit [Scoring K] in
theorem SetPhase.rank_le (phase : SetPhase) (w w' : UInt64) : phase.rank w' ≤ phase.rank w + 1 := by
  cases phase with
  | writing | loading => exact Nat.le_add_right _ _
  | exchanging =>
    simp only [rank]
    split <;> split <;> omega

theorem AtomicStep.not_idle {action : Action K} (h : AtomicStep arena actor action arena' actor') :
    actor' ≠ .idle := by
  cases h with
  | @check prompt embedding t =>
    unfold beginCheck
    split
    · simp
    · cases embedding <;> simp
  | set h => rcases beginSet_cases h with ⟨status,rfl⟩ | ⟨node,rfl⟩ <;> simp
  | checking h =>
    rcases checkStep_next h with ⟨phase',rfl⟩ | ⟨result,rfl⟩ <;> simp
  | setting h =>
    rcases setStep_next h with ⟨phase',rfl⟩ | ⟨result,rfl⟩ <;> simp
  | collecting => simp

end Steps

section Calls
variable {K : Type*}

def Actor.InCheck : Actor K → Prop
  | .checking _ _ _ | .finished (.checked _) => True
  | _ => False

variable [Scoring K] {arena arena' : MemoryArena (Vec K)} {actor actor' : Actor K}
  {action : Action K} {n : ℕ} {nodeId : UInt32}

theorem beginCheck_inCheck (prompt : List UInt8) (embedding : Except String (Vec K)) (t : UInt64) :
    (beginCheck prompt embedding t).InCheck ∧
      (beginCheck prompt embedding t).rank n arena ≤ 4 * l0MaxSlots + 6 := by
  unfold beginCheck
  split
  · exact ⟨trivial,Nat.zero_le _⟩
  · cases embedding with
    | error what => exact ⟨trivial,Nat.zero_le _⟩
    | ok query =>
      refine ⟨trivial,?_⟩
      simp only [Actor.rank, CheckPhase.rank]
      omega

theorem AtomicStep.begun_check {c : Actor K} {prompt : List UInt8}
    {embedding : Except String (Vec K)} {t : UInt64}
    (h : AtomicStep arena c (.check prompt embedding t) arena' actor') :
    c = .idle ∧ actor' = beginCheck prompt embedding t := by
  cases h
  exact ⟨rfl,rfl⟩

theorem AtomicStep.inCheck (h : AtomicStep arena actor action arena' actor')
    (hcheck : actor.InCheck) :
    actor'.InCheck ∧ actor'.rank n arena' + 1 ≤ actor.rank n arena := by
  cases h with
  | checking h =>
    refine ⟨?_,checkStep_rank h⟩
    rcases checkStep_next h with ⟨phase',rfl⟩ | ⟨result,rfl⟩ <;> trivial
  | check | set | setting | collecting => exact absurd hcheck id

end Calls

section Runs
variable {K : Type*} [Scoring K] {arena : MemoryArena (Vec K)} {es : List (AtomicBeat K)}
  {pool : AtomicPool K} {i : ℕ}

theorem exists_begun (hrun : Run (Moves AtomicStep) (startAtomic arena) es pool)
    {action : Action K} (hcall : Happened (fun τ => τ.act = (some i, action)) es)
    (hidle : ∀ s c s' c', AtomicStep (K := K) s c action s' c' → c = .idle) :
    ∃ es₁ τ es₂, es = es₁ ++ τ :: es₂ ∧ stepsOf (some i) es = 1 + stepsOf (some i) es₂ ∧
      AtomicStep τ.before.shared .idle action τ.after.shared (τ.after.threads (some i)) ∧
      Run (Moves AtomicStep) τ.after es₂ pool := by
  obtain ⟨⟨before,act,after⟩,hτ,hact⟩ := hcall
  simp only at hact
  subst hact
  obtain ⟨es₁,es₂,rfl⟩ := List.append_of_mem hτ
  obtain ⟨hes₁,hmove,hes₂⟩ := hrun.split_at
  have hown := hmove.own
  simp only at hown hes₁ hes₂
  have hstart := hidle _ _ _ _ hown
  have hzero := stepsOf_eq_zero (fun _ _ _ _ _ h => h.not_idle) hes₁ hstart
  rw [hstart] at hown
  exact ⟨es₁,_,es₂,rfl,by simp [hzero],hown,hes₂⟩

/-- `CheckCache` is wait-free: whatever the other threads do, a call has its reply after
four steps for each L0 slot and seven more, and until then it can take its next one. -/
theorem checkCache_waitFree (hrun : Run (Moves AtomicStep) (startAtomic arena) es pool)
    {prompt : List UInt8} {embedding : Except String (Vec K)} {t : UInt64}
    (hcall : Happened (fun τ => τ.act = (some i, .check prompt embedding t)) es) :
    stepsOf (some i) es ≤ 4 * l0MaxSlots + 7 ∧
    ((∃ result, pool.threads (some i) = .finished (.checked result)) ∨
      ∀ spurious, ∃ pool', Moves AtomicStep pool (some i, .proceed spurious) pool') := by
  obtain ⟨-,τ,es₂,-,hsteps,hbegin,hrest⟩ := exists_begun hrun hcall
    fun _ _ _ _ h => h.begun_check.1
  have hafter := hbegin.begun_check.2
  obtain ⟨hin,hrank⟩ := @beginCheck_inCheck _ _ τ.after.shared 0 prompt embedding t
  obtain ⟨hcheck,hle⟩ := steps_le (i := some i) (J := Actor.InCheck)
    (fun arena actor => actor.rank 0 arena) (fun _ => 0) (fun τ _ hown hJ => hown.inCheck hJ)
    (fun τ _ _ hJ => by
      generalize τ.before.threads (some i) = c at hJ
      cases c with
      | checking | finished => exact le_rfl
      | collector | idle | setting => exact absurd hJ id)
    hrest (by rw [hafter]; exact hin)
  simp only [hafter, total_zero] at hle
  refine ⟨by omega,?_⟩
  have hwell := (atomic_threads hrun (some i)).1
  cases hthread : pool.threads (some i) with
  | checking query t phase =>
    rw [hthread] at hwell
    refine .inr fun spurious => ?_
    obtain ⟨⟨arena',next⟩,hstep⟩ := exists_checkStep hwell pool.shared
    exact ⟨_,moves_update (by rw [hthread]; exact .checking hstep)⟩
  | finished reply =>
    rw [hthread] at hcheck
    cases reply with
    | checked result => exact .inl ⟨result,rfl⟩
    | stored | collected => exact absurd hcheck id
  | collector | idle | setting =>
    rw [hthread] at hcheck
    exact absurd hcheck id

end Runs

section Replay

theorem checkCache_waitFree_replay : ∃ (es : List (AtomicBeat ℚ)) (pool : AtomicPool ℚ),
    Run (Moves AtomicStep) (startAtomic (freshArena ℚ)) es pool ∧
      pool.threads (some 0) = .finished (.checked (.ok ⟨.miss,0,[]⟩)) ∧
      stepsOf (some 0) es ≤ 4007 := by
  obtain ⟨arena,hmiss,-⟩ := exists_firstMiss (axis 0 : Vec ℚ) 1
  have hbegin : Moves AtomicStep (startAtomic (freshArena ℚ)) (some 0, .check [1] (.ok (axis 0)) 1)
      ⟨freshArena ℚ,Function.update (startAtomic (freshArena ℚ)).threads (some 0)
        (beginCheck [1] (.ok (axis 0)) 1)⟩ := moves_update .check
  obtain ⟨es,hes,-⟩ := run_proceeds ⟨freshArena ℚ,Function.update
      (startAtomic (freshArena ℚ)).threads (some 0) (beginCheck [1] (.ok (axis 0)) 1)⟩ (some 0)
    (by simpa only [Function.update_self] using proceeds_checkCache (fires_checkCache.mp hmiss))
  have hrun := Run.cons hbegin hes
  exact ⟨_,_,hrun,by simp only [Function.update_self],
    (checkCache_waitFree (i := 0) hrun ⟨_,List.mem_cons_self,rfl⟩).1⟩

end Replay

end Strix
