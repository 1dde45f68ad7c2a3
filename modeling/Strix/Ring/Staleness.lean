import Strix.Engine.Allocate
import Strix.Ring.Exhaustion

/-! # The back-pressure test with other calls in between

`AllocatePayload` loads the write head first and the read tail later, and whole
calls may run in between. The test subtracts the fresh tail from the old head:
once the collector has passed the place the record was meant for, the unsigned
difference turns around and the call raises whatever room there is.
-/
namespace Strix
open ByteRing FramedLog RunHistory ThreadPool

section Model
variable {K : Type*}

inductive Beside (K : Type*)
  | own (action : AllocateAction)
  | other (act : Call K × Reply)

inductive BesideStep [Scoring K] : MemoryArena (Vec K) × Allocator → Beside K →
    MemoryArena (Vec K) × Allocator → Prop
  | own {s s' : MemoryArena (Vec K) × Allocator} {action : AllocateAction}
    (h : Solo AllocateStep s action s') : BesideStep s (.own action) s'
  | other {arena arena' : MemoryArena (Vec K)} {act : Call K × Reply} {caller : Allocator}
    (h : Fires arena act arena') : BesideStep (arena, caller) (.other act) (arena', caller)

abbrev BesideBeat (K : Type*) := Transition (MemoryArena (Vec K) × Allocator) (Beside K)

def Beside.call : Beside K → Option (Call K × Reply)
  | .own _ => none
  | .other act => some act

def OwnStep (τ : BesideBeat K) : Prop := τ.act.call = none

def calls (es : List (BesideBeat K)) : List (Step K) :=
  es.filterMap fun τ => τ.act.call.map fun act => ⟨τ.before.1,act,τ.after.1⟩

/-- Record and header do not fit between the current head and the current tail. -/
def Full (es : List (BesideBeat K)) (length : UInt32) : Prop :=
  streamTail (calls es) + 2 ^ 32 ≤ streamHead (calls es) + (12 + length.toNat)

/-- The tail has passed the end of the record as it would lie at the loaded head;
the head has moved since by what the others have allocated. -/
def Overtaken (es : List (BesideBeat K)) (length : UInt32) : Prop :=
  ∃ since, SinceLast OwnStep es since ∧ streamHead (calls es) + (12 + length.toNat) <
    streamTail (calls es) + streamHead (calls since)

variable {es since : List (BesideBeat K)} {τ : BesideBeat K}

theorem calls_append (es fs : List (BesideBeat K)) : calls (es ++ fs) = calls es ++ calls fs :=
  List.filterMap_append ..

theorem calls_snoc_own (h : OwnStep τ) : calls (es ++ [τ]) = calls es := by
  have h : τ.act.call = none := h
  simp [calls, List.filterMap_append, h]

theorem calls_snoc_other {act : Call K × Reply} (h : τ.act = .other act) :
    calls (es ++ [τ]) = calls es ++ [⟨τ.before.1,act,τ.after.1⟩] := by
  simp [calls, List.filterMap_append, h, Beside.call]

end Model

section Cursors
variable {K : Type*} [Scoring K] {es : List (Step K)} {arena : MemoryArena (Vec K)}

/-- The cursors are the stream positions cut to 64 bits, whatever the calls were. -/
theorem EngineRun.cursors (hrun : EngineRun es arena) :
    arena.writeHead = .ofNat (streamHead es) ∧ arena.readTail = .ofNat (streamTail es) := by
  induction hrun with
  | nil => exact ⟨rfl,rfl⟩
  | snoc run fire ih =>
    rw [streamHead_snoc, streamTail_snoc, UInt64.ofNat_add, UInt64.ofNat_add, ← ih.1, ← ih.2,
      UInt64.ofNat_toNat, UInt64.ofNat_toNat, UInt64.add_comm, UInt64.sub_add_cancel,
      UInt64.add_comm, UInt64.sub_add_cancel]
    exact ⟨rfl,rfl⟩

end Cursors

section Attempt
variable {K : Type*} [Scoring K] {es : List (BesideBeat K)} {τ : BesideBeat K}
  {arena arena' : MemoryArena (Vec K)} {s : MemoryArena (Vec K) × Allocator}
  {caller next : Allocator} {action : AllocateAction} {length : UInt32} {fault : Fault}

omit [Scoring K] in
theorem AllocateStep.waits (h : AllocateStep arena caller action arena' next)
    (hcaller : caller ≠ .collector) : (∃ length offset, next = .returned length offset) ∨
      (arena' = arena ∧ next ≠ .collector ∧ ∀ length currWrite,
        next = .allocating length (.loadingTail currWrite) → currWrite = arena.writeHead) := by
  cases h with
  | call => exact .inr ⟨rfl,by simp,by simp⟩
  | advance => exact absurd rfl hcaller
  | @proceed _ length phase spurious _ h =>
    cases phase with
    | loadingHead =>
      obtain ⟨rfl,rfl⟩ := Prod.mk.inj h
      refine .inr ⟨rfl,by simp,fun _ _ heq => ?_⟩
      simp only [Allocator.allocating.injEq, AllocatePhase.loadingTail.injEq] at heq
      exact heq.2.symm
    | loadingTail currWrite =>
      simp only [allocateStep] at h
      split at h <;> obtain ⟨rfl,rfl⟩ := Prod.mk.inj h <;> exact .inr ⟨rfl,by simp,by simp⟩
    | exchanging currWrite =>
      simp only [allocateStep] at h
      split at h
      · obtain ⟨rfl,rfl⟩ := Prod.mk.inj h
        exact .inl ⟨_,_,rfl⟩
      · obtain ⟨rfl,rfl⟩ := Prod.mk.inj h
        refine .inr ⟨rfl,by simp,fun _ _ heq => ?_⟩
        simp only [Allocator.allocating.injEq, AllocatePhase.loadingTail.injEq] at heq
        exact heq.2.symm

omit [Scoring K] in
theorem AllocateStep.raises (h : AllocateStep arena caller action arena' (.raised length fault)) :
    ∃ currWrite, caller = .allocating length (.loadingTail currWrite) ∧
      payloadBufferSize ≤
        currWrite + (sizeofPayloadHeader + length.toUInt64) - arena.readTail := by
  generalize hnext : Allocator.raised length fault = next at h
  cases h with
  | call => cases hnext
  | advance => cases hnext
  | @proceed _ length' phase spurious _ h =>
    subst hnext
    cases phase with
    | loadingHead => cases (Prod.mk.inj h).2
    | loadingTail currWrite =>
      simp only [allocateStep] at h
      split at h
      · next hfull =>
        obtain ⟨rfl,-⟩ := Allocator.raised.inj (Prod.mk.inj h).2
        exact ⟨currWrite,rfl,hfull⟩
      · cases (Prod.mk.inj h).2
    | exchanging currWrite =>
      simp only [allocateStep] at h
      split at h <;> cases (Prod.mk.inj h).2

/-- A call among the others' calls: until it returns they are a run of the engine,
and the head it holds is where that run stood at its last own step. -/
structure Attempt (es : List (BesideBeat K)) (s : MemoryArena (Vec K) × Allocator) : Prop where
  caller : s.2 ≠ .collector
  run : (∀ length offset, s.2 ≠ .returned length offset) → EngineRun (calls es) s.1
  loaded : ∀ length currWrite, s.2 = .allocating length (.loadingTail currWrite) →
    ∃ since old, SinceLast OwnStep es since ∧
      old + streamHead (calls since) = streamHead (calls es) ∧ currWrite = .ofNat old

theorem Attempt.own (h : Attempt es τ.before) {action : AllocateAction}
    (hact : τ.act = .own action) (hstep : Solo AllocateStep τ.before action τ.after) :
    Attempt (es ++ [τ]) τ.after := by
  have hown : OwnStep τ := by rw [OwnStep, hact, Beside.call]
  have hrun := h.run hstep.running.1
  rcases hstep.waits h.caller with ⟨length,offset,hreturned⟩ | ⟨hsame,hcaller,hhead⟩
  · exact ⟨by simp [hreturned],fun hnot => absurd hreturned (hnot length offset),
      by simp [hreturned]⟩
  · refine ⟨hcaller,fun _ => ?_,fun length currWrite hload => ?_⟩
    · rw [calls_snoc_own hown, hsame]
      exact hrun
    · refine ⟨[],_,sinceLast_last es hown,rfl,?_⟩
      rw [hhead length currWrite hload, calls_snoc_own hown]
      exact hrun.cursors.1

theorem Attempt.other (h : Attempt es τ.before) {act : Call K × Reply} (hact : τ.act = .other act)
    (hfire : Fires τ.before.1 act τ.after.1) (hcaller : τ.after.2 = τ.before.2) :
    Attempt (es ++ [τ]) τ.after := by
  refine ⟨by rw [hcaller]; exact h.caller,fun hnot => ?_,fun length currWrite hload => ?_⟩
  · rw [calls_snoc_other hact]
    rw [hcaller] at hnot
    exact (h.run hnot).snoc hfire
  · rw [hcaller] at hload
    obtain ⟨since,old,hsince,hold,hword⟩ := h.loaded length currWrite hload
    have hother : ¬ OwnStep τ := by simp [OwnStep, hact, Beside.call]
    refine ⟨_,old,hsince.snoc hother,?_,hword⟩
    rw [calls_snoc_other hact, calls_snoc_other hact, streamHead_snoc, streamHead_snoc, ← hold]
    omega

theorem Attempt.of_run (hrun : Run BesideStep (freshArena K, .idle) es s) : Attempt es s := by
  refine hrun.historyInvariant (I := Attempt) (P := fun _ => True) ?_ (fun _ _ => trivial)
    ⟨by simp,fun _ => .nil _,by simp⟩
  rintro es ⟨before,act,after⟩ hfire - h
  simp only at hfire h
  cases hfire with
  | own hstep => exact h.own (τ := ⟨before,_,after⟩) rfl hstep
  | @other arena arena' act caller hcall =>
    exact h.other (τ := ⟨(arena, caller),_,(arena', caller)⟩) rfl hcall rfl

/-- A call that raises finds the ring full, unless it has been overtaken. -/
theorem exhausted_real (hrun : Run BesideStep (freshArena K, .idle) (es ++ [τ]) s)
    (hown : OwnStep τ) (hraised : s.2 = .raised length fault) (hkept : ¬ Overtaken es length) :
    Full es length := by
  obtain ⟨hbefore,hfire,rfl⟩ := hrun.snoc_inv
  have h := Attempt.of_run hbefore
  obtain ⟨before,act,after⟩ := τ
  simp only at hfire h hraised
  cases hfire with
  | other => cases hown
  | @own _ _ action hstep =>
    obtain ⟨arena,caller⟩ := before
    obtain ⟨arena',next⟩ := after
    simp only at hraised
    subst hraised
    obtain ⟨currWrite,rfl,hfull⟩ := AllocateStep.raises hstep
    obtain ⟨since,old,hsince,hold,rfl⟩ := h.loaded length currWrite rfl
    have hroom : streamTail (calls es) ≤ old + (12 + length.toNat) := by
      by_contra hpassed
      exact hkept ⟨since,hsince,by omega⟩
    have htail := (h.run (by simp)).cursors.2
    rw [Full]
    by_cases hlap : old + (12 + length.toNat) < streamTail (calls es) + 2 ^ 64
    · rw [htail, sizeof_add_ofNat, ← UInt64.ofNat_add, UInt64.le_iff_toNat_le,
        ofNat_sub_toNat hroom hlap, payloadBufferSize_toNat] at hfull
      omega
    · omega

end Attempt

section Replay
variable {K : Type*} [Scoring K] {arena arena' : MemoryArena (Vec K)} {fs : List (Step K)}
  {es : List (BesideBeat K)} {length : UInt32}

theorem run_beside (h : Run Fires arena fs arena') (caller : Allocator) :
    ∃ es, Run BesideStep (arena, caller) es (arena', caller) ∧ calls es = fs := by
  refine ⟨_,h.map (fun a => (a, caller)) (fun τ => .other τ.act)
    fun τ hfire => .other hfire,?_⟩
  induction h with
  | nil => rfl
  | snoc run fire ih =>
    rw [List.map_append, calls, List.filterMap_append]
    exact congrArg₂ _ ih rfl

theorem run_load (arena : MemoryArena (Vec K)) (length : UInt32) :
    ∃ es τ, Run BesideStep (arena, .idle) (es ++ [τ])
        (arena, .allocating length (.loadingTail arena.writeHead)) ∧ OwnStep τ ∧
      calls (es ++ [τ]) = [] := by
  have hcall : BesideStep (arena, .idle) (.own (.call length))
      (arena, .allocating length .loadingHead) :=
    .own .call
  have hload : BesideStep (arena, .allocating length .loadingHead) (.own (.proceed false))
      (arena, .allocating length (.loadingTail arena.writeHead)) := .own (.proceed rfl)
  exact ⟨_,_,(Run.single hcall).snoc hload,rfl,rfl⟩

theorem step_raise {currWrite : UInt64}
    (h : payloadBufferSize ≤ currWrite + (sizeofPayloadHeader + length.toUInt64) - arena.readTail) :
    BesideStep (arena, .allocating length (.loadingTail currWrite)) (.own (.proceed false))
      (arena, .raised length (.thrown "Resource Exhausted")) :=
  .own (.proceed (by simp only [allocateStep, if_pos h]))

theorem exists_collected : ∃ (fs : List (Step ℚ)) (arena : MemoryArena (Vec ℚ)),
    EngineRun fs arena ∧ arena.readTail = .ofNat 100 ∧
      streamHead fs = streamTail fs + 2 ^ 31 := by
  obtain ⟨fs,arena,log,hrun,hfs,-,hring⟩ := exists_passed (K := ℚ) (d := 2 ^ 31) le_rfl (by decide)
  obtain ⟨log',hintact⟩ := EngineRun.intact hrun fun τ hτ => (hfs τ hτ).1
  have hused := hintact.ring.used_toNat
  rw [hring.used_toNat] at hused
  exact ⟨fs,arena,hrun,hring.tail,by omega⟩

/-- Between the loads of one call half a ring is written and one record collected:
the call raises with half a ring free. -/
theorem exhausted_overtaken : ∃ (es : List (BesideBeat ℚ)) (τ : BesideBeat ℚ)
    (s : MemoryArena (Vec ℚ) × Allocator), Run BesideStep (freshArena ℚ, .idle) (es ++ [τ]) s ∧
      OwnStep τ ∧ s.2 = .raised 1 (.thrown "Resource Exhausted") ∧ ¬ Full es 1 := by
  obtain ⟨fs,arena,hrun,htail,hhalf⟩ := exists_collected
  obtain ⟨gs,load,hload,-,hnone⟩ := run_load (freshArena ℚ) 1
  obtain ⟨ks,hothers,hcalls⟩ := run_beside hrun (.allocating 1 (.loadingTail 0))
  have hraise : BesideStep (arena, .allocating 1 (.loadingTail 0)) (.own (.proceed false)) _ :=
    step_raise (by
      rw [htail]
      decide)
  refine ⟨_,_,_,(hload.append hothers).snoc hraise,rfl,rfl,?_⟩
  have hone : (1 : UInt32).toNat = 1 := rfl
  rw [Full, calls_append, hnone, hcalls, List.nil_append, hone]
  omega

theorem exhausted_real_replay : ∃ (es : List (BesideBeat ℚ)) (τ : BesideBeat ℚ)
    (s : MemoryArena (Vec ℚ) × Allocator), Run BesideStep (freshArena ℚ, .idle) (es ++ [τ]) s ∧
      s.2 = .raised 1 (.thrown "Resource Exhausted") ∧ Full es 1 := by
  have hfresh : LiveRing (freshArena ℚ) 0 [] 0 := liveRing_initial _
  obtain ⟨fs,full,unused,hfill,hfs,-,-,-,hring⟩ :=
    exists_fill (n := 0) (d := 2 ^ 32 - 13) (by decide) hfresh
      (by simp [show ∀ i, ((freshArena ℚ).metadata i).loadControl.state = .dead from
        freshArena_state]) (by omega) (by omega) (by omega)
  have hrun : EngineRun fs full := hfill
  obtain ⟨log,hintact⟩ := EngineRun.intact hrun fun τ hτ => (hfs τ hτ).1
  have hle := hintact.ring.le
  obtain ⟨ks,hothers,hcalls⟩ := run_beside hrun .idle
  obtain ⟨gs,load,hload,hown,hnone⟩ := run_load full 1
  have hraise : BesideStep (full, .allocating 1 (.loadingTail full.writeHead))
      (.own (.proceed false)) _ :=
    step_raise (by
      rw [hring.head, hring.tail]
      decide)
  have hall := (hothers.append hload).snoc hraise
  refine ⟨_,_,_,hall,rfl,exhausted_real hall rfl rfl ?_⟩
  -- nobody has moved the tail since the head was loaded
  rintro ⟨since,hsince,hpassed⟩
  obtain rfl := List.suffix_nil.mp (hsince.suffix hown (List.append_assoc ..).symm)
  rw [calls_append, hcalls, hnone, List.append_nil] at hpassed
  have hzero : streamHead (calls ([] : List (BesideBeat ℚ))) = 0 := rfl
  omega

end Replay

end Strix
