import Strix.Engine.Arena
import Strix.Foundation.ThreadPool

/-! # AllocatePayload in atomic steps (arena.cc)

The lock-free loop of `AllocatePayload`: the loads of the two cursors and the
weak compare-exchange on the write head are separate steps, taken by any number
of callers while the collector advances the tail.
-/
namespace Strix
open RunHistory ThreadPool

inductive AllocatePhase
  | loadingHead
  | loadingTail (currWrite : UInt64)
  | exchanging (currWrite : UInt64)
  deriving DecidableEq

/-- The threads that touch the cursors: the collector and the callers, each of
which makes one call. -/
inductive Allocator
  | collector
  | idle
  | allocating (length : UInt32) (phase : AllocatePhase)
  | returned (length : UInt32) (offset : UInt64)
  | raised (length : UInt32) (fault : Fault)
  deriving DecidableEq

inductive AllocateAction
  | call (length : UInt32)
  | proceed (spurious : Bool)
  | advance (n : UInt64)
  deriving DecidableEq

section Model
variable {V : Type*}

/-- The next atomic step of a call; an exchange may fail spuriously. -/
def allocateStep (length : UInt32) (spurious : Bool) (arena : MemoryArena V)
    (phase : AllocatePhase) : MemoryArena V × Allocator :=
  let totalSize := sizeofPayloadHeader + length.toUInt64
  match phase with
  | .loadingHead => (arena, .allocating length (.loadingTail arena.writeHead))
  | .loadingTail currWrite =>
    if payloadBufferSize ≤ currWrite + totalSize - arena.readTail then
      (arena, .raised length (.thrown "Resource Exhausted"))
    else (arena, .allocating length (.exchanging currWrite))
  | .exchanging currWrite =>
    let allocatedOffset := currWrite + MemoryArena.headerPadding currWrite
    if arena.writeHead = currWrite ∧ spurious = false then
      ({ arena with writeHead := allocatedOffset + totalSize }, .returned length allocatedOffset)
    -- a failed exchange leaves the current head in `curr_write`
    else (arena, .allocating length (.loadingTail arena.writeHead))

inductive AllocateStep : MemoryArena V → Allocator → AllocateAction → MemoryArena V → Allocator →
    Prop
  | call {arena : MemoryArena V} {length : UInt32} :
    AllocateStep arena .idle (.call length) arena (.allocating length .loadingHead)
  | proceed {arena arena' : MemoryArena V} {length : UInt32} {phase : AllocatePhase}
    {spurious : Bool} {next : Allocator}
    (h : allocateStep length spurious arena phase = (arena', next)) :
    AllocateStep arena (.allocating length phase) (.proceed spurious) arena' next
  | advance {arena : MemoryArena V} {n : UInt64} :
    AllocateStep arena .collector (.advance n) (arena.advanceReadTail n) .collector

abbrev AllocatePool (V : Type*) := Pool (Option ℕ) (MemoryArena V) Allocator

abbrev AllocateBeat (V : Type*) := Transition (AllocatePool V) (Option ℕ × AllocateAction)

def startAllocation (arena : MemoryArena V) : AllocatePool V :=
  ⟨arena,fun i => i.elim .collector fun _ => .idle⟩

def allocatedBytes (es : List (AllocateBeat V)) : ℕ :=
  (es.map fun τ => (τ.after.shared.writeHead - τ.before.shared.writeHead).toNat).sum

theorem allocatedBytes_snoc (es : List (AllocateBeat V)) (τ : AllocateBeat V) :
    allocatedBytes (es ++ [τ]) =
      allocatedBytes es + (τ.after.shared.writeHead - τ.before.shared.writeHead).toNat := by
  simp [allocatedBytes]

end Model

section Steps
variable {V : Type*} {arena arena' : MemoryArena V} {caller next : Allocator}
  {action : AllocateAction} {length : UInt32} {offset : UInt64}

/-- A step that returns moves the head over the padding and the record it has
reserved; every other step leaves the head alone. -/
theorem allocateStep_cases (h : AllocateStep arena caller action arena' next) :
    (arena'.writeHead = arena.writeHead ∧ ∀ length offset, next = .returned length offset →
      caller = .returned length offset) ∨
    ∃ length, caller = .allocating length (.exchanging arena.writeHead) ∧
      next = .returned length (arena.writeHead + MemoryArena.headerPadding arena.writeHead) ∧
      arena'.writeHead = arena.writeHead + MemoryArena.headerPadding arena.writeHead +
        (sizeofPayloadHeader + length.toUInt64) := by
  cases h with
  | call => exact .inl ⟨rfl,by simp⟩
  | advance => exact .inl ⟨rfl,by simp⟩
  | @proceed _ length phase spurious _ h =>
    cases phase with
    | loadingHead =>
      obtain ⟨rfl,rfl⟩ := Prod.mk.inj h
      exact .inl ⟨rfl,by simp⟩
    | loadingTail currWrite =>
      simp only [allocateStep] at h
      split at h <;> obtain ⟨rfl,rfl⟩ := Prod.mk.inj h <;> exact .inl ⟨rfl,by simp⟩
    | exchanging currWrite =>
      simp only [allocateStep] at h
      split at h
      · rename_i hexchange
        obtain ⟨rfl,-⟩ := hexchange
        obtain ⟨rfl,rfl⟩ := Prod.mk.inj h
        exact .inr ⟨length,rfl,rfl,rfl⟩
      · obtain ⟨rfl,rfl⟩ := Prod.mk.inj h
        exact .inl ⟨rfl,by simp⟩

theorem AllocateStep.running (h : AllocateStep arena caller action arena' next) :
    (∀ length offset, caller ≠ .returned length offset) ∧
      ∀ length fault, caller ≠ .raised length fault := by
  cases h <;> simp

theorem AllocateStep.collector_eq (h : AllocateStep arena .collector action arena' next) :
    next = .collector := by
  cases h
  rfl

theorem solo_loaded (arena : MemoryArena V) (length : UInt32) :
    ∃ es, Run (Solo AllocateStep) (arena, .idle) es
      (arena, .allocating length (.loadingTail arena.writeHead)) := by
  have hcall : Solo AllocateStep (arena, .idle) (.call length)
      (arena, .allocating length .loadingHead) := .call
  have hhead : Solo AllocateStep (arena, .allocating length .loadingHead) (.proceed false)
      (arena, .allocating length (.loadingTail arena.writeHead)) := .proceed rfl
  exact ⟨_,(Run.single hcall).snoc hhead⟩

/-- A call that runs alone is `allocatePayload`. -/
theorem solo_allocate (h : arena.allocatePayload length = .ok (offset, arena')) :
    ∃ es, Run (Solo AllocateStep) (arena, .idle) es (arena', .returned length offset) := by
  simp only [MemoryArena.allocatePayload] at h
  split at h
  · simp only [reduceCtorEq] at h
  rename_i hroom
  rw [Except.ok.injEq, Prod.mk.injEq] at h
  obtain ⟨rfl,rfl⟩ := h
  obtain ⟨es,hes⟩ := solo_loaded arena length
  have htail : Solo AllocateStep (arena, .allocating length (.loadingTail arena.writeHead))
      (.proceed false) (arena, .allocating length (.exchanging arena.writeHead)) :=
    .proceed (by simp only [allocateStep, hroom, if_false])
  have hexchange : Solo AllocateStep (arena, .allocating length (.exchanging arena.writeHead))
      (.proceed false)
      ({ arena with
          writeHead := arena.writeHead + MemoryArena.headerPadding arena.writeHead +
            (sizeofPayloadHeader + length.toUInt64) },
        .returned length (arena.writeHead + MemoryArena.headerPadding arena.writeHead)) :=
    .proceed (by simp only [allocateStep, and_self, if_true])
  exact ⟨_,(hes.snoc htail).snoc hexchange⟩

theorem solo_allocate_raises {fault : Fault} (h : arena.allocatePayload length = .error fault) :
    ∃ es, Run (Solo AllocateStep) (arena, .idle) es (arena, .raised length fault) := by
  simp only [MemoryArena.allocatePayload] at h
  split at h
  swap
  · simp only [reduceCtorEq] at h
  rename_i hfull
  rw [Except.error.injEq] at h
  subst h
  obtain ⟨es,hes⟩ := solo_loaded arena length
  have htail : Solo AllocateStep (arena, .allocating length (.loadingTail arena.writeHead))
      (.proceed false) (arena, .raised length (.thrown "Resource Exhausted")) :=
    .proceed (by simp only [allocateStep, hfull, if_true])
  exact ⟨_,hes.snoc htail⟩

end Steps

end Strix
