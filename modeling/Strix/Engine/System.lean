import Strix.Engine.Service
import Strix.Foundation.History

/-! # The engine as a transition system of whole calls

Clients call the service and the collector passes over the ring, each call as a
whole. A collector pass that throws ends the process and an index out of range
ends the run, so neither is a step.
-/
namespace Strix
open RunHistory

inductive Call (K : Type*)
  | checkCache (prompt : List UInt8) (embedding : Except String (Vec K)) (currTime : UInt64)
  | setCache (nodeId : ℤ) (payload : List UInt8)
  | collect

inductive Reply
  | checked (result : Except Status CheckCacheResponse)
  | stored (result : Except Status Bool)
  | collected

variable {K : Type*} [Scoring K]

def perform (call : Call K) (arena : MemoryArena (Vec K)) :
    Except Fault (Reply × MemoryArena (Vec K)) :=
  match call with
  | .checkCache prompt embedding currTime =>
    (checkCache prompt embedding currTime arena).map fun r => (.checked r.1, r.2)
  | .setCache nodeId payload => (setCache nodeId payload arena).map fun r => (.stored r.1, r.2)
  | .collect => arena.runGarbageCollectorPass.map fun arena => (.collected, arena)

/-- One whole call with the reply it gives. -/
def Fires (arena : MemoryArena (Vec K)) (act : Call K × Reply) (arena' : MemoryArena (Vec K)) :
    Prop := perform act.1 arena = .ok (act.2, arena')

section Calls
variable {arena arena' : MemoryArena (Vec K)}

theorem fires_checkCache {prompt : List UInt8} {embedding : Except String (Vec K)} {t : UInt64}
    {result : Except Status CheckCacheResponse} :
    Fires arena (.checkCache prompt embedding t, .checked result) arena' ↔
      checkCache prompt embedding t arena = .ok (result, arena') := by
  cases h : checkCache prompt embedding t arena <;>
    simp [Fires, perform, h, Except.map, Prod.ext_iff]

theorem fires_setCache {nodeId : ℤ} {payload : List UInt8} {result : Except Status Bool} :
    Fires arena (.setCache nodeId payload, .stored result) arena' ↔
      setCache nodeId payload arena = .ok (result, arena') := by
  cases h : setCache nodeId payload arena <;>
    simp [Fires, perform, h, Except.map, Prod.ext_iff]

theorem fires_collect : Fires arena (.collect, .collected) arena' ↔
    arena.runGarbageCollectorPass = .ok arena' := by
  cases h : arena.runGarbageCollectorPass <;> simp [Fires, perform, h, Except.map]

theorem fires_cases {act : Call K × Reply} (h : Fires arena act arena') :
    (∃ prompt embedding t result, act = (.checkCache prompt embedding t, .checked result) ∧
      checkCache prompt embedding t arena = .ok (result, arena')) ∨
    (∃ nodeId payload result, act = (.setCache nodeId payload, .stored result) ∧
      setCache nodeId payload arena = .ok (result, arena')) ∨
    (act = (.collect, .collected) ∧ arena.runGarbageCollectorPass = .ok arena') := by
  obtain ⟨call,reply⟩ := act
  cases call with
  | checkCache prompt embedding t =>
    cases hc : checkCache prompt embedding t arena with
    | error fault => simp [Fires, perform, hc, Except.map] at h
    | ok p =>
      obtain ⟨rfl,rfl⟩ : .checked p.1 = reply ∧ p.2 = arena' := by
        simpa [Fires, perform, hc, Except.map] using h
      exact .inl ⟨_,_,_,_,rfl,hc⟩
  | setCache nodeId payload =>
    cases hc : setCache nodeId payload arena with
    | error fault => simp [Fires, perform, hc, Except.map] at h
    | ok p =>
      obtain ⟨rfl,rfl⟩ : .stored p.1 = reply ∧ p.2 = arena' := by
        simpa [Fires, perform, hc, Except.map] using h
      exact .inr (.inl ⟨_,_,_,rfl,hc⟩)
  | collect =>
    cases hc : arena.runGarbageCollectorPass with
    | error fault => simp [Fires, perform, hc, Except.map] at h
    | ok arena'' =>
      obtain ⟨rfl,rfl⟩ : .collected = reply ∧ arena'' = arena' := by
        simpa [Fires, perform, hc, Except.map] using h
      exact .inr (.inr ⟨rfl,rfl⟩)

theorem Fires.unique {call : Call K} {reply reply' : Reply} {arena'' : MemoryArena (Vec K)}
    (h : Fires arena (call, reply) arena') (h' : Fires arena (call, reply') arena'') :
    reply = reply' ∧ arena' = arena'' := by
  have heq := Except.ok.inj (h.symm.trans h')
  exact Prod.mk.inj heq

end Calls

variable (K) in
def freshArena : MemoryArena (Vec K) := .initial (fun _ => Scoring.zero)

theorem freshArena_state (i : ℕ) : ((freshArena K).metadata i).loadControl.state = .dead := by
  have hdead : (⟨0,0⟩ : MetaNode).loadControl.state = .dead := by decide
  exact hdead

@[simp] theorem freshArena_writeHead : (freshArena K).writeHead = 0 := rfl
@[simp] theorem freshArena_readTail : (freshArena K).readTail = 0 := rfl

abbrev Step (K : Type*) := Transition (MemoryArena (Vec K)) (Call K × Reply)

/-- A run of whole calls from the fresh engine. -/
def EngineRun (es : List (Step K)) (arena : MemoryArena (Vec K)) : Prop :=
  Run Fires (freshArena K) es arena

end Strix
