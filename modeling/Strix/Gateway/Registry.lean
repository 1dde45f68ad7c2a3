import Strix.Foundation.Striped
import Strix.Foundation.ThreadPool
import Mathlib.Data.Nat.Bitwise
import Mathlib.Tactic.Common

/-! # The promise registry (registry.go)

Pioneers register a promise under a node ID, the herd looks it up and waits for
its channel to be closed. Each lock-protected section, each write to a promise
and each channel operation is a step of its own.
-/
namespace Strix
open RunHistory ThreadPool

def numShards : ℕ := 256

/-- A promise on the heap; `ready` is set once its channel is closed. -/
structure Promise (E : Type*) where
  payload : List UInt8
  err : Option E
  ready : Bool

/-- The shard array, and the promises by the order of their allocation. -/
structure Registry (E : Type*) where
  shards : Fin numShards → Int32 → Option ℕ
  promises : ℕ → Promise E
  allocated : ℕ

structure HerdResult (E : Type*) where
  payload : List UInt8
  pioneerErr : Option E
  selfCancelled : Bool
  found : Bool

inductive FulfillStage
  | setPayload
  | setErr
  | close
  | remove

def FulfillStage.next : FulfillStage → FulfillStage
  | .setPayload => .setErr
  | .setErr => .close
  | .close | .remove => .remove

inductive Caller (E : Type*)
  | idle
  | pioneer (nodeId : Int32) (p : ℕ)
  | fulfilling (stage : FulfillStage) (nodeId : Int32) (p : ℕ) (payload : List UInt8)
    (err : Option E)
  | fulfilled (nodeId : Int32) (p : ℕ) (payload : List UInt8) (err : Option E)
  | waiting (nodeId : Int32) (p : ℕ)
  | reading (nodeId : Int32) (p : ℕ)
  | returned (nodeId : Int32) (result : HerdResult E)

inductive CallerAction (E : Type*)
  | register (nodeId : Int32)
  | fulfill (payload : List UInt8) (err : Option E)
  | await (nodeId : Int32)
  | cancel (err : E)
  | proceed

def getShard (nodeId : Int32) : Fin numShards :=
  ⟨(nodeId.toUInt32 &&& UInt32.ofNat (numShards - 1)).toNat,by
    have hmask : (UInt32.ofNat (numShards - 1)).toNat = 255 := by decide
    rw [UInt32.toNat_and, hmask]
    exact Nat.lt_succ_of_le Nat.and_le_right⟩

section Model
variable {E : Type*}

def Registry.lookUp (r : Registry E) (nodeId : Int32) : Option ℕ :=
  Striped.get getShard r.shards nodeId

/-- A new promise, stored under its node ID whatever was there. -/
def Registry.pioneerRegister (r : Registry E) (nodeId : Int32) : ℕ × Registry E :=
  (r.allocated,
    { shards := Striped.put getShard r.shards nodeId (some r.allocated)
      promises := Function.update r.promises r.allocated ⟨[],none,false⟩
      allocated := r.allocated + 1 })

def Registry.setPromise (r : Registry E) (p : ℕ) (promise : Promise E) : Registry E :=
  { r with promises := Function.update r.promises p promise }

/-- One step of `pioneerFulfill`; closing a closed channel panics. -/
def Registry.pioneerFulfill (r : Registry E) (nodeId : Int32) (p : ℕ) (payload : List UInt8)
    (err : Option E) : FulfillStage → Option (Registry E)
  | .setPayload => some (r.setPromise p { r.promises p with payload := payload })
  | .setErr => some (r.setPromise p { r.promises p with err := err })
  | .close =>
    if (r.promises p).ready then none
    else some (r.setPromise p { r.promises p with ready := true })
  | .remove => some { r with shards := Striped.put getShard r.shards nodeId none }

def Caller.afterFulfill (nodeId : Int32) (p : ℕ) (payload : List UInt8) (err : Option E) :
    FulfillStage → Caller E
  | .remove => .fulfilled nodeId p payload err
  | stage => .fulfilling stage.next nodeId p payload err

def Caller.lookedUp (nodeId : Int32) : Option ℕ → Caller E
  | none => .returned nodeId ⟨[],none,false,false⟩
  | some p => .waiting nodeId p

inductive CallerStep : Registry E → Caller E → CallerAction E → Registry E → Caller E → Prop
  | register {r : Registry E} {nodeId : Int32} :
    CallerStep r .idle (.register nodeId) (r.pioneerRegister nodeId).2
      (.pioneer nodeId (r.pioneerRegister nodeId).1)
  | fulfill {r : Registry E} {nodeId : Int32} {p : ℕ} {payload : List UInt8} {err : Option E} :
    CallerStep r (.pioneer nodeId p) (.fulfill payload err) r
      (.fulfilling .setPayload nodeId p payload err)
  | fulfilling {r r' : Registry E} {stage : FulfillStage} {nodeId : Int32} {p : ℕ}
    {payload : List UInt8} {err : Option E}
    (h : r.pioneerFulfill nodeId p payload err stage = some r') :
    CallerStep r (.fulfilling stage nodeId p payload err) .proceed r'
      (.afterFulfill nodeId p payload err stage)
  | lookUp {r : Registry E} {nodeId : Int32} :
    CallerStep r .idle (.await nodeId) r (.lookedUp nodeId (r.lookUp nodeId))
  | wake {r : Registry E} {nodeId : Int32} {p : ℕ} (h : (r.promises p).ready = true) :
    CallerStep r (.waiting nodeId p) .proceed r (.reading nodeId p)
  | cancel {r : Registry E} {nodeId : Int32} {p : ℕ} {err : E} :
    CallerStep r (.waiting nodeId p) (.cancel err) r (.returned nodeId ⟨[],some err,true,true⟩)
  | read {r : Registry E} {nodeId : Int32} {p : ℕ} :
    CallerStep r (.reading nodeId p) .proceed r
      (.returned nodeId ⟨(r.promises p).payload,(r.promises p).err,false,true⟩)

variable (E) in
def freshRegistry : Registry E := ⟨fun _ _ => none,fun _ => ⟨[],none,false⟩,0⟩

abbrev RegistryPool (ι E : Type*) := Pool ι (Registry E) (Caller E)

abbrev RegistryBeat (ι E : Type*) := Transition (RegistryPool ι E) (ι × CallerAction E)

variable {ι : Type*}

def RegistryRun (es : List (RegistryBeat ι E)) (pool : RegistryPool ι E) : Prop :=
  Run (Moves CallerStep) ⟨freshRegistry E,fun _ => .idle⟩ es pool

def Registers (j : ι) (nodeId : Int32) (p : ℕ) (τ : RegistryBeat ι E) : Prop :=
  τ.act = (j, .register nodeId) ∧ τ.after.threads j = .pioneer nodeId p

def Fulfills (j : ι) (nodeId : Int32) (p : ℕ) (payload : List UInt8) (err : Option E)
    (τ : RegistryBeat ι E) : Prop :=
  τ.act = (j, .fulfill payload err) ∧ τ.before.threads j = .pioneer nodeId p

def Closes (j : ι) (p : ℕ) (τ : RegistryBeat ι E) : Prop :=
  τ.act.1 = j ∧ ∃ nodeId payload err,
    τ.before.threads j = .fulfilling .close nodeId p payload err

def Finds (i : ι) (nodeId : Int32) (p : ℕ) (τ : RegistryBeat ι E) : Prop :=
  τ.act = (i, .await nodeId) ∧ τ.after.threads i = .waiting nodeId p

/-- A pioneer between its registration and the end of its `pioneerFulfill`. -/
def Caller.InFlight (nodeId : Int32) (p : ℕ) : Caller E → Prop
  | .pioneer n q => n = nodeId ∧ q = p
  | .fulfilling _ n q _ _ => n = nodeId ∧ q = p
  | _ => False

end Model

end Strix
