import Strix.Engine.Arena
import Strix.Engine.Scoring

/-! # The gRPC service (service.hh, service.cc)

The embedder is code of a third party: the outcome of `Encode` is an argument of
the call, and so is the clock reading. `CheckCache` is its scan of the L0 slots
followed by the answer that the re-loaded control word selects.
-/
namespace Strix

inductive StatusCode
  | invalidArgument | internal
  deriving DecidableEq, Repr

structure Status where
  code : StatusCode
  message : String
  deriving DecidableEq, Repr

inductive CacheState
  | unspecified | hit | miss | pending
  deriving DecidableEq, Repr

structure CheckCacheResponse where
  checkState : CacheState
  nodeId : ℤ
  cachedPayload : List UInt8
  deriving DecidableEq, Repr

structure Scan (K : Type*) where
  maxScore : K
  bestNodeId : ℤ
  reusableNodeId : ℤ

def toSize (id : ℤ) : ℕ := (id % 2 ^ 64).toNat

theorem toSize_natCast {n : ℕ} (h : n < totalMaxSlots) : toSize (n : ℤ) = n := by
  have h : n < 501000 := h
  unfold toSize
  omega

section Service
variable {K : Type*} [Scoring K]
open Scoring

def scoreSlot (query vector : Vec K) (i : ℕ) (scan : Scan K) : Scan K :=
  let currScore := cosineSimilarity query vector
  let isBetter := greater currScore scan.maxScore
  { scan with
    maxScore := if isBetter then currScore else scan.maxScore
    bestNodeId := if isBetter then i else scan.bestNodeId }

def scanSlot (query : Vec K) (currTime : UInt64) (st : MemoryArena (Vec K) × Scan K) (i : ℕ) :
    MemoryArena (Vec K) × Scan K :=
  let (arena, scan) := st
  let node := arena.metadata i
  let bestCtrl := node.controlBlock
  let ctrl := unpackControl bestCtrl
  let scan := { scan with
    reusableNodeId :=
      if ctrl.state = .dead ∧ scan.reusableNodeId = -1 then i else scan.reusableNodeId }
  let isValid := ctrl.state = .ready ∨ ctrl.state = .migrating
  if ctrl.state = .pending then
    let birthTime := node.createdAt
    if birthTime = 0 then (arena, scan)
    else if pendingLifespan.toUInt64 < currTime - birthTime then
      let desiredCtrl := packControl .dead ctrl.refBit ctrl.length ctrl.virtualOffset
      let (exchanged, arena) := arena.compareExchange i bestCtrl desiredCtrl
      if exchanged then
        (arena.storeCreatedAt i 0,
          { scan with
            reusableNodeId := if scan.reusableNodeId = -1 then i else scan.reusableNodeId })
      else (arena, scan)
    else (arena, scoreSlot query (arena.vectors i) i scan)
  else if isValid then (arena, scoreSlot query (arena.vectors i) i scan)
  else (arena, scan)

def scanL0 (query : Vec K) (currTime : UInt64) (arena : MemoryArena (Vec K)) :
    MemoryArena (Vec K) × Scan K :=
  (List.range l0MaxSlots).foldl (scanSlot query currTime)
    (arena, { maxScore := minusOne, bestNodeId := -1, reusableNodeId := -1 })

def claimSlot (query : Vec K) (currTime : UInt64) (reusableNodeId : ℤ)
    (arena : MemoryArena (Vec K)) :
    Except Fault (Except Status CheckCacheResponse × MemoryArena (Vec K)) :=
  if reusableNodeId = -1 then
    .ok (.error ⟨.internal,"Encounter error: " ++ "High traffic"⟩, arena)
  else
    let nodeId := toSize reusableNodeId
    match arena.getNode nodeId with
    | .error fault => .error fault
    | .ok node =>
      let expectedCtrl := node.controlBlock
      let missed : CheckCacheResponse := ⟨.miss,-1,[]⟩
      if NodeState.ofBits (expectedCtrl >>> 62) = .dead then
        let desiredCtrl := packControl .pending .hot 0 0
        let (exchanged, arena) := arena.compareExchange nodeId expectedCtrl desiredCtrl
        if exchanged then
          .ok (.ok ⟨.miss,reusableNodeId,[]⟩,
            (arena.storeVector nodeId query).storeCreatedAt nodeId currTime)
        else .ok (.ok missed, arena)
      else .ok (.ok missed, arena)

/-- `CheckCache` behind its scan: re-load the best node and answer from it. -/
def answerScan (query : Vec K) (currTime : UInt64) (scan : Scan K)
    (arena : MemoryArena (Vec K)) :
    Except Fault (Except Status CheckCacheResponse × MemoryArena (Vec K)) :=
  if atLeast scan.maxScore (similarityThreshold : K) then
    let nodeId := toSize scan.bestNodeId
    match arena.getNode nodeId with
    | .error fault => .error fault
    | .ok node =>
      let bestCtrl := node.controlBlock
      let ctrl := unpackControl bestCtrl
      match ctrl.state with
      | .ready | .migrating =>
        let payload := arena.readPayload ctrl.virtualOffset ctrl.length
        let desiredCtrl := packControl ctrl.state .hot ctrl.length ctrl.virtualOffset
        .ok (.ok ⟨.hit,-1,payload⟩, (arena.compareExchange nodeId bestCtrl desiredCtrl).2)
      | .pending => .ok (.ok ⟨.pending,scan.bestNodeId,[]⟩, arena)
      | .dead => claimSlot query currTime scan.bestNodeId arena
  else claimSlot query currTime scan.reusableNodeId arena

def checkCache (prompt : List UInt8) (embedding : Except String (Vec K)) (currTime : UInt64)
    (arena : MemoryArena (Vec K)) :
    Except Fault (Except Status CheckCacheResponse × MemoryArena (Vec K)) :=
  if prompt = [] then .ok (.error ⟨.invalidArgument,"User prompt is empty"⟩, arena)
  else
    match embedding with
    | .error what => .ok (.error ⟨.internal,"Encounter error: " ++ what⟩, arena)
    | .ok query =>
      let scanned := scanL0 query currTime arena
      answerScan query currTime scanned.2 scanned.1

end Service

variable {V : Type*}

/-- The node that a request's `int32_t` id names, cast to `uint32_t`. -/
def wireNode (requestNodeId : ℤ) : ℕ := (UInt32.ofNat requestNodeId.toNat).toNat

/-- The response of a `SetCache` that ends with status OK is its success flag. -/
def setCache (requestNodeId : ℤ) (payload : List UInt8) (arena : MemoryArena V) :
    Except Fault (Except Status Bool × MemoryArena V) :=
  if requestNodeId < 0 then
    .ok (.error ⟨.invalidArgument,"Attempt to WRITE using negative node_id"⟩, arena)
  else if payload = [] then .ok (.error ⟨.invalidArgument,"Cannot cache empty payload"⟩, arena)
  else
    let nodeId : UInt32 := .ofNat requestNodeId.toNat
    if maxPayloadLength.toNat < payload.length then
      .ok (.error ⟨.invalidArgument,"Oversized payload"⟩, arena)
    else
      let payloadLen : UInt32 := .ofNat payload.length
      match arena.getNode nodeId.toNat with
      | .error fault => .error fault
      | .ok _ =>
        match arena.writePayload nodeId payload payloadLen with
        | .error (.thrown what) =>
          .ok (.error ⟨.internal,"Encounter error" ++ what⟩, arena)
        | .error fault => .error fault
        | .ok (newOffset, arena) =>
          let desiredControl := packControl .ready .hot payloadLen newOffset
          let expectedControl := (arena.metadata nodeId.toNat).controlBlock
          if NodeState.ofBits (expectedControl >>> 62) ≠ .pending then .ok (.ok false, arena)
          else
            .ok (.ok true, (arena.compareExchange nodeId.toNat expectedControl desiredControl).2)

end Strix
