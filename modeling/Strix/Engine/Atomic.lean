import Strix.Engine.Stepwise
import Strix.Foundation.ThreadPool

/-! # The engine in atomic steps (service.cc)

Each load, compare-exchange and store on `control_block` and `created_at`, the
scoring of a slot, the copy of a query vector and the payload's way to and from
the ring is a step of its own. The collector and any number of clients, each
with one call, are the threads of a pool.
-/
namespace Strix
open RunHistory ThreadPool Scoring

/-- Where a `CheckCache` stands, with the values it has loaded. -/
inductive CheckPhase (K : Type*)
  | scanning (i : ℕ) (scan : Scan K)
  | aging (i : ℕ) (scan : Scan K) (bestCtrl : UInt64)
  | expiring (i : ℕ) (scan : Scan K) (bestCtrl birthTime : UInt64)
  | resetting (i : ℕ) (scan : Scan K)
  | scoring (i : ℕ) (scan : Scan K)
  | answering (scan : Scan K)
  | reading (nodeId : ℕ) (bestCtrl : UInt64)
  | touching (nodeId : ℕ) (bestCtrl : UInt64) (payload : List UInt8)
  | claiming (reusableNodeId : ℤ)
  | exchanging (reusableNodeId : ℤ) (expectedCtrl : UInt64)
  | copying (reusableNodeId : ℤ)
  | stamping (reusableNodeId : ℤ)

inductive SetPhase
  | writing
  | loading (newOffset : UInt64)
  | exchanging (newOffset expectedControl : UInt64)

/-- The threads: the collector, and the clients before, during and after a call. -/
inductive Actor (K : Type*)
  | collector (phase : CollectorPhase)
  | idle
  | checking (query : Vec K) (currTime : UInt64) (phase : CheckPhase K)
  | setting (nodeId : UInt32) (payload : List UInt8) (phase : SetPhase)
  | finished (reply : Reply)

/-- What a thread does next: a call with its inputs, or the next step of one. -/
inductive Action (K : Type*)
  | check (prompt : List UInt8) (embedding : Except String (Vec K)) (currTime : UInt64)
  | set (nodeId : ℤ) (payload : List UInt8)
  | proceed (spurious : Bool)

section Model
variable {K : Type*} [Scoring K]

def beginCheck (prompt : List UInt8) (embedding : Except String (Vec K)) (currTime : UInt64) :
    Actor K :=
  if prompt = [] then .finished (.checked (.error ⟨.invalidArgument,"User prompt is empty"⟩))
  else
    match embedding with
    | .error what => .finished (.checked (.error ⟨.internal,"Encounter error: " ++ what⟩))
    | .ok query =>
      .checking query currTime
        (.scanning 0 { maxScore := minusOne, bestNodeId := -1, reusableNodeId := -1 })

def beginClaim (query : Vec K) (currTime : UInt64) (reusableNodeId : ℤ) : Actor K :=
  if reusableNodeId = -1 then
    .finished (.checked (.error ⟨.internal,"Encounter error: " ++ "High traffic"⟩))
  else .checking query currTime (.claiming reusableNodeId)

def checkStep (query : Vec K) (currTime : UInt64) (arena : MemoryArena (Vec K))
    (phase : CheckPhase K) : Except Fault (MemoryArena (Vec K) × Actor K) :=
  let goOn := fun phase => Actor.checking query currTime phase
  match phase with
  | .scanning i scan =>
    if i < l0MaxSlots then
      let bestCtrl := (arena.metadata i).controlBlock
      let ctrl := unpackControl bestCtrl
      let scan := { scan with
        reusableNodeId :=
          if ctrl.state = .dead ∧ scan.reusableNodeId = -1 then i else scan.reusableNodeId }
      match ctrl.state with
      | .pending => .ok (arena, goOn (.aging i scan bestCtrl))
      | .ready | .migrating => .ok (arena, goOn (.scoring i scan))
      | .dead => .ok (arena, goOn (.scanning (i + 1) scan))
    else if atLeast scan.maxScore (similarityThreshold : K) then .ok (arena, goOn (.answering scan))
    else .ok (arena, beginClaim query currTime scan.reusableNodeId)
  | .aging i scan bestCtrl =>
    let birthTime := (arena.metadata i).createdAt
    if birthTime = 0 then .ok (arena, goOn (.scanning (i + 1) scan))
    else if pendingLifespan.toUInt64 < currTime - birthTime then
      .ok (arena, goOn (.expiring i scan bestCtrl birthTime))
    else .ok (arena, goOn (.scoring i scan))
  | .expiring i scan bestCtrl _ =>
    let ctrl := unpackControl bestCtrl
    let desiredCtrl := packControl .dead ctrl.refBit ctrl.length ctrl.virtualOffset
    let (exchanged, arena) := arena.compareExchange i bestCtrl desiredCtrl
    if exchanged then
      .ok (arena, goOn (.resetting i { scan with
        reusableNodeId := if scan.reusableNodeId = -1 then i else scan.reusableNodeId }))
    else .ok (arena, goOn (.scanning (i + 1) scan))
  | .resetting i scan => .ok (arena.storeCreatedAt i 0, goOn (.scanning (i + 1) scan))
  | .scoring i scan =>
    .ok (arena, goOn (.scanning (i + 1) (scoreSlot query (arena.vectors i) i scan)))
  | .answering scan =>
    let nodeId := toSize scan.bestNodeId
    match arena.getNode nodeId with
    | .error fault => .error fault
    | .ok node =>
      match node.loadControl.state with
      | .ready | .migrating => .ok (arena, goOn (.reading nodeId node.controlBlock))
      | .pending => .ok (arena, .finished (.checked (.ok ⟨.pending,scan.bestNodeId,[]⟩)))
      | .dead => .ok (arena, beginClaim query currTime scan.bestNodeId)
  | .reading nodeId bestCtrl =>
    let ctrl := unpackControl bestCtrl
    .ok (arena,
      goOn (.touching nodeId bestCtrl (arena.readPayload ctrl.virtualOffset ctrl.length)))
  | .touching nodeId bestCtrl payload =>
    let ctrl := unpackControl bestCtrl
    let desiredCtrl := packControl ctrl.state .hot ctrl.length ctrl.virtualOffset
    .ok ((arena.compareExchange nodeId bestCtrl desiredCtrl).2,
      .finished (.checked (.ok ⟨.hit,-1,payload⟩)))
  | .claiming reusableNodeId =>
    match arena.getNode (toSize reusableNodeId) with
    | .error fault => .error fault
    | .ok node =>
      if NodeState.ofBits (node.controlBlock >>> 62) = .dead then
        .ok (arena, goOn (.exchanging reusableNodeId node.controlBlock))
      else .ok (arena, .finished (.checked (.ok ⟨.miss,-1,[]⟩)))
  | .exchanging reusableNodeId expectedCtrl =>
    let desiredCtrl := packControl .pending .hot 0 0
    let (exchanged, arena) := arena.compareExchange (toSize reusableNodeId) expectedCtrl desiredCtrl
    if exchanged then .ok (arena, goOn (.copying reusableNodeId))
    else .ok (arena, .finished (.checked (.ok ⟨.miss,-1,[]⟩)))
  | .copying reusableNodeId =>
    .ok (arena.storeVector (toSize reusableNodeId) query, goOn (.stamping reusableNodeId))
  | .stamping reusableNodeId =>
    .ok (arena.storeCreatedAt (toSize reusableNodeId) currTime,
      .finished (.checked (.ok ⟨.miss,reusableNodeId,[]⟩)))

def beginSet (requestNodeId : ℤ) (payload : List UInt8) : Except Fault (Actor K) :=
  if requestNodeId < 0 then
    .ok (.finished (.stored
      (.error ⟨.invalidArgument,"Attempt to WRITE using negative node_id"⟩)))
  else if payload = [] then
    .ok (.finished (.stored (.error ⟨.invalidArgument,"Cannot cache empty payload"⟩)))
  else if maxPayloadLength.toNat < payload.length then
    .ok (.finished (.stored (.error ⟨.invalidArgument,"Oversized payload"⟩)))
  else
    let nodeId : UInt32 := .ofNat requestNodeId.toNat
    if nodeId.toNat < totalMaxSlots then .ok (.setting nodeId payload .writing)
    else .error (.outOfRange nodeId.toNat)

/-- One turn of the publish loop, on the control word loaded last. -/
def publishLoop (nodeId : UInt32) (payload : List UInt8) (newOffset expectedControl : UInt64) :
    Actor K :=
  if NodeState.ofBits (expectedControl >>> 62) ≠ .pending then .finished (.stored (.ok false))
  else .setting nodeId payload (.exchanging newOffset expectedControl)

/-- The next atomic step of a `SetCache`; the weak exchange may fail spuriously. -/
def setStep (nodeId : UInt32) (payload : List UInt8) (spurious : Bool)
    (arena : MemoryArena (Vec K)) (phase : SetPhase) :
    Except Fault (MemoryArena (Vec K) × Actor K) :=
  let payloadLen : UInt32 := .ofNat payload.length
  let control := (arena.metadata nodeId.toNat).controlBlock
  match phase with
  | .writing =>
    match arena.writePayload nodeId payload payloadLen with
    | .error (.thrown what) =>
      .ok (arena, .finished (.stored (.error ⟨.internal,"Encounter error" ++ what⟩)))
    | .error fault => .error fault
    | .ok (newOffset, arena) => .ok (arena, .setting nodeId payload (.loading newOffset))
  | .loading newOffset => .ok (arena, publishLoop nodeId payload newOffset control)
  | .exchanging newOffset expectedControl =>
    let desiredControl := packControl .ready .hot payloadLen newOffset
    if control = expectedControl ∧ spurious = false then
      .ok (arena.storeControl nodeId.toNat desiredControl, .finished (.stored (.ok true)))
    else .ok (arena, publishLoop nodeId payload newOffset control)

inductive AtomicStep : MemoryArena (Vec K) → Actor K → Action K → MemoryArena (Vec K) → Actor K →
    Prop
  | check {arena : MemoryArena (Vec K)} {prompt : List UInt8}
    {embedding : Except String (Vec K)} {currTime : UInt64} :
    AtomicStep arena .idle (.check prompt embedding currTime) arena
      (beginCheck prompt embedding currTime)
  | set {arena : MemoryArena (Vec K)} {nodeId : ℤ} {payload : List UInt8} {next : Actor K}
    (h : beginSet nodeId payload = .ok next) :
    AtomicStep arena .idle (.set nodeId payload) arena next
  | checking {arena arena' : MemoryArena (Vec K)} {query : Vec K} {currTime : UInt64}
    {phase : CheckPhase K} {spurious : Bool} {next : Actor K}
    (h : checkStep query currTime arena phase = .ok (arena', next)) :
    AtomicStep arena (.checking query currTime phase) (.proceed spurious) arena' next
  | setting {arena arena' : MemoryArena (Vec K)} {nodeId : UInt32} {payload : List UInt8}
    {phase : SetPhase} {spurious : Bool} {next : Actor K}
    (h : setStep nodeId payload spurious arena phase = .ok (arena', next)) :
    AtomicStep arena (.setting nodeId payload phase) (.proceed spurious) arena' next
  | collecting {arena : MemoryArena (Vec K)} {phase : CollectorPhase} {spurious : Bool}
    {s : Stepwise (Vec K)} (h : collectorStep ⟨arena,phase⟩ = .ok s) :
    AtomicStep arena (.collector phase) (.proceed spurious) s.arena (.collector s.phase)

abbrev AtomicPool (K : Type*) := Pool (Option ℕ) (MemoryArena (Vec K)) (Actor K)

abbrev AtomicBeat (K : Type*) := Transition (AtomicPool K) (Option ℕ × Action K)

def startAtomic (arena : MemoryArena (Vec K)) : AtomicPool K :=
  ⟨arena,fun i => i.elim (.collector .idle) fun _ => .idle⟩

/-- A run of the fresh engine in atomic steps. -/
def AtomicRun (es : List (AtomicBeat K)) (pool : AtomicPool K) : Prop :=
  Run (Moves AtomicStep) (startAtomic (freshArena K)) es pool

end Model

end Strix
