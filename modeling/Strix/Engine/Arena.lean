import Strix.Engine.Node
import Strix.Foundation.ByteRing

/-! # The memory arena (arena.hh, arena.cc)

Metadata nodes, vectors and the payload ring, as the constructor lays them out.
Operations run here as a whole: a compare-exchange sees the word it was given
unless another step of the same call has changed it.
-/
namespace Strix
open ByteRing

/-- How a call leaves its normal path: a C++ exception, or an index beyond the
metadata array, for which the language defines no result. -/
inductive Fault
  | thrown (what : String)
  | outOfRange (index : ℕ)
  deriving DecidableEq, Repr

structure PayloadHeader where
  identifier : UInt32
  nodeId : UInt32
  length : UInt32
  deriving DecidableEq, Repr

def sizeofPayloadHeader : UInt64 := 12

theorem sizeofPayloadHeader_toNat : sizeofPayloadHeader.toNat = 12 := rfl

/-- The memory image of a word on a little-endian machine. -/
def wordBytes (w : UInt32) : List UInt8 :=
  [.ofNat w.toNat, .ofNat (w.toNat / 2 ^ 8), .ofNat (w.toNat / 2 ^ 16), .ofNat (w.toNat / 2 ^ 24)]

def readWord (buf : ℕ → UInt8) (index : ℕ) : UInt32 :=
  .ofNat ((buf index).toNat + (buf (index + 1)).toNat * 2 ^ 8 +
    (buf (index + 2)).toNat * 2 ^ 16 + (buf (index + 3)).toNat * 2 ^ 24)

def PayloadHeader.bytes (header : PayloadHeader) : List UInt8 :=
  wordBytes header.identifier ++ wordBytes header.nodeId ++ wordBytes header.length

def readHeader (buf : ℕ → UInt8) (index : ℕ) : PayloadHeader :=
  ⟨readWord buf index,readWord buf (index + 4),readWord buf (index + 8)⟩

def RingIndex := {index : UInt64 // index.toNat < 2 ^ 32}

theorem and_payloadBufferSize_toNat (offset : UInt64) :
    (offset &&& (payloadBufferSize - 1)).toNat = offset.toNat % 2 ^ 32 := by
  rw [UInt64.toNat_and, show (payloadBufferSize - 1).toNat = 2 ^ 32 - 1 from rfl,
    Nat.and_two_pow_sub_one_eq_mod]

def ringIndex (offset : UInt64) : RingIndex :=
  ⟨offset &&& (payloadBufferSize - 1),
    by rw [and_payloadBufferSize_toNat]; exact Nat.mod_lt _ (by decide)⟩

theorem ringIndex_toNat (offset : UInt64) : (ringIndex offset).val.toNat = offset.toNat % 2 ^ 32 :=
  and_payloadBufferSize_toNat offset

structure MemoryArena (V : Type*) where
  metadata : ℕ → MetaNode
  vectors : ℕ → V
  bufferPayload : ℕ → UInt8
  writeHead : UInt64
  readTail : UInt64

def chunkSize (src dst : RingIndex) (bytesLeft : UInt64) : UInt64 :=
  min bytesLeft (min (payloadBufferSize - src.val) (payloadBufferSize - dst.val))

theorem chunkSize_toNat (src dst : RingIndex) (bytesLeft : UInt64) :
    (chunkSize src dst bytesLeft).toNat =
      min bytesLeft.toNat (min (2 ^ 32 - src.val.toNat) (2 ^ 32 - dst.val.toNat)) := by
  have hs := src.property
  have hd := dst.property
  rw [chunkSize, UInt64.toNat_min, UInt64.toNat_min, UInt64.toNat_sub, UInt64.toNat_sub,
    payloadBufferSize_toNat]
  omega

/-- The collector's copy of a payload, in chunks that stop at either ring end. -/
def copyChunks (buf : ℕ → UInt8) (src dst : RingIndex) (bytesLeft : UInt64) : ℕ → UInt8 :=
  if 0 < bytesLeft then
    copyChunks
      (memcpy buf dst.val.toNat (load buf src.val.toNat (chunkSize src dst bytesLeft).toNat))
      (ringIndex (src.val + chunkSize src dst bytesLeft))
      (ringIndex (dst.val + chunkSize src dst bytesLeft))
      (bytesLeft - chunkSize src dst bytesLeft)
  else buf
termination_by bytesLeft.toNat
decreasing_by
  have hpos : 0 < bytesLeft.toNat := by rw [UInt64.lt_iff_toNat_lt] at *; assumption
  have hs := src.property
  have hd := dst.property
  have hc := chunkSize_toNat src dst bytesLeft
  have hb := bytesLeft.toNat_lt
  rw [UInt64.toNat_sub]
  omega

namespace MemoryArena
variable {V : Type*}

def initial (zero : V) : MemoryArena V where
  metadata := fun _ => ⟨0,0⟩
  vectors := fun _ => zero
  bufferPayload := fun _ => 0
  writeHead := 0
  readTail := 0

def getNode (arena : MemoryArena V) (nodeId : ℕ) : Except Fault MetaNode :=
  if nodeId < totalMaxSlots then .ok (arena.metadata nodeId) else .error (.outOfRange nodeId)

def stateOf (arena : MemoryArena V) (nodeId : ℕ) : NodeState :=
  (arena.metadata nodeId).loadControl.state

def storeControl (arena : MemoryArena V) (nodeId : ℕ) (control : UInt64) : MemoryArena V :=
  { arena with
    metadata := Function.update arena.metadata nodeId
      { arena.metadata nodeId with controlBlock := control } }

def storeCreatedAt (arena : MemoryArena V) (nodeId : ℕ) (createdAt : UInt64) : MemoryArena V :=
  { arena with
    metadata := Function.update arena.metadata nodeId
      { arena.metadata nodeId with createdAt := createdAt } }

def storeVector (arena : MemoryArena V) (nodeId : ℕ) (vector : V) : MemoryArena V :=
  { arena with vectors := Function.update arena.vectors nodeId vector }

def compareExchange (arena : MemoryArena V) (nodeId : ℕ) (expected desired : UInt64) :
    Bool × MemoryArena V :=
  if (arena.metadata nodeId).controlBlock = expected then
    (true, arena.storeControl nodeId desired)
  else (false, arena)

/-- The wrap-around padding in front of a header at write position `currWrite`. -/
def headerPadding (currWrite : UInt64) : UInt64 :=
  let actualIndex := currWrite &&& (payloadBufferSize - 1)
  if payloadBufferSize - actualIndex < sizeofPayloadHeader then payloadBufferSize - actualIndex
  else 0

/-- Run as a whole, the loop's compare-exchange finds the head it has loaded. -/
def allocatePayload (arena : MemoryArena V) (length : UInt32) :
    Except Fault (UInt64 × MemoryArena V) :=
  let totalSize := sizeofPayloadHeader + length.toUInt64
  let currWrite := arena.writeHead
  if payloadBufferSize ≤ currWrite + totalSize - arena.readTail then
    .error (.thrown "Resource Exhausted")
  else
    let allocatedOffset := currWrite + headerPadding currWrite
    .ok (allocatedOffset, { arena with writeHead := allocatedOffset + totalSize })

def readPayload (arena : MemoryArena V) (vOffset : UInt64) (length : UInt32) : List UInt8 :=
  if length = 0 then []
  else
    let textIndex := (vOffset + sizeofPayloadHeader) &&& (payloadBufferSize - 1)
    if length.toUInt64 ≤ payloadBufferSize - textIndex then
      load arena.bufferPayload textIndex.toNat length.toNat
    else
      let chunk1Size := payloadBufferSize - textIndex
      let chunk2Size := length.toUInt64 - chunk1Size
      load arena.bufferPayload textIndex.toNat chunk1Size.toNat ++
        load arena.bufferPayload 0 chunk2Size.toNat

def writePayload (arena : MemoryArena V) (nodeId : UInt32) (inPayload : List UInt8)
    (length : UInt32) : Except Fault (UInt64 × MemoryArena V) :=
  match arena.allocatePayload length with
  | .error fault => .error fault
  | .ok (headerOffset, arena) =>
    let headerIndex := headerOffset &&& (payloadBufferSize - 1)
    let header : PayloadHeader := ⟨validIdentifier,nodeId,length⟩
    let buf := memcpy arena.bufferPayload headerIndex.toNat header.bytes
    let textIndex := (headerIndex + sizeofPayloadHeader) &&& (payloadBufferSize - 1)
    let text := inPayload.take length.toNat
    let buf :=
      if length.toUInt64 ≤ payloadBufferSize - textIndex then memcpy buf textIndex.toNat text
      else
        let chunk1Size := (payloadBufferSize - textIndex).toNat
        memcpy (memcpy buf textIndex.toNat (text.take chunk1Size)) 0 (text.drop chunk1Size)
    .ok (headerOffset, { arena with bufferPayload := buf })

def advanceReadTail (arena : MemoryArena V) (n : UInt64) : MemoryArena V :=
  { arena with readTail := arena.readTail + n }

/-- What one pass of the collector's loop finds before it looks at a node. -/
inductive Sighting
  | belowWatermark
  | ringEnd (padding : UInt64)
  | invalidIdentifier
  | record (header : PayloadHeader)
  deriving DecidableEq, Repr

def sight (arena : MemoryArena V) : Sighting :=
  let head := arena.writeHead
  let tail := arena.readTail
  if head - tail < lowWatermarkThreshold then .belowWatermark
  else
    let tailIndex := tail &&& (payloadBufferSize - 1)
    let padding := payloadBufferSize - tailIndex
    if padding < sizeofPayloadHeader then .ringEnd padding
    else
      let header := readHeader arena.bufferPayload tailIndex.toNat
      if header.identifier ≠ validIdentifier then .invalidIdentifier else .record header

/-- The size by which the collector passes a record, cut to 32 bits. -/
def recordSize (header : PayloadHeader) : UInt32 :=
  (sizeofPayloadHeader + header.length.toUInt64).toUInt32

/-- The record at `tail` is not the one the node refers to. -/
def stale (ctrl : UnpackedControl) (tail : UInt64) : Bool :=
  ctrl.state = .dead || ctrl.virtualOffset ≠ tail &&& virtualOffsetMask

def evictExchange (arena : MemoryArena V) (nodeId : ℕ) (ctrl : UnpackedControl) :
    MemoryArena V :=
  let expectedCtrl := packControl ctrl.state ctrl.refBit ctrl.length ctrl.virtualOffset
  let desiredCtrl := packControl .dead ctrl.refBit ctrl.length ctrl.virtualOffset
  (arena.compareExchange nodeId expectedCtrl desiredCtrl).2

/-- A hot node's record is copied to a fresh place at the write head. -/
def rescuePayload (arena : MemoryArena V) (tail : UInt64) (header : PayloadHeader) :
    Except Fault (UInt64 × MemoryArena V) :=
  match arena.allocatePayload header.length with
  | .error fault => .error fault
  | .ok (rescuedOffset, arena) =>
    let rescuedIndex := rescuedOffset &&& (payloadBufferSize - 1)
    let newHeader : PayloadHeader := ⟨validIdentifier,header.nodeId,header.length⟩
    let buf := memcpy arena.bufferPayload rescuedIndex.toNat newHeader.bytes
    let buf := copyChunks buf (ringIndex (tail + sizeofPayloadHeader))
      (ringIndex (rescuedOffset + sizeofPayloadHeader)) header.length.toUInt64
    .ok (rescuedOffset, { arena with bufferPayload := buf })

def rehomeExchange (arena : MemoryArena V) (nodeId : ℕ) (ctrl : UnpackedControl)
    (rescuedOffset : UInt64) : MemoryArena V :=
  let expectedCtrl := packControl ctrl.state .hot ctrl.length ctrl.virtualOffset
  let desiredCtrl := packControl ctrl.state .cold ctrl.length rescuedOffset
  (arena.compareExchange nodeId expectedCtrl desiredCtrl).2

/-- One pass of the loop of `RunGarbageCollector`, run as a whole. -/
def runGarbageCollectorPass (arena : MemoryArena V) : Except Fault (MemoryArena V) :=
  let tail := arena.readTail
  match arena.sight with
  | .belowWatermark => .ok arena
  | .ringEnd padding => .ok (arena.advanceReadTail padding)
  | .invalidIdentifier => .ok (arena.advanceReadTail 1)
  | .record header =>
    let nodeId := header.nodeId.toNat
    match arena.getNode nodeId with
    | .error fault => .error fault
    | .ok node =>
      let totalSize := (recordSize header).toUInt64
      let ctrl := node.loadControl
      if stale ctrl tail then .ok (arena.advanceReadTail totalSize)
      else if ctrl.refBit = .cold then
        .ok (((arena.evictExchange nodeId ctrl).storeCreatedAt nodeId 0).advanceReadTail totalSize)
      else
        match arena.rescuePayload tail header with
        | .error fault => .error fault
        | .ok (rescuedOffset, arena) =>
          .ok ((arena.rehomeExchange nodeId ctrl rescuedOffset).advanceReadTail totalSize)

section Fields
variable (arena : MemoryArena V) (nodeId : ℕ) (w : UInt64) (vector : V)

@[simp] theorem storeControl_self : (arena.storeControl nodeId w).metadata nodeId =
    { arena.metadata nodeId with controlBlock := w } := Function.update_self ..

@[simp] theorem storeControl_of_ne {i : ℕ} (h : i ≠ nodeId) :
    (arena.storeControl nodeId w).metadata i = arena.metadata i := Function.update_of_ne h ..

@[simp] theorem storeControl_vectors :
    (arena.storeControl nodeId w).vectors = arena.vectors := rfl
@[simp] theorem storeControl_bufferPayload :
    (arena.storeControl nodeId w).bufferPayload = arena.bufferPayload := rfl
@[simp] theorem storeControl_writeHead :
    (arena.storeControl nodeId w).writeHead = arena.writeHead := rfl
@[simp] theorem storeControl_readTail :
    (arena.storeControl nodeId w).readTail = arena.readTail := rfl

@[simp] theorem storeCreatedAt_self : (arena.storeCreatedAt nodeId w).metadata nodeId =
    { arena.metadata nodeId with createdAt := w } := Function.update_self ..

@[simp] theorem storeCreatedAt_of_ne {i : ℕ} (h : i ≠ nodeId) :
    (arena.storeCreatedAt nodeId w).metadata i = arena.metadata i := Function.update_of_ne h ..

@[simp] theorem storeCreatedAt_vectors :
    (arena.storeCreatedAt nodeId w).vectors = arena.vectors := rfl
@[simp] theorem storeCreatedAt_bufferPayload :
    (arena.storeCreatedAt nodeId w).bufferPayload = arena.bufferPayload := rfl
@[simp] theorem storeCreatedAt_writeHead :
    (arena.storeCreatedAt nodeId w).writeHead = arena.writeHead := rfl
@[simp] theorem storeCreatedAt_readTail :
    (arena.storeCreatedAt nodeId w).readTail = arena.readTail := rfl

@[simp] theorem storeVector_metadata :
    (arena.storeVector nodeId vector).metadata = arena.metadata := rfl
@[simp] theorem storeVector_self :
    (arena.storeVector nodeId vector).vectors nodeId = vector := Function.update_self ..
@[simp] theorem storeVector_of_ne {i : ℕ} (h : i ≠ nodeId) :
    (arena.storeVector nodeId vector).vectors i = arena.vectors i := Function.update_of_ne h ..
@[simp] theorem storeVector_bufferPayload :
    (arena.storeVector nodeId vector).bufferPayload = arena.bufferPayload := rfl
@[simp] theorem storeVector_writeHead :
    (arena.storeVector nodeId vector).writeHead = arena.writeHead := rfl
@[simp] theorem storeVector_readTail :
    (arena.storeVector nodeId vector).readTail = arena.readTail := rfl

@[simp] theorem advanceReadTail_metadata :
    (arena.advanceReadTail w).metadata = arena.metadata := rfl
@[simp] theorem advanceReadTail_vectors :
    (arena.advanceReadTail w).vectors = arena.vectors := rfl
@[simp] theorem advanceReadTail_bufferPayload :
    (arena.advanceReadTail w).bufferPayload = arena.bufferPayload := rfl
@[simp] theorem advanceReadTail_writeHead :
    (arena.advanceReadTail w).writeHead = arena.writeHead := rfl
@[simp] theorem advanceReadTail_readTail :
    (arena.advanceReadTail w).readTail = arena.readTail + w := rfl

theorem compareExchange_self : arena.compareExchange nodeId (arena.metadata nodeId).controlBlock w =
    (true, arena.storeControl nodeId w) := if_pos rfl

theorem compareExchange_of_ne {expected : UInt64}
    (h : (arena.metadata nodeId).controlBlock ≠ expected) :
    arena.compareExchange nodeId expected w = (false, arena) := if_neg h

theorem compareExchange_fields (expected : UInt64) :
    (arena.compareExchange nodeId expected w).2.vectors = arena.vectors ∧
      (arena.compareExchange nodeId expected w).2.bufferPayload = arena.bufferPayload ∧
      (arena.compareExchange nodeId expected w).2.writeHead = arena.writeHead ∧
      (arena.compareExchange nodeId expected w).2.readTail = arena.readTail := by
  rw [compareExchange]
  split <;> exact ⟨rfl,rfl,rfl,rfl⟩

theorem evictExchange_fields (ctrl : UnpackedControl) :
    (arena.evictExchange nodeId ctrl).vectors = arena.vectors ∧
      (arena.evictExchange nodeId ctrl).bufferPayload = arena.bufferPayload ∧
      (arena.evictExchange nodeId ctrl).writeHead = arena.writeHead ∧
      (arena.evictExchange nodeId ctrl).readTail = arena.readTail :=
  arena.compareExchange_fields nodeId _ _

theorem rehomeExchange_fields (ctrl : UnpackedControl) (offset : UInt64) :
    (arena.rehomeExchange nodeId ctrl offset).vectors = arena.vectors ∧
      (arena.rehomeExchange nodeId ctrl offset).bufferPayload = arena.bufferPayload ∧
      (arena.rehomeExchange nodeId ctrl offset).writeHead = arena.writeHead ∧
      (arena.rehomeExchange nodeId ctrl offset).readTail = arena.readTail :=
  arena.compareExchange_fields nodeId _ _

variable {nodeId} in
theorem getNode_of_lt (h : nodeId < totalMaxSlots) :
    arena.getNode nodeId = .ok (arena.metadata nodeId) := if_pos h

variable {nodeId} in
theorem getNode_eq {node : MetaNode} (h : arena.getNode nodeId = .ok node) :
    arena.metadata nodeId = node := by
  unfold getNode at h
  split at h
  · exact Except.ok.inj h
  · simp only [reduceCtorEq] at h

variable (m n : ℕ)

theorem stateOf_storeControl : (arena.storeControl m w).stateOf n =
    if n = m then (unpackControl w).state else arena.stateOf n := by
  unfold stateOf MetaNode.loadControl
  split
  · rename_i h
    rw [h, storeControl_self]
  · rename_i h
    rw [storeControl_of_ne _ _ _ h]

theorem stateOf_storeCreatedAt : (arena.storeCreatedAt m w).stateOf n = arena.stateOf n := by
  unfold stateOf MetaNode.loadControl
  by_cases h : n = m
  · rw [h, storeCreatedAt_self]
  · rw [storeCreatedAt_of_ne _ _ _ h]

end Fields

end MemoryArena

section Fields
variable {V : Type*} {arena arena' : MemoryArena V} {length : UInt32} {offset : UInt64}

theorem allocatePayload_fields (h : arena.allocatePayload length = .ok (offset, arena')) :
    arena'.metadata = arena.metadata ∧ arena'.vectors = arena.vectors ∧
      arena'.bufferPayload = arena.bufferPayload ∧ arena'.readTail = arena.readTail := by
  simp only [MemoryArena.allocatePayload] at h
  split at h
  · simp only [reduceCtorEq] at h
  · rw [Except.ok.injEq, Prod.mk.injEq] at h
    obtain ⟨-,rfl⟩ := h
    exact ⟨rfl,rfl,rfl,rfl⟩

theorem rescuePayload_fields {tail offset : UInt64} {header : PayloadHeader}
    (h : arena.rescuePayload tail header = .ok (offset, arena')) :
    arena'.metadata = arena.metadata ∧ arena'.vectors = arena.vectors ∧
      arena'.readTail = arena.readTail := by
  unfold MemoryArena.rescuePayload at h
  cases ha : arena.allocatePayload header.length with
  | error fault =>
    rw [ha] at h
    cases h
  | ok p =>
    obtain ⟨off,allocated⟩ := p
    obtain ⟨hm,hv,-,ht⟩ := allocatePayload_fields ha
    rw [ha] at h
    cases h
    exact ⟨hm,hv,ht⟩

end Fields

section Pass
variable {V : Type*} {arena arena' : MemoryArena V}
open MemoryArena

/-- What a pass that completes does, by what it meets at the tail. -/
inductive PassMove (arena : MemoryArena V) : MemoryArena V → Prop
  | asleep (hs : arena.sight = .belowWatermark) : PassMove arena arena
  | leap {padding : UInt64} (hs : arena.sight = .ringEnd padding) :
      PassMove arena (arena.advanceReadTail padding)
  | resync (hs : arena.sight = .invalidIdentifier) : PassMove arena (arena.advanceReadTail 1)
  | skip {header : PayloadHeader} (hs : arena.sight = .record header)
      (hnode : arena.getNode header.nodeId.toNat = .ok (arena.metadata header.nodeId.toNat))
      (old : stale (arena.metadata header.nodeId.toNat).loadControl arena.readTail = true) :
      PassMove arena (arena.advanceReadTail (recordSize header).toUInt64)
  | evict {header : PayloadHeader} (hs : arena.sight = .record header)
      (hnode : arena.getNode header.nodeId.toNat = .ok (arena.metadata header.nodeId.toNat))
      (current : stale (arena.metadata header.nodeId.toNat).loadControl arena.readTail = false)
      (cold : (arena.metadata header.nodeId.toNat).loadControl.refBit = .cold) :
      PassMove arena (((arena.evictExchange header.nodeId.toNat
        (arena.metadata header.nodeId.toNat).loadControl).storeCreatedAt
          header.nodeId.toNat 0).advanceReadTail (recordSize header).toUInt64)
  | rescue {header : PayloadHeader} {offset : UInt64} {rescued : MemoryArena V}
      (hs : arena.sight = .record header)
      (hnode : arena.getNode header.nodeId.toNat = .ok (arena.metadata header.nodeId.toNat))
      (current : stale (arena.metadata header.nodeId.toNat).loadControl arena.readTail = false)
      (hot : (arena.metadata header.nodeId.toNat).loadControl.refBit = .hot)
      (hrescue : arena.rescuePayload arena.readTail header = .ok (offset, rescued)) :
      PassMove arena ((rescued.rehomeExchange header.nodeId.toNat
        (arena.metadata header.nodeId.toNat).loadControl offset).advanceReadTail
          (recordSize header).toUInt64)

theorem pass_move (h : arena.runGarbageCollectorPass = .ok arena') : PassMove arena arena' := by
  unfold runGarbageCollectorPass at h
  cases hs : arena.sight with
  | belowWatermark =>
    simp only [hs, Except.ok.injEq] at h
    subst h
    exact .asleep hs
  | ringEnd padding =>
    simp only [hs, Except.ok.injEq] at h
    subst h
    exact .leap hs
  | invalidIdentifier =>
    simp only [hs, Except.ok.injEq] at h
    subst h
    exact .resync hs
  | record header =>
    by_cases hrange : header.nodeId.toNat < totalMaxSlots
    swap
    · have hnode : arena.getNode header.nodeId.toNat = .error (.outOfRange header.nodeId.toNat) :=
        if_neg hrange
      simp only [hs, hnode, reduceCtorEq] at h
    have hnode := getNode_of_lt arena hrange
    simp only [hs, hnode] at h
    cases hold : stale (arena.metadata header.nodeId.toNat).loadControl arena.readTail with
    | true =>
      simp only [hold, if_true, Except.ok.injEq] at h
      subst h
      exact .skip hs hnode hold
    | false =>
      simp only [hold, Bool.false_eq_true, if_false] at h
      cases href : (arena.metadata header.nodeId.toNat).loadControl.refBit with
      | cold =>
        simp only [href, if_true, Except.ok.injEq] at h
        subst h
        exact .evict hs hnode hold href
      | hot =>
        simp only [href, reduceCtorEq, if_false] at h
        cases hrescue : arena.rescuePayload arena.readTail header with
        | error fault => simp only [hrescue, reduceCtorEq] at h
        | ok p =>
          simp only [hrescue, Except.ok.injEq] at h
          subst h
          exact .rescue hs hnode hold href hrescue

end Pass

end Strix
