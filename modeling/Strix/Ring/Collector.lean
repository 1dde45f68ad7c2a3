import Strix.Ring.Rescue

/-! # The collector on a ring of records

On a ring that holds records from its tail on, a pass of the collector sleeps,
leaps the gap at the ring end, or meets the first record. The resync branch is
never taken and the header it reads is the one that was written.
-/
namespace Strix
open ByteRing FramedLog

section Ring
variable {V : Type*} {arena : MemoryArena V} {T H : ℕ} {e : Entry PayloadRecord}
  {log : List (Entry PayloadRecord)}

theorem liveRing_initial (zero : V) : LiveRing (MemoryArena.initial zero) 0 [] 0 :=
  ⟨rfl,rfl,by omega,holds_nil _ _⟩

theorem LiveRing.le (h : LiveRing arena T log H) : T ≤ H := h.holds.laid.le

theorem LiveRing.congr {arena' : MemoryArena V} (h : LiveRing arena T log H)
    (hbuf : arena'.bufferPayload = arena.bufferPayload) (hhead : arena'.writeHead = arena.writeHead)
    (htail : arena'.readTail = arena.readTail) : LiveRing arena' T log H :=
  ⟨hhead.trans h.head,htail.trans h.tail,h.room,by rw [hbuf]; exact h.holds⟩

theorem LiveRing.used_toNat (h : LiveRing arena T log H) :
    (arena.writeHead - arena.readTail).toNat = H - T := by
  have := h.room
  rw [h.head, h.tail, ofNat_sub_toNat h.le (by omega)]

theorem LiveRing.front (h : LiveRing arena T (e :: log) H) :
    e.offset = place (2 ^ 32) 12 T ∧ e.offset + e.item.encode.length ≤ H :=
  ⟨h.holds.laid.1,(h.holds.laid.bounds List.mem_cons_self).2⟩

theorem LiveRing.leap (h : LiveRing arena T (e :: log) H) :
    LiveRing (arena.advanceReadTail (.ofNat (e.offset - T))) e.offset (e :: log) H := by
  obtain ⟨hoff,hend⟩ := h.front
  have hle := le_place (2 ^ 32) 12 T
  have hroom := h.room
  refine ⟨h.head,?_,by omega,?_⟩
  · rw [MemoryArena.advanceReadTail_readTail, h.tail, ← UInt64.ofNat_add]
    congr 1
    omega
  · have := h.holds.leap (by decide) (by decide)
    rwa [← hoff] at this

theorem LiveRing.drop (h : LiveRing arena T (e :: log) H) (hfront : e.offset = T) :
    LiveRing (arena.advanceReadTail (.ofNat e.item.encode.length)) (T + e.item.encode.length)
      log H := by
  have hroom := h.room
  have hdrop := h.holds.drop
  rw [hfront] at hdrop
  refine ⟨h.head,?_,by have := hdrop.laid.le; omega,hdrop⟩
  rw [MemoryArena.advanceReadTail_readTail, h.tail, UInt64.ofNat_add]

theorem LiveRing.append {r : PayloadRecord} {buf : ℕ → UInt8} (h : LiveRing arena T log H)
    (hw : Writes (2 ^ 32) arena.bufferPayload buf (place (2 ^ 32) 12 H) r.encode)
    (hroom : place (2 ^ 32) 12 H + r.encode.length ≤ T + 2 ^ 32) :
    LiveRing { arena with
        writeHead := .ofNat (place (2 ^ 32) 12 H + r.encode.length)
        bufferPayload := buf } T (log ++ [⟨place (2 ^ 32) 12 H,r⟩])
      (place (2 ^ 32) 12 H + r.encode.length) :=
  ⟨rfl,h.tail,hroom,h.holds.append hw hroom⟩

theorem recordSize_toUInt64 (r : PayloadRecord) :
    (MemoryArena.recordSize r.header).toUInt64 = .ofNat r.encode.length := by
  have hlen := r.length_lt
  apply UInt64.toNat_inj.mp
  rw [UInt32.toNat_toUInt64, MemoryArena.recordSize, sizeof_add_ofNat, UInt64.toNat_toUInt32,
    UInt64.toNat_ofNat', UInt64.toNat_ofNat', r.header_length_toNat, r.encode_length]
  omega

theorem LiveRing.sight_cases (h : LiveRing arena T log H) :
    (H < T + 2 ^ 31 ∧ arena.sight = .belowWatermark) ∨
    (T + 2 ^ 31 ≤ H ∧ ∃ e rest, log = e :: rest ∧
      ((T < e.offset ∧ arena.sight = .ringEnd (.ofNat (e.offset - T))) ∨
        (e.offset = T ∧ arena.sight = .record e.item.header))) := by
  have hused := h.used_toNat
  by_cases hlow : H < T + 2 ^ 31
  · refine .inl ⟨hlow,?_⟩
    rw [MemoryArena.sight, if_pos]
    rw [UInt64.lt_iff_toNat_lt, hused, lowWatermarkThreshold_toNat]
    omega
  · refine .inr ⟨by omega,?_⟩
    have hnotLow : ¬ arena.writeHead - arena.readTail < lowWatermarkThreshold := by
      rw [UInt64.lt_iff_toNat_lt, hused, lowWatermarkThreshold_toNat]
      omega
    cases log with
    | nil =>
      obtain rfl : T = H := h.holds.laid
      omega
    | cons e rest =>
      refine ⟨e,rest,rfl,?_⟩
      obtain ⟨hoff,-⟩ := h.front
      have hend : (payloadBufferSize - (arena.readTail &&& (payloadBufferSize - 1))).toNat =
          2 ^ 32 - T % 2 ^ 32 := by rw [h.tail, ringEnd_toNat]
      have hindex : (arena.readTail &&& (payloadBufferSize - 1)).toNat = T % 2 ^ 32 := by
        rw [h.tail, ofNat_and_ringMask]
      by_cases hgap : 2 ^ 32 - T % 2 ^ 32 < 12
      · obtain ⟨hplace,-⟩ := place_mod_of_gap (N := 2 ^ 32) (by decide) hgap
        have hpadding : payloadBufferSize - (arena.readTail &&& (payloadBufferSize - 1)) =
            .ofNat (e.offset - T) := by
          apply UInt64.toNat_inj.mp
          rw [hend, UInt64.toNat_ofNat']
          omega
        refine .inl ⟨by omega,?_⟩
        rw [MemoryArena.sight, if_neg hnotLow]
        simp only [UInt64.lt_iff_toNat_lt, hend, sizeofPayloadHeader_toNat, if_pos hgap]
        rw [hpadding]
      · have hfits : T % 2 ^ 32 + 12 ≤ 2 ^ 32 := by omega
        rw [place_of_fits hfits] at hoff
        refine .inr ⟨hoff,?_⟩
        have hstored := h.holds.stored e List.mem_cons_self
        rw [hoff] at hstored
        have hload := (stored_append.mp hstored).1.load_eq (n := 12) le_rfl hfits
        have hread : readHeader arena.bufferPayload (T % 2 ^ 32) = e.item.header :=
          readHeader_of_bytes hload
        rw [MemoryArena.sight, if_neg hnotLow]
        simp only [UInt64.lt_iff_toNat_lt, hend, sizeofPayloadHeader_toNat, if_neg hgap, hindex,
          hread]
        rfl

theorem LiveRing.sight_awake (h : LiveRing arena T log H) (hpast : T + 2 ^ 31 ≤ H) :
    arena.sight ≠ .belowWatermark := by
  rcases h.sight_cases with ⟨hlow,-⟩ | ⟨-,e,rest,-,⟨-,hs⟩ | ⟨-,hs⟩⟩
  · omega
  · simp [hs]
  · simp [hs]

end Ring

section Pass
variable {V : Type*}

/-- What one whole pass does, by what it meets at the tail. -/
inductive PassOutcome (arena : MemoryArena V) (T H : ℕ) :
    List (Entry PayloadRecord) → Except Fault (MemoryArena V) → Prop
  | asleep {log : List (Entry PayloadRecord)} (low : H < T + 2 ^ 31) :
      PassOutcome arena T H log (.ok arena)
  | leap {e : Entry PayloadRecord} {log : List (Entry PayloadRecord)} (past : T + 2 ^ 31 ≤ H)
      (gap : T < e.offset) :
      PassOutcome arena T H (e :: log) (.ok (arena.advanceReadTail (.ofNat (e.offset - T))))
  | skip {e : Entry PayloadRecord} {log : List (Entry PayloadRecord)} (past : T + 2 ^ 31 ≤ H)
      (front : e.offset = T)
      (old : MemoryArena.stale (arena.metadata e.item.nodeId).loadControl arena.readTail = true) :
      PassOutcome arena T H (e :: log)
        (.ok (arena.advanceReadTail (.ofNat e.item.encode.length)))
  | evict {e : Entry PayloadRecord} {log : List (Entry PayloadRecord)} (past : T + 2 ^ 31 ≤ H)
      (front : e.offset = T)
      (current : MemoryArena.stale (arena.metadata e.item.nodeId).loadControl arena.readTail = false)
      (cold : (arena.metadata e.item.nodeId).loadControl.refBit = .cold) :
      PassOutcome arena T H (e :: log) (.ok (((arena.storeControl e.item.nodeId
        (packControl .dead (arena.metadata e.item.nodeId).loadControl.refBit
          (arena.metadata e.item.nodeId).loadControl.length
          (arena.metadata e.item.nodeId).loadControl.virtualOffset)).storeCreatedAt
            e.item.nodeId 0).advanceReadTail (.ofNat e.item.encode.length)))
  | exhausted {e : Entry PayloadRecord} {log : List (Entry PayloadRecord)}
      (past : T + 2 ^ 31 ≤ H) (front : e.offset = T)
      (current : MemoryArena.stale (arena.metadata e.item.nodeId).loadControl arena.readTail = false)
      (hot : (arena.metadata e.item.nodeId).loadControl.refBit = .hot)
      (full : T + 2 ^ 32 ≤ H + e.item.encode.length) :
      PassOutcome arena T H (e :: log) (.error (.thrown "Resource Exhausted"))
  | rescue {e : Entry PayloadRecord} {log : List (Entry PayloadRecord)} {buf : ℕ → UInt8}
      (past : T + 2 ^ 31 ≤ H) (front : e.offset = T)
      (current : MemoryArena.stale (arena.metadata e.item.nodeId).loadControl arena.readTail = false)
      (hot : (arena.metadata e.item.nodeId).loadControl.refBit = .hot)
      (room : H + e.item.encode.length < T + 2 ^ 32)
      (written : Writes (2 ^ 32) arena.bufferPayload buf (place (2 ^ 32) 12 H) e.item.encode) :
      PassOutcome arena T H (e :: log) (.ok ((({ arena with
          writeHead := .ofNat (place (2 ^ 32) 12 H + e.item.encode.length)
          bufferPayload := buf } : MemoryArena V).storeControl e.item.nodeId
        (packControl (arena.metadata e.item.nodeId).loadControl.state .cold
          (arena.metadata e.item.nodeId).loadControl.length
          (.ofNat (place (2 ^ 32) 12 H)))).advanceReadTail (.ofNat e.item.encode.length)))

variable {arena : MemoryArena V} {T H : ℕ} {log : List (Entry PayloadRecord)}

/-- The collector's rebuilt expected word is the word it has loaded. -/
theorem evictExchange_eq (nodeId : ℕ) :
    arena.evictExchange nodeId (arena.metadata nodeId).loadControl =
      arena.storeControl nodeId (packControl .dead (arena.metadata nodeId).loadControl.refBit
        (arena.metadata nodeId).loadControl.length
        (arena.metadata nodeId).loadControl.virtualOffset) := by
  have hword := packControl_unpackControl_eq (arena.metadata nodeId).controlBlock
  simp only [MemoryArena.evictExchange, MetaNode.loadControl, hword,
    MemoryArena.compareExchange_self]

theorem rehomeExchange_eq (arena : MemoryArena V) (nodeId : ℕ) (offset : UInt64)
    (hot : (arena.metadata nodeId).loadControl.refBit = .hot) :
    arena.rehomeExchange nodeId (arena.metadata nodeId).loadControl offset =
      arena.storeControl nodeId (packControl (arena.metadata nodeId).loadControl.state .cold
        (arena.metadata nodeId).loadControl.length offset) := by
  have hword := packControl_unpackControl_eq (arena.metadata nodeId).controlBlock
  rw [MetaNode.loadControl] at hot
  rw [hot] at hword
  simp only [MemoryArena.rehomeExchange, MetaNode.loadControl, hword,
    MemoryArena.compareExchange_self]

/-- Every pass over a live ring is one of the six. -/
theorem LiveRing.pass (h : LiveRing arena T log H) :
    PassOutcome arena T H log arena.runGarbageCollectorPass := by
  rcases h.sight_cases with ⟨hlow,hs⟩ | ⟨hpast,e,rest,rfl,⟨hgap,hs⟩ | ⟨hfront,hs⟩⟩
  · simp only [MemoryArena.runGarbageCollectorPass, hs]
    exact .asleep hlow
  · simp only [MemoryArena.runGarbageCollectorPass, hs]
    exact .leap hpast hgap
  · have hnode := MemoryArena.getNode_of_lt arena e.item.nodeId_lt
    simp only [MemoryArena.runGarbageCollectorPass, hs, e.item.header_nodeId_toNat, hnode,
      recordSize_toUInt64]
    have hfits := (h.front).2
    cases hstale : MemoryArena.stale (arena.metadata e.item.nodeId).loadControl arena.readTail with
    | true =>
      simp only [if_true]
      exact .skip hpast hfront hstale
    | false =>
      simp only [Bool.false_eq_true, if_false]
      cases href : (arena.metadata e.item.nodeId).loadControl.refBit with
      | cold =>
        simp only [if_true, evictExchange_eq]
        exact .evict hpast hfront hstale href
      | hot =>
        simp only [reduceCtorEq, if_false]
        by_cases hroom : H + e.item.encode.length < T + 2 ^ 32
        · have hstored := h.holds.stored e List.mem_cons_self
          rw [hfront] at hstored hfits
          obtain ⟨buf,hrescue,hwrites⟩ := rescuePayload_ok h.head h.tail hfits h.room hstored hroom
          have hexchange := rehomeExchange_eq ({ arena with
            writeHead := .ofNat (place (2 ^ 32) 12 H + e.item.encode.length)
            bufferPayload := buf }) e.item.nodeId (.ofNat (place (2 ^ 32) 12 H)) href
          simp only at hexchange
          simp only [hrescue, hexchange]
          exact .rescue hpast hfront hstale href hroom hwrites
        · rw [rescuePayload_full h.head h.tail h.le h.room (by omega)]
          exact .exhausted hpast hfront hstale href (by omega)

end Pass

end Strix
