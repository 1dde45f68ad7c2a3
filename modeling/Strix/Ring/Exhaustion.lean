import Strix.Ring.Bound

/-! # When a pass of the collector throws

A rescue allocates like any writer. On a ring that writers have filled to the
back-pressure limit, the current record of a hot node at the tail cannot be
rescued and the exception of the allocation leaves the collector.
-/
namespace Strix
open ByteRing FramedLog RunHistory

section Condition
variable {K : Type*}

/-- The collector is not about to read the metadata array out of range. -/
def NodeInRange (arena : MemoryArena (Vec K)) : Prop :=
  ∀ header, arena.sight = .record header → header.nodeId.toNat < totalMaxSlots

/-- If the record at the tail is up for a rescue, the back-pressure test lets it through. -/
def RescueFits (arena : MemoryArena (Vec K)) : Prop :=
  ∀ length, allocationOf arena .collect = some length →
    arena.writeHead + (sizeofPayloadHeader + length.toUInt64) - arena.readTail < payloadBufferSize

variable {arena : MemoryArena (Vec K)}

theorem rescuePayload_ok_iff {tail : UInt64} {header : PayloadHeader} :
    (∃ p, arena.rescuePayload tail header = .ok p) ↔
      arena.writeHead + (sizeofPayloadHeader + header.length.toUInt64) - arena.readTail <
        payloadBufferSize := by
  rw [← UInt64.not_le]
  by_cases hfull : payloadBufferSize ≤
      arena.writeHead + (sizeofPayloadHeader + header.length.toUInt64) - arena.readTail
  · simp [MemoryArena.rescuePayload, MemoryArena.allocatePayload, hfull]
  · simp [MemoryArena.rescuePayload, MemoryArena.allocatePayload, hfull]

/-- A pass over any arena completes unless it leaves the metadata array or its
rescue finds no room. -/
theorem pass_completes_iff : (∃ arena', arena.runGarbageCollectorPass = .ok arena') ↔
    NodeInRange arena ∧ RescueFits arena := by
  cases hs : arena.sight with
  | belowWatermark | ringEnd | invalidIdentifier =>
    simp [MemoryArena.runGarbageCollectorPass, NodeInRange, RescueFits, allocationOf, hs]
  | record header =>
    by_cases hrange : header.nodeId.toNat < totalMaxSlots
    swap
    · have hget : arena.getNode header.nodeId.toNat = .error (.outOfRange header.nodeId.toNat) :=
        if_neg hrange
      simp [MemoryArena.runGarbageCollectorPass, NodeInRange, hs, hget, hrange]
    have hin : NodeInRange arena := by
      intro header' hs'
      rw [hs] at hs'
      obtain rfl := MemoryArena.Sighting.record.inj hs'
      exact hrange
    have hget := MemoryArena.getNode_of_lt arena hrange
    simp only [hin, true_and, RescueFits, allocationOf, hs, hrange,
      MemoryArena.runGarbageCollectorPass, hget]
    cases hold : MemoryArena.stale (arena.metadata header.nodeId.toNat).loadControl arena.readTail with
    | true => simp
    | false =>
      cases href : (arena.metadata header.nodeId.toNat).loadControl.refBit with
      | cold => simp
      | hot =>
        have hroom : (∃ p, arena.rescuePayload arena.readTail header = .ok p) ↔ _ :=
          rescuePayload_ok_iff
        cases hrescue : arena.rescuePayload arena.readTail header with
        | ok p => simpa [hrescue] using hroom
        | error fault => simpa [hrescue] using hroom

end Condition

section Runs
variable {K : Type*} [Scoring K] {es : List (Step K)} {arena : MemoryArena (Vec K)}

omit [Scoring K] in
theorem LiveRing.nodeInRange {T H : ℕ} {log : List (Entry PayloadRecord)}
    (h : LiveRing arena T log H) : NodeInRange arena := by
  intro header hs
  rcases h.meets with hlow | ⟨e,rest,-,⟨-,-,-,hgap⟩ | ⟨-,header',hs',-,-,hrange,-⟩⟩
  · rw [hs] at hlow
    simp at hlow
  · rw [hs] at hgap
    simp at hgap
  · rw [hs] at hs'
    obtain rfl := MemoryArena.Sighting.record.inj hs'
    exact hrange

/-- In a reachable state one more pass completes exactly when a rescue that is due
passes the back-pressure test and the header at the tail names a node, and the
header does so whenever the ring has not been overrun. -/
theorem collector_completes_iff (hrun : EngineRun es arena) :
    ((∃ arena', arena.runGarbageCollectorPass = .ok arena') ↔
      NodeInRange arena ∧ RescueFits arena) ∧
    ((∀ τ ∈ es, PaddingFits τ) → NodeInRange arena) := by
  refine ⟨pass_completes_iff,fun hfits => ?_⟩
  obtain ⟨log,hintact⟩ := EngineRun.intact hrun (bounded_of_paddingFits hrun hfits)
  exact hintact.ring.nodeInRange

end Runs

section Replay
variable {K : Type*} [Field K] [LinearOrder K] [IsStrictOrderedRing K]

/-- The only answer of the engine has been rescued, half a ring behind its first record. -/
theorem exists_rescued (query : Vec K) : ∃ (es : List (Step K)) (arena : MemoryArena (Vec K))
    (e : Entry PayloadRecord) (unused : List (Entry PayloadRecord)),
    EngineRun es arena ∧ (∀ τ ∈ es, Bounded τ) ∧
      (∀ τ ∈ es, τ.act.1 = .collect → ∀ n, (τ.before.metadata n).loadControl.state ≠ .pending) ∧
      (∀ a ∈ unused, a.item.nodeId = 1) ∧ e.offset = 2 ^ 31 ∧ e.item.nodeId = 0 ∧
      e.item.encode.length = 13 ∧ (∀ i, i ≠ 0 → arena.metadata i = ⟨0,0⟩) ∧
      arena.metadata 0 = ⟨1,packControl .ready .cold 1 (.ofNat (2 ^ 31))⟩ ∧
      arena.vectors 0 = query ∧ LiveRing arena 13 (unused ++ [e]) (2 ^ 31 + 13) := by
  have hw := oneByte_wellFormed
  have hsize : hw.record.encode.length = 13 := hw.record.encode_length
  have hplace : place (2 ^ 32) 12 (2 ^ 31) = 2 ^ 31 := place_of_fits (by decide)
  have hid : hw.record.nodeId = 0 := rfl
  obtain ⟨es,half,unused,hrun,hb,hcalls,hother,hhot,hvec,hids,hhalf⟩ :=
    exists_hot query (d := 2 ^ 31) (by decide) (by decide)
  have hword : (⟨1,packControl .ready .hot 1 0⟩ : MetaNode).loadControl = ⟨.ready,.hot,1,0⟩ := by
    decide
  obtain ⟨rescued,hpass,hvec',hmeta',hring'⟩ := hhalf.pass_rescue (by omega) rfl
    (by simp only [hid, hhot, hhalf.tail]; decide) (by simp only [hid, hhot]; decide)
    (by simp only [hsize]; omega)
  simp only [hid, hhot, hword, hsize, hplace, Nat.zero_add] at hmeta' hring'
  have hrescue : Bounded (⟨half,(.collect,.collected),rescued⟩ : Step K) := by
    refine (bounded_iff_place (n := 13) hhalf (by decide) (by decide) ?_).mpr ?_
    · rw [hring'.head, hplace]
    · rw [hplace]
      omega
  refine ⟨_,rescued,⟨2 ^ 31,hw.record⟩,unused,hrun.snoc (fires_collect.mpr hpass),?_,?_,hids,rfl,
    hid,hsize,fun i hi => ?_,?_,(congrFun hvec' 0).trans hvec,hring'⟩
  · rw [List.forall_mem_append, List.forall_mem_singleton]
    exact ⟨hb,hrescue⟩
  · rw [List.forall_mem_append, List.forall_mem_singleton]
    refine ⟨fun τ hτ hact => absurd hact (hcalls τ hτ),fun _ n => ?_⟩
    by_cases hn : n = 0
    · rw [hn, hhot]
      decide
    · rw [hother n hn]
      decide
  · rw [hmeta', Function.update_of_ne hi, hother i hi]
  · rw [hmeta', Function.update_self]

/-- The only answer of the engine has been rescued once, and the collector has
come to its record again. -/
theorem exists_cold (query : Vec K) : ∃ (es : List (Step K)) (arena : MemoryArena (Vec K))
    (e : Entry PayloadRecord) (log : List (Entry PayloadRecord)),
    EngineRun es arena ∧ (∀ τ ∈ es, Bounded τ) ∧
      (∀ τ ∈ es, τ.act.1 = .collect → ∀ n, (τ.before.metadata n).loadControl.state ≠ .pending) ∧
      e.offset = 2 ^ 31 ∧ e.item.nodeId = 0 ∧
      e.item.encode.length = 13 ∧ (∀ i, i ≠ 0 → arena.metadata i = ⟨0,0⟩) ∧
      arena.metadata 0 = ⟨1,packControl .ready .cold 1 (.ofNat (2 ^ 31))⟩ ∧
      arena.vectors 0 = query ∧ LiveRing arena (2 ^ 31) (e :: log) (2 ^ 32) := by
  obtain ⟨es,rescued,e,unused,hrun,hb,hsettled,hids,hoffset,hid,hsize,hother,hnode,hvec,hring⟩ :=
    exists_rescued query
  -- the second half is filled, so that the collector comes to the copy
  obtain ⟨gs,full,unused',hfill,hgs,hmeta,hvec',-,hfull⟩ :=
    exists_fill (n := 1) (d := 2 ^ 31 - 13) (by decide) hring
      (by rw [hother 1 (by decide)]; decide) (by omega) (by omega) (by omega)
  rw [List.append_assoc, show 2 ^ 31 + 13 + (2 ^ 31 - 13) = 2 ^ 32 by omega] at hfull
  obtain ⟨ks,hdrain,hks,hlast⟩ := exists_drain hfull (by omega) (by
    intro a ha
    rw [hids a ha, hmeta, hother 1 (by decide)]
    decide)
  rw [hoffset] at hlast hdrain
  have hcold : ∀ n, (full.metadata n).loadControl.state ≠ .pending := by
    intro n
    rw [hmeta]
    by_cases hn : n = 0
    · rw [hn, hnode]
      decide
    · rw [hother n hn]
      decide
  refine ⟨_,_,e,unused',(hrun.append hfill).append hdrain,?_,?_,hoffset,hid,hsize,?_,?_,?_,hlast⟩
  · simp only [List.forall_mem_append]
    exact ⟨⟨hb,fun τ hτ => (hgs τ hτ).1⟩,fun τ hτ => (hks τ hτ).1⟩
  · simp only [List.forall_mem_append]
    refine ⟨⟨hsettled,fun τ hτ hact => ?_⟩,fun τ hτ _ n => ?_⟩
    · obtain ⟨-,payload,hstore⟩ := hgs τ hτ
      simp [hstore] at hact
    · rw [(hks τ hτ).2]
      exact hcold n
  · intro i hi
    exact (congrFun hmeta i).trans (hother i hi)
  · exact (congrFun hmeta 0).trans hnode
  · exact (congrFun hvec' 0).trans hvec

/-- The first slot is answered, its record of 13 bytes is still hot, and leaked
records fill the ring to 13 bytes before its end. -/
theorem collector_exhausted : ∃ (es : List (Step ℚ)) (arena : MemoryArena (Vec ℚ)),
    EngineRun es arena ∧ (∀ τ ∈ es, Bounded τ) ∧
      arena.runGarbageCollectorPass = .error (.thrown "Resource Exhausted") := by
  have hsize : oneByte_wellFormed.record.encode.length = 13 :=
    oneByte_wellFormed.record.encode_length
  obtain ⟨es,arena,log,hrun,hb,-,-,hnode',-,-,hring'⟩ :=
    exists_hot (axis 0 : Vec ℚ) (d := 2 ^ 32 - 13) (by decide) (by decide)
  refine ⟨es,arena,hrun,hb,?_⟩
  have hpass := hring'.pass
  have hcurrent : MemoryArena.stale (arena.metadata 0).loadControl arena.readTail = false := by
    rw [hnode', hring'.tail]
    decide
  have hhot : (arena.metadata 0).loadControl.refBit = .hot := by
    rw [hnode']
    decide
  generalize arena.runGarbageCollectorPass = out at hpass
  cases hpass with
  | exhausted => rfl
  | asleep low => omega
  | leap _ gap => simp at gap
  | skip _ _ old =>
    have hold : MemoryArena.stale (arena.metadata 0).loadControl arena.readTail = true := old
    simp [hcurrent] at hold
  | evict _ _ _ cold =>
    have hcold : (arena.metadata 0).loadControl.refBit = .cold := cold
    simp [hhot] at hcold
  | rescue _ _ _ _ room =>
    simp only [hsize] at room
    omega

/-- With the ring half full the hot answer at the tail is due for a rescue, which fits. -/
theorem collector_completes_replay : ∃ (es : List (Step ℚ)) (arena : MemoryArena (Vec ℚ)),
    EngineRun es arena ∧ allocationOf arena .collect = some 1 ∧
      ∃ arena', arena.runGarbageCollectorPass = .ok arena' := by
  obtain ⟨es,arena,log,hrun,hb,-,-,hnode,-,-,hring⟩ :=
    exists_hot (axis 0 : Vec ℚ) (d := 2 ^ 31) (by decide) (by decide)
  have hdue : allocationOf arena .collect = some 1 := by
    refine hring.allocationOf_collect.mpr ⟨_,log,rfl,by omega,rfl,?_,?_,rfl⟩
    · simp only [WellFormedSet.record, show wireNode 0 = 0 from rfl, hnode, hring.tail]
      decide
    · simp only [WellFormedSet.record, show wireNode 0 = 0 from rfl, hnode]
      decide
  obtain ⟨hcompletes,hrange⟩ := collector_completes_iff hrun
  refine ⟨es,arena,hrun,hdue,hcompletes.mpr ⟨hrange (paddingFits_of_bounded hrun hb),?_⟩⟩
  intro length hlength
  rw [hdue, Option.some.injEq] at hlength
  rw [← hlength, hring.head, hring.tail]
  decide

end Replay

end Strix
