import Strix.Ring.Integrity
import Strix.Semantic.Separation

/-! # A hit returns what was last published

The node a hit answers from serves the record of its latest publication, and
reading that record back gives its bytes, wherever it now lies in the ring.
-/
namespace Strix
open ByteRing FramedLog RunHistory Scoring

section Bounded
variable {K : Type*} {τ : Step K} {T H : ℕ} {log : List (Entry PayloadRecord)}

theorem bounded_of_head_eq (h : τ.before.writeHead = τ.after.writeHead) : Bounded τ :=
  fun hne => absurd h hne

theorem bounded_of_ring (hring : LiveRing τ.after T log H)
    (htail : τ.before.readTail = τ.after.readTail) : Bounded τ := by
  intro _
  have hroom := hring.room
  rw [UInt64.le_iff_toNat_le, htail, hring.used_toNat, payloadBufferSize_toNat]
  omega

end Bounded

section Hit
variable {K : Type*} [Scoring K] {es es₁ es₂ : List (Step K)} {arena : MemoryArena (Vec K)}
  {τ : Step K} {n : ℕ} {payload : List UInt8}

/-- The step is a `CheckCache` that answered from node `n` with this payload. -/
def HitFrom (τ : Step K) (n : ℕ) (payload : List UInt8) : Prop :=
  ∃ prompt query t response,
    τ.act = (.checkCache prompt (.ok query) t, .checked (.ok response)) ∧
      response.checkState = .hit ∧ response.cachedPayload = payload ∧
      (scanL0 query t τ.before).2.bestNodeId = n

omit [Scoring K] in
theorem Intact.readPayload {log : List (Entry PayloadRecord)} (h : Intact es arena log)
    (hready : (arena.metadata n).loadControl.state = .ready) :
    latest publishes es n = some (arena.readPayload (arena.metadata n).loadControl.virtualOffset
      (arena.metadata n).loadControl.length) := by
  obtain ⟨e,he,-,⟨hoffset,hlength⟩,hcontent⟩ := h.served.ready n hready
  have hstored := (stored_append.mp (h.ring.holds.stored e he)).2
  rw [PayloadHeader.bytes_length] at hstored
  rw [hcontent, readPayload_eq hstored (by omega) hlength]

/-- Integrity of hits over whole runs. -/
theorem hit_returns_latest (hrun : EngineRun es arena) (hb : ∀ τ ∈ es, Bounded τ)
    (hsplit : es = es₁ ++ τ :: es₂) (hhit : HitFrom τ n payload) :
    latest publishes es₁ n = some payload := by
  subst hsplit
  obtain ⟨hbefore,hfire,-⟩ := Run.split_at hrun
  obtain ⟨log,hintact⟩ := EngineRun.intact hbefore fun σ hσ => hb σ (List.mem_append_left _ hσ)
  obtain ⟨prompt,query,t,response,hact,hstate,rfl,hbest⟩ := hhit
  rw [hact, fires_checkCache] at hfire
  rcases checkCache_cases hfire with ⟨⟨_,hstatus⟩,-⟩ | ⟨query',hquery,-,ho⟩
  · cases hstatus
  obtain rfl := Except.ok.inj hquery
  obtain ⟨m,hm,-,hfilled,hpayload⟩ := ho.of_hit hstate
  obtain rfl : m = n := by simpa [scanL0_eq, hm, slotId] using hbest
  rw [hpayload]
  rcases hfilled with hready | hmigrating
  · exact hintact.readPayload hready
  · exact absurd hmigrating (hintact.served.settled m)

end Hit

section Publish
variable {K : Type*} [Field K] [LinearOrder K] [IsStrictOrderedRing K]

theorem oneByte_wellFormed : WellFormedSet 0 [7] := ⟨le_rfl,by simp,by decide,by decide⟩

omit [Field K] [LinearOrder K] [IsStrictOrderedRing K] in
theorem LiveRing.publish_first {arena : MemoryArena (Vec K)} {payload : List UInt8}
    (hring : LiveRing arena 0 [] 0) (hw : WellFormedSet 0 payload)
    (hstate : (arena.metadata 0).loadControl.state = .pending) :
    ∃ stored, setCache 0 payload arena = .ok (.ok true, stored) ∧
      stored.metadata = Function.update arena.metadata 0 { arena.metadata 0 with
        controlBlock := packControl .ready .hot (.ofNat payload.length) 0 } ∧
      stored.vectors = arena.vectors ∧
      LiveRing stored 0 [⟨0,hw.record⟩] hw.record.encode.length := by
  have hlt := hw.record.length_lt
  have hsize := hw.record.encode_length
  have hplace : place (2 ^ 32) 12 0 = 0 := by decide
  have hwire : wireNode 0 = 0 := rfl
  obtain ⟨stored,hset,hmeta,hvec,hring'⟩ := hring.publish hw (by omega) (by rw [hplace]; omega)
    (by rw [hwire]; exact hstate)
  rw [hplace, Nat.zero_add] at hring'
  rw [hplace, hwire] at hmeta
  exact ⟨stored,hset,hmeta,hvec,hring'⟩

theorem exists_publishedRun (query : Vec K) (t : UInt64) {payload : List UInt8}
    (hw : WellFormedSet 0 payload) : ∃ claimed stored : MemoryArena (Vec K),
    Fires (freshArena K) (.checkCache [1] (.ok query) t, .checked (.ok ⟨.miss,0,[]⟩)) claimed ∧
      Fires claimed (.setCache 0 payload, .stored (.ok true)) stored ∧
      claimed.writeHead = 0 ∧ claimed.readTail = 0 ∧
      (∀ i, i ≠ 0 → stored.metadata i = ⟨0,0⟩) ∧
      stored.metadata 0 = ⟨t,packControl .ready .hot (.ofNat payload.length) 0⟩ ∧
      stored.vectors 0 = query ∧ LiveRing stored 0 [⟨0,hw.record⟩] hw.record.encode.length := by
  obtain ⟨claimed,hclaim,hnode,hother,hvec,hbuf,hhead,htail⟩ := exists_firstMiss query t
  have hring : LiveRing claimed 0 [] 0 :=
    (liveRing_initial (V := Vec K) 0).congr hbuf hhead htail
  obtain ⟨stored,hset,hmeta,hvec',hring'⟩ := hring.publish_first hw
    (by rw [hnode]; simp [MetaNode.loadControl])
  refine ⟨claimed,stored,hclaim,fires_setCache.mpr hset,hhead,htail,fun i hi => ?_,?_,
    by rw [hvec', hvec],hring'⟩
  · rw [hmeta, Function.update_of_ne hi, hother i hi]
  · rw [hmeta, Function.update_self, hnode]

theorem exists_published (query : Vec K) (t : UInt64) {payload : List UInt8}
    (hw : WellFormedSet 0 payload) : ∃ (es : List (Step K)) (arena : MemoryArena (Vec K)),
    EngineRun es arena ∧ (∀ τ ∈ es, Bounded τ) ∧ (∀ i, i ≠ 0 → arena.metadata i = ⟨0,0⟩) ∧
      arena.metadata 0 = ⟨t,packControl .ready .hot (.ofNat payload.length) 0⟩ ∧
      arena.vectors 0 = query ∧ LiveRing arena 0 [⟨0,hw.record⟩] hw.record.encode.length ∧
      arena.readPayload (arena.metadata 0).loadControl.virtualOffset
        (arena.metadata 0).loadControl.length = payload ∧ ∀ τ ∈ es, τ.act.1 ≠ .collect := by
  obtain ⟨claimed,stored,hclaim,hset,hhead,htail,hother,hnode,hvec,hring⟩ :=
    exists_publishedRun query t hw
  refine ⟨_,stored,((Run.nil _).snoc hclaim).snoc hset,?_,hother,hnode,hvec,hring,?_,by simp⟩
  · simp only [List.nil_append, List.cons_append, List.forall_mem_cons, List.not_mem_nil,
      false_imp_iff, implies_true, and_true]
    exact ⟨bounded_of_head_eq (by rw [hhead, freshArena_writeHead]),
      bounded_of_ring hring (by rw [hring.tail, htail]; rfl)⟩
  · have hlt := hw.record.length_lt
    have hlen := hw.length_toNat
    simp only [WellFormedSet.record] at hlt
    rw [hnode]
    refine readPayload_eq (v := 0) ?_ ?_ ?_
    · exact (stored_append.mp (hring.holds.stored _ (List.mem_singleton_self _))).2
    · rw [MetaNode.loadControl, unpackControl_packControl_virtualOffset]
      rfl
    · rw [MetaNode.loadControl, unpackControl_packControl_length, and_maxPayloadLength_toNat, hlen]
      exact Nat.mod_eq_of_lt hlt

/-- A reservation of second 1 that is still unanswered at second 32 is handed to
another query and can then be filled. -/
theorem exists_reclaim {arena : MemoryArena (Vec K)} (query : Vec K) {payload : List UInt8}
    (hw : WellFormedSet 0 payload) (hring : LiveRing arena 0 [] 0)
    (hnode : arena.metadata 0 = ⟨1,packControl .pending .hot 0 0⟩)
    (hother : ∀ i, i ≠ 0 → arena.metadata i = ⟨0,0⟩) : ∃ claimed stored : MemoryArena (Vec K),
    Fires arena (.checkCache [1] (.ok query) 32, .checked (.ok ⟨.miss,0,[]⟩)) claimed ∧
      Fires claimed (.setCache 0 payload, .stored (.ok true)) stored ∧
      stored.vectors 0 = query ∧ (stored.metadata 0).loadControl.state = .ready := by
  obtain ⟨claimed,hclaim,hclaimed,hbuf,hhead,htail⟩ := exists_miss (n := 0) query 32 (by decide)
    (by rw [hnode]; decide) (fun i hi => by omega)
    (by
      intro i _ hm
      by_cases hi : i = 0
      · rw [hi, hnode] at hm
        exact absurd hm (by decide)
      · rw [hother i hi] at hm
        exact absurd hm (by decide))
  obtain ⟨stored,hset,-,hvec,-⟩ := (hring.congr hbuf hhead htail).publish_first hw
    (by rw [hclaimed.node]; simp [MetaNode.loadControl])
  refine ⟨claimed,stored,hclaim,fires_setCache.mpr hset,?_,(pending_of_setCache hset).2⟩
  rw [hvec, hclaimed.vectors, Function.update_self]

theorem exists_hit {arena : MemoryArena (Vec K)} {query : Vec K} {t : UInt64} {n : ℕ}
    {payload : List UInt8} (hn : n < l0MaxSlots)
    (hready : (arena.metadata n).loadControl.state = .ready)
    (hread : arena.readPayload (arena.metadata n).loadControl.virtualOffset
      (arena.metadata n).loadControl.length = payload)
    (hsimilar : Similar query (arena.vectors n))
    (hother : ∀ i < l0MaxSlots, i ≠ n → (arena.metadata i).matchable t = true →
      cosineSimilarity query (arena.vectors i) < cosineSimilarity query (arena.vectors n)) :
    ∃ τ : Step K, τ.before = arena ∧ Fires arena τ.act τ.after ∧ Bounded τ ∧
      HitFrom τ n payload := by
  have ho := hitOutcome (t := t) hn hready hsimilar hother
  have hbest := bestSlot_of_greatest (t := t) hn (MetaNode.matchable_eq_true.mpr (.inl hready))
    hsimilar hother
  rw [hread] at ho
  refine ⟨⟨arena,_,_⟩,rfl,fires_checkCache.mpr (ho.checkCache_eq (show [1] ≠ [] by simp)),
    bounded_of_head_eq rfl,[1],query,t,_,rfl,rfl,rfl,?_⟩
  rw [scanL0_eq, hbest]
  rfl

theorem hit_returns_latest_replay : ∃ (es : List (Step ℚ)) (τ : Step ℚ)
    (arena : MemoryArena (Vec ℚ)), EngineRun (es ++ [τ]) arena ∧ HitFrom τ 0 [7] ∧
      latest publishes es 0 = some [7] := by
  have hw := oneByte_wellFormed
  obtain ⟨es,arena,hrun,hb,hother,hnode,hvec,-,hread,-⟩ := exists_published (axis 0 : Vec ℚ) 1 hw
  have hready : (arena.metadata 0).loadControl.state = .ready := by
    rw [hnode]
    decide
  have hsimilar : Similar (axis 0 : Vec ℚ) (arena.vectors 0) := by
    rw [hvec]
    exact (axis_normalized 0).similar
  obtain ⟨⟨before,act,after⟩,rfl,hfire,hbounded,hhit⟩ := exists_hit (t := 1) (by decide) hready
    hread hsimilar (by
      intro i _ hi hm
      rw [hother i hi] at hm
      exact absurd hm (by decide))
  refine ⟨es,_,after,hrun.snoc hfire,hhit,hit_returns_latest (hrun.snoc hfire) ?_ rfl hhit⟩
  rw [List.forall_mem_append, List.forall_mem_singleton]
  exact ⟨hb,hbounded⟩

end Publish

end Strix
