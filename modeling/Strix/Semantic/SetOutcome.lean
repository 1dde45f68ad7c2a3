import Strix.Engine.Service

/-! # The outcomes of a whole `SetCache`

A call fails before it has written anything, or it writes its record first and
then publishes it only when the node is still pending; a late record is leaked.
-/
namespace Strix

section Fields
variable {V : Type*} {arena arena' : MemoryArena V} {length : UInt32} {offset : UInt64}

theorem allocatePayload_error {fault : Fault} (h : arena.allocatePayload length = .error fault) :
    fault = .thrown "Resource Exhausted" := by
  simp only [MemoryArena.allocatePayload] at h
  split at h
  · exact (Except.error.inj h).symm
  · simp only [reduceCtorEq] at h

theorem writePayload_fields {nodeId : UInt32} {payload : List UInt8}
    (h : arena.writePayload nodeId payload length = .ok (offset, arena')) :
    arena'.metadata = arena.metadata ∧ arena'.vectors = arena.vectors ∧
      arena'.readTail = arena.readTail := by
  unfold MemoryArena.writePayload at h
  cases ha : arena.allocatePayload length with
  | error fault =>
    rw [ha] at h
    cases h
  | ok p =>
    obtain ⟨off,allocated⟩ := p
    obtain ⟨hm,hv,-,ht⟩ := allocatePayload_fields ha
    rw [ha] at h
    cases h
    exact ⟨hm,hv,ht⟩

theorem writePayload_error {nodeId : UInt32} {payload : List UInt8} {fault : Fault}
    (h : arena.writePayload nodeId payload length = .error fault) :
    arena.allocatePayload length = .error fault ∧ fault = .thrown "Resource Exhausted" := by
  unfold MemoryArena.writePayload at h
  cases ha : arena.allocatePayload length with
  | error fault' =>
    rw [ha] at h
    cases h
    exact ⟨rfl,allocatePayload_error ha⟩
  | ok p =>
    rw [ha] at h
    cases h

end Fields

section Outcome
variable {V : Type*} {requestNodeId : ℤ} {payload : List UInt8} {arena arena' : MemoryArena V}

/-- The checks a request must pass to reach the arena. -/
structure WellFormedSet (requestNodeId : ℤ) (payload : List UInt8) : Prop where
  nonneg : 0 ≤ requestNodeId
  nonempty : payload ≠ []
  length_le : payload.length ≤ maxPayloadLength.toNat
  node_lt : wireNode requestNodeId < totalMaxSlots

instance {nodeId : ℤ} {payload : List UInt8} : Decidable (WellFormedSet nodeId payload) :=
  decidable_of_iff (0 ≤ nodeId ∧ payload ≠ [] ∧ payload.length ≤ maxPayloadLength.toNat ∧
    wireNode nodeId < totalMaxSlots)
    ⟨fun h => ⟨h.1,h.2.1,h.2.2.1,h.2.2.2⟩,fun h => ⟨h.nonneg,h.nonempty,h.length_le,h.node_lt⟩⟩

theorem WellFormedSet.length_toNat (h : WellFormedSet requestNodeId payload) :
    (UInt32.ofNat payload.length).toNat = payload.length := by
  have := h.length_le
  rw [maxPayloadLength_toNat] at this
  rw [UInt32.toNat_ofNat']
  omega

theorem wireNode_natCast {n : ℕ} (hn : n < totalMaxSlots) : wireNode n = n := by
  have hn : n < 501000 := hn
  rw [wireNode, Int.toNat_natCast, UInt32.toNat_ofNat']
  omega

theorem setCache_of_error (hw : WellFormedSet requestNodeId payload)
    (h : arena.writePayload (.ofNat requestNodeId.toNat) payload (.ofNat payload.length) =
      .error (.thrown "Resource Exhausted")) :
    setCache requestNodeId payload arena =
      .ok (.error ⟨.internal,"Encounter error" ++ "Resource Exhausted"⟩, arena) := by
  have hnode := MemoryArena.getNode_of_lt arena hw.node_lt
  rw [wireNode] at hnode
  simp only [setCache, if_neg (not_lt.mpr hw.nonneg), if_neg hw.nonempty,
    if_neg (not_lt.mpr hw.length_le), hnode, h]

theorem setCache_of_late (hw : WellFormedSet requestNodeId payload) {offset : UInt64}
    {written : MemoryArena V}
    (h : arena.writePayload (.ofNat requestNodeId.toNat) payload (.ofNat payload.length) =
      .ok (offset, written))
    (hstate : (arena.metadata (wireNode requestNodeId)).loadControl.state ≠ .pending) :
    setCache requestNodeId payload arena = .ok (.ok false, written) := by
  have hnode := MemoryArena.getNode_of_lt arena hw.node_lt
  have hbits : NodeState.ofBits
      ((written.metadata (UInt32.ofNat requestNodeId.toNat).toNat).controlBlock >>> 62) ≠
        .pending := by rw [(writePayload_fields h).1]; exact hstate
  rw [wireNode] at hnode
  simp only [setCache, if_neg (not_lt.mpr hw.nonneg), if_neg hw.nonempty,
    if_neg (not_lt.mpr hw.length_le), hnode, h, ne_eq, hbits, not_false_eq_true, if_true]

theorem setCache_of_pending (hw : WellFormedSet requestNodeId payload) {offset : UInt64}
    {written : MemoryArena V}
    (h : arena.writePayload (.ofNat requestNodeId.toNat) payload (.ofNat payload.length) =
      .ok (offset, written))
    (hstate : (arena.metadata (wireNode requestNodeId)).loadControl.state = .pending) :
    setCache requestNodeId payload arena = .ok (.ok true,
      written.storeControl (wireNode requestNodeId)
        (packControl .ready .hot (.ofNat payload.length) offset)) := by
  have hnode := MemoryArena.getNode_of_lt arena hw.node_lt
  have hbits : NodeState.ofBits
      ((written.metadata (UInt32.ofNat requestNodeId.toNat).toNat).controlBlock >>> 62) =
        .pending := by rw [(writePayload_fields h).1]; exact hstate
  rw [wireNode] at hnode ⊢
  simp only [setCache, if_neg (not_lt.mpr hw.nonneg), if_neg hw.nonempty,
    if_neg (not_lt.mpr hw.length_le), hnode, h, ne_eq, hbits, not_true_eq_false, if_false,
    MemoryArena.compareExchange_self]

/-- A whole `SetCache` fails and changes nothing, or writes its record and then
publishes it exactly when the node is pending. -/
theorem setCache_cases {reply : Except Status Bool}
    (h : setCache requestNodeId payload arena = .ok (reply, arena')) :
    ((∃ status, reply = .error status) ∧ arena' = arena) ∨
    WellFormedSet requestNodeId payload ∧ ∃ offset written,
      arena.writePayload (.ofNat requestNodeId.toNat) payload (.ofNat payload.length) =
        .ok (offset, written) ∧
      (((arena.metadata (wireNode requestNodeId)).loadControl.state ≠ .pending ∧
          reply = .ok false ∧ arena' = written) ∨
        ((arena.metadata (wireNode requestNodeId)).loadControl.state = .pending ∧
          reply = .ok true ∧ arena' = written.storeControl (wireNode requestNodeId)
            (packControl .ready .hot (.ofNat payload.length) offset))) := by
  by_cases hneg : requestNodeId < 0
  · simp only [setCache, if_pos hneg, Except.ok.injEq, Prod.mk.injEq] at h
    exact .inl ⟨⟨_,h.1.symm⟩,h.2.symm⟩
  by_cases hnil : payload = []
  · simp only [setCache, if_neg hneg, if_pos hnil, Except.ok.injEq, Prod.mk.injEq] at h
    exact .inl ⟨⟨_,h.1.symm⟩,h.2.symm⟩
  by_cases hlong : maxPayloadLength.toNat < payload.length
  · simp only [setCache, if_neg hneg, if_neg hnil, if_pos hlong, Except.ok.injEq,
      Prod.mk.injEq] at h
    exact .inl ⟨⟨_,h.1.symm⟩,h.2.symm⟩
  by_cases hnode : wireNode requestNodeId < totalMaxSlots
  · have hw : WellFormedSet requestNodeId payload :=
      ⟨not_lt.mp hneg,hnil,not_lt.mp hlong,hnode⟩
    cases hwrite : arena.writePayload (.ofNat requestNodeId.toNat) payload
        (.ofNat payload.length) with
    | error fault =>
      obtain ⟨-,rfl⟩ := writePayload_error hwrite
      rw [setCache_of_error hw hwrite] at h
      cases h
      exact .inl ⟨⟨_,rfl⟩,rfl⟩
    | ok p =>
      obtain ⟨offset,written⟩ := p
      refine .inr ⟨hw,offset,written,rfl,?_⟩
      by_cases hstate : (arena.metadata (wireNode requestNodeId)).loadControl.state = .pending
      · rw [setCache_of_pending hw hwrite hstate] at h
        cases h
        exact .inr ⟨hstate,rfl,rfl⟩
      · rw [setCache_of_late hw hwrite hstate] at h
        cases h
        exact .inl ⟨hstate,rfl,rfl⟩
  · have hget : arena.getNode (UInt32.ofNat requestNodeId.toNat).toNat =
        .error (.outOfRange (UInt32.ofNat requestNodeId.toNat).toNat) := if_neg hnode
    simp only [setCache, if_neg hneg, if_neg hnil, if_neg hlong, hget, reduceCtorEq] at h

end Outcome

end Strix
