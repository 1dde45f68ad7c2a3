import Strix.Semantic.Scan
import Strix.Engine.System

/-! # The four outcomes of a whole `CheckCache`

Between the scan and the re-load nothing runs, so the re-loaded word is the one
the scan has scored. Every later statement about `CheckCache` goes through
these outcomes and does not unfold the call.
-/
namespace Strix
open FirstMax Scoring

section Nodes
variable {t : UInt64} {node : MetaNode}

theorem MetaNode.expired_eq_true : node.expired t = true ↔ node.loadControl.state = .pending ∧
    node.createdAt ≠ 0 ∧ pendingLifespan.toUInt64 < t - node.createdAt := by
  simp [expired]

theorem MetaNode.matchable_eq_true : node.matchable t = true ↔
    node.loadControl.state = .ready ∨ node.loadControl.state = .migrating ∨
      (node.loadControl.state = .pending ∧ node.createdAt ≠ 0 ∧
        ¬ pendingLifespan.toUInt64 < t - node.createdAt) := by
  simp [matchable]

theorem MetaNode.not_expired_of_matchable (h : node.matchable t = true) :
    node.expired t = false := by
  rw [← Bool.not_eq_true, expired_eq_true]
  rintro ⟨hp,hb,hage⟩
  rcases matchable_eq_true.mp h with hs | hs | ⟨-,-,hn⟩
  · simp [hp] at hs
  · simp [hp] at hs
  · exact hn hage

theorem MetaNode.not_matchable_of_dead (h : node.loadControl.state = .dead) :
    node.matchable t = false := by
  rw [← Bool.not_eq_true, matchable_eq_true]
  simp [h]

theorem MetaNode.live_of_matchable (h : node.matchable t = true) :
    node.loadControl.state ≠ .dead := by
  intro hd
  simp [not_matchable_of_dead hd] at h

theorem MetaNode.not_expired_of_dead (h : node.loadControl.state = .dead) :
    node.expired t = false := by
  rw [← Bool.not_eq_true, expired_eq_true]
  simp [h]

theorem MetaNode.reusable_eq_true : node.reusable t = true ↔
    node.loadControl.state = .dead ∨ node.expired t = true := by
  simp [reusable]

@[simp] theorem MetaNode.expire_createdAt : node.expire.createdAt = 0 := rfl

@[simp] theorem MetaNode.expire_state : node.expire.loadControl.state = .dead :=
  unpackControl_packControl_state ..

end Nodes

section Expire
variable {K : Type*} {t : UInt64} {arena : MemoryArena (Vec K)} {i : ℕ}

@[simp] theorem expireSlots_vectors : (expireSlots t arena).vectors = arena.vectors := rfl
@[simp] theorem expireSlots_bufferPayload :
    (expireSlots t arena).bufferPayload = arena.bufferPayload := rfl
@[simp] theorem expireSlots_writeHead : (expireSlots t arena).writeHead = arena.writeHead := rfl
@[simp] theorem expireSlots_readTail : (expireSlots t arena).readTail = arena.readTail := rfl

theorem expireSlots_metadata : (expireSlots t arena).metadata i =
    if i < l0MaxSlots ∧ (arena.metadata i).expired t then (arena.metadata i).expire
    else arena.metadata i := rfl

theorem expireSlots_of_not (h : (arena.metadata i).expired t = false) :
    (expireSlots t arena).metadata i = arena.metadata i := by
  simp [expireSlots_metadata, h]

theorem expireSlots_eq_self (h : reusableSlot t arena l0MaxSlots = none) :
    expireSlots t arena = arena := by
  have hnone := List.find?_eq_none.mp h
  have : (expireSlots t arena).metadata = arena.metadata := by
    funext i
    rw [expireSlots_metadata, if_neg]
    rintro ⟨hi,hex⟩
    exact hnone i (List.mem_range.mpr hi) (MetaNode.reusable_eq_true.mpr (.inr hex))
  exact congrArg (fun m => { arena with metadata := m }) this

end Expire

section Outcome
variable {K : Type*} [Scoring K]

/-- What `CheckCache` answers a query vector, and the arena it leaves. -/
inductive CheckOutcome (query : Vec K) (t : UInt64) (arena : MemoryArena (Vec K)) :
    Except Status CheckCacheResponse → MemoryArena (Vec K) → Prop
  | hit {n : ℕ} (best : (bestSlot query t arena l0MaxSlots).2 = some n)
      (above : atLeast (bestSlot query t arena l0MaxSlots).1 (similarityThreshold : K) = true)
      (filled : (arena.metadata n).loadControl.state = .ready ∨
        (arena.metadata n).loadControl.state = .migrating) :
      CheckOutcome query t arena
        (.ok ⟨.hit,-1,arena.readPayload (arena.metadata n).loadControl.virtualOffset
          (arena.metadata n).loadControl.length⟩)
        ((expireSlots t arena).storeControl n (packControl (arena.metadata n).loadControl.state .hot
          (arena.metadata n).loadControl.length (arena.metadata n).loadControl.virtualOffset))
  | pending {n : ℕ} (best : (bestSlot query t arena l0MaxSlots).2 = some n)
      (above : atLeast (bestSlot query t arena l0MaxSlots).1 (similarityThreshold : K) = true)
      (reserved : (arena.metadata n).loadControl.state = .pending) :
      CheckOutcome query t arena (.ok ⟨.pending,n,[]⟩) (expireSlots t arena)
  | miss {n : ℕ}
      (below : atLeast (bestSlot query t arena l0MaxSlots).1 (similarityThreshold : K) = false)
      (free : reusableSlot t arena l0MaxSlots = some n) :
      CheckOutcome query t arena (.ok ⟨.miss,n,[]⟩)
        ((((expireSlots t arena).storeControl n (packControl .pending .hot 0 0)).storeVector n
          query).storeCreatedAt n t)
  | full
      (below : atLeast (bestSlot query t arena l0MaxSlots).1 (similarityThreshold : K) = false)
      (free : reusableSlot t arena l0MaxSlots = none) :
      CheckOutcome query t arena 
        (.error ⟨.internal,"Encounter error: " ++ "High traffic"⟩) arena

variable {query : Vec K} {t : UInt64} {arena arena' : MemoryArena (Vec K)} {n : ℕ}
  {reply : Except Status CheckCacheResponse}

theorem matchable_of_best (h : (bestSlot query t arena l0MaxSlots).2 = some n) :
    n < l0MaxSlots ∧ (arena.metadata n).matchable t = true ∧
      cosineSimilarity query (arena.vectors n) = (bestSlot query t arena l0MaxSlots).1 := by
  obtain ⟨hn,hkey⟩ := key_of_snd h
  refine ⟨hn,?_⟩
  by_cases hm : (arena.metadata n).matchable t
  · rw [slotScore, if_pos hm] at hkey
    exact ⟨hm,Option.some.inj hkey⟩
  · rw [slotScore, if_neg hm] at hkey
    simp at hkey

theorem exists_best (h : atLeast (bestSlot query t arena l0MaxSlots).1
    (similarityThreshold : K) = true) :
    ∃ n, (bestSlot query t arena l0MaxSlots).2 = some n := by
  cases hb : (bestSlot query t arena l0MaxSlots).2 with
  | some n => exact ⟨n,rfl⟩
  | none =>
    rw [bestSlot, fst_eq_init hb] at h
    rw [minusOne_below] at h
    simp at h

omit [Scoring K] in
theorem reusable_of_free (h : reusableSlot t arena l0MaxSlots = some n) :
    n < l0MaxSlots ∧ (arena.metadata n).reusable t = true := by
  have hmem := List.mem_of_find?_eq_some h
  exact ⟨List.mem_range.mp hmem,by simpa using List.find?_some h⟩

omit [Scoring K] in
theorem dead_of_free (h : reusableSlot t arena l0MaxSlots = some n) :
    ((expireSlots t arena).metadata n).loadControl.state = .dead := by
  obtain ⟨hn,hr⟩ := reusable_of_free h
  rw [expireSlots_metadata]
  split
  · exact MetaNode.expire_state
  · next hex =>
    rcases MetaNode.reusable_eq_true.mp hr with hd | he
    · exact hd
    · exact absurd ⟨hn,he⟩ hex

omit [Scoring K] in
theorem reusableSlot_eq (hn : n < l0MaxSlots) (hr : (arena.metadata n).reusable t = true)
    (hbefore : ∀ i < n, (arena.metadata i).reusable t = false) :
    reusableSlot t arena l0MaxSlots = some n := by
  rw [reusableSlot, List.find?_range_eq_some]
  exact ⟨hr,List.mem_range.mpr hn,fun i hi => by simp [hbefore i hi]⟩

theorem l0_lt_total (h : n < l0MaxSlots) : n < totalMaxSlots :=
  h.trans_le l0MaxSlots_le_totalMaxSlots

omit [Scoring K] in
theorem claimSlot_of_dead (hn : n < l0MaxSlots)
    (hdead : (arena.metadata n).loadControl.state = .dead) :
    claimSlot query t n arena = .ok (.ok ⟨.miss,n,[]⟩,
      ((arena.storeControl n (packControl .pending .hot 0 0)).storeVector n query).storeCreatedAt
        n t) := by
  have hne : (n : ℤ) ≠ -1 := by omega
  have hbits : NodeState.ofBits ((arena.metadata n).controlBlock >>> 62) = .dead := hdead
  simp only [claimSlot, if_neg hne, toSize_natCast (l0_lt_total hn),
    MemoryArena.getNode_of_lt _ (l0_lt_total hn), hbits, if_true, MemoryArena.compareExchange_self]

theorem expireSlots_of_best {n : ℕ} (h : (bestSlot query t arena l0MaxSlots).2 = some n) :
    n < l0MaxSlots ∧ (expireSlots t arena).metadata n = arena.metadata n := by
  obtain ⟨hn,hm,-⟩ := matchable_of_best h
  exact ⟨hn,expireSlots_of_not (MetaNode.not_expired_of_matchable hm)⟩

/-- The call computes its outcome. -/
theorem CheckOutcome.answers (h : CheckOutcome query t arena reply arena') :
    answerScan query t (scanL0 query t arena).2 (scanL0 query t arena).1 = .ok (reply, arena') := by
  rw [scanL0_eq]
  cases h with
  | @hit n best above filled =>
    obtain ⟨hn,hnode⟩ := expireSlots_of_best best
    have hword : unpackControl (arena.metadata n).controlBlock =
        (arena.metadata n).loadControl := rfl
    have hce : ∀ w, (expireSlots t arena).compareExchange n (arena.metadata n).controlBlock w =
        (true, (expireSlots t arena).storeControl n w) := by
      intro w
      rw [← hnode, MemoryArena.compareExchange_self]
    simp only [answerScan, above, if_true, best, slotId, Option.elim_some,
      toSize_natCast (l0_lt_total hn), MemoryArena.getNode_of_lt _ (l0_lt_total hn), hnode, hword]
    rcases filled with hs | hs <;> simp only [hs, hce] <;> rfl
  | @pending n best above reserved =>
    obtain ⟨hn,hnode⟩ := expireSlots_of_best best
    have hword : unpackControl (arena.metadata n).controlBlock =
        (arena.metadata n).loadControl := rfl
    simp only [answerScan, above, if_true, best, slotId, Option.elim_some,
      toSize_natCast (l0_lt_total hn), MemoryArena.getNode_of_lt _ (l0_lt_total hn), hnode, hword,
      reserved]
  | @miss n below free =>
    simp only [answerScan, below, Bool.false_eq_true, if_false, free, slotId, Option.elim_some]
    exact claimSlot_of_dead (reusable_of_free free).1 (dead_of_free free)
  | full below free =>
    simp only [answerScan, below, Bool.false_eq_true, if_false, free, slotId, Option.elim_none,
      claimSlot, if_true, expireSlots_eq_self free]

theorem exists_checkOutcome (query : Vec K) (t : UInt64) (arena : MemoryArena (Vec K)) :
    ∃ reply arena', CheckOutcome query t arena reply arena' := by
  cases ha : atLeast (bestSlot query t arena l0MaxSlots).1 (similarityThreshold : K) with
  | true =>
    obtain ⟨n,hbest⟩ := exists_best ha
    rcases MetaNode.matchable_eq_true.mp (matchable_of_best hbest).2.1 with hs | hs | hs
    · exact ⟨_,_,.hit hbest ha (.inl hs)⟩
    · exact ⟨_,_,.hit hbest ha (.inr hs)⟩
    · exact ⟨_,_,.pending hbest ha hs.1⟩
  | false =>
    cases hfree : reusableSlot t arena l0MaxSlots with
    | some n => exact ⟨_,_,.miss ha hfree⟩
    | none => exact ⟨_,_,.full ha hfree⟩

theorem CheckOutcome.ring (h : CheckOutcome query t arena reply arena') :
    arena'.bufferPayload = arena.bufferPayload ∧ arena'.writeHead = arena.writeHead ∧
      arena'.readTail = arena.readTail := by
  cases h <;> exact ⟨rfl,rfl,rfl⟩

theorem similar_of_best (hbest : (bestSlot query t arena l0MaxSlots).2 = some n)
    (habove : atLeast (bestSlot query t arena l0MaxSlots).1 (similarityThreshold : K) = true) :
    Similar query (arena.vectors n) := by
  rwa [Similar, (matchable_of_best hbest).2.2]

theorem CheckOutcome.of_hit {response : CheckCacheResponse}
    (h : CheckOutcome query t arena (.ok response) arena') (hs : response.checkState = .hit) :
    ∃ n, (bestSlot query t arena l0MaxSlots).2 = some n ∧ Similar query (arena.vectors n) ∧
      ((arena.metadata n).loadControl.state = .ready ∨
        (arena.metadata n).loadControl.state = .migrating) ∧
      response.cachedPayload = arena.readPayload (arena.metadata n).loadControl.virtualOffset
        (arena.metadata n).loadControl.length := by
  generalize hreply : (.ok response : Except Status CheckCacheResponse) = reply at h
  cases h with
  | hit best above filled =>
    obtain rfl := Except.ok.inj hreply
    exact ⟨_,best,similar_of_best best above,filled,rfl⟩
  | pending =>
    obtain rfl := Except.ok.inj hreply
    simp at hs
  | miss =>
    obtain rfl := Except.ok.inj hreply
    simp at hs
  | full => simp at hreply

theorem CheckOutcome.of_pending {response : CheckCacheResponse}
    (h : CheckOutcome query t arena (.ok response) arena')
    (hs : response.checkState = .pending) :
    ∃ n : ℕ, response.nodeId = n ∧ Similar query (arena.vectors n) ∧
      arena' = expireSlots t arena := by
  generalize hreply : (.ok response : Except Status CheckCacheResponse) = reply at h
  cases h with
  | pending best above reserved =>
    obtain rfl := Except.ok.inj hreply
    exact ⟨_,rfl,similar_of_best best above,rfl⟩
  | hit =>
    obtain rfl := Except.ok.inj hreply
    simp at hs
  | miss =>
    obtain rfl := Except.ok.inj hreply
    simp at hs
  | full => simp at hreply

theorem CheckOutcome.checkCache_eq {prompt : List UInt8} (hprompt : prompt ≠ [])
    (h : CheckOutcome query t arena reply arena') :
    checkCache prompt (.ok query) t arena = .ok (reply, arena') := by
  simpa only [checkCache, if_neg hprompt] using h.answers

/-- A whole `CheckCache` fails before its scan and changes nothing, or has one of
the four outcomes. -/
theorem checkCache_cases {prompt : List UInt8} {embedding : Except String (Vec K)}
    (h : checkCache prompt embedding t arena = .ok (reply, arena')) :
    ((∃ status, reply = .error status) ∧ arena' = arena) ∨
      ∃ query, embedding = .ok query ∧ prompt ≠ [] ∧ CheckOutcome query t arena reply arena' := by
  by_cases hp : prompt = []
  · simp only [checkCache, hp, if_true, Except.ok.injEq, Prod.mk.injEq] at h
    exact .inl ⟨⟨_,h.1.symm⟩,h.2.symm⟩
  · cases embedding with
    | error what =>
      simp only [checkCache, hp, if_false, Except.ok.injEq, Prod.mk.injEq] at h
      exact .inl ⟨⟨_,h.1.symm⟩,h.2.symm⟩
    | ok query =>
      obtain ⟨reply',arena'',ho⟩ := exists_checkOutcome query t arena
      rw [ho.checkCache_eq hp] at h
      cases h
      exact .inr ⟨query,rfl,hp,ho⟩

end Outcome

end Strix
