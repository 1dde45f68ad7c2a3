import Strix.Ring.Exhaustion

/-! # The nodes a call reaches

The index of a node comes from the scan, from the request or from a header in
the ring. The footprint of a call collects them: the call writes no node and no
vector outside it and depends on none. The service rejects a negative id but
has no upper bound on it.
-/
namespace Strix
open ByteRing FramedLog RunHistory Scoring

section Footprint
variable {K : Type*}

def claimFootprint (reusableNodeId : ℤ) : List ℕ :=
  if reusableNodeId = -1 then [] else [toSize reusableNodeId]

def answerFootprint [Scoring K] (scan : Scan K) (arena : MemoryArena (Vec K)) : List ℕ :=
  if atLeast scan.maxScore (similarityThreshold : K) then
    toSize scan.bestNodeId :: if arena.stateOf (toSize scan.bestNodeId) = .dead then
      claimFootprint scan.bestNodeId else []
  else claimFootprint scan.reusableNodeId

/-- The indices with which a call reaches the metadata and the vectors. -/
def footprint [Scoring K] (arena : MemoryArena (Vec K)) : Call K → List ℕ
  | .checkCache prompt (.ok query) t =>
    if prompt = [] then []
    else List.range l0MaxSlots ++
      answerFootprint (scanL0 query t arena).2 (scanL0 query t arena).1
  | .checkCache _ (.error _) _ => []
  | .setCache nodeId payload =>
    if nodeId < 0 ∨ payload = [] ∨ maxPayloadLength.toNat < payload.length then []
    else [wireNode nodeId]
  | .collect =>
    match arena.sight with
    | .record header => [header.nodeId.toNat]
    | _ => []

structure AgreeOn (nodes : List ℕ) (a b : MemoryArena (Vec K)) : Prop where
  metadata : ∀ i ∈ nodes, b.metadata i = a.metadata i
  vectors : ∀ i ∈ nodes, b.vectors i = a.vectors i
  bufferPayload : b.bufferPayload = a.bufferPayload
  writeHead : b.writeHead = a.writeHead
  readTail : b.readTail = a.readTail

end Footprint

section Checks
variable {K : Type*} [Scoring K] {arena arena' b : MemoryArena (Vec K)} {query : Vec K}
  {t : UInt64} {prompt : List UInt8} {n : ℕ}

theorem footprint_checkCache (hprompt : prompt ≠ []) :
    footprint arena (.checkCache prompt (.ok query) t) = List.range l0MaxSlots ++
      answerFootprint (scanL0 query t arena).2 (scanL0 query t arena).1 := if_neg hprompt

omit [Scoring K] in
theorem claimFootprint_lt {i : Option ℕ} (hi : ∀ n, i = some n → n < l0MaxSlots) :
    ∀ m ∈ claimFootprint (slotId i), m < l0MaxSlots := by
  intro m hm
  cases i with
  | none => simp [claimFootprint, slotId] at hm
  | some n =>
    have hn := hi n rfl
    have hne : (n : ℤ) ≠ -1 := by omega
    simp only [claimFootprint, slotId, Option.elim_some, if_neg hne,
      toSize_natCast (l0_lt_total hn), List.mem_singleton] at hm
    omega

theorem answerFootprint_lt :
    ∀ m ∈ answerFootprint (scanL0 query t arena).2 (scanL0 query t arena).1, m < l0MaxSlots := by
  intro m hm
  rw [scanL0_eq] at hm
  simp only [answerFootprint] at hm
  have hbest : ∀ n, (bestSlot query t arena l0MaxSlots).2 = some n → n < l0MaxSlots :=
    fun n hn => (matchable_of_best hn).1
  split at hm
  · next habove =>
    obtain ⟨n,hn⟩ := exists_best habove
    rcases List.mem_cons.mp hm with rfl | hm
    · rw [hn, slotId, Option.elim_some, toSize_natCast (l0_lt_total (hbest n hn))]
      exact hbest n hn
    · split at hm
      · exact claimFootprint_lt hbest m hm
      · cases hm
  · exact claimFootprint_lt (fun n hn => (reusable_of_free hn).1) m hm

theorem bestSlot_congr (hmeta : ∀ i < l0MaxSlots, b.metadata i = arena.metadata i)
    (hvec : ∀ i < l0MaxSlots, b.vectors i = arena.vectors i) :
    bestSlot query t b l0MaxSlots = bestSlot query t arena l0MaxSlots :=
  FirstMax.firstMax_congr fun i hi => by rw [slotScore, slotScore, hmeta i hi, hvec i hi]

omit [Scoring K] in
theorem reusableSlot_congr (hmeta : ∀ i < l0MaxSlots, b.metadata i = arena.metadata i) :
    reusableSlot t b l0MaxSlots = reusableSlot t arena l0MaxSlots := by
  cases hfree : reusableSlot t arena l0MaxSlots with
  | some n =>
    obtain ⟨hr,hn,hbefore⟩ := List.find?_range_eq_some.mp hfree
    have hn := List.mem_range.mp hn
    refine reusableSlot_eq hn (by rw [hmeta n hn]; exact hr) fun i hi => ?_
    rw [hmeta i (by omega)]
    simpa using hbefore i hi
  | none =>
    rw [reusableSlot, List.find?_eq_none] at hfree ⊢
    intro i hi
    rw [hmeta i (List.mem_range.mp hi)]
    exact hfree i hi

theorem CheckOutcome.congr {reply : Except Status CheckCacheResponse}
    (h : CheckOutcome query t arena reply arena')
    (hagree : AgreeOn (List.range l0MaxSlots) arena b) :
    ∃ b', CheckOutcome query t b reply b' := by
  have hmeta : ∀ i < l0MaxSlots, b.metadata i = arena.metadata i :=
    fun i hi => hagree.metadata i (List.mem_range.mpr hi)
  have hbest : bestSlot query t b l0MaxSlots = bestSlot query t arena l0MaxSlots :=
    bestSlot_congr hmeta fun i hi => hagree.vectors i (List.mem_range.mpr hi)
  have hfree : reusableSlot t b l0MaxSlots = reusableSlot t arena l0MaxSlots :=
    reusableSlot_congr hmeta
  cases h with
  | @hit n best above filled =>
    have hnode := hmeta n (matchable_of_best best).1
    have hread : ∀ offset length,
        b.readPayload offset length = arena.readPayload offset length := by
      intro offset length
      rw [MemoryArena.readPayload, MemoryArena.readPayload, hagree.bufferPayload]
    rw [← hnode, ← hread]
    exact ⟨_,.hit (by rw [hbest, best]) (by rw [hbest, above]) (by rw [hnode]; exact filled)⟩
  | @pending n best above reserved =>
    have hnode := hmeta n (matchable_of_best best).1
    exact ⟨_,.pending (by rw [hbest, best]) (by rw [hbest, above]) (by rw [hnode, reserved])⟩
  | miss below free => exact ⟨_,.miss (by rw [hbest, below]) (by rw [hfree, free])⟩
  | full below free => exact ⟨_,.full (by rw [hbest, below]) (by rw [hfree, free])⟩

end Checks

section Locality
variable {K : Type*} {arena arena' b : MemoryArena (Vec K)} {nodes : List ℕ} {n : ℕ}

theorem eq_of_map_fst {α β : Type*} {x y : Except Fault (α × β)}
    (h : x.map Prod.fst = y.map Prod.fst) :
    (∃ fault, x = .error fault ∧ y = .error fault) ∨
      ∃ a p q, x = .ok (a, p) ∧ y = .ok (a, q) := by
  cases x with
  | error fault =>
    cases y with
    | error fault' => exact .inl ⟨fault,rfl,congrArg Except.error (Except.error.inj h).symm⟩
    | ok q => cases h
  | ok p =>
    cases y with
    | error fault' => cases h
    | ok q => exact .inr ⟨p.1,p.2,q.2,rfl,by rw [show p.1 = q.1 from Except.ok.inj h]⟩

theorem AgreeOn.mono {some : List ℕ} (h : AgreeOn nodes arena b) (hsub : ∀ i ∈ some, i ∈ nodes) :
    AgreeOn some arena b :=
  ⟨fun i hi => h.metadata i (hsub i hi),fun i hi => h.vectors i (hsub i hi),h.bufferPayload,
    h.writeHead,h.readTail⟩

theorem AgreeOn.allocatePayload (h : AgreeOn nodes arena b) (length : UInt32) :
    (b.allocatePayload length).map Prod.fst = (arena.allocatePayload length).map Prod.fst := by
  simp only [MemoryArena.allocatePayload, h.writeHead, h.readTail]
  split <;> rfl

theorem writePayload_map_fst (nodeId : UInt32) (payload : List UInt8) (length : UInt32) :
    (arena.writePayload nodeId payload length).map Prod.fst =
      (arena.allocatePayload length).map Prod.fst := by
  rw [MemoryArena.writePayload]
  cases arena.allocatePayload length <;> rfl

theorem rescuePayload_map_fst (tail : UInt64) (header : PayloadHeader) :
    (arena.rescuePayload tail header).map Prod.fst =
      (arena.allocatePayload header.length).map Prod.fst := by
  rw [MemoryArena.rescuePayload]
  cases arena.allocatePayload header.length <;> rfl

theorem footprint_setCache [Scoring K] {nodeId : ℤ} {payload : List UInt8} (hneg : 0 ≤ nodeId)
    (hnil : payload ≠ []) (hlong : payload.length ≤ maxPayloadLength.toNat) :
    footprint arena (.setCache nodeId payload) = [wireNode nodeId] := by
  rw [footprint, if_neg]
  rintro (h | h | h)
  · omega
  · exact hnil h
  · omega

section Replies
variable [Scoring K]

theorem checkCache_congr {prompt : List UInt8} {embedding : Except String (Vec K)} {t : UInt64}
    (h : AgreeOn (footprint arena (.checkCache prompt embedding t)) arena b) :
    (checkCache prompt embedding t b).map Prod.fst =
      (checkCache prompt embedding t arena).map Prod.fst := by
  by_cases hprompt : prompt = []
  · simp only [checkCache, if_pos hprompt]
    rfl
  cases embedding with
  | error what =>
    simp only [checkCache, if_neg hprompt]
    rfl
  | ok query =>
    rw [footprint_checkCache hprompt] at h
    obtain ⟨reply,arena',ho⟩ := exists_checkOutcome query t arena
    obtain ⟨b',ho'⟩ := ho.congr (h.mono fun i hi => List.mem_append_left _ hi)
    rw [ho.checkCache_eq hprompt, ho'.checkCache_eq hprompt]
    rfl

theorem setCache_congr {nodeId : ℤ} {payload : List UInt8}
    (h : AgreeOn (footprint arena (.setCache nodeId payload)) arena b) :
    (setCache nodeId payload b).map Prod.fst = (setCache nodeId payload arena).map Prod.fst := by
  by_cases hneg : nodeId < 0
  · simp only [setCache, if_pos hneg]
    rfl
  by_cases hnil : payload = []
  · simp only [setCache, if_neg hneg, if_pos hnil]
    rfl
  by_cases hlong : maxPayloadLength.toNat < payload.length
  · simp only [setCache, if_neg hneg, if_neg hnil, if_pos hlong]
    rfl
  by_cases hnode : wireNode nodeId < totalMaxSlots
  swap
  · have hget : ∀ a : MemoryArena (Vec K), a.getNode (UInt32.ofNat nodeId.toNat).toNat =
        .error (.outOfRange (wireNode nodeId)) := fun a => if_neg hnode
    simp only [setCache, if_neg hneg, if_neg hnil, if_neg hlong, hget]
  have hw : WellFormedSet nodeId payload := ⟨not_lt.mp hneg,hnil,not_lt.mp hlong,hnode⟩
  rw [footprint_setCache hw.nonneg hw.nonempty hw.length_le] at h
  have hsame := h.metadata _ (List.mem_singleton_self _)
  have hwrite : (arena.writePayload (.ofNat nodeId.toNat) payload (.ofNat payload.length)).map
      Prod.fst = (b.writePayload (.ofNat nodeId.toNat) payload (.ofNat payload.length)).map
        Prod.fst := by
    rw [writePayload_map_fst, writePayload_map_fst, h.allocatePayload]
  rcases eq_of_map_fst hwrite with ⟨fault,ha,hb⟩ | ⟨offset,written,written',ha,hb⟩
  · obtain ⟨-,rfl⟩ := writePayload_error ha
    rw [setCache_of_error hw ha, setCache_of_error hw hb]
    rfl
  · by_cases hstate : (arena.metadata (wireNode nodeId)).loadControl.state = .pending
    · rw [setCache_of_pending hw ha hstate, setCache_of_pending hw hb (by rwa [hsame])]
      rfl
    · rw [setCache_of_late hw ha hstate, setCache_of_late hw hb (by rwa [hsame])]
      rfl

omit [Scoring K] in
theorem AgreeOn.sight (h : AgreeOn nodes arena b) : b.sight = arena.sight := by
  simp only [MemoryArena.sight, h.writeHead, h.readTail, h.bufferPayload]

theorem collect_congr (h : AgreeOn (footprint arena .collect) arena b) :
    (perform .collect b).map Prod.fst = (perform .collect arena).map Prod.fst := by
  cases hs : arena.sight with
  | belowWatermark | ringEnd | invalidIdentifier =>
    simp only [perform, MemoryArena.runGarbageCollectorPass, h.sight, hs]
    rfl
  | record header =>
    have hsame : b.metadata header.nodeId.toNat = arena.metadata header.nodeId.toNat :=
      h.metadata _ (by simp [footprint, hs])
    have hget : b.getNode header.nodeId.toNat = arena.getNode header.nodeId.toNat := by
      rw [MemoryArena.getNode, MemoryArena.getNode, hsame]
    have hrescue : (arena.rescuePayload arena.readTail header).map Prod.fst =
        (b.rescuePayload arena.readTail header).map Prod.fst := by
      rw [rescuePayload_map_fst, rescuePayload_map_fst, h.allocatePayload]
    simp only [perform, MemoryArena.runGarbageCollectorPass, h.sight, hs, hget, h.readTail]
    cases arena.getNode header.nodeId.toNat with
    | error fault => rfl
    | ok node =>
      simp only
      split
      · rfl
      split
      · rfl
      rcases eq_of_map_fst hrescue with ⟨fault,ha,hb⟩ | ⟨offset,rescued,rescued',ha,hb⟩
      · rw [ha, hb]
      · rw [ha, hb]
        rfl

/-- The reply of a call depends on the ring and on the nodes of its footprint. -/
theorem perform_congr {call : Call K} (h : AgreeOn (footprint arena call) arena b) :
    (perform call b).map Prod.fst = (perform call arena).map Prod.fst := by
  have hmap : ∀ {α β γ : Type _} (x : Except Fault (α × γ)) (f : α → β),
      (x.map fun r => (f r.1, r.2)).map Prod.fst = (x.map Prod.fst).map f := by
    intro α β γ x f
    cases x <;> rfl
  cases call with
  | checkCache prompt embedding t =>
    rw [perform, perform, hmap, hmap, checkCache_congr h]
  | setCache nodeId payload =>
    rw [perform, perform, hmap, hmap, setCache_congr h]
  | collect => exact collect_congr h

end Replies

end Locality

section Frame
variable {K : Type*} [Scoring K] {arena arena' : MemoryArena (Vec K)} {n : ℕ}

theorem CheckOutcome.frame {query : Vec K} {t : UInt64} {reply : Except Status CheckCacheResponse}
    (h : CheckOutcome query t arena reply arena') (hn : l0MaxSlots ≤ n) :
    arena'.metadata n = arena.metadata n ∧ arena'.vectors n = arena.vectors n := by
  have hexpire : (expireSlots t arena).metadata n = arena.metadata n := expireBelow_metadata_ge hn
  cases h with
  | hit best =>
    have hne := ne_of_gt ((matchable_of_best best).1.trans_le hn)
    exact ⟨by rw [MemoryArena.storeControl_of_ne _ _ _ hne, hexpire],rfl⟩
  | pending => exact ⟨hexpire,rfl⟩
  | miss below free =>
    have hne := ne_of_gt ((reusable_of_free free).1.trans_le hn)
    refine ⟨?_,by simp [hne]⟩
    rw [MemoryArena.storeCreatedAt_of_ne _ _ _ hne, MemoryArena.storeVector_metadata,
      MemoryArena.storeControl_of_ne _ _ _ hne, hexpire]
  | full => exact ⟨rfl,rfl⟩

omit [Scoring K] in
theorem collect_frame (h : arena.runGarbageCollectorPass = .ok arena')
    (hn : ∀ header, arena.sight = .record header → n ≠ header.nodeId.toNat) :
    arena'.metadata n = arena.metadata n ∧ arena'.vectors n = arena.vectors n := by
  cases pass_move h with
  | asleep | leap | resync | skip => exact ⟨rfl,rfl⟩
  | evict hs =>
    have hne := hn _ hs
    rw [evictExchange_eq]
    exact ⟨by simp [hne],rfl⟩
  | @rescue header offset rescued hs hnode current hot hrescue =>
    have hne := hn _ hs
    obtain ⟨hmeta,hvec,-⟩ := rescuePayload_fields hrescue
    have hexchange := rehomeExchange_eq rescued header.nodeId.toNat offset (by rw [hmeta, hot])
    rw [hmeta] at hexchange
    rw [hexchange]
    exact ⟨by simp [hne, hmeta],by simp [hvec]⟩

/-- A call leaves every node and vector outside its footprint alone. -/
theorem Fires.frame {act : Call K × Reply} (h : Fires arena act arena')
    (hn : n ∉ footprint arena act.1) :
    arena'.metadata n = arena.metadata n ∧ arena'.vectors n = arena.vectors n := by
  rcases fires_cases h with ⟨prompt,embedding,t,result,rfl,hc⟩ |
    ⟨nodeId,payload,result,rfl,hc⟩ | ⟨rfl,hc⟩
  · rcases checkCache_cases hc with ⟨-,rfl⟩ | ⟨query,rfl,hprompt,ho⟩
    · exact ⟨rfl,rfl⟩
    · simp only [footprint_checkCache hprompt, List.mem_append, List.mem_range, not_or,
        not_lt] at hn
      exact ho.frame hn.1
  · rcases setCache_cases hc with ⟨-,rfl⟩ | ⟨hw,offset,written,hwrite,hout⟩
    · exact ⟨rfl,rfl⟩
    obtain ⟨hmeta,hvec,-⟩ := writePayload_fields hwrite
    simp only [footprint_setCache hw.nonneg hw.nonempty hw.length_le, List.mem_singleton] at hn
    rcases hout with ⟨-,-,rfl⟩ | ⟨-,-,rfl⟩
    · exact ⟨by rw [hmeta],by rw [hvec]⟩
    · exact ⟨by rw [MemoryArena.storeControl_of_ne _ _ _ hn, hmeta],by
        rw [MemoryArena.storeControl_vectors, hvec]⟩
  · refine collect_frame hc fun header hs heq => hn ?_
    simp [footprint, hs, heq]

end Frame

section Safety
variable {K : Type*}

/-- A `SetCache` that passes the checks of the service names a node that exists. -/
def NamesNode : Call K → Prop
  | .setCache nodeId payload => 0 ≤ nodeId → payload ≠ [] →
      payload.length ≤ maxPayloadLength.toNat → wireNode nodeId < totalMaxSlots
  | _ => True

/-- The call reaches nodes that exist only, and a request for another node is
answered with an error and changes nothing. -/
structure IndexSafe [Scoring K] (arena : MemoryArena (Vec K)) (call : Call K) : Prop where
  inRange : ∀ i ∈ footprint arena call, i < totalMaxSlots
  defined : ∀ i, perform call arena ≠ .error (.outOfRange i)
  rejected : ∀ nodeId payload, call = .setCache nodeId payload →
    nodeId < 0 ∨ totalMaxSlots ≤ wireNode nodeId →
      ∃ status, perform call arena = .ok (.stored (.error status), arena)

variable [Scoring K] {es : List (Step K)} {arena : MemoryArena (Vec K)}

theorem checkCache_indexSafe (prompt : List UInt8) (embedding : Except String (Vec K))
    (t : UInt64) :
    IndexSafe arena (.checkCache prompt embedding t) := by
  by_cases hprompt : prompt = []
  · refine ⟨fun i hi => ?_,fun i hfault => ?_,by simp⟩
    · cases embedding <;> simp [footprint, hprompt] at hi
    · simp [perform, checkCache, hprompt, Except.map] at hfault
  cases embedding with
  | error what =>
    refine ⟨fun i hi => absurd hi (by simp [footprint]),fun i hfault => ?_,by simp⟩
    simp [perform, checkCache, hprompt, Except.map] at hfault
  | ok query =>
    obtain ⟨reply,arena',ho⟩ := exists_checkOutcome query t arena
    refine ⟨fun i hi => ?_,fun i hfault => ?_,by simp⟩
    · rw [footprint_checkCache hprompt, List.mem_append, List.mem_range] at hi
      exact l0_lt_total (hi.elim id (answerFootprint_lt i))
    · simp [perform, ho.checkCache_eq hprompt, Except.map] at hfault

omit [Scoring K] in
theorem setCache_completes {nodeId : ℤ} {payload : List UInt8} (hw : WellFormedSet nodeId payload) :
    ∃ p, setCache nodeId payload arena = .ok p := by
  cases hwrite : arena.writePayload (.ofNat nodeId.toNat) payload (.ofNat payload.length) with
  | error fault =>
    obtain ⟨-,rfl⟩ := writePayload_error hwrite
    exact ⟨_,setCache_of_error hw hwrite⟩
  | ok p =>
    obtain ⟨offset,written⟩ := p
    by_cases hstate : (arena.metadata (wireNode nodeId)).loadControl.state = .pending
    · exact ⟨_,setCache_of_pending hw hwrite hstate⟩
    · exact ⟨_,setCache_of_late hw hwrite hstate⟩

/-- The checks of `SetCache` stop every index beyond the nodes but one that is too
large itself. -/
theorem setCache_indexSafe_iff (nodeId : ℤ) (payload : List UInt8) :
    IndexSafe arena (.setCache nodeId payload) ↔ NamesNode (.setCache nodeId payload : Call K) := by
  constructor
  · intro h hneg hnil hlong
    exact h.inRange _ (by rw [footprint_setCache hneg hnil hlong]; exact List.mem_singleton_self _)
  · intro hnames
    by_cases hchecked : nodeId < 0 ∨ payload = [] ∨ maxPayloadLength.toNat < payload.length
    · obtain ⟨status,hreply⟩ :
          ∃ status, setCache nodeId payload arena = .ok (.error status, arena) := by
        rw [setCache]
        rcases hchecked with h | h | h
        · exact ⟨_,if_pos h⟩
        · by_cases hneg : nodeId < 0
          · exact ⟨_,if_pos hneg⟩
          · exact ⟨_,(if_neg hneg).trans (if_pos h)⟩
        · by_cases hneg : nodeId < 0
          · exact ⟨_,if_pos hneg⟩
          by_cases hnil : payload = []
          · exact ⟨_,(if_neg hneg).trans (if_pos hnil)⟩
          · exact ⟨_,(if_neg hneg).trans ((if_neg hnil).trans (if_pos h))⟩
      refine ⟨fun i hi => ?_,fun i hfault => ?_,?_⟩
      · rw [footprint, if_pos hchecked] at hi
        cases hi
      · simp [perform, hreply, Except.map] at hfault
      · rintro _ _ ⟨⟩ -
        exact ⟨status,by rw [perform, hreply]; rfl⟩
    · simp only [not_or, not_lt] at hchecked
      obtain ⟨hneg,hnil,hlong⟩ := hchecked
      have hw : WellFormedSet nodeId payload := ⟨hneg,hnil,hlong,hnames hneg hnil hlong⟩
      refine ⟨fun i hi => ?_,fun i hfault => ?_,?_⟩
      · rw [footprint_setCache hneg hnil hlong, List.mem_singleton] at hi
        rw [hi]
        exact hw.node_lt
      · obtain ⟨reply,hreply⟩ : ∃ p, setCache nodeId payload arena = .ok p := setCache_completes hw
        simp [perform, hreply, Except.map] at hfault
      · rintro _ _ ⟨⟩ hbad
        have hlt := hw.node_lt
        omega

omit [Scoring K] in
theorem pass_fault {fault : Fault} (hin : NodeInRange arena)
    (h : arena.runGarbageCollectorPass = .error fault) : fault = .thrown "Resource Exhausted" := by
  cases hs : arena.sight with
  | belowWatermark | ringEnd | invalidIdentifier =>
    simp [MemoryArena.runGarbageCollectorPass, hs] at h
  | record header =>
    simp only [MemoryArena.runGarbageCollectorPass, hs,
      MemoryArena.getNode_of_lt arena (hin header hs)] at h
    split at h
    · cases h
    split at h
    · cases h
    cases hrescue : arena.rescuePayload arena.readTail header with
    | ok p => simp [hrescue] at h
    | error fault' =>
      have halloc : (arena.rescuePayload arena.readTail header).map Prod.fst = _ :=
        rescuePayload_map_fst arena.readTail header
      rw [hrescue] at halloc
      cases ha : arena.allocatePayload header.length with
      | ok p => simp [ha, Except.map] at halloc
      | error fault'' =>
        rw [ha] at halloc
        rw [hrescue] at h
        exact (Except.error.inj h).symm.trans
          ((Except.error.inj halloc).trans (allocatePayload_error ha))

theorem collect_indexSafe (h : NodeInRange arena) : IndexSafe arena .collect := by
  refine ⟨fun i hi => ?_,fun i hfault => ?_,by simp⟩
  · cases hs : arena.sight with
    | record header =>
      simp only [footprint, hs, List.mem_singleton] at hi
      rw [hi]
      exact h header hs
    | _ => simp [footprint, hs] at hi
  · cases hpass : arena.runGarbageCollectorPass with
    | ok arena' => simp [perform, hpass, Except.map] at hfault
    | error fault => simp [perform, hpass, pass_fault h hpass, Except.map] at hfault

/-- In a reachable state whose ring was not overrun a call reaches existing nodes
only, unless it is a `SetCache` that passes its checks with an id beyond them. -/
theorem indexSafe_iff (hrun : EngineRun es arena) (hfits : ∀ τ ∈ es, PaddingFits τ)
    (call : Call K) : IndexSafe arena call ↔ NamesNode call := by
  cases call with
  | checkCache prompt embedding t => exact iff_of_true (checkCache_indexSafe _ _ _) trivial
  | setCache nodeId payload => exact setCache_indexSafe_iff nodeId payload
  | collect =>
    obtain ⟨log,hintact⟩ := EngineRun.intact hrun (bounded_of_paddingFits hrun hfits)
    exact iff_of_true (collect_indexSafe hintact.ring.nodeInRange) trivial

end Safety

section Replay

/-- The first id behind the nodes passes every check of `SetCache`. -/
theorem setCache_beyond_nodes :
    perform (.setCache 501000 [7]) (freshArena ℚ) = .error (.outOfRange 501000) ∧
      ¬ ∀ (es : List (Step ℚ)) (arena : MemoryArena (Vec ℚ)) (call : Call ℚ),
        EngineRun es arena → IndexSafe arena call := by
  have hfault : perform (.setCache 501000 [7]) (freshArena ℚ) = .error (.outOfRange 501000) := by
    have hshort : ¬ maxPayloadLength.toNat < 1 := by decide
    have hget : (freshArena ℚ).getNode 501000 = .error (.outOfRange 501000) := if_neg (by decide)
    simp [perform, setCache, hshort, hget, Except.map]
  exact ⟨hfault,fun h => (h [] _ (.setCache 501000 [7]) (.nil _)).defined _ hfault⟩

/-- Behind a padded record: the collector meets the next record, and an answer for the
first slot reaches an existing node, one for the first id behind the nodes does not. -/
theorem indexSafe_replay : ∃ (es : List (Step ℚ)) (τ : Step ℚ), EngineRun (es ++ [τ]) τ.after ∧
    MemoryArena.headerPadding τ.before.writeHead = 5 ∧ τ.after.sight ≠ .belowWatermark ∧
      IndexSafe τ.after .collect ∧ IndexSafe τ.after (.setCache 0 [7]) ∧
      ¬ IndexSafe τ.after (.setCache 501000 [7]) := by
  obtain ⟨es,τ,log,hrun,hb,hhead,hring⟩ := exists_padded (K := ℚ)
  have hiff := indexSafe_iff hrun (paddingFits_of_bounded hrun hb)
  have hbeyond : ¬ NamesNode (.setCache 501000 [7] : Call ℚ) := by
    intro h
    exact absurd (h (by decide) (by simp) (by decide)) (by decide)
  exact ⟨es,τ,hrun,by rw [hhead]; decide,hring.sight_awake (by omega),(hiff .collect).mpr trivial,
    (hiff _).mpr fun _ _ _ => by decide,mt (hiff _).mp hbeyond⟩

/-- The bytes of a header with an unknown node, behind 88 others. -/
def forgedHeader : List UInt8 :=
  List.replicate 88 0 ++ (wordBytes validIdentifier ++ (wordBytes 0xFFFFFFFF ++ [0, 0]))

theorem pass_of_unknown {V : Type*} {arena : MemoryArena V} {header : PayloadHeader}
    (hs : arena.sight = .record header) (hnode : totalMaxSlots ≤ header.nodeId.toNat) :
    arena.runGarbageCollectorPass = .error (.outOfRange header.nodeId.toNat) := by
  have hget : arena.getNode header.nodeId.toNat = .error (.outOfRange header.nodeId.toNat) :=
    if_neg (not_lt.mpr hnode)
  simp only [MemoryArena.runGarbageCollectorPass, hs, hget]

theorem sight_forged {V : Type*} (arena : MemoryArena V)
    (hhead : arena.writeHead = .ofNat (2 ^ 32 + 110)) (htail : arena.readTail = .ofNat 100)
    (hstored : Stored (2 ^ 32) arena.bufferPayload (2 ^ 32 + 12) forgedHeader) :
    ∃ header, arena.sight = .record header ∧ header.nodeId = 0xFFFFFFFF := by
  have hbehind := (stored_append.mp hstored).2
  rw [List.length_replicate] at hbehind
  obtain ⟨hidentifier,hrest⟩ := stored_append.mp hbehind
  have hnode := (stored_append.mp hrest).1
  have hread : ∀ {v i : ℕ} {w : UInt32}, Stored (2 ^ 32) arena.bufferPayload v (wordBytes w) →
      v % 2 ^ 32 = i → i + 4 ≤ 2 ^ 32 → readWord arena.bufferPayload i = w := by
    rintro v _ w hword rfl hfits
    exact readWord_of_bytes (hword.load_eq (n := 4) le_rfl hfits)
  have hvalid : (readHeader arena.bufferPayload 100).identifier = validIdentifier :=
    hread hidentifier (by decide) (by decide)
  refine ⟨readHeader arena.bufferPayload 100,?_,hread hnode (by decide) (by decide)⟩
  have hindex : (UInt64.ofNat 100 &&& (payloadBufferSize - 1)).toNat = 100 := by decide
  have hpast : ¬ UInt64.ofNat (2 ^ 32 + 110) - .ofNat 100 < lowWatermarkThreshold := by decide
  have hfits : ¬ payloadBufferSize - (UInt64.ofNat 100 &&& (payloadBufferSize - 1)) <
    sizeofPayloadHeader := by decide
  simp only [MemoryArena.sight, hhead, htail, if_neg hpast, if_neg hfits, hindex, hvalid, ne_eq,
    not_true_eq_false, if_false]

/-- Through the padding at the ring end the last bytes of a payload come to lie on the
header at the tail: then the collector reaches beyond the nodes as well, after requests
that name nodes only. -/
theorem overrun_beyond_nodes : ∃ (es : List (Step ℚ)) (arena : MemoryArena (Vec ℚ)),
    EngineRun es arena ∧ (∀ τ ∈ es, NamesNode τ.act.1) ∧
      perform .collect arena = .error (.outOfRange 4294967295) := by
  obtain ⟨es,full,log,hrun,hes,hdead,hring⟩ := exists_passed (K := ℚ) (d := 2 ^ 32 - 111)
    (by decide) (by decide)
  have hw : WellFormedSet 0 forgedHeader := ⟨le_rfl,by simp [forgedHeader],by decide,by decide⟩
  have hlast : hw.record.encode.length = 110 := hw.record.encode_length
  obtain ⟨buf,hok,hwrites⟩ := hring.writePayload_ok hw (by omega)
  have hset := setCache_of_late hw hok (by simp [hdead])
  have hgap : place (2 ^ 32) 12 (100 + (2 ^ 32 - 111)) = 2 ^ 32 := by decide
  rw [hgap] at hwrites hok hset
  have hforged : Stored (2 ^ 32) buf (2 ^ 32 + 12) forgedHeader :=
    (stored_append.mp hwrites.stored).2
  rw [hlast] at hok hset
  obtain ⟨header,hsight,hnode⟩ := sight_forged { full with
    writeHead := .ofNat (2 ^ 32 + 110)
    bufferPayload := buf } rfl hring.tail hforged
  have hbeyond : header.nodeId.toNat = 4294967295 := by
    rw [hnode]
    decide
  have hcollect := pass_of_unknown hsight (by rw [hbeyond]; decide)
  rw [hbeyond] at hcollect
  refine ⟨_,_,hrun.snoc (fires_setCache.mpr hset),?_,by rw [perform, hcollect]; rfl⟩
  have hzero : wireNode 0 < totalMaxSlots := by decide
  rw [List.forall_mem_append, List.forall_mem_singleton]
  refine ⟨fun τ hτ => ?_,fun _ _ _ => hzero⟩
  obtain ⟨-,hτ | ⟨payload,hτ⟩⟩ := hes τ hτ
  · rw [hτ]
    trivial
  · rw [hτ]
    exact fun _ _ _ => hzero

end Replay

end Strix
