import Strix.Semantic.ReadWrite

/-! # `CheckCache` split at its re-load

The scan of the slots and the answer from the best node's re-loaded control
word are separate steps, with whole calls of others between them. The answer
looks at the word's state only, so it may come from a slot that another query
has claimed and filled since it was scored.
-/
namespace Strix
open FirstMax RunHistory Scoring

/-- A `CheckCache` between its scan and its answer. -/
structure InFlight (K : Type*) where
  query : Vec K
  currTime : UInt64
  scan : Scan K

structure Split (K : Type*) where
  arena : MemoryArena (Vec K)
  inFlight : ℕ → Option (InFlight K)

inductive SplitCall (K : Type*)
  | whole (call : Call K)
  | scan (client : ℕ) (query : Vec K) (currTime : UInt64)
  | answer (client : ℕ)

def SplitCall.client {K : Type*} : SplitCall K → Option ℕ
  | .whole _ => none
  | .scan client _ _ => some client
  | .answer client => some client

abbrev SplitStep (K : Type*) := Transition (Split K) (SplitCall K × Option Reply)

section Model
variable {K : Type*} [Scoring K]

def SplitFires (s : Split K) (act : SplitCall K × Option Reply) (s' : Split K) : Prop :=
  match act.1 with
  | .whole call => ∃ reply, act.2 = some reply ∧ Fires s.arena (call, reply) s'.arena ∧
      s'.inFlight = s.inFlight
  | .scan client query currTime => s.inFlight client = none ∧ act.2 = none ∧
      s'.arena = (scanL0 query currTime s.arena).1 ∧
      s'.inFlight = Function.update s.inFlight client
        (some ⟨query,currTime,(scanL0 query currTime s.arena).2⟩)
  | .answer client => ∃ call result, s.inFlight client = some call ∧
      act.2 = some (.checked result) ∧
      answerScan call.query call.currTime call.scan s.arena = .ok (result, s'.arena) ∧
      s'.inFlight = Function.update s.inFlight client none

variable (K) in
def freshSplit : Split K := ⟨freshArena K,fun _ => none⟩

theorem inFlight_of_scan {s s' : Split K} {client : ℕ} {query : Vec K} {t : UInt64}
    {reply : Option Reply} (h : SplitFires s (.scan client query t, reply) s') :
    ∃ scan, scan = (scanL0 query t s.arena).2 ∧ s'.inFlight client = some ⟨query,t,scan⟩ ∧
      s'.arena = (scanL0 query t s.arena).1 := by
  obtain ⟨-,-,harena,hflight⟩ := h
  exact ⟨_,rfl,by rw [hflight, Function.update_self],harena⟩

/-- The slot and the query of a step that handed out a reservation. -/
def splitClaims (τ : SplitStep K) : Option (ℕ × Vec K) :=
  match τ.act with
  | (.whole call, some reply) => claims ⟨τ.before.arena,(call,reply),τ.after.arena⟩
  | (.answer client, some (.checked (.ok response))) =>
    if response.checkState = .miss ∧ response.nodeId ≠ -1 then
      (τ.before.inFlight client).map fun call => (toSize response.nodeId, call.query)
    else none
  | _ => none

end Model

section Answer
variable {K : Type*} {query : Vec K} {t : UInt64} {arena arena' : MemoryArena (Vec K)} {id : ℤ}
  {result : Except Status CheckCacheResponse}

theorem claimSlot_effect (h : claimSlot query t id arena = .ok (result, arena')) :
    (result = .ok ⟨.miss,id,[]⟩ ∧ id ≠ -1 ∧
      arena'.vectors = Function.update arena.vectors (toSize id) query) ∨
    (arena'.vectors = arena.vectors ∧
      ∀ response, result = .ok response → response.checkState = .miss ∧ response.nodeId = -1) := by
  by_cases hid : id = -1
  · rw [claimSlot, if_pos hid, Except.ok.injEq, Prod.mk.injEq] at h
    obtain ⟨rfl,rfl⟩ := h
    exact .inr ⟨rfl,by simp⟩
  by_cases hrange : toSize id < totalMaxSlots
  swap
  · have hget : arena.getNode (toSize id) = .error (.outOfRange (toSize id)) := if_neg hrange
    simp only [claimSlot, hid, if_false, hget, reduceCtorEq] at h
  by_cases hdead : NodeState.ofBits ((arena.metadata (toSize id)).controlBlock >>> 62) = .dead
  · simp only [claimSlot, hid, if_false, MemoryArena.getNode_of_lt arena hrange, hdead, if_true,
      MemoryArena.compareExchange_self, Except.ok.injEq, Prod.mk.injEq] at h
    obtain ⟨rfl,rfl⟩ := h
    exact .inl ⟨rfl,hid,rfl⟩
  · simp only [claimSlot, hid, if_false, MemoryArena.getNode_of_lt arena hrange, hdead,
      Except.ok.injEq, Prod.mk.injEq] at h
    obtain ⟨rfl,rfl⟩ := h
    refine .inr ⟨rfl,?_⟩
    rintro _ ⟨⟩
    exact ⟨rfl,rfl⟩

theorem answerScan_effect [Scoring K] {scan : Scan K}
    (h : answerScan query t scan arena = .ok (result, arena')) :
    (∃ response, result = .ok response ∧ response.checkState = .miss ∧ response.nodeId ≠ -1 ∧
      arena'.vectors = Function.update arena.vectors (toSize response.nodeId) query) ∨
    (arena'.vectors = arena.vectors ∧ ∀ response, result = .ok response →
      (response.checkState = .miss → response.nodeId = -1) ∧
      (response.checkState = .hit → atLeast scan.maxScore (similarityThreshold : K) = true)) := by
  have hclaim : ∀ id, claimSlot query t id arena = .ok (result, arena') →
      (∃ response, result = .ok response ∧ response.checkState = .miss ∧ response.nodeId ≠ -1 ∧
        arena'.vectors = Function.update arena.vectors (toSize response.nodeId) query) ∨
      (arena'.vectors = arena.vectors ∧ ∀ response, result = .ok response →
        (response.checkState = .miss → response.nodeId = -1) ∧
        (response.checkState = .hit → atLeast scan.maxScore (similarityThreshold : K) = true)) := by
    intro id hid
    rcases claimSlot_effect hid with ⟨rfl,hne,hvec⟩ | ⟨hvec,hmiss⟩
    · exact .inl ⟨_,rfl,rfl,hne,hvec⟩
    · refine .inr ⟨hvec,fun response hr => ?_⟩
      obtain ⟨hstate,hnode⟩ := hmiss response hr
      exact ⟨fun _ => hnode,fun hhit => by simp [hstate] at hhit⟩
  cases habove : atLeast scan.maxScore (similarityThreshold : K) with
  | false =>
    simp only [answerScan, habove, Bool.false_eq_true, if_false] at h
    simpa only [habove] using hclaim _ h
  | true =>
    by_cases hrange : toSize scan.bestNodeId < totalMaxSlots
    swap
    · have hget : arena.getNode (toSize scan.bestNodeId) =
          .error (.outOfRange (toSize scan.bestNodeId)) := if_neg hrange
      simp only [answerScan, habove, if_true, hget, reduceCtorEq] at h
    simp only [answerScan, habove, if_true, MemoryArena.getNode_of_lt arena hrange,
      MemoryArena.compareExchange_self] at h
    cases hstate : (unpackControl (arena.metadata (toSize scan.bestNodeId)).controlBlock).state with
    | ready | migrating =>
      simp only [hstate, Except.ok.injEq, Prod.mk.injEq] at h
      obtain ⟨rfl,rfl⟩ := h
      exact .inr ⟨rfl,by rintro _ ⟨⟩; exact ⟨by simp,fun _ => rfl⟩⟩
    | pending =>
      simp only [hstate, Except.ok.injEq, Prod.mk.injEq] at h
      obtain ⟨rfl,rfl⟩ := h
      exact .inr ⟨rfl,by rintro _ ⟨⟩; exact ⟨by simp,by simp⟩⟩
    | dead =>
      simp only [hstate] at h
      simpa only [habove] using hclaim _ h

theorem above_of_hit [Scoring K] {scan : Scan K} {response : CheckCacheResponse}
    (h : answerScan query t scan arena = .ok (.ok response, arena'))
    (hhit : response.checkState = .hit) :
    atLeast scan.maxScore (similarityThreshold : K) = true := by
  rcases answerScan_effect h with ⟨_,hr,hmiss,-⟩ | ⟨-,hno⟩
  · rw [← Except.ok.inj hr, hhit] at hmiss
    simp at hmiss
  · exact (hno response rfl).2 hhit

end Answer

section Runs
variable {K : Type*} [Scoring K] {es es₁ es₂ es₃ : List (SplitStep K)} {τ σ : SplitStep K}
  {s s' : Split K} {client n : ℕ} {query : Vec K} {t : UInt64} {response : CheckCacheResponse}

theorem split_effect (h : SplitFires τ.before τ.act τ.after) :
    (splitClaims τ = none ∧ τ.after.arena.vectors = τ.before.arena.vectors) ∨
      ∃ m q, splitClaims τ = some (m, q) ∧
        τ.after.arena.vectors = Function.update τ.before.arena.vectors m q := by
  obtain ⟨u,⟨call,reply⟩,v⟩ := τ
  cases call with
  | whole call =>
    obtain ⟨r,hr,hfire,-⟩ := h
    simp only at hr
    subst hr
    rcases step_effect hfire with ⟨hnone,hvec,-⟩ | ⟨m,q,prompt,t,-,hsome,hclaim⟩
    · exact .inl ⟨hnone,hvec⟩
    · exact .inr ⟨m,q,hsome,hclaim.vectors⟩
  | scan c q t =>
    obtain ⟨-,hr,harena,-⟩ := h
    simp only at hr
    subst hr
    refine .inl ⟨rfl,?_⟩
    rw [harena, scanL0_eq, expireSlots_vectors]
  | answer c =>
    obtain ⟨call,result,hcall,hr,hans,-⟩ := h
    simp only at hr hcall
    subst hr
    rcases answerScan_effect hans with ⟨response,rfl,hmiss,hid,hvec⟩ | ⟨hvec,hno⟩
    · exact .inr ⟨_,_,by simp [splitClaims, hmiss, hid, hcall],hvec⟩
    · refine .inl ⟨?_,hvec⟩
      cases result with
      | error status => rfl
      | ok response =>
        have := (hno response rfl).1
        simp only [splitClaims]
        rw [if_neg]
        rintro ⟨hm,hid⟩
        exact hid (this hm)

/-- A slot holds the vector of the query that has claimed it last. -/
theorem split_vectors_eq_latest (hrun : Run SplitFires s es s') :
    s'.arena.vectors n = (latest splitClaims es n).getD (s.arena.vectors n) :=
  hrun.store_eq_latest splitClaims (fun s => s.arena.vectors) (fun _ h => split_effect h) n

theorem inFlight_eq (hrun : Run SplitFires s es s')
    (hother : ∀ υ ∈ es, υ.act.1.client ≠ some client) :
    s'.inFlight client = s.inFlight client := by
  refine hrun.frame (fun u => u.inFlight client) ?_ hother
  rintro ⟨u,⟨call,reply⟩,v⟩ hfire hne
  cases call with
  | whole call =>
    obtain ⟨_,-,-,hflight⟩ := hfire
    exact congrFun hflight client
  | scan c query t =>
    have hc : client ≠ c := fun h => hne (congrArg some h.symm)
    obtain ⟨-,-,-,hflight⟩ := hfire
    exact (congrFun hflight client).trans (Function.update_of_ne hc _ _)
  | answer c =>
    have hc : client ≠ c := fun h => hne (congrArg some h.symm)
    obtain ⟨_,_,-,-,-,hflight⟩ := hfire
    exact (congrFun hflight client).trans (Function.update_of_ne hc _ _)

/-- A hit comes from a slot whose vector is similar to the query exactly when the
last query that has claimed the slot since the scan, if any, is. -/
theorem hit_similar_iff (hrun : Run SplitFires (freshSplit K) (es₁ ++ τ :: (es₂ ++ σ :: es₃)) s)
    (hscan : τ.act = (.scan client query t, none))
    (hown : ∀ υ ∈ es₂, υ.act.1.client ≠ some client)
    (hanswer : σ.act = (.answer client, some (.checked (.ok response))))
    (hhit : response.checkState = .hit)
    (hnode : (scanL0 query t τ.before.arena).2.bestNodeId = n) :
    Similar query (σ.before.arena.vectors n) ↔
      ∀ query', latest splitClaims es₂ n = some query' → Similar query query' := by
  obtain ⟨-,hτ,hrest⟩ := hrun.split_at
  obtain ⟨hes₂,hσ,-⟩ := hrest.split_at
  rw [hscan] at hτ
  rw [hanswer] at hσ
  obtain ⟨scan,hscanned,hflight,harena⟩ := inFlight_of_scan hτ
  obtain ⟨call,result,hcall,hresult,hans,-⟩ := hσ
  obtain rfl : .ok response = result := by simpa using hresult
  rw [inFlight_eq hes₂ hown, hflight, Option.some.injEq] at hcall
  subst hcall
  have habove := above_of_hit hans hhit
  rw [hscanned] at habove
  rw [scanL0_eq] at habove hnode
  have hsimilar : Similar query (τ.after.arena.vectors n) := by
    obtain ⟨m,hm⟩ := exists_best habove
    obtain rfl : m = n := by simpa [hm, slotId] using hnode
    rw [harena, scanL0_eq, expireSlots_vectors]
    exact similar_of_best hm habove
  rw [split_vectors_eq_latest hes₂]
  cases hlast : latest splitClaims es₂ n with
  | none => simpa using hsimilar
  | some query' => simp

end Runs

section Replay

theorem answerScan_ready {K : Type*} [Scoring K] (query : Vec K) (t : UInt64) {scan : Scan K}
    {arena : MemoryArena (Vec K)} {n : ℕ} (hn : n < l0MaxSlots) (hbest : scan.bestNodeId = n)
    (habove : atLeast scan.maxScore (similarityThreshold : K) = true)
    (hready : (arena.metadata n).loadControl.state = .ready) :
    ∃ response arena', answerScan query t scan arena = .ok (.ok response, arena') ∧
      response.checkState = .hit := by
  have hword : (unpackControl (arena.metadata n).controlBlock).state = .ready := hready
  simp only [answerScan, habove, if_true, hbest, toSize_natCast (l0_lt_total hn),
    MemoryArena.getNode_of_lt _ (l0_lt_total hn), hword, MemoryArena.compareExchange_self]
  exact ⟨_,_,rfl,rfl⟩

theorem whole_fires {K : Type*} [Scoring K] {arena arena' : MemoryArena (Vec K)} {call : Call K}
    {reply : Reply} (flight : ℕ → Option (InFlight K)) (h : Fires arena (call, reply) arena') :
    SplitFires ⟨arena,flight⟩ (.whole call, some reply) ⟨arena',flight⟩ := ⟨reply,rfl,h,rfl⟩

theorem answer_fires {K : Type*} [Scoring K] {s : Split K} {arena' : MemoryArena (Vec K)}
    {client : ℕ} {query : Vec K} {t : UInt64} {scan : Scan K}
    {result : Except Status CheckCacheResponse}
    (hcall : s.inFlight client = some ⟨query,t,scan⟩)
    (h : answerScan query t scan s.arena = .ok (result, arena')) :
    SplitFires s (.answer client, some (.checked result))
      ⟨arena',Function.update s.inFlight client none⟩ := ⟨_,_,hcall,rfl,h,rfl⟩

theorem scan_fires {K : Type*} [Field K] [LinearOrder K] [IsStrictOrderedRing K] {s : Split K}
    (client : ℕ) (query : Vec K) (t : UInt64) (hidle : s.inFlight client = none)
    (hmatch : (s.arena.metadata 0).matchable t = true)
    (hother : ∀ i, i ≠ 0 → s.arena.metadata i = ⟨0,0⟩)
    (hsimilar : Similar query (s.arena.vectors 0)) :
    ∃ (s' : Split K) (scan : Scan K), SplitFires s (.scan client query t, none) s' ∧
      scan = (scanL0 query t s.arena).2 ∧
      s'.inFlight client = some ⟨query,t,scan⟩ ∧ s'.arena = expireSlots t s.arena ∧
      s'.arena.metadata 0 = s.arena.metadata 0 ∧ (∀ i, i ≠ 0 → s'.arena.metadata i = ⟨0,0⟩) ∧
      scan.bestNodeId = 0 ∧ atLeast scan.maxScore (similarityThreshold : K) = true := by
  have hdead : ∀ i, i ≠ 0 → (s.arena.metadata i).loadControl.state = .dead := by
    intro i hi
    rw [hother i hi]
    decide
  have hbest := bestSlot_of_greatest (t := t) (by decide) hmatch hsimilar (by
    intro i _ hi hm
    rw [MetaNode.not_matchable_of_dead (hdead i hi)] at hm
    simp at hm)
  refine ⟨⟨expireSlots t s.arena,_⟩,_,⟨hidle,rfl,by rw [scanL0_eq],rfl⟩,rfl,
    Function.update_self ..,rfl,expireSlots_of_not (MetaNode.not_expired_of_matchable hmatch),
    fun i hi => ?_,?_,?_⟩
  · exact (expireSlots_of_not (MetaNode.not_expired_of_dead (hdead i hi))).trans (hother i hi)
  · rw [scanL0_eq, hbest]
    rfl
  · rw [scanL0_eq, hbest]
    exact hsimilar

/-- The reservation a scan has scored expires and is handed to another query before the
scan is answered. -/
theorem exists_crossing (query : Vec ℚ) : ∃ (α τ β γ σ : SplitStep ℚ) (s : Split ℚ) (scan : Scan ℚ)
    (response : CheckCacheResponse), Run SplitFires (freshSplit ℚ) [α, τ, β, γ, σ] s ∧
      α.act = (.whole (.checkCache [1] (.ok (axis 0)) 1), some (.checked (.ok ⟨.miss,0,[]⟩))) ∧
      τ.act = (.scan 0 (axis 0) 1, none) ∧
      β.act = (.whole (.checkCache [1] (.ok query) 32), some (.checked (.ok ⟨.miss,0,[]⟩))) ∧
      γ.act = (.whole (.setCache 0 [7]), some (.stored (.ok true))) ∧
      σ.act = (.answer 0, some (.checked (.ok response))) ∧ response.checkState = .hit ∧
      (scanL0 (axis 0) 1 τ.before.arena).2 = scan ∧ scan.bestNodeId = 0 ∧
      σ.before.inFlight 0 = some ⟨axis 0,1,scan⟩ ∧ σ.before.arena.vectors 0 = query := by
  have hw := oneByte_wellFormed
  obtain ⟨one,hone,hnode,hother,hvec,hbuf,hhead,htail⟩ := exists_firstMiss (axis 0 : Vec ℚ) 1
  obtain ⟨⟨two,flight⟩,scan,hscan,hresult,hcall,rfl,hnode',hother',hbest,habove⟩ :=
    scan_fires (s := ⟨one,fun _ => none⟩) 0 (axis 0) 1 rfl
      (by rw [hnode]; decide) hother (by rw [hvec]; exact (axis_normalized 0).similar)
  have hring : LiveRing (expireSlots 1 one) 0 [] 0 :=
    (liveRing_initial (V := Vec ℚ) 0).congr hbuf hhead htail
  obtain ⟨three,four,hthree,hfour,hvec',hready⟩ := exists_reclaim query hw hring
    (hnode'.trans hnode) hother'
  obtain ⟨response,five,hans,hhit⟩ := answerScan_ready (axis 0) 1 (by decide)
    hbest habove hready
  have hanswer := answer_fires (s := ⟨four,flight⟩) hcall hans
  have hrun := (((Run.single (whole_fires (fun _ => none) hone)).snoc hscan).snoc
    (whole_fires flight hthree)).snoc (whole_fires flight hfour)
  exact ⟨_,_,_,_,_,_,scan,response,hrun.snoc hanswer,rfl,rfl,rfl,rfl,rfl,hhit,hresult.symm,hbest,
    hcall,hvec'⟩

/-- The slot is handed to an orthogonal query. -/
theorem hit_crosses : ∃ (es : List (SplitStep ℚ)) (τ : SplitStep ℚ) (s : Split ℚ)
    (scan : Scan ℚ) (response : CheckCacheResponse),
    Run SplitFires (freshSplit ℚ) (es ++ [τ]) s ∧
      es.map (fun τ => τ.act) =
        [(.whole (.checkCache [1] (.ok (axis 0)) 1), some (.checked (.ok ⟨.miss,0,[]⟩))),
          (.scan 0 (axis 0) 1, none),
          (.whole (.checkCache [1] (.ok (axis 1)) 32), some (.checked (.ok ⟨.miss,0,[]⟩))),
          (.whole (.setCache 0 [7]), some (.stored (.ok true)))] ∧
      τ.act = (.answer 0, some (.checked (.ok response))) ∧ response.checkState = .hit ∧
      τ.before.inFlight 0 = some ⟨axis 0,1,scan⟩ ∧ scan.bestNodeId = 0 ∧
      ¬ Similar (axis 0) (τ.before.arena.vectors 0) := by
  obtain ⟨α,τ,β,γ,σ,s,scan,response,hrun,hα,hτ,hβ,hγ,hσ,hhit,-,hbest,hflight,hvec⟩ :=
    exists_crossing (axis 1)
  refine ⟨[α, τ, β, γ],σ,s,scan,response,hrun,?_,hσ,hhit,hflight,hbest,?_⟩
  · simp [hα, hτ, hβ, hγ]
  · rw [hvec]
    exact axis_not_similar (by decide)

/-- The slot is handed to a query close to the one that was scanned for. -/
theorem hit_similar_replay : ∃ (α τ β γ σ : SplitStep ℚ) (s : Split ℚ),
    Run SplitFires (freshSplit ℚ) [α, τ, β, γ, σ] s ∧
      latest splitClaims [β, γ] 0 = some tilted ∧ Similar (axis 0) (σ.before.arena.vectors 0) := by
  obtain ⟨α,τ,β,γ,σ,s,scan,response,hrun,hα,hτ,hβ,hγ,hσ,hhit,hscan,hbest,-,-⟩ :=
    exists_crossing tilted
  have hclaimed : latest splitClaims [β, γ] 0 = some tilted := by
    simp [latest, record, splitClaims, claims, hβ, hγ]
  refine ⟨α,τ,β,γ,σ,s,hrun,hclaimed,(@hit_similar_iff ℚ _ [α] [β, γ] [] τ σ s 0 0 (axis 0) 1
    response hrun hτ ?_ hσ hhit ?_).mpr ?_⟩
  · simp [hβ, hγ, SplitCall.client]
  · rw [hscan]
    exact hbest
  · rw [hclaimed]
    rintro _ ⟨⟩
    exact axis_similar_tilted

end Replay

end Strix
