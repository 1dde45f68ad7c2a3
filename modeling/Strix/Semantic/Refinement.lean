import Strix.Foundation.AnswerCache
import Strix.Semantic.ReadWrite
import Strix.Semantic.Specification

/-! # The engine is a cache that answers by similarity

Seen through its slots alone, every bounded run of whole calls is a run of the
similarity cache: the ring, the offsets and the reference bits do not show. What
such a cache promises then holds of the engine.
-/
namespace Strix
open AnswerCache FirstMax FramedLog RunHistory Scoring

/-- What a slot with this control word, vector and payload stands for. -/
def cellAs {K : Type*} (payload : List UInt8) (node : MetaNode) (vector : Vec K) :
    Cell (Vec K) (List UInt8) UInt64 :=
  match node.loadControl.state with
  | .dead => .empty
  | .pending => .awaited vector node.createdAt
  | .ready | .migrating => .answered vector payload

/-- The slots of an arena; the payload of a filled one is read from the ring. -/
def cellsOf {K : Type*} (arena : MemoryArena (Vec K)) (i : ℕ) :
    Cell (Vec K) (List UInt8) UInt64 :=
  cellAs (arena.readPayload (arena.metadata i).loadControl.virtualOffset
    (arena.metadata i).loadControl.length) (arena.metadata i) (arena.vectors i)

/-- The slots with the payloads that the history has published. -/
def cellsBy {K : Type*} (content : ℕ → Option (List UInt8)) (arena : MemoryArena (Vec K)) (i : ℕ) :
    Cell (Vec K) (List UInt8) UInt64 :=
  cellAs ((content i).getD []) (arena.metadata i) (arena.vectors i)

def ReadsAs {K : Type*} (content : ℕ → Option (List UInt8)) (arena : MemoryArena (Vec K)) : Prop :=
  ∀ n, (arena.metadata n).loadControl.state = .ready ∨
      (arena.metadata n).loadControl.state = .migrating →
    content n = some (arena.readPayload (arena.metadata n).loadControl.virtualOffset
      (arena.metadata n).loadControl.length)

/-- How a whole call appears at the slots. A call that fails does not show, unless all
slots are taken, and a pass shows if it frees a slot. -/
def observe {K : Type*} (τ : Step K) : Option (Event (Vec K) (List UInt8) UInt64) :=
  match τ.act with
  | (.checkCache _ (.ok query) t, .checked (.ok response)) =>
    match response.checkState with
    | .hit => some (.hit query t response.cachedPayload)
    | .pending => some (.pending query t response.nodeId.toNat)
    | .miss => some (.reserve query t response.nodeId.toNat)
    | .unspecified => none
  | (.checkCache prompt (.ok query) t, .checked (.error _)) =>
    if prompt = [] then none else some (.busy query t)
  | (.setCache nodeId payload, .stored (.ok true)) => some (.accept (wireNode nodeId) payload)
  | (.setCache nodeId payload, .stored (.ok false)) => some (.decline (wireNode nodeId) payload)
  | (.collect, _) =>
    match τ.before.sight with
    | .record header =>
      if τ.before.stateOf header.nodeId.toNat ≠ .dead ∧
        τ.after.stateOf header.nodeId.toNat = .dead then some (.release header.nodeId.toNat)
      else none
    | _ => none
  | _ => none

def seenAs {K β : Type*} (f : Step K → Event (Vec K) (List UInt8) UInt64 → β) (es : List (Step K)) :
    List β := es.filterMap fun τ => (observe τ).map (f τ)

def observed {K : Type*} (es : List (Step K)) : List (CacheBeat (Vec K) (List UInt8) UInt64) :=
  es.filterMap fun τ => (observe τ).map fun e => ⟨cellsOf τ.before,e,cellsOf τ.after⟩

theorem observed_eq {K : Type*} (es : List (Step K)) :
    observed es = seenAs (fun τ e => ⟨cellsOf τ.before,e,cellsOf τ.after⟩) es := rfl

section Setting
variable {K : Type*} [Field K] [LinearOrder K] [IsStrictOrderedRing K]

variable (K) in
/-- The engine compares queries by their score and gives a reservation
`PENDING_LIFESPAN` seconds. -/
def engineSetting : Setting (Vec K) K UInt64 where
  size := l0MaxSlots
  score := cosineSimilarity
  threshold := exactThreshold
  fresh now since := since ≠ 0 ∧ ¬ pendingLifespan.toUInt64 < now - since
  lapsed now since := since ≠ 0 ∧ pendingLifespan.toUInt64 < now - since
  stale_of_lapsed now since h := by
    simp only [decide_eq_true_eq] at h
    simp only [decide_eq_false_iff_not, not_and_or, not_not]
    exact .inr h.2

variable {t : UInt64} {node : MetaNode} {vector query : Vec K} {payload : List UInt8}
  {arena arena' : MemoryArena (Vec K)} {content : ℕ → Option (List UInt8)} {n : ℕ}

theorem serves_cellAs : (engineSetting K).serves t (cellAs payload node vector) =
    if node.matchable t then some vector else none := by
  unfold cellAs
  cases hs : node.loadControl.state <;>
    simp [Setting.serves, engineSetting, MetaNode.matchable_eq_true, hs]

theorem sweepCell_cellAs : (engineSetting K).sweepCell t (cellAs payload node vector) =
    if node.expired t then .empty else cellAs payload node vector := by
  unfold cellAs
  cases hs : node.loadControl.state <;>
    simp [Setting.sweepCell, engineSetting, MetaNode.expired_eq_true, hs]

omit [Field K] [LinearOrder K] [IsStrictOrderedRing K] in
theorem cellAs_of_dead (h : node.loadControl.state = .dead) :
    cellAs payload node vector = .empty := by
  simp [cellAs, h]

omit [Field K] [LinearOrder K] [IsStrictOrderedRing K] in
theorem cellAs_eq_empty : cellAs payload node vector = .empty ↔
    node.loadControl.state = .dead := by
  unfold cellAs
  cases node.loadControl.state <;> simp

theorem cellsBy_expireSlots :
    cellsBy content (expireSlots t arena) = (engineSetting K).sweep t (cellsBy content arena) := by
  funext i
  unfold Setting.sweep cellsBy
  rw [sweepCell_cellAs, expireSlots_metadata, expireSlots_vectors]
  by_cases hi : i < l0MaxSlots
  · by_cases he : (arena.metadata i).expired t = true
    · rw [if_pos ⟨hi,he⟩, if_pos (by exact hi), if_pos he, cellAs_of_dead MetaNode.expire_state]
    · rw [if_neg fun h => he h.2, if_pos (by exact hi), if_neg he]
  · rw [if_neg fun h => hi h.1, if_neg (by exact hi)]

omit [Field K] [LinearOrder K] [IsStrictOrderedRing K] in
theorem cellsBy_congr (hmeta : ∀ i, (arena'.metadata i).loadControl.state =
      (arena.metadata i).loadControl.state ∧
        (arena'.metadata i).createdAt = (arena.metadata i).createdAt)
    (hvec : arena'.vectors = arena.vectors) : cellsBy content arena' = cellsBy content arena := by
  funext i
  unfold cellsBy cellAs
  rw [(hmeta i).1, (hmeta i).2, hvec]

theorem best_cellsBy (h : (bestSlot query t arena l0MaxSlots).2 = some n) :
    (engineSetting K).Best query t (cellsBy content arena) n (arena.vectors n) := by
  obtain ⟨hn,hm,hscore⟩ := matchable_of_best h
  have hkey : ∀ i w, (engineSetting K).serves t (cellsBy content arena i) = some w →
      slotScore query t arena i = some (cosineSimilarity query w) := by
    intro i w hw
    rw [cellsBy, serves_cellAs] at hw
    split at hw
    · next hmi => rw [slotScore, if_pos hmi, Option.some.inj hw]
    · cases hw
  refine ⟨hn,by rw [cellsBy, serves_cellAs, if_pos hm],fun i hi w hw => ?_,fun i hi w hw => ?_⟩
  · exact (key_le (minusOne : K) hi (hkey i w hw)).trans hscore.ge
  · exact (lt_of_before h hi (hkey i w hw)).trans_eq hscore.symm

theorem below_cellsBy (h : atLeast (bestSlot query t arena l0MaxSlots).1
    (similarityThreshold : K) = false) :
    (engineSetting K).Below query t (cellsBy content arena) := by
  intro i hi w hw
  rw [cellsBy, serves_cellAs] at hw
  split at hw
  · next hm =>
    obtain rfl := Option.some.inj hw
    exact not_similar_iff.mp (below_iff.mp h i hi hm)
  · cases hw

theorem free_cellsBy (i : ℕ) : (engineSetting K).sweepCell t (cellsBy content arena i) = .empty ↔
    (arena.metadata i).reusable t = true := by
  rw [cellsBy, sweepCell_cellAs, MetaNode.reusable_eq_true]
  split
  · next he => simp [he]
  · next he => simp [he, cellAs_eq_empty]

theorem firstFree_cellsBy (h : reusableSlot t arena l0MaxSlots = some n) :
    (engineSetting K).FirstFree t (cellsBy content arena) n := by
  obtain ⟨hr,hn,hbefore⟩ := List.find?_range_eq_some.mp h
  refine ⟨List.mem_range.mp hn,(free_cellsBy n).mpr hr,fun i hi hempty => ?_⟩
  have := hbefore i hi
  rw [(free_cellsBy i).mp hempty] at this
  simp at this

end Setting

section Calls
variable {K : Type*} [Field K] [LinearOrder K] [IsStrictOrderedRing K] {t : UInt64}
  {query : Vec K} {arena arena' : MemoryArena (Vec K)} {content : ℕ → Option (List UInt8)}
  {reply : Except Status CheckCacheResponse}

/-- The control words and the vectors after a hit differ from those of the sweep in a
reference bit only. -/
theorem cellsBy_hit {n : ℕ} (hbest : (bestSlot query t arena l0MaxSlots).2 = some n) :
    cellsBy content ((expireSlots t arena).storeControl n
      (packControl (arena.metadata n).loadControl.state .hot (arena.metadata n).loadControl.length
        (arena.metadata n).loadControl.virtualOffset)) =
      (engineSetting K).sweep t (cellsBy content arena) := by
  rw [← cellsBy_expireSlots]
  refine cellsBy_congr (fun i => ?_) rfl
  by_cases hi : i = n
  · subst hi
    have hnode := (expireSlots_of_best hbest).2
    simp [MetaNode.loadControl, hnode]
  · rw [MemoryArena.storeControl_of_ne _ _ _ hi]
    exact ⟨rfl,rfl⟩

theorem CheckOutcome.cacheStep {prompt : List UInt8} (hprompt : prompt ≠ [])
    (h : CheckOutcome query t arena reply arena') (hcontent : ReadsAs content arena) :
    ∃ e, observe (⟨arena,(.checkCache prompt (.ok query) t, .checked reply),arena'⟩ : Step K) =
        some e ∧
      CacheStep (engineSetting K) (cellsBy content arena) e (cellsBy content arena') := by
  cases h with
  | @hit n best above filled =>
    refine ⟨_,rfl,.hit (best_cellsBy best) ?_ ?_,cellsBy_hit best⟩
    · exact similar_iff.mp (similar_of_best best above)
    · have hread := hcontent n filled
      rcases filled with hstate | hstate <;> simp [cellsBy, cellAs, hstate, hread]
  | @pending n best above reserved =>
    have hcell : cellsBy content arena n =
        .awaited (arena.vectors n) (arena.metadata n).createdAt := by
      simp only [cellsBy, cellAs, reserved]
    exact ⟨_,rfl,.pending (best_cellsBy best) (similar_iff.mp (similar_of_best best above)) hcell,
      cellsBy_expireSlots⟩
  | @miss n below free =>
    refine ⟨_,rfl,.reserve (below_cellsBy below) (firstFree_cellsBy free),?_⟩
    funext i
    simp only [Setting.after, Int.toNat_natCast, ← cellsBy_expireSlots]
    by_cases hi : i = n
    · subst hi
      simp [cellsBy, cellAs, MetaNode.loadControl]
    · simp [cellsBy, hi]
  | full below free =>
    refine ⟨.busy query t,by simp [observe, hprompt],.busy (below_cellsBy below) ?_,?_⟩
    · intro i hi hempty
      have := List.find?_eq_none.mp free i (List.mem_range.mpr hi)
      exact this ((free_cellsBy i).mp hempty)
    · rw [Setting.after, ← cellsBy_expireSlots, expireSlots_eq_self free]

variable (content) in
theorem setCache_cacheStep {nodeId : ℤ} {payload : List UInt8} {result : Except Status Bool}
    (h : setCache nodeId payload arena = .ok (result, arena')) :
    let τ : Step K := ⟨arena,(.setCache nodeId payload, .stored result),arena'⟩
    (observe τ = none ∧ publishes τ = none ∧ arena' = arena) ∨
    ∃ e, observe τ = some e ∧ CacheStep (engineSetting K) (cellsBy content arena) e
      (cellsBy (record publishes content τ) arena') := by
  intro τ
  rcases setCache_cases h with ⟨⟨status,rfl⟩,rfl⟩ | ⟨hw,offset,written,hwrite,hout⟩
  · exact .inl ⟨rfl,rfl,rfl⟩
  right
  obtain ⟨hmeta,hvec,-⟩ := writePayload_fields hwrite
  rcases hout with ⟨hstate,rfl,rfl⟩ | ⟨hstate,rfl,rfl⟩
  · refine ⟨_,rfl,.decline fun q s hcell => ?_,?_⟩
    · simp only [cellsBy, cellAs] at hcell
      split at hcell <;> simp_all
    · rw [record_none publishes rfl]
      exact cellsBy_congr (fun i => by rw [hmeta]; exact ⟨rfl,rfl⟩) hvec
  · have hcell : cellsBy content arena (wireNode nodeId) = .awaited
        (arena.vectors (wireNode nodeId)) (arena.metadata (wireNode nodeId)).createdAt := by
      simp only [cellsBy, cellAs, hstate]
    refine ⟨_,rfl,.accept hcell,?_⟩
    rw [record_some publishes (k := wireNode nodeId) (v := payload) rfl]
    funext i
    by_cases hi : i = wireNode nodeId
    · subst hi
      simp only [Setting.after, Function.update_self, hcell, Cell.fill]
      simp [cellsBy, cellAs, MetaNode.loadControl, hvec]
    · simp [Setting.after, cellsBy, hi, hmeta, hvec]

variable (content) in
theorem collect_cacheStep (h : arena.runGarbageCollectorPass = .ok arena') :
    let τ : Step K := ⟨arena,(.collect, .collected),arena'⟩
    (observe τ = none ∧ cellsBy content arena' = cellsBy content arena) ∨
    ∃ e, observe τ = some e ∧
      CacheStep (engineSetting K) (cellsBy content arena) e (cellsBy content arena') := by
  intro τ
  -- a pass that keeps every state and vector
  have hquiet : (∀ i, (arena'.metadata i).loadControl.state = (arena.metadata i).loadControl.state ∧
      (arena'.metadata i).createdAt = (arena.metadata i).createdAt) →
      arena'.vectors = arena.vectors →
      observe τ = none ∧ cellsBy content arena' = cellsBy content arena := by
    intro hmeta hvec
    refine ⟨?_,cellsBy_congr hmeta hvec⟩
    simp only [observe, τ]
    cases arena.sight with
    | belowWatermark | ringEnd | invalidIdentifier => rfl
    | record header =>
      refine if_neg ?_
      rintro ⟨hlive,hdead⟩
      exact hlive ((hmeta header.nodeId.toNat).1.symm.trans hdead)
  cases pass_move h with
  | asleep | leap | resync | skip => exact .inl (hquiet (fun i => ⟨rfl,rfl⟩) rfl)
  | @rescue header offset rescued hs _ _ hot hrescue =>
    obtain ⟨hmeta,hvec,-⟩ := rescuePayload_fields hrescue
    have hexchange := rehomeExchange_eq rescued header.nodeId.toNat offset (by rw [hmeta, hot])
    rw [hmeta] at hexchange
    refine .inl (hquiet (fun i => ?_) ?_)
    · rw [hexchange]
      by_cases hi : i = header.nodeId.toNat
      · subst hi
        simp [MetaNode.loadControl, hmeta]
      · simp [hi, hmeta]
    · rw [hexchange]
      exact hvec
  | @evict header hs _ current cold =>
    right
    have hlive := (stale_eq_false.mp current).1
    have hexchange := @evictExchange_eq _ arena header.nodeId.toNat
    refine ⟨.release header.nodeId.toNat,?_,.release ?_,?_⟩
    · simp only [observe, τ, hs, hexchange]
      refine if_pos ⟨hlive,?_⟩
      simp [MemoryArena.stateOf, MetaNode.loadControl]
    · rw [cellsBy, ne_eq, cellAs_eq_empty]
      exact hlive
    · rw [hexchange]
      funext i
      by_cases hi : i = header.nodeId.toNat
      · subst hi
        simp [Setting.after, cellsBy, cellAs, MetaNode.loadControl]
      · simp [Setting.after, cellsBy, hi]

end Calls

section Runs
variable {K : Type*} [Field K] [LinearOrder K] [IsStrictOrderedRing K]
  {arena : MemoryArena (Vec K)} {es es₁ es₂ es₃ : List (Step K)} {τ σ : Step K}
  {log : List (Entry PayloadRecord)} {content : ℕ → Option (List UInt8)}

omit [Field K] [LinearOrder K] [IsStrictOrderedRing K] in
/-- The ring holds what the history has published. -/
theorem Intact.cellsOf_eq (h : Intact es arena log) :
    cellsOf arena = cellsBy (latest publishes es) arena := by
  funext i
  by_cases hready : (arena.metadata i).loadControl.state = .ready
  · rw [cellsOf, cellsBy, h.readPayload hready]
    rfl
  · have hmigrating := h.served.settled i
    unfold cellsOf cellsBy cellAs
    cases hs : (arena.metadata i).loadControl.state <;> simp_all

theorem Fires.cacheStep (hfire : Fires τ.before τ.act τ.after)
    (hcontent : ReadsAs content τ.before) :
    (observe τ = none ∧
      cellsBy (record publishes content τ) τ.after = cellsBy content τ.before ∧
      (τ.act.2.Failed ∨ τ.act.1 = .collect)) ∨
    ∃ e, observe τ = some e ∧ CacheStep (engineSetting K) (cellsBy content τ.before) e
      (cellsBy (record publishes content τ) τ.after) := by
  obtain ⟨before,act,after⟩ := τ
  simp only at hfire hcontent ⊢
  rcases fires_cases hfire with ⟨prompt,embedding,t,result,rfl,hc⟩ |
    ⟨nodeId,payload,result,rfl,hc⟩ | ⟨rfl,hc⟩
  · rw [record_none publishes rfl]
    by_cases hprompt : prompt = []
    · subst hprompt
      obtain ⟨rfl,rfl⟩ : .error ⟨.invalidArgument,"User prompt is empty"⟩ = result ∧
          before = after := by simpa [checkCache] using hc
      refine .inl ⟨?_,rfl,.inl trivial⟩
      cases embedding <;> rfl
    · rcases checkCache_cases hc with ⟨⟨status,rfl⟩,rfl⟩ | ⟨query,rfl,-,ho⟩
      · cases embedding with
        | error what => exact .inl ⟨rfl,rfl,.inl trivial⟩
        | ok query =>
          obtain ⟨reply,arena',ho⟩ := exists_checkOutcome query t after
          have hcall := ho.checkCache_eq hprompt
          rw [hc, Except.ok.injEq, Prod.mk.injEq] at hcall
          obtain ⟨rfl,rfl⟩ := hcall
          exact .inr (ho.cacheStep hprompt hcontent)
      · exact .inr (ho.cacheStep hprompt hcontent)
  · rcases setCache_cacheStep content hc with ⟨hnone,hpub,rfl⟩ | hstep
    · rw [record_none publishes hpub]
      refine .inl ⟨hnone,rfl,.inl ?_⟩
      rcases result with status | ⟨_ | _⟩
      · trivial
      · cases hnone
      · cases hnone
    · exact .inr hstep
  · rw [record_none publishes rfl]
    rcases collect_cacheStep content hc with ⟨hnone,hcells⟩ | hstep
    · exact .inl ⟨hnone,hcells,.inr rfl⟩
    · exact .inr hstep

theorem Intact.cacheStep (h : Intact es τ.before log) (hfire : Fires τ.before τ.act τ.after)
    (hb : Bounded τ) :
    (observe τ = none ∧ cellsOf τ.after = cellsOf τ.before ∧
      (τ.act.2.Failed ∨ τ.act.1 = .collect)) ∨
    ∃ e, observe τ = some e ∧
      CacheStep (engineSetting K) (cellsOf τ.before) e (cellsOf τ.after) := by
  obtain ⟨log',hafter⟩ := h.step hfire hb
  rw [hafter.cellsOf_eq, h.cellsOf_eq, latest_snoc]
  exact hfire.cacheStep fun n hfilled =>
    h.readPayload (hfilled.resolve_right (h.served.settled n))

theorem observe_cases (hrun : EngineRun es τ.before) (hb : ∀ σ ∈ es ++ [τ], Bounded σ)
    (hfire : Fires τ.before τ.act τ.after) :
    (observe τ = none ∧ cellsOf τ.after = cellsOf τ.before ∧
      (τ.act.2.Failed ∨ τ.act.1 = .collect)) ∨
    ∃ e, observe τ = some e ∧
      CacheStep (engineSetting K) (cellsOf τ.before) e (cellsOf τ.after) := by
  rw [List.forall_mem_append, List.forall_mem_singleton] at hb
  obtain ⟨log,hintact⟩ := EngineRun.intact hrun hb.1
  exact hintact.cacheStep hfire hb.2

/-- The requests of a bounded run are a run of the cache. -/
theorem cacheRun_observed (hrun : EngineRun es arena) (hb : ∀ τ ∈ es, Bounded τ) :
    CacheRun (engineSetting K) (observed es) (cellsOf arena) := by
  have hstart : cellsOf (freshArena K) = fun _ => .empty := by
    funext i
    exact cellAs_of_dead (freshArena_state i)
  unfold CacheRun
  rw [← hstart]
  refine Run.filterMap_of_run cellsOf observe (fun fs τ hfs hbound hfire hnone => ?_)
    (fun fs τ e hfs hbound hfire hsome => ?_) hrun hb
  · rcases observe_cases hfs hbound hfire with ⟨-,hcells,-⟩ | ⟨e,hsome,-⟩
    · exact hcells
    · rw [hnone] at hsome
      cases hsome
  · rcases observe_cases hfs hbound hfire with ⟨hnone,-⟩ | ⟨e',hsome',hcache⟩
    · rw [hsome] at hnone
      cases hnone
    · rw [hsome, Option.some.injEq] at hsome'
      exact hsome' ▸ hcache

/-- The engine refines the similarity cache: in every bounded run its calls are requests
to the cache with the same replies, apart from calls that fail and passes that free no
slot, and its slots stand for what the cache has in them. -/
theorem engine_refines (hrun : EngineRun es arena) (hb : ∀ τ ∈ es, Bounded τ) :
    CacheRun (engineSetting K) (observed es) (cellsOf arena) ∧
      ∀ τ ∈ es, observe τ = none → τ.act.2.Failed ∨ τ.act.1 = .collect := by
  refine ⟨cacheRun_observed hrun hb,fun τ hτ hnone => ?_⟩
  obtain ⟨fs,gs,rfl⟩ := List.append_of_mem hτ
  obtain ⟨hfs,hfire,-⟩ := Run.split_at hrun
  rcases observe_cases hfs (fun σ hσ => hb σ (by
    rw [List.append_cons]
    exact List.mem_append_left _ hσ)) hfire with ⟨-,-,hkind⟩ | ⟨e,hsome,-⟩
  · exact hkind
  · rw [hnone] at hsome
    cases hsome

end Runs

section Replay

theorem engine_refines_replay : ∃ (es : List (Step ℚ)) (arena : MemoryArena (Vec ℚ)),
    EngineRun es arena ∧ cellsOf arena 0 = .answered (axis 0) [7] ∧
      CacheRun (engineSetting ℚ) (observed es) (cellsOf arena) := by
  obtain ⟨es,arena,hrun,hb,-,hnode,hvec,-,hread,-⟩ :=
    exists_published (axis 0 : Vec ℚ) 1 oneByte_wellFormed
  refine ⟨es,arena,hrun,?_,(engine_refines hrun hb).1⟩
  have hready : (arena.metadata 0).loadControl.state = .ready := by
    rw [hnode]
    decide
  rw [cellsOf, hread, hvec, cellAs, hready]

end Replay

section Transfer
variable {K : Type*} {es : List (Step K)} {τ : Step K} {n : ℕ} {v : Vec K} {s : UInt64}
  {payload : List UInt8} {β : Type*} {f : Step K → Event (Vec K) (List UInt8) UInt64 → β}
  {fs gs : List β} {b : β}

theorem seenAs_append (es es' : List (Step K)) :
    seenAs f (es ++ es') = seenAs f es ++ seenAs f es' := List.filterMap_append

theorem seenAs_cons {e : Event (Vec K) (List UInt8) UInt64} (h : observe τ = some e)
    (es : List (Step K)) : seenAs f (τ :: es) = f τ e :: seenAs f es := by
  simp [seenAs, h]

theorem seenAs_split (h : seenAs f es = fs ++ b :: gs) : ∃ es₁ τ es₂ e,
    es = es₁ ++ τ :: es₂ ∧ seenAs f es₁ = fs ∧ observe τ = some e ∧ f τ e = b ∧
      seenAs f es₂ = gs := by
  obtain ⟨es₁,rest,rfl,hfs,hrest⟩ := List.filterMap_eq_append_iff.mp h
  obtain ⟨quiet,τ,es₂,rfl,hquiet,hτ,hgs⟩ := List.filterMap_eq_cons_iff.mp hrest
  obtain ⟨e,he,hb⟩ := Option.map_eq_some_iff.mp hτ
  refine ⟨es₁ ++ quiet,τ,es₂,e,by simp,?_,he,hb,hgs⟩
  rw [seenAs_append, seenAs, seenAs, hfs, List.filterMap_eq_nil_iff.mpr hquiet, List.append_nil]

theorem mem_seenAs {υ : Step K} {e : Event (Vec K) (List UInt8) UInt64} (hυ : υ ∈ es)
    (h : observe υ = some e) : f υ e ∈ seenAs f es :=
  List.mem_filterMap.mpr ⟨υ,hυ,by rw [h]; rfl⟩

theorem observe_of_publishes (h : publishes τ = some (n, payload)) :
    observe τ = some (.accept n payload) := by
  unfold publishes at h
  split at h
  · next hact =>
    cases h
    simp only [observe, hact]
  · cases h

def Refills (n : ℕ) (τ : Step K) : Prop :=
  (∃ query, claims τ = some (n, query)) ∨ ∃ payload, publishes τ = some (n, payload)

theorem observe_of_refills (h : Refills n τ) : ∃ e, observe τ = some e ∧ e.Fills n := by
  rcases h with ⟨query,h⟩ | ⟨payload,h⟩
  · unfold claims at h
    split at h
    · next hact =>
      split at h
      · next hmiss =>
        refine ⟨_,by simp only [observe, hact, hmiss.1]; rfl,?_⟩
        exact congrArg Prod.fst (Option.some.inj h)
      · cases h
    · cases h
  · exact ⟨_,observe_of_publishes h,rfl⟩

theorem not_refills_of_observed (h : ∀ β ∈ observed es, ¬ β.act.Fills n) :
    ∀ υ ∈ es, ¬ Refills n υ := by
  intro υ hυ hrefills
  obtain ⟨e,he,hfills⟩ := observe_of_refills hrefills
  exact h _ (mem_seenAs hυ he) hfills

variable [Field K] [LinearOrder K] [IsStrictOrderedRing K]

theorem miss_of_observe (hfire : Fires τ.before τ.act τ.after)
    (h : observe τ = some (.reserve v s n)) : ∃ prompt,
      τ.act = (.checkCache prompt (.ok v) s, .checked (.ok ⟨.miss,n,[]⟩)) := by
  obtain ⟨before,act,after⟩ := τ
  rcases fires_cases hfire with ⟨prompt,embedding,t,result,rfl,hc⟩ |
    ⟨nodeId,payload,result,rfl,hc⟩ | ⟨rfl,hc⟩
  · rcases checkCache_cases hc with ⟨⟨status,rfl⟩,-⟩ | ⟨query,rfl,-,ho⟩
    · cases embedding with
      | error what => cases h
      | ok query =>
        simp only [observe] at h
        split at h <;> cases h
    · simp only at ho
      cases ho with
      | hit | pending => cases h
      | miss =>
        cases h
        exact ⟨prompt,rfl⟩
      | full =>
        simp only [observe] at h
        split at h <;> cases h
  · rcases result with status | ⟨_ | _⟩ <;> cases h
  · simp only [observe] at h
    split at h
    · split at h <;> cases h
    · cases h

omit [Field K] [LinearOrder K] [IsStrictOrderedRing K] in
theorem stored_of_observe (h : observe τ = some (.accept n payload)) : ∃ nodeId,
    wireNode nodeId = n ∧ τ.act = (.setCache nodeId payload, .stored (.ok true)) := by
  unfold observe at h
  split at h
  · split at h <;> cases h
  · split at h <;> cases h
  · next hact =>
    cases h
    exact ⟨_,rfl,hact⟩
  · cases h
  · split at h
    · split at h <;> cases h
    · cases h
  · cases h

end Transfer

section Promises
variable {K : Type*} [Field K] [LinearOrder K] [IsStrictOrderedRing K]
  {es es₁ es₂ es₃ : List (Step K)} {τ σ : Step K} {arena : MemoryArena (Vec K)}
  {query query' : Vec K} {prompt prompt' payload : List UInt8} {s t : UInt64} {m n : ℕ} {id : ℤ}

theorem answered_of_observed (hrun : EngineRun es arena)
    (h : Answered n query payload (observed es)) : ∃ es₁ ρ es₂ σ es₃,
      es = es₁ ++ ρ :: (es₂ ++ σ :: es₃) ∧
      (∃ prompt s, ρ.act = (.checkCache prompt (.ok query) s, .checked (.ok ⟨.miss,n,[]⟩))) ∧
      (∃ nodeId, wireNode nodeId = n ∧ σ.act = (.setCache nodeId payload, .stored (.ok true))) ∧
      ∀ υ ∈ es₂ ++ es₃, ¬ Refills n υ := by
  obtain ⟨before,β,since,hsplit,hβ,hsince,s,first,α,mid,rfl,hα,hmid⟩ := h
  obtain ⟨fs,σ,es₃,_,rfl,hfs,hσ,rfl,rfl⟩ := seenAs_split hsplit
  obtain ⟨es₁,ρ,es₂,_,rfl,-,hρ,rfl,rfl⟩ := seenAs_split hfs
  obtain rfl : _ = Event.accept n payload := hβ
  obtain rfl : _ = Event.reserve query s n := hα
  rw [List.append_assoc, List.cons_append] at hrun
  obtain ⟨-,hfire,-⟩ := Run.split_at hrun
  obtain ⟨prompt,hact⟩ := miss_of_observe hfire hρ
  refine ⟨es₁,ρ,es₂,σ,es₃,by simp,⟨prompt,s,hact⟩,stored_of_observe hσ,
    not_refills_of_observed ?_⟩
  rw [observed_eq, seenAs_append, List.forall_mem_append]
  exact ⟨hmid,hsince⟩

/-- Whatever a query is answered with was stored for a similar query: some call reserved
a slot for that query, a later one stored the answer there, and no other call has
reserved or filled the slot between the two or since. -/
theorem hit_justified (hrun : EngineRun es arena) (hb : ∀ τ ∈ es, Bounded τ)
    (hsplit : es = es₁ ++ τ :: es₂)
    (hhit : τ.act = (.checkCache prompt (.ok query) t, .checked (.ok ⟨.hit,id,payload⟩))) :
    ∃ n < l0MaxSlots, ∃ v, Similar query v ∧ ∃ fs₁ ρ fs₂ σ fs₃,
      es₁ = fs₁ ++ ρ :: (fs₂ ++ σ :: fs₃) ∧
      (∃ prompt s, ρ.act = (.checkCache prompt (.ok v) s, .checked (.ok ⟨.miss,n,[]⟩))) ∧
      (∃ nodeId, wireNode nodeId = n ∧ σ.act = (.setCache nodeId payload, .stored (.ok true))) ∧
      ∀ υ ∈ fs₂ ++ fs₃, ¬ Refills n υ := by
  subst hsplit
  have hcache := cacheRun_observed hrun hb
  have hobserve : observe τ = some (.hit query t payload) := by simp only [observe, hhit]
  rw [observed_eq, seenAs_append, seenAs_cons hobserve] at hcache
  obtain ⟨n,v,hn,hnear,hanswered⟩ := hcache.hit_answered rfl rfl
  obtain ⟨hbefore,-,-⟩ := Run.split_at hrun
  exact ⟨n,hn,v,similar_iff.mpr hnear,answered_of_observed hbefore hanswered⟩

theorem hit_justified_replay : ∃ (es : List (Step ℚ)) (τ : Step ℚ) (arena : MemoryArena (Vec ℚ)),
    EngineRun (es ++ [τ]) arena ∧ HitFrom τ 0 [7] ∧ ∃ n < l0MaxSlots, ∃ ρ ∈ es,
      ∃ (v : Vec ℚ) (prompt : List UInt8) (s : UInt64),
        ρ.act = (.checkCache prompt (.ok v) s, .checked (.ok ⟨.miss,n,[]⟩)) := by
  obtain ⟨es,arena,hrun,hb,hother,hnode,hvec,-,hread,-⟩ :=
    exists_published (axis 0 : Vec ℚ) 1 oneByte_wellFormed
  have hready : (arena.metadata 0).loadControl.state = .ready := by
    rw [hnode]
    decide
  have hsimilar : Similar (axis 0 : Vec ℚ) (arena.vectors 0) := by
    rw [hvec]
    exact (axis_normalized 0).similar
  obtain ⟨⟨before,act,after⟩,rfl,hfire,hbounded,hhit⟩ := exists_hit (t := 1) (by decide) hready
    hread hsimilar (by
      intro i _ hi hm
      rw [hother i hi] at hm
      exact absurd hm (by decide))
  have hhit' := hhit
  obtain ⟨prompt,query,t,⟨state,id,payload⟩,hact,hstate,hpayload,-⟩ := hhit'
  simp only at hact hstate hpayload
  subst hstate hpayload
  have hrun' := hrun.snoc hfire
  obtain ⟨n,hn,v,-,fs₁,ρ,fs₂,σ,fs₃,hes,⟨prompt',s,hρ⟩,-⟩ := hit_justified hrun' (by
    rw [List.forall_mem_append, List.forall_mem_singleton]
    exact ⟨hb,hbounded⟩) rfl hact
  exact ⟨es,_,after,hrun',hhit,n,hn,ρ,by simp [hes],v,prompt',s,hρ⟩

end Promises

end Strix
