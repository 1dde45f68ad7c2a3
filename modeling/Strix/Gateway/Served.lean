import Strix.Gateway.Answers

/-! # What the clients are told

The engine answers a prompt from a slot whose vector is close to it, and the slot is filled
with what was produced for another prompt close to the same vector. So in a whole run every
body that a client gets was produced for its own prompt or for one that is not far from it.
-/
namespace Strix
open AnswerCache RunHistory Scoring ThreadPool

section Closeness
variable {K : Type*} [Field K] [LinearOrder K] [IsStrictOrderedRing K] {query query' v : Vec K}

/-- Two unit vectors that are both similar to a third one are not far from each other. -/
theorem Similar.close (h : Similar query v) (h' : Similar query' v) (hquery : Normalized query)
    (hquery' : Normalized query') (hv : Normalized v) :
    2 * exactThreshold ^ 2 - 1 ≤ cosineSimilarity query query' := by
  rw [similar_iff, cosineSimilarity_eq_dotProduct] at h h'
  rw [Normalized, cosineSimilarity_eq_dotProduct] at hquery hquery' hv
  rw [cosineSimilarity_eq_dotProduct]
  -- the square of the distance of the sum from its part along the third vector
  have hsquare : 0 ≤ dotProduct (query + query' - (dotProduct query v + dotProduct query' v) • v)
      (query + query' - (dotProduct query v + dotProduct query' v) • v) :=
    Finset.sum_nonneg fun i _ => mul_self_nonneg _
  simp only [sub_dotProduct, dotProduct_sub, add_dotProduct, dotProduct_add, smul_dotProduct,
    dotProduct_smul, smul_eq_mul, hquery, hquery', hv, dotProduct_comm v query,
    dotProduct_comm v query', dotProduct_comm query' query] at hsquare
  have hsum : (2 * exactThreshold) ^ 2 ≤ (dotProduct query v + dotProduct query' v) ^ 2 :=
    pow_le_pow_left₀ (by linarith [exactThreshold_pos (K := K)]) (by linarith) 2
  linarith

end Closeness

variable {K : Type*} [Field K] [LinearOrder K] [IsStrictOrderedRing K]

section EngineSteps
variable {embed} {sha256 : List UInt8 → List UInt8} {es : List ProxyBeat} {d : Deployment K}
  {id : ThreadId} {arena' : MemoryArena (Vec K)} {n : ℕ}

omit [Field K] [LinearOrder K] [IsStrictOrderedRing K] in
theorem live_of_awaited {arena : MemoryArena (Vec K)} {v : Vec K} {since : UInt64}
    (h : cellsOf arena n = .awaited v since) : arena.stateOf n ≠ .dead ∧ arena.vectors n = v := by
  unfold cellsOf cellAs at h
  split at h
  · cases h
  · next hpending =>
    obtain ⟨rfl,-⟩ := Cell.awaited.inj h
    exact ⟨by rw [MemoryArena.stateOf, hpending]; decide,rfl⟩
  · cases h
  · cases h

theorem namedSlot_ofInt (hn : n < l0MaxSlots) : namedSlot (Int32.ofInt n) = n := by
  have hslots : n < 1000 := hn
  rw [namedSlot, Int32.toInt_ofInt_of_le (by omega) (by omega)]
  exact wireNode_natCast (hslots.trans (by decide))

theorem vouched_move {e : Event (Vec K) (List UInt8) UInt64}
    {cell cell' : Cell (Vec K) (List UInt8) UInt64} (h : CellMove (engineSetting K) n e cell cell')
    (hcell : Vouched embed es cell)
    (hreserve : ∀ query now, e = .reserve query now n → Normalized query)
    (haccept : ∀ query since payload, e = .accept n payload → cell = .awaited query since →
      ∃ prompt, AnsweredFor es prompt payload ∧ Resembles embed prompt query) :
    Vouched embed es cell' := by
  cases h with
  | kept => exact hcell
  | reserved => exact hreserve _ _ rfl
  | accepted => exact ⟨hcell,haccept _ _ _ rfl rfl⟩
  | released | lapsed => trivial

theorem suits_of_awaited {prompt : List UInt8} {query v : Vec K} {since : UInt64}
    {state : CacheState} (hstate : state = .miss ∨ state = .pending) (hn : n < l0MaxSlots)
    (hq : embed prompt = .ok query) (hcell : cellsOf arena' n = .awaited v since)
    (hnear : Similar query v) :
    (⟨state,n,[]⟩ : CheckCacheResponse).Suits embed es arena' prompt := by
  obtain ⟨hlive,hvector⟩ := live_of_awaited hcell
  have hslot : namedSlot (Int32.ofInt n) = n ∧ Occupies embed arena' prompt n :=
    ⟨namedSlot_ofInt hn,hlive,query,hq,by rwa [hvector]⟩
  rcases hstate with rfl | rfl <;> exact hslot

theorem suits_of_checkCache {arena : MemoryArena (Vec K)} {prompt : List UInt8}
    {embedding : Except String (Vec K)} {t : UInt64} {response : CheckCacheResponse}
    (hcells : ∀ n, Vouched embed es (cellsOf arena n)) (hembed : embedding = embed prompt)
    (hunit : ∀ query, embed prompt = .ok query → Normalized query)
    (hfire : Fires arena (.checkCache prompt embedding t, .checked (.ok response)) arena')
    (hcache : ∀ e, observe (⟨arena,(.checkCache prompt embedding t, .checked (.ok response)),
      arena'⟩ : Step K) = some e →
        CacheStep (engineSetting K) (cellsOf arena) e (cellsOf arena')) :
    response.Suits embed es arena' prompt := by
  subst hembed
  rcases checkCache_cases (fires_checkCache.mp hfire) with ⟨⟨status,hstatus⟩,-⟩ | ⟨query,hq,-,ho⟩
  · cases hstatus
  rw [hq] at hcache
  cases ho with
  | hit best above filled =>
    obtain ⟨hallowed,-⟩ := hcache _ rfl
    cases hallowed with
    | @hit _ v _ n _ best near cell =>
      have hvouched := hcells n
      rw [cell] at hvouched
      obtain ⟨hv,prompt',hanswered,hnear'⟩ := hvouched
      exact .shared hanswered hv ⟨query,hq,similar_iff.mpr near⟩ hnear'
  | pending _ _ reserved =>
    obtain ⟨hallowed,hafter⟩ := hcache _ rfl
    cases hallowed with
    | @pending _ v _ since _ best near cell =>
      have hkept := (congrFun hafter _).trans (Setting.sweep_of_serves best.serves)
      exact suits_of_awaited (.inr rfl) best.lt hq (hkept.trans cell) (similar_iff.mpr near)
  | miss below free =>
    obtain ⟨hallowed,hafter⟩ := hcache _ rfl
    cases hallowed with
    | reserve _ free =>
      have hnew := (congrFun hafter _).trans (Function.update_self _ _ _)
      exact suits_of_awaited (.inl rfl) free.lt hq hnew (hunit query hq).similar

theorem Occupies.moved {arena : MemoryArena (Vec K)} {prompt : List UInt8}
    (h : Occupies embed arena prompt n) (hkept : arena.stateOf n ≠ .dead →
      arena'.stateOf n ≠ .dead ∧ arena'.vectors n = arena.vectors n) :
    Occupies embed arena' prompt n := by
  obtain ⟨hlive,hvector⟩ := hkept h.1
  refine ⟨hlive,?_⟩
  rw [hvector]
  exact h.2

theorem Handler.Suits.moved {arena : MemoryArena (Vec K)} {h : Handler}
    (hsuits : h.Suits embed es arena id) (hkept : ∀ nodeId, h.ServesNode nodeId →
      arena.stateOf (namedSlot nodeId) ≠ .dead → arena'.stateOf (namedSlot nodeId) ≠ .dead ∧
        arena'.vectors (namedSlot nodeId) = arena.vectors (namedSlot nodeId)) :
    h.Suits embed es arena' id where
  phase := hsuits.phase
  node nodeId hnode :=
    (hsuits.node nodeId hnode).imp fun _ h => ⟨h.1,h.2.moved (hkept nodeId hnode)⟩
  herd apiReq nodeId hphase := by
    have hnode : h.ServesNode nodeId := .inl (by rw [hphase]; rfl)
    obtain ⟨prompt,-,hlive,-⟩ := hsuits.node nodeId hnode
    rw [(hkept nodeId hnode hlive).2]
    exact hsuits.herd apiReq nodeId hphase
  written := hsuits.written

theorem Suited.moved (hd : Suited embed sha256 es d)
    (hkept : ∀ n, InUse d n → d.arena.stateOf n ≠ .dead →
      arena'.stateOf n ≠ .dead ∧ arena'.vectors n = d.arena.vectors n)
    (hcells : ∀ n, Vouched embed es (cellsOf arena' n)) :
    Suited embed sha256 es ⟨arena',d.inflight,d.proxy⟩ := by
  refine ⟨hd.l0Cache,fun job hjob => ?_,hd.fulfilled,hcells,fun id response hin => ?_,fun id => ?_⟩
  · exact (hd.queue job hjob).imp fun _ h =>
      ⟨h.1,h.2.moved (hkept _ (.inr (.inr ⟨job,hjob,rfl⟩)))⟩
  · obtain ⟨prompt,hprompt,hsuits⟩ := hd.inflight id response hin
    refine ⟨prompt,hprompt,?_⟩
    have hused : response.checkState = .miss ∨ response.checkState = .pending →
        InUse d response.nodeId.toNat := fun hstate =>
      .inl ⟨id,_,hin,hstate,rfl⟩
    obtain ⟨state,nodeId,payload⟩ := response
    cases state with
    | hit | unspecified => exact hsuits
    | miss => exact ⟨hsuits.1,hsuits.2.moved (hkept _ (hused (.inl rfl)))⟩
    | pending => exact ⟨hsuits.1,hsuits.2.moved (hkept _ (hused (.inr rfl)))⟩
  · have hsuits := hd.threads id
    have hused : ∀ n, (d.proxy.threads id).WorksFor n → InUse d n := fun n h => .inr (.inl ⟨id,h⟩)
    simp only
    generalize d.proxy.threads id = c at hsuits hused
    match c with
    | .handler h =>
      exact Handler.Suits.moved hsuits fun nodeId hnode => hkept _ (hused _ ⟨nodeId,hnode,rfl⟩)
    | .worker (some job) =>
      exact hsuits.imp fun _ h => ⟨h.1,h.2.moved (hkept _ (hused _ rfl))⟩
    | .worker none | .fastcache => trivial

theorem Suited.replied (hd : Suited embed sha256 es d) {reply : Reply}
    (hreply : ∀ response, reply = .checked (.ok response) →
      ∃ prompt, HasPrompt es id prompt ∧ response.Suits embed es d.arena prompt) :
    Suited embed sha256 es ⟨d.arena,Function.update d.inflight id (some reply),d.proxy⟩ := by
  refine ⟨hd.l0Cache,hd.queue,hd.fulfilled,hd.cells,fun j response hin => ?_,hd.threads⟩
  simp only [Function.update_apply] at hin
  split at hin
  · next hj =>
    subst hj
    exact hreply response (Option.some.inj hin)
  · exact hd.inflight j response hin

theorem vouched_step {σ : Step K} (hcells : ∀ n, Vouched embed es (cellsOf σ.before n))
    (hstep : (observe σ = none ∧ cellsOf σ.after = cellsOf σ.before) ∨ ∃ e, observe σ = some e ∧
      CacheStep (engineSetting K) (cellsOf σ.before) e (cellsOf σ.after))
    (hreserve : ∀ query now n, observe σ = some (.reserve query now n) → Normalized query)
    (haccept : ∀ n payload, observe σ = some (.accept n payload) →
      AnswersSlot embed es σ.before n payload) :
    ∀ n, Vouched embed es (cellsOf σ.after n) := by
  rcases hstep with ⟨-,hsame⟩ | ⟨e,hobserve,hcache⟩
  · rw [hsame]
    exact hcells
  intro n
  refine vouched_move (hcache.move n) (hcells n) ?_ ?_
  · rintro query now rfl
    exact hreserve query now n hobserve
  · rintro query since payload rfl hcell
    obtain ⟨prompt,hanswered,-,hnear⟩ := haccept n payload hobserve
    rw [(live_of_awaited hcell).2] at hnear
    exact ⟨prompt,hanswered,hnear⟩

omit [Field K] [LinearOrder K] [IsStrictOrderedRing K] in
theorem handler_of_requests {c : ProxyThread} {prompt : List UInt8}
    {embedding : Except String (Vec K)} {t : UInt64}
    (h : Requests c (.checkCache prompt embedding t)) :
    ∃ call w apiReq, c = .handler ⟨call,w,.asking apiReq⟩ ∧ prompt = apiReq.prompt := by
  unfold Requests at h
  split at h
  · next hcall =>
    obtain ⟨rfl,-,-⟩ := Call.checkCache.inj hcall
    exact ⟨_,_,_,rfl,h⟩
  · next hcall => cases hcall
  · exact h.elim

omit [Field K] [LinearOrder K] [IsStrictOrderedRing K] in
theorem worker_of_requests {c : ProxyThread} {nodeId : ℤ} {payload : List UInt8}
    (h : Requests c (.setCache nodeId payload : Call K)) :
    ∃ job, c = .worker (some job) ∧ nodeId = job.nodeId.toInt ∧ payload = job.payload := by
  unfold Requests at h
  split at h
  · next hcall => cases hcall
  · next hcall =>
    obtain ⟨rfl,rfl⟩ := Call.setCache.inj hcall
    exact ⟨_,rfl,h⟩
  · exact h.elim

theorem Suited.engine (hd : Suited embed sha256 es d) {call : Call K} {reply : Reply}
    (request : Requests (d.proxy.threads id) call) (fire : Fires d.arena (call, reply) arena')
    (hembed : ∀ prompt embedding t, call = .checkCache prompt embedding t →
      embedding = embed prompt)
    (hunit : ∀ prompt query, embed prompt = .ok query → Normalized query)
    (hkept : ∀ n, InUse d n → d.arena.stateOf n ≠ .dead →
      arena'.stateOf n ≠ .dead ∧ arena'.vectors n = d.arena.vectors n)
    (hcache : (observe (⟨d.arena,(call, reply),arena'⟩ : Step K) = none ∧
        cellsOf arena' = cellsOf d.arena) ∨
      ∃ e, observe (⟨d.arena,(call, reply),arena'⟩ : Step K) = some e ∧
        CacheStep (engineSetting K) (cellsOf d.arena) e (cellsOf arena')) :
    Suited embed sha256 es ⟨arena',Function.update d.inflight id (some reply),d.proxy⟩ := by
  have hcells : ∀ n, Vouched embed es (cellsOf arena' n) := by
    refine vouched_step (σ := ⟨d.arena,(call, reply),arena'⟩) hd.cells hcache ?_ ?_
    · intro query now n hobserve
      obtain ⟨prompt,hact⟩ := miss_of_observe fire hobserve
      exact hunit prompt query (hembed _ _ _ (congrArg Prod.fst hact)).symm
    · intro n payload hobserve
      obtain ⟨nodeId,rfl,hact⟩ := stored_of_observe hobserve
      obtain ⟨rfl,-⟩ := Prod.mk.inj hact
      obtain ⟨job,hthread,rfl,rfl⟩ := worker_of_requests request
      have hsuits := hd.threads id
      rw [hthread] at hsuits
      exact hsuits
  have hmoved := hd.moved hkept hcells
  refine hmoved.replied fun response hreply => ?_
  subst hreply
  rcases fires_cases fire with ⟨prompt,embedding,t,result,hact,-⟩ | ⟨nodeId,payload,result,hact,-⟩ |
    ⟨hact,-⟩
  · obtain ⟨rfl,-⟩ := Prod.mk.inj hact
    obtain ⟨calling,w,apiReq,hthread,rfl⟩ := handler_of_requests request
    have hsuits := hd.threads id
    rw [hthread] at hsuits
    refine ⟨apiReq.prompt,hsuits.phase,?_⟩
    refine suits_of_checkCache hd.cells (hembed _ _ _ rfl) (hunit _) fire fun e he => ?_
    rcases hcache with ⟨hnone,-⟩ | ⟨e',he',hstep⟩
    · rw [he] at hnone
      cases hnone
    · rw [he] at he'
      exact Option.some.inj he' ▸ hstep
  · cases (Prod.mk.inj hact).2
  · cases (Prod.mk.inj hact).2

end EngineSteps

section Runs
variable {embed} {sha256 : List UInt8 → List UInt8} {es : List (DeploymentBeat K)}
  {d : Deployment K} {id : ThreadId} {h : Handler} {prompt payload : List UInt8}

omit [Field K] [LinearOrder K] [IsStrictOrderedRing K] in
theorem arenaSteps_append (es fs : List (DeploymentBeat K)) :
    arenaSteps (es ++ fs) = arenaSteps es ++ arenaSteps fs := List.filterMap_append

/-- In every run in which slots in use are spared, whatever is kept or under way suits the
prompts it is for. -/
theorem suited_of_run (hsha : Function.Injective sha256)
    (hunit : ∀ prompt query, embed prompt = .ok query → Normalized query)
    (hrun : DeploymentRun sha256 es d) (hembed : ∀ τ ∈ es, Embeds embed τ)
    (hspares : ∀ τ ∈ es, SparesUsed τ) (hb : ∀ σ ∈ arenaSteps es, Bounded σ) :
    Suited embed sha256 (proxyBeats es) d := by
  refine (hrun.historyInvariant_of_run
    (P := fun τ => Embeds embed τ ∧ SparesUsed τ ∧ ∀ σ ∈ arenaSteps [τ], Bounded σ)
    (I := fun es d => (∀ σ ∈ arenaSteps es, Bounded σ) ∧ Suited embed sha256 (proxyBeats es) d)
    ?_ (fun τ hτ => ⟨hembed τ hτ,hspares τ hτ,fun σ hσ => hb σ ?_⟩) ⟨by simp [arenaSteps],?_⟩).2
  · rintro es ⟨d,act,d'⟩ hbefore hstep ⟨hembed,hspares,hbound⟩ ⟨hb,hd⟩
    have hall : ∀ σ ∈ arenaSteps (es ++ [⟨d,act,d'⟩]), Bounded σ := by
      rw [arenaSteps_append, List.forall_mem_append]
      exact ⟨hb,hbound⟩
    refine ⟨hall,?_⟩
    have hengine := arena_run hbefore
    rw [arenaSteps_append] at hall
    rw [proxyBeats_append]
    simp only at hstep
    cases hstep with
    | @engine id call reply arena' request waiting fire =>
      rw [show proxyBeats [_] = [] from rfl, List.append_nil]
      refine hd.engine request fire (fun prompt embedding t hcall => ?_) hunit hspares ?_
      · exact hembed id prompt embedding t reply (by rw [hcall])
      · rcases observe_cases hengine hall fire with ⟨hnone,hsame,-⟩ | hstep
        · exact .inl ⟨hnone,hsame⟩
        · exact .inr hstep
    | @collect arena' fire =>
      rw [show proxyBeats [_] = [] from rfl, List.append_nil]
      refine hd.moved hspares (vouched_step (σ := ⟨d.arena,(.collect, .collected),arena'⟩)
        hd.cells ?_ ?_ ?_)
      · rcases observe_cases hengine hall fire with ⟨hnone,hsame,-⟩ | hstep
        · exact .inl ⟨hnone,hsame⟩
        · exact .inr hstep
      · intro query now n hobserve
        obtain ⟨prompt,hact⟩ := miss_of_observe fire hobserve
        cases hact
      · intro n payload hobserve
        obtain ⟨nodeId,-,hact⟩ := stored_of_observe hobserve
        cases hact
    | proxy delivers move => exact hd.proxy hsha (proxy_run hbefore) delivers move
  · obtain ⟨fs,gs,rfl⟩ := List.append_of_mem hτ
    rw [List.append_cons, arenaSteps_append, arenaSteps_append]
    exact List.mem_append_left _ (List.mem_append_right _ hσ)
  · refine ⟨by simp [startProxy],by simp [startProxy],fun _ _ h => absurd h not_happened_nil,
      fun n => ?_,by simp,fun id => ?_⟩
    · have hempty : cellsOf (freshArena K) n = .empty := cellAs_of_dead (freshArena_state n)
      simp only [hempty]
      trivial
    · cases id with
      | request i =>
        refine ⟨fun _ => not_happened_nil,?_,by simp,by simp⟩
        rintro nodeId (hnode | ⟨p,hp⟩)
        · cases hnode
        · exact hp.elim
      | worker | fastcache => trivial

/-- Every body that a client gets was produced by the LLM for the client's own prompt, or for
one whose embedding scores at least `2 * threshold ^ 2 - 1` against it; and what a slot is
filled with was produced for a prompt that is similar to the slot's vector. -/
theorem served_close (hsha : Function.Injective sha256)
    (hunit : ∀ prompt query, embed prompt = .ok query → Normalized query)
    (hrun : DeploymentRun sha256 es d) (hembed : ∀ τ ∈ es, Embeds embed τ)
    (hspares : ∀ τ ∈ es, SparesUsed τ) (hb : ∀ σ ∈ arenaSteps es, Bounded σ) :
    (∀ id h prompt payload, d.proxy.threads id = .handler h → .payload payload ∈ h.w →
      Happened (Prompts id prompt) (proxyBeats es) →
      AnsweredFor (proxyBeats es) prompt payload ∨ ∃ prompt' query query',
        AnsweredFor (proxyBeats es) prompt' payload ∧ embed prompt = .ok query ∧
          embed prompt' = .ok query' ∧
          2 * exactThreshold ^ 2 - 1 ≤ cosineSimilarity query query') ∧
    ∀ n v payload, cellsOf d.arena n = .answered v payload → ∃ prompt query,
      AnsweredFor (proxyBeats es) prompt payload ∧ embed prompt = .ok query ∧ Similar query v := by
  have hd := suited_of_run hsha hunit hrun hembed hspares hb
  constructor
  · intro id h prompt payload hthread hw hprompt
    have hsuits := hd.threads id
    rw [hthread] at hsuits
    obtain ⟨own,hown,hanswers⟩ := hsuits.written payload hw
    obtain rfl := hown.2 prompt hprompt
    cases hanswers with
    | own answered => exact .inl answered
    | shared answered unit near near' =>
      obtain ⟨query,hq,hsimilar⟩ := near
      obtain ⟨query',hq',hsimilar'⟩ := near'
      exact .inr ⟨_,query,query',answered,hq,hq',
        hsimilar.close hsimilar' (hunit _ _ hq) (hunit _ _ hq') unit⟩
  · intro n v payload hcell
    have hvouched := hd.cells n
    rw [hcell] at hvouched
    obtain ⟨-,prompt,hanswered,query,hq,hsimilar⟩ := hvouched
    exact ⟨prompt,query,hanswered,hq,hsimilar⟩

theorem spares_of_calm (hrun : DeploymentRun sha256 es d) (hcalm : ∀ τ ∈ es, Calm τ) :
    ∀ τ ∈ es, SparesUsed τ := by
  intro τ hτ n _ hlive
  obtain ⟨fs,gs,rfl⟩ := List.append_of_mem hτ
  obtain ⟨-,hstep,-⟩ := Run.split_at hrun
  have hc := hcalm τ hτ
  obtain ⟨u,act,v⟩ := τ
  simp only at hstep hlive
  cases hstep with
  | proxy => exact ⟨hlive,rfl⟩
  | collect fire =>
    refine ⟨hc n hlive,?_⟩
    rcases step_effect fire with ⟨-,hvectors,-⟩ | ⟨m,query,prompt,t,hact,-⟩
    · exact congrFun hvectors n
    · cases hact
  | @engine id call reply arena' request _ fire =>
    rcases fires_cases fire with ⟨prompt,embedding,t,result,hact,hcheck⟩ |
      ⟨nodeId,payload,result,hact,hset⟩ | ⟨hact,-⟩
    · obtain ⟨rfl,rfl⟩ := Prod.mk.inj hact
      refine ⟨fun hdead => hlive ((check_calm hcheck hc).1 n hdead),?_⟩
      rcases step_effect fire with ⟨-,hvectors,-⟩ | ⟨m,query,prompt',t',hact',-,hclaim⟩
      · exact congrFun hvectors n
      · obtain ⟨-,-,rfl⟩ := Call.checkCache.inj (Prod.mk.inj hact').1
        have hne : n ≠ m := by
          rintro rfl
          rcases MetaNode.reusable_eq_true.mp hclaim.reusable with hdead | hdue
          · exact hlive hdead
          · rw [hc n] at hdue
            cases hdue
        exact (congrFun hclaim.vectors n).trans (Function.update_of_ne hne _ _)
    · obtain ⟨rfl,rfl⟩ := Prod.mk.inj hact
      refine ⟨fun hdead => hlive (set_calm hset n hdead),?_⟩
      rcases step_effect fire with ⟨-,hvectors,-⟩ | ⟨m,query,prompt,t,hact',-⟩
      · exact congrFun hvectors n
      · cases hact'
    · obtain ⟨rfl,rfl⟩ := Prod.mk.inj hact
      simp [Requests] at request

end Runs

section Replay
variable {es : List (DeploymentBeat ℚ)} {d : Deployment ℚ}

structure Tame {K : Type*} (embed : List UInt8 → Except String (Vec K))
    (es : List (DeploymentBeat K)) : Prop where
  embeds : ∀ τ ∈ es, Embeds embed τ
  calm : ∀ τ ∈ es, Calm τ
  bounded : ∀ σ ∈ arenaSteps es, Bounded σ

section Tame
variable {K : Type*} {embed : List UInt8 → Except String (Vec K)}
  {es fs : List (DeploymentBeat K)} {d d' : Deployment K} {id : ThreadId}

theorem Tame.append (h : Tame embed es) (h' : Tame embed fs) : Tame embed (es ++ fs) where
  embeds := List.forall_mem_append.mpr ⟨h.embeds,h'.embeds⟩
  calm := List.forall_mem_append.mpr ⟨h.calm,h'.calm⟩
  bounded := by
    rw [arenaSteps_append]
    exact List.forall_mem_append.mpr ⟨h.bounded,h'.bounded⟩

theorem tame_of_acts {acts : List (DeploymentAction K)} (hacts : es.map (fun τ => τ.act) = acts)
    (h : ∀ a ∈ acts, ∃ id act, a = .proxy id act ∧
      ∀ newRequest res, act = .llm newRequest res → (forwardToLLM newRequest res).2 = none) :
    Tame embed es := by
  refine ⟨fun τ hτ => ?_,calm_of_acts hacts h,?_⟩
  · rintro i prompt embedding t reply hact
    obtain ⟨j,act,heq,-⟩ := h _ (Transition.act_mem hacts hτ)
    rw [hact] at heq
    cases heq
  · have hnil : arenaSteps es = [] := by
      rw [arenaSteps, List.filterMap_eq_nil_iff]
      intro τ hτ
      obtain ⟨j,act,heq,-⟩ := h _ (Transition.act_mem hacts hτ)
      rw [arenaAct, heq]
      rfl
    rw [hnil]
    simp

theorem tame_proxy {act : ProxyAction}
    (h : ∀ newRequest res, act = .llm newRequest res → (forwardToLLM newRequest res).2 = none) :
    Tame embed [⟨d,.proxy id act,d'⟩] :=
  tame_of_acts rfl (by simpa using h)

theorem tame_engine {call : Call K} {reply : Reply}
    (hembed : ∀ prompt embedding t, call = .checkCache prompt embedding t →
      embedding = embed prompt ∧ ∀ i, (d.arena.metadata i).expired t = false)
    (hb : Bounded (⟨d.arena,(call, reply),d'.arena⟩ : Step K)) :
    Tame embed [⟨d,.engine id call reply,d'⟩] := by
  refine ⟨?_,?_,?_⟩
  · rintro τ hτ i prompt embedding t r hact
    obtain rfl := List.mem_singleton.mp hτ
    obtain ⟨-,rfl,-⟩ := DeploymentAction.engine.inj hact
    exact (hembed prompt embedding t rfl).1
  · intro τ hτ
    obtain rfl := List.mem_singleton.mp hτ
    cases call with
    | checkCache prompt embedding t => exact (hembed prompt embedding t rfl).2
    | setCache | collect => trivial
  · intro σ hσ
    obtain rfl := List.mem_singleton.mp hσ
    exact hb

end Tame

theorem exists_hitCalls : ∃ claimed stored after : MemoryArena (Vec ℚ),
    Fires (freshArena ℚ) (.checkCache [1] (.ok (axis 0)) 1, .checked (.ok ⟨.miss,0,[]⟩)) claimed ∧
      Fires claimed (.setCache 0 [7], .stored (.ok true)) stored ∧
      Fires stored (.checkCache [2] (.ok (axis 0)) 1, .checked (.ok ⟨.hit,-1,[7]⟩)) after ∧
      (∀ i, (stored.metadata i).expired 1 = false) ∧
      ∀ call reply, Bounded (⟨freshArena ℚ,(call, reply),claimed⟩ : Step ℚ) ∧
        Bounded (⟨claimed,(call, reply),stored⟩ : Step ℚ) ∧
        Bounded (⟨stored,(call, reply),after⟩ : Step ℚ) := by
  have hw := oneByte_wellFormed
  obtain ⟨claimed,stored,hclaim,hset,hhead,htail,hother,hnode,hvec,hring⟩ :=
    exists_publishedRun (axis 0 : Vec ℚ) 1 hw
  have hready : (stored.metadata 0).loadControl.state = .ready := by
    rw [hnode]
    decide
  have hclaimBounded : ∀ act, Bounded (⟨freshArena ℚ,act,claimed⟩ : Step ℚ) := fun _ =>
    bounded_of_head_eq (by rw [hhead]; rfl)
  have hsetBounded : ∀ act, Bounded (⟨claimed,act,stored⟩ : Step ℚ) := fun _ =>
    bounded_of_ring hring (by rw [hring.tail, htail]; rfl)
  have hrun : EngineRun _ stored := ((Run.nil (freshArena ℚ)).snoc hclaim).snoc hset
  obtain ⟨log,hintact⟩ := EngineRun.intact hrun (by
    simp only [List.nil_append, List.cons_append, List.forall_mem_cons, List.not_mem_nil,
      false_imp_iff, implies_true, and_true]
    exact ⟨hclaimBounded _,hsetBounded _⟩)
  have hread := Option.some.inj (hintact.readPayload hready)
  have hsimilar : Similar (axis 0) (stored.vectors 0) := by
    rw [hvec]
    exact (axis_normalized 0).similar
  have ho := hitOutcome (t := 1) (by decide) hready hsimilar (by
    intro i _ hi hm
    rw [hother i hi] at hm
    exact absurd hm (by decide))
  rw [← hread] at ho
  refine ⟨claimed,stored,_,hclaim,hset,fires_checkCache.mpr (ho.checkCache_eq (by simp)),
    fun i => ?_,fun call reply => ⟨hclaimBounded _,hsetBounded _,bounded_of_head_eq rfl⟩⟩
  by_cases hi : i = 0
  · rw [hi, hnode]
    decide
  · rw [hother i hi]
    decide

theorem exists_pioneerServed {claimed : MemoryArena (Vec ℚ)}
    (hclaim : Fires (freshArena ℚ) (.checkCache [1] (.ok (axis 0)) 1,
      .checked (.ok ⟨.miss,0,[]⟩)) claimed)
    (hb : ∀ act, Bounded (⟨freshArena ℚ,act,claimed⟩ : Step ℚ)) :
    ∃ (es : List (DeploymentBeat ℚ)) (d : Deployment ℚ),
      DeploymentRun (Equiv.swap [1] digestOfOne) es d ∧ Tame (fun _ => .ok (axis 0)) es ∧
      d.arena = claimed ∧ (∀ id, d.inflight id = none) ∧ d.proxy.shared.queue = [⟨0,[7]⟩] ∧
      d.proxy.shared.l0Cache (Equiv.swap [1] digestOfOne [2]) = none ∧
      ∀ id, id ≠ .request 0 → d.proxy.threads id = startProxy.threads id := by
  have hstart : DeploymentRun (Equiv.swap [1] digestOfOne) []
    (⟨freshArena ℚ,fun _ => none,startProxy⟩ : Deployment ℚ) := .nil _
  obtain ⟨gs₁,d₁,hrun₁,hacts₁,harena₁,hinflight₁,hshared₁,hthreads₁⟩ :=
    exists_asking hstart 0 rfl rfl
  have hasking : d₁.proxy.threads (.request 0) = .handler ⟨.idle,[],.asking ⟨[1],[2]⟩⟩ := by
    rw [hthreads₁, Function.update_self]
  obtain ⟨d₂,hrun₂,harena₂,hinflight₂,hproxy₂⟩ := exists_engineStep (.request 0)
    (.checkCache [1] (.ok (axis 0)) 1) hrun₁ (by rw [hasking]; rfl) (by rw [hinflight₁])
    (by rw [harena₁]; exact hclaim)
  have hanswer : ProxyStep (Equiv.swap [1] digestOfOne) d₂.proxy.shared
      (.handler ⟨.idle,[],.asking ⟨[1],[2]⟩⟩) (.answer (.ok ⟨.miss,0,[]⟩)) d₂.proxy.shared
      (.handler ⟨.idle,[],.registering ⟨[1],[2]⟩ 0⟩) := .handler .answer
  obtain ⟨d₃,hrun₃,harena₃,hinflight₃,hshared₃,hthreads₃⟩ := exists_proxyStep hrun₂
    (by rw [hproxy₂, hasking]) hanswer (by
      change d₂.inflight (.request 0) = _
      rw [hinflight₂]
      exact Function.update_self _ _ _)
  have hshared : d₃.proxy.shared = startProxy.shared := by
    rw [hshared₃, hproxy₂, hshared₁]
  have hregister : ProxyStep (Equiv.swap [1] digestOfOne) d₃.proxy.shared
      (.handler ⟨.idle,[],.registering ⟨[1],[2]⟩ 0⟩) (.registry (.register 0))
      ⟨((freshRegistry ServiceError).pioneerRegister 0).2,fun _ => none,[]⟩
      (.handler ⟨.pioneer 0 0,[],.forwarding ⟨[1],[2]⟩ (.pioneer 0)⟩) := by
    rw [hshared]
    exact .handler (.registry .pioneerRegister .register)
  obtain ⟨d₄,hrun₄,harena₄,hinflight₄,hshared₄,hthreads₄⟩ := exists_proxyStep hrun₃
    (by rw [hthreads₃, Function.update_self]) hregister trivial
  obtain ⟨gs₅,d₅,hrun₅,-,hacts₅,harena₅,hinflight₅,hl0,hqueue,-,-,hthreads₅⟩ :=
    exists_withdrawn hrun₄ (by rw [hthreads₄, Function.update_self]) hshared₄
  refine ⟨_,d₅,hrun₅,?_,?_,?_,hqueue,?_,?_⟩
  · rw [List.nil_append]
    refine ((((tame_of_acts hacts₁ (by simp)).append (tame_engine ?_ ?_)).append
      (tame_proxy (by simp))).append (tame_proxy (by simp))).append
        (tame_of_acts hacts₅ (by simp [forwardToLLM]))
    · rintro prompt embedding t hcall
      obtain ⟨-,rfl,rfl⟩ := Call.checkCache.inj hcall
      rw [harena₁]
      exact ⟨rfl,fun i => MetaNode.not_expired_of_dead (freshArena_state i)⟩
    · rw [harena₁, harena₂]
      exact hb _
  · rw [harena₅, harena₄, harena₃, harena₂]
  · intro id
    have hkept : d₄.inflight = d₃.inflight := hinflight₄
    rw [hinflight₅, hkept, hinflight₃, afterDelivery, hinflight₂, hinflight₁, Function.update_idem]
    exact congrFun (Function.update_eq_self _ _) id
  · rw [hl0]
    decide
  · intro id hid
    rw [hthreads₅ id hid, hthreads₄, Function.update_of_ne hid, hthreads₃,
      Function.update_of_ne hid, hproxy₂, hthreads₁, Function.update_of_ne hid]

theorem happened_prompts {es : List (DeploymentBeat ℚ)} {τ : DeploymentBeat ℚ} {id : ThreadId}
    {request : HttpRequest} {apiReq : CheckCacheAPIRequest} (hτ : τ ∈ es)
    (hact : τ.act = .proxy id (.serve request)) (hbody : request.body = .ok apiReq) :
    Happened (Prompts id apiReq.prompt) (proxyBeats es) := by
  refine ⟨⟨τ.before.proxy,(id, .serve request),τ.after.proxy⟩,?_,request,apiReq,rfl,hbody,rfl⟩
  exact List.mem_filterMap.mpr ⟨τ,hτ,by rw [proxyAct, hact]; rfl⟩

theorem exists_servedByEngine : ∃ (es : List (DeploymentBeat ℚ)) (d : Deployment ℚ),
    DeploymentRun (Equiv.swap [1] digestOfOne) es d ∧ Tame (fun _ => .ok (axis 0)) es ∧
      d.proxy.threads (.request 1) = .handler ⟨.idle,[.payload [7]],.finishing⟩ ∧
      Happened (Prompts (.request 1) [2]) (proxyBeats es) := by
  obtain ⟨claimed,stored,after,hclaim,hset,hhit,hfresh,hbounded⟩ := exists_hitCalls
  obtain ⟨es,d₁,hrun₁,htame₁,harena₁,hinflight₁,hqueue₁,hl0₁,hthreads₁⟩ :=
    exists_pioneerServed hclaim fun act => (hbounded act.1 act.2).1
  obtain ⟨k⟩ : Nonempty (Fin numWorkers) := ⟨⟨0,by decide⟩⟩
  have hworker : d₁.proxy.threads (.worker k) = .worker none := hthreads₁ _ (by simp)
  have hdequeue : ProxyStep (Equiv.swap [1] digestOfOne) d₁.proxy.shared (.worker none) .proceed
      { d₁.proxy.shared with queue := [] } (.worker (some ⟨0,[7]⟩)) := .dequeue hqueue₁
  obtain ⟨d₂,hrun₂,harena₂,hinflight₂,hshared₂,hthreads₂⟩ :=
    exists_proxyStep hrun₁ hworker hdequeue trivial
  have hkept : d₂.inflight = d₁.inflight := hinflight₂
  obtain ⟨d₃,hrun₃,harena₃,hinflight₃,hproxy₃⟩ := exists_engineStep (.worker k) (.setCache 0 [7])
    hrun₂ (by rw [hthreads₂, Function.update_self]; exact ⟨rfl,rfl⟩)
    (by rw [hkept, hinflight₁]) (by rw [harena₂, harena₁]; exact hset)
  have hidle : d₃.proxy.threads (.request 1) = .handler ⟨.idle,[],.accepting⟩ := by
    rw [hproxy₃, hthreads₂, Function.update_of_ne (by simp), hthreads₁ _ (by decide)]
    rfl
  obtain ⟨gs₄,d₄,hrun₄,hacts₄,harena₄,hinflight₄,hshared₄,hthreads₄⟩ :=
    exists_proxyAlone hrun₃ hidle (solo_ask (Equiv.swap [1] digestOfOne) ⟨[2],[2]⟩
      (by rw [hproxy₃, hshared₂, hl0₁]) (by decide)) (by simp)
  have hasking : d₄.proxy.threads (.request 1) = .handler ⟨.idle,[],.asking ⟨[2],[2]⟩⟩ := by
    rw [hthreads₄, Function.update_self]
  obtain ⟨d₅,hrun₅,harena₅,hinflight₅,hproxy₅⟩ := exists_engineStep (.request 1)
    (.checkCache [2] (.ok (axis 0)) 1) hrun₄ (by rw [hasking]; rfl)
    (by rw [hinflight₄, hinflight₃, Function.update_of_ne (by simp), hkept, hinflight₁])
    (by rw [harena₄, harena₃]; exact hhit)
  have hdispatch : ProxyStep (Equiv.swap [1] digestOfOne) d₅.proxy.shared
      (.handler ⟨.idle,[],.asking ⟨[2],[2]⟩⟩) (.answer (.ok ⟨.hit,-1,[7]⟩)) d₅.proxy.shared
      (.handler ⟨.idle,[],.writing ⟨[2],[2]⟩ .hit [7]⟩) := .handler .answer
  obtain ⟨d₆,hrun₆,-,-,-,hthreads₆⟩ := exists_proxyStep hrun₅ (by rw [hproxy₅, hasking]) hdispatch
    (by
      change d₅.inflight (.request 1) = _
      rw [hinflight₅]
      exact Function.update_self _ _ _)
  have hwrite : ProxyStep (Equiv.swap [1] digestOfOne) d₆.proxy.shared
      (.handler ⟨.idle,[],.writing ⟨[2],[2]⟩ .hit [7]⟩) .proceed d₆.proxy.shared
      (.handler ⟨.idle,[.payload [7]],.finishing⟩) := .handler .writePayload
  obtain ⟨d₇,hrun₇,-,-,-,hthreads₇⟩ := exists_proxyStep hrun₆
    (by rw [hthreads₆, Function.update_self]) hwrite trivial
  refine ⟨_,d₇,hrun₇,?_,by rw [hthreads₇, Function.update_self],?_⟩
  · refine (((((htame₁.append (tame_proxy (by simp))).append (tame_engine (by simp) ?_)).append
      (tame_of_acts hacts₄ (by simp))).append (tame_engine ?_ ?_)).append
      (tame_proxy (by simp))).append (tame_proxy (by simp))
    · rw [harena₃, harena₂, harena₁]
      exact (hbounded _ _).2.1
    · rintro prompt embedding t hcall
      obtain ⟨-,rfl,rfl⟩ := Call.checkCache.inj hcall
      rw [harena₄, harena₃]
      exact ⟨rfl,hfresh⟩
    · rw [harena₅, harena₄, harena₃]
      exact (hbounded _ _).2.2
  · obtain ⟨τ,hτ,hact⟩ : ∃ τ ∈ gs₄, τ.act =
        .proxy (.request 1) (.serve ⟨"POST",.ok ⟨[2],[2]⟩⟩) :=
      List.mem_map.mp (by rw [hacts₄]; exact List.mem_cons_self)
    have hserve := happened_prompts hτ hact rfl
    simp only [proxyBeats_append, List.append_assoc]
    exact (((hserve.mono _).of_suffix (List.suffix_append _ _)).of_suffix
      (List.suffix_append _ _)).of_suffix (List.suffix_append _ _)

/-- An answer that the engine gives to a prompt for which the LLM was never called. -/
theorem served_close_replay : ∃ (es : List (DeploymentBeat ℚ)) (d : Deployment ℚ),
    DeploymentRun (Equiv.swap [1] digestOfOne) es d ∧
      d.proxy.threads (.request 1) = .handler ⟨.idle,[.payload [7]],.finishing⟩ ∧
      (AnsweredFor (proxyBeats es) [2] [7] ∨ ∃ prompt' query query',
        AnsweredFor (proxyBeats es) prompt' [7] ∧
          .ok (axis 0) = (.ok query : Except String (Vec ℚ)) ∧
          .ok (axis 0) = (.ok query' : Except String (Vec ℚ)) ∧
          2 * exactThreshold ^ 2 - 1 ≤ cosineSimilarity query query') := by
  obtain ⟨es,d,hrun,htame,hthread,hprompt⟩ := exists_servedByEngine
  refine ⟨es,d,hrun,hthread,?_⟩
  refine (served_close (Equiv.injective _) ?_ hrun htame.embeds (spares_of_calm hrun htame.calm)
    htame.bounded).1 _ _ _ _ hthread (by simp) hprompt
  rintro prompt query hq
  obtain rfl := Except.ok.inj hq
  exact axis_normalized 0

end Replay

end Strix
