import Strix.Gateway.Reply
import Strix.Gateway.SingleCall
import Strix.Semantic.Refinement

/-! # What is kept for a prompt was produced for one like it

An answer of the LLM reaches other clients through promises, the write queue, the slots
of the engine and the L0 cache. As long as no slot is given up while somebody still works
for it, each of these holds answers for the prompts it is asked with, and no step of the
gateway mixes them up.
-/
namespace Strix
open AnswerCache RunHistory Scoring ThreadPool

section Model
variable {K : Type*}

def namedSlot (nodeId : Int32) : ℕ := wireNode nodeId.toInt

def Branch.node : Branch → Option Int32
  | .pioneer nodeId | .noPromise nodeId | .pioneerFailed nodeId => some nodeId
  | _ => none

def BodySource.node : BodySource → Option Int32
  | .llm branch => branch.node
  | _ => none

def HandlerPhase.node : HandlerPhase → Option Int32
  | .registering _ nodeId | .awaiting _ nodeId | .enqueueing _ nodeId _ => some nodeId
  | .forwarding _ branch => branch.node
  | .writing _ source _ | .caching _ source _ => source.node
  | _ => none

def Handler.ServesNode (nodeId : Int32) (h : Handler) : Prop :=
  h.phase.node = some nodeId ∨ ∃ p, h.call.InFlight nodeId p

/-- The reply hands out slot `n`. -/
def HandsOut (n : ℕ) : Reply → Prop
  | .checked (.ok response) =>
    (response.checkState = .miss ∨ response.checkState = .pending) ∧ response.nodeId.toNat = n
  | _ => False

def ProxyThread.WorksFor (n : ℕ) : ProxyThread → Prop
  | .handler h => ∃ nodeId, h.ServesNode nodeId ∧ namedSlot nodeId = n
  | .worker (some job) => namedSlot job.nodeId = n
  | _ => False

/-- A reply, a thread or a queued job is under way for slot `n`. -/
def InUse (d : Deployment K) (n : ℕ) : Prop :=
  (∃ id reply, d.inflight id = some reply ∧ HandsOut n reply) ∨
    (∃ id, (d.proxy.threads id).WorksFor n) ∨ ∃ job ∈ d.proxy.shared.queue, namedSlot job.nodeId = n

/-- A slot that is in use is neither given up nor given to another vector. -/
def SparesUsed (τ : DeploymentBeat K) : Prop :=
  ∀ n, InUse τ.before n → τ.before.arena.stateOf n ≠ .dead →
    τ.after.arena.stateOf n ≠ .dead ∧ τ.after.arena.vectors n = τ.before.arena.vectors n

/-- The engine embeds every prompt in the same way. -/
def Embeds (embed : List UInt8 → Except String (Vec K)) (τ : DeploymentBeat K) : Prop :=
  ∀ id prompt embedding t reply, τ.act = .engine id (.checkCache prompt embedding t) reply →
    embedding = embed prompt

def arenaAct (τ : DeploymentBeat K) : Option (Call K × Reply) :=
  match τ.act with
  | .engine _ call reply => some (call, reply)
  | .collect => some (.collect, .collected)
  | .proxy _ _ => none

def arenaSteps (es : List (DeploymentBeat K)) : List (Step K) :=
  es.filterMap fun τ => (arenaAct τ).map fun act => ⟨τ.before.arena,act,τ.after.arena⟩

theorem arena_run [Scoring K] {sha256 : List UInt8 → List UInt8} {es : List (DeploymentBeat K)}
    {d : Deployment K} (hrun : DeploymentRun sha256 es d) : EngineRun (arenaSteps es) d.arena := by
  refine hrun.filterMap Deployment.arena arenaAct ?_ ?_
  · rintro ⟨u,act,v⟩ hstep hnone
    simp only at hstep
    cases hstep with
    | engine | collect => cases hnone
    | proxy => rfl
  · rintro ⟨u,act,v⟩ b hstep hsome
    simp only at hstep
    cases hstep with
    | engine _ _ fire | collect fire =>
      obtain rfl := Option.some.inj hsome
      exact fire
    | proxy => cases hsome

end Model

section Claims
variable {K : Type*} [Field K] [LinearOrder K] [IsStrictOrderedRing K]

def HasPrompt (es : List ProxyBeat) (id : ThreadId) (prompt : List UInt8) : Prop :=
  Happened (Prompts id prompt) es ∧ ∀ prompt', Happened (Prompts id prompt') es → prompt' = prompt

/-- An LLM call for a request with this prompt has returned `payload`. -/
def AnsweredFor (es : List ProxyBeat) (prompt payload : List UInt8) : Prop :=
  ∃ id, Happened (Prompts id prompt) es ∧ Happened (LLMReturned id payload) es

variable (embed : List UInt8 → Except String (Vec K))

def Resembles (prompt : List UInt8) (v : Vec K) : Prop :=
  ∃ query, embed prompt = .ok query ∧ Similar query v

/-- The payload was produced for the prompt, or for one that resembles the same vector. -/
inductive Answers (es : List ProxyBeat) (prompt payload : List UInt8) : Prop
  | own (answered : AnsweredFor es prompt payload)
  | shared {prompt' : List UInt8} {v : Vec K} (answered : AnsweredFor es prompt' payload)
    (unit : Normalized v) (near : Resembles embed prompt v) (near' : Resembles embed prompt' v)

/-- Slot `n` is taken by a vector that the prompt resembles. -/
def Occupies (arena : MemoryArena (Vec K)) (prompt : List UInt8) (n : ℕ) : Prop :=
  arena.stateOf n ≠ .dead ∧ Resembles embed prompt (arena.vectors n)

def AnswersSlot (es : List ProxyBeat) (arena : MemoryArena (Vec K)) (n : ℕ)
    (payload : List UInt8) : Prop :=
  ∃ prompt, AnsweredFor es prompt payload ∧ Occupies embed arena prompt n

/-- What a slot stands for is a unit vector, and its answer fits it. -/
def Vouched (es : List ProxyBeat) : Cell (Vec K) (List UInt8) UInt64 → Prop
  | .empty => True
  | .awaited v _ => Normalized v
  | .answered v payload =>
    Normalized v ∧ ∃ prompt, AnsweredFor es prompt payload ∧ Resembles embed prompt v

def CheckCacheResponse.Suits (es : List ProxyBeat) (arena : MemoryArena (Vec K))
    (prompt : List UInt8) (response : CheckCacheResponse) : Prop :=
  match response.checkState with
  | .hit => Answers embed es prompt response.cachedPayload
  | .miss | .pending => namedSlot (Int32.ofInt response.nodeId) = response.nodeId.toNat ∧
    Occupies embed arena prompt response.nodeId.toNat
  | .unspecified => True

def BodySource.Suits (es : List ProxyBeat) (id : ThreadId) (prompt payload : List UInt8) :
    BodySource → Prop
  | .llm _ => Happened (LLMReturned id payload) es
  | _ => Answers embed es prompt payload

/-- What a handler has in hand, by where it stands. -/
def HandlerPhase.Suits (es : List ProxyBeat) (id : ThreadId) : HandlerPhase → Prop
  | .accepting => ∀ prompt, ¬ Happened (Prompts id prompt) es
  | .readingL0 apiReq | .asking apiReq | .registering apiReq _ | .awaiting apiReq _
  | .forwarding apiReq _ => HasPrompt es id apiReq.prompt
  | .writing apiReq source payload | .caching apiReq source payload =>
    HasPrompt es id apiReq.prompt ∧ source.Suits embed es id apiReq.prompt payload
  | .enqueueing _ _ payload => Happened (LLMReturned id payload) es
  | .deferred payload err => err = none → Happened (LLMReturned id payload) es
  | .finishing => True

def Caller.Suits (es : List ProxyBeat) (v : Vec K) : Caller ServiceError → Prop
  | .waiting nodeId p | .reading nodeId p => ∃ j prompt,
    Happened (Registers j nodeId p) (registryBeats es) ∧ Happened (Prompts j prompt) es ∧
      Resembles embed prompt v
  | .returned _ result => result.found = true → result.selfCancelled = false →
    result.pioneerErr = none → ∃ prompt, AnsweredFor es prompt result.payload ∧
      Resembles embed prompt v
  | _ => True

structure Handler.Suits (es : List ProxyBeat) (arena : MemoryArena (Vec K)) (id : ThreadId)
    (h : Handler) : Prop where
  phase : h.phase.Suits embed es id
  node : ∀ nodeId, h.ServesNode nodeId →
    ∃ prompt, HasPrompt es id prompt ∧ Occupies embed arena prompt (namedSlot nodeId)
  herd : ∀ apiReq nodeId, h.phase = .awaiting apiReq nodeId →
    h.call.Suits embed es (arena.vectors (namedSlot nodeId))
  written : ∀ payload, .payload payload ∈ h.w →
    ∃ prompt, HasPrompt es id prompt ∧ Answers embed es prompt payload

def ProxyThread.Suits (es : List ProxyBeat) (arena : MemoryArena (Vec K)) (id : ThreadId) :
    ProxyThread → Prop
  | .handler h => h.Suits embed es arena id
  | .worker (some job) => AnswersSlot embed es arena (namedSlot job.nodeId) job.payload
  | _ => True

/-- Everything that is kept or under way, against the history. -/
structure Suited (sha256 : List UInt8 → List UInt8) (es : List ProxyBeat) (d : Deployment K) :
    Prop where
  l0Cache : ∀ prompt payload, d.proxy.shared.l0Cache (sha256 prompt) = some payload →
    Answers embed es prompt payload
  queue : ∀ job ∈ d.proxy.shared.queue,
    AnswersSlot embed es d.arena (namedSlot job.nodeId) job.payload
  fulfilled : ∀ id payload, Happened (FulfillsWith payload none id) es →
    Happened (LLMReturned id payload) es
  cells : ∀ n, Vouched embed es (cellsOf d.arena n)
  inflight : ∀ id response, d.inflight id = some (.checked (.ok response)) →
    ∃ prompt, HasPrompt es id prompt ∧ response.Suits embed es d.arena prompt
  threads : ∀ id, (d.proxy.threads id).Suits embed es d.arena id

section Histories
variable {embed} {es : List ProxyBeat} {τ : ProxyBeat} {id : ThreadId}
  {prompt prompt' payload : List UInt8} {arena arena' : MemoryArena (Vec K)} {n : ℕ} {v : Vec K}

theorem HasPrompt.eq (h : HasPrompt es id prompt) (h' : HasPrompt es id prompt') :
    prompt = prompt' := h'.2 prompt h.1

theorem HasPrompt.snoc (h : HasPrompt es id prompt) (hτ : ∀ prompt, ¬ Prompts id prompt τ) :
    HasPrompt (es ++ [τ]) id prompt := by
  refine ⟨h.1.mono _,fun prompt' hprompt => ?_⟩
  rcases happened_snoc.mp hprompt with hes | hact
  · exact h.2 prompt' hes
  · exact absurd hact (hτ prompt')

theorem AnsweredFor.mono (h : AnsweredFor es prompt payload) (fs : List ProxyBeat) :
    AnsweredFor (es ++ fs) prompt payload :=
  h.imp fun _ h => ⟨h.1.mono fs,h.2.mono fs⟩

theorem Answers.mono (h : Answers embed es prompt payload) (fs : List ProxyBeat) :
    Answers embed (es ++ fs) prompt payload := by
  cases h with
  | own answered => exact .own (answered.mono fs)
  | shared answered unit near near' => exact .shared (answered.mono fs) unit near near'

theorem AnswersSlot.mono (h : AnswersSlot embed es arena n payload) (fs : List ProxyBeat) :
    AnswersSlot embed (es ++ fs) arena n payload :=
  h.imp fun _ h => ⟨h.1.mono fs,h.2⟩

theorem Vouched.mono {cell : Cell (Vec K) (List UInt8) UInt64} (h : Vouched embed es cell)
    (fs : List ProxyBeat) : Vouched embed (es ++ fs) cell := by
  cases cell with
  | empty => trivial
  | awaited => exact h
  | answered => exact ⟨h.1,h.2.imp fun _ h => ⟨h.1.mono fs,h.2⟩⟩

theorem CheckCacheResponse.Suits.mono {response : CheckCacheResponse}
    (h : response.Suits embed es arena prompt) (fs : List ProxyBeat) :
    response.Suits embed (es ++ fs) arena prompt := by
  obtain ⟨state,nodeId,payload⟩ := response
  cases state with
  | hit => exact Answers.mono h fs
  | miss | pending | unspecified => exact h

theorem BodySource.Suits.mono {source : BodySource} (h : source.Suits embed es id prompt payload)
    (fs : List ProxyBeat) : source.Suits embed (es ++ fs) id prompt payload := by
  cases source with
  | llm => exact Happened.mono h fs
  | l0 | hit | herd => exact Answers.mono h fs

theorem Caller.Suits.mono {call : Caller ServiceError} (h : call.Suits embed es v)
    (fs : List ProxyBeat) : call.Suits embed (es ++ fs) v := by
  cases call with
  | waiting | reading =>
    obtain ⟨j,prompt,hreg,hprompt,hnear⟩ := h
    refine ⟨j,prompt,?_,hprompt.mono fs,hnear⟩
    rw [registryBeats_append]
    exact hreg.mono _
  | returned nodeId result =>
    exact fun hfound hself herr => (h hfound hself herr).imp fun _ h => ⟨h.1.mono fs,h.2⟩
  | idle | pioneer | fulfilling | fulfilled => trivial

theorem HandlerPhase.Suits.snoc {phase : HandlerPhase} (h : phase.Suits embed es id)
    (hτ : ∀ prompt, ¬ Prompts id prompt τ) : phase.Suits embed (es ++ [τ]) id := by
  cases phase with
  | accepting =>
    intro prompt hprompt
    rcases happened_snoc.mp hprompt with hes | hact
    · exact h prompt hes
    · exact hτ prompt hact
  | readingL0 | asking | registering | awaiting | forwarding => exact HasPrompt.snoc h hτ
  | writing | caching => exact ⟨h.1.snoc hτ,h.2.mono _⟩
  | enqueueing => exact Happened.mono h _
  | deferred => exact fun herr => (h herr).mono _
  | finishing => trivial

theorem Handler.Suits.snoc {x : Handler} (h : x.Suits embed es arena id)
    (hτ : ∀ prompt, ¬ Prompts id prompt τ) : x.Suits embed (es ++ [τ]) arena id where
  phase := h.phase.snoc hτ
  node nodeId hnode := (h.node nodeId hnode).imp fun _ h => ⟨h.1.snoc hτ,h.2⟩
  herd apiReq nodeId hphase := (h.herd apiReq nodeId hphase).mono _
  written payload hw := (h.written payload hw).imp fun _ h => ⟨h.1.snoc hτ,h.2.mono _⟩

theorem ProxyThread.Suits.snoc {c : ProxyThread} (h : c.Suits embed es arena id)
    (hτ : ∀ prompt, ¬ Prompts id prompt τ) : c.Suits embed (es ++ [τ]) arena id := by
  match c with
  | .handler x => exact Handler.Suits.snoc h hτ
  | .worker (some job) => exact AnswersSlot.mono h _
  | .worker none | .fastcache => trivial

end Histories

section Handlers
variable {embed} {sha256 : List UInt8 → List UInt8} {es : List ProxyBeat} {g g' : Proxy}
  {x y : Handler} {act : ProxyAction} {id : ThreadId} {arena : MemoryArena (Vec K)}
  {prompt payload : List UInt8}

theorem afterCache_node (payload : List UInt8) (source : BodySource) :
    afterCache payload source = .finishing ∨ ∃ branch nodeId,
      source = .llm branch ∧ branch.node = some nodeId ∧
      afterCache payload source = .enqueueing branch nodeId payload := by
  rcases source with _ | _ | branch | _
  · exact .inl rfl
  · exact .inl rfl
  · cases branch with
    | pioneer | noPromise | pioneerFailed => exact .inr ⟨_,_,rfl,rfl,rfl⟩
    | longPrompt | readError | noSlot | unexpectedState => exact .inl rfl
  · exact .inl rfl

theorem BodySource.Suits.answers {source : BodySource}
    (h : source.Suits embed es id prompt payload) (hprompt : HasPrompt es id prompt) :
    Answers embed es prompt payload := by
  cases source with
  | llm => exact .own ⟨id,hprompt.1,h⟩
  | l0 | hit | herd => exact h

theorem serve_suits {call : Caller ServiceError} {w : List HttpReply} {request : HttpRequest}
    {τ : ProxyBeat} (hτ : τ.act = (id, .serve request))
    (hx : (⟨call,w,.accepting⟩ : Handler).Suits embed es arena id)
    (hregular : (⟨call,w,.accepting⟩ : Handler).Regular) :
    (⟨call,w ++ (serve request).1,(serve request).2⟩ : Handler).Suits
      embed (es ++ [τ]) arena id := by
  obtain rfl : call = .idle := hregular.fits
  obtain rfl : w = [] := hregular.wrote
  have hnew : ∀ prompt, Happened (Prompts id prompt) es → False := hx.phase
  rcases serve_cases request with ⟨text,status,heq⟩ | ⟨apiReq,hbody,heq⟩
  · simp only [heq]
    refine ⟨trivial,fun nodeId hnode => ?_,by simp,by simp⟩
    rcases hnode with hnode | ⟨p,hp⟩
    · cases hnode
    · exact hp.elim
  · simp only [heq]
    refine ⟨⟨happened_last es ⟨request,apiReq,hτ,hbody,rfl⟩,fun prompt' hprompt => ?_⟩,
      fun nodeId hnode => ?_,by simp,by simp⟩
    · rcases happened_snoc.mp hprompt with hes | ⟨request',apiReq',hact,hbody',rfl⟩
      · exact (hnew prompt' hes).elim
      · rw [hτ, Prod.mk.injEq, ProxyAction.serve.injEq] at hact
        obtain ⟨-,rfl⟩ := hact
        rw [hbody, Except.ok.injEq] at hbody'
        rw [hbody']
    · rcases hnode with hnode | ⟨p,hp⟩
      · cases hnode
      · exact hp.elim

theorem RegistryCall.servesNode {phase phase' : HandlerPhase} {a : CallerAction ServiceError}
    {r r' : Registry ServiceError} {call call' : Caller ServiceError} {w : List HttpReply}
    {nodeId : Int32} (hphase : RegistryCall phase a phase') (h : CallerStep r call a r' call')
    (hnode : (⟨call',w,phase'⟩ : Handler).ServesNode nodeId) :
    (⟨call,w,phase⟩ : Handler).ServesNode nodeId := by
  rcases hnode with hnode | ⟨p,hp⟩
  · cases hphase with
    | pioneerRegister | herdAwait | herdProceed | herdCancel => exact .inl hnode
    | pioneerFulfill | fulfillProceed => cases hnode
  · rcases h.inFlight_of hp with hp | ⟨rfl,-⟩
    · exact .inr ⟨p,hp⟩
    · cases hphase with
      | pioneerRegister => exact .inl rfl

theorem RegistryCall.herd {phase : HandlerPhase} {a : CallerAction ServiceError}
    {r r' : Registry ServiceError} {call call' : Caller ServiceError}
    {apiReq : CheckCacheAPIRequest} {nodeId : Int32}
    (hphase : RegistryCall phase a (.awaiting apiReq nodeId)) (h : CallerStep r call a r' call')
    (hx : phase = .awaiting apiReq nodeId → call.Suits embed es (arena.vectors (namedSlot nodeId)))
    (hfind : ∀ nodeId p, a = .await nodeId → r.lookUp nodeId = some p → ∃ j prompt,
      Happened (Registers j nodeId p) (registryBeats es) ∧ Happened (Prompts j prompt) es ∧
        Resembles embed prompt (arena.vectors (namedSlot nodeId)))
    (hread : ∀ m p j, call = .reading m p → (r.promises p).err = none →
      Happened (Registers j m p) (registryBeats es) →
      Happened (LLMReturned j (r.promises p).payload) es) :
    call'.Suits embed es (arena.vectors (namedSlot nodeId)) := by
  cases hphase with
  | herdAwait =>
    obtain ⟨rfl,rfl,rfl⟩ := h.await_eq
    cases hlook : r'.lookUp nodeId with
    | none =>
      intro hfound
      cases hfound
    | some p => exact hfind nodeId p rfl hlook
  | herdCancel =>
    cases h with
    | cancel =>
      intro _ hself
      cases hself
  | herdProceed =>
    cases h with
    | @fulfilling _ stage => cases stage <;> trivial
    | wake => exact hx rfl
    | @read m p =>
      intro _ _ herr
      obtain ⟨j,prompt,hreg,hprompt,hnear⟩ := hx rfl
      exact ⟨prompt,⟨j,hprompt,hread m p j rfl herr hreg⟩,hnear⟩

theorem Handler.ServesNode.of_node {call : Caller ServiceError} {w w' : List HttpReply}
    {phase phase' : HandlerPhase} {nodeId : Int32}
    (hphase : phase'.node = none ∨ phase'.node = phase.node)
    (h : (⟨call,w',phase'⟩ : Handler).ServesNode nodeId) :
    (⟨call,w,phase⟩ : Handler).ServesNode nodeId := by
  rcases h with hn | hp
  · rcases hphase with hnone | hsame
    · rw [hnone] at hn
      cases hn
    · exact .inl (hsame ▸ hn)
  · exact .inr hp

theorem Handler.Suits.go_on {call : Caller ServiceError} {w : List HttpReply}
    {phase phase' : HandlerPhase} (hx : (⟨call,w,phase⟩ : Handler).Suits embed es arena id)
    (hphase : phase'.Suits embed es id)
    (hnode : phase'.node = none ∨ phase'.node = phase.node)
    (hherd : ∀ apiReq nodeId, phase' ≠ .awaiting apiReq nodeId) :
    (⟨call,w,phase'⟩ : Handler).Suits embed es arena id where
  phase := hphase
  node m hm := hx.node m (hm.of_node hnode)
  herd apiReq nodeId heq := absurd heq (hherd apiReq nodeId)
  written := hx.written

theorem dispatch_suits {w : List HttpReply} {apiReq : CheckCacheAPIRequest}
    {result : Except String CheckCacheResponse}
    (hx : (⟨.idle,w,.asking apiReq⟩ : Handler).Suits embed es arena id)
    (hanswer : ∀ response, result = .ok response →
      ∃ prompt, HasPrompt es id prompt ∧ response.Suits embed es arena prompt) :
    (⟨.idle,w,dispatch apiReq result⟩ : Handler).Suits embed es arena id := by
  have hprompt : HasPrompt es id apiReq.prompt := hx.phase
  have hslot : ∀ {nodeId : ℤ} {phase : HandlerPhase}, phase.node = some (Int32.ofInt nodeId) →
      (∃ prompt, HasPrompt es id prompt ∧ namedSlot (Int32.ofInt nodeId) = nodeId.toNat ∧
        Occupies embed arena prompt nodeId.toNat) →
      ∀ m, (⟨.idle,w,phase⟩ : Handler).ServesNode m →
        ∃ prompt, HasPrompt es id prompt ∧ Occupies embed arena prompt (namedSlot m) := by
    rintro nodeId phase hphase ⟨prompt,hprompt,hslot,hoccupies⟩ m (hm | ⟨p,hp⟩)
    · obtain rfl := Option.some.inj (hphase.symm.trans hm)
      rw [hslot]
      exact ⟨prompt,hprompt,hoccupies⟩
    · exact hp.elim
  rcases dispatch_cases apiReq result with ⟨branch,heq,hbranch⟩ | ⟨nodeId,payload,rfl,heq⟩ |
    ⟨nodeId,payload,rfl,heq⟩ | ⟨nodeId,payload,rfl,heq⟩
  · rw [heq]
    refine hx.go_on hprompt (.inl ?_) (by simp)
    rcases hbranch with rfl | rfl | rfl <;> rfl
  · obtain ⟨prompt,hprompt',hsuits⟩ := hanswer _ rfl
    obtain rfl := hprompt'.eq hprompt
    rw [heq]
    exact hx.go_on ⟨hprompt,hsuits⟩ (.inl rfl) (by simp)
  · rw [heq]
    exact ⟨hprompt,hslot rfl (hanswer _ rfl),by simp,hx.written⟩
  · rw [heq]
    exact ⟨hprompt,hslot rfl (hanswer _ rfl),fun _ _ _ => trivial,hx.written⟩

theorem herdReturned_suits {w : List HttpReply} {apiReq : CheckCacheAPIRequest}
    {nodeId n : Int32} {result : HerdResult ServiceError}
    (hx : (⟨.returned n result,w,.awaiting apiReq nodeId⟩ : Handler).Suits embed es arena id)
    (hunit : ∀ n, arena.stateOf n ≠ .dead → Normalized (arena.vectors n)) :
    (⟨.returned n result,w,herdReturned apiReq nodeId result⟩ : Handler).Suits
      embed es arena id := by
  have hprompt : HasPrompt es id apiReq.prompt := hx.phase
  have hforward : ∀ branch : Branch, branch.node = some nodeId →
      (⟨.returned n result,w,.forwarding apiReq branch⟩ : Handler).Suits embed es arena id :=
    fun branch hbranch => hx.go_on hprompt (.inr hbranch) (by simp)
  rcases herdReturned_cases apiReq nodeId result with ⟨-,heq⟩ | ⟨-,-,heq⟩ |
    ⟨hself,hfound,⟨-,heq⟩ | ⟨herr,heq⟩⟩
  · rw [heq]
    exact hx.go_on trivial (.inl rfl) (by simp)
  · rw [heq]
    exact hforward _ rfl
  · rw [heq]
    exact hforward _ rfl
  · obtain ⟨prompt,hprompt',hlive,hnear⟩ := hx.node nodeId (.inl rfl)
    obtain rfl := hprompt'.eq hprompt
    obtain ⟨prompt',hanswered,hnear'⟩ := hx.herd apiReq nodeId rfl hfound hself herr
    rw [heq]
    exact hx.go_on ⟨hprompt,.shared hanswered (hunit _ hlive) hnear hnear'⟩ (.inl rfl) (by simp)

theorem Handler.Suits.leave {call : Caller ServiceError} {w : List HttpReply}
    {phase : HandlerPhase} {payload : List UInt8} {err : Option ServiceError}
    (hx : (⟨call,w,phase⟩ : Handler).Suits embed es arena id) (branch : Branch)
    (hpayload : err = none → Happened (LLMReturned id payload) es) :
    (⟨call,w,branch.leave payload err⟩ : Handler).Suits embed es arena id := by
  rcases branch.leave_cases payload err with hleave | hleave
  · rw [hleave]
    exact hx.go_on trivial (.inl rfl) (by simp)
  · rw [hleave]
    exact hx.go_on hpayload (.inl rfl) (by simp)

theorem llmReturned_suits {call : Caller ServiceError} {w : List HttpReply}
    {apiReq : CheckCacheAPIRequest} {branch : Branch} {newRequest : Except String Unit}
    {res : Except String LLMResponse}
    (hx : (⟨call,w,.forwarding apiReq branch⟩ : Handler).Suits embed es arena id)
    (hllm : ∀ payload, forwardToLLM newRequest res = (payload, none) →
      Happened (LLMReturned id payload) es) :
    (⟨call,w ++ (llmReturned apiReq branch (forwardToLLM newRequest res)).1,
      (llmReturned apiReq branch (forwardToLLM newRequest res)).2⟩ : Handler).Suits
        embed es arena id := by
  have hprompt : HasPrompt es id apiReq.prompt := hx.phase
  rcases llmReturned_cases apiReq branch (forwardToLLM newRequest res) with
    ⟨herr,heq⟩ | ⟨err,text,status,-,heq⟩
  · simp only [heq, List.append_nil]
    exact hx.go_on ⟨hprompt,hllm _ (Prod.ext rfl herr)⟩ (.inr rfl) (by simp)
  · simp only [heq]
    obtain ⟨hphase,hnode,hherd,hwritten⟩ := hx.leave branch
      (show some err = none → Happened (LLMReturned id (forwardToLLM newRequest res).1) es by simp)
    exact ⟨hphase,hnode,hherd,fun payload hmem => hwritten payload (by simpa using hmem)⟩

theorem afterWrite_suits {call : Caller ServiceError} {w : List HttpReply}
    {apiReq : CheckCacheAPIRequest} {source : BodySource}
    (hx : (⟨call,w,.writing apiReq source payload⟩ : Handler).Suits embed es arena id) :
    (⟨call,w ++ [.payload payload],afterWrite apiReq payload source⟩ : Handler).Suits
      embed es arena id := by
  obtain ⟨⟨hprompt,hsource⟩,hnode,hherd,hwritten⟩ := hx
  refine ⟨?_,fun m hm => hnode m (hm.of_node ?_),?_,?_⟩
  · cases source with
    | l0 | hit => trivial
    | llm | herd => exact ⟨hprompt,hsource⟩
  · cases source with
    | l0 | hit => exact .inl rfl
    | llm | herd => exact .inr rfl
  · cases source <;> simp [afterWrite]
  · intro bytes hmem
    rcases List.mem_append.mp hmem with hmem | hmem
    · exact hwritten bytes hmem
    · obtain rfl : bytes = payload := by simpa using hmem
      exact ⟨apiReq.prompt,hprompt,hsource.answers hprompt⟩

theorem HandlerStep.suits (h : HandlerStep sha256 g x act g' y)
    (hserve : ∀ request, act ≠ .serve request) (hx : x.Suits embed es arena id)
    (hregular : x.Regular) (hunit : ∀ n, arena.stateOf n ≠ .dead → Normalized (arena.vectors n))
    (hl0 : ∀ prompt payload, g.l0Cache (sha256 prompt) = some payload →
      Answers embed es prompt payload)
    (hanswer : ∀ response, act = .answer (.ok response) →
      ∃ prompt, HasPrompt es id prompt ∧ response.Suits embed es arena prompt)
    (hllm : ∀ newRequest res payload, act = .llm newRequest res →
      forwardToLLM newRequest res = (payload, none) → Happened (LLMReturned id payload) es)
    (hfind : ∀ nodeId p, act = .registry (.await nodeId) → g.registry.lookUp nodeId = some p →
      ∃ j prompt, Happened (Registers j nodeId p) (registryBeats es) ∧
        Happened (Prompts j prompt) es ∧ Resembles embed prompt (arena.vectors (namedSlot nodeId)))
    (hread : ∀ m p j, x.call = .reading m p → (g.registry.promises p).err = none →
      Happened (Registers j m p) (registryBeats es) →
      Happened (LLMReturned j (g.registry.promises p).payload) es) :
    y.Suits embed es arena id := by
  cases h with
  | @serve _ _ request => exact absurd rfl (hserve request)
  | @queryL0 call w apiReq =>
    have hprompt : HasPrompt es id apiReq.prompt := hx.phase
    rcases queryL0_cases sha256 g.l0Cache apiReq with ⟨payload,hfound,heq⟩ | heq | heq
    · rw [heq]
      exact hx.go_on ⟨hprompt,hl0 _ _ hfound⟩ (.inl rfl) (by simp)
    · rw [heq]
      exact hx.go_on hprompt (.inl rfl) (by simp)
    · rw [heq]
      exact hx.go_on hprompt (.inl rfl) (by simp)
  | @answer call w apiReq result =>
    obtain rfl : call = .idle := hregular.fits
    exact dispatch_suits hx fun response hresponse => hanswer response (by rw [hresponse])
  | @registry call call' w phase phase' a r' hcall h =>
    obtain ⟨hphase,hnode,hherd,hwritten⟩ := hx
    refine ⟨?_,fun nodeId hnew => hnode nodeId (hcall.servesNode h hnew),?_,hwritten⟩
    · cases hcall with
      | pioneerRegister | herdAwait | herdProceed | herdCancel => exact hphase
      | pioneerFulfill | fulfillProceed => trivial
    · rintro apiReq nodeId rfl
      exact hcall.herd h (hherd apiReq nodeId) (fun nodeId p ha => hfind nodeId p (by rw [ha]))
        hread
  | herdReturned => exact herdReturned_suits hx hunit
  | llm => exact llmReturned_suits hx fun payload => hllm _ _ payload rfl
  | writePayload => exact afterWrite_suits hx
  | @trySetL0 call w apiReq source payload =>
    obtain ⟨hprompt,hsource⟩ : HasPrompt es id apiReq.prompt ∧
      source.Suits embed es id apiReq.prompt payload := hx.phase
    rcases afterCache_node payload source with heq | ⟨branch,nodeId,rfl,hbranch,heq⟩
    · rw [heq]
      exact hx.go_on trivial (.inl rfl) (by simp)
    · rw [heq]
      exact hx.go_on hsource (.inr hbranch.symm) (by simp)
  | @tryEnqueue call w branch nodeId payload => exact hx.leave branch fun _ => hx.phase

end Handlers

section GatewaySteps
variable {embed} {sha256 : List UInt8 → List UInt8} {es : List ProxyBeat} {d d' : Deployment K}
  {id : ThreadId} {act : ProxyAction}

theorem Vouched.unit {arena : MemoryArena (Vec K)} {n : ℕ}
    (h : Vouched embed es (cellsOf arena n)) (hlive : arena.stateOf n ≠ .dead) :
    Normalized (arena.vectors n) := by
  unfold MemoryArena.stateOf at hlive
  unfold cellsOf cellAs at h
  split at h
  · next hdead => exact absurd hdead hlive
  · exact h
  · exact h.1
  · exact h.1

/-- Whoever is found under a node ID had a prompt that resembles the node's vector. -/
theorem Suited.found (hd : Suited embed sha256 es d) (hrun : ProxyRun sha256 es d.proxy)
    {nodeId : Int32} {p : ℕ} (h : d.proxy.shared.registry.lookUp nodeId = some p) :
    ∃ j prompt, Happened (Registers j nodeId p) (registryBeats es) ∧
      Happened (Prompts j prompt) es ∧
        Resembles embed prompt (d.arena.vectors (namedSlot nodeId)) := by
  have hregistry := registry_run hrun
  obtain ⟨j,hj⟩ := inFlight_of_lookUp hregistry h
  have hreg := ((registry_invariant hregistry).2 j).registered hj
  have hj' : (callOf (d.proxy.threads j)).InFlight nodeId p := hj
  have hsuits := hd.threads j
  cases hthread : d.proxy.threads j with
  | handler x =>
    rw [hthread] at hj' hsuits
    obtain ⟨prompt,hprompt,-,hnear⟩ := hsuits.node nodeId (.inr ⟨p,hj'⟩)
    exact ⟨j,prompt,hreg,hprompt.1,hnear⟩
  | worker | fastcache =>
    rw [hthread] at hj'
    exact hj'.elim

/-- What a promise was fulfilled with was answered to the pioneer who registered it. -/
theorem Suited.promised (hd : Suited embed sha256 es d) (hrun : ProxyRun sha256 es d.proxy)
    {m : Int32} {p : ℕ} {j : ThreadId} (hcall : callOf (d.proxy.threads id) = .reading m p)
    (herr : (d.proxy.shared.registry.promises p).err = none)
    (hreg : Happened (Registers j m p) (registryBeats es)) :
    Happened (LLMReturned j (d.proxy.shared.registry.promises p).payload) es := by
  obtain ⟨hconsistent,hsound⟩ := registry_invariant (registry_run hrun)
  have hreading := hsound id
  have hcall' : (callers d.proxy).threads id = .reading m p := hcall
  rw [hcall'] at hreading
  obtain ⟨k,n,hpub⟩ := hconsistent.ready p hreading.2.2
  obtain ⟨rfl,rfl⟩ := hconsistent.owner _ _ _ _ _ hpub.registered hreg
  have hnone : ((callers d.proxy).shared.promises p).err = none := herr
  have hfulfilled := hpub.fulfilled
  rw [hnone] at hfulfilled
  exact hd.fulfilled k _ (happened_registryAct (hfulfilled.imp fun _ hσ => ⟨hσ.1,hσ.2.1⟩))

theorem Suited.handler (hd : Suited embed sha256 es d) (hrun : ProxyRun sha256 es d.proxy)
    {x y : Handler} {proxy' : ProxyPool} (hx : d.proxy.threads id = .handler x)
    (hstep : HandlerStep sha256 d.proxy.shared x act proxy'.shared y)
    (delivers : Delivers d.inflight id act) :
    y.Suits embed (es ++ [⟨d.proxy,(id, act),proxy'⟩]) d.arena id := by
  have hsuits := hd.threads id
  rw [hx] at hsuits
  have hregular := (handler_invariant hrun hx).1
  by_cases hserve : ∃ request, act = .serve request
  · obtain ⟨request,rfl⟩ := hserve
    generalize proxy'.shared = g' at hstep
    generalize hg : d.proxy.shared = g at hstep
    cases hstep with
    | serve => exact serve_suits rfl hsuits hregular
  · rw [not_exists] at hserve
    have hquiet : ∀ prompt, ¬ Prompts id prompt (⟨d.proxy,(id, act),proxy'⟩ : ProxyBeat) := by
      rintro prompt ⟨request,apiReq,hact,-⟩
      exact hserve request (congrArg Prod.snd hact)
    refine hstep.suits hserve (Handler.Suits.snoc hsuits hquiet) hregular
      (fun n => (hd.cells n).unit) (fun prompt payload h => (hd.l0Cache prompt payload h).mono _)
      ?_ ?_ ?_ ?_
    · rintro response rfl
      obtain ⟨prompt,hprompt,hresponse⟩ := hd.inflight id response delivers
      exact ⟨prompt,hprompt.snoc hquiet,hresponse.mono _⟩
    · rintro newRequest res payload rfl hllm
      exact happened_last es ⟨newRequest,res,rfl,hllm⟩
    · intro nodeId p _ hlook
      obtain ⟨j,prompt,hreg,hprompt,hnear⟩ := hd.found hrun hlook
      refine ⟨j,prompt,?_,hprompt.mono _,hnear⟩
      rw [registryBeats_append]
      exact hreg.mono _
    · intro m p j hcall herr hreg
      have hcall' : callOf (d.proxy.threads id) = .reading m p := by
        rw [hx]
        exact hcall
      obtain ⟨σ,hσ,hσreg⟩ := hreg
      rw [registryBeats_append] at hσ
      rcases List.mem_append.mp hσ with hσ | hσ
      · exact (hd.promised hrun hcall' herr ⟨σ,hσ,hσreg⟩).mono _
      -- a thread that registers is not reading
      · obtain ⟨τ,hτ,hact⟩ := happened_registryAct ⟨σ,hσ,hσreg.1⟩
        obtain rfl := List.mem_singleton.mp hτ
        obtain ⟨rfl,rfl⟩ := Prod.mk.inj hact
        obtain ⟨call,w,apiReq,heq⟩ := (ProxyStep.handler hstep).register_eq
        obtain rfl := ProxyThread.handler.inj heq
        obtain rfl : call = .idle := hregular.fits
        cases hcall

theorem ProxyStep.serve_eq {g g' : Proxy} {c c' : ProxyThread} {request : HttpRequest}
    (h : ProxyStep sha256 g c (.serve request) g' c') :
    ∃ call w, c = .handler ⟨call,w,.accepting⟩ := by
  cases h with
  | handler hstep =>
    cases hstep
    exact ⟨_,_,rfl⟩

theorem inflight_of_afterDelivery {inflight : ThreadId → Option Reply} {j : ThreadId}
    {reply : Reply} (h : afterDelivery inflight id act j = some reply) :
    inflight j = some reply := by
  cases act with
  | answer | stored =>
    rw [afterDelivery, Function.update_apply] at h
    split at h
    · cases h
    · exact h
  | serve | llm | registry | drop | proceed => exact h

theorem Suited.own (hd : Suited embed sha256 es d) (hrun : ProxyRun sha256 es d.proxy)
    {proxy' : ProxyPool} (delivers : Delivers d.inflight id act)
    (h : ProxyStep sha256 d.proxy.shared (d.proxy.threads id) act proxy'.shared
      (proxy'.threads id)) :
    (proxy'.threads id).Suits embed (es ++ [⟨d.proxy,(id, act),proxy'⟩]) d.arena id := by
  rcases h.handler_cases with ⟨x,y,hx,hy,hstep⟩ | ⟨hx,-,-⟩
  · rw [hy]
    exact hd.handler hrun hx hstep delivers
  · generalize hc : d.proxy.threads id = c at h hx
    generalize proxy'.threads id = c' at h ⊢
    generalize proxy'.shared = g' at h
    generalize hg : d.proxy.shared = g at h
    cases h with
    | handler => exact absurd rfl (hx _)
    | @dequeue job rest hqueue =>
      exact AnswersSlot.mono (hd.queue job (by rw [hg, hqueue]; exact List.mem_cons_self)) _
    | setCache | drop => trivial

theorem Suited.cached (hsha : Function.Injective sha256) (hd : Suited embed sha256 es d)
    {g' : Proxy} {c' : ProxyThread}
    (hstep : ProxyStep sha256 d.proxy.shared (d.proxy.threads id) act g' c')
    {prompt payload : List UInt8} (hfound : g'.l0Cache (sha256 prompt) = some payload) :
    Answers embed es prompt payload := by
  rcases hstep.l0Cache_cases with heq | ⟨key,heq⟩ | ⟨call,w,apiReq,source,bytes,hc,heq⟩
  · rw [heq] at hfound
    exact hd.l0Cache prompt payload hfound
  · rw [heq, Function.update_apply] at hfound
    split at hfound
    · cases hfound
    · exact hd.l0Cache prompt payload hfound
  · rw [heq, Function.update_apply] at hfound
    split at hfound
    · next hkey =>
      obtain rfl := hsha hkey
      obtain rfl := Option.some.inj hfound
      have hsuits := hd.threads id
      rw [hc] at hsuits
      obtain ⟨hprompt,hsource⟩ : HasPrompt es id apiReq.prompt ∧
        source.Suits embed es id apiReq.prompt bytes := hsuits.phase
      exact hsource.answers hprompt
    · exact hd.l0Cache prompt payload hfound

theorem Suited.queued (hd : Suited embed sha256 es d) {g' : Proxy} {c' : ProxyThread}
    (hstep : ProxyStep sha256 d.proxy.shared (d.proxy.threads id) act g' c') {job : Job}
    (hjob : job ∈ g'.queue) :
    AnswersSlot embed es d.arena (namedSlot job.nodeId) job.payload := by
  rcases hstep.queue_cases with heq | ⟨first,heq⟩ | ⟨call,w,branch,nodeId,bytes,hc,heq⟩
  · exact hd.queue job (heq ▸ hjob)
  · exact hd.queue job (by rw [heq]; exact List.mem_cons_of_mem _ hjob)
  · rw [heq] at hjob
    rcases List.mem_append.mp hjob with hjob | hjob
    · exact hd.queue job hjob
    · obtain rfl := List.mem_singleton.mp hjob
      have hsuits := hd.threads id
      rw [hc] at hsuits
      have hllm : Happened (LLMReturned id bytes) es := hsuits.phase
      obtain ⟨prompt,hprompt,hoccupies⟩ := hsuits.node nodeId (.inl rfl)
      exact ⟨prompt,⟨id,hprompt.1,hllm⟩,hoccupies⟩

theorem Suited.proxy (hsha : Function.Injective sha256) (hd : Suited embed sha256 es d)
    (hrun : ProxyRun sha256 es d.proxy) {proxy' : ProxyPool}
    (delivers : Delivers d.inflight id act)
    (move : Moves (ProxyStep sha256) d.proxy (id, act) proxy') :
    Suited embed sha256 (es ++ [⟨d.proxy,(id, act),proxy'⟩])
      ⟨d.arena,afterDelivery d.inflight id act,proxy'⟩ := by
  have hown := move.own
  simp only at hown
  have hothers : ∀ j, j ≠ id → ∀ prompt,
      ¬ Prompts j prompt (⟨d.proxy,(id, act),proxy'⟩ : ProxyBeat) := by
    rintro j hj prompt ⟨request,apiReq,hact,-⟩
    exact hj (congrArg Prod.fst hact).symm
  refine ⟨?_,?_,?_,fun n => (hd.cells n).mono _,?_,?_⟩
  · intro prompt payload hfound
    exact (hd.cached hsha hown hfound).mono _
  · intro job hjob
    exact (hd.queued hown hjob).mono _
  · intro j payload hful
    rcases happened_snoc.mp hful with hful | hact
    · exact (hd.fulfilled j payload hful).mono _
    · obtain ⟨rfl,rfl⟩ := Prod.mk.inj hact
      obtain ⟨call,w,hc⟩ := hown.fulfill_eq
      have hsuits := hd.threads id
      rw [hc] at hsuits
      exact Happened.mono (hsuits.phase rfl) _
  · intro j response hin
    obtain ⟨prompt,hprompt,hresponse⟩ := hd.inflight j response (inflight_of_afterDelivery hin)
    refine ⟨prompt,hprompt.snoc ?_,hresponse.mono _⟩
    rintro prompt' ⟨request,apiReq,hact,-⟩
    obtain ⟨rfl,rfl⟩ := Prod.mk.inj hact
    obtain ⟨call,w,hc⟩ := hown.serve_eq
    have hsuits := hd.threads id
    rw [hc] at hsuits
    exact hsuits.phase _ hprompt.1
  · intro j
    by_cases hj : j = id
    · subst hj
      exact hd.own hrun delivers hown
    · rw [move.others j hj]
      exact (hd.threads j).snoc (hothers j hj)

end GatewaySteps

end Claims

end Strix
