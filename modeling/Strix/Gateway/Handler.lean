import Strix.Engine.Service
import Strix.Gateway.Registry

/-! # The request handlers and the worker pool (strix.go, worker_pool.go)

Any number of `HandleService` executions, the pool workers and a cache that may
drop its entries are the threads of a pool. What the RPCs and the LLM provider
answer, and when a client leaves, is up to the environment. Each handler holds
its own call of the promise registry.
-/
namespace Strix
open RunHistory ThreadPool

def maxPromptLen : ℕ := 512
def maxL0PayloadSize : ℕ := 64 * 1024
def numWorkers : ℕ := 4
def jobQueueCap : ℕ := 5000

structure CheckCacheAPIRequest where
  prompt : List UInt8
  llmBody : List UInt8

/-- A request, with what decoding its body gives. -/
structure HttpRequest where
  method : String
  body : Except String CheckCacheAPIRequest

inductive HttpReply
  | payload (bytes : List UInt8)
  | error (text : String) (status : ℕ)

inductive ServiceError
  | misConfiguredCredential
  | other (message : String)
  deriving DecidableEq

structure LLMResponse where
  statusCode : ℕ
  body : Except String (List UInt8)

structure Job where
  nodeId : Int32
  payload : List UInt8

/-- The places in the handler that call the LLM. -/
inductive Branch
  | longPrompt
  | readError
  | noSlot
  | pioneer (nodeId : Int32)
  | noPromise (nodeId : Int32)
  | pioneerFailed (nodeId : Int32)
  | unexpectedState

inductive BodySource
  | l0
  | hit
  | llm (branch : Branch)
  | herd

inductive HandlerPhase
  | accepting
  | readingL0 (apiReq : CheckCacheAPIRequest)
  | asking (apiReq : CheckCacheAPIRequest)
  | registering (apiReq : CheckCacheAPIRequest) (nodeId : Int32)
  | awaiting (apiReq : CheckCacheAPIRequest) (nodeId : Int32)
  | forwarding (apiReq : CheckCacheAPIRequest) (branch : Branch)
  | writing (apiReq : CheckCacheAPIRequest) (source : BodySource) (payload : List UInt8)
  | caching (apiReq : CheckCacheAPIRequest) (source : BodySource) (payload : List UInt8)
  | enqueueing (branch : Branch) (nodeId : Int32) (payload : List UInt8)
  | deferred (payload : List UInt8) (err : Option ServiceError)
  | finishing

/-- A handler: its call of the registry, what it has written, and where it stands. -/
structure Handler where
  call : Caller ServiceError
  w : List HttpReply
  phase : HandlerPhase

structure Proxy where
  registry : Registry ServiceError
  l0Cache : List UInt8 → Option (List UInt8)
  queue : List Job

inductive ThreadId
  | request (i : ℕ)
  | worker (k : Fin numWorkers)
  | fastcache
  deriving DecidableEq

inductive ProxyThread
  | handler (h : Handler)
  | worker (job : Option Job)
  | fastcache

/-- The next step of a thread, with what the environment answers to it. -/
inductive ProxyAction
  | serve (request : HttpRequest)
  | answer (result : Except String CheckCacheResponse)
  | llm (newRequest : Except String Unit) (res : Except String LLMResponse)
  | registry (act : CallerAction ServiceError)
  | stored (result : Except String Bool)
  | drop (key : List UInt8)
  | proceed

section Functions

def serve (request : HttpRequest) : List HttpReply × HandlerPhase :=
  if request.method ≠ "POST" then ([.error "Method Not Allowed" 405], .finishing)
  else
    match request.body with
    | .error _ => ([.error "Bad Request" 400], .finishing)
    | .ok apiReq => ([], .readingL0 apiReq)

/-- The L0 look-up; an empty entry reads as none. -/
def queryL0 (sha256 : List UInt8 → List UInt8) (l0Cache : List UInt8 → Option (List UInt8))
    (apiReq : CheckCacheAPIRequest) : HandlerPhase :=
  let matchedPayload := (l0Cache (sha256 apiReq.prompt)).getD []
  if matchedPayload ≠ [] then .writing apiReq .l0 matchedPayload
  else if maxPromptLen < apiReq.prompt.length then .forwarding apiReq .longPrompt
  else .asking apiReq

def dispatch (apiReq : CheckCacheAPIRequest) : Except String CheckCacheResponse → HandlerPhase
  | .error _ => .forwarding apiReq .readError
  | .ok grpcRes =>
    let nodeId := Int32.ofInt grpcRes.nodeId
    match grpcRes.checkState with
    | .hit => .writing apiReq .hit grpcRes.cachedPayload
    | .miss => if nodeId = -1 then .forwarding apiReq .noSlot else .registering apiReq nodeId
    | .pending => .awaiting apiReq nodeId
    | .unspecified => .forwarding apiReq .unexpectedState

def herdReturned (apiReq : CheckCacheAPIRequest) (nodeId : Int32)
    (result : HerdResult ServiceError) : HandlerPhase :=
  if result.selfCancelled = true then .finishing
  else if result.found = false then .forwarding apiReq (.noPromise nodeId)
  else
    match result.pioneerErr with
    | some _ => .forwarding apiReq (.pioneerFailed nodeId)
    | none => .writing apiReq .herd result.payload

def forwardToLLM (newRequest : Except String Unit) (res : Except String LLMResponse) :
    List UInt8 × Option ServiceError :=
  match newRequest, res with
  | .error reqErr, _ => ([], some (.other ("cannot build request to LLM: " ++ reqErr)))
  | .ok (), .error doErr => ([], some (.other ("call to LLM failed: " ++ doErr)))
  | .ok (), .ok res =>
    if res.statusCode ≠ 200 then
      ([], some (.other ("LLM returned HTTP " ++ toString res.statusCode)))
    else
      match res.body with
      | .error readErr => ([], some (.other ("cannot read LLM response body: " ++ readErr)))
      | .ok llmPayload => (llmPayload, none)

def handleLLMError (err : ServiceError) : HttpReply :=
  if err = .misConfiguredCredential then .error "HTTP Gateway Misconfigured" 500
  else .error "Bad Gateway" 502

/-- A pioneer's return runs its deferred `pioneerFulfill`. -/
def Branch.leave (payload : List UInt8) (err : Option ServiceError) : Branch → HandlerPhase
  | .pioneer _ => .deferred payload err
  | _ => .finishing

def llmReturned (apiReq : CheckCacheAPIRequest) (branch : Branch) :
    List UInt8 × Option ServiceError → List HttpReply × HandlerPhase
  | (llmPayload, some llmErr) => ([handleLLMError llmErr], branch.leave llmPayload (some llmErr))
  | (llmPayload, none) => ([], .writing apiReq (.llm branch) llmPayload)

def afterWrite (apiReq : CheckCacheAPIRequest) (payload : List UInt8) : BodySource → HandlerPhase
  | .l0 | .hit => .finishing
  | source => .caching apiReq source payload

def trySetL0 (l0Cache : List UInt8 → Option (List UInt8)) (key payload : List UInt8) :
    List UInt8 → Option (List UInt8) :=
  if payload.length < maxL0PayloadSize then Function.update l0Cache key (some payload) else l0Cache

/-- Whether `trySetL0` is followed by `TryEnqueue`. -/
def afterCache (payload : List UInt8) : BodySource → HandlerPhase
  | .llm (.pioneer nodeId) => .enqueueing (.pioneer nodeId) nodeId payload
  | .llm (.noPromise nodeId) => .enqueueing (.noPromise nodeId) nodeId payload
  | .llm (.pioneerFailed nodeId) => .enqueueing (.pioneerFailed nodeId) nodeId payload
  | _ => .finishing

/-- A full queue drops the job. -/
def tryEnqueue (queue : List Job) (nodeId : Int32) (payload : List UInt8) : List Job :=
  if queue.length < jobQueueCap then queue ++ [⟨nodeId,payload⟩] else queue

end Functions

section Outcomes
variable {apiReq : CheckCacheAPIRequest} {payload : List UInt8}

theorem serve_cases (request : HttpRequest) :
    (∃ text status, serve request = ([.error text status], .finishing)) ∨
      ∃ apiReq, request.body = .ok apiReq ∧ serve request = ([], .readingL0 apiReq) := by
  unfold serve
  split
  · exact .inl ⟨_,_,rfl⟩
  · split
    · exact .inl ⟨_,_,rfl⟩
    · exact .inr ⟨_,by assumption,rfl⟩

theorem queryL0_cases (sha256 : List UInt8 → List UInt8)
    (l0Cache : List UInt8 → Option (List UInt8)) (apiReq : CheckCacheAPIRequest) :
    (∃ payload, l0Cache (sha256 apiReq.prompt) = some payload ∧
      queryL0 sha256 l0Cache apiReq = .writing apiReq .l0 payload) ∨
    queryL0 sha256 l0Cache apiReq = .forwarding apiReq .longPrompt ∨
    queryL0 sha256 l0Cache apiReq = .asking apiReq := by
  by_cases hmatched : (l0Cache (sha256 apiReq.prompt)).getD [] ≠ []
  · cases hfound : l0Cache (sha256 apiReq.prompt) with
    | none => simp [hfound] at hmatched
    | some payload =>
      refine .inl ⟨payload,rfl,?_⟩
      rw [hfound, Option.getD_some] at hmatched
      simp only [queryL0, hfound, Option.getD_some, if_pos hmatched]
  · simp only [queryL0, if_neg hmatched]
    split
    · exact .inr (.inl rfl)
    · exact .inr (.inr rfl)

theorem dispatch_cases (apiReq : CheckCacheAPIRequest) (result : Except String CheckCacheResponse) :
    (∃ branch, dispatch apiReq result = .forwarding apiReq branch ∧
      (branch = .readError ∨ branch = .noSlot ∨ branch = .unexpectedState)) ∨
    (∃ nodeId payload, result = .ok ⟨.hit,nodeId,payload⟩ ∧
      dispatch apiReq result = .writing apiReq .hit payload) ∨
    (∃ nodeId payload, result = .ok ⟨.miss,nodeId,payload⟩ ∧
      dispatch apiReq result = .registering apiReq (Int32.ofInt nodeId)) ∨
    ∃ nodeId payload, result = .ok ⟨.pending,nodeId,payload⟩ ∧
      dispatch apiReq result = .awaiting apiReq (Int32.ofInt nodeId) := by
  rcases result with what | ⟨state,nodeId,payload⟩
  · exact .inl ⟨_,rfl,.inl rfl⟩
  · cases state with
    | unspecified => exact .inl ⟨_,rfl,.inr (.inr rfl)⟩
    | hit => exact .inr (.inl ⟨_,_,rfl,rfl⟩)
    | pending => exact .inr (.inr (.inr ⟨_,_,rfl,rfl⟩))
    | miss =>
      by_cases hslot : Int32.ofInt nodeId = -1
      · exact .inl ⟨_,by simp only [dispatch, if_pos hslot],.inr (.inl rfl)⟩
      · exact .inr (.inr (.inl ⟨_,_,rfl,by simp only [dispatch, if_neg hslot]⟩))

theorem herdReturned_cases (apiReq : CheckCacheAPIRequest) (nodeId : Int32)
    (result : HerdResult ServiceError) :
    (result.selfCancelled = true ∧ herdReturned apiReq nodeId result = .finishing) ∨
    (result.selfCancelled = false ∧ result.found = false ∧
      herdReturned apiReq nodeId result = .forwarding apiReq (.noPromise nodeId)) ∨
    (result.selfCancelled = false ∧ result.found = true ∧
      ((result.pioneerErr ≠ none ∧
        herdReturned apiReq nodeId result = .forwarding apiReq (.pioneerFailed nodeId)) ∨
      (result.pioneerErr = none ∧
        herdReturned apiReq nodeId result = .writing apiReq .herd result.payload))) := by
  obtain ⟨payload,err,selfCancelled,found⟩ := result
  cases selfCancelled <;> cases found <;> cases err <;> simp [herdReturned]

theorem llmReturned_cases (apiReq : CheckCacheAPIRequest) (branch : Branch)
    (outcome : List UInt8 × Option ServiceError) :
    (outcome.2 = none ∧
      llmReturned apiReq branch outcome = ([], .writing apiReq (.llm branch) outcome.1)) ∨
    ∃ err text status, outcome.2 = some err ∧
      llmReturned apiReq branch outcome =
        ([.error text status], branch.leave outcome.1 (some err)) := by
  obtain ⟨payload,_ | err⟩ := outcome
  · exact .inl ⟨rfl,rfl⟩
  · cases err with
    | misConfiguredCredential => exact .inr ⟨_,_,_,rfl,rfl⟩
    | other message => exact .inr ⟨_,_,_,rfl,rfl⟩

theorem Branch.leave_cases (branch : Branch) (payload : List UInt8) (err : Option ServiceError) :
    branch.leave payload err = .finishing ∨ branch.leave payload err = .deferred payload err := by
  cases branch with
  | pioneer => exact .inr rfl
  | longPrompt | readError | noSlot | noPromise | pioneerFailed | unexpectedState => exact .inl rfl

theorem afterCache_cases (payload : List UInt8) (source : BodySource) :
    afterCache payload source = .finishing ∨
      ∃ branch nodeId, afterCache payload source = .enqueueing branch nodeId payload := by
  rcases source with _ | _ | branch | _
  · exact .inl rfl
  · exact .inl rfl
  · cases branch with
    | pioneer | noPromise | pioneerFailed => exact .inr ⟨_,_,rfl⟩
    | longPrompt | readError | noSlot | unexpectedState => exact .inl rfl
  · exact .inl rfl

end Outcomes

inductive RegistryCall : HandlerPhase → CallerAction ServiceError → HandlerPhase → Prop
  | pioneerRegister {apiReq : CheckCacheAPIRequest} {nodeId : Int32} :
    RegistryCall (.registering apiReq nodeId) (.register nodeId)
      (.forwarding apiReq (.pioneer nodeId))
  | herdAwait {apiReq : CheckCacheAPIRequest} {nodeId : Int32} :
    RegistryCall (.awaiting apiReq nodeId) (.await nodeId) (.awaiting apiReq nodeId)
  | herdProceed {apiReq : CheckCacheAPIRequest} {nodeId : Int32} :
    RegistryCall (.awaiting apiReq nodeId) .proceed (.awaiting apiReq nodeId)
  | herdCancel {apiReq : CheckCacheAPIRequest} {nodeId : Int32} {err : ServiceError} :
    RegistryCall (.awaiting apiReq nodeId) (.cancel err) (.awaiting apiReq nodeId)
  | pioneerFulfill {payload : List UInt8} {err : Option ServiceError} :
    RegistryCall (.deferred payload err) (.fulfill payload err) .finishing
  | fulfillProceed : RegistryCall .finishing .proceed .finishing

variable (sha256 : List UInt8 → List UInt8)

inductive HandlerStep : Proxy → Handler → ProxyAction → Proxy → Handler → Prop
  | serve {g : Proxy} {call : Caller ServiceError} {w : List HttpReply} {request : HttpRequest} :
    HandlerStep g ⟨call,w,.accepting⟩ (.serve request) g
      ⟨call,w ++ (serve request).1,(serve request).2⟩
  | queryL0 {g : Proxy} {call : Caller ServiceError} {w : List HttpReply}
    {apiReq : CheckCacheAPIRequest} :
    HandlerStep g ⟨call,w,.readingL0 apiReq⟩ .proceed g ⟨call,w,queryL0 sha256 g.l0Cache apiReq⟩
  | answer {g : Proxy} {call : Caller ServiceError} {w : List HttpReply}
    {apiReq : CheckCacheAPIRequest} {result : Except String CheckCacheResponse} :
    HandlerStep g ⟨call,w,.asking apiReq⟩ (.answer result) g ⟨call,w,dispatch apiReq result⟩
  | registry {g : Proxy} {call call' : Caller ServiceError} {w : List HttpReply}
    {phase phase' : HandlerPhase} {act : CallerAction ServiceError} {r' : Registry ServiceError}
    (hphase : RegistryCall phase act phase') (h : CallerStep g.registry call act r' call') :
    HandlerStep g ⟨call,w,phase⟩ (.registry act) { g with registry := r' } ⟨call',w,phase'⟩
  | herdReturned {g : Proxy} {w : List HttpReply} {apiReq : CheckCacheAPIRequest}
    {nodeId n : Int32} {result : HerdResult ServiceError} :
    HandlerStep g ⟨.returned n result,w,.awaiting apiReq nodeId⟩ .proceed g
      ⟨.returned n result,w,herdReturned apiReq nodeId result⟩
  | llm {g : Proxy} {call : Caller ServiceError} {w : List HttpReply}
    {apiReq : CheckCacheAPIRequest} {branch : Branch} {newRequest : Except String Unit}
    {res : Except String LLMResponse} :
    HandlerStep g ⟨call,w,.forwarding apiReq branch⟩ (.llm newRequest res) g
      ⟨call,w ++ (llmReturned apiReq branch (forwardToLLM newRequest res)).1,
        (llmReturned apiReq branch (forwardToLLM newRequest res)).2⟩
  | writePayload {g : Proxy} {call : Caller ServiceError} {w : List HttpReply}
    {apiReq : CheckCacheAPIRequest} {source : BodySource} {payload : List UInt8} :
    HandlerStep g ⟨call,w,.writing apiReq source payload⟩ .proceed g
      ⟨call,w ++ [.payload payload],afterWrite apiReq payload source⟩
  | trySetL0 {g : Proxy} {call : Caller ServiceError} {w : List HttpReply}
    {apiReq : CheckCacheAPIRequest} {source : BodySource} {payload : List UInt8} :
    HandlerStep g ⟨call,w,.caching apiReq source payload⟩ .proceed
      { g with l0Cache := trySetL0 g.l0Cache (sha256 apiReq.prompt) payload }
      ⟨call,w,afterCache payload source⟩
  | tryEnqueue {g : Proxy} {call : Caller ServiceError} {w : List HttpReply} {branch : Branch}
    {nodeId : Int32} {payload : List UInt8} :
    HandlerStep g ⟨call,w,.enqueueing branch nodeId payload⟩ .proceed
      { g with queue := tryEnqueue g.queue nodeId payload } ⟨call,w,branch.leave payload none⟩

inductive ProxyStep : Proxy → ProxyThread → ProxyAction → Proxy → ProxyThread → Prop
  | handler {g g' : Proxy} {h h' : Handler} {act : ProxyAction}
    (hstep : HandlerStep sha256 g h act g' h') : ProxyStep g (.handler h) act g' (.handler h')
  | dequeue {g : Proxy} {job : Job} {rest : List Job} (h : g.queue = job :: rest) :
    ProxyStep g (.worker none) .proceed { g with queue := rest } (.worker (some job))
  | setCache {g : Proxy} {job : Job} {result : Except String Bool} :
    ProxyStep g (.worker (some job)) (.stored result) g (.worker none)
  | drop {g : Proxy} {key : List UInt8} :
    ProxyStep g .fastcache (.drop key)
      { g with l0Cache := Function.update g.l0Cache key none } .fastcache

abbrev ProxyPool := Pool ThreadId Proxy ProxyThread

abbrev ProxyBeat := Transition ProxyPool (ThreadId × ProxyAction)

def startProxy : ProxyPool where
  shared := ⟨freshRegistry ServiceError,fun _ => none,[]⟩
  threads
    | .request _ => .handler ⟨.idle,[],.accepting⟩
    | .worker _ => .worker none
    | .fastcache => .fastcache

def ProxyRun (es : List ProxyBeat) (pool : ProxyPool) : Prop :=
  Run (Moves (ProxyStep sha256)) startProxy es pool

section Steps
variable {sha256} {g g' : Proxy} {c c' : ProxyThread} {act : ProxyAction}

theorem ProxyStep.handler_cases (h : ProxyStep sha256 g c act g' c') :
    (∃ x y, c = .handler x ∧ c' = .handler y ∧ HandlerStep sha256 g x act g' y) ∨
      (∀ x, c ≠ .handler x) ∧ (∀ y, c' ≠ .handler y) ∧
        ∀ newRequest res, act ≠ .llm newRequest res := by
  cases h with
  | handler hstep => exact .inl ⟨_,_,rfl,rfl,hstep⟩
  | dequeue | setCache | drop => exact .inr ⟨by simp,by simp,by simp⟩

/-- The L0 cache changes where a handler has just written the payload, or by a drop. -/
theorem ProxyStep.l0Cache_cases (h : ProxyStep sha256 g c act g' c') :
    g'.l0Cache = g.l0Cache ∨ (∃ key, g'.l0Cache = Function.update g.l0Cache key none) ∨
    ∃ call w apiReq source payload, c = .handler ⟨call,w,.caching apiReq source payload⟩ ∧
      g'.l0Cache = Function.update g.l0Cache (sha256 apiReq.prompt) (some payload) := by
  cases h with
  | handler hstep =>
    cases hstep with
    | @trySetL0 call w apiReq source payload =>
      by_cases hsize : payload.length < maxL0PayloadSize
      · exact .inr (.inr ⟨_,_,_,_,_,rfl,if_pos hsize⟩)
      · exact .inl (if_neg hsize)
    | serve | queryL0 | answer | registry | herdReturned | llm | writePayload | tryEnqueue =>
      exact .inl rfl
  | dequeue | setCache => exact .inl rfl
  | drop => exact .inr (.inl ⟨_,rfl⟩)

theorem ProxyStep.queue_cases (h : ProxyStep sha256 g c act g' c') :
    g'.queue = g.queue ∨ (∃ job, g.queue = job :: g'.queue) ∨
    ∃ call w branch nodeId payload, c = .handler ⟨call,w,.enqueueing branch nodeId payload⟩ ∧
      g'.queue = g.queue ++ [⟨nodeId,payload⟩] := by
  cases h with
  | handler hstep =>
    cases hstep with
    | tryEnqueue =>
      by_cases hfull : g.queue.length < jobQueueCap
      · exact .inr (.inr ⟨_,_,_,_,_,rfl,if_pos hfull⟩)
      · exact .inl (if_neg hfull)
    | serve | queryL0 | answer | registry | herdReturned | llm | writePayload | trySetL0 =>
      exact .inl rfl
  | dequeue h => exact .inr (.inl ⟨_,h⟩)
  | setCache | drop => exact .inl rfl

theorem ProxyStep.register_eq {nodeId : Int32}
    (h : ProxyStep sha256 g c (.registry (.register nodeId)) g' c') :
    ∃ call w apiReq, c = .handler ⟨call,w,.registering apiReq nodeId⟩ := by
  cases h with
  | handler hstep =>
    cases hstep with
    | registry hphase =>
      cases hphase
      exact ⟨_,_,_,rfl⟩

theorem ProxyStep.await_eq {nodeId : Int32}
    (h : ProxyStep sha256 g c (.registry (.await nodeId)) g' c') :
    ∃ call w apiReq, c = .handler ⟨call,w,.awaiting apiReq nodeId⟩ := by
  cases h with
  | handler hstep =>
    cases hstep with
    | registry hphase =>
      cases hphase
      exact ⟨_,_,_,rfl⟩

theorem ProxyStep.fulfill_eq {payload : List UInt8} {err : Option ServiceError}
    (h : ProxyStep sha256 g c (.registry (.fulfill payload err)) g' c') :
    ∃ call w, c = .handler ⟨call,w,.deferred payload err⟩ := by
  cases h with
  | handler hstep =>
    cases hstep with
    | registry hphase =>
      cases hphase
      exact ⟨_,_,rfl⟩

end Steps

section Projection
variable {sha256} {es : List ProxyBeat} {pool : ProxyPool} {g g' : Proxy} {c c' : ProxyThread}
  {act : ProxyAction}

def callOf : ProxyThread → Caller ServiceError
  | .handler h => h.call
  | _ => .idle

def callers (pool : ProxyPool) : RegistryPool ThreadId ServiceError :=
  ⟨pool.shared.registry,fun id => callOf (pool.threads id)⟩

def registryAct (τ : ProxyBeat) : Option (ThreadId × CallerAction ServiceError) :=
  match τ.act with
  | (id, .registry act) => some (id, act)
  | _ => none

def registryBeats (es : List ProxyBeat) : List (RegistryBeat ThreadId ServiceError) :=
  es.filterMap fun τ => (registryAct τ).map fun b => ⟨callers τ.before,b,callers τ.after⟩

theorem registryBeats_append (es fs : List ProxyBeat) :
    registryBeats (es ++ fs) = registryBeats es ++ registryBeats fs := List.filterMap_append

theorem ProxyStep.registry_cases (h : ProxyStep sha256 g c act g' c') :
    (∃ a, act = .registry a ∧ CallerStep g.registry (callOf c) a g'.registry (callOf c')) ∨
      (∀ a, act ≠ .registry a) ∧ g'.registry = g.registry ∧ callOf c' = callOf c := by
  cases h with
  | handler hstep =>
    cases hstep with
    | registry hphase h => exact .inl ⟨_,rfl,h⟩
    | serve | queryL0 | answer | herdReturned | llm | writePayload | trySetL0 | tryEnqueue =>
      exact .inr ⟨by simp,rfl,rfl⟩
  | dequeue | setCache | drop => exact .inr ⟨by simp,rfl,rfl⟩

/-- What the handlers do to the registry is a run of its callers. -/
theorem registry_run (hrun : ProxyRun sha256 es pool) :
    RegistryRun (registryBeats es) (callers pool) := by
  have hstart : callers startProxy = ⟨freshRegistry ServiceError,fun _ => .idle⟩ := by
    unfold callers
    congr 1
    funext id
    cases id <;> rfl
  rw [RegistryRun, ← hstart]
  refine hrun.filterMap callers registryAct ?_ ?_
  · rintro ⟨u,⟨id,act⟩,v⟩ hmove hnone
    rcases hmove.own.registry_cases with ⟨a,hact,-⟩ | ⟨-,hregistry,hcall⟩
    · simp only at hact
      subst hact
      cases hnone
    · unfold callers
      congr 1
      funext j
      by_cases hj : j = id
      · subst hj
        exact hcall
      · exact congrArg callOf (hmove.others j hj)
  · rintro ⟨u,⟨id,act⟩,v⟩ ⟨j,a⟩ hmove hsome
    rcases hmove.own.registry_cases with ⟨a',hact,hstep⟩ | ⟨hne,-⟩
    · simp only at hact
      subst hact
      obtain ⟨rfl,rfl⟩ := Prod.mk.inj (Option.some.inj hsome)
      exact ⟨hstep,fun k hk => congrArg callOf (hmove.others k hk)⟩
    · exfalso
      unfold registryAct at hsome
      split at hsome
      · rename_i hact
        exact hne _ (congrArg Prod.snd hact)
      · cases hsome

theorem happened_registryAct {id : ThreadId} {a : CallerAction ServiceError}
    (h : Happened (fun σ => σ.act = (id, a)) (registryBeats es)) :
    Happened (fun τ => τ.act = (id, .registry a)) es := by
  obtain ⟨σ,hσ,hact⟩ := h
  obtain ⟨τ,hτ,hproj⟩ := List.mem_filterMap.mp hσ
  refine ⟨τ,hτ,?_⟩
  obtain ⟨b,hb,rfl⟩ := Option.map_eq_some_iff.mp hproj
  simp only at hact
  subst hact
  unfold registryAct at hb
  split at hb
  · rename_i hτ'
    obtain ⟨rfl,rfl⟩ := Prod.mk.inj (Option.some.inj hb)
    exact hτ'
  · cases hb

end Projection

end Strix
