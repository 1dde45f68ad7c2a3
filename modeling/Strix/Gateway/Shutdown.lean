import Strix.Gateway.Provenance

/-! # Shutting the gateway down (serve.go, server.go, worker_pool.go)

`runServe` stops the server and its deferred `pool.Stop` closes the queue. The
server waits for its handlers up to a deadline that is shorter than a call of
the LLM, and after a failure of the listener nobody waits for them at all.
-/
namespace Strix
open RunHistory ThreadPool

/-- How far `runServe` has come. Whether the listener has failed is kept: then nobody
has called `Shutdown` and open connections are still served. -/
inductive ServePhase
  | listening
  | shuttingDown
  | returning (crashed : Bool)
  | stopped (crashed : Bool)

structure Serving where
  pool : ProxyPool
  phase : ServePhase

inductive ServingAction
  | proxy (id : ThreadId) (act : ProxyAction)
  | crash
  | interrupt
  | drained
  | deadline
  | stop

/-- A new request may reach a handler. -/
def ServePhase.admits : ServePhase → Bool
  | .listening => true
  | .shuttingDown => false
  | .returning crashed | .stopped crashed => crashed

def ServePhase.closed : ServePhase → Bool
  | .stopped _ => true
  | .listening | .shuttingDown | .returning _ => false

def ProxyThread.Enqueues (c : ProxyThread) : Prop :=
  ∃ call w branch nodeId payload, c = .handler ⟨call,w,.enqueueing branch nodeId payload⟩

/-- The handler has not been entered, or has returned with its deferred call done. -/
def ProxyThread.Done (c : ProxyThread) : Prop :=
  ∀ x, c = .handler x → x.phase = .accepting ∨
    (x.phase = .finishing ∧ ∀ stage nodeId p payload err,
      x.call ≠ .fulfilling stage nodeId p payload err)

variable (sha256 : List UInt8 → List UInt8)

/-- A step of the gateway's threads, or of `runServe` itself. On the closed queue a
`TryEnqueue` panics and the handler leaves through its deferred call. -/
inductive ServingStep : Serving → ServingAction → Serving → Prop
  | proxy {s : Serving} {id : ThreadId} {act : ProxyAction} {pool : ProxyPool}
    (hmove : Moves (ProxyStep sha256) s.pool (id, act) pool)
    (hserve : ∀ request, act = .serve request → s.phase.admits = true)
    (hopen : (s.pool.threads id).Enqueues → s.phase.closed = false) :
    ServingStep s (.proxy id act) ⟨pool,s.phase⟩
  | panic {s : Serving} {id : ThreadId} {call : Caller ServiceError} {w : List HttpReply}
    {branch : Branch} {nodeId : Int32} {payload : List UInt8}
    (hclosed : s.phase.closed = true)
    (h : s.pool.threads id = .handler ⟨call,w,.enqueueing branch nodeId payload⟩) :
    ServingStep s (.proxy id .proceed)
      ⟨⟨s.pool.shared,Function.update s.pool.threads id
        (.handler ⟨call,w,branch.leave payload none⟩)⟩,s.phase⟩
  | crash {pool : ProxyPool} : ServingStep ⟨pool,.listening⟩ .crash ⟨pool,.returning true⟩
  | interrupt {pool : ProxyPool} : ServingStep ⟨pool,.listening⟩ .interrupt ⟨pool,.shuttingDown⟩
  | drained {pool : ProxyPool} (h : ∀ id, (pool.threads id).Done) :
    ServingStep ⟨pool,.shuttingDown⟩ .drained ⟨pool,.returning false⟩
  | deadline {pool : ProxyPool} :
    ServingStep ⟨pool,.shuttingDown⟩ .deadline ⟨pool,.returning false⟩
  | stop {pool : ProxyPool} {crashed : Bool} :
    ServingStep ⟨pool,.returning crashed⟩ .stop ⟨pool,.stopped crashed⟩

abbrev ServingBeat := Transition Serving ServingAction

def ServingRun (es : List ServingBeat) (s : Serving) : Prop :=
  Run (ServingStep sha256) ⟨startProxy,.listening⟩ es s

def Panics (τ : ServingBeat) : Prop :=
  ∃ id act, τ.act = .proxy id act ∧ (τ.before.pool.threads id).Enqueues ∧
    τ.before.phase.closed = true

section Enqueue

def Branch.enqueues : Branch → Bool
  | .pioneer _ | .noPromise _ | .pioneerFailed _ => true
  | .longPrompt | .readError | .noSlot | .unexpectedState => false

def BodySource.enqueues : BodySource → Bool
  | .llm branch => branch.enqueues
  | .l0 | .hit | .herd => false

/-- The handler has been entered and may still come to its `TryEnqueue`. -/
def HandlerPhase.mayEnqueue : HandlerPhase → Bool
  | .readingL0 _ | .asking _ | .registering _ _ | .awaiting _ _ | .enqueueing _ _ _ => true
  | .forwarding _ branch => branch.enqueues
  | .writing _ source _ | .caching _ source _ => source.enqueues
  | .accepting | .deferred _ _ | .finishing => false

def ProxyThread.mayEnqueue : ProxyThread → Bool
  | .handler x => x.phase.mayEnqueue
  | .worker _ | .fastcache => false

/-- `pool.Stop` comes when no handler can still enqueue, and no request is taken up
after it. -/
def Orderly (τ : ServingBeat) : Prop :=
  match τ.act with
  | .stop => ∀ id, (τ.before.pool.threads id).mayEnqueue = false
  | .proxy _ (.serve _) => τ.before.phase.closed = false
  | _ => True

theorem ProxyThread.Enqueues.mayEnqueue {c : ProxyThread} (h : c.Enqueues) :
    c.mayEnqueue = true := by
  obtain ⟨call,w,branch,nodeId,payload,rfl⟩ := h
  rfl

theorem ProxyThread.Done.not_mayEnqueue {c : ProxyThread} (h : c.Done) : c.mayEnqueue = false := by
  cases c with
  | handler x =>
    rcases h x rfl with hphase | ⟨hphase,-⟩
    · rw [mayEnqueue, hphase, HandlerPhase.mayEnqueue]
    · rw [mayEnqueue, hphase, HandlerPhase.mayEnqueue]
  | worker | fastcache => rfl

theorem Branch.leave_mayEnqueue (branch : Branch) (payload : List UInt8)
    (err : Option ServiceError) : (branch.leave payload err).mayEnqueue = false := by
  rcases branch.leave_cases payload err with h | h <;> rw [h] <;> rfl

variable {sha256} {g g' : Proxy} {x y : Handler} {act : ProxyAction}

theorem HandlerStep.mayEnqueue (h : HandlerStep sha256 g x act g' y)
    (hserve : ∀ request, act ≠ .serve request) (hx : x.phase.mayEnqueue = false) :
    y.phase.mayEnqueue = false := by
  cases h with
  | serve => exact absurd rfl (hserve _)
  | queryL0 | answer | herdReturned | tryEnqueue => cases hx
  | registry hphase => cases hphase <;> first | rfl | cases hx
  | @llm call w apiReq branch newRequest res =>
    rcases llmReturned_cases apiReq branch (forwardToLLM newRequest res) with
      ⟨-,hout⟩ | ⟨err,text,status,-,hout⟩
    · simp only [hout]
      exact hx
    · simp only [hout]
      exact branch.leave_mayEnqueue _ _
  | @writePayload call w apiReq source payload =>
    cases source with
    | l0 | hit => rfl
    | llm | herd => exact hx
  | @trySetL0 call w apiReq source payload =>
    cases source with
    | l0 | hit | herd => rfl
    | llm branch => cases branch <;> first | rfl | cases hx

end Enqueue

section Runs
variable {sha256} {es : List ServingBeat} {s : Serving} {τ : ServingBeat}

def Settled (pool : ProxyPool) : Prop := ∀ id, (pool.threads id).mayEnqueue = false

theorem Settled.move {pool pool' : ProxyPool} {id : ThreadId} {act : ProxyAction}
    (h : Settled pool) (hmove : Moves (ProxyStep sha256) pool (id, act) pool')
    (hserve : ∀ request, act ≠ .serve request) : Settled pool' := by
  intro j
  by_cases hj : j = id
  · subst hj
    rcases hmove.own.handler_cases with ⟨x,y,hx,hy,hstep⟩ | ⟨-,hy,-⟩
    · have hbefore := h j
      simp only at hx hy
      rw [hx] at hbefore
      rw [hy]
      exact hstep.mayEnqueue hserve hbefore
    · simp only at hy
      generalize pool'.threads j = c at hy
      cases c with
      | handler y => exact absurd rfl (hy y)
      | worker | fastcache => rfl
  · rw [hmove.others j hj]
    exact h j

theorem ServingStep.settled {act : ServingAction} {s' : Serving} (h : ServingStep sha256 s act s')
    (hτ : Orderly ⟨s,act,s'⟩) (hs : s.phase.closed = true → Settled s.pool) :
    s'.phase.closed = true → Settled s'.pool := by
  intro hclosed
  cases h with
  | proxy hmove hserve =>
    refine (hs hclosed).move hmove fun request hact => ?_
    subst hact
    have hopen : s.phase.closed = false := hτ
    have hclosed : s.phase.closed = true := hclosed
    rw [hopen] at hclosed
    cases hclosed
  | @panic _ id call w branch nodeId payload _ hthread =>
    have hbusy := hs hclosed id
    rw [hthread] at hbusy
    cases hbusy
  | crash | interrupt | drained | deadline => cases hclosed
  | stop => exact hτ

theorem settled_of_closed (hrun : ServingRun sha256 es s) (hord : ∀ τ ∈ es, Orderly τ) :
    s.phase.closed = true → Settled s.pool :=
  Run.invariant (I := fun s : Serving => s.phase.closed = true → Settled s.pool)
    (fun _ hfire hτ hs => hfire.settled hτ hs) hrun hord (by intro h; cases h)

/-- Past `Shutdown` no handler can still enqueue and nobody lets a new request in. -/
def Released (s : Serving) : Prop :=
  ∀ crashed, s.phase = .returning crashed ∨ s.phase = .stopped crashed →
    crashed = false ∧ Settled s.pool

theorem ServingStep.released {act : ServingAction} {s' : Serving} (h : ServingStep sha256 s act s')
    (hcrash : act ≠ .crash) (hdeadline : act ≠ .deadline) (hs : Released s) : Released s' := by
  intro crashed hphase
  cases h with
  | @proxy _ id act pool hmove hserve =>
    obtain ⟨rfl,hsettled⟩ := hs crashed hphase
    refine ⟨rfl,hsettled.move hmove fun request hact => ?_⟩
    have hadmits := hserve request hact
    rcases hphase with hphase | hphase <;> simp only at hphase <;> rw [hphase] at hadmits <;>
      cases hadmits
  | @panic _ id call w branch nodeId payload _ hthread =>
    have hbusy := (hs crashed hphase).2 id
    rw [hthread] at hbusy
    cases hbusy
  | crash => exact absurd rfl hcrash
  | deadline => exact absurd rfl hdeadline
  | interrupt => rcases hphase with hphase | hphase <;> cases hphase
  | drained hdone =>
    rcases hphase with hphase | hphase <;> cases hphase
    exact ⟨rfl,fun id => (hdone id).not_mayEnqueue⟩
  | stop =>
    rcases hphase with hphase | hphase <;> cases hphase
    exact hs crashed (.inl rfl)

theorem orderly_of_released {act : ServingAction} {s' : Serving} (h : ServingStep sha256 s act s')
    (hs : Released s) : Orderly ⟨s,act,s'⟩ := by
  cases h with
  | @proxy _ id act pool hmove hserve =>
    cases act with
    | serve request =>
      have hadmits := hserve request rfl
      show s.phase.closed = false
      cases hphase : s.phase with
      | stopped crashed =>
        obtain ⟨rfl,-⟩ := hs crashed (.inr hphase)
        rw [hphase] at hadmits
        cases hadmits
      | listening | shuttingDown | returning => rfl
    | answer | llm | registry | stored | drop | proceed => trivial
  | panic | crash | interrupt | drained | deadline => trivial
  | stop => exact (hs _ (.inl rfl)).2

/-- No handler executes `TryEnqueue` on the closed queue in a run that comes to
`pool.Stop` in order, which is every run in which neither the listener fails nor
the deadline of `Shutdown` passes. -/
theorem no_enqueue_after_close (hrun : ServingRun sha256 es s) :
    ((∀ τ ∈ es, Orderly τ) → ∀ τ ∈ es, ¬ Panics τ) ∧
    ((∀ τ ∈ es, τ.act ≠ .crash ∧ τ.act ≠ .deadline) → ∀ τ ∈ es, Orderly τ) := by
  constructor
  · rintro hord τ hτ ⟨id,act,-,henqueues,hclosed⟩
    obtain ⟨before,after,rfl⟩ := List.append_of_mem hτ
    obtain ⟨hbefore,-,-⟩ := Run.split_at hrun
    have hbusy := settled_of_closed hbefore
      (fun σ hσ => hord σ (List.mem_append_left _ hσ)) hclosed id
    rw [henqueues.mayEnqueue] at hbusy
    cases hbusy
  · intro hgrace τ hτ
    obtain ⟨before,after,rfl⟩ := List.append_of_mem hτ
    obtain ⟨hbefore,hfire,-⟩ := Run.split_at hrun
    have hreleased : Released τ.before :=
      Run.invariant (I := Released) (P := fun σ => σ.act ≠ .crash ∧ σ.act ≠ .deadline)
        (fun _ hstep hσ hs => hstep.released hσ.1 hσ.2 hs) hbefore
        (fun σ hσ => hgrace σ (List.mem_append_left _ hσ))
        (by rintro _ (h | h) <;> cases h)
    exact orderly_of_released hfire hreleased

end Runs

section Late
variable {sha256} {es : List ServingBeat} {s : Serving} {id : ThreadId} {c c' : ProxyThread}
  {act : ProxyAction} {g' : Proxy}

theorem exists_serving (hrun : ServingRun sha256 es s) (hc : s.pool.threads id = c)
    (hstep : ProxyStep sha256 s.pool.shared c act g' c') (hserve : ∀ request, act ≠ .serve request)
    (hopen : ¬ c.Enqueues) : ∃ τ s', ServingRun sha256 (es ++ [τ]) s' ∧ τ.act = .proxy id act ∧
      s'.phase = s.phase ∧ s'.pool.shared = g' ∧
      s'.pool.threads = Function.update s.pool.threads id c' := by
  rw [← hc] at hstep hopen
  exact ⟨_,_,hrun.snoc (.proxy (moves_update hstep)
    (fun request hact => absurd hact (hserve request)) fun h => absurd h hopen),rfl,rfl,rfl,rfl⟩

theorem afterCache_of_enqueues {branch : Branch} (h : branch.enqueues = true)
    (payload : List UInt8) :
    ∃ nodeId, afterCache payload (.llm branch) = .enqueueing branch nodeId payload := by
  cases branch with
  | pioneer | noPromise | pioneerFailed => exact ⟨_,rfl⟩
  | longPrompt | readError | noSlot | unexpectedState => cases h

/-- A handler that the closing of the queue has overtaken in its call of the LLM goes
on to enqueue when the call succeeds. -/
theorem exists_panic (hrun : ServingRun sha256 es s) (hclosed : s.phase.closed = true)
    {call : Caller ServiceError} {w : List HttpReply} {apiReq : CheckCacheAPIRequest}
    {branch : Branch} (hc : s.pool.threads id = .handler ⟨call,w,.forwarding apiReq branch⟩)
    (hb : branch.enqueues = true) : ∃ fs τ s', ServingRun sha256 (es ++ fs ++ [τ]) s' ∧ Panics τ ∧
      fs.map (fun τ => τ.act) = [.proxy id (.llm (.ok ()) (.ok ⟨200,.ok [7]⟩)),
        .proxy id .proceed, .proxy id .proceed] ∧ τ.act = .proxy id .proceed := by
  obtain ⟨nodeId,hafter⟩ := afterCache_of_enqueues hb [7]
  have hllm : ProxyStep sha256 s.pool.shared (.handler ⟨call,w,.forwarding apiReq branch⟩)
      (.llm (.ok ()) (.ok ⟨200,.ok [7]⟩)) s.pool.shared
      (.handler ⟨call,w ++ [],.writing apiReq (.llm branch) [7]⟩) := .handler .llm
  obtain ⟨τ₁,s₁,hrun₁,hact₁,hphase₁,hshared₁,hthreads₁⟩ := exists_serving hrun hc hllm (by simp)
    (by rintro ⟨_,_,_,_,_,h⟩; cases h)
  have hwrite : ProxyStep sha256 s₁.pool.shared
      (.handler ⟨call,w ++ [],.writing apiReq (.llm branch) [7]⟩) .proceed s₁.pool.shared
      (.handler ⟨call,w ++ [] ++ [.payload [7]],.caching apiReq (.llm branch) [7]⟩) :=
    .handler .writePayload
  obtain ⟨τ₂,s₂,hrun₂,hact₂,hphase₂,hshared₂,hthreads₂⟩ := exists_serving hrun₁
    (by rw [hthreads₁, Function.update_self]) hwrite (by simp)
    (by rintro ⟨_,_,_,_,_,h⟩; cases h)
  have hcache : ProxyStep sha256 s₂.pool.shared
      (.handler ⟨call,w ++ [] ++ [.payload [7]],.caching apiReq (.llm branch) [7]⟩) .proceed
      { s₂.pool.shared with
        l0Cache := trySetL0 s₂.pool.shared.l0Cache (sha256 apiReq.prompt) [7] }
      (.handler ⟨call,w ++ [] ++ [.payload [7]],.enqueueing branch nodeId [7]⟩) := by
    rw [← hafter]
    exact .handler .trySetL0
  obtain ⟨τ₃,s₃,hrun₃,hact₃,hphase₃,-,hthreads₃⟩ := exists_serving hrun₂
    (by rw [hthreads₂, Function.update_self]) hcache (by simp)
    (by rintro ⟨_,_,_,_,_,h⟩; cases h)
  have hlast : s₃.pool.threads id =
      .handler ⟨call,w ++ [] ++ [.payload [7]],.enqueueing branch nodeId [7]⟩ := by
    rw [hthreads₃, Function.update_self]
  have hclosed₃ : s₃.phase.closed = true := by rw [hphase₃, hphase₂, hphase₁, hclosed]
  have hpanic := hrun₃.snoc (.panic hclosed₃ hlast)
  exact ⟨[τ₁,τ₂,τ₃],_,_,by simpa [ServingRun] using hpanic,
    ⟨id,.proceed,rfl,⟨_,_,_,_,_,hlast⟩,hclosed₃⟩,by simp [hact₁, hact₂, hact₃],rfl⟩

end Late

section Replay

theorem exists_listening {sha256 : List UInt8 → List UInt8} {es : List ProxyBeat} {pool : ProxyPool}
    (hrun : ProxyRun sha256 es pool) : ∃ fs, ServingRun sha256 fs ⟨pool,.listening⟩ ∧
      fs.map (fun τ => τ.act) = (es.map fun τ => τ.act).map fun a => .proxy a.1 a.2 := by
  have hserving : Run (ServingStep sha256) _ _ _ := hrun.map (fun pool => ⟨pool,.listening⟩)
    (fun τ => .proxy τ.act.1 τ.act.2) fun τ hmove => .proxy hmove (fun _ _ => rfl) fun _ => rfl
  exact ⟨_,hserving,by simp [Function.comp_def]⟩

/-- A pioneer is calling the LLM when a signal comes and the deadline passes, or when the
listener fails: it enqueues on the closed queue either way. -/
theorem enqueue_after_close :
    (∃ es τ s, ServingRun (Equiv.swap [1] digestOfOne) (es ++ [τ]) s ∧ Panics τ ∧
      (es ++ [τ]).map (fun τ => τ.act) =
        [.proxy (.request 0) (.serve ⟨"POST",.ok ⟨[1],[2]⟩⟩), .proxy (.request 0) .proceed,
          .proxy (.request 0) (.answer (.ok ⟨.miss,0,[]⟩)),
          .proxy (.request 0) (.registry (.register 0)), .interrupt, .deadline, .stop,
          .proxy (.request 0) (.llm (.ok ()) (.ok ⟨200,.ok [7]⟩)), .proxy (.request 0) .proceed,
          .proxy (.request 0) .proceed, .proxy (.request 0) .proceed]) ∧
    ∃ es τ s, ServingRun (Equiv.swap [1] digestOfOne) (es ++ [τ]) s ∧ Panics τ ∧
      (es ++ [τ]).map (fun τ => τ.act) =
        [.proxy (.request 0) (.serve ⟨"POST",.ok ⟨[1],[2]⟩⟩), .proxy (.request 0) .proceed,
          .proxy (.request 0) (.answer (.ok ⟨.miss,0,[]⟩)),
          .proxy (.request 0) (.registry (.register 0)), .crash, .stop,
          .proxy (.request 0) (.llm (.ok ()) (.ok ⟨200,.ok [7]⟩)), .proxy (.request 0) .proceed,
          .proxy (.request 0) .proceed, .proxy (.request 0) .proceed] := by
  obtain ⟨es,pool,hrun,hacts,-,hthreads⟩ := exists_calling
  have hcall : pool.threads (.request 0) =
      .handler ⟨.pioneer 0 0,[],.forwarding ⟨[1],[2]⟩ (.pioneer 0)⟩ := by
    rw [hthreads, Function.update_self]
  obtain ⟨fs,hlisten,hfs⟩ := exists_listening hrun
  rw [hacts] at hfs
  constructor
  · obtain ⟨gs,τ,s,hpanic,hτ,hgs,hact⟩ := exists_panic
      (((hlisten.snoc .interrupt).snoc .deadline).snoc .stop) rfl hcall rfl
    exact ⟨_,τ,s,hpanic,hτ,by simp [hfs, hgs, hact]⟩
  · obtain ⟨gs,τ,s,hpanic,hτ,hgs,hact⟩ :=
      exists_panic ((hlisten.snoc .crash).snoc .stop) rfl hcall rfl
    exact ⟨_,τ,s,hpanic,hτ,by simp [hfs, hgs, hact]⟩

/-- A signal comes when the pioneer is done: its job is in the queue and nobody panics. -/
theorem no_enqueue_after_close_replay : ∃ (es : List ServingBeat) (s : Serving),
    ServingRun (Equiv.swap [1] digestOfOne) es s ∧ s.phase = .stopped false ∧
      s.pool.shared.queue = [⟨0,[7]⟩] ∧ ∀ τ ∈ es, ¬ Panics τ := by
  obtain ⟨es,calling,hcalling,-,hshared,hthreads⟩ := exists_calling
  have hcall : calling.threads (.request 0) =
      .handler ⟨.pioneer 0 0,[],.forwarding ⟨[1],[2]⟩ (.pioneer 0)⟩ := by
    rw [hthreads, Function.update_self]
  obtain ⟨fs,g,hsolo,-,-,hqueue,-,-⟩ := exists_soloPioneer (g := calling.shared)
    (Equiv.swap [1] digestOfOne) ⟨[1],[2]⟩ 0 0 [7] (by rw [hshared]; rfl) (by decide)
    (by rw [hshared]; decide)
  obtain ⟨gs,pool,hrun,-,rfl,hthreads'⟩ := exists_alone (.request 0) hcalling hcall hsolo
  have hdone : ∀ id, (pool.threads id).Done := by
    rw [hthreads', hthreads, Function.update_idem]
    intro id x hx
    by_cases hid : id = .request 0
    · rw [hid, Function.update_self] at hx
      cases hx
      exact .inr ⟨rfl,by simp⟩
    · rw [Function.update_of_ne hid] at hx
      cases id with
      | request i =>
        cases hx
        exact .inl rfl
      | worker | fastcache => cases hx
  obtain ⟨ks,hlisten,hks⟩ := exists_listening hrun
  have hall := ((hlisten.snoc .interrupt).snoc (.drained hdone)).snoc .stop
  obtain ⟨horderly,hgrace⟩ := no_enqueue_after_close hall
  refine ⟨_,_,hall,rfl,by rw [hqueue, hshared]; rfl,horderly (hgrace ?_)⟩
  simp only [List.forall_mem_append, List.forall_mem_singleton]
  refine ⟨⟨⟨fun τ hτ => ?_,by simp⟩,by simp⟩,by simp⟩
  obtain ⟨a,-,ha⟩ := List.mem_map.mp (Transition.act_mem hks hτ)
  simp [← ha]

end Replay

end Strix
