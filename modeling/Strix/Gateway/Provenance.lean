import Strix.Gateway.Broadcast
import Strix.Gateway.Handler

/-! # Where the gateway's payloads come from

Each branch of the handler checks the error of its own LLM call before it
writes, caches or enqueues the payload, and a pioneer passes its error on with
the payload. So whatever the threads do, what the gateway keeps was returned by
an LLM call that has succeeded.
-/
namespace Strix
open RunHistory ThreadPool

def LLMReturned (id : ThreadId) (payload : List UInt8) (τ : ProxyBeat) : Prop :=
  ∃ newRequest res, τ.act = (id, .llm newRequest res) ∧
    forwardToLLM newRequest res = (payload, none)

def LLMFailed (id : ThreadId) (τ : ProxyBeat) : Prop :=
  ∃ newRequest res, τ.act = (id, .llm newRequest res) ∧ (forwardToLLM newRequest res).2 ≠ none

/-- Some successful LLM call has returned `payload`. -/
def FromLLM (es : List ProxyBeat) (payload : List UInt8) : Prop :=
  ∃ id, Happened (LLMReturned id payload) es

def HitAnswered (id : ThreadId) (payload : List UInt8) (τ : ProxyBeat) : Prop :=
  ∃ nodeId, τ.act = (id, .answer (.ok ⟨.hit,nodeId,payload⟩))

def Missed (m : ℤ) (id : ThreadId) (τ : ProxyBeat) : Prop :=
  ∃ payload, τ.act = (id, .answer (.ok ⟨.miss,m,payload⟩))

def RegistersAt (nodeId : Int32) (id : ThreadId) (τ : ProxyBeat) : Prop :=
  τ.act = (id, .registry (.register nodeId))

def FulfillsWith (payload : List UInt8) (err : Option ServiceError) (id : ThreadId)
    (τ : ProxyBeat) : Prop :=
  τ.act = (id, .registry (.fulfill payload err))

def Prompts (id : ThreadId) (prompt : List UInt8) (τ : ProxyBeat) : Prop :=
  ∃ request apiReq, τ.act = (id, .serve request) ∧ request.body = .ok apiReq ∧
    apiReq.prompt = prompt

def WritesPayload (id : ThreadId) (payload : List UInt8) (τ : ProxyBeat) : Prop :=
  τ.act.1 = id ∧ ∃ h h', τ.before.threads id = .handler h ∧ τ.after.threads id = .handler h' ∧
    h'.w = h.w ++ [.payload payload]

def StoresL0 (id : ThreadId) (key payload : List UInt8) (τ : ProxyBeat) : Prop :=
  τ.act.1 = id ∧ (∃ call w apiReq source,
    τ.before.threads id = .handler ⟨call,w,.caching apiReq source payload⟩) ∧
    τ.after.shared.l0Cache = Function.update τ.before.shared.l0Cache key (some payload)

/-- The steps of `id` leave the L0 cache and the queue alone. -/
def KeepsStores (id : ThreadId) (es : List ProxyBeat) : Prop :=
  ∀ σ ∈ es, σ.act.1 = id → σ.after.shared.l0Cache = σ.before.shared.l0Cache ∧
    σ.after.shared.queue = σ.before.shared.queue

variable {sha256 : List UInt8 → List UInt8} {es : List ProxyBeat} {pool : ProxyPool}
  {τ : ProxyBeat} {id : ThreadId} {payload key : List UInt8}

variable (sha256) in
/-- An entry was put under its key by a request with a prompt of that hash, after the
payload had been written to that request's client. -/
def Origin (es : List ProxyBeat) (key payload : List UInt8) : Prop :=
  ∃ id prompt es₁ τ es₂, es = es₁ ++ τ :: es₂ ∧ sha256 prompt = key ∧ StoresL0 id key payload τ ∧
    Happened (Prompts id prompt) es₁ ∧ Happened (WritesPayload id payload) es₁

theorem FromLLM.mono (h : FromLLM es payload) (fs : List ProxyBeat) : FromLLM (es ++ fs) payload :=
  h.imp fun _ h => h.mono fs

theorem Origin.mono (h : Origin sha256 es key payload) (fs : List ProxyBeat) :
    Origin sha256 (es ++ fs) key payload := by
  obtain ⟨id,prompt,es₁,τ,es₂,rfl,h⟩ := h
  exact ⟨id,prompt,es₁,τ,es₂ ++ fs,by simp,h⟩

theorem KeepsStores.snoc (h : KeepsStores id es)
    (hτ : τ.act.1 = id → τ.after.shared.l0Cache = τ.before.shared.l0Cache ∧
      τ.after.shared.queue = τ.before.shared.queue) : KeepsStores id (es ++ [τ]) := by
  intro σ hσ hid
  rcases List.mem_append.mp hσ with hσ | hσ
  · exact h σ hσ hid
  · obtain rfl := List.mem_singleton.mp hσ
    exact hτ hid

theorem not_failed_snoc (h : ¬ Happened (LLMFailed id) es)
    (hτ : ∀ newRequest res, τ.act ≠ (id, .llm newRequest res)) :
    ¬ Happened (LLMFailed id) (es ++ [τ]) := by
  rw [happened_snoc]
  rintro (hes | ⟨newRequest,res,hact,-⟩)
  · exact h hes
  · exact hτ newRequest res hact

structure Sourced (sha256 : List UInt8 → List UInt8) (es : List ProxyBeat) (g : Proxy) : Prop where
  l0Cache : ∀ key payload, g.l0Cache key = some payload →
    FromLLM es payload ∧ Origin sha256 es key payload
  queue : ∀ job ∈ g.queue, FromLLM es job.payload
  registered : ∀ id nodeId, Happened (RegistersAt nodeId id) es →
    ∃ m, Happened (Missed m id) es ∧ Int32.ofInt m = nodeId
  fulfilled : ∀ id payload err, Happened (FulfillsWith payload err id) es →
    (err = none → FromLLM es payload) ∧ (err ≠ none → Happened (LLMFailed id) es)

def BodySource.Traced (es : List ProxyBeat) (id : ThreadId) (payload : List UInt8) :
    BodySource → Prop
  | .hit => Happened (HitAnswered id payload) es
  | _ => FromLLM es payload

def HandlerPhase.Traced (es : List ProxyBeat) (id : ThreadId) : HandlerPhase → Prop
  | .accepting => KeepsStores id es ∧ ¬ Happened (LLMFailed id) es
  | .readingL0 apiReq | .asking apiReq | .awaiting apiReq _ | .forwarding apiReq _ =>
    Happened (Prompts id apiReq.prompt) es ∧ KeepsStores id es ∧ ¬ Happened (LLMFailed id) es
  | .registering apiReq nodeId => Happened (Prompts id apiReq.prompt) es ∧ KeepsStores id es ∧
    ¬ Happened (LLMFailed id) es ∧ ∃ m, Happened (Missed m id) es ∧ Int32.ofInt m = nodeId
  | .writing apiReq source payload => Happened (Prompts id apiReq.prompt) es ∧
    ¬ Happened (LLMFailed id) es ∧ source.Traced es id payload
  | .caching apiReq _ payload => Happened (Prompts id apiReq.prompt) es ∧
    ¬ Happened (LLMFailed id) es ∧ FromLLM es payload ∧ Happened (WritesPayload id payload) es
  | .enqueueing _ _ payload => ¬ Happened (LLMFailed id) es ∧ FromLLM es payload
  | .deferred payload err => (Happened (LLMFailed id) es → KeepsStores id es) ∧
    (err = none → FromLLM es payload) ∧ (err ≠ none → Happened (LLMFailed id) es)
  | .finishing => Happened (LLMFailed id) es → KeepsStores id es

def ProxyThread.Traced (es : List ProxyBeat) (id : ThreadId) : ProxyThread → Prop
  | .handler h => h.phase.Traced es id ∧ ∀ payload, .payload payload ∈ h.w →
    FromLLM es payload ∨ Happened (HitAnswered id payload) es
  | _ => ¬ Happened (LLMFailed id) es

section Frames

theorem BodySource.Traced.mono {source : BodySource} (h : source.Traced es id payload)
    (fs : List ProxyBeat) : source.Traced (es ++ fs) id payload := by
  cases source with
  | hit => exact Happened.mono h fs
  | l0 | llm | herd => exact FromLLM.mono h fs

theorem HandlerPhase.Traced.frame {phase : HandlerPhase} (h : phase.Traced es id)
    (hτ : τ.act.1 ≠ id) : phase.Traced (es ++ [τ]) id := by
  have hkeeps : KeepsStores id es → KeepsStores id (es ++ [τ]) := fun h =>
    h.snoc fun hid => absurd hid hτ
  have hfailed : ¬ Happened (LLMFailed id) es → ¬ Happened (LLMFailed id) (es ++ [τ]) := fun h =>
    not_failed_snoc h fun _ _ hact => hτ (congrArg Prod.fst hact)
  have hold : (Happened (LLMFailed id) es → KeepsStores id es) →
      Happened (LLMFailed id) (es ++ [τ]) → KeepsStores id (es ++ [τ]) := by
    intro h hfail
    by_contra hne
    exact hfailed (fun hes => hne (hkeeps (h hes))) hfail
  cases phase with
  | accepting => exact ⟨hkeeps h.1,hfailed h.2⟩
  | readingL0 | asking | awaiting | forwarding =>
    exact ⟨h.1.mono [τ],hkeeps h.2.1,hfailed h.2.2⟩
  | registering =>
    exact ⟨h.1.mono [τ],hkeeps h.2.1,hfailed h.2.2.1,
      h.2.2.2.imp fun _ h => ⟨h.1.mono [τ],h.2⟩⟩
  | writing => exact ⟨h.1.mono [τ],hfailed h.2.1,h.2.2.mono [τ]⟩
  | caching => exact ⟨h.1.mono [τ],hfailed h.2.1,h.2.2.1.mono [τ],h.2.2.2.mono [τ]⟩
  | enqueueing => exact ⟨hfailed h.1,h.2.mono [τ]⟩
  | deferred =>
    exact ⟨hold h.1,fun herr => (h.2.1 herr).mono [τ],fun herr => (h.2.2 herr).mono [τ]⟩
  | finishing => exact hold h

theorem ProxyThread.traced_iff {c : ProxyThread} (hc : ∀ x, c ≠ .handler x) :
    c.Traced es id ↔ ¬ Happened (LLMFailed id) es := by
  cases c with
  | handler x => exact absurd rfl (hc x)
  | worker | fastcache => exact Iff.rfl

theorem ProxyThread.Traced.frame {c : ProxyThread} (h : c.Traced es id) (hτ : τ.act.1 ≠ id) :
    c.Traced (es ++ [τ]) id := by
  cases c with
  | handler x =>
    exact ⟨h.1.frame hτ,fun payload hw => (h.2 payload hw).imp (fun h => h.mono [τ])
      fun h => h.mono [τ]⟩
  | worker | fastcache => exact not_failed_snoc h fun _ _ hact => hτ (congrArg Prod.fst hact)

end Frames

section Steps
variable {u v : ProxyPool} {act : ProxyAction} {x y : Handler}

theorem not_failed_of_act (u v : ProxyPool) (act : ProxyAction) (h : ¬ Happened (LLMFailed id) es)
    (hact : ∀ newRequest res, act ≠ .llm newRequest res) :
    ¬ Happened (LLMFailed id) (es ++ [⟨u,(id, act),v⟩]) :=
  not_failed_snoc h fun newRequest res heq => hact newRequest res (congrArg Prod.snd heq)

theorem HandlerStep.traced (h : HandlerStep sha256 u.shared x act v.shared y)
    (hx : u.threads id = .handler x) (hy : v.threads id = .handler y)
    (hG : Sourced sha256 es u.shared) (hl : x.phase.Traced es id)
    (hherd : ∀ n result, x.call = .returned n result → result.found = true →
      result.selfCancelled = false → result.pioneerErr = none → FromLLM es result.payload) :
    y.phase.Traced (es ++ [⟨u,(id, act),v⟩]) id := by
  generalize hg : u.shared = g at h hG
  generalize hg' : v.shared = g' at h
  have hkeeps : KeepsStores id es → g'.l0Cache = g.l0Cache → g'.queue = g.queue →
      KeepsStores id (es ++ [⟨u,(id, act),v⟩]) := by
    intro hes hl0 hqueue
    exact hes.snoc fun _ => ⟨by rw [hg, hg']; exact hl0,by rw [hg, hg']; exact hqueue⟩
  cases h with
  | @serve call w request =>
    have hfailed := not_failed_of_act u v (.serve request) hl.2 (by simp)
    have hspare := hkeeps hl.1 rfl rfl
    rcases serve_cases request with ⟨text,status,heq⟩ | ⟨apiReq,hbody,heq⟩
    · simp only [heq]
      exact fun _ => hspare
    · simp only [heq]
      exact ⟨happened_last es ⟨request,apiReq,rfl,hbody,rfl⟩,hspare,hfailed⟩
  | @queryL0 call w apiReq =>
    have hfailed := not_failed_of_act u v .proceed hl.2.2 (by simp)
    have hspare := hkeeps hl.2.1 rfl rfl
    rcases queryL0_cases sha256 g.l0Cache apiReq with ⟨payload,hfound,heq⟩ | heq | heq
    · simp only [heq]
      exact ⟨hl.1.mono _,hfailed,(hG.l0Cache _ _ hfound).1.mono _⟩
    · simp only [heq]
      exact ⟨hl.1.mono _,hspare,hfailed⟩
    · simp only [heq]
      exact ⟨hl.1.mono _,hspare,hfailed⟩
  | @answer call w apiReq result =>
    have hfailed := not_failed_of_act u v (.answer result) hl.2.2 (by simp)
    have hspare := hkeeps hl.2.1 rfl rfl
    rcases dispatch_cases apiReq result with ⟨branch,heq,-⟩ | ⟨nodeId,payload,rfl,heq⟩ |
      ⟨nodeId,payload,rfl,heq⟩ | ⟨nodeId,payload,-,heq⟩
    · simp only [heq]
      exact ⟨hl.1.mono _,hspare,hfailed⟩
    · simp only [heq]
      exact ⟨hl.1.mono _,hfailed,happened_last es ⟨nodeId,rfl⟩⟩
    · simp only [heq]
      exact ⟨hl.1.mono _,hspare,hfailed,nodeId,happened_last es ⟨payload,rfl⟩,rfl⟩
    · simp only [heq]
      exact ⟨hl.1.mono _,hspare,hfailed⟩
  | @registry call call' w phase phase' a r' hphase h =>
    have hact : ∀ newRequest res, ProxyAction.registry a ≠ .llm newRequest res := by simp
    cases hphase with
    | pioneerRegister =>
      exact ⟨hl.1.mono _,hkeeps hl.2.1 rfl rfl,not_failed_of_act u v _ hl.2.2.1 hact⟩
    | herdAwait | herdProceed | herdCancel =>
      exact ⟨hl.1.mono _,hkeeps hl.2.1 rfl rfl,not_failed_of_act u v _ hl.2.2 hact⟩
    | pioneerFulfill =>
      intro hfail
      by_cases hes : Happened (LLMFailed id) es
      · exact hkeeps (hl.1 hes) rfl rfl
      · exact absurd hfail (not_failed_of_act u v _ hes hact)
    | fulfillProceed =>
      intro hfail
      by_cases hes : Happened (LLMFailed id) es
      · exact hkeeps (hl hes) rfl rfl
      · exact absurd hfail (not_failed_of_act u v _ hes hact)
  | @herdReturned w apiReq nodeId n result =>
    have hfailed := not_failed_of_act u v .proceed hl.2.2 (by simp)
    have hspare := hkeeps hl.2.1 rfl rfl
    rcases herdReturned_cases apiReq nodeId result with ⟨-,heq⟩ | ⟨-,-,heq⟩ |
      ⟨hself,hfound,⟨-,heq⟩ | ⟨herr,heq⟩⟩
    · simp only [heq]
      exact fun _ => hspare
    · simp only [heq]
      exact ⟨hl.1.mono _,hspare,hfailed⟩
    · simp only [heq]
      exact ⟨hl.1.mono _,hspare,hfailed⟩
    · simp only [heq]
      exact ⟨hl.1.mono _,hfailed,(hherd n result rfl hfound hself herr).mono _⟩
  | @llm call w apiReq branch newRequest res =>
    have hspare := hkeeps hl.2.1 rfl rfl
    rcases llmReturned_cases apiReq branch (forwardToLLM newRequest res) with
      ⟨herr,heq⟩ | ⟨err,text,status,herr,heq⟩
    · have hpayload : forwardToLLM newRequest res = ((forwardToLLM newRequest res).1, none) :=
        Prod.ext rfl herr
      simp only [heq]
      refine ⟨hl.1.mono _,?_,id,happened_last es ⟨newRequest,res,rfl,hpayload⟩⟩
      rw [happened_snoc]
      rintro (hes | ⟨newRequest',res',hact,hne⟩)
      · exact hl.2.2 hes
      · injection hact with _ hact
        injection hact with hnew hres
        subst hnew hres
        exact hne herr
    · simp only [heq]
      rcases branch.leave_cases (forwardToLLM newRequest res).1 (some err) with hleave | hleave
      · rw [hleave]
        exact fun _ => hspare
      · rw [hleave]
        exact ⟨fun _ => hspare,by simp,fun _ =>
          happened_last es ⟨newRequest,res,rfl,by rw [herr]; simp⟩⟩
  | @writePayload call w apiReq source payload =>
    have hfailed := not_failed_of_act u v .proceed hl.2.1 (by simp)
    have hwrites : WritesPayload id payload ⟨u,(id, .proceed),v⟩ := ⟨rfl,_,_,hx,hy,rfl⟩
    cases source with
    | l0 | hit => exact fun hfail => absurd hfail hfailed
    | llm | herd => exact ⟨hl.1.mono _,hfailed,FromLLM.mono hl.2.2 _,happened_last es hwrites⟩
  | @trySetL0 call w apiReq source payload =>
    have hfailed := not_failed_of_act u v .proceed hl.2.1 (by simp)
    rcases afterCache_cases payload source with heq | ⟨branch,nodeId,heq⟩
    · simp only [heq]
      exact fun hfail => absurd hfail hfailed
    · simp only [heq]
      exact ⟨hfailed,hl.2.2.1.mono _⟩
  | @tryEnqueue call w branch nodeId payload =>
    have hfailed := not_failed_of_act u v .proceed hl.1 (by simp)
    rcases branch.leave_cases payload none with hleave | hleave
    · simp only [hleave]
      exact fun hfail => absurd hfail hfailed
    · simp only [hleave]
      exact ⟨fun hfail => absurd hfail hfailed,fun _ => hl.2.mono _,fun herr => absurd rfl herr⟩

theorem HandlerStep.written (h : HandlerStep sha256 u.shared x act v.shared y)
    (hl : x.phase.Traced es id)
    (hw : ∀ payload, .payload payload ∈ x.w →
      FromLLM es payload ∨ Happened (HitAnswered id payload) es) :
    ∀ payload, .payload payload ∈ y.w →
      FromLLM es payload ∨ Happened (HitAnswered id payload) es := by
  generalize u.shared = g at h
  generalize v.shared = g' at h
  intro payload hmem
  cases h with
  | @serve call w request =>
    rcases List.mem_append.mp hmem with hmem | hmem
    · exact hw payload hmem
    · rcases serve_cases request with ⟨text,status,heq⟩ | ⟨apiReq,-,heq⟩ <;> simp [heq] at hmem
  | @llm call w apiReq branch newRequest res =>
    rcases List.mem_append.mp hmem with hmem | hmem
    · exact hw payload hmem
    · rcases llmReturned_cases apiReq branch (forwardToLLM newRequest res) with
        ⟨-,heq⟩ | ⟨err,text,status,-,heq⟩ <;> simp [heq] at hmem
  | @writePayload call w apiReq source bytes =>
    rcases List.mem_append.mp hmem with hmem | hmem
    · exact hw payload hmem
    · obtain rfl : payload = bytes := by simpa using hmem
      cases source with
      | hit => exact .inr hl.2.2
      | l0 | llm | herd => exact .inl hl.2.2
  | queryL0 | answer | registry | herdReturned | trySetL0 | tryEnqueue => exact hw payload hmem

theorem ProxyStep.sourced {c c' : ProxyThread} (h : ProxyStep sha256 u.shared c act v.shared c')
    (hc : u.threads id = c) (hG : Sourced sha256 es u.shared) (hl : c.Traced es id) :
    Sourced sha256 (es ++ [⟨u,(id, act),v⟩]) v.shared := by
  refine ⟨?_,?_,?_,?_⟩
  · intro key payload hfound
    have hold : u.shared.l0Cache key = some payload →
        FromLLM (es ++ [⟨u,(id, act),v⟩]) payload ∧
          Origin sha256 (es ++ [⟨u,(id, act),v⟩]) key payload := fun h =>
      ⟨(hG.l0Cache key payload h).1.mono _,(hG.l0Cache key payload h).2.mono _⟩
    rcases h.l0Cache_cases with heq | ⟨k,heq⟩ | ⟨call,w,apiReq,source,bytes,rfl,heq⟩
    · exact hold (by rw [← heq, hfound])
    · rw [heq] at hfound
      by_cases hk : key = k
      · subst hk
        simp at hfound
      · rw [Function.update_of_ne hk] at hfound
        exact hold hfound
    · rw [heq] at hfound
      by_cases hk : key = sha256 apiReq.prompt
      · subst hk
        rw [Function.update_self] at hfound
        obtain rfl := Option.some.inj hfound
        obtain ⟨hasks,-,hllm,hwrites⟩ := hl.1
        exact ⟨hllm.mono _,id,apiReq.prompt,es,_,[],rfl,rfl,
          ⟨rfl,⟨call,w,apiReq,source,hc⟩,heq⟩,hasks,hwrites⟩
      · rw [Function.update_of_ne hk] at hfound
        exact hold hfound
  · intro job hjob
    rcases h.queue_cases with heq | ⟨first,heq⟩ | ⟨call,w,branch,nodeId,bytes,rfl,heq⟩
    · exact (hG.queue job (by rwa [heq] at hjob)).mono _
    · exact (hG.queue job (by rw [heq]; exact List.mem_cons_of_mem _ hjob)).mono _
    · rw [heq] at hjob
      rcases List.mem_append.mp hjob with hjob | hjob
      · exact (hG.queue job hjob).mono _
      · obtain rfl := List.mem_singleton.mp hjob
        exact hl.1.2.mono _
  · intro j nodeId hreg
    have hold : (∃ m, Happened (Missed m j) es ∧ Int32.ofInt m = nodeId) →
        ∃ m, Happened (Missed m j) (es ++ [⟨u,(id, act),v⟩]) ∧ Int32.ofInt m = nodeId :=
      fun h => h.imp fun _ h => ⟨h.1.mono _,h.2⟩
    rcases happened_snoc.mp hreg with hreg | hact
    · exact hold (hG.registered j nodeId hreg)
    · obtain ⟨rfl,rfl⟩ := Prod.mk.inj hact
      obtain ⟨call,w,apiReq,rfl⟩ := h.register_eq
      exact hold hl.1.2.2.2
  · intro j payload err hful
    rcases happened_snoc.mp hful with hful | hact
    · obtain ⟨hnone,hsome⟩ := hG.fulfilled j payload err hful
      exact ⟨fun herr => (hnone herr).mono _,fun herr => (hsome herr).mono _⟩
    · obtain ⟨rfl,rfl⟩ := Prod.mk.inj hact
      obtain ⟨call,w,rfl⟩ := h.fulfill_eq
      exact ⟨fun herr => (hl.1.2.1 herr).mono _,fun herr => (hl.1.2.2 herr).mono _⟩

end Steps

section Runs

theorem Sourced.of_fulfilled (hG : Sourced sha256 es pool.shared) {n : Int32} {p : ℕ} {j : ThreadId}
    {err : Option ServiceError} (h : Happened (Fulfills j n p payload err) (registryBeats es)) :
    (err = none → FromLLM es payload) ∧ (err ≠ none → Happened (LLMFailed j) es) :=
  hG.fulfilled j payload err (happened_registryAct (h.imp fun _ hσ => ⟨hσ.1,hσ.2.1⟩))

/-- What a herd member is woken with is an LLM payload, or an LLM call has failed. -/
theorem source_of_returned (hrun : ProxyRun sha256 es pool) (hG : Sourced sha256 es pool.shared)
    {n : Int32} {result : HerdResult ServiceError}
    (hcall : callOf (pool.threads id) = .returned n result) (hfound : result.found = true)
    (hself : result.selfCancelled = false) :
    (result.pioneerErr = none → FromLLM es result.payload) ∧
      (result.pioneerErr ≠ none → ∃ j, Happened (LLMFailed j) es) := by
  have hsound := (registry_invariant (registry_run hrun)).2 id
  have hcall' : (callers pool).threads id = .returned n result := hcall
  rw [hcall'] at hsound
  obtain ⟨p,j,-,hpub⟩ := hsound hfound hself
  obtain ⟨hnone,hsome⟩ := hG.of_fulfilled hpub.fulfilled
  exact ⟨hnone,fun herr => ⟨j,hsome herr⟩⟩

/-- In every run the shared state is sourced and every thread is traced. -/
theorem proxy_invariant (hrun : ProxyRun sha256 es pool) :
    Sourced sha256 es pool.shared ∧ ∀ id, (pool.threads id).Traced es id := by
  refine hrun.historyInvariant_of_run (P := fun _ => True) (I := fun es u =>
    Sourced sha256 es u.shared ∧ ∀ id, (u.threads id).Traced es id) ?_ (fun _ _ => trivial) ?_
  · rintro es ⟨u,⟨id,act⟩,v⟩ hbefore hmove _ ⟨hG,hJ⟩
    refine ⟨hmove.own.sourced rfl hG (hJ id),fun j => ?_⟩
    by_cases hj : j = id
    · subst hj
      have hl := hJ j
      rcases hmove.own.handler_cases with ⟨x,y,hx,hy,hstep⟩ | ⟨hx,hy,hllm⟩
      · simp only at hx hy
        rw [hx] at hl
        rw [hy]
        refine ⟨hstep.traced hx hy hG hl.1 ?_,fun payload hmem => ?_⟩
        · intro n result hcall hfound hself
          exact (source_of_returned hbefore hG (by rw [hx]; exact hcall) hfound hself).1
        · exact (hstep.written hl.1 hl.2 payload hmem).imp (fun h => h.mono _) fun h => h.mono _
      · rw [ProxyThread.traced_iff hx] at hl
        rw [ProxyThread.traced_iff hy]
        exact not_failed_of_act u v act hl hllm
    · rw [hmove.others j hj]
      exact (hJ j).frame (Ne.symm hj)
  · refine ⟨⟨by simp [startProxy],by simp [startProxy],fun _ _ h => absurd h not_happened_nil,
      fun _ _ _ h => absurd h not_happened_nil⟩,?_⟩
    intro id
    cases id with
    | request i => exact ⟨⟨by simp [KeepsStores],not_happened_nil⟩,by simp⟩
    | worker | fastcache => exact not_happened_nil

theorem keepsStores_of_failed (hrun : ProxyRun sha256 es pool) (h : Happened (LLMFailed id) es) :
    KeepsStores id es := by
  have hl := (proxy_invariant hrun).2 id
  cases hthread : pool.threads id with
  | worker | fastcache =>
    rw [hthread] at hl
    exact absurd h hl
  | handler x =>
    rw [hthread] at hl
    obtain ⟨call,w,phase⟩ := x
    have hphase : phase.Traced es id := hl.1
    cases phase with
    | accepting => exact hphase.1
    | readingL0 | asking | registering | awaiting | forwarding => exact hphase.2.1
    | writing | caching => exact absurd h hphase.2.1
    | enqueueing => exact absurd h hphase.1
    | deferred => exact hphase.1 h
    | finishing => exact hphase h

/-- Everything the gateway stores or serves comes from a successful LLM call or is the
engine's answer to that same request. -/
theorem provenance (hinj : Function.Injective sha256) (hrun : ProxyRun sha256 es pool) :
    (∀ key payload, pool.shared.l0Cache key = some payload → FromLLM es payload) ∧
    (∀ job ∈ pool.shared.queue, FromLLM es job.payload) ∧
    (∀ p payload, pool.shared.registry.promises p = ⟨payload,none,true⟩ → FromLLM es payload) ∧
    (∀ id, Happened (LLMFailed id) es → KeepsStores id es) ∧
    (∀ id h payload, pool.threads id = .handler h → .payload payload ∈ h.w →
      FromLLM es payload ∨ Happened (HitAnswered id payload) es) ∧
    ∀ prompt payload, pool.shared.l0Cache (sha256 prompt) = some payload →
      ∃ id es₁ τ es₂, es = es₁ ++ τ :: es₂ ∧ StoresL0 id (sha256 prompt) payload τ ∧
        Happened (Prompts id prompt) es₁ ∧ Happened (WritesPayload id payload) es₁ := by
  obtain ⟨hG,hJ⟩ := proxy_invariant hrun
  refine ⟨fun key payload h => (hG.l0Cache key payload h).1,hG.queue,?_,
    fun _ h => keepsStores_of_failed hrun h,?_,?_⟩
  · intro p payload hp
    obtain ⟨j,n,hpub⟩ := (registry_invariant (registry_run hrun)).1.ready p
      (by rw [callers, hp])
    rw [callers, hp] at hpub
    exact (hG.of_fulfilled hpub.fulfilled).1 rfl
  · intro id h payload hthread hmem
    have hl := hJ id
    rw [hthread] at hl
    exact hl.2 payload hmem
  · intro prompt payload hfound
    obtain ⟨id,prompt',es₁,τ,es₂,heq,hkey,hstores,hasks,hwrites⟩ := (hG.l0Cache _ _ hfound).2
    obtain rfl := hinj hkey
    exact ⟨id,es₁,τ,es₂,heq,hstores,hasks,hwrites⟩

end Runs

section Replay
variable {g : Proxy}

variable (sha256) in
theorem solo_ask (apiReq : CheckCacheAPIRequest) (hmiss : g.l0Cache (sha256 apiReq.prompt) = none)
    (hshort : apiReq.prompt.length ≤ maxPromptLen) :
    Run (Solo (ProxyStep sha256)) (g, .handler ⟨.idle,[],.accepting⟩)
      [⟨(g, .handler ⟨.idle,[],.accepting⟩),.serve ⟨"POST",.ok apiReq⟩,
        (g, .handler ⟨.idle,[],.readingL0 apiReq⟩)⟩,
        ⟨(g, .handler ⟨.idle,[],.readingL0 apiReq⟩),.proceed,
          (g, .handler ⟨.idle,[],.asking apiReq⟩)⟩]
      (g, .handler ⟨.idle,[],.asking apiReq⟩) := by
  have hserve : Solo (ProxyStep sha256) (g, .handler ⟨.idle,[],.accepting⟩)
      (.serve ⟨"POST",.ok apiReq⟩) (g, .handler ⟨.idle,[],.readingL0 apiReq⟩) := .handler .serve
  have hquery : queryL0 sha256 g.l0Cache apiReq = .asking apiReq := by
    simp only [queryL0, hmiss, Option.getD_none, ne_eq, not_true_eq_false, if_false,
      if_neg (not_lt_of_ge hshort)]
  have hask : Solo (ProxyStep sha256) (g, .handler ⟨.idle,[],.readingL0 apiReq⟩) .proceed
      (g, .handler ⟨.idle,[],.asking apiReq⟩) := by
    rw [← hquery]
    exact .handler .queryL0
  exact (Run.single hserve).snoc hask

variable (sha256) in
/-- A pioneer with nobody in between: it calls the LLM, writes, caches and enqueues the
payload, and fulfills its promise. -/
theorem exists_soloPioneer (apiReq : CheckCacheAPIRequest) (n : Int32) (p : ℕ)
    (payload : List UInt8) (hopen : (g.registry.promises p).ready = false)
    (hsize : payload.length < maxL0PayloadSize) (hqueue : g.queue.length < jobQueueCap) :
    ∃ fs g', Run (Solo (ProxyStep sha256))
      (g, .handler ⟨.pioneer n p,[],.forwarding apiReq (.pioneer n)⟩) fs
      (g', .handler ⟨.fulfilled n p payload none,[.payload payload],.finishing⟩) ∧
    fs.map (fun τ => τ.act) = [.llm (.ok ()) (.ok ⟨200,.ok payload⟩), .proceed, .proceed, .proceed,
      .registry (.fulfill payload none), .registry .proceed, .registry .proceed,
      .registry .proceed, .registry .proceed] ∧
    g'.l0Cache = Function.update g.l0Cache (sha256 apiReq.prompt) (some payload) ∧
    g'.queue = g.queue ++ [⟨n,payload⟩] ∧
    g'.registry.lookUp = Function.update g.registry.lookUp n none ∧
    g'.registry.promises p = ⟨payload,none,true⟩ := by
  let r := g.registry
  let r₁ := r.setPromise p { r.promises p with payload := payload }
  let r₂ := r₁.setPromise p { r₁.promises p with err := none }
  let r₃ := r₂.setPromise p { r₂.promises p with ready := true }
  have hclose : r₂.pioneerFulfill n p payload none .close = some r₃ := by
    refine if_neg ?_
    simp [r₂, r₁, r, Registry.setPromise, hopen]
  let g₂ : Proxy := { g with l0Cache := trySetL0 g.l0Cache (sha256 apiReq.prompt) payload }
  let g₃ : Proxy := { g₂ with queue := tryEnqueue g.queue n payload }
  have hllm : Solo (ProxyStep sha256)
      (g, .handler ⟨.pioneer n p,[],.forwarding apiReq (.pioneer n)⟩)
      (.llm (.ok ()) (.ok ⟨200,.ok payload⟩))
      (g, .handler ⟨.pioneer n p,[],.writing apiReq (.llm (.pioneer n)) payload⟩) :=
    .handler .llm
  have hwrite : Solo (ProxyStep sha256)
      (g, .handler ⟨.pioneer n p,[],.writing apiReq (.llm (.pioneer n)) payload⟩) .proceed
      (g, .handler ⟨.pioneer n p,[.payload payload],
        .caching apiReq (.llm (.pioneer n)) payload⟩) := .handler .writePayload
  have hcache : Solo (ProxyStep sha256)
      (g, .handler ⟨.pioneer n p,[.payload payload],.caching apiReq (.llm (.pioneer n)) payload⟩)
      .proceed (g₂, .handler ⟨.pioneer n p,[.payload payload],
        .enqueueing (.pioneer n) n payload⟩) := .handler .trySetL0
  have henqueue : Solo (ProxyStep sha256)
      (g₂, .handler ⟨.pioneer n p,[.payload payload],.enqueueing (.pioneer n) n payload⟩) .proceed
      (g₃, .handler ⟨.pioneer n p,[.payload payload],.deferred payload none⟩) :=
    .handler .tryEnqueue
  have hfulfill : Solo (ProxyStep sha256)
      (g₃, .handler ⟨.pioneer n p,[.payload payload],.deferred payload none⟩)
      (.registry (.fulfill payload none))
      (g₃, .handler ⟨.fulfilling .setPayload n p payload none,[.payload payload],.finishing⟩) :=
    .handler (.registry .pioneerFulfill .fulfill)
  have hsetPayload : Solo (ProxyStep sha256)
      (g₃, .handler ⟨.fulfilling .setPayload n p payload none,[.payload payload],.finishing⟩)
      (.registry .proceed) ({ g₃ with registry := r₁ },
        .handler ⟨.fulfilling .setErr n p payload none,[.payload payload],.finishing⟩) :=
    .handler (.registry .fulfillProceed (.fulfilling rfl))
  have hsetErr : Solo (ProxyStep sha256) ({ g₃ with registry := r₁ },
        .handler ⟨.fulfilling .setErr n p payload none,[.payload payload],.finishing⟩)
      (.registry .proceed) ({ g₃ with registry := r₂ },
        .handler ⟨.fulfilling .close n p payload none,[.payload payload],.finishing⟩) :=
    .handler (.registry .fulfillProceed (.fulfilling rfl))
  have hclosed : Solo (ProxyStep sha256) ({ g₃ with registry := r₂ },
        .handler ⟨.fulfilling .close n p payload none,[.payload payload],.finishing⟩)
      (.registry .proceed) ({ g₃ with registry := r₃ },
        .handler ⟨.fulfilling .remove n p payload none,[.payload payload],.finishing⟩) :=
    .handler (.registry .fulfillProceed (.fulfilling hclose))
  have hremove : Solo (ProxyStep sha256) ({ g₃ with registry := r₃ },
        .handler ⟨.fulfilling .remove n p payload none,[.payload payload],.finishing⟩)
      (.registry .proceed)
      ({ g₃ with registry := { r₃ with shards := Striped.put getShard r₃.shards n none } },
        .handler ⟨.fulfilled n p payload none,[.payload payload],.finishing⟩) :=
    .handler (.registry .fulfillProceed (.fulfilling rfl))
  have hrun := ((((((((Run.single hllm).snoc hwrite).snoc hcache).snoc henqueue).snoc
    hfulfill).snoc hsetPayload).snoc hsetErr).snoc hclosed).snoc hremove
  refine ⟨_,_,hrun,rfl,if_pos hsize,if_pos hqueue,Striped.get_put,?_⟩
  simp [r₃, r₂, r₁, r, Registry.setPromise]

theorem exists_alone (id : ThreadId) {c c' : ProxyThread} {g' : Proxy}
    {fs : List (Transition (Proxy × ProxyThread) ProxyAction)} (hrun : ProxyRun sha256 es pool)
    (hc : pool.threads id = c)
    (hsolo : Run (Solo (ProxyStep sha256)) (pool.shared, c) fs (g', c')) : ∃ gs pool',
      ProxyRun sha256 (es ++ gs) pool' ∧ gs.map (fun τ => τ.act) = fs.map (fun τ => (id, τ.act)) ∧
      pool'.shared = g' ∧ pool'.threads = Function.update pool.threads id c' := by
  rw [← hc] at hsolo
  obtain ⟨gs,hgs,hacts⟩ := run_of_solo hsolo
  exact ⟨gs,_,hrun.append hgs,hacts,rfl,rfl⟩

/-- The SHA-256 digest of the byte 1. -/
def digestOfOne : List UInt8 :=
  [0x4b, 0xf5, 0x12, 0x2f, 0x34, 0x45, 0x54, 0xc5, 0x3b, 0xde, 0x2e, 0xbb, 0x8c, 0xd2, 0xb7, 0xe3,
    0xd1, 0x60, 0x0a, 0xd6, 0x31, 0xc3, 0x85, 0xa5, 0xd7, 0xcc, 0xe2, 0x3c, 0x77, 0x85, 0x45, 0x9a]

/-- One request is answered with the reservation of node 0, registers its promise and
calls the LLM; nobody else is there. -/
theorem exists_calling : ∃ (es : List ProxyBeat) (pool : ProxyPool),
    ProxyRun (Equiv.swap [1] digestOfOne) es pool ∧
      es.map (fun τ => τ.act) =
        [(.request 0, .serve ⟨"POST",.ok ⟨[1],[2]⟩⟩), (.request 0, .proceed),
          (.request 0, .answer (.ok ⟨.miss,0,[]⟩)), (.request 0, .registry (.register 0))] ∧
      pool.shared = ⟨((freshRegistry ServiceError).pioneerRegister 0).2,fun _ => none,[]⟩ ∧
      pool.threads = Function.update startProxy.threads (.request 0)
        (.handler ⟨.pioneer 0 0,[],.forwarding ⟨[1],[2]⟩ (.pioneer 0)⟩) := by
  have hstart : ProxyRun (Equiv.swap [1] digestOfOne) [] startProxy := .nil _
  obtain ⟨es₁,asking,hasking,hacts₁,hshared₁,hthreads₁⟩ := exists_alone (.request 0) hstart rfl
    (solo_ask (Equiv.swap [1] digestOfOne) ⟨[1],[2]⟩ rfl (by decide))
  have hcall₁ : asking.threads (.request 0) = .handler ⟨.idle,[],.asking ⟨[1],[2]⟩⟩ := by
    rw [hthreads₁, Function.update_self]
  have hanswer : Solo (ProxyStep (Equiv.swap [1] digestOfOne))
      (asking.shared, .handler ⟨.idle,[],.asking ⟨[1],[2]⟩⟩) (.answer (.ok ⟨.miss,0,[]⟩))
      (asking.shared, .handler ⟨.idle,[],.registering ⟨[1],[2]⟩ 0⟩) := .handler .answer
  obtain ⟨es₂,missed,hmissed,hacts₂,hshared₂,hthreads₂⟩ :=
    exists_alone (.request 0) hasking hcall₁ (Run.single hanswer)
  have hshared : missed.shared = startProxy.shared := hshared₂.trans hshared₁
  have hcall₂ : missed.threads (.request 0) = .handler ⟨.idle,[],.registering ⟨[1],[2]⟩ 0⟩ := by
    rw [hthreads₂, Function.update_self]
  have hregister : Solo (ProxyStep (Equiv.swap [1] digestOfOne))
      (missed.shared, .handler ⟨.idle,[],.registering ⟨[1],[2]⟩ 0⟩) (.registry (.register 0))
      ({ missed.shared with registry := (missed.shared.registry.pioneerRegister 0).2 },
        .handler ⟨.pioneer 0 missed.shared.registry.allocated,[],
          .forwarding ⟨[1],[2]⟩ (.pioneer 0)⟩) :=
    .handler (.registry .pioneerRegister .register)
  obtain ⟨es₃,calling,hcalling,hacts₃,hshared₃,hthreads₃⟩ :=
    exists_alone (.request 0) hmissed hcall₂ (Run.single hregister)
  rw [hshared] at hshared₃ hthreads₃
  refine ⟨_,calling,hcalling,?_,hshared₃,?_⟩
  · rw [List.map_append, List.map_append, List.nil_append, hacts₁, hacts₂, hacts₃]
    rfl
  · rw [hthreads₃, hthreads₂, hthreads₁, Function.update_idem, Function.update_idem]
    rfl

theorem provenance_replay : ∃ (es : List ProxyBeat) (pool : ProxyPool),
    ProxyRun (Equiv.swap [1] digestOfOne) es pool ∧ pool.shared.queue = [⟨0,[7]⟩] ∧
      pool.shared.registry.promises 0 = ⟨[7],none,true⟩ ∧ FromLLM es [7] ∧
      ∃ id es₁ τ es₂, es = es₁ ++ τ :: es₂ ∧ StoresL0 id digestOfOne [7] τ ∧
        Happened (Prompts id [1]) es₁ ∧ Happened (WritesPayload id [7]) es₁ := by
  obtain ⟨es₁,calling,hcalling,-,hshared,hthreads⟩ := exists_calling
  have hcall : calling.threads (.request 0) =
      .handler ⟨.pioneer 0 0,[],.forwarding ⟨[1],[2]⟩ (.pioneer 0)⟩ := by
    rw [hthreads, Function.update_self]
  obtain ⟨fs,g,hsolo,-,hl0,hqueue,-,hpromise⟩ := exists_soloPioneer (g := calling.shared)
    (Equiv.swap [1] digestOfOne) ⟨[1],[2]⟩ 0 0 [7] (by rw [hshared]; rfl) (by decide)
    (by rw [hshared]; decide)
  obtain ⟨es₂,pool,hrun,-,rfl,-⟩ := exists_alone (.request 0) hcalling hcall hsolo
  rw [hshared] at hl0 hqueue
  have hfound : pool.shared.l0Cache (Equiv.swap [1] digestOfOne [1]) = some [7] := by
    rw [hl0, Function.update_self]
  obtain ⟨hllm,-,-,-,-,horigin⟩ := provenance (Equiv.injective _) hrun
  have hswap : Equiv.swap [1] digestOfOne [1] = digestOfOne := Equiv.swap_apply_left _ _
  have hfrom := horigin [1] [7] hfound
  rw [hswap] at hfrom
  exact ⟨_,pool,hrun,hqueue,hpromise,hllm _ _ hfound,hfrom⟩

end Replay

end Strix
