import Strix.Gateway.Provenance

/-! # One reply for each request

A handler writes to its client once, on every path through its branches. Only a herd
member whose client has left writes nothing. An error it writes is about its own request:
the method, the body, or its own call of the LLM.
-/
namespace Strix
open RunHistory ThreadPool

def Caller.Herd {E : Type*} : Caller E → Prop
  | .idle | .waiting _ _ | .reading _ _ | .returned _ _ => True
  | _ => False

/-- What the handler's call of the registry is while it works on a branch. -/
def Branch.Fits (call : Caller ServiceError) : Branch → Prop
  | .pioneer _ => ∃ n p, call = .pioneer n p
  | .noPromise _ | .pioneerFailed _ => ∃ n result, call = .returned n result
  | _ => call = .idle

def BodySource.Fits (call : Caller ServiceError) : BodySource → Prop
  | .l0 | .hit => call = .idle
  | .herd => ∃ n result, call = .returned n result
  | .llm branch => branch.Fits call

def HandlerPhase.Fits (call : Caller ServiceError) : HandlerPhase → Prop
  | .accepting | .readingL0 _ | .asking _ | .registering _ _ => call = .idle
  | .awaiting _ _ => call.Herd
  | .forwarding _ branch | .enqueueing branch _ _ => branch.Fits call
  | .writing _ source _ | .caching _ source _ => source.Fits call
  | .deferred _ _ => ∃ n p, call = .pioneer n p
  | .finishing => (∀ n p, call ≠ .pioneer n p) ∧ (∀ n p, call ≠ .waiting n p) ∧
    ∀ n p, call ≠ .reading n p

/-- The client of a herd member has left. -/
def Caller.Abandoned (call : Caller ServiceError) : Prop :=
  ∃ n result, call = .returned n result ∧ result.selfCancelled = true

def HandlerPhase.Wrote (call : Caller ServiceError) (w : List HttpReply) : HandlerPhase → Prop
  | .caching _ _ _ | .enqueueing _ _ _ | .deferred _ _ => w.length = 1
  | .finishing => w.length = 1 ∨ (w = [] ∧ call.Abandoned)
  | _ => w = []

structure Handler.Regular (h : Handler) : Prop where
  fits : h.phase.Fits h.call
  wrote : h.phase.Wrote h.call h.w

variable {sha256 : List UInt8 → List UInt8} {g g' : Proxy} {x y : Handler} {act : ProxyAction}

section Steps

theorem Branch.Fits.leave {call : Caller ServiceError} {branch : Branch} (h : branch.Fits call)
    (payload : List UInt8) (err : Option ServiceError) : (branch.leave payload err).Fits call := by
  cases branch with
  | pioneer => exact h
  | noPromise | pioneerFailed =>
    obtain ⟨n,result,rfl⟩ := h
    exact ⟨by simp,by simp,by simp⟩
  | longPrompt | readError | noSlot | unexpectedState =>
    obtain rfl : call = .idle := h
    exact ⟨by simp,by simp,by simp⟩

theorem Branch.leave_wrote (branch : Branch) {call : Caller ServiceError} {w : List HttpReply}
    (payload : List UInt8) (err : Option ServiceError) (h : w.length = 1) :
    (branch.leave payload err).Wrote call w := by
  rcases branch.leave_cases payload err with heq | heq <;> rw [heq]
  · exact .inl h
  · exact h

theorem idle_finishes : HandlerPhase.finishing.Fits (.idle : Caller ServiceError) :=
  ⟨by simp,by simp,by simp⟩

theorem RegistryCall.regular {r r' : Registry ServiceError} {call call' : Caller ServiceError}
    {w : List HttpReply} {phase phase' : HandlerPhase} {a : CallerAction ServiceError}
    (hphase : RegistryCall phase a phase') (h : CallerStep r call a r' call')
    (hx : (⟨call,w,phase⟩ : Handler).Regular) : (⟨call',w,phase'⟩ : Handler).Regular := by
  obtain ⟨hfits,hwrote⟩ := hx
  cases hphase with
  | pioneerRegister =>
    cases h
    exact ⟨⟨_,_,rfl⟩,hwrote⟩
  | herdAwait =>
    cases h with
    | lookUp =>
      refine ⟨?_,hwrote⟩
      cases r.lookUp _ <;> exact trivial
  | herdProceed =>
    refine ⟨?_,hwrote⟩
    cases h with
    | wake | read => trivial
    | fulfilling => exact absurd hfits id
  | herdCancel =>
    cases h
    exact ⟨trivial,hwrote⟩
  | pioneerFulfill =>
    cases h
    exact ⟨⟨by simp,by simp,by simp⟩,.inl hwrote⟩
  | fulfillProceed =>
    cases h with
    | @fulfilling _ stage n p payload err h =>
      have hlength : w.length = 1 := by
        rcases hwrote with hw | ⟨-,m,result,hcall,-⟩
        · exact hw
        · cases hcall
      cases stage <;> exact ⟨⟨by simp [Caller.afterFulfill],by simp [Caller.afterFulfill],
        by simp [Caller.afterFulfill]⟩,.inl hlength⟩
    | wake => exact absurd rfl (hfits.2.1 _ _)
    | read => exact absurd rfl (hfits.2.2 _ _)

theorem HandlerStep.regular (h : HandlerStep sha256 g x act g' y) (hx : x.Regular) :
    y.Regular := by
  cases h with
  | @serve call w request =>
    obtain ⟨hfits,hwrote⟩ := hx
    obtain rfl : call = .idle := hfits
    obtain rfl : w = [] := hwrote
    rcases serve_cases request with ⟨text,status,heq⟩ | ⟨apiReq,-,heq⟩ <;> rw [heq]
    · exact ⟨idle_finishes,.inl rfl⟩
    · exact ⟨rfl,rfl⟩
  | @queryL0 call w apiReq =>
    obtain ⟨hfits,hwrote⟩ := hx
    rcases queryL0_cases sha256 g.l0Cache apiReq with ⟨payload,-,heq⟩ | heq | heq <;> rw [heq]
    · exact ⟨hfits,hwrote⟩
    · exact ⟨hfits,hwrote⟩
    · exact ⟨hfits,hwrote⟩
  | @answer call w apiReq result =>
    obtain ⟨hfits,hwrote⟩ := hx
    rcases dispatch_cases apiReq result with ⟨branch,heq,hbranch⟩ | ⟨nodeId,payload,-,heq⟩ |
      ⟨nodeId,payload,-,heq⟩ | ⟨nodeId,payload,-,heq⟩ <;> rw [heq]
    · rcases hbranch with rfl | rfl | rfl <;> exact ⟨hfits,hwrote⟩
    · exact ⟨hfits,hwrote⟩
    · exact ⟨hfits,hwrote⟩
    · obtain rfl : call = .idle := hfits
      exact ⟨trivial,hwrote⟩
  | registry hphase h => exact hphase.regular h hx
  | @herdReturned w apiReq nodeId n result =>
    obtain ⟨-,hwrote⟩ := hx
    rcases herdReturned_cases apiReq nodeId result with ⟨hself,heq⟩ | ⟨-,-,heq⟩ |
      ⟨-,-,⟨-,heq⟩ | ⟨-,heq⟩⟩ <;> rw [heq]
    · exact ⟨⟨by simp,by simp,by simp⟩,.inr ⟨hwrote,n,result,rfl,hself⟩⟩
    · exact ⟨⟨n,result,rfl⟩,hwrote⟩
    · exact ⟨⟨n,result,rfl⟩,hwrote⟩
    · exact ⟨⟨n,result,rfl⟩,hwrote⟩
  | @llm call w apiReq branch newRequest res =>
    obtain ⟨hfits,hwrote⟩ := hx
    obtain rfl : w = [] := hwrote
    rcases llmReturned_cases apiReq branch (forwardToLLM newRequest res) with
      ⟨-,heq⟩ | ⟨err,text,status,-,heq⟩ <;> rw [heq]
    · exact ⟨hfits,rfl⟩
    · exact ⟨Branch.Fits.leave hfits _ _,branch.leave_wrote _ _ rfl⟩
  | @writePayload call w apiReq source payload =>
    obtain ⟨hfits,hwrote⟩ := hx
    obtain rfl : w = [] := hwrote
    cases source with
    | l0 | hit =>
      obtain rfl : call = .idle := hfits
      exact ⟨idle_finishes,.inl rfl⟩
    | llm branch => exact ⟨hfits,rfl⟩
    | herd => exact ⟨hfits,rfl⟩
  | @trySetL0 call w apiReq source payload =>
    obtain ⟨hfits,hwrote⟩ := hx
    cases source with
    | l0 | hit =>
      obtain rfl : call = .idle := hfits
      exact ⟨idle_finishes,.inl hwrote⟩
    | herd =>
      obtain ⟨n,result,rfl⟩ := hfits
      exact ⟨⟨by simp,by simp,by simp⟩,.inl hwrote⟩
    | llm branch =>
      cases branch with
      | pioneer | noPromise | pioneerFailed => exact ⟨hfits,hwrote⟩
      | longPrompt | readError | noSlot | unexpectedState =>
        obtain rfl : call = .idle := hfits
        exact ⟨idle_finishes,.inl hwrote⟩
  | @tryEnqueue call w branch nodeId payload =>
    obtain ⟨hfits,hwrote⟩ := hx
    exact ⟨Branch.Fits.leave hfits _ _,branch.leave_wrote _ _ hwrote⟩

end Steps

section Histories
variable {es : List ProxyBeat} {pool : ProxyPool} {τ : ProxyBeat} {id : ThreadId} {text : String}
  {status : ℕ}

/-- The client of herd member `id` leaves, or its time runs out. -/
def Cancels (id : ThreadId) (τ : ProxyBeat) : Prop :=
  ∃ err, τ.act = (id, .registry (.cancel err))

def WrongMethod (id : ThreadId) (τ : ProxyBeat) : Prop :=
  ∃ request, τ.act = (id, .serve request) ∧ request.method ≠ "POST"

def BadBody (id : ThreadId) (τ : ProxyBeat) : Prop :=
  ∃ request what, τ.act = (id, .serve request) ∧ request.method = "POST" ∧
    request.body = .error what

inductive Excused (es : List ProxyBeat) (id : ThreadId) : String → ℕ → Prop
  | method (h : Happened (WrongMethod id) es) : Excused es id "Method Not Allowed" 405
  | body (h : Happened (BadBody id) es) : Excused es id "Bad Request" 400
  | llm (h : Happened (LLMFailed id) es) : Excused es id "Bad Gateway" 502

theorem Excused.mono (h : Excused es id text status) (fs : List ProxyBeat) :
    Excused (es ++ fs) id text status := by
  cases h with
  | method h => exact .method (h.mono fs)
  | body h => exact .body (h.mono fs)
  | llm h => exact .llm (h.mono fs)

/-- The errors a handler has written, and a client that has left, go back to its history. -/
structure Handler.Explained (es : List ProxyBeat) (id : ThreadId) (h : Handler) : Prop where
  errors : ∀ text status, .error text status ∈ h.w → Excused es id text status
  left : h.call.Abandoned → Happened (Cancels id) es

theorem Handler.Explained.mono {h : Handler} (hx : h.Explained es id) (fs : List ProxyBeat) :
    h.Explained (es ++ fs) id :=
  ⟨fun text status hmem => (hx.errors text status hmem).mono fs,fun h => (hx.left h).mono fs⟩

/-- The credentials error is none of `forwardToLLM`'s. -/
theorem forwardToLLM_error {newRequest : Except String Unit} {res : Except String LLMResponse}
    {err : ServiceError} (h : (forwardToLLM newRequest res).2 = some err) :
    handleLLMError err = .error "Bad Gateway" 502 := by
  have hother : ∃ message, err = .other message := by
    unfold forwardToLLM at h
    split at h
    · exact ⟨_,(Option.some.inj h).symm⟩
    · exact ⟨_,(Option.some.inj h).symm⟩
    · split at h
      · exact ⟨_,(Option.some.inj h).symm⟩
      · split at h
        · exact ⟨_,(Option.some.inj h).symm⟩
        · cases h
  obtain ⟨message,rfl⟩ := hother
  rfl

theorem serve_error {request : HttpRequest} (h : .error text status ∈ (serve request).1) :
    (text = "Method Not Allowed" ∧ status = 405 ∧ request.method ≠ "POST") ∨
      (text = "Bad Request" ∧ status = 400 ∧ request.method = "POST" ∧
        ∃ what, request.body = .error what) := by
  unfold serve at h
  split at h
  · next hmethod =>
    obtain ⟨rfl,rfl⟩ := HttpReply.error.inj (List.mem_singleton.mp h)
    exact .inl ⟨rfl,rfl,hmethod⟩
  · next hmethod =>
    split at h
    · next what hbody =>
      obtain ⟨rfl,rfl⟩ := HttpReply.error.inj (List.mem_singleton.mp h)
      exact .inr ⟨rfl,rfl,not_not.mp hmethod,what,hbody⟩
    · cases h

theorem CallerStep.abandoned {r r' : Registry ServiceError} {c c' : Caller ServiceError}
    {a : CallerAction ServiceError} (h : CallerStep r c a r' c') (hc : c'.Abandoned) :
    ∃ err, a = .cancel err := by
  obtain ⟨n,result,rfl,hself⟩ := hc
  generalize hend : Caller.returned n result = c' at h
  cases h with
  | register | fulfill | wake => cases hend
  | @fulfilling _ stage => cases stage <;> cases hend
  | @lookUp m =>
    cases hlook : r.lookUp m <;> rw [hlook] at hend <;> cases hend
    cases hself
  | cancel => exact ⟨_,rfl⟩
  | read =>
    cases hend
    cases hself

theorem HandlerStep.explained (h : HandlerStep sha256 g x act g' y) (hx : x.Explained es id)
    (u v : ProxyPool) : y.Explained (es ++ [⟨u,(id, act),v⟩]) id := by
  obtain ⟨herrors,hleft⟩ := hx.mono [⟨u,(id, act),v⟩]
  cases h with
  | @serve call w request =>
    refine ⟨fun text status hmem => ?_,hleft⟩
    rcases List.mem_append.mp hmem with hmem | hmem
    · exact herrors text status hmem
    · rcases serve_error hmem with ⟨rfl,rfl,hmethod⟩ | ⟨rfl,rfl,hmethod,what,hbody⟩
      · exact .method (happened_last es ⟨request,rfl,hmethod⟩)
      · exact .body (happened_last es ⟨request,what,rfl,hmethod,hbody⟩)
  | @llm call w apiReq branch newRequest res =>
    refine ⟨fun text status hmem => ?_,hleft⟩
    rcases List.mem_append.mp hmem with hmem | hmem
    · exact herrors text status hmem
    · generalize hout : forwardToLLM newRequest res = out at hmem
      obtain ⟨payload,_ | err⟩ := out
      · cases hmem
      · have herr : (forwardToLLM newRequest res).2 = some err := by rw [hout]
        obtain ⟨rfl,rfl⟩ := HttpReply.error.inj
          ((List.mem_singleton.mp hmem).trans (forwardToLLM_error herr))
        exact .llm (happened_last es ⟨newRequest,res,rfl,by simp [herr]⟩)
  | writePayload =>
    refine ⟨fun text status hmem => ?_,hleft⟩
    rcases List.mem_append.mp hmem with hmem | hmem
    · exact herrors text status hmem
    · cases List.mem_singleton.mp hmem
  | registry hphase h =>
    refine ⟨herrors,fun habandoned => ?_⟩
    obtain ⟨err,rfl⟩ := h.abandoned habandoned
    exact happened_last es ⟨err,rfl⟩
  | queryL0 | answer | herdReturned | trySetL0 | tryEnqueue => exact ⟨herrors,hleft⟩

/-- In every run every handler is regular and its errors are explained. -/
theorem handler_invariant (hrun : ProxyRun sha256 es pool) {h : Handler}
    (hthread : pool.threads id = .handler h) : h.Regular ∧ h.Explained es id := by
  refine hrun.historyInvariant (P := fun _ => True)
    (I := fun es u => ∀ id h, u.threads id = .handler h → h.Regular ∧ h.Explained es id)
    ?_ (fun _ _ => trivial) ?_ id h hthread
  · rintro es ⟨u,⟨j,act⟩,v⟩ hmove - ih id h hthread
    by_cases hj : id = j
    · subst hj
      have hown := hmove.own
      simp only at hown hthread
      rw [hthread] at hown
      rcases hown.handler_cases with ⟨x,y,hx,hy,hstep⟩ | ⟨-,hne,-⟩
      · obtain rfl := ProxyThread.handler.inj hy
        obtain ⟨hregular,hexplained⟩ := ih id x hx
        exact ⟨hstep.regular hregular,hstep.explained hexplained _ _⟩
      · exact absurd rfl (hne h)
    · have hsame := hmove.others id hj
      simp only at hsame hthread
      rw [hsame] at hthread
      obtain ⟨hregular,hexplained⟩ := ih id h hthread
      exact ⟨hregular,hexplained.mono _⟩
  · intro id h hthread
    cases id with
    | request i =>
      obtain rfl := ProxyThread.handler.inj hthread
      refine ⟨⟨rfl,rfl⟩,by simp,?_⟩
      rintro ⟨n,result,hcall,-⟩
      cases hcall
    | worker | fastcache => cases hthread

/-- A handler has returned: nothing of its own is left to do. -/
def Handler.Finished (h : Handler) : Prop :=
  h.phase = .finishing ∧ ∀ stage n p payload err, h.call ≠ .fulfilling stage n p payload err

/-- A handler never writes twice. When it has returned it has written exactly one reply,
unless the client of a herd member has left before. An error reply comes from the
request's own method, body or call of the LLM; no other error is ever written. -/
theorem one_reply (hrun : ProxyRun sha256 es pool) {h : Handler}
    (hthread : pool.threads id = .handler h) :
    h.w.length ≤ 1 ∧
    (h.Finished → h.w.length = 1 ∨ (h.w = [] ∧ Happened (Cancels id) es)) ∧
    ∀ text status, .error text status ∈ h.w → Excused es id text status := by
  obtain ⟨hregular,hexplained⟩ := handler_invariant hrun hthread
  refine ⟨?_,fun hdone => ?_,hexplained.errors⟩
  · have hwrote := hregular.wrote
    unfold HandlerPhase.Wrote at hwrote
    split at hwrote
    · exact hwrote.le
    · exact hwrote.le
    · exact hwrote.le
    · rcases hwrote with hlength | ⟨hnil,-⟩
      · exact hlength.le
      · simp [hnil]
    · simp [hwrote]
  · have hwrote := hregular.wrote
    rw [hdone.1] at hwrote
    exact hwrote.imp_right fun ⟨hnil,habandoned⟩ => ⟨hnil,hexplained.left habandoned⟩

end Histories

theorem exists_servedPioneer : ∃ (es : List ProxyBeat) (pool : ProxyPool),
    ProxyRun (Equiv.swap [1] digestOfOne) es pool ∧
      es.map (fun τ => τ.act.1) = List.replicate 13 (.request 0) ∧
      pool.threads = Function.update startProxy.threads (.request 0)
        (.handler ⟨.fulfilled 0 0 [7] none,[.payload [7]],.finishing⟩) := by
  obtain ⟨es,calling,hcalling,hacts,hshared,hthreads⟩ := exists_calling
  have hcall : calling.threads (.request 0) =
      .handler ⟨.pioneer 0 0,[],.forwarding ⟨[1],[2]⟩ (.pioneer 0)⟩ := by
    rw [hthreads, Function.update_self]
  obtain ⟨fs,g,hsolo,hfs,-⟩ := exists_soloPioneer (g := calling.shared)
    (Equiv.swap [1] digestOfOne) ⟨[1],[2]⟩ 0 0 [7] (by rw [hshared]; rfl) (by decide)
    (by rw [hshared]; decide)
  obtain ⟨gs,pool,hrun,hgs,-,hthreads'⟩ := exists_alone (.request 0) hcalling hcall hsolo
  refine ⟨es ++ gs,pool,hrun,?_,?_⟩
  · have hfirst := congrArg (List.map Prod.fst) (congrArg₂ HAppend.hAppend hacts hgs)
    have hlength : fs.length = 9 := by simpa using congrArg List.length hfs
    simpa [Function.comp_def, hlength, List.replicate_succ] using hfirst
  · rw [hthreads', hthreads, Function.update_idem]

/-- A pioneer and a request with the wrong method have one reply each. -/
theorem one_reply_replay : ∃ (es : List ProxyBeat) (pool : ProxyPool) (h h' : Handler),
    ProxyRun (Equiv.swap [1] digestOfOne) es pool ∧
      es.map (fun τ => τ.act.1) = List.replicate 13 (.request 0) ++ [.request 1] ∧
      pool.threads (.request 0) = .handler h ∧ h.Finished ∧ h.w = [.payload [7]] ∧
      (h.w.length = 1 ∨ (h.w = [] ∧ Happened (Cancels (.request 0)) es)) ∧
      pool.threads (.request 1) = .handler h' ∧ h'.Finished ∧
      h'.w = [.error "Method Not Allowed" 405] ∧
      Excused es (.request 1) "Method Not Allowed" 405 := by
  obtain ⟨es,served,hserved,hacts,hthreads⟩ := exists_servedPioneer
  have hserve : Solo (ProxyStep (Equiv.swap [1] digestOfOne))
      (served.shared, .handler ⟨.idle,[],.accepting⟩) (.serve ⟨"GET",.error ""⟩)
      (served.shared, .handler ⟨.idle,[.error "Method Not Allowed" 405],.finishing⟩) :=
    .handler .serve
  obtain ⟨gs,pool,hrun,hgs,-,hthreads'⟩ := exists_alone (.request 1) hserved
    (by rw [hthreads, Function.update_of_ne (by decide)]; rfl) (Run.single hserve)
  have hpioneer : pool.threads (.request 0) =
      .handler ⟨.fulfilled 0 0 [7] none,[.payload [7]],.finishing⟩ := by
    rw [hthreads', Function.update_of_ne (by decide), hthreads, Function.update_self]
  have hrefused : pool.threads (.request 1) =
      .handler ⟨.idle,[.error "Method Not Allowed" 405],.finishing⟩ := by
    rw [hthreads', Function.update_self]
  have hfinished : Handler.Finished ⟨.fulfilled 0 0 [7] none,[.payload [7]],.finishing⟩ :=
    ⟨rfl,by simp⟩
  refine ⟨_,pool,_,_,hrun,?_,hpioneer,hfinished,rfl,(one_reply hrun hpioneer).2.1 hfinished,
    hrefused,⟨rfl,by simp⟩,rfl,(one_reply hrun hrefused).2.2 _ _ (by simp)⟩
  have hfirst := congrArg (List.map Prod.fst) hgs
  simp only [List.map_map, Function.comp_def, List.map_cons, List.map_nil] at hfirst
  rw [List.map_append, hacts, hfirst]

end Strix
