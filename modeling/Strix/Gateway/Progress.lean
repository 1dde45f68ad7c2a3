import Strix.Foundation.StepBudget
import Strix.Gateway.Reply

/-! # Every request is served to its end

Each step of a handler lowers a rank, so no request takes more than a fixed number of
steps, whatever the others do. The only place where a handler waits is the channel of a
promise, and the pioneer that will close it never waits itself: whatever the environment
answers, the handlers cannot block each other.
-/
namespace Strix
open RunHistory ThreadPool

/-- What a pioneer still has to do behind its branch: the deferred call and its four steps. -/
def Branch.rank : Branch → ℕ
  | .pioneer _ => 5
  | _ => 0

def BodySource.rank : BodySource → ℕ
  | .llm branch => branch.rank
  | _ => 0

def FulfillStage.rank : FulfillStage → ℕ
  | .setPayload => 4
  | .setErr => 3
  | .close => 2
  | .remove => 1

def Caller.fulfillRank {E : Type*} : Caller E → ℕ
  | .fulfilling stage _ _ _ _ => stage.rank
  | _ => 0

def Caller.awaitRank {E : Type*} : Caller E → ℕ
  | .waiting _ _ => 3
  | .reading _ _ => 2
  | .returned _ _ => 1
  | _ => 4

def Handler.rank (h : Handler) : ℕ :=
  match h.phase with
  | .accepting => 13
  | .readingL0 _ => 12
  | .asking _ => 11
  | .registering _ _ => 10
  | .awaiting _ _ => 4 + h.call.awaitRank
  | .forwarding _ branch => 4 + branch.rank
  | .writing _ source _ => 3 + source.rank
  | .caching _ source _ => 2 + source.rank
  | .enqueueing branch _ _ => 1 + branch.rank
  | .deferred _ _ => 5
  | .finishing => h.call.fulfillRank

variable {sha256 : List UInt8 → List UInt8} {g g' : Proxy} {x y : Handler} {act : ProxyAction}

section Rank

theorem Branch.Fits.leave_rank {call : Caller ServiceError} {branch : Branch}
    (h : branch.Fits call) (w : List HttpReply) (payload : List UInt8)
    (err : Option ServiceError) :
    (⟨call,w,branch.leave payload err⟩ : Handler).rank ≤ branch.rank := by
  cases branch with
  | pioneer => exact le_rfl
  | noPromise | pioneerFailed =>
    obtain ⟨n,result,rfl⟩ := h
    exact le_rfl
  | longPrompt | readError | noSlot | unexpectedState =>
    obtain rfl : call = .idle := h
    exact le_rfl

theorem CallerStep.awaitRank_lt {r r' : Registry ServiceError} {c c' : Caller ServiceError}
    {a : CallerAction ServiceError} (h : CallerStep r c a r' c') (hc : c.Herd)
    (hregister : ∀ n, a ≠ .register n) : c'.awaitRank < c.awaitRank := by
  cases h with
  | register => exact absurd rfl (hregister _)
  | fulfill | fulfilling => exact absurd hc id
  | @lookUp n => cases r.lookUp n <;> simp [Caller.lookedUp, Caller.awaitRank]
  | wake | cancel | read => simp [Caller.awaitRank]

theorem HandlerStep.rank_lt (h : HandlerStep sha256 g x act g' y) (hx : x.Regular) :
    y.rank < x.rank := by
  cases h with
  | @serve call w request =>
    obtain rfl : call = .idle := hx.fits
    rcases serve_cases request with ⟨text,status,heq⟩ | ⟨apiReq,-,heq⟩ <;> rw [heq] <;>
      simp [Handler.rank, Caller.fulfillRank]
  | @queryL0 call w apiReq =>
    rcases queryL0_cases sha256 g.l0Cache apiReq with ⟨payload,-,heq⟩ | heq | heq <;> rw [heq] <;>
      simp [Handler.rank, BodySource.rank, Branch.rank]
  | @answer call w apiReq result =>
    obtain rfl : call = .idle := hx.fits
    rcases dispatch_cases apiReq result with ⟨branch,heq,rfl | rfl | rfl⟩ | ⟨nodeId,payload,-,heq⟩ |
      ⟨nodeId,payload,-,heq⟩ | ⟨nodeId,payload,-,heq⟩ <;> rw [heq] <;>
      simp [Handler.rank, BodySource.rank, Branch.rank, Caller.awaitRank]
  | @registry call call' w phase phase' a r' hphase h =>
    cases hphase with
    | pioneerRegister => simp [Handler.rank, Branch.rank]
    | herdAwait | herdProceed | herdCancel =>
      have := h.awaitRank_lt hx.fits (by simp)
      simpa [Handler.rank] using this
    | pioneerFulfill =>
      cases h
      simp [Handler.rank, Caller.fulfillRank, FulfillStage.rank]
    | fulfillProceed =>
      cases h with
      | @fulfilling _ stage n p payload err h =>
        cases stage <;>
          simp [Handler.rank, Caller.afterFulfill, Caller.fulfillRank, FulfillStage.next,
            FulfillStage.rank]
      | wake => exact absurd rfl (hx.fits.2.1 _ _)
      | read => exact absurd rfl (hx.fits.2.2 _ _)
  | @herdReturned w apiReq nodeId n result =>
    rcases herdReturned_cases apiReq nodeId result with ⟨-,heq⟩ | ⟨-,-,heq⟩ |
      ⟨-,-,⟨-,heq⟩ | ⟨-,heq⟩⟩ <;> rw [heq] <;>
      simp [Handler.rank, BodySource.rank, Branch.rank, Caller.awaitRank, Caller.fulfillRank]
  | @llm call w apiReq branch newRequest res =>
    rcases llmReturned_cases apiReq branch (forwardToLLM newRequest res) with
      ⟨-,heq⟩ | ⟨err,text,status,-,heq⟩ <;> rw [heq]
    · simp [Handler.rank, BodySource.rank]
    · refine lt_of_le_of_lt (Branch.Fits.leave_rank hx.fits _ _ _) ?_
      simp [Handler.rank]
  | @writePayload call w apiReq source payload =>
    cases source with
    | l0 | hit =>
      obtain rfl : call = .idle := hx.fits
      simp [Handler.rank, afterWrite, Caller.fulfillRank]
    | llm | herd => simp [Handler.rank, afterWrite]
  | @trySetL0 call w apiReq source payload =>
    cases source with
    | l0 | hit =>
      obtain rfl : call = .idle := hx.fits
      simp [Handler.rank, afterCache, Caller.fulfillRank]
    | herd =>
      obtain ⟨n,result,rfl⟩ := hx.fits
      simp [Handler.rank, afterCache, Caller.fulfillRank]
    | llm branch =>
      cases branch with
      | pioneer | noPromise | pioneerFailed =>
        simp [Handler.rank, afterCache, BodySource.rank, Branch.rank]
      | longPrompt | readError | noSlot | unexpectedState =>
        obtain rfl : call = .idle := hx.fits
        simp [Handler.rank, afterCache, Caller.fulfillRank]
  | @tryEnqueue call w branch nodeId payload =>
    refine lt_of_le_of_lt (Branch.Fits.leave_rank hx.fits _ _ _) ?_
    simp [Handler.rank]

def ProxyThread.rank : ProxyThread → ℕ
  | .handler h => h.rank
  | _ => 0

/-- A request is served in at most thirteen steps, whatever the environment answers and
the other threads do. -/
theorem handler_steps {es : List ProxyBeat} {pool : ProxyPool} (hrun : ProxyRun sha256 es pool)
    (i : ℕ) : stepsOf (.request i) es ≤ 13 := by
  have hbudget := (steps_le (i := .request i) (J := fun c => ∃ h, c = .handler h ∧ h.Regular)
    (fun _ c => c.rank) (fun _ => 0) ?_ (fun _ _ _ _ => le_rfl) hrun
    ⟨⟨.idle,[],.accepting⟩,rfl,rfl,rfl⟩).2
  · rw [total_zero] at hbudget
    have hstart : (startProxy.threads (.request i)).rank = 13 := rfl
    omega
  · rintro τ - hown ⟨h,hh,hregular⟩
    rw [hh] at hown ⊢
    rcases hown.handler_cases with ⟨x,y,hx,hy,hstep⟩ | ⟨hne,-⟩
    · obtain rfl := ProxyThread.handler.inj hx
      rw [hy]
      exact ⟨⟨y,rfl,hstep.regular hregular⟩,hstep.rank_lt hregular⟩
    · exact absurd rfl (hne h)

/-- A pioneer that nobody disturbs takes as many steps as a handler can. -/
theorem handler_steps_replay : ∃ (es : List ProxyBeat) (pool : ProxyPool),
    ProxyRun (Equiv.swap [1] digestOfOne) es pool ∧ stepsOf (.request 0) es = 13 ∧
      stepsOf (.request 0) es ≤ 13 := by
  obtain ⟨es,pool,hrun,hacts,-⟩ := exists_servedPioneer
  refine ⟨es,pool,hrun,?_,handler_steps hrun 0⟩
  have hsteps : stepsOf (.request 0) es =
      ((es.map fun τ => τ.act.1).map fun i => if i = .request 0 then 1 else 0).sum := by
    simp [stepsOf, total, Function.comp_def]
  rw [hsteps, hacts]
  rfl

end Rank

structure Environment where
  request : HttpRequest
  answer : Except String CheckCacheResponse
  newRequest : Except String Unit
  res : Except String LLMResponse

/-- The handler's next step, with the environment's answer; no client leaves. -/
def Handler.nextAct (env : Environment) (h : Handler) : ProxyAction :=
  match h.phase with
  | .accepting => .serve env.request
  | .asking _ => .answer env.answer
  | .forwarding _ _ => .llm env.newRequest env.res
  | .registering _ nodeId => .registry (.register nodeId)
  | .awaiting _ nodeId =>
    match h.call with
    | .idle => .registry (.await nodeId)
    | .returned _ _ => .proceed
    | _ => .registry .proceed
  | .deferred payload err => .registry (.fulfill payload err)
  | .finishing => .registry .proceed
  | .readingL0 _ | .writing _ _ _ | .caching _ _ _ | .enqueueing _ _ _ => .proceed

/-- The handler waits for a channel that is still open. -/
def Handler.Blocked (r : Registry ServiceError) (h : Handler) : Prop :=
  ∃ n p, h.call = .waiting n p ∧ (r.promises p).ready = false

/-- Handler `id` takes its next step, whatever the environment answers. -/
def Driven (env : Handler → Environment) (id : ThreadId) (τ : ProxyBeat) : Prop :=
  ∃ h, τ.before.threads id = .handler h ∧ τ.act = (id, h.nextAct (env h))

section Registry
variable {ι E : Type*} {es : List (RegistryBeat ι E)} {pool : RegistryPool ι E} {j : ι} {n : Int32}
  {p : ℕ}

theorem inFlight_of_registered (hrun : RegistryRun es pool)
    (h : Happened (Registers j n p) es) :
    (pool.threads j).InFlight n p ∨ (pool.shared.promises p).ready = true := by
  refine hrun.historyInvariant_of_run (P := fun _ => True)
    (I := fun es u => ∀ j n p, Happened (Registers j n p) es →
      (u.threads j).InFlight n p ∨ (u.shared.promises p).ready = true) ?_ (fun _ _ => trivial)
    (fun _ _ _ h => absurd h not_happened_nil) j n p h
  intro es τ hbefore hmove _ ih j n p hregistered
  obtain ⟨hG,hJ⟩ := registry_invariant hbefore
  have hstays : (τ.before.shared.promises p).ready = true →
      (τ.after.shared.promises p).ready = true := fun hready => by
    rw [hG.ready_stays (hJ _) hmove.own hready]
    exact hready
  rcases happened_snoc.mp hregistered with hold | ⟨-,hafter⟩
  · rcases ih j n p hold with hin | hready
    · by_cases hj : j = τ.act.1
      · subst hj
        rcases hmove.own.inFlight hin with hin' | ⟨payload,err,hremove⟩
        · exact .inl hin'
        · have hsound := hJ τ.act.1
          rw [hremove] at hsound
          exact .inr (hstays hsound.2.2.1)
      · rw [hmove.others j hj]
        exact .inl hin
    · exact .inr (hstays hready)
  · rw [hafter]
    exact .inl ⟨rfl,rfl⟩

end Registry

section Driving
variable {es fs : List ProxyBeat} {pool pool' : ProxyPool} {id j : ThreadId} {h : Handler}
  {n : Int32} {p : ℕ}

theorem callerRun_thread (hthread : pool.threads id = .handler h) :
    (callers pool).threads id = h.call := by
  simp only [callers, hthread, callOf]

theorem exists_nextStep (hrun : ProxyRun sha256 es pool) (hthread : pool.threads id = .handler h)
    (hopen : ¬ h.Finished) (hfree : ¬ h.Blocked pool.shared.registry) (env : Environment) :
    ∃ g' h', HandlerStep sha256 pool.shared h (h.nextAct env) g' h' := by
  have hfits := (handler_invariant hrun hthread).1.fits
  obtain ⟨call,w,phase⟩ := h
  cases phase with
  | accepting => exact ⟨_,_,.serve⟩
  | readingL0 => exact ⟨_,_,.queryL0⟩
  | asking => exact ⟨_,_,.answer⟩
  | registering =>
    obtain rfl : call = .idle := hfits
    exact ⟨_,_,.registry .pioneerRegister .register⟩
  | awaiting =>
    cases call with
    | idle => exact ⟨_,_,.registry .herdAwait .lookUp⟩
    | waiting n p =>
      have hready : (pool.shared.registry.promises p).ready = true := by
        by_contra hready
        exact hfree ⟨n,p,rfl,Bool.eq_false_iff.mpr hready⟩
      exact ⟨_,_,.registry .herdProceed (.wake hready)⟩
    | reading => exact ⟨_,_,.registry .herdProceed .read⟩
    | returned => exact ⟨_,_,.herdReturned⟩
    | pioneer | fulfilling | fulfilled => exact hfits.elim
  | forwarding => exact ⟨_,_,.llm⟩
  | writing => exact ⟨_,_,.writePayload⟩
  | caching => exact ⟨_,_,.trySetL0⟩
  | enqueueing => exact ⟨_,_,.tryEnqueue⟩
  | deferred =>
    obtain ⟨n,p,rfl⟩ : ∃ n p, call = .pioneer n p := hfits
    exact ⟨_,_,.registry .pioneerFulfill .fulfill⟩
  | finishing =>
    cases call with
    | fulfilling stage n p payload err =>
      obtain ⟨r',hr⟩ := pioneerFulfill_enabled (registry_run hrun) (callerRun_thread hthread)
      exact ⟨_,_,.registry .fulfillProceed (.fulfilling hr)⟩
    | idle | fulfilled | returned => exact absurd ⟨rfl,by simp⟩ hopen
    | pioneer => exact absurd rfl (hfits.1 _ _)
    | waiting => exact absurd rfl (hfits.2.1 _ _)
    | reading => exact absurd rfl (hfits.2.2 _ _)

/-- A handler that is driven alone returns, or comes to a channel that is still open. -/
theorem exists_driven (env : Handler → Environment) (hrun : ProxyRun sha256 es pool)
    (hthread : pool.threads id = .handler h) : ∃ fs pool' h',
      Run (Moves (ProxyStep sha256)) pool fs pool' ∧ (∀ τ ∈ fs, Driven env id τ) ∧
      pool'.threads id = .handler h' ∧ fs.length + h'.rank ≤ h.rank ∧
      (h'.Finished ∨ h'.Blocked pool'.shared.registry) := by
  induction hk : h.rank using Nat.strong_induction_on generalizing es pool h with
  | _ k ih =>
    subst hk
    by_cases hdone : h.Finished ∨ h.Blocked pool.shared.registry
    · exact ⟨[],pool,h,.nil _,by simp,hthread,by simp,hdone⟩
    obtain ⟨hopen,hfree⟩ := not_or.mp hdone
    obtain ⟨g',next,hstep⟩ := exists_nextStep hrun hthread hopen hfree (env h)
    have hlt := hstep.rank_lt (handler_invariant hrun hthread).1
    have hmove : Moves (ProxyStep sha256) pool (id, h.nextAct (env h))
        ⟨g',Function.update pool.threads id (.handler next)⟩ :=
      moves_update (by rw [hthread]; exact .handler hstep)
    obtain ⟨fs,pool',h',hfs,hdriven,hthread',hlength,hend⟩ :=
      ih next.rank hlt (hrun.snoc hmove) (Function.update_self ..) rfl
    refine ⟨_,pool',h',hfs.cons hmove,?_,hthread',?_,hend⟩
    · rw [List.forall_mem_cons]
      exact ⟨⟨h,hthread,rfl⟩,hdriven⟩
    · rw [List.length_cons]
      omega

theorem call_of_run {P : Caller ServiceError → Prop}
    (hkeep : ∀ {r r' : Registry ServiceError} {c c' : Caller ServiceError}
      {a : CallerAction ServiceError}, CallerStep r c a r' c' → P c → P c')
    (hfs : Run (Moves (ProxyStep sha256)) pool fs pool') (hP : P (callOf (pool.threads id))) :
    P (callOf (pool'.threads id)) := by
  classical
  have hall := run_local (J := fun i c => i = id → P (callOf c)) ?_ hfs
    (fun i hi => by subst hi; exact hP) id rfl
  · exact hall
  · intro i s c a s' c' hstep hc hi
    rcases hstep.registry_cases with ⟨b,-,hcall⟩ | ⟨-,-,hcall⟩
    · exact hkeep hcall (hc hi)
    · rw [hcall]
      exact hc hi

theorem pioneer_of_run (hfs : Run (Moves (ProxyStep sha256)) pool fs pool')
    (hin : (callOf (pool.threads id)).InFlight n p) :
    (callOf (pool'.threads id)).InFlight n p ∨
      ∃ payload err, callOf (pool'.threads id) = .fulfilled n p payload err := by
  refine call_of_run (P := fun c => c.InFlight n p ∨ ∃ payload err, c = .fulfilled n p payload err)
    ?_ hfs (.inl hin)
  rintro r r' c c' a h (hc | ⟨payload,err,rfl⟩)
  · rcases h.inFlight hc with hc' | ⟨payload,err,rfl⟩
    · exact .inl hc'
    · exact .inr ⟨payload,err,h.remove_eq.2.2⟩
  · cases h

/-- A herd member that has found a promise waits for this one or for none. -/
theorem found_of_run (hfs : Run (Moves (ProxyStep sha256)) pool fs pool')
    (hwaiting : callOf (pool.threads id) = .waiting n p) {m : Int32} {q : ℕ}
    (hstill : callOf (pool'.threads id) = .waiting m q) : q = p := by
  refine call_of_run (P := fun c => c.Herd ∧ c ≠ .idle ∧ ∀ m q, c = .waiting m q → q = p)
    ?_ hfs ?_ |>.2.2 m q hstill
  · rintro r r' c c' a h ⟨hherd,hidle,-⟩
    cases h with
    | register | lookUp => exact absurd rfl hidle
    | fulfill | fulfilling => exact hherd.elim
    | wake | cancel | read => exact ⟨trivial,by simp,by simp⟩
  · rw [hwaiting]
    refine ⟨trivial,by simp,?_⟩
    rintro m q ⟨⟩
    rfl

theorem ready_of_run (hrun : ProxyRun sha256 es pool)
    (hfs : Run (Moves (ProxyStep sha256)) pool fs pool')
    (hready : (pool.shared.registry.promises p).ready = true) :
    (pool'.shared.registry.promises p).ready = true := by
  obtain ⟨j,n,hpub⟩ := (registry_invariant (registry_run hrun)).1.ready p hready
  have hafter := (registry_invariant (registry_run (hrun.append hfs))).1
  refine hafter.closed j p ?_
  rw [registryBeats_append]
  exact hpub.closed.mono _

theorem exists_pioneer (hrun : ProxyRun sha256 es pool) (hthread : pool.threads id = .handler h)
    (hwaiting : h.call = .waiting n p) (hclosed : (pool.shared.registry.promises p).ready = false) :
    ∃ j, (callOf (pool.threads j)).InFlight n p := by
  have hregistry := registry_run hrun
  obtain ⟨hG,hJ⟩ := registry_invariant hregistry
  have hsound := hJ id
  rw [callerRun_thread hthread, hwaiting] at hsound
  obtain ⟨j,hregistered⟩ := hsound.2
  refine ⟨j,(inFlight_of_registered hregistry hregistered).resolve_right ?_⟩
  rw [show (callers pool).shared = pool.shared.registry from rfl, hclosed]
  exact Bool.false_ne_true

/-- A pioneer that is driven alone returns and closes its channel. -/
theorem exists_pioneerDriven (env : Handler → Environment) (hrun : ProxyRun sha256 es pool)
    (hthread : pool.threads j = .handler h) (hin : h.call.InFlight n p) : ∃ fs pool',
      Run (Moves (ProxyStep sha256)) pool fs pool' ∧ (∀ τ ∈ fs, Driven env j τ) ∧
      fs.length ≤ h.rank ∧ (pool'.shared.registry.promises p).ready = true := by
  obtain ⟨fs,pool',h',hfs,hdriven,hthread',hlength,hend⟩ := exists_driven env hrun hthread
  have hcall := pioneer_of_run hfs (by rw [hthread]; exact hin)
  have hrun' := hrun.append hfs
  have hsound := (registry_invariant (registry_run hrun')).2 j
  rw [callerRun_thread hthread'] at hsound
  rw [hthread', callOf] at hcall
  refine ⟨fs,pool',hfs,hdriven,by omega,?_⟩
  have hfulfilled : ∃ payload err, h'.call = .fulfilled n p payload err := by
    rcases hcall with hstill | hdone
    · rcases hend with ⟨hphase,hopen⟩ | ⟨m,q,hwaiting,-⟩
      · have hfits := (handler_invariant hrun' hthread').1.fits
        rw [hphase] at hfits
        cases hcall : h'.call with
        | pioneer => exact absurd hcall (hfits.1 _ _)
        | fulfilling => exact absurd hcall (hopen _ _ _ _ _)
        | idle | fulfilled | waiting | reading | returned =>
          rw [hcall] at hstill
          exact hstill.elim
      · rw [hwaiting] at hstill
        exact hstill.elim
    · exact hdone
  obtain ⟨payload,err,hcall⟩ := hfulfilled
  rw [hcall] at hsound
  exact (registry_invariant (registry_run hrun')).1.closed j p hsound.closed

theorem rank_le_thirteen (hregular : h.Regular) : h.rank ≤ 13 := by
  obtain ⟨call,w,phase⟩ := h
  have hbranch : ∀ branch : Branch, branch.rank ≤ 5 := fun branch => by
    cases branch <;> simp [Branch.rank]
  have hsource : ∀ source : BodySource, source.rank ≤ 5 := fun source => by
    cases source with
    | llm branch => exact hbranch branch
    | l0 | hit | herd => simp [BodySource.rank]
  cases phase with
  | accepting | readingL0 | asking | registering | deferred => simp [Handler.rank]
  | awaiting => cases call <;> simp [Handler.rank, Caller.awaitRank]
  | forwarding apiReq branch | enqueueing branch =>
    have := hbranch branch
    simp only [Handler.rank]
    omega
  | writing apiReq source | caching apiReq source =>
    have := hsource source
    simp only [Handler.rank]
    omega
  | finishing =>
    cases call with
    | fulfilling stage => cases stage <;> simp [Handler.rank, Caller.fulfillRank, FulfillStage.rank]
    | idle | pioneer | fulfilled | waiting | reading | returned =>
      simp [Handler.rank, Caller.fulfillRank]

theorem exists_handler (hrun : ProxyRun sha256 es pool) (i : ℕ) :
    ∃ h, pool.threads (.request i) = .handler h := by
  refine run_local (J := fun id c => (∃ i, id = .request i) → ∃ h, c = .handler h) ?_ hrun ?_
    (.request i) ⟨i,rfl⟩
  · intro id g c act g' c' hstep hc hid
    obtain ⟨h,rfl⟩ := hc hid
    rcases hstep.handler_cases with ⟨x,y,-,hy,-⟩ | ⟨hne,-⟩
    · exact ⟨y,hy⟩
    · exact absurd rfl (hne h)
  · rintro _ ⟨i,rfl⟩
    exact ⟨_,rfl⟩

/-- In every reachable state every request can be brought to its end without a client
leaving: whatever the environment answers, it is enough to run its own handler and at
most one other, whose promise it waits for, for at most 26 steps together. -/
theorem handler_finishes (hrun : ProxyRun sha256 es pool) (i : ℕ) (env : Handler → Environment) :
    ∃ j fs pool' h, Run (Moves (ProxyStep sha256)) pool fs pool' ∧ fs.length ≤ 26 ∧
      (∀ τ ∈ fs, Driven env (.request i) τ ∨ Driven env j τ) ∧
      pool'.threads (.request i) = .handler h ∧ h.Finished := by
  obtain ⟨h,hthread⟩ := exists_handler hrun i
  obtain ⟨fs,waiting,h₁,hfs,hdriven,hthread₁,hlength,hend⟩ := exists_driven env hrun hthread
  have hrank := rank_le_thirteen (handler_invariant hrun hthread).1
  rcases hend with hdone | ⟨n,p,hcall,hclosed⟩
  · exact ⟨.request i,fs,waiting,h₁,hfs,by omega,fun τ hτ => .inl (hdriven τ hτ),hthread₁,hdone⟩
  -- the promise's pioneer closes the channel first
  have hrun₁ := hrun.append hfs
  obtain ⟨j,hin⟩ := exists_pioneer hrun₁ hthread₁ hcall hclosed
  have hwaiting : callOf (waiting.threads (.request i)) = .waiting n p := by
    rw [hthread₁]
    exact hcall
  have hne : .request i ≠ j := by
    rintro rfl
    rw [hwaiting] at hin
    exact hin.elim
  obtain ⟨pioneer,hpioneer⟩ : ∃ h, waiting.threads j = .handler h := by
    cases hj : waiting.threads j with
    | handler h => exact ⟨h,rfl⟩
    | worker | fastcache =>
      rw [hj] at hin
      exact hin.elim
  have hrankj := rank_le_thirteen (handler_invariant hrun₁ hpioneer).1
  rw [hpioneer] at hin
  obtain ⟨gs,woken,hgs,hdriven₂,hlength₂,hready⟩ := exists_pioneerDriven env hrun₁ hpioneer hin
  have hsame : woken.threads (.request i) = waiting.threads (.request i) :=
    threads_of_run hgs fun τ hτ => by
      obtain ⟨_,-,hact⟩ := hdriven₂ τ hτ
      rw [hact]
      exact hne.symm
  rw [hthread₁] at hsame
  have hrun₂ := hrun₁.append hgs
  -- then nothing blocks the herd member any more
  obtain ⟨ks,done,h₃,hks,hdriven₃,hthread₃,hlength₃,hend₃⟩ := exists_driven env hrun₂ hsame
  refine ⟨j,fs ++ (gs ++ ks),done,h₃,hfs.append (hgs.append hks),?_,?_,hthread₃,?_⟩
  · simp only [List.length_append]
    omega
  · simp only [List.forall_mem_append]
    exact ⟨fun τ hτ => .inl (hdriven τ hτ),fun τ hτ => .inr (hdriven₂ τ hτ),
      fun τ hτ => .inl (hdriven₃ τ hτ)⟩
  · rcases hend₃ with hdone | ⟨m,q,hcall₃,hclosed₃⟩
    · exact hdone
    · have hq : q = p := found_of_run hks (by rw [hsame]; exact hcall)
        (by rw [hthread₃]; exact hcall₃)
      rw [hq, ready_of_run hrun₂ hks hready] at hclosed₃
      cases hclosed₃

def outage : Environment :=
  ⟨⟨"POST",.error ""⟩,.error "unavailable",.ok (),.error "unavailable"⟩

theorem handler_finishes_replay :
    ∃ (es : List ProxyBeat) (pool : ProxyPool), ProxyRun (Equiv.swap [1] digestOfOne) es pool ∧
      (∃ h, pool.threads (.request 0) = .handler h ∧ h.call = .pioneer 0 0) ∧
      ∃ j fs pool' h, Run (Moves (ProxyStep (Equiv.swap [1] digestOfOne))) pool fs pool' ∧
        fs.length ≤ 26 ∧ (∀ τ ∈ fs, Driven (fun _ => outage) (.request 0) τ ∨
          Driven (fun _ => outage) j τ) ∧
        pool'.threads (.request 0) = .handler h ∧ h.Finished := by
  obtain ⟨es,pool,hrun,-,-,hthreads⟩ := exists_calling
  have hcall : pool.threads (.request 0) =
      .handler ⟨.pioneer 0 0,[],.forwarding ⟨[1],[2]⟩ (.pioneer 0)⟩ := by
    rw [hthreads, Function.update_self]
  exact ⟨es,pool,hrun,⟨_,hcall,rfl⟩,handler_finishes hrun 0 fun _ => outage⟩

end Driving

end Strix
