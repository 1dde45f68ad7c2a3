import Strix.Gateway.Reply

/-! # The gateway without its engine

A handler whose `CheckCache` fails goes to the LLM and from there to its client: it
registers nothing, waits for nobody and leaves no job behind.
-/
namespace Strix
open RunHistory ThreadPool

/-- No `CheckCache` succeeds. -/
def EngineDown (τ : ProxyBeat) : Prop := ∀ id response, τ.act ≠ (id, .answer (.ok response))

def Branch.Alone : Branch → Prop
  | .longPrompt | .readError => True
  | _ => False

def BodySource.Alone : BodySource → Prop
  | .l0 => True
  | .llm branch => branch.Alone
  | .hit | .herd => False

def HandlerPhase.Alone : HandlerPhase → Prop
  | .registering _ _ | .awaiting _ _ | .enqueueing _ _ _ | .deferred _ _ => False
  | .forwarding _ branch => branch.Alone
  | .writing _ source _ | .caching _ source _ => source.Alone
  | _ => True

def ProxyThread.Alone : ProxyThread → Prop
  | .handler h => h.call = .idle ∧ h.phase.Alone
  | .worker job => job = none
  | .fastcache => True

section Steps
variable {sha256 : List UInt8 → List UInt8} {g g' : Proxy} {x y : Handler} {act : ProxyAction}
  {c c' : ProxyThread}

theorem Branch.Alone.leave {branch : Branch} (h : branch.Alone) (payload : List UInt8)
    (err : Option ServiceError) : branch.leave payload err = .finishing := by
  cases branch with
  | longPrompt | readError => rfl
  | noSlot | pioneer | noPromise | pioneerFailed | unexpectedState => exact h.elim

theorem HandlerStep.alone (h : HandlerStep sha256 g x act g' y)
    (hdown : ∀ response, act ≠ .answer (.ok response)) (hcall : x.call = .idle)
    (hphase : x.phase.Alone) :
    y.call = .idle ∧ y.phase.Alone ∧ g'.registry = g.registry ∧ g'.queue = g.queue := by
  cases h with
  | @serve _ _ request =>
    refine ⟨hcall,?_,rfl,rfl⟩
    rcases serve_cases request with ⟨text,status,heq⟩ | ⟨apiReq,-,heq⟩ <;> rw [heq] <;> trivial
  | @queryL0 _ _ apiReq =>
    refine ⟨hcall,?_,rfl,rfl⟩
    rcases queryL0_cases sha256 g.l0Cache apiReq with ⟨payload,-,heq⟩ | heq | heq <;>
      rw [heq] <;> trivial
  | @answer _ _ apiReq result =>
    cases result with
    | error what => exact ⟨hcall,trivial,rfl,rfl⟩
    | ok response => exact absurd rfl (hdown response)
  | registry hregistry h =>
    cases hregistry with
    | pioneerRegister | herdAwait | herdProceed | herdCancel | pioneerFulfill => exact hphase.elim
    | fulfillProceed =>
      obtain rfl := hcall
      cases h
  | herdReturned => exact hphase.elim
  | @llm _ _ apiReq branch newRequest res =>
    refine ⟨hcall,?_,rfl,rfl⟩
    rcases llmReturned_cases apiReq branch (forwardToLLM newRequest res) with
      ⟨-,heq⟩ | ⟨err,text,status,-,heq⟩
    · rw [heq]
      exact hphase
    · rw [heq, Branch.Alone.leave hphase]
      trivial
  | @writePayload _ _ apiReq source payload =>
    refine ⟨hcall,?_,rfl,rfl⟩
    cases source with
    | l0 => trivial
    | llm branch => exact hphase
    | hit | herd => exact hphase.elim
  | @trySetL0 _ _ apiReq source payload =>
    refine ⟨hcall,?_,rfl,rfl⟩
    rcases source with _ | _ | branch | _
    · trivial
    · exact hphase.elim
    · cases branch with
      | longPrompt | readError => trivial
      | noSlot | pioneer | noPromise | pioneerFailed | unexpectedState => exact hphase.elim
    · exact hphase.elim
  | tryEnqueue => exact hphase.elim

theorem ProxyStep.alone (h : ProxyStep sha256 g c act g' c')
    (hdown : ∀ response, act ≠ .answer (.ok response)) (hc : c.Alone) (hqueue : g.queue = []) :
    c'.Alone ∧ g'.registry = g.registry ∧ g'.queue = [] := by
  cases h with
  | handler hstep =>
    obtain ⟨hcall,hphase,hregistry,hsame⟩ := hstep.alone hdown hc.1 hc.2
    exact ⟨⟨hcall,hphase⟩,hregistry,hsame.trans hqueue⟩
  | dequeue hjob =>
    rw [hqueue] at hjob
    cases hjob
  | setCache => cases hc
  | drop => exact ⟨trivial,rfl,hqueue⟩

theorem exists_aloneStep (g : Proxy) (hcall : x.call = .idle) (hphase : x.phase.Alone) :
    x.phase = .finishing ∨ ∃ act g' y, HandlerStep sha256 g x act g' y := by
  obtain ⟨call,w,phase⟩ := x
  cases phase with
  | accepting => exact .inr ⟨.serve ⟨"",.error ""⟩,_,_,.serve⟩
  | readingL0 => exact .inr ⟨_,_,_,.queryL0⟩
  | asking => exact .inr ⟨.answer (.error ""),_,_,.answer⟩
  | forwarding => exact .inr ⟨.llm (.error "") (.error ""),_,_,.llm⟩
  | writing => exact .inr ⟨_,_,_,.writePayload⟩
  | caching => exact .inr ⟨_,_,_,.trySetL0⟩
  | finishing => exact .inl rfl
  | registering | awaiting | enqueueing | deferred => exact hphase.elim

end Steps

section Runs
variable {sha256 : List UInt8 → List UInt8} {es : List ProxyBeat} {pool : ProxyPool}

theorem alone_of_run (hrun : ProxyRun sha256 es pool) (hdown : ∀ τ ∈ es, EngineDown τ) :
    pool.shared.registry = freshRegistry ServiceError ∧ pool.shared.queue = [] ∧
      ∀ id, (pool.threads id).Alone := by
  refine hrun.invariant (P := EngineDown) (I := fun u => u.shared.registry =
    freshRegistry ServiceError ∧ u.shared.queue = [] ∧ ∀ id, (u.threads id).Alone) ?_ hdown ?_
  · rintro ⟨u,⟨id,act⟩,v⟩ hmove hτ ⟨hregistry,hqueue,halone⟩
    obtain ⟨hown,hsame,hnil⟩ := hmove.own.alone
      (fun response heq => hτ id response (by rw [← heq])) (halone id) hqueue
    refine ⟨hsame.trans hregistry,hnil,fun j => ?_⟩
    by_cases hj : j = id
    · subst hj
      exact hown
    · rw [hmove.others j hj]
      exact halone j
  · refine ⟨rfl,rfl,fun id => ?_⟩
    cases id with
    | request => exact ⟨rfl,trivial⟩
    | worker | fastcache => trivial

/-- While no `CheckCache` succeeds the gateway goes on without the engine: no promise is
registered, no job is queued, no handler ever waits, and each that has returned has
written one reply, whose payload, if it is one, an LLM call has returned. -/
theorem engine_down (hrun : ProxyRun sha256 es pool) (hdown : ∀ τ ∈ es, EngineDown τ) :
    pool.shared.registry = freshRegistry ServiceError ∧ pool.shared.queue = [] ∧
    ∀ id h, pool.threads id = .handler h →
      (h.phase = .finishing ∧ h.w.length = 1 ∨
        ∃ act g' y, HandlerStep sha256 pool.shared h act g' y) ∧
      ∀ payload, .payload payload ∈ h.w → FromLLM es payload := by
  obtain ⟨hregistry,hqueue,halone⟩ := alone_of_run hrun hdown
  refine ⟨hregistry,hqueue,fun id h hthread => ?_⟩
  have hown := halone id
  have htraced := (proxy_invariant hrun).2 id
  rw [hthread] at hown htraced
  obtain ⟨hcall,hphase⟩ := hown
  refine ⟨?_,fun payload hw => (htraced.2 payload hw).resolve_right ?_⟩
  · refine (exists_aloneStep pool.shared hcall hphase).imp_left fun hdone => ⟨hdone,?_⟩
    have hwrote := (handler_invariant hrun hthread).1.wrote
    rw [hdone, hcall] at hwrote
    rcases hwrote with hlength | ⟨-,n,result,hreturned,-⟩
    · exact hlength
    · cases hreturned
  · rintro ⟨τ,hτ,nodeId,hact⟩
    exact hdown τ hτ id _ hact

theorem engine_down_replay : ∃ (es : List ProxyBeat) (pool : ProxyPool),
    ProxyRun (Equiv.swap [1] digestOfOne) es pool ∧
      Happened (fun τ => τ.act = (.request 0, .answer (.error "unavailable"))) es ∧
      pool.threads (.request 0) = .handler ⟨.idle,[.payload [7]],.finishing⟩ ∧
      pool.shared.queue = [] ∧ FromLLM es [7] := by
  have hstart : ProxyRun (Equiv.swap [1] digestOfOne) [] startProxy := .nil _
  have hanswer : Solo (ProxyStep (Equiv.swap [1] digestOfOne))
      (startProxy.shared, .handler ⟨.idle,[],.asking ⟨[1],[2]⟩⟩) (.answer (.error "unavailable"))
      (startProxy.shared, .handler ⟨.idle,[],.forwarding ⟨[1],[2]⟩ .readError⟩) := .handler .answer
  have hllm : Solo (ProxyStep (Equiv.swap [1] digestOfOne))
      (startProxy.shared, .handler ⟨.idle,[],.forwarding ⟨[1],[2]⟩ .readError⟩)
      (.llm (.ok ()) (.ok ⟨200,.ok [7]⟩)) (startProxy.shared,
        .handler ⟨.idle,[],.writing ⟨[1],[2]⟩ (.llm .readError) [7]⟩) := .handler .llm
  have hwrite : Solo (ProxyStep (Equiv.swap [1] digestOfOne))
      (startProxy.shared, .handler ⟨.idle,[],.writing ⟨[1],[2]⟩ (.llm .readError) [7]⟩) .proceed
      (startProxy.shared,
        .handler ⟨.idle,[.payload [7]],.caching ⟨[1],[2]⟩ (.llm .readError) [7]⟩) :=
    .handler .writePayload
  have hcache : Solo (ProxyStep (Equiv.swap [1] digestOfOne)) (startProxy.shared,
        .handler ⟨.idle,[.payload [7]],.caching ⟨[1],[2]⟩ (.llm .readError) [7]⟩) .proceed
      ({ startProxy.shared with
          l0Cache := trySetL0 startProxy.shared.l0Cache (Equiv.swap [1] digestOfOne [1]) [7] },
        .handler ⟨.idle,[.payload [7]],.finishing⟩) := .handler .trySetL0
  have hask := solo_ask (g := startProxy.shared) (Equiv.swap [1] digestOfOne) ⟨[1],[2]⟩ rfl
    (by decide)
  obtain ⟨es,pool,hrun,hacts,-,hthreads⟩ := exists_alone (.request 0) hstart rfl
    ((((hask.snoc hanswer).snoc hllm).snoc hwrite).snoc hcache)
  have hthread : pool.threads (.request 0) = .handler ⟨.idle,[.payload [7]],.finishing⟩ := by
    rw [hthreads, Function.update_self]
  obtain ⟨-,hqueue,hdone⟩ := engine_down hrun (by
    intro τ hτ id response hact
    have hmem := Transition.act_mem hacts hτ
    simp [hact] at hmem)
  refine ⟨es,pool,hrun,?_,hthread,hqueue,(hdone _ _ hthread).2 [7] (by simp)⟩
  have hmem : (ThreadId.request 0, ProxyAction.answer (.error "unavailable")) ∈
      es.map fun τ => τ.act := by
    rw [hacts]
    simp
  exact List.mem_map.mp hmem

end Runs

end Strix
