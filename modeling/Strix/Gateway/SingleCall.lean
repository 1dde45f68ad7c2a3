import Strix.Gateway.Deployment
import Strix.Gateway.Provenance
import Strix.Gateway.Withdrawal

/-! # One LLM call for a reservation

While no reservation ends, the engine hands a node out once, so a node has one
pioneer. A herd member whose look-up takes place while that pioneer is in
flight finds its promise and shares the payload; only a look-up before the
registration or after the withdrawal sends a herd member to the LLM as well.
-/
namespace Strix
open RunHistory ThreadPool Scoring

def CallsLLM (id : ThreadId) (τ : ProxyBeat) : Prop :=
  τ.act.1 = id ∧ ∃ call w apiReq branch,
    τ.after.threads id = .handler ⟨call,w,.forwarding apiReq branch⟩

/-- The look-up of `id` takes place while a pioneer of the node ID is in flight. -/
def Sheltered (nodeId : Int32) (id : ThreadId) (τ : ProxyBeat) : Prop :=
  τ.act = (id, .registry (.await nodeId)) ∧
    ∃ j p, ((callers τ.before).threads j).InFlight nodeId p

section Handlers
variable {sha256 : List UInt8 → List UInt8} {es : List ProxyBeat} {pool u v : ProxyPool}
  {τ : ProxyBeat} {id : ThreadId} {nodeId : Int32} {x y : Handler} {act : ProxyAction}

def Caller.HasFound {E : Type*} : Caller E → Prop
  | .waiting _ _ | .reading _ _ => True
  | .returned _ result => result.found = true
  | _ => False

theorem CallerStep.hasFound {E : Type*} {r r' : Registry E} {c c' : Caller E}
    {a : CallerAction E} (h : CallerStep r c a r' c') (hc : c.HasFound) : c'.HasFound := by
  cases h with
  | wake => trivial
  | cancel | read => rfl
  | register | fulfill | fulfilling | lookUp => exact absurd hc id

/-- A handler before its call of the LLM has made none, and one that may still make it
has not been sheltered. -/
def HandlerPhase.Sparing (es : List ProxyBeat) (nodeId : Int32) (id : ThreadId)
    (call : Caller ServiceError) : HandlerPhase → Prop
  | .accepting | .readingL0 _ | .asking _ | .registering _ _ =>
    ¬ Happened (CallsLLM id) es ∧ ¬ Happened (Sheltered nodeId id) es
  | .awaiting _ _ =>
    ¬ Happened (CallsLLM id) es ∧ (Happened (Sheltered nodeId id) es → call.HasFound)
  | .forwarding _ _ => ¬ Happened (Sheltered nodeId id) es
  | _ => True

def ProxyThread.Sparing (es : List ProxyBeat) (nodeId : Int32) (id : ThreadId) :
    ProxyThread → Prop
  | .handler h => h.phase.Sparing es nodeId id h.call ∧
    (Happened (Sheltered nodeId id) es → ¬ Happened (CallsLLM id) es)
  | _ => ¬ Happened (CallsLLM id) es

theorem HandlerStep.forwarding_from (h : HandlerStep sha256 u.shared x act v.shared y)
    {apiReq : CheckCacheAPIRequest} {branch : Branch} (hy : y.phase = .forwarding apiReq branch) :
    (∃ apiReq, x.phase = .readingL0 apiReq) ∨ (∃ apiReq, x.phase = .asking apiReq) ∨
      (∃ apiReq n, x.phase = .registering apiReq n) ∨ ∃ apiReq n, x.phase = .awaiting apiReq n := by
  generalize u.shared = g at h
  generalize v.shared = g' at h
  cases h with
  | @serve call w request =>
    rcases serve_cases request with ⟨text,status,heq⟩ | ⟨apiReq,-,heq⟩ <;> simp [heq] at hy
  | queryL0 => exact .inl ⟨_,rfl⟩
  | answer => exact .inr (.inl ⟨_,rfl⟩)
  | registry hphase =>
    cases hphase with
    | pioneerRegister => exact .inr (.inr (.inl ⟨_,_,rfl⟩))
    | herdAwait | herdProceed | herdCancel | pioneerFulfill | fulfillProceed => cases hy
  | herdReturned => exact .inr (.inr (.inr ⟨_,_,rfl⟩))
  | @llm call w apiReq' branch' newRequest res =>
    rcases llmReturned_cases apiReq' branch' (forwardToLLM newRequest res) with
      ⟨-,heq⟩ | ⟨err,text,status,-,heq⟩
    · simp [heq] at hy
    · simp only [heq] at hy
      rcases branch'.leave_cases (forwardToLLM newRequest res).1 (some err) with hleave | hleave <;>
        simp [hleave] at hy
  | @writePayload call w apiReq' source payload => cases source <;> cases hy
  | @trySetL0 call w apiReq' source payload =>
    rcases afterCache_cases payload source with heq | ⟨branch',n,heq⟩ <;> simp [heq] at hy
  | @tryEnqueue call w branch' n payload =>
    rcases branch'.leave_cases payload none with hleave | hleave <;> simp [hleave] at hy

theorem ProxyThread.sparing_iff {c : ProxyThread} (hc : ∀ x, c ≠ .handler x) :
    c.Sparing es nodeId id ↔ ¬ Happened (CallsLLM id) es := by
  cases c with
  | handler x => exact absurd rfl (hc x)
  | worker | fastcache => exact Iff.rfl

theorem ProxyThread.Sparing.frame {c : ProxyThread} (h : c.Sparing es nodeId id)
    (hτ : τ.act.1 ≠ id) : c.Sparing (es ++ [τ]) nodeId id := by
  have hcalls : Happened (CallsLLM id) (es ++ [τ]) ↔ Happened (CallsLLM id) es := by
    rw [happened_snoc, or_iff_left fun hcall => hτ hcall.1]
  have hshelter : Happened (Sheltered nodeId id) (es ++ [τ]) ↔
      Happened (Sheltered nodeId id) es := by
    rw [happened_snoc, or_iff_left fun hawait => hτ (congrArg Prod.fst hawait.1)]
  cases c with
  | worker | fastcache => exact fun hcall => h (hcalls.mp hcall)
  | handler x =>
    obtain ⟨call,w,phase⟩ := x
    obtain ⟨hphase,hspare⟩ := h
    refine ⟨?_,fun hs hcall => hspare (hshelter.mp hs) (hcalls.mp hcall)⟩
    cases phase with
    | accepting | readingL0 | asking | registering | awaiting | forwarding =>
      simpa only [HandlerPhase.Sparing, hcalls, hshelter] using hphase
    | writing | caching | enqueueing | deferred | finishing => trivial

theorem HandlerStep.sparing (h : HandlerStep sha256 u.shared x act v.shared y)
    (hy : v.threads id = .handler y) (hl : (ProxyThread.handler x).Sparing es nodeId id)
    (hfound : ∀ j p, ((callers u).threads j).InFlight nodeId p →
      u.shared.registry.lookUp nodeId = some p)
    (hherd : ∀ n result, x.call = .returned n result → result.found = true →
      result.selfCancelled = false → result.pioneerErr = none) :
    y.phase.Sparing (es ++ [⟨u,(id, act),v⟩]) nodeId id y.call := by
  generalize u.shared = g at h hfound
  generalize v.shared = g' at h
  obtain ⟨hphase,-⟩ := hl
  -- only a step that ends before the LLM calls it, and only a look-up shelters
  have hcalls : (∀ apiReq branch, y.phase ≠ .forwarding apiReq branch) →
      ¬ Happened (CallsLLM id) es → ¬ Happened (CallsLLM id) (es ++ [⟨u,(id, act),v⟩]) := by
    intro hne hes
    rw [happened_snoc]
    rintro (hcall | ⟨-,call,w,apiReq,branch,hafter⟩)
    · exact hes hcall
    · rw [hy] at hafter
      injection hafter with hafter
      exact hne apiReq branch (by rw [hafter])
  have hshelter : (∀ n, act ≠ .registry (.await n)) →
      Happened (Sheltered nodeId id) (es ++ [⟨u,(id, act),v⟩]) →
        Happened (Sheltered nodeId id) es := by
    intro hne hs
    rcases happened_snoc.mp hs with hold | ⟨hact,-⟩
    · exact hold
    · exact absurd (congrArg Prod.snd hact) (hne _)
  cases h with
  | @serve call w request =>
    rcases serve_cases request with ⟨text,status,heq⟩ | ⟨apiReq,-,heq⟩
    · simp only [heq]
      trivial
    · simp only [heq]
      exact ⟨hcalls (by simp [heq]) hphase.1,mt (hshelter (by simp)) hphase.2⟩
  | @queryL0 call w apiReq =>
    rcases queryL0_cases sha256 g.l0Cache apiReq with ⟨payload,-,heq⟩ | heq | heq
    · simp only [heq]
      trivial
    · simp only [heq]
      exact mt (hshelter (by simp)) hphase.2
    · simp only [heq]
      exact ⟨hcalls (by simp [heq]) hphase.1,mt (hshelter (by simp)) hphase.2⟩
  | @answer call w apiReq result =>
    rcases dispatch_cases apiReq result with ⟨branch,heq,-⟩ | ⟨n,payload,-,heq⟩ |
      ⟨n,payload,-,heq⟩ | ⟨n,payload,-,heq⟩
    · simp only [heq]
      exact mt (hshelter (by simp)) hphase.2
    · simp only [heq]
      trivial
    · simp only [heq]
      exact ⟨hcalls (by simp [heq]) hphase.1,mt (hshelter (by simp)) hphase.2⟩
    · simp only [heq]
      exact ⟨hcalls (by simp [heq]) hphase.1,fun hs => absurd (hshelter (by simp) hs) hphase.2⟩
  | @registry call call' w phase phase' a r' hcall h =>
    cases hcall with
    | pioneerRegister => exact mt (hshelter (by simp)) hphase.2
    | @herdAwait apiReq n =>
      refine ⟨hcalls (by simp) hphase.1,fun hs => ?_⟩
      obtain ⟨hidle,-,hcall'⟩ := h.await_eq
      rcases happened_snoc.mp hs with hold | ⟨hact,j,p,hin⟩
      · have hgot := hphase.2 hold
        rw [hidle] at hgot
        exact False.elim hgot
      · injection hact with _ hact
        injection hact with hact
        injection hact with hact
        rw [hcall', hact, hfound j p hin]
        trivial
    | herdProceed | herdCancel =>
      exact ⟨hcalls (by simp) hphase.1,fun hs => h.hasFound (hphase.2 (hshelter (by simp) hs))⟩
    | pioneerFulfill | fulfillProceed => trivial
  | @herdReturned w apiReq n m result =>
    rcases herdReturned_cases apiReq n result with ⟨-,heq⟩ | ⟨-,hlost,heq⟩ |
      ⟨hself,hgot,⟨herr,heq⟩ | ⟨-,heq⟩⟩
    · simp only [heq]
      trivial
    · simp only [heq]
      refine mt (hshelter (by simp)) fun hs => ?_
      have hgot : result.found = true := hphase.2 hs
      rw [hlost] at hgot
      cases hgot
    · exact absurd (hherd m result rfl hgot hself) herr
    · simp only [heq]
      trivial
  | @llm call w apiReq branch newRequest res =>
    rcases llmReturned_cases apiReq branch (forwardToLLM newRequest res) with
      ⟨-,heq⟩ | ⟨err,text,status,-,heq⟩
    · simp only [heq]
      trivial
    · simp only [heq]
      rcases branch.leave_cases (forwardToLLM newRequest res).1 (some err) with hleave | hleave <;>
        rw [hleave] <;> trivial
  | @writePayload call w apiReq source payload => cases source <;> trivial
  | @trySetL0 call w apiReq source payload =>
    rcases afterCache_cases payload source with heq | ⟨branch,n,heq⟩ <;> simp only [heq] <;> trivial
  | @tryEnqueue call w branch n payload =>
    rcases branch.leave_cases payload none with hleave | hleave <;> simp only [hleave] <;> trivial

/-- No sheltered handler calls the LLM when no LLM call fails and the node ID has one
pioneer. -/
theorem sparing_of_run (hrun : ProxyRun sha256 es pool)
    (hllm : ∀ id, ¬ Happened (LLMFailed id) es)
    (hone : ∀ i j, Happened (RegistersAt nodeId i) es → Happened (RegistersAt nodeId j) es →
      i = j) :
    ∀ id, (pool.threads id).Sparing es nodeId id := by
  revert hllm hone
  refine hrun.historyInvariant_of_run (P := fun _ => True) (I := fun es u =>
    (∀ id, ¬ Happened (LLMFailed id) es) →
      (∀ i j, Happened (RegistersAt nodeId i) es → Happened (RegistersAt nodeId j) es → i = j) →
        ∀ id, (u.threads id).Sparing es nodeId id) ?_ (fun _ _ => trivial) ?_
  · rintro es ⟨u,⟨j,act⟩,v⟩ hbefore hmove _ ih hllm hone id
    have hllm' : ∀ id, ¬ Happened (LLMFailed id) es := fun id hes => hllm id (hes.mono _)
    have hone' : ∀ i j, Happened (RegistersAt nodeId i) es → Happened (RegistersAt nodeId j) es →
        i = j := fun i j hi hj => hone i j (hi.mono _) (hj.mono _)
    have hl := ih hllm' hone' id
    by_cases hj : id = j
    · subst hj
      have hown := hmove.own
      have hawait : Sheltered nodeId id ⟨u,(id, act),v⟩ → ¬ Happened (CallsLLM id) es := by
        rintro ⟨hact,-⟩
        obtain rfl := (Prod.mk.inj hact).2
        obtain ⟨call,w,apiReq,hx⟩ := hown.await_eq
        rw [hx] at hl
        exact hl.1.1
      rcases hown.handler_cases with ⟨x,y,hx,hy,hstep⟩ | ⟨hx,hy,-⟩
      · simp only at hx hy hl
        rw [hx] at hl
        rw [hy]
        have hfound : ∀ j p, ((callers u).threads j).InFlight nodeId p →
            u.shared.registry.lookUp nodeId = some p :=
          lookUp_of_inFlight (registry_run hbefore) fun i j p q hi hj => hone' i j
            (happened_registryAct (hi.imp fun _ hσ => ⟨hσ.1,hσ.2.1⟩))
            (happened_registryAct (hj.imp fun _ hσ => ⟨hσ.1,hσ.2.1⟩))
        have hherd : ∀ n result, x.call = .returned n result → result.found = true →
            result.selfCancelled = false → result.pioneerErr = none := by
          intro n result hcall hgot hself
          by_contra herr
          obtain ⟨j,hfail⟩ := (source_of_returned hbefore (proxy_invariant hbefore).1
            (by rw [hx]; exact hcall) hgot hself).2 herr
          exact hllm' j hfail
        have hphase := hstep.sparing hy hl hfound hherd
        refine ⟨hphase,fun hs hcall => ?_⟩
        rcases happened_snoc.mp hcall with hcall | ⟨-,call,w,apiReq,branch,hafter⟩
        · rcases happened_snoc.mp hs with hs | hs
          · exact hl.2 hs hcall
          · exact hawait hs hcall
        · rw [hy] at hafter
          injection hafter with hafter
          rw [hafter] at hphase
          exact hphase hs
      · rw [ProxyThread.sparing_iff hx] at hl
        rw [ProxyThread.sparing_iff hy]
        intro hcall
        rcases happened_snoc.mp hcall with hcall | ⟨-,call,w,apiReq,branch,hafter⟩
        · exact hl hcall
        · exact hy _ hafter
    · rw [hmove.others id hj]
      exact hl.frame (Ne.symm hj)
  · intro _ _ id
    cases id with
    | request i =>
      exact ⟨⟨not_happened_nil,not_happened_nil⟩,fun hs => absurd hs not_happened_nil⟩
    | worker | fastcache => exact not_happened_nil

theorem calls_once {es₁ es₂ es₃ : List ProxyBeat} {σ τ : ProxyBeat}
    (hrun : ProxyRun sha256 (es₁ ++ σ :: (es₂ ++ τ :: es₃)) pool)
    (hllm : ∀ id, ¬ Happened (LLMFailed id) (es₁ ++ σ :: (es₂ ++ τ :: es₃)))
    (hone : ∀ i j, Happened (RegistersAt nodeId i) (es₁ ++ σ :: (es₂ ++ τ :: es₃)) →
      Happened (RegistersAt nodeId j) (es₁ ++ σ :: (es₂ ++ τ :: es₃)) → i = j)
    (hσ : CallsLLM id σ) (hτ : CallsLLM id τ) : False := by
  rw [List.append_cons, ← List.append_assoc] at hrun hllm hone
  obtain ⟨hbefore,hmove,-⟩ := hrun.split_at
  have hl := sparing_of_run hbefore (fun id hes => hllm id (hes.mono _))
    (fun i j hi hj => hone i j (hi.mono _) (hj.mono _)) id
  have hcalled : Happened (CallsLLM id) (es₁ ++ [σ] ++ es₂) := ⟨σ,by simp,hσ⟩
  obtain ⟨rfl,call,w,apiReq,branch,hafter⟩ := hτ
  have hown := hmove.own
  rcases hown.handler_cases with ⟨x,y,hx,hy,hstep⟩ | ⟨-,hy,-⟩
  · rw [hx] at hl
    rw [hafter] at hy
    injection hy with hy
    subst hy
    obtain ⟨call,w,phase⟩ := x
    rcases hstep.forwarding_from rfl with ⟨_,rfl⟩ | ⟨_,rfl⟩ | ⟨_,_,rfl⟩ | ⟨_,_,rfl⟩
    · exact hl.1.1 hcalled
    · exact hl.1.1 hcalled
    · exact hl.1.1 hcalled
    · exact hl.1.1 hcalled
  · exact hy _ hafter

end Handlers

section Engine
variable {K : Type*} [Scoring K] {arena arena' : MemoryArena (Vec K)}

theorem check_calm {prompt : List UInt8} {embedding : Except String (Vec K)} {t : UInt64}
    {result : Except Status CheckCacheResponse}
    (h : checkCache prompt embedding t arena = .ok (result, arena'))
    (hfresh : ∀ i, (arena.metadata i).expired t = false) :
    (∀ n, arena'.stateOf n = .dead → arena.stateOf n = .dead) ∧
    ∀ m payload, result = .ok ⟨.miss,m,payload⟩ → ∃ n : ℕ, m = n ∧ n < l0MaxSlots ∧
      arena.stateOf n = .dead ∧ arena'.stateOf n ≠ .dead := by
  constructor
  · intro n hdead
    cases changes_of_check (n := n) h with
    | kept same => exact same.symm.trans hdead
    | claimed _ old => exact old
    | published _ _ _ new => exact absurd (hdead.symm.trans new) (by decide)
    | expired act due =>
      obtain ⟨-,-,rfl⟩ := Call.checkCache.inj (Prod.mk.inj act).1
      rw [hfresh n] at due
      cases due
    | evicted act => simp at act
  · rintro m payload rfl
    rcases checkCache_cases h with ⟨⟨status,hstatus⟩,-⟩ | ⟨query,-,-,ho⟩
    · cases hstatus
    · rcases ho.effect with ⟨-,-,hmiss⟩ | ⟨n,hreply,hclaim⟩
      · exact absurd rfl (hmiss _ rfl)
      · injection hreply with hreply
        injection hreply with _ hm
        refine ⟨n,hm,hclaim.lt,?_,?_⟩
        · rcases MetaNode.reusable_eq_true.mp hclaim.reusable with hdead | hdue
          · exact hdead
          · rw [hfresh n] at hdue
            cases hdue
        · simp [MemoryArena.stateOf, hclaim.node, MetaNode.loadControl]

omit [Scoring K] in
theorem set_calm {nodeId : ℤ} {payload : List UInt8} {result : Except Status Bool}
    (h : setCache nodeId payload arena = .ok (result, arena')) (n : ℕ)
    (hdead : arena'.stateOf n = .dead) : arena.stateOf n = .dead := by
  cases changes_of_set (n := n) h with
  | kept same => exact same.symm.trans hdead
  | claimed _ old => exact old
  | published _ _ _ new => exact absurd (hdead.symm.trans new) (by decide)
  | expired act => simp at act
  | evicted act => simp at act

end Engine

section Reservations
variable {K : Type*} {sha256 : List UInt8 → List UInt8} {es : List (DeploymentBeat K)}
  {d d' : Deployment K} {τ : DeploymentBeat K} {m : ℤ} {n : ℕ} {id : ThreadId}

/-- No LLM call fails, no reservation expires and no node is evicted. -/
def Calm (τ : DeploymentBeat K) : Prop :=
  match τ.act with
  | .engine _ (.checkCache _ _ t) _ => ∀ i, (τ.before.arena.metadata i).expired t = false
  | .collect => ∀ i, τ.before.arena.stateOf i ≠ .dead → τ.after.arena.stateOf i ≠ .dead
  | .proxy _ (.llm newRequest res) => (forwardToLLM newRequest res).2 = none
  | _ => True

/-- The `MISS` on node `m` is on its way to `id` or has arrived. -/
def HoldsMiss (m : ℤ) (id : ThreadId) (es : List (DeploymentBeat K)) (d : Deployment K) : Prop :=
  (∃ payload, d.inflight id = some (.checked (.ok ⟨.miss,m,payload⟩))) ∨
    Happened (Missed m id) (proxyBeats es)

/-- Each `MISS` names a node that is not dead, and each node is named in one. -/
structure HandedOut (es : List (DeploymentBeat K)) (d : Deployment K) : Prop where
  node : ∀ m id, HoldsMiss m id es d → ∃ n : ℕ, m = n ∧ n < l0MaxSlots ∧ d.arena.stateOf n ≠ .dead
  unique : ∀ m id id', HoldsMiss m id es d → HoldsMiss m id' es d → id = id'

theorem proxyBeats_append (es fs : List (DeploymentBeat K)) :
    proxyBeats (es ++ fs) = proxyBeats es ++ proxyBeats fs := List.filterMap_append ..

theorem HandedOut.of_holds (h : HandedOut es d) {fs : List (DeploymentBeat K)}
    (hholds : ∀ m id, HoldsMiss m id fs d' → HoldsMiss m id es d)
    (hlive : ∀ n, d'.arena.stateOf n = .dead → d.arena.stateOf n = .dead) : HandedOut fs d' := by
  refine ⟨fun m id hm => ?_,fun m id id' hm hm' => h.unique m id id' (hholds m id hm)
    (hholds m id' hm')⟩
  obtain ⟨n,rfl,hn,hstate⟩ := h.node m id (hholds m id hm)
  exact ⟨n,rfl,hn,fun hdead => hstate (hlive n hdead)⟩

theorem holdsMiss_engine {call : Call K} {reply : Reply} {arena' : MemoryArena (Vec K)}
    {j : ThreadId} (h : HoldsMiss m j (es ++ [⟨d,.engine id call reply,d'⟩])
      ⟨arena',Function.update d.inflight id (some reply),d.proxy⟩) :
    HoldsMiss m j es d ∨ j = id ∧ ∃ payload, reply = .checked (.ok ⟨.miss,m,payload⟩) := by
  rcases h with ⟨payload,hreply⟩ | hmissed
  · simp only at hreply
    by_cases hj : j = id
    · subst hj
      rw [Function.update_self] at hreply
      exact .inr ⟨rfl,payload,Option.some.inj hreply⟩
    · rw [Function.update_of_ne hj] at hreply
      exact .inl (.inl ⟨payload,hreply⟩)
  · rw [proxyBeats_append] at hmissed
    exact .inl (.inr (by simpa [proxyBeats, proxyAct] using hmissed))

theorem holdsMiss_proxy {act : ProxyAction} {proxy' : ProxyPool} {j : ThreadId}
    (delivers : Delivers d.inflight id act)
    (h : HoldsMiss m j (es ++ [⟨d,.proxy id act,d'⟩])
      ⟨d.arena,afterDelivery d.inflight id act,proxy'⟩) : HoldsMiss m j es d := by
  rcases h with ⟨payload,hreply⟩ | hmissed
  · refine .inl ⟨payload,?_⟩
    have hcleared : Function.update d.inflight id none j = some (.checked (.ok ⟨.miss,m,payload⟩)) →
        d.inflight j = some (.checked (.ok ⟨.miss,m,payload⟩)) := by
      intro hreply
      by_cases hj : j = id
      · subst hj
        simp at hreply
      · rwa [Function.update_of_ne hj] at hreply
    cases act with
    | answer | stored => exact hcleared hreply
    | serve | llm | registry | drop | proceed => exact hreply
  · rw [proxyBeats_append] at hmissed
    rcases happened_snoc.mp hmissed with hmissed | ⟨payload,hact⟩
    · exact .inr hmissed
    · obtain ⟨rfl,rfl⟩ := Prod.mk.inj hact
      exact .inl ⟨payload,delivers⟩

variable [Scoring K]

theorem HandedOut.snoc {act : DeploymentAction K} (h : HandedOut es d)
    (hstep : DeploymentStep sha256 d act d') (hcalm : Calm ⟨d,act,d'⟩) :
    HandedOut (es ++ [⟨d,act,d'⟩]) d' := by
  cases hstep with
  | @collect arena' fire =>
    refine h.of_holds (fun m j hj => ?_) fun n hdead => ?_
    · rcases hj with hinflight | hmissed
      · exact .inl hinflight
      · rw [proxyBeats_append] at hmissed
        exact .inr (by simpa [proxyBeats, proxyAct] using hmissed)
    · by_contra hlive
      exact hcalm n hlive hdead
  | proxy delivers move =>
    exact h.of_holds (fun m j hj => holdsMiss_proxy delivers hj) fun n hdead => hdead
  | @engine id call reply arena' request waiting fire =>
    rcases fires_cases fire with ⟨prompt,embedding,t,result,hact,hc⟩ |
      ⟨nodeId,payload,result,hact,hc⟩ | ⟨hact,-⟩
    · obtain ⟨rfl,rfl⟩ := Prod.mk.inj hact
      obtain ⟨hlive,hclaim⟩ := check_calm hc hcalm
      refine ⟨fun m j hj => ?_,fun m j j' hj hj' => ?_⟩
      · rcases holdsMiss_engine hj with hold | ⟨rfl,payload,hreply⟩
        · obtain ⟨n,rfl,hn,hstate⟩ := h.node m j hold
          exact ⟨n,rfl,hn,fun hdead => hstate (hlive n hdead)⟩
        · obtain ⟨n,rfl,hn,-,hstate⟩ := hclaim m payload (Reply.checked.inj hreply)
          exact ⟨n,rfl,hn,hstate⟩
      · -- a claimed node was dead, so no `MISS` on it has been out before
        have hfirst : ∀ payload i, result = .ok ⟨.miss,m,payload⟩ → ¬ HoldsMiss m i es d := by
          intro payload i hreply hold
          obtain ⟨n,rfl,-,hdead,-⟩ := hclaim m payload hreply
          obtain ⟨n',hn',-,hstate⟩ := h.node _ i hold
          obtain rfl : n = n' := by exact_mod_cast hn'
          exact hstate hdead
        rcases holdsMiss_engine hj with hold | ⟨rfl,payload,hreply⟩ <;>
          rcases holdsMiss_engine hj' with hold' | ⟨rfl,payload',hreply'⟩
        · exact h.unique m j j' hold hold'
        · exact absurd hold (hfirst payload' j (Reply.checked.inj hreply'))
        · exact absurd hold' (hfirst payload j' (Reply.checked.inj hreply))
        · rfl
    · obtain ⟨rfl,rfl⟩ := Prod.mk.inj hact
      refine h.of_holds (fun m j hj => ?_) fun n => set_calm hc n
      rcases holdsMiss_engine hj with hold | ⟨-,payload',hreply⟩
      · exact hold
      · cases hreply
    · obtain ⟨rfl,rfl⟩ := Prod.mk.inj hact
      exact absurd request (by unfold Requests; split <;> simp_all)

/-- In a calm run each node is handed out once. -/
theorem handedOut_of_run (hrun : DeploymentRun sha256 es d) (hcalm : ∀ τ ∈ es, Calm τ) :
    HandedOut es d := by
  refine hrun.historyInvariant (P := Calm) (I := HandedOut) ?_ hcalm ?_
  · rintro es ⟨u,act,v⟩ hstep hτ h
    exact h.snoc hstep hτ
  · have hnone : ∀ m id, ¬ HoldsMiss m id ([] : List (DeploymentBeat K))
        ⟨freshArena K,fun _ => none,startProxy⟩ := by
      rintro m id (⟨payload,h⟩ | h)
      · cases h
      · exact not_happened_nil h
    exact ⟨fun m id h => absurd h (hnone m id),fun m id _ h => absurd h (hnone m id)⟩

def Deferred (m : ℤ) (id : ThreadId) (τ : ProxyBeat) : Prop :=
  ∃ payload, τ.act = (id, .answer (.ok ⟨.pending,m,payload⟩))

/-- A handler that is answered with the reservation of node `n`, or with its `PENDING` and
looks up while the pioneer of the node is in flight. -/
def Covered (n : ℕ) (id : ThreadId) (es : List (DeploymentBeat K)) : Prop :=
  Happened (Missed n id) (proxyBeats es) ∨ Happened (Deferred n id) (proxyBeats es) ∧
    Happened (Sheltered (Int32.ofInt n) id) (proxyBeats es)

theorem nodeId_injective {n n' : ℕ} (hn : n < l0MaxSlots) (hn' : n' < l0MaxSlots)
    (h : Int32.ofInt n = Int32.ofInt n') : n = n' := by
  have hmax : l0MaxSlots < 2 ^ 31 := by decide
  have heq := congrArg Int32.toInt h
  rw [Int32.toInt_ofInt_of_le (by omega) (by omega),
    Int32.toInt_ofInt_of_le (by omega) (by omega)] at heq
  exact_mod_cast heq

theorem one_registers (hrun : DeploymentRun sha256 es d) (hcalm : ∀ τ ∈ es, Calm τ)
    {nodeId : Int32} {i j : ThreadId} (hi : Happened (RegistersAt nodeId i) (proxyBeats es))
    (hj : Happened (RegistersAt nodeId j) (proxyBeats es)) : i = j := by
  have hout := handedOut_of_run hrun hcalm
  have hsourced := (proxy_invariant (proxy_run hrun)).1
  obtain ⟨m,hm,rfl⟩ := hsourced.registered i nodeId hi
  obtain ⟨m',hm',heq⟩ := hsourced.registered j _ hj
  obtain ⟨n,rfl,hn,-⟩ := hout.node m i (.inr hm)
  obtain ⟨n',rfl,hn',-⟩ := hout.node m' j (.inr hm')
  obtain rfl := nodeId_injective hn' hn heq
  exact hout.unique _ i j (.inr hm) (.inr hm')

omit [Scoring K] in
theorem no_failure (hcalm : ∀ τ ∈ es, Calm τ) (id : ThreadId) :
    ¬ Happened (LLMFailed id) (proxyBeats es) := by
  rintro ⟨σ,hσ,newRequest,res,hact,hfail⟩
  obtain ⟨τ,hτ,hproj⟩ := List.mem_filterMap.mp hσ
  obtain ⟨b,hb,rfl⟩ := Option.map_eq_some_iff.mp hproj
  simp only at hact
  subst hact
  have hcalmτ := hcalm τ hτ
  obtain ⟨u,act,v⟩ := τ
  cases act with
  | engine | collect => cases hb
  | proxy j act =>
    obtain ⟨rfl,rfl⟩ := Prod.mk.inj (Option.some.inj hb)
    exact hfail hcalmτ

/-- Of the handlers that share one reservation, those that are not left without a
promise by a look-up outside the pioneer's flight make one LLM call at most. -/
theorem single_call (hrun : DeploymentRun sha256 es d) (hcalm : ∀ τ ∈ es, Calm τ) (n : ℕ) :
    ∀ es₁ σ es₂ τ es₃ id id', proxyBeats es = es₁ ++ σ :: (es₂ ++ τ :: es₃) → Covered n id es →
      Covered n id' es → CallsLLM id σ → ¬ CallsLLM id' τ := by
  intro es₁ σ es₂ τ es₃ id id' heq hid hid' hσ hτ
  have hproxy := proxy_run hrun
  have hone : ∀ i j, Happened (RegistersAt (Int32.ofInt n) i) (proxyBeats es) →
      Happened (RegistersAt (Int32.ofInt n) j) (proxyBeats es) → i = j := fun i j hi hj =>
    one_registers hrun hcalm hi hj
  have hspare := sparing_of_run hproxy (no_failure hcalm) hone
  have hmissed : ∀ j, Covered n j es → Happened (CallsLLM j) (proxyBeats es) →
      Happened (Missed n j) (proxyBeats es) := by
    rintro j (hj | ⟨-,hj⟩) hcall
    · exact hj
    · have hl := hspare j
      cases hthread : d.proxy.threads j with
      | handler x =>
        rw [hthread] at hl
        exact absurd hcall (hl.2 hj)
      | worker | fastcache =>
        rw [hthread] at hl
        exact absurd hcall hl
  have hcall : Happened (CallsLLM id) (proxyBeats es) := ⟨σ,by simp [heq],hσ⟩
  have hcall' : Happened (CallsLLM id') (proxyBeats es) := ⟨τ,by simp [heq],hτ⟩
  obtain rfl := (handedOut_of_run hrun hcalm).unique n id id' (.inr (hmissed id hid hcall))
    (.inr (hmissed id' hid' hcall'))
  have hllm := no_failure hcalm
  rw [heq] at hproxy hone hllm
  exact calls_once hproxy hllm hone hσ hτ

end Reservations

section Replay
variable {K : Type*} [Scoring K] {sha256 : List UInt8 → List UInt8}
  {es : List (DeploymentBeat K)} {d : Deployment K} {id : ThreadId} {c c' : ProxyThread}
  {act : ProxyAction} {g' : Proxy}

theorem exists_proxyStep (hrun : DeploymentRun sha256 es d) (hc : d.proxy.threads id = c)
    (h : ProxyStep sha256 d.proxy.shared c act g' c') (delivers : Delivers d.inflight id act) :
    ∃ d', DeploymentRun sha256 (es ++ [⟨d,.proxy id act,d'⟩]) d' ∧ d'.arena = d.arena ∧
      d'.inflight = afterDelivery d.inflight id act ∧ d'.proxy.shared = g' ∧
      d'.proxy.threads = Function.update d.proxy.threads id c' := by
  rw [← hc] at h
  exact ⟨_,hrun.snoc (.proxy delivers (moves_update h)),rfl,rfl,rfl,rfl⟩

theorem exists_proxyAlone {fs : List (Transition (Proxy × ProxyThread) ProxyAction)}
    (hrun : DeploymentRun sha256 es d) (hc : d.proxy.threads id = c)
    (hsolo : Run (Solo (ProxyStep sha256)) (d.proxy.shared, c) fs (g', c'))
    (hquiet : ∀ τ ∈ fs, (∀ r, τ.act ≠ .answer r) ∧ ∀ r, τ.act ≠ .stored r) : ∃ gs d',
      DeploymentRun sha256 (es ++ gs) d' ∧
      gs.map (fun τ => τ.act) = fs.map (fun τ => .proxy id τ.act) ∧ d'.arena = d.arena ∧
      d'.inflight = d.inflight ∧ d'.proxy.shared = g' ∧
      d'.proxy.threads = Function.update d.proxy.threads id c' := by
  generalize hstart : (d.proxy.shared, c) = start at hsolo
  generalize hend : (g', c') = stop at hsolo
  induction hsolo generalizing g' c' with
  | nil =>
    rw [← hend, Prod.mk.injEq] at hstart
    obtain ⟨rfl,rfl⟩ := hstart
    exact ⟨[],d,by simpa using hrun,rfl,rfl,rfl,rfl,by rw [← hc, Function.update_eq_self]⟩
  | @snoc x y fs a run fire ih =>
    subst hend
    rw [List.forall_mem_append] at hquiet
    obtain ⟨gs,e,he,hacts,harena,hinflight,hshared,hthreads⟩ := ih hquiet.1 rfl
    have hthread : e.proxy.threads id = x.2 := by rw [hthreads, Function.update_self]
    have hstep : ProxyStep sha256 e.proxy.shared x.2 a g' c' := by
      rw [hshared]
      exact fire
    obtain ⟨hanswer,hstored⟩ := hquiet.2 _ (List.mem_singleton_self _)
    have hdeliver : Delivers e.inflight id a ∧ afterDelivery e.inflight id a = e.inflight := by
      cases a with
      | answer r => exact absurd rfl (hanswer r)
      | stored r => exact absurd rfl (hstored r)
      | serve | llm | registry | drop | proceed => exact ⟨trivial,rfl⟩
    obtain ⟨e',he',harena',hinflight',hshared',hthreads'⟩ :=
      exists_proxyStep he hthread hstep hdeliver.1
    refine ⟨gs ++ [_],e',by simpa using he',by simp [hacts],harena'.trans harena,
      hinflight'.trans (hdeliver.2.trans hinflight),hshared',?_⟩
    rw [hthreads', hthreads, Function.update_idem]

theorem exists_engineStep (id : ThreadId) (call : Call K) {reply : Reply}
    {arena' : MemoryArena (Vec K)}
    (hrun : DeploymentRun sha256 es d) (request : Requests (d.proxy.threads id) call)
    (waiting : d.inflight id = none) (fire : Fires d.arena (call, reply) arena') :
    ∃ d', DeploymentRun sha256 (es ++ [⟨d,.engine id call reply,d'⟩]) d' ∧ d'.arena = arena' ∧
      d'.inflight = Function.update d.inflight id (some reply) ∧ d'.proxy = d.proxy :=
  ⟨_,hrun.snoc (.engine request waiting fire),rfl,rfl,rfl⟩

omit [Scoring K] in
theorem exists_missThenPending : ∃ one two : MemoryArena (Vec ℚ),
    Fires (freshArena ℚ) (.checkCache [1] (.ok (axis 0)) 1, .checked (.ok ⟨.miss,0,[]⟩)) one ∧
      Fires one (.checkCache [1] (.ok (axis 0)) 1, .checked (.ok ⟨.pending,0,[]⟩)) two ∧
      ∀ i, (one.metadata i).expired 1 = false := by
  obtain ⟨one,hone,hnode,hother,hvec,-⟩ := exists_firstMiss (axis 0 : Vec ℚ) 1
  have hmatch : (one.metadata 0).matchable 1 = true := by
    rw [hnode]
    decide
  have hsimilar : Similar (axis 0) (one.vectors 0) := by
    rw [hvec]
    exact (axis_normalized 0).similar
  have hbest := bestSlot_of_greatest (t := 1) (by decide) hmatch hsimilar (by
    intro i _ hi hm
    rw [hother i hi] at hm
    exact absurd hm (by decide))
  have hpending : CheckOutcome (axis 0) 1 one (.ok ⟨.pending,0,[]⟩) (expireSlots 1 one) :=
    .pending (by rw [hbest]) (by rw [hbest]; exact hsimilar) (by rw [hnode]; decide)
  refine ⟨one,_,hone,fires_checkCache.mpr (hpending.checkCache_eq (by simp)),fun i => ?_⟩
  by_cases hi : i = 0
  · rw [hi, hnode]
    decide
  · rw [hother i hi]
    decide

omit [Scoring K] in
theorem exists_asking {es : List (DeploymentBeat ℚ)} {d : Deployment ℚ}
    (hrun : DeploymentRun (Equiv.swap [1] digestOfOne) es d) (i : ℕ)
    (hidle : d.proxy.threads (.request i) = .handler ⟨.idle,[],.accepting⟩)
    (hcache : d.proxy.shared.l0Cache = fun _ => none) : ∃ gs d',
      DeploymentRun (Equiv.swap [1] digestOfOne) (es ++ gs) d' ∧
      gs.map (fun τ => τ.act) = [.proxy (.request i) (.serve ⟨"POST",.ok ⟨[1],[2]⟩⟩),
        .proxy (.request i) .proceed] ∧ d'.arena = d.arena ∧ d'.inflight = d.inflight ∧
      d'.proxy.shared = d.proxy.shared ∧ d'.proxy.threads =
        Function.update d.proxy.threads (.request i) (.handler ⟨.idle,[],.asking ⟨[1],[2]⟩⟩) :=
  exists_proxyAlone hrun hidle
    (solo_ask (Equiv.swap [1] digestOfOne) ⟨[1],[2]⟩ (by rw [hcache]) (by decide)) (by simp)

omit [Scoring K] in
theorem calm_of_acts {gs : List (DeploymentBeat K)} {acts : List (DeploymentAction K)}
    (hacts : gs.map (fun τ => τ.act) = acts)
    (h : ∀ a ∈ acts, ∃ id act, a = .proxy id act ∧
      ∀ newRequest res, act = .llm newRequest res → (forwardToLLM newRequest res).2 = none) :
    ∀ τ ∈ gs, Calm τ := by
  intro τ hτ
  obtain ⟨id,act,hact,hllm⟩ := h τ.act (Transition.act_mem hacts hτ)
  unfold Calm
  rw [hact]
  cases act with
  | llm newRequest res => exact hllm newRequest res rfl
  | serve | answer | registry | stored | drop | proceed => trivial

omit [Scoring K] in
/-- Two requests with one prompt are under way; the first is answered with the
reservation of node 0, registers and calls the LLM, the second's `PENDING` is in flight. -/
theorem exists_pioneerCalling : ∃ (es : List (DeploymentBeat ℚ)) (d : Deployment ℚ),
    DeploymentRun (Equiv.swap [1] digestOfOne) es d ∧ (∀ τ ∈ es, Calm τ) ∧
      es.map (fun τ => τ.act) =
        [.proxy (.request 0) (.serve ⟨"POST",.ok ⟨[1],[2]⟩⟩), .proxy (.request 0) .proceed,
          .proxy (.request 1) (.serve ⟨"POST",.ok ⟨[1],[2]⟩⟩), .proxy (.request 1) .proceed,
          .engine (.request 0) (.checkCache [1] (.ok (axis 0)) 1) (.checked (.ok ⟨.miss,0,[]⟩)),
          .engine (.request 1) (.checkCache [1] (.ok (axis 0)) 1)
            (.checked (.ok ⟨.pending,0,[]⟩)),
          .proxy (.request 0) (.answer (.ok ⟨.miss,0,[]⟩)),
          .proxy (.request 0) (.registry (.register 0))] ∧
      Happened (Missed 0 (.request 0)) (proxyBeats es) ∧
      Happened (CallsLLM (.request 0)) (proxyBeats es) ∧
      d.inflight (.request 1) = some (.checked (.ok ⟨.pending,0,[]⟩)) ∧
      d.proxy.threads (.request 0) =
        .handler ⟨.pioneer 0 0,[],.forwarding ⟨[1],[2]⟩ (.pioneer 0)⟩ ∧
      d.proxy.threads (.request 1) = .handler ⟨.idle,[],.asking ⟨[1],[2]⟩⟩ ∧
      d.proxy.shared = ⟨((freshRegistry ServiceError).pioneerRegister 0).2,fun _ => none,[]⟩ := by
  obtain ⟨one,two,hone,htwo,hfresh⟩ := exists_missThenPending
  have hstart : DeploymentRun (Equiv.swap [1] digestOfOne) []
    (⟨freshArena ℚ,fun _ => none,startProxy⟩ : Deployment ℚ) := .nil _
  obtain ⟨gs₁,d₁,hrun₁,hacts₁,harena₁,hinflight₁,hshared₁,hthreads₁⟩ :=
    exists_asking hstart 0 rfl rfl
  obtain ⟨gs₂,d₂,hrun₂,hacts₂,harena₂,hinflight₂,hshared₂,hthreads₂⟩ :=
    exists_asking hrun₁ 1 (by rw [hthreads₁]; rfl) (by rw [hshared₁]; rfl)
  have hzero : d₂.proxy.threads (.request 0) = .handler ⟨.idle,[],.asking ⟨[1],[2]⟩⟩ := by
    rw [hthreads₂, Function.update_of_ne (by decide), hthreads₁, Function.update_self]
  have hfirst : d₂.proxy.threads (.request 1) = .handler ⟨.idle,[],.asking ⟨[1],[2]⟩⟩ := by
    rw [hthreads₂, Function.update_self]
  obtain ⟨d₃,hrun₃,harena₃,hinflight₃,hproxy₃⟩ := exists_engineStep (.request 0)
    (.checkCache [1] (.ok (axis 0)) 1) hrun₂ (by rw [hzero]; rfl)
    (by rw [hinflight₂, hinflight₁]) (by rw [harena₂, harena₁]; exact hone)
  obtain ⟨d₄,hrun₄,harena₄,hinflight₄,hproxy₄⟩ := exists_engineStep (.request 1)
    (.checkCache [1] (.ok (axis 0)) 1) hrun₃ (by rw [hproxy₃, hfirst]; rfl)
    (by rw [hinflight₃, Function.update_of_ne (by decide), hinflight₂, hinflight₁])
    (by rw [harena₃]; exact htwo)
  have hanswer : ProxyStep (Equiv.swap [1] digestOfOne) d₄.proxy.shared
      (.handler ⟨.idle,[],.asking ⟨[1],[2]⟩⟩) (.answer (.ok ⟨.miss,0,[]⟩)) d₄.proxy.shared
      (.handler ⟨.idle,[],.registering ⟨[1],[2]⟩ 0⟩) := .handler .answer
  have hmissed : d₄.inflight (.request 0) = some (.checked (.ok ⟨.miss,0,[]⟩)) := by
    rw [hinflight₄, Function.update_of_ne (by decide), hinflight₃, Function.update_self]
  obtain ⟨d₅,hrun₅,harena₅,hinflight₅,hshared₅,hthreads₅⟩ := exists_proxyStep hrun₄
    (by rw [hproxy₄, hproxy₃, hzero]) hanswer hmissed
  have hregister : ProxyStep (Equiv.swap [1] digestOfOne) d₅.proxy.shared
      (.handler ⟨.idle,[],.registering ⟨[1],[2]⟩ 0⟩) (.registry (.register 0))
      { d₅.proxy.shared with registry := (d₅.proxy.shared.registry.pioneerRegister 0).2 }
      (.handler ⟨.pioneer 0 d₅.proxy.shared.registry.allocated,[],
        .forwarding ⟨[1],[2]⟩ (.pioneer 0)⟩) := .handler (.registry .pioneerRegister .register)
  obtain ⟨d₆,hrun₆,harena₆,hinflight₆,hshared₆,hthreads₆⟩ := exists_proxyStep hrun₅
    (by rw [hthreads₅, Function.update_self]) hregister trivial
  have hshared : d₅.proxy.shared = startProxy.shared := by
    rw [hshared₅, hproxy₄, hproxy₃, hshared₂, hshared₁]
  rw [hshared] at hthreads₆ hshared₆
  refine ⟨_,d₆,hrun₆,?_,?_,?_,?_,?_,?_,?_,?_⟩
  · have hcalm₁ := calm_of_acts hacts₁ (by simp)
    have hcalm₂ := calm_of_acts hacts₂ (by simp)
    have hcalm₃ : ∀ i, (d₂.arena.metadata i).expired 1 = false := by
      rw [harena₂, harena₁]
      exact fun i => MetaNode.not_expired_of_dead (freshArena_state i)
    have hcalm₄ : ∀ i, (d₃.arena.metadata i).expired 1 = false := by rwa [harena₃]
    simp only [List.nil_append, List.forall_mem_append, List.forall_mem_singleton]
    exact ⟨⟨⟨⟨⟨hcalm₁,hcalm₂⟩,hcalm₃⟩,hcalm₄⟩,trivial⟩,trivial⟩
  · simp [hacts₁, hacts₂]
  · refine ⟨⟨d₄.proxy,(.request 0, .answer (.ok ⟨.miss,0,[]⟩)),d₅.proxy⟩,?_,[],rfl⟩
    simp [proxyBeats, proxyAct]
  · refine ⟨⟨d₅.proxy,(.request 0, .registry (.register 0)),d₆.proxy⟩,?_,rfl,_,_,_,_,
      by rw [hthreads₆]; exact Function.update_self _ _ _⟩
    simp [proxyBeats, proxyAct]
  · have hlast : d₆.inflight = Function.update d₄.inflight (.request 0) none :=
      hinflight₆.trans hinflight₅
    rw [hlast, Function.update_of_ne (by decide), hinflight₄, Function.update_self]
  · rw [hthreads₆, Function.update_self]
    rfl
  · rw [hthreads₆, Function.update_of_ne (by decide), hthreads₅, Function.update_of_ne (by decide),
      hproxy₄, hproxy₃, hfirst]
  · rw [hshared₆]
    rfl

omit [Scoring K] in
theorem exists_withdrawn {es : List (DeploymentBeat ℚ)} {d : Deployment ℚ}
    (hrun : DeploymentRun (Equiv.swap [1] digestOfOne) es d)
    (hzero : d.proxy.threads (.request 0) =
      .handler ⟨.pioneer 0 0,[],.forwarding ⟨[1],[2]⟩ (.pioneer 0)⟩)
    (hshared : d.proxy.shared =
      ⟨((freshRegistry ServiceError).pioneerRegister 0).2,fun _ => none,[]⟩) : ∃ gs d',
      DeploymentRun (Equiv.swap [1] digestOfOne) (es ++ gs) d' ∧ (∀ τ ∈ gs, Calm τ) ∧
      gs.map (fun τ => τ.act) = [.proxy (.request 0) (.llm (.ok ()) (.ok ⟨200,.ok [7]⟩)),
        .proxy (.request 0) .proceed, .proxy (.request 0) .proceed, .proxy (.request 0) .proceed,
        .proxy (.request 0) (.registry (.fulfill [7] none)),
        .proxy (.request 0) (.registry .proceed), .proxy (.request 0) (.registry .proceed),
        .proxy (.request 0) (.registry .proceed), .proxy (.request 0) (.registry .proceed)] ∧
      d'.arena = d.arena ∧ d'.inflight = d.inflight ∧ d'.proxy.shared.l0Cache =
        Function.update (fun _ => none) (Equiv.swap [1] digestOfOne [1]) (some [7]) ∧
      d'.proxy.shared.queue = [⟨0,[7]⟩] ∧ d'.proxy.shared.registry.lookUp 0 = none ∧
      d'.proxy.shared.registry.promises 0 = ⟨[7],none,true⟩ ∧
      ∀ id, id ≠ .request 0 → d'.proxy.threads id = d.proxy.threads id := by
  obtain ⟨fs,g,hsolo,hfs,hl0,hqueue,hlook,hpromise⟩ := exists_soloPioneer (g := d.proxy.shared)
    (Equiv.swap [1] digestOfOne) ⟨[1],[2]⟩ 0 0 [7] (by rw [hshared]; rfl) (by decide)
    (by rw [hshared]; decide)
  have hquiet : ∀ τ ∈ fs, (∀ r, τ.act ≠ .answer r) ∧ ∀ r, τ.act ≠ .stored r := by
    intro τ hτ
    have hmem := Transition.act_mem hfs hτ
    simp only [List.mem_cons, List.not_mem_nil, or_false] at hmem
    rcases hmem with h | h | h | h | h | h | h | h | h <;> simp [h]
  obtain ⟨gs,d',hrun',hacts,harena,hinflight,hshared',hthreads⟩ :=
    exists_proxyAlone hrun hzero hsolo hquiet
  have hacts' : gs.map (fun τ => τ.act) =
      (fs.map fun τ => τ.act).map (.proxy (.request 0)) := by
    rw [hacts, List.map_map]
    rfl
  rw [hfs] at hacts'
  refine ⟨gs,d',hrun',calm_of_acts hacts' (by simp [forwardToLLM]),hacts',harena,hinflight,?_,?_,
    ?_,?_,fun id hid => ?_⟩
  · rw [hshared', hl0, hshared]
  · rw [hshared', hqueue, hshared]
    rfl
  · rw [hshared', hlook, Function.update_self]
  · rw [hshared', hpromise]
  · rw [hthreads, Function.update_of_ne hid]

omit [Scoring K] in
/-- A handler whose `PENDING` is in flight gets it and looks its promise up. -/
theorem exists_lookedUp {es : List (DeploymentBeat ℚ)} {d : Deployment ℚ}
    (hrun : DeploymentRun (Equiv.swap [1] digestOfOne) es d)
    (hasks : d.proxy.threads (.request 1) = .handler ⟨.idle,[],.asking ⟨[1],[2]⟩⟩)
    (hinflight : d.inflight (.request 1) = some (.checked (.ok ⟨.pending,0,[]⟩))) : ∃ fs d',
      DeploymentRun (Equiv.swap [1] digestOfOne) (es ++ fs) d' ∧
      fs.map (fun τ => τ.act) = [.proxy (.request 1) (.answer (.ok ⟨.pending,0,[]⟩)),
        .proxy (.request 1) (.registry (.await 0))] ∧
      Happened (Deferred 0 (.request 1)) (proxyBeats fs) ∧
      (∀ p, callOf (d.proxy.threads (.request 0)) = .pioneer 0 p →
        Happened (Sheltered 0 (.request 1)) (proxyBeats fs)) ∧
      d'.proxy.shared = d.proxy.shared ∧ d'.proxy.threads = Function.update d.proxy.threads
        (.request 1) (.handler ⟨.lookedUp 0 (d.proxy.shared.registry.lookUp 0),[],
          .awaiting ⟨[1],[2]⟩ 0⟩) := by
  have hanswer : ProxyStep (Equiv.swap [1] digestOfOne) d.proxy.shared
      (.handler ⟨.idle,[],.asking ⟨[1],[2]⟩⟩) (.answer (.ok ⟨.pending,0,[]⟩)) d.proxy.shared
      (.handler ⟨.idle,[],.awaiting ⟨[1],[2]⟩ 0⟩) := .handler .answer
  obtain ⟨d₂,hrun₂,-,-,hshared₂,hthreads₂⟩ := exists_proxyStep hrun hasks hanswer hinflight
  have hawait : ProxyStep (Equiv.swap [1] digestOfOne) d₂.proxy.shared
      (.handler ⟨.idle,[],.awaiting ⟨[1],[2]⟩ 0⟩) (.registry (.await 0)) d₂.proxy.shared
      (.handler ⟨.lookedUp 0 (d₂.proxy.shared.registry.lookUp 0),[],.awaiting ⟨[1],[2]⟩ 0⟩) :=
    .handler (.registry .herdAwait .lookUp)
  obtain ⟨d₃,hrun₃,-,-,hshared₃,hthreads₃⟩ := exists_proxyStep hrun₂
    (by rw [hthreads₂, Function.update_self]) hawait trivial
  rw [List.append_assoc] at hrun₃
  refine ⟨_,d₃,hrun₃,rfl,?_,fun p hpioneer => ?_,hshared₃.trans hshared₂,?_⟩
  · refine ⟨⟨d.proxy,(.request 1, .answer (.ok ⟨.pending,0,[]⟩)),d₂.proxy⟩,?_,[],rfl⟩
    simp [proxyBeats, proxyAct]
  · have hin : ((callers d₂.proxy).threads (.request 0)).InFlight 0 p := by
      have hkept : d₂.proxy.threads (.request 0) = d.proxy.threads (.request 0) := by
        rw [hthreads₂, Function.update_of_ne (by decide)]
      simp only [callers, hkept, hpioneer]
      exact ⟨rfl,rfl⟩
    refine ⟨⟨d₂.proxy,(.request 1, .registry (.await 0)),d₃.proxy⟩,?_,rfl,.request 0,p,hin⟩
    simp [proxyBeats, proxyAct]
  · rw [hthreads₃, hthreads₂, Function.update_idem, hshared₂]

omit [Scoring K] in
theorem exists_herdWriting {es : List (DeploymentBeat ℚ)} {d : Deployment ℚ}
    {payload : List UInt8} (hrun : DeploymentRun (Equiv.swap [1] digestOfOne) es d)
    (hwaits : d.proxy.threads (.request 1) =
      .handler ⟨.waiting 0 0,[],.awaiting ⟨[1],[2]⟩ 0⟩)
    (hready : d.proxy.shared.registry.promises 0 = ⟨payload,none,true⟩) : ∃ fs d',
      DeploymentRun (Equiv.swap [1] digestOfOne) (es ++ fs) d' ∧ (∀ τ ∈ fs, Calm τ) ∧
      d'.proxy.threads (.request 1) =
        .handler ⟨.returned 0 ⟨payload,none,false,true⟩,[],.writing ⟨[1],[2]⟩ .herd payload⟩ := by
  have hwake : Solo (ProxyStep (Equiv.swap [1] digestOfOne))
      (d.proxy.shared, .handler ⟨.waiting 0 0,[],.awaiting ⟨[1],[2]⟩ 0⟩) (.registry .proceed)
      (d.proxy.shared, .handler ⟨.reading 0 0,[],.awaiting ⟨[1],[2]⟩ 0⟩) :=
    .handler (.registry .herdProceed (.wake (by rw [hready])))
  have hresult : CallerStep d.proxy.shared.registry (.reading 0 0) .proceed
      d.proxy.shared.registry (.returned 0 ⟨payload,none,false,true⟩) := by
    have hstep : CallerStep d.proxy.shared.registry (.reading 0 0) .proceed
      d.proxy.shared.registry (.returned 0 ⟨(d.proxy.shared.registry.promises 0).payload,
        (d.proxy.shared.registry.promises 0).err,false,true⟩) := .read
    rwa [hready] at hstep
  have hread : Solo (ProxyStep (Equiv.swap [1] digestOfOne))
      (d.proxy.shared, .handler ⟨.reading 0 0,[],.awaiting ⟨[1],[2]⟩ 0⟩) (.registry .proceed)
      (d.proxy.shared,
        .handler ⟨.returned 0 ⟨payload,none,false,true⟩,[],.awaiting ⟨[1],[2]⟩ 0⟩) :=
    .handler (.registry .herdProceed hresult)
  have hreturn : Solo (ProxyStep (Equiv.swap [1] digestOfOne))
      (d.proxy.shared, .handler ⟨.returned 0 ⟨payload,none,false,true⟩,[],.awaiting ⟨[1],[2]⟩ 0⟩)
      .proceed (d.proxy.shared, .handler ⟨.returned 0 ⟨payload,none,false,true⟩,[],
        .writing ⟨[1],[2]⟩ .herd payload⟩) := .handler .herdReturned
  obtain ⟨gs,d',hrun',hacts,-,-,-,hthreads⟩ := exists_proxyAlone hrun hwaits
    (((Run.single hwake).snoc hread).snoc hreturn) (by simp)
  exact ⟨gs,d',hrun',calm_of_acts hacts (by simp),by rw [hthreads, Function.update_self]⟩

omit [Scoring K] in
/-- The handler that claims node 0 and the one that its `PENDING` sends to the promise make
one LLM call between them, and the second writes the payload of the first. -/
theorem single_call_replay : ∃ (es : List (DeploymentBeat ℚ)) (d : Deployment ℚ),
    DeploymentRun (Equiv.swap [1] digestOfOne) es d ∧
      Happened (CallsLLM (.request 0)) (proxyBeats es) ∧
      Happened (Missed 0 (.request 0)) (proxyBeats es) ∧
      Happened (Deferred 0 (.request 1)) (proxyBeats es) ∧
      Happened (Sheltered 0 (.request 1)) (proxyBeats es) ∧
      d.proxy.threads (.request 1) =
        .handler ⟨.returned 0 ⟨[7],none,false,true⟩,[],.writing ⟨[1],[2]⟩ .herd [7]⟩ ∧
      ∀ id ∈ [ThreadId.request 0, .request 1], ∀ id' ∈ [ThreadId.request 0, .request 1],
        ∀ es₁ σ es₂ τ es₃, proxyBeats es = es₁ ++ σ :: (es₂ ++ τ :: es₃) →
          CallsLLM id σ → ¬ CallsLLM id' τ := by
  obtain ⟨es,d,hrun,hcalm,-,hmissed,hcalls,hinflight,hzero,hone,hshared⟩ := exists_pioneerCalling
  obtain ⟨fs,d₁,hrun₁,hacts₁,hdeferred,hshelters,hshared₁,hthreads₁⟩ :=
    exists_lookedUp hrun hone hinflight
  have hlook : d.proxy.shared.registry.lookUp 0 = some 0 := by
    rw [hshared]
    decide
  rw [hlook] at hthreads₁
  have hsheltered := hshelters 0 (by rw [hzero]; rfl)
  obtain ⟨gs,d₂,hrun₂,hcalm₂,-,-,-,-,-,-,hready,hkept⟩ := exists_withdrawn hrun₁
    (by rw [hthreads₁, Function.update_of_ne (by decide), hzero]) (hshared₁.trans hshared)
  obtain ⟨ks,d₃,hrun₃,hcalm₃,hwriting⟩ := exists_herdWriting hrun₂
    (by rw [hkept _ (by decide), hthreads₁, Function.update_self]; rfl) hready
  rw [List.append_assoc, List.append_assoc] at hrun₃
  have hall : ∀ τ ∈ es ++ (fs ++ (gs ++ ks)), Calm τ := by
    simp only [List.forall_mem_append]
    exact ⟨hcalm,calm_of_acts hacts₁ (by simp),hcalm₂,hcalm₃⟩
  have hbeats : proxyBeats (es ++ (fs ++ (gs ++ ks))) =
      proxyBeats es ++ (proxyBeats fs ++ proxyBeats (gs ++ ks)) := by
    rw [proxyBeats_append, proxyBeats_append]
  have hmissed' := hbeats ▸ hmissed.mono _
  have hdeferred' := hbeats ▸ (hdeferred.mono _).of_suffix (List.suffix_append (proxyBeats es) _)
  have hsheltered' := hbeats ▸ (hsheltered.mono _).of_suffix (List.suffix_append (proxyBeats es) _)
  have hcovered : ∀ id ∈ [ThreadId.request 0, .request 1],
      Covered 0 id (es ++ (fs ++ (gs ++ ks))) := by
    intro id hid
    simp only [List.mem_cons, List.not_mem_nil, or_false] at hid
    rcases hid with rfl | rfl
    · exact .inl hmissed'
    · exact .inr ⟨hdeferred',hsheltered'⟩
  refine ⟨_,d₃,hrun₃,hbeats ▸ hcalls.mono _,hmissed',hdeferred',hsheltered',hwriting,?_⟩
  intro id hid id' hid' es₁ σ es₂ τ es₃ heq
  exact single_call hrun₃ hall 0 es₁ σ es₂ τ es₃ id id' heq (hcovered id hid) (hcovered id' hid')

omit [Scoring K] in
/-- A handler whose `PENDING` is in flight while the node has no promise calls the LLM. -/
theorem exists_unsheltered {es : List (DeploymentBeat ℚ)} {d : Deployment ℚ}
    (hrun : DeploymentRun (Equiv.swap [1] digestOfOne) es d)
    (hasks : d.proxy.threads (.request 1) = .handler ⟨.idle,[],.asking ⟨[1],[2]⟩⟩)
    (hinflight : d.inflight (.request 1) = some (.checked (.ok ⟨.pending,0,[]⟩)))
    (hnone : d.proxy.shared.registry.lookUp 0 = none) : ∃ fs d',
      DeploymentRun (Equiv.swap [1] digestOfOne) (es ++ fs) d' ∧ (∀ τ ∈ fs, Calm τ) ∧
      fs.map (fun τ => τ.act) = [.proxy (.request 1) (.answer (.ok ⟨.pending,0,[]⟩)),
        .proxy (.request 1) (.registry (.await 0)), .proxy (.request 1) .proceed,
        .proxy (.request 1) (.llm (.ok ()) (.ok ⟨200,.ok [8]⟩))] ∧
      Happened (Deferred 0 (.request 1)) (proxyBeats fs) ∧
      Happened (CallsLLM (.request 1)) (proxyBeats fs) := by
  obtain ⟨fs,d₃,hrun₃,hacts₃,hdeferred,-,-,hthreads₃⟩ :=
    exists_lookedUp hrun hasks hinflight
  rw [hnone] at hthreads₃
  have hreturn : ProxyStep (Equiv.swap [1] digestOfOne) d₃.proxy.shared
      (.handler ⟨.returned 0 ⟨[],none,false,false⟩,[],.awaiting ⟨[1],[2]⟩ 0⟩) .proceed
      d₃.proxy.shared
      (.handler ⟨.returned 0 ⟨[],none,false,false⟩,[],.forwarding ⟨[1],[2]⟩ (.noPromise 0)⟩) :=
    .handler .herdReturned
  obtain ⟨d₄,hrun₄,-,-,-,hthreads₄⟩ := exists_proxyStep hrun₃
    (by rw [hthreads₃, Function.update_self]; rfl) hreturn trivial
  have hllm : ProxyStep (Equiv.swap [1] digestOfOne) d₄.proxy.shared
      (.handler ⟨.returned 0 ⟨[],none,false,false⟩,[],.forwarding ⟨[1],[2]⟩ (.noPromise 0)⟩)
      (.llm (.ok ()) (.ok ⟨200,.ok [8]⟩)) d₄.proxy.shared
      (.handler ⟨.returned 0 ⟨[],none,false,false⟩,[],
        .writing ⟨[1],[2]⟩ (.llm (.noPromise 0)) [8]⟩) := .handler .llm
  obtain ⟨d₅,hrun₅,-⟩ := exists_proxyStep hrun₄
    (by rw [hthreads₄, Function.update_self]) hllm trivial
  rw [List.append_assoc, List.append_assoc] at hrun₅
  refine ⟨_,d₅,hrun₅,?_,by simp [hacts₃],?_,?_⟩
  · simp only [List.forall_mem_append, List.forall_mem_singleton]
    exact ⟨calm_of_acts hacts₃ (by simp),trivial,rfl⟩
  · rw [proxyBeats_append]
    exact hdeferred.mono _
  · refine ⟨⟨d₃.proxy,(.request 1, .proceed),d₄.proxy⟩,?_,rfl,_,_,_,_,
      by rw [hthreads₄]; exact Function.update_self _ _ _⟩
    simp [proxyBeats, proxyAct]

omit [Scoring K] in
/-- The pioneer fulfills and withdraws its promise before a worker writes the payload
back: a handler that was answered with the node's `PENDING` finds no promise and calls the
LLM a second time. -/
theorem two_calls : ∃ (es : List (DeploymentBeat ℚ)) (d : Deployment ℚ),
    DeploymentRun (Equiv.swap [1] digestOfOne) es d ∧ (∀ τ ∈ es, Calm τ) ∧
      es.map (fun τ => τ.act) =
        [.proxy (.request 0) (.serve ⟨"POST",.ok ⟨[1],[2]⟩⟩), .proxy (.request 0) .proceed,
          .proxy (.request 1) (.serve ⟨"POST",.ok ⟨[1],[2]⟩⟩), .proxy (.request 1) .proceed,
          .engine (.request 0) (.checkCache [1] (.ok (axis 0)) 1) (.checked (.ok ⟨.miss,0,[]⟩)),
          .engine (.request 1) (.checkCache [1] (.ok (axis 0)) 1)
            (.checked (.ok ⟨.pending,0,[]⟩)),
          .proxy (.request 0) (.answer (.ok ⟨.miss,0,[]⟩)),
          .proxy (.request 0) (.registry (.register 0)),
          .proxy (.request 0) (.llm (.ok ()) (.ok ⟨200,.ok [7]⟩)), .proxy (.request 0) .proceed,
          .proxy (.request 0) .proceed, .proxy (.request 0) .proceed,
          .proxy (.request 0) (.registry (.fulfill [7] none)),
          .proxy (.request 0) (.registry .proceed), .proxy (.request 0) (.registry .proceed),
          .proxy (.request 0) (.registry .proceed), .proxy (.request 0) (.registry .proceed),
          .proxy (.request 1) (.answer (.ok ⟨.pending,0,[]⟩)),
          .proxy (.request 1) (.registry (.await 0)), .proxy (.request 1) .proceed,
          .proxy (.request 1) (.llm (.ok ()) (.ok ⟨200,.ok [8]⟩))] ∧
      Happened (Missed 0 (.request 0)) (proxyBeats es) ∧
      Happened (Deferred 0 (.request 1)) (proxyBeats es) ∧
      Happened (CallsLLM (.request 0)) (proxyBeats es) ∧
      Happened (CallsLLM (.request 1)) (proxyBeats es) := by
  obtain ⟨es,d,hrun,hcalm,hacts,hmissed,hcalls,hinflight,hzero,hone,hshared⟩ :=
    exists_pioneerCalling
  obtain ⟨gs,d₁,hrun₁,hcalm₁,hacts₁,-,hinflight₁,-,-,hnone,-,hkept⟩ :=
    exists_withdrawn hrun hzero hshared
  obtain ⟨ks,d₂,hrun₂,hcalm₂,hacts₂,hdeferred,hcalls₂⟩ := exists_unsheltered hrun₁
    ((hkept _ (by decide)).trans hone) (by rw [hinflight₁, hinflight]) hnone
  refine ⟨_,d₂,hrun₂,?_,?_,?_,?_,?_,?_⟩
  · rw [List.forall_mem_append, List.forall_mem_append]
    exact ⟨⟨hcalm,hcalm₁⟩,hcalm₂⟩
  · simp only [List.map_append, hacts, hacts₁, hacts₂]
    rfl
  · rw [proxyBeats_append, proxyBeats_append]
    exact (hmissed.mono _).mono _
  · rw [proxyBeats_append]
    exact hdeferred.of_suffix (List.suffix_append ..)
  · rw [proxyBeats_append, proxyBeats_append]
    exact (hcalls.mono _).mono _
  · rw [proxyBeats_append]
    exact hcalls₂.of_suffix (List.suffix_append ..)

end Replay

end Strix
