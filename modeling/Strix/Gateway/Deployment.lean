import Strix.Gateway.Handler
import Strix.Semantic.LifeCycle

/-! # The gateway in front of the engine

The engine executes the calls of the handlers and of the workers one at a time,
each as a whole; its reply is in flight until the caller takes it, and replies
may overtake each other.
-/
namespace Strix
open RunHistory ThreadPool Scoring

/-- The engine's arena, the replies in flight, and the gateway. -/
structure Deployment (K : Type*) where
  arena : MemoryArena (Vec K)
  inflight : ThreadId → Option Reply
  proxy : ProxyPool

inductive DeploymentAction (K : Type*)
  | engine (id : ThreadId) (call : Call K) (reply : Reply)
  | collect
  | proxy (id : ThreadId) (act : ProxyAction)

section Model
variable {K : Type*}

/-- The RPC a thread has under way; the engine embeds the prompt and reads its clock. -/
def Requests : ProxyThread → Call K → Prop
  | .handler ⟨_,_,.asking apiReq⟩, .checkCache prompt _ _ => prompt = apiReq.prompt
  | .worker (some job), .setCache nodeId payload =>
    nodeId = job.nodeId.toInt ∧ payload = job.payload
  | _, _ => False

/-- An RPC that succeeds gets the reply in flight. -/
def Delivers (inflight : ThreadId → Option Reply) (id : ThreadId) : ProxyAction → Prop
  | .answer (.ok response) => inflight id = some (.checked (.ok response))
  | .stored (.ok success) => inflight id = some (.stored (.ok success))
  | _ => True

def afterDelivery (inflight : ThreadId → Option Reply) (id : ThreadId) :
    ProxyAction → ThreadId → Option Reply
  | .answer _ | .stored _ => Function.update inflight id none
  | _ => inflight

variable (sha256 : List UInt8 → List UInt8)

inductive DeploymentStep [Scoring K] : Deployment K → DeploymentAction K → Deployment K → Prop
  | engine {d : Deployment K} {id : ThreadId} {call : Call K} {reply : Reply}
    {arena' : MemoryArena (Vec K)} (request : Requests (d.proxy.threads id) call)
    (waiting : d.inflight id = none) (fire : Fires d.arena (call, reply) arena') :
    DeploymentStep d (.engine id call reply)
      ⟨arena',Function.update d.inflight id (some reply),d.proxy⟩
  | collect {d : Deployment K} {arena' : MemoryArena (Vec K)}
    (fire : Fires d.arena (.collect, .collected) arena') :
    DeploymentStep d .collect ⟨arena',d.inflight,d.proxy⟩
  | proxy {d : Deployment K} {id : ThreadId} {act : ProxyAction} {proxy' : ProxyPool}
    (delivers : Delivers d.inflight id act)
    (move : Moves (ProxyStep sha256) d.proxy (id, act) proxy') :
    DeploymentStep d (.proxy id act) ⟨d.arena,afterDelivery d.inflight id act,proxy'⟩

abbrev DeploymentBeat (K : Type*) := Transition (Deployment K) (DeploymentAction K)

def DeploymentRun [Scoring K] (es : List (DeploymentBeat K)) (d : Deployment K) : Prop :=
  Run (DeploymentStep sha256) ⟨freshArena K,fun _ => none,startProxy⟩ es d

end Model

section Projection
variable {K : Type*} {sha256 : List UInt8 → List UInt8} {es : List (DeploymentBeat K)}
  {d : Deployment K}

def proxyAct (τ : DeploymentBeat K) : Option (ThreadId × ProxyAction) :=
  match τ.act with
  | .proxy id act => some (id, act)
  | _ => none

def proxyBeats (es : List (DeploymentBeat K)) : List ProxyBeat :=
  es.filterMap fun τ => (proxyAct τ).map fun b => ⟨τ.before.proxy,b,τ.after.proxy⟩

variable [Scoring K]

/-- What the gateway does in front of the engine is a run of the gateway. -/
theorem proxy_run (hrun : DeploymentRun sha256 es d) : ProxyRun sha256 (proxyBeats es) d.proxy := by
  refine hrun.filterMap Deployment.proxy proxyAct ?_ ?_
  · rintro ⟨u,act,v⟩ hstep hnone
    simp only at hstep
    cases hstep with
    | engine | collect => rfl
    | proxy => cases hnone
  · rintro ⟨u,act,v⟩ b hstep hsome
    simp only at hstep
    cases hstep with
    | engine | collect => cases hsome
    | proxy delivers move =>
      obtain rfl := Option.some.inj hsome
      exact move

end Projection

end Strix
