import Strix.Foundation.StepBudget
import Strix.Gateway.SingleCall

/-! # Waiting for the engine (serve.go)

Before the gateway listens, `waitForEngine` asks the engine about the prompt
"health_check" until it gets an answer. These calls are ordinary ones: the engine
reserves a slot for the prompt, and no handler is there to fill it.
-/
namespace Strix
open RunHistory ThreadPool Scoring

/-- The time between two polls, in milliseconds. -/
def pollInterval : ℕ := 100
def pollTimeout : ℕ := 10000

/-- The bytes of "health_check". -/
def healthCheck : List UInt8 := [104,101,97,108,116,104,95,99,104,101,99,107]

inductive PingError
  | unavailable
  | other (what : String)

/-- Where `waitForEngine` stands; `nil` is returned after so many polls. -/
inductive StartupPhase
  | polling (attempt : ℕ)
  | returned (result : Except String ℕ)

/-- The engine's arena, the time since the first poll, and the loop. -/
structure Startup (K : Type*) where
  arena : MemoryArena (Vec K)
  now : ℕ
  phase : StartupPhase

/-- A poll, with the call that reaches the engine, if one does; the end of the loop; a
step of the engine on its own. -/
inductive StartupAction (K : Type*)
  | poll (reached : Option (Call K × Reply)) (pingErr : Option PingError)
  | timeout
  | engine (act : Call K × Reply)

def pinged (attempt : ℕ) : Option PingError → StartupPhase
  | none => .returned (.ok attempt)
  | some .unavailable => .polling (attempt + 1)
  | some (.other what) => .returned (.error ("unexpected error in Vector Engine: " ++ what))

section Model
variable {K : Type*}

def Probes (embedding : Except String (Vec K)) : Call K × Reply → Prop
  | (.checkCache prompt embedding' _, _) => prompt = healthCheck ∧ embedding' = embedding
  | _ => False

/-- A poll that succeeds has an answer of the engine. One that fails may have reached it
all the same, and may do so late; the engine's collector runs meanwhile. -/
inductive StartupStep [Scoring K] (embedding : Except String (Vec K)) :
    Startup K → StartupAction K → Startup K → Prop
  | reached {arena arena' : MemoryArena (Vec K)} {now now' attempt : ℕ} {act : Call K × Reply}
    {pingErr : Option PingError} (before : now < pollTimeout) (probe : Probes embedding act)
    (fire : Fires arena act arena')
    (heard : pingErr = none → ∃ response, act.2 = .checked (.ok response))
    (slept : pingErr = some .unavailable → now + pollInterval ≤ now') :
    StartupStep embedding ⟨arena,now,.polling attempt⟩ (.poll (some act) pingErr)
      ⟨arena',now',pinged attempt pingErr⟩
  | unreached {arena : MemoryArena (Vec K)} {now now' attempt : ℕ} {pingErr : PingError}
    (before : now < pollTimeout) (slept : pingErr = .unavailable → now + pollInterval ≤ now') :
    StartupStep embedding ⟨arena,now,.polling attempt⟩ (.poll none (some pingErr))
      ⟨arena,now',pinged attempt (some pingErr)⟩
  | timeout {arena : MemoryArena (Vec K)} {now attempt : ℕ} (late : pollTimeout ≤ now) :
    StartupStep embedding ⟨arena,now,.polling attempt⟩ .timeout
      ⟨arena,now,.returned (.error "FATAL: unready Vector Engine after 10s second(s)")⟩
  | engine {arena arena' : MemoryArena (Vec K)} {now : ℕ} {phase : StartupPhase}
    {act : Call K × Reply} (own : act = (.collect, .collected) ∨ Probes embedding act)
    (fire : Fires arena act arena') :
    StartupStep embedding ⟨arena,now,phase⟩ (.engine act) ⟨arena',now,phase⟩

abbrev StartupBeat (K : Type*) := Transition (Startup K) (StartupAction K)

def StartupRun [Scoring K] (embedding : Except String (Vec K)) (es : List (StartupBeat K))
    (s : Startup K) : Prop :=
  Run (StartupStep embedding) ⟨freshArena K,0,.polling 1⟩ es s

def pollsOf (es : List (StartupBeat K)) : ℕ :=
  total (fun τ => match τ.act with | .poll _ _ => 1 | _ => 0) es

def startupAct (τ : StartupBeat K) : Option (Call K × Reply) :=
  match τ.act with
  | .poll reached _ => reached
  | .timeout => none
  | .engine act => some act

/-- The engine's clock is never at its zero. -/
def ClockRuns (τ : StartupBeat K) : Prop :=
  ∀ prompt embedding t reply, startupAct τ = some (.checkCache prompt embedding t, reply) → t ≠ 0

end Model

section Polls
variable {K : Type*} [Scoring K] {embedding : Except String (Vec K)} {es : List (StartupBeat K)}
  {s : Startup K}

def Startup.Counted (es : List (StartupBeat K)) (s : Startup K) : Prop :=
  pollsOf es ≤ pollTimeout / pollInterval ∧
    match s.phase with
    | .polling attempt => attempt = pollsOf es + 1 ∧ pollsOf es * pollInterval ≤ s.now
    | .returned (.ok attempt) => attempt = pollsOf es
    | .returned (.error _) => True

omit [Scoring K] in
/-- A poll that is begun before the timeout is at most the hundredth. -/
theorem counted_pinged {arena : MemoryArena (Vec K)} {now now' n : ℕ} {pingErr : Option PingError}
    (hes : pollsOf es = n + 1) (before : now < pollTimeout) (hnow : n * pollInterval ≤ now)
    (slept : pingErr = some .unavailable → now + pollInterval ≤ now') :
    (⟨arena,now',pinged (n + 1) pingErr⟩ : Startup K).Counted es := by
  have hinterval : pollInterval = 100 := rfl
  have htimeout : pollTimeout = 10000 := rfl
  rw [hinterval] at hnow slept
  rw [htimeout] at before
  refine ⟨by rw [hes, hinterval, htimeout]; omega,?_⟩
  cases pingErr with
  | none => exact hes.symm
  | some err =>
    cases err with
    | unavailable =>
      have hslept := slept rfl
      refine ⟨by rw [hes],?_⟩
      change pollsOf es * pollInterval ≤ now'
      rw [hes, hinterval]
      omega
    | other what => trivial

theorem StartupRun.counted (hrun : StartupRun embedding es s) : s.Counted es := by
  refine hrun.historyInvariant (I := fun es s => s.Counted es) (P := fun _ => True) ?_
    (fun _ _ => trivial) ⟨Nat.zero_le _,rfl,Nat.zero_le _⟩
  rintro es ⟨u,act,v⟩ hstep - hcounted
  simp only at hstep hcounted ⊢
  cases hstep with
  | reached before _ _ _ slept | unreached before slept =>
    obtain ⟨-,rfl,hnow⟩ := hcounted
    exact counted_pinged (by simp [pollsOf]) before hnow (by simpa using slept)
  | timeout => exact ⟨by simpa [pollsOf] using hcounted.1,trivial⟩
  | engine => simpa [Startup.Counted, pollsOf] using hcounted

end Polls

section Slot
variable {K : Type*} {embedding : Except String (Vec K)} {arena arena' : MemoryArena (Vec K)}

/-- The first slot is reserved for the health check. -/
def HealthSlot (embedding : Except String (Vec K)) (arena : MemoryArena (Vec K)) : Prop :=
  ∃ query t, embedding = .ok query ∧ t ≠ 0 ∧ arena.vectors 0 = query ∧
    arena.metadata 0 = ⟨t,packControl .pending .hot 0 0⟩

/-- At most the first slot is in use, and the ring is empty. -/
structure Probed (embedding : Except String (Vec K)) (arena : MemoryArena (Vec K)) : Prop where
  first : arena.metadata 0 = ⟨0,0⟩ ∨ HealthSlot embedding arena
  others : ∀ i, i ≠ 0 → arena.metadata i = ⟨0,0⟩
  writeHead : arena.writeHead = 0
  readTail : arena.readTail = 0

variable [Scoring K]

theorem probed_fresh : Probed embedding (freshArena K) :=
  ⟨.inl rfl,fun _ _ => rfl,rfl,rfl⟩

omit [Scoring K] in
theorem Probed.node (h : Probed embedding arena) (n : ℕ) :
    (arena.metadata n).loadControl.state = .dead ∨
      n = 0 ∧ HealthSlot embedding arena ∧ (arena.metadata n).loadControl.state = .pending := by
  by_cases hn : n = 0
  · subst hn
    rcases h.first with hfree | hslot
    · rw [hfree]
      exact .inl (by decide)
    · obtain ⟨query,t,hembedding,ht,hvec,hnode⟩ := hslot
      refine .inr ⟨rfl,⟨query,t,hembedding,ht,hvec,hnode⟩,?_⟩
      rw [hnode]
      exact unpackControl_packControl_state ..
  · rw [h.others n hn]
    exact .inl (by decide)

omit [Scoring K] in
theorem Probed.collect (h : Probed embedding arena)
    (hpass : arena.runGarbageCollectorPass = .ok arena') : arena' = arena := by
  have hsight : arena.sight = .belowWatermark := by
    rw [MemoryArena.sight, h.writeHead, h.readTail]
    exact if_pos (by decide)
  cases pass_move hpass with
  | asleep => rfl
  | leap hs | resync hs | skip hs | evict hs | rescue hs =>
    rw [hsight] at hs
    cases hs

end Slot

section Check
variable {K : Type*} [Field K] [LinearOrder K] [IsStrictOrderedRing K]
  {embedding : Except String (Vec K)} {arena arena' : MemoryArena (Vec K)} {query : Vec K}
  {t : UInt64} {reply : Except Status CheckCacheResponse}

theorem Probed.reusable (h : Probed (.ok query) arena) (hunit : Normalized query)
    (below : atLeast (bestSlot query t arena l0MaxSlots).1 (similarityThreshold : K) = false) :
    reusableSlot t arena l0MaxSlots = some 0 := by
  refine reusableSlot_eq (by decide) (MetaNode.reusable_eq_true.mpr ?_) (by simp)
  rcases h.node 0 with hdead | ⟨-,⟨query',t',hquery,ht',hvec,hnode⟩,hpending⟩
  · exact .inl hdead
  · obtain rfl := Except.ok.inj hquery
    refine .inr (by_contra fun hfresh => ?_)
    have hmatch : (arena.metadata 0).matchable t = true :=
      MetaNode.matchable_of_live (by simp [hpending]) (fun _ => by simpa [hnode] using ht')
        (Bool.eq_false_iff.mpr hfresh)
    refine below_iff.mp below 0 (by decide) hmatch ?_
    rw [hvec]
    exact hunit.similar

theorem Probed.check (h : Probed (.ok query) arena) (hunit : Normalized query) (ht : t ≠ 0)
    (ho : CheckOutcome query t arena reply arena') :
    Probed (.ok query) arena' ∧ HealthSlot (.ok query) arena' := by
  have hfree : ∀ i, i ≠ 0 → (expireSlots t arena).metadata i = ⟨0,0⟩ := fun i hi => by
    have hdead : (arena.metadata i).loadControl.state = .dead :=
      (h.node i).resolve_right fun hslot => hi hslot.1
    rw [expireSlots_of_not (MetaNode.not_expired_of_dead hdead), h.others i hi]
  cases ho with
  | @hit n best above filled =>
    rcases h.node n with hdead | ⟨-,-,hpending⟩
    · simp [hdead] at filled
    · simp [hpending] at filled
  | @pending n best above reserved =>
    rcases h.node n with hdead | ⟨rfl,hslot,-⟩
    · rw [hdead] at reserved
      cases reserved
    · have hsame := (expireSlots_of_best best).2
      have hslot' : HealthSlot (.ok query) (expireSlots t arena) := by
        rw [HealthSlot, hsame]
        exact hslot
      exact ⟨⟨.inr hslot',hfree,h.writeHead,h.readTail⟩,hslot'⟩
  | @miss n below free =>
    obtain rfl : n = 0 := Option.some.inj (free.symm.trans (h.reusable hunit below))
    have hslot' : HealthSlot (.ok query) ((((expireSlots t arena).storeControl 0
        (packControl .pending .hot 0 0)).storeVector 0 query).storeCreatedAt 0 t) :=
      ⟨query,t,rfl,ht,by simp,by simp⟩
    refine ⟨⟨.inr hslot',fun i hi => ?_,h.writeHead,h.readTail⟩,hslot'⟩
    simpa [hi] using hfree i hi
  | full below free =>
    rw [h.reusable hunit below] at free
    cases free

theorem Probed.step {act : Call K × Reply} (h : Probed embedding arena)
    (hunit : ∀ query, embedding = .ok query → Normalized query)
    (own : act = (.collect, .collected) ∨ Probes embedding act)
    (clock : ∀ prompt embedding t reply, act = (.checkCache prompt embedding t, reply) → t ≠ 0)
    (fire : Fires arena act arena') : Probed embedding arena' ∧
      (HealthSlot embedding arena → HealthSlot embedding arena') ∧
      ∀ response, act.2 = .checked (.ok response) → HealthSlot embedding arena' := by
  rcases own with rfl | probe
  · rw [h.collect (fires_collect.mp fire)]
    exact ⟨h,id,by simp⟩
  rcases fires_cases fire with ⟨prompt,embedding',t,result,rfl,hcall⟩ |
    ⟨nodeId,payload,result,rfl,-⟩ | ⟨rfl,-⟩
  · obtain ⟨-,rfl⟩ := probe
    rcases checkCache_cases hcall with ⟨⟨status,rfl⟩,rfl⟩ | ⟨query,rfl,-,ho⟩
    · exact ⟨h,id,by simp⟩
    · obtain ⟨hprobed,hslot⟩ := h.check (hunit _ rfl) (clock _ _ _ _ rfl) ho
      exact ⟨hprobed,fun _ => hslot,fun _ _ => hslot⟩
  · exact absurd probe id
  · exact absurd probe id

variable {es : List (StartupBeat K)} {s : Startup K}

theorem StartupRun.probed (hrun : StartupRun embedding es s)
    (hunit : ∀ query, embedding = .ok query → Normalized query)
    (hclock : ∀ τ ∈ es, ClockRuns τ) : Probed embedding s.arena ∧
      ∀ attempt, s.phase = .returned (.ok attempt) → HealthSlot embedding s.arena := by
  refine hrun.invariant (I := fun s : Startup K => Probed embedding s.arena ∧
    ∀ attempt, s.phase = .returned (.ok attempt) → HealthSlot embedding s.arena) ?_ hclock
    ⟨probed_fresh,fun _ => by simp⟩
  rintro ⟨u,act,v⟩ hstep hclock ⟨hprobed,hready⟩
  simp only at hstep hprobed hready ⊢
  cases hstep with
  | @reached arena arena' now now' attempt act pingErr before probe fire heard slept =>
    obtain ⟨hprobed',-,hslot⟩ := hprobed.step hunit (.inr probe)
      (fun prompt e t reply hact => hclock prompt e t reply (congrArg some hact)) fire
    refine ⟨hprobed',fun n hn => ?_⟩
    cases pingErr with
    | none =>
      obtain ⟨response,hresponse⟩ := heard rfl
      exact hslot response hresponse
    | some err => cases err <;> cases hn
  | @unreached arena now now' attempt err =>
    refine ⟨hprobed,fun n hn => ?_⟩
    cases err <;> cases hn
  | timeout => exact ⟨hprobed,fun _ hn => by cases hn⟩
  | engine own fire =>
    obtain ⟨hprobed',hkeep,-⟩ := hprobed.step hunit own
      (fun prompt e t reply hact => hclock prompt e t reply (congrArg some hact)) fire
    exact ⟨hprobed',fun n hn => hkeep (hready n hn)⟩

end Check

section Simulation
variable {K : Type*} [Scoring K] {embedding : Except String (Vec K)}
  {sha256 : List UInt8 → List UInt8} {es : List (StartupBeat K)} {s : Startup K}

/-- The gateway has served some requests and forgotten them. -/
structure Forgotten (arena : MemoryArena (Vec K)) (k : ℕ) (d : Deployment K) : Prop where
  arena_eq : d.arena = arena
  inflight : d.inflight = fun _ => none
  shared : d.proxy.shared = startProxy.shared
  threads : ∀ id, (∀ i < k, id ≠ .request i) → d.proxy.threads id = startProxy.threads id

/-- A health check as a request whose `CheckCache` fails after the engine has executed it. -/
theorem Forgotten.check {fs : List (DeploymentBeat K)} {d : Deployment K} {k : ℕ}
    {arena arena' : MemoryArena (Vec K)} {act : Call K × Reply} (h : Forgotten arena k d)
    (hrun : DeploymentRun sha256 fs d) (probe : Probes embedding act)
    (fire : Fires arena act arena') :
    ∃ gs d', DeploymentRun sha256 gs d' ∧ Forgotten arena' (k + 1) d' := by
  obtain ⟨call,reply⟩ := act
  cases call with
  | setCache | collect => exact absurd probe id
  | checkCache prompt embedding' t =>
    obtain ⟨rfl,rfl⟩ := probe
    have hidle : d.proxy.threads (.request k) = .handler ⟨.idle,[],.accepting⟩ :=
      h.threads _ fun i hi heq => hi.ne' (by simpa using heq)
    obtain ⟨gs₁,d₁,hrun₁,-,harena₁,hinflight₁,hshared₁,hthreads₁⟩ := exists_proxyAlone hrun hidle
      (solo_ask sha256 ⟨healthCheck,[]⟩ (by rw [h.shared]; rfl) (by decide)) (by simp)
    have hasking : d₁.proxy.threads (.request k) =
        .handler ⟨.idle,[],.asking ⟨healthCheck,[]⟩⟩ := by rw [hthreads₁, Function.update_self]
    obtain ⟨d₂,hrun₂,harena₂,hinflight₂,hproxy₂⟩ := exists_engineStep (.request k)
      (.checkCache healthCheck embedding' t) hrun₁ (by rw [hasking]; rfl)
      (by rw [hinflight₁, h.inflight]) (by rw [harena₁, h.arena_eq]; exact fire)
    have hanswer : ProxyStep sha256 d₂.proxy.shared (.handler ⟨.idle,[],.asking ⟨healthCheck,[]⟩⟩)
        (.answer (.error "DeadlineExceeded")) d₂.proxy.shared
        (.handler ⟨.idle,[],.forwarding ⟨healthCheck,[]⟩ .readError⟩) := .handler .answer
    obtain ⟨d₃,hrun₃,harena₃,hinflight₃,hshared₃,hthreads₃⟩ :=
      exists_proxyStep hrun₂ (by rw [hproxy₂, hasking]) hanswer trivial
    have hllm : ProxyStep sha256 d₃.proxy.shared
        (.handler ⟨.idle,[],.forwarding ⟨healthCheck,[]⟩ .readError⟩) (.llm (.error "") (.error ""))
        d₃.proxy.shared (.handler ⟨.idle,[.error "Bad Gateway" 502],.finishing⟩) := .handler .llm
    obtain ⟨d₄,hrun₄,harena₄,hinflight₄,hshared₄,hthreads₄⟩ := exists_proxyStep hrun₃
      (by rw [hthreads₃, Function.update_self]) hllm trivial
    refine ⟨_,d₄,hrun₄,?_,?_,?_,?_⟩
    · rw [harena₄, harena₃, harena₂]
    · change d₄.inflight = d₃.inflight at hinflight₄
      change d₃.inflight = Function.update d₂.inflight (.request k) none at hinflight₃
      rw [hinflight₄, hinflight₃, hinflight₂, hinflight₁, h.inflight, Function.update_idem]
      exact Function.update_eq_self _ _
    · rw [hshared₄, hshared₃, hproxy₂, hshared₁, h.shared]
    · intro id hid
      have hne : id ≠ .request k := hid k (Nat.lt_succ_self k)
      rw [hthreads₄, hthreads₃, hproxy₂, hthreads₁, Function.update_of_ne hne,
        Function.update_of_ne hne, Function.update_of_ne hne]
      exact h.threads id fun i hi => hid i (hi.trans (Nat.lt_succ_self k))

theorem Forgotten.step {fs : List (DeploymentBeat K)} {d : Deployment K} {k : ℕ}
    {arena arena' : MemoryArena (Vec K)} {act : Call K × Reply} (h : Forgotten arena k d)
    (hrun : DeploymentRun sha256 fs d) (own : act = (.collect, .collected) ∨ Probes embedding act)
    (fire : Fires arena act arena') :
    ∃ gs d' k', DeploymentRun sha256 gs d' ∧ Forgotten arena' k' d' := by
  rcases own with rfl | probe
  · rw [← h.arena_eq] at fire
    exact ⟨_,_,k,hrun.snoc (.collect fire),⟨rfl,h.inflight,h.shared,h.threads⟩⟩
  · obtain ⟨gs,d',hrun',h'⟩ := h.check hrun probe fire
    exact ⟨gs,d',_,hrun',h'⟩

/-- What the start leaves behind is a state of the engine behind a gateway that has
forgotten some requests. -/
theorem StartupRun.forgotten (hrun : StartupRun embedding es s) (sha256 : List UInt8 → List UInt8) :
    ∃ fs d k, DeploymentRun sha256 fs d ∧ Forgotten s.arena k d := by
  refine hrun.invariant (I := fun s : Startup K => ∃ fs d k, DeploymentRun sha256 fs d ∧
    Forgotten s.arena k d) (P := fun _ => True) ?_ (fun _ _ => trivial)
    ⟨[],_,0,.nil _,rfl,rfl,rfl,fun _ _ => rfl⟩
  rintro ⟨u,act,v⟩ hstep - ⟨fs,d,k,hd,h⟩
  simp only at hstep h ⊢
  cases hstep with
  | reached _ probe fire => exact h.step hd (.inr probe) fire
  | engine own fire => exact h.step hd own fire
  | unreached | timeout => exact ⟨fs,d,k,hd,h⟩

end Simulation

section Main
variable {K : Type*} [Field K] [LinearOrder K] [IsStrictOrderedRing K]
  {embedding : Except String (Vec K)} {es : List (StartupBeat K)} {s : Startup K}

/-- `waitForEngine` polls at most a hundred times. However many of its calls the engine
executes, they use no slot but the first and no byte of the ring, and the slot is
reserved, with nobody to fill it, when the loop succeeds. The gateway finds the engine
as it would be after so many requests that it has forgotten. -/
theorem engine_started (hunit : ∀ query, embedding = .ok query → Normalized query)
    (hrun : StartupRun embedding es s) (hclock : ∀ τ ∈ es, ClockRuns τ)
    (sha256 : List UInt8 → List UInt8) :
    pollsOf es ≤ 100 ∧ Probed embedding s.arena ∧
    (∀ attempt, s.phase = .returned (.ok attempt) →
      attempt = pollsOf es ∧ HealthSlot embedding s.arena) ∧
    ∃ fs d k, DeploymentRun sha256 fs d ∧ Forgotten s.arena k d := by
  obtain ⟨hle,hphase⟩ := hrun.counted
  obtain ⟨hprobed,hslot⟩ := hrun.probed hunit hclock
  refine ⟨hle,hprobed,fun attempt hattempt => ⟨?_,hslot attempt hattempt⟩,hrun.forgotten sha256⟩
  rw [hattempt] at hphase
  exact hphase

/-- The engine is not yet there for the first poll and answers the second. -/
theorem engine_started_replay : ∃ (es : List (StartupBeat ℚ)) (s : Startup ℚ),
    StartupRun (.ok (axis 0)) es s ∧ s.phase = .returned (.ok 2) ∧
      HealthSlot (.ok (axis 0)) s.arena ∧
      ∃ fs d k, DeploymentRun (Equiv.swap [1] digestOfOne) fs d ∧ Forgotten s.arena k d := by
  have ho := @missOutcome ℚ _ _ _ (axis 0) 1 (freshArena ℚ) 0 (by decide)
    (MetaNode.reusable_eq_true.mpr (.inl (freshArena_state 0))) (by simp) (fun i _ hmatch => by
      rw [MetaNode.not_matchable_of_dead (freshArena_state i)] at hmatch
      cases hmatch)
  obtain ⟨arena,hfire⟩ : ∃ arena, Fires (freshArena ℚ)
      (.checkCache healthCheck (.ok (axis 0)) 1, .checked (.ok ⟨.miss,0,[]⟩)) arena :=
    ⟨_,fires_checkCache.mpr (ho.checkCache_eq (by decide))⟩
  have hfirst : StartupStep (.ok (axis 0)) ⟨freshArena ℚ,0,.polling 1⟩
      (.poll none (some .unavailable)) ⟨freshArena ℚ,100,.polling 2⟩ :=
    .unreached (by decide) fun _ => le_rfl
  have hsecond : StartupStep (.ok (axis 0)) ⟨freshArena ℚ,100,.polling 2⟩
      (.poll (some (.checkCache healthCheck (.ok (axis 0)) 1, .checked (.ok ⟨.miss,0,[]⟩))) none)
      ⟨arena,150,.returned (.ok 2)⟩ :=
    .reached (by decide) ⟨rfl,rfl⟩ hfire (fun _ => ⟨_,rfl⟩) (by simp)
  have hrun : StartupRun (.ok (axis 0)) _ _ := (Run.single hfirst).snoc hsecond
  have hunit : ∀ query : Vec ℚ, .ok (axis 0) = (.ok query : Except String (Vec ℚ)) →
      Normalized query := by
    rintro query hquery
    obtain rfl := Except.ok.inj hquery
    exact axis_normalized 0
  obtain ⟨-,-,hready,hdeployed⟩ := engine_started hunit hrun (by
    intro τ hτ prompt embedding t reply hact
    simp only [List.mem_append, List.mem_singleton] at hτ
    rcases hτ with rfl | rfl
    · cases hact
    · cases hact
      decide) (Equiv.swap [1] digestOfOne)
  exact ⟨_,_,hrun,rfl,(hready 2 rfl).2,hdeployed⟩

end Main

end Strix
