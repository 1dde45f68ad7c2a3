import Strix.Foundation.BoundedChannel
import Strix.Gateway.Reply
import Mathlib.Data.Fintype.Fin

/-! # The write-backs between the handlers and the workers

The queue of the worker pool is a bounded channel with four receivers. A job that
`TryEnqueue` has accepted is sent to the engine by one `SetCache`, or a worker holds
it, or it is still in the queue; the workers alone empty the queue, whatever the
engine answers.
-/
namespace Strix
open RunHistory ThreadPool BoundedChannel

instance : NeZero numWorkers := ⟨by decide⟩

def ThreadId.Runs : ThreadId → ProxyThread → Prop
  | .request _, .handler _ => True
  | .worker _, .worker _ => True
  | .fastcache, .fastcache => True
  | _, _ => False

def ProxyThread.job : ProxyThread → Option Job
  | .worker job => job
  | _ => none

/-- The queue of the worker pool and the jobs in the workers' hands. -/
def writeQueue (pool : ProxyPool) : Channel (Fin numWorkers) Job :=
  ⟨pool.shared.queue,fun k => (pool.threads (.worker k)).job⟩

/-- A handler's `TryEnqueue` sends a job while there is room, a worker takes one from the
queue and is done with it when its `SetCache` returns. -/
def writeAct (τ : ProxyBeat) : Option (Act (Fin numWorkers) Job) :=
  match τ.act.1, τ.before.threads τ.act.1 with
  | .request _, .handler ⟨_,_,.enqueueing _ nodeId payload⟩ =>
    if τ.before.shared.queue.length < jobQueueCap then some (.send ⟨nodeId,payload⟩) else none
  | .worker k, .worker none => τ.before.shared.queue.head?.map (.take k)
  | .worker k, .worker (some job) => some (.finish k job)
  | _, _ => none

def writeActs (es : List ProxyBeat) : List (Act (Fin numWorkers) Job) := es.filterMap writeAct

theorem writeActs_append (es fs : List ProxyBeat) :
    writeActs (es ++ fs) = writeActs es ++ writeActs fs := List.filterMap_append

section Projection
variable {sha256 : List UInt8 → List UInt8} {es : List ProxyBeat} {pool : ProxyPool}
  {id : ThreadId} {g g' : Proxy} {c c' : ProxyThread} {act : ProxyAction}

theorem ProxyStep.runs (h : ProxyStep sha256 g c act g' c') (hc : id.Runs c) : id.Runs c' := by
  cases h with
  | handler | dequeue | setCache => cases id <;> exact hc
  | drop => exact hc

theorem runs_of_run (hrun : ProxyRun sha256 es pool) (id : ThreadId) :
    id.Runs (pool.threads id) := by
  refine run_local (J := fun id c => id.Runs c) ?_ hrun ?_ id
  · intro id g c act g' c' hstep hc
    exact hstep.runs hc
  · intro id
    cases id <;> trivial

theorem HandlerStep.queue_cases {x y : Handler} (h : HandlerStep sha256 g x act g' y) :
    (∃ branch nodeId payload, x.phase = .enqueueing branch nodeId payload ∧
      g'.queue = Strix.tryEnqueue g.queue nodeId payload) ∨
    (∀ branch nodeId payload, x.phase ≠ .enqueueing branch nodeId payload) ∧
      g'.queue = g.queue := by
  cases h with
  | tryEnqueue => exact .inl ⟨_,_,_,rfl,rfl⟩
  | registry hphase => exact .inr ⟨by cases hphase <;> simp,rfl⟩
  | serve | queryL0 | answer | herdReturned | llm | writePayload | trySetL0 =>
    exact .inr ⟨by simp,rfl⟩

theorem held_of_request {u v : ProxyPool} (hmove : Moves (ProxyStep sha256) u (id, act) v)
    (hid : ∀ k, id ≠ .worker k) : (writeQueue v).held = (writeQueue u).held := by
  funext k
  simp only [writeQueue, hmove.others (.worker k) (Ne.symm (hid k))]

theorem held_of_worker {u v : ProxyPool} {k : Fin numWorkers}
    (hmove : Moves (ProxyStep sha256) u (.worker k, act) v) :
    (writeQueue v).held = Function.update (writeQueue u).held k (v.threads (.worker k)).job := by
  funext j
  by_cases hj : j = k
  · subst hj
    rw [Function.update_self]
    rfl
  · have hne : ThreadId.worker j ≠ .worker k := fun h => hj (ThreadId.worker.inj h)
    rw [Function.update_of_ne hj]
    simp only [writeQueue, hmove.others _ hne]

def WriteStep (τ : ProxyBeat) : Prop :=
  (∃ b, writeAct τ = some b ∧
    BoundedChannel.Step jobQueueCap (writeQueue τ.before) b (writeQueue τ.after)) ∨
  writeAct τ = none ∧ writeQueue τ.after = writeQueue τ.before

theorem writeStep_request {u v : ProxyPool} {i : ℕ} {x y : Handler}
    (hmove : Moves (ProxyStep sha256) u (.request i, act) v)
    (hx : u.threads (.request i) = .handler x) (h : HandlerStep sha256 u.shared x act v.shared y) :
    WriteStep ⟨u,(.request i, act),v⟩ := by
  have hheld := held_of_request hmove (by simp)
  rcases h.queue_cases with ⟨branch,nodeId,payload,hphase,hqueue⟩ | ⟨hphase,hqueue⟩
  · obtain ⟨call,w,phase⟩ := x
    subst hphase
    by_cases hroom : u.shared.queue.length < jobQueueCap
    · refine .inl ⟨.send ⟨nodeId,payload⟩,by simp [writeAct, hx, hroom],?_⟩
      rw [tryEnqueue, if_pos hroom] at hqueue
      have hv : writeQueue v =
          ⟨(writeQueue u).buffer ++ [⟨nodeId,payload⟩],(writeQueue u).held⟩ :=
        congrArg₂ Channel.mk hqueue hheld
      rw [hv]
      exact .send hroom
    · rw [tryEnqueue, if_neg hroom] at hqueue
      exact .inr ⟨by simp [writeAct, hx, hroom],congrArg₂ Channel.mk hqueue hheld⟩
  · refine .inr ⟨?_,congrArg₂ Channel.mk hqueue hheld⟩
    obtain ⟨call,w,phase⟩ := x
    cases phase with
    | enqueueing => exact absurd rfl (hphase _ _ _)
    | accepting | readingL0 | asking | registering | awaiting | forwarding | writing | caching |
        deferred | finishing => simp [writeAct, hx]

theorem writeAct_take {u v : ProxyPool} {k : Fin numWorkers} {job : Job} {rest : List Job}
    (hx : u.threads (.worker k) = .worker none) (hqueue : u.shared.queue = job :: rest) :
    writeAct ⟨u,(.worker k, act),v⟩ = some (.take k job) := by
  simp [writeAct, hx, hqueue]

theorem writeAct_finish {u v : ProxyPool} {k : Fin numWorkers} {job : Job}
    (hx : u.threads (.worker k) = .worker (some job)) :
    writeAct ⟨u,(.worker k, act),v⟩ = some (.finish k job) := by
  simp [writeAct, hx]

theorem writeStep_dequeue {u v : ProxyPool} {k : Fin numWorkers} {job : Job} {rest : List Job}
    (hmove : Moves (ProxyStep sha256) u (.worker k, act) v)
    (hx : u.threads (.worker k) = .worker none) (hy : v.threads (.worker k) = .worker (some job))
    (hbefore : u.shared.queue = job :: rest) (hafter : v.shared.queue = rest) :
    WriteStep ⟨u,(.worker k, act),v⟩ := by
  have hheld := held_of_worker hmove
  rw [hy] at hheld
  refine .inl ⟨.take k job,writeAct_take hx hbefore,?_⟩
  have hv : writeQueue v = ⟨rest,Function.update (writeQueue u).held k (some job)⟩ :=
    congrArg₂ Channel.mk hafter hheld
  rw [hv]
  exact .take (by simp [writeQueue, hx, ProxyThread.job]) hbefore

theorem writeStep_setCache {u v : ProxyPool} {k : Fin numWorkers} {job : Job}
    (hmove : Moves (ProxyStep sha256) u (.worker k, act) v)
    (hx : u.threads (.worker k) = .worker (some job)) (hy : v.threads (.worker k) = .worker none)
    (hqueue : v.shared.queue = u.shared.queue) : WriteStep ⟨u,(.worker k, act),v⟩ := by
  have hheld := held_of_worker hmove
  rw [hy] at hheld
  refine .inl ⟨.finish k job,writeAct_finish hx,?_⟩
  have hv : writeQueue v =
      ⟨(writeQueue u).buffer,Function.update (writeQueue u).held k none⟩ :=
    congrArg₂ Channel.mk hqueue hheld
  rw [hv]
  exact .finish (by simp [writeQueue, hx, ProxyThread.job])

theorem writeQueue_step {τ : ProxyBeat} (hmove : Moves (ProxyStep sha256) τ.before τ.act τ.after)
    (hruns : τ.act.1.Runs (τ.before.threads τ.act.1)) : WriteStep τ := by
  obtain ⟨u,⟨id,act⟩,v⟩ := τ
  have hown := hmove.own
  simp only at hmove hruns hown
  generalize hx : u.threads id = x at hown hruns
  generalize hy : v.threads id = y at hown
  generalize hg : u.shared = g at hown
  generalize hg' : v.shared = g' at hown
  cases hown with
  | handler hstep =>
    cases id with
    | request i => exact writeStep_request hmove hx (by rw [hg, hg']; exact hstep)
    | worker | fastcache => exact hruns.elim
  | dequeue hqueue =>
    cases id with
    | worker k => exact writeStep_dequeue hmove hx hy (by rw [hg]; exact hqueue) (by rw [hg'])
    | request | fastcache => exact hruns.elim
  | setCache =>
    cases id with
    | worker k => exact writeStep_setCache hmove hx hy (by rw [hg, hg'])
    | request | fastcache => exact hruns.elim
  | drop =>
    cases id with
    | fastcache =>
      exact .inr ⟨rfl,congrArg₂ Channel.mk (by rw [hg, hg']) (held_of_request hmove (by simp))⟩
    | request | worker => exact hruns.elim

/-- What the gateway does to its write-backs is a run of a bounded channel. -/
theorem writeQueue_run (hrun : ProxyRun sha256 es pool) :
    ∃ fs, ChannelRun jobQueueCap fs (writeQueue pool) ∧
      fs.map (fun τ => τ.act) = writeActs es := by
  refine ⟨_,hrun.filterMap_of_run writeQueue writeAct (P := fun _ => True) ?_ ?_
    (fun _ _ => trivial),?_⟩
  · intro es τ hbefore _ hmove hnone
    rcases writeQueue_step hmove (runs_of_run hbefore _) with ⟨b,hb,-⟩ | ⟨-,hstill⟩
    · rw [hnone] at hb
      cases hb
    · exact hstill
  · intro es τ b hbefore _ hmove hb
    rcases writeQueue_step hmove (runs_of_run hbefore _) with ⟨b',hb',hstep⟩ | ⟨hnone,-⟩
    · rw [hb] at hb'
      cases hb'
      exact hstep
    · rw [hb] at hnone
      cases hnone
  · rw [List.map_filterMap, writeActs]
    congr 1
    funext τ
    rw [Option.map_map]
    exact Option.map_id'

/-- The accepted jobs leave the queue in the order in which they came, the queue keeps its
bound, a worker sends the jobs it has taken one by one, and each accepted job is in one
place: its `SetCache` has returned, a worker holds it, or it is in the queue. -/
theorem writeBacks_conserved (hrun : ProxyRun sha256 es pool) :
    sent (writeActs es) = taken (writeActs es) ++ pool.shared.queue ∧
    pool.shared.queue.length ≤ jobQueueCap ∧
    (∀ k, takenBy (writeActs es) k =
      finishedBy (writeActs es) k ++ (pool.threads (.worker k)).job.toList) ∧
    (sent (writeActs es) : Multiset Job) =
      finished (writeActs es) + (writeQueue pool).heldItems + pool.shared.queue := by
  obtain ⟨fs,hfs,hacts⟩ := writeQueue_run hrun
  have haccounts := hfs.accounts
  have hconserves := hfs.conserves
  rw [hacts] at haccounts hconserves
  exact ⟨haccounts.order,haccounts.room,haccounts.receiver,hconserves⟩

end Projection

section Delivery
variable {sha256 : List UInt8 → List UInt8} {es : List ProxyBeat} {pool : ProxyPool}

/-- A worker takes a job from the queue or finishes its own; the engine answers as it
likes. -/
def WorkerBeat (answers : Job → Except String Bool) (τ : ProxyBeat) : Prop :=
  ∃ k, τ.act = (.worker k, .proceed) ∨
    ∃ job, (τ.before.threads (.worker k)).job = some job ∧
      τ.act = (.worker k, .stored (answers job))

theorem thread_worker (hrun : ProxyRun sha256 es pool) (k : Fin numWorkers) :
    ∃ job, pool.threads (.worker k) = .worker job := by
  have hruns := runs_of_run hrun (.worker k)
  cases hthread : pool.threads (.worker k) with
  | worker job => exact ⟨job,rfl⟩
  | handler | fastcache =>
    rw [hthread] at hruns
    exact hruns.elim

theorem left_of_worker {τ : ProxyBeat} {b : Act (Fin numWorkers) Job}
    (hrun : ProxyRun sha256 es τ.before) (hmove : Moves (ProxyStep sha256) τ.before τ.act τ.after)
    (hb : writeAct τ = some b) (hworker : ∀ job, b ≠ .send job) :
    (writeQueue τ.after).left + 1 = (writeQueue τ.before).left ∧ sent (writeActs [τ]) = [] := by
  have hstep : BoundedChannel.Step jobQueueCap (writeQueue τ.before) b (writeQueue τ.after) := by
    rcases writeQueue_step hmove (runs_of_run hrun _) with ⟨b',hb',hstep⟩ | ⟨hnone,-⟩
    · rw [hb] at hb'
      cases hb'
      exact hstep
    · rw [hb] at hnone
      cases hnone
  cases b with
  | send job => exact absurd rfl (hworker job)
  | take => exact ⟨hstep.left_take,by simp [writeActs, hb, sent, Act.sent]⟩
  | finish => exact ⟨hstep.left_finish,by simp [writeActs, hb, sent, Act.sent]⟩

theorem exists_workerStep (answers : Job → Except String Bool) (hrun : ProxyRun sha256 es pool)
    (hleft : (writeQueue pool).left ≠ 0) : ∃ act pool',
      Moves (ProxyStep sha256) pool act pool' ∧ WorkerBeat answers ⟨pool,act,pool'⟩ ∧
      (writeQueue pool').left + 1 = (writeQueue pool).left ∧
      sent (writeActs [⟨pool,act,pool'⟩]) = [] := by
  by_cases hheld : ∃ k job, pool.threads (.worker k) = .worker (some job)
  · obtain ⟨k,job,hthread⟩ := hheld
    have hmove : Moves (ProxyStep sha256) pool (.worker k, .stored (answers job))
        ⟨pool.shared,Function.update pool.threads (.worker k) (.worker none)⟩ :=
      moves_update (by rw [hthread]; exact .setCache)
    obtain ⟨hless,hsent⟩ := left_of_worker hrun hmove (writeAct_finish hthread) (by simp)
    exact ⟨_,_,hmove,⟨k,.inr ⟨job,by rw [hthread]; rfl,rfl⟩⟩,hless,hsent⟩
  · have hidle : ∀ k, pool.threads (.worker k) = .worker none := fun k => by
      obtain ⟨job,hthread⟩ := thread_worker hrun k
      cases job with
      | none => exact hthread
      | some job => exact absurd ⟨k,job,hthread⟩ hheld
    cases hqueue : pool.shared.queue with
    | nil =>
      refine absurd (Channel.left_eq_zero.mpr ⟨hqueue,fun k => ?_⟩) hleft
      simp only [writeQueue, hidle, ProxyThread.job]
    | cons job rest =>
      have hmove : Moves (ProxyStep sha256) pool (.worker 0, .proceed)
          ⟨{ pool.shared with queue := rest },
            Function.update pool.threads (.worker 0) (.worker (some job))⟩ :=
        moves_update (by rw [hidle 0]; exact .dequeue hqueue)
      obtain ⟨hless,hsent⟩ := left_of_worker hrun hmove (writeAct_take (hidle 0) hqueue) (by simp)
      exact ⟨_,_,hmove,⟨0,.inl rfl⟩,hless,hsent⟩

theorem exists_emptied (answers : Job → Except String Bool) (hrun : ProxyRun sha256 es pool) :
    ∃ fs pool', Run (Moves (ProxyStep sha256)) pool fs pool' ∧
      (∀ τ ∈ fs, WorkerBeat answers τ) ∧ fs.length ≤ (writeQueue pool).left ∧
      sent (writeActs fs) = [] ∧ (writeQueue pool').left = 0 := by
  induction hk : (writeQueue pool).left generalizing es pool with
  | zero => exact ⟨[],pool,.nil _,by simp,le_rfl,rfl,hk⟩
  | succ k ih =>
    obtain ⟨act,next,hmove,hworker,hleft,hsent⟩ :=
      exists_workerStep answers hrun (by rw [hk]; exact Nat.succ_ne_zero k)
    obtain ⟨fs,pool',hfs,hworkers,hlength,hnothing,hempty⟩ :=
      ih (hrun.snoc hmove) (by omega)
    refine ⟨_,pool',hfs.cons hmove,?_,by simpa using hlength,?_,hempty⟩
    · rw [List.forall_mem_cons]
      exact ⟨hworker,hworkers⟩
    · rw [← List.singleton_append, writeActs_append, sent_append, hsent, hnothing]
      rfl

/-- From every reachable state the workers alone deliver what has been accepted, whatever
the engine answers: two steps for a job in the queue and one for a job in hand. -/
theorem writeBacks_delivered (answers : Job → Except String Bool)
    (hrun : ProxyRun sha256 es pool) : ∃ fs pool',
      Run (Moves (ProxyStep sha256)) pool fs pool' ∧ (∀ τ ∈ fs, WorkerBeat answers τ) ∧
      fs.length ≤ 2 * jobQueueCap + numWorkers ∧ pool'.shared.queue = [] ∧
      (∀ k, (pool'.threads (.worker k)).job = none) ∧
      (finished (writeActs (es ++ fs)) : Multiset Job) = sent (writeActs es) := by
  obtain ⟨fs,pool',hfs,hworkers,hlength,hsent,hleft⟩ := exists_emptied answers hrun
  obtain ⟨hqueue,hidle⟩ := Channel.left_eq_zero.mp hleft
  obtain ⟨gs,hgs,hacts⟩ := writeQueue_run (hrun.append hfs)
  have hconserves := hgs.conserves
  refine ⟨fs,pool',hfs,hworkers,?_,hqueue,hidle,?_⟩
  · obtain ⟨gs,hgs,-⟩ := writeQueue_run hrun
    have hroom := hgs.accounts.room
    have hheld := (writeQueue pool).card_heldItems_le
    rw [Fintype.card_fin] at hheld
    simp only [Channel.left] at hlength
    omega
  · rw [hacts] at hconserves
    unfold Channel.Conserves at hconserves
    rw [hqueue, Channel.heldItems_eq_zero.mpr hidle, Multiset.coe_nil, add_zero, add_zero]
      at hconserves
    rw [← hconserves, writeActs_append, sent_append, hsent, List.append_nil]

end Delivery

section Replay

theorem exists_waitingJob : ∃ (es : List ProxyBeat) (pool : ProxyPool),
    ProxyRun (Equiv.swap [1] digestOfOne) es pool ∧ pool.shared.queue = [⟨0,[7]⟩] := by
  obtain ⟨es₁,calling,hcalling,-,hshared,hthreads⟩ := exists_calling
  have hcall : calling.threads (.request 0) =
      .handler ⟨.pioneer 0 0,[],.forwarding ⟨[1],[2]⟩ (.pioneer 0)⟩ := by
    rw [hthreads, Function.update_self]
  obtain ⟨fs,g,hsolo,-,-,hqueue,-⟩ := exists_soloPioneer (g := calling.shared)
    (Equiv.swap [1] digestOfOne) ⟨[1],[2]⟩ 0 0 [7] (by rw [hshared]; rfl) (by decide)
    (by rw [hshared]; decide)
  obtain ⟨es₂,pool,hrun,-,rfl,-⟩ := exists_alone (.request 0) hcalling hcall hsolo
  rw [hshared] at hqueue
  exact ⟨_,pool,hrun,hqueue⟩

theorem writeBacks_conserved_replay : ∃ (es : List ProxyBeat) (pool : ProxyPool),
    ProxyRun (Equiv.swap [1] digestOfOne) es pool ∧ pool.shared.queue = [⟨0,[7]⟩] ∧
      ⟨0,[7]⟩ ∈ sent (writeActs es) := by
  obtain ⟨es,pool,hrun,hqueue⟩ := exists_waitingJob
  refine ⟨es,pool,hrun,hqueue,?_⟩
  rw [(writeBacks_conserved hrun).1, hqueue]
  simp

theorem writeBacks_delivered_replay : ∃ (es fs : List ProxyBeat) (pool pool' : ProxyPool),
    ProxyRun (Equiv.swap [1] digestOfOne) es pool ∧ pool.shared.queue = [⟨0,[7]⟩] ∧
      Run (Moves (ProxyStep (Equiv.swap [1] digestOfOne))) pool fs pool' ∧
      pool'.shared.queue = [] ∧
      (finished (writeActs (es ++ fs)) : Multiset Job) = sent (writeActs es) := by
  obtain ⟨es,pool,hrun,hqueue⟩ := exists_waitingJob
  obtain ⟨fs,pool',hfs,-,-,hempty,-,hfinished⟩ :=
    writeBacks_delivered (fun _ => .ok true) hrun
  exact ⟨es,fs,pool,pool',hrun,hqueue,hfs,hempty,hfinished⟩

end Replay

end Strix
