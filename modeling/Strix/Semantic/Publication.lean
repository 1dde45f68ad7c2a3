import Strix.Semantic.Winner

/-! # The publication of a reservation

A check claims a slot, copies its query into it and then stamps its birth time.
Expiry and eviction reset the birth time after their compare-exchange, so a
claim in between can lose its stamp or inherit an old one. As long as each claim
finds the slot quiet and its birth time reset, the stamp and the vector of a
pending node are those of its latest claim.
-/
namespace Strix
open RunHistory ThreadPool Scoring

variable {K : Type*}

/-- The step is the last of the history that turns node `n` from dead to pending. -/
def LatestReservation (es : List (AtomicBeat K)) (n : ℕ) (τ : AtomicBeat K) : Prop :=
  ∃ fs gs, es = fs ++ τ :: gs ∧ Reserves n τ ∧ ∀ σ ∈ gs, ¬Reserves n σ

/-- A claim of a slot finds no birth time and no other thread in the middle of a
publication, a reset or an eviction of that slot. -/
def Undisturbed (τ : AtomicBeat K) : Prop :=
  ∀ n, Reserves n τ → (τ.before.shared.metadata n).createdAt = 0 ∧
    ∀ j, j ≠ τ.act.1 → (τ.before.threads j).window ≠ some n ∧
      ∀ ctrl, (τ.before.threads j).evicting ≠ some (n, ctrl)

/-- An exchange that expires a slot finds the birth time that the scan has loaded, and
that is no later than the clock reading of the call. -/
def Timely (τ : AtomicBeat K) : Prop :=
  ∀ query t i scan w birthTime,
    τ.before.threads τ.act.1 = .checking query t (.expiring i scan w birthTime) →
      (τ.before.shared.metadata i).controlBlock = w →
        (τ.before.shared.metadata i).createdAt = birthTime ∧ birthTime ≤ t

def ClockPositive (es : List (AtomicBeat K)) : Prop :=
  ∀ τ ∈ es, ∀ prompt embedding t, τ.act.2 = .check prompt embedding t → t ≠ 0

theorem ClockPositive.append {es fs : List (AtomicBeat K)} (h : ClockPositive es)
    (h' : ClockPositive fs) : ClockPositive (es ++ fs) := by
  intro τ hτ
  rcases List.mem_append.mp hτ with hτ | hτ
  · exact h τ hτ
  · exact h' τ hτ

theorem clockPositive_of_check {es : List (AtomicBeat K)} {i : Option ℕ} {prompt : List UInt8}
    {embedding : Except String (Vec K)} {t : UInt64} (ht : t ≠ 0)
    (h : ∀ τ ∈ es, τ.act = (i, .check prompt embedding t) ∨ τ.act = (i, .proceed false)) :
    ClockPositive es := by
  intro τ hτ _ _ t' hact
  rcases h τ hτ with hcheck | hproceed
  · rw [hcheck] at hact
    cases hact
    exact ht
  · rw [hproceed] at hact
    cases hact

theorem LatestReservation.snoc {es : List (AtomicBeat K)} {n : ℕ} {τ σ : AtomicBeat K}
    (h : LatestReservation es n τ) (hσ : ¬Reserves n σ) : LatestReservation (es ++ [σ]) n τ := by
  obtain ⟨fs,gs,rfl,hτ,hgs⟩ := h
  refine ⟨fs,gs ++ [σ],by simp,hτ,fun υ hυ => ?_⟩
  rcases List.mem_append.mp hυ with hυ | hυ
  · exact hgs υ hυ
  · rw [List.mem_singleton.mp hυ]
    exact hσ

theorem latestReservation_snoc {es : List (AtomicBeat K)} {n : ℕ} {σ : AtomicBeat K}
    (hσ : Reserves n σ) : LatestReservation (es ++ [σ]) n σ :=
  ⟨es,[],rfl,hσ,by simp⟩

section Moves
variable {arena arena' : MemoryArena (Vec K)} {actor actor' : Actor K} {n : ℕ}

/-- A step after which node `n` is pending, by its part in the publication. -/
inductive PendingMove (n : ℕ) (arena : MemoryArena (Vec K)) (actor : Actor K)
    (arena' : MemoryArena (Vec K)) (actor' : Actor K) : Prop
  | claim {query : Vec K} {t : UInt64} {id : ℤ} {w : UInt64}
    (hactor : actor = .checking query t (.exchanging id w))
    (hnext : actor' = .checking query t (.copying id)) (hid : toSize id = n)
    (hdead : arena.stateOf n = .dead)
    (birth : (arena'.metadata n).createdAt = (arena.metadata n).createdAt)
  | copy {query : Vec K} {t : UInt64} {id : ℤ}
    (hactor : actor = .checking query t (.copying id))
    (hnext : actor' = .checking query t (.stamping id)) (hid : toSize id = n)
    (node : arena'.metadata n = arena.metadata n) (vector : arena'.vectors n = query)
  | stamp {query : Vec K} {t : UInt64} {id : ℤ}
    (hactor : actor = .checking query t (.stamping id)) (hnext : ∃ reply, actor' = .finished reply)
    (hid : toSize id = n) (birth : (arena'.metadata n).createdAt = t)
    (load : (arena'.metadata n).loadControl = (arena.metadata n).loadControl)
    (vector : arena'.vectors n = arena.vectors n)
  | reset (hwindow : actor.window = some n) (hclaimed : actor.claimed = none)
  | missed {ctrl : UnpackedControl} (hevicting : actor.evicting = some (n, ctrl))
    (hother : (arena.metadata n).loadControl ≠ ctrl)
  | kept (hwindow : actor.window ≠ some n) (hwindow' : actor'.window ≠ some n)
    (birth : (arena'.metadata n).createdAt = (arena.metadata n).createdAt)
    (vector : arena'.vectors n = arena.vectors n)
    (load : (arena'.metadata n).loadControl = (arena.metadata n).loadControl ∨
      actor.isCollector = true)
    (hevicting : ∀ ctrl, actor'.evicting = some (n, ctrl) → ctrl = (arena'.metadata n).loadControl)

theorem PendingMove.away (hwindow : actor.window ≠ some n) (hwindow' : actor'.window ≠ some n)
    (hevicting : actor'.evicting = none) (node : arena'.metadata n = arena.metadata n)
    (vector : arena'.vectors n = arena.vectors n) : PendingMove n arena actor arena' actor' :=
  .kept hwindow hwindow' (by rw [node]) vector (.inl (by rw [node])) (by simp [hevicting])

theorem NodeMove.pendingMove [Scoring K] (h : NodeMove arena actor arena' actor')
    (hwell : actor.WellFormed) (hafter : arena'.stateOf n = .pending) :
    PendingMove n arena actor arena' actor' := by
  cases h with
  | quiet hmeta hvec _ _ outside _ window _ evicting =>
    exact .kept (by simp [outside]) (by simp [window]) (by rw [hmeta]) (by rw [hvec])
      (.inl (by rw [hmeta])) fun ctrl hctrl => by rw [hmeta]; exact evicting n ctrl hctrl
  | @expire query t birthTime i scan scan' ctrl loaded =>
    by_cases hn : n = i
    · simp [MemoryArena.stateOf_storeControl, hn] at hafter
    · exact .away (by simp [Actor.window]) (by simpa [Actor.window] using Ne.symm hn) rfl
        (by simp [hn]) rfl
  | @reset query t i scan =>
    by_cases hn : n = i
    · exact .reset (by simp [Actor.window, hn]) rfl
    · exact .away (by simpa [Actor.window] using Ne.symm hn) (by simp [Actor.window]) rfl
        (by simp [hn]) rfl
  | @claim query t id =>
    by_cases hn : n = toSize id
    · subst hn
      exact .claim rfl rfl rfl hwell.2 (by simp)
    · exact .away (by simp [Actor.window]) (by simpa [Actor.window] using Ne.symm hn) rfl
        (by simp [hn]) rfl
  | @copy query t id =>
    by_cases hn : n = toSize id
    · subst hn
      exact .copy rfl rfl rfl rfl (by simp)
    · exact .away (by simpa [Actor.window] using Ne.symm hn)
        (by simpa [Actor.window] using Ne.symm hn) rfl rfl (by simp [hn])
  | @stamp query t id =>
    by_cases hn : n = toSize id
    · subst hn
      exact .stamp rfl ⟨_,rfl⟩ rfl (by simp) (by simp [MetaNode.loadControl]) rfl
    · exact .away (by simpa [Actor.window] using Ne.symm hn) (by simp [Actor.window]) rfl
        (by simp [hn]) rfl
  | @touch query t m payload ctrl loaded =>
    by_cases hn : n = m
    · subst hn
      have hstate : ctrl.state = .pending := by
        simpa [MemoryArena.stateOf_storeControl] using hafter
      rw [← loaded] at hstate
      rcases hwell with hw | hw <;> rw [MetaNode.loadControl, hw] at hstate <;> cases hstate
    · exact .away (by simp [Actor.window]) (by simp [Actor.window]) rfl (by simp [hn]) rfl
  | @publish nodeId payload newOffset =>
    by_cases hn : n = nodeId.toNat
    · simp [MemoryArena.stateOf_storeControl, hn] at hafter
    · exact .away (by simp [Actor.window]) (by simp [Actor.window]) rfl (by simp [hn]) rfl
  | @evict header ctrl loaded =>
    by_cases hn : n = header.nodeId.toNat
    · simp [MemoryArena.stateOf_storeControl, hn] at hafter
    · exact .away (by simp [Actor.window]) (by simpa [Actor.window] using Ne.symm hn) rfl
        (by simp [hn]) rfl
  | @evictMissed header ctrl other =>
    by_cases hn : n = header.nodeId.toNat
    · subst hn
      refine .missed rfl fun heq => other ?_
      rw [← heq]
      exact (packControl_unpackControl_eq _).symm
    · exact .away (by simp [Actor.window]) (by simpa [Actor.window] using Ne.symm hn) rfl rfl rfl
  | @clear header m =>
    by_cases hn : n = header.nodeId.toNat
    · exact .reset (by simp [Actor.window, hn]) rfl
    · exact .away (by simpa [Actor.window] using Ne.symm hn) (by simp [Actor.window]) rfl
        (by simp [hn]) rfl
  | @rehome header ctrl offset m loaded =>
    by_cases hn : n = header.nodeId.toNat
    · subst hn
      exact .kept (by simp [Actor.window]) (by simp [Actor.window]) (by simp) rfl (.inr rfl)
        (by simp [Actor.evicting])
    · exact .away (by simp [Actor.window]) (by simp [Actor.window]) rfl (by simp [hn]) rfl

end Moves

section Stages

/-- How far the maker of a reservation has come with its publication. -/
def PublicationStage (pool : AtomicPool K) (n : ℕ) (maker : Option ℕ) (query : Vec K)
    (t : UInt64) : Prop :=
  (∃ id, pool.threads maker = .checking query t (.copying id) ∧ toSize id = n ∧
    (pool.shared.metadata n).createdAt = 0) ∨
  (∃ id, pool.threads maker = .checking query t (.stamping id) ∧ toSize id = n ∧
    (pool.shared.metadata n).createdAt = 0 ∧ pool.shared.vectors n = query) ∨
  ((∃ reply, pool.threads maker = .finished reply) ∧ (pool.shared.metadata n).createdAt = t ∧
    pool.shared.vectors n = query)

/-- The reservation `τ` of node `n` stands and nobody else is at work on the node. -/
structure Standing (es : List (AtomicBeat K)) (pool : AtomicPool K) (n : ℕ) (τ : AtomicBeat K)
    (query : Vec K) (t : UInt64) : Prop where
  latest : LatestReservation es n τ
  maker : ∃ phase, τ.before.threads τ.act.1 = .checking query t phase
  stage : PublicationStage pool n τ.act.1 query t
  alone : ∀ j, j ≠ τ.act.1 → (pool.threads j).window ≠ some n
  loaded : ∀ j ctrl, (pool.threads j).evicting = some (n, ctrl) →
    ctrl = (pool.shared.metadata n).loadControl

variable {es : List (AtomicBeat K)} {pool : AtomicPool K} {arena : MemoryArena (Vec K)}
  {n : ℕ} {τ σ : AtomicBeat K} {query : Vec K} {t : UInt64}

theorem evicting_isCollector {actor : Actor K} {p : ℕ × UnpackedControl}
    (h : actor.evicting = some p) : actor.isCollector = true := by
  unfold Actor.evicting at h
  split at h
  · rfl
  · cases h

theorem Standing.maker_of_window (h : Standing es pool n τ query t) {j : Option ℕ}
    (hj : (pool.threads j).window = some n) : j = τ.act.1 ∧
      ((∃ id, pool.threads j = .checking query t (.copying id) ∧
        (pool.shared.metadata n).createdAt = 0) ∨
      ∃ id, pool.threads j = .checking query t (.stamping id) ∧
        (pool.shared.metadata n).createdAt = 0 ∧ pool.shared.vectors n = query) := by
  obtain rfl : j = τ.act.1 := by
    by_contra hne
    exact h.alone j hne hj
  refine ⟨rfl,?_⟩
  rcases h.stage with ⟨id,hid,-,hbirth⟩ | ⟨id,hid,-,hbirth,hvec⟩ | ⟨⟨reply,hreply⟩,-⟩
  · exact .inl ⟨id,hid,hbirth⟩
  · exact .inr ⟨id,hid,hbirth,hvec⟩
  · rw [hreply] at hj
    cases hj

variable [Scoring K]

/-- A step that leaves the node pending leaves its reservation standing. -/
theorem Standing.step (h : Standing es σ.before n τ query t)
    (hbefore : Run (Moves AtomicStep) (startAtomic arena) es σ.before)
    (hmove : Moves AtomicStep σ.before σ.act σ.after) (hσ : ¬Reserves n σ)
    (hafter : σ.after.shared.stateOf n = .pending) :
    Standing (es ++ [σ]) σ.after n τ query t := by
  have hlatest := h.latest.snoc hσ
  have hothers := hmove.others
  have hevict : ∀ {i j : Option ℕ}, (σ.before.threads i).isCollector = true →
      (σ.before.threads j).isCollector = true → i = j := by
    intro i j hi hj
    rw [(atomic_threads hbefore i).2, Option.isNone_iff_eq_none] at hi
    rw [(atomic_threads hbefore j).2, Option.isNone_iff_eq_none] at hj
    rw [hi, hj]
  -- what the collector has loaded stays the node's word while the word stays
  have hloaded : (σ.after.shared.metadata n).loadControl =
        (σ.before.shared.metadata n).loadControl ∨
        (σ.before.threads σ.act.1).isCollector = true →
      (∀ ctrl, (σ.after.threads σ.act.1).evicting = some (n, ctrl) →
        ctrl = (σ.after.shared.metadata n).loadControl) →
      ∀ j ctrl, (σ.after.threads j).evicting = some (n, ctrl) →
        ctrl = (σ.after.shared.metadata n).loadControl := by
    intro hload hown j ctrl hj
    by_cases hjσ : j = σ.act.1
    · subst hjσ
      exact hown ctrl hj
    · rw [hothers j hjσ] at hj
      rcases hload with hload | hcollector
      · rw [hload]
        exact h.loaded j ctrl hj
      · exact absurd (hevict (evicting_isCollector hj) hcollector) hjσ
  cases (move_of_moves hmove).pendingMove (atomic_threads hbefore _).1 hafter with
  | claim hactor hnext hid hdead birth => exact absurd ⟨hdead,hafter⟩ hσ
  | copy hactor hnext hid node vector =>
    obtain ⟨hmaker,hstage⟩ := h.maker_of_window (j := σ.act.1) (by rw [hactor, ← hid]; rfl)
    rcases hstage with ⟨id',hid',hbirth⟩ | ⟨id',hid',-⟩ <;> rw [hactor] at hid'
    swap
    · cases hid'
    cases hid'
    refine ⟨hlatest,h.maker,.inr (.inl ⟨_,by rw [← hmaker]; exact hnext,hid,?_,vector⟩),?_,
      hloaded (.inl (by rw [node])) (by rw [hnext]; simp [Actor.evicting])⟩
    · rw [node]
      exact hbirth
    · intro j hj
      rw [hothers j (by rw [hmaker]; exact hj)]
      exact h.alone j hj
  | stamp hactor hnext hid birth load vector =>
    obtain ⟨hmaker,hstage⟩ := h.maker_of_window (j := σ.act.1) (by rw [hactor, ← hid]; rfl)
    rcases hstage with ⟨id',hid',-⟩ | ⟨id',hid',-,hvec⟩ <;> rw [hactor] at hid'
    · cases hid'
    cases hid'
    obtain ⟨reply,hreply⟩ := hnext
    refine ⟨hlatest,h.maker,.inr (.inr ⟨⟨reply,by rw [← hmaker]; exact hreply⟩,birth,
      vector.trans hvec⟩),?_,hloaded (.inl load) (by rw [hreply]; simp [Actor.evicting])⟩
    intro j hj
    rw [hothers j (by rw [hmaker]; exact hj)]
    exact h.alone j hj
  | reset hwindow hclaimed =>
    obtain ⟨-,hstage⟩ := h.maker_of_window hwindow
    rcases hstage with ⟨id,hid,-⟩ | ⟨id,hid,-⟩ <;> rw [hid] at hclaimed <;> cases hclaimed
  | missed hevicting hother => exact absurd (h.loaded _ _ hevicting).symm hother
  | kept hwindow hwindow' birth vector load hevicting =>
    -- the maker itself does not move: it is on the node or it has finished
    have hne : τ.act.1 ≠ σ.act.1 := by
      intro hmaker
      rcases h.stage with ⟨id,hid,hn,-⟩ | ⟨id,hid,hn,-⟩ | ⟨⟨reply,hreply⟩,-⟩
      · exact hwindow (by rw [← hmaker, hid, ← hn]; rfl)
      · exact hwindow (by rw [← hmaker, hid, ← hn]; rfl)
      · exact hmove.own.running reply (by rw [← hmaker]; exact hreply)
    refine ⟨hlatest,h.maker,?_,?_,hloaded load hevicting⟩
    · unfold PublicationStage
      rw [hothers _ hne, birth, vector]
      exact h.stage
    · intro j hj
      by_cases hjσ : j = σ.act.1
      · subst hjσ
        exact hwindow'
      · rw [hothers j hjσ]
        exact h.alone j hj

theorem standing_of_reserves
    (hbefore : Run (Moves AtomicStep) (startAtomic arena) es σ.before)
    (hmove : Moves AtomicStep σ.before σ.act σ.after) (hσ : Reserves n σ)
    (hcalm : Undisturbed σ) : ∃ query t, Standing (es ++ [σ]) σ.after n σ query t := by
  obtain ⟨hbirth,hothers⟩ := hcalm n hσ
  have hclaim : ∃ query t id w, σ.before.threads σ.act.1 = .checking query t (.exchanging id w) ∧
      σ.after.threads σ.act.1 = .checking query t (.copying id) ∧ toSize id = n ∧
      (σ.after.shared.metadata n).createdAt = (σ.before.shared.metadata n).createdAt := by
    have hmoved := move_of_moves hmove
    have hwell := (atomic_threads hbefore σ.act.1).1
    rcases hmoved.state_cases hwell n with hs | ⟨-,-,query,t,id,hactor,hnext,hid⟩ | ⟨hs,-⟩ | hs
    · rw [hσ.1, hσ.2] at hs
      cases hs
    · refine ⟨query,t,id,_,hactor,hnext,hid,?_⟩
      cases hmoved.pendingMove hwell hσ.2 with
      | claim _ _ _ _ birth => exact birth
      | kept _ _ birth => exact birth
      | copy hactor' | stamp hactor' =>
        rw [hactor] at hactor'
        cases hactor'
      | reset hwindow | missed hwindow =>
        rw [hactor] at hwindow
        cases hwindow
    · rw [hσ.1] at hs
      cases hs
    · rw [hσ.2] at hs
      cases hs
  obtain ⟨query,t,id,w,hactor,hnext,hid,hbirth'⟩ := hclaim
  refine ⟨query,t,latestReservation_snoc hσ,⟨_,hactor⟩,
    .inl ⟨id,hnext,hid,hbirth'.trans hbirth⟩,?_,?_⟩
  · intro j hj
    rw [hmove.others j hj]
    exact (hothers j hj).1
  · intro j ctrl hevicting
    by_cases hj : j = σ.act.1
    · rw [hj, hnext] at hevicting
      cases hevicting
    · rw [hmove.others j hj] at hevicting
      exact absurd hevicting ((hothers j hj).2 ctrl)

/-- When no claim is disturbed, every pending node has a standing reservation. -/
theorem exists_standing (hrun : AtomicRun es pool) (hcalm : ∀ τ ∈ es, Undisturbed τ)
    (hpending : pool.shared.stateOf n = .pending) :
    ∃ τ query t, Standing es pool n τ query t := by
  refine hrun.historyInvariant_of_run (I := fun es u => u.shared.stateOf n = .pending →
    ∃ τ query t, Standing es u n τ query t) (P := Undisturbed) ?_ hcalm ?_ hpending
  · intro es σ hbefore hmove hσ ih hafter
    by_cases hres : Reserves n σ
    · obtain ⟨query,t,h⟩ := standing_of_reserves hbefore hmove hres hσ
      exact ⟨σ,query,t,h⟩
    · by_cases hold : σ.before.shared.stateOf n = .pending
      · obtain ⟨τ,query,t,h⟩ := ih hold
        exact ⟨τ,query,t,h.step hbefore hmove hres hafter⟩
      · obtain ⟨υ,hυ,hres'⟩ := pending_of_run hbefore (Run.single hmove) hold hafter
        rw [List.mem_singleton.mp hυ] at hres'
        exact absurd hres' hres
  · intro hfresh
    rw [show (startAtomic (freshArena K)).shared.stateOf n = .dead from freshArena_state n]
      at hfresh
    cases hfresh

/-- The publication protocol: when each claim of a slot finds its birth time reset
and no other thread in the middle of its work on the slot, a stamped pending node
carries the clock reading and the query of its latest claim, and a claim that has
finished has stamped its node. -/
theorem reservation_published (hrun : AtomicRun es pool)
    (hclock : ClockPositive es) (hcalm : ∀ τ ∈ es, Undisturbed τ)
    (hpending : pool.shared.stateOf n = .pending) :
    ∃ τ query t, LatestReservation es n τ ∧
      (∃ phase, τ.before.threads τ.act.1 = .checking query t phase) ∧
      ((pool.shared.metadata n).createdAt ≠ 0 →
        (pool.shared.metadata n).createdAt = t ∧ pool.shared.vectors n = query) ∧
      ((∃ reply, pool.threads τ.act.1 = .finished reply) →
        (pool.shared.metadata n).createdAt ≠ 0) := by
  obtain ⟨τ,query,t,h⟩ := exists_standing hrun hcalm hpending
  refine ⟨τ,query,t,h.latest,h.maker,?_,?_⟩
  · intro hstamped
    rcases h.stage with ⟨-,-,-,hzero⟩ | ⟨-,-,-,hzero,-⟩ | ⟨-,hbirth,hvec⟩
    · exact absurd hzero hstamped
    · exact absurd hzero hstamped
    · exact ⟨hbirth,hvec⟩
  · rintro ⟨reply,hreply⟩
    rcases h.stage with ⟨id,hid,-⟩ | ⟨id,hid,-⟩ | ⟨-,hbirth,-⟩
    · rw [hreply] at hid
      cases hid
    · rw [hreply] at hid
      cases hid
    · obtain ⟨fs,gs,rfl,-⟩ := h.latest
      obtain ⟨phase,hphase⟩ := h.maker
      obtain ⟨σ,hσ,prompt,haction⟩ := check_begun hrun.split_at.1 hphase
      rw [hbirth]
      exact hclock σ (by simp [hσ]) prompt (.ok query) t (by rw [haction])

end Stages

section Replay

theorem timely_of_phase {τ : AtomicBeat K} {query : Vec K} {t : UInt64} {phase : CheckPhase K}
    (h : τ.before.threads τ.act.1 = .checking query t phase)
    (hphase : ∀ i scan w birthTime, phase ≠ .expiring i scan w birthTime) : Timely τ := by
  intro query' t' i scan w birthTime hexpiring
  rw [h] at hexpiring
  cases hexpiring
  exact absurd rfl (hphase i scan w birthTime)

theorem timely_of_quiet [Scoring K] {arena : MemoryArena (Vec K)} {es : List (AtomicBeat K)}
    {pool : AtomicPool K} (hrun : Run (Moves AtomicStep) (startAtomic arena) es pool)
    (hstart : ∀ n, arena.stateOf n = .dead) (hquiet : ∀ τ ∈ es, ∀ n, ¬Reserves n τ)
    {τ : AtomicBeat K} (hτ : τ ∈ es) : Timely τ := by
  obtain ⟨fs,gs,rfl⟩ := List.append_of_mem hτ
  obtain ⟨hbefore,-,-⟩ := hrun.split_at
  intro query t i scan w birthTime hexpiring hw
  have hwell := (atomic_threads hbefore τ.act.1).1
  rw [hexpiring] at hwell
  have hpending : τ.before.shared.stateOf i = .pending := by
    rw [MemoryArena.stateOf, MetaNode.loadControl, hw]
    exact hwell.2.2.1
  obtain ⟨σ,hσ,hres⟩ :=
    pending_of_run (.nil _) hbefore (by rw [startAtomic, hstart]; decide) hpending
  exact absurd hres (hquiet σ (by simp [hσ]) i)

theorem exists_firstPublished : ∃ (es : List (AtomicBeat ℚ)) (pool : AtomicPool ℚ),
    AtomicRun es pool ∧ (∀ τ ∈ es, τ.act = (some 0, .check [1] (.ok (axis 0)) 1) ∨
      τ.act = (some 0, .proceed false)) ∧ (∀ τ ∈ es, Undisturbed τ) ∧ (∀ τ ∈ es, Timely τ) ∧
      pool.shared.metadata 0 = ⟨1,packControl .pending .hot 0 0⟩ ∧
      (∀ i, i ≠ 0 → pool.shared.stateOf i = .dead) ∧
      (∀ j, j ≠ some 0 → pool.threads j = (startAtomic (freshArena ℚ)).threads j) ∧
      pool.threads (some 0) = .finished (.checked (.ok ⟨.miss,0,[]⟩)) ∧
      pool.shared.vectors 0 = axis 0 := by
  set start := startAtomic (freshArena ℚ) with hstart
  have hdead : ∀ n, start.shared.stateOf n = .dead := freshArena_state
  obtain ⟨es,hes,hacts⟩ := run_check start 0 [1] (.ok (axis 0)) 1 rfl
    (proceeds_claimFirst (by decide) fun j _ _ => hdead j)
  set standing : AtomicPool ℚ := ⟨start.shared,Function.update start.threads (some 0)
    (.checking (axis 0) 1 (.exchanging 0 (start.shared.metadata 0).controlBlock))⟩ with hstanding
  set claimed : AtomicPool ℚ := ⟨start.shared.storeControl 0 (packControl .pending .hot 0 0),
    Function.update standing.threads (some 0) (.checking (axis 0) 1 (.copying 0))⟩ with hclaimed
  set copied : AtomicPool ℚ := ⟨claimed.shared.storeVector 0 (axis 0),
    Function.update claimed.threads (some 0) (.checking (axis 0) 1 (.stamping 0))⟩ with hcopied
  set stamped : AtomicPool ℚ := ⟨copied.shared.storeCreatedAt 0 1,
    Function.update copied.threads (some 0) (.finished (.checked (.ok ⟨.miss,0,[]⟩)))⟩
    with hstamped
  have hexchanging : standing.threads (some 0) = .checking (axis 0) 1
      (.exchanging 0 (start.shared.metadata 0).controlBlock) := by simp [hstanding]
  have hclaim : Moves AtomicStep standing (some 0, .proceed false) claimed :=
    moves_check hexchanging (by
      simp [checkStep, toSize, start.shared.compareExchange_self, hstanding])
  have hcopying : claimed.threads (some 0) = .checking (axis 0) 1 (.copying 0) := by
    simp [hclaimed]
  have hstamping : copied.threads (some 0) = .checking (axis 0) 1 (.stamping 0) := by
    simp [hcopied]
  have hrun : AtomicRun _ stamped :=
    ((hes.snoc hclaim).snoc (moves_check hcopying rfl)).snoc (moves_check hstamping rfl)
  -- nobody else has begun, and no slot is claimed before the first one
  have hquiet : ∀ τ ∈ es, ∀ n, ¬Reserves n τ := by
    intro τ hτ n hres
    have hby : τ.act.1 = some 0 := by rcases hacts τ hτ with h | h <;> rw [h]
    have hclaimed := (claimed_iff hes (some 0) n).mpr ⟨τ,hτ,hby,hres⟩
    simp [Actor.claimed] at hclaimed
  have hcopied' : ∀ n, copied.shared.stateOf n = claimed.shared.stateOf n := fun n => rfl
  have hstamped' : ∀ n, stamped.shared.stateOf n = copied.shared.stateOf n :=
    fun n => copied.shared.stateOf_storeCreatedAt 1 0 n
  refine ⟨_,stamped,hrun,?_,?_,?_,?_,fun i hi => ?_,fun j hj => ?_,by simp [hstamped],
    by simp [hstamped, hcopied]⟩
  · simp only [List.mem_append, List.mem_singleton]
    rintro τ (((hτ | rfl) | rfl) | rfl)
    · exact hacts τ hτ
    · exact .inr rfl
    · exact .inr rfl
    · exact .inr rfl
  · simp only [List.mem_append, List.mem_singleton]
    rintro τ (((hτ | rfl) | rfl) | rfl) n hres
    · exact absurd hres (hquiet τ hτ n)
    · refine ⟨rfl,fun j hj => ?_⟩
      simp only [Function.update_of_ne hj]
      cases j <;> exact ⟨by simp [hstart, startAtomic, Actor.window],
        by simp [hstart, startAtomic, Actor.evicting]⟩
    · exact absurd (hres.1.symm.trans ((hcopied' n).symm.trans hres.2)) (by decide)
    · exact absurd (hres.1.symm.trans ((hstamped' n).symm.trans hres.2)) (by decide)
  · simp only [List.mem_append, List.mem_singleton]
    rintro τ (((hτ | rfl) | rfl) | rfl)
    · exact timely_of_quiet hes hdead hquiet hτ
    · exact timely_of_phase hexchanging (by simp)
    · exact timely_of_phase hcopying (by simp)
    · exact timely_of_phase hstamping (by simp)
  · simp [hstamped, hcopied, hclaimed]
  · rw [hstamped', hcopied', hclaimed, MemoryArena.stateOf_storeControl, if_neg hi]
    exact hdead i
  · simp [hstamped, hcopied, hclaimed, hstanding, hj]

theorem reservation_published_replay : ∃ (es : List (AtomicBeat ℚ)) (pool : AtomicPool ℚ)
    (τ : AtomicBeat ℚ) (query : Vec ℚ) (t : UInt64), AtomicRun es pool ∧
      pool.shared.stateOf 0 = .pending ∧ LatestReservation es 0 τ ∧
      (∃ phase, τ.before.threads τ.act.1 = .checking query t phase) ∧
      (pool.shared.metadata 0).createdAt = t ∧ pool.shared.vectors 0 = query := by
  obtain ⟨es,pool,hrun,hacts,hcalm,-,hnode,-⟩ := exists_firstPublished
  have hpending : pool.shared.stateOf 0 = .pending := by
    rw [MemoryArena.stateOf, hnode]
    decide
  obtain ⟨τ,query,t,hlatest,hmaker,hstamps,-⟩ :=
    reservation_published hrun (clockPositive_of_check (by decide) hacts) hcalm hpending
  exact ⟨es,pool,τ,query,t,hrun,hpending,hlatest,hmaker,hstamps (by rw [hnode]; decide)⟩

theorem exists_expiry {pool : AtomicPool ℚ} {i : Option ℕ} {query : Vec ℚ} {t birth : UInt64}
    (hscanning : pool.threads i = .checking query t (.scanning 0 ⟨minusOne,-1,-1⟩))
    (hnode : pool.shared.metadata 0 = ⟨birth,packControl .pending .hot 0 0⟩) (hbirth : birth ≠ 0)
    (hage : pendingLifespan.toUInt64 < t - birth) :
    ∃ (loaded aged expired : AtomicPool ℚ) (w dead : UInt64) (scan scan' : Scan ℚ),
      Moves AtomicStep pool (i, .proceed false) loaded ∧
      Moves AtomicStep loaded (i, .proceed false) aged ∧
      Moves AtomicStep aged (i, .proceed false) expired ∧
      loaded.shared = pool.shared ∧ loaded.threads i = .checking query t (.aging 0 scan w) ∧
      aged.shared = pool.shared ∧ aged.threads i = .checking query t (.expiring 0 scan w birth) ∧
      expired.shared = pool.shared.storeControl 0 dead ∧ (unpackControl dead).state = .dead ∧
      expired.threads = Function.update pool.threads i
        (.checking query t (.resetting 0 scan')) := by
  set w := packControl .pending .hot 0 0 with hw
  have hstate : (unpackControl w).state = .pending := by simp [hw]
  set dead := packControl .dead (unpackControl w).refBit (unpackControl w).length
    (unpackControl w).virtualOffset with hdead
  set loaded : AtomicPool ℚ := ⟨pool.shared,Function.update pool.threads i
    (.checking query t (.aging 0 ⟨minusOne,-1,-1⟩ w))⟩ with hloaded
  set aged : AtomicPool ℚ := ⟨pool.shared,Function.update loaded.threads i
    (.checking query t (.expiring 0 ⟨minusOne,-1,-1⟩ w birth))⟩ with haged
  have hload : Moves AtomicStep pool (i, .proceed false) loaded :=
    moves_check hscanning (by
      have hslot : (0 : ℕ) < l0MaxSlots := by decide
      simp [checkStep, hslot, hnode, hstate])
  have haging : loaded.threads i = .checking query t (.aging 0 ⟨minusOne,-1,-1⟩ w) := by
    simp [hloaded]
  have hcheck : Moves AtomicStep loaded (i, .proceed false) aged :=
    moves_check haging (by simp only [checkStep, hloaded, hnode, hbirth, if_false, hage, if_true])
  have hexpiring : aged.threads i = .checking query t (.expiring 0 ⟨minusOne,-1,-1⟩ w birth) := by
    simp [haged]
  have hexchange : pool.shared.compareExchange 0 w dead =
      (true, pool.shared.storeControl 0 dead) := by
    have := pool.shared.compareExchange_self 0 dead
    rwa [hnode] at this
  have hexpire : Moves AtomicStep aged (i, .proceed false)
      ⟨pool.shared.storeControl 0 dead,Function.update aged.threads i
        (.checking query t (.resetting 0 ⟨minusOne,-1,0⟩))⟩ :=
    moves_check hexpiring (by
      simp only [checkStep, haged, ← hdead, hexchange, if_true, Nat.cast_zero])
  exact ⟨loaded,aged,_,w,dead,⟨minusOne,-1,-1⟩,⟨minusOne,-1,0⟩,hload,hcheck,hexpire,rfl,haging,rfl,
    hexpiring,rfl,by simp [hdead],by simp [haged, hloaded]⟩

/-- An expiry between its exchange and its reset: the slot is dead, the birth time
still stands. -/
theorem exists_halfExpired : ∃ (es : List (AtomicBeat ℚ)) (scan : Scan ℚ) (τ : AtomicBeat ℚ),
    AtomicRun (es ++ [τ]) τ.after ∧ ClockPositive (es ++ [τ]) ∧
      (∀ σ ∈ es ++ [τ], Undisturbed σ) ∧ (∀ σ ∈ es ++ [τ], Timely σ) ∧
      τ.before.shared.stateOf 0 = .pending ∧
      (∃ phase, τ.before.threads τ.act.1 = .checking (axis 1) 32 phase) ∧
      (∀ i, τ.after.shared.stateOf i = .dead) ∧ (τ.after.shared.metadata 0).createdAt = 1 ∧
      τ.after.threads (some 1) = .checking (axis 1) 32 (.resetting 0 scan) ∧
      τ.after.threads (some 2) = .idle := by
  obtain ⟨es,pool,hrun,hacts,hcalm,htimely,hnode,hother,hthreads,-⟩ := exists_firstPublished
  have hpending : pool.shared.stateOf 0 = .pending := by
    rw [MemoryArena.stateOf, hnode]
    decide
  have hidle : pool.threads (some 1) = .idle := hthreads (some 1) (by simp)
  have hidle' : pool.threads (some 2) = .idle := hthreads (some 2) (by simp)
  set begun : AtomicPool ℚ := ⟨pool.shared,Function.update pool.threads (some 1)
    (beginCheck [1] (.ok (axis 1)) 32)⟩ with hbegun
  have hbegin : Moves AtomicStep pool (some 1, .check [1] (.ok (axis 1)) 32) begun :=
    moves_update (by rw [hidle]; exact .check)
  have hscanning : begun.threads (some 1) =
      .checking (axis 1) 32 (.scanning 0 ⟨minusOne,-1,-1⟩) := by simp [hbegun, beginCheck]
  obtain ⟨loaded,aged,expired,w,dead,scan,scan',hload,hage,hexpire,hloaded,haging,haged,hexpiring,
    hexpired,hdead,hthreads'⟩ := exists_expiry hscanning hnode (by decide) (by decide)
  have hbirth : expired.shared.stateOf 0 = .dead := by
    rw [hexpired, MemoryArena.stateOf_storeControl, if_pos rfl]
    exact hdead
  have hstays : ∀ i, i ≠ 0 → expired.shared.stateOf i = .dead := fun i hi => by
    rw [hexpired, MemoryArena.stateOf_storeControl, if_neg hi]
    exact hother i hi
  have hquiet : ∀ τ : AtomicBeat ℚ, τ.after.shared = τ.before.shared → Undisturbed τ := by
    intro τ hτ n hres
    unfold Reserves at hres
    rw [hτ, hres.1] at hres
    exact absurd hres.2 (by decide)
  refine ⟨_,scan',_,(((hrun.snoc hbegin).snoc hload).snoc hage).snoc hexpire,?_,?_,?_,
    by rw [haged]; exact hpending,⟨_,hexpiring⟩,?_,?_,?_,?_⟩
  · intro τ hτ prompt embedding t hact
    simp only [List.mem_append, List.mem_singleton] at hτ
    rcases hτ with (((hτ | rfl) | rfl) | rfl) | rfl
    · exact clockPositive_of_check (by decide) hacts τ hτ prompt embedding t hact
    · cases hact
      decide
    · cases hact
    · cases hact
    · cases hact
  · simp only [List.mem_append, List.mem_singleton]
    rintro τ ((((hτ | rfl) | rfl) | rfl) | rfl)
    · exact hcalm τ hτ
    · exact hquiet _ rfl
    · exact hquiet _ hloaded
    · exact hquiet _ (haged.trans hloaded.symm)
    · intro n hres
      have hdead' := hres.2
      by_cases hn : n = 0
      · subst hn
        exact absurd (hbirth.symm.trans hdead') (by decide)
      · exact absurd ((hstays n hn).symm.trans hdead') (by decide)
  · simp only [List.mem_append, List.mem_singleton]
    rintro τ ((((hτ | rfl) | rfl) | rfl) | rfl)
    · exact htimely τ hτ
    · intro query t i scan v birthTime hphase
      rw [hidle] at hphase
      cases hphase
    · exact timely_of_phase hscanning (by simp)
    · exact timely_of_phase haging (by simp)
    · intro query t i scan v birthTime hphase hv
      rw [hexpiring] at hphase
      cases hphase
      exact ⟨by simp [haged, hbegun, hnode],by decide⟩
  · intro i
    by_cases hi : i = 0
    · rw [hi]
      exact hbirth
    · exact hstays i hi
  · simp [hexpired, hbegun, hnode]
  · simp [hthreads']
  · simpa [hthreads', hbegun] using hidle'

/-- A claim during that expiry inherits the old birth time. -/
theorem exists_inherited : ∃ (es : List (AtomicBeat ℚ)) (pool : AtomicPool ℚ) (scan : Scan ℚ)
    (τ : AtomicBeat ℚ), AtomicRun es pool ∧ ClockPositive es ∧ LatestReservation es 0 τ ∧
      τ.act.1 = some 2 ∧ (∃ phase, τ.before.threads (some 2) = .checking (axis 2) 32 phase) ∧
      pool.shared.stateOf 0 = .pending ∧ (pool.shared.metadata 0).createdAt = 1 ∧
      pool.threads (some 1) = .checking (axis 1) 32 (.resetting 0 scan) ∧
      pool.threads (some 2) = .checking (axis 2) 32 (.copying 0) := by
  obtain ⟨es,scan,τ,hrun,hclock,-,-,-,-,hdead,hbirth,hexpiring,hidle⟩ := exists_halfExpired
  generalize τ.after = pool at *
  obtain ⟨fs,hfs,hclock'⟩ := run_check pool 2 [1] (.ok (axis 2)) 32 hidle
    (proceeds_claimFirst (by decide) fun j _ _ => hdead j)
  set standing : AtomicPool ℚ := ⟨pool.shared,Function.update pool.threads (some 2)
    (.checking (axis 2) 32 (.exchanging 0 (pool.shared.metadata 0).controlBlock))⟩ with hstanding
  have hthread : standing.threads (some 2) = .checking (axis 2) 32
      (.exchanging 0 (pool.shared.metadata 0).controlBlock) := by simp [hstanding]
  set claimed := pool.shared.storeControl 0 (packControl .pending .hot 0 0) with hclaimed
  set claiming : AtomicPool ℚ := ⟨claimed,
    Function.update standing.threads (some 2) (.checking (axis 2) 32 (.copying 0))⟩ with hclaiming
  have hclaim : Moves AtomicStep standing (some 2, .proceed false) claiming :=
    moves_check hthread (by
      simp [checkStep, toSize, pool.shared.compareExchange_self, hclaimed, hstanding])
  have hpending : claimed.stateOf 0 = .pending := by
    simp [hclaimed, MemoryArena.stateOf_storeControl]
  have hall : Run (Moves AtomicStep) (startAtomic (freshArena ℚ)) (es ++ [τ] ++ fs) standing :=
    Run.append hrun hfs
  refine ⟨_,_,scan,_,hall.snoc hclaim,?_,latestReservation_snoc ⟨hdead 0,hpending⟩,rfl,
    ⟨_,hthread⟩,hpending,?_,?_,?_⟩
  · refine (hclock.append (clockPositive_of_check (by decide) hclock')).append ?_
    rintro σ hσ _ _ t hact
    rw [List.mem_singleton.mp hσ] at hact
    cases hact
  · simpa [hclaiming, hclaimed] using hbirth
  · simpa [hclaiming, hstanding] using hexpiring
  · simp [hclaiming]

/-- It also loses its own: the reset runs after its stamp. -/
theorem publication_disturbed : ∃ (es fs : List (AtomicBeat ℚ)) (pool pool' : AtomicPool ℚ)
    (τ : AtomicBeat ℚ), AtomicRun es pool ∧ AtomicRun (es ++ fs) pool' ∧ ClockPositive (es ++ fs) ∧
      LatestReservation es 0 τ ∧ LatestReservation (es ++ fs) 0 τ ∧ τ.act.1 = some 2 ∧
      (∃ phase, τ.before.threads (some 2) = .checking (axis 2) 32 phase) ∧
      pool.shared.stateOf 0 = .pending ∧ (pool.shared.metadata 0).createdAt = 1 ∧
      pool'.shared.stateOf 0 = .pending ∧ (pool'.shared.metadata 0).createdAt = 0 ∧
      pool'.threads (some 2) = .finished (.checked (.ok ⟨.miss,0,[]⟩)) := by
  obtain ⟨es,pool,scan,τ,hrun,hclock,hlatest,hby,hmaker,hpending,hbirth,hexpiring,hclaiming⟩ :=
    exists_inherited
  set copied : AtomicPool ℚ := ⟨pool.shared.storeVector 0 (axis 2),
    Function.update pool.threads (some 2) (.checking (axis 2) 32 (.stamping 0))⟩ with hcopied
  have hcopy : Moves AtomicStep pool (some 2, .proceed false) copied := moves_check hclaiming rfl
  set stamped : AtomicPool ℚ := ⟨copied.shared.storeCreatedAt 0 32,
    Function.update copied.threads (some 2) (.finished (.checked (.ok ⟨.miss,0,[]⟩)))⟩
    with hstamped
  have hstamp : Moves AtomicStep copied (some 2, .proceed false) stamped :=
    moves_check (show copied.threads (some 2) = .checking (axis 2) 32 (.stamping 0) by
      simp [hcopied]) rfl
  set reset : AtomicPool ℚ := ⟨stamped.shared.storeCreatedAt 0 0,
    Function.update stamped.threads (some 1) (.checking (axis 1) 32 (.scanning 1 scan))⟩ with hreset
  have hmove : Moves AtomicStep stamped (some 1, .proceed false) reset :=
    moves_check (show stamped.threads (some 1) = .checking (axis 1) 32 (.resetting 0 scan) by
      simpa [hstamped, hcopied] using hexpiring) rfl
  have hcopied' : copied.shared.stateOf 0 = .pending := hpending
  have hstamped' : stamped.shared.stateOf 0 = .pending := by
    rw [hstamped, MemoryArena.stateOf_storeCreatedAt]
    exact hcopied'
  have hreset' : reset.shared.stateOf 0 = .pending := by
    rw [hreset, MemoryArena.stateOf_storeCreatedAt]
    exact hstamped'
  have hstill : ∀ σ : AtomicBeat ℚ, σ.before.shared.stateOf 0 = .pending → ¬Reserves 0 σ := by
    rintro σ hσ ⟨hσ',-⟩
    rw [hσ] at hσ'
    cases hσ'
  have hlater := ((hlatest.snoc (hstill ⟨pool,(some 2, .proceed false),copied⟩ hpending)).snoc
    (hstill ⟨copied,(some 2, .proceed false),stamped⟩ hcopied')).snoc
    (hstill ⟨stamped,(some 1, .proceed false),reset⟩ hstamped')
  have hrun' : AtomicRun _ reset := ((hrun.snoc hcopy).snoc hstamp).snoc hmove
  rw [List.append_assoc, List.append_assoc] at hrun' hlater
  refine ⟨es,_,pool,reset,τ,hrun,hrun',?_,hlatest,hlater,hby,hmaker,hpending,hbirth,hreset',?_,?_⟩
  · refine hclock.append fun σ hσ _ _ t hact => ?_
    simp only [List.cons_append, List.nil_append, List.mem_cons, List.not_mem_nil, or_false] at hσ
    rcases hσ with rfl | rfl | rfl <;> cases hact
  · simp [hreset]
  · simp [hreset, hstamped]

end Replay

end Strix
