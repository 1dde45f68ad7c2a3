import Strix.Semantic.NodeMove

/-! # What the collector's compare-exchanges expect

The collector keeps the fields of a control word and packs them again when it
comes to its compare-exchange, steps of other threads later. As packing undoes
unpacking, the word it expects is the word it loaded, to the last bit.
-/
namespace Strix
open ByteRing RunHistory ThreadPool

section Model
variable {K : Type*}

structure Exchange where
  nodeId : ℕ
  expected : UInt64
  desired : UInt64

/-- The compare-exchange before which the collector stands, with the words it packs. -/
def CollectorPhase.exchange : CollectorPhase → Option Exchange
  | .evicting header ctrl => some ⟨header.nodeId.toNat,
      packControl ctrl.state ctrl.refBit ctrl.length ctrl.virtualOffset,
      packControl .dead ctrl.refBit ctrl.length ctrl.virtualOffset⟩
  | .rehoming header ctrl rescuedOffset => some ⟨header.nodeId.toNat,
      packControl ctrl.state .hot ctrl.length ctrl.virtualOffset,
      packControl ctrl.state .cold ctrl.length rescuedOffset⟩
  | _ => none

def CollectorPhase.loads (arena : MemoryArena (Vec K)) : CollectorPhase → Option (ℕ × UInt64)
  | .found _ header =>
    some (header.nodeId.toNat, (arena.metadata header.nodeId.toNat).controlBlock)
  | _ => none

def controlLoad (τ : AtomicBeat K) : Option (Option ℕ × (ℕ × UInt64)) :=
  match τ.before.threads τ.act.1 with
  | .collector phase => (phase.loads τ.before.shared).map fun load => (τ.act.1, load)
  | _ => none

/-- The fields with which the collector goes on come from the word loaded last. -/
def CollectorPhase.FromLoad (load : Option (ℕ × UInt64)) : CollectorPhase → Prop
  | .evicting header ctrl => ∃ w, load = some (header.nodeId.toNat, w) ∧ unpackControl w = ctrl
  | .rescuing _ header ctrl => ∃ w, load = some (header.nodeId.toNat, w) ∧
      unpackControl w = ctrl ∧ ctrl.refBit = .hot
  | .rehoming header ctrl _ => ∃ w, load = some (header.nodeId.toNat, w) ∧
      unpackControl w = ctrl ∧ ctrl.refBit = .hot
  | _ => True

/-- The desired word is the expected one with the state dead, or with the reference
bit cold and the offset of the copy. -/
def Exchange.Rewrites (x : Exchange) : CollectorPhase → Prop
  | .evicting _ _ => unpackControl x.desired = { unpackControl x.expected with state := .dead }
  | .rehoming _ _ rescuedOffset => unpackControl x.desired =
      { unpackControl x.expected with
        refBit := .cold
        virtualOffset := .ofNat (rescuedOffset.toNat % 2 ^ 37) }
  | _ => False

end Model

section Steps
variable {K : Type*} {arena : MemoryArena (Vec K)} {phase : CollectorPhase}
  {s : Stepwise (Vec K)} {x : Exchange} {load : Option (ℕ × UInt64)}

theorem collectorStep_exchange (arena : MemoryArena (Vec K)) (h : phase.exchange = some x) :
    ∃ next, collectorStep ⟨arena,phase⟩ =
      .ok ⟨(arena.compareExchange x.nodeId x.expected x.desired).2,next⟩ := by
  cases phase with
  | evicting | rehoming =>
    obtain rfl := Option.some.inj h
    exact ⟨_,rfl⟩
  | idle | found | resetting | rescuing | advancing => cases h

theorem collectorStep_fromLoad (h : collectorStep ⟨arena,phase⟩ = .ok s)
    (hphase : phase.FromLoad load) : s.phase.FromLoad ((phase.loads arena).or load) := by
  cases phase with
  | idle =>
    simp only [collectorStep] at h
    split at h <;> obtain rfl := Except.ok.inj h <;> trivial
  | found tail header =>
    simp only [collectorStep] at h
    split at h
    · simp only [reduceCtorEq] at h
    rename_i node hnode
    obtain rfl := arena.getNode_eq hnode
    split at h
    · obtain rfl := Except.ok.inj h
      trivial
    split at h <;> obtain rfl := Except.ok.inj h
    · exact ⟨_,rfl,rfl⟩
    · rename_i hot
      exact ⟨_,rfl,rfl,EvictState.hot_of_ne hot⟩
  | rescuing tail header ctrl =>
    simp only [collectorStep] at h
    split at h
    · simp only [reduceCtorEq] at h
    · obtain rfl := Except.ok.inj h
      exact hphase
  | evicting | resetting | rehoming | advancing =>
    obtain rfl := Except.ok.inj h
    trivial

theorem CollectorPhase.FromLoad.exchange (hphase : phase.FromLoad load)
    (h : phase.exchange = some x) :
    load = some (x.nodeId, x.expected) ∧ x.Rewrites phase := by
  cases phase with
  | evicting header ctrl =>
    obtain ⟨w,rfl,rfl⟩ := hphase
    obtain rfl := Option.some.inj h
    have hexpected := packControl_unpackControl_eq w
    refine ⟨by rw [hexpected],?_⟩
    simp only [Exchange.Rewrites, hexpected, unpackControl_repack]
  | rehoming header ctrl offset =>
    obtain ⟨w,rfl,rfl,hot⟩ := hphase
    obtain rfl := Option.some.inj h
    -- the expected word is packed with a hot bit, which is the one loaded
    have hexpected := packControl_unpackControl_eq w
    rw [hot] at hexpected
    refine ⟨by rw [hexpected],?_⟩
    simp only [Exchange.Rewrites, hexpected,
      unpackControl_packControl offset (unpackControl_length_le w)]
  | idle | found | resetting | rescuing | advancing => cases h

end Steps

section Runs
variable {K : Type*} [Scoring K] {arena arena' : MemoryArena (Vec K)} {es : List (AtomicBeat K)}
  {pool : AtomicPool K} {τ : AtomicBeat K} {id : Option ℕ} {phase phase' : CollectorPhase}

theorem AtomicStep.of_collector {actor : Actor K} {action : Action K}
    (h : AtomicStep arena actor action arena' (.collector phase')) :
    ∃ phase, actor = .collector phase ∧ collectorStep ⟨arena,phase⟩ = .ok ⟨arena',phase'⟩ := by
  have hsame := (atomicStep_move h).collector_eq
  cases actor with
  | collector phase =>
    generalize hnext : Actor.collector phase' = next at h
    cases h with
    | collecting hstep =>
      cases hnext
      exact ⟨phase,rfl,hstep⟩
  | idle | checking | setting | finished => cases hsame

omit [Scoring K] in
theorem latest_controlLoad_snoc (es : List (AtomicBeat K))
    (hτ : τ.before.threads τ.act.1 = .collector phase) :
    latest controlLoad (es ++ [τ]) τ.act.1 =
      (phase.loads τ.before.shared).or (latest controlLoad es τ.act.1) := by
  have hload : controlLoad τ = (phase.loads τ.before.shared).map fun load => (τ.act.1, load) := by
    rw [controlLoad, hτ]
  rw [latest_snoc]
  cases hloads : phase.loads τ.before.shared with
  | none =>
    rw [hloads] at hload
    rw [record_none _ hload, Option.none_or]
  | some load =>
    rw [hloads] at hload
    rw [record_some _ hload, Function.update_self, Option.some_or]

omit [Scoring K] in
theorem latest_controlLoad_other (es : List (AtomicBeat K)) (hid : id ≠ τ.act.1) :
    latest controlLoad (es ++ [τ]) id = latest controlLoad es id := by
  rw [latest_snoc]
  cases hload : controlLoad τ with
  | none => rw [record_none _ hload]
  | some p =>
    obtain ⟨id',load⟩ := p
    obtain rfl : τ.act.1 = id' := by
      unfold controlLoad at hload
      split at hload
      · obtain ⟨_,-,heq⟩ := Option.map_eq_some_iff.mp hload
        exact congrArg Prod.fst heq
      · cases hload
    rw [record_some _ hload, Function.update_of_ne hid]

/-- In every interleaving the collector works with the fields of the word it has
loaded last. -/
theorem fromLoad_of_run (hrun : Run (Moves AtomicStep) (startAtomic arena) es pool)
    (hid : pool.threads id = .collector phase) : phase.FromLoad (latest controlLoad es id) := by
  refine (run_invariant (G := fun _ _ => True) (P := fun _ => True)
    (J := fun es _ id actor => ∀ phase, actor = .collector phase →
      phase.FromLoad (latest controlLoad es id)) ?_ ?_ hrun (fun _ _ => trivial) trivial ?_).2 id
    phase hid
  · intro es τ hmove _ _ hloaded
    refine ⟨trivial,fun phase' hafter => ?_⟩
    have hstep := hmove.own
    rw [hafter] at hstep
    obtain ⟨phase,hbefore,hcollect⟩ := hstep.of_collector
    rw [latest_controlLoad_snoc es hbefore]
    exact collectorStep_fromLoad hcollect (hloaded _ phase hbefore)
  · intro es τ j _ _ _ hloaded hj phase hphase
    rw [latest_controlLoad_other es hj]
    exact hloaded j phase hphase
  · intro i phase hstart
    cases i with
    | none =>
      cases hstart
      trivial
    | some i => cases hstart

/-- The control word is a bijective encoding: packing undoes unpacking, unpacking gives
back what fits, and a word packed with one other field keeps the rest. So in every
interleaving the collector's next compare-exchange expects the very word that the
collector has loaded. -/
theorem controlWord_bijective :
    (∀ w, packControl (unpackControl w).state (unpackControl w).refBit (unpackControl w).length
      (unpackControl w).virtualOffset = w) ∧
    (∀ s r length offset, length ≤ maxPayloadLength →
      unpackControl (packControl s r length offset) =
        ⟨s,r,length,.ofNat (offset.toNat % 2 ^ 37)⟩) ∧
    (∀ w, (∀ s, unpackControl { unpackControl w with state := s }.pack =
        { unpackControl w with state := s }) ∧
      (∀ r, unpackControl { unpackControl w with refBit := r }.pack =
        { unpackControl w with refBit := r }) ∧
      (∀ length ≤ maxPayloadLength, unpackControl { unpackControl w with length := length }.pack =
        { unpackControl w with length := length }) ∧
      ∀ offset, unpackControl { unpackControl w with virtualOffset := offset }.pack =
        { unpackControl w with virtualOffset := .ofNat (offset.toNat % 2 ^ 37) }) ∧
    ∀ (arena : MemoryArena (Vec K)) (es : List (AtomicBeat K)) (pool : AtomicPool K)
      (id : Option ℕ) (phase : CollectorPhase) (x : Exchange),
      Run (Moves AtomicStep) (startAtomic arena) es pool →
      pool.threads id = .collector phase → phase.exchange = some x →
        (∃ next, collectorStep ⟨pool.shared,phase⟩ =
          .ok ⟨(pool.shared.compareExchange x.nodeId x.expected x.desired).2,next⟩) ∧
        latest controlLoad es id = some (x.nodeId, x.expected) ∧ x.Rewrites phase := by
  refine ⟨packControl_unpackControl_eq,fun _ _ _ => unpackControl_packControl,
    fun w => ⟨fun s => ?_,fun r => ?_,fun length hlength => ?_,fun offset => ?_⟩,
    fun arena es pool id phase x hrun hid hx =>
      ⟨collectorStep_exchange pool.shared hx,(fromLoad_of_run hrun hid).exchange hx⟩⟩
  · exact unpackControl_repack w s _
  · exact unpackControl_repack w _ r
  · rw [UnpackedControl.pack, unpackControl_packControl _ hlength,
      unpackControl_virtualOffset_mod]
  · exact unpackControl_packControl offset (unpackControl_length_le w)

def halfFull : MemoryArena (Vec ℚ) :=
  { freshArena ℚ with
    metadata := fun _ => ⟨1,packControl .ready .cold 1 0⟩
    bufferPayload := memcpy (fun _ => 0) 0 (⟨validIdentifier,0,1⟩ : PayloadHeader).bytes
    writeHead := 0x80000000 }

theorem controlWord_bijective_replay :
    unpackControl (packControl .ready .hot 0xFFFFFF 0x2000000001) = ⟨.ready,.hot,0xFFFFFF,1⟩ ∧
    ∃ (es : List (AtomicBeat ℚ)) (pool : AtomicPool ℚ) (x : Exchange),
      Run (Moves AtomicStep) (startAtomic halfFull) es pool ∧
      latest controlLoad es none = some (0, packControl .ready .cold 1 0) ∧
      x.expected = packControl .ready .cold 1 0 ∧
      unpackControl x.desired = ⟨.dead,.cold,1,0⟩ := by
  obtain ⟨-,hunpack,-,hcollector⟩ := controlWord_bijective (K := ℚ)
  have hfind : collectorStep ⟨halfFull,.idle⟩ =
      .ok ⟨halfFull,.found 0 ⟨validIdentifier,0,1⟩⟩ := by
    have hsight : halfFull.sight = .record ⟨validIdentifier,0,1⟩ := by decide
    simp only [collectorStep, hsight]
    rfl
  have hload : collectorStep ⟨halfFull,.found 0 ⟨validIdentifier,0,1⟩⟩ =
      .ok ⟨halfFull,.evicting ⟨validIdentifier,0,1⟩ ⟨.ready,.cold,1,0⟩⟩ := by
    have hctrl : unpackControl (packControl .ready .cold 1 0) = ⟨.ready,.cold,1,0⟩ := by decide
    have hnode : halfFull.getNode 0 = .ok ⟨1,packControl .ready .cold 1 0⟩ :=
      halfFull.getNode_of_lt (by decide)
    have hstale : MemoryArena.stale ⟨.ready,.cold,1,0⟩ 0 = false := by decide
    simp only [collectorStep, UInt32.toNat_zero, hnode, MetaNode.loadControl, hctrl, hstale]
    rfl
  have halone : Proceeds ((startAtomic halfFull).shared, (startAtomic halfFull).threads none)
      (halfFull, .collector (.evicting ⟨validIdentifier,0,1⟩ ⟨.ready,.cold,1,0⟩)) :=
    (proceeds_collect hfind).trans (proceeds_collect hload)
  obtain ⟨es,hrun,-⟩ := run_proceeds (startAtomic halfFull) none halone
  obtain ⟨-,hlatest,hdesired⟩ := hcollector halfFull es _ none _ _ hrun
    (by simp only [Function.update_self]; rfl) rfl
  refine ⟨?_,es,_,_,hrun,hlatest,rfl,hdesired.trans (by decide)⟩
  exact (hunpack .ready .hot 0xFFFFFF 0x2000000001 (by decide)).trans (by decide)

end Runs

end Strix
