import Strix.Engine.System

/-! # The collector in atomic steps

One iteration of `RunGarbageCollector` as a machine of its own: the loads of the
cursors and the header, the load of the node's control word, the two
compare-exchanges, the store to `created_at`, the copy of a rescue and the
`fetch_add` on the tail are separate steps. Whole calls of clients run between
any two of them.
-/
namespace Strix
open RunHistory

/-- Where the collector stands in its iteration, with the values it has loaded. -/
inductive CollectorPhase
  | idle
  | found (tail : UInt64) (header : PayloadHeader)
  | evicting (header : PayloadHeader) (ctrl : UnpackedControl)
  | resetting (header : PayloadHeader)
  | rescuing (tail : UInt64) (header : PayloadHeader) (ctrl : UnpackedControl)
  | rehoming (header : PayloadHeader) (ctrl : UnpackedControl) (rescuedOffset : UInt64)
  | advancing (n : UInt64)
  deriving DecidableEq

structure Stepwise (V : Type*) where
  arena : MemoryArena V
  phase : CollectorPhase

section Collector
variable {V : Type*}

def collectorStep (s : Stepwise V) : Except Fault (Stepwise V) :=
  match s.phase with
  | .idle =>
    match s.arena.sight with
    | .belowWatermark => .ok s
    | .ringEnd padding => .ok ⟨s.arena,.advancing padding⟩
    | .invalidIdentifier => .ok ⟨s.arena,.advancing 1⟩
    | .record header => .ok ⟨s.arena,.found s.arena.readTail header⟩
  | .found tail header =>
    match s.arena.getNode header.nodeId.toNat with
    | .error fault => .error fault
    | .ok node =>
      let ctrl := node.loadControl
      if MemoryArena.stale ctrl tail then
        .ok ⟨s.arena,.advancing (MemoryArena.recordSize header).toUInt64⟩
      else if ctrl.refBit = .cold then .ok ⟨s.arena,.evicting header ctrl⟩
      else .ok ⟨s.arena,.rescuing tail header ctrl⟩
  | .evicting header ctrl =>
    .ok ⟨s.arena.evictExchange header.nodeId.toNat ctrl,.resetting header⟩
  | .resetting header =>
    .ok ⟨s.arena.storeCreatedAt header.nodeId.toNat 0,
      .advancing (MemoryArena.recordSize header).toUInt64⟩
  | .rescuing tail header ctrl =>
    match s.arena.rescuePayload tail header with
    | .error fault => .error fault
    | .ok (rescuedOffset, arena) => .ok ⟨arena,.rehoming header ctrl rescuedOffset⟩
  | .rehoming header ctrl rescuedOffset =>
    .ok ⟨s.arena.rehomeExchange header.nodeId.toNat ctrl rescuedOffset,
      .advancing (MemoryArena.recordSize header).toUInt64⟩
  | .advancing n => .ok ⟨s.arena.advanceReadTail n,.idle⟩

end Collector

/-- Whose turn it is: a client's whole call, or the collector's next step. -/
inductive Turn (K : Type*)
  | call (act : Call K × Reply)
  | collector

abbrev Beat (K : Type*) := Transition (Stepwise (Vec K)) (Turn K)

section Model
variable {K : Type*} [Scoring K]

def StepwiseFires (s : Stepwise (Vec K)) (turn : Turn K) (s' : Stepwise (Vec K)) : Prop :=
  match turn with
  | .call act => act ≠ (.collect, .collected) ∧ Fires s.arena act s'.arena ∧ s'.phase = s.phase
  | .collector => collectorStep s = .ok s'

variable (K) in
def freshStepwise : Stepwise (Vec K) := ⟨freshArena K,.idle⟩

variable {arena arena' : MemoryArena (Vec K)} {phase : CollectorPhase}

theorem collector_fires {s s' : Stepwise (Vec K)} (h : collectorStep s = .ok s') :
    StepwiseFires s .collector s' := h

theorem call_fires {act : Call K × Reply} (phase : CollectorPhase)
    (hcall : act ≠ (.collect, .collected)) (h : Fires arena act arena') :
    StepwiseFires ⟨arena,phase⟩ (.call act) ⟨arena',phase⟩ := ⟨hcall,h,rfl⟩

/-- The cursors on the way from one arena to another are the old ones, the old
tail with the new head, or the new ones. -/
def CursorsBetween {V : Type*} (arena arena' mid : MemoryArena V) : Prop :=
  (mid.readTail = arena.readTail ∧
      (mid.writeHead = arena.writeHead ∨ mid.writeHead = arena'.writeHead)) ∨ mid = arena'

/-- A pass with nothing in between is the sequence of its atomic steps. -/
theorem pass_stepwise (h : arena.runGarbageCollectorPass = .ok arena') : ∃ es : List (Beat K),
    Run StepwiseFires ⟨arena,.idle⟩ es ⟨arena',.idle⟩ ∧
      ∀ τ ∈ es, τ.act = .collector ∧ CursorsBetween arena arena' τ.after.arena ∧
        ∀ header ctrl, τ.before.phase = .evicting header ctrl →
          (τ.before.arena.metadata header.nodeId.toNat).loadControl = ctrl := by
  have hstart : ∀ s', collectorStep ⟨arena,.idle⟩ = .ok s' → StepwiseFires (K := K)
      ⟨arena,.idle⟩ .collector s' := fun _ hs => hs
  have hfound : ∀ header, arena.sight = .record header → StepwiseFires (K := K)
      ⟨arena,.idle⟩ .collector ⟨arena,.found arena.readTail header⟩ := by
    intro header hs
    exact hstart _ (by simp only [collectorStep, hs])
  cases pass_move h with
  | asleep hs =>
    refine ⟨_,.single (hstart _ (by simp only [collectorStep, hs])),?_⟩
    simp [CursorsBetween]
  | leap hs | resync hs =>
    refine ⟨_,(Run.single (hstart _ (by simp only [collectorStep, hs]; rfl))).snoc
      (collector_fires rfl),?_⟩
    simp [CursorsBetween]
  | @skip header hs hnode old =>
    have hskip := collector_fires (K := K) (s := ⟨arena,.found arena.readTail header⟩) (by
      simp only [collectorStep, hnode, old, if_true]
      rfl)
    refine ⟨_,((Run.single (hfound _ hs)).snoc hskip).snoc (collector_fires rfl),?_⟩
    simp [CursorsBetween]
  | @evict header hs hnode current cold =>
    have hevict := collector_fires (K := K) (s := ⟨arena,.found arena.readTail header⟩) (by
      simp only [collectorStep, hnode, current, Bool.false_eq_true, if_false, cold, if_true]
      rfl)
    obtain ⟨-,-,hhead,htail⟩ := arena.evictExchange_fields header.nodeId.toNat
      (arena.metadata header.nodeId.toNat).loadControl
    refine ⟨_,((((Run.single (hfound _ hs)).snoc hevict).snoc (collector_fires rfl)).snoc
      (collector_fires rfl)).snoc (collector_fires rfl),?_⟩
    simp [CursorsBetween, hhead, htail]
  | @rescue header offset rescued hs hnode current hot hrescue =>
    have hload := collector_fires (K := K) (s := ⟨arena,.found arena.readTail header⟩) (by
      simp only [collectorStep, hnode, current, Bool.false_eq_true, if_false, hot, reduceCtorEq]
      rfl)
    have hcopy := collector_fires (K := K)
      (s := ⟨arena,.rescuing arena.readTail header (arena.metadata header.nodeId.toNat).loadControl⟩)
      (by simp only [collectorStep, hrescue]; rfl)
    obtain ⟨-,-,htail⟩ := rescuePayload_fields hrescue
    obtain ⟨-,-,hhead',htail'⟩ := rescued.rehomeExchange_fields header.nodeId.toNat
      (arena.metadata header.nodeId.toNat).loadControl offset
    refine ⟨_,((((Run.single (hfound _ hs)).snoc hload).snoc hcopy).snoc
      (collector_fires rfl)).snoc (collector_fires rfl),?_⟩
    simp [CursorsBetween, hhead', htail', htail]

end Model

end Strix
