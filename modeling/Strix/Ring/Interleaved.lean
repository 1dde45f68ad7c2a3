import Strix.Engine.Stepwise
import Strix.Ring.Exhaustion

/-! # Calls between the collector's atomic steps

The collector ignores the result of its compare-exchange and passes the record
anyway. That is right as long as the word it expects can have changed only
because the node no longer serves the record. A hit in between breaks it: it
turns the cold word hot, the eviction fails and the node is left behind.
-/
namespace Strix
open ByteRing FramedLog RunHistory

section Spec
variable {V : Type*}

def distance (arena : MemoryArena V) (n : ℕ) : UInt64 :=
  ((arena.metadata n).loadControl.virtualOffset - arena.readTail) &&& virtualOffsetMask

/-- The node designates a record of its own that lies inside the live region. -/
structure Refers (arena : MemoryArena V) (n : ℕ) : Prop where
  inside : (distance arena n).toNat + (12 + (arena.metadata n).loadControl.length.toNat) ≤
    (arena.writeHead - arena.readTail).toNat
  header : readHeader arena.bufferPayload
      (ringIndex (arena.metadata n).loadControl.virtualOffset).val.toNat =
    ⟨validIdentifier,.ofNat n,(arena.metadata n).loadControl.length⟩

def WithinRing (arena : MemoryArena V) : Prop :=
  arena.writeHead - arena.readTail ≤ payloadBufferSize

/-- The compare-exchange that is to evict a ready node finds the word the
collector has loaded: the node has had no hit since. -/
def EvictsLoaded {K : Type*} (τ : Beat K) : Prop :=
  τ.act = .collector → ∀ header ctrl, τ.before.phase = .evicting header ctrl →
    ctrl.state = .ready → (τ.before.arena.metadata header.nodeId.toNat).controlBlock =
      packControl ctrl.state ctrl.refBit ctrl.length ctrl.virtualOffset

end Spec

section Nodes
variable {T : ℕ} {ctrl : UnpackedControl} {node old new : MetaNode}

def MetaNode.AtTail (node : MetaNode) (T : ℕ) : Prop :=
  node.loadControl.state = .ready ∧ node.loadControl.virtualOffset.toNat = T % 2 ^ 37

/-- As far as the node serves the record at the tail, the loaded word is its
word, apart from the reference bit, which may have become hot. -/
def Loaded (ctrl : UnpackedControl) (T : ℕ) (node : MetaNode) : Prop :=
  node.AtTail T → ctrl.state = .ready ∧ ctrl.virtualOffset = node.loadControl.virtualOffset ∧
    ctrl.length = node.loadControl.length ∧
    (node.loadControl.refBit = ctrl.refBit ∨ node.loadControl.refBit = .hot)

theorem loaded_self : Loaded node.loadControl T node := fun h => ⟨h.1,rfl,rfl,.inl rfl⟩

theorem MetaNode.Keeps.atTail (h : old.Keeps new) (hnew : new.AtTail T) : old.AtTail T ∧
    old.loadControl.virtualOffset = new.loadControl.virtualOffset ∧
    old.loadControl.length = new.loadControl.length ∧
    (new.loadControl.refBit = old.loadControl.refBit ∨ new.loadControl.refBit = .hot) := by
  obtain ⟨hready,hoffset⟩ := hnew
  rcases h with (hd | hp) | ⟨hs,ho,hl,hr⟩
  · simp [hready] at hd
  · simp [hready] at hp
  · exact ⟨⟨hs.symm.trans hready,by rw [← ho]; exact hoffset⟩,ho.symm,hl.symm,hr⟩

theorem not_atTail_keep (h : ¬ old.AtTail T) (hkeep : old.Keeps new ∨ ¬ new.AtTail T) :
    ¬ new.AtTail T := by
  rcases hkeep with hkeep | hno
  · exact fun hnew => h (hkeep.atTail hnew).1
  · exact hno

theorem Loaded.keep (h : Loaded ctrl T old) (hkeep : old.Keeps new ∨ ¬ new.AtTail T) :
    Loaded ctrl T new := by
  intro hnew
  rcases hkeep with hkeep | hno
  · obtain ⟨hold,ho,hl,hr⟩ := hkeep.atTail hnew
    obtain ⟨hs,ho',hl',hr'⟩ := h hold
    refine ⟨hs,ho'.trans ho,hl'.trans hl,?_⟩
    rcases hr with hr | hr
    · rwa [hr]
    · exact .inr hr
  · exact absurd hnew hno

end Nodes

section Invariant
variable {V : Type*}

/-- What the collector relies on in each phase, `T` being its tail and `log` the
live records: the record it has met is still the first one, and its node either
is as loaded or no longer serves that record. -/
def PhaseSound (metadata : ℕ → MetaNode) (T : ℕ) (log : List (Entry PayloadRecord)) :
    CollectorPhase → Prop
  | .idle => True
  | .found tail header => ∃ e rest, log = e :: rest ∧ e.offset = T ∧ tail = .ofNat T ∧
      header = e.item.header
  | .evicting header ctrl => ∃ e rest, log = e :: rest ∧ e.offset = T ∧ header = e.item.header ∧
      Loaded ctrl T (metadata e.item.nodeId)
  | .resetting header => ∃ e rest, log = e :: rest ∧ e.offset = T ∧ header = e.item.header ∧
      ¬ (metadata e.item.nodeId).AtTail T
  | .rescuing tail header ctrl => ∃ e rest, log = e :: rest ∧ e.offset = T ∧ tail = .ofNat T ∧
      header = e.item.header ∧ ctrl.refBit = .hot ∧ ctrl.virtualOffset.toNat = T % 2 ^ 37 ∧
      Loaded ctrl T (metadata e.item.nodeId)
  | .rehoming header ctrl rescuedOffset => ∃ e rest v, log = e :: rest ∧ e.offset = T ∧
      header = e.item.header ∧ ctrl.refBit = .hot ∧ ctrl.virtualOffset.toNat = T % 2 ^ 37 ∧
      Loaded ctrl T (metadata e.item.nodeId) ∧ ⟨v,e.item⟩ ∈ rest ∧ rescuedOffset = .ofNat v
  | .advancing n => ∃ e rest, log = e :: rest ∧
      ((T < e.offset ∧ n = .ofNat (e.offset - T)) ∨
        (e.offset = T ∧ n = .ofNat e.item.encode.length ∧ ¬ (metadata e.item.nodeId).AtTail T))

def StepwiseSound (s : Stepwise V) : Prop := ∃ T log H content, LiveRing s.arena T log H ∧
  Served s.arena.metadata log content ∧ PhaseSound s.arena.metadata T log s.phase

end Invariant

section Ring
variable {V : Type*} {arena : MemoryArena V} {T H n v : ℕ} {e : Entry PayloadRecord}
  {log rest : List (Entry PayloadRecord)} {content : ℕ → Option (List UInt8)}
  {ctrl : UnpackedControl}

theorem LiveRing.withinRing (h : LiveRing arena T log H) : WithinRing arena := by
  have hroom := h.room
  rw [WithinRing, UInt64.le_iff_toNat_le, h.used_toNat, payloadBufferSize_toNat]
  omega

theorem LiveRing.distance_toNat (hring : LiveRing arena T log H) (he : e ∈ log)
    (hserves : (arena.metadata n).Serves e) : (distance arena n).toNat = e.offset - T := by
  have hroom := hring.room
  have hbounds := hring.holds.laid.bounds he
  rw [distance, and_virtualOffsetMask_toNat, UInt64.toNat_sub, hserves.1, hring.tail,
    UInt64.toNat_ofNat']
  omega

theorem Served.refers (hserved : Served arena.metadata log content)
    (hring : LiveRing arena T log H) (hready : (arena.metadata n).loadControl.state = .ready) :
    Refers arena n := by
  obtain ⟨e,he,rfl,hserves,-⟩ := hserved.ready n hready
  have hbounds := hring.holds.laid.bounds he
  have hsize := e.item.encode_length
  have hfits := hring.holds.laid.fits (by decide) (by decide) he
  refine ⟨?_,?_⟩
  · rw [hring.distance_toNat he hserves, hserves.2, hring.used_toNat]
    omega
  · have hindex : (ringIndex (arena.metadata e.item.nodeId).loadControl.virtualOffset).val.toNat =
        e.offset % 2 ^ 32 := by
      rw [ringIndex_toNat, hserves.1]
      omega
    have hlength : (arena.metadata e.item.nodeId).loadControl.length = e.item.header.length :=
      UInt32.toNat_inj.mp (hserves.2.trans e.item.header_length_toNat.symm)
    have hload := (stored_append.mp (hring.holds.stored e he)).1.load_eq (n := 12) le_rfl hfits
    rw [hindex, hlength]
    exact readHeader_of_bytes hload

theorem LiveRing.not_refers (hring : LiveRing arena T log H)
    (hoffset : (arena.metadata n).loadControl.virtualOffset.toNat = v % 2 ^ 37) (hlt : v < T)
    (hnear : T < v + 2 ^ 36) : ¬ Refers arena n := by
  intro h
  have hroom := hring.room
  have hdistance : (distance arena n).toNat = v + 2 ^ 37 - T := by
    rw [distance, and_virtualOffsetMask_toNat, UInt64.toNat_sub, hoffset, hring.tail,
      UInt64.toNat_ofNat']
    omega
  have := h.inside
  rw [hdistance, hring.used_toNat] at this
  omega

theorem LiveRing.offset_ne (hring : LiveRing arena T (e :: rest) H) {a : Entry PayloadRecord}
    (ha : a ∈ rest) (hfront : e.offset = T) : a.offset % 2 ^ 37 ≠ T % 2 ^ 37 := by
  have hroom := hring.room
  have hbounds := hring.holds.drop.laid.bounds ha
  have hpos := e.item.encode_pos
  omega

theorem evictExchange_keeps (n : ℕ) (ctrl : UnpackedControl) (m : ℕ) :
    (arena.metadata m).Keeps ((arena.evictExchange n ctrl).metadata m) := by
  rw [MemoryArena.evictExchange, MemoryArena.compareExchange]
  split
  · by_cases hm : m = n
    · subst hm
      exact .inl (.inl (by simp [MetaNode.loadControl]))
    · rw [MemoryArena.storeControl_of_ne _ _ _ hm]
      exact .refl _
  · exact .refl _

theorem evictExchange_freed (hloaded : Loaded ctrl T (arena.metadata n))
    (hsame : ctrl.state = .ready → (arena.metadata n).controlBlock =
      packControl ctrl.state ctrl.refBit ctrl.length ctrl.virtualOffset) :
    ¬ ((arena.evictExchange n ctrl).metadata n).AtTail T := by
  rw [MemoryArena.evictExchange, MemoryArena.compareExchange]
  split
  · intro h
    simp [MetaNode.AtTail, MetaNode.loadControl] at h
  · next hword =>
    intro h
    exact hword (hsame (hloaded h).1)

theorem Loaded.word (h : Loaded ctrl T (arena.metadata n)) (hot : ctrl.refBit = .hot)
    (htail : (arena.metadata n).AtTail T) : (arena.metadata n).controlBlock =
      packControl ctrl.state .hot ctrl.length ctrl.virtualOffset := by
  obtain ⟨hs,ho,hl,hr⟩ := h htail
  have href : (arena.metadata n).loadControl.refBit = .hot := by
    rcases hr with hr | hr
    · exact hr.trans hot
    · exact hr
  rw [hs, ho, hl, ← htail.1, ← href]
  exact (packControl_unpackControl_eq _).symm

theorem Served.rehome (hserved : Served arena.metadata (e :: rest) content)
    (hring : LiveRing arena T (e :: rest) H) (hfront : e.offset = T) (hot : ctrl.refBit = .hot)
    (hoffset : ctrl.virtualOffset.toNat = T % 2 ^ 37)
    (hloaded : Loaded ctrl T (arena.metadata e.item.nodeId)) (hv : ⟨v,e.item⟩ ∈ rest) :
    Served (arena.rehomeExchange e.item.nodeId ctrl (.ofNat v)).metadata (e :: rest) content ∧
      ¬ ((arena.rehomeExchange e.item.nodeId ctrl (.ofNat v)).metadata e.item.nodeId).AtTail T := by
  have hne : v % 2 ^ 37 ≠ T % 2 ^ 37 := hring.offset_ne hv hfront
  rw [MemoryArena.rehomeExchange, MemoryArena.compareExchange]
  split
  swap
  · next hword => exact ⟨hserved,fun htail => hword (hloaded.word hot htail)⟩
  next hword =>
  have hctrl : (arena.metadata e.item.nodeId).loadControl =
      unpackControl (packControl ctrl.state .hot ctrl.length ctrl.virtualOffset) := by
    rw [← hword]
    rfl
  refine ⟨?_,?_⟩
  swap
  · intro htail
    have := htail.2
    simp only [MemoryArena.storeControl_self, MetaNode.loadControl,
      unpackControl_packControl_virtualOffset, ofNat_and_offsetMask] at this
    exact hne this
  refine hserved.repoint (List.mem_cons_of_mem _ hv) (by rw [hctrl]; simp) (by rw [hctrl]; simp)
    fun hready => hserved.at_front hring hfront ?_ hready
  rw [stale_eq_false, hready, hctrl]
  refine ⟨by simp,UInt64.toNat_inj.mp ?_⟩
  rw [hring.tail, ofNat_and_offsetMask, unpackControl_packControl_virtualOffset,
    and_virtualOffsetMask_toNat, hoffset]
  omega

end Ring

section Steps
variable {V : Type*} {T H : ℕ} {log : List (Entry PayloadRecord)}
  {content : ℕ → Option (List UInt8)}

/-- A whole call between two steps of the collector changes nothing the collector
relies on. -/
theorem PhaseSound.call {metadata metadata' : ℕ → MetaNode} {laid : List (Entry PayloadRecord)}
    {phase : CollectorPhase} (h : PhaseSound metadata T log phase)
    (hnodes : ∀ e rest, log = e :: rest → e.offset = T →
      ∀ n, (metadata n).Keeps (metadata' n) ∨ ¬ (metadata' n).AtTail T) :
    PhaseSound metadata' T (log ++ laid) phase := by
  cases phase with
  | idle => trivial
  | found tail header =>
    obtain ⟨e,rest,rfl,hrest⟩ := h
    exact ⟨e,rest ++ laid,rfl,hrest⟩
  | evicting header ctrl =>
    obtain ⟨e,rest,rfl,hfront,hheader,hloaded⟩ := h
    exact ⟨e,rest ++ laid,rfl,hfront,hheader,hloaded.keep (hnodes e rest rfl hfront _)⟩
  | resetting header =>
    obtain ⟨e,rest,rfl,hfront,hheader,hfree⟩ := h
    exact ⟨e,rest ++ laid,rfl,hfront,hheader,not_atTail_keep hfree (hnodes e rest rfl hfront _)⟩
  | rescuing tail header ctrl =>
    obtain ⟨e,rest,rfl,hfront,htail,hheader,hot,hoffset,hloaded⟩ := h
    exact ⟨e,rest ++ laid,rfl,hfront,htail,hheader,hot,hoffset,
      hloaded.keep (hnodes e rest rfl hfront _)⟩
  | rehoming header ctrl rescuedOffset =>
    obtain ⟨e,rest,v,rfl,hfront,hheader,hot,hoffset,hloaded,hv,hrescued⟩ := h
    exact ⟨e,rest ++ laid,v,rfl,hfront,hheader,hot,hoffset,
      hloaded.keep (hnodes e rest rfl hfront _),List.mem_append_left _ hv,hrescued⟩
  | advancing n =>
    obtain ⟨e,rest,rfl,hgap | ⟨hfront,hn,hfree⟩⟩ := h
    · exact ⟨e,rest ++ laid,rfl,.inl hgap⟩
    · exact ⟨e,rest ++ laid,rfl,.inr ⟨hfront,hn,not_atTail_keep hfree (hnodes e rest rfl hfront _)⟩⟩

variable {arena : MemoryArena V} {s' : Stepwise V} {e : Entry PayloadRecord}
  {rest : List (Entry PayloadRecord)} {ctrl : UnpackedControl}

theorem LiveRing.sound_idle (hring : LiveRing arena T log H)
    (hserved : Served arena.metadata log content) (hstep : collectorStep ⟨arena,.idle⟩ = .ok s') :
    StepwiseSound s' := by
  rcases hring.sight_cases with ⟨-,hs⟩ | ⟨-,e,rest,rfl,⟨hgap,hs⟩ | ⟨hfront,hs⟩⟩
  · simp only [collectorStep, hs, Except.ok.injEq] at hstep
    subst hstep
    exact ⟨T,log,H,content,hring,hserved,trivial⟩
  · simp only [collectorStep, hs, Except.ok.injEq] at hstep
    subst hstep
    exact ⟨T,_,H,content,hring,hserved,e,rest,rfl,.inl ⟨hgap,rfl⟩⟩
  · simp only [collectorStep, hs, Except.ok.injEq] at hstep
    subst hstep
    exact ⟨T,_,H,content,hring,hserved,e,rest,rfl,hfront,hring.tail,rfl⟩

theorem LiveRing.sound_found (hring : LiveRing arena T (e :: rest) H)
    (hserved : Served arena.metadata (e :: rest) content) (hfront : e.offset = T)
    (hstep : collectorStep ⟨arena,.found (.ofNat T) e.item.header⟩ = .ok s') :
    StepwiseSound s' := by
  have hnode := MemoryArena.getNode_of_lt arena e.item.nodeId_lt
  simp only [collectorStep, e.item.header_nodeId_toNat, hnode, ← hring.tail,
    recordSize_toUInt64] at hstep
  cases hold : MemoryArena.stale (arena.metadata e.item.nodeId).loadControl arena.readTail with
  | true =>
    simp only [hold, if_true, Except.ok.injEq] at hstep
    subst hstep
    refine ⟨T,_,H,content,hring,hserved,e,rest,rfl,.inr ⟨hfront,rfl,fun htail => ?_⟩⟩
    exact offset_ne_of_stale hring.tail hfront hold htail.1 (by rw [hfront]; exact htail.2)
  | false =>
    have hoffset : (arena.metadata e.item.nodeId).loadControl.virtualOffset.toNat = T % 2 ^ 37 := by
      rw [(stale_eq_false.mp hold).2, hring.tail, ofNat_and_offsetMask]
    cases href : (arena.metadata e.item.nodeId).loadControl.refBit with
    | cold =>
      simp only [hold, href, Bool.false_eq_true, if_false, if_true, Except.ok.injEq] at hstep
      subst hstep
      exact ⟨T,_,H,content,hring,hserved,e,rest,rfl,hfront,rfl,loaded_self⟩
    | hot =>
      simp only [hold, href, Bool.false_eq_true, if_false, reduceCtorEq, Except.ok.injEq] at hstep
      subst hstep
      exact ⟨T,_,H,content,hring,hserved,e,rest,rfl,hfront,hring.tail,rfl,href,hoffset,loaded_self⟩

theorem LiveRing.sound_evicting (hring : LiveRing arena T (e :: rest) H)
    (hserved : Served arena.metadata (e :: rest) content) (hfront : e.offset = T)
    (hloaded : Loaded ctrl T (arena.metadata e.item.nodeId))
    (hsame : ctrl.state = .ready → (arena.metadata e.item.nodeId).controlBlock =
      packControl ctrl.state ctrl.refBit ctrl.length ctrl.virtualOffset)
    (hstep : collectorStep ⟨arena,.evicting e.item.header ctrl⟩ = .ok s') : StepwiseSound s' := by
  simp only [collectorStep, e.item.header_nodeId_toNat, Except.ok.injEq] at hstep
  subst hstep
  obtain ⟨-,hbuf,hhead,htail⟩ := arena.evictExchange_fields e.item.nodeId ctrl
  exact ⟨T,_,H,content,hring.congr hbuf hhead htail,
    hserved.keep (evictExchange_keeps e.item.nodeId ctrl),e,rest,rfl,hfront,rfl,
    evictExchange_freed hloaded hsame⟩

theorem LiveRing.sound_resetting (hring : LiveRing arena T (e :: rest) H)
    (hserved : Served arena.metadata (e :: rest) content) (hfront : e.offset = T)
    (hfree : ¬ (arena.metadata e.item.nodeId).AtTail T)
    (hstep : collectorStep ⟨arena,.resetting e.item.header⟩ = .ok s') : StepwiseSound s' := by
  simp only [collectorStep, e.item.header_nodeId_toNat, recordSize_toUInt64,
    Except.ok.injEq] at hstep
  subst hstep
  have hword : ∀ m, ((arena.storeCreatedAt e.item.nodeId 0).metadata m).loadControl =
      (arena.metadata m).loadControl := by
    intro m
    by_cases hm : m = e.item.nodeId
    · subst hm
      simp [MetaNode.loadControl]
    · rw [MemoryArena.storeCreatedAt_of_ne _ _ _ hm]
  refine ⟨T,_,H,content,hring.congr rfl rfl rfl,hserved.keep fun m => ?_,e,rest,rfl,
    .inr ⟨hfront,rfl,?_⟩⟩
  · rw [MetaNode.Keeps, hword]
    exact MetaNode.Keeps.refl _
  · rwa [MetaNode.AtTail, hword]

theorem LiveRing.sound_rescuing (hring : LiveRing arena T (e :: rest) H)
    (hserved : Served arena.metadata (e :: rest) content) (hfront : e.offset = T)
    (hot : ctrl.refBit = .hot) (hoffset : ctrl.virtualOffset.toNat = T % 2 ^ 37)
    (hloaded : Loaded ctrl T (arena.metadata e.item.nodeId))
    (hstep : collectorStep ⟨arena,.rescuing (.ofNat T) e.item.header ctrl⟩ = .ok s')
    (hb : WithinRing s'.arena) : StepwiseSound s' := by
  have hle := hring.le
  have hend := hring.front.2
  have hstored := hring.holds.stored e List.mem_cons_self
  rw [hfront] at hend hstored
  by_cases hroom : H + e.item.encode.length < T + 2 ^ 32
  swap
  · simp only [collectorStep, ← hring.tail, rescuePayload_full hring.head hring.tail hle hring.room
      (show T + 2 ^ 32 ≤ H + e.item.encode.length by omega), reduceCtorEq] at hstep
  obtain ⟨hplace,hgap⟩ := place_bounds H
  obtain ⟨buf,hrescue,hwrites⟩ := rescuePayload_ok hring.head hring.tail hend hring.room hstored hroom
  simp only [collectorStep, ← hring.tail, hrescue, Except.ok.injEq] at hstep
  subst hstep
  have hfits : place (2 ^ 32) 12 H + e.item.encode.length ≤ T + 2 ^ 32 := by
    rw [WithinRing, UInt64.le_iff_toNat_le, payloadBufferSize_toNat] at hb
    simp only at hb
    rw [hring.tail, ofNat_sub_toNat (by omega) (by omega)] at hb
    omega
  exact ⟨T,_,_,content,hring.append hwrites hfits,hserved.mono (fun a ha => List.mem_append_left _ ha),
    e,rest ++ [⟨place (2 ^ 32) 12 H,e.item⟩],_,rfl,hfront,rfl,hot,hoffset,hloaded,by simp,rfl⟩

theorem LiveRing.sound_rehoming {v : ℕ} (hring : LiveRing arena T (e :: rest) H)
    (hserved : Served arena.metadata (e :: rest) content) (hfront : e.offset = T)
    (hot : ctrl.refBit = .hot) (hoffset : ctrl.virtualOffset.toNat = T % 2 ^ 37)
    (hloaded : Loaded ctrl T (arena.metadata e.item.nodeId)) (hv : ⟨v,e.item⟩ ∈ rest)
    (hstep : collectorStep ⟨arena,.rehoming e.item.header ctrl (.ofNat v)⟩ = .ok s') :
    StepwiseSound s' := by
  simp only [collectorStep, e.item.header_nodeId_toNat, recordSize_toUInt64,
    Except.ok.injEq] at hstep
  subst hstep
  obtain ⟨hserved',hfree⟩ := hserved.rehome hring hfront hot hoffset hloaded hv
  obtain ⟨-,hbuf,hhead,htail⟩ := arena.rehomeExchange_fields e.item.nodeId ctrl (.ofNat v)
  exact ⟨T,_,H,content,hring.congr hbuf hhead htail,hserved',e,rest,rfl,.inr ⟨hfront,rfl,hfree⟩⟩

theorem LiveRing.sound_advancing {n : UInt64} (hring : LiveRing arena T log H)
    (hserved : Served arena.metadata log content)
    (hphase : PhaseSound arena.metadata T log (.advancing n))
    (hstep : collectorStep ⟨arena,.advancing n⟩ = .ok s') : StepwiseSound s' := by
  simp only [collectorStep, Except.ok.injEq] at hstep
  subst hstep
  obtain ⟨e,rest,rfl,⟨hgap,rfl⟩ | ⟨hfront,rfl,hfree⟩⟩ := hphase
  · exact ⟨_,_,H,content,hring.leap,hserved,trivial⟩
  · refine ⟨_,_,H,content,hring.drop hfront,hserved.drop fun hready hoffset => ?_,trivial⟩
    rw [hfront] at hoffset
    exact hfree ⟨hready,hoffset⟩

/-- Each step of the collector keeps the invariant; the eviction needs that the
loaded word is still there. -/
theorem StepwiseSound.collector {s : Stepwise V} (h : StepwiseSound s)
    (hstep : collectorStep s = .ok s') (hb : WithinRing s'.arena)
    (hsame : ∀ header ctrl, s.phase = .evicting header ctrl → ctrl.state = .ready →
      (s.arena.metadata header.nodeId.toNat).controlBlock =
        packControl ctrl.state ctrl.refBit ctrl.length ctrl.virtualOffset) :
    StepwiseSound s' := by
  obtain ⟨T,log,H,content,hring,hserved,hphase⟩ := h
  obtain ⟨arena,phase⟩ := s
  cases phase with
  | idle => exact hring.sound_idle hserved hstep
  | found tail header =>
    obtain ⟨e,rest,rfl,hfront,rfl,rfl⟩ := hphase
    exact hring.sound_found hserved hfront hstep
  | evicting header ctrl =>
    obtain ⟨e,rest,rfl,hfront,rfl,hloaded⟩ := hphase
    refine hring.sound_evicting hserved hfront hloaded ?_ hstep
    have := hsame _ _ rfl
    rwa [e.item.header_nodeId_toNat] at this
  | resetting header =>
    obtain ⟨e,rest,rfl,hfront,rfl,hfree⟩ := hphase
    exact hring.sound_resetting hserved hfront hfree hstep
  | rescuing tail header ctrl =>
    obtain ⟨e,rest,rfl,hfront,rfl,rfl,hot,hoffset,hloaded⟩ := hphase
    exact hring.sound_rescuing hserved hfront hot hoffset hloaded hstep hb
  | rehoming header ctrl rescuedOffset =>
    obtain ⟨e,rest,v,rfl,hfront,rfl,hot,hoffset,hloaded,hv,rfl⟩ := hphase
    exact hring.sound_rehoming hserved hfront hot hoffset hloaded hv hstep
  | advancing n => exact hring.sound_advancing hserved hphase hstep

theorem StepwiseSound.advance_le {s : Stepwise V} {m : UInt64} {n : ℕ} (h : StepwiseSound s)
    (hphase : s.phase = .advancing m) (hready : (s.arena.metadata n).loadControl.state = .ready) :
    m ≤ distance s.arena n := by
  obtain ⟨T,log,H,content,hring,hserved,hsound⟩ := h
  rw [hphase] at hsound
  obtain ⟨a,ha,rfl,hserves,-⟩ := hserved.ready n hready
  obtain ⟨e,rest,rfl,hcase⟩ := hsound
  rw [UInt64.le_iff_toNat_le, hring.distance_toNat ha hserves]
  have hbehind : a = e ∨ e.offset + e.item.encode.length ≤ a.offset := by
    rcases List.mem_cons.mp ha with rfl | ha
    · exact .inl rfl
    · exact .inr (hring.holds.drop.laid.bounds ha).1
  rcases hcase with ⟨hgap,rfl⟩ | ⟨hfront,rfl,hfree⟩
  · rw [UInt64.toNat_ofNat']
    rcases hbehind with rfl | hbehind <;> omega
  · rcases hbehind with rfl | hbehind
    · exact absurd ⟨hready,by rw [hserves.1, hfront]⟩ hfree
    · rw [UInt64.toNat_ofNat']
      omega

end Steps

section Runs
variable {K : Type*} [Scoring K] {arena arena' : MemoryArena (Vec K)} {act : Call K × Reply}
  {s s' : Stepwise (Vec K)}

theorem readTail_of_call (hcall : act ≠ (.collect, .collected)) (hfire : Fires arena act arena') :
    arena'.readTail = arena.readTail := by
  rcases fires_cases hfire with ⟨prompt,embedding,t,result,rfl,hc⟩ |
    ⟨nodeId,payload,result,rfl,hc⟩ | ⟨rfl,-⟩
  · rcases checkCache_cases hc with ⟨-,rfl⟩ | ⟨query,-,-,ho⟩
    · rfl
    · exact ho.ring.2.2
  · rcases setCache_cases hc with ⟨-,rfl⟩ | ⟨hw,offset,written,hwrite,⟨-,-,rfl⟩ | ⟨-,-,rfl⟩⟩
    · rfl
    · exact (writePayload_fields hwrite).2.2
    · exact (writePayload_fields hwrite).2.2
  · exact absurd rfl hcall

theorem StepwiseSound.call (h : StepwiseSound s) (hcall : act ≠ (.collect, .collected))
    (hfire : Fires s.arena act s'.arena) (hphase : s'.phase = s.phase) (hb : WithinRing s'.arena) :
    StepwiseSound s' := by
  obtain ⟨T,log,H,content,hring,hserved,hsound⟩ := h
  have htail := readTail_of_call hcall hfire
  obtain ⟨laid,H',hext⟩ := hring.call hserved hfire hcall (by
    intro _
    have := hb
    rwa [WithinRing, htail] at this)
  refine ⟨T,_,H',_,hext.ring,hext.served,?_⟩
  rw [hphase]
  refine hsound.call fun e rest hlog hfront n => ?_
  rcases hext.nodes n with hkeep | hoffset
  · exact .inl hkeep
  · subst hlog
    refine .inr fun hat => ?_
    have hend := hring.front.2
    have hpos := e.item.encode_pos
    have hroom := hring.room
    obtain ⟨hplace,hgap⟩ := place_bounds H
    have := hoffset.symm.trans hat.2
    omega

theorem stepwiseSound_fresh : StepwiseSound (freshStepwise K) :=
  ⟨0,[],0,_,liveRing_initial _,served_fresh,trivial⟩

/-- The invariant holds along every interleaving in which evictions find the word
that the collector has loaded. -/
theorem stepwise_sound {es : List (Beat K)} (hrun : Run StepwiseFires (freshStepwise K) es s)
    (hb : ∀ τ ∈ es, WithinRing τ.after.arena) (hevicts : ∀ τ ∈ es, EvictsLoaded τ) :
    StepwiseSound s := by
  refine Run.invariant (P := fun τ => WithinRing τ.after.arena ∧ EvictsLoaded τ) ?_ hrun
    (fun τ hτ => ⟨hb τ hτ,hevicts τ hτ⟩) stepwiseSound_fresh
  rintro ⟨before,turn,after⟩ hfire ⟨hbound,hloaded⟩ hsound
  cases turn with
  | call act => exact hsound.call hfire.1 hfire.2.1 hfire.2.2 hbound
  | collector => exact hsound.collector hfire hbound (hloaded rfl)

/-- No ready node is left behind as long as every eviction finds the word that the
collector has loaded. -/
theorem ready_nodes_refer {es : List (Beat K)} (hrun : Run StepwiseFires (freshStepwise K) es s)
    (hb : ∀ τ ∈ es, WithinRing τ.after.arena) (hevicts : ∀ τ ∈ es, EvictsLoaded τ) :
    (∀ n, (s.arena.metadata n).loadControl.state = .ready → Refers s.arena n) ∧
      ∀ m, s.phase = .advancing m → ∀ n, (s.arena.metadata n).loadControl.state = .ready →
        m ≤ distance s.arena n := by
  have hsound := stepwise_sound hrun hb hevicts
  refine ⟨fun n hready => ?_,fun m hphase n hready => hsound.advance_le hphase hready⟩
  obtain ⟨T,log,H,content,hring,hserved,-⟩ := hsound
  exact hserved.refers hring hready

/-- A bounded run of whole calls is an interleaved run without overlaps. -/
theorem EngineRun.stepwise {es : List (Step K)} (hrun : EngineRun es arena)
    (hb : ∀ τ ∈ es, Bounded τ) : ∃ fs : List (Beat K),
    Run StepwiseFires (freshStepwise K) fs ⟨arena,.idle⟩ ∧
      ∀ τ ∈ fs, WithinRing τ.after.arena ∧ EvictsLoaded τ := by
  induction hrun with
  | nil => exact ⟨[],.nil _,by simp⟩
  | @snoc u v es act run fire ih =>
    have hprefix := (List.forall_mem_append.mp hb).1
    have hlast := (List.forall_mem_append.mp hb).2 _ (List.mem_singleton_self _)
    obtain ⟨fs,hfs,hsound⟩ := ih hprefix
    obtain ⟨log,hintact⟩ := EngineRun.intact run hprefix
    obtain ⟨log',hintact'⟩ := hintact.step fire hlast
    by_cases hcall : act = (.collect, .collected)
    · subst hcall
      obtain ⟨gs,hgs,hmid⟩ := pass_stepwise (fires_collect.mp fire)
      refine ⟨_,hfs.append hgs,List.forall_mem_append.mpr ⟨hsound,fun τ hτ => ?_⟩⟩
      obtain ⟨-,hcursors,hloaded⟩ := hmid τ hτ
      refine ⟨?_,fun _ header ctrl hphase _ => ?_⟩
      · rcases hcursors with ⟨htail,hhead | hhead⟩ | hdone
        · rw [WithinRing, htail, hhead]
          exact hintact.ring.withinRing
        · rw [WithinRing, htail, hhead]
          by_cases hmoved : u.writeHead = v.writeHead
          · rw [← hmoved]
            exact hintact.ring.withinRing
          · exact hlast hmoved
        · rw [hdone]
          exact hintact'.ring.withinRing
      · rw [← hloaded header ctrl hphase]
        exact (packControl_unpackControl_eq _).symm
    · refine ⟨_,hfs.snoc (call_fires .idle hcall fire),List.forall_mem_append.mpr ⟨hsound,?_⟩⟩
      rw [List.forall_mem_singleton]
      exact ⟨hintact'.ring.withinRing,by simp [EvictsLoaded]⟩

end Runs

section Replay
variable {K : Type*} [Field K] [LinearOrder K] [IsStrictOrderedRing K]

theorem LiveRing.load_cold {arena : MemoryArena (Vec K)} {T H : ℕ} {e : Entry PayloadRecord}
    {log : List (Entry PayloadRecord)} (hring : LiveRing arena T (e :: log) H)
    (hpast : T + 2 ^ 31 ≤ H) (hfront : e.offset = T)
    (hcurrent : MemoryArena.stale (arena.metadata e.item.nodeId).loadControl arena.readTail = false)
    (hcold : (arena.metadata e.item.nodeId).loadControl.refBit = .cold) :
    ∃ fs : List (Beat K), Run StepwiseFires ⟨arena,.idle⟩ fs
        ⟨arena,.evicting e.item.header (arena.metadata e.item.nodeId).loadControl⟩ ∧
      ∀ τ ∈ fs, WithinRing τ.after.arena ∧ EvictsLoaded τ := by
  have hs : arena.sight = .record e.item.header := by
    rcases hring.sight_cases with ⟨hlow,-⟩ | ⟨-,a,rest,heq,⟨hgap,-⟩ | ⟨-,hs⟩⟩
    · omega
    · obtain ⟨rfl,-⟩ := List.cons.inj heq
      omega
    · obtain ⟨rfl,-⟩ := List.cons.inj heq
      exact hs
  have hnode := MemoryArena.getNode_of_lt arena e.item.nodeId_lt
  have hfound : StepwiseFires (K := K) ⟨arena,.idle⟩ .collector
      ⟨arena,.found arena.readTail e.item.header⟩ := by
    simp only [StepwiseFires, collectorStep, hs]
  have hload : StepwiseFires (K := K) ⟨arena,.found arena.readTail e.item.header⟩ .collector
      ⟨arena,.evicting e.item.header (arena.metadata e.item.nodeId).loadControl⟩ := by
    simp only [StepwiseFires, collectorStep, e.item.header_nodeId_toNat, hnode, hcurrent,
      Bool.false_eq_true, if_false, hcold, if_true]
  refine ⟨_,(Run.single hfound).snoc hload,?_⟩
  simp [EvictsLoaded, hring.withinRing]

/-- A hit between the collector's load of a cold word and its eviction: the
exchange fails and the tail passes the record all the same. -/
theorem LiveRing.lose {arena hit : MemoryArena (Vec K)} {act : Call K × Reply} {T H : ℕ}
    {e : Entry PayloadRecord} {log : List (Entry PayloadRecord)}
    (hring : LiveRing arena T (e :: log) H) (hring' : LiveRing hit T (e :: log) H)
    (hpast : T + 2 ^ 31 ≤ H) (hfront : e.offset = T)
    (hcurrent : MemoryArena.stale (arena.metadata e.item.nodeId).loadControl arena.readTail = false)
    (hcold : (arena.metadata e.item.nodeId).loadControl.refBit = .cold)
    (hcall : act ≠ (.collect, .collected)) (hfire : Fires arena act hit)
    (hhot : (hit.metadata e.item.nodeId).loadControl.refBit = .hot) :
    ∃ (fs : List (Beat K)) (passed : MemoryArena (Vec K)),
      Run StepwiseFires ⟨arena,.idle⟩ fs ⟨passed,.idle⟩ ∧ (∀ τ ∈ fs, WithinRing τ.after.arena) ∧
      (passed.metadata e.item.nodeId).loadControl = (hit.metadata e.item.nodeId).loadControl ∧
      LiveRing passed (T + e.item.encode.length) log H := by
  obtain ⟨fs,hload,hsound⟩ := hring.load_cold hpast hfront hcurrent hcold
  have hmiss : hit.evictExchange e.item.nodeId (arena.metadata e.item.nodeId).loadControl = hit := by
    rw [MemoryArena.evictExchange, MemoryArena.compareExchange_of_ne]
    intro hword
    rw [MetaNode.loadControl, hword, hcold] at hhot
    simp at hhot
  have hevict : StepwiseFires (K := K)
      ⟨hit,.evicting e.item.header (arena.metadata e.item.nodeId).loadControl⟩ .collector
      ⟨hit,.resetting e.item.header⟩ := by
    simp only [StepwiseFires, collectorStep, e.item.header_nodeId_toNat, hmiss]
  have hreset : StepwiseFires (K := K) ⟨hit,.resetting e.item.header⟩ .collector
      ⟨hit.storeCreatedAt e.item.nodeId 0,.advancing (.ofNat e.item.encode.length)⟩ := by
    simp only [StepwiseFires, collectorStep, e.item.header_nodeId_toNat, recordSize_toUInt64]
  have hrun := (((hload.snoc (call_fires _ hcall hfire)).snoc hevict).snoc hreset).snoc
    (collector_fires rfl)
  have hdone : LiveRing (hit.storeCreatedAt e.item.nodeId 0) T (e :: log) H :=
    hring'.congr rfl rfl rfl
  refine ⟨_,_,hrun,?_,by simp [MetaNode.loadControl],hdone.drop hfront⟩
  simp only [List.forall_mem_append, List.forall_mem_singleton]
  exact ⟨⟨⟨⟨fun τ hτ => (hsound τ hτ).1,hring'.withinRing⟩,hring'.withinRing⟩,hdone.withinRing⟩,
    (hdone.drop hfront).withinRing⟩

/-- The record of an answer that has just been used is freed, and its node stays
ready. -/
theorem readyNode_left_behind : ∃ (es : List (Beat ℚ)) (s : Stepwise (Vec ℚ)),
    Run StepwiseFires (freshStepwise ℚ) es s ∧ (∀ τ ∈ es, WithinRing τ.after.arena) ∧
      s.phase = .idle ∧ (s.arena.metadata 0).loadControl.state = .ready ∧ ¬ Refers s.arena 0 := by
  obtain ⟨es,arena,e,log,hrun,hb,-,hfront,hid,hsize,hother,hnode,hvec,hring⟩ :=
    exists_cold (axis 0 : Vec ℚ)
  have hword : (arena.metadata 0).loadControl = ⟨.ready,.cold,1,.ofNat (2 ^ 31)⟩ := by
    rw [hnode]
    decide
  have hsimilar : Similar (axis 0) (arena.vectors 0) := by
    rw [hvec]
    exact (axis_normalized 0).similar
  have ho := hitOutcome (n := 0) (t := 1) (by decide) (by rw [hword]) hsimilar (by
    intro i _ hi hm
    rw [hother i hi] at hm
    exact absurd hm (by decide))
  rw [hword] at ho
  have hhot : (((expireSlots 1 arena).storeControl 0
      (packControl .ready .hot 1 (.ofNat (2 ^ 31)))).metadata 0).loadControl =
        ⟨.ready,.hot,1,.ofNat (2 ^ 31)⟩ := by
    have hpacked : unpackControl (packControl .ready .hot 1 (.ofNat (2 ^ 31))) =
        ⟨.ready,.hot,1,.ofNat (2 ^ 31)⟩ := by decide
    rw [MemoryArena.storeControl_self]
    exact hpacked
  generalize (expireSlots 1 arena).storeControl 0 _ = hit at ho hhot
  obtain ⟨hbuf,hhead,htail⟩ := ho.ring
  have hfire := fires_checkCache.mpr (ho.checkCache_eq (show [1] ≠ [] by simp))
  obtain ⟨fs,passed,hfs,hwithin,hsame,hpassed⟩ := hring.lose (hring.congr hbuf hhead htail)
    (by omega) hfront (by rw [hid, hword, hring.tail]; decide) (by rw [hid, hword]) (by simp) hfire
    (by rw [hid, hhot])
  rw [hid, hhot] at hsame
  rw [hsize] at hpassed
  obtain ⟨gs,hgs,hwithin'⟩ := EngineRun.stepwise hrun hb
  refine ⟨_,⟨passed,.idle⟩,hgs.append hfs,
    List.forall_mem_append.mpr ⟨fun τ hτ => (hwithin' τ hτ).1,hwithin⟩,rfl,by rw [hsame],
    hpassed.not_refers (v := 2 ^ 31) ?_ (by omega) (by omega)⟩
  rw [hsame]
  decide

/-- A cold answer whose word is as the collector has loaded it is freed. -/
theorem LiveRing.evict_loaded {arena : MemoryArena (Vec K)} {T H : ℕ} {e : Entry PayloadRecord}
    {log : List (Entry PayloadRecord)} {ctrl : UnpackedControl}
    (hring : LiveRing arena T (e :: log) H)
    (hctrl : (arena.metadata e.item.nodeId).loadControl = ctrl) :
    ∃ (fs : List (Beat K)) (freed : MemoryArena (Vec K)),
      Run StepwiseFires ⟨arena,.evicting e.item.header ctrl⟩ fs
        ⟨freed,.advancing (.ofNat e.item.encode.length)⟩ ∧
      (∀ τ ∈ fs, WithinRing τ.after.arena ∧ EvictsLoaded τ) ∧
      (∃ τ ∈ fs, τ.act = .collector ∧ τ.before.phase = .evicting e.item.header ctrl ∧
        τ.after.arena.stateOf e.item.nodeId = .dead) ∧
      ∀ i, i ≠ e.item.nodeId → freed.metadata i = arena.metadata i := by
  subst hctrl
  have hevict : StepwiseFires (K := K)
      ⟨arena,.evicting e.item.header (arena.metadata e.item.nodeId).loadControl⟩ .collector
      ⟨arena.evictExchange e.item.nodeId (arena.metadata e.item.nodeId).loadControl,
        .resetting e.item.header⟩ := by
    simp only [StepwiseFires, collectorStep, e.item.header_nodeId_toNat]
  rw [evictExchange_eq] at hevict
  have hreset : ∀ u : MemoryArena (Vec K), StepwiseFires ⟨u,.resetting e.item.header⟩ .collector
      ⟨u.storeCreatedAt e.item.nodeId 0,.advancing (.ofNat e.item.encode.length)⟩ := fun u => by
    simp only [StepwiseFires, collectorStep, e.item.header_nodeId_toNat, recordSize_toUInt64]
  have hloaded : ∀ s, EvictsLoaded (K := K) ⟨⟨arena,.evicting e.item.header
      (arena.metadata e.item.nodeId).loadControl⟩,.collector,s⟩ := by
    rintro s - header word hphase -
    obtain ⟨rfl,rfl⟩ := CollectorPhase.evicting.inj hphase
    rw [e.item.header_nodeId_toNat]
    exact (packControl_unpackControl_eq _).symm
  refine ⟨_,_,(Run.single hevict).snoc (hreset _),?_,?_,fun i hi => ?_⟩
  · rw [List.forall_mem_append, List.forall_mem_singleton, List.forall_mem_singleton]
    exact ⟨⟨hring.withinRing,hloaded _⟩,hring.withinRing,by simp [EvictsLoaded]⟩
  · refine ⟨_,List.mem_append_left _ (List.mem_singleton_self _),rfl,rfl,?_⟩
    simp [MemoryArena.stateOf, MetaNode.loadControl]
  · rw [MemoryArena.storeCreatedAt_of_ne _ _ _ hi, MemoryArena.storeControl_of_ne _ _ _ hi]

/-- Beside a first slot that is in use another query is asked and answered. -/
theorem LiveRing.exists_secondAnswer {arena : MemoryArena (Vec K)} {T H : ℕ}
    {log : List (Entry PayloadRecord)} (hring : LiveRing arena T log H)
    (hroom : place (2 ^ 32) 12 H + 13 < T + 2 ^ 32) (query : Vec K) {t : UInt64}
    (hused : (arena.metadata 0).reusable t = false)
    (hother : ∀ i, i ≠ 0 → arena.metadata i = ⟨0,0⟩) (hfar : ¬ Similar query (arena.vectors 0)) :
    ∃ (asked answered : MemoryArena (Vec K)) (e : Entry PayloadRecord) (H' : ℕ),
      Fires arena (.checkCache [1] (.ok query) t, .checked (.ok ⟨.miss,1,[]⟩)) asked ∧
      Fires asked (.setCache 1 [8], .stored (.ok true)) answered ∧ WithinRing asked ∧
      LiveRing answered T (log ++ [e]) H' ∧ answered.metadata 0 = arena.metadata 0 ∧
      answered.stateOf 1 = .ready := by
  obtain ⟨asked,hask,hmeta,-,hbuf,hhead,htail⟩ := exists_secondMiss query t hused hother hfar
  have hasked : LiveRing asked T log H := hring.congr hbuf hhead htail
  have hw : WellFormedSet 1 [8] := ⟨by decide,by simp,by decide,by decide⟩
  have hid : wireNode 1 = 1 := rfl
  have hsize : hw.record.encode.length = 13 := hw.record.encode_length
  have hplace := (place_bounds H).1
  obtain ⟨answered,hset,hmeta',-,hring'⟩ := hasked.publish hw (by rw [hsize]; omega)
    (by rw [hsize]; omega)
    (by rw [hid, hmeta, Function.update_self]; simp [MetaNode.loadControl])
  rw [hid] at hmeta'
  refine ⟨asked,answered,_,_,hask,fires_setCache.mpr hset,hasked.withinRing,hring',?_,?_⟩
  · rw [hmeta', Function.update_of_ne (by decide), hmeta, Function.update_of_ne (by decide)]
  · rw [MemoryArena.stateOf, hmeta', Function.update_self]
    simp [MetaNode.loadControl]

/-- While the collector evicts a cold answer another query is asked and answered: the new
answer is behind what the collector is about to pass. -/
theorem ready_nodes_refer_replay : ∃ (es : List (Beat ℚ)) (s : Stepwise (Vec ℚ)) (m : UInt64),
    Run StepwiseFires (freshStepwise ℚ) es s ∧
      (∃ τ ∈ es, ∃ header ctrl, τ.act = .collector ∧ τ.before.phase = .evicting header ctrl ∧
        ctrl.state = .ready ∧ τ.after.arena.stateOf 0 = .dead) ∧
      s.phase = .advancing m ∧ s.arena.stateOf 1 = .ready ∧ Refers s.arena 1 ∧
      m ≤ distance s.arena 1 := by
  obtain ⟨es,arena,e,log,hrun,hb,-,hfront,hid,hsize,hother,hnode,hvec,hring⟩ :=
    exists_cold (axis 0 : Vec ℚ)
  have hword : (arena.metadata 0).loadControl = ⟨.ready,.cold,1,.ofNat (2 ^ 31)⟩ := by
    rw [hnode]
    decide
  obtain ⟨fs,hfs,hsound⟩ := EngineRun.stepwise hrun hb
  obtain ⟨gs,hload,hsound'⟩ := hring.load_cold (by omega) hfront
    (by rw [hid, hword, hring.tail]; decide) (by rw [hid, hword])
  obtain ⟨asked,answered,a,H',hask,hset,hwithin,hring',hkept,hready⟩ :=
    hring.exists_secondAnswer (by decide) (axis 1) (t := 1) (by rw [hnode]; decide) hother
      (by rw [hvec]; exact axis_not_similar (by decide))
  have hloaded : (answered.metadata e.item.nodeId).loadControl =
      (arena.metadata e.item.nodeId).loadControl := by
    rw [hid, hkept]
  obtain ⟨ks,freed,hevict,hsound₂,⟨τ,hτ,hact,hphase,hdead⟩,hsame⟩ := hring'.evict_loaded hloaded
  have hcalls := ((hfs.append hload).snoc (call_fires _ (by simp) hask)).snoc
    (call_fires _ (by simp) hset)
  obtain ⟨hrefers,hadvance⟩ := ready_nodes_refer (hcalls.append hevict)
    (by
      simp only [List.forall_mem_append, List.forall_mem_singleton]
      exact ⟨⟨⟨⟨fun τ hτ => (hsound τ hτ).1,fun τ hτ => (hsound' τ hτ).1⟩,hwithin⟩,
        hring'.withinRing⟩,fun τ hτ => (hsound₂ τ hτ).1⟩)
    (by
      simp only [List.forall_mem_append, List.forall_mem_singleton]
      exact ⟨⟨⟨⟨fun τ hτ => (hsound τ hτ).2,fun τ hτ => (hsound' τ hτ).2⟩,by simp [EvictsLoaded]⟩,
        by simp [EvictsLoaded]⟩,fun τ hτ => (hsound₂ τ hτ).2⟩)
  have hlive : freed.stateOf 1 = .ready := by
    rw [MemoryArena.stateOf, hsame 1 (by rw [hid]; decide)]
    exact hready
  refine ⟨_,_,_,hcalls.append hevict,⟨τ,List.mem_append_right _ hτ,_,_,hact,hphase,?_,?_⟩,rfl,
    hlive,hrefers 1 hlive,hadvance _ rfl 1 hlive⟩
  · rw [hid, hword]
  · rw [← hid]
    exact hdead

end Replay

end Strix
