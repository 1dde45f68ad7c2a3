import Strix.Ring.Collector
import Strix.Semantic.CheckOutcome
import Strix.Semantic.SetOutcome

/-! # Which record a filled node serves

Every ready node refers to one live record of its own, whose payload is the
content last published for the node. A 37-bit offset decides which record that
is, because the live window is shorter than the range of the offset.
-/
namespace Strix
open ByteRing FramedLog

def MetaNode.Serves (node : MetaNode) (e : Entry PayloadRecord) : Prop :=
  node.loadControl.virtualOffset.toNat = e.offset % 2 ^ 37 ∧
    node.loadControl.length.toNat = e.item.payload.length

/-- The ready nodes, the records they serve and the contents published for them. -/
structure Served (metadata : ℕ → MetaNode) (log : List (Entry PayloadRecord))
    (content : ℕ → Option (List UInt8)) : Prop where
  settled : ∀ n, (metadata n).loadControl.state ≠ .migrating
  ready : ∀ n, (metadata n).loadControl.state = .ready →
    ∃ e ∈ log, e.item.nodeId = n ∧ (metadata n).Serves e ∧ content n = some e.item.payload

/-- What a step other than a publication or a rescue may do to a node. -/
def MetaNode.Keeps (old new : MetaNode) : Prop :=
  (new.loadControl.state = .dead ∨ new.loadControl.state = .pending) ∨
    (new.loadControl.state = old.loadControl.state ∧
      new.loadControl.virtualOffset = old.loadControl.virtualOffset ∧
      new.loadControl.length = old.loadControl.length ∧
      (new.loadControl.refBit = old.loadControl.refBit ∨ new.loadControl.refBit = .hot))

theorem MetaNode.Keeps.refl (node : MetaNode) : node.Keeps node := .inr ⟨rfl,rfl,rfl,.inl rfl⟩

section Served
variable {metadata metadata' : ℕ → MetaNode} {log log' : List (Entry PayloadRecord)}
  {content content' : ℕ → Option (List UInt8)} {n : ℕ} {e : Entry PayloadRecord}

theorem served_fresh : Served (fun _ => ⟨0,0⟩) [] (fun _ => none) := by
  have hdead : (⟨0,0⟩ : MetaNode).loadControl.state = .dead := by decide
  constructor
  · intro n
    simp [hdead]
  · intro n h
    simp [hdead] at h

theorem Served.mono (h : Served metadata log content) (hsub : ∀ e ∈ log, e ∈ log') :
    Served metadata log' content := by
  refine ⟨h.settled,fun n hn => ?_⟩
  obtain ⟨e,he,hrest⟩ := h.ready n hn
  exact ⟨e,hsub e he,hrest⟩

theorem Served.keep (h : Served metadata log content)
    (hkeep : ∀ n, (metadata n).Keeps (metadata' n)) : Served metadata' log content := by
  constructor
  · intro n
    rcases hkeep n with (hd | hp) | ⟨hs,-⟩
    · simp [hd]
    · simp [hp]
    · rw [hs]
      exact h.settled n
  · intro n hn
    rcases hkeep n with (hd | hp) | ⟨hs,ho,hl,-⟩
    · simp [hd] at hn
    · simp [hp] at hn
    · obtain ⟨e,he,hid,hserves,hcontent⟩ := h.ready n (hs ▸ hn)
      refine ⟨e,he,hid,?_,hcontent⟩
      rw [MetaNode.Serves, ho, hl]
      exact hserves

theorem Served.assign (h : Served metadata log content) (he : e ∈ log)
    (hother : ∀ m, m ≠ e.item.nodeId → metadata' m = metadata m ∧ content' m = content m)
    (hstate : (metadata' e.item.nodeId).loadControl.state ≠ .migrating)
    (hserves : (metadata' e.item.nodeId).loadControl.state = .ready →
      (metadata' e.item.nodeId).Serves e ∧ content' e.item.nodeId = some e.item.payload) :
    Served metadata' log content' := by
  constructor
  · intro m
    by_cases hm : m = e.item.nodeId
    · rwa [hm]
    · rw [(hother m hm).1]
      exact h.settled m
  · intro m hready
    by_cases hm : m = e.item.nodeId
    · subst hm
      exact ⟨e,he,rfl,hserves hready⟩
    · obtain ⟨hmeta,hcontent⟩ := hother m hm
      rw [hmeta] at hready ⊢
      rw [hcontent]
      exact h.ready m hready

theorem Served.drop (h : Served metadata (e :: log) content)
    (hfree : (metadata e.item.nodeId).loadControl.state = .ready →
      (metadata e.item.nodeId).loadControl.virtualOffset.toNat ≠ e.offset % 2 ^ 37) :
    Served metadata log content := by
  refine ⟨h.settled,fun n hn => ?_⟩
  obtain ⟨a,ha,rfl,hserves,hcontent⟩ := h.ready n hn
  rcases List.mem_cons.mp ha with rfl | ha
  · exact absurd hserves.1 (hfree hn)
  · exact ⟨a,ha,rfl,hserves,hcontent⟩

end Served

section Check
variable {K : Type*} [Scoring K] {query : Vec K} {t : UInt64} {arena arena' : MemoryArena (Vec K)}
  {reply : Except Status CheckCacheResponse}

omit [Scoring K] in
theorem expireSlots_keeps (i : ℕ) :
    (arena.metadata i).Keeps ((expireSlots t arena).metadata i) := by
  rw [expireSlots_metadata]
  split
  · exact .inl (.inl MetaNode.expire_state)
  · exact .refl _

theorem MetaNode.Keeps.trans {a b c : MetaNode} (h : a.Keeps b) (k : b.Keeps c) : a.Keeps c := by
  rcases k with k | ⟨hs,ho,hl,hr⟩
  · exact .inl k
  · rcases h with (hd | hp) | ⟨hs',ho',hl',hr'⟩
    · exact .inl (.inl (hs.trans hd))
    · exact .inl (.inr (hs.trans hp))
    · refine .inr ⟨hs.trans hs',ho.trans ho',hl.trans hl',?_⟩
      rcases hr with hr | hr
      · rwa [hr]
      · exact .inr hr

theorem CheckOutcome.keeps (h : CheckOutcome query t arena reply arena') (i : ℕ) :
    (arena.metadata i).Keeps (arena'.metadata i) := by
  refine (expireSlots_keeps (t := t) i).trans ?_
  cases h with
  | @hit n best above filled =>
    by_cases hi : i = n
    · subst hi
      have hnode := (expireSlots_of_best best).2
      refine .inr ?_
      simp [MetaNode.loadControl, hnode]
    · rw [MemoryArena.storeControl_of_ne _ _ _ hi]
      exact .refl _
  | pending => exact .refl _
  | @miss n below free =>
    by_cases hi : i = n
    · subst hi
      exact .inl (.inr (by simp [MetaNode.loadControl]))
    · rw [MemoryArena.storeCreatedAt_of_ne _ _ _ hi, MemoryArena.storeVector_metadata,
        MemoryArena.storeControl_of_ne _ _ _ hi]
      exact .refl _
  | full below free =>
    rw [expireSlots_eq_self free]
    exact .refl _

end Check

section Collect
variable {V : Type*} {arena : MemoryArena V} {T H : ℕ} {log : List (Entry PayloadRecord)}
  {content : ℕ → Option (List UInt8)} {e : Entry PayloadRecord}

theorem stale_eq_false {ctrl : UnpackedControl} {tail : UInt64} :
    MemoryArena.stale ctrl tail = false ↔
      ctrl.state ≠ .dead ∧ ctrl.virtualOffset = tail &&& virtualOffsetMask := by
  simp [MemoryArena.stale]

theorem offset_ne_of_stale (htail : arena.readTail = .ofNat T) (hfront : e.offset = T)
    (hstale : MemoryArena.stale (arena.metadata e.item.nodeId).loadControl arena.readTail = true)
    (hready : (arena.metadata e.item.nodeId).loadControl.state = .ready) :
    (arena.metadata e.item.nodeId).loadControl.virtualOffset.toNat ≠ e.offset % 2 ^ 37 := by
  intro ho
  have : MemoryArena.stale (arena.metadata e.item.nodeId).loadControl arena.readTail = false := by
    rw [stale_eq_false]
    refine ⟨by simp [hready],UInt64.toNat_inj.mp ?_⟩
    rw [ho, htail, ofNat_and_offsetMask, hfront]
  simp [hstale] at this

theorem Served.at_front (h : Served arena.metadata (e :: log) content)
    (hring : LiveRing arena T (e :: log) H) (hfront : e.offset = T)
    (hcurrent : MemoryArena.stale (arena.metadata e.item.nodeId).loadControl arena.readTail = false)
    (hready : (arena.metadata e.item.nodeId).loadControl.state = .ready) :
    (arena.metadata e.item.nodeId).Serves e ∧ content e.item.nodeId = some e.item.payload := by
  obtain ⟨a,ha,hid,hserves,hcontent⟩ := h.ready _ hready
  obtain ⟨-,ho⟩ := stale_eq_false.mp hcurrent
  have hoff : a.offset % 2 ^ 37 = e.offset % 2 ^ 37 := by
    rw [← hserves.1, ho, hring.tail, ofNat_and_offsetMask, hfront]
  have hroom := hring.room
  have hab := hring.holds.laid.bounds ha
  have heb := hring.holds.laid.bounds (e := e) List.mem_cons_self
  have heq : a = e := hring.holds.laid.eq_of_offset PayloadRecord.encode_pos ha
    List.mem_cons_self (eq_of_mod_eq (M := 2 ^ 37) (T := T) hab.1 (by omega) heb.1 (by omega) hoff)
  subst heq
  exact ⟨hserves,hcontent⟩

theorem Served.repoint {ctrl : UnpackedControl} {v : ℕ} (h : Served arena.metadata log content)
    (hcopy : ⟨v,e.item⟩ ∈ log)
    (hstate : (arena.metadata e.item.nodeId).loadControl.state = ctrl.state)
    (hlength : (arena.metadata e.item.nodeId).loadControl.length = ctrl.length &&& maxPayloadLength)
    (hserves : (arena.metadata e.item.nodeId).loadControl.state = .ready →
      (arena.metadata e.item.nodeId).Serves e ∧ content e.item.nodeId = some e.item.payload) :
    Served (arena.storeControl e.item.nodeId
      (packControl ctrl.state .cold ctrl.length (.ofNat v))).metadata log content := by
  have hword : ((arena.storeControl e.item.nodeId (packControl ctrl.state .cold ctrl.length
      (.ofNat v))).metadata e.item.nodeId).loadControl =
      unpackControl (packControl ctrl.state .cold ctrl.length (.ofNat v)) := by
    rw [MemoryArena.storeControl_self]
    rfl
  refine h.assign (e := ⟨v,e.item⟩) hcopy
    (fun m hm => ⟨MemoryArena.storeControl_of_ne _ _ _ hm,rfl⟩) ?_ fun hready => ?_
  · rw [hword, unpackControl_packControl_state, ← hstate]
    exact h.settled e.item.nodeId
  · rw [hword, unpackControl_packControl_state, ← hstate] at hready
    obtain ⟨hold,hcontent⟩ := hserves hready
    refine ⟨⟨?_,?_⟩,hcontent⟩
    · rw [hword, unpackControl_packControl_virtualOffset]
      exact ofNat_and_offsetMask _
    · rw [hword, unpackControl_packControl_length, ← hlength]
      exact hold.2

/-- A pass keeps the ring a ring of records, each ready node served, and lays
down nothing but a copy of a record it has met. -/
theorem PassOutcome.preserves {arena' : MemoryArena V} (h : PassOutcome arena T H log (.ok arena'))
    (hring : LiveRing arena T log H) (hserved : Served arena.metadata log content) :
    ∃ T' log' H', LiveRing arena' T' log' H' ∧ Served arena'.metadata log' content ∧
      (∀ e' ∈ log', ∃ e ∈ log, e'.item = e.item) ∧ T ≤ T' ∧ H ≤ H' ∧ H' < T + 2 ^ 34 := by
  have hroom := hring.room
  generalize hout : (.ok arena' : Except Fault (MemoryArena V)) = out at h
  cases h with
  | asleep low =>
    obtain rfl := Except.ok.inj hout
    exact ⟨T,log,H,hring,hserved,fun e he => ⟨e,he,rfl⟩,le_rfl,le_rfl,by omega⟩
  | leap past gap =>
    obtain rfl := Except.ok.inj hout
    exact ⟨_,_,H,hring.leap,hserved,fun e he => ⟨e,he,rfl⟩,gap.le,le_rfl,by omega⟩
  | skip past front old =>
    obtain rfl := Except.ok.inj hout
    exact ⟨_,_,H,hring.drop front,hserved.drop (offset_ne_of_stale hring.tail front old),
      fun e he => ⟨e,List.mem_cons_of_mem _ he,rfl⟩,by omega,le_rfl,by omega⟩
  | @evict e log past front current cold =>
    obtain rfl := Except.ok.inj hout
    refine ⟨_,_,H,(hring.drop front).congr rfl rfl rfl,?_,
      fun e he => ⟨e,List.mem_cons_of_mem _ he,rfl⟩,by omega,le_rfl,by omega⟩
    refine (hserved.keep fun n => ?_).drop ?_
    · by_cases hn : n = e.item.nodeId
      · subst hn
        exact .inl (.inl (by simp [MetaNode.loadControl]))
      · simp only [MemoryArena.advanceReadTail_metadata, ne_eq, hn, not_false_eq_true,
          MemoryArena.storeCreatedAt_of_ne, MemoryArena.storeControl_of_ne]
        exact .refl _
    · intro hready
      simp [MetaNode.loadControl] at hready
  | exhausted => simp at hout
  | @rescue e log buf past front current hot room written =>
    obtain rfl := Except.ok.inj hout
    obtain ⟨hplace,hgap⟩ := place_bounds H
    have hsize := e.item.encode_length
    have hring' := (hring.drop front).append (r := e.item) (by exact written) (by omega)
    refine ⟨_,_,_,hring'.congr rfl rfl rfl,?_,?_,by omega,by omega,by omega⟩
    swap
    · intro a ha
      rcases List.mem_append.mp ha with ha | ha
      · exact ⟨a,List.mem_cons_of_mem _ ha,rfl⟩
      · exact ⟨e,List.mem_cons_self,by rw [List.mem_singleton.mp ha]⟩
    have hmono : Served arena.metadata (e :: (log ++ [⟨place (2 ^ 32) 12 H,e.item⟩])) content :=
      hserved.mono fun a ha => by
        rw [← List.cons_append]
        exact List.mem_append_left _ ha
    refine (hmono.repoint (by simp) rfl (unpackControl_length_and _).symm
      (hserved.at_front hring front current)).drop fun _ => ?_
    simp only [MemoryArena.storeControl_self, MetaNode.loadControl,
      unpackControl_packControl_virtualOffset, ofNat_and_offsetMask]
    omega

end Collect

end Strix
