import Strix.Ring.Walk

/-! # When the ring bound holds

The back-pressure test counts a record without the padding in front of it. An
allocation from the last bytes of a lap can therefore pass the test and still
run over the tail by less than a header, and in no other way.
-/
namespace Strix
open ByteRing FramedLog RunHistory

section Allocation
variable {K : Type*}

/-- The length a call asks `AllocatePayload` for, if it comes to that. -/
def allocationOf (arena : MemoryArena (Vec K)) : Call K → Option UInt32
  | .checkCache _ _ _ => none
  | .setCache nodeId payload =>
    if WellFormedSet nodeId payload then some (.ofNat payload.length) else none
  | .collect =>
    match arena.sight with
    | .record header =>
      let ctrl := (arena.metadata header.nodeId.toNat).loadControl
      if header.nodeId.toNat < totalMaxSlots ∧ MemoryArena.stale ctrl arena.readTail = false ∧
          ctrl.refBit = .hot then some header.length
      else none
    | _ => none

def freeSpace (arena : MemoryArena (Vec K)) : UInt64 :=
  payloadBufferSize - (arena.writeHead - arena.readTail)

/-- An allocation that passes the back-pressure test also finds room for its padding. -/
def PaddingFits (τ : Step K) : Prop :=
  ∀ length, allocationOf τ.before τ.act.1 = some length →
    sizeofPayloadHeader + length.toUInt64 < freeSpace τ.before →
      MemoryArena.headerPadding τ.before.writeHead + (sizeofPayloadHeader + length.toUInt64) ≤
        freeSpace τ.before

/-- The cursors stay within one ring size, and what the step has allocated,
padding included, shares no byte with the region that was live before it. -/
structure RingBound (τ : Step K) : Prop where
  bound : τ.after.writeHead - τ.after.readTail ≤ payloadBufferSize
  apart : Apart (2 ^ 32) τ.before.readTail.toNat (τ.before.writeHead - τ.before.readTail).toNat
    τ.before.writeHead.toNat (τ.after.writeHead - τ.before.writeHead).toNat
  unchanged : ∀ j < (τ.before.writeHead - τ.before.readTail).toNat,
    τ.after.bufferPayload ((τ.before.readTail.toNat + j) % 2 ^ 32) =
      τ.before.bufferPayload ((τ.before.readTail.toNat + j) % 2 ^ 32)

variable {arena arena' : MemoryArena (Vec K)} {act : Call K × Reply} {T H T' : ℕ}
  {log log' : List (Entry PayloadRecord)}

theorem LiveRing.freeSpace_toNat (h : LiveRing arena T log H) :
    (freeSpace arena).toNat = 2 ^ 32 - (H - T) := by
  have hroom := h.room
  rw [freeSpace, UInt64.toNat_sub, h.used_toNat, payloadBufferSize_toNat]
  omega

theorem LiveRing.paddingFits_iff {length : UInt32} (h : LiveRing arena T log H)
    (hall : allocationOf arena act.1 = some length) :
    PaddingFits ⟨arena,act,arena'⟩ ↔ (H + (12 + length.toNat) < T + 2 ^ 32 →
      place (2 ^ 32) 12 H + (12 + length.toNat) ≤ T + 2 ^ 32) := by
  have hfree := h.freeSpace_toNat
  have hle := h.le
  have hlt := length.toNat_lt
  obtain ⟨hplace,hgap⟩ := place_bounds H
  have hsize : (sizeofPayloadHeader + length.toUInt64).toNat = 12 + length.toNat := by
    rw [sizeof_add_ofNat, UInt64.toNat_ofNat']
    omega
  have hpadded : (MemoryArena.headerPadding arena.writeHead +
      (sizeofPayloadHeader + length.toUInt64)).toNat =
      place (2 ^ 32) 12 H - H + (12 + length.toNat) := by
    rw [h.head, headerPadding_ofNat, UInt64.toNat_add, hsize, UInt64.toNat_ofNat',
      show padding (2 ^ 32) 12 H = place (2 ^ 32) 12 H - H by unfold place; omega]
    omega
  have hsome : PaddingFits ⟨arena,act,arena'⟩ ↔
      (sizeofPayloadHeader + length.toUInt64 < freeSpace arena →
        MemoryArena.headerPadding arena.writeHead + (sizeofPayloadHeader + length.toUInt64) ≤
          freeSpace arena) := by
    constructor
    · intro hfits
      exact hfits length hall
    · intro hfits length' hall'
      rw [hall] at hall'
      obtain rfl := Option.some.inj hall'
      exact hfits
  rw [hsome, UInt64.lt_iff_toNat_lt, UInt64.le_iff_toNat_le, hsize, hpadded, hfree]
  omega

theorem LiveRing.ringBound_of_head_eq (h : LiveRing arena T log H) (h' : LiveRing arena' T' log' H)
    (hbuf : arena'.bufferPayload = arena.bufferPayload) :
    RingBound (⟨arena,act,arena'⟩ : Step K) := by
  refine ⟨?_,?_,fun j _ => congrFun hbuf _⟩
  · have hroom := h'.room
    rw [UInt64.le_iff_toNat_le, h'.used_toNat, payloadBufferSize_toNat]
    omega
  · intro i _ j hj
    simp only [h.head, h'.head, UInt64.sub_self, UInt64.toNat_zero] at hj
    omega

/-- A record laid at the placed head keeps the bound exactly when it ends within
one turn of the tail. -/
theorem LiveRing.ringBound_iff {n : ℕ} (h : LiveRing arena T log H) (hn : n < 2 ^ 25)
    (hroom : H + n < T + 2 ^ 32) (hT : T ≤ T') (hT' : T' ≤ T + n)
    (hhead : arena'.writeHead = .ofNat (place (2 ^ 32) 12 H + n))
    (htail : arena'.readTail = .ofNat T')
    (hwrites : UnchangedOutside (2 ^ 32) arena.bufferPayload arena'.bufferPayload
      (place (2 ^ 32) 12 H) n) :
    RingBound (⟨arena,act,arena'⟩ : Step K) ↔ place (2 ^ 32) 12 H + n ≤ T + 2 ^ 32 := by
  have hle := h.le
  have hused := h.used_toNat
  obtain ⟨hplace,hgap⟩ := place_bounds H
  have hgrown : (arena'.writeHead - arena.writeHead).toNat = place (2 ^ 32) 12 H + n - H := by
    rw [hhead, h.head, ofNat_sub_toNat (by omega) (by omega)]
  have hcongr : ∀ m k, Apart (2 ^ 32) arena.readTail.toNat m arena.writeHead.toNat k ↔
      Apart (2 ^ 32) T m H k := fun m k => apart_congr
    (by rw [h.tail, UInt64.toNat_ofNat']; omega) (by rw [h.head, UInt64.toNat_ofNat']; omega)
  constructor
  · rintro ⟨-,hapart,-⟩
    simp only [hused, hgrown, hcongr] at hapart
    by_cases hempty : H = T
    · omega
    · have := (apart_iff (by omega) (by omega) (by omega)).mp hapart
      omega
  · intro hfits
    have hapart : Apart (2 ^ 32) T (H - T) H (place (2 ^ 32) 12 H + n - H) :=
      apart_of_le (by omega) (by omega)
    refine ⟨?_,?_,fun j hj => hwrites _ fun k hk => ?_⟩
    · rw [UInt64.le_iff_toNat_le, payloadBufferSize_toNat]
      simp only
      rw [hhead, htail, ofNat_sub_toNat (by omega) (by omega)]
      omega
    · simp only [hused, hgrown, hcongr]
      exact hapart
    · simp only [hused] at hj
      have := hapart j hj (place (2 ^ 32) 12 H - H + k) (by omega)
      rw [show H + (place (2 ^ 32) 12 H - H + k) = place (2 ^ 32) 12 H + k by omega] at this
      rw [h.tail, UInt64.toNat_ofNat']
      omega

end Allocation

section Step
variable {K : Type*} {arena arena' : MemoryArena (Vec K)} {T H : ℕ}
  {log : List (Entry PayloadRecord)}

theorem bounded_iff_place {act : Call K × Reply} {n : ℕ} (h : LiveRing arena T log H)
    (hpos : 0 < n) (hlt : n < 2 ^ 25)
    (hhead : arena'.writeHead = .ofNat (place (2 ^ 32) 12 H + n)) :
    Bounded (⟨arena,act,arena'⟩ : Step K) ↔ place (2 ^ 32) 12 H + n ≤ T + 2 ^ 32 := by
  have hle := h.le
  have hroom := h.room
  obtain ⟨hplace,hgap⟩ := place_bounds H
  have hmoved : arena.writeHead ≠ arena'.writeHead := by
    rw [h.head, hhead, ne_eq, ← UInt64.toNat_inj, UInt64.toNat_ofNat', UInt64.toNat_ofNat']
    omega
  rw [Bounded, UInt64.le_iff_toNat_le, payloadBufferSize_toNat]
  simp only [hmoved, ne_eq, not_false_eq_true, true_imp_iff]
  rw [hhead, h.tail, ofNat_sub_toNat (by omega) (by omega)]
  omega

theorem paddingFits_of_none {act : Call K × Reply}
    (hnone : allocationOf arena act.1 = none) : PaddingFits ⟨arena,act,arena'⟩ := by
  intro length hlength
  simp only [hnone, reduceCtorEq] at hlength

/-- Away from the last bytes of a lap there is no padding to find room for. -/
theorem paddingFits_of_no_padding {act : Call K × Reply}
    (h : MemoryArena.headerPadding arena.writeHead = 0) : PaddingFits ⟨arena,act,arena'⟩ := by
  intro length _ hroom
  simp only [h, UInt64.zero_add]
  exact UInt64.le_of_lt hroom

theorem LiveRing.allocationOf_collect {length : UInt32} (h : LiveRing arena T log H) :
    allocationOf arena .collect = some length ↔
      ∃ e rest, log = e :: rest ∧ T + 2 ^ 31 ≤ H ∧ e.offset = T ∧
        MemoryArena.stale (arena.metadata e.item.nodeId).loadControl arena.readTail = false ∧
        (arena.metadata e.item.nodeId).loadControl.refBit = .hot ∧
        length = e.item.header.length := by
  rcases h.sight_cases with ⟨hlow,hs⟩ | ⟨hpast,e,rest,rfl,⟨hgap,hs⟩ | ⟨hfront,hs⟩⟩
  · simp only [allocationOf, hs, reduceCtorEq, false_iff, not_exists, not_and]
    omega
  · simp only [allocationOf, hs, reduceCtorEq, false_iff]
    rintro ⟨a,rest',heq,-,hfront,-⟩
    obtain ⟨rfl,-⟩ := List.cons.inj heq
    omega
  · have hnode : e.item.nodeId < totalMaxSlots := e.item.nodeId_lt
    simp only [allocationOf, hs, e.item.header_nodeId_toNat, hnode, true_and]
    constructor
    · intro hall
      split at hall
      · next hhot => exact ⟨e,rest,rfl,hpast,hfront,hhot.1,hhot.2,(Option.some.inj hall).symm⟩
      · simp at hall
    · rintro ⟨a,rest',heq,-,-,hcurrent,hhot,rfl⟩
      obtain ⟨rfl,-⟩ := List.cons.inj heq
      rw [if_pos ⟨hcurrent,hhot⟩]

theorem LiveRing.allocationOf_collect_none (h : LiveRing arena T log H)
    (hno : ∀ e rest, log = e :: rest → T + 2 ^ 31 ≤ H → e.offset = T →
      MemoryArena.stale (arena.metadata e.item.nodeId).loadControl arena.readTail = false →
        (arena.metadata e.item.nodeId).loadControl.refBit ≠ .hot) :
    allocationOf arena .collect = none := by
  cases hall : allocationOf arena .collect with
  | none => rfl
  | some length =>
    obtain ⟨e,rest,heq,past,front,current,hot,-⟩ := h.allocationOf_collect.mp hall
    exact absurd hot (hno e rest heq past front current)

def Agrees (τ : Step K) : Prop := (RingBound τ ↔ PaddingFits τ) ∧ (PaddingFits τ ↔ Bounded τ)

theorem LiveRing.agrees_of_none {act : Call K × Reply} {T' : ℕ} {log' : List (Entry PayloadRecord)}
    (h : LiveRing arena T log H) (h' : LiveRing arena' T' log' H)
    (hbuf : arena'.bufferPayload = arena.bufferPayload)
    (hnone : allocationOf arena act.1 = none) : Agrees ⟨arena,act,arena'⟩ :=
  ⟨iff_of_true (h.ringBound_of_head_eq h' hbuf) (paddingFits_of_none hnone),
    iff_of_true (paddingFits_of_none hnone) (bounded_of_head_eq (h.head.trans h'.head.symm))⟩

theorem LiveRing.agrees_of_place {act : Call K × Reply} {length : UInt32} {U n : ℕ}
    (h : LiveRing arena T log H) (hall : allocationOf arena act.1 = some length)
    (hn : 12 + length.toNat = n) (hlt : n < 2 ^ 25) (hroom : H + n < T + 2 ^ 32) (hT : T ≤ U)
    (hU : U ≤ T + n) (hhead : arena'.writeHead = .ofNat (place (2 ^ 32) 12 H + n))
    (htail : arena'.readTail = .ofNat U)
    (hwrites : UnchangedOutside (2 ^ 32) arena.bufferPayload arena'.bufferPayload
      (place (2 ^ 32) 12 H) n) : Agrees ⟨arena,act,arena'⟩ := by
  subst hn
  rw [Agrees, h.paddingFits_iff hall, h.ringBound_iff hlt hroom hT hU hhead htail hwrites,
    bounded_iff_place h (by omega) hlt hhead]
  exact ⟨⟨fun hp _ => hp,fun hp => hp hroom⟩,⟨fun hp => hp hroom,fun hp _ => hp⟩⟩

theorem LiveRing.setCache_agrees {nodeId : ℤ} {payload : List UInt8} {reply : Except Status Bool}
    (h : LiveRing arena T log H) (hset : setCache nodeId payload arena = .ok (reply, arena')) :
    Agrees (⟨arena,(.setCache nodeId payload,.stored reply),arena'⟩ : Step K) := by
  by_cases hw : WellFormedSet nodeId payload
  swap
  · rcases setCache_cases hset with ⟨-,rfl⟩ | ⟨hw',-⟩
    · exact h.agrees_of_none h rfl (if_neg hw)
    · exact absurd hw' hw
  have hlt := hw.record.length_lt
  have hsize := hw.record.encode_length
  have hsame : 12 + (UInt32.ofNat payload.length).toNat = hw.record.encode.length := by
    rw [hw.length_toNat, hsize]
    rfl
  have hall : allocationOf arena (.setCache nodeId payload) = some (.ofNat payload.length) :=
    if_pos hw
  by_cases hroom : H + hw.record.encode.length < T + 2 ^ 32
  swap
  · -- the back-pressure test stops the call, which then changes nothing
    rw [setCache_of_error hw (h.writePayload_full hw (by omega)), Except.ok.injEq,
      Prod.mk.injEq] at hset
    obtain ⟨-,rfl⟩ := hset
    have hfits : PaddingFits (⟨arena,(.setCache nodeId payload,.stored reply),arena⟩ : Step K) :=
      (h.paddingFits_iff hall).mpr fun hr => absurd hr (by rwa [hsame])
    exact ⟨iff_of_true (h.ringBound_of_head_eq h rfl) hfits,
      iff_of_true hfits (bounded_of_head_eq rfl)⟩
  obtain ⟨buf,hok,hwrites⟩ := h.writePayload_ok hw hroom
  have hfields : arena'.writeHead = .ofNat (place (2 ^ 32) 12 H + hw.record.encode.length) ∧
      arena'.readTail = arena.readTail ∧ arena'.bufferPayload = buf := by
    by_cases hstate : (arena.metadata (wireNode nodeId)).loadControl.state = .pending
    · rw [setCache_of_pending hw hok hstate, Except.ok.injEq, Prod.mk.injEq] at hset
      obtain ⟨-,rfl⟩ := hset
      exact ⟨rfl,rfl,rfl⟩
    · rw [setCache_of_late hw hok hstate, Except.ok.injEq, Prod.mk.injEq] at hset
      obtain ⟨-,rfl⟩ := hset
      exact ⟨rfl,rfl,rfl⟩
  obtain ⟨hhead,htail,hbuf⟩ := hfields
  exact h.agrees_of_place hall hsame (by omega) hroom le_rfl (by omega) hhead
    (htail.trans h.tail) (by rw [hbuf]; exact hwrites.unchanged)

theorem LiveRing.collect_agrees (h : LiveRing arena T log H)
    (hpass : arena.runGarbageCollectorPass = .ok arena') :
    Agrees (⟨arena,(.collect,.collected),arena'⟩ : Step K) := by
  have hcases := h.pass
  rw [hpass] at hcases
  generalize hout : (.ok arena' : Except Fault (MemoryArena (Vec K))) = out at hcases
  cases hcases with
  | asleep low =>
    obtain rfl := Except.ok.inj hout
    exact h.agrees_of_none h rfl (h.allocationOf_collect_none fun _ _ _ past => by omega)
  | leap past gap =>
    obtain rfl := Except.ok.inj hout
    refine h.agrees_of_none h.leap rfl (h.allocationOf_collect_none ?_)
    rintro a _ heq _ front
    obtain ⟨rfl,-⟩ := List.cons.inj heq
    omega
  | skip past front old =>
    obtain rfl := Except.ok.inj hout
    refine h.agrees_of_none (h.drop front) rfl (h.allocationOf_collect_none ?_)
    rintro a _ heq _ _ current
    obtain ⟨rfl,-⟩ := List.cons.inj heq
    simp [old] at current
  | evict past front current cold =>
    obtain rfl := Except.ok.inj hout
    refine h.agrees_of_none ((h.drop front).congr rfl rfl rfl) rfl
      (h.allocationOf_collect_none ?_)
    rintro a _ heq _ _ _
    obtain ⟨rfl,-⟩ := List.cons.inj heq
    simp [cold]
  | exhausted => simp at hout
  | @rescue e rest buf past front current hot room written =>
    obtain rfl := Except.ok.inj hout
    have hlt := e.item.length_lt
    have hsize := e.item.encode_length
    have hall := h.allocationOf_collect.mpr ⟨e,rest,rfl,past,front,current,hot,rfl⟩
    have hsame : 12 + e.item.header.length.toNat = e.item.encode.length := by
      rw [e.item.header_length_toNat, hsize]
    exact h.agrees_of_place (U := T + e.item.encode.length) hall hsame (by omega) room (by omega)
      le_rfl rfl (by exact (h.drop front).tail) written.unchanged

end Step

section Runs
variable {K : Type*} [Scoring K] {es : List (Step K)} {arena arena' : MemoryArena (Vec K)}
  {log : List (Entry PayloadRecord)}

theorem Intact.agrees {act : Call K × Reply} (h : Intact es arena log)
    (hfire : Fires arena act arena') : Agrees ⟨arena,act,arena'⟩ := by
  rcases fires_cases hfire with ⟨prompt,embedding,t,result,rfl,hc⟩ |
    ⟨nodeId,payload,result,rfl,hc⟩ | ⟨rfl,hc⟩
  · rcases checkCache_cases hc with ⟨-,rfl⟩ | ⟨query,-,-,ho⟩
    · exact h.ring.agrees_of_none h.ring rfl rfl
    · obtain ⟨hbuf,hhead,htail⟩ := ho.ring
      exact h.ring.agrees_of_none (h.ring.congr hbuf hhead htail) hbuf rfl
  · exact h.ring.setCache_agrees hc
  · exact h.ring.collect_agrees hc

theorem bounded_of_paddingFits (hrun : EngineRun es arena) (hfits : ∀ τ ∈ es, PaddingFits τ) :
    ∀ τ ∈ es, Bounded τ := by
  induction hrun with
  | nil => simp
  | snoc run fire ih =>
    rw [List.forall_mem_append, List.forall_mem_singleton] at hfits ⊢
    have hb := ih hfits.1
    obtain ⟨log,hintact⟩ := EngineRun.intact run hb
    exact ⟨hb,(hintact.agrees fire).2.mp hfits.2⟩

theorem paddingFits_of_bounded (hrun : EngineRun es arena) (hb : ∀ τ ∈ es, Bounded τ) :
    ∀ τ ∈ es, PaddingFits τ := by
  intro τ hτ
  obtain ⟨fs,gs,rfl⟩ := List.append_of_mem hτ
  obtain ⟨hfs,hfire,-⟩ := Run.split_at hrun
  obtain ⟨log,hintact⟩ := EngineRun.intact hfs fun σ hσ => hb σ (List.mem_append_left _ hσ)
  exact (hintact.agrees hfire).2.mpr (hb τ hτ)

/-- The ring bound holds along a run exactly when every allocation that passes the
back-pressure test finds room for its padding. -/
theorem ringBound_iff_paddingFits (hrun : EngineRun es arena) :
    (∀ τ ∈ es, RingBound τ) ↔ ∀ τ ∈ es, PaddingFits τ :=
  Run.forall_iff (fun _ _ run hfits fire =>
    have ⟨_,hintact⟩ := EngineRun.intact run (bounded_of_paddingFits run hfits)
    (hintact.agrees fire).1) hrun

end Runs

section Replay

/-- A record of 100 bytes, a ring filled to five bytes before its end, the record
passed, and a record of 101 bytes behind five bytes of padding. -/
theorem ring_overrun : ∃ (es : List (Step ℚ)) (arena : MemoryArena (Vec ℚ)), EngineRun es arena ∧
    ¬ arena.writeHead - arena.readTail ≤ payloadBufferSize := by
  obtain ⟨es,full,log,hrun,-,hdead,hring⟩ := exists_passed (K := ℚ) (d := 2 ^ 32 - 105) (by decide)
    (by decide)
  have hw : WellFormedSet 0 (List.replicate 89 0) :=
    wellFormedSet_replicate (n := 0) (by decide) (by decide) (by decide)
  have hlast : hw.record.encode.length = 101 := hw.record.encode_length
  obtain ⟨buf,hok,-⟩ := hring.writePayload_ok hw (by omega)
  have hset := setCache_of_late hw hok (by simp [hdead])
  have hgap : place (2 ^ 32) 12 (100 + (2 ^ 32 - 105)) = 2 ^ 32 := by decide
  refine ⟨_,_,hrun.snoc (fires_setCache.mpr hset),?_⟩
  simp only [hlast, hgap, hring.tail]
  decide

/-- Behind a record that was passed there is room for a short one and its padding. -/
theorem ringBound_replay : ∃ (es : List (Step ℚ)) (τ : Step ℚ), EngineRun (es ++ [τ]) τ.after ∧
    MemoryArena.headerPadding τ.before.writeHead = 5 ∧ τ.after.writeHead = .ofNat (2 ^ 32 + 50) ∧
      ∀ σ ∈ es ++ [τ], RingBound σ := by
  obtain ⟨es,τ,log,hrun,hb,hhead,hring⟩ := exists_padded (K := ℚ)
  refine ⟨es,τ,hrun,by rw [hhead]; decide,hring.head,?_⟩
  exact (ringBound_iff_paddingFits hrun).mpr (paddingFits_of_bounded hrun hb)

end Replay

end Strix
