import Strix.Ring.Serving

/-! # Payload integrity over whole runs

Along a run whose allocations stay inside the ring, the live region is a log of
complete records and every ready node serves the record last published for it.
The two cursors are followed as unbounded stream positions, so wrap-around of
the ring index, of the 37-bit offset and of the 64-bit cursors is all covered.
-/
namespace Strix
open ByteRing FramedLog RunHistory

section History
variable {K : Type*}

/-- Write head and read tail differ by at most the ring size after every
allocation; a step that moves the write head has made one. -/
def Bounded (τ : Step K) : Prop :=
  τ.before.writeHead ≠ τ.after.writeHead →
    τ.after.writeHead - τ.before.readTail ≤ payloadBufferSize

def publishes (τ : Step K) : Option (ℕ × List UInt8) :=
  match τ.act with
  | (.setCache nodeId payload, .stored (.ok true)) => some (wireNode nodeId, payload)
  | _ => none

def Lays (τ : Step K) (r : PayloadRecord) : Prop :=
  ∃ nodeId success, τ.act = (.setCache nodeId r.payload, .stored (.ok success)) ∧
    wireNode nodeId = r.nodeId

def streamHead (es : List (Step K)) : ℕ :=
  (es.map fun τ => (τ.after.writeHead - τ.before.writeHead).toNat).sum

def streamTail (es : List (Step K)) : ℕ :=
  (es.map fun τ => (τ.after.readTail - τ.before.readTail).toNat).sum

theorem streamHead_snoc (es : List (Step K)) (τ : Step K) :
    streamHead (es ++ [τ]) = streamHead es + (τ.after.writeHead - τ.before.writeHead).toNat := by
  simp [streamHead]

theorem streamTail_snoc (es : List (Step K)) (τ : Step K) :
    streamTail (es ++ [τ]) = streamTail es + (τ.after.readTail - τ.before.readTail).toNat := by
  simp [streamTail]

structure Intact (es : List (Step K)) (arena : MemoryArena (Vec K))
    (log : List (Entry PayloadRecord)) : Prop where
  ring : LiveRing arena (streamTail es) log (streamHead es)
  served : Served arena.metadata log (latest publishes es)
  written : ∀ e ∈ log, ∃ τ ∈ es, Lays τ e.item

end History

section Set
variable {V : Type*} {arena arena' : MemoryArena V} {T H : ℕ} {log : List (Entry PayloadRecord)}
  {requestNodeId : ℤ} {payload : List UInt8}

def WellFormedSet.record (h : WellFormedSet requestNodeId payload) : PayloadRecord :=
  ⟨wireNode requestNodeId,payload,h.node_lt,h.nonempty,h.length_le⟩

theorem WellFormedSet.record_encode (h : WellFormedSet requestNodeId payload) :
    h.record.encode = (⟨validIdentifier,.ofNat requestNodeId.toNat,.ofNat payload.length⟩ :
      PayloadHeader).bytes ++ payload := by
  simp only [PayloadRecord.encode, PayloadRecord.header, record, wireNode, UInt32.ofNat_toNat]

theorem LiveRing.writePayload_ok (hring : LiveRing arena T log H)
    (hw : WellFormedSet requestNodeId payload)
    (hroom : H + hw.record.encode.length < T + 2 ^ 32) :
    ∃ buf, arena.writePayload (.ofNat requestNodeId.toNat) payload (.ofNat payload.length) =
        .ok (.ofNat (place (2 ^ 32) 12 H), { arena with
          writeHead := .ofNat (place (2 ^ 32) 12 H + hw.record.encode.length)
          bufferPayload := buf }) ∧
      Writes (2 ^ 32) arena.bufferPayload buf (place (2 ^ 32) 12 H) hw.record.encode := by
  have hsize : hw.record.encode.length = 12 + payload.length := hw.record.encode_length
  obtain ⟨buf,hok,hwrites⟩ := Strix.writePayload_ok (.ofNat requestNodeId.toNat)
    hring.head hring.tail hring.le hring.room hw.length_toNat (by omega)
  rw [← hsize] at hok
  rw [← hw.record_encode] at hwrites
  exact ⟨buf,hok,hwrites⟩

theorem LiveRing.writePayload_full (hring : LiveRing arena T log H)
    (hw : WellFormedSet requestNodeId payload)
    (hfull : T + 2 ^ 32 ≤ H + hw.record.encode.length) :
    arena.writePayload (.ofNat requestNodeId.toNat) payload (.ofNat payload.length) =
      .error (.thrown "Resource Exhausted") := by
  have hsize : hw.record.encode.length = 12 + payload.length := hw.record.encode_length
  have hlen := hw.length_toNat
  simp only [MemoryArena.writePayload, allocatePayload_full (.ofNat payload.length)
    hring.head hring.tail hring.le hring.room (by omega)]

theorem LiveRing.room_of_write {offset : UInt64} {written : MemoryArena V}
    (hring : LiveRing arena T log H) (hw : WellFormedSet requestNodeId payload)
    (hwrite : arena.writePayload (.ofNat requestNodeId.toNat) payload (.ofNat payload.length) =
      .ok (offset, written)) : H + hw.record.encode.length < T + 2 ^ 32 := by
  by_contra hfull
  rw [hring.writePayload_full hw (by omega)] at hwrite
  cases hwrite

theorem LiveRing.write (hring : LiveRing arena T log H) (hw : WellFormedSet requestNodeId payload)
    (hroom : H + hw.record.encode.length < T + 2 ^ 32)
    (hbound : place (2 ^ 32) 12 H + hw.record.encode.length ≤ T + 2 ^ 32) :
    ∃ written, arena.writePayload (.ofNat requestNodeId.toNat) payload (.ofNat payload.length) =
        .ok (.ofNat (place (2 ^ 32) 12 H), written) ∧
      written.metadata = arena.metadata ∧ written.vectors = arena.vectors ∧
      LiveRing written T (log ++ [⟨place (2 ^ 32) 12 H,hw.record⟩])
        (place (2 ^ 32) 12 H + hw.record.encode.length) := by
  obtain ⟨buf,hok,hwrites⟩ := hring.writePayload_ok hw hroom
  exact ⟨_,hok,rfl,rfl,hring.append hwrites hbound⟩

theorem LiveRing.leak (hring : LiveRing arena T log H) (hw : WellFormedSet requestNodeId payload)
    (hroom : H + hw.record.encode.length < T + 2 ^ 32)
    (hbound : place (2 ^ 32) 12 H + hw.record.encode.length ≤ T + 2 ^ 32)
    (hstate : (arena.metadata (wireNode requestNodeId)).loadControl.state ≠ .pending) :
    ∃ arena', setCache requestNodeId payload arena = .ok (.ok false, arena') ∧
      arena'.metadata = arena.metadata ∧ arena'.vectors = arena.vectors ∧
      LiveRing arena' T (log ++ [⟨place (2 ^ 32) 12 H,hw.record⟩])
        (place (2 ^ 32) 12 H + hw.record.encode.length) := by
  obtain ⟨written,hwrite,hmeta,hvec,hring'⟩ := hring.write hw hroom hbound
  exact ⟨written,setCache_of_late hw hwrite hstate,hmeta,hvec,hring'⟩

theorem LiveRing.publish (hring : LiveRing arena T log H)
    (hw : WellFormedSet requestNodeId payload)
    (hroom : H + hw.record.encode.length < T + 2 ^ 32)
    (hbound : place (2 ^ 32) 12 H + hw.record.encode.length ≤ T + 2 ^ 32)
    (hstate : (arena.metadata (wireNode requestNodeId)).loadControl.state = .pending) :
    ∃ arena', setCache requestNodeId payload arena = .ok (.ok true, arena') ∧
      arena'.metadata = Function.update arena.metadata (wireNode requestNodeId)
        { arena.metadata (wireNode requestNodeId) with
          controlBlock :=
            packControl .ready .hot (.ofNat payload.length) (.ofNat (place (2 ^ 32) 12 H)) } ∧
      arena'.vectors = arena.vectors ∧
      LiveRing arena' T (log ++ [⟨place (2 ^ 32) 12 H,hw.record⟩])
        (place (2 ^ 32) 12 H + hw.record.encode.length) := by
  obtain ⟨written,hwrite,hmeta,hvec,hring'⟩ := hring.write hw hroom hbound
  refine ⟨_,setCache_of_pending hw hwrite hstate,?_,hvec,hring'.congr rfl rfl rfl⟩
  rw [MemoryArena.storeControl, hmeta]

theorem Served.publish {metadata : ℕ → MetaNode} {content : ℕ → Option (List UInt8)} {v : ℕ}
    (h : Served metadata log content) (hw : WellFormedSet requestNodeId payload)
    (hlaid : ⟨v,hw.record⟩ ∈ log) :
    Served (Function.update metadata (wireNode requestNodeId)
        { metadata (wireNode requestNodeId) with
          controlBlock := packControl .ready .hot (.ofNat payload.length) (.ofNat v) }) log
      (Function.update content (wireNode requestNodeId) (some payload)) := by
  have hlt := hw.record.length_lt
  refine h.assign (e := ⟨v,hw.record⟩) hlaid ?_ ?_ fun _ => ⟨⟨?_,?_⟩,Function.update_self ..⟩
  · intro m hm
    exact ⟨Function.update_of_ne hm _ _,Function.update_of_ne hm _ _⟩
  · simp [WellFormedSet.record, MetaNode.loadControl]
  · simp only [WellFormedSet.record, Function.update_self, MetaNode.loadControl,
      unpackControl_packControl_virtualOffset, ofNat_and_offsetMask]
  · simp only [WellFormedSet.record, Function.update_self, MetaNode.loadControl,
      unpackControl_packControl_length, and_maxPayloadLength_toNat, hw.length_toNat]
    exact Nat.mod_eq_of_lt hlt

end Set

section Calls
variable {K : Type*} [Scoring K] {arena arena' : MemoryArena (Vec K)} {T H : ℕ}
  {log : List (Entry PayloadRecord)} {content : ℕ → Option (List UInt8)}

omit [Scoring K] in
theorem LiveRing.bound_of_write {nodeId : ℤ} {payload : List UInt8} {reply : Except Status Bool}
    {offset : UInt64} {written : MemoryArena (Vec K)} (hring : LiveRing arena T log H)
    (hw : WellFormedSet nodeId payload)
    (hwrite : arena.writePayload (.ofNat nodeId.toNat) payload (.ofNat payload.length) =
      .ok (offset, written)) (hhead : arena'.writeHead = written.writeHead)
    (hb : Bounded (⟨arena,(.setCache nodeId payload,.stored reply),arena'⟩ : Step K)) :
    H + hw.record.encode.length < T + 2 ^ 32 ∧
      place (2 ^ 32) 12 H + hw.record.encode.length ≤ T + 2 ^ 32 := by
  have hsize := hw.record.encode_length
  have hle := hring.le
  obtain ⟨hplace,hgap⟩ := place_bounds H
  have hroom := hring.room_of_write hw hwrite
  refine ⟨hroom,?_⟩
  obtain ⟨buf,hok,-⟩ := hring.writePayload_ok hw hroom
  rw [hok, Except.ok.injEq, Prod.mk.injEq] at hwrite
  obtain ⟨-,rfl⟩ := hwrite
  simp only at hhead
  have hmoved : arena.writeHead ≠ arena'.writeHead := by
    rw [hhead, hring.head]
    intro heq
    have := ofNat_sub_toNat (a := place (2 ^ 32) 12 H + hw.record.encode.length) (b := H)
      (by omega) (by omega)
    rw [← heq, UInt64.sub_self] at this
    simp only [UInt64.toNat_zero] at this
    omega
  have hdist := hb hmoved
  rw [UInt64.le_iff_toNat_le, payloadBufferSize_toNat] at hdist
  simp only at hdist
  rw [hhead, hring.tail, ofNat_sub_toNat (by omega) (by omega)] at hdist
  omega

/-- What a whole call leaves of the ring: the records it has laid down follow the
earlier ones, and the nodes are served as the history says. -/
structure Extends (τ : Step K) (T : ℕ) (log : List (Entry PayloadRecord)) (H : ℕ)
    (content : ℕ → Option (List UInt8)) (laid : List (Entry PayloadRecord)) (H' : ℕ) : Prop where
  ring : LiveRing τ.after T (log ++ laid) H'
  served : Served τ.after.metadata (log ++ laid) (record publishes content τ)
  lays : ∀ e ∈ laid, Lays τ e.item
  nodes : ∀ n, (τ.before.metadata n).Keeps (τ.after.metadata n) ∨
    (τ.after.metadata n).loadControl.virtualOffset.toNat = place (2 ^ 32) 12 H % 2 ^ 37
  le : H ≤ H'
  lt : H' < H + 2 ^ 26

omit [Scoring K] in
theorem LiveRing.quiet {act : Call K × Reply} (hring : LiveRing arena T log H)
    (hserved : Served arena.metadata log content)
    (hbuf : arena'.bufferPayload = arena.bufferPayload) (hhead : arena'.writeHead = arena.writeHead)
    (htail : arena'.readTail = arena.readTail)
    (hkeep : ∀ i, (arena.metadata i).Keeps (arena'.metadata i))
    (hpub : publishes (⟨arena,act,arena'⟩ : Step K) = none) :
    Extends (⟨arena,act,arena'⟩ : Step K) T log H content [] H := by
  refine ⟨?_,?_,by simp,fun n => .inl (hkeep n),le_rfl,by omega⟩
  · simpa using hring.congr hbuf hhead htail
  · rw [record_none publishes hpub]
    simpa using hserved.keep hkeep

omit [Scoring K] in
theorem LiveRing.store {nodeId : ℤ} {payload : List UInt8} {reply : Except Status Bool}
    (hring : LiveRing arena T log H) (hserved : Served arena.metadata log content)
    (hset : setCache nodeId payload arena = .ok (reply, arena'))
    (hb : Bounded (⟨arena,(.setCache nodeId payload,.stored reply),arena'⟩ : Step K)) :
    ∃ laid H', Extends (⟨arena,(.setCache nodeId payload,.stored reply),arena'⟩ : Step K) T log H
      content laid H' := by
  rcases setCache_cases hset with ⟨⟨status,rfl⟩,rfl⟩ | ⟨hw,offset,written,hwrite,hout⟩
  · exact ⟨[],H,hring.quiet hserved rfl rfl rfl (fun i => .refl _) rfl⟩
  have hsize := hw.record.encode_length
  have hlt := hw.record.length_lt
  obtain ⟨hplace,hgap⟩ := place_bounds H
  have hhead : arena'.writeHead = written.writeHead := by
    rcases hout with ⟨-,-,rfl⟩ | ⟨-,-,rfl⟩ <;> rfl
  obtain ⟨hroom,hbound⟩ := hring.bound_of_write hw hwrite hhead hb
  have hmono : Served arena.metadata (log ++ [⟨place (2 ^ 32) 12 H,hw.record⟩]) content :=
    hserved.mono fun e he => List.mem_append_left _ he
  rcases hout with ⟨hstate,rfl,-⟩ | ⟨hstate,rfl,-⟩
  · obtain ⟨_,hleak,hmeta,-,hring'⟩ := hring.leak hw hroom hbound hstate
    rw [hset, Except.ok.injEq, Prod.mk.injEq] at hleak
    obtain ⟨-,rfl⟩ := hleak
    refine ⟨_,_,hring',?_,?_,fun n => .inl ?_,by omega,by omega⟩
    · rw [record_none publishes rfl]
      simp only [hmeta]
      exact hmono
    · rw [List.forall_mem_singleton]
      exact ⟨nodeId,false,rfl,rfl⟩
    · simp only [hmeta]
      exact .refl _
  · obtain ⟨_,hpublish,hmeta,-,hring'⟩ := hring.publish hw hroom hbound hstate
    rw [hset, Except.ok.injEq, Prod.mk.injEq] at hpublish
    obtain ⟨-,rfl⟩ := hpublish
    refine ⟨_,_,hring',?_,?_,fun n => ?_,by omega,by omega⟩
    · rw [record_some publishes (k := wireNode nodeId) (v := payload) rfl]
      simp only [hmeta]
      exact hmono.publish hw (by simp)
    · rw [List.forall_mem_singleton]
      exact ⟨nodeId,true,rfl,rfl⟩
    · simp only [hmeta]
      by_cases hn : n = wireNode nodeId
      · subst hn
        refine .inr ?_
        simp only [Function.update_self, MetaNode.loadControl,
          unpackControl_packControl_virtualOffset, ofNat_and_offsetMask]
      · rw [Function.update_of_ne hn]
        exact .inl (.refl _)

theorem LiveRing.call {act : Call K × Reply} (hring : LiveRing arena T log H)
    (hserved : Served arena.metadata log content) (hfire : Fires arena act arena')
    (hcall : act ≠ (.collect, .collected)) (hb : Bounded ⟨arena,act,arena'⟩) :
    ∃ laid H', Extends (⟨arena,act,arena'⟩ : Step K) T log H content laid H' := by
  rcases fires_cases hfire with ⟨prompt,embedding,t,result,rfl,hc⟩ |
    ⟨nodeId,payload,result,rfl,hc⟩ | ⟨rfl,hc⟩
  · rcases checkCache_cases hc with ⟨-,rfl⟩ | ⟨query,-,-,ho⟩
    · exact ⟨[],H,hring.quiet hserved rfl rfl rfl (fun i => .refl _) rfl⟩
    · obtain ⟨hbuf,hhead,htail⟩ := ho.ring
      exact ⟨[],H,hring.quiet hserved hbuf hhead htail ho.keeps rfl⟩
  · exact hring.store hserved hc hb
  · exact absurd rfl hcall

end Calls

section Runs
variable {K : Type*} [Scoring K] {arena arena' : MemoryArena (Vec K)} {es : List (Step K)}
  {log : List (Entry PayloadRecord)}

omit [Scoring K] in
/-- Moving the cursors by less than a turn of the 64-bit counters. -/
theorem stream_snoc (act : Call K × Reply) {T' H' : ℕ} {log' : List (Entry PayloadRecord)}
    (hring : LiveRing arena (streamTail es) log (streamHead es)) (hT : T' < streamTail es + 2 ^ 64)
    (hTle : streamTail es ≤ T') (hH : H' < streamHead es + 2 ^ 64) (hHle : streamHead es ≤ H')
    (hring' : LiveRing arena' T' log' H') :
    streamTail (es ++ [⟨arena,act,arena'⟩]) = T' ∧ streamHead (es ++ [⟨arena,act,arena'⟩]) = H' := by
  rw [streamTail_snoc, streamHead_snoc, hring.head, hring.tail, hring'.head, hring'.tail,
    ofNat_sub_toNat hTle hT, ofNat_sub_toNat hHle hH]
  omega

theorem intact_fresh : Intact [] (freshArena K) [] :=
  ⟨liveRing_initial _,served_fresh,by simp⟩

omit [Scoring K] in
theorem Intact.extend {act : Call K × Reply} {laid : List (Entry PayloadRecord)} {H' : ℕ}
    (h : Intact es arena log) (hext : Extends (⟨arena,act,arena'⟩ : Step K) (streamTail es) log
      (streamHead es) (latest publishes es) laid H') :
    Intact (es ++ [⟨arena,act,arena'⟩]) arena' (log ++ laid) := by
  have hlt := hext.lt
  obtain ⟨hT,hH⟩ := stream_snoc act h.ring (by omega) le_rfl (by omega) hext.le hext.ring
  refine ⟨by rw [hT, hH]; exact hext.ring,by rw [latest_snoc]; exact hext.served,fun e he => ?_⟩
  rcases List.mem_append.mp he with he | he
  · obtain ⟨τ,hτ,hl⟩ := h.written e he
    exact ⟨τ,List.mem_append_left _ hτ,hl⟩
  · exact ⟨_,by simp,hext.lays e he⟩

omit [Scoring K] in
theorem Intact.pass (h : Intact es arena log) (hpass : arena.runGarbageCollectorPass = .ok arena') :
    ∃ log', Intact (es ++ [⟨arena,(.collect,.collected),arena'⟩]) arena' log' := by
  have hout := h.ring.pass
  rw [hpass] at hout
  obtain ⟨T',log',H',hring,hserved,hitems,hT,hH,hlt⟩ := hout.preserves h.ring h.served
  have hle := hring.le
  have hle' := h.ring.le
  obtain ⟨hT',hH'⟩ := stream_snoc (.collect,.collected) h.ring (by omega) hT
    (by omega) hH hring
  refine ⟨log',by rw [hT', hH']; exact hring,?_,fun e he => ?_⟩
  · rw [latest_snoc, record_none publishes rfl]
    exact hserved
  · obtain ⟨a,ha,hitem⟩ := hitems e he
    obtain ⟨τ,hτ,hl⟩ := h.written a ha
    exact ⟨τ,List.mem_append_left _ hτ,hitem ▸ hl⟩

theorem Intact.step {act : Call K × Reply} (h : Intact es arena log)
    (hfire : Fires arena act arena') (hb : Bounded ⟨arena,act,arena'⟩) :
    ∃ log', Intact (es ++ [⟨arena,act,arena'⟩]) arena' log' := by
  by_cases hcall : act = (.collect, .collected)
  · subst hcall
    exact h.pass (fires_collect.mp hfire)
  · obtain ⟨laid,H',hext⟩ := h.ring.call h.served hfire hcall hb
    exact ⟨_,h.extend hext⟩

/-- A bounded run keeps the arena intact. -/
theorem EngineRun.intact (hrun : EngineRun es arena) (hb : ∀ τ ∈ es, Bounded τ) :
    ∃ log, Intact es arena log :=
  Run.historyInvariant (I := fun es arena => ∃ log, Intact es arena log)
    (fun _ _ hfire hb ⟨_,h⟩ => h.step hfire hb) hrun hb ⟨[],intact_fresh⟩

end Runs

end Strix
