import Strix.Ring.Rescue

/-! # Writing, copying and reading back on any arena

Nothing is assumed here about what the ring holds or where its cursors stand.
Whatever word an allocation returns, the record behind it can be read back
through the fields of a control word, and a rescue reproduces the record at the
tail even where the copy runs into the header of its source.
-/
namespace Strix
open ByteRing FramedLog

section Allocated
variable {V : Type*} {arena arena' : MemoryArena V} {length : UInt32} {offset : UInt64}

theorem allocatePayload_offset (h : arena.allocatePayload length = .ok (offset, arena')) :
    offset = .ofNat (place (2 ^ 32) 12 arena.writeHead.toNat) := by
  have hplace := ofNat_place arena.writeHead.toNat
  rw [UInt64.ofNat_toNat] at hplace
  simp only [MemoryArena.allocatePayload] at h
  split at h
  · simp only [reduceCtorEq] at h
  · rw [Except.ok.injEq, Prod.mk.injEq] at h
    rw [← h.1, hplace]

theorem allocatePayload_fits (h : arena.allocatePayload length = .ok (offset, arena')) :
    offset.toNat % 2 ^ 32 + 12 ≤ 2 ^ 32 := by
  have hfits := place_fits (show 0 < 2 ^ 32 by decide) (show 12 ≤ 2 ^ 32 by decide)
    arena.writeHead.toNat
  rw [allocatePayload_offset h, UInt64.toNat_ofNat']
  omega

theorem readHeader_of_stored {buf : ℕ → UInt8} {header : PayloadHeader} {text : List UInt8}
    (h : Stored (2 ^ 32) buf offset.toNat (header.bytes ++ text))
    (hfits : offset.toNat % 2 ^ 32 + 12 ≤ 2 ^ 32) :
    load buf (ringIndex offset).val.toNat 12 = header.bytes ∧
      readHeader buf (ringIndex offset).val.toNat = header := by
  have hload := (stored_append.mp h).1.load_eq (n := 12) le_rfl hfits
  rw [← ringIndex_toNat] at hload
  exact ⟨hload,readHeader_of_bytes hload⟩

end Allocated

section Write
variable {V : Type*} {arena arena' : MemoryArena V} {nodeId : UInt32} {payload : List UInt8}
  {offset : UInt64}

/-- A written payload reads back through the length and the offset that its control
word keeps; the header stands in front of it and no other byte has changed. -/
theorem readPayload_writePayload (hmax : payload.length ≤ maxPayloadLength.toNat)
    (h : arena.writePayload nodeId payload (.ofNat payload.length) = .ok (offset, arena')) :
    let ctrl := unpackControl (packControl .ready .hot (.ofNat payload.length) offset)
    arena'.readPayload ctrl.virtualOffset ctrl.length = payload ∧
    (ringIndex offset).val.toNat + 12 ≤ 2 ^ 32 ∧
    load arena'.bufferPayload (ringIndex offset).val.toNat 12 =
      (⟨validIdentifier,nodeId,.ofNat payload.length⟩ : PayloadHeader).bytes ∧
    readHeader arena'.bufferPayload (ringIndex offset).val.toNat =
      ⟨validIdentifier,nodeId,.ofNat payload.length⟩ ∧
    UnchangedOutside (2 ^ 32) arena.bufferPayload arena'.bufferPayload offset.toNat
      (12 + payload.length) := by
  rw [maxPayloadLength_toNat] at hmax
  have hlen : (UInt32.ofNat payload.length).toNat = payload.length := by
    rw [UInt32.toNat_ofNat']
    omega
  obtain ⟨allocated,halloc⟩ : ∃ allocated,
      arena.allocatePayload (.ofNat payload.length) = .ok (offset, allocated) := by
    unfold MemoryArena.writePayload at h
    cases halloc : arena.allocatePayload (.ofNat payload.length) with
    | error fault => simp only [halloc, reduceCtorEq] at h
    | ok p =>
      simp only [halloc, Except.ok.injEq, Prod.mk.injEq] at h
      exact ⟨p.2,by rw [← h.1]⟩
  have hfits := allocatePayload_fits halloc
  obtain ⟨buf,hwrite,hstored,hunchanged⟩ :=
    writePayload_of_allocate nodeId halloc rfl hfits hlen (by omega)
  rw [h, Except.ok.injEq, Prod.mk.injEq] at hwrite
  obtain ⟨-,rfl⟩ := hwrite
  obtain ⟨hload,hheader⟩ := readHeader_of_stored hstored hfits
  have htext := (stored_append.mp hstored).2
  rw [PayloadHeader.bytes_length] at htext
  rw [List.length_append, PayloadHeader.bytes_length] at hunchanged
  refine ⟨?_,by rw [ringIndex_toNat]; exact hfits,hload,hheader,hunchanged⟩
  refine readPayload_eq htext ?_ ?_
  · rw [unpackControl_packControl_virtualOffset, and_virtualOffsetMask_toNat]
    omega
  · rw [unpackControl_packControl_length, and_maxPayloadLength_toNat, hlen]
    omega

/-- The head stands 14 bytes before the end of the 64-bit offsets: the header fits, and the
text goes on at the start of the ring. -/
theorem readPayload_writePayload_replay : ∃ arena' : MemoryArena Unit,
    ({ MemoryArena.initial () with
        writeHead := 0xFFFFFFFFFFFFFFF2
        readTail := 0xFFFFFFFFFFFFFFF2 } : MemoryArena Unit).writePayload 3 [7, 8, 9] 3 =
      .ok (0xFFFFFFFFFFFFFFF2, arena') ∧ arena'.readPayload 0x1FFFFFFFF2 3 = [7, 8, 9] ∧
      readHeader arena'.bufferPayload 0xFFFFFFF2 = ⟨validIdentifier,3,3⟩ := by
  have hwrite := @writePayload_of_allocate Unit { MemoryArena.initial () with
    writeHead := 0xFFFFFFFFFFFFFFF2
    readTail := 0xFFFFFFFFFFFFFFF2 } 3 3 [7, 8, 9] 0xFFFFFFFFFFFFFFF2 _ 0xFFFFFFFFFFFFFFF2 rfl rfl
    (by decide) rfl (by decide)
  obtain ⟨buf,hwrite,-⟩ := hwrite
  obtain ⟨hread,-,-,hheader,-⟩ := readPayload_writePayload (by decide) hwrite
  have hctrl : unpackControl (packControl .ready .hot 3 0xFFFFFFFFFFFFFFF2) =
      ⟨.ready,.hot,3,0x1FFFFFFFF2⟩ := by decide
  refine ⟨_,hwrite,?_,hheader⟩
  simpa [hctrl] using hread

end Write

section Rescue
variable {V : Type*} {arena allocated : MemoryArena V} {header : PayloadHeader}
  {rescuedOffset : UInt64}

structure TailRecord (arena : MemoryArena V) (header : PayloadHeader) : Prop where
  read : readHeader arena.bufferPayload (ringIndex arena.readTail).val.toNat = header
  unsplit : (ringIndex arena.readTail).val.toNat + 12 ≤ 2 ^ 32
  valid : header.identifier = validIdentifier
  length_pos : 0 < header.length
  length_le : header.length ≤ maxPayloadLength
  inside : 12 + header.length.toNat ≤ (arena.writeHead - arena.readTail).toNat

/-- A rescue that finds room reproduces the record at the tail and changes no byte
of the records behind it. -/
theorem rescuePayload_faithful
    (hused : arena.writeHead - arena.readTail ≤ payloadBufferSize)
    (hrecord : TailRecord arena header)
    (halloc : arena.allocatePayload header.length = .ok (rescuedOffset, allocated)) :
    ∃ rescued, arena.rescuePayload arena.readTail header = .ok (rescuedOffset, rescued) ∧
      rescued.readPayload rescuedOffset header.length =
        arena.readPayload arena.readTail header.length ∧
      (ringIndex rescuedOffset).val.toNat + 12 ≤ 2 ^ 32 ∧
      readHeader rescued.bufferPayload (ringIndex rescuedOffset).val.toNat =
        ⟨validIdentifier,header.nodeId,header.length⟩ ∧
      ∀ k, 12 + header.length.toNat ≤ k → k < (arena.writeHead - arena.readTail).toNat →
        rescued.bufferPayload ((arena.readTail.toNat + k) % 2 ^ 32) =
          arena.bufferPayload ((arena.readTail.toNat + k) % 2 ^ 32) := by
  have hpos := UInt32.lt_iff_toNat_lt.mp hrecord.length_pos
  have hmax := UInt32.le_iff_toNat_le.mp hrecord.length_le
  have hinside := hrecord.inside
  rw [UInt64.le_iff_toNat_le, payloadBufferSize_toNat] at hused
  rw [UInt32.toNat_zero] at hpos
  rw [maxPayloadLength_toNat] at hmax
  generalize hu : (arena.writeHead - arena.readTail).toNat = used at *
  -- the head as the stream position `used` bytes behind the tail
  have hhead : arena.writeHead = .ofNat (arena.readTail.toNat + used) := by
    rw [UInt64.ofNat_add, UInt64.ofNat_toNat, ← hu, UInt64.ofNat_toNat, UInt64.add_comm,
      UInt64.sub_add_cancel]
  have htail : arena.readTail = .ofNat arena.readTail.toNat := UInt64.ofNat_toNat.symm
  generalize arena.readTail.toNat = T at *
  have hroom : T + used + (12 + header.length.toNat) < T + 2 ^ 32 := by
    by_contra hfull
    rw [allocatePayload_full header.length hhead htail (by omega) (by omega) (by omega)] at halloc
    simp only [reduceCtorEq] at halloc
  obtain ⟨hplace,hgap⟩ := place_bounds (T + used)
  have hfits := place_fits (show 0 < 2 ^ 32 by decide) (show 12 ≤ 2 ^ 32 by decide) (T + used)
  have hoffset : rescuedOffset = .ofNat (place (2 ^ 32) 12 (T + used)) := by
    rw [allocatePayload_ok header.length hhead htail (by omega) (by omega) (by omega),
      Except.ok.injEq, Prod.mk.injEq] at halloc
    exact halloc.1.symm
  have hindex : rescuedOffset.toNat % 2 ^ 32 = place (2 ^ 32) 12 (T + used) % 2 ^ 32 := by
    rw [hoffset, UInt64.toNat_ofNat']
    omega
  have htail' : arena.readTail.toNat % 2 ^ 32 = T % 2 ^ 32 := by
    rw [htail, UInt64.toNat_ofNat']
    omega
  obtain ⟨text,hlen,htext⟩ := exists_stored arena.bufferPayload (T + 12) header.length.toNat
  -- the copy may reach round to the header of its source, but not to the text
  obtain ⟨buf,hrescue,hstored,hunchanged⟩ := rescuePayload_of_allocate halloc htail' hindex hfits
    hlen.symm (by omega) htext (apart_of_le (by omega) (by omega))
    (apart_of_le (by omega) (by omega))
  have hcopied := (stored_append.mp hstored).2
  rw [PayloadHeader.bytes_length] at hcopied
  rw [List.length_append, PayloadHeader.bytes_length] at hunchanged
  have hload := (stored_append.mp hstored).1.load_eq (n := 12) le_rfl hfits
  refine ⟨_,hrescue,?_,by rw [ringIndex_toNat, hindex]; exact hfits,?_,fun k hk hend => ?_⟩
  · rw [readPayload_eq htext htail' hlen.symm, readPayload_eq hcopied hindex hlen.symm]
  · rw [ringIndex_toNat, hindex]
    exact readHeader_of_bytes hload
  · exact hunchanged _ fun j hj => mod_ne (by omega) (by omega)

/-- A record of 13 bytes at position 9, and a head five bytes before the ring end. -/
def nearlyFull : MemoryArena Unit :=
  { MemoryArena.initial () with
    bufferPayload := memcpy (fun _ => 0) 9 ((⟨validIdentifier,3,1⟩ : PayloadHeader).bytes ++ [7])
    writeHead := 0xFFFFFFFB
    readTail := 9 }

/-- The copy starts at the ring end and overwrites the first bytes of its source. -/
theorem rescuePayload_faithful_replay : ∃ rescued,
    nearlyFull.rescuePayload 9 ⟨validIdentifier,3,1⟩ = .ok (0x100000000, rescued) ∧
      rescued.readPayload 0x100000000 1 = [7] := by
  have halloc : nearlyFull.allocatePayload 1 =
      .ok (0x100000000, { nearlyFull with writeHead := 0x10000000D }) := rfl
  have hrecord : TailRecord nearlyFull ⟨validIdentifier,3,1⟩ :=
    ⟨by decide,by decide,by decide,by decide,by decide,by decide⟩
  obtain ⟨rescued,hrescue,hread,-⟩ := rescuePayload_faithful (by decide) hrecord halloc
  exact ⟨rescued,hrescue,hread.trans (by decide)⟩

end Rescue

end Strix
