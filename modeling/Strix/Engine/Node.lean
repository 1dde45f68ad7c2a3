import Strix.Engine.Constant
import Mathlib.Tactic.Ring

/-! # Metadata nodes and their packed control word (node.hh)

The control word keeps the slot state in bits 62-63, the reference bit in bit
61, the payload length in bits 37-60 and the virtual offset in bits 0-36.
-/
namespace Strix

inductive NodeState
  | dead | pending | ready | migrating
  deriving DecidableEq, Repr

inductive EvictState
  | cold | hot
  deriving DecidableEq, Repr

def NodeState.toUInt64 : NodeState → UInt64
  | .dead => 0
  | .pending => 1
  | .ready => 2
  | .migrating => 3

def NodeState.ofBits (bits : UInt64) : NodeState :=
  if bits = 0 then .dead
  else if bits = 1 then .pending
  else if bits = 2 then .ready
  else .migrating

def EvictState.toUInt64 : EvictState → UInt64
  | .cold => 0
  | .hot => 1

def EvictState.ofBits (bits : UInt64) : EvictState := if bits = 0 then .cold else .hot

@[ext]
structure UnpackedControl where
  state : NodeState
  refBit : EvictState
  length : UInt32
  virtualOffset : UInt64
  deriving DecidableEq, Repr

def packControl (state : NodeState) (refBit : EvictState) (length : UInt32) (offset : UInt64) :
    UInt64 :=
  (state.toUInt64 <<< 62) ||| (refBit.toUInt64 <<< 61) |||
    ((length &&& maxPayloadLength).toUInt64 <<< 37) ||| (offset &&& virtualOffsetMask)

def unpackControl (control : UInt64) : UnpackedControl where
  state := .ofBits (control >>> 62)
  refBit := .ofBits ((control >>> 61) &&& 1)
  length := ((control >>> 37) &&& maxPayloadLength.toUInt64).toUInt32
  virtualOffset := control &&& virtualOffsetMask

structure MetaNode where
  createdAt : UInt64
  controlBlock : UInt64
  deriving DecidableEq, Repr

def MetaNode.loadControl (node : MetaNode) : UnpackedControl := unpackControl node.controlBlock

theorem and_maxPayloadLength_toNat (length : UInt32) :
    (length &&& maxPayloadLength).toNat = length.toNat % 2 ^ 24 := by
  rw [UInt32.toNat_and, maxPayloadLength_toNat, Nat.and_two_pow_sub_one_eq_mod]

theorem and_virtualOffsetMask_toNat (offset : UInt64) :
    (offset &&& virtualOffsetMask).toNat = offset.toNat % 2 ^ 37 := by
  rw [UInt64.toNat_and, virtualOffsetMask_toNat, Nat.and_two_pow_sub_one_eq_mod]

theorem NodeState.toUInt64_toNat_lt (s : NodeState) : s.toUInt64.toNat < 4 := by
  cases s <;> decide

theorem EvictState.toUInt64_toNat_lt (r : EvictState) : r.toUInt64.toNat < 2 := by
  cases r <;> decide

theorem packControl_toNat (s : NodeState) (r : EvictState) (length : UInt32) (offset : UInt64) :
    (packControl s r length offset).toNat =
      s.toUInt64.toNat * 2 ^ 62 + r.toUInt64.toNat * 2 ^ 61 +
        length.toNat % 2 ^ 24 * 2 ^ 37 + offset.toNat % 2 ^ 37 := by
  have hs := s.toUInt64_toNat_lt
  have hr := r.toUInt64_toNat_lt
  have hl := and_maxPayloadLength_toNat length
  have ho := and_virtualOffsetMask_toNat offset
  have hstate : (s.toUInt64 <<< 62).toNat = s.toUInt64.toNat * 2 ^ 62 := by
    rw [UInt64.toNat_shiftLeft, show (62 : UInt64).toNat % 64 = 62 from rfl, Nat.shiftLeft_eq]
    omega
  have href : (r.toUInt64 <<< 61).toNat = r.toUInt64.toNat * 2 ^ 61 := by
    rw [UInt64.toNat_shiftLeft, show (61 : UInt64).toNat % 64 = 61 from rfl, Nat.shiftLeft_eq]
    omega
  have hlen : ((length &&& maxPayloadLength).toUInt64 <<< 37).toNat =
      length.toNat % 2 ^ 24 * 2 ^ 37 := by
    rw [UInt64.toNat_shiftLeft, show (37 : UInt64).toNat % 64 = 37 from rfl, Nat.shiftLeft_eq,
      UInt32.toNat_toUInt64, hl]
    omega
  -- each field lies below the ones already joined, so the disjunction is a sum
  have hjoin : ∀ a b i : ℕ, b < 2 ^ i → a * 2 ^ i ||| b = a * 2 ^ i + b := by
    intro a b i hb
    rw [← Nat.shiftLeft_eq, Nat.shiftLeft_add_eq_or_of_lt hb]
  have htop : s.toUInt64.toNat * 2 ^ 62 + r.toUInt64.toNat * 2 ^ 61 =
      (s.toUInt64.toNat * 2 + r.toUInt64.toNat) * 2 ^ 61 := by ring
  have hmid : (s.toUInt64.toNat * 2 + r.toUInt64.toNat) * 2 ^ 61 +
      length.toNat % 2 ^ 24 * 2 ^ 37 =
      ((s.toUInt64.toNat * 2 + r.toUInt64.toNat) * 2 ^ 24 + length.toNat % 2 ^ 24) * 2 ^ 37 := by
    ring
  rw [packControl, UInt64.toNat_or, UInt64.toNat_or, UInt64.toNat_or, hstate, href, hlen, ho,
    hjoin _ _ 62 (by omega), htop, hjoin _ _ 61 (by omega), hmid, hjoin _ _ 37 (by omega)]

theorem shiftRight_toNat_62 (w : UInt64) : (w >>> 62).toNat = w.toNat / 2 ^ 62 := by
  rw [UInt64.toNat_shiftRight, show (62 : UInt64).toNat % 64 = 62 from rfl,
    Nat.shiftRight_eq_div_pow]

theorem refBits_toNat (w : UInt64) : ((w >>> 61) &&& 1).toNat = w.toNat / 2 ^ 61 % 2 := by
  rw [UInt64.toNat_and, UInt64.toNat_shiftRight, show (61 : UInt64).toNat % 64 = 61 from rfl,
    Nat.shiftRight_eq_div_pow, show (1 : UInt64).toNat = 2 ^ 1 - 1 from rfl,
    Nat.and_two_pow_sub_one_eq_mod]

theorem unpackControl_length_toNat (w : UInt64) :
    (unpackControl w).length.toNat = w.toNat / 2 ^ 37 % 2 ^ 24 := by
  rw [unpackControl, UInt64.toNat_toUInt32, UInt64.toNat_and, UInt64.toNat_shiftRight,
    show (37 : UInt64).toNat % 64 = 37 from rfl, Nat.shiftRight_eq_div_pow, UInt32.toNat_toUInt64,
    maxPayloadLength_toNat, Nat.and_two_pow_sub_one_eq_mod]
  omega

theorem unpackControl_virtualOffset_toNat (w : UInt64) :
    (unpackControl w).virtualOffset.toNat = w.toNat % 2 ^ 37 := and_virtualOffsetMask_toNat w

theorem NodeState.ofBits_toUInt64 (s : NodeState) : NodeState.ofBits s.toUInt64 = s := by
  cases s <;> decide

theorem EvictState.ofBits_toUInt64 (r : EvictState) : EvictState.ofBits r.toUInt64 = r := by
  cases r <;> decide

theorem EvictState.hot_of_ne {r : EvictState} (h : r ≠ .cold) : r = .hot := by
  cases r with
  | cold => exact absurd rfl h
  | hot => rfl

theorem NodeState.toUInt64_ofBits {b : UInt64} (h : b.toNat < 4) :
    (NodeState.ofBits b).toUInt64 = b := by
  apply UInt64.toNat_inj.mp
  simp only [NodeState.ofBits, ← UInt64.toNat_inj]
  rcases (by omega : b.toNat = 0 ∨ b.toNat = 1 ∨ b.toNat = 2 ∨ b.toNat = 3) with h | h | h | h <;>
    rw [h] <;> rfl

theorem EvictState.toUInt64_ofBits {b : UInt64} (h : b.toNat < 2) :
    (EvictState.ofBits b).toUInt64 = b := by
  apply UInt64.toNat_inj.mp
  simp only [EvictState.ofBits, ← UInt64.toNat_inj]
  rcases (by omega : b.toNat = 0 ∨ b.toNat = 1) with h | h <;> rw [h] <;> rfl

section Unpack
variable (s : NodeState) (r : EvictState) (length : UInt32) (offset : UInt64)

@[simp] theorem unpackControl_packControl_state :
    (unpackControl (packControl s r length offset)).state = s := by
  have hr := r.toUInt64_toNat_lt
  have : packControl s r length offset >>> 62 = s.toUInt64 := by
    apply UInt64.toNat_inj.mp
    rw [shiftRight_toNat_62, packControl_toNat]
    omega
  rw [unpackControl, this, s.ofBits_toUInt64]

@[simp] theorem unpackControl_packControl_refBit :
    (unpackControl (packControl s r length offset)).refBit = r := by
  have hr := r.toUInt64_toNat_lt
  have : (packControl s r length offset >>> 61) &&& 1 = r.toUInt64 := by
    apply UInt64.toNat_inj.mp
    rw [refBits_toNat, packControl_toNat]
    omega
  rw [unpackControl, this, r.ofBits_toUInt64]

@[simp] theorem unpackControl_packControl_length :
    (unpackControl (packControl s r length offset)).length = length &&& maxPayloadLength := by
  apply UInt32.toNat_inj.mp
  rw [unpackControl_length_toNat, packControl_toNat, and_maxPayloadLength_toNat]
  omega

@[simp] theorem unpackControl_packControl_virtualOffset :
    (unpackControl (packControl s r length offset)).virtualOffset =
      offset &&& virtualOffsetMask := by
  apply UInt64.toNat_inj.mp
  rw [unpackControl_virtualOffset_toNat, packControl_toNat, and_virtualOffsetMask_toNat]
  omega

end Unpack

@[simp] theorem unpackControl_length_and (w : UInt64) :
    (unpackControl w).length &&& maxPayloadLength = (unpackControl w).length := by
  apply UInt32.toNat_inj.mp
  rw [and_maxPayloadLength_toNat, unpackControl_length_toNat]
  omega

@[simp] theorem unpackControl_virtualOffset_and (w : UInt64) :
    (unpackControl w).virtualOffset &&& virtualOffsetMask = (unpackControl w).virtualOffset := by
  apply UInt64.toNat_inj.mp
  rw [and_virtualOffsetMask_toNat, unpackControl_virtualOffset_toNat]
  omega

theorem packControl_unpackControl_eq (w : UInt64) :
    packControl (unpackControl w).state (unpackControl w).refBit (unpackControl w).length
      (unpackControl w).virtualOffset = w := by
  have hw := w.toNat_lt
  apply UInt64.toNat_inj.mp
  have hs : ((unpackControl w).state).toUInt64 = w >>> 62 :=
    NodeState.toUInt64_ofBits (by rw [shiftRight_toNat_62]; omega)
  have hr : ((unpackControl w).refBit).toUInt64 = (w >>> 61) &&& 1 :=
    EvictState.toUInt64_ofBits (by rw [refBits_toNat]; omega)
  rw [packControl_toNat, hs, hr, shiftRight_toNat_62, refBits_toNat, unpackControl_length_toNat,
    unpackControl_virtualOffset_toNat]
  omega

theorem unpackControl_packControl {s : NodeState} {r : EvictState} {length : UInt32}
    (offset : UInt64) (h : length ≤ maxPayloadLength) :
    unpackControl (packControl s r length offset) =
      ⟨s,r,length,.ofNat (offset.toNat % 2 ^ 37)⟩ := by
  have hlength : length &&& maxPayloadLength = length := by
    apply UInt32.toNat_inj.mp
    rw [UInt32.le_iff_toNat_le, maxPayloadLength_toNat] at h
    rw [and_maxPayloadLength_toNat]
    omega
  have hoffset : offset &&& virtualOffsetMask = .ofNat (offset.toNat % 2 ^ 37) := by
    apply UInt64.toNat_inj.mp
    rw [and_virtualOffsetMask_toNat, UInt64.toNat_ofNat']
    omega
  ext1
  · exact unpackControl_packControl_state ..
  · exact unpackControl_packControl_refBit ..
  · exact (unpackControl_packControl_length ..).trans hlength
  · exact (unpackControl_packControl_virtualOffset ..).trans hoffset

theorem unpackControl_length_le (w : UInt64) : (unpackControl w).length ≤ maxPayloadLength := by
  rw [UInt32.le_iff_toNat_le, maxPayloadLength_toNat, unpackControl_length_toNat]
  omega

theorem unpackControl_virtualOffset_mod (w : UInt64) :
    UInt64.ofNat ((unpackControl w).virtualOffset.toNat % 2 ^ 37) =
      (unpackControl w).virtualOffset := by
  rw [unpackControl_virtualOffset_toNat, Nat.mod_mod, ← unpackControl_virtualOffset_toNat,
    UInt64.ofNat_toNat]

theorem unpackControl_repack (w : UInt64) (s : NodeState) (r : EvictState) :
    unpackControl (packControl s r (unpackControl w).length (unpackControl w).virtualOffset) =
      { unpackControl w with
        state := s
        refBit := r } := by
  rw [unpackControl_packControl _ (unpackControl_length_le w), unpackControl_virtualOffset_mod]

def UnpackedControl.pack (ctrl : UnpackedControl) : UInt64 :=
  packControl ctrl.state ctrl.refBit ctrl.length ctrl.virtualOffset

def ControlFields := {ctrl : UnpackedControl //
  ctrl.length ≤ maxPayloadLength ∧ ctrl.virtualOffset.toNat < 2 ^ 37}

/-- Every word encodes one choice of the fields, and every choice is encoded by one word. -/
def controlEquiv : UInt64 ≃ ControlFields where
  toFun w := ⟨unpackControl w,unpackControl_length_le w,by
    rw [unpackControl_virtualOffset_toNat]
    exact Nat.mod_lt _ (by decide)⟩
  invFun fields := fields.val.pack
  left_inv := packControl_unpackControl_eq
  right_inv := by
    rintro ⟨ctrl,hlength,hoffset⟩
    apply Subtype.ext
    refine (unpackControl_packControl ctrl.virtualOffset hlength).trans ?_
    rw [Nat.mod_eq_of_lt hoffset, UInt64.ofNat_toNat]

theorem unpackControl_injective : Function.Injective unpackControl :=
  Subtype.val_injective.comp controlEquiv.injective

end Strix
