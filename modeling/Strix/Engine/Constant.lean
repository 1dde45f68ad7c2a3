import Mathlib.Algebra.Group.Nat.Defs

/-! # Compile-time constants of the engine

The values of `constant.hh` that the modelled code reads, each in its own
machine type. The sleep lengths and the high watermark only choose how long the
collector sleeps and are left out.
-/
namespace Strix

def vectorDim : ℕ := 384

def l0MaxSlots : ℕ := 1000
def l1MaxSlots : ℕ := 500000
def totalMaxSlots : ℕ := l0MaxSlots + l1MaxSlots

def maxPayloadLength : UInt32 := 0xFFFFFF
def virtualOffsetMask : UInt64 := 0x1FFFFFFFFF
def payloadBufferSize : UInt64 := 4 * 1024 * 1024 * 1024

def pendingLifespan : UInt32 := 30

def validIdentifier : UInt32 := 0xDEADBEEF

def lowWatermarkThreshold : UInt64 := 2 * 1024 * 1024 * 1024

theorem l0MaxSlots_le_totalMaxSlots : l0MaxSlots ≤ totalMaxSlots := by decide

theorem maxPayloadLength_toNat : maxPayloadLength.toNat = 2 ^ 24 - 1 := by decide
theorem virtualOffsetMask_toNat : virtualOffsetMask.toNat = 2 ^ 37 - 1 := by decide
theorem payloadBufferSize_toNat : payloadBufferSize.toNat = 2 ^ 32 := by decide
theorem lowWatermarkThreshold_toNat : lowWatermarkThreshold.toNat = 2 ^ 31 := by decide

end Strix
