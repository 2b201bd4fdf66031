import VirtioMem.Lib.Word

/-!
# The virtio-mem device

One device as libvirt reports it: its size, its block size, the size the host has requested and the
size that is plugged. `validate` is the gate every live reading passes before anything looks at it.
-/

namespace VirtioMem.Core

open VirtioMem.Word

/-- 1 MiB, the smallest block size. -/
def minBlockSizeBytes : Nat := 2 ^ 20

structure VirtioMemState where
  sizeBytes : Nat
  blockSizeBytes : Nat
  requestedBytes : Nat
  currentBytes : Nat
  deriving DecidableEq, Repr

inductive VirtioMemError where
  | zeroSize
  | blockSizeTooSmall (actual minimum : Nat)
  | blockSizeNotPowerOfTwo (block : Nat)
  | sizeNotAligned (size block : Nat)
  | valueOutsideSize (name : String) (value size : Nat)
  | valueNotAligned (name : String) (value block : Nat)
  deriving DecidableEq, Repr

def VirtioMemError.toString : VirtioMemError → String
  | zeroSize => "virtio-mem device size must be greater than zero"
  | blockSizeTooSmall actual minimum =>
      s!"virtio-mem block size {actual} is smaller than the minimum {minimum} bytes"
  | blockSizeNotPowerOfTwo block => s!"virtio-mem block size must be a power of two: {block} bytes"
  | sizeNotAligned size block =>
      s!"virtio-mem device size {size} is not a multiple of block size {block}"
  | valueOutsideSize name value size =>
      s!"virtio-mem {name} value {value} is outside device size {size}"
  | valueNotAligned name value block =>
      s!"virtio-mem {name} value {value} is not aligned to block size {block}"

namespace VirtioMemState

/-- A requested, plugged or target size against the geometry. -/
def validateStateValue (self : VirtioMemState) (value : Nat) (name : String) :
    Except VirtioMemError Unit :=
  if value > self.sizeBytes then .error (.valueOutsideSize name value self.sizeBytes)
  else if value % self.blockSizeBytes ≠ 0 then
    .error (.valueNotAligned name value self.blockSizeBytes)
  else .ok ()

def validate (self : VirtioMemState) : Except VirtioMemError Unit :=
  if self.sizeBytes = 0 then .error .zeroSize
  else if self.blockSizeBytes < minBlockSizeBytes then
    .error (.blockSizeTooSmall self.blockSizeBytes minBlockSizeBytes)
  else if !isPowerOfTwo self.blockSizeBytes then
    .error (.blockSizeNotPowerOfTwo self.blockSizeBytes)
  else if self.sizeBytes < self.blockSizeBytes ∨ self.sizeBytes % self.blockSizeBytes ≠ 0 then
    .error (.sizeNotAligned self.sizeBytes self.blockSizeBytes)
  else
    match self.validateStateValue self.requestedBytes "requested" with
    | .error error => .error error
    | .ok () => self.validateStateValue self.currentBytes "current"

def validateTarget (self : VirtioMemState) (target : Nat) : Except VirtioMemError Unit :=
  match self.validate with
  | .error error => .error error
  | .ok () => self.validateStateValue target "target"

end VirtioMemState

def bytesPerKib : Nat := 2 ^ 10

/-- Canonical bytes as an exact number of KiB. -/
def bytesToKibibytes (bytes : Nat) : Option Nat :=
  if bytes % bytesPerKib = 0 then some (bytes / bytesPerKib) else none

def maximumTargetBytes (sizeBytes blockSizeBytes : Nat) : Nat :=
  sizeBytes - sizeBytes % max blockSizeBytes 1

/-- The largest target the device can hold. -/
def VirtioMemState.maximumTargetBytes (self : VirtioMemState) : Nat :=
  Core.maximumTargetBytes self.sizeBytes self.blockSizeBytes

theorem bytesToKibibytes_eq_some {bytes kib : Nat} (h : bytesToKibibytes bytes = some kib) :
    kib * bytesPerKib = bytes := by
  unfold bytesToKibibytes at h
  split_ifs at h with hmod
  cases h
  exact Nat.div_mul_cancel (Nat.dvd_of_mod_eq_zero hmod)

/-! ## What a valid state satisfies -/

namespace VirtioMemState

/-- What `validate` has checked, as facts. -/
structure Valid (state : VirtioMemState) : Prop where
  size_pos : 0 < state.sizeBytes
  block_min : minBlockSizeBytes ≤ state.blockSizeBytes
  block_pow : isPowerOfTwo state.blockSizeBytes = true
  block_le : state.blockSizeBytes ≤ state.sizeBytes
  size_mod : state.sizeBytes % state.blockSizeBytes = 0
  requested_le : state.requestedBytes ≤ state.sizeBytes
  requested_mod : state.requestedBytes % state.blockSizeBytes = 0
  current_le : state.currentBytes ≤ state.sizeBytes
  current_mod : state.currentBytes % state.blockSizeBytes = 0

theorem validateStateValue_eq_ok {self : VirtioMemState} {value : Nat} {name : String} :
    self.validateStateValue value name = .ok () ↔
      value ≤ self.sizeBytes ∧ value % self.blockSizeBytes = 0 := by
  unfold validateStateValue
  split_ifs <;> simp_all

/-- **`validate` decides `Valid`.** -/
theorem validate_eq_ok {self : VirtioMemState} : self.validate = .ok () ↔ self.Valid := by
  constructor
  · intro h
    unfold validate at h
    split_ifs at h with hsize hmin hpow halign
    cases hreq : self.validateStateValue self.requestedBytes "requested" with
    | error error => simp [hreq] at h
    | ok _ =>
        rw [hreq] at h
        have hr := validateStateValue_eq_ok.mp hreq
        have hc := validateStateValue_eq_ok.mp h
        simp only [not_or, not_lt, not_not] at halign
        simp only [Bool.not_eq_true', Bool.not_eq_false] at hpow
        exact ⟨Nat.pos_of_ne_zero hsize, by omega, hpow, halign.1, halign.2, hr.1, hr.2, hc.1, hc.2⟩
  · intro h
    have hr : self.validateStateValue self.requestedBytes "requested" = .ok () :=
      validateStateValue_eq_ok.mpr ⟨h.requested_le, h.requested_mod⟩
    have hc : self.validateStateValue self.currentBytes "current" = .ok () :=
      validateStateValue_eq_ok.mpr ⟨h.current_le, h.current_mod⟩
    have h1 : self.sizeBytes ≠ 0 := h.size_pos.ne'
    have h2 : ¬ self.blockSizeBytes < minBlockSizeBytes := not_lt.mpr h.block_min
    have h3 : ¬ (self.sizeBytes < self.blockSizeBytes ∨
        self.sizeBytes % self.blockSizeBytes ≠ 0) := by
      simp [h.block_le, h.size_mod]
    simp only [validate, h1, h2, h3, h.block_pow, if_false, Bool.not_true, Bool.false_eq_true, hr, hc]

theorem Valid.block_pos {self : VirtioMemState} (h : self.Valid) : 0 < self.blockSizeBytes :=
  lt_of_lt_of_le (by decide) h.block_min

end VirtioMemState

end VirtioMem.Core
