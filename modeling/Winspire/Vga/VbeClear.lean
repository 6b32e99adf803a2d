import Winspire.Vga.WideWrites

/-!
# The screen clear of VBE

`vbe_write` clears the screen on a write of ENABLE: as many bytes as the mode has, whose rows and
line length are adjusted to each other but never to the size of the memory.
-/

namespace Winspire.Vga

set_option autoImplicit false

/-- The length of the `memset`, with the registers after the write. -/
def VgaRegs.clearLength (r : VgaRegs) : Word := (r.vbeRegs 2).setWidth 32 * r.vbeLineOffset

/-- ENABLE is written without `VBE_DISPI_NOCLEARMEM`. -/
def VgaRegs.Clears (r : VgaRegs) (offset val : Word) : Prop :=
  offset ≠ 0 ∧ r.vbeIndex = 4 ∧ val.getLsbD 7 = false

instance (r : VgaRegs) (offset val : Word) : Decidable (r.Clears offset val) :=
  inferInstanceAs (Decidable (_ ∧ _ ∧ _))

namespace VgaState
variable (s : VgaState) (offset val : Word)

/-- The bytes `vbe_write` stores from the start of the memory on. -/
def zeros : List Byte :=
  if s.regs.Clears offset val then
    List.replicate (s.regs.vbeWrite s.ramSize offset val).clearLength.toNat 0
  else []

def vbeWrite : VgaState :=
  { s with
    regs := s.regs.vbeWrite s.ramSize offset val
    ram := blit s.ram 0 (s.zeros offset val) }

def ClearsInside : Prop := (s.zeros offset val).length ≤ s.ramSize

end VgaState

namespace VgaRegs
variable (r : VgaRegs) (val : Word)

def alignDown (x : BitVec 16) : Nat := x.toNat / 8 * 8

/-- The depth in bits: 15 counts as 16, and an unknown depth as 8. -/
def depthBits : Nat :=
  match (r.vbeRegs 3).toNat with
  | 4 => 4
  | 15 => 16
  | 16 => 16
  | 24 => 24
  | 32 => 32
  | _ => 8

/-- Rows to clear: a mode that is set has at least one. -/
def clearRows : Nat := if val.getLsbD 0 then max 1 (r.vbeRegs 2).toNat else (r.vbeRegs 2).toNat

/-- Bytes to clear for a row: for a mode that is set, those of the virtual width, which a mode that
was off takes from the resolution. -/
def clearPitch : Nat :=
  if val.getLsbD 0 then
    let xres := max 8 (alignDown (r.vbeRegs 1))
    (if r.vbeEnabled then max xres (alignDown (r.vbeRegs 6)) else xres) * r.depthBits / 8
  else r.vbeLineOffset.toNat

end VgaRegs

/-- The mode to clear, with a length that wraps at 32 bits, fits in the memory. -/
def VgaState.ClearFits (s : VgaState) (offset val : Word) : Prop :=
  s.regs.Clears offset val →
    s.regs.clearRows val * s.regs.clearPitch val % 2 ^ 32 ≤ s.ramSize

section Length
variable {r : VgaRegs} {offset val : Word}

theorem toNat_and_not_low (x : BitVec 16) :
    (x &&& ~~~(7 : BitVec 16)).toNat = VgaRegs.alignDown x := by
  have hsplit : x &&& ~~~(7 : BitVec 16) = x >>> 3 <<< 3 := by
    apply BitVec.eq_of_getLsbD_eq
    intro i hi
    have hseven : (7 : BitVec 16).getLsbD i = decide (i < 3) := by
      interval_cases i <;> rfl
    simp only [BitVec.getLsbD_and, BitVec.getLsbD_not, BitVec.getLsbD_shiftLeft,
      BitVec.getLsbD_ushiftRight, hseven]
    by_cases h : i < 3
    · simp [h]
    · simp [h, hi, show 3 + (i - 3) = i by omega]
  rw [hsplit, BitVec.toNat_shiftLeft, BitVec.toNat_ushiftRight, Nat.shiftRight_eq_div_pow,
    Nat.shiftLeft_eq]
  have hlt := x.isLt
  unfold VgaRegs.alignDown
  omega

theorem vbeDepth_bits (r : VgaRegs) :
    (vbeDepth (r.vbeRegs 3)).1.toNat = r.depthBits ∧ r.depthBits ≤ 32 := by
  unfold vbeDepth VgaRegs.depthBits
  split <;> simp_all

theorem toNat_width (x : BitVec 16) :
    (if x &&& ~~~(7 : BitVec 16) = 0 then 8 else x &&& ~~~(7 : BitVec 16)).toNat =
      max 8 (VgaRegs.alignDown x) := by
  have hx := toNat_and_not_low x
  split
  · rename_i hzero
    rw [hzero] at hx
    rw [← hx]
    rfl
  · rename_i hzero
    have hpos : (x &&& ~~~(7 : BitVec 16)).toNat ≠ 0 := fun h0 => hzero (BitVec.eq_of_toNat_eq h0)
    rw [hx] at hpos ⊢
    unfold VgaRegs.alignDown at *
    omega

theorem toNat_wider (x y : BitVec 16) : (if y < x then x else y).toNat = max x.toNat y.toNat := by
  split
  · rename_i h
    rw [BitVec.lt_def] at h
    omega
  · rename_i h
    rw [BitVec.lt_def] at h
    omega

/-- `vbe_fixup_regs` aligns the widths and leaves at least one row. -/
theorem fixup_mode (h : r.vbeEnabled = true) :
    (r.vbeFixup.vbeRegs 2).toNat = max 1 (r.vbeRegs 2).toNat ∧
      r.vbeFixup.vbeLineOffset.toNat =
        max (max 8 (VgaRegs.alignDown (r.vbeRegs 1))) (VgaRegs.alignDown (r.vbeRegs 6)) *
          r.depthBits / 8 := by
  obtain ⟨hbits, hle⟩ := vbeDepth_bits r
  unfold VgaRegs.vbeFixup
  rw [if_pos h]
  simp only [Function.update_self]
  constructor
  · split
    · rename_i hzero
      rw [hzero]
      rfl
    · rename_i hzero
      have hpos : (r.vbeRegs 2).toNat ≠ 0 := fun h0 => hzero (BitVec.eq_of_toNat_eq h0)
      omega
  · rw [BitVec.toNat_udiv, BitVec.toNat_mul, BitVec.toNat_setWidth, toNat_wider, toNat_width,
      toNat_and_not_low, hbits]
    have hx := (r.vbeRegs 1).isLt
    have hv := (r.vbeRegs 6).isLt
    have hwidth : max (max 8 (VgaRegs.alignDown (r.vbeRegs 1)))
        (VgaRegs.alignDown (r.vbeRegs 6)) < 2 ^ 16 := by
      unfold VgaRegs.alignDown
      omega
    have hmul := Nat.mul_le_mul (Nat.le_of_lt hwidth) hle
    rw [Nat.mod_eq_of_lt (Nat.lt_trans hwidth (by decide)), Nat.mod_eq_of_lt (by omega)]
    rfl

theorem clearLength_update (r : VgaRegs) : r.vbeUpdate.clearLength = r.clearLength := by
  unfold VgaRegs.vbeUpdate
  split <;> rfl

theorem toNat_clearLength (r : VgaRegs) :
    r.clearLength.toNat = (r.vbeRegs 2).toNat * r.vbeLineOffset.toNat % 2 ^ 32 := by
  have hlt := (r.vbeRegs 2).isLt
  unfold VgaRegs.clearLength
  rw [BitVec.toNat_mul, BitVec.toNat_setWidth, Nat.mod_eq_of_lt (Nat.lt_trans hlt (by decide))]

theorem clearLength_on {r' : VgaRegs} (hon : r'.vbeEnabled = true) :
    r'.vbeFixup.vbeUpdate.clearLength.toNat = max 1 (r'.vbeRegs 2).toNat *
      (max (max 8 (VgaRegs.alignDown (r'.vbeRegs 1))) (VgaRegs.alignDown (r'.vbeRegs 6)) *
        r'.depthBits / 8) % 2 ^ 32 := by
  obtain ⟨hrows, hpitch⟩ := fixup_mode hon
  rw [clearLength_update, toNat_clearLength, hrows, hpitch]

theorem clearLength_off {r' : VgaRegs} (hoff : ¬r'.vbeEnabled = true) :
    r'.vbeFixup.vbeUpdate.clearLength.toNat =
      (r'.vbeRegs 2).toNat * r'.vbeLineOffset.toNat % 2 ^ 32 := by
  rw [clearLength_update, toNat_clearLength]
  unfold VgaRegs.vbeFixup
  rw [if_neg hoff]

theorem vbeEnabled_written (r : VgaRegs) (val : Word) :
    VgaRegs.vbeEnabled { r with vbeRegs := Function.update r.vbeRegs 4 (val.setWidth 16) } =
      val.getLsbD 0 := by
  unfold VgaRegs.vbeEnabled
  simp

/-- The length of the clear, from the registers before the write. -/
theorem clearLength_eq (ramSize : Nat) (h : r.Clears offset val) :
    (r.vbeWrite ramSize offset val).clearLength.toNat =
      r.clearRows val * r.clearPitch val % 2 ^ 32 := by
  obtain ⟨hoff, hindex, -⟩ := h
  unfold VgaRegs.vbeWrite VgaRegs.clearRows VgaRegs.clearPitch
  rw [if_neg hoff]
  simp only [hindex]
  by_cases hval : val.getLsbD 0 = true
  · rw [clearLength_on ((vbeEnabled_written _ val).trans hval), if_pos hval, if_pos hval]
    by_cases hon : r.vbeEnabled = true
    · rw [if_neg (fun h => h.2 hon), if_pos hon]
      rfl
    · -- the virtual width is that of the resolution
      have hsame := Nat.max_eq_left (Nat.le_max_right 8 (VgaRegs.alignDown (r.vbeRegs 1)))
      rw [if_pos ⟨hval, hon⟩, if_neg hon, ← hsame]
      rfl
  · rw [clearLength_off (fun h => hval ((vbeEnabled_written _ val).symm.trans h)), if_neg hval,
      if_neg hval, if_neg (fun h => hval h.1)]
    rfl

end Length

namespace VgaState
variable {s : VgaState}

theorem clearsInside_iff (s : VgaState) (offset val : Word) :
    s.ClearsInside offset val ↔ s.ClearFits offset val := by
  unfold ClearsInside ClearFits zeros
  by_cases h : s.regs.Clears offset val
  · rw [if_pos h, List.length_replicate, clearLength_eq s.ramSize h]
    exact ⟨fun hle _ => hle, fun hle => hle h⟩
  · rw [if_neg h]
    exact ⟨fun _ hclears => absurd hclears h, fun _ => Nat.zero_le _⟩

/-- Every clear of a sequence of writes stays in the memory. -/
def AllInside : VgaState → List (Word × Word) → Prop
  | _, [] => True
  | s, w :: ws => s.ClearsInside w.1 w.2 ∧ (s.vbeWrite w.1 w.2).AllInside ws

def AllFit : VgaState → List (Word × Word) → Prop
  | _, [] => True
  | s, w :: ws => s.ClearFits w.1 w.2 ∧ (s.vbeWrite w.1 w.2).AllFit ws

/-- From any state, the clears stay in the memory exactly when each mode that is cleared fits. -/
theorem vbe_clears_inside (s : VgaState) (ws : List (Word × Word)) :
    s.AllInside ws ↔ s.AllFit ws := by
  induction ws generalizing s with
  | nil => exact Iff.rfl
  | cons w ws ih =>
    constructor
    · rintro ⟨hclear, hrest⟩
      exact ⟨(s.clearsInside_iff w.1 w.2).mp hclear, (ih _).mp hrest⟩
    · rintro ⟨hfit, hrest⟩
      exact ⟨(s.clearsInside_iff w.1 w.2).mpr hfit, (ih _).mpr hrest⟩

/-- 640 by 480 pixels of 8 bits, with 256 KiB of video memory. -/
theorem not_allInside_vga : ¬powerOn.vga.AllInside
    [(0, 1), (1, 640), (0, 2), (1, 480), (0, 3), (1, 8), (0, 4), (1, 1)] := by
  rintro ⟨-, -, -, -, -, -, -, hclear, -⟩
  have hfit := (clearsInside_iff _ _ _).mp hclear (by decide)
  exact absurd hfit (by decide)

end VgaState

end Winspire.Vga
