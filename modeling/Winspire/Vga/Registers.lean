import Mathlib.Data.BitVec
import Mathlib.Logic.Function.Basic
import Mathlib.Tactic.Cases

/-!
# The registers of the display adapter

The sequencer, graphics and CRT controller registers of `vga.c`, with the VBE extension, as the
ports write them. What only the renderers read is left out.
-/

namespace Winspire.Vga

set_option autoImplicit false

abbrev Byte := BitVec 8
abbrev Word := BitVec 32

structure VgaRegs where
  srIndex : Nat
  sr : Nat → Byte
  grIndex : Nat
  gr : Nat → Byte
  crIndex : Nat
  cr : Nat → Byte
  msr : Byte
  bankOffset : Word
  vbeIndex : Nat
  vbeRegs : Nat → BitVec 16
  vbeStartAddr : Word
  vbeLineOffset : Word

/-- `sequ` behind `sr[0]`. -/
def sequ : List Byte := [0x03, 0x00, 0x03, 0x00, 0x02]

def grdc : List Byte := [0x00, 0x00, 0x00, 0x00, 0x00, 0x10, 0x0e, 0x0f, 0xff]

def crtc : List Byte :=
  [0x5f, 0x4f, 0x50, 0x82, 0x55, 0x81, 0xbf, 0x1f,
   0x00, 0x4f, 0x0d, 0x0e, 0x00, 0x00, 0x00, 0x00,
   0x9c, 0x8e, 0x8f, 0x28, 0x1f, 0x96, 0xb9, 0xa3,
   0xff]

/-- `vga_init` and `vga_initmode`. -/
def VgaRegs.init (ramSize : Nat) : VgaRegs where
  srIndex := 0
  sr := fun i => sequ.getD i 0
  grIndex := 0
  gr := fun i => grdc.getD i 0
  crIndex := 0
  cr := fun i => crtc.getD i 0
  msr := 0x67
  bankOffset := 0
  vbeIndex := 0
  vbeRegs := fun i =>
    if i = 0 then 0xB0C5 else if i = 10 then BitVec.ofNat 16 (ramSize / 65536) else 0
  vbeStartAddr := 0
  vbeLineOffset := 0

def srMask : List Byte := [0x03, 0x3d, 0x0f, 0x3f, 0x0e, 0x00, 0x00, 0xff]

def grMask : List Byte :=
  [0x0f, 0x0f, 0x0f, 0x1f, 0x03, 0x7b, 0x0f, 0x0f, 0xff,
   0x00, 0x00, 0x00, 0x00, 0x00, 0x00, 0x00]

/-- CR0 to CR7 are protected by bit 7 of CR11, apart from bit 4 of CR7. -/
def VgaRegs.writeCr (val : Word) (r : VgaRegs) : VgaRegs :=
  if (r.cr 0x11).getLsbD 7 ∧ r.crIndex ≤ 7 then
    if r.crIndex = 7 then
      { r with
        cr := Function.update r.cr 7 (r.cr 7 &&& ~~~0x10 ||| (val &&& 0x10).setWidth 8) }
    else r
  else { r with cr := Function.update r.cr r.crIndex (val.setWidth 8) }

def VgaRegs.ioportWrite (addr : Nat) (val : Word) (r : VgaRegs) : VgaRegs :=
  let color := r.msr.getLsbD 0
  if (0x3b0 ≤ addr ∧ addr ≤ 0x3bf ∧ color) ∨ (0x3d0 ≤ addr ∧ addr ≤ 0x3df ∧ ¬color) then r
  else match addr with
    | 0x3c2 => { r with msr := (val &&& ~~~0x10).setWidth 8 }
    | 0x3c4 => { r with srIndex := (val &&& 7).toNat }
    | 0x3c5 =>
      { r with
        sr := Function.update r.sr r.srIndex (val.setWidth 8 &&& srMask.getD r.srIndex 0) }
    | 0x3ce => { r with grIndex := (val &&& 0x0f).toNat }
    | 0x3cf =>
      { r with
        gr := Function.update r.gr r.grIndex (val.setWidth 8 &&& grMask.getD r.grIndex 0) }
    | 0x3b4 => { r with crIndex := (val &&& 0xff).toNat }
    | 0x3d4 => { r with crIndex := (val &&& 0xff).toNat }
    | 0x3b5 => r.writeCr val
    | 0x3d5 => r.writeCr val
    | _ => r

def VgaRegs.vbeEnabled (r : VgaRegs) : Bool := (r.vbeRegs 4).getLsbD 0

/-- The depth `vbe_fixup_regs` uses, and the depth it stores. -/
def vbeDepth (bpp : BitVec 16) : Word × BitVec 16 :=
  match bpp.toNat with
  | 4 => (4, bpp)
  | 8 => (8, bpp)
  | 16 => (16, bpp)
  | 24 => (24, bpp)
  | 32 => (32, bpp)
  | 15 => (16, bpp)
  | _ => (8, 8)

def VgaRegs.vbeFixup (r : VgaRegs) : VgaRegs :=
  if r.vbeEnabled then
    let (bits, bpp) := vbeDepth (r.vbeRegs 3)
    let xres : BitVec 16 := r.vbeRegs 1 &&& ~~~7
    let xres := if xres = 0 then 8 else xres
    let virtWidth : BitVec 16 := r.vbeRegs 6 &&& ~~~7
    let virtWidth := if virtWidth < xres then xres else virtWidth
    let yres := if r.vbeRegs 2 = 0 then 1 else r.vbeRegs 2
    let linelength := virtWidth.setWidth 32 * bits / 8
    let offset :=
      (r.vbeRegs 8).setWidth 32 * bits / 8 + (r.vbeRegs 9).setWidth 32 * linelength
    { r with
      vbeRegs := Function.update (Function.update (Function.update (Function.update
        r.vbeRegs 3 bpp) 1 xres) 6 virtWidth) 2 yres
      vbeLineOffset := linelength
      vbeStartAddr := offset / 4 }
  else r

/-- `vbe_update_vgaregs`: graphics, memory map 1, and chain 4 with all planes above 4 bits. -/
def VgaRegs.vbeUpdate (r : VgaRegs) : VgaRegs :=
  if r.vbeEnabled then
    let h : Word := (r.vbeRegs 2).setWidth 32 - 1
    let high : Byte := (h >>> 7 &&& 0x02 ||| h >>> 3 &&& 0x40).setWidth 8
    let overflow := r.cr 7 &&& ~~~(0x42 : Byte) ||| high ||| 0x10
    let deep := r.vbeRegs 3 ≠ 4
    let sr := if deep then
        Function.update (Function.update r.sr 4 (r.sr 4 ||| 0x08)) 2 (r.sr 2 ||| 0x0f)
      else Function.update r.sr 1 (r.sr 1 &&& ~~~0x08)
    let cr := Function.update (Function.update (Function.update (Function.update (Function.update
      (Function.update (Function.update r.cr 0x17 (r.cr 0x17 ||| 3))
        0x13 (r.vbeLineOffset >>> 3 |>.setWidth 8))
        0x01 (((r.vbeRegs 1 >>> 3) - 1).setWidth 8))
        0x12 (h.setWidth 8))
        0x07 overflow)
        0x18 0xff)
        0x09 ((r.cr 9 ||| 0x40) &&& ~~~0x9f)
    { r with
      gr := Function.update (Function.update r.gr 6 (r.gr 6 &&& ~~~0x0c ||| 0x04 ||| 0x01))
        5 (r.gr 5 &&& ~~~0x60 ||| (if deep then 0x40 else 0))
      sr := sr
      cr := cr }
  else r

/-- `vbe_write`, without the screen clear. -/
def VgaRegs.vbeWrite (ramSize : Nat) (offset val : Word) (r : VgaRegs) : VgaRegs :=
  if offset = 0 then { r with vbeIndex := (val.setWidth 16).toNat }
  else match r.vbeIndex with
    | 0 =>
      if 0xB0C0 ≤ val ∧ val ≤ 0xB0C5 then
        { r with vbeRegs := Function.update r.vbeRegs 0 (val.setWidth 16) }
      else r
    | 4 =>
      let r :=
        if val.getLsbD 0 ∧ ¬r.vbeEnabled then
          { r with
            vbeRegs := Function.update (Function.update (Function.update (Function.update
              r.vbeRegs 6 (r.vbeRegs 1)) 7 (r.vbeRegs 2)) 8 0) 9 0 }
        else { r with bankOffset := 0 }
      ({ r with vbeRegs := Function.update r.vbeRegs 4 (val.setWidth 16) }).vbeFixup.vbeUpdate
    | 5 =>
      let val := val &&& (BitVec.ofNat 32 (ramSize / 65536) - 1)
      { r with
        vbeRegs := Function.update r.vbeRegs 5 (val.setWidth 16)
        bankOffset := val <<< 16 }
    | i =>
      if i = 1 ∨ i = 2 ∨ i = 3 ∨ i = 6 ∨ i = 7 ∨ i = 8 ∨ i = 9 then
        ({ r with vbeRegs := Function.update r.vbeRegs i (val.setWidth 16) }).vbeFixup.vbeUpdate
      else r

inductive Reached (ramSize : Nat) : VgaRegs → Prop where
  | init : Reached ramSize (.init ramSize)
  | ioport {r : VgaRegs} (addr : Nat) (val : Word) :
      Reached ramSize r → Reached ramSize (r.ioportWrite addr val)
  | vbe {r : VgaRegs} (offset val : Word) :
      Reached ramSize r → Reached ramSize (r.vbeWrite ramSize offset val)

def FourPlanes (r : VgaRegs) : Prop := r.sr 2 &&& 0x0f = r.sr 2

namespace FourPlanes

variable {r r' : VgaRegs}

theorem of_sr (h : FourPlanes r) (hsr : r'.sr = r.sr) : FourPlanes r' := by
  unfold FourPlanes
  rw [hsr]
  exact h

theorem update (h : FourPlanes r) (i : Nat) (val : Byte) :
    FourPlanes { r with sr := Function.update r.sr i (val &&& srMask.getD i 0) } := by
  unfold FourPlanes
  by_cases hi : i = 2
  · subst hi
    simp only [Function.update_self]
    rw [BitVec.and_assoc]
    rfl
  · simp only [Function.update_of_ne (Ne.symm hi)]
    exact h

theorem ioportWrite (h : FourPlanes r) (addr : Nat) (val : Word) :
    FourPlanes (r.ioportWrite addr val) := by
  have hcr : (r.writeCr val).sr = r.sr := by
    unfold VgaRegs.writeCr
    repeat' split
    all_goals rfl
  unfold VgaRegs.ioportWrite
  simp only []
  split
  · exact h
  · split
    · exact h.of_sr rfl
    · exact h.of_sr rfl
    · exact h.update _ _
    · exact h.of_sr rfl
    · exact h.of_sr rfl
    · exact h.of_sr rfl
    · exact h.of_sr rfl
    · exact h.of_sr hcr
    · exact h.of_sr hcr
    · exact h

theorem vbeFixup (h : FourPlanes r) : FourPlanes r.vbeFixup := by
  apply h.of_sr
  unfold VgaRegs.vbeFixup
  split <;> rfl

theorem vbeUpdate (h : FourPlanes r) : FourPlanes r.vbeUpdate := by
  have hall : (r.sr 2 ||| 0x0f) &&& 0x0f = r.sr 2 ||| 0x0f := by
    rw [BitVec.and_or_distrib_right, h, BitVec.and_self]
  unfold VgaRegs.vbeUpdate
  split
  · unfold FourPlanes
    simp only []
    split
    · rw [Function.update_self]
      exact hall
    · rw [Function.update_of_ne (by omega)]
      exact h
  · exact h

theorem vbeWrite (h : FourPlanes r) (n : Nat) (offset val : Word) :
    FourPlanes (r.vbeWrite n offset val) := by
  unfold VgaRegs.vbeWrite
  simp only []
  split
  · exact h.of_sr rfl
  · split
    · split
      · exact h.of_sr rfl
      · exact h
    · apply vbeUpdate
      apply vbeFixup
      split <;> exact h.of_sr rfl
    · exact h.of_sr rfl
    · split
      · apply vbeUpdate
        apply vbeFixup
        exact h.of_sr rfl
      · exact h

end FourPlanes

theorem Reached.fourPlanes {n : Nat} {r : VgaRegs} (h : Reached n r) : FourPlanes r := by
  induction h with
  | init =>
    have hsr : (VgaRegs.init n).sr 2 = 0x03 := rfl
    unfold FourPlanes
    rw [hsr]
    rfl
  | ioport addr val _ ih => exact ih.ioportWrite addr val
  | vbe offset val _ ih => exact ih.vbeWrite n offset val

end Winspire.Vga
