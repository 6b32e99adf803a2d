import Winspire.Cpu.Mmu

/-!
# Segment registers of i386.c

Loading a segment register from a selector, and the flat segments of SYSENTER and SYSEXIT.
-/

namespace Winspire.Cpu

open Faulting

set_option autoImplicit false

/-- `SEG_D_BIT` and `SEG_B_BIT`. -/
def segBig : Word := 1 <<< 14

/-- `TRY1`: a fault where none may be is fatal. -/
def try1 {α : Type} (x : M α) : M α := x.catchFault (stop .aborted)

def CPUI386.descTable (s : CPUI386) (sel : Word) : DescTable :=
  if hasBit sel 4 then ⟨(s.seg .ldt).base, (s.seg .ldt).limit⟩ else s.gdt

/-- The offset of a descriptor, checked against its table's limit. -/
def descAddr (sel : Word) : M Word := do
  let s ← get
  let sel := sel &&& 0xffff
  let off := sel &&& ~~~7
  let table := s.descTable sel
  onlyIf (table.limit < off + 7) (throwEx exGP (sel &&& ~~~3))
  return table.base + off

/-- `read_desc` without its first word. -/
def readDesc2 (sel : Word) : M Word := do
  let addr ← descAddr sel
  load32 (← translateLaddr 1 (addr + 4) 4 0)

def readDesc (sel : Word) : M (Word × Word) := do
  let addr ← descAddr sel
  let w1 ← load32 (← translateLaddr 1 addr 4 0)
  let w2 ← load32 (← translateLaddr 1 (addr + 4) 4 0)
  return (w1, w2)

/-- The cached descriptor of a segment register. -/
def Segment.ofDesc (sel w1 w2 : Word) : Segment :=
  let limit := (w2 &&& 0xf0000) ||| (w1 &&& 0xffff)
  { sel := sel
    base := (w1 >>> 16) ||| ((w2 &&& 0xff) <<< 16) ||| (w2 &&& 0xff000000)
    limit := if hasBit w2 0x00800000 then (limit <<< 12) ||| 0xfff else limit
    flags := (w2 >>> 8) &&& 0xffff }

def Segment.spMask (d : Segment) : Word := if hasBit d.flags segBig then 0xffffffff else 0xffff

/-- A segment of real or V86 mode. -/
def Segment.real (sel : Word) : Segment :=
  { sel := sel, base := sel <<< 4, limit := 0xffff, flags := 0 }

def CPUI386.loadReal (s : CPUI386) (r : SegReg) (sel : Word) : CPUI386 :=
  let s' := s.setSeg r (Segment.real sel)
  match r with
  | .cs => { s' with cpl := if hasBit s.flags VM then 3 else 0, code16 := true }
  | .ss => { s' with spMask := 0xffff }
  | _ => s'

def CPUI386.loadDesc (s : CPUI386) (r : SegReg) (sel w1 w2 : Word) : CPUI386 :=
  let d := Segment.ofDesc sel w1 w2
  let s' := s.setSeg r d
  match r with
  | .cs => { s' with cpl := (sel &&& 3).toNat, code16 := !hasBit d.flags segBig }
  | .ss => { s' with spMask := d.spMask }
  | _ => s'

def SegReg.isData : SegReg → Bool
  | .ds | .es | .fs | .gs => true
  | _ => false

/-- The checks of `set_seg` on a descriptor: only data segments must be segments, and all must be
present. -/
def checkDesc (r : SegReg) (sel w2 : Word) : M Unit :=
  onlyIf (sel &&& ~~~3 ≠ 0) do
    onlyIf (r.isData = true ∧ hasBit w2 (1 <<< 12) = false) (throwEx exGP (sel &&& ~~~3))
    onlyIf (hasBit w2 (1 <<< 15) = false)
      (throwEx (if r = .ss then exSS else exNP) (sel &&& ~~~3))

def setSeg (r : SegReg) (sel : Word) : M Unit := do
  let s ← get
  let sel := sel &&& 0xffff
  if ¬ hasBit s.cr0 1 ∨ hasBit s.flags VM then modify fun s => s.loadReal r sel
  else
    let w ← readDesc sel
    checkDesc r sel w.2
    modify fun s => s.loadDesc r sel w.1 w.2

/-- The flat code and stack segments of privilege `pl`. -/
def CPUI386.sysenterSegs (s : CPUI386) (pl : Nat) (cs : Word) : CPUI386 :=
  let pl' := BitVec.ofNat 32 pl
  let code : Segment := {
    sel := (cs &&& 0xfffc) ||| pl', base := 0, limit := 0xffffffff
    flags := segBig ||| 0x5b ||| (pl' <<< 5) }
  let stack : Segment := {
    sel := ((cs + 8) &&& 0xfffc) ||| pl', base := 0, limit := 0xffffffff
    flags := segBig ||| 0x53 ||| (pl' <<< 5) }
  let s' := (s.setSeg .cs code).setSeg .ss stack
  { s' with cpl := pl, code16 := false, spMask := 0xffffffff }

def sysenter : M Unit := do
  let s ← get
  onlyIf (¬ hasBit s.cr0 1 ∨ s.sysenter.cs &&& ~~~3 = 0) (throwEx exGP 0)
  modify fun s => { s with flags := s.flags &&& ~~~(VM ||| IF) }
  modify fun s => s.sysenterSegs 0 s.sysenter.cs
  modify fun s => { s.setGpr 4 s.sysenter.esp with nextIp := s.sysenter.eip }

def sysexit : M Unit := do
  let s ← get
  onlyIf (¬ hasBit s.cr0 1 ∨ s.sysenter.cs &&& ~~~3 = 0 ∨ s.cpl ≠ 0) (throwEx exGP 0)
  modify fun s => s.sysenterSegs 3 (s.sysenter.cs + 16)
  modify fun s => { s.setGpr 4 (s.gpr 1) with nextIp := s.gpr 2 }

end Winspire.Cpu
