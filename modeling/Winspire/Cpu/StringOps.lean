import Winspire.Cpu.Mmu

/-!
# String instructions of i386.c

The helpers behind MOVS, STOS, LODS, SCAS and CMPS. With REP, MOVS and STOS translate once for a
run of elements in one page. A helper that yields has set `next_ip` back to its instruction and
returns `true`; `slice` is `REP_SLICE`.
-/

namespace Winspire.Cpu

open Faulting

set_option autoImplicit false

/-- `rep` of `cpu_exec1`: 0, 1 and 2. -/
inductive Rep where
  | once
  | repe
  | repne
  deriving DecidableEq, Repr

def lregA (a16 : Bool) (s : CPUI386) (i : Fin 8) : Word :=
  if a16 then (lreg16 s i).setWidth 32 else lreg32 s i

def sregA (a16 : Bool) (i : Fin 8) (v : Word) : M Unit := if a16 then sreg16 i v else sreg32 i v

/-- A register of the operand size, as AL, AX or EAX. -/
def sregW (i : Fin 8) (v : Word) : Width → M Unit
  | .b8 => sreg8 i v
  | .b16 => sreg16 i v
  | .b32 => sreg32 i v

def Width.size (w : Width) : Word := BitVec.ofNat 32 (w.bits / 8)

/-- `xdir8` to `xdir32`. -/
def CPUI386.dir (s : CPUI386) (w : Width) : Word := if hasBit s.flags DF then -w.size else w.size

/-- `reg += dir`. -/
def stepReg (a16 : Bool) (i : Fin 8) (dir : Word) : M Unit := do
  sregA a16 i (lregA a16 (← get) i + dir)

def stdi (w : Width) (a16 : Bool) (ax dir : Word) : M Unit := do
  let meml ← translateW w 2 .es (lregA a16 (← get) 7)
  storeW meml ax w
  stepReg a16 7 dir

def ldsi (w : Width) (a16 : Bool) (seg : SegReg) (dir : Word) : M Word := do
  let meml ← translateW w 1 seg (lregA a16 (← get) 6)
  let ax ← loadW meml w
  stepReg a16 6 dir
  return ax

def lddi (w : Width) (a16 : Bool) (dir : Word) : M Word := do
  let meml ← translateW w 1 .es (lregA a16 (← get) 7)
  let ax ← loadW meml w
  stepReg a16 7 dir
  return ax

def ldsistdi (w : Width) (a16 : Bool) (seg : SegReg) (dir : Word) : M Unit := do
  let meml ← translateW w 1 seg (lregA a16 (← get) 6)
  let ax ← loadW meml w
  let meml ← translateW w 2 .es (lregA a16 (← get) 7)
  storeW meml ax w
  stepReg a16 6 dir
  stepReg a16 7 dir

def ldsilddi (w : Width) (a16 : Bool) (seg : SegReg) (dir : Word) : M (Word × Word) := do
  let meml ← translateW w 1 seg (lregA a16 (← get) 6)
  let ax0 ← loadW meml w
  let meml ← translateW w 1 .es (lregA a16 (← get) 7)
  let ax ← loadW meml w
  stepReg a16 6 dir
  stepReg a16 7 dir
  return (ax0, ax)

def decCx (a16 : Bool) : M Unit := stepReg a16 1 (-1)

def repeatM : Nat → M Unit → M Unit
  | 0, _ => pure ()
  | n + 1, x => do
    x
    repeatM n x

def CPUI386.limitRep (s : CPUI386) (slice count : Nat) : Nat :=
  if s.repYield ∧ slice < count then slice else count

def yieldRep (a16 : Bool) : M Bool := do
  let s ← get
  if s.repYield ∧ lregA a16 s 1 ≠ 0 then
    modify fun s => { s with nextIp := s.ip }
    return true
  else return false

/-- The elements left in the page of an address, in the direction of the string. -/
def pageCount (w : Width) (back : Bool) (addr : Word) : Nat :=
  if back then 1 + (addr &&& 4095).toNat / (w.bits / 8)
  else (4096 - (addr &&& 4095).toNat) / (w.bits / 8)

def CPUI386.normalRamRange (s : CPUI386) (addr len : Word) : Bool :=
  0 < len && addr < BitVec.ofNat 32 s.memSize && len ≤ BitVec.ofNat 32 s.memSize - addr &&
    !inIomem addr && !inIomem (addr + len - 1)

def pstoreW (a v : Word) : Width → M Unit
  | .b8 => pstore8 a (v.setWidth 8)
  | .b16 => pstore16 a (v.setWidth 16)
  | .b32 => pstore32 a v

/-- `memset`, or the loops over `u16` and `u32`. -/
def fillRam (w : Width) (ax : Word) : Nat → Word → M Unit
  | 0, _ => pure ()
  | n + 1, addr => do
    pstoreW addr ax w
    fillRam w ax n (addr + w.size)

def storeRun (w : Width) (ax dir : Word) : Nat → OptAddr → M Unit
  | 0, _ => pure ()
  | n + 1, memld => do
    storeW memld ax w
    storeRun w ax dir n { memld with addr1 := memld.addr1 + dir }

def stosRun (w : Width) (ax dir : Word) (back : Bool) (count : Nat) (memld : OptAddr) : M Unit := do
  let s ← get
  if ¬ back ∧ s.bulkRepStos ∧ s.normalRamRange memld.addr1 (BitVec.ofNat 32 count * w.size) then
    fillRam w ax count memld.addr1
  else storeRun w ax dir count memld

/-- The loop of `STOS_helper2`; no more rounds than elements. -/
def stosLoop (slice : Nat) (w : Width) (a16 : Bool) (ax dir : Word) (back : Bool) : Nat → M Bool
  | 0 => return false
  | fuel + 1 => do
    let s ← get
    let cx := lregA a16 s 1
    if cx = 0 then return false
    else
      let memld ← translateW w 2 .es (lregA a16 s 7)
      if memld.addr1.toNat % (w.bits / 8) ≠ 0 then
        repeatM (s.limitRep slice cx.toNat) do
          stdi w a16 ax dir
          decCx a16
        yieldRep a16
      else
        let count := s.limitRep slice (min cx.toNat (pageCount w back memld.addr1))
        stosRun w ax dir back count memld
        stepReg a16 7 (BitVec.ofNat 32 count * dir)
        sregA a16 1 (cx - BitVec.ofNat 32 count)
        if ← yieldRep a16 then return true
        else stosLoop slice w a16 ax dir back fuel

def stosHelper2 (slice : Nat) (w : Width) (a16 : Bool) : M Bool := do
  let s ← get
  let ax := (lreg32 s 0).setWidth w.bits
  stosLoop slice w a16 (ax.setWidth 32) (s.dir w) (hasBit s.flags DF) (lregA a16 s 1).toNat

def stosHelper (slice : Nat) (w : Width) (a16 : Bool) (rep : Rep) : M Bool := do
  let s ← get
  if rep = .once then
    stdi w a16 (((lreg32 s 0).setWidth w.bits).setWidth 32) (s.dir w)
    return false
  else stosHelper2 slice w a16

def CPUI386.bytesAt (s : CPUI386) (a : Word) (n : Nat) : List Byte :=
  (List.range n).map fun k => s.mem (a.toNat + k)

def memmove (dst src : Word) (n : Nat) : M Unit := do
  let s ← get
  if src.toNat + n ≤ s.memSize ∧ dst.toNat + n ≤ s.memSize then
    modify fun s => { s with
      mem := fun a => if dst.toNat ≤ a ∧ a < dst.toNat + n then s.mem (src.toNat + (a - dst.toNat))
        else s.mem a }
  else stop .wild

/-- The device takes the whole run at once. -/
def CPUI386.offersString (s : CPUI386) (back : Bool) (memls memld len : Word) : Bool :=
  s.cb.iomemWriteString.isSome && inIomem memld && !back && inIomem (memld + len - 1) &&
    (memls ||| 4095) < BitVec.ofNat 32 s.memSize && !inIomem memls && !inIomem (memls ||| 4095)

def iomemWriteString (addr : Word) (buf : List Byte) : M Bool := do
  let s ← get
  match s.cb.iomemWriteString with
  | none => return false
  | some takes =>
    modify fun s => { s with io := s.io ++ [.writeString addr buf] }
    return takes s.io addr buf

def copyRun (w : Width) (dir : Word) : Nat → OptAddr → OptAddr → M Unit
  | 0, _, _ => pure ()
  | n + 1, memls, memld => do
    storeW memld (← loadW memls w) w
    copyRun w dir n { memls with addr1 := memls.addr1 + dir } { memld with addr1 := memld.addr1 + dir }

/-- A run of elements at one pair of translations. -/
def movsRun (w : Width) (dir : Word) (back : Bool) (count : Nat) (memls memld : OptAddr) :
    M Unit := do
  let s ← get
  let bytes := BitVec.ofNat 32 count * w.size
  let taken ←
    if s.offersString back memls.addr1 memld.addr1 bytes then
      iomemWriteString memld.addr1 (s.bytesAt memls.addr1 bytes.toNat)
    else pure false
  if taken then return ()
  else if ¬ back ∧ s.bulkRepRam ∧ s.normalRamRange memls.addr1 bytes ∧
      s.normalRamRange memld.addr1 bytes ∧
      (memld.addr1 ≤ memls.addr1 ∨ memls.addr1 + bytes ≤ memld.addr1) then
    memmove memld.addr1 memls.addr1 bytes.toNat
  else copyRun w dir count memls memld

/-- The loop of `MOVS_helper2`. -/
def movsLoop (slice : Nat) (w : Width) (a16 : Bool) (seg : SegReg) (dir : Word) (back : Bool) :
    Nat → M Bool
  | 0 => return false
  | fuel + 1 => do
    let s ← get
    let cx := lregA a16 s 1
    if cx = 0 then return false
    else
      let memls ← translateW w 1 seg (lregA a16 s 6)
      let memld ← translateW w 2 .es (lregA a16 s 7)
      if memls.addr1.toNat % (w.bits / 8) ≠ 0 ∨ memld.addr1.toNat % (w.bits / 8) ≠ 0 then
        repeatM (s.limitRep slice cx.toNat) do
          ldsistdi w a16 seg dir
          decCx a16
        yieldRep a16
      else
        let count := s.limitRep slice
          (min (min cx.toNat (pageCount w back memls.addr1)) (pageCount w back memld.addr1))
        movsRun w dir back count memls memld
        stepReg a16 6 (BitVec.ofNat 32 count * dir)
        stepReg a16 7 (BitVec.ofNat 32 count * dir)
        sregA a16 1 (cx - BitVec.ofNat 32 count)
        if ← yieldRep a16 then return true
        else movsLoop slice w a16 seg dir back fuel

def movsHelper2 (slice : Nat) (w : Width) (a16 : Bool) (seg : SegReg) : M Bool := do
  let s ← get
  movsLoop slice w a16 seg (s.dir w) (hasBit s.flags DF) (lregA a16 s 1).toNat

def movsHelper (slice : Nat) (w : Width) (a16 : Bool) (seg : SegReg) (rep : Rep) : M Bool := do
  let s ← get
  if rep = .once then
    ldsistdi w a16 seg (s.dir w)
    return false
  else movsHelper2 slice w a16 seg

def lodsOne (w : Width) (a16 : Bool) (seg : SegReg) (dir : Word) : M Unit := do
  let ax ← ldsi w a16 seg dir
  sregW 0 ax w

def lodsHelper (slice : Nat) (w : Width) (a16 : Bool) (seg : SegReg) (rep : Rep) : M Bool := do
  let s ← get
  if rep = .once then
    lodsOne w a16 seg (s.dir w)
    return false
  else
    repeatM (s.limitRep slice (lregA a16 s 1).toNat) do
      lodsOne w a16 seg (s.dir w)
      decCx a16
    yieldRep a16

/-- The flags of `ax0 - ax`. -/
def CPUI386.compared (s : CPUI386) (w : Width) (ax0 ax : Word) : CPUI386 :=
  let src1 := sext w ax0
  let src2 := sext w ax
  { s with cc := { s.cc with
    op := .sub, src1 := src1, src2 := src2, dst := sext w (src1 - src2)
    mask := CF ||| PF ||| AF ||| ZF ||| SF ||| OF } }

/-- REPNE stops at an equal pair, REP at a different one. -/
def Rep.stops (rep : Rep) (zf : Bool) : Bool := zf && rep == .repne || !zf && rep == .repe

/-- The loop of `SCAS_helper` and `CMPS_helper`; `true` if it stopped at a pair. -/
def compareLoop (w : Width) (a16 : Bool) (rep : Rep) (pair : M (Word × Word)) : Nat → M Bool
  | 0 => return false
  | count + 1 => do
    let s ← get
    if lregA a16 s 1 = 0 then return false
    else
      let ax ← pair
      decCx a16
      modify fun s => s.compared w ax.1 ax.2
      let s ← get
      if rep.stops s.getZF then return true
      else compareLoop w a16 rep pair count

def compareHelper (slice : Nat) (w : Width) (a16 : Bool) (rep : Rep) (pair : M (Word × Word)) :
    M Bool := do
  let s ← get
  if rep = .once then
    let ax ← pair
    modify fun s => s.compared w ax.1 ax.2
    return false
  else
    let stopped ← compareLoop w a16 rep pair (s.limitRep slice (lregA a16 s 1).toNat)
    if stopped then return false
    else yieldRep a16

def scasPair (w : Width) (a16 : Bool) (ax0 dir : Word) : M (Word × Word) := do
  let ax ← lddi w a16 dir
  return (ax0, ax)

def scasHelper (slice : Nat) (w : Width) (a16 : Bool) (rep : Rep) : M Bool := do
  let s ← get
  let ax0 := ((lreg32 s 0).setWidth w.bits).setWidth 32
  compareHelper slice w a16 rep (scasPair w a16 ax0 (s.dir w))

def cmpsHelper (slice : Nat) (w : Width) (a16 : Bool) (seg : SegReg) (rep : Rep) : M Bool := do
  let s ← get
  compareHelper slice w a16 rep (ldsilddi w a16 seg (s.dir w))

end Winspire.Cpu
