import Winspire.Cpu.State

/-!
# Address translation and memory operands of i386.c

The build with `TINY386_ARM_FAST`, where a table of read and a table of write translations stand
before the TLB. A slot is free when its page number is `-1`.
-/

namespace Winspire.Cpu

open Faulting

set_option autoImplicit false

def cr0PG : Word := 0x80000000
def cr0WP : Word := 0x10000

/-- `-1`, the page number of a free slot. -/
def noPage : Word := 0xffffffff

/-- The page offset and the page frame of an address. -/
def pageMask : Word := 0xfffff000

def CPUI386.tlbClear (s : CPUI386) : CPUI386 :=
  { s with
    tlb := fun i => { s.tlb i with lpgno := noPage }
    ifetch := { s.ifetch with laddr := noPage, paddr := 0 }
    dtlbRead := fun i => { s.dtlbRead i with lpgno := noPage }
    dtlbWrite := fun i => { s.dtlbWrite i with lpgno := noPage, ppte := none, dirty := false } }

def CPUI386.reset (s : CPUI386) : CPUI386 :=
  let noSeg : Segment := ⟨0, 0, 0, 0⟩
  CPUI386.tlbClear { s with
    gpr := fun _ => 0
    flags := 0x2
    cpl := 0
    code16 := true
    spMask := 0xffff
    halt := false
    seg := fun r => match r with
      | .cs => { noSeg with sel := 0xf000, base := 0xf0000, flags := 1 <<< 22 }
      | .ss => { noSeg with flags := 1 <<< 22 }
      | _ => noSeg
    ip := 0xfff0
    nextIp := 0xfff0
    idt := ⟨0, 0x3ff⟩
    gdt := ⟨0, 0⟩
    cr0 := if s.fpu then 0x10 else 0
    cr2 := 0
    cr3 := 0
    dr := fun _ => 0
    cc := { s.cc with mask := 0 }
    sysenter := ⟨0, 0, 0⟩ }

/-- What `malloc` leaves undefined is zero here; the callbacks are set later. -/
def cpui386New (gen : Gen) (mem : Nat → Byte) (memSize : Nat) (bulkRam bulkStos : Bool) :
    CPUI386 :=
  CPUI386.reset {
    flags := 0
    cc := ⟨.adc, 0, 0, 0, 0, 0⟩
    gpr := fun _ => 0
    ip := 0
    nextIp := 0
    gen := gen
    cpl := 0
    code16 := false
    spMask := 0
    halt := false
    fpu := false
    seg := fun _ => ⟨0, 0, 0, 0⟩
    idt := ⟨0, 0⟩
    gdt := ⟨0, 0⟩
    cr0 := 0
    cr2 := 0
    cr3 := 0
    dr := fun _ => 0
    ifetch := ⟨0, 0, 0⟩
    dtlbRead := fun _ => ⟨0, 0, false⟩
    dtlbWrite := fun _ => ⟨0, 0, none, false, false⟩
    bulkRepRam := bulkRam
    bulkRepStos := bulkStos
    repYield := gen == .i386 || gen == .i486 || bulkRam || bulkStos
    tlb := fun _ => ⟨0, 0, ⟨false, 0⟩, 0⟩
    mem := mem
    memSize := memSize
    excno := 0
    excerr := 0
    intr := false
    cb := ⟨fun _ => none, fun _ => false, none⟩
    io := []
    sysenter := ⟨0, 0, 0⟩ }

/-- MOV CR0, from the value to the register. -/
def CPUI386.movCr0 (s : CPUI386) (v : Word) : CPUI386 :=
  let s' := if hasBit (v ^^^ s.cr0) (cr0PG ||| cr0WP ||| 1) then s.tlbClear else s
  { s' with cr0 := if s.fpu then v ||| 0x10 else v }

/-- Indexed by `wp != 0`, `(pte >> 1) & 3`, `cpl > 0` and `rwm > 1`; an access with 1 is denied. -/
def pteLookup : List (List (List (List Nat))) :=
  [[[[0, 0], [1, 1]],
    [[0, 0], [1, 1]],
    [[0, 0], [0, 1]],
    [[0, 0], [0, 0]]],
   [[[0, 1], [1, 1]],
    [[0, 0], [1, 1]],
    [[0, 1], [0, 1]],
    [[0, 0], [0, 0]]]]

def PteClass.denies (c : PteClass) (user write : Bool) : Bool :=
  ((((pteLookup.getD c.wp.toNat []).getD c.bits.toNat []).getD user.toNat []).getD
    write.toNat 0) != 0

/-- Set bits of the byte at `a`, as for accessed and dirty marks. -/
def orMem (a : Word) (b : Byte) : M Unit := do
  let v ← pload8 a
  pstore8 a (v ||| b)

def accessed : Byte := 0x20
def dirty : Byte := 0x40

/-- Fill the slot of `lpgno` from the page tables; `false` if the page is not present. -/
def tlbRefill (lpgno : Word) : M Bool := do
  let s ← get
  let baseAddr := s.cr3 &&& pageMask
  let i := lpgno >>> 10
  let j := lpgno &&& 1023
  let pde ← pload32 (baseAddr + i * 4)
  if ¬ hasBit pde 1 then return false
  else
    orMem (baseAddr + i * 4) accessed
    let baseAddr2 := pde &&& pageMask
    let pte ← pload32 (baseAddr2 + j * 4)
    if ¬ hasBit pte 1 then return false
    else
      orMem (baseAddr2 + j * 4) accessed
      let pte' := pte &&& ((pde &&& 7) ||| 0xfffffff8)
      modify fun s => { s with
        tlb := Function.update s.tlb (lpgno.toNat % tlbSize)
          { lpgno := lpgno
            xaddr := (pte &&& pageMask) ^^^ (lpgno <<< 12)
            pteLookup := { wp := hasBit s.cr0 cr0WP, bits := (pte' >>> 1).setWidth 2 }
            ppte := baseAddr2 + j * 4 } }
      return true

def markPteDirty (ppte : Option Word) : M Unit :=
  match ppte with
  | none => pure ()
  | some a => do
    let v ← pload8 a
    if v &&& dirty = 0 then pstore8 a (v ||| dirty) else pure ()

/-- The page fault of an access; `prot` when the page was present. -/
def pageFault (rwm : Nat) (laddr : Word) (cpl : Nat) (prot : Bool) : M Unit := do
  modify fun s => { s with
    cr2 := laddr
    excno := exPF
    excerr := (if prot then 1 else 0) ||| (if rwm.testBit 1 then 2 else 0) |||
      (if cpl ≠ 0 then 4 else 0) }
  fault

def CPUI386.freeTlb (s : CPUI386) (lpgno : Word) : CPUI386 :=
  let slot := lpgno.toNat % tlbSize
  { s with tlb := Function.update s.tlb slot { s.tlb slot with lpgno := noPage } }

/-- The TLB slot of a page, filled if need be. -/
def tlbEntry (rwm : Nat) (lpgno laddr : Word) (cpl : Nat) : M TlbEntry := do
  let s ← get
  onlyIf ((s.tlb (lpgno.toNat % tlbSize)).lpgno ≠ lpgno) do
    let filled ← tlbRefill lpgno
    onlyIf (¬ filled) (pageFault rwm laddr cpl false)
  gets fun s => s.tlb (lpgno.toNat % tlbSize)

def translateLpgno (rwm : Nat) (lpgno laddr : Word) (cpl : Nat) : M Word := do
  let ent ← tlbEntry rwm lpgno laddr cpl
  onlyIf (ent.pteLookup.denies (0 < cpl) (1 < rwm)) do
    modify fun s => s.freeTlb lpgno
    pageFault rwm laddr cpl true
  onlyIf (rwm.testBit 1) (markPteDirty (some ent.ppte))
  return ent.xaddr ^^^ laddr

/-- A permission fault also frees the fast slots of the page. -/
def CPUI386.freeDtlb (s : CPUI386) (lpgno : Word) : CPUI386 :=
  let slot := lpgno.toNat % dtlbFastSlots
  { s with
    dtlbRead :=
      if (s.dtlbRead slot).lpgno = lpgno then
        Function.update s.dtlbRead slot { s.dtlbRead slot with lpgno := noPage }
      else s.dtlbRead
    dtlbWrite :=
      if (s.dtlbWrite slot).lpgno = lpgno then
        Function.update s.dtlbWrite slot { s.dtlbWrite slot with lpgno := noPage, dirty := false }
      else s.dtlbWrite }

def CPUI386.fillDtlbRead (s : CPUI386) (lpgno xaddr : Word) (cplKey : Bool) : CPUI386 :=
  let slot := lpgno.toNat % dtlbFastSlots
  { s with dtlbRead := Function.update s.dtlbRead slot ⟨lpgno, xaddr, cplKey⟩ }

def CPUI386.fillDtlbWrite (s : CPUI386) (lpgno xaddr ppte : Word) (cplKey : Bool) : CPUI386 :=
  let slot := lpgno.toNat % dtlbFastSlots
  { s with dtlbWrite := Function.update s.dtlbWrite slot ⟨lpgno, xaddr, some ppte, true, cplKey⟩ }

/-- The part of `translate_lpgno_fast` behind its tables. -/
def translateLpgnoFill (rwm : Nat) (lpgno laddr : Word) (cpl : Nat) : M Word := do
  let cplKey := decide (0 < cpl)
  let ent ← tlbEntry rwm lpgno laddr cpl
  onlyIf (ent.pteLookup.denies cplKey (1 < rwm)) do
    modify fun s => (s.freeTlb lpgno).freeDtlb lpgno
    pageFault rwm laddr cpl true
  if rwm.testBit 1 then do
    markPteDirty (some ent.ppte)
    modify fun s => s.fillDtlbWrite lpgno ent.xaddr ent.ppte cplKey
    return ent.xaddr ^^^ laddr
  else do
    modify fun s => s.fillDtlbRead lpgno ent.xaddr cplKey
    return ent.xaddr ^^^ laddr

def translateLpgnoFast (rwm : Nat) (lpgno laddr : Word) (cpl : Nat) : M Word := do
  let s ← get
  let slot := lpgno.toNat % dtlbFastSlots
  let cplKey := decide (0 < cpl)
  let r := s.dtlbRead slot
  let w := s.dtlbWrite slot
  if rwm = 1 ∧ r.lpgno = lpgno ∧ r.cpl = cplKey then return r.xaddr ^^^ laddr
  else if rwm = 1 ∧ w.lpgno = lpgno ∧ w.cpl = cplKey then return w.xaddr ^^^ laddr
  else if rwm = 2 ∧ w.lpgno = lpgno ∧ w.cpl = cplKey then
    onlyIf (¬ w.dirty) do
      markPteDirty w.ppte
      modify fun s => { s with
        dtlbWrite := Function.update s.dtlbWrite slot { s.dtlbWrite slot with dirty := true } }
    return w.xaddr ^^^ laddr
  else translateLpgnoFill rwm lpgno laddr cpl

/-- `addr2` is set when the operand reaches into a second page. -/
structure OptAddr where
  addr1 : Word
  addr2 : Option Word
  deriving DecidableEq, Repr

def translateLaddr (rwm : Nat) (laddr : Word) (size cpl : Nat) : M OptAddr := do
  let s ← get
  if hasBit s.cr0 cr0PG then
    let lpgno := laddr >>> 12
    let addr1 ← translateLpgnoFast rwm lpgno laddr cpl
    if 0x1000 - size < (laddr &&& 0xfff).toNat then
      let addr2 ← translateLpgnoFast rwm (lpgno + 1) ((lpgno + 1) <<< 12) cpl
      return ⟨addr1, some addr2⟩
    else return ⟨addr1, none⟩
  else return ⟨laddr, none⟩

def segcheck (seg : SegReg) : M Unit := do
  let s ← get
  onlyIf (hasBit s.cr0 1 ∧ (s.seg seg).limit = 0 ∧ (s.seg seg).sel &&& ~~~3 = 0)
    (throwEx exGP 0)

def translate (rwm : Nat) (seg : SegReg) (addr : Word) (size cpl : Nat) : M OptAddr := do
  let s ← get
  segcheck seg
  translateLaddr rwm ((s.seg seg).base + addr) size cpl

/-- The translation of instruction fetches: one byte, past the fast tables. -/
def translate8r (seg : SegReg) (addr : Word) : M OptAddr := do
  let s ← get
  let laddr := (s.seg seg).base + addr
  segcheck seg
  if hasBit s.cr0 cr0PG then
    let lpgno := laddr >>> 12
    let ent ← tlbEntry 1 lpgno laddr s.cpl
    onlyIf (ent.pteLookup.denies (0 < s.cpl) false) do
      modify fun s => s.freeTlb lpgno
      pageFault 1 laddr s.cpl true
    return ⟨ent.xaddr ^^^ laddr, none⟩
  else return ⟨laddr, none⟩

def translate8 (rwm : Nat) (seg : SegReg) (addr : Word) : M OptAddr := do
  translate rwm seg addr 1 (← get).cpl

def translate16 (rwm : Nat) (seg : SegReg) (addr : Word) : M OptAddr := do
  translate rwm seg addr 2 (← get).cpl

def translate32 (rwm : Nat) (seg : SegReg) (addr : Word) : M OptAddr := do
  translate rwm seg addr 4 (← get).cpl

def inIomem (addr : Word) : Bool :=
  if addr < 0xa0000 then false else addr < 0xc0000 || 0xe0000000 ≤ addr

def mapBiosAlias (addr : Word) : Word :=
  if 0xfffe0000 ≤ addr then addr &&& 0x000fffff else addr

/-- The read of a device, when its callback is set and the address is a device's. -/
def CPUI386.iomemReader (s : CPUI386) (w : Width) (addr : Word) :
    Option (List IoEvent → Word → Word) :=
  if inIomem addr then s.cb.iomemRead w else none

def iomemRead (w : Width) (read : List IoEvent → Word → Word) (addr : Word) : M Word := do
  let s ← get
  modify fun s => { s with io := s.io ++ [.read w addr] }
  return read s.io addr

def CPUI386.iomemWriter (s : CPUI386) (w : Width) (addr : Word) : Bool :=
  inIomem addr && s.cb.iomemWrite w

def iomemWrite (w : Width) (addr val : Word) : M Unit :=
  modify fun s => { s with io := s.io ++ [.write w addr val] }

def load8 (res : OptAddr) : M Byte := do
  let addr := mapBiosAlias res.addr1
  let s ← get
  match s.iomemReader .b8 addr with
  | some read => return (← iomemRead .b8 read addr).setWidth 8
  | none =>
    if ¬ s.inMem addr then return 0
    else pload8 addr

def load16 (res : OptAddr) : M (BitVec 16) := do
  let addr := mapBiosAlias res.addr1
  let s ← get
  match s.iomemReader .b16 addr with
  | some read => return (← iomemRead .b16 read addr).setWidth 16
  | none =>
    if ¬ s.inMem addr then return 0
    else match res.addr2 with
      | none => pload16 addr
      | some addr2 => do
        let lo ← pload8 addr
        let hi ← pload8 (mapBiosAlias addr2)
        return hi ++ lo

def load32 (res : OptAddr) : M Word := do
  let addr := mapBiosAlias res.addr1
  let s ← get
  match s.iomemReader .b32 addr with
  | some read => iomemRead .b32 read addr
  | none =>
    if ¬ s.inMem addr then return 0
    else match res.addr2 with
      | none => pload32 addr
      | some addr2 => do
        let addr2 := mapBiosAlias addr2
        if addr &&& 0xf = 0xf then
          let a ← pload8 addr
          let b ← pload16 addr2
          let c ← pload8 (addr2 + 2)
          return c ++ b ++ a
        else if addr &&& 0xf = 0xe then
          let a ← pload16 addr
          let b ← pload16 addr2
          return b ++ a
        else if addr &&& 0xf = 0xd then
          let a ← pload8 addr
          let b ← pload16 (addr + 1)
          let c ← pload8 addr2
          return c ++ b ++ a
        else stop .aborted

def store8 (res : OptAddr) (val : Byte) : M Unit := do
  let s ← get
  if s.iomemWriter .b8 res.addr1 then iomemWrite .b8 res.addr1 (val.setWidth 32)
  else if ¬ s.inMem res.addr1 then return ()
  else pstore8 res.addr1 val

def store16 (res : OptAddr) (val : BitVec 16) : M Unit := do
  let s ← get
  if s.iomemWriter .b16 res.addr1 then iomemWrite .b16 res.addr1 (val.setWidth 32)
  else if ¬ s.inMem res.addr1 then return ()
  else match res.addr2 with
    | none => pstore16 res.addr1 val
    | some addr2 => do
      pstore8 res.addr1 (val.setWidth 8)
      pstore8 addr2 ((val >>> 8).setWidth 8)

def store32 (res : OptAddr) (val : Word) : M Unit := do
  let s ← get
  if s.iomemWriter .b32 res.addr1 then iomemWrite .b32 res.addr1 val
  else if ¬ s.inMem res.addr1 then return ()
  else match res.addr2 with
    | none => pstore32 res.addr1 val
    | some addr2 =>
      if res.addr1 &&& 0xf = 0xf then do
        pstore8 res.addr1 (val.setWidth 8)
        pstore16 addr2 ((val >>> 8).setWidth 16)
        pstore8 (addr2 + 2) ((val >>> 24).setWidth 8)
      else if res.addr1 &&& 0xf = 0xe then do
        pstore16 res.addr1 (val.setWidth 16)
        pstore16 addr2 ((val >>> 16).setWidth 16)
      else if res.addr1 &&& 0xf = 0xd then do
        pstore8 res.addr1 (val.setWidth 8)
        pstore16 (res.addr1 + 1) ((val >>> 8).setWidth 16)
        pstore8 addr2 ((val >>> 24).setWidth 8)
      else return ()

def translateW (w : Width) (rwm : Nat) (seg : SegReg) (addr : Word) : M OptAddr :=
  match w with
  | .b8 => translate8 rwm seg addr
  | .b16 => translate16 rwm seg addr
  | .b32 => translate32 rwm seg addr

def loadW (res : OptAddr) : Width → M Word
  | .b8 => do return (← load8 res).setWidth 32
  | .b16 => do return (← load16 res).setWidth 32
  | .b32 => load32 res

def storeW (res : OptAddr) (val : Word) : Width → M Unit
  | .b8 => store8 res (val.setWidth 8)
  | .b16 => store16 res (val.setWidth 16)
  | .b32 => store32 res val

end Winspire.Cpu
