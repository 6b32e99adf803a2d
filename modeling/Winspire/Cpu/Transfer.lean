import Winspire.Cpu.Segments
import Winspire.Cpu.StringOps

/-!
# Far transfers of i386.c

Task switches, far calls and returns in protected mode, and the delivery of interrupts.
-/

namespace Winspire.Cpu

open Faulting

set_option autoImplicit false

def assertThat (c : Prop) [Decidable c] : M Unit := onlyIf (¬ c) (stop .aborted)

def refreshFlags : M Unit := do
  let s ← get
  match s.toLazyFlags.refreshFlags with
  | some f => modify fun s => { s with toLazyFlags := f }
  | none => stop .aborted

/-- `cc.mask = 0`. -/
def dropMask : M Unit := modify fun s => { s with toLazyFlags := s.toLazyFlags.setMask 0 }

def setFlags (f : Word → Word) : M Unit := modify fun s => { s with flags := f s.flags }

def setIp (ip : Word) : M Unit := modify fun s => { s with ip := ip, nextIp := ip }

def setNextIp (ip : Word) : M Unit := modify fun s => { s with nextIp := ip }

def CPUI386.eflagsMask (s : CPUI386) : Word := s.gen.eflagsMask

def descSeg (w2 : Word) : Bool := hasBit w2 (1 <<< 12)
def descDpl (w2 : Word) : Nat := ((w2 >>> 13) &&& 3).toNat
def descPresent (w2 : Word) : Bool := hasBit w2 (1 <<< 15)
def descCode (w2 : Word) : Bool := hasBit (w2 >>> 8) 0x8
def descConforming (w2 : Word) : Bool := hasBit (w2 >>> 8) 0x4

/-- A 32-bit TSS, available or busy. -/
def isTss32 (flags : Word) : Bool := flags &&& 0xf == 9 || flags &&& 0xf == 11

/-- `sel` with its privilege level replaced. -/
def withRpl (sel : Word) (pl : Nat) : Word := (sel &&& ~~~3) ||| BitVec.ofNat 32 pl

/-- `TS_JMP`, `TS_CALL` and `TS_IRET`. -/
inductive SwitchType where
  | jmp
  | call
  | iret
  deriving DecidableEq, Repr

def storeTss (off val : Word) : M Unit := do
  store32 (← try1 (translate 2 .tr off 4 0)) val

def loadTss (off : Word) : M Word := do
  load32 (← try1 (translate 1 .tr off 4 0))

def tssGpr (i : Fin 8) : Word := 0x28 + 4 * BitVec.ofNat 32 i.val

/-- The segment registers of a TSS, in their order there. -/
def tssSegs : List SegReg := [.es, .cs, .ss, .ds, .fs, .gs]

def SegReg.index : SegReg → Nat
  | .es => 0
  | .cs => 1
  | .ss => 2
  | .ds => 3
  | .fs => 4
  | .gs => 5
  | .ldt => 6
  | .tr => 7

def tssSeg (r : SegReg) : Word := 0x48 + 4 * BitVec.ofNat 32 r.index

def saveGprs : List (Fin 8) → M Unit
  | [] => pure ()
  | i :: is => do
    storeTss (tssGpr i) ((← get).gpr i)
    saveGprs is

def saveSegs : List SegReg → M Unit
  | [] => pure ()
  | r :: rs => do
    storeTss (tssSeg r) ((← get).seg r).sel
    saveSegs rs

/-- `cpu->flags` without NT when the task returns. -/
def savedFlags (kind : SwitchType) (flags : Word) : Word :=
  match kind with
  | .iret => flags &&& ~~~NT
  | .jmp | .call => flags

def saveTask (kind : SwitchType) : M Unit := do
  storeTss 0x20 (← get).nextIp
  refreshFlags
  storeTss 0x24 (savedFlags kind (← get).flags)
  saveGprs (List.finRange 8)
  saveSegs tssSegs

/-- The second word of the descriptor of a TSS in the GDT is changed; bit 9 is the busy bit. -/
def updateBusy (sel : Word) (f : Word → Word) : M Unit := do
  let s ← get
  let meml ← try1 (translateLaddr 3 (s.gdt.base + (sel &&& ~~~7) + 4) 4 0)
  store32 meml (f (← load32 meml))

def busyBit : Word := 1 <<< 9

def clearBusy (kind : SwitchType) : M Unit := do
  let s ← get
  onlyIf (kind = .jmp ∨ kind = .iret) (updateBusy (s.seg .tr).sel fun w => w &&& ~~~busyBit)

def setBusy (kind : SwitchType) (tss : Word) : M Unit :=
  onlyIf (kind = .jmp ∨ kind = .call) do
    updateBusy tss fun w => w ||| busyBit
    modify fun s => s.setSeg .tr { s.seg .tr with flags := (s.seg .tr).flags ||| 2 }

def loadGprs : List (Fin 8) → M Unit
  | [] => pure ()
  | i :: is => do
    sreg32 i (← loadTss (tssGpr i))
    loadGprs is

def loadSegs : List SegReg → M Unit
  | [] => pure ()
  | r :: rs => do
    try1 (setSeg r (← loadTss (tssSeg r)))
    loadSegs rs

/-- The registers and segments of the new task. -/
def loadTask : M Unit := do
  try1 (setSeg .ldt (← loadTss 0x60))
  loadGprs (List.finRange 8)
  loadSegs tssSegs
  setNextIp (← loadTss 0x20)

/-- The task is left and the new one loaded, but for its flags. -/
def beginSwitch (tss : Word) (kind : SwitchType) : M Unit := do
  let s ← get
  assertThat (isTss32 (s.seg .tr).flags)
  saveTask kind
  clearBusy kind
  try1 (setSeg .tr tss)
  let s ← get
  assertThat (isTss32 (s.seg .tr).flags)
  setBusy kind tss
  modify fun s => { s with cr0 := s.cr0 ||| 8 }
  loadTask

def loadTaskFlags (flags : Word) : M Unit :=
  modify fun s => { s with flags := (flags &&& s.eflagsMask) ||| 0x2 }

/-- The back link of a call, and the page directory. -/
def finishSwitch (kind : SwitchType) (oldtss : Word) : M Unit := do
  onlyIf (kind = .call) do
    storeTss 0 oldtss
    setFlags fun f => f ||| NT
  let cr3 ← loadTss 0x1c
  modify fun s => CPUI386.tlbClear { s with cr3 := cr3 }

def taskSwitch (tss : Word) (kind : SwitchType) : M Unit := do
  let s ← get
  let oldtss := (s.seg .tr).sel
  beginSwitch tss kind
  loadTaskFlags (← loadTss 0x24)
  finishSwitch kind oldtss

/-- Translations for the slots `ks` below `sp`. -/
def slotsBelow (w : Width) (rwm : Nat) (sp spMask : Word) : List Nat → M (List OptAddr)
  | [] => pure []
  | k :: ks => do
    let m ← translate rwm .ss ((sp - w.size * BitVec.ofNat 32 k) &&& spMask) (w.bits / 8) 0
    return m :: (← slotsBelow w rwm sp spMask ks)

def storeSlots (w : Width) : List OptAddr → List Word → M Unit
  | m :: ms, v :: vs => do
    storeW m v w
    storeSlots w ms vs
  | _, _ => pure ()

/-- The operand at `sp + off` in the stack. -/
def stackAt (w : Width) (sp off spMask : Word) : M OptAddr :=
  translate 1 .ss ((sp + off) &&& spMask) (w.bits / 8) 0

/-- The stack of privilege level `pl` in the TSS: its SS and ESP. -/
def innerStack (pl : Nat) : M (Word × Word) := do
  let s ← get
  let pl := BitVec.ofNat 32 pl
  if hasBit (s.seg .tr).flags 0x8 then
    let msp0 ← translate 1 .tr (4 + 8 * pl) 4 0
    let mss0 ← translate 1 .tr (8 + 8 * pl) 4 0
    let newsp ← load32 msp0
    return ((← load32 mss0) &&& 0xffff, newsp)
  else
    let msp0 ← translate 1 .tr (2 + 4 * pl) 2 0
    let mss0 ← translate 1 .tr (4 + 4 * pl) 2 0
    let newsp ← load16 msp0
    return ((← load16 mss0).setWidth 32, newsp.setWidth 32)

/-- The return address of a call at the same privilege. -/
def pushReturn (w : Width) : M Unit := do
  let s ← get
  let sp := lreg32 s 4
  let spMask := (s.seg .ss).spMask
  let slots ← slotsBelow w 2 sp spMask [1, 2]
  setSp (sp - w.size * 2) spMask
  storeSlots w slots [(s.seg .cs).sel, s.nextIp]

/-- The same through a call gate, where the stack pointer moves after the stores. -/
def pushGateReturn (w : Width) : M Unit := do
  let s ← get
  let sp := lreg32 s 4
  let spMask := (s.seg .ss).spMask
  let slots ← slotsBelow w 2 sp spMask [1, 2]
  storeSlots w slots [(s.seg .cs).sel, s.nextIp]
  setSp (sp - w.size * 2) spMask

/-- The parameters of a call gate, from the caller's stack. -/
def loadParams (w : Width) (sp spMask : Word) : List Nat → M (List Word)
  | [] => pure []
  | i :: is => do
    let m ← stackAt w sp (w.size * BitVec.ofNat 32 i) spMask
    let v ← loadW m w
    return v :: (← loadParams w sp spMask is)

/-- `i` is the index of the first parameter of the list among the `wc` ones. -/
def storeParams (w : Width) (sp spMask : Word) (wc : Nat) : Nat → List Word → M Unit
  | _, [] => pure ()
  | i, v :: vs => do
    let ms ← try1 (slotsBelow w 2 sp spMask [2 + wc - i])
    storeSlots w ms [v]
    storeParams w sp spMask wc (i + 1) vs

/-- The frame of a call to an inner ring, on its stack. -/
def pushInnerReturn (w : Width) (oldss oldsp : Word) (params : List Word) (wc : Nat) : M Unit := do
  let s ← get
  let sp := lreg32 s 4
  let spMask := (s.seg .ss).spMask
  let slots ← try1 (slotsBelow w 2 sp spMask [1, 2, 3 + wc, 4 + wc])
  storeParams w sp spMask wc 0 params
  let s ← get
  storeSlots w slots [oldss, oldsp, (s.seg .cs).sel, s.nextIp]
  setSp (sp - w.size * BitVec.ofNat 32 (4 + wc)) spMask

/-- A call gate to more privilege: the stack of `newdpl` is entered. -/
def callInner (w : Width) (newdpl wc : Nat) (isjmp : Bool) : M Unit := do
  let s ← get
  let oldss := (s.seg .ss).sel
  let oldsp := s.gpr 4
  let params ← loadParams w oldsp (s.seg .ss).spMask (List.range wc)
  -- The source sets ESP between the loads of the two fields.
  let new ← innerStack newdpl
  sreg32 4 new.2
  setSeg .ss new.1
  onlyIf (¬ isjmp) (pushInnerReturn w oldss oldsp params wc)

/-- The checks on a code segment that is the target itself. -/
def pmcallCheckCs (sel w2 : Word) : M Unit := do
  let s ← get
  onlyIf (¬ descCode w2) (throwEx exGP (sel &&& ~~~3))
  if descConforming w2 then
    onlyIf (s.cpl < descDpl w2) (throwEx exGP (sel &&& ~~~3))
  else
    onlyIf (s.cpl < (sel &&& 3).toNat ∨ descDpl w2 ≠ s.cpl) (throwEx exGP (sel &&& ~~~3))

def pmcallSegment (opsz16 : Bool) (addr sel w2 : Word) (isjmp : Bool) : M Unit := do
  let s ← get
  pmcallCheckCs sel w2
  onlyIf (¬ isjmp) (pushReturn (if opsz16 then .b16 else .b32))
  try1 (setSeg .cs ((sel &&& 0xfffc) ||| BitVec.ofNat 32 s.cpl))
  setNextIp addr

/-- Through a call gate with the words `w1` and `w2`. -/
def pmcallGate (w1 w2 : Word) (isjmp : Bool) : M Unit := do
  let s ← get
  let newcs := w1 >>> 16
  let gate16 := (w2 >>> 8) &&& 0xf == 4
  let newip := if gate16 then w1 &&& 0xffff else (w1 &&& 0xffff) ||| (w2 &&& 0xffff0000)
  let w := if gate16 then Width.b16 else Width.b32
  onlyIf (newcs &&& ~~~3 = 0) (throwEx exGP 0)
  let neww2 ← readDesc2 newcs
  onlyIf ((neww2 >>> 11) &&& 3 ≠ 3) (throwEx exGP (newcs &&& ~~~3))
  onlyIf (¬ descPresent neww2) (throwEx exNP (newcs &&& ~~~3))
  onlyIf (s.cpl < descDpl neww2) (throwEx exGP (newcs &&& ~~~3))
  if ¬ descConforming neww2 ∧ descDpl neww2 < s.cpl then
    callInner w (descDpl neww2) (w2 &&& 31).toNat isjmp
    try1 (setSeg .cs ((newcs &&& 0xfffc) ||| BitVec.ofNat 32 (descDpl neww2)))
    setNextIp newip
  else
    onlyIf (¬ isjmp) (pushGateReturn w)
    try1 (setSeg .cs ((newcs &&& 0xfffc) ||| BitVec.ofNat 32 s.cpl))
    setNextIp newip

/-- Through a system descriptor: a TSS, a task gate or a call gate. -/
def pmcallSystem (sel w1 w2 : Word) (isjmp : Bool) : M Unit := do
  let s ← get
  let gt := (w2 >>> 8) &&& 0xf
  let kind := if isjmp then SwitchType.jmp else SwitchType.call
  onlyIf (descDpl w2 < s.cpl ∨ descDpl w2 < (sel &&& 3).toNat) (throwEx exGP (sel &&& ~~~3))
  if isTss32 (s.seg .tr).flags ∧ gt = 9 then taskSwitch sel kind
  else if isTss32 (s.seg .tr).flags ∧ gt = 5 then taskSwitch (w1 >>> 16) kind
  else if gt ≠ 4 ∧ gt ≠ 12 then stop .aborted
  else pmcallGate w1 w2 isjmp

def pmcall (opsz16 : Bool) (addr sel : Word) (isjmp : Bool) : M Unit := do
  let sel := sel &&& 0xffff
  onlyIf (sel &&& ~~~3 = 0) (throwEx exGP 0)
  let w ← readDesc sel
  onlyIf (¬ descPresent w.2) (throwEx exNP (sel &&& ~~~3))
  if descSeg w.2 then pmcallSegment opsz16 addr sel w.2 isjmp
  else pmcallSystem sel w.1 w.2 isjmp

/-- The results of `__call_isr_check_cs` but 0, with `csdpl`. -/
inductive IsrTarget where
  | same
  | inner (csdpl : Nat)
  | fromV86
  deriving DecidableEq, Repr

def callIsrCheckCs (sel ext : Word) : M IsrTarget := do
  let s ← get
  let sel := sel &&& 0xffff
  let off := sel &&& ~~~7
  let table := s.descTable sel
  onlyIf (sel &&& ~~~3 = 0 ∨ table.limit < off + 7) (throwEx exGP ext)
  let w2 ← load32 (← try1 (translateLaddr 1 (table.base + off + 4) 4 0))
  let dpl := descDpl w2
  onlyIf (¬ descSeg w2 ∨ ¬ descCode w2 ∨ s.cpl < dpl) (throwEx exGP ((sel &&& ~~~3) ||| ext))
  onlyIf (¬ descPresent w2) (throwEx exNP (sel &&& ~~~3))
  if ¬ descConforming w2 ∧ dpl < s.cpl then
    if ¬ hasBit s.flags VM then return .inner dpl
    else
      onlyIf (dpl ≠ 0) (throwEx exGP ((sel &&& ~~~3) ||| ext))
      return .fromV86
  else
    onlyIf (hasBit s.flags VM ∨ ¬ (descConforming w2 ∨ dpl = s.cpl))
      (throwEx exGP ((sel &&& ~~~3) ||| ext))
    return .same

def isrReal (no : Byte) : M Unit := do
  let s ← get
  let meml ← try1 (translateLaddr 1 (s.idt.base + no.setWidth 32 * 4) 4 0)
  let w1 ← load32 meml
  let newip := w1 &&& 0xffff
  let sp := lreg32 s 4
  let spMask := (s.seg .ss).spMask
  let slots ← try1 (slotsBelow .b16 2 sp spMask [1, 2, 3])
  refreshFlags
  dropMask
  let s ← get
  storeSlots .b16 slots [s.flags, (s.seg .cs).sel, s.ip]
  sreg32 4 ((sp - 2 * 3) &&& spMask)
  try1 (setSeg .cs (w1 >>> 16))
  setIp newip
  setFlags fun f => f &&& ~~~(IF ||| TF)

/-- The frame of an interrupt at the same privilege. The error code is stored in 32 bits for
either width. -/
def isrSame (w : Width) (pusherr : Bool) : M Unit := do
  let s ← get
  let sp := lreg32 s 4
  let spMask := (s.seg .ss).spMask
  let slots ← slotsBelow w 2 sp spMask [1, 2, 3]
  let err ← slotsBelow w 2 sp spMask (if pusherr then [4] else [])
  refreshFlags
  dropMask
  let s ← get
  storeSlots w slots [s.flags, (s.seg .cs).sel, s.ip]
  storeSlots .b32 err [s.excerr]
  setSp (sp - w.size * (if pusherr then 4 else 3)) spMask

/-- The frame of an interrupt to an inner ring, on its stack. -/
def pushInnerFrame (w : Width) (pusherr : Bool) (oldss oldsp : Word) : M Unit := do
  let s ← get
  let sp := lreg32 s 4
  let spMask := (s.seg .ss).spMask
  let slots ← slotsBelow w 2 sp spMask [1, 2, 3, 4, 5]
  let err ← slotsBelow w 2 sp spMask (if pusherr then [6] else [])
  storeSlots w slots [oldss, oldsp]
  refreshFlags
  dropMask
  let s ← get
  storeSlots w (slots.drop 2) [s.flags, (s.seg .cs).sel, s.ip]
  storeSlots w err [s.excerr]
  let newsp := sp - w.size * (if pusherr then 6 else 5)
  match w with
  | .b16 => setSp newsp spMask
  | _ => sreg32 4 newsp

def isrInner (w : Width) (pusherr : Bool) (newpl : Nat) : M Unit := do
  let s ← get
  let oldss := (s.seg .ss).sel
  let oldsp := s.gpr 4
  let new ← innerStack newpl
  sreg32 4 new.2
  setSeg .ss new.1
  pushInnerFrame w pusherr oldss oldsp

/-- The end of an interrupt: the handler is entered. -/
def enterHandler (newcs newip : Word) (interrupt : Bool) : M Unit := do
  try1 (setSeg .cs newcs)
  setIp newip
  setFlags fun f => f &&& ~~~(TF ||| RF ||| NT)
  onlyIf interrupt (setFlags fun f => f &&& ~~~IF)

/-- The frame of an interrupt from V86 mode. The slot of the error code is the one whose fault is
not fatal. -/
def pushV86Frame (pusherr : Bool) (oldss oldsp : Word) : M Unit := do
  let s ← get
  let sp := lreg32 s 4
  let spMask := (s.seg .ss).spMask
  let slots ← try1 (slotsBelow .b32 2 sp spMask [1, 2, 3, 4, 5, 6, 7, 8, 9])
  let err ← slotsBelow .b32 2 sp spMask (if pusherr then [10] else [])
  storeSlots .b32 slots
    [(s.seg .gs).sel, (s.seg .fs).sel, (s.seg .ds).sel, (s.seg .es).sel, oldss, oldsp]
  refreshFlags
  dropMask
  let s ← get
  storeSlots .b32 (slots.drop 6) [s.flags ||| VM, (s.seg .cs).sel, s.ip]
  storeSlots .b32 err [s.excerr]
  setSp (sp - 4 * (if pusherr then 10 else 9)) spMask

def isrFromV86 (pusherr : Bool) (newcs newip : Word) (interrupt : Bool) : M Unit := do
  let s ← get
  let oldss := (s.seg .ss).sel
  let oldsp := s.gpr 4
  let oldflags := s.flags
  onlyIf (¬ hasBit (s.seg .tr).flags 0x8) (stop .aborted)
  let new ← innerStack 0
  setFlags fun f => f &&& ~~~VM
  sreg32 4 new.2
  (setSeg .ss new.1).catchFault do
    modify fun s => { s.setGpr 4 oldsp with flags := oldflags }
    fault
  pushV86Frame pusherr oldss oldsp
  try1 (setSeg .ds 0)
  try1 (setSeg .es 0)
  try1 (setSeg .fs 0)
  try1 (setSeg .gs 0)
  -- The flags go before CS here, and after it at the end of the other cases.
  setFlags fun f => f &&& ~~~(TF ||| RF ||| NT)
  try1 (setSeg .cs newcs)
  setIp newip
  onlyIf interrupt (setFlags fun f => f &&& ~~~IF)

/-- Through an interrupt or trap gate with the words `w1` and `w2`. -/
def isrGate (w1 w2 : Word) (pusherr : Bool) (ext : Word) : M Unit := do
  let s ← get
  let gt := (w2 >>> 8) &&& 0xf
  let gate16 := gt == 6 || gt == 7
  let interrupt := gt == 6 || gt == 0xe
  let newcs := w1 >>> 16
  let newip := if gate16 then w1 &&& 0xffff else (w1 &&& 0xffff) ||| (w2 &&& 0xffff0000)
  let w := if gate16 then Width.b16 else Width.b32
  match ← callIsrCheckCs newcs ext with
  | .same =>
    isrSame w pusherr
    enterHandler (withRpl newcs s.cpl) newip interrupt
  | .inner newpl =>
    isrInner w pusherr newpl
    enterHandler (withRpl newcs newpl) newip interrupt
  | .fromV86 =>
    onlyIf gate16 (stop .aborted)
    isrFromV86 pusherr (withRpl newcs 0) newip interrupt

/-- The gate of interrupt `no`, checked. -/
def isrReadGate (no : Byte) (ext : Word) : M (Word × Word) := do
  let s ← get
  let off := no.setWidth 32 <<< 3
  onlyIf (s.idt.limit < off + 7) (throwEx exGP (off ||| 2 ||| ext))
  let w1 ← load32 (← try1 (translateLaddr 1 (s.idt.base + off) 4 0))
  let w2 ← load32 (← try1 (translateLaddr 1 (s.idt.base + off + 4) 4 0))
  let gt := (w2 >>> 8) &&& 0xf
  onlyIf (gt ≠ 6 ∧ gt ≠ 7 ∧ gt ≠ 0xe ∧ gt ≠ 0xf ∧ gt ≠ 5) (throwEx exGP (off ||| 2 ||| ext))
  onlyIf (ext = 0 ∧ descDpl w2 < s.cpl) (throwEx exGP (off ||| 2))
  onlyIf (¬ descPresent w2) (throwEx exNP (off ||| 2 ||| ext))
  return (w1, w2)

/-- `ext` is 1 for an interrupt from outside the program and for an exception. -/
def callIsr (no : Byte) (pusherr : Bool) (ext : Word) : M Unit := do
  let s ← get
  if ¬ hasBit s.cr0 1 then isrReal no
  else
    let w ← isrReadGate no ext
    if (w.2 >>> 8) &&& 0xf = 5 then taskSwitch (w.1 >>> 16) .call
    else isrGate w.1 w.2 pusherr ext

def pmiretCheckCsSame (sel : Word) : M Unit := do
  let sel := sel &&& 0xffff
  onlyIf (sel &&& ~~~3 = 0) (throwEx exGP (sel &&& ~~~3))
  let w2 ← readDesc2 sel
  let s ← get
  onlyIf (¬ descSeg w2 ∨ ¬ descCode w2) (throwEx exGP (sel &&& ~~~3))
  onlyIf (if ¬ descConforming w2 then descDpl w2 ≠ s.cpl else s.cpl < descDpl w2)
    (throwEx exGP (sel &&& ~~~3))
  onlyIf (¬ descPresent w2) (throwEx exNP (sel &&& ~~~3))

def pmiretCheckCsOuter (sel : Word) : M Unit := do
  let sel := sel &&& 0xffff
  onlyIf (sel &&& ~~~3 = 0) (throwEx exGP (sel &&& ~~~3))
  let w2 ← readDesc2 sel
  let s ← get
  onlyIf (¬ descSeg w2 ∨ ¬ descCode w2) (throwEx exGP (sel &&& ~~~3))
  onlyIf (if ¬ descConforming w2 then descDpl w2 ≠ (sel &&& 3).toNat else descDpl w2 ≤ s.cpl)
    (throwEx exGP (sel &&& ~~~3))
  onlyIf (¬ descPresent w2) (throwEx exNP (sel &&& ~~~3))

/-- A segment the outer ring may not keep. -/
def Segment.cleared (d : Segment) (cpl : Nat) : Segment :=
  let w2 := d.flags <<< 8
  let isDataseg := ¬ hasBit (w2 >>> 11) 1
  if (isDataseg ∨ ¬ descConforming w2) ∧ descDpl w2 < cpl then ⟨0, 0, 0, 0⟩ else d

def CPUI386.clearSegs (s : CPUI386) : CPUI386 :=
  { s with seg := fun r => if r.isData then (s.seg r).cleared s.cpl else s.seg r }

/-- What the return takes from the stack: EIP, CS and, for IRET, the flags. -/
structure ReturnFrame where
  newip : Word
  newcs : Word
  newflags : Word
  deriving DecidableEq, Repr

def popFrame (w : Width) (sp spMask : Word) (isiret : Bool) : M ReturnFrame := do
  let s ← get
  let meml1 ← stackAt w sp 0 spMask
  let meml2 ← stackAt w sp w.size spMask
  if isiret then
    let meml3 ← stackAt w sp (2 * w.size) spMask
    let image ← loadW meml3 w
    let newip ← loadW meml1 w
    let newcs ← loadW meml2 w
    let newflags := match w with
      | .b16 => (s.flags &&& 0xffff0000) ||| image
      | _ => image
    return ⟨newip, newcs, newflags⟩
  else
    let newip ← loadW meml1 w
    let newcs ← loadW meml2 w
    return ⟨newip, newcs, 0⟩

/-- The flags IRET loads: some of them need privilege. -/
def CPUI386.iretFlags (s : CPUI386) (newflags : Word) : Word :=
  let mask := if 0 < s.cpl then IOPL else 0
  let mask := if s.toLazyFlags.getIOPL < s.cpl then mask ||| IF else mask
  (((s.flags &&& mask) ||| (newflags &&& ~~~mask)) &&& s.eflagsMask) ||| 0x2

def setIretFlags (isiret : Bool) (newflags : Word) : M Unit :=
  onlyIf isiret (setFlags fun _ => newflags)

def pmretV86 (opsz16 : Bool) (sp spMask : Word) (fr : ReturnFrame) (newflags : Word) : M Unit := do
  let s ← get
  onlyIf (s.cpl ≠ 0) (stop .aborted)
  onlyIf opsz16 (stop .aborted)
  let meml4 ← stackAt .b32 sp 12 spMask
  let meml5 ← stackAt .b32 sp 16 spMask
  let vmes ← stackAt .b32 sp 20 spMask
  let vmds ← stackAt .b32 sp 24 spMask
  let vmfs ← stackAt .b32 sp 28 spMask
  let vmgs ← stackAt .b32 sp 32 spMask
  setFlags fun _ => newflags
  try1 (setSeg .cs fr.newcs)
  setSp (sp + 12) spMask
  setNextIp fr.newip
  try1 (setSeg .ss (← load32 meml5))
  try1 (setSeg .es (← load32 vmes))
  try1 (setSeg .ds (← load32 vmds))
  try1 (setSeg .fs (← load32 vmfs))
  setSeg .gs (← load32 vmgs)
  setSp (← load32 meml4) 0xffffffff

def pmretSame (w : Width) (sp spMask off : Word) (isiret : Bool) (fr : ReturnFrame)
    (newflags : Word) : M Unit := do
  pmiretCheckCsSame fr.newcs
  setIretFlags isiret newflags
  try1 (setSeg .cs fr.newcs)
  setSp (sp + 2 * w.size + off) spMask
  setNextIp fr.newip

def pmretOuter (w : Width) (sp spMask off : Word) (isiret : Bool) (fr : ReturnFrame)
    (newflags : Word) : M Unit := do
  pmiretCheckCsOuter fr.newcs
  let meml4 ← stackAt w sp (2 * w.size + off) spMask
  let meml5 ← stackAt w sp (3 * w.size + off) spMask
  let newsp ← loadW meml4 w
  let newss ← loadW meml5 w
  let newsp := if isiret then newsp else newsp + off
  setIretFlags isiret newflags
  try1 (setSeg .cs fr.newcs)
  try1 (setSeg .ss newss)
  setSp newsp ((← get).seg .ss).spMask
  setNextIp fr.newip
  modify CPUI386.clearSegs

/-- Within protected mode: to the same ring or an outer one. -/
def pmretProtected (w : Width) (sp spMask off : Word) (isiret : Bool) (fr : ReturnFrame)
    (newflags : Word) : M Unit := do
  let s ← get
  let rpl := (fr.newcs &&& 3).toNat
  onlyIf (rpl < s.cpl) (throwEx exGP (fr.newcs &&& ~~~3))
  if rpl = s.cpl then pmretSame w sp spMask off isiret fr newflags
  else pmretOuter w sp spMask off isiret fr newflags

def pmretSwitch (opsz16 : Bool) (off : Word) (isiret : Bool) : M Unit := do
  let s ← get
  let w := if opsz16 then Width.b16 else Width.b32
  let sp := lreg32 s 4
  let spMask := (s.seg .ss).spMask
  let fr ← popFrame w sp spMask isiret
  let newflags := s.iretFlags fr.newflags
  if isiret ∧ hasBit newflags VM then pmretV86 opsz16 sp spMask fr newflags
  else pmretProtected w sp spMask off isiret fr newflags

/-- The return itself; `off` counts the bytes of the flags of an IRET. -/
def pmretFrame (opsz16 : Bool) (off : Word) (isiret : Bool) : M Unit := do
  pmretSwitch opsz16 off isiret
  onlyIf isiret dropMask

def pmretTask : M Unit := do
  let meml ← translate 1 .tr 0 2 0
  let tssback ← load16 meml
  onlyIf (tssback = 0) (throwEx exTS 0)
  taskSwitch (tssback.setWidth 32) .iret

def pmret (opsz16 : Bool) (off : Word) (isiret : Bool) : M Unit := do
  let s ← get
  if isiret then
    onlyIf (hasBit s.flags VM) (throwEx exGP 0)
    if hasBit s.flags NT then pmretTask
    else pmretFrame opsz16 (off + if opsz16 then 2 else 4) isiret
  else pmretFrame opsz16 off isiret

end Winspire.Cpu
