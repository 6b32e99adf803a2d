import Winspire.Lib.Coupled
import Winspire.Lib.Stays
import Winspire.Cpu.Mmu

/-!
# Memory operands and the rest of the machine

Loads and stores from two states that have the same memory and the same devices go the same way.
Translations, loads and stores see neither the general registers nor `next_ip` nor `rep_yield`,
and leave them alone.
-/

namespace Winspire.Cpu

open Faulting

set_option autoImplicit false

/-- Related states hold the same memory, and stores keep them related. -/
structure SeesMemory (R : CPUI386 → CPUI386 → Prop) : Prop where
  mem : ∀ s t, R s t → s.mem = t.mem
  memSize : ∀ s t, R s t → s.memSize = t.memSize
  setMem : ∀ s t a v, R s t → R (s.setMem a v) (t.setMem a v)

/-- And so do the accesses of the devices. -/
structure SeesDevices (R : CPUI386 → CPUI386 → Prop) : Prop extends SeesMemory R where
  cb : ∀ s t, R s t → s.cb = t.cb
  event : ∀ s t e, R s t → R { s with io := s.io ++ [e] } { t with io := t.io ++ [e] }

section Memory

variable {R F : CPUI386 → CPUI386 → Prop} {s t : CPUI386}

theorem SeesMemory.inMem (hR : SeesMemory R) (h : R s t) (a : Word) : s.inMem a ↔ t.inMem a := by
  unfold CPUI386.inMem
  rw [hR.memSize s t h]

theorem SeesMemory.byteAt (hR : SeesMemory R) (h : R s t) (a : Word) : s.byteAt a = t.byteAt a := by
  unfold CPUI386.byteAt
  rw [hR.mem s t h]

theorem couples_pload8 (hR : SeesMemory R) (a : Word) : Couples R F (pload8 a) := by
  refine couples_get (fun s t h => ?_) fun _ => couples_ite (couples_pure _) (couples_stop _)
  simp only [hR.inMem h, hR.byteAt h]

theorem couples_pload16 (hR : SeesMemory R) (a : Word) : Couples R F (pload16 a) := by
  refine couples_get (fun s t h => ?_) fun _ => couples_ite (couples_pure _) (couples_stop _)
  simp only [hR.inMem h, CPUI386.wordAt, hR.byteAt h]

theorem couples_pload32 (hR : SeesMemory R) (a : Word) : Couples R F (pload32 a) := by
  refine couples_get (fun s t h => ?_) fun _ => couples_ite (couples_pure _) (couples_stop _)
  simp only [hR.inMem h, CPUI386.dwordAt, hR.byteAt h]

theorem couples_pstore8 (hR : SeesMemory R) (a : Word) (v : Byte) : Couples R F (pstore8 a v) := by
  refine couples_get (fun s t h => ?_) fun _ => couples_ite ?_ (couples_stop _)
  · simp only [hR.inMem h]
  · exact couples_modify fun s t h => hR.setMem s t a v h

theorem couples_pstore16 (hR : SeesMemory R) (a : Word) (v : BitVec 16) :
    Couples R F (pstore16 a v) :=
  couples_bind (couples_pstore8 hR _ _) fun _ => couples_pstore8 hR _ _

theorem couples_pstore32 (hR : SeesMemory R) (a : Word) (v : Word) : Couples R F (pstore32 a v) :=
  couples_bind (couples_pstore8 hR _ _) fun _ => couples_bind (couples_pstore8 hR _ _) fun _ =>
    couples_bind (couples_pstore8 hR _ _) fun _ => couples_pstore8 hR _ _

theorem SeesDevices.reader (hR : SeesDevices R) (h : R s t) (w : Width) (a : Word) :
    s.iomemReader w a = t.iomemReader w a := by
  unfold CPUI386.iomemReader
  rw [hR.cb s t h]

theorem SeesDevices.writer (hR : SeesDevices R) (h : R s t) (w : Width) (a : Word) :
    s.iomemWriter w a = t.iomemWriter w a := by
  unfold CPUI386.iomemWriter
  rw [hR.cb s t h]

theorem rel_iomemRead (hR : SeesDevices R) (h : R s t) (hio : s.io = t.io) (w : Width)
    (read : List IoEvent → Word → Word) (a : Word) :
    (iomemRead w read a s).Rel R F (iomemRead w read a t) := by
  have hread : read s.io a = read t.io a := by rw [hio]
  unfold iomemRead
  rw [get_bind_run, get_bind_run, modify_bind_run, modify_bind_run, hread]
  exact .ok _ (hR.event s t _ h)

theorem couples_iomemWrite (hR : SeesDevices R) (w : Width) (addr val : Word) :
    Couples R F (iomemWrite w addr val) :=
  couples_modify fun s t h => hR.event s t _ h

/-- The load is of guest memory, or both devices have been asked the same. -/
def Quiet (w : Width) (res : OptAddr) (s t : CPUI386) : Prop :=
  s.io = t.io ∨ s.iomemReader w (mapBiosAlias res.addr1) = none

theorem rel_load8 (hR : SeesDevices R) (h : R s t) {res : OptAddr} (hq : Quiet .b8 res s t) :
    (load8 res s).Rel R F (load8 res t) := by
  unfold load8
  simp only [get_bind_run]
  rw [← hR.reader h]
  cases hread : s.iomemReader .b8 (mapBiosAlias res.addr1) with
  | some read =>
    have hio := hq.resolve_right fun hn => by rw [hn] at hread; cases hread
    exact rel_bind (rel_iomemRead hR h hio _ _ _) fun _ _ _ _ _ h => .ok _ h
  | none =>
    simp only [hR.toSeesMemory.inMem h]
    exact couples_ite (couples_pure _) (couples_pload8 hR.toSeesMemory _) s t h

theorem rel_load16 (hR : SeesDevices R) (h : R s t) {res : OptAddr} (hq : Quiet .b16 res s t) :
    (load16 res s).Rel R F (load16 res t) := by
  have hM := hR.toSeesMemory
  unfold load16
  simp only [get_bind_run]
  rw [← hR.reader h]
  cases hread : s.iomemReader .b16 (mapBiosAlias res.addr1) with
  | some read =>
    have hio := hq.resolve_right fun hn => by rw [hn] at hread; cases hread
    exact rel_bind (rel_iomemRead hR h hio _ _ _) fun _ _ _ _ _ h => .ok _ h
  | none =>
    simp only [hM.inMem h]
    refine couples_ite (couples_pure _) ?_ s t h
    cases res.addr2 with
    | none => exact couples_pload16 hM _
    | some a =>
      exact couples_bind (couples_pload8 hM _) fun _ =>
        couples_bind (couples_pload8 hM _) fun _ => couples_pure _

theorem rel_load32 (hR : SeesDevices R) (h : R s t) {res : OptAddr} (hq : Quiet .b32 res s t) :
    (load32 res s).Rel R F (load32 res t) := by
  have hM := hR.toSeesMemory
  unfold load32
  simp only [get_bind_run]
  rw [← hR.reader h]
  cases hread : s.iomemReader .b32 (mapBiosAlias res.addr1) with
  | some read =>
    have hio := hq.resolve_right fun hn => by rw [hn] at hread; cases hread
    exact rel_iomemRead hR h hio _ _ _
  | none =>
    simp only [hM.inMem h]
    refine couples_ite (couples_pure _) ?_ s t h
    cases res.addr2 with
    | none => exact couples_pload32 hM _
    | some a =>
      refine couples_ite ?_ (couples_ite ?_ (couples_ite ?_ (couples_stop _)))
      · exact couples_bind (couples_pload8 hM _) fun _ => couples_bind (couples_pload16 hM _)
          fun _ => couples_bind (couples_pload8 hM _) fun _ => couples_pure _
      · exact couples_bind (couples_pload16 hM _) fun _ => couples_bind (couples_pload16 hM _)
          fun _ => couples_pure _
      · exact couples_bind (couples_pload8 hM _) fun _ => couples_bind (couples_pload16 hM _)
          fun _ => couples_bind (couples_pload8 hM _) fun _ => couples_pure _

theorem rel_loadW (hR : SeesDevices R) (h : R s t) {w : Width} {res : OptAddr}
    (hq : Quiet w res s t) : (loadW res w s).Rel R F (loadW res w t) := by
  cases w with
  | b8 => exact rel_bind (rel_load8 hR h hq) fun _ _ _ _ _ h => .ok _ h
  | b16 => exact rel_bind (rel_load16 hR h hq) fun _ _ _ _ _ h => .ok _ h
  | b32 => exact rel_load32 hR h hq

theorem couples_store8 (hR : SeesDevices R) (res : OptAddr) (val : Byte) :
    Couples R F (store8 res val) := by
  refine couples_get (fun s t h => ?_) fun _ => couples_ite (couples_iomemWrite hR _ _ _)
    (couples_ite (couples_pure _) (couples_pstore8 hR.toSeesMemory _ _))
  simp only [hR.writer h, hR.toSeesMemory.inMem h]

theorem couples_store16 (hR : SeesDevices R) (res : OptAddr) (val : BitVec 16) :
    Couples R F (store16 res val) := by
  have hM := hR.toSeesMemory
  refine couples_get (fun s t h => ?_) fun _ => couples_ite (couples_iomemWrite hR _ _ _)
    (couples_ite (couples_pure _) ?_)
  · simp only [hR.writer h, hM.inMem h]
  · cases res.addr2 with
    | none => exact couples_pstore16 hM _ _
    | some a => exact couples_bind (couples_pstore8 hM _ _) fun _ => couples_pstore8 hM _ _

theorem couples_store32 (hR : SeesDevices R) (res : OptAddr) (val : Word) :
    Couples R F (store32 res val) := by
  have hM := hR.toSeesMemory
  refine couples_get (fun s t h => ?_) fun _ => couples_ite (couples_iomemWrite hR _ _ _)
    (couples_ite (couples_pure _) ?_)
  · simp only [hR.writer h, hM.inMem h]
  · cases res.addr2 with
    | none => exact couples_pstore32 hM _ _
    | some a =>
      refine couples_ite ?_ (couples_ite ?_ (couples_ite ?_ (couples_pure _)))
      · exact couples_bind (couples_pstore8 hM _ _) fun _ =>
          couples_bind (couples_pstore16 hM _ _) fun _ => couples_pstore8 hM _ _
      · exact couples_bind (couples_pstore16 hM _ _) fun _ => couples_pstore16 hM _ _
      · exact couples_bind (couples_pstore8 hM _ _) fun _ =>
          couples_bind (couples_pstore16 hM _ _) fun _ => couples_pstore8 hM _ _

theorem couples_storeW (hR : SeesDevices R) (res : OptAddr) (val : Word) (w : Width) :
    Couples R F (storeW res val w) := by
  cases w with
  | b8 => exact couples_store8 hR _ _
  | b16 => exact couples_store16 hR _ _
  | b32 => exact couples_store32 hR _ _

end Memory

/-- A change of the registers, `next_ip`, `rep_yield` and what the devices have seen. -/
def CPUI386.around (gpr : (Fin 8 → Word) → Fin 8 → Word) (ip : Word → Word) (yield : Bool → Bool)
    (io : List IoEvent → List IoEvent) (s : CPUI386) : CPUI386 :=
  { s with gpr := gpr s.gpr, nextIp := ip s.nextIp, repYield := yield s.repYield, io := io s.io }

/-- A change of the registers, `next_ip` and `rep_yield`. -/
def CPUI386.outer (gpr : (Fin 8 → Word) → Fin 8 → Word) (ip : Word → Word) (yield : Bool → Bool)
    (s : CPUI386) : CPUI386 :=
  { s with gpr := gpr s.gpr, nextIp := ip s.nextIp, repYield := yield s.repYield }

section Around

variable {gpr : (Fin 8 → Word) → Fin 8 → Word} {ip : Word → Word} {yield : Bool → Bool}
  {io : List IoEvent → List IoEvent}

theorem around_seesMemory : SeesMemory fun s t => s = t.around gpr ip yield io where
  mem _ _ h := by rw [h]; rfl
  memSize _ _ h := by rw [h]; rfl
  setMem _ _ _ _ h := by rw [h]; rfl

theorem blind_pload8 (a : Word) : Blind (CPUI386.around gpr ip yield io) (pload8 a) :=
  (couples_pload8 around_seesMemory a).blind

theorem blind_pload32 (a : Word) : Blind (CPUI386.around gpr ip yield io) (pload32 a) :=
  (couples_pload32 around_seesMemory a).blind

theorem blind_pstore8 (a : Word) (v : Byte) :
    Blind (CPUI386.around gpr ip yield io) (pstore8 a v) :=
  (couples_pstore8 around_seesMemory a v).blind

theorem blind_orMem (a : Word) (b : Byte) : Blind (CPUI386.around gpr ip yield io) (orMem a b) :=
  blind_bind (blind_pload8 _) fun _ => blind_pstore8 _ _

theorem blind_tlbRefill (lpgno : Word) : Blind (CPUI386.around gpr ip yield io) (tlbRefill lpgno) := by
  refine blind_get (fun _ => rfl) fun s => ?_
  refine blind_bind (blind_pload32 _) fun pde => ?_
  refine blind_ite (blind_pure _) ?_
  refine blind_bind (blind_orMem _ _) fun _ => ?_
  refine blind_bind (blind_pload32 _) fun pte => ?_
  refine blind_ite (blind_pure _) ?_
  refine blind_bind (blind_orMem _ _) fun _ => ?_
  exact blind_bind (blind_modify fun _ => rfl) fun _ => blind_pure _

theorem blind_markPteDirty (ppte : Option Word) :
    Blind (CPUI386.around gpr ip yield io) (markPteDirty ppte) := by
  cases ppte with
  | none => exact blind_pure _
  | some a => exact blind_bind (blind_pload8 _) fun _ => blind_ite (blind_pstore8 _ _) (blind_pure _)

theorem blind_pageFault (rwm : Nat) (laddr : Word) (cpl : Nat) (prot : Bool) :
    Blind (CPUI386.around gpr ip yield io) (pageFault rwm laddr cpl prot) :=
  blind_bind (blind_modify fun _ => rfl) fun _ => blind_fault

theorem blind_tlbEntry (rwm : Nat) (lpgno laddr : Word) (cpl : Nat) :
    Blind (CPUI386.around gpr ip yield io) (tlbEntry rwm lpgno laddr cpl) := by
  refine blind_get (fun _ => rfl) fun s => ?_
  refine blind_bind (blind_onlyIf ?_) fun _ => blind_gets fun _ => rfl
  exact blind_bind (blind_tlbRefill _) fun _ => blind_onlyIf (blind_pageFault _ _ _ _)

theorem blind_translateLpgnoFill (rwm : Nat) (lpgno laddr : Word) (cpl : Nat) :
    Blind (CPUI386.around gpr ip yield io) (translateLpgnoFill rwm lpgno laddr cpl) := by
  refine blind_bind (blind_tlbEntry _ _ _ _) fun ent => ?_
  refine blind_bind (blind_onlyIf ?_) fun _ => ?_
  · exact blind_bind (blind_modify fun _ => rfl) fun _ => blind_pageFault _ _ _ _
  · refine blind_ite ?_ ?_
    · refine blind_bind (blind_markPteDirty _) fun _ => ?_
      exact blind_bind (blind_modify fun _ => rfl) fun _ => blind_pure _
    · exact blind_bind (blind_modify fun _ => rfl) fun _ => blind_pure _

theorem blind_translateLpgnoFast (rwm : Nat) (lpgno laddr : Word) (cpl : Nat) :
    Blind (CPUI386.around gpr ip yield io) (translateLpgnoFast rwm lpgno laddr cpl) := by
  refine blind_get (fun _ => rfl) fun s => ?_
  refine blind_ite (blind_pure _) (blind_ite (blind_pure _) (blind_ite ?_ ?_))
  · refine blind_bind (blind_onlyIf ?_) fun _ => blind_pure _
    exact blind_bind (blind_markPteDirty _) fun _ => blind_modify fun _ => rfl
  · exact blind_translateLpgnoFill _ _ _ _

theorem blind_translateLaddr (rwm : Nat) (laddr : Word) (size cpl : Nat) :
    Blind (CPUI386.around gpr ip yield io) (translateLaddr rwm laddr size cpl) := by
  refine blind_get (fun _ => rfl) fun s => ?_
  refine blind_ite ?_ (blind_pure _)
  refine blind_bind (blind_translateLpgnoFast _ _ _ _) fun _ => ?_
  refine blind_ite ?_ (blind_pure _)
  exact blind_bind (blind_translateLpgnoFast _ _ _ _) fun _ => blind_pure _

theorem blind_throwEx (no : Nat) (err : Word) :
    Blind (CPUI386.around gpr ip yield io) (throwEx no err) :=
  blind_bind (blind_modify fun _ => rfl) fun _ => blind_fault

theorem blind_segcheck (seg : SegReg) : Blind (CPUI386.around gpr ip yield io) (segcheck seg) :=
  blind_get (fun _ => rfl) fun _ => blind_onlyIf (blind_throwEx _ _)

theorem blind_translate (rwm : Nat) (seg : SegReg) (addr : Word) (size cpl : Nat) :
    Blind (CPUI386.around gpr ip yield io) (translate rwm seg addr size cpl) :=
  blind_get (fun _ => rfl) fun _ => blind_bind (blind_segcheck _) fun _ => blind_translateLaddr _ _ _ _

theorem blind_around_translateW (w : Width) (rwm : Nat) (seg : SegReg) (addr : Word) :
    Blind (CPUI386.around gpr ip yield io) (translateW w rwm seg addr) := by
  cases w with
  | b8 => exact blind_get (fun _ => rfl) fun _ => blind_translate _ _ _ _ _
  | b16 => exact blind_get (fun _ => rfl) fun _ => blind_translate _ _ _ _ _
  | b32 => exact blind_get (fun _ => rfl) fun _ => blind_translate _ _ _ _ _

end Around

section Outer

variable {gpr : (Fin 8 → Word) → Fin 8 → Word} {ip : Word → Word} {yield : Bool → Bool}

end Outer

/-- Guest memory and the devices, and nothing else. -/
def Touches (s s' : CPUI386) : Prop := s' = { s with mem := s'.mem, io := s'.io }

instance : IsPreorder CPUI386 Touches where
  refl _ := rfl
  trans s s' s'' h h' := by
    unfold Touches at *
    rw [h', h]

/-- A load tells the device that answers it, and changes nothing else. -/
def CPUI386.asked (s : CPUI386) (w : Width) (res : OptAddr) : CPUI386 :=
  if (s.iomemReader w (mapBiosAlias res.addr1)).isSome then
    { s with io := s.io ++ [.read w (mapBiosAlias res.addr1)] }
  else s

def Asks {α : Type} (w : Width) (res : OptAddr) (x : M α) : Prop :=
  ∀ s, wp x (fun _ s' => s' = s.asked w res) (fun _ => False) (fun _ => True) s

theorem same_pload8 (a : Word) : Keeps Eq (pload8 a) :=
  keeps_get fun _ => keeps_ite (keeps_pure _) (keeps_stop _)

theorem same_pload16 (a : Word) : Keeps Eq (pload16 a) :=
  keeps_get fun _ => keeps_ite (keeps_pure _) (keeps_stop _)

theorem same_pload32 (a : Word) : Keeps Eq (pload32 a) :=
  keeps_get fun _ => keeps_ite (keeps_pure _) (keeps_stop _)

theorem asks_of {α : Type} {w : Width} {res : OptAddr} {zero : α} {x : M α}
    (dev : (List IoEvent → Word → Word) → M α)
    (hdev : ∀ read s, wp (dev read)
      (fun _ s' => s' = { s with io := s.io ++ [.read w (mapBiosAlias res.addr1)] })
      (fun _ => False) (fun _ => True) s)
    (hx : Keeps Eq x) :
    Asks w res (get >>= fun s => match s.iomemReader w (mapBiosAlias res.addr1) with
      | some read => dev read
      | none => if ¬ s.inMem (mapBiosAlias res.addr1) then pure zero else x) := by
  intro s
  rw [wp_bind, wp_get]
  unfold CPUI386.asked
  cases s.iomemReader w (mapBiosAlias res.addr1) with
  | some read => exact hdev read s
  | none =>
    exact wp_ite (fun _ => rfl) fun _ => wp_mono (hx s) (fun _ _ h => h.symm) (fun _ h => h)
      fun _ h => h

theorem asks_load8 (res : OptAddr) : Asks .b8 res (load8 res) :=
  asks_of (fun read => iomemRead .b8 read _ >>= fun v => pure (v.setWidth 8)) (fun _ _ => rfl)
    (same_pload8 _)

theorem asks_load16 (res : OptAddr) : Asks .b16 res (load16 res) := by
  refine asks_of (fun read => iomemRead .b16 read _ >>= fun v => pure (v.setWidth 16))
    (fun _ _ => rfl) ?_
  cases res.addr2 with
  | none => exact same_pload16 _
  | some a =>
    exact keeps_bind (same_pload8 _) fun _ => keeps_bind (same_pload8 _) fun _ => keeps_pure _

theorem asks_load32 (res : OptAddr) : Asks .b32 res (load32 res) := by
  refine asks_of (fun read => iomemRead .b32 read _) (fun _ _ => rfl) ?_
  cases res.addr2 with
  | none => exact same_pload32 _
  | some a =>
    refine keeps_ite ?_ (keeps_ite ?_ (keeps_ite ?_ (keeps_stop _)))
    · exact keeps_bind (same_pload8 _) fun _ => keeps_bind (same_pload16 _) fun _ =>
        keeps_bind (same_pload8 _) fun _ => keeps_pure _
    · exact keeps_bind (same_pload16 _) fun _ => keeps_bind (same_pload16 _) fun _ => keeps_pure _
    · exact keeps_bind (same_pload8 _) fun _ => keeps_bind (same_pload16 _) fun _ =>
        keeps_bind (same_pload8 _) fun _ => keeps_pure _

theorem asks_loadW (res : OptAddr) (w : Width) : Asks w res (loadW res w) := by
  intro s
  cases w with
  | b8 => exact wp_bind_mono (asks_load8 res s) fun _ _ h => h
  | b16 => exact wp_bind_mono (asks_load16 res s) fun _ _ h => h
  | b32 => exact asks_load32 res s

theorem Asks.touches {α : Type} {w : Width} {res : OptAddr} {x : M α} (h : Asks w res x) :
    Keeps Touches x := by
  intro s
  refine wp_mono (h s) ?_ (fun _ h => h) (fun _ h => h)
  rintro _ t rfl
  unfold CPUI386.asked
  split
  · rfl
  · rfl

theorem touches_pload8 (a : Word) : Keeps Touches (pload8 a) :=
  (same_pload8 a).mono fun _ _ h => h ▸ rfl

theorem touches_pload16 (a : Word) : Keeps Touches (pload16 a) :=
  (same_pload16 a).mono fun _ _ h => h ▸ rfl

theorem touches_pload32 (a : Word) : Keeps Touches (pload32 a) :=
  (same_pload32 a).mono fun _ _ h => h ▸ rfl

theorem touches_iomemRead (w : Width) (read : List IoEvent → Word → Word) (addr : Word) :
    Keeps Touches (iomemRead w read addr) :=
  keeps_get fun _ => keeps_bind (keeps_modify fun _ => rfl) fun _ => keeps_pure _

theorem touches_load16 (res : OptAddr) : Keeps Touches (load16 res) := (asks_load16 res).touches

theorem touches_load32 (res : OptAddr) : Keeps Touches (load32 res) := (asks_load32 res).touches

theorem touches_loadW (res : OptAddr) (w : Width) : Keeps Touches (loadW res w) :=
  (asks_loadW res w).touches

theorem touches_pstore8 (a : Word) (v : Byte) : Keeps Touches (pstore8 a v) :=
  keeps_get fun _ => keeps_ite (keeps_modify fun _ => rfl) (keeps_stop _)

theorem touches_pstore16 (a : Word) (v : BitVec 16) : Keeps Touches (pstore16 a v) :=
  keeps_bind (touches_pstore8 _ _) fun _ => touches_pstore8 _ _

theorem touches_pstore32 (a : Word) (v : Word) : Keeps Touches (pstore32 a v) :=
  keeps_bind (touches_pstore8 _ _) fun _ => keeps_bind (touches_pstore8 _ _) fun _ =>
    keeps_bind (touches_pstore8 _ _) fun _ => touches_pstore8 _ _

theorem touches_iomemWrite (w : Width) (addr val : Word) : Keeps Touches (iomemWrite w addr val) :=
  keeps_modify fun _ => rfl

theorem touches_store8 (res : OptAddr) (val : Byte) : Keeps Touches (store8 res val) :=
  keeps_get fun _ => keeps_ite (touches_iomemWrite _ _ _)
    (keeps_ite (keeps_pure _) (touches_pstore8 _ _))

theorem touches_store16 (res : OptAddr) (val : BitVec 16) : Keeps Touches (store16 res val) := by
  refine keeps_get fun s => ?_
  refine keeps_ite (touches_iomemWrite _ _ _) (keeps_ite (keeps_pure _) ?_)
  cases res.addr2 with
  | none => exact touches_pstore16 _ _
  | some a => exact keeps_bind (touches_pstore8 _ _) fun _ => touches_pstore8 _ _

theorem touches_store32 (res : OptAddr) (val : Word) : Keeps Touches (store32 res val) := by
  refine keeps_get fun s => ?_
  refine keeps_ite (touches_iomemWrite _ _ _) (keeps_ite (keeps_pure _) ?_)
  cases res.addr2 with
  | none => exact touches_pstore32 _ _
  | some a =>
    refine keeps_ite ?_ (keeps_ite ?_ (keeps_ite ?_ (keeps_pure _)))
    · exact keeps_bind (touches_pstore8 _ _) fun _ => keeps_bind (touches_pstore16 _ _) fun _ =>
        touches_pstore8 _ _
    · exact keeps_bind (touches_pstore16 _ _) fun _ => touches_pstore16 _ _
    · exact keeps_bind (touches_pstore8 _ _) fun _ => keeps_bind (touches_pstore16 _ _) fun _ =>
        touches_pstore8 _ _

theorem touches_storeW (res : OptAddr) (val : Word) (w : Width) :
    Keeps Touches (storeW res val w) := by
  cases w with
  | b8 => exact touches_store8 _ _
  | b16 => exact touches_store16 _ _
  | b32 => exact touches_store32 _ _

end Winspire.Cpu
