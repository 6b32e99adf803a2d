import Winspire.Cpu.Checksum
import Winspire.Cpu.Backstage
import Winspire.Cpu.Held
import Winspire.Cpu.Frames

/-!
# The direct way to the stack

`stack32_direct_addr` of i386.c and the instructions of 32 bits that use it. Where the slot is
memory of one page they read or write it without an operand; everywhere else they go the long way.
-/

namespace Winspire.Cpu

open Faulting

set_option autoImplicit false

def CPUI386.stackLinear (s : CPUI386) (off : Word) : Word := (s.seg .ss).base + off

/-- A null SS in protected mode, or a slot that may reach into a second page. -/
def CPUI386.stackIndirect (s : CPUI386) (off : Word) : Prop :=
  (hasBit s.cr0 1 ∧ (s.seg .ss).limit = 0 ∧ (s.seg .ss).sel &&& ~~~3 = 0) ∨
    0xffc < (s.stackLinear off &&& 0xfff).toNat

instance (s : CPUI386) (off : Word) : Decidable (s.stackIndirect off) :=
  inferInstanceAs (Decidable (_ ∨ _))

def stackPage (rwm : Nat) (off : Word) : M Word := do
  let s ← get
  let laddr := s.stackLinear off
  if hasBit s.cr0 cr0PG then translateLpgnoFast rwm (laddr >>> 12) laddr s.cpl
  else return laddr

/-- `direct` is false in the builds that have no fast tables. A page that faults is none here. -/
def stack32DirectAddr (direct : Bool) (rwm : Nat) (off : Word) : M (Option Word) := do
  let s ← get
  if direct = false ∨ s.stackIndirect off then return none
  else
    match ← tried (stackPage rwm off) with
    | none => return none
    | some addr =>
      let addr := mapBiosAlias addr
      let t ← get
      if inIomem addr ∨ ¬ t.inMem addr then return none else return some addr

/-- The slot at its address, or through an operand. -/
def directly {α : Type} (direct : Bool) (rwm : Nat) (off : Word) (fast : Word → M α)
    (slow : OptAddr → M α) : M α := do
  match ← stack32DirectAddr direct rwm off with
  | some addr => fast addr
  | none => do
    let meml ← translate32 rwm .ss off
    slow meml

def push32 (direct : Bool) (mask val : Word) : M Unit := do
  let s ← get
  let sp := s.gpr 4
  directly direct 2 ((sp - 4) &&& mask)
    (fun addr => do
      setSp (sp - 4) mask
      pstore32 addr val)
    (fun meml => do
      setSp (sp - 4) mask
      store32 meml val)

def slot32 (direct : Bool) (mask : Word) : M Word := do
  let s ← get
  directly direct 1 (s.gpr 4 &&& mask) pload32 load32

def PUSHd (direct : Bool) (mask val : Word) : M Unit := push32 direct mask val

def POPRegd (direct : Bool) (mask : Word) (i : Fin 8) : M Unit := do
  let s ← get
  let sp := s.gpr 4
  let src ← slot32 direct mask
  setSp (sp + 4) mask
  sreg32 i src

def CALLd (direct : Bool) (mask d : Word) : M Unit := do
  let s ← get
  push32 direct mask s.nextIp
  modify fun s => { s with nextIp := s.nextIp + d }

def CALLABSd (direct : Bool) (mask nip : Word) : M Unit := do
  let s ← get
  push32 direct mask s.nextIp
  setNextIp nip

/-- `RETw` without `opsz16`; `RET` has 0 for `i`. -/
def RETd (direct : Bool) (mask i : Word) : M Unit := do
  let s ← get
  let sp := s.gpr 4
  let ip ← slot32 direct mask
  setNextIp ip
  setSp (sp + 4 + i) mask

inductive StackOp where
  | push (val : Word)
  | pop (i : Fin 8)
  | call (d : Word)
  | callAbs (nip : Word)
  | ret (i : Word)

namespace StackOp

def exec (direct : Bool) (mask : Word) : StackOp → M Unit
  | push val => PUSHd direct mask val
  | pop i => POPRegd direct mask i
  | call d => CALLd direct mask d
  | callAbs nip => CALLABSd direct mask nip
  | ret i => RETd direct mask i

def rwm : StackOp → Nat
  | push _ | call _ | callAbs _ => 2
  | pop _ | ret _ => 1

/-- The slot that the instruction reads or writes. -/
def slot (mask : Word) (s : CPUI386) : StackOp → Word
  | push _ | call _ | callAbs _ => (s.gpr 4 - 4) &&& mask
  | pop _ | ret _ => s.gpr 4 &&& mask

end StackOp

section Page

variable {rwm : Nat} {off a : Word} {s u : CPUI386}

theorem backstage_stackPage (rwm : Nat) (off : Word) : Stays Backstage (stackPage rwm off) :=
  stays_get fun _ => stays_ite (backstage_translateLpgnoFast _ _ _ _) (stays_pure _)

theorem stackPage_run (s : CPUI386) : stackPage rwm off s =
    (if hasBit s.cr0 cr0PG then
      translateLpgnoFast rwm (s.stackLinear off >>> 12) (s.stackLinear off) s.cpl
    else pure (s.stackLinear off) : M Word) s := rfl

theorem Backstage.stackLinear (h : Backstage s u) : u.stackLinear off = s.stackLinear off := by
  unfold CPUI386.stackLinear
  rw [h]

theorem Backstage.stackIndirect (h : Backstage s u) :
    u.stackIndirect off ↔ s.stackIndirect off := by
  unfold CPUI386.stackIndirect
  rw [h.stackLinear, h]

/-- A page that has been found is found again, and then nothing is changed. -/
theorem stackPage_again (hrwm : rwm = 1 ∨ rwm = 2) (h : stackPage rwm off s = .ok a u) :
    stackPage rwm off u = .ok a u := by
  have hb := (backstage_stackPage rwm off).ok h
  have hcr0 : u.cr0 = s.cr0 := by rw [hb]
  have hcpl : u.cpl = s.cpl := by rw [hb]
  rw [stackPage_run] at h ⊢
  rw [hcr0, hcpl, hb.stackLinear]
  by_cases hpg : hasBit s.cr0 cr0PG = true
  · rw [if_pos hpg] at h ⊢
    obtain ⟨x, hx, ha⟩ := wp_ok (translateLpgnoFast_held hrwm) h
    rw [ha]
    exact hx.run _
  · rw [if_neg hpg] at h ⊢
    cases h
    rfl

theorem translate32_run (rwm : Nat) (h : ¬s.stackIndirect off) :
    translate32 rwm .ss off s = (do
      let a ← stackPage rwm off
      return (⟨a, none⟩ : OptAddr)) s := by
  have hcheck : ¬(hasBit s.cr0 1 ∧ (s.seg .ss).limit = 0 ∧ (s.seg .ss).sel &&& ~~~3 = 0) :=
    fun hc => h (.inl hc)
  have hshort : ¬0x1000 - 4 < (s.stackLinear off &&& 0xfff).toNat := fun hc => h (.inr hc)
  have hseg : segcheck .ss s = .ok () s := by
    unfold segcheck
    rw [get_bind_run]
    unfold Faulting.Prog.onlyIf
    rw [if_neg hcheck]
    rfl
  unfold translate32
  rw [get_bind_run]
  unfold translate
  rw [get_bind_run, bind_run_ok hseg]
  change translateLaddr rwm (s.stackLinear off) 4 s.cpl s = _
  unfold translateLaddr
  rw [get_bind_run, bind_run, stackPage_run]
  by_cases hpg : hasBit s.cr0 cr0PG = true
  · rw [if_pos hpg, if_pos hpg, bind_run]
    cases translateLpgnoFast rwm (s.stackLinear off >>> 12) (s.stackLinear off) s.cpl s with
    | ok a u =>
      dsimp only
      rw [if_neg hshort]
    | fault u => rfl
    | stop why => rfl
  · rw [if_neg hpg, if_neg hpg]
    rfl

end Page

/-- Where the walk for the direct way leaves off when the page cannot be used. -/
def CPUI386.walked (s : CPUI386) (rwm : Nat) (off : Word) : CPUI386 :=
  if s.stackIndirect off then s
  else
    match stackPage rwm off s with
    | .fault u => u
    | _ => s

section Ways

variable {α : Type} {rwm : Nat} {off a : Word} {s u : CPUI386} {fast : Word → M α}
  {slow : OptAddr → M α}

theorem walked_backstage (s : CPUI386) (rwm : Nat) (off : Word) : Backstage s (s.walked rwm off) := by
  unfold CPUI386.walked
  split
  · exact refl_of Backstage s
  · split
    · rename_i u h
      exact (backstage_stackPage rwm off).fault h
    · exact refl_of Backstage s

theorem tried_ok {β : Type} {x : M β} {b : β} (h : x s = .ok b u) :
    tried x s = .ok (some b) u := by
  unfold tried Faulting.Prog.catchFault
  rw [bind_run_ok h]
  rfl

theorem tried_fault {β : Type} {x : M β} (h : x s = .fault u) : tried x s = .ok none u := by
  unfold tried Faulting.Prog.catchFault
  rw [bind_run_fault h]
  rfl

theorem tried_stop {β : Type} {x : M β} {why : Stop} (h : x s = .stop why) :
    tried x s = .stop why := by
  unfold tried Faulting.Prog.catchFault
  rw [bind_run_stop h]

theorem directly_plain (s : CPUI386) : directly false rwm off fast slow s =
    (do
      let meml ← translate32 rwm .ss off
      slow meml) s := rfl

theorem directly_walked (hrwm : rwm = 1 ∨ rwm = 2)
    (hfast : ∀ a u, ¬s.stackIndirect off → stackPage rwm off s = .ok a u →
      ¬inIomem (mapBiosAlias a) → u.inMem (mapBiosAlias a) →
      fast (mapBiosAlias a) u = slow ⟨a, none⟩ u) :
    directly true rwm off fast slow s = directly false rwm off fast slow (s.walked rwm off) := by
  rw [directly_plain]
  unfold directly stack32DirectAddr CPUI386.walked
  rw [bind_run, get_bind_run]
  by_cases hind : s.stackIndirect off
  · rw [if_pos (.inr hind), if_pos hind]
    rfl
  · have hgo : ¬(true = false ∨ s.stackIndirect off) := fun h => h.elim Bool.noConfusion hind
    rw [if_neg hgo, if_neg hind, bind_run]
    cases hpage : stackPage rwm off s with
    | ok a u =>
      have hb := (backstage_stackPage rwm off).ok hpage
      have hfirst := translate32_run rwm hind
      rw [bind_run_ok hpage] at hfirst
      have hagain := translate32_run rwm (hb.stackIndirect.not.mpr hind)
      rw [bind_run_ok (stackPage_again hrwm hpage)] at hagain
      rw [tried_ok hpage]
      dsimp only
      rw [get_bind_run, bind_run_ok hfirst]
      by_cases hout : inIomem (mapBiosAlias a) = true ∨ ¬u.inMem (mapBiosAlias a)
      · rw [if_pos hout]
        exact bind_run_ok hagain
      · rw [if_neg hout]
        exact hfast a u hind hpage (fun h => hout (.inl h))
          (Decidable.not_not.mp fun h => hout (.inr h))
    | fault u =>
      rw [tried_fault hpage]
      rfl
    | stop why =>
      have hfirst := translate32_run rwm hind
      rw [bind_run_stop hpage] at hfirst
      rw [tried_stop hpage]
      dsimp only
      rw [bind_run_stop hfirst]

end Ways

section Agree

variable {mask : Word} {s : CPUI386}

/-- What is written is not in the copy of the BIOS below 4 GB, where only the direct way reaches
memory. -/
def StackOp.OutsideAlias (mask : Word) (s : CPUI386) (op : StackOp) : Prop :=
  op.rwm = 2 → ∀ a u, stackPage 2 (op.slot mask s) s = .ok a u → a < 0xfffe0000

theorem walked_gpr (s : CPUI386) (rwm : Nat) (off : Word) : (s.walked rwm off).gpr = s.gpr := by
  rw [walked_backstage s rwm off]

theorem walked_nextIp (s : CPUI386) (rwm : Nat) (off : Word) :
    (s.walked rwm off).nextIp = s.nextIp := by
  rw [walked_backstage s rwm off]

theorem load32_direct {a : Word} (hio : ¬inIomem (mapBiosAlias a)) (hin : s.inMem (mapBiosAlias a)) :
    pload32 (mapBiosAlias a) s = load32 ⟨a, none⟩ s := by
  have hdev : s.iomemReader .b32 (mapBiosAlias a) = none := if_neg hio
  unfold load32
  dsimp only
  rw [get_bind_run, hdev]
  dsimp only
  rw [if_neg (not_not_intro hin)]

theorem store32_direct {a val : Word} (hio : ¬inIomem a) (hin : s.inMem a) :
    pstore32 a val s = store32 ⟨a, none⟩ val s := by
  have hdev : ¬s.iomemWriter .b32 a = true := by
    unfold CPUI386.iomemWriter
    rw [Bool.and_eq_true]
    exact fun h => hio h.1
  unfold store32
  dsimp only
  rw [get_bind_run, if_neg hdev, if_neg (not_not_intro hin)]

theorem push32_walked (val : Word) (h : ∀ a u, stackPage 2 ((s.gpr 4 - 4) &&& mask) s = .ok a u →
    a < 0xfffe0000) :
    push32 true mask val s = push32 false mask val (s.walked 2 ((s.gpr 4 - 4) &&& mask)) := by
  unfold push32
  rw [get_bind_run, get_bind_run]
  rw [walked_gpr]
  refine directly_walked (.inr rfl) fun a u _ hpage hio hin => ?_
  have hlow : mapBiosAlias a = a := by
    have hlt := h a u hpage
    unfold mapBiosAlias
    rw [if_neg]
    exact BitVec.not_le.mpr hlt
  rw [hlow] at hio hin ⊢
  exact store32_direct hio hin

theorem slot32_walked (mask : Word) (s : CPUI386) :
    slot32 true mask s = slot32 false mask (s.walked 1 (s.gpr 4 &&& mask)) := by
  unfold slot32
  rw [get_bind_run, get_bind_run, walked_gpr]
  exact directly_walked (.inl rfl) fun a u _ _ hio hin => load32_direct hio hin

/-- The direct way does what the long way does from the state after the walk, which is the state
before it unless the page faults. -/
theorem stack_direct (op : StackOp) (mask : Word) (s : CPUI386) (h : op.OutsideAlias mask s) :
    op.exec true mask s = op.exec false mask (s.walked op.rwm (op.slot mask s)) ∧
      Backstage s (s.walked op.rwm (op.slot mask s)) ∧
      ((∀ u, stackPage op.rwm (op.slot mask s) s ≠ .fault u) →
        s.walked op.rwm (op.slot mask s) = s) := by
  refine ⟨?_, walked_backstage s _ _, ?_⟩
  · cases op with
    | push val => exact push32_walked val (h rfl)
    | pop i =>
      change POPRegd true mask i s = POPRegd false mask i _
      unfold POPRegd
      rw [get_bind_run, get_bind_run]
      rw [bind_run, bind_run, walked_gpr, slot32_walked mask s]
      rfl
    | call d =>
      change CALLd true mask d s = CALLd false mask d _
      unfold CALLd
      rw [get_bind_run, get_bind_run, walked_nextIp, bind_run, bind_run, push32_walked _ (h rfl)]
      rfl
    | callAbs nip =>
      change CALLABSd true mask nip s = CALLABSd false mask nip _
      unfold CALLABSd
      rw [get_bind_run, get_bind_run, walked_nextIp, bind_run, bind_run, push32_walked _ (h rfl)]
      rfl
    | ret i =>
      change RETd true mask i s = RETd false mask i _
      unfold RETd
      rw [get_bind_run, get_bind_run]
      rw [bind_run, bind_run, walked_gpr, slot32_walked mask s]
      rfl
  · intro hfault
    unfold CPUI386.walked
    split
    · rfl
    · split
      · rename_i u hu
        exact absurd hu (hfault u)
      · rfl

/-- A push where the slot is memory, which is the direct way. -/
theorem stack_direct_stackCpu : (StackOp.push 7).exec true 0xffff stackCpu =
    (StackOp.push 7).exec false 0xffff stackCpu := by
  have hpage : stackPage 2 ((StackOp.push 7).slot 0xffff stackCpu) stackCpu =
      .ok 0x1ffc stackCpu := rfl
  have hlow : (StackOp.push 7).OutsideAlias 0xffff stackCpu := by
    intro _ a u h
    rw [hpage] at h
    cases h
    decide
  obtain ⟨hrun, -, hsame⟩ := stack_direct (.push 7) 0xffff stackCpu hlow
  have hfound : ∀ u, stackPage 2 ((StackOp.push 7).slot 0xffff stackCpu) stackCpu ≠ .fault u := by
    intro u h
    rw [hpage] at h
    cases h
  rw [hsame hfound] at hrun
  exact hrun

end Agree

end Winspire.Cpu
