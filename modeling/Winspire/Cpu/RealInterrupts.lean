import Winspire.Cpu.Frames
import Winspire.Cpu.ModeRuns
import Winspire.Cpu.SysInsns

/-!
# Interrupts of real mode and their returns

`call_isr` pushes FLAGS, CS and IP, and IRET pops them. Between them the handler may do what it
likes and be interrupted itself, as long as it leaves real mode, the stack segment and the frames
alone and pops what it pushed.
-/

namespace Winspire.Cpu

open Faulting

set_option autoImplicit false

/-- Real mode without paging. `sp_mask` is the one of SS. -/
structure RealMode (s : CPUI386) : Prop where
  pe : hasBit s.cr0 1 = false
  pg : hasBit s.cr0 cr0PG = false
  vm : hasBit s.flags VM = false
  width : s.spMask = (s.seg .ss).spMask

namespace CPUI386

/-- A stack slot without paging, before the mask of the stack. -/
def flatSlot (s : CPUI386) (off : Word) : OptAddr :=
  ⟨(s.seg .ss).base + (off &&& (s.seg .ss).spMask), none⟩

/-- The slots of the frame that an interrupt pushes, in the order they are stored. -/
def isrSlots (s : CPUI386) : List OptAddr :=
  [1, 2, 3].map fun k => s.flatSlot (lreg32 s 4 - 2 * BitVec.ofNat 32 k)

def InFrame (s : CPUI386) (a : Nat) : Prop :=
  ∃ m ∈ s.isrSlots, ∃ j, j < 2 ∧ a = (m.byte j).toNat

def vector (s : CPUI386) (no : Byte) : OptAddr := ⟨s.idt.base + no.setWidth 32 * 4, none⟩

def handler (s : CPUI386) (no : Byte) : Word :=
  leWord (fun j => s.byteAt ((s.vector no).byte j)) .b32

end CPUI386

structure Interruptible (no : Byte) (s : CPUI386) : Prop where
  real : RealMode s
  vector : ∀ j, j < 4 → s.Ram ((s.vector no).byte j)
  frame : ∀ m ∈ s.isrSlots, ∀ j, j < 2 → s.Ram (m.byte j)

structure Undisturbed (kept : Nat → Prop) (s t : CPUI386) : Prop where
  real : RealMode t
  ss : t.seg .ss = s.seg .ss
  gen : t.gen = s.gen
  memSize : t.memSize = s.memSize
  mem : ∀ a, kept a → t.mem a = s.mem a

/-- The run of a handler: instructions, and interrupts with handlers of their own. -/
inductive Handler : (Nat → Prop) → CPUI386 → CPUI386 → Prop where
  | done (kept : Nat → Prop) (s : CPUI386) : Handler kept s s
  | code {kept : Nat → Prop} {s t u : CPUI386} (hcode : Undisturbed kept s t)
      (hrun : Handler kept t u) : Handler kept s u
  | interrupt {kept : Nat → Prop} {s t u v w : CPUI386} {no : Byte} {ext : Word}
      (hint : Interruptible no s) (hfree : ∀ a, kept a → ¬ s.InFrame a)
      (hisr : callIsr no false ext s = .ok () t)
      (hinner : Handler (fun a => kept a ∨ s.InFrame a) t u)
      (hsp : u.gpr 4 &&& u.spMask = t.gpr 4 &&& t.spMask)
      (hiret : iret true u = .ok () v) (hrun : Handler kept v w) : Handler kept s w

/-- The flags that are kept in the flags word alone. -/
def systemFlags : Word := TF ||| IF ||| DF ||| IOPL ||| NT

/-- The interrupted program after the return: its place, its flags and its stack. The rest is as
the handler left it. -/
structure Resumed (s u v : CPUI386) : Prop where
  ip : v.nextIp = s.ip &&& 0xffff
  cs : v.seg .cs = Segment.real ((s.seg .cs).sel &&& 0xffff)
  sp : v.gpr 4 &&& v.spMask = s.gpr 4 &&& s.spMask
  arith : ∀ e, s.Shows e → v.Shows e
  system : v.flags &&& systemFlags = s.flags &&& systemFlags
  regs : ∀ i, i ≠ 4 → v.gpr i = u.gpr i
  segs : ∀ r, r ≠ .cs → v.seg r = u.seg r
  mem : v.mem = u.mem

section Words

theorem spMask_eq (d : Segment) : ∃ b, d.spMask = stackMask b := by
  unfold Segment.spMask
  by_cases h : hasBit d.flags segBig = true
  · exact ⟨false, if_pos h⟩
  · exact ⟨true, if_neg h⟩

theorem spMask_add (d : Segment) {x y : Word} (h : x &&& d.spMask = y &&& d.spMask) (c : Word) :
    (x + c) &&& d.spMask = (y + c) &&& d.spMask := by
  obtain ⟨b, hb⟩ := spMask_eq d
  rw [hb] at h ⊢
  exact mask_add h c

theorem mask_mask (x mask : Word) : (x &&& mask) &&& mask = x &&& mask := by
  rw [BitVec.and_assoc, BitVec.and_self]

theorem leWord_low16 {f : Nat → Byte} {v : Word} (h : ∀ k, k < 2 → f k = byteOf v k) :
    leWord f .b16 = v &&& 0xffff := by
  have hpart : Width.b16.part (leWord f .b16) = Width.b16.part v := (part_leWord_iff f).mpr h
  apply BitVec.eq_of_getLsbD_eq
  intro i hi
  rw [BitVec.getLsbD_and, ffff_getLsbD]
  by_cases h16 : i < 16
  · have hbit := congrArg (fun x : BitVec 16 => x.getLsbD i) hpart
    simp only [Width.part, Width.bits, BitVec.getLsbD_setWidth, h16, decide_true,
      Bool.true_and] at hbit
    rw [hbit, decide_eq_true h16, Bool.and_true]
  · rw [decide_eq_false h16, Bool.and_false]
    change ((f 1 ++ f 0 : BitVec 16).setWidth 32).getLsbD i = false
    rw [BitVec.getLsbD_setWidth, BitVec.getLsbD_of_ge _ i (by omega), Bool.and_false]

end Words

section Slots

variable {s t : CPUI386} {w : Width} {a : Word}

theorem ram_flat (h : ∀ k, k < w.bytes → s.Ram ((⟨a, none⟩ : OptAddr).byte k)) :
    (⟨a, none⟩ : OptAddr).Ram w a s where
  fits := fun h2 => by cases h2
  ram := h
  low := fun k _ => by rw [byte_one_page rfl]

theorem translateLaddr_flat (h : RealMode s) (rwm : Nat) (laddr : Word) (size cpl : Nat) :
    translateLaddr rwm laddr size cpl s = .ok ⟨laddr, none⟩ s := by
  unfold translateLaddr
  rw [get_bind_run]
  exact congrFun (if_neg (by rw [h.pg]; decide)) s

theorem translate_flat (h : RealMode s) (rwm : Nat) (seg : SegReg) (addr : Word) (size cpl : Nat) :
    translate rwm seg addr size cpl s = .ok ⟨(s.seg seg).base + addr, none⟩ s := by
  have hseg : segcheck seg s = .ok () s := by
    unfold segcheck
    rw [get_bind_run]
    exact congrFun (if_neg fun hn => by rw [h.pe] at hn; cases hn.1) s
  unfold translate
  rw [get_bind_run, bind_run_ok hseg]
  exact translateLaddr_flat h _ _ _ _

theorem slotsBelow_flat (h : RealMode s) (rwm : Nat) (sp : Word) (ks : List Nat) :
    slotsBelow .b16 rwm sp (s.seg .ss).spMask ks s =
      .ok (ks.map fun k => s.flatSlot (sp - 2 * BitVec.ofNat 32 k)) s := by
  induction ks with
  | nil => rfl
  | cons k ks ih =>
    rw [slotsBelow, bind_run_ok (translate_flat h _ _ _ _ _), bind_run_ok ih]
    rfl

theorem stackSlot_flat (h : RealMode s) (addr : Word) :
    stackSlot .b16 1 addr s = .ok (s.flatSlot addr) s := by
  unfold stackSlot
  rw [get_bind_run, h.width]
  exact translate_flat h 1 .ss (addr &&& (s.seg .ss).spMask) 2 s.cpl

end Slots

def CPUI386.putSlots (w : Width) : List OptAddr → List Word → CPUI386 → CPUI386
  | m :: ms, v :: vs, s => putSlots w ms vs (s.setBytes m.byte (byteOf v) w.bytes)
  | _, _, s => s

section Stored

variable {s : CPUI386} {w : Width}

theorem storeSlots_run {ms : List OptAddr} (vs : List Word)
    (h : ∀ m ∈ ms, ∃ laddr, m.Ram w laddr s) :
    storeSlots w ms vs s = .ok () (s.putSlots w ms vs) := by
  induction ms generalizing vs s with
  | nil => rfl
  | cons m ms ih =>
    cases vs with
    | nil => rfl
    | cons v vs =>
      obtain ⟨laddr, hm⟩ := h m List.mem_cons_self
      rw [storeSlots, bind_run_ok hm.store]
      refine ih vs fun m' hm' => ?_
      obtain ⟨laddr', hm'⟩ := h m' (List.mem_cons_of_mem m hm')
      refine ⟨laddr', hm'.congr ?_⟩
      rw [setBytes_frame]

theorem putSlots_frame (w : Width) (ms : List OptAddr) (vs : List Word) (s : CPUI386) :
    s.putSlots w ms vs = { s with mem := (s.putSlots w ms vs).mem } := by
  induction ms generalizing vs s with
  | nil => rfl
  | cons m ms ih =>
    cases vs with
    | nil => rfl
    | cons v vs =>
      rw [CPUI386.putSlots, ih, setBytes_frame]

theorem putSlots_other {ms : List OptAddr} (vs : List Word) {a : Nat}
    (h : ∀ m ∈ ms, ∀ k, k < w.bytes → a ≠ (m.byte k).toNat) :
    (s.putSlots w ms vs).mem a = s.mem a := by
  induction ms generalizing vs s with
  | nil => rfl
  | cons m ms ih =>
    cases vs with
    | nil => rfl
    | cons v vs =>
      rw [CPUI386.putSlots, ih vs fun m' hm' => h m' (List.mem_cons_of_mem m hm')]
      exact setBytes_other s m.byte (byteOf v) (h m List.mem_cons_self)

def NoOverlap (w : Width) (m m' : OptAddr) : Prop :=
  ∀ j k, j < w.bytes → k < w.bytes → m.byte j ≠ m'.byte k

theorem putSlots_at {ms : List OptAddr} (vs : List Word) (h : ∀ m ∈ ms, Spread w m.byte)
    (hap : ms.Pairwise (NoOverlap w)) {i : Nat} (hi : i < ms.length) (hv : i < vs.length) {k : Nat}
    (hk : k < w.bytes) :
    (s.putSlots w ms vs).mem ((ms.get ⟨i, hi⟩).byte k).toNat = byteOf (vs.get ⟨i, hv⟩) k := by
  induction ms generalizing vs s i with
  | nil => cases hi
  | cons m ms ih =>
    cases vs with
    | nil => cases hv
    | cons v vs =>
      rw [CPUI386.putSlots]
      rcases List.pairwise_cons.mp hap with ⟨hm, hms⟩
      cases i with
      | zero =>
        rw [putSlots_other]
        · refine setBytes_at s (byteOf v) hk fun j hj hjk heq => hjk ?_
          exact h m List.mem_cons_self j k hj hk heq
        · intro m' hm' j hj heq
          exact hm m' hm' k j hk hj (BitVec.eq_of_toNat_eq heq)
      | succ i =>
        exact ih vs (fun m' hm' => h m' (List.mem_cons_of_mem m hm')) hms
          (Nat.lt_of_succ_lt_succ hi) (Nat.lt_of_succ_lt_succ hv)

end Stored

section Delivery

variable {s t u : CPUI386} {f : LazyFlags} {no : Byte} {ext : Word}

def CPUI386.isrFrame (s : CPUI386) (f : LazyFlags) : List Word := [f.flags, (s.seg .cs).sel, s.ip]

def CPUI386.delivered (s : CPUI386) (no : Byte) (f : LazyFlags) : CPUI386 :=
  { s with
    toLazyFlags := { f.setMask 0 with flags := f.flags &&& ~~~(IF ||| TF) }
    mem := (s.putSlots .b16 s.isrSlots (s.isrFrame f)).mem
    gpr := Function.update s.gpr 4 ((s.gpr 4 - 6) &&& (s.seg .ss).spMask)
    seg := Function.update s.seg .cs (Segment.real ((s.handler no >>> 16) &&& 0xffff))
    cpl := 0
    code16 := true
    ip := s.handler no &&& 0xffff
    nextIp := s.handler no &&& 0xffff }

theorem try1_run {α : Type} {x : M α} {a : α} (h : x s = .ok a t) : try1 x s = .ok a t := by
  unfold try1 Prog.catchFault
  rw [h]

theorem putSlots_withLazy (w : Width) (ms : List OptAddr) (vs : List Word) (s : CPUI386)
    (l : LazyFlags) :
    (s.withLazy l).putSlots w ms vs = (s.putSlots w ms vs).withLazy l := by
  induction ms generalizing vs s with
  | nil => rfl
  | cons m ms ih =>
    cases vs with
    | nil => rfl
    | cons v vs =>
      rw [CPUI386.putSlots, CPUI386.putSlots, setBytes_withLazy, ih]

theorem isrSlots_ram (hi : Interruptible no s) {m : OptAddr} (hm : m ∈ s.isrSlots) :
    ∃ laddr, m.Ram .b16 laddr s := by
  obtain ⟨k, -, rfl⟩ := List.mem_map.mp hm
  exact ⟨_, ram_flat (hi.frame _ hm)⟩

theorem vector_ram (hi : Interruptible no s) :
    (s.vector no).Ram .b32 (s.idt.base + no.setWidth 32 * 4) s := ram_flat hi.vector

theorem setSeg_real (h : hasBit s.cr0 1 = false) (r : SegReg) (sel : Word) :
    setSeg r sel s = .ok () (s.loadReal r (sel &&& 0xffff)) := by
  unfold setSeg
  rw [get_bind_run]
  exact congrFun (if_pos (.inl (by rw [h]; decide))) s

/-- The part of `call_isr` behind its translations. -/
def isrEnter (slots : List OptAddr) (w1 sp mask : Word) : M Unit := do
  refreshFlags
  dropMask
  let s ← get
  storeSlots .b16 slots [s.flags, (s.seg .cs).sel, s.ip]
  sreg32 4 ((sp - 2 * 3) &&& mask)
  try1 (setSeg .cs (w1 >>> 16))
  setIp (w1 &&& 0xffff)
  setFlags fun f => f &&& ~~~(IF ||| TF)

theorem callIsr_enter (hi : Interruptible no s) : callIsr no false ext s =
    isrEnter s.isrSlots (s.handler no) (s.gpr 4) (s.seg .ss).spMask s := by
  have htr : try1 (translateLaddr 1 (s.idt.base + no.setWidth 32 * 4) 4 0) s =
      .ok (s.vector no) s := try1_run (translateLaddr_flat hi.real _ _ _ _)
  have hvec : load32 (s.vector no) s = .ok (s.handler no) s := (vector_ram hi).load
  have hslots : try1 (slotsBelow .b16 2 (lreg32 s 4) (s.seg .ss).spMask [1, 2, 3]) s =
      .ok s.isrSlots s := try1_run (slotsBelow_flat hi.real 2 (lreg32 s 4) [1, 2, 3])
  unfold callIsr
  rw [get_bind_run]
  refine (congrFun (if_pos (by rw [hi.real.pe]; decide)) s).trans ?_
  unfold isrReal
  rw [get_bind_run, bind_run_ok htr, bind_run_ok hvec]
  exact bind_run_ok hslots

/-- The frame is pushed, and the handler of the vector entered. -/
theorem callIsr_real (hi : Interruptible no s) (hf : s.toLazyFlags.refreshFlags = some f) :
    callIsr no false ext s = .ok () (s.delivered no f) := by
  have hvm : hasBit f.flags VM = false := (refreshed_vm hf).trans hi.real.vm
  have hrefresh : refreshFlags s = .ok () (s.withLazy f) := by
    unfold refreshFlags
    rw [get_bind_run, hf]
    rfl
  have hdrop : dropMask (s.withLazy f) = .ok () (s.withLazy (f.setMask 0)) := rfl
  have hstore : storeSlots .b16 s.isrSlots (s.isrFrame f) (s.withLazy (f.setMask 0)) =
      .ok () ((s.putSlots .b16 s.isrSlots (s.isrFrame f)).withLazy (f.setMask 0)) := by
    rw [storeSlots_run, putSlots_withLazy]
    intro m hm
    obtain ⟨laddr, hm⟩ := isrSlots_ram hi hm
    exact ⟨laddr, hm.congr rfl⟩
  rw [callIsr_enter hi]
  unfold isrEnter
  rw [bind_run_ok hrefresh, bind_run_ok hdrop, get_bind_run]
  refine (bind_run_ok hstore).trans ?_
  rw [putSlots_frame]
  refine (modify_bind_run _ _ _).trans ?_
  refine (bind_run_ok (try1_run (setSeg_real ?_ .cs _))).trans (congrArg (Result.ok ()) ?_)
  · exact hi.real.pe
  · have hcpl : (if hasBit f.flags VM then 3 else 0) = 0 := by
      rw [hvm]
      rfl
    unfold CPUI386.delivered
    rw [← hcpl]
    rfl

theorem callIsr_real_inv (hi : Interruptible no s) (h : callIsr no false ext s = .ok () t) :
    ∃ f, s.toLazyFlags.refreshFlags = some f ∧ t = s.delivered no f := by
  cases hf : s.toLazyFlags.refreshFlags with
  | none =>
    have hstop : refreshFlags s = .stop .aborted := by
      unfold refreshFlags
      rw [get_bind_run, hf]
      rfl
    rw [callIsr_enter hi] at h
    unfold isrEnter at h
    rw [bind_run_stop hstop] at h
    cases h
  | some f =>
    rw [callIsr_real hi hf] at h
    cases h
    exact ⟨f, rfl, rfl⟩

/-- Slots at a distance of two or four bytes, on a stack of either width. -/
theorem slots_apart (s : CPUI386) {sp c d : Word} (h : c = d + 2 ∨ c = d + 4) :
    NoOverlap .b16 (s.flatSlot (sp - d)) (s.flatSlot (sp - c)) := by
  intro j k hj hk heq
  change j < 2 at hj
  change k < 2 at hk
  obtain ⟨b, hb⟩ := spMask_eq (s.seg .ss)
  rw [byte_one_page rfl, byte_one_page rfl] at heq
  change (s.seg .ss).base + ((sp - d) &&& (s.seg .ss).spMask) + BitVec.ofNat 32 j =
    (s.seg .ss).base + ((sp - c) &&& (s.seg .ss).spMask) + BitVec.ofNat 32 k at heq
  rw [hb, BitVec.add_assoc, BitVec.add_assoc] at heq
  have hmod := congrArg (fun x : Word => x.toNat % 65536) ((BitVec.add_right_inj _).mp heq)
  have hlow : ∀ x : Word, (x &&& stackMask b).toNat % 65536 = x.toNat % 65536 :=
    fun x => mod_of_mask (mask_mask x (stackMask b))
  have hd := hlow (sp - d)
  have hc := hlow (sp - c)
  have hcn : c.toNat = (d.toNat + 2) % 2 ^ 32 ∨ c.toNat = (d.toNat + 4) % 2 ^ 32 := by
    rcases h with h | h
    · exact .inl (by rw [h, BitVec.toNat_add]; rfl)
    · exact .inr (by rw [h, BitVec.toNat_add]; rfl)
  simp only [BitVec.toNat_add, BitVec.toNat_ofNat] at hmod
  rw [BitVec.toNat_sub] at hd hc
  omega

theorem isrSlots_apart (s : CPUI386) : s.isrSlots.Pairwise (NoOverlap .b16) := by
  refine List.Pairwise.cons ?_ (List.Pairwise.cons ?_ (List.pairwise_singleton _ _))
  · intro m hm
    rcases List.mem_cons.mp hm with rfl | hm
    · exact slots_apart s (.inl rfl)
    · obtain rfl := List.mem_singleton.mp hm
      exact slots_apart s (.inr rfl)
  · intro m hm
    obtain rfl := List.mem_singleton.mp hm
    exact slots_apart s (.inl rfl)

theorem delivered_other {a : Nat} (ha : ¬ s.InFrame a) : (s.delivered no f).mem a = s.mem a := by
  change (s.putSlots .b16 s.isrSlots (s.isrFrame f)).mem a = s.mem a
  apply putSlots_other
  intro m hm j hj heq
  exact ha ⟨m, hm, j, hj, heq⟩

/-- The frame is read back as long as the handler left it alone. -/
theorem frame_word (hi : Interruptible no s) (hu : Undisturbed s.InFrame (s.delivered no f) u)
    {i : Nat} (h3 : i < 3) :
    loadW (s.isrSlots.get ⟨i, h3⟩) .b16 u = .ok ((s.isrFrame f).get ⟨i, h3⟩ &&& 0xffff) u := by
  have hm := List.get_mem s.isrSlots ⟨i, h3⟩
  obtain ⟨laddr, hram⟩ := isrSlots_ram hi hm
  have hload := (hram.congr (t := u) hu.memSize).load
  rw [leWord_low16 (v := (s.isrFrame f).get ⟨i, h3⟩)] at hload
  · exact hload
  · intro k hk
    refine (hu.mem _ ⟨_, hm, k, hk, rfl⟩).trans ?_
    have hspread : ∀ m ∈ s.isrSlots, Spread .b16 m.byte := by
      intro m hm'
      obtain ⟨laddr', hram'⟩ := isrSlots_ram hi hm'
      exact hram'.spread
    exact putSlots_at (s.isrFrame f) hspread (isrSlots_apart s) h3 h3 hk

theorem delivered_undisturbed (kept : Nat → Prop) (hi : Interruptible no s)
    (hf : s.toLazyFlags.refreshFlags = some f) (hfree : ∀ a, kept a → ¬ s.InFrame a) : Undisturbed kept s (s.delivered no f) where
  real :=
    { pe := hi.real.pe
      pg := hi.real.pg
      vm := by
        have hvm := (refreshed_vm hf).trans hi.real.vm
        rw [hasBit_VM] at hvm ⊢
        have hm : (~~~(IF ||| TF)).getLsbD 17 = true := rfl
        change (f.flags &&& ~~~(IF ||| TF)).getLsbD 17 = false
        rw [BitVec.getLsbD_and, hvm, Bool.false_and]
      width := hi.real.width }
  ss := rfl
  gen := rfl
  memSize := rfl
  mem := fun a ha => delivered_other (hfree a ha)

end Delivery

section Return

variable {s t u v : CPUI386} {f : LazyFlags} {no : Byte} {ext ip cs image : Word}

/-- The state after IRET has popped three words. -/
def CPUI386.returned (u : CPUI386) (ip cs image : Word) : CPUI386 :=
  let s := { u with toLazyFlags := { u.toLazyFlags.setMask 0 with flags := u.iretRealFlags image } }
  let s := s.loadReal .cs (cs &&& 0xffff)
  let sp := ((u.gpr 4 + 6) &&& u.spMask) ||| (u.gpr 4 &&& ~~~u.spMask)
  { s.setGpr 4 sp with nextIp := ip }

theorem iret_real (hu : RealMode u) (hip : loadW (u.flatSlot (u.gpr 4)) .b16 u = .ok ip u)
    (hcs : loadW (u.flatSlot (u.gpr 4 + 2)) .b16 u = .ok cs u)
    (himage : loadW (u.flatSlot (u.gpr 4 + 4)) .b16 u = .ok image u) :
    iret true u = .ok () (u.returned ip cs image) := by
  have hpe : ¬ (hasBit u.cr0 1 = true ∧ (¬ hasBit u.flags VM = true ∨
      u.toLazyFlags.getIOPL < 3)) := by
    rw [hu.pe]
    exact fun h => Bool.false_ne_true h.1
  have hset : ∀ c : CPUI386, c.cr0 = u.cr0 → ∀ flags : Word,
      (setSeg .cs cs).catchFault (do
        setFlags fun _ => flags
        fault) c = .ok () (c.loadReal .cs (cs &&& 0xffff)) := by
    intro c hc flags
    unfold Prog.catchFault
    rw [setSeg_real (by rw [hc, hu.pe])]
  have hsize : (onlyIf (¬ (true = true)) (stop .aborted) : M Unit) u = .ok () u := rfl
  unfold iret
  rw [get_bind_run]
  refine (congrFun (if_neg hpe) u).trans ?_
  unfold iretReal
  rw [get_bind_run]
  refine (bind_run_ok hsize).trans ?_
  refine (bind_run_ok (stackSlot_flat hu _)).trans ((bind_run_ok hip).trans ?_)
  refine (bind_run_ok (stackSlot_flat hu _)).trans ((bind_run_ok hcs).trans ?_)
  refine (bind_run_ok (stackSlot_flat hu _)).trans ((bind_run_ok himage).trans ?_)
  refine (modify_bind_run _ _ _).trans ?_
  refine (bind_run_ok (hset _ ?_ _)).trans ?_
  · rfl
  · rfl

/-- IRET reads the slots of the frame, from the last one stored. -/
theorem popSlot_eq (hss : u.seg .ss = s.seg .ss)
    (hsp : u.gpr 4 &&& (s.seg .ss).spMask = (s.gpr 4 - 6) &&& (s.seg .ss).spMask) (c : Word) :
    u.flatSlot (u.gpr 4 + c) = s.flatSlot (s.gpr 4 - 6 + c) := by
  unfold CPUI386.flatSlot
  rw [hss, spMask_add _ hsp]

theorem returned_mask (hi : Interruptible no s)
    (hu : Undisturbed s.InFrame (s.delivered no f) u)
    (hsp : u.gpr 4 &&& u.spMask = (s.delivered no f).gpr 4 &&& (s.delivered no f).spMask) :
    u.gpr 4 &&& (s.seg .ss).spMask = (s.gpr 4 - 6) &&& (s.seg .ss).spMask := by
  have hss : u.seg .ss = s.seg .ss := hu.ss
  rw [hu.real.width, hss] at hsp
  refine hsp.trans ?_
  change ((s.gpr 4 - 6) &&& (s.seg .ss).spMask) &&& s.spMask = _
  rw [hi.real.width, mask_mask]

theorem returned_iret (hi : Interruptible no s) (hu : Undisturbed s.InFrame (s.delivered no f) u)
    (hsp : u.gpr 4 &&& u.spMask = (s.delivered no f).gpr 4 &&& (s.delivered no f).spMask) :
    iret true u = .ok () (u.returned (s.ip &&& 0xffff) ((s.seg .cs).sel &&& 0xffff)
      (f.flags &&& 0xffff)) := by
  have hss : u.seg .ss = s.seg .ss := hu.ss
  have hslot := popSlot_eq hss (returned_mask hi hu hsp)
  refine iret_real hu.real ?_ ?_ ?_
  · have hx : u.flatSlot (u.gpr 4) = s.flatSlot (s.gpr 4 - 2 * BitVec.ofNat 32 3) := by
      have h0 := hslot (BitVec.ofNat 32 0)
      rwa [add_zero_word, add_zero_word] at h0
    rw [hx]
    exact frame_word hi hu (i := 2) (by decide)
  · have hx : s.gpr 4 - 6 + 2 = s.gpr 4 - 2 * BitVec.ofNat 32 2 := by bv_omega
    rw [hslot 2, hx]
    exact frame_word hi hu (i := 1) (by decide)
  · have hx : s.gpr 4 - 6 + 4 = s.gpr 4 - 2 * BitVec.ofNat 32 1 := by bv_omega
    rw [hslot 4, hx]
    exact frame_word hi hu (i := 0) (by decide)

theorem returned_flag (hu : RealMode u) {i : Nat} (hi : i < 16)
    (hg : u.eflagsMask.getLsbD i = true) (h1 : i ≠ 1) (x : Word) :
    (u.returned ip cs (x &&& 0xffff)).flags.getLsbD i = x.getLsbD i := by
  have hhigh : (0xffff0000 : Word).getLsbD i = false := by
    interval_cases i <;> rfl
  change (u.iretRealFlags (x &&& 0xffff)).getLsbD i = x.getLsbD i
  unfold CPUI386.iretRealFlags
  rw [if_neg (by rw [hu.vm]; decide)]
  simp only [BitVec.getLsbD_or, BitVec.getLsbD_and, hhigh, ffff_getLsbD, hi, decide_true, hg,
    LazyFlags.getLsbD_two i h1, Bool.and_false, Bool.and_true, Bool.or_false, Bool.false_or]

end Return

section Handlers

variable {s t u : CPUI386} {f : LazyFlags} {no : Byte} {kept kept' : Nat → Prop}

theorem Undisturbed.refl (hs : RealMode s) : Undisturbed kept s s :=
  ⟨hs, rfl, rfl, rfl, fun _ _ => rfl⟩

theorem Undisturbed.trans (h : Undisturbed kept s t) (h' : Undisturbed kept t u) :
    Undisturbed kept s u where
  real := h'.real
  ss := h'.ss.trans h.ss
  gen := h'.gen.trans h.gen
  memSize := h'.memSize.trans h.memSize
  mem a ha := (h'.mem a ha).trans (h.mem a ha)

theorem Undisturbed.mono (h : Undisturbed kept s t) (hk : ∀ a, kept' a → kept a) :
    Undisturbed kept' s t :=
  ⟨h.real, h.ss, h.gen, h.memSize, fun a ha => h.mem a (hk a ha)⟩

theorem returned_undisturbed (kept : Nat → Prop) (hu : RealMode u) (ip cs x : Word) :
    Undisturbed kept u (u.returned ip cs (x &&& 0xffff)) where
  real :=
    { pe := hu.pe
      pg := hu.pg
      vm := by
        have himage : (x &&& 0xffff).getLsbD 17 = false := by
          rw [BitVec.getLsbD_and, ffff_getLsbD, decide_eq_false (by decide), Bool.and_false]
        exact (iretRealFlags_vm u himage).trans hu.vm
      width := hu.width }
  ss := rfl
  gen := rfl
  memSize := rfl
  mem _ _ := rfl

/-- A handler leaves what is kept alone, whatever interrupts it. -/
theorem Handler.undisturbed (h : Handler kept s u) (hs : RealMode s) : Undisturbed kept s u := by
  induction h with
  | done kept s => exact .refl hs
  | code hcode _ ih => exact hcode.trans (ih hcode.real)
  | @interrupt kept s t u v w no ext hint hfree hisr _ hsp hiret _ ihinner ihrun =>
    obtain ⟨f, hf, rfl⟩ := callIsr_real_inv hint hisr
    have hpush := delivered_undisturbed kept hint hf hfree
    have hbody := ihinner hpush.real
    have hframe := hbody.mono (fun _ h => Or.inr h)
    rw [returned_iret hint hframe hsp] at hiret
    cases hiret
    have hpop := returned_undisturbed kept hframe.real (s.ip &&& 0xffff)
      ((s.seg .cs).sel &&& 0xffff) f.flags
    exact ((hpush.trans (hbody.mono fun _ h => Or.inl h)).trans hpop).trans (ihrun hpop.real)

end Handlers

section Resumption

variable {s t u : CPUI386} {f : LazyFlags} {e : EFlags} {no : Byte} {i : Nat}

theorem arith_bits (h : LazyFlags.arithMask.getLsbD i = true) :
    i = 0 ∨ i = 2 ∨ i = 4 ∨ i = 6 ∨ i = 7 ∨ i = 11 := by
  have hall : ∀ j : Fin 32, LazyFlags.arithMask.getLsbD j.val = true →
      j.val = 0 ∨ j.val = 2 ∨ j.val = 4 ∨ j.val = 6 ∨ j.val = 7 ∨ j.val = 11 := by decide
  exact hall ⟨i, BitVec.lt_of_getLsbD h⟩ h

theorem system_bits (h : systemFlags.getLsbD i = true) : i < 16 ∧ i ≠ 1 ∧
    LazyFlags.arithMask.getLsbD i = false ∧ ∀ g : Gen, g.eflagsMask.getLsbD i = true := by
  have hall : ∀ j : Fin 32, systemFlags.getLsbD j.val = true → j.val < 16 ∧ j.val ≠ 1 ∧
      LazyFlags.arithMask.getLsbD j.val = false ∧ Gen.i386.eflagsMask.getLsbD j.val = true ∧
      Gen.i486.eflagsMask.getLsbD j.val = true ∧ Gen.i586.eflagsMask.getLsbD j.val = true := by
    decide
  obtain ⟨h16, h1, ha, h3, h4, h5⟩ := hall ⟨i, BitVec.lt_of_getLsbD h⟩ h
  exact ⟨h16, h1, ha, fun g => by cases g <;> assumption⟩

/-- Flags that are all stored, with the same arithmetic flags. -/
theorem shows_stored {l l' : LazyFlags} (h : l.Shows e) (hl : l.cc.mask = 0)
    (hl' : l'.cc.mask = 0) (hbits : ∀ i, LazyFlags.arithMask.getLsbD i = true →
      l'.flags.getLsbD i = l.flags.getLsbD i) : l'.Shows e := by
  have h0 : ∀ m, ¬ hasBit l.cc.mask m = true := by
    intro m
    rw [hl]
    simp [hasBit]
  obtain ⟨hcf, hpf, haf, hzf, hsf, hof⟩ := h
  rw [LazyFlags.getCF, if_neg (h0 CF), hasBit_CF, Option.some_inj] at hcf
  rw [LazyFlags.getPF, if_neg (h0 PF), hasBit_PF] at hpf
  rw [LazyFlags.getAF, if_neg (h0 AF), hasBit_AF] at haf
  rw [LazyFlags.getZF, if_neg (h0 ZF), hasBit_ZF] at hzf
  rw [LazyFlags.getSF, if_neg (h0 SF), hasBit_SF] at hsf
  rw [LazyFlags.getOF, if_neg (h0 OF), hasBit_OF, Option.some_inj] at hof
  apply LazyFlags.shows_of_stored hl'
  · exact (hbits 0 rfl).trans hcf
  · exact fun b hb => (hbits 2 rfl).trans (hpf b hb)
  · exact fun b hb => (hbits 4 rfl).trans (haf b hb)
  · exact fun b hb => (hbits 6 rfl).trans (hzf b hb)
  · exact fun b hb => (hbits 7 rfl).trans (hsf b hb)
  · exact (hbits 11 rfl).trans hof

theorem returned_shows (hu : RealMode u) (h : (f.setMask 0).Shows e) (ip cs : Word) :
    (u.returned ip cs (f.flags &&& 0xffff)).Shows e := by
  refine shows_stored h rfl rfl fun i hi => ?_
  have harith := arith_bits hi
  exact returned_flag hu (by omega) (LazyFlags.eflagsMask_getLsbD u.gen harith) (by omega) f.flags

theorem returned_system (hf : s.toLazyFlags.refreshFlags = some f) (hu : RealMode u)
    (ip cs : Word) : (u.returned ip cs (f.flags &&& 0xffff)).flags &&& systemFlags =
      s.flags &&& systemFlags := by
  obtain ⟨cf, of, -, -, rfl⟩ := LazyFlags.refreshFlags_some hf
  apply BitVec.eq_of_getLsbD_eq
  intro i _
  rw [BitVec.getLsbD_and, BitVec.getLsbD_and]
  cases hb : systemFlags.getLsbD i with
  | false => rw [Bool.and_false, Bool.and_false]
  | true =>
    obtain ⟨h16, h1, harith, hgen⟩ := system_bits hb
    rw [returned_flag hu h16 (hgen u.gen) h1]
    have hrest := congrArg (fun x : Word => x.getLsbD i)
      (LazyFlags.storeFlags_rest s.flags cf s.getPF s.getAF s.getZF s.getSF of)
    simp only [BitVec.getLsbD_and, BitVec.getLsbD_not, harith, (by omega : i < 32), decide_true,
      Bool.not_false, Bool.and_true] at hrest
    rw [hrest]

theorem returned_sp (hi : Interruptible no s) (hu : Undisturbed s.InFrame (s.delivered no f) u)
    (hsp : u.gpr 4 &&& u.spMask = (s.delivered no f).gpr 4 &&& (s.delivered no f).spMask)
    (ip cs image : Word) :
    (u.returned ip cs image).gpr 4 &&& (u.returned ip cs image).spMask = s.gpr 4 &&& s.spMask := by
  have hss : u.seg .ss = s.seg .ss := hu.ss
  have hmask : u.spMask = (s.seg .ss).spMask := by rw [hu.real.width, hss]
  have hpop := spMask_add (s.seg .ss) (returned_mask hi hu hsp) 6
  have hgpr : (u.returned ip cs image).gpr 4 =
      ((u.gpr 4 + 6) &&& u.spMask) ||| (u.gpr 4 &&& ~~~u.spMask) :=
    Function.update_self 4 _ u.gpr
  have hsame : (u.returned ip cs image).spMask = u.spMask := rfl
  rw [hgpr, hsame, merge_and, hmask, hpop, hi.real.width, BitVec.sub_add_cancel]

theorem returned_resumed (hi : Interruptible no s) (hf : s.toLazyFlags.refreshFlags = some f)
    (hu : Undisturbed s.InFrame (s.delivered no f) u)
    (hsp : u.gpr 4 &&& u.spMask = (s.delivered no f).gpr 4 &&& (s.delivered no f).spMask) :
    Resumed s u (u.returned (s.ip &&& 0xffff) ((s.seg .cs).sel &&& 0xffff)
      (f.flags &&& 0xffff)) where
  ip := rfl
  cs := by
    change Segment.real ((s.seg .cs).sel &&& 0xffff &&& 0xffff) = _
    rw [mask_mask]
  sp := returned_sp hi hu hsp _ _ _
  arith e he := by
    obtain ⟨f', hf', hshows⟩ := LazyFlags.refreshed_shows he
    obtain rfl := Option.some.inj (hf.symm.trans hf')
    exact returned_shows hu.real hshows _ _
  system := returned_system hf hu.real _ _
  regs i hne := Function.update_of_ne hne _ _
  segs r hne := Function.update_of_ne hne _ _
  mem := rfl

structure HandlerEntered (no : Byte) (s t : CPUI386) : Prop where
  ip : t.ip = s.handler no &&& 0xffff
  nextIp : t.nextIp = s.handler no &&& 0xffff
  cs : t.seg .cs = Segment.real ((s.handler no >>> 16) &&& 0xffff)
  masked : t.flags &&& (IF ||| TF) = 0
  mem : ∀ a, ¬ s.InFrame a → t.mem a = s.mem a

/-- In real mode an interrupt enters the handler of its vector, and the IRET of the handler resumes
the interrupted program, however deep the handler was interrupted itself. -/
theorem interrupt_resumes (ext : Word) (hi : Interruptible no s) (he : s.Shows e) :
    ∃ t, callIsr no false ext s = .ok () t ∧ HandlerEntered no s t ∧
      ∀ (kept : Nat → Prop) (u : CPUI386), (∀ a, s.InFrame a → kept a) → Handler kept t u →
        u.gpr 4 &&& u.spMask = t.gpr 4 &&& t.spMask →
          ∃ v, iret true u = .ok () v ∧ Resumed s u v := by
  obtain ⟨f, hf, hshows⟩ := LazyFlags.refreshed_shows he
  refine ⟨_, callIsr_real hi hf, ?_, ?_⟩
  · refine ⟨rfl, rfl, rfl, ?_, fun a ha => delivered_other ha⟩
    change f.flags &&& ~~~(IF ||| TF) &&& (IF ||| TF) = 0
    rw [BitVec.and_assoc]
    exact BitVec.and_zero
  · intro kept u hkept hrun hsp
    have hpush := delivered_undisturbed (fun _ => False) hi hf fun _ h => h.elim
    have hu := (hrun.undisturbed hpush.real).mono hkept
    exact ⟨_, returned_iret hi hu hsp, returned_resumed hi hf hu hsp⟩

theorem realMode_stackCpu : RealMode stackCpu := ⟨rfl, rfl, rfl, rfl⟩

theorem interruptible_stackCpu : Interruptible 0x10 stackCpu where
  real := realMode_stackCpu
  vector := by
    unfold CPUI386.Ram
    decide
  frame := by
    unfold CPUI386.Ram
    decide

def enteredCpu : CPUI386 := stackCpu.delivered 0x10 stackCpu.toLazyFlags

/-- The handler has changed AX and a byte of memory. -/
def handlingCpu : CPUI386 :=
  { enteredCpu.setGpr 0 0x1234 with mem := Function.update enteredCpu.mem 0x600 0x77 }

theorem interruptible_handlingCpu : Interruptible 8 handlingCpu where
  real := ⟨rfl, rfl, rfl, rfl⟩
  vector := by
    unfold CPUI386.Ram
    decide
  frame := by
    unfold CPUI386.Ram
    decide

theorem noFlags_shown {l : LazyFlags} (hmask : l.cc.mask = 0) (hcf : l.flags.getLsbD 0 = false)
    (hof : l.flags.getLsbD 11 = false) : l.Shows ⟨false, none, none, none, none, false⟩ :=
  LazyFlags.shows_of_stored hmask hcf (fun _ h => by cases h) (fun _ h => by cases h)
    (fun _ h => by cases h) (fun _ h => by cases h) hof

/-- The handler is interrupted itself before it returns. -/
theorem interrupt_resumes_stackCpu : ∃ u v, Handler stackCpu.InFrame enteredCpu u ∧
    iret true u = .ok () v ∧ Resumed stackCpu u v ∧ v.gpr 0 = 0x1234 ∧ v.mem 0x600 = 0x77 := by
  obtain ⟨t, ht, -, hreturn⟩ :=
    interrupt_resumes 0 interruptible_stackCpu (noFlags_shown rfl rfl rfl)
  obtain ⟨t', ht', hinner, hreturn'⟩ :=
    interrupt_resumes 0 interruptible_handlingCpu (noFlags_shown rfl rfl rfl)
  obtain ⟨f', hf', rfl⟩ := callIsr_real_inv interruptible_handlingCpu ht'
  obtain ⟨f, hf, rfl⟩ := callIsr_real_inv interruptible_stackCpu ht
  obtain rfl : stackCpu.toLazyFlags = f := Option.some.inj hf
  obtain ⟨w, hw, hresumed'⟩ := hreturn' handlingCpu.InFrame _ (fun _ h => h) (.done _ _) rfl
  have hapart : ∀ m ∈ stackCpu.isrSlots, ∀ j < 2, ∀ m' ∈ handlingCpu.isrSlots, ∀ j' < 2,
      (m.byte j).toNat ≠ (m'.byte j').toNat := by decide
  have hfree : ∀ a, stackCpu.InFrame a → ¬ handlingCpu.InFrame a := by
    rintro a ⟨m, hm, j, hj, rfl⟩ ⟨m', hm', j', hj', h⟩
    exact hapart m hm j hj m' hm' j' hj' h
  have hpoked : ∀ m ∈ stackCpu.isrSlots, ∀ j < 2, (m.byte j).toNat ≠ 0x600 := by
    decide
  have hunframed : ¬ handlingCpu.InFrame 0x600 := by
    rintro ⟨m, hm, j, hj, h⟩
    have hne : ∀ m ∈ handlingCpu.isrSlots, ∀ j < 2, 0x600 ≠ (m.byte j).toNat := by decide
    exact hne m hm j hj h
  have hrun : Handler stackCpu.InFrame enteredCpu w := by
    refine .code (t := handlingCpu) ⟨⟨rfl, rfl, rfl, rfl⟩, rfl, rfl, rfl, ?_⟩ ?_
    · rintro a ⟨m, hm, j, hj, rfl⟩
      exact Function.update_of_ne (hpoked m hm j hj) _ _
    · exact .interrupt interruptible_handlingCpu hfree ht' (.done _ _) rfl hw (.done _ w)
  obtain ⟨v, hv, hresumed⟩ := hreturn stackCpu.InFrame w (fun _ h => h) hrun hresumed'.sp
  refine ⟨w, v, hrun, hv, hresumed, ?_, ?_⟩
  · rw [hresumed.regs 0 (by decide), hresumed'.regs 0 (by decide)]
    rfl
  · rw [hresumed.mem, hresumed'.mem, hinner.mem 0x600 hunframed]
    rfl

end Resumption

end Winspire.Cpu
