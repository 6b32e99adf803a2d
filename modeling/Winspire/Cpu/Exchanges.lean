import Winspire.Cpu.EagerFlags
import Winspire.Cpu.FlagRuns
import Winspire.Cpu.RamOperands
import Winspire.Cpu.StringElems

/-!
# Compare and exchange

`CMPXCH_helper`, `XADD_helper` and `CMPXCH8B` of i386.c.
-/

namespace Winspire.Cpu

open Faulting

set_option autoImplicit false

/-- `CMPXCH_helper`: the accumulator is taken from the destination, not the other way round. -/
def CMPXCH (w : Width) (a : RmOperand) (b : Fin 8) : M Unit := do
  let src1 ← a.load w
  let src2 := lregW w (← get) 0
  modify fun s => s.withLazy (s.sub w src1 src2)
  let s ← get
  if s.cc.dst = 0 then a.store w (lregW w s b) else sregW 0 s.cc.src1 w

def XADD (w : Width) (a : RmOperand) (b : Fin 8) : M Unit := do
  let dst ← a.load w
  let src1 ← a.load w
  let src2 := lregW w (← get) b
  modify fun s => s.withLazy (s.add w src1 src2)
  sregW b dst w
  a.store w (← get).cc.dst

def CMPXCH8B (seg : SegReg) (addr : Word) : M Unit := do
  let meml1 ← translate32 3 seg addr
  let meml2 ← translate32 3 seg (addr + 4)
  let lo ← load32 meml1
  let hi ← load32 meml2
  let s ← get
  if s.gpr 0 = lo ∧ s.gpr 2 = hi then do
    modify fun s => s.withLazy { s.toLazyFlags with flags := s.flags ||| ZF }
    store32 meml1 (s.gpr 3)
    store32 meml2 (s.gpr 1)
  else do
    modify fun s => s.withLazy { s.toLazyFlags with flags := s.flags &&& ~~~ZF }
    modify fun s => (s.setGpr 0 lo).setGpr 2 hi
  modify fun s => s.withLazy (s.setMask (s.cc.mask &&& ~~~ZF))

/-- The low bits of a register or an operand. -/
def Width.part (w : Width) (v : Word) : BitVec w.bits := v.setWidth w.bits

/-- `t` is `s` with another ZF. -/
structure OnlyZF (s t : LazyFlags) (z : Bool) : Prop where
  zf : t.getZF = z
  cf : t.getCF = s.getCF
  pf : t.getPF = s.getPF
  af : t.getAF = s.getAF
  sf : t.getSF = s.getSF
  of : t.getOF = s.getOF
  rest : ∀ i, i ≠ 6 → t.flags.getLsbD i = s.flags.getLsbD i

inductive Exchange where
  | cmpxch (w : Width) (a : RmOperand) (b : Fin 8)
  | xadd (w : Width) (a : RmOperand) (b : Fin 8)
  | cmpxch8b (seg : SegReg) (addr : Word)

namespace Exchange

def exec : Exchange → M Unit
  | cmpxch w a b => CMPXCH w a b
  | xadd w a b => XADD w a b
  | cmpxch8b seg addr => CMPXCH8B seg addr

/-- The flags of CMP accumulator, destination, and the source or the destination stored. -/
def Compares (w : Width) (a : RmOperand) (b : Fin 8) (s : CPUI386) : Prop :=
  ∃ l : LazyFlags, l.flags = s.flags ∧
    l.Shows (.sub (w.part (lregW w s 0)) (w.part (a.value w s)) false) ∧
    CMPXCH w a b s = .ok ()
      ((if w.part (lregW w s 0) = w.part (a.value w s) then a.put w (lregW w s b) s
        else s.setReg 0 (a.value w s) w).withLazy l)

/-- The flags of ADD, the old destination in the source, and then the sum in the destination. -/
def Adds (w : Width) (a : RmOperand) (b : Fin 8) (s : CPUI386) : Prop :=
  ∃ (l : LazyFlags) (sum : Word), l.flags = s.flags ∧
    l.Shows (.add (w.part (a.value w s)) (w.part (lregW w s b)) false) ∧
    w.part sum = w.part (a.value w s) + w.part (lregW w s b) ∧
    XADD w a b s = .ok () ((a.put w sum (s.setReg b (a.value w s) w)).withLazy l)

def dword (m : OptAddr) (t : CPUI386) : Word := leWord (fun k => t.byteAt (m.byte k)) .b32

/-- ZF, and both dwords or EDX:EAX; `t` is the state in which they have been translated. -/
def ComparesWide (seg : SegReg) (addr : Word) (s : CPUI386) : Prop :=
  ∀ m1 m2 u t, translate32 3 seg addr s = .ok m1 u → translate32 3 seg (addr + 4) u = .ok m2 t →
    (∀ k, k < 4 → t.Ram (m1.byte k)) → (∀ k, k < 4 → t.Ram (m2.byte k)) →
    (∀ j k, j < 4 → k < 4 → m1.byte j ≠ m2.byte k) ∧
    ∃ l, OnlyZF t.toLazyFlags l (decide (t.gpr 0 = dword m1 t ∧ t.gpr 2 = dword m2 t)) ∧
      CMPXCH8B seg addr s = .ok ()
        ((if t.gpr 0 = dword m1 t ∧ t.gpr 2 = dword m2 t then
          (t.setBytes m1.byte (byteOf (t.gpr 3)) 4).setBytes m2.byte (byteOf (t.gpr 1)) 4
          else (t.setGpr 0 (dword m1 t)).setGpr 2 (dword m2 t)).withLazy l)

def Right (i : Exchange) (s : CPUI386) : Prop :=
  match i with
  | cmpxch w a b => Compares w a b s
  | xadd w a b => Adds w a b s
  | cmpxch8b seg addr => ComparesWide seg addr s

/-- The operand is a register or guest memory; CMPXCHG8B translates its own. -/
def Ready (i : Exchange) (s : CPUI386) : Prop :=
  match i with
  | cmpxch w a _ | xadd w a _ => a.Ram w s
  | cmpxch8b _ _ => CacheRun s

/-- The accumulator holds what the destination does. -/
def Matches (i : Exchange) (s : CPUI386) : Prop :=
  match i with
  | cmpxch w a _ => w.part (lregW w s 0) = w.part (a.value w s)
  | xadd .. | cmpxch8b .. => True

end Exchange

section Parts

variable {w : Width} {x y : Word} {s : CPUI386}

theorem sext_part (w : Width) (x : Word) : sext w ((w.part x).setWidth 32) = sext w x :=
  sext_setWidth w (w.part x)

theorem sub_part (w : Width) (x y : Word) (l : LazyFlags) :
    l.sub w x y = l.sub w ((w.part x).setWidth 32) ((w.part y).setWidth 32) := by
  unfold LazyFlags.sub LazyFlags.aop0Helper
  rw [sext_part, sext_part]

theorem add_part (w : Width) (x y : Word) (l : LazyFlags) :
    l.add w x y = l.add w ((w.part x).setWidth 32) ((w.part y).setWidth 32) := by
  unfold LazyFlags.add LazyFlags.aop0Helper
  rw [sext_part, sext_part]

theorem part_sext (w : Width) (x : Word) : w.part (sext w x) = w.part x :=
  SignExtend.setWidth_signExtend w.bits_le _

theorem setReg_part (h : w.part x = w.part y) (i : Fin 8) : s.setReg i x w = s.setReg i y w := by
  cases w with
  | b8 =>
    have hand : x &&& 0xff = y &&& 0xff := by
      apply BitVec.eq_of_toNat_eq
      rw [and_ff_toNat, and_ff_toNat]
      exact congrArg BitVec.toNat h
    simp only [CPUI386.setReg, hand]
  | b16 =>
    have hand : x &&& 0xffff = y &&& 0xffff := by
      rw [and_ffff, and_ffff]
      exact congrArg (BitVec.setWidth 32) h
    simp only [CPUI386.setReg, hand]
  | b32 =>
    have hxy : x = y := by rwa [Width.part, Width.part, Width.bits, BitVec.setWidth_eq,
      BitVec.setWidth_eq] at h
    rw [hxy]

end Parts

section Cmpxch

variable {w : Width} {a : RmOperand} {b : Fin 8} {s : CPUI386}

theorem sub_dst_eq_zero_iff (w : Width) (x y : Word) (l : LazyFlags) :
    (l.sub w x y).cc.dst = 0 ↔ w.part x = w.part y := by
  have hd : (l.sub w x y).cc.dst = sext w (sext w x - sext w y) := rfl
  have hs : (sext w x - sext w y).setWidth w.bits = w.part x - w.part y :=
    LazyFlags.setWidth_sub_signExtend (w.part x) (w.part y)
  have h0 : (0 : Word) = (0 : BitVec w.bits).signExtend 32 := by cases w <;> rfl
  rw [hd, sext, hs, h0, SignExtend.signExtend_inj w.bits_le, BitVec.sub_eq_iff_eq_add,
    BitVec.ofNat_eq_ofNat, BitVec.zero_add]

/-- What CMPXCHG leaves: its flags are those of destination minus accumulator. -/
theorem cmpxch_run (h : a.Ram w s) :
    CMPXCH w a b s = .ok ()
      ((if w.part (lregW w s 0) = w.part (a.value w s) then a.put w (lregW w s b) s
        else s.setReg 0 (a.value w s) w).withLazy (s.sub w (a.value w s) (lregW w s 0))) := by
  unfold CMPXCH
  rw [bind_run_ok h.load, get_bind_run, modify_bind_run, get_bind_run]
  change (if (s.sub w (a.value w s) (lregW w s 0)).cc.dst = 0 then a.store w (lregW w s b)
    else sregW 0 (sext w (a.value w s)) w)
      (s.withLazy (s.sub w (a.value w s) (lregW w s 0))) = _
  by_cases heq : w.part (lregW w s 0) = w.part (a.value w s)
  · have hram : a.Ram w (s.withLazy (s.sub w (a.value w s) (lregW w s 0))) := h.congr rfl
    rw [if_pos ((sub_dst_eq_zero_iff _ _ _ _).mpr heq.symm), if_pos heq, ← RmOperand.put_withLazy]
    exact hram.store
  · rw [if_neg (fun hz => heq ((sub_dst_eq_zero_iff _ _ _ _).mp hz).symm), if_neg heq,
      sregW_eq_setReg, ← setReg_withLazy, setReg_part (part_sext w _)]

/-- The accumulator is below or above the destination, but not both. -/
theorem compares_iff (h : a.Ram w s) :
    Exchange.Compares w a b s ↔ w.part (lregW w s 0) = w.part (a.value w s) := by
  have hsub := LazyFlags.sub_shows (w.part (a.value w s)) (w.part (lregW w s 0)) s.toLazyFlags
  rw [← sub_part] at hsub
  constructor
  · rintro ⟨l, -, hl, hrun⟩
    rw [cmpxch_run h] at hrun
    have hll := congrArg CPUI386.toLazyFlags (Result.ok.inj hrun).2
    change s.sub w (a.value w s) (lregW w s 0) = l at hll
    have hcf := hl.cf
    rw [← hll, hsub.cf] at hcf
    have hiff := decide_eq_decide.mp (Option.some.inj hcf)
    apply BitVec.eq_of_toNat_eq
    simp only [Bool.toNat_false] at hiff
    omega
  · intro heq
    refine ⟨_, ?_, ?_, cmpxch_run h⟩
    · rfl
    · rw [← heq] at hsub ⊢
      exact hsub

end Cmpxch

theorem add_dst_part (w : Width) (x y : Word) (l : LazyFlags) :
    w.part (l.add w x y).cc.dst = w.part x + w.part y := by
  have hd : (l.add w x y).cc.dst = sext w (sext w x + sext w y) := rfl
  rw [hd, part_sext, Width.part, BitVec.setWidth_add _ _ w.bits_le]
  change w.part (sext w x) + w.part (sext w y) = _
  rw [part_sext, part_sext]

theorem adds {w : Width} {a : RmOperand} {b : Fin 8} {s : CPUI386} (h : a.Ram w s) :
    Exchange.Adds w a b s := by
  have hadd := LazyFlags.add_shows (w.part (a.value w s)) (w.part (lregW w s b)) s.toLazyFlags
  rw [← add_part] at hadd
  refine ⟨s.add w (a.value w s) (lregW w s b), (s.add w (a.value w s) (lregW w s b)).cc.dst, rfl,
    hadd, add_dst_part w _ _ _, ?_⟩
  have hram : a.Ram w ((s.withLazy (s.add w (a.value w s) (lregW w s b))).setReg b (a.value w s)
      w) := by
    apply h.congr
    rw [setReg_frame]
    rfl
  unfold XADD
  rw [bind_run_ok h.load, bind_run_ok h.load, get_bind_run, modify_bind_run,
    bind_run_ok (sregW_eq_setReg _ _ _ _), get_bind_run, hram.store, setReg_withLazy,
    RmOperand.put_withLazy]
  rfl

section Wide

variable {s t u : CPUI386} {seg : SegReg} {addr : Word} {m1 m2 : OptAddr}

theorem getLsbD_clearZF (x : Word) {i : Nat} (hi : i ≠ 6) :
    (x &&& ~~~ZF).getLsbD i = x.getLsbD i := by
  by_cases h : i < 32
  · have h1 : (~~~ZF).getLsbD i = true := by
      have hz : ZF = BitVec.twoPow 32 6 := rfl
      rw [BitVec.getLsbD_not, hz, BitVec.getLsbD_twoPow]
      simp [h, Ne.symm hi]
    rw [BitVec.getLsbD_and, h1, Bool.and_true]
  · rw [BitVec.getLsbD_of_ge _ i (by omega), BitVec.getLsbD_of_ge _ i (by omega)]

theorem getLsbD_clearZF_self (x : Word) : (x &&& ~~~ZF).getLsbD 6 = false := by
  rw [BitVec.getLsbD_and]
  exact Bool.and_false _

theorem getLsbD_orZF (x : Word) {i : Nat} (hi : i ≠ 6) : (x ||| ZF).getLsbD i = x.getLsbD i := by
  have hz : ZF = BitVec.twoPow 32 6 := rfl
  rw [BitVec.getLsbD_or, hz, BitVec.getLsbD_twoPow]
  simp [Ne.symm hi]

theorem getLsbD_orZF_self (x : Word) : (x ||| ZF).getLsbD 6 = true := by
  rw [BitVec.getLsbD_or]
  exact Bool.or_true _

def LazyFlags.storeZF (l : LazyFlags) (f : Word) : LazyFlags :=
  ({ l with flags := f } : LazyFlags).setMask (l.cc.mask &&& ~~~ZF)

theorem onlyZF_storeZF (l : LazyFlags) {f : Word} {z : Bool} (hz : f.getLsbD 6 = z)
    (hf : ∀ i, i ≠ 6 → f.getLsbD i = l.flags.getLsbD i) : OnlyZF l (l.storeZF f) z := by
  have hm : ∀ {i : Nat}, i ≠ 6 → (l.cc.mask &&& ~~~ZF).getLsbD i = l.cc.mask.getLsbD i :=
    fun hi => getLsbD_clearZF _ hi
  have hzero := getLsbD_clearZF_self l.cc.mask
  have hcf : (l.storeZF f).getCF = l.getCF := by
    simp only [LazyFlags.storeZF, LazyFlags.setMask, LazyFlags.getCF, hasBit_CF,
      hm (i := 0) (by decide), hf 0 (by decide)]
    rfl
  refine ⟨?_, hcf, ?_, ?_, ?_, ?_, hf⟩
  · simp only [LazyFlags.storeZF, LazyFlags.setMask, LazyFlags.getZF, hasBit_ZF, hzero,
      Bool.false_eq_true, if_false, hz]
  · simp only [LazyFlags.storeZF, LazyFlags.setMask, LazyFlags.getPF, hasBit_PF,
      hm (i := 2) (by decide), hf 2 (by decide)]
  · simp only [LazyFlags.storeZF, LazyFlags.setMask, LazyFlags.getAF, hasBit_AF,
      hm (i := 4) (by decide), hf 4 (by decide)]
  · simp only [LazyFlags.storeZF, LazyFlags.setMask, LazyFlags.getSF, hasBit_SF,
      hm (i := 7) (by decide), hf 7 (by decide)]
  · rw [LazyFlags.getOF, hcf]
    simp only [LazyFlags.storeZF, LazyFlags.setMask, LazyFlags.getOF, hasBit_OF,
      hm (i := 11) (by decide), hf 11 (by decide)]

/-- The eight bytes are apart: they have different places in their pages. -/
theorem dwords_apart {laddr : Word} (h1 : m1.Ram .b32 laddr t) (h2 : m2.Ram .b32 (laddr + 4) t)
    {j k : Nat} (hj : j < 4) (hk : k < 4) : m1.byte j ≠ m2.byte k := by
  intro heq
  have hlow := (h1.low j hj).symm.trans ((congrArg (· &&& 0xfff) heq).trans (h2.low k hk))
  have hn := congrArg BitVec.toNat hlow
  have h4 : (4 : Word).toNat = 4 := rfl
  rw [and_fff_toNat, and_fff_toNat, BitVec.toNat_add, BitVec.toNat_add, BitVec.toNat_add,
    BitVec.toNat_ofNat, BitVec.toNat_ofNat, h4] at hn
  omega

theorem withLazy_withLazy (s : CPUI386) (l l' : LazyFlags) :
    (s.withLazy l).withLazy l' = s.withLazy l' := rfl

theorem cmpxch8b_run {l1 l2 : Word} (h1 : translate32 3 seg addr s = .ok m1 u)
    (h2 : translate32 3 seg (addr + 4) u = .ok m2 t) (hm1 : m1.Ram .b32 l1 t)
    (hm2 : m2.Ram .b32 l2 t) :
    CMPXCH8B seg addr s = .ok ()
      (if t.gpr 0 = Exchange.dword m1 t ∧ t.gpr 2 = Exchange.dword m2 t then
        ((t.setBytes m1.byte (byteOf (t.gpr 3)) 4).setBytes m2.byte (byteOf (t.gpr 1)) 4).withLazy
          (t.storeZF (t.flags ||| ZF))
      else ((t.setGpr 0 (Exchange.dword m1 t)).setGpr 2 (Exchange.dword m2 t)).withLazy
          (t.storeZF (t.flags &&& ~~~ZF))) := by
  unfold CMPXCH8B
  rw [bind_run_ok h1, bind_run_ok h2]
  refine Eq.trans (bind_run_ok hm1.load) ?_
  refine Eq.trans (bind_run_ok hm2.load) ?_
  rw [get_bind_run]
  change (if t.gpr 0 = Exchange.dword m1 t ∧ t.gpr 2 = Exchange.dword m2 t then _ else _ : M Unit)
    t = _
  by_cases heq : t.gpr 0 = Exchange.dword m1 t ∧ t.gpr 2 = Exchange.dword m2 t
  · rw [if_pos heq, if_pos heq, modify_bind_run]
    have hs1 : m1.Ram .b32 l1 (t.withLazy { t.toLazyFlags with flags := t.flags ||| ZF }) :=
      hm1.congr rfl
    refine Eq.trans (bind_run_ok hs1.store) ?_
    have hs2 := hm2.congr (t := (t.withLazy { t.toLazyFlags with flags := t.flags ||| ZF }).setBytes
      m1.byte (byteOf (t.gpr 3)) 4) (by rw [setBytes_frame]; rfl)
    refine Eq.trans (bind_run_ok hs2.store) ?_
    rw [setBytes_withLazy, setBytes_withLazy]
    exact congrArg (Result.ok ()) (withLazy_withLazy _ _ _)
  · rw [if_neg heq, if_neg heq]
    rfl

theorem comparesWide (hr : CacheRun s) : Exchange.ComparesWide seg addr s := by
  intro m1 m2 u t h1 h2 hin1 hin2
  obtain ⟨hc1, hau, hram1⟩ := translateW_ram (w := .b32) (cacheRun_aligned hr) h1
  obtain ⟨hc2, -, hram2⟩ := translateW_ram (w := .b32) hau h2
  have hseg : (u.seg seg).base + (addr + 4) = (s.seg seg).base + addr + 4 := by
    rw [BitVec.add_assoc, hc1.rest]
  have hm1 := hram1 t hin1
  have hm2 := hram2 t hin2
  have hrun := cmpxch8b_run h1 h2 hm1 hm2
  rw [hseg] at hm2
  refine ⟨fun j k hj hk => dwords_apart hm1 hm2 hj hk, ?_⟩
  by_cases heq : t.gpr 0 = Exchange.dword m1 t ∧ t.gpr 2 = Exchange.dword m2 t
  · rw [if_pos heq] at hrun
    rw [if_pos heq, decide_eq_true heq]
    exact ⟨_, onlyZF_storeZF _ (getLsbD_orZF_self _) (fun _ hi => getLsbD_orZF _ hi), hrun⟩
  · rw [if_neg heq] at hrun
    rw [if_neg heq, decide_eq_false heq]
    exact ⟨_, onlyZF_storeZF _ (getLsbD_clearZF_self _) (fun _ hi => getLsbD_clearZF _ hi), hrun⟩

end Wide

namespace Exchange

/-- An exchange is right exactly where a CMPXCHG finds the accumulator in the destination. -/
theorem right_iff_matches {s : CPUI386} (i : Exchange) (h : i.Ready s) :
    i.Right s ↔ i.Matches s := by
  cases i with
  | cmpxch w a b => exact compares_iff h
  | xadd w a b => exact iff_of_true (adds h) trivial
  | cmpxch8b seg addr => exact iff_of_true (comparesWide h) trivial

/-- AX and the word at 0x2000 are 0x1234, and BX is 7. -/
def matchingCpu : CPUI386 :=
  { (smallCpu.setGpr 0 0x1234).setGpr 3 7 with
    mem := fun a => if a = 0x2000 then 0x34 else if a = 0x2001 then 0x12 else 0 }

theorem right_iff_matches_bx :
    (cmpxch .b16 (.addr ⟨0x2000, none⟩) 3).Right matchingCpu := by
  refine (right_iff_matches (cmpxch .b16 (.addr ⟨0x2000, none⟩) 3) ?_).mpr ?_
  · have hbytes : ∀ k, k < Width.b16.bytes → k = 0 ∨ k = 1 := fun k hk => by
      have hk2 : k < 2 := hk
      omega
    refine ⟨0x2000, ?_, fun k hk => ?_, fun k hk => ?_⟩
    · intro h
      cases h
    · rcases hbytes k hk with rfl | rfl
      · exact ⟨rfl, by decide⟩
      · exact ⟨rfl, by decide⟩
    · rfl
  · change Width.b16.part (lregW .b16 matchingCpu 0) = Width.b16.part _
    decide

/-- AX is 0 and BX is 1: CMP would set CF. -/
theorem cmpxch_flags_differ : ¬ ∀ (i : Exchange) (s : CPUI386), i.Ready s → i.Right s := by
  intro h
  have hright := h (cmpxch .b16 (.reg 3) 1) (smallCpu.setGpr 3 1) trivial
  have hram : RmOperand.Ram .b16 (smallCpu.setGpr 3 1) (.reg 3) := trivial
  have hsame := (compares_iff hram).mp hright
  exact absurd hsame (by decide)

end Exchange

end Winspire.Cpu
