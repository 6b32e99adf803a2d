import Winspire.Cpu.Backstage
import Winspire.Cpu.Fusion
import Winspire.Cpu.FetchRuns
import Winspire.Cpu.LazyFlags

/-!
# When the jump behind CMP or TEST can be taken early

The running pointer still counts from the start of the instruction when `try_jcc8` uses it. It
is right as long as the instruction and the jump stay in one page and, in 16-bit code, IP does
not wrap before the jump.
-/

namespace Winspire.Cpu

open Faulting Pages

set_option autoImplicit false

/-- The pointer, where it is still on, has moved with IP. -/
structure Decodes (s t : CPUI386) : Prop where
  ip : t.ip = s.ip
  seg : t.seg = s.seg
  code16 : t.code16 = s.code16
  memSize : t.memSize = s.memSize
  pointer : t.ifetch.paddr ≠ 0 → s.ifetch.paddr ≠ 0 ∧ t.ifetch.laddr = s.ifetch.laddr ∧
    t.ifetch.xaddr = s.ifetch.xaddr ∧ t.ifetch.paddr - t.nextIp = s.ifetch.paddr - s.nextIp

instance : IsPreorder CPUI386 Decodes where
  refl _ := ⟨rfl, rfl, rfl, rfl, fun h => ⟨h, rfl, rfl, rfl⟩⟩
  trans s t u h h' := by
    refine ⟨h'.ip.trans h.ip, h'.seg.trans h.seg, h'.code16.trans h.code16,
      h'.memSize.trans h.memSize, ?_⟩
    intro hp
    obtain ⟨ht, hl', hx', he'⟩ := h'.pointer hp
    obtain ⟨hs, hl, hx, he⟩ := h.pointer ht
    exact ⟨hs, hl'.trans hl, hx'.trans hx, he'.trans he⟩

theorem Backstage.decodes {s t : CPUI386} (h : Backstage s t) : Decodes s t := by
  unfold Backstage at h
  rw [h]
  exact ⟨rfl, rfl, rfl, rfl, fun hp => ⟨hp, rfl, rfl, rfl⟩⟩

theorem decodes_of_backstage {α : Type} {x : M α} (h : Stays Backstage x) : Stays Decodes x :=
  h.mono fun _ _ => Backstage.decodes

theorem sub_add_step (x y n : Word) : x + n - (y + n) = x - y := by bv_omega

theorem decodes_advance (s : CPUI386) (n : Word) (h : s.ifetch.paddr ≠ 0) :
    Decodes s (s.advance n) :=
  ⟨rfl, rfl, rfl, rfl, fun _ => ⟨h, rfl, rfl, sub_add_step _ _ _⟩⟩

structure Peeks (s t : CPUI386) : Prop where
  ip : t.ip = s.ip
  seg : t.seg = s.seg
  code16 : t.code16 = s.code16
  memSize : t.memSize = s.memSize
  paddr : t.ifetch.paddr = s.ifetch.paddr

instance : IsPreorder CPUI386 Peeks where
  refl _ := ⟨rfl, rfl, rfl, rfl, rfl⟩
  trans _ _ _ h h' := ⟨h'.ip.trans h.ip, h'.seg.trans h.seg, h'.code16.trans h.code16,
    h'.memSize.trans h.memSize, h'.paddr.trans h.paddr⟩

theorem Backstage.peeks {s t : CPUI386} (h : Backstage s t) : Peeks s t := by
  unfold Backstage at h
  rw [h]
  exact ⟨rfl, rfl, rfl, rfl, rfl⟩

theorem peeks_of_backstage {α : Type} {x : M α} (h : Stays Backstage x) : Stays Peeks x :=
  h.mono fun _ _ => Backstage.peeks

theorem Peeks.decodes {s t : CPUI386} (h : Peeks s t) (hoff : s.ifetch.paddr = 0) :
    Decodes s t :=
  ⟨h.ip, h.seg, h.code16, h.memSize, fun hp => absurd (h.paddr.trans hoff) hp⟩

theorem backstage_translate8r (seg : SegReg) (addr : Word) :
    Stays Backstage (translate8r seg addr) := by
  refine stays_get fun s => ?_
  refine stays_bind (backstage_segcheck _) fun _ => ?_
  refine stays_ite ?_ (stays_pure _)
  refine stays_bind (backstage_tlbEntry _ _ _ _) fun ent => ?_
  refine stays_bind (stays_onlyIf ?_) fun _ => stays_pure _
  exact stays_bind (stays_modify fun _ => rfl) fun _ => backstage_pageFault _ _ _ _

theorem peeks_peek8Slow : Stays Peeks peek8Slow := by
  refine stays_get fun s => stays_get fun s' => ?_
  refine stays_bind (peeks_of_backstage (backstage_translate8r _ _)) fun res => ?_
  refine stays_get fun t => ?_
  cases t.iomemReader .b8 (mapBiosAlias res.addr1) with
  | some read =>
    exact stays_bind (peeks_of_backstage (backstage_of (touches_iomemRead _ _ _))) fun _ =>
      stays_pure _
  | none =>
    refine stays_ite (stays_pure _) ?_
    refine stays_bind (peeks_of_backstage (backstage_pload8 _)) fun val => ?_
    refine stays_bind (stays_onlyIf (stays_modify ?_)) fun _ => stays_pure _
    intro _
    exact ⟨rfl, rfl, rfl, rfl, rfl⟩

theorem peeks_peek8 : Stays Peeks peek8 :=
  stays_get fun _ => stays_ite (peeks_of_backstage (backstage_pload8 _)) peeks_peek8Slow

theorem decodes_fetch {α : Type} {x z : CPUI386 → M α} {n : Word}
    (hx : ∀ s, Stays Backstage (x s)) (hz : ∀ s, Stays Peeks (z s)) :
    Stays Decodes (do
      let s ← get
      if s.ifetch.paddr ≠ 0 then
        let val ← x s
        modify fun s => s.advance n
        return val
      else z s) := by
  intro s
  rw [wp_bind, wp_get]
  refine wp_ite ?_ ?_
  · intro hon
    rw [wp_bind]
    refine wp_mono (hx s s) ?_ (fun _ => Backstage.decodes) (fun _ h => h)
    intro v t ht
    have hpad : t.ifetch.paddr ≠ 0 := by
      unfold Backstage at ht
      rw [ht]
      exact hon
    exact trans_of Decodes ht.decodes (decodes_advance t n hpad)
  · intro hoff
    have h0 : s.ifetch.paddr = 0 := not_not.mp hoff
    exact wp_mono (hz s s) (fun _ _ h => h.decodes h0) (fun _ h => h.decodes h0) (fun _ h => h)

theorem peeks_skip (n : Word) : Stays Peeks (modify fun s => s.skip n : M Unit) :=
  stays_modify fun _ => ⟨rfl, rfl, rfl, rfl, rfl⟩

theorem decodes_fetch8 : Stays Decodes fetch8 := by
  refine decodes_fetch (fun _ => backstage_pload8 _) fun _ => ?_
  exact stays_bind peeks_peek8 fun _ => stays_bind (peeks_skip 1) fun _ => stays_pure _

theorem backstage_translateN (rwm : Nat) (seg : SegReg) (addr : Word) (w : Width) :
    Stays Backstage (translateW w rwm seg addr) := by
  cases w with
  | b8 => exact stays_get fun _ => backstage_translate _ _ _ _ _
  | b16 => exact stays_get fun _ => backstage_translate _ _ _ _ _
  | b32 => exact stays_get fun _ => backstage_translate _ _ _ _ _

theorem decodes_fetch16 : Stays Decodes fetch16 := by
  refine decodes_fetch (fun _ => backstage_of (touches_pload16 _)) fun _ => ?_
  refine stays_ite ?_ ?_
  · exact stays_bind (peeks_of_backstage (backstage_of (touches_pload16 _))) fun _ =>
      stays_bind (peeks_skip 2) fun _ => stays_pure _
  · refine stays_bind (peeks_of_backstage (backstage_translateN _ _ _ .b16)) fun _ => ?_
    exact stays_bind (peeks_of_backstage (backstage_load16 _)) fun _ =>
      stays_bind (peeks_skip 2) fun _ => stays_pure _

theorem decodes_fetch32 : Stays Decodes fetch32 := by
  refine decodes_fetch (fun _ => backstage_of (touches_pload32 _)) fun _ => ?_
  refine stays_ite ?_ ?_
  · exact stays_bind (peeks_of_backstage (backstage_of (touches_pload32 _))) fun _ =>
      stays_bind (peeks_skip 4) fun _ => stays_pure _
  · refine stays_bind (peeks_of_backstage (backstage_translateN _ _ _ .b32)) fun _ => ?_
    exact stays_bind (peeks_of_backstage (backstage_load32 _)) fun _ =>
      stays_bind (peeks_skip 4) fun _ => stays_pure _

theorem decodes_peek8a : Stays Decodes peek8a := by
  intro s
  unfold peek8a
  rw [wp_bind, wp_get]
  refine wp_ite (fun _ => decodes_of_backstage (backstage_pload8 _) s) ?_
  intro hoff
  have h0 : s.ifetch.paddr = 0 := not_not.mp hoff
  exact wp_mono (peeks_peek8 s) (fun _ _ h => h.decodes h0) (fun _ h => h.decodes h0)
    (fun _ h => h)

theorem decodes_fetchW (w : Width) : Stays Decodes (fetchW w) := by
  cases w with
  | b8 => exact stays_bind decodes_fetch8 fun _ => stays_pure _
  | b16 => exact stays_bind decodes_fetch16 fun _ => stays_pure _
  | b32 => exact decodes_fetch32

theorem decodes_fetchImm8 (w : Width) : Stays Decodes (fetchImm8 w) :=
  stays_bind decodes_fetch8 fun _ => stays_pure _

theorem decodes_sibBase (mod : Nat) (b : Fin 8) (seg : Option SegReg) :
    Stays Decodes (sibBase mod b seg) :=
  stays_ite (stays_bind decodes_fetch32 fun _ => stays_pure _)
    (stays_bind (stays_gets _) fun _ => stays_pure _)

theorem decodes_sibIndex (sib : Byte) : Stays Decodes (sibIndex sib) :=
  stays_ite (stays_gets _) (stays_pure _)

theorem decodes_modsib32Base (mod : Nat) (rm : Fin 8) (seg : Option SegReg) :
    Stays Decodes (modsib32Base mod rm seg) := by
  refine stays_ite ?_ (stays_ite ?_ ?_)
  · refine stays_bind decodes_fetch8 fun _ => ?_
    refine stays_bind (decodes_sibBase _ _ _) fun _ => ?_
    exact stays_bind (decodes_sibIndex _) fun _ => stays_pure _
  · exact stays_bind decodes_fetch32 fun _ => stays_pure _
  · exact stays_bind (stays_gets _) fun _ => stays_pure _

theorem decodes_disp32 (mod : Nat) : Stays Decodes (disp32 mod) := by
  unfold disp32
  split
  · exact stays_bind decodes_fetch8 fun _ => stays_pure _
  · exact decodes_fetch32
  · exact stays_pure _

theorem decodes_disp16 (mod : Nat) : Stays Decodes (disp16 mod) := by
  unfold disp16
  split
  · exact stays_bind decodes_fetch8 fun _ => stays_pure _
  · exact stays_bind decodes_fetch16 fun _ => stays_pure _
  · exact stays_pure _

theorem decodes_modsib (adsz16 : Bool) (mod : Nat) (rm : Fin 8) (seg : Option SegReg) :
    Stays Decodes (modsib adsz16 mod rm seg) := by
  refine stays_ite ?_ ?_
  · refine stays_bind (stays_ite ?_ ?_) fun _ => stays_pure _
    · exact stays_bind decodes_fetch16 fun _ => stays_pure _
    · refine stays_bind (stays_gets _) fun _ => ?_
      exact stays_bind (decodes_disp16 _) fun _ => stays_pure _
  · refine stays_bind (decodes_modsib32Base _ _ _) fun _ => ?_
    exact stays_bind (decodes_disp32 _) fun _ => stays_pure _

theorem decodes_memOperand (w : Width) (rwm : Nat) (p : Prefixes) (modrm : Byte) :
    Stays Decodes (memOperand w rwm p modrm) := by
  refine stays_bind (decodes_modsib _ _ _ _) fun _ => ?_
  exact stays_bind (decodes_of_backstage (backstage_translateN _ _ _ _)) fun _ => stays_pure _

theorem decodes_rmOperand (w : Width) (rwm : Nat) (p : Prefixes) (modrm : Byte) :
    Stays Decodes (rmOperand w rwm p modrm) :=
  stays_ite (stays_pure _) (decodes_memOperand _ _ _ _)

theorem decodes_load (w : Width) (a : RmOperand) : Stays Decodes (a.load w) := by
  cases a with
  | reg i => exact stays_gets _
  | addr meml => exact decodes_of_backstage (backstage_loadW _ _)
  | imm v => exact stays_pure _

/-- A program that decodes and, where `tells` tells so, ends with a comparison. -/
def Compares {α : Type} (tells : α → Bool) (x : M α) : Prop :=
  ∀ s, wp x (fun a t => Decodes s t ∧ (tells a = true → hasBit t.cc.mask ZF = true))
    (fun _ => True) (fun _ => True) s

section Compares

variable {α β : Type} {tells : β → Bool}

theorem compares_bind {x : M α} {k : α → M β} (hx : Stays Decodes x)
    (hk : ∀ a, Compares tells (k a)) : Compares tells (x >>= k) := by
  intro s
  rw [wp_bind]
  refine wp_mono (hx s) ?_ (fun _ _ => trivial) (fun _ h => h)
  intro a t ht
  refine wp_mono (hk a t) ?_ (fun _ h => h) (fun _ h => h)
  intro b u hu
  exact ⟨trans_of Decodes ht hu.1, hu.2⟩

theorem compares_ite {c : Prop} [Decidable c] {x y : M β} (hx : Compares tells x)
    (hy : Compares tells y) : Compares tells (if c then x else y) :=
  fun s => wp_ite (fun _ => hx s) (fun _ => hy s)

/-- A group case: the comparison is run where the group tells so. -/
theorem compares_group {c : Prop} [Decidable c] {x : M Unit} (hx : Compares (fun _ => true) x) :
    Compares id (onlyIf c x >>= fun _ => pure (decide c)) := by
  intro s
  rw [wp_bind]
  refine wp_ite ?_ ?_
  · intro hc
    refine wp_mono (hx s) ?_ (fun _ h => h) (fun _ h => h)
    intro _ t ht
    exact ⟨ht.1, fun _ => ht.2 rfl⟩
  · intro hc
    refine ⟨refl_of Decodes s, ?_⟩
    intro h
    exact absurd (of_decide_eq_true h) hc

theorem compares_true {x : M Unit} (hx : Compares (fun _ => true) x) :
    Compares id (x >>= fun _ => pure true) := by
  intro s
  rw [wp_bind]
  refine wp_mono (hx s) ?_ (fun _ h => h) (fun _ h => h)
  intro _ t ht
  exact ⟨ht.1, fun _ => ht.2 rfl⟩

theorem compares_false : Compares id (pure false : M Bool) := by
  intro s
  exact ⟨refl_of Decodes s, fun h => nomatch h⟩

theorem mask_compare (op : CompareOp) (w : Width) (x y : Word) (s : LazyFlags) :
    hasBit (op.flags w x y s).cc.mask ZF = true := by
  have ha : hasBit LazyFlags.arithMask ZF = true := by decide
  have hl : hasBit LazyFlags.logicMask ZF = true := by decide
  cases op with
  | cmp => exact ha
  | test => exact hl

theorem compares_operands (op : CompareOp) (w : Width) (a b : RmOperand) :
    Compares (fun _ => true) (compareOperands op w a b) := by
  refine compares_bind (decodes_load w a) fun x => ?_
  refine compares_bind (decodes_load w b) fun y => ?_
  intro s
  exact ⟨⟨rfl, rfl, rfl, rfl, fun h => ⟨h, rfl, rfl, rfl⟩⟩, fun _ => mask_compare op w x y _⟩

theorem compares_EG (op : CompareOp) (w : Width) (p : Prefixes) :
    Compares (fun _ => true) (compareEG op w p) :=
  compares_bind decodes_fetch8 fun _ => compares_bind (decodes_rmOperand _ _ _ _) fun _ =>
    compares_operands _ _ _ _

theorem compares_GE (op : CompareOp) (w : Width) (p : Prefixes) :
    Compares (fun _ => true) (compareGE op w p) := by
  refine compares_bind decodes_fetch8 fun _ => ?_
  refine compares_bind (decodes_rmOperand _ _ _ _) fun _ => ?_
  exact compares_bind (decodes_load _ _) fun _ => compares_operands _ _ _ _

theorem compares_AI (op : CompareOp) (w : Width) : Compares (fun _ => true) (compareAI op w) :=
  compares_bind (decodes_fetchW w) fun _ => compares_operands _ _ _ _

theorem compares_EI (op : CompareOp) (w : Width) {imm : M Word} (himm : Stays Decodes imm)
    (p : Prefixes) : Compares (fun _ => true) (compareEI op w imm p) := by
  refine compares_bind decodes_fetch8 fun _ => compares_ite ?_ ?_
  · exact compares_bind himm fun _ => compares_operands _ _ _ _
  · refine compares_bind (decodes_modsib _ _ _ _) fun _ => ?_
    refine compares_bind himm fun _ => ?_
    exact compares_bind (decodes_of_backstage (backstage_translateN _ _ _ _)) fun _ =>
      compares_operands _ _ _ _

theorem decodes_peekGroup : Stays Decodes peekGroup :=
  stays_bind decodes_peek8a fun _ => stays_pure _

theorem compares_case (p : Prefixes) (b1 : Byte) : Compares id (compareCase p b1) := by
  unfold compareCase
  split
  · exact compares_true (compares_EG _ _ _)
  · exact compares_true (compares_EG _ _ _)
  · exact compares_true (compares_GE _ _ _)
  · exact compares_true (compares_GE _ _ _)
  · exact compares_true (compares_AI _ _)
  · exact compares_true (compares_AI _ _)
  · exact compares_true (compares_EG _ _ _)
  · exact compares_true (compares_EG _ _ _)
  · exact compares_true (compares_AI _ _)
  · exact compares_true (compares_AI _ _)
  · exact compares_bind decodes_peekGroup fun _ =>
      compares_group (compares_EI _ _ (decodes_fetchW _) _)
  · exact compares_bind decodes_peekGroup fun _ =>
      compares_group (compares_EI _ _ (decodes_fetchW _) _)
  · exact compares_bind decodes_peekGroup fun _ =>
      compares_group (compares_EI _ _ (decodes_fetchW _) _)
  · exact compares_bind decodes_peekGroup fun _ =>
      compares_group (compares_EI _ _ (decodes_fetchImm8 _) _)
  · exact compares_bind decodes_peekGroup fun _ =>
      compares_group (compares_EI _ _ (decodes_fetchW _) _)
  · exact compares_bind decodes_peekGroup fun _ =>
      compares_group (compares_EI _ _ (decodes_fetchW _) _)
  · exact compares_false

theorem compares_fastEG (op : CompareOp) : Compares (fun _ => true) (fastCompareEG op) :=
  compares_bind decodes_peek8a fun _ => compares_EG _ _ _

theorem compares_fastGE (op : CompareOp) : Compares (fun _ => true) (fastCompareGE op) := by
  refine compares_bind decodes_peek8a fun _ => ?_
  refine compares_bind decodes_fetch8 fun _ => ?_
  exact compares_bind (decodes_rmOperand _ _ _ _) fun _ => compares_operands _ _ _ _

theorem compares_fastCase (b1 : Byte) : Compares id (fastCompareCase b1) := by
  unfold fastCompareCase
  split
  · exact compares_true (compares_AI _ _)
  · exact compares_true (compares_AI _ _)
  · exact compares_true (compares_fastEG _)
  · exact compares_true (compares_fastGE _)
  · exact compares_true (compares_fastEG _)
  · exact compares_bind decodes_peekGroup fun _ =>
      compares_group (compares_EI _ _ (decodes_fetchW _) _)
  · exact compares_bind decodes_peekGroup fun _ =>
      compares_group (compares_EI _ _ (decodes_fetchImm8 _) _)
  · exact compares_false

end Compares

structure CPUI386.HoldsPage (s : CPUI386) : Prop where
  low : offset 12 s.ifetch.laddr = 0
  xlow : offset 12 s.ifetch.xaddr = 0
  inMem : ∀ l, page 12 l = page 12 s.ifetch.laddr → s.inMem (s.ifetch.xaddr ^^^ l)

theorem FetchInv.holdsPage {s : CPUI386} (h : FetchInv s) (hn : s.ifetch.laddr ≠ noPage) :
    s.HoldsPage :=
  ⟨(h.kept hn).low, (h.kept hn).xlow, (h.kept hn).inMem⟩

/-- The running pointer, as `fetch8pf` starts it. -/
structure CPUI386.Pointed (s : CPUI386) : Prop where
  held : s.ifetch.laddr ≠ noPage → s.HoldsPage
  hit : (((s.seg .cs).base + s.ip) ^^^ s.ifetch.laddr).toNat < 4096 - 16
  paddr : s.ifetch.paddr = (s.ifetch.xaddr ^^^ ((s.seg .cs).base + s.ip)) + (s.nextIp - s.ip)

section Pointer

variable {s t : CPUI386}

theorem Decodes.pointed (h : Decodes s t) (hs : s.ifetch.paddr ≠ 0 → s.Pointed)
    (ht : t.ifetch.paddr ≠ 0) : t.Pointed := by
  obtain ⟨hon, hl, hx, he⟩ := h.pointer ht
  obtain ⟨hheld, hhit, hpad⟩ := hs hon
  refine ⟨?_, ?_, ?_⟩
  · intro hn
    rw [hl] at hn
    obtain ⟨hlow, hxlow, hin⟩ := hheld hn
    refine ⟨by rw [hl]; exact hlow, by rw [hx]; exact hxlow, ?_⟩
    intro l hp
    rw [hl] at hp
    rw [hx, CPUI386.inMem, h.memSize]
    exact hin l hp
  · rw [h.seg, h.ip, hl]
    exact hhit
  · rw [h.seg, h.ip, hx]
    rw [hpad] at he
    generalize s.ifetch.xaddr ^^^ ((s.seg .cs).base + s.ip) = b at *
    bv_omega

theorem pointed_fetch8pf {b1 : Byte} (hheld : s.ifetch.laddr ≠ noPage → s.HoldsPage)
    (hip : s.nextIp = s.ip) (h : fetch8pf s = .ok b1 t) : t.ifetch.paddr ≠ 0 → t.Pointed := by
  have hwp : wp fetch8pf (fun _ t => t.ifetch.paddr ≠ 0 → t.Pointed) (fun _ => True)
      (fun _ => True) s := by
    unfold fetch8pf
    rw [wp_bind, wp_get]
    refine wp_ite ?_ ?_
    · intro hlt
      rw [wp_bind]
      refine wp_pload8 ?_ (fun _ => trivial)
      intro _ _
      refine ⟨fun hn => ⟨(hheld hn).low, (hheld hn).xlow, (hheld hn).inMem⟩, ?_, ?_⟩
      · rw [CPUI386.codeAddr, hip] at hlt
        exact hlt
      · change (s.ifetch.xaddr ^^^ s.codeAddr) + 1 =
          (s.ifetch.xaddr ^^^ ((s.seg .cs).base + s.ip)) + (s.nextIp + 1 - s.ip)
        rw [CPUI386.codeAddr, hip, sub_step, BitVec.sub_self, BitVec.zero_add]
    · intro _
      rw [wp_bind, wp_modify, wp_bind]
      refine wp_mono (peeks_peek8 _) ?_ (fun _ _ => trivial) (fun _ h => h)
      intro v u hu hon
      exact absurd hu.paddr hon
  unfold wp at hwp
  rw [h] at hwp
  exact hwp

theorem TakesPrefixes.decodes {code16 : Bool} {p q : Prefixes} {b1 b : Byte}
    (h : TakesPrefixes code16 p b1 s q b t) : Decodes s t := by
  induction h with
  | done _ => exact refl_of Decodes _
  | next _ hf _ ih => exact trans_of Decodes (decodes_fetch8.ok hf) ih

theorem Compares.ok {x : M Bool} (h : Compares id x) (hx : x s = .ok true t) :
    Decodes s t ∧ hasBit t.cc.mask ZF = true := by
  have hs := h s
  unfold wp at hs
  rw [hx] at hs
  exact ⟨hs.1, hs.2 rfl⟩

theorem CallsTryJcc8.pointed (hheld : s.ifetch.laddr ≠ noPage → s.HoldsPage)
    (h : CallsTryJcc8 s t) :
    (t.ifetch.paddr ≠ 0 → t.Pointed) ∧ hasBit t.cc.mask ZF = true := by
  obtain ⟨b1, u, hf, hrest⟩ := h
  have hu := pointed_fetch8pf (s := s.beginInsn)
    (fun hn => ⟨(hheld hn).low, (hheld hn).xlow, (hheld hn).inMem⟩) rfl hf
  split at hrest
  · obtain ⟨hd, hm⟩ := (compares_fastCase b1).ok hrest
    exact ⟨fun ht => hd.pointed hu ht, hm⟩
  · obtain ⟨p, b, v, hp, hc⟩ := hrest
    obtain ⟨hd, hm⟩ := (compares_case p b).ok hc
    exact ⟨fun ht => (trans_of Decodes hp.decodes hd).pointed hu ht, hm⟩

end Pointer

/-- `n` bytes are fetched. -/
def Fetches (n : Word) (s t : CPUI386) : Prop :=
  t = { s with
    mem := t.mem, io := t.io, tlb := t.tlb, dtlbRead := t.dtlbRead, dtlbWrite := t.dtlbWrite,
    cr2 := t.cr2, excno := t.excno, excerr := t.excerr, ifetch := t.ifetch, nextIp := s.nextIp + n }

section Ahead

theorem plus_zero (x : Word) : x + 0 = x := BitVec.add_zero x

theorem zero_plus (x : Word) : 0 + x = x := BitVec.zero_add x

variable {s t u : CPUI386}

theorem Fetches.trans {m n : Word} (h : Fetches m s t) (h' : Fetches n t u) :
    Fetches (m + n) s u := by
  unfold Fetches at *
  rw [h', h, BitVec.add_assoc]

instance : IsPreorder CPUI386 (Fetches 0) where
  refl s := by
    unfold Fetches
    rw [plus_zero]
  trans _ _ _ h h' := by
    have h2 := h.trans h'
    rwa [plus_zero] at h2

theorem Backstage.fetches (h : Backstage s t) : Fetches 0 s t := by
  unfold Backstage at h
  unfold Fetches
  rw [h, plus_zero]

theorem fetches_of_backstage {α : Type} {x : M α} (h : Stays Backstage x) :
    Stays (Fetches 0) x :=
  h.mono fun _ _ => Backstage.fetches

theorem fetches_peek8 : Stays (Fetches 0) peek8 := by
  refine stays_get fun s => stays_ite (fetches_of_backstage (backstage_pload8 _)) ?_
  refine stays_get fun s => stays_get fun s' => ?_
  refine stays_bind (fetches_of_backstage (backstage_translate8r _ _)) fun res => ?_
  refine stays_get fun t => ?_
  cases t.iomemReader .b8 (mapBiosAlias res.addr1) with
  | some read =>
    exact stays_bind (fetches_of_backstage (backstage_of (touches_iomemRead _ _ _))) fun _ =>
      stays_pure _
  | none =>
    refine stays_ite (stays_pure _) ?_
    refine stays_bind (fetches_of_backstage (backstage_pload8 _)) fun val => ?_
    refine stays_bind (stays_onlyIf (stays_modify ?_)) fun _ => stays_pure _
    intro v
    unfold Fetches CPUI386.keepPage
    rw [plus_zero]

theorem fetches_advance (t : CPUI386) (n : Word) : Fetches n t (t.advance n) := rfl

theorem fetches_skip (t : CPUI386) (n : Word) : Fetches n t (t.skip n) := rfl

theorem fetches_one {α : Type} {x : M α} {g : CPUI386 → CPUI386} (hx : Stays (Fetches 0) x)
    (hg : ∀ t, Fetches 1 t (g t)) (s : CPUI386) :
    wp (x >>= fun v => modify g >>= fun _ => pure v) (fun _ t => Fetches 1 s t)
      (fun _ => True) (fun _ => True) s := by
  rw [wp_bind]
  refine wp_mono (hx s) ?_ (fun _ _ => trivial) (fun _ h => h)
  intro v t ht
  have h2 := ht.trans (hg t)
  rwa [zero_plus] at h2

theorem fetch8_fetches (s : CPUI386) :
    wp fetch8 (fun _ t => Fetches 1 s t) (fun _ => True) (fun _ => True) s := by
  unfold fetch8
  rw [wp_bind, wp_get]
  refine wp_ite ?_ ?_
  · intro _
    exact fetches_one (fetches_of_backstage (backstage_pload8 _)) (fun t => fetches_advance t 1) s
  · intro _
    exact fetches_one fetches_peek8 (fun t => fetches_skip t 1) s

theorem fetch8pf_fetches (s : CPUI386) :
    wp fetch8pf (fun _ t => Fetches 1 s t) (fun _ => True) (fun _ => True) s := by
  unfold fetch8pf
  rw [wp_bind, wp_get]
  refine wp_ite ?_ ?_
  · intro _
    rw [wp_bind]
    refine wp_mono (fetches_of_backstage (backstage_pload8 _) s) ?_ (fun _ _ => trivial)
      (fun _ h => h)
    intro v t ht
    rw [wp_bind, wp_modify, wp_bind, wp_modify, wp_pure]
    have h1 : Fetches 1 t (CPUI386.skip { t with ifetch := { t.ifetch with
        paddr := (s.ifetch.xaddr ^^^ s.codeAddr) + 1 } } 1) := rfl
    have h2 := ht.trans h1
    rwa [zero_plus] at h2
  · intro _
    rw [wp_bind, wp_modify]
    refine wp_mono (fetches_one fetches_peek8 (fun t => fetches_skip t 1) _) ?_ (fun _ h => h) (fun _ h => h)
    intro v t ht
    have h0 : Fetches 0 s { s with ifetch := { s.ifetch with paddr := 0 } } := by
      unfold Fetches
      rw [plus_zero]
    have h2 := h0.trans ht
    rwa [zero_plus] at h2

theorem bytesAhead_fetches {op imm8 : Byte} (h : bytesAhead s = .ok (op, imm8) t) :
    Fetches 2 s.beginInsn t := by
  have hwp : wp bytesAhead (fun _ t => Fetches 2 s.beginInsn t) (fun _ => True)
      (fun _ => True) s := by
    unfold bytesAhead
    rw [wp_bind, wp_modify, wp_bind]
    refine wp_mono (fetch8pf_fetches _) ?_ (fun _ h => h) (fun _ h => h)
    intro b1 u hu
    rw [wp_bind]
    refine wp_mono (fetch8_fetches u) ?_ (fun _ h => h) (fun _ h => h)
    intro imm v hv
    exact hu.trans hv
  unfold wp at hwp
  rw [h] at hwp
  exact hwp

theorem followingJcc8_iff : followingJcc8 s = .ok true t ↔ ∃ op imm8 u,
    bytesAhead s = .ok (op, imm8) u ∧ isJzJnz op = true ∧
      t = if u.cond op then u.skip (imm8.signExtend 32) else u := by
  unfold followingJcc8 bytesAhead
  rw [modify_bind_run, modify_bind_run, bind_run, bind_run]
  cases hf : fetch8pf s.beginInsn with
  | ok op v =>
    dsimp only
    by_cases hj : isJzJnz op = true
    · rw [if_pos hj, bind_run, bind_run]
      cases hg : fetch8 v with
      | ok imm8 u =>
        dsimp only
        rw [get_bind_run]
        have hrun : (onlyIf (u.cond op = true)
            (modify fun s => s.skip (imm8.signExtend 32)) >>= fun _ => pure true : M Bool) u =
            .ok true (if u.cond op then u.skip (imm8.signExtend 32) else u) := by
          by_cases hc : u.cond op = true
          · rw [onlyIf, if_pos hc, if_pos hc]
            rfl
          · rw [onlyIf, if_neg hc, if_neg hc]
            rfl
        rw [hrun]
        constructor
        · intro h
          obtain ⟨-, rfl⟩ := Result.ok.inj h
          exact ⟨op, imm8, u, rfl, hj, rfl⟩
        · intro ⟨op', imm', u', h, _, ht⟩
          obtain ⟨hpair, rfl⟩ := Result.ok.inj h
          obtain ⟨rfl, rfl⟩ := Prod.mk.inj hpair
          rw [ht]
      | fault u =>
        constructor
        · intro h
          cases h
        · intro ⟨_, _, _, h, _⟩
          cases h
      | stop why =>
        constructor
        · intro h
          cases h
        · intro ⟨_, _, _, h, _⟩
          cases h
    · rw [if_neg hj]
      constructor
      · intro h
        obtain ⟨hb, -⟩ := Result.ok.inj h
        cases hb
      · intro ⟨op', imm', u', h, hj', _⟩
        rw [bind_run] at h
        cases hg : fetch8 v with
        | ok imm8 u =>
          rw [hg] at h
          obtain ⟨hpair, -⟩ := Result.ok.inj h
          rw [← (Prod.mk.inj hpair).1] at hj'
          exact absurd hj' hj
        | fault u =>
          rw [hg] at h
          cases h
        | stop why =>
          rw [hg] at h
          cases h
  | fault v =>
    constructor
    · intro h
      cases h
    · intro ⟨_, _, _, h, _⟩
      cases h
  | stop why =>
    constructor
    · intro h
      cases h
    · intro ⟨_, _, _, h, _⟩
      cases h

end Ahead

section Peek

variable {s t u : CPUI386}

theorem peek_opcode : ∀ op : Byte, op &&& ~~~1 = 0x74 ↔ isJzJnz op = true := by decide +kernel

theorem peek_cond (hm : hasBit s.cc.mask ZF = true) {op : Byte} (hj : isJzJnz op = true) :
    ((s.cc.dst == 0) ^^ hasBit (op.setWidth 32) 1) = s.cond op := by
  have hz : s.getZF = (s.cc.dst == 0) := by rw [LazyFlags.getZF, if_pos hm]
  rw [isJzJnz, Bool.or_eq_true, beq_iff_eq, beq_iff_eq] at hj
  rcases hj with rfl | rfl
  · have hb : hasBit ((0x74 : Byte).setWidth 32) 1 = false := by decide
    rw [hb, Bool.xor_false, CPUI386.cond, if_pos rfl, hz]
  · have hb : hasBit ((0x75 : Byte).setWidth 32) 1 = true := by decide
    have hne : ¬ (0x75 : Byte) = 0x74 := by decide
    rw [hb, Bool.xor_true, CPUI386.cond, if_neg hne, hz]

theorem peekedJump_none (h : ¬ (isJzJnz (s.byteAt s.ifetch.paddr) = true ∧
    s.cond (s.byteAt s.ifetch.paddr) = true)) : s.peekedJump = none := by
  refine if_neg ?_
  rw [Bool.and_eq_true]
  exact h

theorem peekedJump_some (hj : isJzJnz (s.byteAt s.ifetch.paddr) = true)
    (hc : s.cond (s.byteAt s.ifetch.paddr) = true) :
    s.peekedJump = some ((s.byteAt (s.ifetch.paddr + 1)).signExtend 32) := by
  refine if_pos ?_
  rw [hj, hc]
  rfl

theorem tryJcc8_run (hm : hasBit s.cc.mask ZF = true) (hon : s.ifetch.paddr ≠ 0) :
    tryJcc8 s = if s.inMem s.ifetch.paddr then
      match s.peekedJump with
      | none => .ok () s
      | some d => if s.inMem (s.ifetch.paddr + 1) then .ok () (s.skip (d + 2)) else .stop .wild
    else .stop .wild := by
  unfold tryJcc8
  rw [get_bind_run, if_pos hon]
  by_cases hin : s.inMem s.ifetch.paddr
  · have hload : pload8 s.ifetch.paddr s = .ok (s.byteAt s.ifetch.paddr) s :=
      congrFun (if_pos hin) s
    rw [if_pos hin, bind_run_ok hload]
    by_cases hj : isJzJnz (s.byteAt s.ifetch.paddr) = true
    · rw [if_pos ((peek_opcode _).mpr hj), peek_cond hm hj]
      by_cases hc : s.cond (s.byteAt s.ifetch.paddr) = true
      · rw [if_pos hc, peekedJump_some hj hc]
        by_cases hin1 : s.inMem (s.ifetch.paddr + 1)
        · have hload1 : pload8 (s.ifetch.paddr + 1) s = .ok (s.byteAt (s.ifetch.paddr + 1)) s :=
            congrFun (if_pos hin1) s
          rw [bind_run_ok hload1]
          exact (if_pos hin1).symm
        · have hload1 : pload8 (s.ifetch.paddr + 1) s = .stop .wild := congrFun (if_neg hin1) s
          rw [bind_run_stop hload1]
          exact (if_neg hin1).symm
      · rw [if_neg hc, peekedJump_none (fun h => hc h.2)]
        rfl
    · rw [if_neg (fun h => hj ((peek_opcode _).mp h)), peekedJump_none (fun h => hj h.1)]
      rfl
  · have hload : pload8 s.ifetch.paddr s = .stop .wild := congrFun (if_neg hin) s
    rw [if_neg hin, bind_run_stop hload]

theorem SameGuest.refl (s : CPUI386) : SameGuest s s :=
  ⟨rfl, rfl, rfl, rfl, rfl, rfl, rfl, rfl, rfl, rfl, rfl⟩

theorem sameGuest_skip (n : Word) (h : (s.skip n).nextAddr = s.nextAddr) :
    SameGuest s (s.skip n) :=
  ⟨rfl, rfl, rfl, rfl, rfl, rfl, rfl, rfl, rfl, rfl, h⟩

theorem nextAddr_eq (s : CPUI386) :
    s.nextAddr = if s.code16 then s.nextIp &&& 0xffff else s.nextIp := rfl

theorem and_ffff_eq (x y : Word) :
    x &&& 0xffff = y &&& 0xffff ↔ x.setWidth 16 = y.setWidth 16 := by
  rw [← BitVec.toNat_inj, ← BitVec.toNat_inj, BitVec.toNat_and, BitVec.toNat_and,
    BitVec.toNat_setWidth, BitVec.toNat_setWidth]
  have hmod : ∀ n : Nat, n &&& 0xffff = n % 2 ^ 16 := fun n => Nat.and_two_pow_sub_one_eq_mod n 16
  have hnum : (0xffff : Word).toNat = 0xffff := rfl
  rw [hnum, hmod, hmod]

theorem setWidth_signExtend_byte :
    ∀ b : Byte, (b.signExtend 32).setWidth 16 = b.signExtend 16 := by
  decide +kernel

theorem setWidth_and_ffff (n : Word) : (n &&& 0xffff).setWidth 16 = n.setWidth 16 := by
  rw [← and_ffff_eq, BitVec.and_assoc, BitVec.and_self]

/-- Jumps from one place lead to one place only if their displacements are the same. -/
theorem jump_inj (code16 : Bool) (n : Word) (a b : Byte) :
    (if code16 then ((if code16 then n &&& 0xffff else n) + 2 + a.signExtend 32) &&& 0xffff
      else (if code16 then n &&& 0xffff else n) + 2 + a.signExtend 32) =
    (if code16 then (n + (b.signExtend 32 + 2)) &&& 0xffff else n + (b.signExtend 32 + 2)) ↔
      a = b := by
  cases code16 with
  | false =>
    simp only [Bool.false_eq_true, if_false]
    have hcancel : n + 2 + a.signExtend 32 = n + (b.signExtend 32 + 2) ↔
        a.signExtend 32 = b.signExtend 32 := by bv_omega
    rw [hcancel]
    exact SignExtend.signExtend_inj (by decide)
  | true =>
    simp only [if_true]
    have h16 : ∀ x y : Word, (x + y).setWidth 16 = x.setWidth 16 + y.setWidth 16 :=
      fun x y => BitVec.setWidth_add x y (by decide)
    have hcancel : ∀ x y z w : BitVec 16, x + y + z = x + (w + y) ↔ z = w := by
      intro x y z w
      bv_omega
    rw [and_ffff_eq, h16, h16, h16, h16, setWidth_and_ffff, hcancel, setWidth_signExtend_byte,
      setWidth_signExtend_byte]
    exact SignExtend.signExtend_inj (by decide)

theorem zero_byte : (0 : Word) = (0 : Byte).signExtend 32 := by decide

theorem nextAddr_following (op imm8 : Byte) (h : Fetches 2 s.beginInsn u) :
    (if u.cond op then u.skip (imm8.signExtend 32) else u).nextAddr =
      if s.code16 then ((if s.code16 then s.nextIp &&& 0xffff else s.nextIp) + 2 +
        (if s.cond op then imm8 else 0).signExtend 32) &&& 0xffff
      else (if s.code16 then s.nextIp &&& 0xffff else s.nextIp) + 2 +
        (if s.cond op then imm8 else 0).signExtend 32 := by
  unfold Fetches at h
  have hcond : u.cond op = s.cond op := by rw [h]; rfl
  have hnext : u.nextIp = (if s.code16 then s.nextIp &&& 0xffff else s.nextIp) + 2 := by
    rw [h]
    rfl
  have hcode : u.code16 = s.code16 := by rw [h]; rfl
  rw [hcond]
  by_cases hc : s.cond op = true
  · rw [if_pos hc, if_pos hc, nextAddr_eq, ← hnext, ← hcode]
    rfl
  · rw [if_neg hc, if_neg hc, ← zero_byte, plus_zero, nextAddr_eq, ← hnext, ← hcode]

theorem sameGuest_following {op imm8 b : Byte} (h : Fetches 2 s.beginInsn u) :
    SameGuest (if u.cond op then u.skip (imm8.signExtend 32) else u)
        (s.skip (b.signExtend 32 + 2)) ↔
      (if s.cond op then imm8.signExtend 32 else 0) = b.signExtend 32 ∧ u.mem = s.mem ∧
        u.io = s.io ∧ u.cr2 = s.cr2 := by
  have hnext := nextAddr_following op imm8 h
  have hsext : (if s.cond op then imm8.signExtend 32 else 0 : Word) =
      (if s.cond op then imm8 else 0).signExtend 32 := by
    split
    · rfl
    · exact zero_byte
  have hd : (if s.cond op then imm8.signExtend 32 else 0 : Word) = b.signExtend 32 ↔
      (if s.cond op then imm8 else 0) = b := by
    rw [hsext]
    exact SignExtend.signExtend_inj (by decide)
  have hjump := jump_inj s.code16 s.nextIp (if s.cond op then imm8 else 0) b
  rw [← hnext] at hjump
  have hskip : ∀ v : CPUI386, v = (if u.cond op then u.skip (imm8.signExtend 32) else u) →
      v = { u with nextIp := v.nextIp } := by
    rintro v rfl
    split <;> rfl
  generalize hv : (if u.cond op then u.skip (imm8.signExtend 32) else u) = v at *
  have hvu := hskip v rfl
  unfold Fetches at h
  rw [hd, ← hjump]
  constructor
  · intro hs
    refine ⟨hs.next.symm, ?_, ?_, ?_⟩
    · have hmem := hs.mem
      rw [hvu] at hmem
      exact hmem.symm
    · have hio := hs.io
      rw [hvu] at hio
      exact hio.symm
    · have hcr2 := hs.cr2
      rw [hvu] at hcr2
      exact hcr2.symm
  · intro ⟨hn, hmem, hio, hcr2⟩
    constructor
    · rw [hvu, h]; rfl
    · rw [hvu, h]; rfl
    · rw [hvu, h]; rfl
    · rw [hvu, h]; rfl
    · rw [hvu, h]; rfl
    · rw [hvu, h]; rfl
    · rw [hvu]; exact hcr2.symm
    · rw [hvu, h]; rfl
    · rw [hvu]; exact hmem.symm
    · rw [hvu]; exact hio.symm
    · exact hn.symm

theorem peekedJump_byte {d : Word} (h : s.peekedJump = some d) :
    d = (s.byteAt (s.ifetch.paddr + 1)).signExtend 32 := by
  unfold CPUI386.peekedJump at h
  dsimp only at h
  split at h
  · exact (Option.some.inj h).symm
  · cases h

/-- The state in which the jump by itself ends agrees with the one `try_jcc8` makes. -/
theorem landsBy_iff {d : Word} (h : s.peekedJump = some d) :
    s.LandsBy d ↔ ∃ t, followingJcc8 s = .ok true t ∧ SameGuest t (s.skip (d + 2)) := by
  obtain rfl := peekedJump_byte h
  constructor
  · intro ⟨op, imm8, u, hrun, hj, hd, hmem, hio, hcr2⟩
    refine ⟨_, followingJcc8_iff.mpr ⟨op, imm8, u, hrun, hj, rfl⟩, ?_⟩
    exact (sameGuest_following (bytesAhead_fetches hrun)).mpr ⟨hd, hmem, hio, hcr2⟩
  · intro ⟨t, hrun, hsame⟩
    obtain ⟨op, imm8, u, hahead, hj, rfl⟩ := followingJcc8_iff.mp hrun
    obtain ⟨hd, hmem, hio, hcr2⟩ :=
      (sameGuest_following (bytesAhead_fetches hahead)).mp hsame
    exact ⟨op, imm8, u, hahead, hj, hd, hmem, hio, hcr2⟩

theorem pload8_run {a : Word} (h : s.inMem a) : pload8 a s = .ok (s.byteAt a) s :=
  congrFun (if_pos h) s

theorem peek8_hit (hp : page 12 s.codeAddr = page 12 s.ifetch.laddr)
    (hin : s.inMem (s.ifetch.xaddr ^^^ s.codeAddr)) :
    peek8 s = .ok (s.byteAt (s.ifetch.xaddr ^^^ s.codeAddr)) s := by
  have hlt : s.codeAddr ^^^ s.ifetch.laddr < 4096 := xor_lt_page_iff.mpr hp
  unfold peek8
  rw [get_bind_run, if_pos hlt]
  exact pload8_run hin

theorem fetch8_on (hon : s.ifetch.paddr ≠ 0) (hin : s.inMem s.ifetch.paddr) :
    fetch8 s = .ok (s.byteAt s.ifetch.paddr) (s.advance 1) := by
  unfold fetch8
  rw [get_bind_run, if_pos hon, bind_run_ok (pload8_run hin)]
  rfl

theorem fetch8_off (hoff : s.ifetch.paddr = 0)
    (hp : page 12 s.codeAddr = page 12 s.ifetch.laddr)
    (hin : s.inMem (s.ifetch.xaddr ^^^ s.codeAddr)) :
    fetch8 s = .ok (s.byteAt (s.ifetch.xaddr ^^^ s.codeAddr)) (s.skip 1) := by
  unfold fetch8
  rw [get_bind_run, if_neg (not_not_intro hoff), bind_run_ok (peek8_hit hp hin)]
  rfl

/-- `fetch8pf` in the kept page: the pointer is on afterwards or off. -/
theorem fetch8pf_hit (hp : page 12 s.codeAddr = page 12 s.ifetch.laddr)
    (hin : s.inMem (s.ifetch.xaddr ^^^ s.codeAddr)) :
    ∃ p, (p = (s.ifetch.xaddr ^^^ s.codeAddr) + 1 ∨ p = 0) ∧
      fetch8pf s = .ok (s.byteAt (s.ifetch.xaddr ^^^ s.codeAddr))
        { s with ifetch := { s.ifetch with paddr := p }, nextIp := s.nextIp + 1 } := by
  unfold fetch8pf
  rw [get_bind_run]
  by_cases hlt : s.codeAddr ^^^ s.ifetch.laddr < 4096 - 16
  · refine ⟨_, Or.inl rfl, ?_⟩
    rw [if_pos hlt, bind_run_ok (pload8_run hin)]
    rfl
  · refine ⟨_, Or.inr rfl, ?_⟩
    rw [if_neg hlt, modify_bind_run]
    exact bind_run_ok (peek8_hit (s := { s with ifetch := { s.ifetch with paddr := 0 } }) hp hin)

theorem beginInsn_of_noWrap (h : s.code16 = true → s.nextIp.toNat ≤ 0xffff) :
    s.beginInsn = { s with ip := s.nextIp } := by
  have hmask : (if s.code16 then s.nextIp &&& 0xffff else s.nextIp) = s.nextIp := by
    split
    · rename_i hc
      apply BitVec.eq_of_toNat_eq
      rw [BitVec.toNat_and]
      have hlt : s.nextIp.toNat < 2 ^ 16 := Nat.lt_succ_of_le (h hc)
      exact (Nat.and_two_pow_sub_one_eq_mod _ 16).trans (Nat.mod_eq_of_lt hlt)
    · rfl
  unfold CPUI386.beginInsn
  rw [hmask]

/-- The pointer and the bytes behind it, while they are in the page. -/
theorem pointer_inPage (hp : s.Pointed) (hin : s.JumpInPage) {j : Nat} (hj : j < 2) :
    page 12 (s.codeAddr + BitVec.ofNat 32 j) = page 12 s.ifetch.laddr ∧
      s.ifetch.xaddr ^^^ (s.codeAddr + BitVec.ofNat 32 j) =
        s.ifetch.paddr + BitVec.ofNat 32 j ∧
      s.inMem (s.ifetch.paddr + BitVec.ofNat 32 j) ∧
      offset 12 s.codeAddr + j < 2 ^ 12 := by
  have hk := hp.held hin.kept
  have hroom := hin.room
  have hstart : page 12 ((s.seg .cs).base + s.ip) = page 12 s.ifetch.laddr :=
    ((xor_lt_iff hk.low (by decide)).mp hp.hit).1
  have hsum : s.ip + (s.nextIp - s.ip) = s.nextIp := by
    rw [BitVec.add_comm, BitVec.sub_add_cancel]
  have hk32 : BitVec.ofNat 32 (s.nextIp - s.ip).toNat = s.nextIp - s.ip := by
    rw [BitVec.ofNat_toNat, BitVec.setWidth_eq]
  have haddr : s.codeAddr =
      ((s.seg .cs).base + s.ip) + BitVec.ofNat 32 (s.nextIp - s.ip).toNat := by
    rw [hk32, CPUI386.codeAddr, BitVec.add_assoc, hsum]
  have hoff : offset 12 ((s.seg .cs).base + s.ip) + (s.nextIp - s.ip).toNat < 2 ^ 12 := by
    change _ < 4096
    omega
  have hcode : offset 12 s.codeAddr = offset 12 ((s.seg .cs).base + s.ip) +
      (s.nextIp - s.ip).toNat := by
    rw [haddr, offset_add (by decide) hoff]
  have hcodeLt : offset 12 s.codeAddr + j < 2 ^ 12 := by
    rw [hcode]
    change _ < 4096
    omega
  have hpage : page 12 (s.codeAddr + BitVec.ofNat 32 j) = page 12 s.ifetch.laddr := by
    rw [page_add (by decide) hcodeLt, haddr, page_add (by decide) hoff, hstart]
  have hx : s.ifetch.xaddr ^^^ (s.codeAddr + BitVec.ofNat 32 j) =
      s.ifetch.paddr + BitVec.ofNat 32 j := by
    rw [xor_add (by decide) hk.xlow hcodeLt, haddr, xor_add (by decide) hk.xlow hoff, hk32,
      hp.paddr]
  refine ⟨hpage, hx, ?_, hcodeLt⟩
  rw [← hx]
  exact hk.inMem _ hpage

def CPUI386.afterFirst (s : CPUI386) (p : Word) : CPUI386 :=
  { s with ip := s.nextIp, ifetch := { s.ifetch with paddr := p }, nextIp := s.nextIp + 1 }

theorem ok_congr {α : Type} {a b : α} {t : CPUI386} (h : a = b) :
    (Result.ok a t : Result CPUI386 Stop α) = .ok b t := by rw [h]

theorem bytesAhead_inPage (hp : s.Pointed) (hin : s.JumpInPage) :
    s.inMem s.ifetch.paddr ∧ s.inMem (s.ifetch.paddr + 1) ∧ ∃ u,
      bytesAhead s = .ok (s.byteAt s.ifetch.paddr, s.byteAt (s.ifetch.paddr + 1)) u ∧
        u.mem = s.mem ∧ u.io = s.io ∧ u.cr2 = s.cr2 := by
  obtain ⟨hpage0, hx0, hin0, _⟩ := pointer_inPage hp hin (j := 0) (by omega)
  obtain ⟨hpage1, hx1, hin1, hoff1⟩ := pointer_inPage hp hin (j := 1) (by omega)
  have hzero : BitVec.ofNat 32 0 = 0 := rfl
  have hone : BitVec.ofNat 32 1 = 1 := rfl
  rw [hzero, plus_zero] at hpage0 hx0 hin0
  rw [plus_zero] at hx0
  rw [hone] at hpage1 hx1 hin1
  refine ⟨hin0, hin1, ?_⟩
  have hbegin := beginInsn_of_noWrap hin.wrap
  unfold bytesAhead
  rw [modify_bind_run, hbegin]
  obtain ⟨p, hpor, hfirst⟩ := fetch8pf_hit (s := { s with ip := s.nextIp }) hpage0
    (by rw [← hx0] at hin0; exact hin0)
  rw [bind_run_ok hfirst]
  have hop : (s.ifetch.xaddr ^^^ s.codeAddr) = s.ifetch.paddr := hx0
  have hnext : (s.seg .cs).base + (s.nextIp + 1) = s.codeAddr + 1 := (BitVec.add_assoc _ _ _).symm
  rcases hpor with hp1 | hp0
  · have hp1' : p = s.ifetch.paddr + 1 := by rw [hp1, ← hop]; rfl
    have hne : p ≠ 0 := by
      have hoff : offset 12 p = offset 12 s.codeAddr + 1 := by
        rw [hp1', ← hx1, offset_xor_left (hp.held hin.kept).xlow]
        exact offset_add (by decide) hoff1
      intro h0
      rw [h0] at hoff
      change 0 = _ at hoff
      omega
    have hsecond := fetch8_on (s := s.afterFirst p) hne (by rw [← hp1'] at hin1; exact hin1)
    refine ⟨(s.afterFirst p).advance 1, Eq.trans (bind_run_ok hsecond) ?_, rfl, rfl, rfl⟩
    refine ok_congr (Prod.ext ?_ ?_)
    · exact congrArg s.byteAt hop
    · exact congrArg s.byteAt hp1'
  · have hsecond := fetch8_off (s := { s with
      ip := s.nextIp, ifetch := { s.ifetch with paddr := p }, nextIp := s.nextIp + 1 }) hp0
      (by rw [← hnext] at hpage1; exact hpage1)
      (by rw [← hx1, ← hnext] at hin1; exact hin1)
    refine ⟨(s.afterFirst p).skip 1, Eq.trans (bind_run_ok hsecond) ?_, rfl, rfl, rfl⟩
    refine ok_congr (Prod.ext ?_ ?_)
    · exact congrArg s.byteAt hop
    · rw [← hnext] at hx1
      exact congrArg s.byteAt hx1

end Peek

section Main

variable {s u : CPUI386}

/-- In the page the jump that is peeked is the jump that follows. -/
theorem landsBy_inPage (hp : u.Pointed) (hin : u.JumpInPage) :
    u.PeekInMem ∧ ∀ d, u.peekedJump = some d → u.LandsBy d := by
  obtain ⟨hin0, hin1, v, hrun, hmem, hio, hcr2⟩ := bytesAhead_inPage hp hin
  refine ⟨⟨hin0, fun _ => hin1⟩, ?_⟩
  intro d hd
  have hj : isJzJnz (u.byteAt u.ifetch.paddr) = true ∧
      u.cond (u.byteAt u.ifetch.paddr) = true := by
    by_contra hn
    rw [peekedJump_none hn] at hd
    cases hd
  refine ⟨_, _, v, hrun, hj.1, ?_, hmem, hio, hcr2⟩
  rw [if_pos hj.2, peekedJump_byte hd]

theorem invisible_iff_lands (hm : hasBit u.cc.mask ZF = true) (hon : u.ifetch.paddr ≠ 0) :
    Invisible u ↔ u.PeekInMem ∧ ∀ d, u.peekedJump = some d →
      (u.skip (d + 2)).nextAddr = u.nextAddr ∨ u.LandsBy d := by
  have hrun := tryJcc8_run hm hon
  constructor
  · intro ⟨s', hs', hsame⟩
    rw [hrun] at hs'
    by_cases hin : u.inMem u.ifetch.paddr
    · rw [if_pos hin] at hs'
      cases hd : u.peekedJump with
      | none => exact ⟨⟨hin, fun h => absurd hd h⟩, fun d h => nomatch h⟩
      | some d =>
        rw [hd] at hs'
        dsimp only at hs'
        by_cases hin1 : u.inMem (u.ifetch.paddr + 1)
        · rw [if_pos hin1] at hs'
          obtain ⟨-, rfl⟩ := Result.ok.inj hs'
          refine ⟨⟨hin, fun _ => hin1⟩, ?_⟩
          intro d' hd'
          obtain rfl := Option.some.inj hd'
          rcases hsame with h | h
          · exact Or.inl h.next
          · exact Or.inr ((landsBy_iff hd).mpr h)
        · rw [if_neg hin1] at hs'
          cases hs'
    · rw [if_neg hin] at hs'
      cases hs'
  · intro ⟨hpeek, hlands⟩
    rw [if_pos hpeek.op] at hrun
    cases hd : u.peekedJump with
    | none =>
      rw [hd] at hrun
      exact ⟨u, hrun, Or.inl (SameGuest.refl u)⟩
    | some d =>
      have hin1 := hpeek.disp (by rw [hd]; exact Option.some_ne_none d)
      rw [hd] at hrun
      dsimp only at hrun
      rw [if_pos hin1] at hrun
      refine ⟨_, hrun, ?_⟩
      rcases hlands d hd with h | h
      · exact Or.inl (sameGuest_skip _ h)
      · exact Or.inr ((landsBy_iff hd).mp h)

/-- A CMP or TEST started in `s` calls `try_jcc8` in `u`. -/
theorem fusion_invisible_iff (hheld : s.ifetch.laddr ≠ noPage → s.HoldsPage)
    (h : CallsTryJcc8 s u) : Invisible u ↔ u.FusionSafe := by
  obtain ⟨hpointed, hm⟩ := h.pointed hheld
  by_cases hon : u.ifetch.paddr = 0
  · have hrun : tryJcc8 u = .ok () u := by
      unfold tryJcc8
      rw [get_bind_run, if_neg (not_not_intro hon)]
      rfl
    exact iff_of_true ⟨u, hrun, Or.inl (SameGuest.refl u)⟩ (Or.inl hon)
  · rw [invisible_iff_lands hm hon]
    constructor
    · intro h
      exact Or.inr (Or.inr h)
    · intro h
      rcases h with h | h | h
      · exact absurd h hon
      · obtain ⟨hpeek, hlands⟩ := landsBy_inPage (hpointed hon) h
        exact ⟨hpeek, fun d hd => Or.inr (hlands d hd)⟩
      · exact h

end Main

/-- CMP AL,0 with JZ behind it, at offsets 0x200 and, up to the end of the segment, 0xfffe of the
segment at 0x100. -/
def compareMem : Nat → Byte
  | 0x100 => 0x90
  | 0x300 => 0x3c
  | 0x302 => 0x74
  | 0x303 => 0x10
  | 0x100fe => 0x3c
  | 0x10100 => 0x74
  | 0x10101 => 0x10
  | _ => 0

/-- The page of `ip` is kept. -/
def compareCpu (ip laddr : Word) : CPUI386 :=
  { cpui386New .i386 compareMem 0x20000 false false with
    seg := fun _ => ⟨0x10, 0x100, 0xffff, 0⟩
    nextIp := ip
    ifetch := ⟨laddr, 0, 0⟩ }

/-- Where its CMP calls `try_jcc8`. -/
def afterCompare (s : CPUI386) : CPUI386 :=
  endState (compareAI .cmp .b8) (endState fetch8pf s.beginInsn)

theorem compareCpu_holds (ip : Word) {l : Word} (hl : offset 12 l = 0) (hp : page 12 l ≤ 30) :
    (compareCpu ip l).HoldsPage := by
  refine ⟨hl, rfl, ?_⟩
  intro a ha
  have hpage : a.toNat / 2 ^ 12 ≤ 30 := by
    change page 12 a ≤ 30
    rw [ha]
    exact hp
  change (0 ^^^ a : Word).toNat < 0x20000
  have hx : (0 ^^^ a : Word) = a := BitVec.zero_xor
  rw [hx]
  omega

theorem compareCpu_calls : CallsTryJcc8 (compareCpu 0x200 0) (afterCompare (compareCpu 0x200 0)) :=
  ⟨0x3c, _, rfl, ⟨true, true, 0, none⟩, 0x3c, _, .done rfl, rfl⟩

theorem fusion_invisible_iff_compareCpu :
    Invisible (afterCompare (compareCpu 0x200 0)) ↔
      (afterCompare (compareCpu 0x200 0)).FusionSafe :=
  fusion_invisible_iff (fun _ => compareCpu_holds 0x200 (by decide) (by decide)) compareCpu_calls

/-- At the end of the segment the peeked jump is taken, where IP wraps to a NOP. -/
theorem wrapped_jump_visible :
    (compareCpu 0xfffe 0x10000).HoldsPage ∧
      CallsTryJcc8 (compareCpu 0xfffe 0x10000) (afterCompare (compareCpu 0xfffe 0x10000)) ∧
      ¬ Invisible (afterCompare (compareCpu 0xfffe 0x10000)) := by
  refine ⟨compareCpu_holds 0xfffe (by decide) (by decide), ?_, ?_⟩
  · exact ⟨0x3c, _, rfl, ⟨true, true, 0, none⟩, 0x3c, _, .done rfl, rfl⟩
  · intro ⟨s', hs', hsame⟩
    have hrun : tryJcc8 (afterCompare (compareCpu 0xfffe 0x10000)) =
        .ok () ((afterCompare (compareCpu 0xfffe 0x10000)).skip 0x12) := rfl
    rw [hrun] at hs'
    obtain ⟨-, rfl⟩ := Result.ok.inj hs'
    rcases hsame with h | ⟨t, ht, -⟩
    · exact absurd h.next (by decide)
    · have hnop : followingJcc8 (afterCompare (compareCpu 0xfffe 0x10000)) = .ok false
          (endState followingJcc8 (afterCompare (compareCpu 0xfffe 0x10000))) := rfl
      rw [hnop] at ht
      cases ht

end Winspire.Cpu
