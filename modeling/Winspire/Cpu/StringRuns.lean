import Winspire.Cpu.BulkRuns

/-!
# REP MOVS and REP STOS, element by element

The loops of `MOVS_helper2` and `STOS_helper2` against their elements.
-/

namespace Winspire.Cpu

open Faulting Pages

set_option autoImplicit false

section Elems

variable {ip : Word → Word} {yield : Bool → Bool}

end Elems

section Counts

variable {s t : CPUI386} {w : Width} {a16 : Bool} {rwm : Nat} {seg : SegReg} {addr : Word}
  {m : OptAddr}

theorem Touches.flags (ht : Touches s t) : t.flags = s.flags := by
  unfold Touches at ht
  rw [ht]

/-- What `n` elements leave. -/
structure Counted (a16 : Bool) (n : Nat) (s s' : CPUI386) : Prop where
  aligned : s'.Aligned
  repYield : s'.repYield = s.repYield
  cx : (lregA a16 s' 1).toNat = (lregA a16 s 1).toNat - n
  nextIp : s'.nextIp = s.nextIp
  flags : s'.flags = s.flags

end Counts

/-- Elements from related states keep them related, and so does the condition on elements. -/
structure Carried (R F : CPUI386 → CPUI386 → Prop) (x : M Unit) (P : CPUI386 → Prop) : Prop where
  step : ∀ s t, R s t → P t → (x s).Rel R F (x t)
  fits : ∀ s t, R s t → P t → P s
  symm : ∀ s t, R s t → R t s
  trans : ∀ s t u, R s t → R t u → R s u
  transFault : ∀ s t u, F s t → F t u → F s u
  gpr : ∀ s t, R s t → s.gpr = t.gpr
  outer : ∀ s t ip yield, R s t → R (s.outer id ip yield) (t.outer id ip yield)
  symmFault : ∀ s t, F s t → F t s
  outerFault : ∀ s t ip yield, F s t → F (s.outer id ip yield) (t.outer id ip yield)
  yields : ∀ s t, R s t → s.repYield = t.repYield ∧ s.ip = t.ip
  aligned : ∀ s t, R s t → t.Aligned → s.Aligned

section Rounds

variable {R F : CPUI386 → CPUI386 → Prop} {a16 : Bool} {slice n : Nat} {x : M Unit}
  {P : CPUI386 → Prop} {s t : CPUI386}

theorem Carried.run (hc : Carried R F x P) (h : R s t) (hP : Along n x P t) :
    (repeatM n x s).Rel R F (repeatM n x t) := by
  induction n generalizing s t with
  | zero => exact .ok () h
  | succ n ih =>
    rw [repeatM_succ, repeatM_succ]
    exact rel_bind (hc.step s t h hP.head) fun _ s' t' _ ht h' => ih h' (hP.tail ht)

theorem Carried.lregA (hc : Carried R F x P) (h : R s t) (i : Fin 8) :
    lregA a16 s i = lregA a16 t i := by
  rw [lregA_eq, lregA_eq, hc.gpr s t h]

theorem yieldRep_run (a16 : Bool) (s : CPUI386) :
    yieldRep a16 s = if s.repYield = true ∧ lregA a16 s 1 ≠ 0 then .ok true { s with nextIp := s.ip }
      else .ok false s := by
  unfold yieldRep
  rw [get_bind_run]
  split
  · rfl
  · rfl

theorem Carried.setNextIp (hc : Carried R F x P) (h : R s t) :
    R { s with nextIp := s.ip } { t with nextIp := t.ip } := by
  have ht : ({ t with nextIp := t.ip } : CPUI386) = t.outer id (fun _ => s.ip) id := by
    rw [(hc.yields s t h).2]
    rfl
  rw [ht]
  exact hc.outer s t (fun _ => s.ip) id h

theorem Carried.yieldRep (hc : Carried R F x P) (h : R s t) :
    (yieldRep a16 s).Rel R F (yieldRep a16 t) := by
  have hcond : (s.repYield = true ∧ Cpu.lregA a16 s 1 ≠ 0) ↔
      (t.repYield = true ∧ Cpu.lregA a16 t 1 ≠ 0) := by
    rw [(hc.yields s t h).1, hc.lregA h 1]
  rw [yieldRep_run, yieldRep_run]
  by_cases hs : s.repYield = true ∧ Cpu.lregA a16 s 1 ≠ 0
  · rw [if_pos hs, if_pos (hcond.mp hs)]
    exact .ok true (hc.setNextIp h)
  · rw [if_neg hs, if_neg fun ht => hs (hcond.mpr ht)]
    exact .ok false h

/-- `n` elements and a yield, and all of them where the machine does not yield. The states where
they end are compared by `R`, and those where they fault by `F`. -/
def IsElems (R F : CPUI386 → CPUI386 → Prop) (slice : Nat) (a16 : Bool) (x : M Unit)
    (helper : M Bool) (s : CPUI386) : Prop :=
  ∃ n, n ≤ (lregA a16 s 1).toNat ∧ (lregA a16 s 1 ≠ 0 → 0 < n) ∧
    (s.repYield = true → n ≤ slice) ∧ (s.repYield = false → n = (lregA a16 s 1).toNat) ∧
    (helper s).Rel R F ((do
      repeatM n x
      yieldRep a16) s)

end Rounds

section Physical

variable {s : CPUI386} {w : Width} {rwm : Nat} {seg : SegReg} {addr : Word} {m : OptAddr}

theorem CPUI386.Settled.offset_eq (h : s.Settled w rwm seg addr m) (ha : s.Aligned) :
    offset 12 m.addr1 = offset 12 ((s.seg seg).base + addr) := by
  by_cases hpg : hasBit s.cr0 cr0PG = true
  · have hf := h.held.first hpg
    have hx := hf.aligned ha (ne_noPage_of_laddr _)
    have hx0 : offset 12 (m.addr1 ^^^ ((s.seg seg).base + addr)) = 0 := by
      rw [offset_and, hx]
      rfl
    have hxa := offset_xor_left hx0 ((s.seg seg).base + addr)
    rw [xor_cancel] at hxa
    exact hxa
  · rw [h.held.flat (Bool.eq_false_of_not_eq_true hpg)]

theorem CPUI386.Settled.pageCount_eq (h : s.Settled w rwm seg addr m) (ha : s.Aligned)
    (back : Bool) : pageCount w back m.addr1 = pageCount w back ((s.seg seg).base + addr) := by
  have ho := h.offset_eq ha
  rw [offset_and, offset_and] at ho
  unfold pageCount
  have h4095 : (4095 : Word) = 0xfff := rfl
  rw [h4095, ho]

end Physical

section Stos

variable {s t : CPUI386} {w : Width} {a16 back : Bool} {slice rwm : Nat} {seg : SegReg}
  {ax addr : Word} {md : OptAddr}

theorem Along.imp {n : Nat} {x : M Unit} {P Q : CPUI386 → Prop} (h : Along n x P s)
    (hPQ : ∀ t, P t → Q t) : Along n x Q s := fun k hk t ht => hPQ t (h k hk t ht)

end Stos

end Winspire.Cpu
