import Winspire.Cpu.ChecksumFast

/-!
# The checksum shortcut and the loop it replaces

The function leaves what the twelve instructions leave, in as many cycles, unless the accumulator
is among the source words or the code without its overlap check noticing, or one of them lies in
the page tables.
-/

namespace Winspire.Cpu

open Faulting Pages Marking

set_option autoImplicit false

def Untouched (s t : CPUI386) : Prop :=
  t = { s with tlb := t.tlb, dtlbRead := t.dtlbRead, dtlbWrite := t.dtlbWrite }

/-- Code, accumulator and source words are in RAM, in linear ranges that do not wrap, and no two
linear addresses lie at one physical address. -/
structure CPUI386.InPlace (s : CPUI386) : Prop where
  code : ∀ k, k < 31 → ∃ q, s.Placed false (linear s.loopAt k) q ∧ s.Ram q
  sum : ∀ k, k < 4 → ∃ q, s.Placed true (linear s.sumAt k) q ∧ s.Ram q
  source : ∀ k, k < 2 * (s.gpr 1).toNat → ∃ q, s.Placed false (linear s.sourceAt k) q ∧ s.Ram q
  codeWrap : s.loopAt.toNat + 31 ≤ 2 ^ 32
  sumWrap : s.sumAt.toNat + 4 ≤ 2 ^ 32
  sourceWrap : s.sourceAt.toNat + 2 * (s.gpr 1).toNat ≤ 2 ^ 32
  distinct : ∀ a b q write write', s.Placed write a q → s.Placed write' b q → a = b

/-- The overlap check sees where accumulator and source words are: it compares offsets, from one
base, that do not pass the end of the segment. -/
structure CPUI386.CheckSees (s : CPUI386) : Prop where
  base : (s.seg .ds).base = (s.seg .ss).base
  sum : (s.gpr 5).toNat + 12 ≤ 2 ^ 32
  source : (s.gpr 0).toNat + 2 * (s.gpr 1).toNat ≤ 2 ^ 32

/-- Physical addresses of the code, the accumulator and the source words. -/
inductive CPUI386.Touched (s : CPUI386) : Word → Prop where
  | code {k : Nat} {q : Word} (hk : k < 31) (h : s.Placed false (linear s.loopAt k) q) : Touched s q
  | sum {k : Nat} {q : Word} (hk : k < 4) (h : s.Placed true (linear s.sumAt k) q) : Touched s q
  | source {k : Nat} {q : Word} (hk : k < 2 * (s.gpr 1).toNat)
      (h : s.Placed false (linear s.sourceAt k) q) : Touched s q

/-- The accumulator is neither code nor a source word read after it was written, and none of them is
in the page tables. -/
structure CPUI386.Apart (s : CPUI386) : Prop where
  code : ∀ j k, j < 4 → k < 31 → linear s.sumAt j ≠ linear s.loopAt k
  source : s.CheckSees ∨
    ∀ j k, j < 4 → 2 ≤ k → k < 2 * (s.gpr 1).toNat → linear s.sumAt j ≠ linear s.sourceAt k
  tables : ∀ q, s.Touched q → ¬ s.InTables q.toNat
  top : s.ifetch.laddr = noPage → ∀ k, k < 31 → page 12 (linear s.loopAt k) ≠ lastPage

/-- The code is not that of a device, an accumulator that gets translated does not wrap, and the
pages the function looks at have been marked before. -/
structure CPUI386.Marked (s : CPUI386) : Prop where
  quiet : s.QuietCode
  sumWrap : s.Asks → ¬ NullSegment s .ss → hasBit s.cr0 cr0PG = true → s.sumAt.toNat + 4 ≤ 2 ^ 32
  has : ∀ l write, s.LooksAt l write → s.Has l write

section Shortcut

variable {s t u z : CPUI386} {n : Nat}

/-- A check that sees where they are keeps the accumulator off the source words. -/
theorem CPUI386.CheckSees.apart (h : s.CheckSees)
    (hcheck : offsetsOverlap (s.gpr 0) (s.gpr 1) (s.gpr 5) = false)
    (hcount : s.gpr 1 ≤ 0x01000000) {j k : Nat} (hj : j < 4) (hk : k < 2 * (s.gpr 1).toNat) :
    linear s.sumAt j ≠ linear s.sourceAt k := by
  have hsum := h.sum
  have hsource := h.source
  intro heq
  rw [linear, linear, CPUI386.sumAt, CPUI386.sourceAt, h.base,
    BitVec.add_assoc (s.seg .ss).base, BitVec.add_assoc (s.seg .ss).base, BitVec.add_assoc,
    BitVec.add_right_inj] at heq
  have hnat := congrArg BitVec.toNat heq
  have h8 : (8 : Word).toNat = 8 := rfl
  rw [BitVec.toNat_add, BitVec.toNat_add, BitVec.toNat_add, BitVec.toNat_ofNat,
    BitVec.toNat_ofNat, h8] at hnat
  unfold offsetsOverlap at hcheck
  rw [count_double hcount, Bool.and_eq_false_iff, decide_eq_false_iff_not,
    decide_eq_false_iff_not] at hcheck
  omega

/-- A look at pages that have been marked changes nothing but the caches. -/
theorem Look.untouched {P : Word → Bool → Prop} (h : Look s P (fun _ => none) s t)
    (hmarked : ∀ l write, P l write → s.Has l write) : Untouched s t := by
  have hmem : t.mem = s.mem := by
    refine h.view.mem.eq_self ?_
    rintro a i ⟨l, write, hp, hb⟩
    exact (hmarked l write hp).bit hb
  have hframe := h.view.frame
  rw [h.flags, h.gpr, h.ip, h.toGlance.same_ip, h.ifetch, hmem] at hframe
  exact hframe

theorem CPUI386.Asks.covers (h : s.Asks) (hss : ¬ NullSegment s .ss) :
    Covers s s.LooksAt true s.sumAt .b32 where
  looked _ hk hbefore := Or.inl (.sum h hss hk hbefore)
  granted _ hk hbefore := .written h hss hk hbefore

theorem CPUI386.Marked.refused (hm : s.Marked) (hc : CacheInv s) {bootFast : Bool}
    (h : win2kBootChecksumFastLoop bootFast s = .ok none t) : Untouched s t := by
  rcases hc.fastLoop (P := s.LooksAt) hm.quiet hm.sumWrap (fun _ hk hb => .code hk hb)
    (fun ha hss => ha.covers hss)
    (fun ha hss hds hsum _ hk hb => .source ha hss hds hsum hk hb) h with
    ⟨-, hlook⟩ | ⟨res, u, -, hrun⟩
  · exact hlook.untouched hm.has
  · exact absurd hrun (sumUp_ne_none _ _ _ u t)

theorem CPUI386.InPlace.quiet (hin : s.InPlace) : s.QuietCode := by
  intro k hk _ q hq
  obtain ⟨q', hq', hram⟩ := hin.code k hk
  rw [hq.unique hq', mapBiosAlias_ram hram.1]
  exact if_neg (by rw [hram.1]; decide)

theorem CPUI386.Apart.place (hk : s.Apart) (hin : s.InPlace) {P : Word → Bool → Prop}
    {res : OptAddr} (he : Entered s P res u) : Nonempty (ChecksumPlace s (s.gpr 1).toNat) := by
  choose! code hcode using hin.code
  choose! sum hsum using hin.sum
  choose! source hsource using hin.source
  have hsumLies : ∀ k, k < 4 → s.Lies true (linear s.sumAt k) (sum k) := fun k h =>
    ⟨(hsum k h).1, (hsum k h).2, hk.tables _ (.sum h (hsum k h).1)⟩
  have hcodeLies : ∀ k, k < 31 → s.Lies false (linear s.loopAt k) (code k) := fun k h =>
    ⟨(hcode k h).1, (hcode k h).2, hk.tables _ (.code h (hcode k h).1)⟩
  have hapart : ∀ j k, j < 4 → 2 ≤ k → k < 2 * (s.gpr 1).toNat →
      linear s.sumAt j ≠ linear s.sourceAt k := by
    intro j k hj hsecond hk2
    rcases hk.source with hsees | hsource
    · exact hsees.apart (he.operands.order.apart hsees.base) he.operands.order.count.2 hj hk2
    · exact hsource j k hj hsecond hk2
  refine ⟨{
    code := code
    sum := sum
    source := source
    codeLies := hcodeLies
    sumLies := hsumLies
    sourceLies := fun k h =>
      ⟨(hsource k h).1, (hsource k h).2, hk.tables _ (.source h (hsource k h).1)⟩
    signature := fun k h => ?_
    stack := he.operands.stack
    data := he.operands.data
    codeWrap := hin.codeWrap
    sumWrap := hin.sumWrap
    sourceWrap := hin.sourceWrap
    codeTop := hk.top
    sumCode := fun j k hj h heq => ?_
    sumSource := fun j k hj hsecond h heq => ?_ }⟩
  · have hbyte := he.code.bytes k h (code k)
    rw [Nat.zero_add] at hbyte
    exact hbyte (hcodeLies k h)
  · have hj4 := (hsum j hj).1
    rw [heq] at hj4
    exact hk.code j k hj h (hin.distinct _ _ _ _ _ hj4 (hcode k h).1)
  · have hj4 := (hsum j hj).1
    rw [heq] at hj4
    exact hapart j k hj hsecond h (hin.distinct _ _ _ _ _ hj4 (hsource k h).1)

theorem CPUI386.MarkBit.written {l : Word} {write : Bool} {a i : Nat}
    (h : s.MarkBit l write a i) : s.MarkBit l true a i := by
  refine ⟨h.paging, h.linear, h.present, ?_⟩
  rcases h.bit with hpde | ⟨hp, ha, hread | ⟨-, hdirty⟩⟩
  · exact Or.inl hpde
  · exact Or.inr ⟨hp, ha, Or.inl hread⟩
  · exact Or.inr ⟨hp, ha, Or.inr ⟨rfl, hdirty⟩⟩

namespace ChecksumPlace

variable {pl : ChecksumPlace s n} {O : Nat → Option Byte}

/-- Once all its pages have been looked at, all their marks are set. -/
theorem marked {P : Word → Bool → Prop} (hv : View s P O t)
    (hcode : ∀ k, k < 31 → t.Has (linear s.loopAt k >>> 12) false)
    (hdata : ∀ l write, Looked s n l write → t.Has l write) {a i : Nat}
    (h : s.MarkOf (Pages s n) a i) : (t.mem a).getLsbD i = true := by
  obtain ⟨l, write, hp, hb⟩ := h
  have hbt : ∀ write, s.MarkBit l write a i → t.MarkBit l write a i := fun _ hb =>
    ((hv.tables hb.paging).markBit hv.cr0).mpr hb
  cases hp with
  | code hk => exact (hcode _ hk).bit (hbt _ hb)
  | source hk => exact (hdata _ _ (Or.inr ⟨rfl, _, hk, rfl⟩)).bit (hbt _ hb)
  | sum hk => exact (hdata _ _ (Or.inl ⟨rfl, _, hk, rfl⟩)).bit (hbt _ hb.written)

def flagsAfter (x : Word) : Word := (x &&& ~~~(CF ||| PF ||| AF ||| ZF ||| SF ||| OF)) ||| PF ||| ZF

theorem otherFlags (x : Word) :
    setBit x false CF &&& ~~~LazyFlags.arithMask = flagsAfter x &&& ~~~LazyFlags.arithMask := by
  apply BitVec.eq_of_getLsbD_eq
  intro i hi
  unfold LazyFlags.arithMask flagsAfter
  simp only [BitVec.getLsbD_and, BitVec.getLsbD_or, BitVec.getLsbD_not, getLsbD_setBit, hi]
  cases CF.getLsbD i <;> cases PF.getLsbD i <;> cases ZF.getLsbD i <;> simp

/-- The registers behind the loop are those the function sets. -/
theorem LoopRegs.after {g : Fin 8 → Word} {acc : Word × Word} (h : LoopRegs s n n g)
    (hsum : g 2 = acc.1) (hhigh : g 6 = acc.2) (hn : n = (s.gpr 1).toNat) (hz : z.gpr = s.gpr) :
    g = (z.afterChecksum (s.gpr 0) (s.gpr 1) acc.1 acc.2).gpr := by
  have hsource : g 0 = s.gpr 0 + s.gpr 1 * 2 := by
    have hcount : BitVec.ofNat 32 (s.gpr 1).toNat = s.gpr 1 := by simp
    rw [h.source, ← word_offset, hn, hcount]
  have hcount : g 1 = 0 := by
    rw [h.count, Nat.sub_self]
    rfl
  funext r
  change g r = Function.update (Function.update (Function.update (Function.update z.gpr 0
    (s.gpr 0 + s.gpr 1 * 2)) 1 0) 2 acc.1) 6 acc.2 r
  by_cases h6 : r = 6
  · rw [h6, Function.update_self, hhigh]
  · rw [Function.update_of_ne h6]
    by_cases h2 : r = 2
    · rw [h2, Function.update_self, hsum]
    · rw [Function.update_of_ne h2]
      by_cases h1 : r = 1
      · rw [h1, Function.update_self, hcount]
      · rw [Function.update_of_ne h1]
        by_cases h0 : r = 0
        · rw [h0, Function.update_self, hsource]
        · rw [Function.update_of_ne h0, hz, h.other r h0 h1 h2 h6]

end ChecksumPlace

end Shortcut

def insnsFrom (rest : Byte → M Unit) : Nat → CPUI386 → Option CPUI386
  | 0, s => some s
  | n + 1, s =>
    match insn rest s with
    | .ok _ t => insnsFrom rest n t
    | _ => none

theorem RunsTo.insnsFrom {rest : Byte → M Unit} {exit : Word} {s u : CPUI386} {n : Nat}
    (h : RunsTo rest exit s n u) : Cpu.insnsFrom rest n s = some u := by
  induction h with
  | here _ => rfl
  | next _ h _ ih =>
    unfold Cpu.insnsFrom
    rw [h]
    exact ih

end Winspire.Cpu
