import Winspire.Cpu.ChecksumRuns

/-!
# The checksum function, look by look

What `win2k_boot_checksum_fast_loop` looks at before the first word, and how its own loop goes
over the source words.
-/

namespace Winspire.Cpu

open Faulting Pages Marking

set_option autoImplicit false

section Looks

variable {s t t' u : CPUI386} {P : Word → Bool → Prop} {O : Nat → Option Byte}

/-- What `tried` leaves. -/
def Caught {α : Type} (post : α → CPUI386 → Prop) (lost : CPUI386 → Prop) :
    Option α → CPUI386 → Prop
  | some a, u => post a u
  | none, u => lost u

theorem wp_tried {α : Type} {x : M α} {post : α → CPUI386 → Prop} {flt : CPUI386 → Prop}
    {stp : Stop → Prop} (h : wp x post flt stp t) :
    wp (tried x) (Caught post flt) (fun _ => False) stp t := by
  unfold tried
  apply wp_catchFault
  rw [wp_bind]
  exact wp_mono h (fun _ _ h => h) (fun _ h => h) (fun _ h => h)

theorem load8_quiet {res : OptAddr} (h : t.iomemReader .b8 (mapBiosAlias res.addr1) = none) :
    ∃ b, load8 res t = .ok b t := by
  unfold load8
  rw [get_bind_run, h]
  by_cases hm : t.inMem (mapBiosAlias res.addr1)
  · refine ⟨t.byteAt (mapBiosAlias res.addr1), ?_⟩
    simp only [hm, not_true_eq_false, if_false]
    exact pload8_run_inMem hm
  · exact ⟨0, by simp only [hm, not_false_eq_true, if_true, pure_run]⟩

theorem View.iomemReader (hv : View s P O t) (w : Width) (a : Word) :
    t.iomemReader w a = s.iomemReader w a := by
  unfold CPUI386.iomemReader
  rw [hv.cb]

theorem load8_lies (hv : View s P O t) {a q : Word} (h : s.Lies false a q) :
    load8 ⟨q, none⟩ t = .ok (s.shows O q) t := by
  have hmap := mapBiosAlias_ram h.ram.1
  have hdev : t.iomemReader .b8 q = none := if_neg (by rw [h.ram.1]; decide)
  have hin := (hv.ram h.ram).2
  unfold load8
  simp only [hmap, get_bind_run, hdev, hin, not_true_eq_false, if_false]
  rw [pload8_run_inMem hin]
  exact congrArg (fun b => Result.ok b t) (hv.byte h.apart)

end Looks

/-- Byte `k` of the code can be read, and in RAM it is that of the loop. -/
structure CPUI386.Shown (s : CPUI386) (k : Nat) : Prop where
  placed : ∃ q, s.Placed false (linear s.loopAt k) q
  byte : ∀ q, s.Lies false (linear s.loopAt k) q → s.mem q.toNat = signatureByte k

/-- The count is in bounds, and no overlap is noticed. -/
structure CPUI386.InOrder (s : CPUI386) : Prop where
  count : s.gpr 1 ≠ 0 ∧ s.gpr 1 ≤ 0x01000000
  apart : (s.seg .ds).base = (s.seg .ss).base → offsetsOverlap (s.gpr 0) (s.gpr 1) (s.gpr 5) = false

structure CPUI386.Asks (s : CPUI386) : Prop extends s.InOrder where
  code16 : s.code16 = false
  vm : hasBit s.flags VM = false
  cpl : s.cpl = 0
  code : ∀ k, k < 31 → s.Shown k

/-- Offset `k` of a range begins a page, and the byte there is in RAM. -/
def Begins (addr : Word) (k : Nat) : Prop := k = 0 ∨ (addr + BitVec.ofNat 32 k) &&& 0xfff = 0

def CPUI386.PassesRam (s : CPUI386) (a : Word) : Prop :=
  ∃ q, s.Placed false a q ∧ inIomem q = false ∧ q < BitVec.ofNat 32 s.memSize

/-- The pages the function looks at: those of the code as far as it is the loop, and then those of
the accumulator and of the source words, up to the first that is refused. -/
inductive CPUI386.LooksAt (s : CPUI386) : Word → Bool → Prop where
  | code {k : Nat} (hk : k < 31) (h : ∀ j, j < k → s.Shown j) :
      LooksAt s (linear s.loopAt k >>> 12) false
  | sum {k : Nat} (h : s.Asks) (hss : ¬ NullSegment s .ss) (hk : k < 4)
      (hbefore : ∀ j, j < k → ∃ q, s.Placed true (linear s.sumAt j) q) :
      LooksAt s (linear s.sumAt k >>> 12) false
  | written {k : Nat} (h : s.Asks) (hss : ¬ NullSegment s .ss) (hk : k < 4)
      (hbefore : ∀ j, j ≤ k → ∃ q, s.Placed true (linear s.sumAt j) q) :
      LooksAt s (linear s.sumAt k >>> 12) true
  | source {k : Nat} (h : s.Asks) (hss : ¬ NullSegment s .ss) (hds : ¬ NullSegment s .ds)
      (hsum : ∀ j, j < 4 → ∃ q, s.Placed true (linear s.sumAt j) q) (hk : k < 2 * (s.gpr 1).toNat)
      (hbefore : ∀ j, j < k → Begins (s.gpr 0) j → s.PassesRam (linear s.sourceAt j)) :
      LooksAt s (linear s.sourceAt k >>> 12) false

/-- No byte that is compared with the loop is that of a device. -/
def CPUI386.QuietCode (s : CPUI386) : Prop :=
  ∀ k, k < 31 → (∀ j, j < k → s.Shown j) → ∀ q, s.Placed false (linear s.loopAt k) q →
    s.iomemReader .b8 (mapBiosAlias q) = none

section Code

variable {s t u : CPUI386} {P : Word → Bool → Prop} {O : Nat → Option Byte}

/-- The bytes from index `k` on have been looked at, and those in memory are `bs`. -/
structure Matched (s : CPUI386) (O : Nat → Option Byte) (bs : List Byte) (k : Nat) (u : CPUI386) :
    Prop where
  has : ∀ j, j < bs.length → u.Has (linear s.loopAt (k + j) >>> 12) false
  bytes : ∀ j, j < bs.length → ∀ q, s.Lies false (linear s.loopAt (k + j)) q →
    s.shows O q = bs.getD j 0

theorem Matched.cons {bs : List Byte} {b : Byte} {k : Nat} (h : Matched s O bs (k + 1) u)
    (hhas : u.Has (linear s.loopAt k >>> 12) false)
    (hb : ∀ q, s.Lies false (linear s.loopAt k) q → s.shows O q = b) :
    Matched s O (b :: bs) k u where
  has j hj := by
    cases j with
    | zero => exact hhas
    | succ j =>
      have hat : k + (j + 1) = k + 1 + j := by omega
      rw [hat]
      exact h.has j (Nat.lt_of_succ_lt_succ hj)
  bytes j hj := by
    cases j with
    | zero => exact hb
    | succ j =>
      have hat : k + (j + 1) = k + 1 + j := by omega
      rw [hat]
      exact h.bytes j (Nat.lt_of_succ_lt_succ hj)

theorem loopAt_linear (s : CPUI386) (k : Nat) :
    linear s.loopAt k = (s.seg .cs).base + (s.ip + BitVec.ofNat 32 k) :=
  BitVec.add_assoc _ _ _

/-- The comparison of the code, by induction on the bytes that remain. -/
theorem View.codeMatchesFrom (hq : s.QuietCode)
    (hP : ∀ k, k < 31 → (∀ j, j < k → s.Shown j) → P (linear s.loopAt k >>> 12) false)
    (bs : List Byte) :
    ∀ {k : Nat} {t : CPUI386}, View s P (fun _ => none) t → t.ip = s.ip → k + bs.length ≤ 31 →
      (∀ j, j < bs.length → bs.getD j 0 = signatureByte (k + j)) → (∀ j, j < k → s.Shown j) →
      wp (codeMatchesFrom bs (BitVec.ofNat 32 k))
        (fun found u => Look s P (fun _ => none) t (u.withException t) ∧
          (found = true → Look s P (fun _ => none) t u ∧ Matched s (fun _ => none) bs k u ∧
            ∀ j, j < k + bs.length → s.Shown j))
        (fun _ => False) (fun _ => True) t := by
  induction bs with
  | nil =>
    intro k t hv _ _ _ hbefore
    refine ⟨(Look.refl hv).withException hv, fun _ => ⟨Look.refl hv, ⟨?_, ?_⟩, hbefore⟩⟩
    · intro j hj
      exact absurd hj (Nat.not_lt_zero j)
    · intro j hj
      exact absurd hj (Nat.not_lt_zero j)
  | cons b bs ih =>
    intro k t hv hip hk hbs hbefore
    rw [List.length_cons] at hk
    have hk31 : k < 31 := by omega
    have haddr : linear s.loopAt k = (s.seg .cs).base + (t.ip + BitVec.ofNat 32 k) := by
      rw [hip]
      exact loopAt_linear s k
    unfold Cpu.codeMatchesFrom
    rw [wp_bind, wp_get]
    refine wp_bind_mono (wp_mono (wp_tried (hv.code haddr (hP k hk31 hbefore))) (fun _ _ h => h)
      (fun _ h => h) (fun _ _ => trivial)) ?_
    rintro (_ | ⟨a1, a2⟩) u hcaught
    · exact ⟨hcaught.1, fun h => nomatch h⟩
    · obtain ⟨hlook, hhas, -, hpl, rfl⟩ := hcaught
      have hread : u.iomemReader .b8 (mapBiosAlias a1) = none := by
        rw [hlook.view.iomemReader]
        exact hq k hk31 hbefore a1 hpl
      obtain ⟨b', hload⟩ := @load8_quiet u ⟨a1, none⟩ hread
      refine wp_bind_ok hload ?_
      refine wp_ite (fun _ => ?_) (fun hne => ?_)
      · exact ⟨hlook.withException hv, fun h => nomatch h⟩
      · have hbb : b' = b := not_not.mp hne
        have hnext : BitVec.ofNat 32 k + 1 = BitVec.ofNat 32 (k + 1) := (BitVec.ofNat_add k 1).symm
        have hbyte : ∀ q, s.Lies false (linear s.loopAt k) q →
            s.shows (fun _ => none) q = b := by
          intro q hlies
          have hqa : q = a1 := hlies.placed.unique hpl
          rw [hqa] at hlies
          have hval := load8_lies hlook.view hlies
          rw [hload, hbb] at hval
          rw [hqa]
          injection hval with hb _
          exact hb.symm
        have hhead : b = signatureByte k := hbs 0 (Nat.zero_lt_succ _)
        have hshown : ∀ j, j < k + 1 → s.Shown j := by
          intro j hj
          rcases Nat.lt_succ_iff_lt_or_eq.mp hj with hj | rfl
          · exact hbefore j hj
          · refine ⟨⟨a1, hpl⟩, fun q hlies => ?_⟩
            rw [← hhead]
            exact hbyte q hlies
        have hrest : ∀ j, j < bs.length → bs.getD j 0 = signatureByte (k + 1 + j) := by
          intro j hj
          have h := hbs (j + 1) (Nat.succ_lt_succ hj)
          rw [List.getD_cons_succ] at h
          rw [h]
          congr 1
          omega
        rw [hnext]
        refine wp_mono (ih hlook.view (hlook.ip.trans hip) (by omega) hrest hshown) ?_
          (fun _ h => h) (fun _ h => h)
        rintro found z ⟨hz, hmatch⟩
        refine ⟨hlook.then_fault hv hz, fun hf => ?_⟩
        obtain ⟨hlook', hm, hall⟩ := hmatch hf
        refine ⟨hlook.trans hlook', hm.cons (hlook'.later _ _ hhas) hbyte, fun j hj => ?_⟩
        rw [List.length_cons] at hj
        exact hall j (by omega)

end Code

section Operands

variable {s t u : CPUI386} {P : Word → Bool → Prop} {O : Nat → Option Byte}

theorem spans_one {write : Bool} {a : Word} (h : P (a >>> 12) write) : Spans P write a .b8 := by
  intro k hk
  obtain rfl : k = 0 := Nat.lt_one_iff.mp hk
  rw [linear_zero]
  exact h

theorem not_begins {addr start chunk : Word} {j : Nat}
    (hchunk : chunk ≤ 0x1000 - ((addr + start) &&& 0xfff)) (hlo : start.toNat < j)
    (hhi : j < start.toNat + chunk.toNat) : ¬ Begins addr j := by
  have hj : addr + BitVec.ofNat 32 j = addr + start + BitVec.ofNat 32 (j - start.toNat) := by
    rw [BitVec.add_assoc]
    congr 1
    conv_lhs => rw [← Nat.add_sub_cancel' (Nat.le_of_lt hlo), BitVec.ofNat_add,
      BitVec.ofNat_toNat, BitVec.setWidth_eq]
  have hand := offset_and (addr + start)
  have hlow := @offset_lt 32 12 (addr + start)
  have hle : chunk.toNat ≤ 0x1000 - ((addr + start) &&& 0xfff).toNat := by
    have h := BitVec.le_def.mp hchunk
    have h4k : (0x1000 : Word).toNat = 4096 := rfl
    rw [BitVec.toNat_sub, h4k] at h
    omega
  rintro (h0 | hz)
  · omega
  · have hzero : offset 12 (addr + start + BitVec.ofNat 32 (j - start.toNat)) = 0 := by
      rw [← hj, offset_and, hz]
      rfl
    unfold Pages.offset at hzero hlow hand
    rw [BitVec.toNat_add, BitVec.toNat_ofNat] at hzero
    omega

theorem View.ramRangeFrom {seg : SegReg} {addr size : Word}
    (hP : ¬ NullSegment s seg → ∀ k, k < size.toNat →
      (∀ j, j < k → Begins addr j →
        s.PassesRam ((s.seg seg).base + (addr + BitVec.ofNat 32 j))) →
      P (((s.seg seg).base + (addr + BitVec.ofNat 32 k)) >>> 12) false) (n : Nat) :
    ∀ {offset : Word} {t : CPUI386}, View s P O t →
      (∀ j, j < offset.toNat → Begins addr j →
        s.PassesRam ((s.seg seg).base + (addr + BitVec.ofNat 32 j))) →
      wp (ramRangeFrom seg addr size 1 n offset)
        (fun found u => Look s P O t (u.withException t) ∧
          (found = true → Look s P O t u ∧ (0 < n → offset < size → ¬ NullSegment s seg)))
        (fun _ => False) (fun _ => True) t := by
  induction n with
  | zero =>
    intro offset t hv _
    exact ⟨(Look.refl hv).withException hv,
      fun _ => ⟨Look.refl hv, fun h => absurd h (Nat.lt_irrefl 0)⟩⟩
  | succ n ih =>
    intro offset t hv hbefore
    have hstay : Look s P O t (t.withException t) := (Look.refl hv).withException hv
    have hoff : BitVec.ofNat 32 offset.toNat = offset := by
      rw [BitVec.ofNat_toNat, BitVec.setWidth_eq]
    unfold Cpu.ramRangeFrom
    refine wp_ite (fun hlt => ?_) (fun hge => ?_)
    · have hpage : ¬ NullSegment s seg → P (((s.seg seg).base + (addr + offset)) >>> 12) false := by
        intro hns
        have h := hP hns offset.toNat hlt hbefore
        rw [hoff] at h
        exact h
      have hone : ((s.seg seg).base + (addr + offset)).toNat + Width.b8.bytes ≤ 2 ^ 32 :=
        BitVec.isLt _
      have hlooks := hv.translate (Or.inl rfl) rfl (fun _ _ => hone) fun hns =>
        (spans_one (hpage hns)).covers
      refine wp_bind_mono (wp_mono (wp_tried hlooks) (fun _ _ h => h) (fun _ h => h)
        (fun _ _ => trivial)) ?_
      rintro (_ | mem) u hcaught
      · exact ⟨hcaught.1, fun h => nomatch h⟩
      · obtain ⟨hlook, hns, hplaced, -⟩ := hcaught
        rw [wp_bind, wp_get]
        refine wp_ite (fun _ => ?_) (fun hram => ?_)
        · exact ⟨hlook.withException hv, fun h => nomatch h⟩
        · have hpasses : s.PassesRam ((s.seg seg).base + (addr + offset)) := by
            obtain ⟨hio, hsize⟩ := not_or.mp hram
            rw [hlook.view.memSize] at hsize
            have hfirst := hplaced.bytes 0 Width.b8.bytes_pos
            rw [linear_zero, byte_zero] at hfirst
            exact ⟨mem.addr1, hfirst, Bool.eq_false_of_not_eq_true hio, BitVec.not_le.mp hsize⟩
          have hchunk : (if size - offset < 0x1000 - ((addr + offset) &&& 0xfff) then size - offset
              else 0x1000 - ((addr + offset) &&& 0xfff)) ≤ 0x1000 - ((addr + offset) &&& 0xfff) := by
            split
            · rename_i hless
              exact BitVec.le_of_lt hless
            · exact BitVec.le_refl _
          refine wp_mono (ih hlook.view ?_) ?_ (fun _ h => h) (fun _ h => h)
          · intro j hj hbegins
            rcases Nat.lt_trichotomy j offset.toNat with hlo | rfl | hlo
            · exact hbefore j hlo hbegins
            · rw [hoff]
              exact hpasses
            · refine absurd hbegins (not_begins hchunk hlo (Nat.lt_of_lt_of_le hj ?_))
              rw [BitVec.toNat_add]
              exact Nat.mod_le _ _
          · rintro found z ⟨hz, hin⟩
            exact ⟨hlook.then_fault hv hz, fun hf => ⟨hlook.trans (hin hf).1, fun _ _ => hns⟩⟩
    · exact ⟨hstay, fun _ => ⟨Look.refl hv, fun _ h => absurd h hge⟩⟩

/-- The checks before the first word have been passed; `res` is the accumulator. -/
structure Checked (s : CPUI386) (res : OptAddr) (u : CPUI386) : Prop where
  order : s.InOrder
  placed : PlacedAt s true s.sumAt .b32 res
  has : ∀ k, k < 4 → u.Has (linear s.sumAt k >>> 12) true
  stack : ¬ NullSegment s .ss
  data : ¬ NullSegment s .ds

theorem count_double {count : Word} (h : count ≤ 0x01000000) :
    (count * 2).toNat = 2 * count.toNat := by
  have hle : count.toNat ≤ 0x01000000 := h
  have htwo : (2 : Word).toNat = 2 := rfl
  rw [BitVec.toNat_mul, htwo]
  omega

theorem View.checksumOperands (hv : View s P O t)
    (hwrap : s.InOrder → ¬ NullSegment s .ss → hasBit s.cr0 cr0PG = true →
      s.sumAt.toNat + 4 ≤ 2 ^ 32)
    (hsum : s.InOrder → ¬ NullSegment s .ss → Covers s P true s.sumAt .b32)
    (hsource : s.InOrder → ¬ NullSegment s .ss → ¬ NullSegment s .ds →
      (∀ j, j < 4 → ∃ q, s.Placed true (linear s.sumAt j) q) → ∀ k, k < 2 * (s.gpr 1).toNat →
      (∀ j, j < k → Begins (s.gpr 0) j → s.PassesRam (linear s.sourceAt j)) →
      P (linear s.sourceAt k >>> 12) false) :
    wp (checksumOperands (s.gpr 5) (s.gpr 0) (s.gpr 1))
      (fun found u => Look s P O t (u.withException t) ∧
        ∀ res, found = some res → Look s P O t u ∧ Checked s res u)
      (fun _ => False) (fun _ => True) t := by
  have hstay : Look s P O t (t.withException t) := (Look.refl hv).withException hv
  unfold Cpu.checksumOperands
  rw [wp_bind, wp_get]
  refine wp_ite (fun _ => ⟨hstay, fun _ h => nomatch h⟩) (fun hcount => ?_)
  refine wp_ite (fun _ => ⟨hstay, fun _ h => nomatch h⟩) (fun hoverlap => ?_)
  obtain ⟨hzero, hmost⟩ := not_or.mp hcount
  have hle : s.gpr 1 ≤ 0x01000000 := BitVec.not_lt.mp hmost
  have horder : s.InOrder := by
    refine ⟨⟨hzero, hle⟩, fun hbase => ?_⟩
    rw [← hv.seg] at hbase
    exact Bool.eq_false_of_not_eq_true fun h => hoverlap ⟨hbase, h⟩
  have hlooks := @View.translate s t P O 2 .ss (s.gpr 5 + 8) s.sumAt .b32 hv (Or.inr (Or.inl rfl))
    rfl (hwrap horder) (hsum horder)
  refine wp_bind_mono (wp_mono (wp_tried hlooks) (fun _ _ h => h) (fun _ h => h)
    (fun _ _ => trivial)) ?_
  rintro (_ | res) u hcaught
  · exact ⟨hcaught.1, fun _ h => nomatch h⟩
  · obtain ⟨hlook, hss, hplaced, hhas⟩ := hcaught
    have hat : ∀ k, (s.seg .ds).base + (s.gpr 0 + BitVec.ofNat 32 k) = linear s.sourceAt k :=
      fun k => (BitVec.add_assoc _ _ _).symm
    have hpages : ¬ NullSegment s .ds → ∀ k, k < (s.gpr 1 * 2).toNat →
        (∀ j, j < k → Begins (s.gpr 0) j →
          s.PassesRam ((s.seg .ds).base + (s.gpr 0 + BitVec.ofNat 32 j))) →
        P (((s.seg .ds).base + (s.gpr 0 + BitVec.ofNat 32 k)) >>> 12) false := by
      intro hds k hk hbefore
      rw [count_double hle] at hk
      simp only [hat] at hbefore ⊢
      exact hsource horder hss hds (fun j hj => ⟨_, hplaced.bytes j hj⟩) k hk hbefore
    refine wp_bind_mono (hlook.view.ramRangeFrom hpages _ fun j hj => absurd hj (Nat.not_lt_zero j)) ?_
    rintro found z ⟨hz, hin⟩
    refine wp_ite (fun hf => ?_) (fun _ => ?_)
    · obtain ⟨hlook', hds⟩ := hin hf
      refine ⟨hlook.then_fault hv hz, fun res' hres => ?_⟩
      obtain rfl : res = res' := Option.some.inj hres
      refine ⟨hlook.trans hlook', horder, hplaced, ?_, hss, ?_⟩
      · exact fun k hk => hlook'.later _ _ (hhas k hk)
      · have hpos : 0 < (s.gpr 1).toNat := by
          refine Nat.pos_of_ne_zero fun h0 => hzero (BitVec.eq_of_toNat_eq h0)
        have hsize := count_double hle
        refine hds (by omega) ?_
        change 0 < (s.gpr 1 * 2).toNat
        omega
    · exact ⟨hlook.then_fault hv hz, fun _ h => nomatch h⟩

end Operands

def sumUp (source count : Word) (mem : OptAddr) : M (Option Word) := do
  let accumulator ← load32 mem
  let (accumulator, high) ← sumWords source count.toNat 0 (accumulator, 0)
  store32 mem accumulator
  modify fun s => s.afterChecksum source count accumulator high
  return some (count * 12 - 1)

theorem sumUp_ne_none (source count : Word) (mem : OptAddr) (s t : CPUI386) :
    sumUp source count mem s ≠ .ok none t := by
  have h : wp (sumUp source count mem) (fun r _ => r ≠ none) (fun _ => True) (fun _ => True) s := by
    unfold sumUp
    refine wp_bind_mono (wp_true _ _) fun _ _ _ => ?_
    refine wp_bind_mono (wp_true _ _) fun acc _ _ => ?_
    refine wp_bind_mono (wp_true _ _) fun _ _ _ => ?_
    exact Option.some_ne_none _
  intro hrun
  exact wp_ok h hrun rfl

section Function

variable {s t u : CPUI386} {P : Word → Bool → Prop}

theorem signature_getD (j : Nat) : checksumSignature.getD j 0 = signatureByte (0 + j) := by
  rw [Nat.zero_add]
  rfl

theorem View.bootCodeMatches (hv : View s P (fun _ => none) t) (hip : t.ip = s.ip)
    (hq : s.QuietCode)
    (hP : ∀ k, k < 31 → (∀ j, j < k → s.Shown j) → P (linear s.loopAt k >>> 12) false) :
    wp (win2kBootCodeMatches checksumSignature)
      (fun found u => Look s P (fun _ => none) t u ∧
        (found = true → Matched s (fun _ => none) checksumSignature 0 u ∧ ∀ k, k < 31 → s.Shown k))
      (fun _ => False) (fun _ => True) t := by
  unfold win2kBootCodeMatches
  rw [wp_bind, wp_get]
  refine wp_bind_mono (View.codeMatchesFrom hq hP checksumSignature hv hip (Nat.le_refl 31)
    (fun j _ => signature_getD j) fun j hj => absurd hj (Nat.not_lt_zero j)) ?_
  rintro found u ⟨hlook, hmatch⟩
  cases found with
  | false => exact ⟨hlook, fun h => nomatch h⟩
  | true =>
    obtain ⟨hlook', hm, hall⟩ := hmatch rfl
    refine ⟨hlook', fun _ => ⟨hm, fun k hk => hall k ?_⟩⟩
    rw [Nat.zero_add]
    exact hk

/-- Where the function goes on to the words. -/
structure Entered (s : CPUI386) (P : Word → Bool → Prop) (res : OptAddr) (u : CPUI386) :
    Prop where
  look : Look s P (fun _ => none) s u
  code : Matched s (fun _ => none) checksumSignature 0 u
  operands : Checked s res u
  code16 : s.code16 = false
  vm : hasBit s.flags VM = false

/-- The function returns 0 after no more than looks, or goes on to the words. -/
theorem CacheInv.fastLoop (hc : CacheInv s) (hq : s.QuietCode)
    (hwrap : s.Asks → ¬ NullSegment s .ss → hasBit s.cr0 cr0PG = true →
      s.sumAt.toNat + 4 ≤ 2 ^ 32)
    (hcode : ∀ k, k < 31 → (∀ j, j < k → s.Shown j) → P (linear s.loopAt k >>> 12) false)
    (hsum : s.Asks → ¬ NullSegment s .ss → Covers s P true s.sumAt .b32)
    (hsource : s.Asks → ¬ NullSegment s .ss → ¬ NullSegment s .ds →
      (∀ j, j < 4 → ∃ q, s.Placed true (linear s.sumAt j) q) → ∀ k, k < 2 * (s.gpr 1).toNat →
      (∀ j, j < k → Begins (s.gpr 0) j → s.PassesRam (linear s.sourceAt j)) →
      P (linear s.sourceAt k >>> 12) false)
    {bootFast : Bool} {r : Option Word} (h : win2kBootChecksumFastLoop bootFast s = .ok r t) :
    (r = none ∧ Look s P (fun _ => none) s t) ∨
      ∃ res u, Entered s P res u ∧ sumUp (s.gpr 0) (s.gpr 1) res u = .ok r t := by
  have hv := View.refl (P := P) hc
  unfold win2kBootChecksumFastLoop at h
  rw [get_bind_run] at h
  by_cases hguard : ¬ bootFast ∨ s.code16 ∨ hasBit s.flags VM ∨ s.cpl ≠ 0
  · rw [if_pos hguard] at h
    cases h
    exact Or.inl ⟨rfl, Look.refl hv⟩
  · rw [if_neg hguard] at h
    simp only [not_or, Bool.not_eq_true] at hguard
    obtain ⟨-, h16, hvm, hcpl⟩ := hguard
    have hcodeRun := hv.bootCodeMatches rfl hq hcode
    cases hm : win2kBootCodeMatches checksumSignature s with
    | fault u => exact (wp_faulted hcodeRun hm).elim
    | stop why =>
      rw [bind_run_stop hm] at h
      cases h
    | ok found u =>
      obtain ⟨hlook, hmatch⟩ := wp_ok hcodeRun hm
      rw [bind_run_ok hm] at h
      cases found with
      | false =>
        cases h
        exact Or.inl ⟨rfl, hlook⟩
      | true =>
        obtain ⟨hm', hshown⟩ := hmatch rfl
        have hasks : s.InOrder → s.Asks := fun ho => ⟨ho, h16, hvm, not_not.mp hcpl, hshown⟩
        have hops := hlook.view.checksumOperands (fun ho => hwrap (hasks ho)) (fun ho => hsum (hasks ho))
          fun ho => hsource (hasks ho)
        have hgpr : u.gpr = s.gpr := hlook.gpr
        rw [if_pos rfl, get_bind_run] at h
        simp only [lreg32, hgpr] at h
        cases ho : checksumOperands (s.gpr 5) (s.gpr 0) (s.gpr 1) u with
        | fault z => exact (wp_faulted hops ho).elim
        | stop why =>
          rw [bind_run_stop ho] at h
          cases h
        | ok found z =>
          obtain ⟨hlost, hfound⟩ := wp_ok hops ho
          rw [bind_run_ok ho] at h
          cases found with
          | none =>
            cases h
            exact Or.inl ⟨rfl, hlook.trans hlost⟩
          | some res =>
            obtain ⟨hlook', hchecked⟩ := hfound res rfl
            refine Or.inr ⟨res, z, ⟨hlook.trans hlook', ?_, hchecked, h16, hvm⟩, h⟩
            exact ⟨fun j hj => hlook'.later _ _ (hm'.has j hj), hm'.bytes⟩

end Function

namespace ChecksumPlace

variable {s t u : CPUI386} {n : Nat} {pl : ChecksumPlace s n}

theorem word_offset (source : Word) (i : Nat) :
    source + BitVec.ofNat 32 i * 2 = source + BitVec.ofNat 32 (2 * i) := by
  rw [Nat.mul_comm, BitVec.ofNat_mul]
  rfl

end ChecksumPlace

end Winspire.Cpu
