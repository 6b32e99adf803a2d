import Winspire.Cpu.BulkRuns
import Winspire.Cpu.OperandBytes

/-!
# Operands that cross a page

Each byte of an operand has a linear address, and the page of that address says where the byte
lies. `translate_laddr` looks up the page of the first byte and the page after it. The page after
the last one is the first, but `translate_laddr` looks for a page with the number `2 ^ 20`.
-/

namespace Winspire.Cpu

open Faulting Pages

set_option autoImplicit false

/-- The linear address of byte `k`. -/
def linear (laddr : Word) (k : Nat) : Word := laddr + BitVec.ofNat 32 k

namespace CPUI386

/-- Where the byte at a linear address lies, `none` if its page denies the access. -/
def phys (s : CPUI386) (rwm cpl : Nat) (a : Word) : Option Word :=
  (s.lookup rwm (a >>> 12) cpl).map fun f => f.xaddr ^^^ a

def withMem (s : CPUI386) (m : Nat → Byte) : CPUI386 := { s with mem := m }

def Ram (s : CPUI386) (a : Word) : Prop := inIomem a = false ∧ s.inMem a

end CPUI386

/-- Whatever memory holds, a load gives the bytes at `p`, and a store changes them. -/
structure MovesBytes (res : OptAddr) (w : Width) (s : CPUI386) (p : Nat → Word) : Prop where
  load : ∀ m : Nat → Byte, loadW res w (s.withMem m) =
    .ok (leWord (fun k => m (p k).toNat) w) (s.withMem m)
  store : ∀ (m : Nat → Byte) (v : Word), ∃ m' : Nat → Byte,
    storeW res v w (s.withMem m) = .ok () (s.withMem m') ∧
      (∀ k, k < w.bytes → m' (p k).toNat = byteOf v k) ∧
      ∀ a, (∀ k, k < w.bytes → a ≠ (p k).toNat) → m' a = m a

/-- An access faults at its first denied byte, or moves the bytes at its linear addresses. -/
structure Bytewise (s : CPUI386) (rwm : Nat) (laddr : Word) (w : Width) (cpl : Nat) : Prop where
  denied : ∀ k, k < w.bytes → s.phys rwm cpl (linear laddr k) = none →
    (∀ j, j < k → s.phys rwm cpl (linear laddr j) ≠ none) →
      ∃ s', translateLaddr rwm laddr w.bytes cpl s = .fault s' ∧ s'.excno = exPF ∧
        s'.cr2 = linear laddr k
  granted : ∀ p : Nat → Word,
    (∀ k, k < w.bytes → s.phys rwm cpl (linear laddr k) = some (p k)) →
      ∃ res s', translateLaddr rwm laddr w.bytes cpl s = .ok res s' ∧ MovesBytes res w s' p

section Linear

variable {laddr : Word} {w : Width}

def room (laddr : Word) : Nat := 0x1000 - offset 12 laddr

/-- The start of the page after the one of an address. -/
def nextStart (laddr : Word) : Word := linear laddr (room laddr)

theorem offset_lt_page (a : Word) : offset 12 a < 0x1000 := offset_lt a

theorem linear_zero (a : Word) : linear a 0 = a := BitVec.add_zero a

theorem offset_linear (a : Word) (k : Nat) : offset 12 (linear a k) = (offset 12 a + k) % 0x1000 := by
  unfold offset linear
  rw [BitVec.toNat_add, BitVec.toNat_ofNat]
  omega

theorem linear_inj {j k : Nat} (hj : j < w.bytes) (hk : k < w.bytes)
    (h : offset 12 (linear laddr j) = offset 12 (linear laddr k)) : j = k := by
  have hw : w.bytes ≤ 4 := by cases w <;> decide
  rw [offset_linear, offset_linear] at h
  have ho := offset_lt_page laddr
  omega

theorem lshr_linear {k : Nat} (h : k < room laddr) : linear laddr k >>> 12 = laddr >>> 12 := by
  have ho := offset_lt_page laddr
  unfold room at h
  exact lshr_eq_of_page (page_add (by decide) (by omega))

theorem offset_nextStart (laddr : Word) : offset 12 (nextStart laddr) = 0 := by
  have ho := offset_lt_page laddr
  rw [nextStart, offset_linear, room, Nat.add_sub_cancel' (by omega)]

theorem linear_nextStart (laddr : Word) (k : Nat) :
    linear (nextStart laddr) k = linear laddr (room laddr + k) := by
  unfold nextStart linear
  rw [BitVec.ofNat_add, BitVec.add_assoc]

theorem lshr_next {k : Nat} (hlo : room laddr ≤ k) (hhi : k < room laddr + 0x1000) :
    linear laddr k >>> 12 = nextStart laddr >>> 12 := by
  obtain ⟨d, rfl⟩ := Nat.exists_eq_add_of_le hlo
  rw [← linear_nextStart]
  apply lshr_linear
  rw [room, offset_nextStart]
  omega

theorem toNat_nextStart (laddr : Word) :
    (nextStart laddr).toNat = (laddr.toNat / 0x1000 + 1) * 0x1000 % 2 ^ 32 := by
  have ho := offset_lt_page laddr
  have hl := laddr.isLt
  unfold nextStart linear room
  unfold offset at ho ⊢
  rw [BitVec.toNat_add, BitVec.toNat_ofNat]
  omega

theorem nextPage_shl (laddr : Word) : nextPage laddr <<< 12 = nextStart laddr := by
  have hn := nextPage_toNat laddr
  have hl := laddr.isLt
  rw [BitVec.toNat_ushiftRight, Nat.shiftRight_eq_div_pow] at hn
  apply BitVec.eq_of_toNat_eq
  rw [BitVec.toNat_shiftLeft, toNat_nextStart, hn, Nat.shiftLeft_eq]

theorem nextStart_lshr (h : laddr.toNat / 0x1000 + 1 < 0x100000) :
    nextStart laddr >>> 12 = nextPage laddr := by
  apply BitVec.eq_of_toNat_eq
  rw [nextPage_toNat, BitVec.toNat_ushiftRight, BitVec.toNat_ushiftRight, toNat_nextStart,
    Nat.shiftRight_eq_div_pow, Nat.shiftRight_eq_div_pow]
  omega

theorem nextPage_last (h : ¬laddr.toNat / 0x1000 + 1 < 0x100000) :
    nextPage laddr = 0x100000 ∧ nextStart laddr >>> 12 = 0 := by
  have hl := laddr.isLt
  constructor
  · apply BitVec.eq_of_toNat_eq
    rw [nextPage_toNat, BitVec.toNat_ushiftRight, Nat.shiftRight_eq_div_pow]
    change _ = 0x100000
    omega
  · apply BitVec.eq_of_toNat_eq
    rw [BitVec.toNat_ushiftRight, toNat_nextStart, Nat.shiftRight_eq_div_pow]
    change _ = 0
    omega

theorem straddles_room (w : Width) : Straddles laddr w.bytes ↔ room laddr < w.bytes := by
  have hw : w.bytes ≤ 4 := by cases w <;> decide
  have ho := offset_lt_page laddr
  rw [straddles_iff laddr (by omega), room]
  omega

theorem room_pos (laddr : Word) : 0 < room laddr := by
  have ho := offset_lt_page laddr
  unfold room
  omega

/-- An operand that does not wrap has its second page below `2 ^ 20`. -/
theorem next_of_no_wrap (h : laddr.toNat + w.bytes ≤ 2 ^ 32) (hst : room laddr < w.bytes) :
    laddr.toNat / 0x1000 + 1 < 0x100000 := by
  unfold room offset at hst
  omega

theorem wrap_of_last (h : ¬laddr.toNat + w.bytes ≤ 2 ^ 32) :
    ¬laddr.toNat / 0x1000 + 1 < 0x100000 ∧ room laddr < w.bytes := by
  have hw : w.bytes ≤ 4 := by cases w <;> decide
  have hl := laddr.isLt
  unfold room offset
  omega

end Linear

section Lookups

variable {s : CPUI386} {rwm cpl : Nat} {laddr : Word} {w : Width}

theorem phys_first {k : Nat} (hk : k < room laddr) :
    s.phys rwm cpl (linear laddr k) =
      (s.lookup rwm (laddr >>> 12) cpl).map fun f => f.xaddr ^^^ linear laddr k := by
  rw [CPUI386.phys, lshr_linear hk]

theorem phys_second {k : Nat} (hlo : room laddr ≤ k) (hk : k < w.bytes) :
    s.phys rwm cpl (linear laddr k) =
      (s.lookup rwm (nextStart laddr >>> 12) cpl).map fun f => f.xaddr ^^^ linear laddr k := by
  have hw : w.bytes ≤ 4 := by cases w <;> decide
  rw [CPUI386.phys, lshr_next hlo (by omega)]

inductive OperandCase (s : CPUI386) (rwm : Nat) (laddr : Word) (w : Width) (cpl : Nat) : Prop where
  | first (h : s.lookup rwm (laddr >>> 12) cpl = none)
      (hop : s.operand rwm laddr w.bytes cpl = none)
  | one (f : Found) (h : s.lookup rwm (laddr >>> 12) cpl = some f) (hst : ¬room laddr < w.bytes)
      (hop : s.operand rwm laddr w.bytes cpl = some ⟨f.xaddr ^^^ laddr, none⟩)
  | second (f : Found) (h : s.lookup rwm (laddr >>> 12) cpl = some f) (hst : room laddr < w.bytes)
      (h2 : s.lookup rwm (nextPage laddr) cpl = none) (hop : s.operand rwm laddr w.bytes cpl = none)
  | two (f f2 : Found) (h : s.lookup rwm (laddr >>> 12) cpl = some f) (hst : room laddr < w.bytes)
      (h2 : s.lookup rwm (nextPage laddr) cpl = some f2)
      (hop : s.operand rwm laddr w.bytes cpl =
        some ⟨f.xaddr ^^^ laddr, some (f2.xaddr ^^^ nextStart laddr)⟩)

theorem operand_case (hpg : hasBit s.cr0 cr0PG = true) (rwm : Nat) (laddr : Word) (w : Width)
    (cpl : Nat) : OperandCase s rwm laddr w cpl := by
  have hop : s.operand rwm laddr w.bytes cpl = _ := if_pos hpg
  cases h : s.lookup rwm (laddr >>> 12) cpl with
  | none =>
    rw [h] at hop
    exact .first h hop
  | some f =>
    simp only [h] at hop
    by_cases hst : Straddles laddr w.bytes
    · rw [if_pos hst, nextPage_shl] at hop
      have hroom := (straddles_room w).mp hst
      cases h2 : s.lookup rwm (nextPage laddr) cpl with
      | none =>
        rw [h2] at hop
        exact .second f h hroom h2 hop
      | some f2 =>
        rw [h2] at hop
        exact .two f f2 h hroom h2 hop
    · rw [if_neg hst] at hop
      exact .one f h (fun hroom => hst ((straddles_room w).mpr hroom)) hop

theorem lookup_offset (ha : s.Aligned) {lpgno : Word} (hn : lpgno ≠ noPage) {f : Found}
    (hf : s.lookup rwm lpgno cpl = some f) : offset 12 f.xaddr = 0 := by
  rw [offset_and, lookup_aligned ha hn hf]
  rfl

/-- Inside a page an operand goes on where its first byte lies. -/
theorem xaddr_add {x a : Word} (hx : offset 12 x = 0) {k : Nat} (hk : k < room a) :
    (x ^^^ a) + BitVec.ofNat 32 k = x ^^^ linear a k := by
  have ho := offset_lt_page a
  have hin : offset 12 a + k < 2 ^ 12 := by
    unfold room at hk
    omega
  exact (xor_add (by decide) hx hin).symm

theorem byte_one {x : Word} (hx : offset 12 x = 0) {k : Nat} (hk : k < room laddr) :
    OptAddr.byte ⟨x ^^^ laddr, none⟩ k = x ^^^ linear laddr k :=
  xaddr_add hx hk

theorem byte_two {x y : Word} (hx : offset 12 x = 0) (hy : offset 12 y = 0) {k : Nat}
    (hk : k < w.bytes) : OptAddr.byte ⟨x ^^^ laddr, some (y ^^^ nextStart laddr)⟩ k =
      if k < room laddr then x ^^^ linear laddr k else y ^^^ linear laddr k := by
  have hw : w.bytes ≤ 4 := by cases w <;> decide
  have ho := offset_lt_page laddr
  have hsplit : 0x1000 - ((x ^^^ laddr) &&& 0xfff).toNat = room laddr := by
    rw [← offset_and, offset_xor_left hx, room]
  unfold OptAddr.byte
  simp only [hsplit]
  by_cases hroom : k < room laddr
  · rw [if_pos hroom, if_pos hroom]
    exact xaddr_add hx hroom
  · have hpage : room (nextStart laddr) = 0x1000 := by rw [room, offset_nextStart]
    have hnext : k - room laddr < room (nextStart laddr) := by omega
    rw [if_neg hroom, if_neg hroom, xaddr_add hy hnext, linear_nextStart,
      Nat.add_sub_cancel' (by omega)]

/-- The page after the first is found under the number it is looked up with. -/
def NextPageRight (s : CPUI386) (rwm : Nat) (laddr : Word) (w : Width) (cpl : Nat) : Prop :=
  room laddr < w.bytes → s.lookup rwm (laddr >>> 12) cpl ≠ none →
    s.TablesInMem rwm (nextPage laddr) cpl ∧
      (s.lookup rwm (nextPage laddr) cpl).map Found.xaddr =
        (s.lookup rwm (nextStart laddr >>> 12) cpl).map Found.xaddr

/-- The operand ends below `2 ^ 32`, or its first page denies the access, or the page with the
number `2 ^ 20` is translated as page 0 is. -/
def SecondPageRight (s : CPUI386) (rwm : Nat) (laddr : Word) (w : Width) (cpl : Nat) : Prop :=
  laddr.toNat + w.bytes ≤ 2 ^ 32 ∨ s.lookup rwm (laddr >>> 12) cpl = none ∨
    s.TablesInMem rwm 0x100000 cpl ∧
      (s.lookup rwm 0x100000 cpl).map Found.xaddr = (s.lookup rwm 0 cpl).map Found.xaddr

/-- The tables of every page the operand has a byte in are in guest memory. -/
def TouchedTablesInMem (s : CPUI386) (rwm : Nat) (laddr : Word) (w : Width) (cpl : Nat) : Prop :=
  ∀ k, k < w.bytes → s.TablesInMem rwm (linear laddr k >>> 12) cpl

theorem TouchedTablesInMem.first (h : TouchedTablesInMem s rwm laddr w cpl) :
    s.TablesInMem rwm (laddr >>> 12) cpl := by
  have h0 := h 0 (by cases w <;> decide)
  rw [linear_zero] at h0
  exact h0

theorem nextPageRight_iff (htab : TouchedTablesInMem s rwm laddr w cpl) :
    NextPageRight s rwm laddr w cpl ↔ SecondPageRight s rwm laddr w cpl := by
  by_cases hwrap : laddr.toNat + w.bytes ≤ 2 ^ 32
  · refine iff_of_true ?_ (.inl hwrap)
    intro hst _
    have htab2 := htab (room laddr) hst
    have hnext : nextStart laddr >>> 12 = nextPage laddr := nextStart_lshr (next_of_no_wrap hwrap hst)
    rw [hnext]
    exact ⟨hnext ▸ htab2, rfl⟩
  · obtain ⟨hlast, hst⟩ := wrap_of_last hwrap
    obtain ⟨hpage, hstart⟩ := nextPage_last hlast
    unfold NextPageRight SecondPageRight
    rw [hpage, hstart]
    constructor
    · intro h
      by_cases hfirst : s.lookup rwm (laddr >>> 12) cpl = none
      · exact .inr (.inl hfirst)
      · exact .inr (.inr (h hst hfirst))
    · rintro (h | h | h)
      · exact absurd h hwrap
      · exact fun _ hne => absurd h hne
      · exact fun _ _ => h

end Lookups

section Moves

variable {s : CPUI386} {w : Width} {res : OptAddr} {p : Nat → Word}

theorem leWord_congr {b b' : Nat → Byte} (h : ∀ k, k < w.bytes → b k = b' k) :
    leWord b w = leWord b' w := by
  cases w with
  | b8 => rw [leWord, h 0 (by decide), leWord]
  | b16 => rw [leWord, h 0 (by decide), h 1 (by decide), leWord]
  | b32 => rw [leWord, h 0 (by decide), h 1 (by decide), h 2 (by decide), h 3 (by decide), leWord]

theorem toMem_load (h : s.Ram (res.byte 0)) (m : Nat → Byte) :
    MemOp.ToMem res (s.withMem m) (.load w) := by
  rw [byte_zero] at h
  have hmap := mapBiosAlias_ram h.1
  refine ⟨?_, ?_⟩
  · rw [hmap]
    exact if_neg (by rw [h.1]; decide)
  · rw [hmap]
    exact h.2

theorem toMem_store (h : s.Ram (res.byte 0)) (m : Nat → Byte) (v : Word) :
    MemOp.ToMem res (s.withMem m) (.store w v) := by
  rw [byte_zero] at h
  refine ⟨?_, h.2⟩
  unfold CPUI386.iomemWriter
  rw [h.1, Bool.false_and]

/-- Neither page of an operand in memory is seen through the BIOS alias. -/
theorem mapped_ram (hf : res.Fits w) (hram : ∀ k, k < w.bytes → s.Ram (res.byte k)) :
    res.mapped = res := by
  have h0 := hram 0 (by cases w <;> decide)
  rw [byte_zero] at h0
  rcases res with ⟨addr1, addr2⟩
  cases addr2 with
  | none => rw [OptAddr.mapped, mapBiosAlias_ram h0.1, Option.map_none]
  | some addr2 =>
    obtain ⟨n, hn, hn', hlow⟩ := hf.split rfl
    have h2 := hram n hn'
    rw [OptAddr.byte_crossing rfl hlow, if_neg (by omega), Nat.sub_self, add_zero_word] at h2
    rw [OptAddr.mapped, mapBiosAlias_ram h0.1, Option.map_some, mapBiosAlias_ram h2.1]

/-- The bytes of an operand are at addresses of their own. -/
def Spread (w : Width) (p : Nat → Word) : Prop :=
  ∀ j k, j < w.bytes → k < w.bytes → p j = p k → j = k

theorem movesBytes_of_ram (hf : res.Fits w) (hram : ∀ k, k < w.bytes → s.Ram (res.byte k))
    (hp : ∀ k, k < w.bytes → res.byte k = p k) (hspread : Spread w p) : MovesBytes res w s p where
  load m := by
    have h0 := hram 0 (by cases w <;> decide)
    have hin : res.mapped.InMem w (s.withMem m) := by
      rw [mapped_ram hf hram]
      exact fun k hk => (hram k hk).2
    rw [loadW_toMem hf (toMem_load h0 m) hin, mapped_ram hf hram]
    refine congrArg (fun v => Result.ok v _) (leWord_congr ?_)
    intro k hk
    rw [hp k hk]
    rfl
  store m v := by
    have h0 := hram 0 (by cases w <;> decide)
    have hin : res.InMem w (s.withMem m) := fun k hk => (hram k hk).2
    have hrun := storeW_toMem hf (toMem_store h0 m v) hin
    rw [setBytes_frame] at hrun
    refine ⟨_, hrun, ?_, ?_⟩
    · intro k hk
      rw [← hp k hk]
      apply setBytes_at _ _ hk
      intro j hj hjk heq
      rw [hp j hj, hp k hk] at heq
      exact hjk (hspread j k hj hk heq)
    · intro a ha
      refine setBytes_other (s.withMem m) _ _ fun k hk => ?_
      rw [hp k hk]
      exact ha k hk

/-- A store that goes through changes bytes of the operand only. -/
theorem MovesBytes.byte_mem (h : MovesBytes res w s p) (hf : res.Fits w) (h0 : s.Ram (res.byte 0))
    {k : Nat} (hk : k < w.bytes) : ∃ j, j < w.bytes ∧ p k = res.byte j := by
  obtain ⟨m', hstore, hat, -⟩ := h.store (fun _ => 0) 0xffffffff
  have hsafe : Safe ((MemOp.store w 0xffffffff).run res) (s.withMem fun _ => 0) := by
    have hrun : (MemOp.store w 0xffffffff).run res = storeW res 0xffffffff w := by cases w <;> rfl
    unfold Safe
    rw [hrun, hstore]
    exact fun hstop => (nomatch hstop)
  have hin := (safe_run (.store w 0xffffffff) hf).mp hsafe (toMem_store h0 _ _)
  have hrun := storeW_toMem hf (toMem_store h0 (fun _ => 0) 0xffffffff) hin
  rw [hstore] at hrun
  have hmem : m' = (CPUI386.setBytes (s.withMem fun _ => 0) res.byte (byteOf 0xffffffff)
      w.bytes).mem := by
    injection hrun with _ hs
    exact congrArg CPUI386.mem hs
  by_contra hnone
  have hother := setBytes_other (s.withMem fun _ => 0) res.byte (byteOf 0xffffffff)
    (n := w.bytes) (a := (p k).toNat) fun j hj heq => hnone ⟨j, hj, BitVec.eq_of_toNat_eq heq⟩
  rw [← hmem, hat k hk] at hother
  have hones : byteOf 0xffffffff k = 0xff := by
    have hw : w.bytes ≤ 4 := by cases w <;> decide
    obtain rfl | rfl | rfl | rfl : k = 0 ∨ k = 1 ∨ k = 2 ∨ k = 3 := by omega
    · decide
    · decide
    · decide
    · decide
  have hzero : (s.withMem fun _ => 0).mem (p k).toNat = 0 := rfl
  rw [hones, hzero] at hother
  exact absurd hother (by decide)

end Moves

section Accesses

variable {s : CPUI386} {rwm cpl : Nat} {laddr : Word} {w : Width}

/-- The address of a page fault, by the page that denies the access. -/
theorem translateLaddr_cr2 (ha : s.Aligned) (hpg : hasBit s.cr0 cr0PG = true) (rwm : Nat)
    (laddr : Word) (size cpl : Nat) :
    wp (translateLaddr rwm laddr size cpl) (fun _ _ => True)
      (fun s' => s'.excno = exPF ∧ s'.cr2 =
        if s.lookup rwm (laddr >>> 12) cpl = none then laddr else nextStart laddr)
      (fun _ => True) s := by
  unfold translateLaddr
  rw [wp_bind, wp_get]
  refine wp_ite ?_ (fun hn => absurd hpg hn)
  intro _
  rw [wp_bind]
  refine wp_mono (translateLpgnoFast_lookup ha (ne_noPage_of_laddr laddr)) ?_ ?_
    (fun _ _ => trivial)
  · intro addr1 t hhit
    obtain ⟨f, hf, -⟩ := hhit.found
    refine wp_ite ?_ (fun _ => trivial)
    intro _
    rw [wp_bind]
    refine wp_mono (translateLpgnoFast_lookup hhit.translated.aligned (nextPage_ne_noPage laddr))
      (fun _ _ _ => trivial) ?_ (fun _ _ => trivial)
    intro u hmiss
    rw [hf, if_neg (Option.some_ne_none f), ← nextPage_shl]
    exact ⟨hmiss.pageFault.excno, hmiss.pageFault.cr2⟩
  · intro u hmiss
    rw [hmiss.none, if_pos rfl]
    exact ⟨hmiss.pageFault.excno, hmiss.pageFault.cr2⟩

/-- The operand is found where its bytes are, when its second page is. -/
theorem operand_bytes (ha : s.Aligned) (hpg : hasBit s.cr0 cr0PG = true)
    (hnext : NextPageRight s rwm laddr w cpl) {res : OptAddr}
    (hop : s.operand rwm laddr w.bytes cpl = some res) {k : Nat} (hk : k < w.bytes) :
    s.phys rwm cpl (linear laddr k) = some (res.byte k) := by
  cases operand_case hpg rwm laddr w cpl with
  | first h hop' =>
    rw [hop] at hop'
    cases hop'
  | second f h hst h2 hop' =>
    rw [hop] at hop'
    cases hop'
  | one f h hst hop' =>
    rw [hop] at hop'
    cases hop'
    have hx := lookup_offset ha (ne_noPage_of_laddr laddr) h
    rw [phys_first (by omega), h, Option.map_some, byte_one hx (by omega)]
  | two f f2 h hst h2 hop' =>
    rw [hop] at hop'
    cases hop'
    have hx := lookup_offset ha (ne_noPage_of_laddr laddr) h
    have hy := lookup_offset ha (nextPage_ne_noPage laddr) h2
    rw [byte_two hx hy hk]
    by_cases hroom : k < room laddr
    · rw [if_pos hroom, phys_first hroom, h, Option.map_some]
    · have hsame := (hnext hst (by rw [h]; exact Option.some_ne_none f)).2
      rw [h2, Option.map_some] at hsame
      obtain ⟨f', hf', hxaddr⟩ := Option.map_eq_some_iff.mp hsame.symm
      rw [if_neg hroom, phys_second (by omega) hk, hf', Option.map_some, hxaddr]

/-- An access that is denied somewhere is denied where its translation faults. -/
theorem first_denied (hpg : hasBit s.cr0 cr0PG = true) (hnext : NextPageRight s rwm laddr w cpl)
    (hop : s.operand rwm laddr w.bytes cpl = none) :
    ∃ k, k < w.bytes ∧ s.phys rwm cpl (linear laddr k) = none ∧
      (∀ j, j < k → s.phys rwm cpl (linear laddr j) ≠ none) ∧
      (if s.lookup rwm (laddr >>> 12) cpl = none then laddr else nextStart laddr) =
        linear laddr k := by
  cases operand_case hpg rwm laddr w cpl with
  | first h hop' =>
    refine ⟨0, by cases w <;> decide, ?_, fun j hj => absurd hj (Nat.not_lt_zero j), ?_⟩
    · rw [phys_first (room_pos laddr), h, Option.map_none]
    · rw [if_pos h, linear_zero]
  | one f h hst hop' =>
    rw [hop] at hop'
    cases hop'
  | two f f2 h hst h2 hop' =>
    rw [hop] at hop'
    cases hop'
  | second f h hst h2 hop' =>
    have hsame := (hnext hst (by rw [h]; exact Option.some_ne_none f)).2
    rw [h2, Option.map_none] at hsame
    have hnone := Option.map_eq_none_iff.mp hsame.symm
    refine ⟨room laddr, hst, ?_, ?_, ?_⟩
    · rw [phys_second (Nat.le_refl _) hst, hnone, Option.map_none]
    · intro j hj
      rw [phys_first hj, h, Option.map_some]
      exact Option.some_ne_none _
    · rw [if_neg (by rw [h]; exact Option.some_ne_none f)]
      rfl

theorem first_denied_unique {k j : Nat} (hk : s.phys rwm cpl (linear laddr k) = none)
    (hfirst : ∀ i, i < k → s.phys rwm cpl (linear laddr i) ≠ none)
    (hj : s.phys rwm cpl (linear laddr j) = none)
    (hfirst' : ∀ i, i < j → s.phys rwm cpl (linear laddr i) ≠ none) : k = j := by
  rcases Nat.lt_trichotomy k j with h | h | h
  · exact absurd hk (hfirst' k h)
  · exact h
  · exact absurd hj (hfirst j h)

theorem spread_phys (ha : s.Aligned) {p : Nat → Word}
    (hp : ∀ k, k < w.bytes → s.phys rwm cpl (linear laddr k) = some (p k)) : Spread w p := by
  intro j k hj hk heq
  have hoff : ∀ i, i < w.bytes → offset 12 (p i) = offset 12 (linear laddr i) := by
    intro i hi
    obtain ⟨f, hf, hpi⟩ := Option.map_eq_some_iff.mp (hp i hi)
    rw [← hpi, offset_xor_left (lookup_offset ha (ne_noPage_of_laddr _) hf)]
  apply linear_inj hj hk
  rw [← hoff j hj, ← hoff k hk, heq]

theorem ram_congr {s' : CPUI386} (hc : Cached s s') {a : Word} (h : s.Ram a) : s'.Ram a := by
  refine ⟨h.1, ?_⟩
  rw [CPUI386.inMem, hc.memSize]
  exact h.2

theorem operandTablesInMem (htab : TouchedTablesInMem s rwm laddr w cpl)
    (hnext : NextPageRight s rwm laddr w cpl) : s.OperandTablesInMem rwm laddr w.bytes cpl := by
  intro _
  refine ⟨htab.first, ?_⟩
  intro hfirst hst
  exact (hnext ((straddles_room w).mp hst) hfirst).1

theorem bytewise_of_next (ha : s.Aligned) (hpg : hasBit s.cr0 cr0PG = true)
    (htab : TouchedTablesInMem s rwm laddr w cpl)
    (hram : ∀ k, k < w.bytes → ∀ q, s.phys rwm cpl (linear laddr k) = some q → s.Ram q)
    (hnext : NextPageRight s rwm laddr w cpl) : Bytewise s rwm laddr w cpl := by
  have hrun := @translateLaddr_operand s rwm w.bytes cpl laddr ha
  have hcr2 := translateLaddr_cr2 ha hpg rwm laddr w.bytes cpl
  cases hx : translateLaddr rwm laddr w.bytes cpl s with
  | ok res t =>
    obtain ⟨hc, -, -, hop⟩ := wp_ok hrun hx
    have hbytes : ∀ k, k < w.bytes → s.phys rwm cpl (linear laddr k) = some (res.byte k) :=
      fun k hk => operand_bytes ha hpg hnext hop hk
    constructor
    · intro k hk hnone
      rw [hbytes k hk] at hnone
      cases hnone
    · intro p hp
      refine ⟨res, t, hx, movesBytes_of_ram (operand_fits ha hop) ?_ ?_ (spread_phys ha hp)⟩
      · exact fun k hk => ram_congr hc (hram k hk _ (hbytes k hk))
      · exact fun k hk => Option.some.inj ((hbytes k hk).symm.trans (hp k hk))
  | fault t =>
    obtain ⟨-, -, hop⟩ := wp_faulted hrun hx
    obtain ⟨hexc, haddr⟩ := wp_faulted hcr2 hx
    obtain ⟨k, hk, hnone, hfirst, heq⟩ := first_denied hpg hnext hop
    constructor
    · intro j hj hnone' hfirst'
      rw [← first_denied_unique hnone hfirst hnone' hfirst', ← heq]
      exact ⟨t, hx, hexc, haddr⟩
    · intro p hp
      rw [hp k hk] at hnone
      cases hnone
  | stop why =>
    obtain ⟨-, hout⟩ := wp_stopped hrun hx
    exact absurd (operandTablesInMem htab hnext) hout

/-- With the second page found elsewhere, a store would go elsewhere. -/
theorem next_of_bytewise (ha : s.Aligned) (hpg : hasBit s.cr0 cr0PG = true)
    (hram : ∀ k, k < w.bytes → ∀ q, s.phys rwm cpl (linear laddr k) = some q → s.Ram q)
    (h : Bytewise s rwm laddr w cpl) : NextPageRight s rwm laddr w cpl := by
  intro hst hne
  obtain ⟨f, hf⟩ := Option.ne_none_iff_exists'.mp hne
  have hx := lookup_offset ha (ne_noPage_of_laddr laddr) hf
  have hin : s.OperandTablesInMem rwm laddr w.bytes cpl → s.TablesInMem rwm (nextPage laddr) cpl :=
    fun hin => (hin hpg).2 hne ((straddles_room w).mpr hst)
  have hrun := @translateLaddr_operand s rwm w.bytes cpl laddr ha
  have hfirst : ∀ k, k < room laddr → s.phys rwm cpl (linear laddr k) ≠ none := by
    intro k hk
    rw [phys_first hk, hf]
    exact Option.some_ne_none _
  cases hstart : s.lookup rwm (nextStart laddr >>> 12) cpl with
  | none =>
    -- the second page denies the access, so its first byte is the first one denied
    have hnone : s.phys rwm cpl (linear laddr (room laddr)) = none := by
      rw [phys_second (Nat.le_refl _) hst, hstart, Option.map_none]
    obtain ⟨t, hx', -⟩ := h.denied (room laddr) hst hnone hfirst
    obtain ⟨-, hintab, hop⟩ := wp_faulted hrun hx'
    refine ⟨hin hintab, ?_⟩
    cases operand_case hpg rwm laddr w cpl with
    | first h' _ => exact absurd h' hne
    | one f' _ hst' _ => exact absurd hst hst'
    | second f' _ _ h2 _ => rw [h2]
    | two f' f2 _ _ _ hop' =>
      rw [hop] at hop'
      cases hop'
  | some g =>
    have hp : ∀ k, k < w.bytes → s.phys rwm cpl (linear laddr k) =
        some ((if k < room laddr then f.xaddr else g.xaddr) ^^^ linear laddr k) := by
      intro k hk
      by_cases hroom : k < room laddr
      · rw [phys_first hroom, hf, if_pos hroom, Option.map_some]
      · rw [phys_second (by omega) hk, hstart, if_neg hroom, Option.map_some]
    obtain ⟨res, t, hx', hmoves⟩ := h.granted _ hp
    obtain ⟨hc, -, hintab, hop⟩ := wp_ok hrun hx'
    refine ⟨hin hintab, ?_⟩
    cases operand_case hpg rwm laddr w cpl with
    | first h' _ => exact absurd h' hne
    | one f' _ hst' _ => exact absurd hst hst'
    | second f' _ _ _ hop' =>
      rw [hop] at hop'
      cases hop'
    | two f' f2 hf' _ h2 hop' =>
      rw [hf] at hf'
      cases hf'
      have hfits := operand_fits ha hop
      rw [hop] at hop'
      cases hop'
      have hy := lookup_offset ha (nextPage_ne_noPage laddr) h2
      have hg := lookup_offset ha (ne_noPage_of_laddr _) hstart
      have hpos : 0 < w.bytes := by cases w <;> decide
      have h0 : t.Ram (OptAddr.byte ⟨f.xaddr ^^^ laddr, some (f2.xaddr ^^^ nextStart laddr)⟩ 0) := by
        have hbyte := hp 0 hpos
        rw [if_pos (room_pos laddr)] at hbyte
        rw [byte_two hx hy hpos, if_pos (room_pos laddr)]
        exact ram_congr hc (hram 0 hpos _ hbyte)
      obtain ⟨j, hj, heq⟩ := hmoves.byte_mem hfits h0 hst
      rw [if_neg (Nat.lt_irrefl _), byte_two hx hy hj] at heq
      -- the offsets tell which byte it is
      have hoff : offset 12 (linear laddr (room laddr)) = offset 12 (linear laddr j) := by
        rw [← offset_xor_left hg (linear laddr (room laddr)), heq]
        split
        · exact offset_xor_left hx _
        · exact offset_xor_left hy _
      obtain rfl := linear_inj hst hj hoff
      rw [if_neg (Nat.lt_irrefl _)] at heq
      rw [h2, Option.map_some, Option.map_some, (BitVec.xor_left_inj _).mp heq]

end Accesses

/-- In every state of every run with paging on, for an operand whose pages, as far as they grant
the access, lie in plain memory: the access is bytewise if and only if the operand does not wrap
behind the last page, its first page denies it, or the number `2 ^ 20` is translated as page 0. -/
theorem access_bytewise_iff {s : CPUI386} (hr : CacheRun s) (hpg : hasBit s.cr0 cr0PG = true)
    (rwm : Nat) (laddr : Word) (w : Width) (cpl : Nat)
    (htab : TouchedTablesInMem s rwm laddr w cpl)
    (hram : ∀ k, k < w.bytes → ∀ q, s.phys rwm cpl (linear laddr k) = some q → s.Ram q) :
    Bytewise s rwm laddr w cpl ↔ SecondPageRight s rwm laddr w cpl := by
  have ha := cacheRun_aligned hr
  rw [← nextPageRight_iff htab]
  exact ⟨next_of_bytewise ha hpg hram, bytewise_of_next ha hpg htab hram⟩

/-- Tables that map the first two pages to the frames 3 and 5, and the last page to frame 3. -/
def tables (a : Nat) : Byte :=
  match a with
  | 0x0000 | 0x0ffc => 0x07
  | 0x0001 | 0x0ffd => 0x20
  | 0x2000 | 0x2004 | 0x2ffc => 0x07
  | 0x2001 | 0x2ffd => 0x30
  | 0x2005 => 0x50
  | _ => 0

/-- After a reset, with paging on and nothing behind the page directory. -/
def wrapCpu : CPUI386 :=
  { cpui386New .i486 tables 0x6000 false false with cr0 := 0x80000011 }

theorem cacheRun_wrapCpu : CacheRun wrapCpu := .reset ⟨fun _ => rfl, fun _ => rfl, fun _ => rfl⟩

theorem wrapCpu_found {lpgno xaddr : Word} (h : wrapCpu.lookup 1 lpgno 0 = some ⟨xaddr, none⟩)
    (hwalk : wrapCpu.WalkInMem lpgno) : wrapCpu.TablesInMem 1 lpgno 0 where
  walk _ _ := hwalk
  mark f a hf hmark := by
    rw [h] at hf
    cases hf
    cases hmark

theorem access_bytewise_iff_crossing :
    Bytewise wrapCpu 1 0xfff .b16 0 ↔ SecondPageRight wrapCpu 1 0xfff .b16 0 := by
  apply access_bytewise_iff cacheRun_wrapCpu (by decide)
  · intro k hk
    obtain rfl | rfl : k = 0 ∨ k = 1 := by
      change k < 2 at hk
      omega
    · exact @wrapCpu_found _ 0x3000 (by decide) ⟨by decide, fun _ => by decide⟩
    · exact @wrapCpu_found _ 0x4000 (by decide) ⟨by decide, fun _ => by decide⟩
  · intro k hk q hq
    obtain rfl | rfl : k = 0 ∨ k = 1 := by
      change k < 2 at hk
      omega
    · have hbyte : wrapCpu.phys 1 0 (linear 0xfff 0) = some 0x3fff := by decide
      rw [hbyte] at hq
      cases hq
      exact ⟨by decide, by decide⟩
    · have hbyte : wrapCpu.phys 1 0 (linear 0xfff 1) = some 0x5000 := by decide
      rw [hbyte] at hq
      cases hq
      exact ⟨by decide, by decide⟩

/-- A word at the last byte of the address space: page 0 grants the access, but the number
`2 ^ 20` has no entry. -/
theorem wrapped_access_faults :
    ¬∀ s : CPUI386, CacheRun s → hasBit s.cr0 cr0PG = true →
      ∀ (rwm : Nat) (laddr : Word) (w : Width) (cpl : Nat), TouchedTablesInMem s rwm laddr w cpl →
        (∀ k, k < w.bytes → ∀ q, s.phys rwm cpl (linear laddr k) = some q → s.Ram q) →
        Bytewise s rwm laddr w cpl := by
  intro hall
  have hfirst : wrapCpu.phys 1 0 (linear 0xffffffff 0) = some 0x3fff := by decide
  have hsecond : wrapCpu.phys 1 0 (linear 0xffffffff 1) = some 0x3000 := by decide
  have hbyte : ∀ k, k < Width.b16.bytes →
      wrapCpu.phys 1 0 (linear 0xffffffff k) = some (if k = 0 then 0x3fff else 0x3000) := by
    intro k hk
    obtain rfl | rfl : k = 0 ∨ k = 1 := by
      change k < 2 at hk
      omega
    · exact hfirst
    · exact hsecond
  have hbytewise : Bytewise wrapCpu 1 0xffffffff .b16 0 := by
    apply hall wrapCpu cacheRun_wrapCpu (by decide)
    · intro k hk
      obtain rfl | rfl : k = 0 ∨ k = 1 := by
        change k < 2 at hk
        omega
      · exact @wrapCpu_found _ 0xffffc000 (by decide) ⟨by decide, fun _ => by decide⟩
      · exact @wrapCpu_found _ 0x3000 (by decide) ⟨by decide, fun _ => by decide⟩
    · intro k hk q hq
      rw [hbyte k hk] at hq
      cases hq
      split
      · exact ⟨by decide, by decide⟩
      · exact ⟨by decide, by decide⟩
  obtain ⟨res, t, hrun, -⟩ := hbytewise.granted _ hbyte
  obtain ⟨-, -, -, hop⟩ :=
    wp_ok (translateLaddr_operand (cacheRun_aligned cacheRun_wrapCpu)) hrun
  have hnone : wrapCpu.operand 1 0xffffffff Width.b16.bytes 0 = none := by decide
  rw [hnone] at hop
  cases hop

end Winspire.Cpu
