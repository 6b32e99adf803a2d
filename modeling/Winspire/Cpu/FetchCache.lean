import Winspire.Lib.Pages
import Winspire.Cpu.Bounds
import Winspire.Cpu.Fetch

/-!
# What a fetch should deliver

The kept page agrees with the tables, and the running pointer with the kept page; then a fetch
delivers what a translation of CS:EIP finds at that moment.
-/

namespace Winspire.Cpu

open Faulting Pages

set_option autoImplicit false

/-- A byte of code, at the current privilege. -/
def CPUI386.codeAccess (s : CPUI386) (laddr : Word) : Access :=
  if hasBit s.cr0 cr0PG then s.access laddr (decide (0 < s.cpl)) false else .granted laddr

/-- The same for the supervisor, who may read every page. -/
def CPUI386.mapsCode (s : CPUI386) (laddr : Word) : Access :=
  if hasBit s.cr0 cr0PG then s.access laddr false false else .granted laddr

inductive Fetched where
  | granted (res : OptAddr)
  | denied (laddr excerr : Word)
  deriving DecidableEq, Repr

def CPUI386.fetchAt (s : CPUI386) (w : Width) : Fetched :=
  match s.codeAccess s.codeAddr with
  | .denied excerr => .denied s.codeAddr excerr
  | .granted addr1 =>
    if hasBit s.cr0 cr0PG ∧ Straddles s.codeAddr w.bytes then
      let next := nextPage s.codeAddr <<< 12
      match s.codeAccess next with
      | .denied excerr => .denied next excerr
      | .granted addr2 => .granted ⟨addr1, some addr2⟩
    else .granted ⟨addr1, none⟩

/-- The tables the fetch needs, and what it reads, are in guest memory. -/
structure CPUI386.FetchInMem (s : CPUI386) (w : Width) : Prop where
  first : hasBit s.cr0 cr0PG = true → s.WalkInMem (s.codeAddr >>> 12)
  next : hasBit s.cr0 cr0PG = true → (∃ a, s.codeAccess s.codeAddr = .granted a) →
    Straddles s.codeAddr w.bytes → s.WalkInMem (nextPage s.codeAddr)
  operand : ∀ res, s.fetchAt w = .granted res → MemOp.ToMem res s (.load w) →
    res.mapped.InMem w s

/-- `t` is `s` with marks in its tables, as far as a load can tell. -/
structure MarkedView (s t : CPUI386) : Prop where
  marks : Marks s t
  io : t.io = s.io
  memSize : t.memSize = s.memSize
  cb : t.cb = s.cb

/-- `r` is what a fetch in `s` should give: the content of guest memory where the tables let the
code be read, and otherwise their fault. The accessed bits are set before the content is read. -/
def AsFetch (s : CPUI386) (w : Width) (r : Result CPUI386 Stop Word) : Prop :=
  match r with
  | .ok v _ => ¬ NullSegment s .cs ∧ ∃ res, s.fetchAt w = .granted res ∧
    ∃ t u, MarkedView s t ∧ loadW res w t = .ok v u
  | .fault s' => (NullSegment s .cs ∧ s'.excno = exGP ∧ s'.excerr = 0) ∨
    (s.fetchAt w = .denied s'.cr2 s'.excerr ∧ s'.excno = exPF)
  | .stop why => why = .wild ∧ ¬ s.FetchInMem w

/-- The page in `ifetch` is one the tables map, all of it in guest memory. -/
structure CPUI386.PageKept (s : CPUI386) : Prop where
  low : offset 12 s.ifetch.laddr = 0
  xlow : offset 12 s.ifetch.xaddr = 0
  maps : ∀ laddr, page 12 laddr = page 12 s.ifetch.laddr →
    ∃ raw, s.mapsCode laddr = .granted raw ∧ mapBiosAlias raw = s.ifetch.xaddr ^^^ laddr
  inMem : ∀ laddr, page 12 laddr = page 12 s.ifetch.laddr → s.inMem (s.ifetch.xaddr ^^^ laddr)
  plain : ∀ laddr w, page 12 laddr = page 12 s.ifetch.laddr →
    s.iomemReader w (s.ifetch.xaddr ^^^ laddr) = none

/-- Guest memory holds a page and fits the address space; a board that reads devices by bytes
reads them by words too. -/
structure CPUI386.Fitted (s : CPUI386) : Prop where
  page : 0x1000 ≤ s.memSize
  space : s.memSize < 2 ^ 32
  cb : s.cb.iomemRead .b8 = none → ∀ w, s.cb.iomemRead w = none

structure FetchInv (s : CPUI386) : Prop where
  coherent : Coherent linearPages s
  fitted : s.Fitted
  kept : s.ifetch.laddr ≠ noPage → s.PageKept

/-- The running pointer stands at the next byte, counted from the first one of the instruction,
which had 16 more bytes of its page behind it. -/
structure CPUI386.Decoding (s : CPUI386) : Prop where
  kept : s.ifetch.laddr ≠ noPage
  start : page 12 ((s.seg .cs).base + s.ip) = page 12 s.ifetch.laddr
  room : offset 12 ((s.seg .cs).base + s.ip) < 4096 - 16
  paddr : s.ifetch.paddr = (s.ifetch.xaddr ^^^ ((s.seg .cs).base + s.ip)) + (s.nextIp - s.ip)

/-- The next bytes are taken from the kept page. -/
structure CPUI386.Hits (s : CPUI386) (w : Width) : Prop where
  page : page 12 s.codeAddr = page 12 s.ifetch.laddr
  room : offset 12 s.codeAddr + w.bytes ≤ 4096

/-- What a translation checks and the kept page does not: CS is not null, and in user mode the page
is a user page. -/
structure CPUI386.MayFetch (s : CPUI386) : Prop where
  cs : ¬ NullSegment s .cs
  user : s.cpl ≠ 0 → hasBit s.cr0 cr0PG = true →
    ∀ p, s.walk (s.codeAddr >>> 12) = some p → p.user = true

section Privilege

variable {s : CPUI386} {laddr raw : Word}

theorem Page.allows_code (p : Page) (wp user : Bool) :
    p.allows wp user false = (!user || p.user) := by
  unfold Page.allows
  rw [Bool.not_false, Bool.true_or, Bool.true_or, Bool.and_true]

theorem access_code (user : Bool) : s.access laddr user false = .granted raw ↔
    ∃ p, s.walk (laddr >>> 12) = some p ∧ (user = true → p.user = true) ∧
      raw = p.frame ||| laddr &&& 0xfff := by
  unfold CPUI386.access CPUI386.accessPage
  cases hw : s.walk (laddr >>> 12) with
  | none => simp
  | some p =>
    simp only [Page.allows_code, Option.some.injEq]
    constructor
    · intro h
      split at h
      · rename_i hallow
        injection h with h
        refine ⟨p, rfl, fun hu => ?_, h.symm⟩
        rw [hu] at hallow
        exact hallow
      · cases h
    · rintro ⟨p', rfl, hu, rfl⟩
      cases user with
      | false => rfl
      | true => rw [hu rfl]; rfl

theorem mapsCode_of_granted (h : s.codeAccess laddr = .granted raw) :
    s.mapsCode laddr = .granted raw := by
  unfold CPUI386.codeAccess at h
  unfold CPUI386.mapsCode
  split at h
  · rename_i hpg
    obtain ⟨p, hw, -, hraw⟩ := (access_code _).mp h
    rw [if_pos hpg]
    exact (access_code _).mpr ⟨p, hw, (fun hu => nomatch hu), hraw⟩
  · rename_i hpg
    rw [if_neg hpg]
    exact h

theorem codeAccess_of_maps (h : s.mapsCode laddr = .granted raw)
    (hu : s.cpl ≠ 0 → hasBit s.cr0 cr0PG = true →
      ∀ p, s.walk (laddr >>> 12) = some p → p.user = true) :
    s.codeAccess laddr = .granted raw := by
  unfold CPUI386.mapsCode at h
  unfold CPUI386.codeAccess
  split at h
  · rename_i hpg
    obtain ⟨p, hw, -, hraw⟩ := (access_code _).mp h
    rw [if_pos hpg]
    refine (access_code _).mpr ⟨p, hw, fun hcpl => ?_, hraw⟩
    exact hu (Nat.ne_of_gt (of_decide_eq_true hcpl)) hpg p hw
  · rename_i hpg
    rw [if_neg hpg]
    exact h

/-- A page that may be fetched from is one the kept page may stand for. -/
theorem mayFetch_of_granted (hcs : ¬ NullSegment s .cs)
    (h : s.codeAccess s.codeAddr = .granted raw) : s.MayFetch := by
  refine ⟨hcs, fun hcpl hpg p hp => ?_⟩
  rw [CPUI386.codeAccess, if_pos hpg] at h
  obtain ⟨p', hw, hu, -⟩ := (access_code _).mp h
  rw [hp] at hw
  cases hw
  exact hu (decide_eq_true (Nat.pos_of_ne_zero hcpl))

end Privilege

def CPUI386.valueAt (s : CPUI386) (a : Word) : Width → Word
  | .b8 => (s.byteAt a).setWidth 32
  | .b16 => (s.wordAt a).setWidth 32
  | .b32 => s.dwordAt a

section Hits

variable {s : CPUI386} {a : Word}

/-- The bytes of an operand in guest memory, one after the other. -/
def CPUI386.InMemFrom (s : CPUI386) (a : Word) (w : Width) : Prop :=
  ∀ k, k < w.bytes → s.inMem (a + BitVec.ofNat 32 k)

theorem CPUI386.InMemFrom.zero {w : Width} (h : s.InMemFrom a w) : s.inMem a := by
  have h0 := h 0 (by cases w <;> decide)
  rw [add_zero_word] at h0
  exact h0

theorem pload8_ok (h : s.InMemFrom a .b8) : pload8 a s = .ok (s.byteAt a) s :=
  pload8_run_inMem h.zero

theorem pload16_ok (h : s.InMemFrom a .b16) : pload16 a s = .ok (s.wordAt a) s :=
  pload16_run_inMem ⟨h.zero, h 1 (by decide)⟩

theorem pload32_ok (h : s.InMemFrom a .b32) : pload32 a s = .ok (s.dwordAt a) s := by
  unfold pload32
  rw [get_bind_run, if_pos ⟨h.zero, h 1 (by decide), h 2 (by decide), h 3 (by decide)⟩]
  rfl

theorem loadW_plain {raw : Word} {w : Width} (hraw : mapBiosAlias raw = a)
    (hdev : s.iomemReader w a = none) (hin : s.InMemFrom a w) :
    loadW ⟨raw, none⟩ w s = .ok (s.valueAt a w) s := by
  have h0 : ¬ ¬ s.inMem a := not_not_intro hin.zero
  cases w with
  | b8 =>
    have hl : load8 ⟨raw, none⟩ s = .ok (s.byteAt a) s := by
      unfold load8
      simp only [hraw]
      rw [get_bind_run, hdev]
      simp only [if_neg h0]
      exact pload8_ok hin
    exact bind_run_ok hl
  | b16 =>
    have hl : load16 ⟨raw, none⟩ s = .ok (s.wordAt a) s := by
      unfold load16
      simp only [hraw]
      rw [get_bind_run, hdev]
      simp only [if_neg h0]
      exact pload16_ok hin
    exact bind_run_ok hl
  | b32 =>
    change load32 ⟨raw, none⟩ s = _
    unfold load32
    simp only [hraw]
    rw [get_bind_run, hdev]
    simp only [if_neg h0]
    exact pload32_ok hin

theorem inMemFrom_kept (hk : s.PageKept) {w : Width} (hit : s.Hits w) :
    s.InMemFrom (s.ifetch.xaddr ^^^ s.codeAddr) w := by
  obtain ⟨hp, ho⟩ := hit
  intro k hlt
  have hoff : offset 12 s.codeAddr + k < 2 ^ 12 := by
    change _ < 4096
    omega
  rw [← xor_add (by decide) hk.xlow hoff]
  apply hk.inMem
  rw [page_add (by decide) hoff]
  exact hp

/-- The value in the kept page is the one a fetch should deliver. -/
theorem asFetch_kept (hk : s.PageKept) {w : Width} (hit : s.Hits w) (hm : s.MayFetch)
    (s' : CPUI386) : AsFetch s w (.ok (s.valueAt (s.ifetch.xaddr ^^^ s.codeAddr) w) s') := by
  obtain ⟨hp, ho⟩ := hit
  obtain ⟨raw, hmaps, hmap⟩ := hk.maps s.codeAddr hp
  have hraw := codeAccess_of_maps hmaps hm.user
  refine ⟨hm.cs, ⟨raw, none⟩, ?_, s, s, ⟨Marks.refl s, rfl, rfl, rfl⟩, ?_⟩
  · have hst : ¬ (hasBit s.cr0 cr0PG = true ∧ Straddles s.codeAddr w.bytes) := by
      rintro ⟨-, hst⟩
      have hw := w.bytes_le
      rw [straddles_iff _ (by omega)] at hst
      omega
    rw [CPUI386.fetchAt, hraw]
    exact if_neg hst
  · exact loadW_plain hmap (hk.plain _ _ hp) (inMemFrom_kept hk ⟨hp, ho⟩)

end Hits

section Keeping

variable {s t : CPUI386}

theorem CPUI386.PageKept.congr (hk : s.PageKept) (hl : t.ifetch.laddr = s.ifetch.laddr)
    (hx : t.ifetch.xaddr = s.ifetch.xaddr) (hsize : t.memSize = s.memSize) (hcb : t.cb = s.cb)
    (hacc : ∀ l, page 12 l = page 12 s.ifetch.laddr → t.mapsCode l = s.mapsCode l) :
    t.PageKept where
  low := by rw [hl]; exact hk.low
  xlow := by rw [hx]; exact hk.xlow
  maps l hp := by
    rw [hl] at hp
    rw [hacc l hp, hx]
    exact hk.maps l hp
  inMem l hp := by
    rw [hl] at hp
    rw [CPUI386.inMem, hx, hsize]
    exact hk.inMem l hp
  plain l w hp := by
    rw [hl] at hp
    rw [CPUI386.iomemReader, hx, hcb]
    exact hk.plain l w hp

theorem CPUI386.Fitted.congr (h : s.Fitted) (hsize : t.memSize = s.memSize) (hcb : t.cb = s.cb) :
    t.Fitted := by
  refine ⟨?_, ?_, ?_⟩
  · rw [hsize]
    exact h.page
  · rw [hsize]
    exact h.space
  · rw [hcb]
    exact h.cb

theorem access_page {l : Word} (hs : SamePage (l >>> 12) s t) (user write : Bool) :
    t.access l user write = s.access l user write := by
  unfold CPUI386.access CPUI386.accessPage
  rw [hs.walk, hs.wp]

theorem access_congr (hs : SamePages linearPages s t) (l : Word) (user write : Bool) :
    t.access l user write = s.access l user write :=
  access_page (hs.page (lshr_twelve_lt l)) user write

theorem codeAccess_congr (hs : SamePages linearPages s t) (hcr0 : t.cr0 = s.cr0)
    (hcpl : t.cpl = s.cpl) (l : Word) : t.codeAccess l = s.codeAccess l := by
  unfold CPUI386.codeAccess
  rw [access_congr hs, hcr0, hcpl]

theorem mapsCode_page {l : Word} (hpg : hasBit t.cr0 cr0PG = hasBit s.cr0 cr0PG)
    (hs : hasBit s.cr0 cr0PG = true → SamePage (l >>> 12) s t) : t.mapsCode l = s.mapsCode l := by
  unfold CPUI386.mapsCode
  rw [hpg]
  split
  · rename_i hon
    exact access_page (hs hon) false false
  · rfl

theorem mapsCode_congr (hs : SamePages linearPages s t)
    (hpg : hasBit t.cr0 cr0PG = hasBit s.cr0 cr0PG) (l : Word) : t.mapsCode l = s.mapsCode l :=
  mapsCode_page hpg fun _ => hs.page (lshr_twelve_lt l)

/-- Everything but caches, marks, the exception state, the devices' log and the pointers of the
fetch stays. -/
structure Fetching (s t : CPUI386) : Prop where
  marks : Marks s t
  rest : t = { s with
    mem := t.mem, tlb := t.tlb, dtlbRead := t.dtlbRead, dtlbWrite := t.dtlbWrite,
    cr2 := t.cr2, excno := t.excno, excerr := t.excerr, io := t.io, ifetch := t.ifetch,
    nextIp := t.nextIp }

theorem CachedFault.fetching (h : CachedFault s t) : Fetching s t where
  marks := h.marks
  rest := by
    rw [h.rest]

theorem Cached.fetching (h : Cached s t) : Fetching s t where
  marks := h.marks
  rest := by
    rw [h.rest]

theorem Fetching.samePages (h : Fetching s t) : SamePages linearPages s t :=
  h.marks.samePages (by rw [h.rest]) (by rw [h.rest])

theorem FetchInv.fetching (hi : FetchInv s) (h : Fetching s t) (hc : Coherent linearPages t)
    (hl : t.ifetch.laddr = s.ifetch.laddr) (hx : t.ifetch.xaddr = s.ifetch.xaddr) :
    FetchInv t where
  coherent := hc
  fitted := hi.fitted.congr (by rw [h.rest]) (by rw [h.rest])
  kept hn := by
    rw [hl] at hn
    refine (hi.kept hn).congr hl hx (by rw [h.rest]) (by rw [h.rest]) ?_
    intro l _
    exact mapsCode_congr h.samePages (by rw [h.rest]) l

end Keeping

section Physical

variable {s : CPUI386} {a b : Word}

theorem inIomem_iff (a : Word) : inIomem a = true ↔
    0xa0 ≤ page 12 a ∧ page 12 a < 0xc0 ∨ 0xe0000 ≤ page 12 a := by
  rw [inIomem_toNat_iff]
  unfold page
  omega

theorem inIomem_page (h : page 12 a = page 12 b) : inIomem a = inIomem b := by
  rw [Bool.eq_iff_iff, inIomem_iff, inIomem_iff, h]

theorem alias_iff (a : Word) : 0xfffe0000 ≤ a ↔ 0xfffe0 ≤ page 12 a := by
  have h : (0xfffe0000 ≤ a) ↔ 0xfffe0000 ≤ a.toNat := BitVec.le_def
  unfold page
  rw [h]
  omega

theorem mapBiosAlias_xor {d : Word} (hd : page 12 d = 0) :
    mapBiosAlias (a ^^^ d) = mapBiosAlias a ^^^ d := by
  have hpage : page 12 (a ^^^ d) = page 12 a := by rw [page_xor, hd, Nat.xor_zero]
  have hmask : d &&& 0x000fffff = d := by
    have hlt : d.toNat < 4096 := by
      unfold page at hd
      omega
    apply BitVec.eq_of_toNat_eq
    rw [BitVec.toNat_and]
    exact (Nat.and_two_pow_sub_one_eq_mod d.toNat 20).trans (Nat.mod_eq_of_lt (by omega))
  unfold mapBiosAlias
  by_cases h : 0xfffe0000 ≤ a
  · rw [if_pos h, if_pos ((alias_iff _).mpr (by rw [hpage]; exact (alias_iff a).mp h))]
    apply BitVec.eq_of_getLsbD_eq
    intro i hi
    have hmi := congrArg (fun x : Word => x.getLsbD i) hmask
    simp only [BitVec.getLsbD_and] at hmi
    simp only [BitVec.getLsbD_and, BitVec.getLsbD_xor]
    rw [← hmi]
    cases a.getLsbD i <;> cases d.getLsbD i <;> cases (0x000fffff : Word).getLsbD i <;> rfl
  · rw [if_neg h, if_neg]
    intro h'
    rw [alias_iff, hpage, ← alias_iff] at h'
    exact h h'

theorem offset_mapBiosAlias (a : Word) : offset 12 (mapBiosAlias a) = offset 12 a := by
  rw [offset_and, offset_and, mapBiosAlias_low]

end Physical

section Granting

variable {s : CPUI386} {laddr l raw : Word}

theorem page_xor_self (h : page 12 l = page 12 laddr) : page 12 (laddr ^^^ l) = 0 := by
  rw [page_xor, h, Nat.xor_self]

theorem xor_xor_cancel (x y z : Word) : x ^^^ y ^^^ (y ^^^ z) = x ^^^ z := by
  rw [BitVec.xor_assoc, ← BitVec.xor_assoc y y z, BitVec.xor_self, BitVec.zero_xor]

theorem codeAccess_samePage (h : s.codeAccess laddr = .granted raw)
    (hp : page 12 l = page 12 laddr) : s.codeAccess l = .granted (raw ^^^ (laddr ^^^ l)) := by
  have hshift := lshr_eq_of_page hp
  unfold CPUI386.codeAccess at h ⊢
  by_cases hpg : hasBit s.cr0 cr0PG = true
  · rw [if_pos hpg] at h ⊢
    unfold CPUI386.access CPUI386.accessPage at h ⊢
    rw [hshift]
    cases hw : s.walk (laddr >>> 12) with
    | none =>
      rw [hw] at h
      cases h
    | some p =>
      rw [hw] at h
      simp only [] at h ⊢
      have hframe : ∀ i, i < 12 → p.frame.getLsbD i = false :=
        fun i hi => CPUI386.walk_frame_low hw hi
      split at h
      · rename_i ha
        rw [if_pos ha]
        injection h with h
        rw [← h, ← frame_xor hframe, ← frame_xor hframe, hshift]
        rw [xor_xor_cancel]
      · cases h
  · rw [if_neg hpg] at h ⊢
    injection h with h
    rw [← h, ← BitVec.xor_assoc, BitVec.xor_self, BitVec.zero_xor]

theorem offset_of_granted (h : s.codeAccess laddr = .granted raw) :
    offset 12 raw = offset 12 laddr := by
  unfold CPUI386.codeAccess at h
  split at h
  · unfold CPUI386.access CPUI386.accessPage at h
    cases hw : s.walk (laddr >>> 12) with
    | none =>
      rw [hw] at h
      cases h
    | some p =>
      rw [hw] at h
      simp only [] at h
      split at h
      · injection h with h
        rw [← h, offset_and, offset_and]
        congr 1
        apply BitVec.eq_of_getLsbD_eq
        intro i hi
        have hoff : ∀ j : Fin 32, (0xfff : Word).getLsbD j.val = decide (j.val < 12) := by decide
        rw [BitVec.getLsbD_and, BitVec.getLsbD_or, BitVec.getLsbD_and, hoff ⟨i, hi⟩]
        by_cases h12 : i < 12
        · rw [CPUI386.walk_frame_low hw h12]
          simp [h12]
        · simp [h12]
      · cases h
  · injection h with h
    rw [h]

theorem page_pageMask (a : Word) : page 12 (a &&& pageMask) = page 12 a := by
  have h : (a &&& pageMask) >>> 12 = a >>> 12 := by
    apply BitVec.eq_of_getLsbD_eq
    intro i hi
    rw [BitVec.getLsbD_ushiftRight, BitVec.getLsbD_ushiftRight, BitVec.getLsbD_and]
    by_cases h32 : 12 + i < 32
    · have hm : ∀ j : Fin 20, pageMask.getLsbD (12 + j.val) = true := by decide
      rw [hm ⟨i, by omega⟩, Bool.and_true]
    · rw [BitVec.getLsbD_of_ge a _ (by omega), Bool.false_and]
  rw [page_lshr, page_lshr, h]

theorem offset_pageMask (a : Word) : offset 12 (a &&& pageMask) = 0 := by
  rw [offset_and, BitVec.and_assoc]
  have h : pageMask &&& 0xfff = 0 := by decide
  rw [h]
  exact congrArg BitVec.toNat (BitVec.and_zero : a &&& 0#32 = 0#32)

theorem pageKept_keepPage (hfit : s.Fitted) (h : s.codeAccess laddr = .granted raw)
    (hdev : s.iomemReader .b8 (mapBiosAlias raw) = none)
    (hkeep : s.keepsPage (mapBiosAlias raw) = true) :
    (s.keepPage laddr (mapBiosAlias raw)).PageKept := by
  have hraw := offset_of_granted h
  have hlp : page 12 (laddr &&& pageMask) = page 12 laddr := page_pageMask laddr
  have hxl : ∀ l, mapBiosAlias raw ^^^ laddr ^^^ l = mapBiosAlias raw ^^^ (laddr ^^^ l) :=
    fun l => BitVec.xor_assoc ..
  have hpage : ∀ l, page 12 l = page 12 laddr →
      page 12 (mapBiosAlias raw ^^^ (laddr ^^^ l)) = page 12 (mapBiosAlias raw) := by
    intro l hl
    rw [page_xor, page_xor_self hl, Nat.xor_zero]
  refine ⟨offset_pageMask laddr, ?_, ?_, ?_, ?_⟩
  · change offset 12 (mapBiosAlias raw ^^^ laddr) = 0
    rw [offset_xor, offset_mapBiosAlias, hraw, Nat.xor_self]
  · intro l hl
    change page 12 l = page 12 (laddr &&& pageMask) at hl
    rw [hlp] at hl
    refine ⟨raw ^^^ (laddr ^^^ l), mapsCode_of_granted (codeAccess_samePage h hl), ?_⟩
    rw [mapBiosAlias_xor (page_xor_self hl)]
    exact (hxl l).symm
  · intro l hl
    change page 12 l = page 12 (laddr &&& pageMask) at hl
    rw [hlp] at hl
    change (mapBiosAlias raw ^^^ laddr ^^^ l).toNat < s.memSize
    rw [hxl]
    have hlt : mapBiosAlias raw < BitVec.ofNat 32 s.memSize - 4096 := by
      unfold CPUI386.keepsPage at hkeep
      rw [Bool.and_eq_true, decide_eq_true_iff] at hkeep
      exact hkeep.1
    have hsub : (BitVec.ofNat 32 s.memSize - 4096).toNat = s.memSize - 4096 := by
      have h1 := hfit.page
      have h2 := hfit.space
      have h4 : (4096 : Word).toNat = 4096 := rfl
      rw [BitVec.toNat_sub, BitVec.toNat_ofNat, h4]
      omega
    rw [BitVec.lt_def, hsub] at hlt
    have h1 := toNat_eq (k := 12) (mapBiosAlias raw ^^^ (laddr ^^^ l))
    have h2 := toNat_eq (k := 12) (mapBiosAlias raw)
    have h3 := offset_lt (k := 12) (mapBiosAlias raw ^^^ (laddr ^^^ l))
    rw [hpage l hl] at h1
    omega
  · intro l w hl
    change page 12 l = page 12 (laddr &&& pageMask) at hl
    rw [hlp] at hl
    change s.iomemReader w (mapBiosAlias raw ^^^ laddr ^^^ l) = none
    rw [hxl]
    unfold CPUI386.iomemReader at hdev ⊢
    rw [inIomem_page (hpage l hl)]
    split
    · rename_i hio
      rw [if_pos hio] at hdev
      exact hfit.cb hdev w
    · rfl

end Granting

section Slow

variable {s : CPUI386}

theorem not_straddles_b8 (laddr : Word) : ¬ Straddles laddr Width.b8.bytes := by
  have h := offset_lt (k := 12) laddr
  rw [straddles_iff _ (by decide)]
  change ¬ 4096 < offset 12 laddr + 1
  omega

structure Faulted (s : CPUI386) (w : Width) (s' : CPUI386) : Prop where
  asFetch : AsFetch s w (.fault s')
  cached : CachedFault s s'
  coherent : Coherent linearPages s'

theorem nullSegment_faulted (hc : Coherent linearPages s) (hn : NullSegment s .cs) (w : Width) :
    Faulted s w { s with excno := exGP, excerr := 0 } where
  asFetch := Or.inl ⟨hn, rfl, rfl⟩
  cached := ⟨(Marks.refl s).congr rfl rfl, rfl⟩
  coherent := ⟨hc.tlb, hc.read, hc.write⟩

theorem codeAccess_paging (hpg : hasBit s.cr0 cr0PG = true) (l : Word) :
    s.codeAccess l = s.access l (decide (0 < s.cpl)) false := if_pos hpg

theorem refused_faulted {s' : CPUI386} (hpg : hasBit s.cr0 cr0PG = true) {w : Width}
    (h : Refused linearPages s 1 (s.codeAddr >>> 12) s.codeAddr s.cpl s') : Faulted s w s' where
  asFetch := by
    obtain ⟨hacc, hcr2, hno⟩ := h.asWalk (Or.inl rfl)
    refine Or.inr ⟨?_, hno⟩
    have hcode : s.codeAccess s.codeAddr = .denied s'.excerr := (codeAccess_paging hpg _).trans hacc
    rw [CPUI386.fetchAt, hcode, hcr2]
  cached := h.cached
  coherent := h.coherent

theorem lost_asFetch (hpg : hasBit s.cr0 cr0PG = true) {w : Width} {why : Stop}
    (h : Lost linearPages s (s.codeAddr >>> 12) why) : AsFetch s w (.stop why) := by
  obtain ⟨rfl, hout⟩ := h (lshr_twelve_lt _)
  exact ⟨rfl, fun hin => hout (hin.first hpg)⟩

theorem translate8r_fetch (hc : Coherent linearPages s) :
    wp (translate8r .cs s.nextIp)
      (fun res t => ¬ NullSegment s .cs ∧ Cached s t ∧ Coherent linearPages t ∧
        s.codeAccess s.codeAddr = .granted res.addr1)
      (Faulted s .b8) (fun why => AsFetch s .b8 (.stop why)) s := by
  unfold translate8r
  rw [wp_bind, wp_get, wp_bind]
  refine wp_segcheck (fun hn => nullSegment_faulted hc hn .b8) ?_
  intro hnull
  refine wp_ite ?_ ?_
  · intro hpg
    have hne := ne_noPage_of_laddr s.codeAddr
    rw [wp_bind]
    refine wp_mono (tlbEntry_spec hc) ?_ (fun _ h => refused_faulted hpg h)
      (fun _ h => lost_asFetch hpg h)
    rintro e t ⟨hct, hco, rfl, he⟩
    rw [wp_bind]
    refine wp_onlyIf ?_ ?_
    · intro hd
      rw [wp_bind, wp_modify]
      apply wp_pageFault
      intro t' ht' hf
      exact refused_faulted hpg
        (refused_of_denies hct hco he hne hd (hct.freeTlb _) (hco.freeTlb _) ht' hf)
    · intro hd
      rw [wp_pure]
      have hret : Returned linearPages s 1 (s.codeAddr >>> 12) s.codeAddr s.cpl _ t :=
        ⟨hct, hco, granted_of_entry hct hco he hne hd (fun h => absurd h (by decide))⟩
      exact ⟨hnull, hct, hco, (codeAccess_paging hpg _).trans (hret.asWalk (Or.inl rfl)).1⟩
  · intro hpg
    rw [wp_pure]
    exact ⟨hnull, Cached.refl s, hc, if_neg hpg⟩

structure Peeked (s s' : CPUI386) : Prop where
  inv : FetchInv s'
  fetching : Fetching s s'
  nextIp : s'.nextIp = s.nextIp
  paddr : s'.ifetch.paddr = s.ifetch.paddr

theorem Cached.peeked {t : CPUI386} (hi : FetchInv s) (h : Cached s t)
    (hc : Coherent linearPages t) : Peeked s t where
  inv := hi.fetching h.fetching hc (by rw [h.rest]) (by rw [h.rest])
  fetching := h.fetching
  nextIp := by rw [h.rest]
  paddr := by rw [h.rest]

theorem Cached.markedView {t : CPUI386} (h : Cached s t) : MarkedView s t where
  marks := h.marks
  io := by rw [h.rest]
  memSize := h.memSize
  cb := by rw [h.rest]

theorem fetchAt_b8 {raw : Word} (h : s.codeAccess s.codeAddr = .granted raw) :
    s.fetchAt .b8 = .granted ⟨raw, none⟩ := by
  rw [CPUI386.fetchAt, h]
  exact if_neg fun hst => not_straddles_b8 _ hst.2

theorem CPUI386.codeAccess_cached {t : CPUI386} (h : Cached s t) (l : Word) :
    t.codeAccess l = s.codeAccess l :=
  codeAccess_congr h.samePages h.cr0 (by rw [h.rest]) l

theorem peek8Slow_spec (hi : FetchInv s) :
    wp peek8Slow
      (fun v s' => AsFetch s .b8 (.ok (v.setWidth 32) s') ∧ Peeked s s')
      (Faulted s .b8) (fun why => AsFetch s .b8 (.stop why)) s := by
  unfold peek8Slow
  rw [wp_bind, wp_get, wp_bind, wp_get, wp_bind]
  refine wp_mono (translate8r_fetch hi.coherent) ?_ (fun _ h => h) (fun _ h => h)
  rintro res t ⟨hnull, hct, hco, hacc⟩
  have hp := hct.peeked hi hco
  -- what a load of the translated address gives is what is delivered
  have hdeliver : ∀ (v : Byte) (u u' : CPUI386), load8 ⟨res.addr1, none⟩ t = .ok v u →
      AsFetch s .b8 (.ok (v.setWidth 32) u') := by
    intro v u u' hl
    exact ⟨hnull, ⟨res.addr1, none⟩, fetchAt_b8 hacc, t, u, hct.markedView, bind_run_ok hl⟩
  rw [wp_bind, wp_get]
  cases hr : t.iomemReader .b8 (mapBiosAlias res.addr1) with
  | some read =>
    change wp (iomemRead .b8 read (mapBiosAlias res.addr1) >>= fun v => pure (v.setWidth 8))
      _ _ _ t
    unfold iomemRead
    rw [wp_bind, wp_bind, wp_get, wp_bind, wp_modify, wp_pure, wp_pure]
    refine ⟨hdeliver _ { t with io := t.io ++ [.read .b8 (mapBiosAlias res.addr1)] } _ ?_, ?_⟩
    · unfold load8
      rw [get_bind_run, hr]
      rfl
    · have hf : Fetching s { t with io := t.io ++ [.read .b8 (mapBiosAlias res.addr1)] } := by
        refine ⟨hct.marks.congr rfl rfl, ?_⟩
        rw [hct.rest]
      refine ⟨hi.fetching hf ⟨hco.tlb, hco.read, hco.write⟩ ?_ ?_, hf, hp.nextIp, hp.paddr⟩
      · rw [hct.rest]
      · rw [hct.rest]
  | none =>
    refine wp_ite ?_ ?_
    · intro hout
      rw [wp_pure]
      refine ⟨hdeliver 0 t t ?_, hp⟩
      unfold load8
      rw [get_bind_run, hr]
      simp only [if_pos hout]
      rfl
    · intro hin
      have hin' := Decidable.not_not.mp hin
      have hval : ∀ u, AsFetch s .b8 (.ok ((t.byteAt (mapBiosAlias res.addr1)).setWidth 32) u) := by
        intro u
        refine hdeliver _ t u ?_
        unfold load8
        rw [get_bind_run, hr]
        simp only [if_neg hin]
        exact pload8_run_inMem hin'
      rw [wp_bind]
      refine wp_pload8 ?_ (fun hn => absurd hin' hn)
      intro _
      rw [wp_bind]
      refine wp_onlyIf ?_ ?_
      · intro hkeep
        rw [wp_modify, wp_pure]
        refine ⟨hval _, ?_⟩
        have hf : Fetching s (t.keepPage s.codeAddr (mapBiosAlias res.addr1)) := by
          refine ⟨hct.marks.congr rfl rfl, ?_⟩
          rw [CPUI386.keepPage, hct.rest]
        refine ⟨⟨⟨hco.tlb, hco.read, hco.write⟩, hp.inv.fitted.congr rfl rfl, ?_⟩, hf,
          hp.nextIp, hp.paddr⟩
        intro _
        apply pageKept_keepPage hp.inv.fitted ?_ hr hkeep
        rw [CPUI386.codeAccess_cached hct]
        exact hacc
      · intro _
        rw [wp_pure]
        exact ⟨hval t, hp⟩

theorem nextPage_shift {laddr : Word} (h : page 12 laddr ≠ 0xfffff) :
    (nextPage laddr <<< 12) >>> 12 = nextPage laddr := by
  have hlt := page_lt (k := 12) (by decide) laddr
  have hn := nextPage_toNat laddr
  rw [← page_lshr] at hn
  change page 12 laddr < 2 ^ 20 at hlt
  apply BitVec.eq_of_toNat_eq
  rw [BitVec.toNat_ushiftRight, BitVec.toNat_shiftLeft, Nat.shiftLeft_eq, Nat.shiftRight_eq_div_pow,
    hn, Nat.mod_eq_of_lt (by omega)]
  exact Nat.mul_div_cancel _ (by decide)

theorem offset_xaddr_granted {raw : Word} {w : Width} {a2 : Option Word}
    (h : s.codeAccess s.codeAddr = .granted raw)
    (hst : a2.isSome = true → Straddles s.codeAddr w.bytes) : OptAddr.Fits ⟨raw, a2⟩ w := by
  intro h2
  have hb := w.bytes_le
  have hst' := hst h2
  rw [straddles_iff _ (by omega)] at hst'
  have ho := offset_of_granted h
  rw [offset_and] at ho
  simp only []
  omega

theorem nextPage_lt {laddr : Word} (h : page 12 laddr ≠ 0xfffff) :
    (nextPage laddr).toNat < linearPages := by
  have hlt := page_lt (k := 12) (by decide) laddr
  change page 12 laddr < 2 ^ 20 at hlt
  rw [nextPage_toNat, ← page_lshr]
  unfold linearPages
  omega

theorem translateCode_spec {t : CPUI386} {lpgno laddr : Word} {cpl : Nat}
    (hc : Coherent linearPages t) (h : laddr >>> 12 = lpgno) :
    wp (translateLpgnoFast 1 lpgno laddr cpl)
      (fun a u => Cached t u ∧ Coherent linearPages u ∧
        t.access laddr (decide (0 < cpl)) false = .granted a)
      (fun u => CachedFault t u ∧ Coherent linearPages u ∧
        t.access laddr (decide (0 < cpl)) false = .denied u.excerr ∧
        u.cr2 = laddr ∧ u.excno = exPF)
      (fun why => why = .wild ∧ ¬ t.WalkInMem lpgno) t := by
  subst h
  have hk : IsRwm 1 := Or.inl rfl
  refine wp_mono (translateLpgnoFast_spec hc (ne_noPage_of_laddr laddr) hk) ?_ ?_ ?_
  · intro a u hret
    exact ⟨hret.cached, hret.coherent, (hret.asWalk hk).1⟩
  · intro u href
    exact ⟨href.cached, href.coherent, href.asWalk hk⟩
  · intro why hlost
    exact hlost (lshr_twelve_lt laddr)

theorem fetchAt_one {w : Width} {a1 : Word} (hacc : s.codeAccess s.codeAddr = .granted a1)
    (h : ¬ (hasBit s.cr0 cr0PG = true ∧ Straddles s.codeAddr w.bytes)) :
    s.fetchAt w = .granted ⟨a1, none⟩ := by
  rw [CPUI386.fetchAt, hacc]
  exact if_neg h

theorem fetchAt_two {w : Width} {a1 : Word} (hacc : s.codeAccess s.codeAddr = .granted a1)
    (h : hasBit s.cr0 cr0PG = true ∧ Straddles s.codeAddr w.bytes) :
    s.fetchAt w = match s.codeAccess (nextPage s.codeAddr <<< 12) with
      | .denied excerr => .denied (nextPage s.codeAddr <<< 12) excerr
      | .granted addr2 => .granted ⟨a1, some addr2⟩ := by
  rw [CPUI386.fetchAt, hacc]
  exact if_pos h

theorem translate_fetch {w : Width} (hc : Coherent linearPages s)
    (hwrap : Straddles s.codeAddr w.bytes → page 12 s.codeAddr ≠ 0xfffff) :
    wp (translate 1 .cs s.nextIp w.bytes s.cpl)
      (fun res t => ¬ NullSegment s .cs ∧ Cached s t ∧ Coherent linearPages t ∧
        s.fetchAt w = .granted res ∧ res.Fits w)
      (Faulted s w) (fun why => AsFetch s w (.stop why)) s := by
  have hk : IsRwm 1 := Or.inl rfl
  unfold translate translateLaddr
  rw [wp_bind, wp_get, wp_bind]
  refine wp_segcheck (fun hn => nullSegment_faulted hc hn w) ?_
  intro hnull
  rw [wp_bind, wp_get]
  refine wp_ite ?_ ?_
  · intro hpg
    rw [wp_bind]
    refine wp_mono (translateLpgnoFast_spec hc (ne_noPage_of_laddr _) hk) ?_
      (fun _ h => refused_faulted hpg h) (fun _ h => lost_asFetch hpg h)
    intro a1 t hret
    have hacc : s.codeAccess s.codeAddr = .granted a1 :=
      (codeAccess_paging hpg _).trans (hret.asWalk hk).1
    have hct := hret.cached
    refine wp_ite ?_ ?_
    · intro hst
      have hst' : Straddles s.codeAddr w.bytes := hst
      have htwo := fetchAt_two hacc ⟨hpg, hst'⟩
      rw [codeAccess_paging hpg, ← access_congr hct.samePages] at htwo
      rw [wp_bind]
      have hshift : (nextPage s.codeAddr <<< 12) >>> 12 = nextPage s.codeAddr :=
        nextPage_shift (hwrap hst')
      generalize hnext : nextPage s.codeAddr <<< 12 = next at htwo hshift
      change wp (translateLpgnoFast 1 (nextPage s.codeAddr) (nextPage s.codeAddr <<< 12) s.cpl)
        _ _ _ t
      rw [hnext]
      refine wp_mono (translateCode_spec hret.coherent hshift) ?_ ?_ ?_
      · rintro a2 u ⟨hcu, hcou, ha2⟩
        rw [ha2] at htwo
        rw [wp_pure]
        exact ⟨hnull, hct.trans hcu, hcou, htwo, offset_xaddr_granted hacc fun _ => hst'⟩
      · rintro u ⟨hcu, hcou, hden, hcr2, hno⟩
        rw [hden] at htwo
        refine ⟨Or.inr ⟨?_, hno⟩, hct.trans_fault hcu, hcou⟩
        rw [htwo, hcr2]
      · rintro why ⟨rfl, hout⟩
        refine ⟨rfl, ?_⟩
        intro hin
        apply hout
        rw [hct.samePages.inMem _ (nextPage_lt (hwrap hst'))]
        exact hin.next hpg ⟨a1, hacc⟩ hst'
    · intro hst
      have hst' : ¬ Straddles s.codeAddr w.bytes := hst
      rw [wp_pure]
      exact ⟨hnull, hct, hret.coherent, fetchAt_one hacc fun h => hst' h.2,
        offset_xaddr_granted hacc fun h => nomatch h⟩
  · intro hpg
    have hacc : s.codeAccess s.codeAddr = .granted s.codeAddr := if_neg hpg
    rw [wp_pure]
    exact ⟨hnull, Cached.refl s, hc, fetchAt_one hacc fun h => hpg h.1,
      offset_xaddr_granted hacc fun h => nomatch h⟩

end Slow

section Loads

variable {t : CPUI386} {res : OptAddr}

/-- A load changes the devices' log only, never faults, and stops outside memory only. -/
def LoadEnds {α : Type} (x : M α) (t : CPUI386) : Prop :=
  wp x (fun _ u => u = { t with io := u.io }) (fun _ => False) (fun why => why = .wild) t

theorem loadEnds_pure {α : Type} (v : α) : LoadEnds (pure v) t := rfl

theorem loadEnds_pload8_bind {α : Type} {a : Word} {f : Byte → M α}
    (h : ∀ v, LoadEnds (f v) t) : LoadEnds (pload8 a >>= f) t := by
  unfold LoadEnds
  rw [wp_bind]
  exact wp_pload8 (fun _ => h _) (fun _ => rfl)

theorem loadEnds_pload16 (a : Word) : LoadEnds (pload16 a) t := by
  unfold LoadEnds pload16
  rw [wp_bind, wp_get]
  exact wp_ite (fun _ => rfl) (fun _ => rfl)

theorem loadEnds_pload16_bind {α : Type} {a : Word} {f : BitVec 16 → M α}
    (h : ∀ v, LoadEnds (f v) t) : LoadEnds (pload16 a >>= f) t := by
  unfold LoadEnds pload16
  rw [wp_bind, wp_bind, wp_get]
  exact wp_ite (fun _ => h _) (fun _ => rfl)

theorem loadEnds_pload32 (a : Word) : LoadEnds (pload32 a) t :=
  wp_pload32 (fun _ => rfl) (fun _ => rfl)

theorem loadEnds_iomemRead {w : Width} {read : List IoEvent → Word → Word} (a : Word) :
    LoadEnds (iomemRead w read a) t := rfl

theorem loadEnds_iomemRead_bind {α : Type} {w : Width} {read : List IoEvent → Word → Word}
    {a : Word} {f : Word → α} : LoadEnds (iomemRead w read a >>= fun v => pure (f v)) t := rfl

theorem loadEnds_load {α : Type} {w : Width} {a : Word}
    {dev : (List IoEvent → Word → Word) → M α} {zero : α} {x : M α}
    (hdev : ∀ read, LoadEnds (dev read) t) (hx : LoadEnds x t) :
    LoadEnds (get >>= fun s => match s.iomemReader w a with
      | some read => dev read
      | none => if ¬ s.inMem a then pure zero else x) t := by
  unfold LoadEnds
  rw [wp_bind, wp_get]
  cases t.iomemReader w a with
  | some read => exact hdev read
  | none => exact wp_ite (fun _ => rfl) (fun _ => hx)

theorem loadEnds_load16 : LoadEnds (load16 res) t := by
  refine loadEnds_load (fun _ => loadEnds_iomemRead_bind) ?_
  cases res.addr2 with
  | none => exact loadEnds_pload16 _
  | some addr2 =>
    exact loadEnds_pload8_bind fun _ => loadEnds_pload8_bind fun _ => loadEnds_pure _

theorem loadEnds_load32 (hf : res.Fits .b32) : LoadEnds (load32 res) t := by
  refine loadEnds_load (fun _ => loadEnds_iomemRead _) ?_
  cases h2 : res.addr2 with
  | none => exact loadEnds_pload32 _
  | some addr2 =>
    obtain ⟨n, hn, hn', hlow⟩ := hf.mapped.split (by rw [mapped_addr2, h2]; rfl)
    have hd := low_digit hn hn' hlow
    rw [mapped_addr1] at hd
    obtain rfl | rfl | rfl : n = 1 ∨ n = 2 ∨ n = 3 := by
      change n < 4 at hn'
      omega
    · simp only [hd]
      rw [if_pos (by decide)]
      exact loadEnds_pload8_bind fun _ => loadEnds_pload16_bind fun _ =>
        loadEnds_pload8_bind fun _ => loadEnds_pure _
    · simp only [hd]
      rw [if_neg (by decide), if_pos (by decide)]
      exact loadEnds_pload16_bind fun _ => loadEnds_pload16_bind fun _ => loadEnds_pure _
    · simp only [hd]
      rw [if_neg (by decide), if_neg (by decide), if_pos (by decide)]
      exact loadEnds_pload8_bind fun _ => loadEnds_pload16_bind fun _ =>
        loadEnds_pload8_bind fun _ => loadEnds_pure _

theorem load_spec {α : Type} {x : M α} {c : Prop} (he : LoadEnds x t) (hs : Safe x t ↔ c) :
    wp x (fun v u => x t = .ok v u ∧ u = { t with io := u.io }) (fun _ => False)
      (fun why => why = .wild ∧ ¬ c) t := by
  unfold LoadEnds wp at he
  unfold wp
  cases hx : x t with
  | ok v u =>
    rw [hx] at he
    exact ⟨rfl, he⟩
  | fault u =>
    rw [hx] at he
    exact he
  | stop why =>
    rw [hx] at he
    refine ⟨he, ?_⟩
    intro hc
    apply hs.mpr hc
    rw [hx, he]

end Loads

end Winspire.Cpu
