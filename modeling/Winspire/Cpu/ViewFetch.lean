import Winspire.Cpu.Views

/-!
# Fetches in a view

Where the bytes of the code lie in memory outside the tables, every way to fetch them returns the
bytes the view shows, whether the page is kept, the running pointer is on or the tables are asked.
-/

namespace Winspire.Cpu

open Faulting Pages Marking

set_option autoImplicit false

/-- Inside an instruction, as far as it has been fetched. -/
def CPUI386.Decodes (t : CPUI386) : Prop := t.ifetch.paddr ≠ 0 → t.Decoding

section ViewFetch

variable {s t u : CPUI386} {P : Word → Bool → Prop} {O : Nat → Option Byte} {q : Word}

theorem CPUI386.Placed.codeAccess {a : Word} (h : t.Placed false a q) :
    t.codeAccess a = .granted q := by
  unfold CPUI386.codeAccess
  cases hpg : hasBit t.cr0 cr0PG with
  | true =>
    obtain ⟨p, hmaps, hallow, hx⟩ := h.paged hpg
    have hq : q = p.frame ^^^ ((a >>> 12) <<< 12) ^^^ a := by
      rw [← hx, xor_cancel]
    rw [if_pos rfl, CPUI386.access, CPUI386.accessPage, hmaps.1]
    simp only [hallow, if_true]
    rw [hq, frame_xor fun i hi => CPUI386.walk_frame_low hmaps.1 hi]
  | false => rw [if_neg (by decide), h.flat hpg]

theorem View.kept (hv : View s P O t) (hk : t.PageKept)
    (hp : page 12 t.codeAddr = page 12 t.ifetch.laddr) (hq : s.Lies false t.codeAddr q) :
    t.ifetch.xaddr ^^^ t.codeAddr = q := by
  obtain ⟨raw, hraw, hmap⟩ := hk.maps t.codeAddr hp
  have hcode := mapsCode_of_granted (hv.placed.mpr hq.placed).codeAccess
  rw [hraw] at hcode
  cases hcode
  rw [← hmap, mapBiosAlias_ram hq.ram.1]

/-- The registers that a view leaves open, and the pointers of the fetch. -/
def CPUI386.SameMachine (t u : CPUI386) : Prop :=
  u = { t with
    flags := u.flags, cc := u.cc, gpr := u.gpr, ip := u.ip, nextIp := u.nextIp, ifetch := u.ifetch }

theorem View.machine (hv : View s P O t) (hu : t.SameMachine u)
    (hkept : u.ifetch.laddr ≠ noPage → u.PageKept)
    (hseen : hasBit t.cr0 cr0PG = true → u.ifetch.laddr ≠ noPage →
      t.Seen (u.ifetch.laddr >>> 12)) : View s P O u := by
  unfold CPUI386.SameMachine at hu
  have hmem : u.mem = t.mem := by rw [hu]
  have hcr3 : u.cr3 = t.cr3 := by rw [hu]
  have hcr0 : u.cr0 = t.cr0 := by rw [hu]
  have htlb : u.tlb = t.tlb := by rw [hu]
  have hread : u.dtlbRead = t.dtlbRead := by rw [hu]
  have hwrite : u.dtlbWrite = t.dtlbWrite := by rw [hu]
  have hsize : u.memSize = t.memSize := by rw [hu]
  have hm : Marks t u := (Marks.refl t).congr hmem hcr3
  have hc := hv.caches
  refine ⟨?_, ⟨⟨?_, ?_, hkept⟩, ?_, ?_, ?_, ?_⟩, ?_, ?_, hv.apart⟩
  · rw [hu, hv.frame]
  · exact hc.fetch.coherent.congr (hm.samePages hcr0 hsize) (fun i => Or.inl (by rw [htlb]))
      (fun i => Or.inl (by rw [hread])) (fun i => Or.inl (by rw [hwrite]))
  · exact hc.fetch.fitted.congr hsize (by rw [hu])
  · rw [nullSegment_congr hcr0 (by rw [hu])]
    exact hc.cs
  · exact hc.seen.congr (fun _ _ h => h.marks hm) (fun i => Or.inl (by rw [htlb]))
      (fun i => Or.inl (by rw [hread])) (fun i => Or.inl (by rw [hwrite]))
  · intro hpg hn
    rw [hcr0] at hpg
    exact (hseen hpg hn).marks hm
  · intro hoff
    rw [hcr0] at hoff
    have h := hc.off hoff
    refine ⟨?_, ?_, ?_⟩
    · rw [htlb]
      exact h.tlb
    · rw [hread]
      exact h.read
    · rw [hwrite]
      exact h.write
  · intro hpg
    exact (hv.tables hpg).marks hm
  · rw [hmem]
    exact hv.mem

theorem View.regs (hv : View s P O t) (hu : t.SameMachine u)
    (hl : u.ifetch.laddr = t.ifetch.laddr) (hx : u.ifetch.xaddr = t.ifetch.xaddr) :
    View s P O u := by
  refine hv.machine hu ?_ ?_
  · unfold CPUI386.SameMachine at hu
    have hmem : u.mem = t.mem := by rw [hu]
    have hcr0 : u.cr0 = t.cr0 := by rw [hu]
    have hsize : u.memSize = t.memSize := by rw [hu]
    have hm : Marks t u := (Marks.refl t).congr hmem (by rw [hu])
    intro hn
    rw [hl] at hn
    refine (hv.caches.fetch.kept hn).congr hl hx hsize (by rw [hu]) fun a _ => ?_
    exact mapsCode_congr (hm.samePages hcr0 hsize) (by rw [hcr0]) a
  · intro hpg hn
    rw [hl] at hn ⊢
    exact hv.caches.kept hpg hn

theorem CPUI386.Has.machine {l : Word} {write : Bool} (h : t.Has l write) (hu : t.SameMachine u) :
    u.Has l write := by
  unfold CPUI386.SameMachine at hu
  exact h.marks ((Marks.refl t).congr (by rw [hu]) (by rw [hu])) (by rw [hu])

/-- The running pointer set to `p`, and EIP moved by `n`. -/
def CPUI386.pointTo (t : CPUI386) (p n : Word) : CPUI386 :=
  { t with ifetch := { t.ifetch with paddr := p }, nextIp := t.nextIp + n }

theorem View.pointer (hv : View s P O t) (p n : Word) : Glance s P O n t (t.pointTo p n) where
  view := hv.regs rfl rfl rfl
  flags := rfl
  gpr := rfl
  ip := rfl
  nextIp := rfl
  later _ _ h := h.machine rfl
  top h := h

theorem zero_add_word (x : Word) : (0 : Word) + x = x := BitVec.zero_add x

structure View.Next (s : CPUI386) (P : Word → Bool → Prop) (t : CPUI386) (q : Word) : Prop where
  lies : s.Lies false t.codeAddr q
  page : P (t.codeAddr >>> 12) false
  top : t.ifetch.laddr = noPage → Pages.page 12 t.codeAddr ≠ lastPage

theorem View.cs (hv : View s P O t) : ¬ NullSegment s .cs := by
  rw [← hv.nullSegment]
  exact hv.caches.cs

theorem View.codeAddr (hv : View s P O t) : t.codeAddr = (s.seg .cs).base + t.nextIp := by
  rw [CPUI386.codeAddr, hv.seg]

theorem View.translate8r (hv : View s P O t) (hq : View.Next s P t q) :
    ∃ u, Cpu.translate8r .cs t.nextIp t = .ok ⟨q, none⟩ u ∧ Look s P O t u ∧
      u.Has (t.codeAddr >>> 12) false := by
  have hpl := hq.lies.placed
  obtain ⟨res, u, hrun, hlook, hhas, -, hres, h2⟩ :=
    wp_returns (hv.code hv.codeAddr hq.page) (fun _ h => h.2.elim hv.cs fun h => h q hpl)
      (fun _ h => h q hpl)
  refine ⟨u, ?_, hlook, hhas⟩
  rw [hrun]
  obtain ⟨addr1, addr2⟩ := res
  cases h2
  have hat : addr1 = q := hres.unique hpl
  rw [hat]

theorem View.keepPage (hv : View s P O t) (hq : View.Next s P t q)
    (hhas : t.Has (t.codeAddr >>> 12) false) (hkeep : t.keepsPage q = true) :
    Glance s P O 0 t (t.keepPage t.codeAddr q) where
  view := by
    have hmap := mapBiosAlias_ram hq.lies.ram.1
    refine hv.machine rfl ?_ ?_
    · intro _
      have hcode := (hv.placed.mpr hq.lies.placed).codeAccess
      have hdev : t.iomemReader .b8 (mapBiosAlias q) = none := by
        rw [hmap]
        exact if_neg (by rw [hq.lies.ram.1]; decide)
      have h := pageKept_keepPage hv.caches.fetch.fitted hcode hdev (by rw [hmap]; exact hkeep)
      rw [hmap] at h
      exact h
    · intro hpg _
      have hl : (t.keepPage t.codeAddr q).ifetch.laddr >>> 12 = t.codeAddr >>> 12 :=
        lshr_eq_of_page (page_pageMask _)
      rw [hl]
      exact (hhas hpg (lshr_twelve_lt _)).1
  flags := rfl
  gpr := rfl
  ip := rfl
  nextIp := (BitVec.add_zero _).symm
  later _ _ h := h.machine rfl
  top h := by
    have hlow := offset_pageMask t.codeAddr
    change t.codeAddr &&& pageMask = noPage at h
    rw [h] at hlow
    exact absurd hlow (by decide)

theorem View.kept_has (hv : View s P O t) (hk : t.PageKept)
    (hp : page 12 t.codeAddr = page 12 t.ifetch.laddr) : t.Has (t.codeAddr >>> 12) false := by
  intro hpg _
  have hne : t.ifetch.laddr ≠ noPage := by
    intro he
    have hlow := hk.low
    rw [he] at hlow
    exact absurd hlow (by decide)
  rw [lshr_eq_of_page hp]
  exact ⟨hv.caches.kept hpg hne, fun h => nomatch h⟩

theorem View.peek8 (hv : View s P O t) (hq : View.Next s P t q) :
    ∃ u, Cpu.peek8 t = .ok (s.shows O q) u ∧ Glance s P O 0 t u ∧
      u.Has (t.codeAddr >>> 12) false ∧ u.ifetch.paddr = t.ifetch.paddr := by
  have hmap := mapBiosAlias_ram hq.lies.ram.1
  by_cases hnear : t.codeAddr ^^^ t.ifetch.laddr < 4096
  · obtain ⟨hk, hp, -⟩ := kept_of_near hv.caches.fetch hq.top (n := 4096) (Nat.le_refl _) hnear
    have hat := hv.kept hk hp hq.lies
    refine ⟨t, ?_, Glance.refl hv, hv.kept_has hk hp, rfl⟩
    unfold Cpu.peek8
    rw [get_bind_run, if_pos hnear, hat, pload8_run_inMem (hv.ram hq.lies.ram).2]
    exact congrArg (fun b => Result.ok b t) (hv.byte hq.lies.apart)
  · obtain ⟨u, hrun, hlook, hhas⟩ := hv.translate8r hq
    have hgl := hlook.toGlance
    have hram := hgl.view.ram hq.lies.ram
    have hdev : u.iomemReader .b8 q = none := if_neg (by rw [hram.1]; decide)
    have hval : u.byteAt q = s.shows O q := hgl.view.byte hq.lies.apart
    have hcode : u.codeAddr = t.codeAddr := by
      rw [hgl.view.codeAddr, hv.codeAddr, hgl.same_ip]
    have hload : Cpu.peek8 t = (do
        onlyIf (u.keepsPage q = true) (modify fun s => s.keepPage t.codeAddr q)
        return u.byteAt q : M Byte) u := by
      unfold Cpu.peek8
      rw [get_bind_run, if_neg hnear]
      unfold peek8Slow
      rw [get_bind_run, get_bind_run, bind_run_ok hrun]
      simp only []
      rw [hmap, get_bind_run, hdev]
      simp only
      rw [if_neg (not_not_intro hram.2), bind_run_ok (pload8_run_inMem hram.2)]
    rw [hload]
    by_cases hkeep : u.keepsPage q = true
    · have hqu : View.Next s P u q := by
        refine ⟨by rw [hcode]; exact hq.lies, by rw [hcode]; exact hq.page, ?_⟩
        rw [hcode]
        exact fun h => hq.top (hgl.top h)
      have hhas' : u.Has (u.codeAddr >>> 12) false := by
        rw [hcode]
        exact hhas
      have hgl' := hgl.view.keepPage hqu hhas' hkeep
      rw [hcode] at hgl'
      refine ⟨u.keepPage t.codeAddr q, ?_, hgl.trans hgl', hgl'.later _ _ hhas, ?_⟩
      · unfold onlyIf
        rw [if_pos hkeep, modify_bind_run, hval]
        rfl
      · change u.ifetch.paddr = _
        rw [hlook.ifetch]
    · refine ⟨u, ?_, hgl, hhas, by rw [hlook.ifetch]⟩
      unfold onlyIf
      rw [if_neg hkeep, hval]
      rfl

/-- The next byte is soon enough after the start of the instruction for the pointer. -/
def CPUI386.Short (t : CPUI386) (n : Nat) : Prop :=
  t.ifetch.paddr ≠ 0 → (t.nextIp - t.ip).toNat + n ≤ 17

theorem View.peek8a (hv : View s P O t) (hd : t.Decodes) (hq : View.Next s P t q)
    (hlen : t.Short 1) :
    ∃ u, Cpu.peek8a t = .ok (s.shows O q) u ∧ Glance s P O 0 t u ∧ u.Decodes ∧
      u.ifetch.paddr = t.ifetch.paddr ∧ u.Has (t.codeAddr >>> 12) false := by
  by_cases hon : t.ifetch.paddr ≠ 0
  · obtain ⟨hk, ⟨hp, -⟩, hpaddr⟩ := pointer_at hv.caches.fetch (hd hon) (w := .b8) ((hd hon).inPage (hlen hon))
    have hat := hv.kept hk hp hq.lies
    refine ⟨t, ?_, Glance.refl hv, hd, rfl, ?_⟩
    · unfold Cpu.peek8a
      rw [get_bind_run, if_pos hon, hpaddr, hat, pload8_run_inMem (hv.ram hq.lies.ram).2]
      exact congrArg (fun b => Result.ok b t) (hv.byte hq.lies.apart)
    · exact hv.kept_has hk hp
  · obtain ⟨u, hrun, hgl, hhas, hpaddr⟩ := hv.peek8 hq
    refine ⟨u, ?_, hgl, ?_, hpaddr, hhas⟩
    · unfold Cpu.peek8a
      rw [get_bind_run, if_neg hon, hrun]
    · intro hp
      rw [hpaddr] at hp
      exact absurd hp hon

theorem View.fetch8 (hv : View s P O t) (hd : t.Decodes) (hq : View.Next s P t q)
    (hlen : t.Short 1) :
    ∃ u, Cpu.fetch8 t = .ok (s.shows O q) u ∧ Glance s P O 1 t u ∧ u.Decodes ∧
      u.Has (t.codeAddr >>> 12) false := by
  by_cases hon : t.ifetch.paddr ≠ 0
  · obtain ⟨hk, ⟨hp, -⟩, hpaddr⟩ := pointer_at hv.caches.fetch (hd hon) (w := .b8) ((hd hon).inPage (hlen hon))
    have hat := hv.kept hk hp hq.lies
    have hgl : Glance s P O 1 t (t.advance 1) := hv.pointer _ 1
    refine ⟨t.advance 1, ?_, hgl, ?_, hgl.later _ _ (hv.kept_has hk hp)⟩
    · unfold Cpu.fetch8
      have hval : t.byteAt q = s.shows O q := hv.byte hq.lies.apart
      rw [get_bind_run, if_pos hon, hpaddr, hat,
        bind_run_ok (pload8_run_inMem (hv.ram hq.lies.ram).2), modify_bind_run, hval]
      rfl
    · exact (Delivered.advance hv.caches.fetch (hd hon) 1).decoding
  · obtain ⟨u, hrun, hgl, hhas, hpaddr⟩ := hv.peek8 hq
    have hgl' : Glance s P O 1 u (u.skip 1) := hgl.view.pointer u.ifetch.paddr 1
    refine ⟨u.skip 1, ?_, ?_, ?_, hgl'.later _ _ hhas⟩
    · unfold Cpu.fetch8
      rw [get_bind_run, if_neg hon, bind_run_ok hrun]
      rfl
    · have h := hgl.trans hgl'
      rw [zero_add_word] at h
      exact h
    · intro hp
      change u.ifetch.paddr ≠ 0 at hp
      rw [hpaddr] at hp
      exact absurd hp hon

theorem View.fetch8pf (hv : View s P O t) (hip : t.ip = t.nextIp) (hq : View.Next s P t q) :
    ∃ u, Cpu.fetch8pf t = .ok (s.shows O q) u ∧ Glance s P O 1 t u ∧ u.Decodes ∧
      u.Has (t.codeAddr >>> 12) false := by
  have hmeets : FetchOp.fetch8pf.Meets t :=
    ⟨fun he => far_of_page (hq.top he), fun h => absurd h (not_straddles_b8 _),
      fun h => absurd rfl h,
      fun _ => mayFetch_of_granted hv.caches.cs (hv.placed.mpr hq.lies.placed).codeAccess,
      fun h => nomatch h⟩
  have hends := fetch8pf_ends hv.caches.fetch hip hmeets
  have hdec : ∀ b u, Cpu.fetch8pf t = .ok b u → u.Decodes := by
    intro b u hrun
    exact (hends.delivered (Or.inl ⟨b.setWidth 32, bind_run_ok hrun⟩)).decoding
  by_cases hnear : t.codeAddr ^^^ t.ifetch.laddr < 4096 - 16
  · have hlt : (t.codeAddr ^^^ t.ifetch.laddr).toNat < 4096 - 16 := hnear
    obtain ⟨hk, hp, -⟩ := kept_of_near hv.caches.fetch hq.top (n := 4096 - 16) (by decide) hlt
    have hat := hv.kept hk hp hq.lies
    have hgl : Glance s P O 1 t (t.pointTo (q + 1) 1) := hv.pointer (q + 1) 1
    have hrun : Cpu.fetch8pf t = .ok (s.shows O q) (t.pointTo (q + 1) 1) := by
      unfold Cpu.fetch8pf
      have hval : t.byteAt q = s.shows O q := hv.byte hq.lies.apart
      rw [get_bind_run, if_pos hnear, hat, bind_run_ok (pload8_run_inMem (hv.ram hq.lies.ram).2),
        modify_bind_run, modify_bind_run, hval]
      rfl
    exact ⟨_, hrun, hgl, hdec _ _ hrun, hgl.later _ _ (hv.kept_has hk hp)⟩
  · have hgl0 : Glance s P O 0 t (t.pointTo 0 0) := hv.pointer 0 0
    have hcode : (t.pointTo 0 0).codeAddr = t.codeAddr := by
      rw [hgl0.view.codeAddr, hv.codeAddr, hgl0.same_ip]
    have hq0 : View.Next s P (t.pointTo 0 0) q := by
      refine ⟨?_, ?_, ?_⟩
      · rw [hcode]
        exact hq.lies
      · rw [hcode]
        exact hq.page
      · rw [hcode]
        exact hq.top
    obtain ⟨u, hrun, hgl, hhas, -⟩ := hgl0.view.peek8 hq0
    have hgl' : Glance s P O 1 u (u.skip 1) := hgl.view.pointer u.ifetch.paddr 1
    have hrun' : Cpu.fetch8pf t = .ok (s.shows O q) (u.skip 1) := by
      unfold Cpu.fetch8pf
      have hsame : t.pointTo 0 0 = { t with ifetch := { t.ifetch with paddr := 0 } } := by
        have hn : t.nextIp + 0 = t.nextIp := BitVec.add_zero _
        rw [CPUI386.pointTo, hn]
      rw [hsame] at hrun
      rw [get_bind_run, if_neg hnear, modify_bind_run, bind_run_ok hrun]
      rfl
    refine ⟨u.skip 1, hrun', ?_, hdec _ _ hrun', ?_⟩
    · have h := (hgl0.trans hgl).trans hgl'
      rw [zero_add_word, zero_add_word] at h
      exact h
    · rw [hcode] at hhas
      exact hgl'.later _ _ hhas

/-- Where the next four bytes of the code lie. -/
structure View.NextWord (s : CPUI386) (P : Word → Bool → Prop) (t : CPUI386) (q : Nat → Word) :
    Prop where
  lies : ∀ k, k < 4 → s.Lies false (linear t.codeAddr k) (q k)
  pages : Spans P false t.codeAddr .b32
  top : t.ifetch.laddr = noPage → page 12 t.codeAddr ≠ lastPage
  wrap : t.codeAddr.toNat + 4 ≤ 2 ^ 32

theorem pload32_run_inMem {a : Word} (h : ∀ k, k < 4 → t.inMem (a + BitVec.ofNat 32 k)) :
    pload32 a t = .ok (leWord (fun k => t.byteAt (a + BitVec.ofNat 32 k)) .b32) t := by
  have h0 := h 0 (by decide)
  rw [add_zero_word] at h0
  unfold pload32
  rw [get_bind_run, if_pos ⟨h0, h 1 (by decide), h 2 (by decide), h 3 (by decide)⟩]
  refine congrArg (fun v => Result.ok v t) ?_
  rw [leWord, add_zero_word]
  rfl

theorem View.kept_word {q : Nat → Word} (hv : View s P O t) (hk : t.PageKept)
    (hp : page 12 t.codeAddr = page 12 t.ifetch.laddr) (ho : offset 12 t.codeAddr + 4 ≤ 4096)
    (hq : View.NextWord s P t q) :
    pload32 (t.ifetch.xaddr ^^^ t.codeAddr) t =
        .ok (leWord (fun k => s.shows O (q k)) .b32) t ∧
      ∀ k, k < 4 → t.Has (linear t.codeAddr k >>> 12) false := by
  have hroom : ∀ k, k < 4 → k < room t.codeAddr := by
    intro k hk4
    unfold room
    omega
  have hat : ∀ k, k < 4 → (t.ifetch.xaddr ^^^ t.codeAddr) + BitVec.ofNat 32 k = q k := by
    intro k hk4
    have ho4 : offset 12 t.codeAddr + k < 2 ^ 12 := by
      change _ < 4096
      omega
    have hpage : page 12 (linear t.codeAddr k) = page 12 t.ifetch.laddr :=
      (page_add (by decide) ho4).trans hp
    obtain ⟨raw, hraw, hmap⟩ := hk.maps _ hpage
    have hcode := mapsCode_of_granted (hv.placed.mpr (hq.lies k hk4).placed).codeAccess
    rw [hraw] at hcode
    cases hcode
    rw [mapBiosAlias_ram (hq.lies k hk4).ram.1] at hmap
    rw [hmap]
    exact (xor_add (by decide) hk.xlow ho4).symm
  constructor
  · rw [pload32_run_inMem]
    · refine congrArg (fun v => Result.ok v t) (leWord_congr ?_)
      intro k hk4
      rw [hat k hk4]
      exact hv.byte (hq.lies k hk4).apart
    · intro k hk4
      rw [hat k hk4]
      exact (hv.ram (hq.lies k hk4).ram).2
  · intro k hk4
    rw [lshr_linear (hroom k hk4)]
    exact hv.kept_has hk hp

theorem View.fetch32 {q : Nat → Word} (hv : View s P O t) (hd : t.Decodes)
    (hq : View.NextWord s P t q) (hlen : t.Short 4) :
    ∃ u, Cpu.fetch32 t = .ok (leWord (fun k => s.shows O (q k)) .b32) u ∧ Glance s P O 4 t u ∧
      u.Decodes ∧ ∀ k, k < 4 → u.Has (linear t.codeAddr k >>> 12) false := by
  by_cases hon : t.ifetch.paddr ≠ 0
  · obtain ⟨hk, ⟨hp, ho⟩, hpaddr⟩ := pointer_at hv.caches.fetch (hd hon) (w := .b32) ((hd hon).inPage (hlen hon))
    obtain ⟨hload, hhas⟩ := hv.kept_word hk hp ho hq
    have hgl : Glance s P O 4 t (t.advance 4) := hv.pointer _ 4
    refine ⟨t.advance 4, ?_, hgl, ?_, fun k hk4 => hgl.later _ _ (hhas k hk4)⟩
    · unfold Cpu.fetch32
      rw [get_bind_run, if_pos hon, hpaddr, bind_run_ok hload]
      rfl
    · exact (Delivered.advance hv.caches.fetch (hd hon) 4).decoding
  · have hskip : ∀ u : CPUI386, u.ifetch.paddr = t.ifetch.paddr → (u.skip 4).Decodes := by
      intro u hu h
      change u.ifetch.paddr ≠ 0 at h
      rw [hu] at h
      exact absurd h hon
    by_cases hnear : t.codeAddr ^^^ t.ifetch.laddr < 4093
    · have hlt : (t.codeAddr ^^^ t.ifetch.laddr).toNat < 4093 := hnear
      obtain ⟨hk, hp, ho⟩ := kept_of_near hv.caches.fetch hq.top (n := 4093) (by decide) hlt
      obtain ⟨hload, hhas⟩ := hv.kept_word hk hp (by omega) hq
      have hgl : Glance s P O 4 t (t.skip 4) := hv.pointer t.ifetch.paddr 4
      refine ⟨t.skip 4, ?_, hgl, hskip t rfl, fun k hk4 => hgl.later _ _ (hhas k hk4)⟩
      unfold Cpu.fetch32
      rw [get_bind_run, if_neg hon, if_pos hnear, bind_run_ok hload]
      rfl
    · obtain ⟨res, u, hrun, hlook, -, hpl, hhas⟩ :=
        wp_returns (@View.translate s t P O 1 .cs t.nextIp t.codeAddr .b32 hv (Or.inl rfl) hv.codeAddr (fun _ _ => hq.wrap)
          fun _ => hq.pages.covers)
          (fun _ h => h.2.elim hv.cs fun ⟨k, hk, hno⟩ => hno _ (hq.lies k hk).placed)
          (fun _ ⟨k, hk, hno⟩ => hno _ (hq.lies k hk).placed)
      have hgl := hlook.toGlance
      have hload := hgl.view.load hpl hq.lies
      have hgl' : Glance s P O 4 u (u.skip 4) := hgl.view.pointer u.ifetch.paddr 4
      refine ⟨u.skip 4, ?_, ?_, hskip u ?_, fun k hk4 => hgl'.later _ _ (hhas k hk4)⟩
      · unfold Cpu.fetch32 translate32
        rw [get_bind_run, if_neg hon, if_neg hnear]
        refine (bind_run_ok (show Cpu.translate 1 .cs t.nextIp 4 t.cpl t = .ok res u from hrun)).trans ?_
        refine (bind_run_ok hload).trans ?_
        rfl
      · have h := hgl.trans hgl'
        rw [zero_add_word] at h
        exact h
      · rw [hlook.ifetch]

end ViewFetch

end Winspire.Cpu
