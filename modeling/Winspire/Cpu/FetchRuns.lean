import Winspire.Cpu.FetchCache
import Winspire.Cpu.Segments

/-!
# Fetches along runs

As long as what the caches have from the tables changes only together with a clear, the kept page
serves no fetch that its translation would refuse, the running pointer stays in its page and nothing
is fetched around the end of the address space, every fetch delivers what a translation at that
moment would.
-/

namespace Winspire.Cpu

open Faulting Pages

set_option autoImplicit false

inductive FetchOp where
  | peek8
  | peek8a
  | fetch8
  | fetch8pf
  | fetch16
  | fetch32
  deriving DecidableEq, Repr

def FetchOp.width : FetchOp → Width
  | fetch16 => .b16
  | fetch32 => .b32
  | _ => .b8

def FetchOp.run : FetchOp → M Word
  | peek8 => do return (← Cpu.peek8).setWidth 32
  | peek8a => do return (← Cpu.peek8a).setWidth 32
  | fetch8 => do return (← Cpu.fetch8).setWidth 32
  | fetch8pf => do return (← Cpu.fetch8pf).setWidth 32
  | fetch16 => do return (← Cpu.fetch16).setWidth 32
  | fetch32 => Cpu.fetch32

/-- How far from the kept page's address a fetch still takes it. -/
def FetchOp.reach : FetchOp → Nat
  | fetch16 => 4095
  | fetch32 => 4093
  | _ => 4096

/-- The last page of the linear address space. -/
def lastPage : Nat := 0xfffff

/-- Without paging, `n` bytes of code in RAM, in an instruction that begins there. -/
structure CPUI386.FlatCode (s : CPUI386) (n : Nat) : Prop where
  paging : hasBit s.cr0 cr0PG = false
  cs : ¬ NullSegment s .cs
  start : inIomem ((s.seg .cs).base + s.ip) = false
  noDevice : inIomem s.codeAddr = false
  inMem : ∀ k, k < n → s.inMem (s.codeAddr + BitVec.ofNat 32 k)

structure FetchOp.Meets (op : FetchOp) (s : CPUI386) : Prop where
  /-- `-1` marks an empty cache, but is an address of the last page. -/
  top : s.ifetch.laddr = noPage → op.reach ≤ (s.codeAddr ^^^ noPage).toNat
  /-- The page after the last one is looked up past the directory. -/
  wrap : Straddles s.codeAddr op.width.bytes → page 12 s.codeAddr ≠ lastPage
  /-- The pointer runs on behind the end of the page. -/
  page : op ≠ .fetch8pf → s.ifetch.paddr ≠ 0 →
    offset 12 ((s.seg .cs).base + s.ip) + (s.nextIp - s.ip).toNat + op.width.bytes ≤ 4096 ∨
      s.FlatCode op.width.bytes
  /-- The kept page is not checked again. -/
  hit : s.Hits op.width → s.MayFetch
  /-- `peek8` is for when the pointer is off. -/
  peek : op = .peek8 → s.ifetch.paddr = 0

/-- What a fetch leaves for the next one of the instruction. -/
structure Delivered (s' : CPUI386) : Prop where
  inv : FetchInv s'
  decoding : s'.ifetch.paddr ≠ 0 → s'.Decoding

section Ops

variable {s : CPUI386}

theorem kept_of_reach (hi : FetchInv s) {n : Nat} (hn : n ≤ 4096)
    (htop : s.ifetch.laddr = noPage → n ≤ (s.codeAddr ^^^ noPage).toNat)
    (h : (s.codeAddr ^^^ s.ifetch.laddr).toNat < n) :
    s.PageKept ∧ page 12 s.codeAddr = page 12 s.ifetch.laddr ∧ offset 12 s.codeAddr < n := by
  have hne : s.ifetch.laddr ≠ noPage := by
    intro he
    have hfar := htop he
    rw [he] at h
    omega
  have hk := hi.kept hne
  exact ⟨hk, (xor_lt_iff hk.low hn).mp h⟩

theorem far_of_page {a : Word} (h : page 12 a ≠ lastPage) : 4096 ≤ (a ^^^ noPage).toNat := by
  refine Nat.le_of_not_lt fun hlt => h ?_
  have hp : page 12 a = page 12 noPage := xor_lt_page_iff.mp hlt
  exact hp

theorem kept_of_near (hi : FetchInv s)
    (htop : s.ifetch.laddr = noPage → page 12 s.codeAddr ≠ lastPage)
    {n : Nat} (hn : n ≤ 4096) (h : (s.codeAddr ^^^ s.ifetch.laddr).toNat < n) :
    s.PageKept ∧ page 12 s.codeAddr = page 12 s.ifetch.laddr ∧ offset 12 s.codeAddr < n :=
  kept_of_reach hi hn (fun he => Nat.le_trans hn (far_of_page (htop he))) h

theorem Peeked.refl (hi : FetchInv s) : Peeked s s :=
  (Cached.refl s).peeked hi hi.coherent

theorem peek8_spec (hi : FetchInv s)
    (htop : s.ifetch.laddr = noPage → 4096 ≤ (s.codeAddr ^^^ noPage).toNat)
    (hm : s.Hits .b8 → s.MayFetch) :
    wp peek8 (fun v s' => AsFetch s .b8 (.ok (v.setWidth 32) s') ∧ Peeked s s')
      (Faulted s .b8) (fun why => AsFetch s .b8 (.stop why)) s := by
  unfold peek8
  rw [wp_bind, wp_get]
  refine wp_ite ?_ (fun _ => peek8Slow_spec hi)
  intro hlt
  obtain ⟨hk, hp, ho⟩ := kept_of_reach hi (Nat.le_refl _) htop hlt
  have hit : s.Hits .b8 := ⟨hp, ho⟩
  have hin := inMemFrom_kept hk hit
  refine wp_pload8 ?_ (fun hn => absurd hin.zero hn)
  intro _
  exact ⟨asFetch_kept hk hit (hm hit) s, Peeked.refl hi⟩

theorem pointer_at (hi : FetchInv s) (hd : s.Decoding) {w : Width}
    (hlen : offset 12 ((s.seg .cs).base + s.ip) + (s.nextIp - s.ip).toNat + w.bytes ≤ 4096) :
    s.PageKept ∧ s.Hits w ∧ s.ifetch.paddr = s.ifetch.xaddr ^^^ s.codeAddr := by
  have hk := hi.kept hd.kept
  have hb : 0 < w.bytes := by cases w <;> decide
  have hsum : s.ip + (s.nextIp - s.ip) = s.nextIp := by
    rw [BitVec.add_comm, BitVec.sub_add_cancel]
  have haddr : s.codeAddr =
      ((s.seg .cs).base + s.ip) + BitVec.ofNat 32 (s.nextIp - s.ip).toNat := by
    rw [BitVec.ofNat_toNat, BitVec.setWidth_eq, CPUI386.codeAddr, BitVec.add_assoc, hsum]
  have hoff : offset 12 ((s.seg .cs).base + s.ip) + (s.nextIp - s.ip).toNat < 2 ^ 12 := by
    change _ < 4096
    omega
  refine ⟨hk, ⟨?_, ?_⟩, ?_⟩
  · rw [haddr, page_add (by decide) hoff]
    exact hd.start
  · rw [haddr, offset_add (by decide) hoff]
    exact hlen
  · rw [haddr, xor_add (by decide) hk.xlow hoff, hd.paddr, BitVec.ofNat_toNat,
      BitVec.setWidth_eq]

/-- What the pointer delivers is what the translation finds: in the page of the first byte, or
behind it in memory that is not paged. -/
theorem pointer_delivers (hi : FetchInv s) (hd : s.Decoding) {op : FetchOp} (hop : op ≠ .fetch8pf)
    (hon : s.ifetch.paddr ≠ 0) (hm : op.Meets s) :
    s.InMemFrom s.ifetch.paddr op.width ∧
      ∀ s', AsFetch s op.width (.ok (s.valueAt s.ifetch.paddr op.width) s') := by
  rcases hm.page hop hon with hlen | hflat
  · obtain ⟨hk, hit, hat⟩ := pointer_at hi hd hlen
    rw [hat]
    exact ⟨inMemFrom_kept hk hit, asFetch_kept hk hit (hm.hit hit)⟩
  · have hat : s.ifetch.paddr = s.codeAddr := by
      obtain ⟨raw, hraw, hphys⟩ := (hi.kept hd.kept).maps _ hd.start
      have hflat' : s.mapsCode ((s.seg .cs).base + s.ip) = .granted ((s.seg .cs).base + s.ip) :=
        if_neg (by rw [hflat.paging]; decide)
      have hsame : raw = (s.seg .cs).base + s.ip := by
        rw [hflat'] at hraw
        injection hraw with hraw
        exact hraw.symm
      rw [hsame, mapBiosAlias_ram hflat.start] at hphys
      rw [hd.paddr, ← hphys, BitVec.add_assoc, BitVec.add_comm s.ip, BitVec.sub_add_cancel]
      rfl
    have hfetch : s.fetchAt op.width = .granted ⟨s.codeAddr, none⟩ := by
      have hcode : s.codeAccess s.codeAddr = .granted s.codeAddr :=
        if_neg (by rw [hflat.paging]; decide)
      unfold CPUI386.fetchAt
      rw [hcode]
      exact if_neg fun hpg => absurd (hflat.paging.symm.trans hpg.1) (by decide)
    have hdevice : s.iomemReader op.width s.codeAddr = none :=
      if_neg (by rw [hflat.noDevice]; decide)
    rw [hat]
    exact ⟨hflat.inMem, fun s' => ⟨hflat.cs, _, hfetch, s, s, ⟨Marks.refl s, rfl, rfl, rfl⟩,
      loadW_plain (mapBiosAlias_ram hflat.noDevice) hdevice hflat.inMem⟩⟩

/-- A short instruction stays in the page that `fetch8pf` left room in. -/
theorem CPUI386.Decoding.inPage (hd : s.Decoding) {n : Nat}
    (h : (s.nextIp - s.ip).toNat + n ≤ 17) :
    offset 12 ((s.seg .cs).base + s.ip) + (s.nextIp - s.ip).toNat + n ≤ 4096 := by
  have hroom := hd.room
  omega

theorem sub_step (x n y : Word) : x + n - y = x - y + n := by
  rw [BitVec.sub_eq_add_neg, BitVec.sub_eq_add_neg, BitVec.add_assoc, BitVec.add_comm n,
    ← BitVec.add_assoc]

theorem Delivered.advance (hi : FetchInv s) (hd : s.Decoding) (n : Word) :
    Delivered (s.advance n) where
  inv := by
    refine hi.fetching ⟨(Marks.refl s).congr rfl rfl, rfl⟩ ?_ rfl rfl
    exact ⟨hi.coherent.tlb, hi.coherent.read, hi.coherent.write⟩
  decoding _ := by
    refine ⟨hd.kept, hd.start, hd.room, ?_⟩
    change s.ifetch.paddr + n = (s.ifetch.xaddr ^^^ ((s.seg .cs).base + s.ip)) +
      (s.nextIp + n - s.ip)
    rw [hd.paddr, sub_step, BitVec.add_assoc]

/-- The pointer is off: the next fetch asks the kept page again. -/
theorem FetchInv.skip {t : CPUI386} (hi : FetchInv t) (hoff : t.ifetch.paddr = 0) (n : Word) :
    Delivered (t.skip n) where
  inv := by
    refine hi.fetching ⟨(Marks.refl t).congr rfl rfl, rfl⟩ ?_ rfl rfl
    exact ⟨hi.coherent.tlb, hi.coherent.read, hi.coherent.write⟩
  decoding h := absurd hoff h

theorem Faulted.delivered {w : Width} {s' : CPUI386} (hi : FetchInv s) (hoff : s.ifetch.paddr = 0)
    (h : Faulted s w s') : Delivered s' where
  inv := hi.fetching h.cached.fetching h.coherent (by rw [h.cached.rest]) (by rw [h.cached.rest])
  decoding hp := by
    rw [h.cached.rest] at hp
    exact absurd hoff hp

def FetchEnds (s : CPUI386) (w : Width) (x : M Word) : Prop :=
  wp x (fun v s' => AsFetch s w (.ok v s') ∧ Delivered s')
    (fun s' => AsFetch s w (.fault s') ∧ Delivered s') (fun why => AsFetch s w (.stop why)) s

theorem peek8_ends (hi : FetchInv s) (hm : FetchOp.peek8.Meets s) :
    FetchEnds s .b8 FetchOp.peek8.run := by
  have hoff := hm.peek rfl
  unfold FetchEnds FetchOp.run
  rw [wp_bind]
  refine wp_mono (peek8_spec hi hm.top hm.hit) ?_ ?_ (fun _ h => h)
  · rintro v s' ⟨ha, hp⟩
    refine ⟨ha, hp.inv, ?_⟩
    intro hne
    rw [hp.paddr] at hne
    exact absurd hoff hne
  · intro s' hf
    exact ⟨hf.asFetch, hf.delivered hi hoff⟩

theorem peek8a_ends (hi : FetchInv s) (hd : s.ifetch.paddr ≠ 0 → s.Decoding)
    (hm : FetchOp.peek8a.Meets s) : FetchEnds s .b8 FetchOp.peek8a.run := by
  by_cases hoff : s.ifetch.paddr = 0
  · have hrun : FetchOp.peek8a.run s = FetchOp.peek8.run s := by
      change (Cpu.peek8a >>= _) s = (Cpu.peek8 >>= _) s
      rw [bind_run, bind_run]
      unfold Cpu.peek8a
      rw [get_bind_run, if_neg (not_not_intro hoff)]
    have h := peek8_ends hi ⟨hm.top, hm.wrap, fun _ h => absurd hoff h, hm.hit, fun _ => hoff⟩
    unfold FetchEnds wp at h ⊢
    rw [hrun]
    exact h
  · obtain ⟨hin, hvalue⟩ := pointer_delivers hi (hd hoff) (by decide) hoff hm
    unfold FetchEnds FetchOp.run Cpu.peek8a
    rw [wp_bind, wp_bind, wp_get, if_pos hoff]
    refine wp_pload8 ?_ (fun hn => absurd hin.zero hn)
    intro _
    rw [wp_pure]
    exact ⟨hvalue s, hi, hd⟩

theorem fetch8_ends (hi : FetchInv s) (hd : s.ifetch.paddr ≠ 0 → s.Decoding)
    (hm : FetchOp.fetch8.Meets s) : FetchEnds s .b8 FetchOp.fetch8.run := by
  unfold FetchEnds FetchOp.run Cpu.fetch8
  rw [wp_bind, wp_bind, wp_get]
  by_cases hoff : s.ifetch.paddr = 0
  · rw [if_neg (not_not_intro hoff), wp_bind]
    refine wp_mono (peek8_spec hi hm.top hm.hit) ?_ ?_ (fun _ h => h)
    · rintro v u ⟨ha, hp⟩
      exact ⟨ha, hp.inv.skip (hp.paddr.trans hoff) 1⟩
    · intro s' hf
      exact ⟨hf.asFetch, hf.delivered hi hoff⟩
  · obtain ⟨hin, hvalue⟩ := pointer_delivers hi (hd hoff) (by decide) hoff hm
    rw [if_pos hoff]
    refine wp_bind_ok (pload8_ok hin) ?_
    exact ⟨hvalue (s.advance 1), Delivered.advance hi (hd hoff) 1⟩

theorem slow_ends {α : Type} {w : Width} {load : OptAddr → M α} {g : α → Word} {n : Word}
    (hi : FetchInv s) (hoff : s.ifetch.paddr = 0)
    (hwrap : Straddles s.codeAddr w.bytes → page 12 s.codeAddr ≠ lastPage)
    (hends : ∀ res t, res.Fits w → LoadEnds (load res) t)
    (hsafe : ∀ (res : OptAddr) t, res.Fits w → (Safe (load res) t ↔
      (MemOp.ToMem res t (.load w) → res.mapped.InMem w t)))
    (hval : ∀ res t v u, load res t = .ok v u → loadW res w t = .ok (g v) u) :
    FetchEnds s w (translate 1 .cs s.nextIp w.bytes s.cpl >>= fun res => load res >>= fun v =>
      modify (fun s => s.skip n) >>= fun _ => pure (g v)) := by
  unfold FetchEnds
  rw [wp_bind]
  refine wp_mono (translate_fetch hi.coherent hwrap) ?_ ?_ (fun _ h => h)
  · rintro res t ⟨hnull, hct, hco, hat, hfits⟩
    have hp := hct.peeked hi hco
    rw [wp_bind]
    refine wp_mono (load_spec (hends res t hfits) (hsafe res t hfits)) ?_ (fun _ h => h.elim) ?_
    · rintro v u ⟨hl, hu⟩
      rw [wp_bind, wp_modify, wp_pure]
      refine ⟨⟨hnull, res, hat, t, u, hct.markedView, hval res t v u hl⟩, ?_⟩
      have hfu : Fetching t u := by
        rw [hu]
        exact ⟨(Marks.refl t).congr rfl rfl, rfl⟩
      have hcu : Coherent linearPages u := by
        rw [hu]
        exact ⟨hco.tlb, hco.read, hco.write⟩
      refine (hp.inv.fetching hfu hcu ?_ ?_).skip ?_ n
      · rw [hu]
      · rw [hu]
      · rw [hu]
        exact hp.paddr.trans hoff
    · rintro why ⟨rfl, hout⟩
      refine ⟨rfl, ?_⟩
      intro hin
      apply hout
      exact (toMem_congr hct (.load w) res).mpr (hin.operand res hat)
  · intro s' hf
    exact ⟨hf.asFetch, hf.delivered hi hoff⟩

theorem fetch16_ends (hi : FetchInv s) (hd : s.ifetch.paddr ≠ 0 → s.Decoding)
    (hm : FetchOp.fetch16.Meets s) : FetchEnds s .b16 FetchOp.fetch16.run := by
  unfold FetchEnds FetchOp.run Cpu.fetch16
  rw [wp_bind, wp_bind, wp_get]
  by_cases hoff : s.ifetch.paddr = 0
  · rw [if_neg (not_not_intro hoff)]
    refine wp_ite ?_ ?_
    · intro hlt
      have htop : s.ifetch.laddr = noPage → 4095 ≤ (s.codeAddr ^^^ noPage).toNat :=
        fun he => hm.top he
      obtain ⟨hk, hp, ho⟩ := kept_of_reach hi (by decide) htop hlt
      have hit : s.Hits .b16 := by
        refine ⟨hp, ?_⟩
        change _ + 2 ≤ 4096
        omega
      refine wp_bind_ok (pload16_ok (inMemFrom_kept hk hit)) ?_
      exact ⟨asFetch_kept hk hit (hm.hit hit) _, hi.skip hoff 2⟩
    · intro _
      have hslow : FetchEnds s .b16 (translate 1 .cs s.nextIp 2 s.cpl >>= fun res =>
          load16 res >>= fun v => modify (fun s => s.skip 2) >>= fun _ => pure (v.setWidth 32)) :=
        slow_ends hi hoff hm.wrap (fun _ _ _ => loadEnds_load16) (fun _ _ hf => safe_load16 hf)
          (fun _ _ _ _ hl => bind_run_ok hl)
      unfold FetchEnds at hslow
      unfold translate16
      rw [wp_bind] at hslow
      rw [wp_bind, wp_bind, wp_get]
      refine wp_mono hslow ?_ (fun _ h => h) (fun _ h => h)
      intro res t h
      rw [wp_bind] at h ⊢
      exact h
  · obtain ⟨hin, hvalue⟩ := pointer_delivers hi (hd hoff) (by decide) hoff hm
    rw [if_pos hoff]
    refine wp_bind_ok (pload16_ok hin) ?_
    exact ⟨hvalue (s.advance 2), Delivered.advance hi (hd hoff) 2⟩

theorem fetch32_ends (hi : FetchInv s) (hd : s.ifetch.paddr ≠ 0 → s.Decoding)
    (hm : FetchOp.fetch32.Meets s) : FetchEnds s .b32 FetchOp.fetch32.run := by
  unfold FetchEnds FetchOp.run Cpu.fetch32
  rw [wp_bind, wp_get]
  by_cases hoff : s.ifetch.paddr = 0
  · rw [if_neg (not_not_intro hoff)]
    refine wp_ite ?_ ?_
    · intro hlt
      have htop : s.ifetch.laddr = noPage → 4093 ≤ (s.codeAddr ^^^ noPage).toNat :=
        fun he => hm.top he
      obtain ⟨hk, hp, ho⟩ := kept_of_reach hi (by decide) htop hlt
      have hit : s.Hits .b32 := by
        refine ⟨hp, ?_⟩
        change _ + 4 ≤ 4096
        omega
      refine wp_bind_ok (pload32_ok (inMemFrom_kept hk hit)) ?_
      exact ⟨asFetch_kept hk hit (hm.hit hit) _, hi.skip hoff 4⟩
    · intro _
      have hslow : FetchEnds s .b32 (translate 1 .cs s.nextIp 4 s.cpl >>= fun res =>
          load32 res >>= fun v => modify (fun s => s.skip 4) >>= fun _ => pure v) :=
        slow_ends (g := fun v => v) hi hoff hm.wrap (fun _ _ hf => loadEnds_load32 hf)
          (fun _ _ hf => safe_load32 hf) (fun _ _ _ _ hl => hl)
      unfold FetchEnds at hslow
      unfold translate32
      rw [wp_bind] at hslow
      rw [wp_bind, wp_bind, wp_get]
      exact hslow
  · obtain ⟨hin, hvalue⟩ := pointer_delivers hi (hd hoff) (by decide) hoff hm
    rw [if_pos hoff]
    refine wp_bind_ok (pload32_ok hin) ?_
    exact ⟨hvalue (s.advance 4), Delivered.advance hi (hd hoff) 4⟩

theorem AsFetch.of_ifetch {i : IFetch} {w : Width} {r : Result CPUI386 Stop Word}
    (h : AsFetch { s with ifetch := i } w r) : AsFetch s w r := by
  cases r with
  | ok v s' =>
    obtain ⟨hnull, res, hat, t, u, ⟨hm, hio, hsize, hcb⟩, hl⟩ := h
    have hi : Marks s { s with ifetch := i } := (Marks.refl s).congr rfl rfl
    exact ⟨hnull, res, hat, t, u, ⟨hi.trans hm, hio, hsize, hcb⟩, hl⟩
  | fault s' => exact h
  | stop why =>
    obtain ⟨rfl, hout⟩ := h
    exact ⟨rfl, fun hin => hout ⟨hin.first, hin.next, hin.operand⟩⟩

theorem fetch8pf_ends (hi : FetchInv s) (hip : s.ip = s.nextIp) (hm : FetchOp.fetch8pf.Meets s) :
    FetchEnds s .b8 FetchOp.fetch8pf.run := by
  unfold FetchEnds FetchOp.run Cpu.fetch8pf
  rw [wp_bind, wp_bind, wp_get]
  refine wp_ite ?_ ?_
  · intro hlt
    have hroom : (4096 - 16 : Word).toNat = 4096 - 16 := rfl
    rw [BitVec.lt_def, hroom] at hlt
    have htop : s.ifetch.laddr = noPage → 4096 - 16 ≤ (s.codeAddr ^^^ noPage).toNat :=
      fun he => Nat.le_trans (by decide) (hm.top he)
    obtain ⟨hk, hp, ho⟩ := kept_of_reach hi (by decide) htop hlt
    have hit : s.Hits .b8 := by
      refine ⟨hp, ?_⟩
      change _ + 1 ≤ 4096
      omega
    refine wp_bind_ok (pload8_ok (inMemFrom_kept hk hit)) ?_
    refine ⟨asFetch_kept hk hit (hm.hit hit) _, ?_, ?_⟩
    · refine hi.fetching ⟨(Marks.refl s).congr rfl rfl, rfl⟩ ?_ rfl rfl
      exact ⟨hi.coherent.tlb, hi.coherent.read, hi.coherent.write⟩
    · intro _
      have hne : s.ifetch.laddr ≠ noPage := by
        intro he
        have hlow := hk.low
        rw [he] at hlow
        exact absurd hlow (by decide)
      have hstart : (s.seg .cs).base + s.ip = s.codeAddr := by rw [hip, CPUI386.codeAddr]
      refine ⟨hne, ?_, ?_, ?_⟩
      · change page 12 ((s.seg .cs).base + s.ip) = _
        rw [hstart]
        exact hp
      · change offset 12 ((s.seg .cs).base + s.ip) < _
        rw [hstart]
        exact ho
      · change (s.ifetch.xaddr ^^^ s.codeAddr) + 1 =
          (s.ifetch.xaddr ^^^ ((s.seg .cs).base + s.ip)) + (s.nextIp + 1 - s.ip)
        rw [hstart, hip, sub_step, BitVec.sub_self, BitVec.zero_add]
  · intro _
    rw [wp_bind, wp_modify, wp_bind]
    have hi0 : FetchInv { s with ifetch := { s.ifetch with paddr := 0 } } := by
      refine hi.fetching ⟨(Marks.refl s).congr rfl rfl, rfl⟩ ?_ rfl rfl
      exact ⟨hi.coherent.tlb, hi.coherent.read, hi.coherent.write⟩
    have hm0 : CPUI386.Hits { s with ifetch := { s.ifetch with paddr := 0 } } .b8 →
        CPUI386.MayFetch { s with ifetch := { s.ifetch with paddr := 0 } } := by
      rintro ⟨hp, ho⟩
      obtain ⟨hcs, huser⟩ := hm.hit ⟨hp, ho⟩
      exact ⟨hcs, huser⟩
    refine wp_mono (peek8_spec hi0 hm.top hm0) ?_ ?_ ?_
    · rintro v u ⟨ha, hp⟩
      exact ⟨ha.of_ifetch, hp.inv.skip hp.paddr 1⟩
    · intro s' hf
      exact ⟨hf.asFetch.of_ifetch, hf.delivered hi0 rfl⟩
    · intro why hs
      exact hs.of_ifetch

theorem fetchOp_ends (hi : FetchInv s) (hd : s.ifetch.paddr ≠ 0 → s.Decoding) {op : FetchOp}
    (hop : op ≠ .fetch8pf) (hm : op.Meets s) : FetchEnds s op.width op.run := by
  cases op with
  | peek8 => exact peek8_ends hi hm
  | peek8a => exact peek8a_ends hi hd hm
  | fetch8 => exact fetch8_ends hi hd hm
  | fetch8pf => exact absurd rfl hop
  | fetch16 => exact fetch16_ends hi hd hm
  | fetch32 => exact fetch32_ends hi hd hm

theorem FetchEnds.asFetch {w : Width} {x : M Word} (h : FetchEnds s w x) : AsFetch s w (x s) := by
  unfold FetchEnds wp at h
  cases hx : x s with
  | ok v s' =>
    rw [hx] at h
    exact h.1
  | fault s' =>
    rw [hx] at h
    exact h.1
  | stop why =>
    rw [hx] at h
    exact h

theorem FetchEnds.delivered {w : Width} {x : M Word} {s' : CPUI386} (h : FetchEnds s w x)
    (he : EndsIn x s s') : Delivered s' :=
  wp_endsIn h he (fun _ _ h => h.2) (fun _ h => h.2)

end Ops

/-- A cache has a translation of the page. -/
inductive CPUI386.Holds (s : CPUI386) (l : Word) : Prop where
  | tlb (slot : Nat) : (s.tlb slot).lpgno = l → Holds s l
  | read (slot : Nat) : (s.dtlbRead slot).lpgno = l → Holds s l
  | write (slot : Nat) : (s.dtlbWrite slot).lpgno = l → Holds s l
  | fetch : hasBit s.cr0 cr0PG = true → s.ifetch.laddr ≠ noPage →
      page 12 s.ifetch.laddr = l.toNat → Holds s l

/-- What an instruction does outside its fetches and translations. It may change the segments, the
privilege, and the tables as far as no cache has translations from them. -/
structure Executes (s s' : CPUI386) : Prop where
  memSize : s'.memSize = s.memSize
  tlb : s'.tlb = s.tlb
  read : s'.dtlbRead = s.dtlbRead
  write : s'.dtlbWrite = s.dtlbWrite
  ifetch : s'.ifetch = s.ifetch
  paging : hasBit s'.cr0 cr0PG = hasBit s.cr0 cr0PG
  cb : s'.cb = s.cb
  pages : ∀ l, l.toNat < linearPages → s.Holds l → SamePage l s s'

structure FetchCleared (s : CPUI386) : Prop where
  caches : s.Cleared
  laddr : s.ifetch.laddr = noPage
  paddr : s.ifetch.paddr = 0
  fitted : s.Fitted

/-- Runs of the processor, by whether the next bytes belong to an instruction begun. A clear of
the caches, after whatever was done to the tables, starts a run of its own. -/
inductive FetchRun : Bool → CPUI386 → Prop where
  | cleared {s : CPUI386} (h : FetchCleared s) : FetchRun false s
  | beginInsn {s s' : CPUI386} {b : Bool} (hr : FetchRun b s)
      (hm : FetchOp.fetch8pf.Meets s.beginInsn)
      (h : EndsIn FetchOp.fetch8pf.run s.beginInsn s') : FetchRun true s'
  | fetch {s s' : CPUI386} (op : FetchOp) (hr : FetchRun true s) (hop : op ≠ .fetch8pf)
      (hm : op.Meets s) (h : EndsIn op.run s s') : FetchRun true s'
  | data {s s' : CPUI386} {b : Bool} (rwm : Nat) (lpgno laddr : Word) (cpl : Nat)
      (hr : FetchRun b s) (hk : IsRwm rwm) (hl : lpgno.toNat ≤ linearPages)
      (h : EndsIn (translateLpgnoFast rwm lpgno laddr cpl) s s') : FetchRun b s'
  | execute {s s' : CPUI386} {b : Bool} (hr : FetchRun b s) (h : Executes s s') : FetchRun false s'
  | pointerOff {s : CPUI386} {b : Bool} (hr : FetchRun b s) :
      FetchRun false { s with ifetch := { s.ifetch with paddr := 0 } }

section Runs

variable {s s' : CPUI386}

theorem FetchCleared.inv (h : FetchCleared s) : FetchInv s :=
  ⟨h.caches.coherent, h.fitted, fun hn => absurd h.laddr hn⟩

theorem KeepsTables.executes (h : KeepsTables s s') (hi : s'.ifetch = s.ifetch)
    (hp : hasBit s'.cr0 cr0PG = hasBit s.cr0 cr0PG) (hcb : s'.cb = s.cb) : Executes s s' :=
  ⟨h.memSize, h.tlb, h.read, h.write, hi, hp, hcb, fun _ hl _ => h.samePages.page hl⟩

theorem Executes.coherent (h : Executes s s') (hc : Coherent linearPages s) :
    Coherent linearPages s' where
  tlb slot := by
    rw [h.tlb]
    exact (hc.tlb slot).congr fun hl => h.pages _ hl (.tlb slot rfl)
  read slot := by
    rw [h.read]
    exact (hc.read slot).congr fun hl => h.pages _ hl (.read slot rfl)
  write slot := by
    rw [h.write]
    exact (hc.write slot).congr fun hl => h.pages _ hl (.write slot rfl)

theorem Executes.inv (h : Executes s s') (hi : FetchInv s) : FetchInv s' where
  coherent := h.coherent hi.coherent
  fitted := hi.fitted.congr h.memSize h.cb
  kept hn := by
    rw [h.ifetch] at hn
    refine (hi.kept hn).congr (by rw [h.ifetch]) (by rw [h.ifetch]) h.memSize h.cb ?_
    intro l hpage
    refine mapsCode_page h.paging fun hpg => h.pages _ (lshr_twelve_lt l) (.fetch hpg hn ?_)
    rw [← hpage, BitVec.toNat_ushiftRight, Nat.shiftRight_eq_div_pow]
    rfl

theorem beginInsn_inv (hi : FetchInv s) : FetchInv s.beginInsn where
  coherent := ⟨hi.coherent.tlb, hi.coherent.read, hi.coherent.write⟩
  fitted := hi.fitted.congr rfl rfl
  kept hn := (hi.kept hn).congr rfl rfl rfl rfl fun _ _ => rfl

theorem CachedFault.decoding (h : CachedFault s s') (hd : s.Decoding) : s'.Decoding := by
  rw [h.rest]
  exact ⟨hd.kept, hd.start, hd.room, hd.paddr⟩

theorem Cached.cachedFault (h : Cached s s') : CachedFault s s' where
  marks := h.marks
  rest := by
    rw [h.rest]

theorem data_delivered (hi : FetchInv s) (hc : CachedFault s s')
    (hco : Coherent linearPages s') {b : Bool}
    (hd : b = true → s.ifetch.paddr ≠ 0 → s.Decoding) :
    FetchInv s' ∧ (b = true → s'.ifetch.paddr ≠ 0 → s'.Decoding) := by
  refine ⟨hi.fetching hc.fetching hco (by rw [hc.rest]) (by rw [hc.rest]), ?_⟩
  intro hb hp
  refine hc.decoding (hd hb ?_)
  rw [hc.rest] at hp
  exact hp

theorem fetchRun_inv {b : Bool} (h : FetchRun b s) :
    FetchInv s ∧ (b = true → s.ifetch.paddr ≠ 0 → s.Decoding) := by
  induction h with
  | cleared h => exact ⟨h.inv, fun hb => nomatch hb⟩
  | beginInsn _ hm h ih =>
    have hd := (fetch8pf_ends (beginInsn_inv ih.1) rfl hm).delivered h
    exact ⟨hd.inv, fun _ => hd.decoding⟩
  | fetch op _ hop hm h ih =>
    have hd := (fetchOp_ends ih.1 (ih.2 rfl) hop hm).delivered h
    exact ⟨hd.inv, fun _ => hd.decoding⟩
  | @data s s' b rwm lpgno laddr cpl _ hk hl h ih =>
    refine wp_endsIn (P := fun t => FetchInv t ∧ (b = true → t.ifetch.paddr ≠ 0 → t.Decoding))
      (translateLpgnoFast_spec ih.1.coherent (ne_noPage hl) hk) h ?_ ?_
    · intro _ t ht
      exact data_delivered ih.1 ht.cached.cachedFault ht.coherent ih.2
    · intro t ht
      exact data_delivered ih.1 ht.cached ht.coherent ih.2
  | execute _ h ih => exact ⟨h.inv ih.1, fun hb => nomatch hb⟩
  | pointerOff _ ih =>
    refine ⟨?_, fun hb => nomatch hb⟩
    refine ih.1.fetching ⟨(Marks.refl _).congr rfl rfl, rfl⟩ ?_ rfl rfl
    exact ⟨ih.1.coherent.tlb, ih.1.coherent.read, ih.1.coherent.write⟩

/-- In every run, each fetch delivers what the tables, CR0 and CPL of that moment say, and faults
as they say. -/
theorem fetches_transparent {b : Bool} (h : FetchRun b s) :
    (FetchOp.fetch8pf.Meets s.beginInsn →
      AsFetch s.beginInsn .b8 (FetchOp.fetch8pf.run s.beginInsn)) ∧
    (b = true → ∀ op : FetchOp, op ≠ .fetch8pf → op.Meets s → AsFetch s op.width (op.run s)) := by
  obtain ⟨hi, hd⟩ := fetchRun_inv h
  refine ⟨?_, ?_⟩
  · intro hm
    exact (fetch8pf_ends (beginInsn_inv hi) rfl hm).asFetch
  · intro hb op hop hm
    exact (fetchOp_ends hi (hd hb) hop hm).asFetch

end Runs

/-- Page 0 is a supervisor page in frame 0x3000, and holds SYSEXIT and NOP; page 1 is a user page in
frame 0x4000, and holds NOP. -/
def kernelMem : Nat → Byte
  | 0x1000 => 0x07
  | 0x1001 => 0x20
  | 0x2000 => 0x03
  | 0x2001 => 0x30
  | 0x2004 => 0x07
  | 0x2005 => 0x40
  | 0x3000 => 0x0f
  | 0x3001 => 0x35
  | 0x3002 => 0x90
  | 0x4000 => 0x90
  | _ => 0

/-- The kernel, about to return to `target`. -/
def kernelCpu (target : Word) : CPUI386 :=
  { cpui386New .i686 kernelMem 0x8000 false false with
    cr0 := 0x80010001
    cr3 := 0x1000
    seg := fun _ => ⟨8, 0, 0xffffffff, 0x409b⟩
    code16 := false
    nextIp := 0
    gpr := fun i => if i = 2 then target else 0
    sysenter := ⟨8, 0, 0⟩ }

/-- The state a program that returns or faults ends in. -/
def endState {α : Type} (x : M α) (s : CPUI386) : CPUI386 :=
  match x s with
  | .ok _ s' => s'
  | .fault s' => s'
  | .stop _ => s

def atSysexit (target : Word) : CPUI386 :=
  endState FetchOp.fetch8.run (endState FetchOp.fetch8pf.run (kernelCpu target).beginInsn)

def afterSysexit (target : Word) : CPUI386 := endState sysexit (atSysexit target)

theorem kernelCpu_cleared (target : Word) : FetchCleared (kernelCpu target) where
  caches := ⟨fun _ => rfl, fun _ => rfl, fun _ => rfl⟩
  laddr := rfl
  paddr := rfl
  fitted := by
    have hsize : (kernelCpu target).memSize = 0x8000 := rfl
    refine ⟨?_, ?_, fun _ _ => rfl⟩
    · rw [hsize]
      decide
    · rw [hsize]
      decide

theorem kernelCpu_meets (target : Word) : FetchOp.fetch8pf.Meets (kernelCpu target).beginInsn := by
  have hat : (kernelCpu target).beginInsn.codeAddr = 0 := rfl
  have hempty : (kernelCpu target).beginInsn.ifetch.laddr = noPage := rfl
  refine ⟨fun _ => ?_, fun h => absurd h (not_straddles_b8 _), fun h => absurd rfl h, fun h => ?_,
    fun h => nomatch h⟩
  · rw [hat]
    decide
  · have hpage := h.page
    rw [hat, hempty] at hpage
    exact absurd hpage (by decide)

/-- SYSEXIT changes the privilege and keeps the page: at CPL 3 the next instruction is fetched from
a page the tables deny. -/
theorem sysexit_keeps_page :
    FetchCleared (kernelCpu 2) ∧ FetchOp.fetch8pf.Meets (kernelCpu 2).beginInsn ∧
      (afterSysexit 2).cpl = 3 ∧ (afterSysexit 2).beginInsn.fetchAt .b8 = .denied 2 5 ∧
      ¬ AsFetch (afterSysexit 2).beginInsn .b8
        (FetchOp.fetch8pf.run (afterSysexit 2).beginInsn) := by
  have hdenied : (afterSysexit 2).beginInsn.fetchAt .b8 = .denied 2 5 := by decide
  refine ⟨kernelCpu_cleared 2, kernelCpu_meets 2, rfl, hdenied, ?_⟩
  have hok : ∃ s', FetchOp.fetch8pf.run (afterSysexit 2).beginInsn = .ok 0x90 s' := ⟨_, rfl⟩
  obtain ⟨s', hok⟩ := hok
  rw [hok]
  rintro ⟨-, res, hres, -⟩
  rw [hdenied] at hres
  cases hres

theorem sysexit_run : FetchRun false (afterSysexit 0x1000) := by
  have hfirst : FetchRun true (endState FetchOp.fetch8pf.run (kernelCpu 0x1000).beginInsn) :=
    .beginInsn (.cleared (kernelCpu_cleared 0x1000)) (kernelCpu_meets 0x1000) (Or.inl ⟨0x0f, rfl⟩)
  have hsecond : FetchRun true (atSysexit 0x1000) := by
    refine .fetch .fetch8 hfirst (by decide) ?_ (Or.inl ⟨0x35, rfl⟩)
    refine ⟨fun h => absurd h (by decide), fun h => absurd h (by decide), fun _ _ => .inl (by decide),
      fun _ => ⟨?_, fun h => absurd rfl h⟩, fun h => nomatch h⟩
    rintro ⟨-, h, -⟩
    cases h
  have htables : KeepsTables (atSysexit 0x1000) (afterSysexit 0x1000) :=
    ⟨rfl, rfl, rfl, rfl, rfl, rfl, fun _ _ => rfl, fun _ _ _ => rfl⟩
  exact .execute hsecond (htables.executes rfl rfl rfl)

theorem fetches_transparent_kernel :
    (afterSysexit 0x1000).cpl = 3 ∧ (afterSysexit 0x1000).ifetch.laddr = 0 ∧
      AsFetch (afterSysexit 0x1000).beginInsn .b8
        (FetchOp.fetch8pf.run (afterSysexit 0x1000).beginInsn) := by
  refine ⟨rfl, rfl, (fetches_transparent sysexit_run).1 ?_⟩
  exact ⟨fun h => absurd h (by decide), fun h => absurd h (by decide), fun h => absurd rfl h,
    fun h => absurd h.page (by decide), fun h => nomatch h⟩

end Winspire.Cpu
