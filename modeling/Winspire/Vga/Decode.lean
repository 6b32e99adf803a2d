import Winspire.Vga.Bus
import Winspire.Vga.WideWrites

/-!
# Decoding above the RAM

Addresses outside the linear framebuffers reach the legacy window: an access has no effect on the
adapter, whatever it holds, exactly when it misses that window.
-/

namespace Winspire.Vga

set_option autoImplicit false

open VgaState

section Missed
variable {s t : VgaState} {addr : Word}

theorem SameVideo.refl (s : VgaState) : SameVideo s s := ⟨rfl, rfl, rfl, rfl, rfl, rfl⟩

theorem SameVideo.trans {u : VgaState} (h : SameVideo s t) (h' : SameVideo t u) : SameVideo s u :=
  ⟨h.ram.trans h'.ram, h.mode13DirtyMin.trans h'.mode13DirtyMin,
    h.mode13DirtyMax.trans h'.mode13DirtyMax, h.planar640DirtyMin.trans h'.planar640DirtyMin,
    h.planar640DirtyMax.trans h'.planar640DirtyMax,
    h.planar640DirtyRows.trans h'.planar640DirtyRows⟩

theorem sameVideo_countWrite (s : VgaState) : SameVideo s.countWrite s := by
  unfold VgaState.countWrite
  split
  · exact ⟨rfl, rfl, rfl, rfl, rfl, rfl⟩
  · exact .refl s

structure SameDecode (s t : VgaState) : Prop where
  regs : s.regs = t.regs
  ramSize : s.ramSize = t.ramSize
  dirtyRender : s.dirtyRender = t.dirtyRender

theorem Alike.sameDecode (h : Alike s t) : SameDecode s t := ⟨h.regs, h.ramSize, h.dirtyRender⟩

theorem SameDecode.trans {u : VgaState} (h : SameDecode s t) (h' : SameDecode t u) :
    SameDecode s u :=
  ⟨h.regs.trans h'.regs, h.ramSize.trans h'.ramSize, h.dirtyRender.trans h'.dirtyRender⟩

theorem SameDecode.marksRow (h : SameDecode s t) (addr : Word) :
    s.MarksRow addr ↔ t.MarksRow addr := by
  unfold VgaState.MarksRow VgaState.lineOffset VgaState.startAddr
  rw [h.regs, h.dirtyRender]

theorem SameDecode.touches (h : SameDecode s t) (addr : Word) : s.Touches addr ↔ t.Touches addr := by
  unfold VgaState.Touches VgaState.MarksRow VgaState.lineOffset VgaState.startAddr
    VgaState.oddEvenAddr
  rw [h.regs, h.ramSize, h.dirtyRender]

theorem SameDecode.latches (h : SameDecode s t) (addr : Word) : s.Latches addr ↔ t.Latches addr := by
  unfold VgaState.Latches
  rw [h.regs, h.ramSize]

theorem dirtyPlanar640_idle (h : ¬s.MarksRow addr) : s.dirtyPlanar640 addr 4 = s := by
  unfold VgaState.MarksRow at h
  unfold VgaState.dirtyPlanar640
  simp only
  split
  · rfl
  · rename_i hbuild
    split
    · rfl
    · rename_i hline
      split
      · rfl
      · rename_i hstart
        generalize (if addr < s.startAddr then s.startAddr else addr) = a at *
        split
        · rfl
        · rename_i hfirst
          refine absurd ⟨?_, ?_, ?_, ?_⟩ h
          · exact Decidable.of_not_not fun hn => hbuild (.inl hn)
          · exact BitVec.not_lt.mp hline
          · exact BitVec.not_lt.mp hstart
          · exact BitVec.not_le.mp hfirst

theorem getLsbD_bytes (a b c d : Byte) (k : Nat) :
    (a ++ b ++ c ++ d).getLsbD k =
      if k < 8 then d.getLsbD k else if k < 16 then c.getLsbD (k - 8)
      else if k < 24 then b.getLsbD (k - 16) else a.getLsbD (k - 24) := by
  rw [BitVec.getLsbD_append, BitVec.getLsbD_append, BitVec.getLsbD_append]
  by_cases h8 : k < 8
  · rw [if_pos h8, if_pos h8]
  · rw [if_neg h8, if_neg h8]
    by_cases h16 : k < 16
    · rw [if_pos h16, if_pos (by omega)]
    · rw [if_neg h16, if_neg (by omega)]
      by_cases h24 : k < 24
      · rw [if_pos h24, if_pos (by omega), Nat.sub_sub]
      · rw [if_neg h24, if_neg (by omega), Nat.sub_sub, Nat.sub_sub]

theorem bytes32_append (a b c d : Byte) : bytes32 (a ++ b ++ c ++ d) = [d, c, b, a] := by
  have hbyte (w : Word) (k : Nat) (e : Byte) (h : ∀ j < 8, w.getLsbD (k + j) = e.getLsbD j) :
      (w >>> k).setWidth 8 = e := by
    apply BitVec.eq_of_getLsbD_eq
    intro j hj
    rw [BitVec.getLsbD_setWidth, BitVec.getLsbD_ushiftRight, h j hj, decide_eq_true hj]
    rfl
  have h0 := hbyte (a ++ b ++ c ++ d) 0 d fun j hj => by
    rw [getLsbD_bytes, if_pos (by omega), Nat.zero_add]
  have h8 := hbyte (a ++ b ++ c ++ d) 8 c fun j hj => by
    rw [getLsbD_bytes, if_neg (by omega), if_pos (by omega), Nat.add_sub_cancel_left]
  have h16 := hbyte (a ++ b ++ c ++ d) 16 b fun j hj => by
    rw [getLsbD_bytes, if_neg (by omega), if_neg (by omega), if_pos (by omega),
      Nat.add_sub_cancel_left]
  have h24 := hbyte (a ++ b ++ c ++ d) 24 a fun j hj => by
    rw [getLsbD_bytes, if_neg (by omega), if_neg (by omega), if_neg (by omega),
      Nat.add_sub_cancel_left]
  rw [BitVec.ushiftRight_zero] at h0
  unfold bytes32
  rw [h0, h8, h16, h24]

theorem putWord_getWord (s : VgaState) (i : Nat) (v : Word) :
    s.putWord i (s.getWord i &&& ~~~(0 : Word) ||| v &&& 0) = s := by
  have hword : s.getWord i &&& ~~~(0 : Word) ||| v &&& 0 = s.getWord i := by
    have hnone : v &&& (0 : Word) = 0 := BitVec.and_zero
    have hall : s.getWord i &&& ~~~(0 : Word) = s.getWord i := BitVec.and_allOnes
    rw [hnone, hall]
    exact BitVec.or_zero
  have hbytes : bytes32 (s.getWord i) = slice s.ram (4 * i) 4 := by
    unfold getWord
    rw [bytes32_append]
    rfl
  unfold VgaState.putWord
  rw [hword, hbytes]
  have hram : blit s.ram (4 * i) (slice s.ram (4 * i) 4) = s.ram := by
    funext k
    rw [blit_slice_apply]
    split
    · rename_i h
      rw [show 4 * i + (k - 4 * i) = k by omega]
    · rfl
  rw [hram]

theorem memWrite_missed (h : ¬s.Touches addr) (val : Byte) :
    memWrite addr val s = s.countWrite := by
  have hc := (Alike.countWrite s).sameDecode
  rw [← hc.touches] at h
  unfold VgaState.memWrite
  simp only
  generalize s.countWrite = t at *
  split
  · rename_i a hfast
    obtain ⟨hchain, hmap, hall, -, hlt⟩ := chain4Addr_mapAddr hfast
    refine absurd ⟨a, hmap, hlt, ?_⟩ h
    rw [if_pos hchain]
    exact planeEnabled_of_all hall a
  · split
    · rfl
    · rename_i o hmap
      split
      · rfl
      · rename_i hsize
        have hlt : o.toNat < t.ramSize := Nat.lt_of_not_le hsize
        split
        · rename_i hchain
          split
          · rename_i hplane
            exact absurd ⟨o, hmap, hlt, (if_pos hchain).mpr hplane⟩ h
          · rfl
        · rename_i hchain
          split
          · rename_i hodd
            unfold VgaState.writeOddEven
            simp only
            split
            · rename_i hplane
              split
              · rfl
              · rename_i hin
                refine absurd ⟨o, hmap, hlt, ?_⟩ h
                rw [if_neg hchain, if_pos hodd]
                exact ⟨hplane, Nat.lt_of_not_le hin⟩
            · rfl
          · rename_i hodd
            unfold VgaState.writeLatched
            simp only
            split
            · rfl
            · rename_i hin
              have hnone : ¬(t.regs.sr 2 ≠ 0 ∨ t.MarksRow (o * 4)) := by
                intro hsome
                refine h ⟨o, hmap, hlt, ?_⟩
                rw [if_neg hchain, if_neg hodd]
                exact ⟨Nat.lt_of_not_le hin, hsome⟩
              obtain ⟨hplanes, hmarks⟩ := not_or.mp hnone
              have hmask : mask16 (t.regs.sr 2).toNat = 0 := by
                rw [Decidable.of_not_not hplanes]
                rfl
              rw [dirtyPlanar640_idle hmarks, hmask]
              exact putWord_getWord t _ _

theorem memWrite_sameDecode (addr : Word) (val : Byte) (s : VgaState) :
    SameDecode (memWrite addr val s) s ∧ (memWrite addr val s).latch = s.latch := by
  have hmark (a len : Word) := (Alike.dirtyMode13 s.countWrite a len).trans (Alike.countWrite s)
  have hplanar (a len : Word) :=
    (Alike.dirtyPlanar640 s.countWrite a len).trans (Alike.countWrite s)
  have hput {t : VgaState} (h : Alike t s) (ram : Nat → Byte) :
      SameDecode { t with ram := ram } s ∧ ({ t with ram := ram } : VgaState).latch = s.latch :=
    ⟨⟨h.regs, h.ramSize, h.dirtyRender⟩, h.latch⟩
  have hsame : SameDecode s.countWrite s ∧ s.countWrite.latch = s.latch :=
    ⟨(Alike.countWrite s).sameDecode, (Alike.countWrite s).latch⟩
  unfold VgaState.memWrite
  simp only
  split
  · exact hput (hmark _ _) _
  · split
    · exact hsame
    · split
      · exact hsame
      · split
        · split
          · exact hput (hmark _ _) _
          · exact hsame
        · split
          · unfold VgaState.writeOddEven
            simp only
            split
            · split
              · exact hsame
              · exact hput (hplanar _ _) _
            · exact hsame
          · unfold VgaState.writeLatched
            simp only
            split
            · exact hsame
            · exact hput (hplanar _ _) _

theorem writeChain4_missed (hchain : s.regs.chain4 = true) (h : ¬s.Touches addr)
    (bytes : List Byte) : s.writeChain4 addr bytes = (false, s) := by
  unfold VgaState.writeChain4
  split
  · rfl
  · rename_i o hmap
    split
    · rfl
    · rename_i hin
      split
      · rename_i hplane
        have hlt : o.toNat < s.ramSize := by
          by_contra hge
          exact hin (.inr (.inl (Nat.le_of_not_lt hge)))
        exact absurd ⟨o, hmap, hlt, (if_pos hchain).mpr hplane⟩ h
      · rfl

theorem chain4Addr_missed (h : ¬s.Touches addr) (len : Word) : s.chain4Addr addr len = none := by
  cases hfast : s.chain4Addr addr len with
  | none => rfl
  | some a =>
    obtain ⟨hchain, hmap, hall, -, hlt⟩ := chain4Addr_mapAddr hfast
    exact absurd ⟨a, hmap, hlt, (if_pos hchain).mpr (planeEnabled_of_all hall a)⟩ h

/-- The planar shortcut writes where the first byte would be written. -/
theorem planarWrite_missed (h : ¬s.Touches addr) (buf : List Byte) :
    s.planarWrite addr buf = (false, s) := by
  unfold VgaState.planarWrite
  simp only
  split
  · rfl
  · split
    · rfl
    · rename_i hmode
      split
      · rfl
      · split
        · rfl
        · split
          · rfl
          · rename_i hplanes
            split
            · rfl
            · rename_i o hmap
              split
              · rfl
              · rename_i hin
                have hlt : o.toNat < s.ramSize / 4 := by
                  by_contra hge
                  exact hin (.inl (Nat.le_of_not_lt hge))
                refine absurd ⟨o, hmap, by omega, ?_⟩ h
                rw [if_neg fun hc => hmode (.inl hc), if_neg fun hc => hmode (.inr (.inl hc))]
                refine ⟨by omega, .inl fun hzero => hplanes ?_⟩
                rw [hzero]
                rfl

structure Quiet (s t : VgaState) : Prop where
  decode : SameDecode t s
  video : SameVideo t s

theorem quiet_countWrite (s : VgaState) : Quiet s s.countWrite :=
  ⟨(Alike.countWrite s).sameDecode, sameVideo_countWrite s⟩

theorem Quiet.write (hq : Quiet s t) (h : ¬s.Touches addr) (val : Byte) :
    Quiet s (memWrite addr val t) := by
  rw [← hq.decode.touches] at h
  rw [memWrite_missed h]
  have hc := quiet_countWrite t
  exact ⟨hc.decode.trans hq.decode, hc.video.trans hq.video⟩

theorem memWrite16_missed (h : ¬s.Touches addr)
    (hnext : s.regs.chain4 = false → ¬s.Touches (addr + 1)) (val : BitVec 16) :
    SameVideo (memWrite16 addr val s) s := by
  have hq := quiet_countWrite s
  have h' : ¬s.countWrite.Touches addr := by rwa [hq.decode.touches]
  unfold VgaState.memWrite16
  simp only
  rw [chain4Addr_missed h' 2]
  simp only
  split
  · rename_i hchain
    rw [writeChain4_missed hchain h']
    exact hq.video
  · rename_i hchain
    rw [hq.decode.regs] at hchain
    exact ((hq.write h _).write (hnext (Bool.eq_false_of_not_eq_true hchain)) _).video

theorem memWrite32_missed (h : ¬s.Touches addr)
    (hnext : s.regs.chain4 = false → ¬s.Touches (addr + 1) ∧ ¬s.Touches (addr + 2) ∧
      ¬s.Touches (addr + 3)) (val : Word) : SameVideo (memWrite32 addr val s) s := by
  have hq := quiet_countWrite s
  have h' : ¬s.countWrite.Touches addr := by rwa [hq.decode.touches]
  unfold VgaState.memWrite32
  simp only
  rw [chain4Addr_missed h' 4]
  simp only
  split
  · rename_i hchain
    rw [writeChain4_missed hchain h']
    exact hq.video
  · rename_i hchain
    rw [hq.decode.regs] at hchain
    obtain ⟨h1, h2, h3⟩ := hnext (Bool.eq_false_of_not_eq_true hchain)
    exact ((((hq.write h _).write h1 _).write h2 _).write h3 _).video

theorem memWriteString_missed (h : ¬s.Touches addr) (buf : List Byte) :
    SameVideo (memWriteString addr buf s).2 s := by
  have hq : Quiet s (if buf = [] then s else s.countWrite) := by
    split
    · exact ⟨⟨rfl, rfl, rfl⟩, .refl s⟩
    · exact quiet_countWrite s
  have h' : ¬(if buf = [] then s else s.countWrite).Touches addr := by rwa [hq.decode.touches]
  unfold VgaState.memWriteString
  simp only
  generalize (if buf = [] then s else s.countWrite) = t at *
  rw [chain4Addr_missed h', ite_self]
  simp only
  split
  · rename_i hchain
    rw [writeChain4_missed hchain h']
    exact hq.video
  · rw [planarWrite_missed h']
    exact hq.video

theorem memRead_missed (h : ¬s.Latches addr) : (s.memRead addr).2 = s := by
  unfold VgaState.memRead
  split
  · rfl
  · split
    · rfl
    · rename_i o hmap
      split
      · rfl
      · rename_i hsize
        split
        · rfl
        · rename_i hchain
          split
          · rfl
          · rename_i hodd
            split
            · rfl
            · rename_i hin
              exact absurd ⟨o, hmap, Nat.lt_of_not_le hsize, Bool.eq_false_of_not_eq_true hchain,
                Bool.eq_false_of_not_eq_true hodd, Nat.lt_of_not_le hin⟩ h

theorem memRead_latches (h : s.Latches addr) :
    ∃ i, (s.memRead addr).2 = { s with latch := s.getWord i } := by
  obtain ⟨o, hmap, hsize, hchain, hodd, hin⟩ := h
  refine ⟨o.toNat, ?_⟩
  unfold VgaState.memRead
  rw [chain4Addr_none (by rw [hchain]; decide)]
  simp only [hmap, hchain, hodd]
  rw [if_neg (Nat.not_le.mpr hsize), if_neg (by decide), if_neg (by decide),
    if_neg (Nat.not_le.mpr hin)]

end Missed

namespace Pc
variable {pc pc' : Pc} {addr : Word}

theorem SameWiring.pciVgaAddr (h : pc.SameWiring pc') (addr : Word) :
    pc.pciVgaAddr addr = pc'.pciVgaAddr addr := by
  unfold Pc.pciVgaAddr
  rw [h.pciVgaRamAddr, h.ramSize]

theorem SameWiring.decode (h : pc.SameWiring pc') : SameDecode pc.vga pc'.vga :=
  ⟨h.regs, h.ramSize, h.dirtyRender⟩

theorem inIomem_high (h : 0xe0000000 ≤ addr) : inIomem addr = true := by
  have hlow : ¬addr < 0xa0000 := by
    rw [BitVec.not_lt]
    exact BitVec.le_trans (by decide) h
  unfold inIomem
  rw [if_neg hlow, decide_eq_true h, Bool.or_true]

theorem inIomem_alias (h : biosAliasBase ≤ addr) : inIomem (mapBiosAlias addr) = false := by
  unfold mapBiosAlias
  rw [if_pos h]
  have hand : (addr &&& 0x000fffff).toNat = addr.toNat % 2 ^ 20 := by
    rw [BitVec.toNat_and]
    exact Nat.and_two_pow_sub_one_eq_mod addr.toNat 20
  have hle : 0xfffe0000 ≤ addr.toNat := h
  have hlt := addr.isLt
  unfold inIomem
  rw [if_neg (by rw [BitVec.not_lt, BitVec.le_def, hand]; show 0xa0000 ≤ _; omega)]
  rw [Bool.or_eq_false_iff, decide_eq_false_iff_not, decide_eq_false_iff_not]
  constructor
  · rw [BitVec.not_lt, BitVec.le_def, hand]
    show 0xc0000 ≤ _
    omega
  · rw [BitVec.not_le, BitVec.lt_def, hand]
    show _ < 0xe0000000
    omega

theorem iomemRead8_missed (h : pc.pciVgaAddr addr = none → ¬pc.vga.Latches (addr - 0xa0000)) :
    (iomemRead8 addr pc).2 = pc := by
  unfold iomemRead8
  cases hwin : pc.pciVgaAddr addr with
  | some offset => rfl
  | none =>
    simp only
    rw [memRead_missed (h hwin)]

theorem iomemRead16_snd (addr : Word) (pc : Pc) :
    (iomemRead16 addr pc).2 = (iomemRead8 (addr + 1) (iomemRead8 addr pc).2).2 := by
  unfold iomemRead16
  rfl

theorem iomemRead32_snd (addr : Word) (pc : Pc) :
    (iomemRead32 addr pc).2 = (iomemRead16 (addr + 2) (iomemRead16 addr pc).2).2 := by
  unfold iomemRead32
  rfl

theorem Misses.first (h : pc.Misses addr) : ¬pc.vga.Touches (addr - 0xa0000) := by
  cases hchain : pc.vga.regs.chain4 with
  | true => exact h.chain4 hchain
  | false =>
    have hzero := h.planes hchain 0 (by decide)
    rwa [BitVec.add_zero] at hzero

/-- An access that misses the legacy window leaves the adapter alone. -/
theorem Misses.exclusive (h : pc.Misses addr) (hhigh : 0xe0000000 ≤ addr)
    (hout : pc.pciVgaAddr addr = none) : pc.Exclusive addr := by
  have hio := inIomem_high hhigh
  have hread (i : Nat) (hi : i < 4) (hlow : addr < biosAliasBase) :
      (iomemRead8 (addr + BitVec.ofNat 32 i) pc).2 = pc :=
    iomemRead8_missed (h.loads hlow i hi)
  have hread0 (hlow : addr < biosAliasBase) : (iomemRead8 addr pc).2 = pc := by
    have h0 := hread 0 (by decide) hlow
    rwa [BitVec.add_zero] at h0
  have hthree : addr + 2 + 1 = addr + BitVec.ofNat 32 3 := BitVec.add_assoc addr 2 1
  -- a load from the alias of the BIOS does not get to the adapter
  have halias (hlow : ¬addr < biosAliasBase) : inIomem (mapBiosAlias addr) = false :=
    inIomem_alias (BitVec.not_lt.mp hlow)
  have hmap (hlow : addr < biosAliasBase) : mapBiosAlias addr = addr :=
    if_neg (BitVec.not_le.mpr hlow)
  refine ⟨fun val => ?_, fun val => ?_, fun val => ?_, fun buf => ?_, ?_, ?_, ?_⟩
  · unfold store8 iomemWrite8
    rw [if_pos hio, hout]
    simp only
    rw [memWrite_missed h.first]
    exact sameVideo_countWrite _
  · unfold store16 iomemWrite16
    rw [if_pos hio, hout]
    exact memWrite16_missed h.first (fun hchain => h.planes hchain 1 (by decide)) val
  · unfold store32 iomemWrite32
    rw [if_pos hio, hout]
    exact memWrite32_missed h.first (fun hchain => ⟨h.planes hchain 1 (by decide),
      h.planes hchain 2 (by decide), h.planes hchain 3 (by decide)⟩) val
  · unfold storeString
    split
    · rw [iomemWriteString_window hout]
      exact memWriteString_missed h.first buf
    · exact .refl _
  · unfold load8
    simp only
    by_cases hlow : addr < biosAliasBase
    · rw [hmap hlow, if_pos hio]
      simp only
      rw [hread0 hlow]
    · rw [halias hlow]
      rfl
  · unfold load16
    simp only
    by_cases hlow : addr < biosAliasBase
    · rw [hmap hlow, if_pos hio]
      simp only
      rw [iomemRead16_snd, hread0 hlow]
      exact congrArg (fun q : Pc => q.vga.latch) (hread 1 (by decide) hlow)
    · rw [halias hlow]
      rfl
  · unfold load32
    simp only
    by_cases hlow : addr < biosAliasBase
    · rw [hmap hlow, if_pos hio]
      have h1 : (iomemRead8 (addr + 1) pc).2 = pc := hread 1 (by decide) hlow
      have h2 : (iomemRead8 (addr + 2) pc).2 = pc := hread 2 (by decide) hlow
      simp only
      rw [iomemRead32_snd, iomemRead16_snd, iomemRead16_snd, hread0 hlow, h1, h2, hthree,
        hread 3 (by decide) hlow]
    · rw [halias hlow]
      rfl

end Pc

section Hit
variable {s t : VgaState} {addr : Word}

/-- The memory is not all `b`, or a row was marked. -/
def Changed (b : Byte) (t : VgaState) : Prop :=
  (∃ k, t.ram k ≠ b) ∨ t.planar640DirtyMin < 1000

theorem Changed.countWrite {b : Byte} (h : Changed b t) : Changed b t.countWrite := by
  have hc := sameVideo_countWrite t
  rcases h with ⟨k, hk⟩ | hmin
  · left
    refine ⟨k, ?_⟩
    rw [hc.ram]
    exact hk
  · right
    rw [hc.planar640DirtyMin]
    exact hmin

theorem Changed.not_sameVideo {b : Byte} (h : Changed b t) (hram : s.ram = fun _ => b)
    (hmin : s.planar640DirtyMin = 1000) : ¬SameVideo t s := by
  intro hsame
  rcases h with ⟨k, hk⟩ | hlt
  · rw [hsame.ram, hram] at hk
    exact hk rfl
  · rw [hsame.planar640DirtyMin, hmin] at hlt
    omega

theorem exists_plane : ∀ n < 16, n ≠ 0 → ∃ p < 4, ((mask16 n) >>> (8 * p)).setWidth 8 = 0xff#8 := by
  decide

theorem fourPlanes_lt (h : FourPlanes s.regs) : (s.regs.sr 2).toNat < 16 := by
  rw [← h, BitVec.toNat_and]
  exact Nat.lt_of_le_of_lt Nat.and_le_right (by decide)

/-- The byte of a plane that is written comes from the new word. -/
theorem plane_byte {mask old v : Word} {p : Nat}
    (hp : (mask >>> (8 * p)).setWidth 8 = 0xff#8) :
    ((old &&& ~~~mask ||| v &&& mask) >>> (8 * p)).setWidth 8 = (v >>> (8 * p)).setWidth 8 := by
  apply BitVec.eq_of_getLsbD_eq
  intro j hj
  have hbit := congrArg (fun b : Byte => b.getLsbD j) hp
  simp only [BitVec.getLsbD_setWidth, BitVec.getLsbD_ushiftRight, hj, decide_true,
    Bool.true_and] at hbit ⊢
  have hone : (0xff#8).getLsbD j = true := by
    interval_cases j <;> rfl
  rw [hone] at hbit
  simp [hbit]

theorem putWord_ram (t : VgaState) (i : Nat) (w : Word) {p : Nat} (hp : p < 4) :
    (t.putWord i w).ram (4 * i + p) = (w >>> (8 * p)).setWidth 8 := by
  unfold VgaState.putWord
  simp only
  rw [blit_apply_add _ _ _ (show p < (bytes32 w).length from hp)]
  unfold bytes32
  interval_cases p <;> simp

theorem byte_ne_not : ∀ b : Byte, b ≠ ~~~b := by
  decide

theorem latchedValue_congr (hregs : t.regs = s.regs) (hlatch : t.latch = s.latch) (val : Byte) :
    t.latchedValue val = s.latchedValue val := by
  unfold VgaState.latchedValue
  rw [hregs, hlatch]

theorem dirtyPlanar640_min (h : s.MarksRow addr) :
    (s.dirtyPlanar640 addr 4).planar640DirtyMin < 1000 := by
  obtain ⟨hbuild, hline, hstart, hfirst⟩ := h
  unfold VgaState.dirtyPlanar640
  simp only
  rw [if_neg (by rw [hbuild]; decide), if_neg (BitVec.not_lt.mpr hline),
    if_neg (BitVec.not_lt.mpr hstart), if_neg (BitVec.not_le.mpr hfirst)]
  have hlt : ((((if addr < s.startAddr then s.startAddr else addr) - s.startAddr) /
      s.lineOffset) >>> 1).toNat < 240 := hfirst
  simp only
  omega

theorem memWrite_chain4_ram (hchain : s.regs.chain4 = true) (h : s.Touches addr) (val : Byte) :
    ∃ k, (memWrite addr val s).ram k = val := by
  obtain ⟨o, hmap, hsize, hplane⟩ := h
  rw [if_pos hchain] at hplane
  have htarget : target s addr = some o := by
    unfold target
    rw [hmap, Option.filter_some, decide_eq_true hsize, hplane]
    rfl
  refine ⟨o.toNat, ?_⟩
  have halike := memWrite_chain4 hchain addr val
  rw [htarget] at halike
  rw [halike.ram]
  exact blit_apply_add s.ram o.toNat [val] (show 0 < [val].length from Nat.one_pos)

theorem memWrite_mapped {o : Word} (hchain : s.regs.chain4 = false)
    (hmap : s.regs.mapAddr addr = some o) (hsize : o.toNat < s.ramSize) (val : Byte) :
    memWrite addr val s = if (s.regs.gr 5).getLsbD 4 then s.countWrite.writeOddEven o val
      else s.countWrite.writeLatched o val := by
  have hc := Alike.countWrite s
  have hno : ¬s.regs.chain4 = true := by
    rw [hchain]
    decide
  unfold VgaState.memWrite
  simp only
  rw [hc.chain4Addr, chain4Addr_none hno, hc.regs, hmap, hc.ramSize]
  simp only
  rw [if_neg (Nat.not_le.mpr hsize), if_neg hno]

/-- A zero written where the adapter answers is seen in a memory of some other byte. -/
theorem touch_changes (hfour : FourPlanes s.regs) (hchain : s.regs.chain4 = false)
    (h : s.Touches addr) :
    ∃ b, ∀ t, SameDecode t s → t.latch = 0 → Changed b (memWrite addr 0 t) := by
  obtain ⟨o, hmap, hsize, hcase⟩ := h
  rw [if_neg (by rw [hchain]; decide)] at hcase
  by_cases hodd : (s.regs.gr 5).getLsbD 4 = true
  · rw [if_pos hodd] at hcase
    obtain ⟨hplane, hin⟩ := hcase
    refine ⟨1, fun t ht _ => .inl ⟨(s.oddEvenAddr o).toNat, ?_⟩⟩
    have hc := (Alike.countWrite t).sameDecode.trans ht
    rw [← ht.regs] at hmap hodd hchain
    rw [← ht.ramSize] at hsize
    rw [← hc.regs] at hplane
    rw [← hc.ramSize] at hin
    rw [memWrite_mapped hchain hmap hsize, if_pos hodd]
    unfold VgaState.writeOddEven
    simp only
    have haddr : (o &&& ~~~1) <<< 1 ||| ((t.countWrite.regs.gr 4 &&& 2).setWidth 32 ||| o &&& 1) =
        s.oddEvenAddr o := by
      rw [hc.regs]
      rfl
    rw [if_pos hplane, haddr, if_neg (Nat.not_le.mpr hin)]
    have hcell := blit_apply_add (t.countWrite.dirtyPlanar640 (s.oddEvenAddr o) 1).ram
      (s.oddEvenAddr o).toNat [(0 : Byte)] (show 0 < [(0 : Byte)].length from Nat.one_pos)
    rw [Nat.add_zero] at hcell
    unfold VgaState.put
    simp only
    rw [hcell]
    decide
  · rw [if_neg hodd] at hcase
    obtain ⟨hin, hseen⟩ := hcase
    have hwrite (t : VgaState) (ht : SameDecode t s) (hlatch : t.latch = 0) :
        memWrite addr 0 t = (t.countWrite.dirtyPlanar640 (o * 4) 4).putWord o.toNat
          (t.countWrite.getWord o.toNat &&& ~~~mask16 (s.regs.sr 2).toNat |||
            ({ s with latch := 0 } : VgaState).latchedValue 0 &&&
              mask16 (s.regs.sr 2).toNat) := by
      have hc := (Alike.countWrite t).sameDecode.trans ht
      have hvalue := latchedValue_congr (s := { s with latch := 0 }) hc.regs
        ((Alike.countWrite t).latch.trans hlatch) 0
      rw [← ht.regs] at hmap hodd hchain
      rw [← ht.ramSize] at hsize
      rw [← hc.ramSize] at hin
      rw [memWrite_mapped hchain hmap hsize, if_neg hodd]
      unfold VgaState.writeLatched
      simp only
      rw [if_neg (Nat.not_le.mpr hin), hvalue, hc.regs]
    by_cases hplanes : s.regs.sr 2 = 0
    · -- no plane is written, and still the row is marked
      have hmarks := hseen.resolve_left fun hne => hne hplanes
      refine ⟨0, fun t ht hlatch => .inr ?_⟩
      have hc := (Alike.countWrite t).sameDecode.trans ht
      rw [hwrite t ht hlatch]
      apply dirtyPlanar640_min
      exact (hc.marksRow _).mpr hmarks
    · have hne : (s.regs.sr 2).toNat ≠ 0 := fun hz => hplanes (BitVec.eq_of_toNat_eq hz)
      obtain ⟨p, hp, hmask⟩ := exists_plane _ (fourPlanes_lt hfour) hne
      refine ⟨~~~((({ s with latch := 0 } : VgaState).latchedValue 0) >>> (8 * p)).setWidth 8,
        fun t ht hlatch => .inl ⟨4 * o.toNat + p, ?_⟩⟩
      rw [hwrite t ht hlatch, putWord_ram _ _ _ hp, plane_byte hmask]
      exact byte_ne_not _

/-- Zeros at `n` successive addresses. -/
def zeroed (addr : Word) (s : VgaState) : Nat → VgaState
  | 0 => s
  | n + 1 => memWrite (addr + BitVec.ofNat 32 n) 0 (zeroed addr s n)

theorem memWrite32_zeroed (hno : ¬s.countWrite.regs.chain4 = true) :
    memWrite32 addr 0 s = zeroed addr s.countWrite 4 := by
  have hfirst : addr + BitVec.ofNat 32 0 = addr := BitVec.add_zero addr
  unfold VgaState.memWrite32
  simp only
  rw [chain4Addr_none hno]
  simp only
  rw [if_neg hno]
  unfold zeroed zeroed zeroed zeroed zeroed
  rw [hfirst]
  rfl

theorem zeroed_sameDecode (addr : Word) (s : VgaState) (n : Nat) :
    SameDecode (zeroed addr s n) s ∧ (zeroed addr s n).latch = s.latch := by
  induction n with
  | zero => exact ⟨⟨rfl, rfl, rfl⟩, rfl⟩
  | succ n ih =>
    obtain ⟨hdecode, hlatch⟩ := memWrite_sameDecode (addr + BitVec.ofNat 32 n) 0 (zeroed addr s n)
    exact ⟨hdecode.trans ih.1, hlatch.trans ih.2⟩

/-- The last byte the adapter answers to decides what is seen: a later one is counted only. -/
theorem zeroed_seen (hfour : FourPlanes s.regs) (hchain : s.regs.chain4 = false) (n : Nat)
    (h : ∃ i < n, s.Touches (addr + BitVec.ofNat 32 i)) :
    ∃ b, ∀ t, SameDecode t s → t.latch = 0 → Changed b (zeroed addr t n) := by
  induction n with
  | zero =>
    obtain ⟨i, hi, -⟩ := h
    exact absurd hi (Nat.not_lt_zero i)
  | succ n ih =>
    by_cases hlast : s.Touches (addr + BitVec.ofNat 32 n)
    · obtain ⟨b, hb⟩ := touch_changes hfour hchain hlast
      refine ⟨b, fun t ht hlatch => ?_⟩
      obtain ⟨hdecode, hkept⟩ := zeroed_sameDecode addr t n
      exact hb _ (hdecode.trans ht) (hkept.trans hlatch)
    · obtain ⟨i, hi, htouch⟩ := h
      have hlt : i < n := by
        rcases Nat.lt_succ_iff_lt_or_eq.mp hi with hlt | heq
        · exact hlt
        · rw [heq] at htouch
          exact absurd htouch hlast
      obtain ⟨b, hb⟩ := ih ⟨i, hlt, htouch⟩
      refine ⟨b, fun t ht hlatch => ?_⟩
      rw [← ((zeroed_sameDecode addr t n).1.trans ht).touches] at hlast
      have hstep : zeroed addr t (n + 1) = (zeroed addr t n).countWrite := memWrite_missed hlast 0
      rw [hstep]
      exact (hb t ht hlatch).countWrite

end Hit

namespace Pc
variable {pc pc' : Pc} {addr : Word}

theorem Misses.congr (h : pc.Misses addr) (hsame : pc'.SameWiring pc) : pc'.Misses addr where
  chain4 hchain := by
    rw [hsame.regs] at hchain
    rw [hsame.decode.touches]
    exact h.chain4 hchain
  planes hchain i hi := by
    rw [hsame.regs] at hchain
    rw [hsame.decode.touches]
    exact h.planes hchain i hi
  loads hlow i hi hwin := by
    rw [hsame.pciVgaAddr] at hwin
    rw [hsame.decode.latches]
    exact h.loads hlow i hi hwin

/-- The same machine over a memory of one byte, with no latch and no mark. -/
def probe (pc : Pc) (b : Byte) : Pc :=
  { pc with vga := { pc.vga with ram := fun _ => b, latch := 0, planar640DirtyMin := 1000 } }

theorem probe_wiring (pc : Pc) (b : Byte) : (pc.probe b).SameWiring pc := ⟨rfl, rfl, rfl, rfl⟩

theorem store8_seen (hio : inIomem addr = true) (hout : pc.pciVgaAddr addr = none)
    (hchain : pc.vga.regs.chain4 = true) (h : pc.vga.Touches (addr - 0xa0000)) :
    ¬SameVideo ((pc.probe 0).store8 addr 1).vga (pc.probe 0).vga := by
  have hwire := pc.probe_wiring 0
  rw [← hwire.pciVgaAddr] at hout
  rw [← hwire.decode.touches] at h
  obtain ⟨k, hk⟩ := memWrite_chain4_ram (s := (pc.probe 0).vga) hchain h 1
  unfold store8 iomemWrite8
  rw [if_pos hio, hout]
  intro hsame
  have hzero : (memWrite (addr - 0xa0000) 1 (pc.probe 0).vga).ram k = 0 := congrFun hsame.ram k
  rw [hk] at hzero
  exact absurd hzero (by decide)

/-- A store of four zeros is seen where its last byte that the adapter answers to is. -/
theorem store32_seen (hio : inIomem addr = true) (hout : pc.pciVgaAddr addr = none)
    (hfour : FourPlanes pc.vga.regs) (hchain : pc.vga.regs.chain4 = false) {i : Nat} (hi : i < 4)
    (h : pc.vga.Touches (addr - 0xa0000 + BitVec.ofNat 32 i)) :
    ∃ b, ¬SameVideo ((pc.probe b).store32 addr 0).vga (pc.probe b).vga := by
  obtain ⟨b, hb⟩ := zeroed_seen hfour hchain 4 ⟨i, hi, h⟩
  refine ⟨b, ?_⟩
  have hwire := pc.probe_wiring b
  rw [← hwire.pciVgaAddr] at hout
  have hfinal : ((pc.probe b).store32 addr 0).vga =
      zeroed (addr - 0xa0000) (pc.probe b).vga.countWrite 4 := by
    have hno : ¬(pc.probe b).vga.countWrite.regs.chain4 = true := by
      rw [(Alike.countWrite _).regs, hwire.regs, hchain]
      decide
    unfold store32 iomemWrite32
    rw [if_pos hio, hout]
    exact memWrite32_zeroed hno
  have hc := Alike.countWrite (pc.probe b).vga
  rw [hfinal]
  exact (hb _ (hc.sameDecode.trans hwire.decode) hc.latch).not_sameVideo rfl rfl

/-- The decoding of `pc` over a memory of ones. -/
structure Ones (pc q : Pc) : Prop where
  wiring : q.SameWiring pc
  ram : q.vga.ram = fun _ => 1

def Loaded (q : Pc) : Prop := q.vga.latch = 0x01010101

theorem iomemRead8_cases (addr : Word) (q : Pc) :
    (iomemRead8 addr q).2 = q ∨
      ∃ i, (iomemRead8 addr q).2 = { q with vga := { q.vga with latch := q.vga.getWord i } } := by
  by_cases h : q.pciVgaAddr addr = none ∧ q.vga.Latches (addr - 0xa0000)
  · right
    obtain ⟨hwin, hl⟩ := h
    obtain ⟨i, hi⟩ := memRead_latches hl
    refine ⟨i, ?_⟩
    unfold iomemRead8
    rw [hwin]
    simp only
    rw [hi]
  · exact .inl (iomemRead8_missed fun hwin hl => h ⟨hwin, hl⟩)

theorem Ones.getWord {q : Pc} (h : Ones pc q) (i : Nat) : q.vga.getWord i = 0x01010101 := by
  unfold VgaState.getWord
  have hbytes : (1 : Byte) ++ (1 : Byte) ++ (1 : Byte) ++ (1 : Byte) = (0x01010101 : Word) := by
    decide
  rw [h.ram]
  exact hbytes

theorem Ones.read {q : Pc} (h : Ones pc q) (addr : Word) : Ones pc (iomemRead8 addr q).2 := by
  rcases iomemRead8_cases addr q with hsame | ⟨i, hload⟩
  · rw [hsame]
    exact h
  · rw [hload]
    exact ⟨⟨h.wiring.regs, h.wiring.ramSize, h.wiring.dirtyRender, h.wiring.pciVgaRamAddr⟩, h.ram⟩

theorem Ones.loaded {q : Pc} (h : Ones pc q) (hl : q.Loaded) (addr : Word) :
    (iomemRead8 addr q).2.Loaded := by
  rcases iomemRead8_cases addr q with hsame | ⟨i, hload⟩
  · rw [hsame]
    exact hl
  · rw [hload]
    exact h.getWord i

theorem Ones.loads {q : Pc} (h : Ones pc q) (hwin : pc.pciVgaAddr addr = none)
    (hl : pc.vga.Latches (addr - 0xa0000)) : (iomemRead8 addr q).2.Loaded := by
  rw [← h.wiring.pciVgaAddr] at hwin
  rw [← h.wiring.decode.latches] at hl
  obtain ⟨i, hi⟩ := memRead_latches hl
  unfold iomemRead8
  rw [hwin]
  simp only
  rw [hi]
  exact h.getWord i

theorem load32_seen (hlow : addr < biosAliasBase) (hio : inIomem addr = true) {i : Nat} (hi : i < 4)
    (hwin : pc.pciVgaAddr (addr + BitVec.ofNat 32 i) = none)
    (hl : pc.vga.Latches (addr + BitVec.ofNat 32 i - 0xa0000)) :
    ((pc.probe 1).load32 addr).2.Loaded := by
  have h0 : Ones pc (pc.probe 1) := ⟨pc.probe_wiring 1, rfl⟩
  have h1 := h0.read addr
  have h2 := h1.read (addr + 1)
  have h3 := h2.read (addr + 2)
  have hmap : mapBiosAlias addr = addr := if_neg (BitVec.not_le.mpr hlow)
  unfold load32
  simp only
  rw [hmap, if_pos hio]
  simp only
  rw [iomemRead32_snd, iomemRead16_snd, iomemRead16_snd]
  interval_cases i
  · rw [BitVec.add_zero] at hwin hl
    exact h3.loaded (h2.loaded (h1.loaded (h0.loads hwin hl) _) _) _
  · exact h3.loaded (h2.loaded (h1.loads hwin hl) _) _
  · exact h3.loaded (h2.loads hwin hl) _
  · rw [show addr + 2 + 1 = addr + BitVec.ofNat 32 3 from BitVec.add_assoc addr 2 1]
    exact h3.loads hwin hl

end Pc

/-- Whatever the memory, the latch and the marks are, an access above the RAM and outside the
framebuffers leaves them, exactly when it misses the legacy window. -/
theorem exclusive_iff_misses (pc : Pc) (hr : Reached pc.vga.ramSize pc.vga.regs) (addr : Word)
    (hhigh : 0xe0000000 ≤ addr) (hout : pc.pciVgaAddr addr = none) :
    (∀ pc' : Pc, pc'.SameWiring pc → pc'.Exclusive addr) ↔ pc.Misses addr := by
  have hio := Pc.inIomem_high hhigh
  constructor
  · intro h
    refine ⟨fun hchain htouch => ?_, fun hchain i hi htouch => ?_, fun hlow i hi hwin hl => ?_⟩
    · exact Pc.store8_seen hio hout hchain htouch ((h _ (pc.probe_wiring 0)).store8 1)
    · obtain ⟨b, hb⟩ := Pc.store32_seen hio hout hr.fourPlanes hchain hi htouch
      exact hb ((h _ (pc.probe_wiring b)).store32 0)
    · have hkept := (h _ (pc.probe_wiring 1)).load32
      have hloaded : ((pc.probe 1).load32 addr).2.vga.latch = 0x01010101 :=
        Pc.load32_seen hlow hio hi hwin hl
      have hne : (0x01010101 : Word) ≠ 0 := by decide
      exact hne (hloaded.symm.trans hkept)
  · intro h pc' hsame
    rw [← hsame.pciVgaAddr] at hout
    exact (h.congr hsame).exclusive hhigh hout

/-- In text mode the window is its last 32 KiB, and the local APIC is below them. -/
theorem exclusive_iff_misses_powerOn : powerOn.Exclusive 0xfee00000 := by
  apply (exclusive_iff_misses powerOn .init 0xfee00000 (by decide) rfl).mpr
  · have hmap (i : Nat) (hi : i < 4) :
        powerOn.vga.regs.mapAddr ((0xfee00000 : Word) - 0xa0000 + BitVec.ofNat 32 i) = none := by
      interval_cases i <;> rfl
    refine ⟨fun hchain => absurd hchain (by decide), fun _ i hi => ?_, fun _ i hi _ => ?_⟩
    · rintro ⟨o, ho, -⟩
      rw [hmap i hi] at ho
      exact absurd ho (by simp)
    · rintro ⟨o, -, -, -, hodd, -⟩
      exact absurd hodd (by decide)
  · exact ⟨rfl, rfl, rfl, rfl⟩

/-- The window at its start, still with odd and even planes. -/
def graphicsOn : Pc :=
  { powerOn with
    vga := { powerOn.vga with
      regs := ((VgaRegs.init 262144).ioportWrite 0x3ce 6).ioportWrite 0x3cf 5 } }

/-- A store to the local APIC, or to the alias of the BIOS, is a store to 0xa0000. -/
theorem not_exclusive_graphicsOn :
    ¬∀ (pc : Pc) (addr : Word), Reached pc.vga.ramSize pc.vga.regs → 0xe0000000 ≤ addr →
      pc.pciVgaAddr addr = none → pc.Exclusive addr := by
  intro h
  have hr : Reached 262144 (((VgaRegs.init 262144).ioportWrite 0x3ce 6).ioportWrite 0x3cf 5) :=
    .ioport _ _ (.ioport _ _ .init)
  have hkept := ((h graphicsOn 0xfee00000 hr (by decide) rfl).store8 0x41).ram
  have hcell : (graphicsOn.store8 0xfee00000 0x41).vga.ram 0 = 0x41 := rfl
  have hzero : graphicsOn.vga.ram 0 = 0 := rfl
  rw [hkept, hzero] at hcell
  exact absurd hcell (by decide)

end Winspire.Vga
