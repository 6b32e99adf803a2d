import Winspire.Vga.VbeScale

/-!
# Runs of the scaled renderer

A call that forces an update draws what the general renderer would draw. After 64 refreshes in a
row one of them was forced, and the rows that later ones draw again have not changed.
-/

namespace Winspire.Vga

set_option autoImplicit false

namespace Display

/-- The memory, the palette and the mode registers are the same. -/
structure SameSource (s t : Display) : Prop where
  ram : t.vga.ram = s.vga.ram
  ramSize : t.vga.ramSize = s.vga.ramSize
  mode : ∀ i, 1 ≤ i → i ≤ 4 → t.vga.regs.vbeRegs i = s.vga.regs.vbeRegs i
  startAddr : t.vga.regs.vbeStartAddr = s.vga.regs.vbeStartAddr
  lineOffset : t.vga.regs.vbeLineOffset = s.vga.regs.vbeLineOffset
  palette : t.palette = s.palette
  dac8bit : t.dac8bit = s.dac8bit

/-- What the scaled renderer makes of the pixel at `x` and `y` of the panel. -/
def vbePicture (s : Display) (x y : Nat) : Pixel := s.vbeFrame.2.vbeAverage s.vbeFrame.1 x y

variable {s t u : Display} {f : Frame} {full : Bool}

theorem SameSource.refl (s : Display) : s.SameSource s :=
  ⟨rfl, rfl, fun _ _ _ => rfl, rfl, rfl, rfl, rfl⟩

theorem SameSource.symm (h : s.SameSource t) : t.SameSource s :=
  ⟨h.ram.symm, h.ramSize.symm, fun i h1 h4 => (h.mode i h1 h4).symm, h.startAddr.symm,
    h.lineOffset.symm, h.palette.symm, h.dac8bit.symm⟩

theorem SameSource.trans (h : s.SameSource t) (h' : t.SameSource u) : s.SameSource u where
  ram := h'.ram.trans h.ram
  ramSize := h'.ramSize.trans h.ramSize
  mode i h1 h4 := (h'.mode i h1 h4).trans (h.mode i h1 h4)
  startAddr := h'.startAddr.trans h.startAddr
  lineOffset := h'.lineOffset.trans h.lineOffset
  palette := h'.palette.trans h.palette
  dac8bit := h'.dac8bit.trans h.dac8bit

/-- Only the palette of the renderers changes before a frame is drawn. -/
theorem updatePalette_snd (s : Display) (n : Nat) (v : Nat → Nat) :
    ∃ p, (s.updatePalette n v).2 = { s with graphicPalette := p } := ⟨_, rfl⟩

theorem vbeFrame_snd (s : Display) : ∃ p, s.vbeFrame.2 = { s with graphicPalette := p } := by
  unfold vbeFrame
  by_cases h : (s.vga.regs.vbeRegs 3).toNat = 8
  · simp only [if_pos h]
    exact s.updatePalette_snd 256 _
  · simp only [if_neg h]
    exact ⟨s.graphicPalette, rfl⟩

theorem vbeFrame_palette (h : (s.vga.regs.vbeRegs 3).toNat = 8) {i : Nat} (hi : i < 256) :
    s.vbeFrame.2.graphicPalette i = (s.dacToRgb565 (3 * i)).setWidth 32 := by
  unfold vbeFrame
  simp only [if_pos h]
  exact if_pos hi

theorem lcdVbePixel_congr {bpp : Nat} (hram : t.vga.ram = s.vga.ram)
    (hpalette : bpp = 8 → ∀ i < 256, t.graphicPalette i = s.graphicPalette i) (a : Nat) :
    t.lcdVbePixel a bpp = s.lcdVbePixel a bpp := by
  unfold lcdVbePixel
  rw [hram]
  split
  · rw [hpalette rfl _ (s.vga.ram a).isLt]
  all_goals rfl

theorem vbeAverage_congr {g : Frame} (hstart : g.startAddr = f.startAddr)
    (hline : g.lineOffset = f.lineOffset) (hbpp : g.bpp = f.bpp)
    (hpixel : ∀ a, t.lcdVbePixel a f.bpp = s.lcdVbePixel a f.bpp) (x y : Nat) :
    t.vbeAverage g x y = s.vbeAverage f x y := by
  unfold vbeAverage Frame.row1 Frame.row0 Frame.srcBase Frame.bytesPerPixel
  rw [hstart, hline, hbpp]
  simp only [hpixel]

theorem SameSource.picture (h : s.SameSource t) : t.vbePicture = s.vbePicture := by
  have h3 := h.mode 3 (by decide) (by decide)
  obtain ⟨p, hs⟩ := s.vbeFrame_snd
  obtain ⟨q, ht⟩ := t.vbeFrame_snd
  funext x y
  apply vbeAverage_congr h.startAddr h.lineOffset (congrArg BitVec.toNat h3)
  apply lcdVbePixel_congr
  · rw [hs, ht]
    exact h.ram
  · intro h8 i hi
    rw [vbeFrame_palette h8 hi, vbeFrame_palette ((congrArg BitVec.toNat h3).trans h8) hi]
    unfold dacToRgb565
    rw [h.palette, h.dac8bit]

/-- The rows drawn show the picture, and all are drawn where the update is forced. -/
theorem Serves.vbeRows (h : s.Serves f) (force : Bool) :
    ∃ R : Nat → Prop, (force = true → ∀ y < 240, R y) ∧
      lcd.Paints (fun x y => [s.vbeAverage f x y]) (fun _ y => R y) s.fbDev.data
        (s.vbeRows f force).fb := by
  unfold Display.vbeRows
  apply foldl_range (P := fun k (rows : VbeRows) => ∃ R : Nat → Prop,
    (force = true → ∀ y < k, R y) ∧ lcd.Paints (fun x y => [s.vbeAverage f x y]) (fun _ y => R y) s.fbDev.data rows.fb) 240
  · exact ⟨fun _ => False, fun _ y hy => absurd hy (Nat.not_lt_zero y), Raster.Paints.refl _ _⟩
  · rintro k - rows ⟨R, hforce, hpaints⟩
    unfold vbeRow
    dsimp only
    split
    · -- An unchanged fingerprint skips the row only when nothing forces the update.
      rename_i hskip
      refine ⟨R, fun hf => ?_, hpaints⟩
      rw [hf] at hskip
      cases hskip
    · refine ⟨fun y => R y ∨ y = k, fun hf y hy => ?_, ?_⟩
      · rcases Nat.lt_succ_iff_lt_or_eq.mp hy with hlt | heq
        · exact .inl (hforce hf y hlt)
        · exact .inr heq
      · rw [h.width]
        exact hpaints.trans (paints_pixels (s.vbeAverage f) rows.fb k)

theorem vbeScale2_some (h : s.vbeScale2 f full = some t) :
    s.Serves f ∧ t.fbDev.data = (s.vbeRows f (s.forceUpdate f full)).fb ∧
      t.fbDev.width = s.fbDev.width ∧ t.fbDev.height = s.fbDev.height ∧ t.vga = s.vga ∧
      t.palette = s.palette ∧ t.dac8bit = s.dac8bit ∧
      t.vbePresentCount = s.vbePresentCount + 1 := by
  unfold vbeScale2 at h
  split at h
  · rename_i hserves
    injection h with ht
    subst ht
    exact ⟨hserves, rfl, rfl, rfl, rfl, rfl, rfl, rfl⟩
  · cases h

/-- The current mode is one for the scaled renderer. -/
structure Scaled (s : Display) : Prop where
  enabled : s.vga.regs.vbeEnabled = true
  serves : s.vbeFrame.2.Serves s.vbeFrame.1

def SameSize (s t : Display) : Prop :=
  t.fbDev.width = s.fbDev.width ∧ t.fbDev.height = s.fbDev.height

/-- The panel shows the picture of its source. -/
def Fresh (s : Display) : Prop :=
  ∀ x y, x < 320 → y < 240 → s.fbDev.data (y * 320 + x) = s.vbePicture x y

/-- Two framebuffers agree in all the pixels of the panel. -/
def Matches (s t : Display) : Prop :=
  ∀ x y, x < 320 → y < 240 → s.fbDev.data (y * 320 + x) = t.fbDev.data (y * 320 + x)

theorem paints_pixel {g : Nat → Nat → Pixel} {R : Nat → Nat → Prop} {m m' : Nat → Pixel}
    (h : lcd.Paints (fun x y => [g x y]) R m m') {x y : Nat} (hx : x < 320) (hy : y < 240) :
    (R x y → m' (y * 320 + x) = g x y) ∧ (¬R x y → m' (y * 320 + x) = m (y * 320 + x)) := by
  constructor
  · intro hR
    have hcell := h.drawn x y hx hy hR
    rw [lcd_cell] at hcell
    exact List.singleton_inj.mp hcell
  · intro hR
    have hcell := h.kept x y hx hy hR
    rw [lcd_cell, lcd_cell] at hcell
    exact List.singleton_inj.mp hcell

theorem Serves.of_same {g : Frame} (h : s.Serves f) (hsize : s.SameSize t)
    (hram : t.vga.ramSize = s.vga.ramSize) (hw : g.w = f.w) (hh : g.h = f.h) (hbpp : g.bpp = f.bpp)
    (hstart : g.startAddr = f.startAddr) (hline : g.lineOffset = f.lineOffset) : t.Serves g := by
  have hbase : g.srcBase = f.srcBase := congrArg (· * 4) hstart
  have hvisible : g.visibleBytes = f.visibleBytes := by
    unfold Frame.visibleBytes Frame.bytesPerPixel
    rw [hw, hbpp]
  constructor
  · exact hsize.1.trans h.width
  · exact hsize.2.trans h.height
  · exact hw.trans h.w
  · exact hh.trans h.h
  · rw [hbpp]
    exact h.bpp
  · rw [hvisible, hline]
    exact h.visible_le
  · rw [hbase, hram]
    exact h.base_lt
  · rw [hbase, hh, hline, hvisible, hram]
    exact h.end_le

theorem Scaled.of_same (h : s.Scaled) (hsource : s.SameSource t) (hsize : s.SameSize t) :
    t.Scaled := by
  have hmode : ∀ i, 1 ≤ i → i ≤ 4 →
      (t.vga.regs.vbeRegs i).toNat = (s.vga.regs.vbeRegs i).toNat :=
    fun i h1 h4 => congrArg BitVec.toNat (hsource.mode i h1 h4)
  obtain ⟨p, hs⟩ := s.vbeFrame_snd
  obtain ⟨q, ht⟩ := t.vbeFrame_snd
  constructor
  · have henabled := h.enabled
    unfold VgaRegs.vbeEnabled at *
    rw [hsource.mode 4 (by decide) (by decide)]
    exact henabled
  · refine h.serves.of_same ?_ ?_ (hmode 1 (by decide) (by decide))
      (hmode 2 (by decide) (by decide)) (hmode 3 (by decide) (by decide)) hsource.startAddr hsource.lineOffset
    · rw [hs, ht]
      exact hsize
    · rw [hs, ht]
      exact hsource.ramSize

theorem Scaled.frame (h : s.Scaled) : s.frame = s.vbeFrame := if_pos h.enabled

theorem Scaled.generic (h : s.Scaled) {x y : Nat} (hx : x < 320) (hy : y < 240) :
    s.genericRefresh.fbDev.data (y * 320 + x) = s.vbePicture x y := by
  have hpaints := h.serves.genericDraw ⟨rfl, rfl, rfl⟩
  unfold genericRefresh
  rw [h.frame]
  exact (paints_pixel hpaints hx hy).1 trivial

/-- What a refresh by the scaled renderer has done, where `forced` says that it was forced. -/
structure Drew (s : Display) (forced : Prop) (t : Display) : Prop where
  scaled : s.Scaled
  source : s.SameSource t
  size : s.SameSize t
  count : t.vbePresentCount = s.vbePresentCount + 1
  forced : forced → t.Fresh
  shown : ∀ x y, x < 320 → y < 240 →
    t.fbDev.data (y * 320 + x) = t.vbePicture x y ∨
      t.fbDev.data (y * 320 + x) = s.fbDev.data (y * 320 + x)

theorem graphicRefresh_drew (h : s.graphicRefresh full = some t) :
    s.Drew (s.frame.2.forceUpdate s.frame.1 full = true) t := by
  unfold graphicRefresh at h
  have henabled : s.vga.regs.vbeEnabled = true := by
    by_contra hoff
    have hframe : s.frame = s.crtFrame := if_neg hoff
    have hcrt : s.crtFrame.1.isVbe = false := by
      unfold crtFrame
      dsimp only
      split <;> rfl
    rw [hframe] at h
    simp only [hcrt] at h
    cases h
  have hframe : s.frame = s.vbeFrame := if_pos henabled
  rw [hframe] at h ⊢
  have hdraw : s.vbeFrame.2.vbeScale2 s.vbeFrame.1 full = some t := h
  obtain ⟨hserves, hdata, hwidth, hheight, hvga, hpalette, hdac, hcount⟩ := vbeScale2_some hdraw
  obtain ⟨R, hforce, hpaints⟩ :=
    hserves.vbeRows (s.vbeFrame.2.forceUpdate s.vbeFrame.1 full)
  rw [← hdata] at hpaints
  obtain ⟨p, hs⟩ := s.vbeFrame_snd
  have hsource : s.SameSource t := by
    rw [hs] at hvga hpalette hdac
    constructor
    · rw [hvga]
    · rw [hvga]
    · intro i _ _
      rw [hvga]
    · rw [hvga]
    · rw [hvga]
    · exact hpalette
    · exact hdac
  refine ⟨⟨henabled, hserves⟩, hsource, ⟨?_, ?_⟩, ?_, ?_, ?_⟩
  · rw [hwidth, hs]
  · rw [hheight, hs]
  · rw [hcount, hs]
  · intro hf x y hx hy
    rw [hsource.picture]
    exact (paints_pixel hpaints hx hy).1 (hforce hf y hy)
  · intro x y hx hy
    rw [hsource.picture]
    by_cases hR : R y
    · exact .inl ((paints_pixel hpaints hx hy).1 hR)
    · have hkept := (paints_pixel hpaints hx hy).2 hR
      rw [hs] at hkept
      exact .inr hkept

/-- The call behind a refresh: a cleared screen and a new palette force it. -/
theorem refresh_call (h : s.refresh full = some t) :
    ∃ u full', u.graphicRefresh full' = some t ∧ s.SameSource u ∧ s.SameSize u ∧
      u.vbePresentCount = s.vbePresentCount ∧ (full' = true ∨ u.fbDev.data = s.fbDev.data) := by
  unfold refresh at h
  split at h
  · have henter : ∃ u full', s.enterGraphics full = (u, full') ∧ s.SameSource u ∧ s.SameSize u ∧
        u.vbePresentCount = s.vbePresentCount ∧ (full' = true ∨ u.fbDev.data = s.fbDev.data) := by
      unfold enterGraphics
      split
      · exact ⟨s, full, rfl, .refl s, ⟨rfl, rfl⟩, rfl, .inr rfl⟩
      · exact ⟨_, true, rfl, ⟨rfl, rfl, fun _ _ _ => rfl, rfl, rfl, rfl, rfl⟩, ⟨rfl, rfl⟩, rfl,
          .inl rfl⟩
    obtain ⟨u, full', he, hsource, hsize, hcount, hfb⟩ := henter
    rw [he] at h
    dsimp only at h
    split at h
    · cases h
    · have htake : ∃ v full'', u.takePalette full' = (v, full'') ∧ u.SameSource v ∧ u.SameSize v ∧
          v.vbePresentCount = u.vbePresentCount ∧
          (full'' = true ∨ full'' = full' ∧ v.fbDev.data = u.fbDev.data) := by
        unfold takePalette
        split
        · exact ⟨_, true, rfl, ⟨rfl, rfl, fun _ _ _ => rfl, rfl, rfl, rfl, rfl⟩, ⟨rfl, rfl⟩, rfl,
            .inl rfl⟩
        · exact ⟨u, full', rfl, .refl u, ⟨rfl, rfl⟩, rfl, .inr ⟨rfl, rfl⟩⟩
      obtain ⟨v, full'', hv, hsource', hsize', hcount', hfb'⟩ := htake
      rw [hv] at h
      refine ⟨v, full'', h, hsource.trans hsource',
        ⟨hsize'.1.trans hsize.1, hsize'.2.trans hsize.2⟩, hcount'.trans hcount, ?_⟩
      rcases hfb' with hforced | ⟨rfl, hkept⟩
      · exact .inl hforced
      · exact hfb.imp id hkept.trans
  · cases h

theorem forceUpdate_of_count (f : Frame) (full : Bool)
    (h : (s.vbePresentCount + 1) &&& 63 = 0) : s.forceUpdate f full = true := by
  unfold forceUpdate
  rw [h]
  exact Bool.or_true _

theorem forceUpdate_full (s : Display) (f : Frame) : s.forceUpdate f true = true := by
  unfold forceUpdate
  simp only [Bool.true_or]

theorem refresh_drew (h : s.refresh full = some t) :
    t.Scaled ∧ t.vbePresentCount = s.vbePresentCount + 1 ∧
      ((s.vbePresentCount + 1) &&& 63 = 0 → t.Fresh) ∧ (s.Fresh → t.Fresh) := by
  obtain ⟨u, full', hcall, hsource, hsize, hcount, hfb⟩ := refresh_call h
  have hdrew := graphicRefresh_drew hcall
  refine ⟨hdrew.scaled.of_same hdrew.source hdrew.size, by rw [hdrew.count, hcount], ?_, ?_⟩
  · intro hzero
    apply hdrew.forced
    apply forceUpdate_of_count
    rw [hdrew.scaled.frame]
    obtain ⟨p, hu⟩ := u.vbeFrame_snd
    rw [hu]
    rw [← hcount] at hzero
    exact hzero
  · intro hfresh
    rcases hfb with hfull | hfb
    · apply hdrew.forced
      rw [hfull]
      exact forceUpdate_full _ _
    · intro x y hx hy
      rcases hdrew.shown x y hx hy with hshown | hkept
      · exact hshown
      · rw [hkept, hfb, hfresh x y hx hy, (hsource.trans hdrew.source).picture]

/-- What happens between two refreshes: the source does not change, and the framebuffer and the
count of the pictures are the renderer's own. -/
structure Rests (s t : Display) : Prop extends SameSource s t where
  fbDev : t.fbDev = s.fbDev
  count : t.vbePresentCount = s.vbePresentCount

/-- `n` refreshes in a row, all by the scaled renderer. -/
inductive Run (s : Display) : Nat → Display → Prop where
  | start : Run s 0 s
  | refresh {n : Nat} {t u : Display} (full : Bool) :
      Run s n t → t.refresh full = some u → Run s (n + 1) u
  | rest {n : Nat} {t u : Display} : Run s n t → t.Rests u → Run s n u

theorem Rests.fresh (h : s.Rests t) (hs : s.Fresh) : t.Fresh := by
  intro x y hx hy
  rw [h.fbDev, h.toSameSource.picture]
  exact hs x y hx hy

/-- A run ends with a picture that is up to date, or has not met a forced update yet. -/
theorem Run.fresh {n : Nat} (h : Run s n t) :
    (0 < n → t.Scaled) ∧
      (t.Fresh ∨ (t.vbePresentCount = s.vbePresentCount + BitVec.ofNat 32 n ∧
        ∀ j, 1 ≤ j → j ≤ n → (s.vbePresentCount + BitVec.ofNat 32 j) &&& 63 ≠ 0)) := by
  induction h with
  | start =>
    refine ⟨fun h => absurd h (Nat.lt_irrefl 0), .inr ⟨(BitVec.add_zero _).symm, fun j h1 h0 => ?_⟩⟩
    omega
  | @refresh n t u full _ hrefresh ih =>
    obtain ⟨hscaled, hcount, hforced, hkept⟩ := refresh_drew hrefresh
    refine ⟨fun _ => hscaled, ?_⟩
    rcases ih.2 with hfresh | ⟨hn, hnone⟩
    · exact .inl (hkept hfresh)
    · have hnext : t.vbePresentCount + 1 = s.vbePresentCount + BitVec.ofNat 32 (n + 1) := by
        rw [hn, BitVec.add_assoc, BitVec.ofNat_add]
        rfl
      by_cases hzero : (t.vbePresentCount + 1) &&& 63 = 0
      · exact .inl (hforced hzero)
      · refine .inr ⟨hcount.trans hnext, fun j h1 hj => ?_⟩
        rcases Nat.lt_succ_iff_lt_or_eq.mp (Nat.lt_succ_of_le hj) with hlt | rfl
        · exact hnone j h1 (Nat.le_of_lt_succ hlt)
        · rw [← hnext]
          exact hzero
  | rest _ hrests ih =>
    refine ⟨fun h => (ih.1 h).of_same hrests.toSameSource ⟨?_, ?_⟩, ?_⟩
    · rw [hrests.fbDev]
    · rw [hrests.fbDev]
    · rw [hrests.count]
      exact ih.2.imp hrests.fresh id

theorem exists_forced (c : Word) :
    ∃ j, 1 ≤ j ∧ j ≤ 64 ∧ (c + BitVec.ofNat 32 j) &&& 63 = 0 := by
  refine ⟨64 - c.toNat % 64, by omega, by omega, BitVec.eq_of_toNat_eq ?_⟩
  have h63 : (63 : Word).toNat = 2 ^ 6 - 1 := rfl
  rw [BitVec.toNat_and, h63, Nat.and_two_pow_sub_one_eq_mod, BitVec.toNat_add, BitVec.toNat_ofNat]
  show _ = 0
  omega

theorem scaled_as_generic :
    (∀ (s t : Display) (full : Bool), s.graphicRefresh full = some t →
      s.frame.2.forceUpdate s.frame.1 full = true → t.Matches s.genericRefresh) ∧
    ∀ s t : Display, Run s 64 t → t.Matches t.genericRefresh := by
  constructor
  · intro s t full h hforced x y hx hy
    have hdrew := graphicRefresh_drew h
    rw [hdrew.forced hforced x y hx hy, hdrew.source.picture, hdrew.scaled.generic hx hy]
  · intro s t h x y hx hy
    obtain ⟨hscaled, hfresh⟩ := h.fresh
    rw [(hscaled (by decide)).generic hx hy]
    rcases hfresh with hfresh | ⟨-, hnone⟩
    · exact hfresh x y hx hy
    · obtain ⟨j, h1, h64, hzero⟩ := exists_forced s.vbePresentCount
      exact absurd hzero (hnone j h1 h64)

/-- 640 by 480 pixels with a palette, in two megabytes. -/
def windows256 : Display where
  vga :=
    { ram := fun a => BitVec.ofNat 8 a
      ramSize := 0x200000
      ramSize_lt := by decide
      latch := 0
      regs :=
        { VgaRegs.init 0x200000 with
          gr := fun i => if i = 6 then 0x05 else 0
          vbeRegs := fun i => [0xb0c5, 640, 480, 8, 0x41].getD i 0
          vbeLineOffset := 640 }
      dirtyRender := true
      textHoldDefault := 0
      vramWriteGeneration := 0
      mode13DirtyMin := 200
      mode13DirtyMax := -1
      planar640DirtyMin := 240
      planar640DirtyMax := -1
      planar640DirtyRows := fun _ => false }
  fbDev := { width := 320, height := 240, data := fun _ => 0 }
  tmpbuf := fun _ => 0
  arIndex := 0x20
  ar := fun _ => 0
  dac8bit := false
  palette := fun i => BitVec.ofNat 8 (i % 64)
  compNtsc := false
  graphicMode := 1
  graphicPalette := fun _ => 0
  paletteQuietPolls := 0
  paletteForceFull := false
  vbePairSum := fun _ => 0
  vbePairMix := fun _ => 0
  vbeFingerprintKey := 0
  vbePresentCount := 0
  vbeFingerprintValid := false
  redraws := []

theorem windows256_scaled : windows256.Scaled where
  enabled := rfl
  serves :=
    { width := rfl
      height := rfl
      w := rfl
      h := rfl
      bpp := by decide
      visible_le := by decide
      base_lt := by decide
      end_le := by decide }

theorem Scaled.graphicRefresh (h : s.Scaled) (full : Bool) :
    ∃ t, s.graphicRefresh full = some t := by
  unfold Display.graphicRefresh
  rw [h.frame]
  exact ⟨_, if_pos h.serves⟩

theorem refresh_graphics (hblank : s.arIndex.getLsbD 5 = true)
    (hgraphics : (s.vga.regs.gr 6).getLsbD 0 = true) (hmode : s.graphicMode = 2)
    (hquiet : s.paletteQuietPolls = 0) (hforce : s.paletteForceFull = false) :
    s.refresh full = s.graphicRefresh full := by
  have henter : s.enterGraphics full = (s, full) := if_pos hmode
  have htake : s.takePalette full = (s, full) := if_neg (by rw [hforce]; decide)
  unfold refresh
  rw [if_pos ⟨hblank, hgraphics⟩, henter]
  dsimp only
  rw [if_neg (not_not.mpr hquiet), htake]

theorem Scaled.run (h : s.Scaled) (n : Nat) :
    ∃ t, Run s n t ∧ s.SameSource t ∧ s.SameSize t := by
  induction n with
  | zero => exact ⟨s, .start, .refl s, ⟨rfl, rfl⟩⟩
  | succ n ih =>
    obtain ⟨t, hrun, hsource, hsize⟩ := ih
    let u : Display :=
      { s with
        vga := { s.vga with regs := { s.vga.regs with gr := fun _ => 1 } }
        fbDev := t.fbDev
        arIndex := 0x20
        graphicMode := 2
        paletteQuietPolls := 0
        paletteForceFull := false
        vbePresentCount := t.vbePresentCount }
    have hu : s.SameSource u := ⟨rfl, rfl, fun _ _ _ => rfl, rfl, rfl, rfl, rfl⟩
    have hrests : t.Rests u := ⟨hsource.symm.trans hu, rfl, rfl⟩
    obtain ⟨v, hv⟩ := (h.of_same hu hsize).graphicRefresh false
    have hdrew := graphicRefresh_drew hv
    have hrefresh : u.refresh false = u.graphicRefresh false :=
      refresh_graphics (show (0x20 : Byte).getLsbD 5 = true by decide)
        (show (1 : Byte).getLsbD 0 = true by decide) rfl rfl rfl
    refine ⟨v, .refresh false (.rest hrun hrests) (hrefresh.trans hv), hu.trans hdrew.source,
      ?_, ?_⟩
    · exact hdrew.size.1.trans hsize.1
    · exact hdrew.size.2.trans hsize.2

theorem scaled_as_generic_windows256 :
    (∃ t, windows256.graphicRefresh false = some t ∧ t.Matches windows256.genericRefresh) ∧
      ∃ t, Run windows256 64 t ∧ t.Matches t.genericRefresh := by
  constructor
  · obtain ⟨t, ht⟩ := windows256_scaled.graphicRefresh false
    refine ⟨t, ht, scaled_as_generic.1 windows256 t false ht ?_⟩
    -- No fingerprint is valid yet.
    unfold forceUpdate
    rw [windows256_scaled.frame]
    show (false || _ || !false || _ || _) = true
    simp only [Bool.not_false, Bool.or_true, Bool.true_or]
  · obtain ⟨t, hrun, -⟩ := windows256_scaled.run 64
    exact ⟨t, hrun, scaled_as_generic.2 windows256 t hrun⟩

end Display

end Winspire.Vga
