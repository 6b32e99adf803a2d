import Winspire.Vga.Screen
import Winspire.Vga.Lines

/-!
# Mode 13h

`vga_mode13_draw` draws only the rows between two marks, from tables of colours that follow the
DAC. In the mode the BIOS sets, 640 by 400 pixels of the monitor are 320 by 200 of the memory, and
the general renderer would draw the same picture from scratch.
-/

namespace Winspire.Vga

set_option autoImplicit false

theorem c96_c69 (p : Pixel) : c96 (c69 p) = p := by
  apply BitVec.eq_of_getLsbD_eq
  intro i hi
  unfold c96 c69
  interval_cases i <;> simp

theorem c69_lt (p : Pixel) : (c69 p).toNat < 2 ^ 23 := by
  have hor : ∀ a b : Word, a.toNat < 2 ^ 23 → b.toNat < 2 ^ 23 → (a ||| b).toNat < 2 ^ 23 := by
    intro a b ha hb
    rw [BitVec.toNat_or]
    exact Nat.or_lt_two_pow ha hb
  have hp := p.isLt
  have hand : ∀ m : Word, (p.setWidth 32 &&& m).toNat ≤ p.toNat := by
    intro m
    rw [BitVec.toNat_and, BitVec.toNat_setWidth_of_le (by decide)]
    exact Nat.and_le_left
  have hshift : ∀ (a : Word) (k : Nat), a.toNat < 2 ^ 16 → k ≤ 7 →
      (a <<< k).toNat < 2 ^ 23 := by
    intro a k ha hk
    rw [BitVec.toNat_shiftLeft, Nat.shiftLeft_eq]
    have hpow : 2 ^ k ≤ 2 ^ 7 := Nat.pow_le_pow_right (by decide) hk
    have hmul := Nat.mul_lt_mul_of_lt_of_le ha hpow (by decide)
    exact Nat.lt_of_le_of_lt (Nat.mod_le _ _) hmul
  unfold c69
  apply hor
  · apply hor
    · have h := hand (0x1f : Word)
      exact Nat.lt_of_le_of_lt h (by omega)
    · exact hshift _ _ (Nat.lt_of_le_of_lt (hand _) hp) (by decide)
  · exact hshift _ _ (Nat.lt_of_le_of_lt (hand _) hp) (by decide)

theorem average_self (p : Pixel) : average p p p p = p := by
  have hquarter : (c69 p + c69 p + c69 p + c69 p) >>> 2 = c69 p := by
    have hlt := c69_lt p
    apply BitVec.eq_of_toNat_eq
    rw [BitVec.toNat_ushiftRight, Nat.shiftRight_eq_div_pow]
    simp only [BitVec.toNat_add]
    omega
  unfold average
  rw [hquarter]
  exact c96_c69 p

namespace Display
variable {d : Display}

theorem linePixels_map {f : Frame} {addr comp : Word} {g : Nat → Word}
    (hcolor : ∀ x, d.color f addr x comp = (g x, comp)) (n x : Nat) :
    d.linePixels f addr n x comp =
      (List.range n).map fun k => (g ((x + k) / f.xdiv)).setWidth 16 := by
  induction n generalizing x with
  | zero => rfl
  | succ n ih =>
    unfold linePixels
    simp only [hcolor, ih, List.range_succ_eq_map, List.map_cons, List.map_map]
    congr 1
    apply List.map_congr_left
    intro k _
    rw [Function.comp_apply, Nat.succ_eq_add_one, Nat.add_right_comm, Nat.add_assoc]

theorem crtFrame_deep (h : d.crtFrame.1.bpp = 8) :
    d.crtFrame.1.isVbe = false ∧ d.crtFrame.1.xdiv = 2 ∧
      d.crtFrame.1.multiScan = d.multiScan ∧ d.crtFrame.1.startAddr * 4 = d.vga.startAddr ∧
      d.crtFrame.1.lineOffset = d.vga.lineOffset ∧ d.crtFrame.2 = d.updatePalette256.2 := by
  unfold crtFrame at h ⊢
  dsimp only at h ⊢
  split at h
  · cases h
  · rename_i hshift
    rw [if_neg hshift]
    exact ⟨rfl, rfl, rfl, rfl, rfl, rfl⟩

theorem lineAddr_flat {f : Frame} {sc : Scan} (hmode : d.vga.regs.cr 0x17 &&& 3 = 3) :
    d.lineAddr f sc = sc.addr1 := by
  have hbit : ∀ i, i < 2 → (d.vga.regs.cr 0x17).getLsbD i = true := by
    intro i hi
    have h := congrArg (fun b : Byte => b.getLsbD i) hmode
    simp only [BitVec.getLsbD_and] at h
    have hthree : (3 : Byte).getLsbD i = true := by interval_cases i <;> rfl
    rw [hthree, Bool.and_true] at h
    exact h
  unfold lineAddr
  simp only [hbit 0 (by decide), hbit 1 (by decide), Bool.not_true, Bool.and_false,
    Bool.false_eq_true, if_false]

theorem mode_mask (hmode : d.vga.regs.cr 0x17 &&& 3 = 3) :
    (d.vga.regs.cr 0x17).toNat % 4 ^^^ 3 = 0 := by
  have h := congrArg BitVec.toNat hmode
  rw [BitVec.toNat_and] at h
  have hmod : (d.vga.regs.cr 0x17).toNat % 2 ^ 2 = 3 := by
    rw [← Nat.and_two_pow_sub_one_eq_mod]
    exact h
  rw [show (d.vga.regs.cr 0x17).toNat % 4 = 3 from hmod]
  rfl

def addr13 (s : Display) (x y : Nat) : Nat :=
  s.vga.startAddr.toNat + y * s.vga.lineOffset.toNat + x

def pixel13 (s : Display) (x y : Nat) : Pixel :=
  s.dacToRgb565 (3 * (s.vga.ram (s.addr13 x y)).toNat)

def picture13 (s : Display) (x y : Nat) : Pixel :=
  if 20 ≤ y ∧ y < 220 then s.pixel13 x (y - 20) else 0

end Display

namespace VgaState

theorem startAddr_lt (s : VgaState) : s.startAddr.toNat < 2 ^ 18 := by
  have h := (s.regs.cr 0x0c ++ s.regs.cr 0x0d).isLt
  unfold startAddr
  rw [BitVec.toNat_mul, BitVec.toNat_setWidth_of_le (by decide)]
  exact Nat.lt_of_le_of_lt (Nat.mod_le _ _) (Nat.mul_lt_mul_of_pos_right h (by decide))

theorem lineOffset_lt (s : VgaState) : s.lineOffset.toNat < 2 ^ 11 := by
  have h := (s.regs.cr 0x13).isLt
  unfold lineOffset
  rw [BitVec.toNat_shiftLeft, BitVec.toNat_setWidth_of_le (by decide), Nat.shiftLeft_eq]
  exact Nat.lt_of_le_of_lt (Nat.mod_le _ _) (Nat.mul_lt_mul_of_pos_right h (by decide))

/-- The marks are rows, where there are any. -/
def Bounded13 (s : VgaState) : Prop := 0 ≤ s.mode13DirtyMin ∧ s.mode13DirtyMax ≤ 199

def Marked13 (s : VgaState) (y : Nat) : Prop := s.mode13DirtyMin ≤ y ∧ (y : Int) ≤ s.mode13DirtyMax

end VgaState

namespace Screen
variable {s t : Screen}

/-- What `vga_mode13_draw` asks of a frame. -/
structure Fits13 (s : Screen) (f : Display.Frame) : Prop where
  dirtyRender : s.vga.dirtyRender = true
  width : s.fbDev.width = 320
  height : s.fbDev.height = 240
  crt : s.vga.regs.vbeEnabled = false
  shiftControl : f.shiftControl = 2
  bpp : f.bpp = 8
  chain4 : s.vga.regs.chain4 = true
  planes : s.vga.regs.sr 2 &&& 0x0f = 0x0f
  line_ge : 320 ≤ f.lineOffset.toNat
  base_lt : f.srcBase.toNat < s.vga.ramSize
  end_lt : (f.srcBase + f.lineOffset * 199 + 319).toNat < s.vga.ramSize

theorem fits13 {f : Display.Frame} (h : s.draws13 f = true) : s.Fits13 f := by
  unfold draws13 at h
  simp only [Bool.and_eq_true, decide_eq_true_eq] at h
  obtain ⟨⟨⟨⟨⟨⟨⟨⟨hdirty, hwidth, hheight⟩, hvbe, hshift, hbpp⟩, hchain⟩, hplanes⟩, -, -, hline⟩,
    -⟩, hbase⟩, hend⟩ := h
  exact ⟨hdirty, hwidth, hheight, Bool.eq_false_iff.mpr hvbe, hshift, hbpp, hchain, hplanes, hline,
    hbase, hend⟩

/-- Mode 13h as the BIOS sets it. -/
structure Mode13h (s : Screen) : Prop where
  draws : s.draws13 s.toDisplay.crtFrame.1 = true
  w : s.toDisplay.crtFrame.1.w = 640
  h : s.toDisplay.crtFrame.1.h = 400
  multiScan : s.toDisplay.multiScan = 1
  banks : s.vga.regs.cr 0x17 &&& 3 = 3
  graphics : (s.vga.regs.gr 6).getLsbD 0 = true

namespace Mode13h

theorem fits (h : s.Mode13h) : s.Fits13 s.toDisplay.crtFrame.1 := fits13 h.draws

theorem frame (h : s.Mode13h) : s.toDisplay.frame = s.toDisplay.crtFrame :=
  if_neg (by rw [h.fits.crt]; decide)

theorem line_ge (h : s.Mode13h) : 320 ≤ s.vga.lineOffset.toNat := by
  obtain ⟨-, -, -, -, hline, -⟩ := Display.crtFrame_deep h.fits.bpp
  rw [← hline]
  exact h.fits.line_ge

theorem addr_lt (h : s.Mode13h) {x y : Nat} (hx : x < 320) (hy : y < 200) :
    s.addr13 x y < s.vga.ramSize := by
  obtain ⟨-, -, -, hstart, hline, -⟩ := Display.crtFrame_deep h.fits.bpp
  have hend := h.fits.end_lt
  have hbase : s.toDisplay.crtFrame.1.srcBase = s.vga.startAddr := hstart
  have hs := s.vga.startAddr_lt
  have hl := s.vga.lineOffset_lt
  rw [hbase, hline] at hend
  have hmul := Nat.mul_le_mul_right s.vga.lineOffset.toNat (show y ≤ 199 by omega)
  have hnat : (s.vga.startAddr + s.vga.lineOffset * 199 + 319).toNat =
      s.vga.startAddr.toNat + 199 * s.vga.lineOffset.toNat + 319 := by
    have h199 : (199 : Word).toNat = 199 := rfl
    have h319 : (319 : Word).toNat = 319 := rfl
    rw [BitVec.toNat_add, BitVec.toNat_add, BitVec.toNat_mul, h199, h319]
    omega
  rw [hnat] at hend
  unfold Display.addr13
  omega

theorem toNat_addr (h : s.Mode13h) {x y : Nat} (hx : x < 320) (hy : y < 200) :
    (s.vga.startAddr + BitVec.ofNat 32 y * s.vga.lineOffset + BitVec.ofNat 32 x).toNat =
      s.addr13 x y := by
  have hlt := h.addr_lt hx hy
  have hram := s.vga.ramSize_lt
  unfold Display.addr13 at *
  have hmul : (BitVec.ofNat 32 y * s.vga.lineOffset).toNat = y * s.vga.lineOffset.toNat := by
    rw [BitVec.toNat_mul, BitVec.toNat_ofNat, Nat.mod_eq_of_lt (show y < 2 ^ 32 by omega)]
    exact Nat.mod_eq_of_lt (by omega)
  rw [BitVec.toNat_add, BitVec.toNat_add, hmul, BitVec.toNat_ofNat]
  omega

/-- What a byte of the memory stands for, once the palette is up to date. -/
theorem colour (s : Screen) (a : Word) {n : Nat} (ha : a.toNat = n) (hn : n < s.vga.ramSize) :
    (s.toDisplay.updatePalette256.2.graphicPalette
      (s.toDisplay.updatePalette256.2.read a).toNat).setWidth 16 =
        s.dacToRgb565 (3 * (s.vga.ram n).toNat) := by
  have hread : s.toDisplay.updatePalette256.2.read a = (s.vga.ram n).setWidth 32 := by
    rw [← ha]
    exact Display.read_of_lt (s := s.toDisplay.updatePalette256.2)
      (show a.toNat < s.vga.ramSize by omega)
  have hlt : (s.vga.ram n).toNat < 256 := (s.vga.ram n).isLt
  rw [hread, BitVec.toNat_setWidth_of_le (by decide)]
  unfold Display.updatePalette256 Display.updatePalette
  dsimp only
  rw [if_pos hlt, BitVec.setWidth_setWidth_of_le _ (by decide), BitVec.setWidth_eq]

/-- Every line of the memory is two lines of the monitor, and every byte two pixels of a line. -/
theorem lines (h : s.Mode13h) :
    s.toDisplay.crtFrame.2.Lines s.toDisplay.crtFrame.1 (fun x k => s.pixel13 (x / 2) (k / 2))
      fun k addr _ run =>
        addr = s.vga.startAddr + BitVec.ofNat 32 (k / 2) * s.vga.lineOffset ∧ run = 1 - k % 2 := by
  obtain ⟨hvbe, hxdiv, hscan, hstart, hline, hpalette⟩ := Display.crtFrame_deep h.fits.bpp
  have hshift := h.fits.shiftControl
  have hbpp := h.fits.bpp
  have hh := h.h
  generalize s.toDisplay.crtFrame.1 = f at *
  rw [hpalette]
  have hbanks : s.toDisplay.updatePalette256.2.vga.regs.cr 0x17 &&& 3 = 3 := h.banks
  constructor
  · constructor
    · rw [BitVec.mul_comm, hstart]
      exact (BitVec.add_zero _).symm.trans (congrArg _ (BitVec.zero_mul).symm)
    · rw [hscan, h.multiScan]
  · rintro k sc - ⟨haddr, hrun⟩
    unfold Display.nextLine
    rw [if_neg (by rw [hvbe]; decide)]
    rcases Nat.mod_two_eq_zero_or_one k with hpar | hpar
    · rw [if_neg (by omega)]
      have hhalf : (k + 1) / 2 = k / 2 := by omega
      refine ⟨?_, ?_⟩
      · rw [hhalf]
        exact haddr
      · show sc.multiRun - 1 = 1 - (k + 1) % 2
        omega
    · rw [if_pos (by omega)]
      have hhalf : (k + 1) / 2 = k / 2 + 1 := by omega
      dsimp only
      rw [Display.mode_mask hbanks, if_pos (Nat.and_zero _)]
      refine ⟨?_, ?_⟩
      · rw [haddr, hline, hhalf, BitVec.ofNat_add, BitVec.add_mul, BitVec.add_assoc]
        congr 2
        exact (BitVec.one_mul _).symm
      · rw [hscan, h.multiScan]
        omega
  · rintro k sc hk ⟨haddr, -⟩
    rw [Display.lineAddr_flat hbanks]
    have hcolor : ∀ x, s.toDisplay.updatePalette256.2.color f sc.addr1 x 0 =
        (s.toDisplay.updatePalette256.2.graphicPalette
          (s.toDisplay.updatePalette256.2.read (sc.addr1 + BitVec.ofNat 32 x)).toNat, 0) := by
      intro x
      unfold Display.color Display.deepColor
      rw [hshift, hbpp]
      rfl
    rw [Display.linePixels_map hcolor]
    apply List.map_congr_left
    intro x hx
    have hlt := List.mem_range.mp hx
    rw [hxdiv, Nat.zero_add, haddr]
    have hx' : x / 2 < 320 := by omega
    have hy' : k / 2 < 200 := by omega
    exact colour s _ (h.toNat_addr hx' hy') (h.addr_lt hx' hy')

theorem halved (h : s.Mode13h) : s.toDisplay.crtFrame.2.Halved s.toDisplay.crtFrame.1 := by
  obtain ⟨-, -, -, -, -, hpalette⟩ := Display.crtFrame_deep h.fits.bpp
  rw [hpalette]
  have hh := h.h
  exact ⟨h.fits.width, h.fits.height, h.w, by omega, by omega⟩

/-- The general renderer draws the pixels of the memory, 20 rows below the top. -/
theorem generic (h : s.Mode13h) :
    lcd.Paints (fun x y => [s.pixel13 x (y - 20)]) (fun _ y => 20 ≤ y ∧ y < 220) s.fbDev.data
      s.toDisplay.genericRefresh.fbDev.data := by
  have hpaints := h.lines.genericDraw h.halved
  obtain ⟨-, -, -, -, -, hpalette⟩ := Display.crtFrame_deep h.fits.bpp
  have htop : s.toDisplay.crtFrame.1.top = 20 := by
    unfold Display.Frame.top
    rw [h.h]
  have hfb : s.toDisplay.crtFrame.2.fbDev.data = s.fbDev.data := by
    rw [hpalette]
    rfl
  have hgeneric : s.toDisplay.genericRefresh =
      s.toDisplay.crtFrame.2.genericDraw s.toDisplay.crtFrame.1 := by
    unfold Display.genericRefresh
    rw [h.frame]
  rw [hgeneric]
  rw [htop, hfb, h.h] at hpaints
  have hblend : ∀ x y, Display.blend (fun x k => s.pixel13 (x / 2) (k / 2)) 20 x y =
      s.pixel13 x (y - 20) := by
    intro x y
    have hx : 2 * x / 2 = x := by omega
    have hx' : (2 * x + 1) / 2 = x := by omega
    have hy : 2 * (y - 20) / 2 = y - 20 := by omega
    have hy' : (2 * (y - 20) + 1) / 2 = y - 20 := by omega
    unfold Display.blend
    dsimp only
    rw [hx, hx', hy, hy']
    exact average_self _
  simp only [hblend] at hpaints
  exact hpaints

end Mode13h

/-- The tables hold the colours of the DAC. -/
structure Follows (s : Screen) : Prop where
  low : ∀ i < 256, s.lastPalette256 i = s.dacToRgb565 (3 * i)
  high : ∀ i < 256, s.lastPalette256High i = (s.dacToRgb565 (3 * i)).setWidth 32 <<< 16
  pair : ∀ cache, s.mode13PairCache = some cache → ∀ i < 65536,
    cache i = (s.dacToRgb565 (3 * (i % 256))).setWidth 32 |||
      (s.dacToRgb565 (3 * (i / 256))).setWidth 32 <<< 16

/-- The tables are right unless they are marked, a palette that is being written forces the next
picture, and the marked rows are rows. -/
structure Safe (s : Screen) : Prop where
  follows : s.lastPalette256Valid = true → s.paletteDirty = false → s.Follows
  quiet : s.paletteQuietPolls ≠ 0 → s.paletteForceFull = true
  marks : s.vga.Bounded13

theorem palette256_display (s : Screen) : s.palette256.toDisplay = s.toDisplay := by
  unfold palette256
  split <;> rfl

theorem palette256_clean (s : Screen) :
    s.palette256.lastPalette256Valid = true ∧ s.palette256.paletteDirty = false := by
  unfold palette256
  split
  · exact ⟨rfl, rfl⟩
  · rename_i h
    simpa using h

theorem Safe.palette256 (h : s.Safe) : s.palette256.Follows := by
  by_cases hstale : (!s.lastPalette256Valid || s.paletteDirty) = true
  · have hrebuilt : s.palette256 = _ := if_pos hstale
    rw [hrebuilt]
    constructor
    · intro i hi
      exact if_pos hi
    · intro i hi
      exact if_pos hi
    · intro cache hcache i hi
      obtain ⟨old, -, rfl⟩ := Option.map_eq_some_iff.mp hcache
      exact if_pos hi
  · have hkept : s.palette256 = s := if_neg hstale
    rw [hkept]
    simp only [Bool.or_eq_true, Bool.not_eq_true', not_or, Bool.not_eq_false,
      Bool.not_eq_true] at hstale
    exact h.follows hstale.1 hstale.2

theorem wordPixels_pair (a b : Pixel) :
    wordPixels (a.setWidth 32 ||| b.setWidth 32 <<< 16) = [a, b] := by
  have hlow : (a.setWidth 32 ||| b.setWidth 32 <<< 16 : Word).setWidth 16 = a := by
    apply BitVec.eq_of_getLsbD_eq
    intro i hi
    simp [hi]
  have hhigh : ((a.setWidth 32 ||| b.setWidth 32 <<< 16 : Word) >>> 16).setWidth 16 = b := by
    apply BitVec.eq_of_getLsbD_eq
    intro i hi
    simp [hi, show 16 + i < 32 by omega]
  unfold wordPixels
  rw [hlow, hhigh]

theorem Follows.word (h : s.Follows) (src x : Nat) :
    wordPixels (s.mode13Word src x) =
      [s.dacToRgb565 (3 * (s.vga.ram (src + 2 * x)).toNat),
        s.dacToRgb565 (3 * (s.vga.ram (src + 2 * x + 1)).toNat)] := by
  have hleft : (s.vga.ram (src + 2 * x)).toNat < 256 := (s.vga.ram (src + 2 * x)).isLt
  have hright : (s.vga.ram (src + 2 * x + 1)).toNat < 256 := (s.vga.ram (src + 2 * x + 1)).isLt
  rw [← wordPixels_pair]
  congr 1
  unfold mode13Word
  dsimp only
  cases hcache : s.mode13PairCache with
  | none => rw [h.low _ hleft, h.high _ hright]
  | some cache =>
    have hindex : (s.vga.ram (src + 2 * x + 1) ++ s.vga.ram (src + 2 * x)).toNat =
        (s.vga.ram (src + 2 * x + 1)).toNat * 256 + (s.vga.ram (src + 2 * x)).toNat := by
      rw [BitVec.toNat_append, ← Nat.shiftLeft_add_eq_or_of_lt (s.vga.ram (src + 2 * x)).isLt,
        Nat.shiftLeft_eq]
    have hmod : ((s.vga.ram (src + 2 * x + 1)).toNat * 256 +
        (s.vga.ram (src + 2 * x)).toNat) % 256 = (s.vga.ram (src + 2 * x)).toNat := by
      omega
    have hdiv : ((s.vga.ram (src + 2 * x + 1)).toNat * 256 +
        (s.vga.ram (src + 2 * x)).toNat) / 256 = (s.vga.ram (src + 2 * x + 1)).toNat := by
      omega
    dsimp only
    rw [h.pair cache hcache _ (BitVec.isLt _), hindex, hmod, hdiv]

theorem Follows.row (h : s.Follows) (src : Nat) :
    s.mode13Row src =
      (List.range 320).map fun x => s.dacToRgb565 (3 * (s.vga.ram (src + x)).toNat) := by
  unfold mode13Row
  rw [← flatMap_blocks (fun x => s.dacToRgb565 (3 * (s.vga.ram (src + x)).toNat)) 2 160]
  apply List.flatMap_congr
  intro x _
  exact h.word src x

theorem Follows.rows (hf : s.Follows) {f : Display.Frame}
    (hin : ∀ y < 200, s.addr13 0 y < s.vga.ramSize) (hbase : f.srcBase = s.vga.startAddr)
    (hline : f.lineOffset = s.vga.lineOffset)
    (n first : Nat) (hle : first + n ≤ 200) (fb : Nat → Pixel) :
    lcd.Paints (fun x y => [s.picture13 x y]) (fun _ y => 20 + first ≤ y ∧ y < 20 + first + n) fb
      (s.mode13Rows f first n fb) := by
  induction n generalizing first fb with
  | zero => exact (Raster.Paints.refl _ fb).congr fun _ y _ _ => ⟨fun h => by omega, False.elim⟩
  | succ n ih =>
    have hrow : s.mode13Row (f.srcBase.toNat + (f.lineOffset * BitVec.ofNat 32 first).toNat) =
        (List.range 320).map fun x => s.picture13 x (20 + first) := by
      rw [hf.row]
      apply List.map_congr_left
      intro x hx
      have hlt := List.mem_range.mp hx
      have hmul : (s.vga.lineOffset * BitVec.ofNat 32 first).toNat =
          first * s.vga.lineOffset.toNat := by
        have ha := hin first (by omega)
        have hram := s.vga.ramSize_lt
        unfold Display.addr13 at ha
        rw [BitVec.mul_comm, BitVec.toNat_mul, BitVec.toNat_ofNat,
          Nat.mod_eq_of_lt (show first < 2 ^ 32 by omega)]
        exact Nat.mod_eq_of_lt (by omega)
      have hpicture : s.picture13 x (20 + first) = s.pixel13 x first := by
        unfold Display.picture13
        rw [if_pos (by omega), Nat.add_sub_cancel_left]
      rw [hpicture, hbase, hline, hmul]
      rfl
    unfold mode13Rows
    rw [hrow]
    have hfirst := paints_pixels s.picture13 fb (20 + first)
    refine (hfirst.trans (ih (first + 1) (by omega) _)).congr fun x y _ _ => ?_
    omega

theorem borders_paint (s : Screen) (fb : Nat → Pixel) :
    lcd.Paints (fun x y => [s.picture13 x y]) (fun _ y => ¬(20 ≤ y ∧ y < 220)) fb
      (mode13Borders fb) := by
  have hat : ∀ x y, x < 320 → y < 240 → mode13Borders fb (y * 320 + x) =
      if 20 ≤ y ∧ y < 220 then fb (y * 320 + x) else 0 := by
    intro x y hx hy
    have hlen : (List.replicate 6400 (0 : Pixel)).length = 6400 := List.length_replicate
    have hzero : ∀ (m : Nat → Pixel) (a i : Nat), a ≤ i → i < a + 6400 →
        blit m a (List.replicate 6400 0) i = 0 := by
      intro m a i ha hi
      obtain ⟨k, rfl⟩ := Nat.exists_eq_add_of_le ha
      rw [blit_apply_add m a _ (by rw [hlen]; omega), List.getElem_replicate]
    have hkeep : ∀ (m : Nat → Pixel) (a i : Nat), ¬(a ≤ i ∧ i < a + 6400) →
        blit m a (List.replicate 6400 0) i = m i := by
      intro m a i ha
      apply blit_apply_of_not_mem
      rw [hlen]
      exact ha
    unfold mode13Borders
    by_cases hbelow : 220 ≤ y
    · rw [hzero _ _ _ (by omega) (by omega), if_neg (by omega)]
    · rw [hkeep _ _ _ (by omega)]
      by_cases habove : y < 20
      · rw [hzero _ _ _ (by omega) (by omega), if_neg (by omega)]
      · rw [hkeep _ _ _ (by omega), if_pos (by omega)]
  constructor
  · intro x y hx hy hout
    have hpicture : s.picture13 x y = 0 := if_neg hout
    rw [lcd_cell, hat x y hx hy, if_neg hout, hpicture]
  · intro x y hx hy hin
    rw [lcd_cell, lcd_cell, hat x y hx hy, if_pos (not_not.mp hin)]

end Screen

end Winspire.Vga
