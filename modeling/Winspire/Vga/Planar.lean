import Winspire.Vga.Mode13

/-!
# 640 pixels of four planes

`vga_planar16_draw` halves a picture of 16 colours with a table: for each pair of pixels, the sum of
their colours with room for four of them. The general renderer adds the four colours one by one.
-/

namespace Winspire.Vga

set_option autoImplicit false

/-- The colour of the pixel at bit `b` of the four planes at `a`. -/
def planesAt (m : Nat → Byte) (a b : Nat) : Nat :=
  ((m a).getLsbD b).toNat + 2 * ((m (a + 1)).getLsbD b).toNat +
    4 * ((m (a + 2)).getLsbD b).toNat + 8 * ((m (a + 3)).getLsbD b).toNat

theorem planesAt_lt (m : Nat → Byte) (a b : Nat) : planesAt m a b < 16 := by
  have hbit : ∀ c : Bool, c.toNat ≤ 1 := by decide
  have h0 := hbit ((m a).getLsbD b)
  have h1 := hbit ((m (a + 1)).getLsbD b)
  have h2 := hbit ((m (a + 2)).getLsbD b)
  have h3 := hbit ((m (a + 3)).getLsbD b)
  unfold planesAt
  omega

theorem pairKey_bits : ∀ a b c d e f g h : Bool,
    let bit := fun i : Bool => if i then (1 : Byte) else 0
    let key := (bit a ||| bit e <<< 4) ||| (bit b ||| bit f <<< 4) <<< 1 |||
      (bit c ||| bit g <<< 4) <<< 2 ||| (bit d ||| bit h <<< 4) <<< 3
    key.toNat % 16 = a.toNat + 2 * b.toNat + 4 * c.toNat + 8 * d.toNat ∧
      key.toNat / 16 = e.toNat + 2 * f.toNat + 4 * g.toNat + 8 * h.toNat := by
  decide

theorem planar4PairKey_toNat (s : Screen) (src row : Nat) :
    (s.planar4PairKey src row).toNat % 16 = planesAt s.vga.ram src (7 - 2 * row) ∧
      (s.planar4PairKey src row).toNat / 16 = planesAt s.vga.ram src (6 - 2 * row) :=
  pairKey_bits _ _ _ _ _ _ _ _

/-- The colour that the general renderer takes from the planes. -/
theorem planes_bits : ∀ a b c d : Bool,
    let bit := fun i : Bool => if i then (1 : Word) else 0
    (bit a ||| bit b <<< 1 ||| bit c <<< 2 ||| bit d <<< 3).toNat =
      a.toNat + 2 * b.toNat + 4 * c.toNat + 8 * d.toNat := by
  decide

theorem shift_and_one (v : Byte) (n : Nat) :
    ((v.setWidth 32 : Word) >>> n) &&& 1 = if v.getLsbD n then 1 else 0 := by
  apply BitVec.eq_of_getLsbD_eq
  intro i hi
  have hone : (1 : Word).getLsbD i = decide (i = 0) := by
    interval_cases i <;> rfl
  have hset : (if v.getLsbD n then 1 else 0 : Word).getLsbD i =
      (decide (i = 0) && v.getLsbD n) := by
    cases v.getLsbD n with
    | false =>
      rw [Bool.and_false]
      exact BitVec.getLsbD_zero
    | true =>
      rw [Bool.and_true]
      exact hone
  rw [BitVec.getLsbD_and, hone, BitVec.getLsbD_ushiftRight, hset]
  rcases Nat.eq_zero_or_pos i with rfl | hpos
  · rw [Nat.add_zero, BitVec.getLsbD_setWidth, Bool.and_comm]
    by_cases hn : n < 32
    · rw [decide_eq_true hn, Bool.true_and]
    · rw [BitVec.getLsbD_of_ge v n (by omega), Bool.and_false]
  · rw [decide_eq_false (by omega), Bool.and_false, Bool.false_and]

namespace Display
variable {d : Display}

theorem planarColor_eq {addr : Word} {x n : Nat}
    (haddr : (addr + 4 * BitVec.ofNat 32 (x / 8)).toNat = n) (hn : n + 3 < d.vga.ramSize) :
    d.planarColor addr x = d.graphicPalette (planesAt d.vga.ram n (7 - x % 8)) := by
  have hram := d.vga.ramSize_lt
  have hread : ∀ i, i < 4 → d.read (addr + 4 * BitVec.ofNat 32 (x / 8) + BitVec.ofNat 32 i) =
      (d.vga.ram (n + i)).setWidth 32 := by
    intro i hi
    have hsum : (addr + 4 * BitVec.ofNat 32 (x / 8) + BitVec.ofNat 32 i).toNat = n + i := by
      rw [BitVec.toNat_add, haddr, BitVec.toNat_ofNat]
      omega
    rw [read_of_lt (by omega), hsum]
  have h1 := hread 1 (by decide)
  have h2 := hread 2 (by decide)
  have h3 := hread 3 (by decide)
  have hbits := planes_bits ((d.vga.ram n).getLsbD (7 - x % 8))
    ((d.vga.ram (n + 1)).getLsbD (7 - x % 8)) ((d.vga.ram (n + 2)).getLsbD (7 - x % 8))
    ((d.vga.ram (n + 3)).getLsbD (7 - x % 8))
  dsimp only at hbits
  unfold planarColor planesAt
  dsimp only
  rw [← hbits, ← shift_and_one, ← shift_and_one, ← shift_and_one, ← shift_and_one, ← h1, ← h2,
    ← h3]
  have hzero : d.read (addr + 4 * BitVec.ofNat 32 (x / 8) + 0) =
      (d.vga.ram n).setWidth 32 := by
    rw [← Nat.add_zero n]
    exact hread 0 (by decide)
  rw [hzero]
  rfl

theorem crtFrame_planar (h : d.crtFrame.1.shiftControl = 0) :
    d.crtFrame.1.isVbe = false ∧
      d.crtFrame.1.xdiv = (if (d.vga.regs.sr 1).getLsbD 3 then 2 else 1) ∧
      d.crtFrame.1.multiScan = d.multiScan ∧ d.crtFrame.1.startAddr * 4 = d.vga.startAddr ∧
      d.crtFrame.1.lineOffset = d.vga.lineOffset ∧ d.crtFrame.2 = d.updatePalette16.2 := by
  unfold crtFrame at h ⊢
  dsimp only at h ⊢
  by_cases hshift : (d.vga.regs.gr 5 >>> 5 &&& 3).toNat = 0 ∨
      (d.vga.regs.gr 5 >>> 5 &&& 3).toNat = 1
  · rw [if_pos hshift]
    exact ⟨rfl, rfl, rfl, rfl, rfl, rfl⟩
  · rw [if_neg hshift] at h
    exact absurd (Or.inl h) hshift

/-- The pixel at `x` of line `k`. -/
def pixel16 (ram : Nat → Byte) (palette : Nat → Word) (start line x k : Nat) : Pixel :=
  (palette (planesAt ram (start + k * line + 4 * (x / 8)) (7 - x % 8))).setWidth 16

/-- What `vga_planar16_draw` asks of a frame. -/
structure Fits16 (s : Display) (f : Frame) : Prop where
  dirtyRender : s.vga.dirtyRender = true
  width : s.fbDev.width = 320
  height : s.fbDev.height = 240
  crt : s.vga.regs.vbeEnabled = false
  shiftControl : f.shiftControl = 0
  w : f.w = 640
  h_ge : 350 ≤ f.h
  h_le : f.h ≤ 480
  even : f.h % 2 = 0
  line_ge : 320 ≤ f.lineOffset.toNat
  allPlanes : s.ar 0x12 &&& 0x0f = 0x0f
  compNtsc : s.compNtsc = false
  single : (s.vga.regs.sr 1).getLsbD 3 = false
  scan : s.vga.regs.cr 9 &&& 0x9f = 0
  banks : s.vga.regs.cr 0x17 &&& 3 = 3
  base_lt : f.srcBase.toNat < s.vga.ramSize
  end_lt : (f.srcBase + f.lineOffset * BitVec.ofNat 32 (f.h - 1) + 319).toNat < s.vga.ramSize

variable {f : Frame}

theorem Fits16.addr_lt (h : d.Fits16 f) (hbase : f.srcBase = d.vga.startAddr)
    (hline : f.lineOffset = d.vga.lineOffset) {k : Nat} (hk : k < f.h) :
    d.vga.startAddr.toNat + k * d.vga.lineOffset.toNat + 319 < d.vga.ramSize := by
  have hend := h.end_lt
  have hle := h.h_le
  have hs := d.vga.startAddr_lt
  have hl := d.vga.lineOffset_lt
  rw [hbase, hline] at hend
  have hmul := Nat.mul_le_mul_right d.vga.lineOffset.toNat (show k ≤ f.h - 1 by omega)
  have hbig := Nat.mul_le_mul (show f.h - 1 ≤ 479 by omega) (Nat.le_of_lt hl)
  have hnat : (d.vga.startAddr + d.vga.lineOffset * BitVec.ofNat 32 (f.h - 1) + 319).toNat =
      d.vga.startAddr.toNat + (f.h - 1) * d.vga.lineOffset.toNat + 319 := by
    have h319 : (319 : Word).toNat = 319 := rfl
    rw [BitVec.toNat_add, BitVec.toNat_add, BitVec.mul_comm, BitVec.toNat_mul, BitVec.toNat_ofNat,
      Nat.mod_eq_of_lt (show f.h - 1 < 2 ^ 32 by omega), h319]
    omega
  rw [hnat] at hend
  omega

theorem Fits16.toNat_line (h : d.Fits16 f) (hbase : f.srcBase = d.vga.startAddr)
    (hline : f.lineOffset = d.vga.lineOffset) {k : Nat} (hk : k < f.h) :
    (d.vga.startAddr + BitVec.ofNat 32 k * d.vga.lineOffset).toNat =
      d.vga.startAddr.toNat + k * d.vga.lineOffset.toNat := by
  have hlt := h.addr_lt hbase hline hk
  have hram := d.vga.ramSize_lt
  have hle := h.h_le
  rw [BitVec.toNat_add, BitVec.toNat_mul, BitVec.toNat_ofNat,
    Nat.mod_eq_of_lt (show k < 2 ^ 32 by omega), Nat.add_mod_mod]
  exact Nat.mod_eq_of_lt (by omega)

end Display

namespace Screen
variable {s t : Screen} {f : Display.Frame}

theorem fits16 (h : s.draws16 f = true) : s.Fits16 f := by
  unfold draws16 at h
  simp only [Bool.and_eq_true, decide_eq_true_eq, Bool.not_eq_true'] at h
  obtain ⟨⟨⟨⟨⟨⟨⟨⟨hdirty, hwidth, hheight⟩, hvbe, hshift, -⟩, hw, hge, hle, heven, hline⟩, har⟩,
    hntsc⟩, hsr, hscan, hbanks⟩, hbase⟩, hend⟩ := h
  exact ⟨hdirty, hwidth, hheight, Bool.eq_false_iff.mpr hvbe, hshift, hw, hge, hle, heven, hline,
    har, hntsc, Bool.eq_false_iff.mpr hsr, hscan, hbanks, hbase, hend⟩

/-- A mode of 640 pixels and four planes. -/
def Mode16 (s : Screen) : Prop := s.draws16 s.toDisplay.crtFrame.1 = true

theorem multiScan_zero {d : Display} (h : d.vga.regs.cr 9 &&& 0x9f = 0) : d.multiScan = 0 := by
  have hbit : ∀ i, i < 8 → (0x9f : Byte).getLsbD i = true →
      (d.vga.regs.cr 9).getLsbD i = false := by
    intro i hi hmask
    have hand := congrArg (fun b : Byte => b.getLsbD i) h
    simp only [BitVec.getLsbD_and] at hand
    rw [hmask, Bool.and_true] at hand
    exact hand.trans BitVec.getLsbD_zero
  have hlow : (d.vga.regs.cr 9).toNat % 32 = 0 := by
    have hand : d.vga.regs.cr 9 &&& 0x1f = 0 := by
      apply BitVec.eq_of_getLsbD_eq
      intro i hi
      rw [BitVec.getLsbD_and]
      by_cases h5 : i < 5
      · have hset : (0x9f : Byte).getLsbD i = true := by interval_cases i <;> rfl
        rw [hbit i hi hset, Bool.false_and]
        exact BitVec.getLsbD_zero.symm
      · have hclear : (0x1f : Byte).getLsbD i = false := by interval_cases i <;> simp_all
        rw [hclear, Bool.and_false]
        exact BitVec.getLsbD_zero.symm
    have hnat := congrArg BitVec.toNat hand
    rw [BitVec.toNat_and] at hnat
    have hmod : (d.vga.regs.cr 9).toNat % 2 ^ 5 = 0 := by
      rw [← Nat.and_two_pow_sub_one_eq_mod]
      exact hnat
    exact hmod
  unfold Display.multiScan
  dsimp only
  rw [hbit 7 (by decide) rfl, hlow]
  rfl

namespace Mode16

theorem fits (h : s.Mode16) : s.Fits16 s.toDisplay.crtFrame.1 := fits16 h

theorem frame (h : s.Mode16) : s.toDisplay.frame = s.toDisplay.crtFrame :=
  if_neg (by rw [h.fits.crt]; decide)

end Mode16

theorem Mode16.lines (h : s.Mode16) :
    s.toDisplay.crtFrame.2.Lines s.toDisplay.crtFrame.1
      (Display.pixel16 s.vga.ram s.toDisplay.updatePalette16.2.graphicPalette
        s.vga.startAddr.toNat s.vga.lineOffset.toNat)
      fun k addr _ run =>
        addr = s.vga.startAddr + BitVec.ofNat 32 k * s.vga.lineOffset ∧ run = 0 := by
  have hfits := h.fits
  obtain ⟨hvbe, hxdiv, hscan, hstart, hline, hpalette⟩ :=
    Display.crtFrame_planar hfits.shiftControl
  rw [hfits.single] at hxdiv
  rw [multiScan_zero hfits.scan] at hscan
  generalize s.toDisplay.crtFrame.1 = f at *
  rw [hpalette]
  have hbanks : s.toDisplay.updatePalette16.2.vga.regs.cr 0x17 &&& 3 = 3 := hfits.banks
  constructor
  · constructor
    · rw [BitVec.mul_comm, hstart]
      exact (BitVec.add_zero _).symm.trans (congrArg _ (BitVec.zero_mul).symm)
    · exact hscan
  · rintro k sc - ⟨haddr, hrun⟩
    unfold Display.nextLine
    rw [if_neg (by rw [hvbe]; decide), if_pos hrun]
    dsimp only
    rw [Display.mode_mask hbanks, if_pos (Nat.and_zero _)]
    refine ⟨?_, hscan⟩
    rw [haddr, hline, BitVec.ofNat_add, BitVec.add_mul, BitVec.add_assoc]
    congr 2
    exact (BitVec.one_mul _).symm
  · rintro k sc hk ⟨haddr, -⟩
    rw [Display.lineAddr_flat hbanks]
    have hmono : s.ar 0x12 ≠ 1 := by
      intro hone
      have hall := hfits.allPlanes
      rw [hone] at hall
      exact absurd hall (by decide)
    have hcolor : ∀ x, s.toDisplay.updatePalette16.2.color f sc.addr1 x 0 =
        (s.toDisplay.updatePalette16.2.planarColor sc.addr1 x, 0) := by
      intro x
      unfold Display.color
      rw [hfits.shiftControl]
      exact if_neg hmono
    rw [Display.linePixels_map hcolor]
    apply List.map_congr_left
    intro x hx
    have hlt := List.mem_range.mp hx
    have hin := hfits.addr_lt hstart hline hk
    have hram := s.vga.ramSize_lt
    have hgroup : (sc.addr1 + 4 * BitVec.ofNat 32 (x / 8)).toNat =
        s.vga.startAddr.toNat + k * s.vga.lineOffset.toNat + 4 * (x / 8) := by
      have hfour : (4 : Word).toNat = 4 := rfl
      rw [haddr, BitVec.toNat_add, hfits.toNat_line hstart hline hk, BitVec.toNat_mul,
        BitVec.toNat_ofNat, hfour]
      omega
    rw [hxdiv, Nat.zero_add]
    have hx1 : x / (if false = true then 2 else 1) = x := Nat.div_one x
    rw [hx1]
    unfold Display.pixel16
    congr 1
    exact Display.planarColor_eq hgroup
      (show _ + 3 < s.vga.ramSize by omega)

theorem Mode16.halved (h : s.Mode16) : s.toDisplay.crtFrame.2.Halved s.toDisplay.crtFrame.1 := by
  have hfits := h.fits
  obtain ⟨-, -, -, -, -, hpalette⟩ := Display.crtFrame_planar hfits.shiftControl
  rw [hpalette]
  exact ⟨hfits.width, hfits.height, hfits.w, hfits.h_le, hfits.even⟩

/-- The general renderer draws the blended pixels of the planes. -/
theorem Mode16.generic (h : s.Mode16) :
    lcd.Paints (fun x y => [Display.blend (Display.pixel16 s.vga.ram
          s.toDisplay.updatePalette16.2.graphicPalette s.vga.startAddr.toNat
          s.vga.lineOffset.toNat) s.toDisplay.crtFrame.1.top x y])
      (fun _ y => s.toDisplay.crtFrame.1.top ≤ y ∧
        y < s.toDisplay.crtFrame.1.top + s.toDisplay.crtFrame.1.h / 2)
      s.fbDev.data s.toDisplay.genericRefresh.fbDev.data := by
  have hpaints := h.lines.genericDraw h.halved
  obtain ⟨-, -, -, -, -, hpalette⟩ := Display.crtFrame_planar h.fits.shiftControl
  have hfb : s.toDisplay.crtFrame.2.fbDev.data = s.fbDev.data := by
    rw [hpalette]
    rfl
  have hgeneric : s.toDisplay.genericRefresh =
      s.toDisplay.crtFrame.2.genericDraw s.toDisplay.crtFrame.1 := by
    unfold Display.genericRefresh
    rw [h.frame]
  rw [hgeneric]
  rw [hfb] at hpaints
  exact hpaints

/-- The table follows the colours it was built from. -/
def Sums (s : Screen) : Prop :=
  s.planar4PairSumValid = true → ∀ key < 256, s.planar4PairSum key =
    c69 (s.planar4PairPalette (key % 16)) + c69 (s.planar4PairPalette (key / 16))

def Table (s : Screen) : Prop :=
  ∀ key < 256, s.planar4PairSum key =
    c69 ((s.lastPalette (key % 16)).setWidth 16) + c69 ((s.lastPalette (key / 16)).setWidth 16)

theorem planar4GetSums_frame (s : Screen) :
    ∃ palette sum valid, s.planar4GetSums = { s with
      planar4PairPalette := palette, planar4PairSum := sum, planar4PairSumValid := valid } := by
  unfold planar4GetSums
  dsimp only
  split <;> exact ⟨_, _, _, rfl⟩

theorem Sums.table (h : s.Sums) : s.planar4GetSums.Table ∧ s.planar4GetSums.Sums := by
  have hpalette : ∀ key < 256, ∀ k, k = key % 16 ∨ k = key / 16 →
      (if k < 16 then (s.lastPalette k).setWidth 16 else s.planar4PairPalette k) =
        (s.lastPalette k).setWidth 16 := by
    intro key hkey k hk
    exact if_pos (by omega)
  unfold planar4GetSums
  dsimp only
  split
  · constructor
    · intro key hkey
      dsimp only
      rw [if_pos hkey, hpalette key hkey _ (.inl rfl), hpalette key hkey _ (.inr rfl)]
    · intro _ key hkey
      dsimp only
      rw [if_pos hkey]
  · rename_i hkept
    simp only [Bool.or_eq_true, Bool.not_eq_true', not_or, Bool.not_eq_false, List.any_eq_true,
      not_exists, not_and, bne_iff_ne, ne_eq, not_not, List.mem_range] at hkept
    have htable : ∀ key < 256, s.planar4PairSum key =
        c69 ((s.lastPalette (key % 16)).setWidth 16) +
          c69 ((s.lastPalette (key / 16)).setWidth 16) := by
      intro key hkey
      rw [h hkept.1 key hkey, hkept.2 (key % 16) (by omega), hkept.2 (key / 16) (by omega)]
    constructor
    · exact htable
    · intro _ key hkey
      dsimp only
      rw [hpalette key hkey _ (.inl rfl), hpalette key hkey _ (.inr rfl)]
      exact htable key hkey

theorem Table.row (h : s.Table) (start line top y : Nat) :
    s.planar4Row (start + 2 * y * line) (start + (2 * y + 1) * line) =
      (List.range 320).map fun x =>
        Display.blend (Display.pixel16 s.vga.ram s.lastPalette start line) top x (top + y) := by
  unfold planar4Row
  rw [← flatMap_blocks _ 4 80]
  apply List.flatMap_congr
  intro group _
  apply List.map_congr_left
  intro row hrow
  have hlt := List.mem_range.mp hrow
  have hkey : ∀ src, s.planar4PairSum (s.planar4PairKey src row).toNat =
      c69 ((s.lastPalette (planesAt s.vga.ram src (7 - 2 * row))).setWidth 16) +
        c69 ((s.lastPalette (planesAt s.vga.ram src (6 - 2 * row))).setWidth 16) := by
    intro src
    obtain ⟨hleft, hright⟩ := planar4PairKey_toNat s src row
    rw [h _ (BitVec.isLt _), hleft, hright]
  have hleft : 2 * (4 * group + row) / 8 = group ∧ 2 * (4 * group + row) % 8 = 2 * row := by omega
  have hright : (2 * (4 * group + row) + 1) / 8 = group ∧
      7 - (2 * (4 * group + row) + 1) % 8 = 6 - 2 * row := by omega
  have hgroup : group * 4 = 4 * group := Nat.mul_comm group 4
  unfold Display.blend Display.pixel16 average
  dsimp only
  rw [hkey, hkey, Nat.add_sub_cancel_left, hleft.1, hleft.2, hright.1, hright.2, hgroup,
    ← BitVec.add_assoc]

/-- The blended picture behind row `y` of the panel, from the lines the last picture had. -/
def picture16 (s : Screen) (x y : Nat) : Pixel :=
  Display.blend (Display.pixel16 s.vga.ram s.lastPalette (4 * s.planar640Start).toNat
    s.planar640Line.toNat) ((480 - s.planar640Height) / 4) x y

/-- What the loop has drawn, and where it has been. -/
structure PlanarDrawn (s : Screen) (top first n : Nat) (force : Bool) (rows rows' : PlanarRows) :
    Prop where
  paints : lcd.Paints (fun x y => [s.picture16 x y])
    (fun _ y => ∃ k, first ≤ k ∧ k < first + n ∧ y = top + k ∧ (force = true ∨ rows.marks k = true))
    rows.fb rows'.fb
  bounds : rows'.dirtyMin ≤ rows.dirtyMin ∧ rows.dirtyMax ≤ rows'.dirtyMax
  within : ∀ k, first ≤ k → k < first + n → force = true ∨ rows.marks k = true →
    rows'.dirtyMin ≤ k ∧ (k : Int) ≤ rows'.dirtyMax

/-- The lines of the rows from the remembered frame. -/
structure Remembers (s : Screen) (f : Display.Frame) : Prop where
  valid : s.planar640Valid = true
  start : s.planar640Start = f.startAddr
  line : s.planar640Line = f.lineOffset
  height : s.planar640Height = f.h

theorem Table.planarRow (h : s.Table) (hfits : s.Fits16 f) (hbase : f.srcBase = s.vga.startAddr)
    (hline : f.lineOffset = s.vga.lineOffset) (hremembers : s.Remembers f) {k : Nat}
    (hk : 2 * k + 1 < f.h) (force : Bool) (rows : PlanarRows) :
    s.PlanarDrawn ((480 - f.h) / 4) k 1 force rows
      (s.planarRow f ((480 - f.h) / 4) force rows k) := by
  unfold Screen.planarRow
  by_cases hskip : (!force && !rows.marks k) = true
  · rw [if_pos hskip]
    simp only [Bool.and_eq_true, Bool.not_eq_true'] at hskip
    have hnone : ∀ j, k ≤ j → j < k + 1 → ¬(force = true ∨ rows.marks j = true) := by
      intro j hge hlt
      have hj : j = k := by omega
      rw [hj, hskip.1, hskip.2]
      simp
    refine ⟨?_, ⟨Int.le_refl _, Int.le_refl _⟩, fun j hge hlt hdraw => ?_⟩
    · refine (Raster.Paints.refl _ rows.fb).congr fun x y _ _ => ⟨?_, False.elim⟩
      rintro ⟨j, hge, hlt, -, hdraw⟩
      exact hnone j hge hlt hdraw
    · exact absurd hdraw (hnone j hge hlt)
  · rw [if_neg hskip]
    simp only [Bool.and_eq_true, Bool.not_eq_true', not_and_or, Bool.not_eq_false] at hskip
    have hrow0 : (f.srcBase + f.lineOffset * BitVec.ofNat 32 (k * 2)).toNat =
        s.vga.startAddr.toNat + 2 * k * s.vga.lineOffset.toNat := by
      rw [hbase, hline, BitVec.mul_comm, Nat.mul_comm k 2]
      exact hfits.toNat_line hbase hline (by omega)
    have hrow1 : (f.srcBase + f.lineOffset * BitVec.ofNat 32 (k * 2) + f.lineOffset).toNat =
        s.vga.startAddr.toNat + (2 * k + 1) * s.vga.lineOffset.toNat := by
      have hnext := hfits.toNat_line hbase hline hk
      rw [← hnext, hbase, hline, BitVec.mul_comm, Nat.mul_comm k 2, BitVec.ofNat_add,
        BitVec.add_mul, BitVec.add_assoc]
      congr 3
      exact (BitVec.one_mul _).symm
    have hstart : (4 * s.planar640Start).toNat = s.vga.startAddr.toNat := by
      rw [hremembers.start, BitVec.mul_comm]
      exact congrArg BitVec.toNat hbase
    have hlineNat : s.planar640Line.toNat = s.vga.lineOffset.toNat := by
      rw [hremembers.line, hline]
    dsimp only
    rw [hrow0, hrow1, h.row _ _ ((480 - f.h) / 4) k]
    have hpicture : (fun x => Display.blend (Display.pixel16 s.vga.ram s.lastPalette
        s.vga.startAddr.toNat s.vga.lineOffset.toNat) ((480 - f.h) / 4) x ((480 - f.h) / 4 + k)) =
        fun x => s.picture16 x ((480 - f.h) / 4 + k) := by
      unfold picture16
      rw [hstart, hlineNat, hremembers.height]
    rw [hpicture]
    refine ⟨?_, ⟨Int.min_le_left _ _, Int.le_max_left _ _⟩, fun j hge hlt hdraw => ?_⟩
    · refine (paints_pixels s.picture16 rows.fb ((480 - f.h) / 4 + k)).congr fun x y _ _ => ?_
      constructor
      · rintro ⟨j, hge, hlt, rfl, -⟩
        omega
      · rintro rfl
        exact ⟨k, Nat.le_refl k, Nat.lt_succ_self k, rfl, hskip⟩
    · dsimp only
      omega

theorem planarRow_marks (s : Screen) (f : Display.Frame) (top : Nat) (force : Bool)
    (rows : PlanarRows) {k j : Nat} (hne : j ≠ k) :
    (s.planarRow f top force rows k).marks j = rows.marks j := by
  unfold planarRow
  split
  · rfl
  · exact Function.update_of_ne hne _ _

theorem Table.planarRows (h : s.Table) (hfits : s.Fits16 f) (hbase : f.srcBase = s.vga.startAddr)
    (hline : f.lineOffset = s.vga.lineOffset) (hremembers : s.Remembers f) (force : Bool)
    (n first : Nat) (hn : 2 * (first + n) ≤ f.h) (rows : PlanarRows) :
    s.PlanarDrawn ((480 - f.h) / 4) first n force rows
      (s.planarRows f ((480 - f.h) / 4) force first n rows) := by
  induction n generalizing first rows with
  | zero =>
    refine ⟨?_, ⟨Int.le_refl _, Int.le_refl _⟩, fun k hge hlt => by omega⟩
    refine (Raster.Paints.refl _ rows.fb).congr fun x y _ _ => ⟨?_, False.elim⟩
    rintro ⟨k, hge, hlt, -⟩
    omega
  | succ n ih =>
    have hone := h.planarRow hfits hbase hline hremembers (show 2 * first + 1 < f.h by omega)
      force rows
    have hrest := ih (first + 1) (by omega) (s.planarRow f ((480 - f.h) / 4) force rows first)
    have hmarks : ∀ k, first + 1 ≤ k →
        (s.planarRow f ((480 - f.h) / 4) force rows first).marks k = rows.marks k := fun k hk =>
      s.planarRow_marks f _ force rows (by omega)
    unfold Screen.planarRows
    refine ⟨?_, ⟨Int.le_trans hrest.bounds.1 hone.bounds.1,
      Int.le_trans hone.bounds.2 hrest.bounds.2⟩, fun k hge hlt hdraw => ?_⟩
    · refine (hone.paints.trans hrest.paints).congr fun x y _ _ => ?_
      constructor
      · rintro ⟨k, hge, hlt, hy, hdraw⟩
        rcases Nat.eq_or_lt_of_le hge with rfl | hgt
        · exact .inl ⟨first, Nat.le_refl _, Nat.lt_succ_self _, hy, hdraw⟩
        · refine .inr ⟨k, hgt, by omega, hy, ?_⟩
          rw [hmarks k hgt]
          exact hdraw
      · rintro (⟨k, hge, hlt, hy, hdraw⟩ | ⟨k, hge, hlt, hy, hdraw⟩)
        · exact ⟨k, hge, by omega, hy, hdraw⟩
        · rw [hmarks k hge] at hdraw
          exact ⟨k, by omega, by omega, hy, hdraw⟩
    · rcases Nat.eq_or_lt_of_le hge with rfl | hgt
      · have hin := hone.within first (Nat.le_refl _) (Nat.lt_succ_self _) hdraw
        exact ⟨Int.le_trans hrest.bounds.1 hin.1, Int.le_trans hin.2 hrest.bounds.2⟩
      · apply hrest.within k hgt (by omega)
        rw [hmarks k hgt]
        exact hdraw

end Screen

end Winspire.Vga
