import Winspire.Vga.Mode13
import Winspire.Vga.VbeRuns
import Winspire.Vga.Writes
import Winspire.Lib.Incremental

/-!
# Runs in mode 13h

Every write through the window marks the rows it changes, and every change of the DAC forces the
next picture. So what a refresh leaves on the panel is what the general renderer would draw.
-/

namespace Winspire.Vga

set_option autoImplicit false

namespace VgaState
variable {s t u : VgaState}

/-- `a` is an address of row `y`. -/
def InRow (s : VgaState) (y a : Nat) : Prop :=
  s.startAddr.toNat + y * s.lineOffset.toNat ≤ a ∧
    a < s.startAddr.toNat + y * s.lineOffset.toNat + 320

/-- Marks are added, and in chain 4 the rows that change are marked. -/
structure Marks13 (s t : VgaState) : Prop where
  regs : t.regs = s.regs
  ramSize : t.ramSize = s.ramSize
  build : t.dirtyRender = s.dirtyRender
  bounded : s.Bounded13 → t.Bounded13
  grows : s.Bounded13 → ∀ y, s.Marked13 y → t.Marked13 y
  covers : s.Bounded13 → s.regs.chain4 = true → s.dirtyRender = true →
    320 ≤ s.lineOffset.toNat → ∀ a y, y < 200 → s.InRow y a → t.ram a ≠ s.ram a → t.Marked13 y

theorem Marks13.refl (s : VgaState) : Marks13 s s :=
  ⟨rfl, rfl, rfl, id, fun _ _ => id, fun _ _ _ _ _ _ _ _ h => absurd rfl h⟩

theorem Marks13.trans (h : Marks13 s t) (h' : Marks13 t u) : Marks13 s u where
  regs := h'.regs.trans h.regs
  ramSize := h'.ramSize.trans h.ramSize
  build := h'.build.trans h.build
  bounded hs := h'.bounded (h.bounded hs)
  grows hs y hy := h'.grows (h.bounded hs) y (h.grows hs y hy)
  covers hs hchain hbuild hline a y hy hrow hne := by
    have hstart : t.startAddr = s.startAddr := by
      unfold startAddr
      rw [h.regs]
    have hoffset : t.lineOffset = s.lineOffset := by
      unfold lineOffset
      rw [h.regs]
    by_cases hfirst : t.ram a = s.ram a
    · rw [← hfirst] at hne
      refine h'.covers (h.bounded hs) ?_ ?_ ?_ a y hy ?_ hne
      · rw [h.regs]
        exact hchain
      · rw [h.build]
        exact hbuild
      · rw [hoffset]
        exact hline
      · unfold InRow at *
        rw [hstart, hoffset]
        exact hrow
    · exact h'.grows (h.bounded hs) y (h.covers hs hchain hbuild hline a y hy hrow hfirst)

theorem InRow.div_eq {y a : Nat} (h : s.InRow y a) (hwide : 320 ≤ s.lineOffset.toNat) :
    (a - s.startAddr.toNat) / s.lineOffset.toNat = y := by
  obtain ⟨hge, hlt⟩ := h
  apply Nat.div_eq_of_lt_le
  · omega
  · rw [Nat.succ_mul]
    omega

section Run
variable {start addr len : Word}

theorem rows_of_run (line : Word) (hfits : addr.toNat + len.toNat < 2 ^ 32) (hlen : 0 < len.toNat)
    (hstart : start ≤ addr) :
    ((addr - start) / line).toNat = (addr.toNat - start.toNat) / line.toNat ∧
      ((addr + len - 1 - start) / line).toNat =
        (addr.toNat + len.toNat - 1 - start.toNat) / line.toNat := by
  have hle : start.toNat ≤ addr.toNat := hstart
  have hone : (1 : Word).toNat = 1 := rfl
  have hsum : (addr + len - 1).toNat = addr.toNat + len.toNat - 1 := by
    rw [BitVec.toNat_sub, BitVec.toNat_add, hone]
    omega
  constructor
  · rw [BitVec.toNat_udiv, BitVec.toNat_sub_of_le hstart]
  · have hle' : start ≤ addr + len - 1 := by
      rw [BitVec.le_def, hsum]
      omega
    rw [BitVec.toNat_udiv, BitVec.toNat_sub_of_le hle', hsum]

/-- The first byte of the run that is visible. -/
theorem visible_toNat :
    (if addr < start then start else addr).toNat = max addr.toNat start.toNat := by
  split
  · rename_i h
    have hlt : addr.toNat < start.toNat := h
    omega
  · rename_i h
    have hle : start.toNat ≤ addr.toNat := BitVec.not_lt.mp h
    omega

/-- The rows from the first visible byte cover those of every byte of the run. The length is added
to that byte, so that more rows may be marked. -/
theorem rows_of_visible (line : Word) (hfits : addr.toNat + len.toNat ≤ 2 ^ 31)
    (hsmall : start.toNat < 2 ^ 18) (hlen : 0 < len.toNat) {a : Nat} (hvisible : start.toNat ≤ a)
    (hge : addr.toNat ≤ a) (hlt : a < addr.toNat + len.toNat) :
    (((if addr < start then start else addr) - start) / line).toNat ≤
        (a - start.toNat) / line.toNat ∧
      (a - start.toNat) / line.toNat ≤
        (((if addr < start then start else addr) + len - 1 - start) / line).toNat := by
  have hmax := @visible_toNat start addr
  generalize (if addr < start then start else addr) = addr' at hmax ⊢
  have hstart : start ≤ addr' := by
    rw [BitVec.le_def]
    omega
  obtain ⟨hlo, hhi⟩ := rows_of_run line
    (show addr'.toNat + len.toNat < 2 ^ 32 by omega) hlen hstart
  rw [hlo, hhi]
  exact ⟨Nat.div_le_div_right (by omega), Nat.div_le_div_right (by omega)⟩

/-- A run that ends before the picture has no byte in it. -/
theorem not_visible (hfits : addr.toNat + len.toNat ≤ 2 ^ 31) (hend : addr + len - 1 < start)
    {a : Nat} (hlt : a < addr.toNat + len.toNat) : a < start.toNat := by
  have hone : (1 : Word).toNat = 1 := rfl
  have hsum : (addr + len - 1).toNat < start.toNat := hend
  rw [BitVec.toNat_sub, BitVec.toNat_add, hone] at hsum
  omega

theorem length_pos {c : Prop} (h : ¬(c ∨ len = 0)) : 0 < len.toNat := by
  rcases Nat.eq_zero_or_pos len.toNat with hzero | hpos
  · exact absurd (Or.inr (BitVec.eq_of_toNat_eq hzero)) h
  · exact hpos

/-- The last row is kept below the number of rows. -/
theorem lastRow_toNat {rows last row : Word} (h : rows.toNat = last.toNat + 1) :
    (if rows ≤ row then last else row).toNat = min last.toNat row.toNat := by
  split
  · rename_i hle
    have hbig : rows.toNat ≤ row.toNat := hle
    omega
  · rename_i hlt
    have hsmall : row.toNat < rows.toNat := Nat.lt_of_not_le hlt
    omega

end Run

/-- The marks grow, and cover what is visible of a run of bytes. -/
structure Marking13 (s : VgaState) (addr len : Word) (lo hi : Int) : Prop where
  bounded : 0 ≤ lo ∧ hi ≤ 199
  grows : lo ≤ s.mode13DirtyMin ∧ s.mode13DirtyMax ≤ hi
  covers : s.dirtyRender = true → 320 ≤ s.lineOffset.toNat → addr.toNat + len.toNat < 2 ^ 31 →
    ∀ a y, y < 200 → s.InRow y a → addr.toNat ≤ a → a < addr.toNat + len.toNat →
      lo ≤ y ∧ (y : Int) ≤ hi

/-- Nothing is marked: there is nothing to mark, or all of it is marked already. -/
theorem marking13_same {s : VgaState} {addr len : Word} (hcovers : s.dirtyRender = true →
    320 ≤ s.lineOffset.toNat → addr.toNat + len.toNat < 2 ^ 31 → ∀ a y, y < 200 → s.InRow y a →
      addr.toNat ≤ a → a < addr.toNat + len.toNat →
        s.mode13DirtyMin ≤ y ∧ (y : Int) ≤ s.mode13DirtyMax) :
    ∃ lo hi, s = { s with mode13DirtyMin := lo, mode13DirtyMax := hi } ∧
      (s.Bounded13 → s.Marking13 addr len lo hi) :=
  ⟨s.mode13DirtyMin, s.mode13DirtyMax, rfl,
    fun hs => ⟨hs, ⟨Int.le_refl _, Int.le_refl _⟩, hcovers⟩⟩

theorem InRow.within {s : VgaState} {addr len : Word} {a y : Nat} (hrow : s.InRow y a)
    (hwide : 320 ≤ s.lineOffset.toNat) (hfits : addr.toNat + len.toNat < 2 ^ 31)
    (hlen : 0 < len.toNat) (hge : addr.toNat ≤ a) (hlt : a < addr.toNat + len.toNat) :
    (((if addr < s.startAddr then s.startAddr else addr) - s.startAddr) / s.lineOffset).toNat ≤ y ∧
      y ≤ (((if addr < s.startAddr then s.startAddr else addr) + len - 1 - s.startAddr) /
        s.lineOffset).toNat := by
  rw [← hrow.div_eq hwide]
  exact rows_of_visible s.lineOffset (Nat.le_of_lt hfits) (startAddr_lt s) hlen
    (Nat.le_of_add_right_le hrow.1) hge hlt

theorem dirtyMode13_spec (s : VgaState) (addr len : Word) :
    ∃ lo hi, s.dirtyMode13 addr len = { s with mode13DirtyMin := lo, mode13DirtyMax := hi } ∧
      (s.Bounded13 → s.Marking13 addr len lo hi) := by
  unfold dirtyMode13
  dsimp only
  split
  · rename_i hnone
    apply marking13_same
    intro hbuild _ _ a y _ _ hge hlt
    rcases hnone with hoff | hzero
    · exact absurd hbuild hoff
    · rw [hzero] at hlt
      exact absurd hlt (by simpa using hge)
  rename_i hsome
  have hlen := length_pos hsome
  split
  · rename_i hall
    apply marking13_same
    intro _ _ _ a y hy _ _ _
    omega
  split
  · rename_i hnarrow
    apply marking13_same
    intro _ hwide
    have hlt : s.lineOffset.toNat < 320 := hnarrow
    omega
  rename_i hwide
  have hline : 320 ≤ s.lineOffset.toNat := Nat.le_of_not_lt hwide
  split
  · refine ⟨0, 199, rfl, fun hs => ⟨by decide, hs, ?_⟩⟩
    intro _ _ _ a y hy _ _ _
    omega
  split
  · rename_i hend
    apply marking13_same
    intro _ _ hfits a y _ hrow _ hlt
    exact absurd (not_visible (Nat.le_of_lt hfits) hend hlt)
      (Nat.not_lt_of_le (Nat.le_of_add_right_le hrow.1))
  have hwithin := fun hfits a y (hrow : s.InRow y a) =>
    @InRow.within s addr len a y hrow hline hfits hlen
  generalize (if addr < s.startAddr then s.startAddr else addr) = addr' at hwithin ⊢
  by_cases hlow : 200 ≤ (addr' - s.startAddr) / s.lineOffset
  · rw [if_pos hlow]
    apply marking13_same
    intro _ _ hfits a y hy hrow hge hlt
    have hle := (hwithin hfits a y hrow hge hlt).1
    have hbig : 200 ≤ ((addr' - s.startAddr) / s.lineOffset).toNat := hlow
    omega
  · rw [if_neg hlow, lastRow_toNat (show (200 : Word).toNat = (199 : Word).toNat + 1 from rfl)]
    have hfirst : ((addr' - s.startAddr) / s.lineOffset).toNat < 200 := Nat.lt_of_not_le hlow
    have h199 : (199 : Word).toNat = 199 := rfl
    refine ⟨_, _, rfl, fun hs => ⟨?_, ?_, ?_⟩⟩
    · unfold Bounded13 at hs
      omega
    · omega
    · intro _ _ hfits a y hy hrow hge hlt
      have h := hwithin hfits a y hrow hge hlt
      omega

theorem marks13_put (s : VgaState) (addr : Word) (bytes : List Byte)
    (hfits : addr.toNat + bytes.length ≤ s.ramSize) :
    Marks13 s ((s.dirtyMode13 addr (BitVec.ofNat 32 bytes.length)).put addr bytes) := by
  obtain ⟨lo, hi, heq, hmarking⟩ := s.dirtyMode13_spec addr (BitVec.ofNat 32 bytes.length)
  rw [heq]
  have hram := s.ramSize_lt
  have hlen : (BitVec.ofNat 32 bytes.length).toNat = bytes.length := by
    rw [BitVec.toNat_ofNat]
    exact Nat.mod_eq_of_lt (by omega)
  refine ⟨rfl, rfl, rfl, fun hs => (hmarking hs).bounded, ?_, ?_⟩
  · intro hs y hy
    have hgrows := (hmarking hs).grows
    unfold Marked13 at *
    exact ⟨Int.le_trans hgrows.1 hy.1, Int.le_trans hy.2 hgrows.2⟩
  · intro hs _ hbuild hwide a y hy hrow hne
    have hin : addr.toNat ≤ a ∧ a < addr.toNat + bytes.length := by
      by_contra hout
      exact hne (blit_apply_of_not_mem s.ram bytes hout)
    exact (hmarking hs).covers hbuild hwide (by omega) a y hy hrow hin.1 (by omega)

/-- A change without chain 4 does not concern the mode, if it leaves its marks. -/
theorem marks13_unchained (hregs : t.regs = s.regs) (hsize : t.ramSize = s.ramSize)
    (hbuild : t.dirtyRender = s.dirtyRender)
    (hmarks : t.mode13DirtyMin = s.mode13DirtyMin ∧ t.mode13DirtyMax = s.mode13DirtyMax)
    (hchain : s.regs.chain4 = false) : Marks13 s t := by
  have hmarked : ∀ y, t.Marked13 y ↔ s.Marked13 y := by
    intro y
    unfold Marked13
    rw [hmarks.1, hmarks.2]
  refine ⟨hregs, hsize, hbuild, ?_, fun _ y hy => (hmarked y).mpr hy, ?_⟩
  · unfold Bounded13
    rw [hmarks.1, hmarks.2]
    exact id
  · intro _ hon
    rw [hchain] at hon
    cases hon

theorem dirtyPlanar640_frame (s : VgaState) (addr len : Word) :
    ∃ lo hi rows, s.dirtyPlanar640 addr len = { s with
      planar640DirtyMin := lo, planar640DirtyMax := hi, planar640DirtyRows := rows } := by
  unfold dirtyPlanar640
  dsimp only
  repeat' split
  all_goals exact ⟨_, _, _, rfl⟩

theorem fillPlanes_frame (mask keep : Word) (i : Nat) (buf : List Byte) (s : VgaState) :
    ∃ ram, fillPlanes mask keep i buf s = { s with ram := ram } := by
  induction buf generalizing i s with
  | nil => exact ⟨s.ram, rfl⟩
  | cons b buf ih =>
    obtain ⟨ram, h⟩ := ih (i + 1)
      (s.putWord i (b.setWidth 32 * 0x01010101 &&& mask ||| s.getWord i &&& keep))
    exact ⟨ram, h⟩

theorem marks13_stores : Stores Marks13 where
  refl := Marks13.refl
  trans := Marks13.trans
  count s := by
    unfold countWrite
    split
    · exact ⟨rfl, rfl, rfl, id, fun _ _ => id, fun _ _ _ _ _ _ _ _ h => absurd rfl h⟩
    · exact Marks13.refl s
  chained s addr bytes _ hfits := marks13_put s addr bytes hfits
  oddEven s addr val hchain _ := by
    obtain ⟨lo, hi, rows, h⟩ := s.dirtyPlanar640_frame addr 1
    rw [h]
    exact marks13_unchained rfl rfl rfl ⟨rfl, rfl⟩ hchain
  planes s addr val hchain _ := by
    obtain ⟨lo, hi, rows, h⟩ := s.dirtyPlanar640_frame (addr * 4) 4
    rw [h]
    exact marks13_unchained rfl rfl rfl ⟨rfl, rfl⟩ hchain
  fill s addr mask keep buf hchain _ := by
    obtain ⟨ram, hfill⟩ := fillPlanes_frame mask keep addr.toNat buf s
    rw [hfill]
    obtain ⟨lo, hi, rows, h⟩ := dirtyPlanar640_frame { s with ram := ram } (addr * 4)
      (BitVec.ofNat 32 buf.length * 4)
    rw [h]
    exact marks13_unchained rfl rfl rfl ⟨rfl, rfl⟩ hchain

end VgaState

namespace Screen
variable {s t u : Screen}

def view13 : View Screen (Fin 320 × Fin 240) Pixel where
  want s p := s.picture13 p.1 p.2
  shown s p := s.fbDev.data (p.2 * 320 + p.1)
  marked s p := 20 ≤ p.2.val ∧ p.2.val < 220 ∧ s.vga.Marked13 (p.2.val - 20)

def Stale (s : Screen) : Prop :=
  s.graphicMode ≠ 2 ∨ s.paletteForceFull = true ∨ s.paletteDirty = true ∨
    s.lastPalette256Valid = false

/-- The DAC and the tables behind it are the same. -/
structure SameDac (s t : Screen) : Prop where
  palette : t.palette = s.palette
  dac8bit : t.dac8bit = s.dac8bit
  low : t.lastPalette256 = s.lastPalette256
  high : t.lastPalette256High = s.lastPalette256High
  pair : t.mode13PairCache = s.mode13PairCache
  valid : t.lastPalette256Valid = s.lastPalette256Valid
  dirty : t.paletteDirty = s.paletteDirty

/-- So is what the next refresh does about the palette. -/
structure SameTables (s t : Screen) : Prop extends SameDac s t where
  quiet : t.paletteQuietPolls = s.paletteQuietPolls
  force : t.paletteForceFull = s.paletteForceFull

/-- What the renderer of the planes remembers is the same. -/
structure SamePlanar (s t : Screen) : Prop where
  mode : t.graphicMode = s.graphicMode
  nspire : t.nspire = s.nspire
  lastPalette : t.lastPalette = s.lastPalette
  sum : t.planar4PairSum = s.planar4PairSum
  sumPalette : t.planar4PairPalette = s.planar4PairPalette
  sumValid : t.planar4PairSumValid = s.planar4PairSumValid
  start : t.planar640Start = s.planar640Start
  line : t.planar640Line = s.planar640Line
  height : t.planar640Height = s.planar640Height
  valid640 : t.planar640Valid = s.planar640Valid

structure SamePanel (s t : Screen) : Prop extends SamePlanar s t where
  fbDev : t.fbDev = s.fbDev

structure Untouched (s t : Screen) : Prop extends SameTables s t, SamePanel s t

theorem dacToRgb565_congr {d e : Display} (hpalette : e.palette = d.palette)
    (hdac : e.dac8bit = d.dac8bit) (v : Nat) : e.dacToRgb565 v = d.dacToRgb565 v := by
  unfold Display.dacToRgb565
  rw [hpalette, hdac]

theorem Follows.congr (h : s.Follows) (hlow : t.lastPalette256 = s.lastPalette256)
    (hhigh : t.lastPalette256High = s.lastPalette256High)
    (hpair : t.mode13PairCache = s.mode13PairCache) (hpalette : t.palette = s.palette)
    (hdac : t.dac8bit = s.dac8bit) : t.Follows := by
  have hcolour : ∀ v, t.dacToRgb565 v = s.dacToRgb565 v := dacToRgb565_congr hpalette hdac
  constructor
  · intro i hi
    rw [hlow, hcolour]
    exact h.low i hi
  · intro i hi
    rw [hhigh, hcolour]
    exact h.high i hi
  · intro cache hcache i hi
    rw [hcolour, hcolour]
    rw [hpair] at hcache
    exact h.pair cache hcache i hi

theorem SameDac.safe (h : s.SameDac t) (hs : s.Safe)
    (hquiet : t.paletteQuietPolls ≠ 0 → t.paletteForceFull = true) (hmarks : t.vga.Bounded13) :
    t.Safe where
  follows hvalid hclean := by
    rw [h.valid] at hvalid
    rw [h.dirty] at hclean
    exact (hs.follows hvalid hclean).congr h.low h.high h.pair h.palette h.dac8bit
  quiet := hquiet
  marks := hmarks

theorem Safe.of_same (hs : s.Safe) (h : s.SameTables t) (hmarks : t.vga.Bounded13) : t.Safe := by
  apply h.toSameDac.safe hs _ hmarks
  intro hquiet
  rw [h.quiet] at hquiet
  rw [h.force]
  exact hs.quiet hquiet

theorem Untouched.stale (h : s.Untouched t) (hs : s.Stale) : t.Stale := by
  unfold Stale at *
  rw [h.mode, h.force, h.dirty, h.valid]
  exact hs

theorem picture13_congr {d e : Display} {x y : Nat} (hpalette : e.palette = d.palette)
    (hdac : e.dac8bit = d.dac8bit) (hstart : e.vga.startAddr = d.vga.startAddr)
    (hline : e.vga.lineOffset = d.vga.lineOffset)
    (hram : 20 ≤ y → y < 220 →
      e.vga.ram (d.addr13 x (y - 20)) = d.vga.ram (d.addr13 x (y - 20))) :
    e.picture13 x y = d.picture13 x y := by
  unfold Display.picture13
  split
  · rename_i hin
    have haddr : e.addr13 x (y - 20) = d.addr13 x (y - 20) := by
      unfold Display.addr13
      rw [hstart, hline]
    unfold Display.pixel13
    rw [haddr, hram hin.1 hin.2]
    exact dacToRgb565_congr hpalette hdac _
  · rfl

theorem Untouched.edits (h : s.Untouched t) (hstart : t.vga.startAddr = s.vga.startAddr)
    (hline : t.vga.lineOffset = s.vga.lineOffset)
    (hgrows : ∀ y, s.vga.Marked13 y → t.vga.Marked13 y)
    (hcovers : ∀ a y, y < 200 → s.vga.InRow y a → t.vga.ram a ≠ s.vga.ram a → t.vga.Marked13 y) :
    view13.Edits s t where
  marks p hp := ⟨hp.1, hp.2.1, hgrows _ hp.2.2⟩
  shown p := by
    unfold view13
    dsimp only
    rw [h.fbDev]
  want p hp := by
    apply picture13_congr h.palette h.dac8bit hstart hline
    intro hge hlt
    by_contra hne
    have hx := p.1.isLt
    refine hp ⟨hge, hlt, hcovers _ _ (by omega) ⟨?_, ?_⟩ hne⟩
    · exact Nat.le_add_right _ _
    · unfold Display.addr13
      omega

theorem ioportWrite_spec (s : Screen) (addr : Nat) (val : Word) :
    (s.Untouched (s.ioportWrite addr val) ∨ s.SamePanel (s.ioportWrite addr val) ∧
        (s.ioportWrite addr val).paletteDirty = true ∧
          (s.ioportWrite addr val).paletteForceFull = true) ∧
      ∃ regs, (s.ioportWrite addr val).vga = { s.vga with regs := regs } := by
  have hattribute : s.Untouched (s.writeAttribute (val.setWidth 8)) ∧
      (s.writeAttribute (val.setWidth 8)).vga = s.vga := by
    unfold writeAttribute
    dsimp only
    repeat' split
    all_goals exact ⟨by repeat' constructor, rfl⟩
  have hdac : (s.Untouched (s.writeDac (val.setWidth 8)) ∨
      s.SamePanel (s.writeDac (val.setWidth 8)) ∧
        (s.writeDac (val.setWidth 8)).paletteDirty = true ∧
          (s.writeDac (val.setWidth 8)).paletteForceFull = true) ∧
      (s.writeDac (val.setWidth 8)).vga = s.vga := by
    unfold writeDac
    dsimp only
    split
    · exact ⟨.inr ⟨by repeat' constructor, rfl, rfl⟩, rfl⟩
    · exact ⟨.inl (by repeat' constructor), rfl⟩
  unfold ioportWrite
  split
  · exact ⟨.inl (by repeat' constructor), s.vga.regs, rfl⟩
  · split
    · exact ⟨.inl hattribute.1, s.vga.regs, hattribute.2⟩
    · exact ⟨.inl (by repeat' constructor), s.vga.regs, rfl⟩
    · exact ⟨.inl (by repeat' constructor), s.vga.regs, rfl⟩
    · exact ⟨hdac.1, s.vga.regs, hdac.2⟩
    · exact ⟨.inl (by repeat' constructor), s.vga.regs, rfl⟩
    · exact ⟨.inl (by repeat' constructor), s.vga.regs, rfl⟩
    · exact ⟨.inl (by repeat' constructor), s.vga.regs, rfl⟩
    · exact ⟨.inl (by repeat' constructor), s.vga.regs.ioportWrite addr val, rfl⟩

theorem nextPhase_frame (s : Screen) :
    ∃ st01 phase, s.nextPhase = { s with st01 := st01, retracePhase := phase } := by
  unfold nextPhase
  split <;> exact ⟨_, _, rfl⟩

theorem ioportRead_spec (s : Screen) (addr : Nat) :
    s.Untouched (s.ioportRead addr).2 ∧ (s.ioportRead addr).2.vga = s.vga := by
  have hdac : s.Untouched s.readDac.2 ∧ s.readDac.2.vga = s.vga := by
    unfold readDac
    dsimp only
    split <;> exact ⟨by repeat' constructor, rfl⟩
  have hstatus : s.Untouched s.readStatus.2 ∧ s.readStatus.2.vga = s.vga := by
    unfold readStatus
    dsimp only
    split
    · split
      · obtain ⟨st01, phase, hphase⟩ := nextPhase_frame { s with retracePollReads := 0 }
        rw [hphase]
        exact ⟨by repeat' constructor, rfl⟩
      · exact ⟨by repeat' constructor, rfl⟩
    · exact ⟨by repeat' constructor, rfl⟩
  unfold ioportRead
  dsimp only
  split
  · exact ⟨by repeat' constructor, rfl⟩
  · split
    all_goals first
      | exact ⟨by repeat' constructor, rfl⟩
      | exact hdac
      | exact hstatus

theorem step_spec (s : Screen) (now : Word) :
    s.Untouched (s.step now).2 ∧ (s.step now).2.vga = s.vga := by
  obtain ⟨st01, phase, hphase⟩ := s.nextPhase_frame
  unfold step
  rw [hphase]
  split
  · exact ⟨by repeat' constructor, rfl⟩
  · split <;> exact ⟨by repeat' constructor, rfl⟩

theorem memRead_spec (v : VgaState) (addr : Word) :
    ∃ latch, (v.memRead addr).2 = { v with latch := latch } := by
  unfold VgaState.memRead
  dsimp only
  repeat' split
  all_goals exact ⟨_, rfl⟩

def Holds (r : Rect) (x y : Nat) : Prop :=
  r.x ≤ x ∧ (x : Int) < r.x + r.w ∧ r.y ≤ y ∧ (y : Int) < r.y + r.h

/-- The rows of `R` are drawn, and the frontend is told of them. -/
structure Drawing (s t : Display) (R : Nat → Prop) : Prop where
  paints : lcd.Paints (fun x y => [s.picture13 x y]) (fun _ y => R y) s.fbDev.data t.fbDev.data
  told : ∃ rects, t.redraws = s.redraws ++ rects ∧
    ∀ x y, x < 320 → y < 240 → R y → ∃ r ∈ rects, Holds r x y

/-- What `vga_mode13_draw` does, when it is forced or not. -/
structure Drew13 (s : Display) (t : Screen) (force : Prop) : Prop where
  vga : ∃ lo hi, t.vga = { s.vga with mode13DirtyMin := lo, mode13DirtyMax := hi }
  bounded : t.vga.Bounded13
  follows : t.Follows
  valid : t.lastPalette256Valid = true
  clean : t.paletteDirty = false
  palette : t.palette = s.palette
  dac8bit : t.dac8bit = s.dac8bit
  quiet : t.paletteQuietPolls = s.paletteQuietPolls
  forceFull : t.paletteForceFull = s.paletteForceFull
  mode : t.graphicMode = s.graphicMode
  size : t.fbDev.width = s.fbDev.width ∧ t.fbDev.height = s.fbDev.height
  drawing : ∃ R, Drawing s t.toDisplay R ∧ (force → ∀ y, R y) ∧
    ∀ y, 20 ≤ y → y < 220 → s.vga.Marked13 (y - 20) → R y

/-- The end of `vga_mode13_draw` once rows are drawn. -/
def show13 (p : Screen) (fb : Nat → Pixel) (r : Rect) : Screen :=
  ({ p with
    vga := { p.vga with mode13DirtyMin := 200, mode13DirtyMax := -1 }
    fbDev := { p.fbDev with data := fb } } : Screen).redrawn r

/-- The drawing behind the tables: in full, or the marked rows. -/
theorem mode13Draw_eq {f : Display.Frame} (full : Bool) (hdraws : s.draws13 f = true) :
    s.mode13Draw f full = some (
      let p := s.palette256
      let lo := p.vga.mode13DirtyMin
      let hi := p.vga.mode13DirtyMax
      if (full || s.paletteDirty || !s.lastPalette256Valid) = true then
        p.show13 (p.mode13Rows f 0 200 (mode13Borders p.fbDev.data))
          ⟨0, 0, p.fbDev.width, p.fbDev.height⟩
      else if hi < lo then p
      else
        p.show13 (p.mode13Rows f lo.toNat (hi - lo + 1).toNat p.fbDev.data)
          ⟨0, lo + 20, p.fbDev.width, hi - lo + 1⟩) := by
  unfold mode13Draw
  rw [if_pos hdraws]
  dsimp only
  split
  · rfl
  · split <;> rfl

theorem show13_drew {p : Screen} (hfollows : p.Follows) (hvalid : p.lastPalette256Valid = true)
    (hclean : p.paletteDirty = false) {fb : Nat → Pixel} {r : Rect} {force : Prop}
    (R : Nat → Prop) (hpaints : lcd.Paints (fun x y => [p.picture13 x y]) (fun _ y => R y)
      p.fbDev.data fb)
    (htold : ∀ x y, x < 320 → y < 240 → R y → Holds r x y) (hforce : force → ∀ y, R y)
    (hmarked : ∀ y, 20 ≤ y → y < 220 → p.vga.Marked13 (y - 20) → R y) :
    Drew13 p.toDisplay (p.show13 fb r) force where
  vga := ⟨200, -1, rfl⟩
  bounded := ⟨(by decide : (0 : Int) ≤ 200), (by decide : (-1 : Int) ≤ 199)⟩
  follows := hfollows.congr rfl rfl rfl rfl rfl
  valid := hvalid
  clean := hclean
  palette := rfl
  dac8bit := rfl
  quiet := rfl
  forceFull := rfl
  mode := rfl
  size := ⟨rfl, rfl⟩
  drawing := ⟨R, ⟨hpaints, [r], rfl, fun x y hx hy hR =>
    ⟨r, List.mem_singleton_self r, htold x y hx hy hR⟩⟩, hforce, hmarked⟩

theorem mode13Draw_spec {f : Display.Frame} (full : Bool) (hs : s.Safe)
    (hdraws : s.draws13 f = true) (hin : ∀ y < 200, s.addr13 0 y < s.vga.ramSize)
    (hbase : f.srcBase = s.vga.startAddr) (hline : f.lineOffset = s.vga.lineOffset) :
    ∃ t, s.mode13Draw f full = some t ∧ Drew13 s.toDisplay t
      ((full || s.paletteDirty || !s.lastPalette256Valid) = true) := by
  have hfits := fits13 hdraws
  rw [mode13Draw_eq full hdraws]
  refine ⟨_, rfl, ?_⟩
  have hfollows := hs.palette256
  obtain ⟨hvalid, hclean⟩ := s.palette256_clean
  have hmarks := hs.marks
  have hwidth := hfits.width
  have hheight := hfits.height
  have hdisplay := s.palette256_display
  generalize (full || s.paletteDirty || !s.lastPalette256Valid) = force
  generalize s.palette256 = p at *
  rw [← hdisplay] at hin hbase hline hmarks hwidth hheight ⊢
  have hrows := hfollows.rows hin hbase hline
  unfold VgaState.Bounded13 at hmarks
  dsimp only
  split
  · apply show13_drew hfollows hvalid hclean fun _ => True
    · refine ((borders_paint p p.fbDev.data).trans (hrows 200 0 (by decide) _)).congr
        fun x y _ _ => ⟨fun _ => ?_, fun _ => trivial⟩
      omega
    · intro x y hx hy _
      unfold Holds
      dsimp only
      omega
    · exact fun _ _ => trivial
    · exact fun _ _ _ _ => trivial
  split
  · rename_i hforced hnone
    refine ⟨⟨_, _, rfl⟩, hmarks, hfollows, hvalid, hclean, rfl, rfl, rfl, rfl, rfl, ⟨rfl, rfl⟩,
      fun _ => False, ⟨?_, ?_⟩, ?_, ?_⟩
    · exact Raster.Paints.refl _ _
    · exact ⟨[], (List.append_nil _).symm, fun _ _ _ _ h => h.elim⟩
    · intro h
      exact absurd h hforced
    · intro y _ _ hmarked
      unfold VgaState.Marked13 at hmarked
      omega
  · rename_i hforced hsome
    apply show13_drew hfollows hvalid hclean
      fun y => 20 ≤ y ∧ y < 220 ∧ p.vga.Marked13 (y - 20)
    · refine (hrows _ _ (by omega) _).congr fun x y _ _ => ?_
      unfold VgaState.Marked13
      omega
    · intro x y hx hy hR
      unfold VgaState.Marked13 at hR
      unfold Holds
      dsimp only
      omega
    · intro h
      exact absurd h hforced
    · exact fun y hge hlt hmarked => ⟨hge, hlt, hmarked⟩

theorem mode13Draw_safe {f : Display.Frame} {full : Bool} (hs : s.Safe)
    (h : s.mode13Draw f full = some t) : t.Safe := by
  have hdraws : s.draws13 f = true := by
    by_contra hoff
    unfold mode13Draw at h
    rw [if_neg hoff] at h
    cases h
  rw [mode13Draw_eq full hdraws] at h
  cases h
  have hfollows := hs.palette256
  have hmarks := hs.marks
  have hquiet := hs.quiet
  rw [← s.palette256_display] at hmarks hquiet
  generalize s.palette256 = p at *
  have hshow : ∀ fb r, (p.show13 fb r).Safe := fun fb r =>
    ⟨fun _ _ => hfollows.congr rfl rfl rfl rfl rfl, hquiet,
      ⟨(by decide : (0 : Int) ≤ 200), (by decide : (-1 : Int) ≤ 199)⟩⟩
  dsimp only
  split
  · exact hshow _ _
  · split
    · exact ⟨fun _ _ => hfollows, hquiet, hmarks⟩
    · exact hshow _ _

theorem planar16Draw_same {f : Display.Frame} {full : Bool} (h : s.planar16Draw f full = some t) :
    s.SameTables t ∧ t.vga.mode13DirtyMin = s.vga.mode13DirtyMin ∧
      t.vga.mode13DirtyMax = s.vga.mode13DirtyMax := by
  have hsums : s.SameTables (s.updateLastPalette.2.remember f).planar4GetSums ∧
      (s.updateLastPalette.2.remember f).planar4GetSums.vga = s.vga := by
    unfold planar4GetSums
    dsimp only
    split <;> exact ⟨by repeat' constructor, rfl⟩
  unfold planar16Draw at h
  dsimp only at h
  generalize (s.updateLastPalette.2.remember f).planar4GetSums = p at *
  obtain ⟨hp, hvga⟩ := hsums
  have hmin : p.vga.mode13DirtyMin = s.vga.mode13DirtyMin := by rw [hvga]
  have hmax : p.vga.mode13DirtyMax = s.vga.mode13DirtyMax := by rw [hvga]
  have hfinish : ∀ rows r, s.SameTables ((p.finishPlanar rows).redrawn r) ∧
      ((p.finishPlanar rows).redrawn r).vga.mode13DirtyMin = s.vga.mode13DirtyMin ∧
      ((p.finishPlanar rows).redrawn r).vga.mode13DirtyMax = s.vga.mode13DirtyMax := by
    intro rows r
    exact ⟨⟨⟨hp.palette, hp.dac8bit, hp.low, hp.high, hp.pair, hp.valid, hp.dirty⟩, hp.quiet,
      hp.force⟩, hmin, hmax⟩
  have hquietly : ∀ rows, s.SameTables (p.finishPlanar rows) ∧
      (p.finishPlanar rows).vga.mode13DirtyMin = s.vga.mode13DirtyMin ∧
      (p.finishPlanar rows).vga.mode13DirtyMax = s.vga.mode13DirtyMax := by
    intro rows
    exact ⟨⟨⟨hp.palette, hp.dac8bit, hp.low, hp.high, hp.pair, hp.valid, hp.dirty⟩, hp.quiet,
      hp.force⟩, hmin, hmax⟩
  split at h
  · split at h
    · cases h
      exact hfinish _ _
    split at h
    · cases h
      exact ⟨hp, hmin, hmax⟩
    split at h
    · cases h
      exact hquietly _
    · cases h
      split
      · exact hfinish _ _
      · exact hquietly _
  · cases h

theorem vbeScale2_same {f : Display.Frame} {full : Bool} {d e : Display}
    (h : d.vbeScale2 f full = some e) :
    e.vga = d.vga ∧ e.palette = d.palette ∧ e.dac8bit = d.dac8bit ∧
      e.paletteQuietPolls = d.paletteQuietPolls ∧ e.paletteForceFull = d.paletteForceFull := by
  unfold Display.vbeScale2 at h
  split at h
  · cases h
    exact ⟨rfl, rfl, rfl, rfl, rfl⟩
  · cases h

/-- Before a frame is drawn, only the palette of the general renderer changes. -/
theorem frame_snd (d : Display) : ∃ p, d.frame.2 = { d with graphicPalette := p } := by
  unfold Display.frame
  split
  · exact d.vbeFrame_snd
  · unfold Display.crtFrame
    dsimp only
    split <;> exact ⟨_, rfl⟩

theorem graphicRefresh_safe (hs : s.Safe) (full : Bool) : (s.graphicRefresh full).Safe := by
  obtain ⟨p, hp⟩ := frame_snd s.toDisplay
  unfold graphicRefresh
  generalize s.toDisplay.frame = framed at *
  obtain ⟨f, d⟩ := framed
  cases hp
  have hs' : Safe { s with graphicPalette := p } := hs.of_same (by repeat' constructor) hs.marks
  dsimp only
  split
  · rename_i e he
    split at he
    · obtain ⟨hvga, hpalette, hdac, hquiet, hforce⟩ := vbeScale2_same he
      refine hs.of_same
        ⟨⟨hpalette, hdac, rfl, rfl, rfl, rfl, rfl⟩, hquiet, hforce⟩ ?_
      unfold forgetPlanar
      rw [hvga]
      exact hs.marks
    · cases he
  split
  · rename_i t ht
    have h := mode13Draw_safe hs' ht
    exact h.of_same (by repeat' constructor) h.marks
  split
  · rename_i t ht
    split at ht
    · obtain ⟨hsame, hmin, hmax⟩ := planar16Draw_same ht
      apply hs'.of_same hsame
      unfold VgaState.Bounded13
      rw [hmin, hmax]
      exact hs.marks
    · cases ht
  · exact hs.of_same (by repeat' constructor) hs.marks

theorem enterMode_safe (hs : s.Safe) (full : Bool) : (s.enterMode full).1.Safe := by
  unfold enterMode
  dsimp only
  split
  · exact hs
  · split
    · exact hs.of_same (by repeat' constructor) hs.marks
    · exact hs.of_same (by repeat' constructor) hs.marks

theorem refresh_safe (hs : s.Safe) {full : Bool} (h : s.refresh full = some t) : t.Safe := by
  have henter := enterMode_safe hs full
  unfold refresh at h
  split at h
  · cases h
  dsimp only at h
  generalize s.enterMode full = entered at *
  split at h
  · split at h
    · cases h
      rename_i hquiet
      refine SameDac.safe (by repeat' constructor) henter (fun _ => ?_) henter.marks
      exact henter.quiet hquiet
    · rename_i hquiet
      cases h
      apply graphicRefresh_safe
      have hzero : entered.1.paletteQuietPolls = 0 := not_not.mp hquiet
      unfold Display.takePalette
      split
      · exact SameDac.safe (by repeat' constructor) henter (fun hq => absurd hzero hq) henter.marks
      · exact henter.of_same (by repeat' constructor) henter.marks
  · cases h
    exact henter

theorem Access.safe (h : s.Access t) (hs : s.Safe) : t.Safe := by
  have hwrite : ∀ v, VgaState.Marks13 s.vga v → Safe { s with vga := v } := fun v hv =>
    hs.of_same (by repeat' constructor) (hv.bounded hs.marks)
  cases h with
  | portWrite addr val =>
    obtain ⟨huntouched, regs, hvga⟩ := s.ioportWrite_spec addr val
    have hmarks : (s.ioportWrite addr val).vga.Bounded13 := by
      rw [hvga]
      exact hs.marks
    rcases huntouched with hsame | ⟨-, hdirty, hforce⟩
    · exact hs.of_same hsame.toSameTables hmarks
    · refine ⟨fun _ hclean => ?_, fun _ => hforce, hmarks⟩
      rw [hdirty] at hclean
      cases hclean
  | portRead addr =>
    obtain ⟨hsame, hvga⟩ := s.ioportRead_spec addr
    apply hs.of_same hsame.toSameTables
    rw [hvga]
    exact hs.marks
  | write8 addr val => exact hwrite _ (VgaState.marks13_stores.memWrite addr val s.vga)
  | write16 addr val => exact hwrite _ (VgaState.marks13_stores.memWrite16 addr val s.vga)
  | write32 addr val => exact hwrite _ (VgaState.marks13_stores.memWrite32 addr val s.vga)
  | writeString addr buf hlen =>
    exact hwrite _ (VgaState.marks13_stores.memWriteString addr
      (Nat.lt_trans hlen (by decide)) s.vga)
  | read addr =>
    obtain ⟨latch, hlatch⟩ := memRead_spec s.vga addr
    rw [hlatch]
    exact hs.of_same (by repeat' constructor) hs.marks
  | tick now =>
    obtain ⟨hsame, hvga⟩ := s.step_spec now
    apply hs.of_same hsame.toSameTables
    rw [hvga]
    exact hs.marks
  | refresh full h => exact refresh_safe hs h

theorem vbeWrite_safe (hs : s.Safe) (offset val : Word) : (s.vbeWrite offset val).Safe := by
  unfold vbeWrite
  dsimp only
  split
  · exact ⟨fun _ hclean => (by cases hclean), fun _ => rfl, hs.marks⟩
  · exact hs.of_same (by repeat' constructor) hs.marks

theorem Step.safe (h : s.Step t) (hs : s.Safe) : t.Safe := by
  cases h with
  | access h => exact h.safe hs
  | vbe offset val => exact vbeWrite_safe hs offset val
  | linear addr bytes => exact hs.of_same (by repeat' constructor) hs.marks
  | text fb palette redraws _ => exact hs.of_same (by repeat' constructor) hs.marks

theorem Reachable.safe (h : Reachable s) : s.Safe := by
  induction h with
  | @init s h =>
    refine ⟨fun hvalid => ?_, fun hquiet => absurd h.quiet hquiet, ?_⟩
    · rw [h.palette256] at hvalid
      cases hvalid
    · unfold VgaState.Bounded13
      rw [h.mode13.1, h.mode13.2]
      decide
  | step _ h ih => exact h.safe ih

/-- The frame depends on the registers, apart from whether the palette has changed. -/
theorem crtFrame_congr {d e : Display} (hregs : e.vga.regs = d.vga.regs) :
    e.crtFrame.1 = { d.crtFrame.1 with paletteUpdate := e.crtFrame.1.paletteUpdate } := by
  have hscan : e.multiScan = d.multiScan := by
    unfold Display.multiScan
    rw [hregs]
  unfold Display.crtFrame
  rw [hregs, hscan]
  dsimp only
  split <;> rfl

theorem Mode13h.congr (h : s.Mode13h) (hregs : t.vga.regs = s.vga.regs)
    (hsize : t.vga.ramSize = s.vga.ramSize) (hbuild : t.vga.dirtyRender = s.vga.dirtyRender)
    (hpanel : t.fbDev.width = s.fbDev.width ∧ t.fbDev.height = s.fbDev.height) : t.Mode13h := by
  have hframe := crtFrame_congr (d := s.toDisplay) (e := t.toDisplay) hregs
  constructor
  · have hdraws := h.draws
    unfold draws13 at *
    rw [hregs, hsize, hbuild, hpanel.1, hpanel.2, hframe]
    exact hdraws
  · rw [hframe]
    exact h.w
  · rw [hframe]
    exact h.h
  · have hscan := h.multiScan
    unfold Display.multiScan at *
    rw [hregs]
    exact hscan
  · rw [hregs]
    exact h.banks
  · rw [hregs]
    exact h.graphics

theorem Drew13.of_palette {d : Display} {p : Nat → Word} {force : Prop}
    (h : Drew13 { d with graphicPalette := p } t force) : Drew13 d t.forgetPlanar force := by
  obtain ⟨R, hdrawing, hforce, hmarked⟩ := h.drawing
  exact
    { vga := h.vga
      bounded := h.bounded
      follows := h.follows.congr rfl rfl rfl rfl rfl
      valid := h.valid
      clean := h.clean
      palette := h.palette
      dac8bit := h.dac8bit
      quiet := h.quiet
      forceFull := h.forceFull
      mode := h.mode
      size := h.size
      drawing := ⟨R, ⟨hdrawing.paints, hdrawing.told⟩, hforce, hmarked⟩ }

theorem Mode13h.graphicRefresh (h : s.Mode13h) (hs : s.Safe) (full : Bool) :
    Drew13 s.toDisplay (s.graphicRefresh full)
      ((full || s.paletteDirty || !s.lastPalette256Valid) = true) := by
  obtain ⟨hvbe, -, -, hstart, hline, -⟩ := Display.crtFrame_deep h.fits.bpp
  have hdraws := h.draws
  obtain ⟨p, hp⟩ := frame_snd s.toDisplay
  rw [← h.frame] at hvbe hstart hline hdraws
  unfold Screen.graphicRefresh
  generalize s.toDisplay.frame = framed at *
  obtain ⟨f, d⟩ := framed
  cases hp
  have hs' : Safe { s with graphicPalette := p } := hs.of_same (by repeat' constructor) hs.marks
  obtain ⟨t, ht, hdrew⟩ := mode13Draw_spec (s := { s with graphicPalette := p }) full hs' hdraws
    (fun y hy => h.addr_lt (by decide) hy) hstart hline
  have hvbe' : (if f.isVbe = true then
      Display.vbeScale2 { s.toDisplay with graphicPalette := p } f full else none) = none :=
    if_neg (by rw [hvbe]; decide)
  dsimp only
  rw [hvbe']
  dsimp only
  rw [ht]
  exact hdrew.of_palette

def entered (s : Screen) (fb : Nat → Pixel) (force : Bool) : Screen :=
  { s with
    graphicMode := 2
    fbDev := { s.fbDev with data := fb }
    paletteForceFull := force }

/-- A refresh that draws: the screen may have been emptied before, and then all of it is drawn. -/
theorem refresh_draws {full : Bool} (hmode : s.modeNow = 2) (hquiet : s.paletteQuietPolls = 0)
    (ht : s.refresh full = some t) :
    ∃ fb force full', t = (s.entered fb force).graphicRefresh full' ∧
      (full = true ∨ s.graphicMode ≠ 2 ∨ s.paletteForceFull = true → full' = true) ∧
      (full' = true ∨ fb = s.fbDev.data) := by
  have henter : ∃ fb full', s.enterMode full = (s.entered fb s.paletteForceFull, full') ∧
      (full = true ∨ s.graphicMode ≠ 2 → full' = true) ∧
      (full' = true ∨ fb = s.fbDev.data) := by
    unfold enterMode
    dsimp only
    rw [hmode]
    by_cases hsame : s.graphicMode = 2
    · rw [if_pos hsame.symm]
      have hself : s.entered s.fbDev.data s.paletteForceFull = s := by
        unfold entered
        rw [← hsame]
      refine ⟨s.fbDev.data, full, by rw [hself], ?_, .inr rfl⟩
      rintro (hfull | hother)
      · exact hfull
      · exact absurd hsame hother
    · have hheld : ¬(s.graphicMode = 2 ∧ 2 ≠ 2 ∧ s.vga.textHoldDefault ≠ 0) := fun h => h.2.1 rfl
      rw [if_neg fun h => hsame h.symm, if_neg hheld]
      exact ⟨_, true, rfl, fun _ => rfl, .inl rfl⟩
  obtain ⟨fb, full', hentered, hfull, hfb⟩ := henter
  unfold refresh at ht
  rw [if_neg (by omega), hentered] at ht
  dsimp only at ht
  have hzero : ¬(s.entered fb s.paletteForceFull).paletteQuietPolls ≠ 0 := not_not.mpr hquiet
  have htwo : (s.entered fb s.paletteForceFull).graphicMode = 2 := rfl
  rw [if_pos htwo, if_neg hzero] at ht
  unfold Display.takePalette at ht
  by_cases hforce : (s.entered fb s.paletteForceFull).paletteForceFull = true
  · rw [if_pos hforce] at ht
    cases ht
    exact ⟨fb, false, true, rfl, fun _ => rfl, .inl rfl⟩
  · rw [if_neg hforce] at ht
    cases ht
    refine ⟨fb, s.paletteForceFull, full', rfl, ?_, hfb⟩
    rintro (h | h | h)
    · exact hfull (.inl h)
    · exact hfull (.inr h)
    · exact absurd h hforce

/-- The frontend is told of all that changes. -/
def Told (s t : Screen) : Prop :=
  ∃ rects, t.redraws = s.redraws ++ rects ∧
    ∀ x y, x < 320 → y < 240 → t.fbDev.data (y * 320 + x) ≠ s.fbDev.data (y * 320 + x) →
      ∃ r ∈ rects, Holds r x y

theorem Mode13h.complete {full : Bool} (h : s.Mode13h) (hs : s.Safe) (hmode : s.modeNow = 2)
    (hquiet : s.paletteQuietPolls = 0) (hfresh : full = true ∨ s.Stale ∨ view13.Fresh s)
    (ht : s.refresh full = some t) :
    t.Mode13h ∧ t.vga.startAddr = s.vga.startAddr ∧ t.vga.lineOffset = s.vga.lineOffset ∧
      view13.Complete t ∧ s.Told t := by
  obtain ⟨fb, force, full', rfl, hfull, hfb⟩ := refresh_draws hmode hquiet ht
  have hsafe : (s.entered fb force).Safe :=
    SameDac.safe (by repeat' constructor) hs (fun hne => absurd hquiet hne) hs.marks
  have hmode13 : (s.entered fb force).Mode13h := h.congr rfl rfl rfl ⟨rfl, rfl⟩
  have hdrew := hmode13.graphicRefresh hsafe full'
  generalize (s.entered fb force).graphicRefresh full' = t at hdrew ⊢
  obtain ⟨lo, hi, htvga⟩ := hdrew.vga
  obtain ⟨R, ⟨hpaints, rects, hrects, htold⟩, hforce, hmarked⟩ := hdrew.drawing
  have hregs : t.vga.regs = s.vga.regs := by rw [htvga]; rfl
  have hstart : t.vga.startAddr = s.vga.startAddr := by
    unfold VgaState.startAddr
    rw [hregs]
  have hline : t.vga.lineOffset = s.vga.lineOffset := by
    unfold VgaState.lineOffset
    rw [hregs]
  have hwant : ∀ x y, t.picture13 x y = s.picture13 x y := by
    intro x y
    apply picture13_congr hdrew.palette hdrew.dac8bit hstart hline
    intro _ _
    rw [htvga]
  have hshown : ∀ p : Fin 320 × Fin 240, (R p.2 → view13.shown t p = view13.want s p) ∧
      (¬R p.2 → t.fbDev.data (p.2 * 320 + p.1) = fb (p.2 * 320 + p.1)) := fun p =>
    Display.paints_pixel hpaints p.1.isLt p.2.isLt
  -- Without force, the screen has not been emptied and the marks are to be trusted.
  have hquietly : (∀ y, R y) ∨ view13.Fresh s ∧ fb = s.fbDev.data := by
    by_cases hforced : (full' || s.paletteDirty || !s.lastPalette256Valid) = true
    · exact .inl (hforce hforced)
    · simp only [Bool.or_eq_true, Bool.not_eq_true', not_or, Bool.not_eq_true,
        Bool.not_eq_false] at hforced
      have hkept := hfb.resolve_left (by rw [hforced.1.1]; decide)
      refine .inr ⟨?_, hkept⟩
      rcases hfresh with hf | (hmode' | hf | hdirty | hinvalid) | hfr
      · have hon := hfull (.inl hf)
        rw [hforced.1.1] at hon
        cases hon
      · have hon := hfull (.inr (.inl hmode'))
        rw [hforced.1.1] at hon
        cases hon
      · have hon := hfull (.inr (.inr hf))
        rw [hforced.1.1] at hon
        cases hon
      · rw [hforced.1.2] at hdirty
        cases hdirty
      · rw [hforced.2] at hinvalid
        cases hinvalid
      · exact hfr
  refine ⟨?_, hstart, hline, ?_, ?_⟩
  · exact h.congr hregs (by rw [htvga]; rfl) (by rw [htvga]; rfl) hdrew.size
  · rcases hquietly with hall | ⟨hsfresh, hkept⟩
    · apply View.complete_of_all (s := s)
      · exact fun p => hwant _ _
      · exact fun p => (hshown p).1 (hall _)
    · apply View.Redraws.complete (s := s) _ hsfresh
      refine ⟨fun p => hwant _ _, fun p => ?_⟩
      by_cases hR : R p.2
      · exact .inl ((hshown p).1 hR)
      · refine .inr ⟨?_, ?_⟩
        · rintro ⟨hge, hlt, hmark⟩
          exact hR (hmarked _ hge hlt hmark)
        · have hsame := (hshown p).2 hR
          rw [hkept] at hsame
          exact hsame
  · refine ⟨rects, hrects, fun x y hx hy hne => htold x y hx hy ?_⟩
    by_contra hR
    rcases hquietly with hall | ⟨-, hkept⟩
    · exact hR (hall y)
    · have hsame := (hshown (⟨x, hx⟩, ⟨y, hy⟩)).2 hR
      rw [hkept] at hsame
      exact hne hsame

/-- A refresh that does not draw leaves the next one to draw in full. -/
theorem refresh_waits {full : Bool} (hgraphics : (s.vga.regs.gr 6).getLsbD 0 = true) (hs : s.Safe)
    (ht : s.refresh full = some t) (hwaits : s.modeNow ≠ 2 ∨ s.paletteQuietPolls ≠ 0) :
    t.graphicMode ≠ 2 ∨ t.paletteForceFull = true := by
  have hmode : s.modeNow = 0 ∨ s.modeNow = 2 := by
    unfold modeNow
    rw [hgraphics]
    split
    · exact .inl rfl
    · exact .inr rfl
  have hsafe := enterMode_safe hs full
  have henter : (s.enterMode full).1.graphicMode = s.modeNow ∧
      (s.enterMode full).1.paletteQuietPolls = s.paletteQuietPolls := by
    unfold enterMode
    dsimp only
    split
    · rename_i hsame
      exact ⟨hsame.symm, rfl⟩
    · split <;> exact ⟨rfl, rfl⟩
  unfold Screen.refresh at ht
  rw [if_neg (by omega)] at ht
  dsimp only at ht
  generalize s.enterMode full = entered at *
  rw [henter.1, henter.2] at ht
  rcases hmode with hblank | hgraphic
  · rw [if_neg (by omega)] at ht
    cases ht
    left
    omega
  · have hquiet := hwaits.resolve_left (not_not.mpr hgraphic)
    rw [if_pos hgraphic, if_pos hquiet] at ht
    cases ht
    right
    apply hsafe.quiet
    rw [henter.2]
    exact hquiet

theorem Mode13h.stale {full : Bool} (h : s.Mode13h) (hs : s.Safe) (ht : s.refresh full = some t)
    (hwaits : s.modeNow ≠ 2 ∨ s.paletteQuietPolls ≠ 0) : t.Stale := by
  rcases refresh_waits h.graphics hs ht hwaits with hmode | hforce
  · exact .inl hmode
  · exact .inr (.inl hforce)

/-- A run in mode 13h: it starts where the next picture is drawn in full, or with such a picture,
and the start address and the length of a line do not change. -/
inductive Run13 : Screen → Prop where
  | enter {s : Screen} : Reachable s → s.Mode13h → s.Stale → Run13 s
  | full {s t : Screen} : Reachable s → s.Mode13h → s.modeNow = 2 → s.paletteQuietPolls = 0 →
      s.refresh true = some t → Run13 t
  | access {s t : Screen} : Run13 s → s.Access t → t.Mode13h →
      t.vga.startAddr = s.vga.startAddr → t.vga.lineOffset = s.vga.lineOffset → Run13 t

/-- The memory changes behind the renderer, or the refresh after that draws everything. -/
theorem Access.fresh (h : s.Access t) (hmode : s.Mode13h) (hs : s.Safe)
    (hstart : t.vga.startAddr = s.vga.startAddr) (hline : t.vga.lineOffset = s.vga.lineOffset)
    (hfresh : s.Stale ∨ view13.Fresh s) : t.Stale ∨ view13.Fresh t := by
  have hquiet : ∀ {u : Screen}, s.Untouched u → u.vga.startAddr = s.vga.startAddr →
      u.vga.lineOffset = s.vga.lineOffset →
      (∀ y, s.vga.Marked13 y → u.vga.Marked13 y) →
      (∀ a y, y < 200 → s.vga.InRow y a → u.vga.ram a ≠ s.vga.ram a → u.vga.Marked13 y) →
      u.Stale ∨ view13.Fresh u := by
    intro u huntouched hu1 hu2 hgrows hcovers
    rcases hfresh with hstale | hfr
    · exact .inl (huntouched.stale hstale)
    · exact .inr ((huntouched.edits hu1 hu2 hgrows hcovers).fresh hfr)
  have hwrite : ∀ v, VgaState.Marks13 s.vga v → v.startAddr = s.vga.startAddr →
      v.lineOffset = s.vga.lineOffset →
      Stale { s with vga := v } ∨ view13.Fresh { s with vga := v } := by
    intro v hv hv1 hv2
    have huntouched : s.Untouched { s with vga := v } := by repeat' constructor
    refine hquiet huntouched hv1 hv2 (hv.grows hs.marks) fun a y hy hrow hne => ?_
    exact hv.covers hs.marks hmode.fits.chain4 hmode.fits.dirtyRender hmode.line_ge a y hy hrow hne
  have hkept : ∀ {u : Screen}, s.Untouched u → u.vga.startAddr = s.vga.startAddr →
      u.vga.lineOffset = s.vga.lineOffset → u.vga.ram = s.vga.ram →
      u.vga.mode13DirtyMin = s.vga.mode13DirtyMin → u.vga.mode13DirtyMax = s.vga.mode13DirtyMax →
      u.Stale ∨ view13.Fresh u := by
    intro u huntouched hu1 hu2 hram hmin hmax
    apply hquiet huntouched hu1 hu2
    · intro y hy
      unfold VgaState.Marked13 at *
      rw [hmin, hmax]
      exact hy
    · intro a y _ _ hne
      rw [hram] at hne
      exact absurd rfl hne
  cases h with
  | portWrite addr val =>
    obtain ⟨huntouched, regs, hvga⟩ := s.ioportWrite_spec addr val
    rcases huntouched with hsame | ⟨-, hdirty, -⟩
    · apply hkept hsame hstart hline <;> rw [hvga]
    · exact .inl (.inr (.inr (.inl hdirty)))
  | portRead addr =>
    obtain ⟨hsame, hvga⟩ := s.ioportRead_spec addr
    apply hkept hsame hstart hline <;> rw [hvga]
  | write8 addr val =>
    exact hwrite _ (VgaState.marks13_stores.memWrite addr val s.vga) hstart hline
  | write16 addr val =>
    exact hwrite _ (VgaState.marks13_stores.memWrite16 addr val s.vga) hstart hline
  | write32 addr val =>
    exact hwrite _ (VgaState.marks13_stores.memWrite32 addr val s.vga) hstart hline
  | writeString addr buf hlen =>
    exact hwrite _ (VgaState.marks13_stores.memWriteString addr
      (Nat.lt_trans hlen (by decide)) s.vga) hstart hline
  | read addr =>
    obtain ⟨latch, hlatch⟩ := memRead_spec s.vga addr
    rw [hlatch] at hstart hline ⊢
    exact hkept (by repeat' constructor) hstart hline rfl rfl rfl
  | tick now =>
    obtain ⟨hsame, hvga⟩ := s.step_spec now
    apply hkept hsame hstart hline <;> rw [hvga]
  | refresh full ht =>
    by_cases hdraws : s.modeNow = 2 ∧ s.paletteQuietPolls = 0
    · obtain ⟨-, -, -, hcomplete, -⟩ :=
        hmode.complete hs hdraws.1 hdraws.2 (.inr hfresh) ht
      exact .inr hcomplete.fresh
    · left
      apply hmode.stale hs ht
      rw [← not_and_or]
      exact hdraws

theorem Run13.fresh (h : Run13 s) : s.Mode13h ∧ s.Safe ∧ (s.Stale ∨ view13.Fresh s) := by
  induction h with
  | enter hr hmode hstale => exact ⟨hmode, hr.safe, .inl hstale⟩
  | full hr hmode hnow hquiet ht =>
    obtain ⟨hmode', -, -, hcomplete, -⟩ := hmode.complete hr.safe hnow hquiet (.inl rfl) ht
    exact ⟨hmode', refresh_safe hr.safe ht, .inr hcomplete.fresh⟩
  | access _ haccess hmode' hstart hline ih =>
    obtain ⟨hmode, hs, hfresh⟩ := ih
    exact ⟨hmode', haccess.safe hs, haccess.fresh hmode hs hstart hline hfresh⟩

/-- After every refresh that draws, drawing everything once more would change nothing, and the
frontend has been told of all that has changed. -/
theorem mode13_as_generic {full : Bool} (h : Run13 s) (hmode : s.modeNow = 2)
    (hquiet : s.paletteQuietPolls = 0) (ht : s.refresh full = some t) :
    t.toDisplay.Matches t.toDisplay.genericRefresh ∧ s.Told t := by
  obtain ⟨hmode13, hs, hfresh⟩ := h.fresh
  obtain ⟨htmode, -, -, hcomplete, htold⟩ := hmode13.complete hs hmode hquiet (.inr hfresh) ht
  refine ⟨fun x y hx hy => ?_, htold⟩
  have hpixel := Display.paints_pixel htmode.generic hx hy
  by_cases hin : 20 ≤ y ∧ y < 220
  · rw [hpixel.1 hin]
    have hshown := hcomplete (⟨x, hx⟩, ⟨y, hy⟩)
    exact hshown.trans (if_pos hin)
  · exact (hpixel.2 hin).symm

theorem ramSize256_lt : 0x40000 < 2 ^ 31 := Nat.lt_of_sub_eq_succ rfl

/-- Mode 13h in 256 kilobytes, before the first picture. -/
def splash : Screen where
  toDisplay :=
    { Display.windows256 with
      vga :=
        { Display.windows256.vga with
          ramSize := 0x40000
          ramSize_lt := ramSize256_lt
          regs :=
            { VgaRegs.init 0x40000 with
              sr := fun i => [0x03, 0x01, 0x0f, 0x00, 0x0e].getD i 0
              gr := fun i => [0x00, 0x00, 0x00, 0x00, 0x00, 0x40, 0x05, 0x0f, 0xff].getD i 0
              cr := fun i => if i = 9 then 0x41 else crtc.getD i 0 } }
      graphicMode := 0 }
  nspire := true
  paced := true
  st00 := 0
  st01 := 0
  fcr := 0
  retraceTime := 0
  retracePhase := 0
  retracePollReads := 0
  arFlipFlop := false
  dacState := 0
  dacSubIndex := 0
  dacReadIndex := 0
  dacWriteIndex := 0
  dacCache := fun _ => 0
  paletteDirty := false
  lastPalette256 := fun _ => 0
  lastPalette256High := fun _ => 0
  lastPalette256Valid := false
  mode13PairCache := none
  lastPalette := fun _ => 0
  planar4PairSum := fun _ => 0
  planar4PairPalette := fun _ => 0
  planar4PairSumValid := false
  planar640Start := 0
  planar640Line := 0
  planar640Height := 0
  planar640Valid := false

theorem splash_powerOn : splash.PowerOn := ⟨rfl, rfl, rfl, rfl, rfl, ⟨rfl, rfl⟩, ⟨rfl, rfl⟩⟩

theorem splash_mode13h : splash.Mode13h where
  draws := by decide
  w := rfl
  h := rfl
  multiScan := rfl
  banks := by decide
  graphics := rfl

/-- Outside text modes there is a model of what a refresh does. -/
theorem refresh_some (full : Bool) (hmode : s.modeNow ≠ 1) : ∃ t, s.refresh full = some t := by
  unfold Screen.refresh
  rw [if_neg hmode]
  dsimp only
  split
  · split <;> exact ⟨_, rfl⟩
  · exact ⟨_, rfl⟩

def shown (s : Screen) : Screen := (s.refresh false).getD s

theorem refresh_shown (hmode : s.modeNow ≠ 1) : s.refresh false = some s.shown := by
  obtain ⟨t, ht⟩ := refresh_some (s := s) false hmode
  rw [shown, ht]
  rfl

/-- After the first picture the guest has changed a pixel of the first row. -/
def splashPoked : Screen :=
  { splash.shown with vga := splash.shown.vga.memWrite 0x10 5 }

theorem mode13_as_generic_splash :
    splashPoked.fbDev.data (20 * 320 + 16) = 50745 ∧
      splashPoked.shown.fbDev.data (20 * 320 + 16) = 14856 ∧
      splashPoked.shown.toDisplay.Matches splashPoked.shown.toDisplay.genericRefresh ∧
      splashPoked.Told splashPoked.shown := by
  have hshown : splash.shown.Mode13h := splash_mode13h.congr rfl rfl rfl ⟨rfl, rfl⟩
  have hpoked : splashPoked.Mode13h := splash_mode13h.congr rfl rfl rfl ⟨rfl, rfl⟩
  have hfirst : Run13 splash :=
    .enter (.init splash_powerOn) splash_mode13h (.inr (.inr (.inr rfl)))
  have hsecond : Run13 splash.shown :=
    .access hfirst (.refresh false (refresh_shown (by decide))) hshown rfl rfl
  have hrun : Run13 splashPoked := .access hsecond (.write8 0x10 5) hpoked rfl rfl
  exact ⟨by decide +kernel, by decide +kernel,
    mode13_as_generic hrun (by decide +kernel) (by decide +kernel)
      (refresh_shown (by decide +kernel))⟩

end Screen

end Winspire.Vga
