import Winspire.Vga.Text
import Winspire.Vga.PlanarRuns

/-!
# Runs in text modes

A cell is drawn when it is not as it was drawn last. Nothing is marked by writes: what a cell shows
is compared with what is in the memory, and the cell the cursor has left is made to differ.
-/

namespace Winspire.Vga

set_option autoImplicit false

/-- The pixel at column `k` and row `oy` of a glyph at half its size. -/
def halfPixel (glyph : Nat → Pixel) (k oy : Nat) : Pixel :=
  average (glyph (oy * 16 + 2 * k)) (glyph (oy * 16 + 2 * k + 1)) (glyph (oy * 16 + 2 * k + 8))
    (glyph (oy * 16 + 2 * k + 9))

namespace TextLayout
variable {l : TextLayout} {x y : Nat}

/-- The pixel belongs to the text on a panel of 320 by 240. -/
structure Covers (l : TextLayout) (x y : Nat) : Prop where
  left_le : l.left 320 ≤ x
  lt_right : x < l.left 320 + l.width * 4
  top_le : l.top 240 ≤ y
  lt_bottom : y < l.top 240 + l.height * (l.cheight / 2)

def column (l : TextLayout) (x : Nat) : Nat := (x - l.left 320) / 4

def line (l : TextLayout) (y : Nat) : Nat := (y - l.top 240) / (l.cheight / 2)

def cell (l : TextLayout) (x y : Nat) : Nat := l.line y * l.width + l.column x

theorem Covers.column_lt (h : l.Covers x y) : l.column x < l.width := by
  have hleft := h.left_le
  have hright := h.lt_right
  unfold column
  omega

theorem Covers.line_lt (h : l.Covers x y) : l.line y < l.height := by
  have htop := h.top_le
  have hbottom := h.lt_bottom
  unfold line
  apply Nat.div_lt_of_lt_mul
  rw [Nat.mul_comm]
  omega

theorem index_lt {cy cx w h : Nat} (hy : cy < h) (hx : cx < w) : cy * w + cx < h * w := by
  have hmul := Nat.mul_le_mul_right w (show cy + 1 ≤ h from hy)
  rw [Nat.add_mul, Nat.one_mul] at hmul
  omega

theorem Covers.cell_lt (h : l.Covers x y) : l.cell x y < l.height * l.width :=
  index_lt h.line_lt h.column_lt

theorem index_split (cy : Nat) {w cx : Nat} (hx : cx < w) :
    (cy * w + cx) / w = cy ∧ (cy * w + cx) % w = cx := by
  rw [Nat.mul_comm, Nat.add_comm]
  constructor
  · rw [Nat.add_mul_div_left _ _ (by omega), Nat.div_eq_of_lt hx, Nat.zero_add]
  · rw [Nat.add_mul_mod_self_left, Nat.mod_eq_of_lt hx]

theorem Covers.place (h : l.Covers x y) {cy cx : Nat} (hx : cx < l.width)
    (heq : l.cell x y = cy * l.width + cx) : l.line y = cy ∧ l.column x = cx := by
  obtain ⟨hline, hcolumn⟩ := index_split (l.line y) h.column_lt
  obtain ⟨hline', hcolumn'⟩ := index_split cy hx
  unfold cell at heq
  rw [heq] at hline hcolumn
  exact ⟨hline.symm.trans hline', hcolumn.symm.trans hcolumn'⟩

theorem Covers.cell_iff (h : l.Covers x y) (hpos : 0 < l.cheight / 2) {cy cx : Nat}
    (hx : cx < l.width) :
    l.cell x y = cy * l.width + cx ↔
      (l.left 320 + cx * 4 ≤ x ∧ x < l.left 320 + cx * 4 + 4) ∧
        l.top 240 + cy * (l.cheight / 2) ≤ y ∧
          y < l.top 240 + cy * (l.cheight / 2) + l.cheight / 2 := by
  have hleft := h.left_le
  have htop := h.top_le
  have hcell : l.cell x y = cy * l.width + cx ↔ l.line y = cy ∧ l.column x = cx := by
    constructor
    · exact h.place hx
    · rintro ⟨hline, hcolumn⟩
      unfold cell
      rw [hline, hcolumn]
  have hline : l.line y = cy ↔ l.top 240 + cy * (l.cheight / 2) ≤ y ∧
      y < l.top 240 + cy * (l.cheight / 2) + l.cheight / 2 := by
    unfold line
    rw [Nat.div_eq_iff hpos]
    omega
  have hcolumn : l.column x = cx ↔ l.left 320 + cx * 4 ≤ x ∧ x < l.left 320 + cx * 4 + 4 := by
    unfold column
    omega
  rw [hcell, hline, hcolumn]
  exact and_comm

def attrAt (l : TextLayout) (ram : Nat → Byte) (x y : Nat) : BitVec 16 :=
  l.chAttr ram (l.line y) (l.column x)

end TextLayout

namespace TextScreen
variable {s t u : TextScreen} {l : TextLayout} {c : TextCursor}

def textPixel (s : TextScreen) (l : TextLayout) (c : TextCursor) (x y : Nat) : Pixel :=
  halfPixel
    (s.cellGlyph l c (l.attrAt s.vga.ram x y) (c.addr == l.chAddr (l.line y) (l.column x)))
    ((x - l.left 320) % 4) ((y - l.top 240) % (l.cheight / 2))

def DrawsCell (s : TextScreen) (l : TextLayout) (c : TextCursor) (fullUpdate : Bool)
    (last : Nat → BitVec 16) (cy cx : Nat) : Prop :=
  fullUpdate = true ∨ l.chAttr s.vga.ram cy cx ≠ last (cy * l.width + cx) ∨
    c.addr = l.chAddr cy cx

theorem drawCell_paints {g : Nat → Nat → Pixel} {x : Nat} (y cheight : Nat)
    (glyph fb : Nat → Pixel) (hx : x + 4 ≤ 320)
    (hg : ∀ k oy, k < 4 → oy < cheight / 2 → g (x + k) (y + oy) = halfPixel glyph k oy) :
    lcd.Paints (fun x y => [g x y])
      (fun x' y' => (x ≤ x' ∧ x' < x + 4) ∧ y ≤ y' ∧ y' < y + cheight / 2) fb
      (drawCell fb 320 x y cheight glyph) := by
  unfold drawCell
  refine (foldl_range (P := fun n fb' => lcd.Paints (fun x y => [g x y])
    (fun x' y' => (x ≤ x' ∧ x' < x + 4) ∧ y ≤ y' ∧ y' < y + n) fb fb') (cheight / 2) ?_ ?_)
  · refine (Raster.Paints.refl _ fb).congr fun x' y' _ _ => ⟨fun hin => ?_, False.elim⟩
    omega
  · intro oy hoy fb' hpaints
    have hline : scale21 fb' ((y + oy) * 320 + x) (fun i => glyph (oy * 2 * 8 + i)) 8 =
        blit fb' (lcd.addr x (y + oy))
          (Raster.row (fun i => [g (x + i) (y + oy)]) 4) := by
      have hat : lcd.addr x (y + oy) = (y + oy) * 320 + x :=
        congrArg ((y + oy) * 320 + ·) (Nat.mul_one x)
      have hrow : Raster.row (fun i => [g (x + i) (y + oy)]) 4 =
          (List.range 4).map fun i => g (x + i) (y + oy) := List.map_eq_flatMap.symm
      rw [hat, hrow]
      unfold scale21
      congr 1
      apply List.map_congr_left
      intro k hk
      rw [hg k oy (List.mem_range.mp hk) hoy]
      have height : oy * 2 * 8 = oy * 16 := by omega
      unfold halfPixel
      rw [height]
      congr 2
    rw [hline]
    have hrun := Raster.paints_blit_run (r := lcd) (v := fun x y => [g x y]) fb' (y + oy) hx
      fun _ => rfl
    refine (hpaints.trans hrun).congr fun x' y' _ _ => ?_
    omega

/-- What `vga_text_scale2` asks of a layout. -/
structure ServesText (s : TextScreen) (l : TextLayout) : Prop where
  panel : s.fbDev.width = 320 ∧ s.fbDev.height = 240
  cheight_pos : 0 < l.cheight / 2
  cheight_le : l.cheight ≤ 16
  width_le : l.width ≤ 132
  height_le : l.height ≤ 60
  right : l.left 320 + l.width * 4 ≤ 320
  bottom : l.top 240 + l.height * (l.cheight / 2) ≤ 240

theorem servesText_iff (h : s.servesText l = true) : s.ServesText l := by
  unfold servesText at h
  simp only [Bool.and_eq_true, decide_eq_true_eq] at h
  obtain ⟨⟨⟨⟨hwidth, hheight, -⟩, hpos, hle, heven⟩, -, hw, -, hh⟩, hright, hbottom⟩ := h
  rw [hwidth] at hright
  rw [hheight] at hbottom
  exact ⟨⟨hwidth, hheight⟩, by omega, hle, hw, hh, hright, hbottom⟩

/-- The first `n` cells have been gone through. -/
structure CellsDone (s : TextScreen) (l : TextLayout) (c : TextCursor) (fullUpdate : Bool)
    (cells₀ cells : TextCells) (n : Nat) : Prop where
  paints : lcd.Paints (fun x y => [s.textPixel l c x y])
    (fun x y => l.Covers x y ∧ l.cell x y < n ∧
      s.DrawsCell l c fullUpdate cells₀.lastChAttr (l.line y) (l.column x)) cells₀.fb cells.fb
  last : ∀ i, cells.lastChAttr i =
    if i < n then l.chAttr s.vga.ram (i / l.width) (i % l.width) else cells₀.lastChAttr i
  within : ∀ x y, l.Covers x y → l.cell x y < n →
    s.DrawsCell l c fullUpdate cells₀.lastChAttr (l.line y) (l.column x) →
      cells.dirtyX0 ≤ x ∧ (x : Int) ≤ cells.dirtyX1 ∧ cells.dirtyY0 ≤ y ∧ (y : Int) ≤ cells.dirtyY1
  grows : cells.dirtyX0 ≤ cells₀.dirtyX0 ∧ cells₀.dirtyX1 ≤ cells.dirtyX1 ∧
    cells.dirtyY0 ≤ cells₀.dirtyY0 ∧ cells₀.dirtyY1 ≤ cells.dirtyY1

theorem CellsDone.start (s : TextScreen) (l : TextLayout) (c : TextCursor) (fullUpdate : Bool)
    (cells : TextCells) : CellsDone s l c fullUpdate cells cells 0 where
  paints := (Raster.Paints.refl _ cells.fb).congr fun _ _ _ _ =>
    ⟨fun h => absurd h.2.1 (Nat.not_lt_zero _), False.elim⟩
  last i := (if_neg (Nat.not_lt_zero i)).symm
  within _ _ _ hlt := absurd hlt (Nat.not_lt_zero _)
  grows := ⟨Int.le_refl _, Int.le_refl _, Int.le_refl _, Int.le_refl _⟩

section Cell
variable {c : TextCursor} {fullUpdate : Bool} {cells₀ cells : TextCells} {cy cx : Nat}

theorem not_drawsCell_iff {last : Nat → BitVec 16} (s : TextScreen) (l : TextLayout) (c : TextCursor) :
    (!fullUpdate && l.chAttr s.vga.ram cy cx == last (cy * l.width + cx) &&
        !(c.addr == l.chAddr cy cx)) = true ↔ ¬s.DrawsCell l c fullUpdate last cy cx := by
  unfold DrawsCell
  simp only [Bool.and_eq_true, Bool.not_eq_true', beq_iff_eq, beq_eq_false_iff_ne, not_or, not_not,
    Bool.not_eq_true, and_assoc]

/-- A pixel of the picture is the pixel of the glyph in its cell. -/
theorem textPixel_cell (hpos : 0 < l.cheight / 2) {k oy : Nat} (hk : k < 4)
    (hoy : oy < l.cheight / 2) :
    s.textPixel l c (l.left 320 + cx * 4 + k) (l.top 240 + cy * (l.cheight / 2) + oy) =
      halfPixel (s.cellGlyph l c (l.chAttr s.vga.ram cy cx) (c.addr == l.chAddr cy cx)) k oy := by
  have hrow : (l.top 240 + cy * (l.cheight / 2) + oy - l.top 240) = oy + l.cheight / 2 * cy := by
    rw [Nat.mul_comm cy]
    omega
  have hcol : (l.left 320 + cx * 4 + k - l.left 320) = k + 4 * cx := by omega
  have hline : l.line (l.top 240 + cy * (l.cheight / 2) + oy) = cy := by
    unfold TextLayout.line
    rw [hrow, Nat.add_mul_div_left _ _ hpos, Nat.div_eq_of_lt hoy, Nat.zero_add]
  have hcolumn : l.column (l.left 320 + cx * 4 + k) = cx := by
    unfold TextLayout.column
    rw [hcol]
    omega
  unfold textPixel TextLayout.attrAt
  rw [hline, hcolumn, hrow, hcol, Nat.add_mul_mod_self_left, Nat.add_mul_mod_self_left,
    Nat.mod_eq_of_lt hk, Nat.mod_eq_of_lt hoy]

/-- The table behind a cell, whether it is drawn or has the character of the table already. -/
theorem lastChAttr_next (hx : cx < l.width) {last : Nat → BitVec 16} (i : Nat) :
    Function.update
        (fun i => if i < cy * l.width + cx then l.chAttr s.vga.ram (i / l.width) (i % l.width)
          else last i) (cy * l.width + cx) (l.chAttr s.vga.ram cy cx) i =
      if i < cy * l.width + cx + 1 then l.chAttr s.vga.ram (i / l.width) (i % l.width)
      else last i := by
  obtain ⟨hline, hcolumn⟩ := TextLayout.index_split cy hx
  by_cases hi : i = cy * l.width + cx
  · rw [hi, Function.update_self, if_pos (Nat.lt_succ_self _), hline, hcolumn]
  · rw [Function.update_of_ne hi]
    by_cases hlt : i < cy * l.width + cx
    · rw [if_pos hlt, if_pos (Nat.lt_succ_of_lt hlt)]
    · rw [if_neg hlt, if_neg (by omega)]

theorem CellsDone.skip (h : CellsDone s l c fullUpdate cells₀ cells (cy * l.width + cx))
    (hx : cx < l.width) (hskips : ¬s.DrawsCell l c fullUpdate cells₀.lastChAttr cy cx) :
    CellsDone s l c fullUpdate cells₀ cells (cy * l.width + cx + 1) := by
  have hbefore : ∀ {x y}, l.Covers x y → l.cell x y < cy * l.width + cx + 1 →
      s.DrawsCell l c fullUpdate cells₀.lastChAttr (l.line y) (l.column x) →
        l.cell x y < cy * l.width + cx := by
    intro x y hcovers hlt hdrawn
    refine Nat.lt_of_le_of_ne (Nat.le_of_lt_succ hlt) fun hthis => ?_
    obtain ⟨hcy, hcx⟩ := hcovers.place hx hthis
    rw [hcy, hcx] at hdrawn
    exact hskips hdrawn
  refine ⟨h.paints.congr fun x y _ _ => ?_, fun i => ?_, ?_, h.grows⟩
  · constructor
    · rintro ⟨hcovers, hlt, hdrawn⟩
      exact ⟨hcovers, hbefore hcovers hlt hdrawn, hdrawn⟩
    · rintro ⟨hcovers, hlt, hdrawn⟩
      exact ⟨hcovers, Nat.lt_succ_of_lt hlt, hdrawn⟩
  · have hsame : l.chAttr s.vga.ram cy cx = cells₀.lastChAttr (cy * l.width + cx) := by
      unfold DrawsCell at hskips
      simp only [not_or, not_not] at hskips
      exact hskips.2.1
    rw [h.last, ← lastChAttr_next hx]
    by_cases hi : i = cy * l.width + cx
    · rw [hi, Function.update_self, if_neg (Nat.lt_irrefl _), hsame]
    · rw [Function.update_of_ne hi]
  · intro x y hcovers hlt hdrawn
    exact h.within x y hcovers (hbefore hcovers hlt hdrawn) hdrawn

theorem CellsDone.draw (h : CellsDone s l c fullUpdate cells₀ cells (cy * l.width + cx))
    (hserves : s.ServesText l) (hy : cy < l.height) (hx : cx < l.width)
    (hdraws : s.DrawsCell l c fullUpdate cells₀.lastChAttr cy cx) {dstX dstY : Nat}
    (hdstX : dstX = l.left 320 + cx * 4) (hdstY : dstY = l.top 240 + cy * (l.cheight / 2)) :
    CellsDone s l c fullUpdate cells₀
      { fb := drawCell cells.fb 320 dstX dstY l.cheight
          (s.cellGlyph l c (l.chAttr s.vga.ram cy cx) (c.addr == l.chAddr cy cx))
        lastChAttr := Function.update cells.lastChAttr (cy * l.width + cx)
          (l.chAttr s.vga.ram cy cx)
        dirtyX0 := min cells.dirtyX0 dstX
        dirtyY0 := min cells.dirtyY0 dstY
        dirtyX1 := max cells.dirtyX1 (dstX + 4 - 1)
        dirtyY1 := max cells.dirtyY1 (dstY + (l.cheight / 2 : Nat) - 1) }
      (cy * l.width + cx + 1) := by
  have hpos := hserves.cheight_pos
  have hright : dstX + 4 ≤ 320 := by
    have hfit := hserves.right
    omega
  have hpaints := drawCell_paints (g := s.textPixel l c) dstY l.cheight
    (s.cellGlyph l c (l.chAttr s.vga.ram cy cx) (c.addr == l.chAddr cy cx)) cells.fb hright
    fun k oy hk hoy => by
      rw [hdstX, hdstY]
      exact textPixel_cell hpos hk hoy
  -- The cells before this one, or the cell itself.
  have hnext : ∀ {x y}, l.Covers x y → (l.cell x y < cy * l.width + cx + 1 ↔
      l.cell x y < cy * l.width + cx ∨ (dstX ≤ x ∧ x < dstX + 4) ∧
        dstY ≤ y ∧ y < dstY + l.cheight / 2) := by
    intro x y hcovers
    rw [hdstX, hdstY, ← hcovers.cell_iff hpos hx]
    exact Nat.lt_succ_iff_lt_or_eq
  refine ⟨(h.paints.trans hpaints).congr fun x y _ _ => ?_, fun i => ?_, ?_, ?_⟩
  · constructor
    · rintro ⟨hcovers, hlt, hdrawn⟩
      exact ((hnext hcovers).mp hlt).imp (fun hbefore => ⟨hcovers, hbefore, hdrawn⟩) id
    · rintro (⟨hcovers, hlt, hdrawn⟩ | hin)
      · exact ⟨hcovers, Nat.lt_succ_of_lt hlt, hdrawn⟩
      · have hcovers : l.Covers x y := by
          have hmul := Nat.mul_le_mul_right (l.cheight / 2) (show cy + 1 ≤ l.height from hy)
          rw [Nat.add_mul, Nat.one_mul] at hmul
          constructor <;> omega
        rw [hdstX, hdstY] at hin
        obtain ⟨hcy, hcx⟩ := hcovers.place hx ((hcovers.cell_iff hpos hx).mpr hin)
        rw [← hdstX, ← hdstY] at hin
        refine ⟨hcovers, (hnext hcovers).mpr (.inr hin), ?_⟩
        rw [hcy, hcx]
        exact hdraws
  · dsimp only
    rw [← lastChAttr_next hx]
    exact congrArg (fun m => Function.update m _ _ i) (funext h.last)
  · intro x y hcovers hlt hdrawn
    dsimp only
    rcases (hnext hcovers).mp hlt with hbefore | hin
    · have hin := h.within x y hcovers hbefore hdrawn
      omega
    · omega
  · have hgrows := h.grows
    dsimp only
    omega

end Cell

theorem CellsDone.step {fullUpdate : Bool} {cells₀ cells : TextCells} {cy cx : Nat}
    (h : CellsDone s l c fullUpdate cells₀ cells (cy * l.width + cx)) (hserves : s.ServesText l)
    (hy : cy < l.height) (hx : cx < l.width) :
    CellsDone s l c fullUpdate cells₀ (s.textCell l c fullUpdate cy cells cx)
      (cy * l.width + cx + 1) := by
  have hlast : cells.lastChAttr (cy * l.width + cx) = cells₀.lastChAttr (cy * l.width + cx) := by
    rw [h.last, if_neg (Nat.lt_irrefl _)]
  obtain ⟨hwidth, hheight⟩ := hserves.panel
  unfold textCell
  dsimp only
  rw [hlast, hwidth, hheight]
  by_cases hdraws : s.DrawsCell l c fullUpdate cells₀.lastChAttr cy cx
  · rw [if_neg fun hskips => (not_drawsCell_iff s l c).mp hskips hdraws]
    exact h.draw hserves hy hx hdraws rfl rfl
  · rw [if_pos ((not_drawsCell_iff s l c).mpr hdraws)]
    exact h.skip hx hdraws

theorem textCells_done (hserves : s.ServesText l) (c : TextCursor) (fullUpdate : Bool)
    (cells : TextCells) :
    CellsDone s l c fullUpdate cells (s.textCells l c fullUpdate cells) (l.height * l.width) := by
  unfold textCells
  apply foldl_range (P := fun cy t => CellsDone s l c fullUpdate cells t (cy * l.width)) l.height
  · rw [Nat.zero_mul]
    exact CellsDone.start s l c fullUpdate cells
  · intro cy hy t ht
    rw [Nat.add_mul, Nat.one_mul]
    apply foldl_range (P := fun cx u => CellsDone s l c fullUpdate cells u (cy * l.width + cx))
      l.width
    · exact ht
    · intro cx hx u hu
      exact hu.step hserves hy hx

/-- What `vga_text_scale2` leaves behind. -/
structure ScaledText (p t : TextScreen) (l : TextLayout) (c : TextCursor) (fullUpdate : Bool) :
    Prop where
  frame : ∃ fb m rects, t = { p with
    fbDev := { p.fbDev with data := fb }
    lastChAttr := m
    redraws := rects }
  text : ∀ x y, x < 320 → y < 240 → l.Covers x y →
    t.fbDev.data (y * 320 + x) = p.textPixel l c x y ∨
      ¬p.DrawsCell l c fullUpdate p.lastChAttr (l.line y) (l.column x) ∧
        t.fbDev.data (y * 320 + x) = p.fbDev.data (y * 320 + x)
  border : ∀ x y, x < 320 → y < 240 → ¬l.Covers x y →
    t.fbDev.data (y * 320 + x) = if fullUpdate then 0 else p.fbDev.data (y * 320 + x)
  last : ∀ cy cx, cy < l.height → cx < l.width →
    t.lastChAttr (cy * l.width + cx) = l.chAttr p.vga.ram cy cx
  told : ∃ rects, t.redraws = p.redraws ++ rects ∧ ∀ x y, x < 320 → y < 240 →
    fullUpdate = true ∨ t.fbDev.data (y * 320 + x) ≠ p.fbDev.data (y * 320 + x) →
      ∃ r ∈ rects, Screen.Holds r x y

/-- What the cells are drawn on: an empty panel that is all new, or the last picture. -/
structure CellsBegin (p : TextScreen) (fullUpdate : Bool) (cells₀ : TextCells) : Prop where
  fb : ∀ x y, x < 320 → y < 240 →
    cells₀.fb (y * 320 + x) = if fullUpdate then 0 else p.fbDev.data (y * 320 + x)
  last : cells₀.lastChAttr = p.lastChAttr
  whole : fullUpdate = true →
    cells₀.dirtyX0 = 0 ∧ cells₀.dirtyX1 = 319 ∧ cells₀.dirtyY0 = 0 ∧ cells₀.dirtyY1 = 239

section Begin
variable {p : TextScreen} {c : TextCursor} {fullUpdate : Bool} {cells₀ cells : TextCells}

theorem ServesText.cellsBegin (h : p.ServesText l) (fullUpdate : Bool) :
    p.CellsBegin fullUpdate
      (if fullUpdate then
        ⟨p.toDisplay.clear.fbDev.data, p.lastChAttr, 0, 0, (p.fbDev.width : Int) - 1,
          (p.fbDev.height : Int) - 1⟩
      else ⟨p.fbDev.data, p.lastChAttr, p.fbDev.width, p.fbDev.height, -1, -1⟩) := by
  obtain ⟨hwidth, hheight⟩ := h.panel
  cases fullUpdate with
  | true =>
    refine ⟨fun x y hx hy => ?_, rfl, fun _ => ⟨rfl, ?_, rfl, ?_⟩⟩
    · rw [if_pos rfl, if_pos rfl]
      unfold Display.clear
      dsimp only
      rw [hwidth, hheight, if_pos (by omega)]
    · rw [if_pos rfl, hwidth]
      rfl
    · rw [if_pos rfl, hheight]
      rfl
  | false => exact ⟨fun _ _ _ _ => rfl, rfl, fun h => nomatch h⟩

theorem CellsDone.text (h : CellsDone p l c fullUpdate cells₀ cells (l.height * l.width))
    (hb : p.CellsBegin fullUpdate cells₀) {x y : Nat} (hx : x < 320) (hy : y < 240)
    (hcovers : l.Covers x y) :
    cells.fb (y * 320 + x) = p.textPixel l c x y ∨
      ¬p.DrawsCell l c fullUpdate p.lastChAttr (l.line y) (l.column x) ∧
        cells.fb (y * 320 + x) = p.fbDev.data (y * 320 + x) := by
  obtain ⟨hdrawn, hkept⟩ := Display.paints_pixel h.paints hx hy
  rw [← hb.last]
  by_cases hdraws : p.DrawsCell l c fullUpdate cells₀.lastChAttr (l.line y) (l.column x)
  · exact .inl (hdrawn ⟨hcovers, hcovers.cell_lt, hdraws⟩)
  · have hfull : ¬fullUpdate = true := fun hf => hdraws (.inl hf)
    have hold := hkept fun hin => hdraws hin.2.2
    rw [hb.fb x y hx hy, if_neg hfull] at hold
    exact .inr ⟨hdraws, hold⟩

theorem CellsDone.border (h : CellsDone p l c fullUpdate cells₀ cells (l.height * l.width))
    (hb : p.CellsBegin fullUpdate cells₀) {x y : Nat} (hx : x < 320) (hy : y < 240)
    (hout : ¬l.Covers x y) :
    cells.fb (y * 320 + x) = if fullUpdate then 0 else p.fbDev.data (y * 320 + x) := by
  rw [(Display.paints_pixel h.paints hx hy).2 fun hin => hout hin.1, hb.fb x y hx hy]

/-- All that has changed is in the rectangle that is redrawn. -/
theorem CellsDone.box (h : CellsDone p l c fullUpdate cells₀ cells (l.height * l.width))
    (hb : p.CellsBegin fullUpdate cells₀) {x y : Nat} (hx : x < 320) (hy : y < 240)
    (hchanged : fullUpdate = true ∨ cells.fb (y * 320 + x) ≠ p.fbDev.data (y * 320 + x)) :
    cells.dirtyX0 ≤ x ∧ (x : Int) ≤ cells.dirtyX1 ∧ cells.dirtyY0 ≤ y ∧
      (y : Int) ≤ cells.dirtyY1 := by
  by_cases hfull : fullUpdate = true
  · have hgrows := h.grows
    obtain ⟨hx0, hx1, hy0, hy1⟩ := hb.whole hfull
    rw [hx0, hx1, hy0, hy1] at hgrows
    omega
  · have hdrawn : l.Covers x y ∧ l.cell x y < l.height * l.width ∧
        p.DrawsCell l c fullUpdate cells₀.lastChAttr (l.line y) (l.column x) := by
      by_contra hout
      have hkept := (Display.paints_pixel h.paints hx hy).2 hout
      rw [hb.fb x y hx hy, if_neg hfull] at hkept
      exact (hchanged.resolve_left hfull) hkept
    exact h.within x y hdrawn.1 hdrawn.2.1 hdrawn.2.2

theorem CellsDone.recorded (h : CellsDone p l c fullUpdate cells₀ cells (l.height * l.width))
    {cy cx : Nat} (hcy : cy < l.height) (hcx : cx < l.width) :
    cells.lastChAttr (cy * l.width + cx) = l.chAttr p.vga.ram cy cx := by
  obtain ⟨hline, hcolumn⟩ := TextLayout.index_split cy hcx
  rw [h.last, if_pos (TextLayout.index_lt hcy hcx), hline, hcolumn]

end Begin

theorem textScale2_spec {p : TextScreen} {fullUpdate : Bool}
    (h : p.textScale2 l c fullUpdate = some t) :
    p.ServesText l ∧ ScaledText p t l c fullUpdate := by
  unfold textScale2 at h
  split at h
  swap
  · cases h
  rename_i hserves
  have hserves := servesText_iff hserves
  refine ⟨hserves, ?_⟩
  have hbegin := hserves.cellsBegin fullUpdate
  dsimp only at h
  generalize (if fullUpdate = true then
      (⟨p.toDisplay.clear.fbDev.data, p.lastChAttr, 0, 0, (p.fbDev.width : Int) - 1,
        (p.fbDev.height : Int) - 1⟩ : TextCells)
    else ⟨p.fbDev.data, p.lastChAttr, p.fbDev.width, p.fbDev.height, -1, -1⟩) = cells₀ at h hbegin
  have hdone := textCells_done hserves c fullUpdate cells₀
  generalize p.textCells l c fullUpdate cells₀ = cells at h hdone
  split at h
  · cases h
    refine ⟨⟨_, _, _, rfl⟩, fun _ _ => hdone.text hbegin, fun _ _ => hdone.border hbegin,
      fun _ _ => hdone.recorded, _, rfl, fun x y hx hy hchanged => ?_⟩
    have hin := hdone.box hbegin hx hy hchanged
    refine ⟨_, List.mem_singleton_self _, ?_⟩
    unfold Screen.Holds
    dsimp only
    omega
  · cases h
    refine ⟨⟨_, _, p.redraws, rfl⟩, fun _ _ => hdone.text hbegin, fun _ _ => hdone.border hbegin,
      fun _ _ => hdone.recorded, [], (List.append_nil _).symm, fun x y hx hy hchanged => ?_⟩
    have hin := hdone.box hbegin hx hy hchanged
    omega

theorem drawGlyph8_congr {font font' : Nat → Byte} (d : Nat → Pixel) (a linesize h : Nat)
    (fgcol bgcol : Word) (hfont : ∀ i < h, font' (4 * i) = font (4 * i)) :
    drawGlyph8 d a linesize font' h fgcol bgcol = drawGlyph8 d a linesize font h fgcol bgcol := by
  unfold drawGlyph8
  induction h with
  | zero => rfl
  | succ h ih =>
    rw [List.range_succ, List.foldl_append, List.foldl_append,
      ih fun i hi => hfont i (Nat.lt_succ_of_lt hi)]
    simp only [List.foldl_cons, List.foldl_nil]
    rw [hfont h (Nat.lt_succ_self h)]

/-- The cells have the same size, and the fonts are the same. -/
structure SameGlyphs (s t : TextScreen) : Prop where
  cwidth : t.textLayout.cwidth = s.textLayout.cwidth
  cheight : t.textLayout.cheight = s.textLayout.cheight
  fontBase : t.fontBase = s.fontBase
  font : ∀ b k, k < 8192 → t.vga.ram (s.fontBase b + 4 * k) = s.vga.ram (s.fontBase b + 4 * k)

theorem SameGlyphs.charGlyph (h : s.SameGlyphs t) (hpalette : t.lastPalette = s.lastPalette)
    (hbase : l.fontBase = s.fontBase) (hheight : l.cheight ≤ 16) (chAttr : BitVec 16) :
    t.charGlyph l chAttr = s.charGlyph l chAttr := by
  unfold TextScreen.charGlyph
  dsimp only
  rw [hpalette, hbase]
  apply drawGlyph8_congr
  intro i hi
  have hch : (chAttr &&& 0xff).toNat < 256 := by
    rw [BitVec.toNat_and]
    exact Nat.lt_of_le_of_lt Nat.and_le_right (by decide)
  have hindex : s.fontBase (chAttr.getLsbD 11) + 32 * 4 * (chAttr &&& 0xff).toNat + 4 * i =
      s.fontBase (chAttr.getLsbD 11) + 4 * (32 * (chAttr &&& 0xff).toNat + i) := by omega
  rw [hindex]
  exact h.font _ _ (by omega)

theorem textPixel_away {x y : Nat} (haway : c.addr ≠ l.chAddr (l.line y) (l.column x)) :
    s.textPixel l c x y = halfPixel (s.charGlyph l (l.attrAt s.vga.ram x y))
      ((x - l.left 320) % 4) ((y - l.top 240) % (l.cheight / 2)) := by
  unfold textPixel cellGlyph
  rw [beq_eq_false_iff_ne.mpr haway]
  rfl

theorem textPixel_congr (hvga : t.vga = s.vga) (hpalette : t.lastPalette = s.lastPalette)
    (hglyph : t.cursorGlyph = s.cursorGlyph) (hphase : t.cursorVisiblePhase = s.cursorVisiblePhase)
    (x y : Nat) : t.textPixel l c x y = s.textPixel l c x y := by
  unfold textPixel cellGlyph charGlyph withCursor showsCursor
  rw [hvga, hpalette, hglyph, hphase]

/-- The cells lie one after the other, and none of them looks like a cell that is to be drawn. -/
structure Tidy (s : TextScreen) : Prop where
  space : s.hasSpace s.textLayout = true
  lines : s.textLayout.lineOffset = BitVec.ofNat 32 (4 * s.textLayout.width)
  visible : ∀ cy cx, cy < s.textLayout.height → cx < s.textLayout.width →
    s.textLayout.chAttr s.vga.ram cy cx ≠ 0xffff

theorem Tidy.sizes (h : s.Tidy) : s.textLayout.width ≤ 132 ∧ s.textLayout.height ≤ 60 := by
  have hspace := h.space
  unfold hasSpace at hspace
  simp only [Bool.and_eq_true, decide_eq_true_eq] at hspace
  exact ⟨hspace.2.1, hspace.2.2.1⟩

theorem Tidy.index_lt (h : s.Tidy) {cy cx : Nat} (hy : cy < s.textLayout.height)
    (hx : cx < s.textLayout.width) : cy * s.textLayout.width + cx < 7920 := by
  obtain ⟨hwidth, hheight⟩ := h.sizes
  have hlt := TextLayout.index_lt hy hx
  have hmul := Nat.mul_le_mul hheight hwidth
  omega

theorem lt16 (v : BitVec 16) : (v.setWidth 32).toNat < 2 ^ 16 := by
  rw [BitVec.toNat_setWidth]
  exact Nat.lt_of_le_of_lt (Nat.mod_le _ _) v.isLt

/-- The cursor is at the cell whose number is its offset: an offset before the start is far beyond
the cells. -/
theorem Tidy.cursor_iff (h : s.Tidy) {cy cx : Nat} (hy : cy < s.textLayout.height)
    (hx : cx < s.textLayout.width) :
    s.textCursor.addr = s.textLayout.chAddr cy cx ↔
      s.cursorOffset = BitVec.ofNat 32 (cy * s.textLayout.width + cx) := by
  have hindex := h.index_lt hy hx
  have haddr : s.textLayout.chAddr cy cx =
      s.textLayout.startAddr * 4 + BitVec.ofNat 32 (cy * s.textLayout.width + cx) * 4 := by
    unfold TextLayout.chAddr
    rw [h.lines, BitVec.ofNat_add, BitVec.ofNat_mul, BitVec.ofNat_mul]
    have hfour : BitVec.ofNat 32 4 = (4 : Word) := rfl
    rw [hfour]
    ring
  have hcursor : s.textCursor.addr = s.textLayout.startAddr * 4 + s.cursorOffset * 4 := by
    unfold textCursor
    dsimp only
    ring
  rw [haddr, hcursor]
  constructor
  · intro heq
    have hsame := congrArg BitVec.toNat ((BitVec.add_right_inj _).mp heq)
    have hfour : (4 : Word).toNat = 4 := rfl
    have hstart : s.textLayout.startAddr.toNat < 2 ^ 16 :=
      lt16 (s.vga.regs.cr 0x0c ++ s.vga.regs.cr 0x0d)
    have hplace : ((s.vga.regs.cr 0x0e ++ s.vga.regs.cr 0x0f).setWidth 32).toNat < 2 ^ 16 :=
      lt16 _
    have hoffset : s.cursorOffset.toNat =
        (2 ^ 32 - s.textLayout.startAddr.toNat +
          ((s.vga.regs.cr 0x0e ++ s.vga.regs.cr 0x0f).setWidth 32).toNat) % 2 ^ 32 :=
      BitVec.toNat_sub _ _
    rw [BitVec.toNat_mul, BitVec.toNat_mul, BitVec.toNat_ofNat, hfour] at hsame
    apply BitVec.eq_of_toNat_eq
    rw [BitVec.toNat_ofNat]
    omega
  · intro heq
    rw [heq]

theorem forgetCell_cases (m : Nat → BitVec 16) (offset : Word) (i : Nat) :
    forgetCell m offset i = m i ∨ forgetCell m offset i = 0xffff := by
  unfold forgetCell
  split
  · by_cases hi : i = offset.toNat
    · right
      rw [hi]
      exact Function.update_self _ _ _
    · left
      exact Function.update_of_ne hi _ _
  · exact .inl rfl

theorem forgetCell_self (m : Nat → BitVec 16) {offset : Word} (h : offset.toNat < 7920) :
    forgetCell m offset offset.toNat = 0xffff := by
  unfold forgetCell
  have hcell : offset.toNat < maxTextWidth * maxTextHeight := h
  rw [if_pos hcell]
  exact Function.update_self _ _ _

structure TakenCursor (s t : TextScreen) (offset : Word) : Prop where
  frame : ∃ m o a b, t = { s with
    lastChAttr := m
    lastCursorOffset := o
    lastCursorStart := a
    lastCursorEnd := b }
  recorded : t.lastCursorOffset = offset.setWidth 16
  last : ∀ i, t.lastChAttr i = s.lastChAttr i ∨ t.lastChAttr i = 0xffff
  left : ∀ i < 7920, i = s.lastCursorOffset.toNat → offset ≠ BitVec.ofNat 32 i →
    t.lastChAttr i = 0xffff

theorem takeCursor_spec (s : TextScreen) (offset : Word) (c : TextCursor) :
    TakenCursor s (s.takeCursor offset c) offset := by
  have hwide : (s.lastCursorOffset.setWidth 32).toNat = s.lastCursorOffset.toNat := by
    rw [BitVec.toNat_setWidth]
    exact Nat.mod_eq_of_lt (Nat.lt_trans s.lastCursorOffset.isLt (by decide))
  unfold takeCursor
  split
  · refine ⟨⟨_, _, _, _, rfl⟩, rfl, fun i => ?_, fun i hi heq _ => ?_⟩
    · rcases forgetCell_cases (forgetCell s.lastChAttr (s.lastCursorOffset.setWidth 32)) offset i
        with hkept | hforgot
      · rcases forgetCell_cases s.lastChAttr (s.lastCursorOffset.setWidth 32) i
          with hkept' | hforgot
        · exact .inl (hkept.trans hkept')
        · exact .inr (hkept.trans hforgot)
      · exact .inr hforgot
    · have hself := forgetCell_self s.lastChAttr
        (show (s.lastCursorOffset.setWidth 32).toNat < 7920 by omega)
      rw [hwide, ← heq] at hself
      rcases forgetCell_cases (forgetCell s.lastChAttr (s.lastCursorOffset.setWidth 32)) offset i
        with hkept | hforgot
      · exact hkept.trans hself
      · exact hforgot
  · rename_i hsame
    simp only [not_or, not_not] at hsame
    have hoffset : offset = s.lastCursorOffset.setWidth 32 := hsame.1
    refine ⟨⟨_, _, _, _, rfl⟩, ?_, fun _ => .inl rfl, fun i _ heq hne => ?_⟩
    · rw [hoffset, BitVec.setWidth_setWidth_of_le _ (by decide)]
      exact (BitVec.setWidth_eq _).symm
    · refine absurd (BitVec.eq_of_toNat_eq ?_) hne
      rw [hoffset, hwide, heq, BitVec.toNat_ofNat]
      exact (Nat.mod_eq_of_lt (Nat.lt_trans s.lastCursorOffset.isLt (by decide))).symm

theorem blink_spec (now : Word) (s : TextScreen) :
    ∃ time phase, s.blink now = { s with cursorBlinkTime := time, cursorVisiblePhase := phase } ∧
      Screen.afterEq now time = false := by
  unfold blink
  split
  · refine ⟨_, _, rfl, ?_⟩
    unfold Screen.afterEq
    have hback : now - (now + 133333) = (-133333 : Word) := by ring
    rw [hback]
    rfl
  · rename_i hearly
    exact ⟨_, _, rfl, Bool.eq_false_iff.mpr hearly⟩

/-- The palette follows the DAC, unless the picture is drawn in full anyway. -/
theorem takeTextPalette_spec (s : TextScreen) (fullUpdate : Bool) :
    ∃ palette, (s.takeTextPalette fullUpdate).2 = { s with lastPalette := palette } ∧
      (fullUpdate = true →
        (s.takeTextPalette fullUpdate).1 = true ∧ palette = s.lastPalette) ∧
      ((s.takeTextPalette fullUpdate).1 = false → palette = s.lastPalette) ∧
      (fullUpdate = false → palette = s.palette16) := by
  unfold takeTextPalette
  split
  · rename_i hfull
    refine ⟨_, rfl, fun _ => ⟨rfl, rfl⟩, fun _ => rfl, fun hoff => ?_⟩
    rw [hfull] at hoff
    cases hoff
  · rename_i hquiet
    exact ⟨_, rfl, fun hfull => absurd hfull hquiet,
      fun hkept => Screen.updateLastPalette_kept hkept, fun _ => rfl⟩

structure Records (s : TextScreen) (l : TextLayout) : Prop where
  lineOffset : s.lastLineOffset.setWidth 32 = l.lineOffset
  startAddr : s.lastStartAddr.setWidth 32 = l.startAddr
  width : s.lastWidth = l.width
  height : s.lastHeight = l.height

theorem takeLayout_spec (s : TextScreen) {l : TextLayout} (fullUpdate : Bool)
    (hline : l.lineOffset.toNat < 2 ^ 16) (hstart : l.startAddr.toNat < 2 ^ 16) :
    (∃ a b w h, (s.takeLayout l fullUpdate).2 = { s with
        lastLineOffset := a, lastStartAddr := b, lastWidth := w, lastHeight := h }) ∧
      (s.takeLayout l fullUpdate).2.Records l ∧
      (fullUpdate = true → (s.takeLayout l fullUpdate).1 = true) ∧
      ((s.takeLayout l fullUpdate).1 = false → fullUpdate = false ∧ s.Records l) := by
  have hback : ∀ w : Word, w.toNat < 2 ^ 16 → (w.setWidth 16).setWidth 32 = w := by
    intro w hw
    apply BitVec.eq_of_toNat_eq
    rw [BitVec.toNat_setWidth, BitVec.toNat_setWidth]
    omega
  unfold takeLayout
  split
  · exact ⟨⟨_, _, _, _, rfl⟩, ⟨hback _ hline, hback _ hstart, rfl, rfl⟩, fun _ => rfl,
      fun hoff => (by cases hoff)⟩
  · rename_i hsame
    simp only [not_or, not_not] at hsame
    obtain ⟨hl, hs, hw, hh⟩ := hsame
    exact ⟨⟨_, _, _, _, rfl⟩, ⟨hl, hs, hw, hh⟩, id, fun hoff => ⟨hoff, hl, hs, hw, hh⟩⟩

/-- What `vga_text_refresh` does before the cells; `forced` tells whether all are drawn. -/
structure ReadyText (s p : TextScreen) (now : Word) (fullUpdate forced : Bool) : Prop where
  frame : ∃ palette time phase lineOffset startAddr width height m o a b, p = { s with
    lastPalette := palette
    cursorBlinkTime := time
    cursorVisiblePhase := phase
    lastLineOffset := lineOffset
    lastStartAddr := startAddr
    lastWidth := width
    lastHeight := height
    lastChAttr := m
    lastCursorOffset := o
    lastCursorStart := a
    lastCursorEnd := b }
  early : Screen.afterEq now p.cursorBlinkTime = false
  phase : Screen.afterEq now s.cursorBlinkTime = false →
    p.cursorVisiblePhase = s.cursorVisiblePhase
  full : fullUpdate = true → forced = true ∧ p.lastPalette = s.lastPalette
  quiet : forced = false → p.lastPalette = s.lastPalette ∧ s.Records s.textLayout
  colours : fullUpdate = false → p.lastPalette = s.palette16
  records : p.Records s.textLayout
  cursor : p.lastCursorOffset = s.cursorOffset.setWidth 16
  last : ∀ i, p.lastChAttr i = s.lastChAttr i ∨ p.lastChAttr i = 0xffff
  left : ∀ i < 7920, i = s.lastCursorOffset.toNat → s.cursorOffset ≠ BitVec.ofNat 32 i →
    p.lastChAttr i = 0xffff

theorem textLayout_bounds (s : TextScreen) :
    s.textLayout.lineOffset.toNat < 2 ^ 16 ∧ s.textLayout.startAddr.toNat < 2 ^ 16 := by
  constructor
  · have hbyte := (s.vga.regs.cr 0x13).isLt
    have hline : s.textLayout.lineOffset.toNat = (s.vga.regs.cr 0x13).toNat * 8 := by
      show ((s.vga.regs.cr 0x13).setWidth 32 <<< 3).toNat = _
      rw [BitVec.toNat_shiftLeft, BitVec.toNat_setWidth, Nat.shiftLeft_eq]
      omega
    omega
  · exact lt16 _

theorem textRefresh_ready {now : Word} {fullUpdate : Bool} (hspace : s.hasSpace s.textLayout = true)
    (ht : s.textRefresh now fullUpdate = some t) :
    ∃ p forced, ReadyText s p now fullUpdate forced ∧ p.ServesText s.textLayout ∧
      ScaledText p t s.textLayout s.textCursor forced := by
  have hkept : Screen.afterEq now s.cursorBlinkTime = false → s.blink now = s := by
    intro hearly
    unfold blink
    rw [hearly]
    exact if_neg Bool.false_ne_true
  obtain ⟨time, phase, hblink, hearly⟩ := s.blink_spec now
  obtain ⟨palette, hpalette, hforced, hquiet, hcolours⟩ :=
    (s.blink now).takeTextPalette_spec fullUpdate
  obtain ⟨hline, hstart⟩ := s.textLayout_bounds
  unfold textRefresh at ht
  generalize (s.blink now).takeTextPalette fullUpdate = taken at *
  obtain ⟨full₁, p₁⟩ := taken
  dsimp only at *
  rw [hblink] at hpalette
  have hlayout : p₁.textLayout = s.textLayout := by rw [hpalette]; rfl
  have hoffset : p₁.cursorOffset = s.cursorOffset := by rw [hpalette]; rfl
  rw [hlayout] at ht
  have hspace₁ : p₁.hasSpace s.textLayout = true := by
    rw [hpalette]
    exact hspace
  rw [if_pos hspace₁] at ht
  obtain ⟨⟨a, b, w, h, hframe₂⟩, hrecords₂, hforced₂, hquiet₂⟩ :=
    p₁.takeLayout_spec full₁ hline hstart
  generalize p₁.takeLayout s.textLayout full₁ = taken at *
  obtain ⟨full₂, p₂⟩ := taken
  dsimp only at *
  have hoffset₂ : p₂.cursorOffset = s.cursorOffset := by rw [hframe₂, ← hoffset]; rfl
  have hcursor₂ : p₂.textCursor = s.textCursor := by rw [hframe₂, hpalette]; rfl
  rw [hoffset₂, hcursor₂] at ht
  obtain ⟨⟨m, o, c₁, c₂, hframe₃⟩, hrecorded, hlast, hleft⟩ :=
    p₂.takeCursor_spec s.cursorOffset s.textCursor
  generalize p₂.takeCursor s.cursorOffset s.textCursor = p at *
  obtain ⟨hserves, hscaled⟩ := textScale2_spec ht
  have hlast₂ : p₂.lastChAttr = s.lastChAttr ∧ p₂.lastCursorOffset = s.lastCursorOffset := by
    rw [hframe₂, hpalette]
    exact ⟨rfl, rfl⟩
  have hpal : p.lastPalette = palette := by rw [hframe₃, hframe₂, hpalette]
  refine ⟨p, full₂, ⟨?_, ?_, ?_, ?_, ?_, ?_, ?_, hrecorded, ?_, ?_⟩, hserves, hscaled⟩
  · rw [hframe₃, hframe₂, hpalette]
    exact ⟨_, _, _, _, _, _, _, _, _, _, _, rfl⟩
  · rw [hframe₃, hframe₂, hpalette]
    exact hearly
  · intro h
    have hphase := congrArg TextScreen.cursorVisiblePhase (hblink.symm.trans (hkept h))
    rw [hframe₃, hframe₂, hpalette]
    exact hphase
  · intro hfull
    obtain ⟨hon, hkept⟩ := hforced hfull
    refine ⟨hforced₂ hon, ?_⟩
    rw [hpal, hkept, hblink]
  · intro hoff
    obtain ⟨hoff₁, hrec⟩ := hquiet₂ hoff
    rw [hpal, hquiet hoff₁, hblink]
    rw [hpalette] at hrec
    exact ⟨rfl, hrec.lineOffset, hrec.startAddr, hrec.width, hrec.height⟩
  · intro hfull
    rw [hpal, hcolours hfull, hblink]
  · rw [hframe₃]
    exact ⟨hrecords₂.lineOffset, hrecords₂.startAddr, hrecords₂.width, hrecords₂.height⟩
  · rw [← hlast₂.1]
    exact hlast
  · rw [← hlast₂.2]
    exact hleft

theorem textRefresh_isSome (now : Word) (fullUpdate : Bool)
    (hspace : s.hasSpace s.textLayout = true) :
    (s.textRefresh now fullUpdate).isSome = s.servesText s.textLayout := by
  have hscale : ∀ (p : TextScreen) (l : TextLayout) (c : TextCursor) (full : Bool),
      (p.textScale2 l c full).isSome = p.servesText l := by
    intro p l c full
    unfold textScale2
    split
    · rename_i hserves
      exact hserves.symm
    · rename_i hserves
      exact (Bool.eq_false_iff.mpr hserves).symm
  obtain ⟨time, phase, hblink, -⟩ := s.blink_spec now
  obtain ⟨palette, hpalette, -⟩ := (s.blink now).takeTextPalette_spec fullUpdate
  obtain ⟨hline, hstart⟩ := s.textLayout_bounds
  rw [hblink] at hpalette
  unfold textRefresh
  rw [hblink]
  generalize ({ s with cursorBlinkTime := time, cursorVisiblePhase := phase } :
    TextScreen).takeTextPalette fullUpdate = taken at *
  obtain ⟨full₁, p₁⟩ := taken
  dsimp only at *
  have hlayout : p₁.textLayout = s.textLayout := by rw [hpalette]; rfl
  have hspace₁ : p₁.hasSpace s.textLayout = true := by
    rw [hpalette]
    exact hspace
  rw [hlayout, if_pos hspace₁]
  obtain ⟨⟨a, b, w, h, hframe₂⟩, -⟩ := p₁.takeLayout_spec full₁ hline hstart
  generalize p₁.takeLayout s.textLayout full₁ = taken at *
  obtain ⟨full₂, p₂⟩ := taken
  dsimp only at *
  obtain ⟨⟨m, o, c₁, c₂, hframe₃⟩, -⟩ := p₂.takeCursor_spec p₂.cursorOffset p₂.textCursor
  rw [hscale, hframe₃, hframe₂, hpalette]
  rfl

/-- The panel shows what is in the memory. -/
structure Current (t : TextScreen) : Prop where
  text : ∀ x y, x < 320 → y < 240 → t.textLayout.Covers x y →
    t.fbDev.data (y * 320 + x) = t.textPixel t.textLayout t.textCursor x y
  border : ∀ x y, x < 320 → y < 240 → ¬t.textLayout.Covers x y →
    t.fbDev.data (y * 320 + x) = 0

/-- What the next refresh compares with is what has been drawn. -/
structure Recorded (t : TextScreen) : Prop where
  tidy : t.Tidy
  serves : t.ServesText t.textLayout
  records : t.Records t.textLayout
  cursor : t.lastCursorOffset = t.cursorOffset.setWidth 16
  last : ∀ cy cx, cy < t.textLayout.height → cx < t.textLayout.width →
    t.lastChAttr (cy * t.textLayout.width + cx) = t.textLayout.chAttr t.vga.ram cy cx

/-- The panel shows what was drawn last, the cursor apart. -/
structure ShownText (s : TextScreen) (l : TextLayout) : Prop where
  text : ∀ x y, x < 320 → y < 240 → l.Covers x y → l.cell x y ≠ s.lastCursorOffset.toNat →
    s.fbDev.data (y * 320 + x) = halfPixel (s.charGlyph l (s.lastChAttr (l.cell x y)))
      ((x - l.left 320) % 4) ((y - l.top 240) % (l.cheight / 2))
  border : ∀ x y, x < 320 → y < 240 → ¬l.Covers x y → s.fbDev.data (y * 320 + x) = 0

theorem Recorded.away (h : t.Recorded) {cy cx : Nat} (hy : cy < t.textLayout.height)
    (hx : cx < t.textLayout.width)
    (hne : cy * t.textLayout.width + cx ≠ t.lastCursorOffset.toNat) :
    t.textCursor.addr ≠ t.textLayout.chAddr cy cx := by
  intro hat
  apply hne
  have hindex := h.tidy.index_lt hy hx
  rw [h.cursor, (h.tidy.cursor_iff hy hx).mp hat, BitVec.toNat_setWidth, BitVec.toNat_ofNat]
  omega

/-- The same is shown behind any changes of the registers and of the memory, as long as the fonts
stay. -/
theorem Current.shown (hcurrent : t.Current) (hrecorded : t.Recorded) (hglyphs : t.SameGlyphs s)
    (hfb : s.fbDev = t.fbDev) (hpalette : s.lastPalette = t.lastPalette)
    (hlast : s.lastChAttr = t.lastChAttr) (hcursor : s.lastCursorOffset = t.lastCursorOffset) :
    s.ShownText t.textLayout := by
  constructor
  · intro x y hx hy hcovers hne
    rw [hcursor] at hne
    have haway := hrecorded.away hcovers.line_lt hcovers.column_lt hne
    rw [hfb, hcurrent.text x y hx hy hcovers, textPixel_away haway, hlast]
    have hattr : t.lastChAttr (t.textLayout.cell x y) =
        t.textLayout.attrAt t.vga.ram x y :=
      hrecorded.last _ _ hcovers.line_lt hcovers.column_lt
    rw [hattr, hglyphs.charGlyph hpalette rfl hrecorded.serves.cheight_le]
  · intro x y hx hy hout
    rw [hfb]
    exact hcurrent.border x y hx hy hout

/-- A cell that is skipped is as it was drawn last, and the cursor has not been there. -/
theorem ReadyText.skipped {p : TextScreen} {now : Word} {fullUpdate forced : Bool}
    (hready : ReadyText s p now fullUpdate forced) (htidy : s.Tidy)
    (hshown : fullUpdate = true ∨ (s.Records s.textLayout → s.ShownText s.textLayout)) {x y : Nat}
    (hx : x < 320) (hy : y < 240) (hcovers : s.textLayout.Covers x y)
    (hskip : ¬p.DrawsCell s.textLayout s.textCursor forced p.lastChAttr (s.textLayout.line y)
      (s.textLayout.column x)) :
    s.fbDev.data (y * 320 + x) = p.textPixel s.textLayout s.textCursor x y := by
  have hram : p.vga.ram = s.vga.ram := by
    obtain ⟨palette, time, phase, a, b, w, h, m, o, c₁, c₂, hp⟩ := hready.frame
    rw [hp]
  unfold DrawsCell at hskip
  simp only [not_or, not_not, Bool.not_eq_true] at hskip
  obtain ⟨hquiet, hattr, haway⟩ := hskip
  obtain ⟨hpalette, hrecords⟩ := hready.quiet hquiet
  have hshown' := hshown.resolve_left (fun hfull => by
    rw [(hready.full hfull).1] at hquiet
    cases hquiet) hrecords
  have hindex := htidy.index_lt hcovers.line_lt hcovers.column_lt
  have hoff : s.cursorOffset ≠ BitVec.ofNat 32 (s.textLayout.cell x y) := fun heq =>
    haway ((htidy.cursor_iff hcovers.line_lt hcovers.column_lt).mpr heq)
  have hvisible := htidy.visible _ _ hcovers.line_lt hcovers.column_lt
  rw [hram] at hattr
  have hne : s.textLayout.cell x y ≠ s.lastCursorOffset.toNat := by
    intro heq
    exact hvisible (hattr.trans (hready.left _ hindex heq hoff))
  have hlast : p.lastChAttr (s.textLayout.cell x y) =
      s.lastChAttr (s.textLayout.cell x y) := by
    rcases hready.last (s.textLayout.cell x y) with hsame | hforgot
    · exact hsame
    · exact absurd (hattr.trans hforgot) hvisible
  have hglyph : p.charGlyph s.textLayout = s.charGlyph s.textLayout := by
    funext chAttr
    unfold charGlyph
    rw [hpalette, hram]
  have hat : s.textLayout.attrAt p.vga.ram x y = s.lastChAttr (s.textLayout.cell x y) := by
    rw [hram, ← hlast]
    exact hattr
  rw [hshown'.text x y hx hy hcovers hne, textPixel_away haway, hglyph, hat]

theorem ReadyText.drawn {p : TextScreen} {now : Word} {fullUpdate forced : Bool}
    (hready : ReadyText s p now fullUpdate forced) (hserves : p.ServesText s.textLayout)
    (hscaled : ScaledText p t s.textLayout s.textCursor forced) (htidy : s.Tidy)
    (hshown : fullUpdate = true ∨ (s.Records s.textLayout → s.ShownText s.textLayout)) :
    t.Current ∧ t.Recorded := by
  obtain ⟨palette, time, phase, a, b, w, h, m, o, c₁, c₂, hp⟩ := hready.frame
  obtain ⟨fb, m', rects, ht⟩ := hscaled.frame
  have hlayout : t.textLayout = s.textLayout := by rw [ht, hp]; rfl
  have hcursor : t.textCursor = s.textCursor := by rw [ht, hp]; rfl
  have hoffset : t.cursorOffset = s.cursorOffset := by rw [ht, hp]; rfl
  have hram : t.vga.ram = s.vga.ram ∧ p.vga.ram = s.vga.ram := by rw [ht, hp]; exact ⟨rfl, rfl⟩
  have hpfb : p.fbDev = s.fbDev := by rw [hp]
  have hpixel : ∀ x y, t.textPixel s.textLayout s.textCursor x y =
      p.textPixel s.textLayout s.textCursor x y := by
    intro x y
    apply textPixel_congr
    all_goals rw [ht]
  have htidy' : t.Tidy := by
    refine ⟨?_, ?_, ?_⟩
    · rw [hlayout, ht, hp]
      exact htidy.space
    · rw [hlayout]
      exact htidy.lines
    · rw [hlayout, hram.1]
      exact htidy.visible
  refine ⟨⟨?_, ?_⟩, htidy', ?_, ?_, ?_, ?_⟩
  · rw [hlayout, hcursor]
    intro x y hx hy hcovers
    rw [hpixel]
    rcases hscaled.text x y hx hy hcovers with hdrawn | ⟨hskip, hkept⟩
    · exact hdrawn
    · rw [hkept, hpfb]
      exact hready.skipped htidy hshown hx hy hcovers hskip
  · rw [hlayout]
    intro x y hx hy hout
    rw [hscaled.border x y hx hy hout]
    split
    · rfl
    · rename_i hquiet
      have hoff : forced = false := Bool.eq_false_iff.mpr hquiet
      have hshown' := hshown.resolve_left (fun hfull => hquiet (hready.full hfull).1)
        (hready.quiet hoff).2
      rw [hpfb]
      exact hshown'.border x y hx hy hout
  · rw [hlayout, ht]
    exact ⟨hserves.panel, hserves.cheight_pos, hserves.cheight_le, hserves.width_le,
      hserves.height_le, hserves.right, hserves.bottom⟩
  · rw [hlayout, ht]
    have hrecords := hready.records
    exact ⟨hrecords.lineOffset, hrecords.startAddr, hrecords.width, hrecords.height⟩
  · rw [hoffset, ← hready.cursor, ht]
  · rw [hlayout, hram.1]
    intro cy cx hy hx
    rw [hscaled.last cy cx hy hx, hram.2]

def opened (s : TextScreen) (fb : Nat → Pixel) (time generation : Word) : TextScreen :=
  { s with
    fbDev := { s.fbDev with data := fb }
    graphicMode := 1
    cursorBlinkTime := time
    textModeGeneration := generation
    textHoldLeft := 0 }

theorem enterMode_text (hmode : s.modeNow = 1) (now : Word) (fullUpdate : Bool) :
    ∃ fb time generation hold full', s.enterMode now fullUpdate =
        ({ s.opened fb time generation with textHoldLeft := hold }, full') ∧
      (fullUpdate = true ∨ s.graphicMode ≠ 1 → full' = true) ∧
      (full' = true ∨ fb = s.fbDev.data ∧ hold = s.textHoldLeft) ∧
      (s.graphicMode = 1 → full' = fullUpdate ∧ hold = s.textHoldLeft) := by
  unfold enterMode
  dsimp only
  rw [hmode]
  by_cases hsame : s.graphicMode = 1
  · rw [if_pos hsame.symm]
    refine ⟨s.fbDev.data, s.cursorBlinkTime, s.textModeGeneration, s.textHoldLeft, fullUpdate,
      ?_, fun h => h.resolve_right (not_not.mpr hsame), .inr ⟨rfl, rfl⟩, fun _ => ⟨rfl, rfl⟩⟩
    unfold opened
    rw [← hsame]
  · have hother : ¬1 = s.graphicMode := fun h => hsame h.symm
    rw [if_neg hother]
    split
    · exact ⟨_, _, _, _, true, rfl, fun _ => rfl, .inl rfl, fun h => absurd h hsame⟩
    split
    · exact ⟨_, _, _, _, true, rfl, fun _ => rfl, .inl rfl, fun h => absurd h hsame⟩
    · exact ⟨_, _, _, _, true, rfl, fun _ => rfl, .inl rfl, fun h => absurd h hsame⟩

/-- A refresh that draws the text: the screen may have been emptied before, and then all is
drawn. -/
theorem refresh_text {now : Word} {fullUpdate : Bool} (hmode : s.modeNow = 1)
    (ht : s.refresh now fullUpdate = some t) :
    t.graphicMode = 1 ∧ t.textHoldLeft ≠ 0 ∨
      ∃ fb time generation full', (s.opened fb time generation).textRefresh now full' = some t ∧
        (fullUpdate = true ∨ s.graphicMode ≠ 1 ∨ s.textHoldLeft ≠ 0 → full' = true) ∧
        (full' = true ∨ fb = s.fbDev.data) ∧
        (s.graphicMode = 1 → s.textHoldLeft = 0 → full' = fullUpdate) := by
  obtain ⟨fb, time, generation, hold, full', hentered, hforced, hkept, hquiet⟩ :=
    enterMode_text hmode now fullUpdate
  unfold refresh at ht
  rw [hentered] at ht
  dsimp only at ht
  have hone : (s.opened fb time generation).graphicMode = 1 := rfl
  rw [if_pos hone] at ht
  by_cases hhold : hold ≠ 0
  · rw [if_pos hhold] at ht
    -- While the hold lasts nothing is drawn, and behind it everything is.
    have hended : ∀ fb' generation', (s.opened fb' time generation').textRefresh now true = some t →
        ∃ fb time generation full', (s.opened fb time generation).textRefresh now full' = some t ∧
          (fullUpdate = true ∨ s.graphicMode ≠ 1 ∨ s.textHoldLeft ≠ 0 → full' = true) ∧
          (full' = true ∨ fb = s.fbDev.data) ∧
          (s.graphicMode = 1 → s.textHoldLeft = 0 → full' = fullUpdate) := by
      intro fb' generation' h
      refine ⟨fb', time, generation', true, h, fun _ => rfl, .inl rfl, fun hg hz => ?_⟩
      exact absurd ((hquiet hg).2.trans hz) hhold
    unfold endHold at ht
    dsimp only at ht
    split at ht
    · cases ht
      exact .inl ⟨rfl, hhold⟩
    split at ht
    · split at ht
      · rename_i hleft
        cases ht
        exact .inl ⟨rfl, hleft⟩
      · rename_i hleft
        right
        apply hended _ generation
        rw [← ht, if_pos rfl]
        congr 1
        unfold TextScreen.clear opened
        have hzero := not_not.mp hleft
        dsimp only
        rw [hzero]
        rfl
    · right
      exact hended _ generation ht
  · right
    have hzero : hold = 0 := not_not.mp hhold
    rw [if_neg hhold, hzero] at ht
    refine ⟨fb, time, generation, full', ht, ?_, ?_, ?_⟩
    · intro h
      rcases h with hf | hg | hl
      · exact hforced (.inl hf)
      · exact hforced (.inr hg)
      · by_contra hoff
        have hsame := (hkept.resolve_left hoff).2
        exact hl (hsame.symm.trans hzero)
    · rcases hkept with hon | ⟨hsame, -⟩
      · exact .inl hon
      · exact .inr hsame
    · intro hg _
      exact (hquiet hg).1

end TextScreen

namespace Screen
variable {s t : Screen}

theorem graphicRefresh_mode (s : Screen) (full : Bool) :
    (s.graphicRefresh full).graphicMode = s.graphicMode := by
  obtain ⟨q, hq⟩ := frame_snd s.toDisplay
  unfold Screen.graphicRefresh
  generalize s.toDisplay.frame = framed at *
  obtain ⟨f, d⟩ := framed
  cases hq
  dsimp only
  split
  · rename_i e he
    split at he
    · unfold Display.vbeScale2 at he
      split at he
      · cases he
        rfl
      · cases he
    · cases he
  split
  · rename_i t ht
    have hdraws : ({ s with graphicPalette := q } : Screen).draws13 f = true := by
      by_contra hoff
      unfold mode13Draw at ht
      rw [if_neg hoff] at ht
      cases ht
    rw [mode13Draw_eq full hdraws] at ht
    have hdisplay := palette256_display { s with graphicPalette := q }
    have hmode : (palette256 { s with graphicPalette := q }).graphicMode = s.graphicMode := by
      rw [hdisplay]
    cases ht
    dsimp only
    split
    · exact hmode
    · split <;> exact hmode
  split
  · rename_i t ht
    split at ht
    · have hdraws : ({ s with graphicPalette := q } : Screen).draws16 f = true := by
        by_contra hoff
        unfold planar16Draw at ht
        rw [if_neg hoff] at ht
        cases ht
      rw [planar16Draw_eq full hdraws] at ht
      obtain ⟨palette, sum, valid, hframe⟩ := planar4GetSums_frame
        (({ s with graphicPalette := q } : Screen).updateLastPalette.2.remember f)
      have hmode : (({ s with graphicPalette := q } : Screen).updateLastPalette.2.remember
          f).planar4GetSums.graphicMode = s.graphicMode := by
        rw [hframe]
        rfl
      cases ht
      unfold drawRows16
      dsimp only
      split
      · exact hmode
      split
      · exact hmode
      split
      · exact hmode
      · split <;> exact hmode
    · cases ht
  · rfl

theorem refresh_mode {full : Bool} (h : s.refresh full = some t) : t.graphicMode = s.modeNow := by
  have henter : (s.enterMode full).1.graphicMode = s.modeNow := by
    unfold enterMode
    dsimp only
    split
    · rename_i hsame
      exact hsame.symm
    · split <;> rfl
  unfold Screen.refresh at h
  split at h
  · cases h
  dsimp only at h
  generalize s.enterMode full = entered at *
  split at h
  · split at h
    · cases h
      exact henter
    · cases h
      rw [graphicRefresh_mode, ← henter]
      unfold Display.takePalette
      split <;> rfl
  · cases h
    exact henter

theorem SamePanel.refl (s : Screen) : s.SamePanel s := by repeat' constructor

theorem SamePanel.trans {u : Screen} (h : s.SamePanel t) (h' : t.SamePanel u) : s.SamePanel u where
  mode := h'.mode.trans h.mode
  nspire := h'.nspire.trans h.nspire
  lastPalette := h'.lastPalette.trans h.lastPalette
  sum := h'.sum.trans h.sum
  sumPalette := h'.sumPalette.trans h.sumPalette
  sumValid := h'.sumValid.trans h.sumValid
  start := h'.start.trans h.start
  line := h'.line.trans h.line
  height := h'.height.trans h.height
  valid640 := h'.valid640.trans h.valid640
  fbDev := h'.fbDev.trans h.fbDev

theorem Access.samePanel (h : s.Access t) :
    s.SamePanel t ∨ ∃ full, s.refresh full = some t := by
  cases h with
  | portWrite addr val => exact .inl (s.ioportWrite_panel addr val)
  | portRead addr => exact .inl (s.ioportRead_spec addr).1.toSamePanel
  | write8 addr val => exact .inl (by repeat' constructor)
  | write16 addr val => exact .inl (by repeat' constructor)
  | write32 addr val => exact .inl (by repeat' constructor)
  | writeString addr buf _ => exact .inl (by repeat' constructor)
  | read addr => exact .inl (by repeat' constructor)
  | tick now => exact .inl (s.step_spec now).1.toSamePanel
  | refresh full h => exact .inr ⟨full, h⟩

end Screen

namespace TextScreen
variable {s t u v : TextScreen} {d : Option TextScreen} {now : Word} {fullUpdate : Bool}

/-- A run with all its modes. `d` is the state behind the last refresh, where that has drawn text.
Between refreshes the registers, the DAC and the memory may change in any way; when text is drawn
over text, the size of the cells and the fonts are to be the same. -/
inductive TextRun : Option TextScreen → TextScreen → Prop where
  | start {s : TextScreen} : s.graphicMode ≠ 1 → TextRun none s
  | change {d : Option TextScreen} {s : TextScreen} {t : Screen} : TextRun d s →
      s.toScreen.SamePanel t → TextRun d { s with toScreen := t }
  | refresh {d : Option TextScreen} {s t : TextScreen} (now : Word) (fullUpdate : Bool) :
      TextRun d s → (s.modeNow = 1 → s.Tidy ∧ ∀ v ∈ d, v.SameGlyphs s) →
      s.refresh now fullUpdate = some t →
      TextRun (if t.graphicMode = 1 ∧ t.textHoldLeft = 0 then some t else none) t

/-- The state of a run: the last picture is still there, or the next one is drawn in full. -/
def Followed (s : TextScreen) : Option TextScreen → Prop
  | none => s.graphicMode ≠ 1 ∨ s.textHoldLeft ≠ 0
  | some v => v.Current ∧ v.Recorded ∧ v.graphicMode = 1 ∧ v.textHoldLeft = 0 ∧
      v.toScreen.SamePanel s.toScreen ∧ s = { v with toScreen := s.toScreen }

/-- What is drawn over the last picture, or over an empty panel. -/
theorem Followed.shown (h : s.Followed d) (hglyphs : ∀ v ∈ d, v.SameGlyphs s)
    (hquiet : s.graphicMode = 1 ∧ s.textHoldLeft = 0) (hrecords : s.Records s.textLayout) :
    s.ShownText s.textLayout := by
  cases d with
  | none =>
    rcases h with hmode | hhold
    · exact absurd hquiet.1 hmode
    · exact absurd hquiet.2 hhold
  | some v =>
    obtain ⟨hcurrent, hrecorded, -, -, hpanel, hsame⟩ := h
    have hv := hglyphs v rfl
    have hlast : s.lastChAttr = v.lastChAttr ∧ s.lastCursorOffset = v.lastCursorOffset := by
      rw [hsame]
      exact ⟨rfl, rfl⟩
    have hrecords' : v.Records s.textLayout := by
      rw [hsame] at hrecords
      exact ⟨hrecords.lineOffset, hrecords.startAddr, hrecords.width, hrecords.height⟩
    have hlayout : s.textLayout = v.textLayout := by
      have hold := hrecorded.records
      have hw := hrecords'.width.symm.trans hold.width
      have hh := hrecords'.height.symm.trans hold.height
      have hs := hrecords'.startAddr.symm.trans hold.startAddr
      have hl := hrecords'.lineOffset.symm.trans hold.lineOffset
      have hf : s.textLayout.fontBase = v.textLayout.fontBase := hv.fontBase
      have hcw := hv.cwidth
      have hch := hv.cheight
      generalize s.textLayout = l at *
      generalize v.textLayout = l' at *
      cases l
      cases l'
      dsimp only at *
      subst hw hh hs hl hf hcw hch
      rfl
    rw [hlayout]
    exact hcurrent.shown hrecorded hv hpanel.fbDev hpanel.lastPalette hlast.1 hlast.2

theorem Followed.drawn (h : s.Followed d) (htidy : s.Tidy) (hglyphs : ∀ v ∈ d, v.SameGlyphs s)
    (hmode : s.modeNow = 1) (ht : s.refresh now fullUpdate = some t) (hhold : t.textHoldLeft = 0) :
    t.Current ∧ t.Recorded ∧ t.graphicMode = 1 ∧ t.modeNow = 1 ∧
      Screen.afterEq now t.cursorBlinkTime = false ∧ s.toScreen.Told t.toScreen ∧
      (fullUpdate = false → s.graphicMode = 1 → s.textHoldLeft = 0 →
        t.palette16 = t.lastPalette) := by
  rcases refresh_text hmode ht with ⟨-, hheld⟩ | ⟨fb, time, generation, full', hrefresh, hforced,
    hkept, hquiet⟩
  · exact absurd hhold hheld
  have htidy' : (s.opened fb time generation).Tidy :=
    ⟨htidy.space, htidy.lines, htidy.visible⟩
  obtain ⟨p, forced, hready, hserves, hscaled⟩ := textRefresh_ready htidy'.space hrefresh
  have hshown : full' = true ∨ ((s.opened fb time generation).Records
      (s.opened fb time generation).textLayout →
        (s.opened fb time generation).ShownText (s.opened fb time generation).textLayout) := by
    by_cases hon : full' = true
    · exact .inl hon
    · have hstill : s.graphicMode = 1 ∧ s.textHoldLeft = 0 := by
        by_contra hother
        rw [not_and_or] at hother
        exact hon (hforced (.inr hother))
      right
      intro hrecords
      have hrecords' : s.Records s.textLayout :=
        ⟨hrecords.lineOffset, hrecords.startAddr, hrecords.width, hrecords.height⟩
      have hs := h.shown hglyphs hstill hrecords'
      rw [hkept.resolve_left hon]
      exact ⟨hs.text, hs.border⟩
  obtain ⟨hcurrent, hrecorded⟩ := hready.drawn hserves hscaled htidy' hshown
  obtain ⟨palette, time', phase, a, b, w, hh, m, o, c₁, c₂, hp⟩ := hready.frame
  obtain ⟨fb', m', rects', htp⟩ := hscaled.frame
  obtain ⟨rects, hrects, htold⟩ := hscaled.told
  refine ⟨hcurrent, hrecorded, ?_, ?_, ?_, ⟨rects, ?_, fun x y hx hy hne => ?_⟩, ?_⟩
  · rw [htp, hp]
    rfl
  · rw [htp, hp]
    exact hmode
  · rw [htp]
    exact hready.early
  · rw [hrects, hp]
    rfl
  · apply htold x y hx hy
    by_cases hon : full' = true
    · exact .inl (hready.full hon).1
    · right
      rw [hp]
      unfold opened
      dsimp only
      rw [hkept.resolve_left hon]
      exact hne
  · intro hfull hg hz
    have hoff : full' = false := by rw [hquiet hg hz, hfull]
    have hcolours := hready.colours hoff
    rw [hp] at hcolours
    apply Screen.palette16_settled (s := (s.opened fb time generation).toScreen)
    all_goals rw [htp, hp]
    exact hcolours

theorem refresh_graphics (hmode : s.modeNow ≠ 1) (ht : s.refresh now fullUpdate = some t) :
    t.graphicMode = s.modeNow := by
  have henter : (s.enterMode now fullUpdate).1.graphicMode = s.modeNow ∧
      (s.enterMode now fullUpdate).1.modeNow = s.modeNow := by
    unfold enterMode
    dsimp only
    split
    · rename_i hsame
      exact ⟨hsame.symm, rfl⟩
    split
    · exact ⟨rfl, rfl⟩
    · split <;> exact ⟨rfl, rfl⟩
  unfold refresh at ht
  generalize s.enterMode now fullUpdate = entered at *
  obtain ⟨e, full⟩ := entered
  obtain ⟨hentered, hnow⟩ := henter
  dsimp only at *
  have hgraphics : ¬e.graphicMode = 1 := by
    rw [hentered]
    exact hmode
  rw [if_neg hgraphics] at ht
  obtain ⟨t', ht', rfl⟩ := Option.map_eq_some_iff.mp ht
  rw [← hnow]
  exact Screen.refresh_mode ht'

theorem TextRun.followed (h : TextRun d s) : s.Followed d := by
  induction h with
  | start hmode => exact .inl hmode
  | @change d s t _ hpanel ih =>
    cases d with
    | none =>
      unfold Followed at *
      rw [hpanel.mode]
      exact ih
    | some v =>
      obtain ⟨hcurrent, hrecorded, hmode, hhold, hsame, hframe⟩ := ih
      refine ⟨hcurrent, hrecorded, hmode, hhold, hsame.trans hpanel, ?_⟩
      rw [hframe]
  | @refresh d s t now fullUpdate _ htidy ht ih =>
    by_cases hmode : s.modeNow = 1
    · obtain ⟨htidy, hglyphs⟩ := htidy hmode
      by_cases hdrawn : t.graphicMode = 1 ∧ t.textHoldLeft = 0
      · rw [if_pos hdrawn]
        obtain ⟨hcurrent, hrecorded, -⟩ := ih.drawn htidy hglyphs hmode ht hdrawn.2
        exact ⟨hcurrent, hrecorded, hdrawn.1, hdrawn.2, Screen.SamePanel.refl _, rfl⟩
      · rw [if_neg hdrawn]
        exact not_and_or.mp hdrawn
    · have hother : t.graphicMode ≠ 1 := by
        rw [refresh_graphics hmode ht]
        exact hmode
      rw [if_neg fun h => hother h.1]
      exact .inl hother

theorem TextRun.access {q : Screen} (h : TextRun d s) (haccess : s.toScreen.Access q)
    (hno : ∀ full, s.toScreen.refresh full ≠ some q) : TextRun d { s with toScreen := q } :=
  h.change (haccess.samePanel.resolve_right fun ⟨full, hq⟩ => hno full hq)

theorem refresh_again (hmode : t.modeNow = 1) (hgraphics : t.graphicMode = 1)
    (hhold : t.textHoldLeft = 0) (now : Word) (fullUpdate : Bool) :
    t.refresh now fullUpdate = t.textRefresh now fullUpdate := by
  have henter : t.enterMode now fullUpdate = (t, fullUpdate) := by
    unfold enterMode
    exact if_pos (hmode.trans hgraphics.symm)
  unfold refresh
  rw [henter]
  dsimp only
  rw [if_pos hgraphics, if_neg (not_not.mpr hhold)]

theorem refresh_serves (htidy : s.Tidy) (hmode : s.modeNow = 1)
    (ht : s.refresh now fullUpdate = some t) (hhold : t.textHoldLeft = 0) :
    t.servesText t.textLayout = true := by
  rcases refresh_text hmode ht with ⟨-, hheld⟩ | ⟨fb, time, generation, full', hrefresh, -⟩
  · exact absurd hhold hheld
  have hserved := textRefresh_isSome (s := s.opened fb time generation) now full' htidy.space
  obtain ⟨p, forced, hready, hserves, hscaled⟩ := textRefresh_ready
    (s := s.opened fb time generation) htidy.space hrefresh
  obtain ⟨palette, time', phase, a, b, w, hh, m, o, c₁, c₂, hp⟩ := hready.frame
  obtain ⟨fb', m', rects', htp⟩ := hscaled.frame
  rw [hrefresh] at hserved
  rw [htp, hp]
  exact hserved.symm

/-- After every refresh that draws, drawing all cells once more would change nothing, and the
frontend has been told of all that has changed; a refresh over the text of the last one has the
colours of the DAC. -/
theorem text_as_redrawn (h : TextRun d s) (htidy : s.Tidy) (hglyphs : ∀ v ∈ d, v.SameGlyphs s)
    (hmode : s.modeNow = 1) (ht : s.refresh now fullUpdate = some t) (hhold : t.textHoldLeft = 0) :
    (∃ u, t.refresh now true = some u ∧ t.toDisplay.Matches u.toDisplay) ∧
      s.toScreen.Told t.toScreen ∧
      (fullUpdate = false → s.graphicMode = 1 → s.textHoldLeft = 0 →
        t.palette16 = t.lastPalette) := by
  obtain ⟨hcurrent, hrecorded, hgraphics, hmode', hearly, htold, hcolours⟩ :=
    h.followed.drawn htidy hglyphs hmode ht hhold
  have hserves := refresh_serves htidy hmode ht hhold
  refine ⟨?_, htold, hcolours⟩
  rw [refresh_again hmode' hgraphics hhold]
  have hsome := textRefresh_isSome now true hrecorded.tidy.space
  rw [hserves] at hsome
  obtain ⟨u, hu⟩ := Option.isSome_iff_exists.mp hsome
  refine ⟨u, hu, fun x y hx hy => ?_⟩
  obtain ⟨p, forced, hready, -, hscaled⟩ := textRefresh_ready hrecorded.tidy.space hu
  obtain ⟨hforced, hpalette⟩ := hready.full rfl
  have hphase := hready.phase hearly
  have hpixel : p.textPixel t.textLayout t.textCursor x y =
      t.textPixel t.textLayout t.textCursor x y := by
    obtain ⟨palette, time, phase, a, b, w, hh, m, o, c₁, c₂, hp⟩ := hready.frame
    apply textPixel_congr
    · rw [hp]
    · exact hpalette
    · rw [hp]
    · exact hphase
  by_cases hcovers : t.textLayout.Covers x y
  · rw [hcurrent.text x y hx hy hcovers, ← hpixel]
    rcases hscaled.text x y hx hy hcovers with hdrawn | ⟨hskip, -⟩
    · exact hdrawn.symm
    · exact absurd (.inl hforced) hskip
  · rw [hcurrent.border x y hx hy hcovers, hscaled.border x y hx hy hcovers, if_pos hforced]

/-- Two states of one text, on one panel. -/
structure SameText (s t : TextScreen) : Prop where
  vga : t.vga = s.vga
  arIndex : t.arIndex = s.arIndex
  fbDev : t.fbDev.width = s.fbDev.width ∧ t.fbDev.height = s.fbDev.height
  force8dm : t.force8dm = s.force8dm

namespace SameText

theorem fontBase (h : s.SameText t) : t.fontBase = s.fontBase := by
  unfold TextScreen.fontBase
  rw [h.vga]

theorem textLayout (h : s.SameText t) : t.textLayout = s.textLayout := by
  unfold TextScreen.textLayout
  rw [h.fontBase, h.vga, h.fbDev.1, h.force8dm]

theorem modeNow (h : s.SameText t) : t.modeNow = s.modeNow := by
  unfold Screen.modeNow
  rw [h.vga, h.arIndex]

theorem servesText (h : s.SameText t) (l : TextLayout) : t.servesText l = s.servesText l := by
  unfold TextScreen.servesText
  rw [h.fbDev.1, h.fbDev.2]

theorem tidy (h : s.SameText t) (htidy : s.Tidy) : t.Tidy where
  space := by
    have hspace := htidy.space
    unfold hasSpace at hspace ⊢
    rw [h.textLayout, h.fbDev.1, h.fbDev.2]
    exact hspace
  lines := by
    rw [h.textLayout]
    exact htidy.lines
  visible := by
    rw [h.textLayout, h.vga]
    exact htidy.visible

end SameText

theorem refresh_first (now : Word) (fullUpdate : Bool) (hmode : s.modeNow = 1)
    (hblank : s.graphicMode = 0) (hhold : s.textHoldLeft = 0)
    (hspace : s.hasSpace s.textLayout = true)
    (hserves : s.servesText s.textLayout = true) :
    ∃ t, s.refresh now fullUpdate = some t ∧ t.textHoldLeft = 0 ∧ t.graphicMode = 1 ∧
      s.SameText t := by
  generalize hempty : ({ s with
    graphicMode := 1, cursorBlinkTime := now, textHoldLeft := 0 } : TextScreen).clear = e
  have hdraws : s.refresh now fullUpdate = e.textRefresh now true := by
    unfold refresh enterMode
    rw [hmode, hblank, hhold, ← hempty]
    rfl
  have hspace' : e.hasSpace e.textLayout = true := by
    rw [← hempty]
    exact hspace
  have hsome : (e.textRefresh now true).isSome = true := by
    rw [textRefresh_isSome now true hspace', ← hempty]
    exact hserves
  obtain ⟨t, ht⟩ := Option.isSome_iff_exists.mp hsome
  obtain ⟨p, forced, hready, -, hscaled⟩ := textRefresh_ready hspace' ht
  obtain ⟨palette, time, phase, a, b, w, h, m, o, c₁, c₂, hp⟩ := hready.frame
  obtain ⟨fb, m', rects, htp⟩ := hscaled.frame
  refine ⟨t, hdraws.trans ht, ?_, ?_, ?_⟩
  · rw [htp, hp, ← hempty]
    rfl
  · rw [htp, hp, ← hempty]
    rfl
  · rw [htp, hp, ← hempty]
    exact ⟨rfl, rfl, ⟨rfl, rfl⟩, rfl⟩

theorem refresh_next (now : Word) (fullUpdate : Bool) (hmode : s.modeNow = 1)
    (hgraphics : s.graphicMode = 1) (hhold : s.textHoldLeft = 0)
    (hspace : s.hasSpace s.textLayout = true) (hserves : s.servesText s.textLayout = true) :
    ∃ t, s.refresh now fullUpdate = some t ∧ t.textHoldLeft = 0 := by
  have hsome : (s.textRefresh now fullUpdate).isSome = true := by
    rw [textRefresh_isSome now fullUpdate hspace]
    exact hserves
  obtain ⟨t, ht⟩ := Option.isSome_iff_exists.mp hsome
  obtain ⟨p, forced, hready, -, hscaled⟩ := textRefresh_ready hspace ht
  obtain ⟨palette, time, phase, a, b, w, h, m, o, c₁, c₂, hp⟩ := hready.frame
  obtain ⟨fb, m', rects, htp⟩ := hscaled.frame
  refine ⟨t, (refresh_again hmode hgraphics hhold now fullUpdate).trans ht, ?_⟩
  rw [htp, hp]
  exact hhold

/-- Mode 3 with glyphs of 16 lines, before the first picture. -/
def console : TextScreen where
  toScreen :=
    { Screen.splash with
      vga :=
        { Screen.splash.vga with
          ram := fun _ => 0
          regs :=
            { Screen.splash.vga.regs with
              sr := fun i => [0x03, 0x00, 0x03, 0x00, 0x02].getD i 0
              gr := fun i => [0x00, 0x00, 0x00, 0x00, 0x00, 0x10, 0x0e, 0x00, 0xff].getD i 0
              cr := fun i =>
                if i = 1 then 0x4f else if i = 7 then 0x1f else if i = 9 then 0x4f
                else if i = 0x12 then 0x8f else if i = 0x13 then 0x28 else 0 } }
      ar := fun i => if i < 16 then BitVec.ofNat 8 i else 0 }
  force8dm := true
  cursorGlyph := fun _ => 0xff
  cursorBlinkTime := 0
  cursorVisiblePhase := true
  textModeGeneration := 0
  textHoldLeft := 0
  lastChAttr := fun _ => 0
  lastWidth := 0
  lastHeight := 0
  lastLineOffset := 0
  lastStartAddr := 0
  lastCursorOffset := 0
  lastCursorStart := 0
  lastCursorEnd := 0

/-- The guest has written an A into the first cell. -/
def typed (s : TextScreen) : TextScreen :=
  { s with toScreen := { s.toScreen with vga := s.vga.memWrite 0x18000 0x41 } }

theorem SameText.typed (h : s.SameText t) : s.typed.SameText t.typed where
  vga := congrArg (VgaState.memWrite 0x18000 0x41) h.vga
  arIndex := h.arIndex
  fbDev := h.fbDev
  force8dm := h.force8dm

theorem typed_ram : console.typed.vga.ram = blit (fun _ => 0) 0 [0x41] := rfl

theorem tidy_of_bytes (hspace : s.hasSpace s.textLayout = true)
    (hlines : s.textLayout.lineOffset = BitVec.ofNat 32 (4 * s.textLayout.width))
    (hbytes : ∀ a, s.vga.ram a ≠ 0xff) : s.Tidy where
  space := hspace
  lines := hlines
  visible cy cx _ _ hcell := by
    have hlow := congrArg (BitVec.setWidth 8) hcell
    unfold TextLayout.chAttr at hlow
    dsimp only at hlow
    rw [BitVec.setWidth_append] at hlow
    exact hbytes _ hlow

theorem console_tidy : console.Tidy :=
  tidy_of_bytes (by decide) (by decide) fun _ => show (0 : Byte) ≠ 0xff by decide

theorem typed_tidy : console.typed.Tidy := by
  refine tidy_of_bytes (by decide) (by decide) fun a => ?_
  rw [typed_ram]
  by_cases ha : a = 0
  · subst ha
    decide
  · rw [blit_apply_of_ge _ _ (Nat.pos_of_ne_zero ha)]
    decide

theorem typed_sameGlyphs (h : console.SameText t) : t.SameGlyphs t.typed where
  cwidth := by
    rw [h.typed.textLayout, h.textLayout]
    decide
  cheight := by
    rw [h.typed.textLayout, h.textLayout]
    decide
  fontBase := by
    rw [h.typed.fontBase, h.fontBase]
    rfl
  font b k _ := by
    have hbase : 0 < console.fontBase b := by
      cases b <;> decide
    rw [h.typed.vga, h.vga, h.fontBase, typed_ram]
    exact blit_apply_of_ge _ _ (by simp only [List.length_singleton]; omega)

theorem text_as_redrawn_console :
    ∃ t u, console.refresh 1 false = some t ∧ t.typed.refresh 2 false = some u ∧
      (∃ v, u.refresh 2 true = some v ∧ u.toDisplay.Matches v.toDisplay) ∧
        t.typed.toScreen.Told u.toScreen := by
  obtain ⟨t, ht, hhold, hgraphics, hsame⟩ := refresh_first (s := console) 1 false rfl rfl rfl
    console_tidy.space (by decide)
  have hnext := hsame.typed
  have htidy : t.typed.Tidy := hnext.tidy typed_tidy
  have hmode : t.typed.modeNow = 1 := hnext.modeNow
  have hserves : t.typed.servesText t.typed.textLayout = true := by
    rw [hnext.textLayout, hnext.servesText]
    decide
  obtain ⟨u, hu, hhold'⟩ := refresh_next (s := t.typed) 2 false hmode hgraphics hhold htidy.space
    hserves
  have hfirst : TextRun (some t) t := by
    have hrun := TextRun.refresh 1 false (.start (by decide))
      (fun _ => ⟨console_tidy, fun _ hv => by cases hv⟩) ht
    rw [if_pos ⟨hgraphics, hhold⟩] at hrun
    exact hrun
  have hrun : TextRun (some t) t.typed := hfirst.change (by repeat' constructor)
  obtain ⟨hagain, htold, -⟩ := text_as_redrawn hrun htidy
    (fun v hv => Option.some.inj hv ▸ typed_sameGlyphs hsame) hmode hu hhold'
  exact ⟨t, u, ht, hu, hagain, htold⟩

end TextScreen

end Winspire.Vga
