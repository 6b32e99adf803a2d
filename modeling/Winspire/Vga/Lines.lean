import Winspire.Vga.Display
import Winspire.Lib.Raster

/-!
# The general renderer, line by line

For a mode of 640 pixels a line, `vga_graphic_refresh` draws the averages of four pixels once it is
known what each line holds and how the position moves from line to line.
-/

namespace Winspire.Vga

set_option autoImplicit false

def lcd : Raster where
  width := 320
  height := 240
  size := 1
  pitch := 320
  total := 76800
  row_le := Nat.le_refl _
  total_ge y hy := by omega

theorem lcd_cell (m : Nat → Pixel) (x y : Nat) : lcd.cell m x y = [m (y * 320 + x)] := by
  have haddr : lcd.addr x y = y * 320 + x := congrArg (y * 320 + ·) (Nat.mul_one x)
  unfold Raster.cell
  rw [haddr]
  exact slice_succ m (y * 320 + x) 0

theorem lcd_row (g : Nat → Nat → Pixel) (y : Nat) :
    Raster.row (fun x => [g x y]) lcd.width = (List.range 320).map fun x => g x y :=
  List.map_eq_flatMap.symm

theorem paints_pixels (g : Nat → Nat → Pixel) (m : Nat → Pixel) (y : Nat) :
    lcd.Paints (fun x y => [g x y]) (fun _ y' => y' = y) m
      (blit m (y * 320) ((List.range 320).map fun x => g x y)) := by
  rw [← lcd_row]
  exact Raster.paints_blit_row m y fun _ => rfl

namespace Display

/-- Line `k` is read at a position that `At k` describes, and holds the pixels `pix · k`. -/
structure Lines (s : Display) (f : Frame) (pix : Nat → Nat → Pixel)
    (At : Nat → Word → Nat → Nat → Prop) : Prop where
  start : At 0 (4 * f.startAddr) 0 f.multiScan
  next : ∀ k sc, k < f.h → At k sc.addr1 sc.y1 sc.multiRun →
    At (k + 1) (s.nextLine f sc).addr1 (s.nextLine f sc).y1 (s.nextLine f sc).multiRun
  pixels : ∀ k sc, k < f.h → At k sc.addr1 sc.y1 sc.multiRun →
    s.linePixels f (s.lineAddr f sc) 640 0 0 = (List.range 640).map fun x => pix x k

/-- The four pixels behind a pixel of the panel, in a picture that starts at row `top`. -/
def blend (pix : Nat → Nat → Pixel) (top x y : Nat) : Pixel :=
  let line := 2 * (y - top)
  average (pix (2 * x) line) (pix (2 * x + 1) line) (pix (2 * x) (line + 1))
    (pix (2 * x + 1) (line + 1))

/-- A panel of 320 by 240 pixels and a picture of 640 pixels a line. -/
structure Halved (s : Display) (f : Frame) : Prop where
  width : s.fbDev.width = 320
  height : s.fbDev.height = 240
  w : f.w = 640
  h_le : f.h ≤ 480
  even : f.h % 2 = 0

def Frame.top (f : Frame) : Nat := (480 - f.h) / 4

variable {s : Display} {f : Frame} {pix : Nat → Nat → Pixel} {At : Nat → Word → Nat → Nat → Prop}

/-- The loop after `k` lines; the first line of a pair waits in `tmpbuf`. -/
structure Reached (s : Display) (f : Frame) (pix : Nat → Nat → Pixel)
    (At : Nat → Word → Nat → Nat → Prop) (k : Nat) (sc : Scan) : Prop where
  pos : At k sc.addr1 sc.y1 sc.multiRun
  yyt : sc.yyt = k % 2
  yy : sc.yy = k / 2
  above : k % 2 = 1 → ∀ x < 640, sc.tmpbuf x = pix x (k - 1)
  paints : lcd.Paints (fun x y => [blend pix f.top x y])
    (fun _ y => f.top ≤ y ∧ y < f.top + k / 2) s.fbDev.data sc.fb

theorem nextLine_fields (s : Display) (f : Frame) (sc : Scan) :
    (s.nextLine f sc).yyt = sc.yyt ∧ (s.nextLine f sc).yy = sc.yy ∧
      (s.nextLine f sc).tmpbuf = sc.tmpbuf ∧ (s.nextLine f sc).fb = sc.fb := by
  unfold nextLine
  split
  · exact ⟨rfl, rfl, rfl, rfl⟩
  · split <;> exact ⟨rfl, rfl, rfl, rfl⟩

theorem blit_map_apply (m : Nat → Pixel) (a : Nat) (g : Nat → Pixel) {x : Nat} (hx : x < 640) :
    blit m a ((List.range 640).map g) (a + x) = g x := by
  have hlen : x < ((List.range 640).map g).length := by
    rw [List.length_map, List.length_range]
    exact hx
  rw [blit_apply_add m a _ hlen, List.getElem_map, List.getElem_range]

theorem scale21_pair {fb tmp : Nat → Pixel} {y top : Nat}
    (hfirst : ∀ x < 640, tmp x = pix x (2 * (y - top)))
    (hsecond : ∀ x < 640, tmp (640 + x) = pix x (2 * (y - top) + 1)) :
    lcd.Paints (fun x y => [blend pix top x y]) (fun _ y' => y' = y) fb
      (scale21 fb (y * 320) tmp 640) := by
  have hrow : scale21 fb (y * 320) tmp 640 =
      blit fb (y * 320) ((List.range 320).map fun x => blend pix top x y) := by
    unfold scale21
    congr 1
    apply List.map_congr_left
    intro x hx
    have hlt : x < 320 := List.mem_range.mp hx
    have hthird : tmp (2 * x + 640) = pix (2 * x) (2 * (y - top) + 1) := by
      rw [Nat.add_comm]
      exact hsecond (2 * x) (by omega)
    have hfourth : tmp (2 * x + 1 + 640) = pix (2 * x + 1) (2 * (y - top) + 1) := by
      rw [Nat.add_comm]
      exact hsecond (2 * x + 1) (by omega)
    rw [hfirst _ (by omega), hfirst _ (by omega), hthird, hfourth]
    rfl
  rw [hrow]
  exact paints_pixels (blend pix top) fb y

/-- `tmpbuf` with the pixels of a line. -/
def Scan.filled (sc : Scan) (g : Nat → Pixel) : Scan :=
  { sc with tmpbuf := blit sc.tmpbuf (sc.yyt * 640) ((List.range 640).map g) }

theorem filled_apply (sc : Scan) (g : Nat → Pixel) {x : Nat} (hx : x < 640) :
    (sc.filled g).tmpbuf (sc.yyt * 640 + x) = g x := blit_map_apply sc.tmpbuf (sc.yyt * 640) g hx

theorem Lines.line (hl : s.Lines f pix At) (hh : s.Halved f) {k : Nat} {sc : Scan} (hk : k < f.h)
    (hpos : At k sc.addr1 sc.y1 sc.multiRun) :
    s.line f 640 (f.top * 320) sc =
      if sc.yyt + 1 = 2 then
        { s.nextLine f (sc.filled (pix · k)) with
          fb := scale21 sc.fb ((sc.yy + f.top) * 320) (sc.filled (pix · k)).tmpbuf 640
          yyt := 0
          yy := sc.yy + 1 }
      else { s.nextLine f (sc.filled (pix · k)) with yyt := sc.yyt + 1 } := by
  obtain ⟨hyyt, hyy, htmp, hfb⟩ : (s.nextLine f (sc.filled (pix · k))).yyt = sc.yyt ∧
      (s.nextLine f (sc.filled (pix · k))).yy = sc.yy ∧
      (s.nextLine f (sc.filled (pix · k))).tmpbuf = (sc.filled (pix · k)).tmpbuf ∧
      (s.nextLine f (sc.filled (pix · k))).fb = sc.fb := nextLine_fields s f _
  have hstep : s.line f 640 (f.top * 320) sc =
      (let sc' := s.nextLine f (sc.filled (pix · k))
      if sc'.yyt + 1 = 2 then
        { sc' with
          fb := scale21 sc'.fb (sc'.yy * s.fbDev.width + f.top * 320) sc'.tmpbuf 640
          yyt := 0
          yy := sc'.yy + 1 }
      else { sc' with yyt := sc'.yyt + 1 }) := by
    unfold Display.line
    rw [hl.pixels k sc hk hpos]
    rfl
  rw [hstep]
  dsimp only
  rw [hyyt, hyy, htmp, hfb, hh.width, ← Nat.add_mul]

/-- The first line of a pair waits. -/
theorem Reached.first {k : Nat} {sc : Scan} (hr : Reached s f pix At k sc)
    (hl : s.Lines f pix At) (hk : k < f.h) (hpar : k % 2 = 0) :
    Reached s f pix At (k + 1) { s.nextLine f (sc.filled (pix · k)) with yyt := sc.yyt + 1 } := by
  obtain ⟨-, hyy, htmp, hfb⟩ := nextLine_fields s f (sc.filled (pix · k))
  have hyyt := hr.yyt
  refine ⟨hl.next k _ hk hr.pos, ?_, ?_, ?_, ?_⟩
  · change sc.yyt + 1 = (k + 1) % 2
    omega
  · change (s.nextLine f (sc.filled (pix · k))).yy = (k + 1) / 2
    have h : sc.yy = k / 2 := hr.yy
    rw [hyy]
    change sc.yy = _
    omega
  · intro _ x hx
    change (s.nextLine f (sc.filled (pix · k))).tmpbuf x = pix x k
    have h := filled_apply sc (pix · k) hx
    rw [hyyt, hpar, Nat.zero_mul, Nat.zero_add] at h
    rw [htmp]
    exact h
  · change lcd.Paints _ _ _ (s.nextLine f (sc.filled (pix · k))).fb
    rw [hfb]
    exact hr.paints.congr fun x y _ _ => by omega

/-- The second line of a pair goes out with the first. -/
theorem Reached.second {k : Nat} {sc : Scan} (hr : Reached s f pix At k sc)
    (hl : s.Lines f pix At) (hk : k < f.h) (hpar : k % 2 = 1) :
    Reached s f pix At (k + 1) { s.nextLine f (sc.filled (pix · k)) with
      fb := scale21 sc.fb ((sc.yy + f.top) * 320) (sc.filled (pix · k)).tmpbuf 640
      yyt := 0
      yy := sc.yy + 1 } := by
  have hyy := hr.yy
  have hyyt : sc.yyt = 1 := hr.yyt.trans hpar
  have hline : 2 * (sc.yy + f.top - f.top) = k - 1 := by omega
  have hkept : ∀ x < 640,
      (sc.filled (pix · k)).tmpbuf x = pix x (2 * (sc.yy + f.top - f.top)) := by
    intro x hx
    rw [hline, ← hr.above hpar x hx]
    exact blit_apply_of_lt _ _ (by omega)
  have hbelow : ∀ x < 640,
      (sc.filled (pix · k)).tmpbuf (640 + x) = pix x (2 * (sc.yy + f.top - f.top) + 1) := by
    intro x hx
    have h := filled_apply sc (pix · k) hx
    have hk1 : k - 1 + 1 = k := by omega
    rw [hyyt, Nat.one_mul] at h
    rw [hline, hk1]
    exact h
  refine ⟨hl.next k _ hk hr.pos, ?_, ?_, ?_, ?_⟩
  · change 0 = (k + 1) % 2
    omega
  · change sc.yy + 1 = (k + 1) / 2
    omega
  · intro hodd
    omega
  · refine (hr.paints.trans (scale21_pair hkept hbelow)).congr fun x y _ _ => ?_
    omega

theorem Reached.line {k : Nat} {sc : Scan} (hr : Reached s f pix At k sc)
    (hl : s.Lines f pix At) (hh : s.Halved f) (hk : k < f.h) :
    Reached s f pix At (k + 1) (s.line f 640 (f.top * 320) sc) := by
  have hyyt := hr.yyt
  rw [hl.line hh hk hr.pos]
  rcases Nat.mod_two_eq_zero_or_one k with hpar | hpar
  · rw [if_neg (by omega)]
    exact hr.first hl hk hpar
  · rw [if_pos (by omega)]
    exact hr.second hl hk hpar

theorem Lines.genericDraw (hl : s.Lines f pix At) (hh : s.Halved f) :
    lcd.Paints (fun x y => [blend pix f.top x y]) (fun _ y => f.top ≤ y ∧ y < f.top + f.h / 2)
      s.fbDev.data (s.genericDraw f).fbDev.data := by
  have hloop : Reached s f pix At f.h ((List.range f.h).foldl
      (fun sc _ => s.line f 640 (f.top * 320) sc)
      { addr1 := 4 * f.startAddr, y1 := 0, multiRun := f.multiScan, yyt := 0, yy := 0,
        tmpbuf := s.tmpbuf, fb := s.fbDev.data }) := by
    apply foldl_range (P := Reached s f pix At) f.h
    · refine ⟨hl.start, rfl, rfl, fun hodd => ?_, ?_⟩
      · cases hodd
      · exact (Raster.Paints.refl _ _).congr fun _ y _ _ => ⟨fun h => by omega, False.elim⟩
    · intro k hk sc hr
      exact hr.line hl hh hk
  have hdraw : (s.genericDraw f).fbDev.data = ((List.range f.h).foldl
      (fun sc _ => s.line f 640 (f.top * 320) sc)
      { addr1 := 4 * f.startAddr, y1 := 0, multiRun := f.multiScan, yyt := 0, yy := 0,
        tmpbuf := s.tmpbuf, fb := s.fbDev.data }).fb := by
    have hle := hh.h_le
    have htop : (if f.h < 480 then (480 - f.h) / 4 * 320 else 0) = f.top * 320 := by
      unfold Frame.top
      split
      · rfl
      · rename_i hge
        have heq : f.h = 480 := by omega
        rw [heq]
    have hheight : (if f.h < 480 then f.h else 480) = f.h := by
      split
      · rfl
      · omega
    unfold Display.genericDraw
    simp only [hh.width, hh.height, hh.w, Nat.reduceMul, Nat.lt_irrefl, if_false, Nat.add_zero,
      htop, hheight]
  rw [hdraw]
  exact hloop.paints

end Display

end Winspire.Vga
