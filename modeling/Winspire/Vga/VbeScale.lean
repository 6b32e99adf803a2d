import Winspire.Vga.Lines

/-!
# The scaled renderer of VBE

`vga_vbe_scale2` draws 640 by 480 pixels of VBE on a panel of half the size, and skips the rows
whose fingerprint it has seen. Fingerprints can agree by chance, so every 64th picture is drawn
in full.
-/

namespace Winspire.Vga

set_option autoImplicit false

/-- The word `memcpy` reads. -/
def dwordAt (m : Nat → Byte) (a : Nat) : Word := m (a + 3) ++ m (a + 2) ++ m (a + 1) ++ m a

def hashWord (h : Word × Word) (a b : Word) : Word × Word :=
  let mix := h.2 ^^^ (a + 0x9e3779b9 + h.2 <<< 6 + h.2 >>> 2)
  (h.1 + (a + b), mix ^^^ (b + 0x85ebca6b + mix <<< 6 + mix >>> 2))

def hashByte (offset : Nat) (h : Word × Word) (a b : Byte) : Word × Word :=
  let a := a.setWidth 32
  let b := b.setWidth 32
  (h.1 + (a + b),
    h.2 ^^^ (a <<< (offset % 4 * 8) ^^^ b <<< ((offset + 1) % 4 * 8)))

/-- `vga_hash_rows`, of `bytes` bytes from each address: the words, and the bytes after them. -/
def hashRows (m : Nat → Byte) (row0 row1 bytes : Nat) : Word × Word :=
  let words := (List.range (bytes / 4)).foldl
    (fun h i => hashWord h (dwordAt m (row0 + 4 * i)) (dwordAt m (row1 + 4 * i)))
    ((0x9e3779b9 : Word) ^^^ BitVec.ofNat 32 bytes, 0x85ebca6b + BitVec.ofNat 32 bytes)
  (List.range (bytes % 4)).foldl
    (fun h i =>
      let offset := bytes / 4 * 4 + i
      hashByte offset h (m (row0 + offset)) (m (row1 + offset)))
    words

namespace Display

/-- `vga_lcd_vbe_pixel`, at the address `src` of the memory. -/
def lcdVbePixel (s : Display) (src bpp : Nat) : Pixel :=
  let byte := fun i => (s.vga.ram (src + i)).setWidth 32
  match bpp with
  | 8 => (s.graphicPalette (s.vga.ram src).toNat).setWidth 16
  | 15 =>
    let k : Word := byte 0 ||| byte 1 <<< 8
    (k &&& 0x1f ||| (k &&& ~~~0x1f) <<< 1).setWidth 16
  | 16 => (byte 0 ||| byte 1 <<< 8 : Word).setWidth 16
  | _ => (byte 0 >>> 3 ||| byte 1 >>> 2 <<< 5 ||| byte 2 >>> 3 <<< 11 : Word).setWidth 16

def Frame.bytesPerPixel (f : Frame) : Nat := (f.bpp + 7) / 8

def Frame.visibleBytes (f : Frame) : Nat := f.w * f.bytesPerPixel

def Frame.srcBase (f : Frame) : Word := f.startAddr * 4

/-- The modes `vga_vbe_scale2` serves, on a panel of half the size. -/
structure Serves (s : Display) (f : Frame) : Prop where
  width : s.fbDev.width = 320
  height : s.fbDev.height = 240
  w : f.w = 640
  h : f.h = 480
  bpp : f.bpp ∈ [8, 15, 16, 24, 32]
  visible_le : f.visibleBytes ≤ f.lineOffset.toNat
  base_lt : f.srcBase.toNat < s.vga.ramSize
  end_le : f.srcBase.toNat + (f.h - 1) * f.lineOffset.toNat + f.visibleBytes ≤ s.vga.ramSize

instance (s : Display) (f : Frame) : Decidable (s.Serves f) :=
  decidable_of_iff (s.fbDev.width = 320 ∧ s.fbDev.height = 240 ∧ f.w = 640 ∧ f.h = 480 ∧
      f.bpp ∈ [8, 15, 16, 24, 32] ∧ f.visibleBytes ≤ f.lineOffset.toNat ∧
      f.srcBase.toNat < s.vga.ramSize ∧
      f.srcBase.toNat + (f.h - 1) * f.lineOffset.toNat + f.visibleBytes ≤ s.vga.ramSize)
    ⟨fun ⟨h₁, h₂, h₃, h₄, h₅, h₆, h₇, h₈⟩ => ⟨h₁, h₂, h₃, h₄, h₅, h₆, h₇, h₈⟩,
      fun ⟨h₁, h₂, h₃, h₄, h₅, h₆, h₇, h₈⟩ => ⟨h₁, h₂, h₃, h₄, h₅, h₆, h₇, h₈⟩⟩

def Frame.key (f : Frame) : Word :=
  f.startAddr ^^^ f.lineOffset * 0x45d9f3b ^^^ BitVec.ofNat 32 f.bpp <<< 24 ^^^
    BitVec.ofNat 32 f.w <<< 8 ^^^ BitVec.ofNat 32 f.h

def forceUpdate (s : Display) (f : Frame) (fullUpdate : Bool) : Bool :=
  fullUpdate || f.paletteUpdate || !s.vbeFingerprintValid || s.vbeFingerprintKey != f.key ||
    (s.vbePresentCount + 1) &&& 63 == 0

structure VbeRows where
  pairSum : Nat → Word
  pairMix : Nat → Word
  fb : Nat → Pixel
  dirtyMin : Int
  dirtyMax : Int

/-- Where the two lines of row `y` start. -/
def Frame.row0 (f : Frame) (y : Nat) : Nat :=
  f.srcBase.toNat + (BitVec.ofNat 32 (y * 2) * f.lineOffset).toNat

def Frame.row1 (f : Frame) (y : Nat) : Nat := f.row0 y + f.lineOffset.toNat

/-- The pixel of four at `x` of row `y`. -/
def vbeAverage (s : Display) (f : Frame) (x y : Nat) : Pixel :=
  let p0 := f.row0 y + x * 2 * f.bytesPerPixel
  let p2 := f.row1 y + x * 2 * f.bytesPerPixel
  average (s.lcdVbePixel p0 f.bpp) (s.lcdVbePixel (p0 + f.bytesPerPixel) f.bpp)
    (s.lcdVbePixel p2 f.bpp) (s.lcdVbePixel (p2 + f.bytesPerPixel) f.bpp)

def vbeRow (s : Display) (f : Frame) (force : Bool) (rows : VbeRows) (y : Nat) : VbeRows :=
  let (sum, mix) := hashRows s.vga.ram (f.row0 y) (f.row1 y) f.visibleBytes
  if !force && rows.pairSum y == sum && rows.pairMix y == mix then rows
  else
    { pairSum := Function.update rows.pairSum y sum
      pairMix := Function.update rows.pairMix y mix
      fb := blit rows.fb (y * s.fbDev.width) ((List.range 320).map fun x => s.vbeAverage f x y)
      dirtyMin := min rows.dirtyMin y
      dirtyMax := max rows.dirtyMax y }

def vbeRows (s : Display) (f : Frame) (force : Bool) : VbeRows :=
  (List.range 240).foldl (s.vbeRow f force)
    { pairSum := s.vbePairSum, pairMix := s.vbePairMix, fb := s.fbDev.data, dirtyMin := 240,
      dirtyMax := -1 }

/-- `none` leaves the frame to another renderer. -/
def vbeScale2 (s : Display) (f : Frame) (fullUpdate : Bool) : Option Display :=
  if s.Serves f then
    let rows := s.vbeRows f (s.forceUpdate f fullUpdate)
    some { s with
      vbePairSum := rows.pairSum
      vbePairMix := rows.pairMix
      vbePresentCount := s.vbePresentCount + 1
      vbeFingerprintKey := f.key
      vbeFingerprintValid := true
      fbDev := { s.fbDev with data := rows.fb }
      redraws := if rows.dirtyMin ≤ rows.dirtyMax then
          s.redraws ++ [⟨0, rows.dirtyMin, s.fbDev.width, rows.dirtyMax - rows.dirtyMin + 1⟩]
        else s.redraws }
  else none

/-- `vga_graphic_refresh`, where `vga_vbe_scale2` handles it. -/
def graphicRefresh (s : Display) (fullUpdate : Bool) : Option Display :=
  let (f, s) := s.frame
  if f.isVbe then s.vbeScale2 f fullUpdate else none

def clear (s : Display) : Display :=
  { s with fbDev := { s.fbDev with
      data := fun i => if i < s.fbDev.width * s.fbDev.height then 0 else s.fbDev.data i } }

/-- A graphic mode that has just been entered starts from an empty screen. -/
def enterGraphics (s : Display) (fullUpdate : Bool) : Display × Bool :=
  if s.graphicMode = 2 then (s, fullUpdate) else ({ s with graphicMode := 2 }.clear, true)

/-- A palette that was written forces a full refresh. -/
def takePalette (s : Display) (fullUpdate : Bool) : Display × Bool :=
  if s.paletteForceFull then ({ s with paletteForceFull := false }, true) else (s, fullUpdate)

/-- `vga_refresh`, where `vga_vbe_scale2` handles it: not on a blank screen, in text modes and
while a palette is being written. -/
def refresh (s : Display) (fullUpdate : Bool) : Option Display :=
  if s.arIndex.getLsbD 5 ∧ (s.vga.regs.gr 6).getLsbD 0 then
    let (s, fullUpdate) := s.enterGraphics fullUpdate
    if s.paletteQuietPolls ≠ 0 then none
    else
      let (s, fullUpdate) := s.takePalette fullUpdate
      s.graphicRefresh fullUpdate
  else none

end Display

namespace Display
variable {s : Display} {f : Frame}

structure Frame.IsVbe (f : Frame) : Prop where
  isVbe : f.isVbe = true
  shiftControl : f.shiftControl = 2
  xdiv : f.xdiv = 1

/-- The start of line `y`, as a number. -/
def Frame.lineStart (f : Frame) (y : Nat) : Nat := f.srcBase.toNat + y * f.lineOffset.toNat

theorem Serves.line_le (h : s.Serves f) {y : Nat} (hy : y < 480) :
    f.lineStart y + f.visibleBytes ≤ s.vga.ramSize := by
  have hend := h.end_le
  have hmul := Nat.mul_le_mul_right f.lineOffset.toNat (show y ≤ f.h - 1 by rw [h.h]; omega)
  unfold Frame.lineStart
  omega

theorem Serves.row0 (h : s.Serves f) {y : Nat} (hy : y < 240) : f.row0 y = f.lineStart (2 * y) := by
  have hle := h.line_le (y := 2 * y) (by omega)
  have hlt := s.vga.ramSize_lt
  have hy2 : y * 2 = 2 * y := Nat.mul_comm y 2
  unfold Frame.lineStart at *
  unfold Frame.row0
  rw [BitVec.toNat_mul, BitVec.toNat_ofNat, hy2, Nat.mod_eq_of_lt (show 2 * y < 2 ^ 32 by omega),
    Nat.mod_eq_of_lt (by omega)]

theorem Serves.row1 (h : s.Serves f) {y : Nat} (hy : y < 240) :
    f.row1 y = f.lineStart (2 * y + 1) := by
  unfold Frame.row1
  rw [h.row0 hy]
  unfold Frame.lineStart
  rw [Nat.add_mul (2 * y) 1, Nat.one_mul, Nat.add_assoc]

theorem read_of_lt {a : Word} (h : a.toNat < s.vga.ramSize) :
    s.read a = (s.vga.ram a.toNat).setWidth 32 := if_neg (Nat.not_le.mpr h)

theorem read_pixel {a : Word} {n k x i : Nat} (ha : a.toNat = n)
    (h : n + x * k + i < s.vga.ramSize) :
    s.read (a + BitVec.ofNat 32 k * BitVec.ofNat 32 x + BitVec.ofNat 32 i) =
      (s.vga.ram (n + x * k + i)).setWidth 32 := by
  have hlt := s.vga.ramSize_lt
  have haddr : (a + BitVec.ofNat 32 k * BitVec.ofNat 32 x + BitVec.ofNat 32 i).toNat =
      n + x * k + i := by
    rw [← BitVec.ofNat_mul, BitVec.add_assoc, ← BitVec.ofNat_add, BitVec.toNat_add, ha,
      BitVec.toNat_ofNat, Nat.mul_comm k x, Nat.add_mod_mod, ← Nat.add_assoc]
    exact Nat.mod_eq_of_lt (by omega)
  rw [read_of_lt (by omega), haddr]

theorem deepColor_eq {a : Word} {n x : Nat} (hbpp : f.bpp ∈ [8, 15, 16, 24, 32])
    (ha : a.toNat = n) (h : n + (x + 1) * f.bytesPerPixel ≤ s.vga.ramSize) :
    (s.deepColor f.bpp a (BitVec.ofNat 32 x)).setWidth 16 =
      s.lcdVbePixel (n + x * f.bytesPerPixel) f.bpp := by
  have hread : ∀ {k i : Nat}, f.bytesPerPixel = k → i < k →
      s.read (a + BitVec.ofNat 32 k * BitVec.ofNat 32 x + BitVec.ofNat 32 i) =
        (s.vga.ram (n + x * f.bytesPerPixel + i)).setWidth 32 := by
    intro k i hk hi
    rw [Nat.add_mul, Nat.one_mul] at h
    rw [hk] at h ⊢
    exact read_pixel ha (by omega)
  have hfirst : ∀ {k : Nat}, f.bytesPerPixel = k → 0 < k →
      s.read (a + BitVec.ofNat 32 k * BitVec.ofNat 32 x) =
        (s.vga.ram (n + x * f.bytesPerPixel)).setWidth 32 := by
    intro k hk h0
    rw [← Nat.add_zero (n + x * f.bytesPerPixel), ← hread hk h0]
    exact congrArg s.read (BitVec.add_zero _).symm
  simp only [List.mem_cons, List.not_mem_nil, or_false] at hbpp
  unfold deepColor lcdVbePixel
  rcases hbpp with hb | hb | hb | hb | hb <;>
    have hk : f.bytesPerPixel = (f.bpp + 7) / 8 := rfl <;> rw [hb] at hk
  · have h0 : s.read (a + BitVec.ofNat 32 x) =
        (s.vga.ram (n + x * f.bytesPerPixel)).setWidth 32 := by
      rw [← BitVec.one_mul (BitVec.ofNat 32 x)]
      exact hfirst hk (by decide)
    simp only [hb, h0]
    rw [BitVec.toNat_setWidth_of_le (by decide)]
  · have h0 : s.read (a + 2 * BitVec.ofNat 32 x) = _ := hfirst hk (by decide)
    have h1 : s.read (a + 2 * BitVec.ofNat 32 x + 1) = _ := hread hk (by decide)
    simp only [hb, h0, h1, Nat.add_zero]
  · have h0 : s.read (a + 2 * BitVec.ofNat 32 x) = _ := hfirst hk (by decide)
    have h1 : s.read (a + 2 * BitVec.ofNat 32 x + 1) = _ := hread hk (by decide)
    simp only [hb, h0, h1, Nat.add_zero]
  · have h0 : s.read (a + 3 * BitVec.ofNat 32 x) = _ := hfirst hk (by decide)
    have h1 : s.read (a + 3 * BitVec.ofNat 32 x + 1) = _ := hread hk (by decide)
    have h2 : s.read (a + 3 * BitVec.ofNat 32 x + 2) = _ := hread hk (by decide)
    simp only [hb, h0, h1, h2, Nat.add_zero]
  · have h0 : s.read (a + 4 * BitVec.ofNat 32 x) = _ := hfirst hk (by decide)
    have h1 : s.read (a + 4 * BitVec.ofNat 32 x + 1) = _ := hread hk (by decide)
    have h2 : s.read (a + 4 * BitVec.ofNat 32 x + 2) = _ := hread hk (by decide)
    simp only [hb, h0, h1, h2, Nat.add_zero]

/-- The pixel at `x` of line `y`. -/
def vbePixel (s : Display) (f : Frame) (x y : Nat) : Pixel :=
  s.lcdVbePixel (f.lineStart y + x * f.bytesPerPixel) f.bpp

theorem Serves.average (h : s.Serves f) (x : Nat) {y : Nat} (hy : y < 240) :
    s.vbeAverage f x y = average (s.vbePixel f (2 * x) (2 * y)) (s.vbePixel f (2 * x + 1) (2 * y))
      (s.vbePixel f (2 * x) (2 * y + 1)) (s.vbePixel f (2 * x + 1) (2 * y + 1)) := by
  unfold vbeAverage vbePixel
  simp only [h.row0 hy, h.row1 hy, Nat.add_mul (2 * x) 1, Nat.one_mul, Nat.mul_comm x 2,
    Nat.add_assoc]

theorem linePixels_vbe (hf : f.IsVbe) (addr : Word) (n x : Nat) (comp : Word) :
    s.linePixels f addr n x comp =
      (List.range n).map fun k =>
        (s.deepColor f.bpp addr (BitVec.ofNat 32 (x + k))).setWidth 16 := by
  induction n generalizing x with
  | zero => rfl
  | succ n ih =>
    have hcolor : s.color f addr (x / f.xdiv) comp =
        (s.deepColor f.bpp addr (BitVec.ofNat 32 x), comp) := by
      unfold color
      rw [hf.shiftControl, hf.xdiv, Nat.div_one]
      rfl
    unfold linePixels
    simp only [hcolor, ih, List.range_succ_eq_map, List.map_cons, List.map_map]
    congr 1
    apply List.map_congr_left
    intro k _
    rw [Function.comp_apply, Nat.succ_eq_add_one, Nat.add_right_comm, Nat.add_assoc]

theorem Serves.linePixels (h : s.Serves f) (hf : f.IsVbe) {y : Nat} (hy : y < 480) {addr : Word}
    (ha : addr.toNat = f.lineStart y) :
    s.linePixels f addr 640 0 0 = (List.range 640).map fun x => s.vbePixel f x y := by
  rw [linePixels_vbe hf]
  apply List.map_congr_left
  intro x hx
  have hlt := List.mem_range.mp hx
  have hle := h.line_le hy
  have hvisible : (x + 1) * f.bytesPerPixel ≤ f.visibleBytes := by
    unfold Frame.visibleBytes
    rw [h.w]
    exact Nat.mul_le_mul_right _ hlt
  rw [Nat.zero_add]
  exact deepColor_eq h.bpp ha (by omega)

theorem Serves.lineStart (h : s.Serves f) {y : Nat} (hy : y < 480) :
    (4 * f.startAddr + BitVec.ofNat 32 y * f.lineOffset).toNat = f.lineStart y := by
  have hle := h.line_le hy
  have hlt := s.vga.ramSize_lt
  unfold Frame.lineStart at *
  rw [BitVec.mul_comm 4, BitVec.toNat_add, BitVec.toNat_mul (BitVec.ofNat 32 y),
    BitVec.toNat_ofNat, Nat.mod_eq_of_lt (show y < 2 ^ 32 by omega), Nat.add_mod_mod]
  exact Nat.mod_eq_of_lt (show f.srcBase.toNat + _ < _ by omega)

theorem Serves.lines (h : s.Serves f) (hf : f.IsVbe) :
    s.Lines f (s.vbePixel f) fun k addr1 _ _ =>
      addr1 = 4 * f.startAddr + BitVec.ofNat 32 k * f.lineOffset where
  start := by rw [BitVec.zero_mul, BitVec.add_zero]
  next k sc _ hat := by
    unfold nextLine
    have hone : BitVec.ofNat 32 1 * f.lineOffset = f.lineOffset := BitVec.one_mul _
    rw [if_pos hf.isVbe, hat, BitVec.ofNat_add, BitVec.add_mul, BitVec.add_assoc, hone]
  pixels k sc hk hat := by
    have haddr : s.lineAddr f sc = sc.addr1 := by
      unfold lineAddr
      rw [hf.isVbe]
      rfl
    rw [h.h] at hk
    rw [haddr, hat]
    exact h.linePixels hf hk (h.lineStart hk)

theorem Serves.halved (h : s.Serves f) : s.Halved f where
  width := h.width
  height := h.height
  w := h.w
  h_le := Nat.le_of_eq h.h
  even := by rw [h.h]

theorem Serves.genericDraw (h : s.Serves f) (hf : f.IsVbe) :
    lcd.Paints (fun x y => [s.vbeAverage f x y]) (fun _ _ => True) s.fbDev.data
      (s.genericDraw f).fbDev.data := by
  have hpaints := (h.lines hf).genericDraw h.halved
  have htop : f.top = 0 := by
    unfold Frame.top
    rw [h.h]
  rw [htop, h.h] at hpaints
  refine ⟨fun x y hx hy _ => ?_, fun _ _ _ _ hout => absurd trivial hout⟩
  rw [hpaints.drawn x y hx hy ⟨Nat.zero_le y, hy⟩, h.average x hy]
  rfl

end Display

end Winspire.Vga
