import Winspire.Vga.Planar
import Winspire.Vga.Mode13Runs

/-!
# Runs in a mode of four planes

The renderer remembers the frame of its last picture, and draws everything when the frame or the
palette is another one. Writes mark the rows they change by the frame the registers have.
-/

namespace Winspire.Vga

set_option autoImplicit false

namespace VgaState
variable {s t u : VgaState}

def Bounded16 (s : VgaState) : Prop := 0 ≤ s.planar640DirtyMin ∧ s.planar640DirtyMax ≤ 239

def Marked16 (s : VgaState) (y : Nat) : Prop :=
  s.planar640DirtyMin ≤ y ∧ (y : Int) ≤ s.planar640DirtyMax ∧ s.planar640DirtyRows y = true

/-- `a` is an address of one of the two lines of row `y`. -/
def InPair (s : VgaState) (y a : Nat) : Prop :=
  ∃ k, k / 2 = y ∧ s.startAddr.toNat + k * s.lineOffset.toNat ≤ a ∧
    a < s.startAddr.toNat + k * s.lineOffset.toNat + 320

/-- Marks are added, and without chain 4 the rows that change are marked. -/
structure Marks16 (s t : VgaState) : Prop where
  regs : t.regs = s.regs
  ramSize : t.ramSize = s.ramSize
  build : t.dirtyRender = s.dirtyRender
  bounded : s.Bounded16 → t.Bounded16
  grows : ∀ y, s.Marked16 y → t.Marked16 y
  covers : s.regs.chain4 = false → s.dirtyRender = true → 320 ≤ s.lineOffset.toNat →
    ∀ a y, y < 240 → s.InPair y a → t.ram a ≠ s.ram a → t.Marked16 y

theorem Marks16.refl (s : VgaState) : Marks16 s s :=
  ⟨rfl, rfl, rfl, id, fun _ => id, fun _ _ _ _ _ _ _ h => absurd rfl h⟩

theorem Marks16.trans (h : Marks16 s t) (h' : Marks16 t u) : Marks16 s u where
  regs := h'.regs.trans h.regs
  ramSize := h'.ramSize.trans h.ramSize
  build := h'.build.trans h.build
  bounded hs := h'.bounded (h.bounded hs)
  grows y hy := h'.grows y (h.grows y hy)
  covers hchain hbuild hwide a y hy hrow hne := by
    have hstart : t.startAddr = s.startAddr := by
      unfold startAddr
      rw [h.regs]
    have hoffset : t.lineOffset = s.lineOffset := by
      unfold lineOffset
      rw [h.regs]
    by_cases hfirst : t.ram a = s.ram a
    · rw [← hfirst] at hne
      refine h'.covers ?_ ?_ ?_ a y hy ?_ hne
      · rw [h.regs]
        exact hchain
      · rw [h.build]
        exact hbuild
      · rw [hoffset]
        exact hwide
      · unfold InPair at *
        rw [hstart, hoffset]
        exact hrow
    · exact h'.grows y (h.covers hchain hbuild hwide a y hy hrow hfirst)

theorem InPair.div_eq {y a : Nat} (h : s.InPair y a) (hwide : 320 ≤ s.lineOffset.toNat) :
    (a - s.startAddr.toNat) / s.lineOffset.toNat / 2 = y := by
  obtain ⟨k, rfl, hge, hlt⟩ := h
  congr 1
  apply Nat.div_eq_of_lt_le
  · omega
  · rw [Nat.succ_mul]
    omega

/-- The marks grow, and cover what is visible of a run of bytes. -/
structure Marking16 (s : VgaState) (addr len : Word) (lo hi : Int) (rows : Nat → Bool) : Prop where
  bounded : s.Bounded16 → 0 ≤ lo ∧ hi ≤ 239
  grows : lo ≤ s.planar640DirtyMin ∧ s.planar640DirtyMax ≤ hi
  more : ∀ y, s.planar640DirtyRows y = true → rows y = true
  covers : s.dirtyRender = true → 320 ≤ s.lineOffset.toNat → addr.toNat + len.toNat ≤ 2 ^ 31 →
    ∀ a y, y < 240 → s.InPair y a → addr.toNat ≤ a → a < addr.toNat + len.toNat →
      lo ≤ y ∧ (y : Int) ≤ hi ∧ rows y = true

/-- Nothing is marked where nothing of the run is visible. -/
theorem marking16_same {s : VgaState} {addr len : Word} (hnone : s.dirtyRender = true →
    320 ≤ s.lineOffset.toNat → addr.toNat + len.toNat ≤ 2 ^ 31 → ∀ a y, y < 240 → s.InPair y a →
      addr.toNat ≤ a → ¬a < addr.toNat + len.toNat) :
    ∃ lo hi rows, s = { s with
        planar640DirtyMin := lo, planar640DirtyMax := hi, planar640DirtyRows := rows } ∧
      s.Marking16 addr len lo hi rows := by
  refine ⟨s.planar640DirtyMin, s.planar640DirtyMax, s.planar640DirtyRows, rfl, id,
    ⟨Int.le_refl _, Int.le_refl _⟩, fun _ => id, ?_⟩
  intro hbuild hwide hfits a y hy hrow hge hlt
  exact absurd hlt (hnone hbuild hwide hfits a y hy hrow hge)

theorem InPair.start_le {y a : Nat} (h : s.InPair y a) : s.startAddr.toNat ≤ a := by
  obtain ⟨k, -, hk, -⟩ := h
  omega

theorem InPair.within {addr len : Word} {a y : Nat} (hrow : s.InPair y a)
    (hwide : 320 ≤ s.lineOffset.toNat) (hfits : addr.toNat + len.toNat ≤ 2 ^ 31)
    (hlen : 0 < len.toNat) (hge : addr.toNat ≤ a) (hlt : a < addr.toNat + len.toNat) :
    ((((if addr < s.startAddr then s.startAddr else addr) - s.startAddr) /
        s.lineOffset) >>> 1).toNat ≤ y ∧
      y ≤ ((((if addr < s.startAddr then s.startAddr else addr) + len - 1 - s.startAddr) /
        s.lineOffset) >>> 1).toNat := by
  obtain ⟨hlo, hhi⟩ := rows_of_visible s.lineOffset hfits (startAddr_lt s) hlen hrow.start_le hge hlt
  rw [BitVec.toNat_ushiftRight, BitVec.toNat_ushiftRight, Nat.shiftRight_eq_div_pow,
    Nat.shiftRight_eq_div_pow, ← hrow.div_eq hwide]
  exact ⟨Nat.div_le_div_right hlo, Nat.div_le_div_right hhi⟩

theorem dirtyPlanar640_spec (s : VgaState) (addr len : Word) :
    ∃ lo hi rows, s.dirtyPlanar640 addr len = { s with
        planar640DirtyMin := lo, planar640DirtyMax := hi, planar640DirtyRows := rows } ∧
      s.Marking16 addr len lo hi rows := by
  unfold dirtyPlanar640
  dsimp only
  split
  · rename_i hnone
    apply marking16_same
    intro hbuild _ _ a y _ _ hge hlt
    rcases hnone with hoff | hzero
    · exact hoff hbuild
    · rw [hzero] at hlt
      exact absurd hlt (by simpa using hge)
  rename_i hsome
  have hlen := length_pos hsome
  split
  · rename_i hnarrow
    apply marking16_same
    intro _ hwide
    have hlt : s.lineOffset.toNat < 320 := hnarrow
    omega
  rename_i hwide
  have hline : 320 ≤ s.lineOffset.toNat := Nat.le_of_not_lt hwide
  split
  · rename_i hend
    apply marking16_same
    intro _ _ hfits a y _ hrow _ hlt
    exact absurd (not_visible hfits hend hlt) (Nat.not_lt_of_le hrow.start_le)
  have hwithin := fun hfits a y (hrow : s.InPair y a) =>
    @InPair.within s addr len a y hrow hline hfits hlen
  generalize (if addr < s.startAddr then s.startAddr else addr) = addr' at hwithin ⊢
  by_cases hlow : (240 : Word) ≤ ((addr' - s.startAddr) / s.lineOffset) >>> 1
  · rw [if_pos hlow]
    apply marking16_same
    intro _ _ hfits a y hy hrow hge hlt
    have hle := (hwithin hfits a y hrow hge hlt).1
    have hbig : 240 ≤ (((addr' - s.startAddr) / s.lineOffset) >>> 1).toNat := hlow
    omega
  · rw [if_neg hlow, lastRow_toNat (show (240 : Word).toNat = (239 : Word).toNat + 1 from rfl)]
    have hfirst : (((addr' - s.startAddr) / s.lineOffset) >>> 1).toNat < 240 :=
      Nat.lt_of_not_le hlow
    have h239 : (239 : Word).toNat = 239 := rfl
    refine ⟨_, _, _, rfl, ?_, ?_, ?_, ?_⟩
    · unfold Bounded16
      omega
    · omega
    · intro y hy
      split
      · rfl
      · exact hy
    · intro _ _ hfits a y hy hrow hge hlt'
      have h := hwithin hfits a y hrow hge hlt'
      refine ⟨by omega, by omega, if_pos ?_⟩
      omega

theorem marks16_run (s : VgaState) (ram : Nat → Byte) (addr len : Word)
    (hfits : addr.toNat + len.toNat ≤ 2 ^ 31)
    (hram : ∀ a, ¬(addr.toNat ≤ a ∧ a < addr.toNat + len.toNat) → ram a = s.ram a) :
    Marks16 s { s.dirtyPlanar640 addr len with ram := ram } := by
  obtain ⟨lo, hi, rows, heq, hmarking⟩ := s.dirtyPlanar640_spec addr len
  rw [heq]
  refine ⟨rfl, rfl, rfl, hmarking.bounded, ?_, ?_⟩
  · rintro y ⟨hge, hle, hrow⟩
    exact ⟨Int.le_trans hmarking.grows.1 hge, Int.le_trans hle hmarking.grows.2,
      hmarking.more y hrow⟩
  · intro _ hbuild hwide a y hy hrow hne
    have hin : addr.toNat ≤ a ∧ a < addr.toNat + len.toNat := by
      by_contra hout
      exact hne (hram a hout)
    exact hmarking.covers hbuild hwide hfits a y hy hrow hin.1 hin.2

theorem dirtyPlanar640_ram (s : VgaState) (ram : Nat → Byte) (addr len : Word) :
    dirtyPlanar640 { s with ram := ram } addr len =
      { s.dirtyPlanar640 addr len with ram := ram } := by
  unfold dirtyPlanar640
  dsimp only
  repeat' split
  all_goals first
    | rfl
    | contradiction

theorem fillPlanes_ram (mask keep : Word) (i : Nat) (buf : List Byte) (s : VgaState) :
    ∃ ram, fillPlanes mask keep i buf s = { s with ram := ram } ∧
      ∀ a, ¬(4 * i ≤ a ∧ a < 4 * (i + buf.length)) → ram a = s.ram a := by
  induction buf generalizing i s with
  | nil => exact ⟨s.ram, rfl, fun _ _ => rfl⟩
  | cons b buf ih =>
    obtain ⟨ram, heq, hram⟩ := ih (i + 1)
      (s.putWord i (b.setWidth 32 * 0x01010101 &&& mask ||| s.getWord i &&& keep))
    refine ⟨ram, heq, fun a ha => ?_⟩
    have hlen : (b :: buf).length = buf.length + 1 := rfl
    rw [hlen] at ha
    rw [hram a (by omega)]
    apply blit_apply_of_not_mem
    intro hin
    have hfour : ∀ w : Word, (bytes32 w).length = 4 := fun _ => rfl
    rw [hfour] at hin
    omega

/-- A change in chain 4 does not concern the mode, if it leaves its marks. -/
theorem marks16_chained (hregs : t.regs = s.regs) (hsize : t.ramSize = s.ramSize)
    (hbuild : t.dirtyRender = s.dirtyRender)
    (hmarks : t.planar640DirtyMin = s.planar640DirtyMin ∧
      t.planar640DirtyMax = s.planar640DirtyMax ∧ t.planar640DirtyRows = s.planar640DirtyRows)
    (hchain : s.regs.chain4 = true) : Marks16 s t := by
  refine ⟨hregs, hsize, hbuild, ?_, fun y hy => ?_, ?_⟩
  · unfold Bounded16
    rw [hmarks.1, hmarks.2.1]
    exact id
  · unfold Marked16 at *
    rw [hmarks.1, hmarks.2.1, hmarks.2.2]
    exact hy
  · intro hoff
    rw [hchain] at hoff
    cases hoff

theorem marks16_stores : Stores Marks16 where
  refl := Marks16.refl
  trans := Marks16.trans
  count s := by
    unfold countWrite
    split
    · exact ⟨rfl, rfl, rfl, id, fun _ => id, fun _ _ _ _ _ _ _ h => absurd rfl h⟩
    · exact Marks16.refl s
  chained s addr bytes hchain _ := by
    obtain ⟨lo, hi, heq, -⟩ := s.dirtyMode13_spec addr (BitVec.ofNat 32 bytes.length)
    rw [heq]
    exact marks16_chained rfl rfl rfl ⟨rfl, rfl, rfl⟩ hchain
  oddEven s addr val _ hlt := by
    have hram := s.ramSize_lt
    have hone : (1 : Word).toNat = 1 := rfl
    have hframe : (s.dirtyPlanar640 addr 1).put addr [val] =
        { s.dirtyPlanar640 addr 1 with ram := blit s.ram addr.toNat [val] } := by
      unfold put
      rw [(Alike.dirtyPlanar640 s addr 1).ram]
    rw [hframe]
    apply marks16_run s _ addr 1 (by omega)
    intro a ha
    apply blit_apply_of_not_mem
    exact ha
  planes s addr val _ hlt := by
    have hram := s.ramSize_lt
    have hfour : (4 : Word).toNat = 4 := rfl
    have haddr : (addr * 4).toNat = 4 * addr.toNat := by
      rw [BitVec.toNat_mul, hfour]
      omega
    have hframe : (s.dirtyPlanar640 (addr * 4) 4).putWord addr.toNat val =
        { s.dirtyPlanar640 (addr * 4) 4 with
          ram := blit s.ram (4 * addr.toNat) (bytes32 val) } := by
      unfold putWord
      rw [(Alike.dirtyPlanar640 s (addr * 4) 4).ram]
    rw [hframe]
    apply marks16_run s _ (addr * 4) 4 (by omega)
    intro a ha
    rw [haddr, hfour] at ha
    apply blit_apply_of_not_mem
    exact ha
  fill s addr mask keep buf _ hfits := by
    have hram := s.ramSize_lt
    have hfour : (4 : Word).toNat = 4 := rfl
    have haddr : (addr * 4).toNat = 4 * addr.toNat := by
      rw [BitVec.toNat_mul, hfour]
      omega
    have hlen : (BitVec.ofNat 32 buf.length * 4).toNat = 4 * buf.length := by
      rw [BitVec.toNat_mul, BitVec.toNat_ofNat, hfour]
      omega
    obtain ⟨ram, heq, hkept⟩ := fillPlanes_ram mask keep addr.toNat buf s
    rw [heq, dirtyPlanar640_ram]
    apply marks16_run s _ (addr * 4) _ (by omega)
    intro a ha
    rw [haddr, hlen] at ha
    exact hkept a (by omega)

end VgaState

namespace Screen
variable {s t u : Screen} {f : Display.Frame}

def top16 (s : Screen) : Nat := (480 - s.planar640Height) / 4

def InPicture (s : Screen) (y : Nat) : Prop :=
  s.top16 ≤ y ∧ y < s.top16 + s.planar640Height / 2

instance (s : Screen) (y : Nat) : Decidable (s.InPicture y) :=
  inferInstanceAs (Decidable (_ ∧ _))

/-- The rows of the last picture; the others are left as they are. -/
def view16 : View Screen (Fin 320 × Fin 240) Pixel where
  want s p := if s.InPicture p.2 then s.picture16 p.1 p.2 else s.fbDev.data (p.2 * 320 + p.1)
  shown s p := s.fbDev.data (p.2 * 320 + p.1)
  marked s p := s.InPicture p.2 ∧ s.vga.Marked16 (p.2.val - s.top16)

/-- The frame of the registers is the one of the last picture. -/
def Recalls (s : Screen) : Prop := s.Remembers s.toDisplay.crtFrame.1

def Stale16 (s : Screen) : Prop :=
  s.graphicMode ≠ 2 ∨ s.paletteForceFull = true ∨ ¬s.Recalls

/-- What `vga_planar16_draw` does behind the table of sums. -/
structure Drew16 (p t : Screen) (force : Prop) : Prop where
  vga : ∃ lo hi rows, t.vga = { p.vga with
    planar640DirtyMin := lo, planar640DirtyMax := hi, planar640DirtyRows := rows }
  bounded : t.vga.Bounded16
  tables : p.SameTables t
  planar : p.SamePlanar t
  attributes : t.ar = p.ar ∧ t.compNtsc = p.compNtsc
  size : t.fbDev.width = p.fbDev.width ∧ t.fbDev.height = p.fbDev.height
  shown : ∀ x y, x < 320 → y < 240 → p.InPicture y →
    t.fbDev.data (y * 320 + x) = p.picture16 x y ∨
      ¬force ∧ ¬p.vga.Marked16 (y - p.top16) ∧
        t.fbDev.data (y * 320 + x) = p.fbDev.data (y * 320 + x)
  border : ¬force → ∀ x y, x < 320 → y < 240 → ¬p.InPicture y →
    t.fbDev.data (y * 320 + x) = p.fbDev.data (y * 320 + x)
  told : ∃ rects, t.redraws = p.redraws ++ rects ∧ ∀ x y, x < 320 → y < 240 →
    force ∨ t.fbDev.data (y * 320 + x) ≠ p.fbDev.data (y * 320 + x) → ∃ r ∈ rects, Holds r x y

/-- The renderer behind the table of sums. -/
def drawRows16 (p : Screen) (f : Display.Frame) (top : Nat) (force : Bool) : Screen :=
  let start := fun fb => PlanarRows.mk fb p.vga.planar640DirtyRows 240 (-1)
  if force then
    (p.finishPlanar (p.planarRows f top true 0 (f.h / 2)
      (start (planarBorders top (f.h / 2) p.fbDev.data)))).redrawn
        ⟨0, 0, p.fbDev.width, p.fbDev.height⟩
  else if p.vga.planar640DirtyMax < p.vga.planar640DirtyMin then p
  else if ((f.h / 2 : Nat) : Int) ≤ p.vga.planar640DirtyMin then
    p.finishPlanar (start p.fbDev.data)
  else
    let first := p.vga.planar640DirtyMin
    let last := min p.vga.planar640DirtyMax ((f.h / 2 : Nat) - 1)
    let rows := p.planarRows f top false first.toNat (last - first + 1).toNat (start p.fbDev.data)
    if rows.dirtyMin ≤ rows.dirtyMax then
      (p.finishPlanar rows).redrawn
        ⟨0, top + rows.dirtyMin, p.fbDev.width, rows.dirtyMax - rows.dirtyMin + 1⟩
    else p.finishPlanar rows

def force16 (s : Screen) (f : Display.Frame) (full : Bool) : Bool :=
  full || s.updateLastPalette.1 || !s.planar640Valid || s.planar640Start != f.startAddr ||
    s.planar640Line != f.lineOffset || s.planar640Height != f.h

theorem planar16Draw_eq (full : Bool) (hdraws : s.draws16 f = true) :
    s.planar16Draw f full =
      some (drawRows16 (s.updateLastPalette.2.remember f).planar4GetSums f
        ((s.fbDev.height - f.h / 2) / 2) (s.force16 f full)) := by
  unfold planar16Draw drawRows16 force16
  rw [if_pos hdraws]
  dsimp only
  split
  · rfl
  split
  · rfl
  split
  · rfl
  · rfl

theorem inPicture_iff (p : Screen) (y : Nat) :
    p.InPicture y ↔ ∃ k, k < p.planar640Height / 2 ∧ y = p.top16 + k := by
  unfold InPicture
  constructor
  · rintro ⟨hge, hlt⟩
    exact ⟨y - p.top16, by omega, by omega⟩
  · rintro ⟨k, hk, rfl⟩
    omega

/-- The end of the renderer, with what has been drawn and what is told. -/
theorem finish_drew {p : Screen} {force : Prop} (rows : PlanarRows) (rects : List Rect)
    (hshown : ∀ x y, x < 320 → y < 240 → p.InPicture y →
      rows.fb (y * 320 + x) = p.picture16 x y ∨
        ¬force ∧ ¬p.vga.Marked16 (y - p.top16) ∧
          rows.fb (y * 320 + x) = p.fbDev.data (y * 320 + x))
    (hborder : ¬force → ∀ x y, x < 320 → y < 240 → ¬p.InPicture y →
      rows.fb (y * 320 + x) = p.fbDev.data (y * 320 + x))
    (htold : ∀ x y, x < 320 → y < 240 →
      force ∨ rows.fb (y * 320 + x) ≠ p.fbDev.data (y * 320 + x) → ∃ r ∈ rects, Holds r x y) :
    Drew16 p { p.finishPlanar rows with redraws := p.redraws ++ rects } force where
  vga := ⟨240, -1, rows.marks, rfl⟩
  bounded := ⟨(by decide : (0 : Int) ≤ 240), (by decide : (-1 : Int) ≤ 239)⟩
  tables := by repeat' constructor
  planar := by repeat' constructor
  attributes := ⟨rfl, rfl⟩
  size := ⟨rfl, rfl⟩
  shown := hshown
  border := hborder
  told := ⟨rects, rfl, htold⟩

section Rows
variable {p : Screen} {force : Bool} {first n : Nat} {rows rows' : PlanarRows} {x y : Nat}

theorem PlanarDrawn.pixel {top : Nat} (h : p.PlanarDrawn top first n force rows rows') (hx : x < 320)
    (hy : y < 240) :
    ((∃ k, first ≤ k ∧ k < first + n ∧ y = top + k ∧ (force = true ∨ rows.marks k = true)) →
        rows'.fb (y * 320 + x) = p.picture16 x y) ∧
      ((¬∃ k, first ≤ k ∧ k < first + n ∧ y = top + k ∧ (force = true ∨ rows.marks k = true)) →
        rows'.fb (y * 320 + x) = rows.fb (y * 320 + x)) :=
  Display.paints_pixel h.paints hx hy

theorem PlanarDrawn.full (h : p.PlanarDrawn p.top16 0 (p.planar640Height / 2) true rows rows')
    (hwidth : p.fbDev.width = 320) (hheight : p.fbDev.height = 240) :
    Drew16 p ((p.finishPlanar rows').redrawn ⟨0, 0, p.fbDev.width, p.fbDev.height⟩)
      (true = true) := by
  apply finish_drew _ [⟨0, 0, p.fbDev.width, p.fbDev.height⟩]
  · intro x y hx hy hin
    left
    apply (h.pixel hx hy).1
    obtain ⟨k, hk, hyk⟩ := (inPicture_iff p y).mp hin
    exact ⟨k, Nat.zero_le k, by omega, hyk, .inl rfl⟩
  · intro hnot
    exact absurd rfl hnot
  · intro x y hx hy _
    refine ⟨_, List.mem_singleton_self _, ?_⟩
    unfold Holds
    dsimp only
    omega

/-- The rows drawn are the marked ones of the picture. -/
theorem PlanarDrawn.shown
    (h : p.PlanarDrawn p.top16 first n false ⟨p.fbDev.data, p.vga.planar640DirtyRows, 240, -1⟩ rows')
    (hmarked : ∀ k, p.vga.planar640DirtyRows k = true → k < p.planar640Height / 2 →
      (p.vga.Marked16 k ↔ first ≤ k ∧ k < first + n))
    (hx : x < 320) (hy : y < 240) (hin : p.InPicture y) :
    rows'.fb (y * 320 + x) = p.picture16 x y ∨
      ¬p.vga.Marked16 (y - p.top16) ∧ rows'.fb (y * 320 + x) = p.fbDev.data (y * 320 + x) := by
  obtain ⟨k, hk, rfl⟩ := (inPicture_iff p y).mp hin
  rw [Nat.add_sub_cancel_left]
  by_cases hrow : p.vga.Marked16 k
  · left
    apply (h.pixel hx hy).1
    obtain ⟨hge, hlt⟩ := (hmarked k hrow.2.2 hk).mp hrow
    exact ⟨k, hge, hlt, rfl, .inr hrow.2.2⟩
  · refine .inr ⟨hrow, (h.pixel hx hy).2 ?_⟩
    rintro ⟨j, hge, hlt, hyj, hno | hmark⟩
    · cases hno
    · obtain rfl : k = j := by omega
      exact hrow ((hmarked k hmark hk).mpr ⟨hge, hlt⟩)

theorem PlanarDrawn.border
    (h : p.PlanarDrawn p.top16 first n force ⟨p.fbDev.data, p.vga.planar640DirtyRows, 240, -1⟩ rows')
    (hinside : first + n ≤ p.planar640Height / 2) (hx : x < 320) (hy : y < 240)
    (hout : ¬p.InPicture y) : rows'.fb (y * 320 + x) = p.fbDev.data (y * 320 + x) := by
  apply (h.pixel hx hy).2
  rintro ⟨j, hge, hlt, hyj, -⟩
  apply hout
  rw [inPicture_iff]
  exact ⟨j, by omega, hyj⟩

/-- A row that has changed is between the first and the last row drawn. -/
theorem PlanarDrawn.changed {top : Nat} (h : p.PlanarDrawn top first n force rows rows')
    (hx : x < 320) (hy : y < 240) (hne : rows'.fb (y * 320 + x) ≠ rows.fb (y * 320 + x)) :
    ∃ k : Nat, y = top + k ∧ rows'.dirtyMin ≤ k ∧ (k : Int) ≤ rows'.dirtyMax := by
  by_contra hno
  apply hne
  apply (h.pixel hx hy).2
  rintro ⟨j, hge, hlt, hyj, hdraw⟩
  have hin := h.within j hge hlt hdraw
  exact hno ⟨j, hyj, hin.1, hin.2⟩

/-- The marked rows are drawn, and told if there are any. -/
theorem PlanarDrawn.marked {forced : Prop} (hfree : ¬forced)
    (h : p.PlanarDrawn p.top16 first n false ⟨p.fbDev.data, p.vga.planar640DirtyRows, 240, -1⟩ rows')
    (hmarked : ∀ k, p.vga.planar640DirtyRows k = true → k < p.planar640Height / 2 →
      (p.vga.Marked16 k ↔ first ≤ k ∧ k < first + n))
    (hinside : first + n ≤ p.planar640Height / 2) (hwidth : p.fbDev.width = 320) :
    Drew16 p
      (if rows'.dirtyMin ≤ rows'.dirtyMax then
        (p.finishPlanar rows').redrawn
          ⟨0, (p.top16 : Nat) + rows'.dirtyMin, p.fbDev.width,
            rows'.dirtyMax - rows'.dirtyMin + 1⟩
      else p.finishPlanar rows') forced := by
  have hshown : ∀ x y, x < 320 → y < 240 → p.InPicture y → _ ∨ ¬forced ∧ _ :=
    fun x y hx hy hin => (h.shown hmarked hx hy hin).imp_right fun hkept => ⟨hfree, hkept⟩
  have hborder : ¬forced → ∀ x y, x < 320 → y < 240 → ¬p.InPicture y → _ :=
    fun _ x y hx hy hout => h.border hinside hx hy hout
  split
  · apply finish_drew rows' [⟨0, (p.top16 : Nat) + rows'.dirtyMin, p.fbDev.width,
      rows'.dirtyMax - rows'.dirtyMin + 1⟩] hshown hborder
    intro x y hx hy hne
    obtain ⟨k, hyk, hlo, hhi⟩ := h.changed hx hy (hne.resolve_left hfree)
    refine ⟨_, List.mem_singleton_self _, ?_⟩
    unfold Holds
    dsimp only
    omega
  · have hquiet := @finish_drew p forced rows' [] hshown hborder ?_
    · rw [List.append_nil] at hquiet
      exact hquiet
    · intro x y hx hy hne
      obtain ⟨k, -, hlo, hhi⟩ := h.changed hx hy (hne.resolve_left hfree)
      omega

end Rows

theorem drawRows16_drew {p : Screen} {force : Bool} (htable : p.Table) (hfits : p.Fits16 f)
    (hbase : f.srcBase = p.vga.startAddr) (hline : f.lineOffset = p.vga.lineOffset)
    (hrecalls : p.Remembers f) (hmarks : p.vga.Bounded16) :
    Drew16 p (drawRows16 p f ((480 - f.h) / 4) force) (force = true) := by
  have hle := hfits.h_le
  have heven := hfits.even
  have hloop := fun force n first (hn : 2 * (first + n) ≤ f.h) rows =>
    htable.planarRows hfits hbase hline hrecalls force n first hn rows
  have htop : (480 - f.h) / 4 = p.top16 := by
    unfold top16
    rw [hrecalls.height]
  have hheight : f.h = p.planar640Height := hrecalls.height.symm
  unfold drawRows16
  rw [htop] at hloop ⊢
  rw [hheight] at hloop hle heven ⊢
  dsimp only
  split
  · rename_i hforce
    subst hforce
    exact (hloop true _ 0 (by omega) _).full hfits.width hfits.height
  rename_i hfree
  split
  · rename_i hnone
    refine ⟨⟨_, _, _, rfl⟩, hmarks, by repeat' constructor, by repeat' constructor, ⟨rfl, rfl⟩,
      ⟨rfl, rfl⟩, ?_, fun _ _ _ _ _ _ => rfl, [], (List.append_nil _).symm,
      fun _ _ _ _ h => absurd rfl (h.resolve_left hfree)⟩
    intro x y hx hy hin
    refine .inr ⟨hfree, ?_, rfl⟩
    rintro ⟨hge, hle', -⟩
    omega
  split
  · rename_i hbelow
    have hquiet := @finish_drew p (force = true)
      ⟨p.fbDev.data, p.vga.planar640DirtyRows, 240, -1⟩ [] ?_ (fun _ _ _ _ _ _ => rfl)
      (fun _ _ _ _ h => absurd rfl (h.resolve_left hfree))
    · rw [List.append_nil] at hquiet
      exact hquiet
    · intro x y hx hy hin
      refine .inr ⟨hfree, ?_, rfl⟩
      obtain ⟨k, hk, hyk⟩ := (inPicture_iff p y).mp hin
      rintro ⟨hge, -, -⟩
      omega
  · rename_i hsome hvisible
    unfold VgaState.Bounded16 at hmarks
    generalize hlast : min p.vga.planar640DirtyMax (((p.planar640Height / 2 : Nat) : Int) - 1) = last
    have hinside : p.vga.planar640DirtyMin.toNat + (last - p.vga.planar640DirtyMin + 1).toNat ≤
        p.planar640Height / 2 := by omega
    have hdrawn := hloop false (last - p.vga.planar640DirtyMin + 1).toNat
      p.vga.planar640DirtyMin.toNat (by omega) ⟨p.fbDev.data, p.vga.planar640DirtyRows, 240, -1⟩
    have hmarked : ∀ k, p.vga.planar640DirtyRows k = true → k < p.planar640Height / 2 →
        (p.vga.Marked16 k ↔ p.vga.planar640DirtyMin.toNat ≤ k ∧
          k < p.vga.planar640DirtyMin.toNat + (last - p.vga.planar640DirtyMin + 1).toNat) := by
      intro k hrow hk
      unfold VgaState.Marked16
      constructor
      · rintro ⟨hge, hle', -⟩
        omega
      · rintro ⟨hge, hlt⟩
        exact ⟨by omega, by omega, hrow⟩
    exact hdrawn.marked hfree hmarked hinside hfits.width

/-- The build for the calculator in a mode of four planes, without chain 4. -/
structure Planar16 (s : Screen) : Prop where
  nspire : s.nspire = true
  mode : s.Mode16
  chain4 : s.vga.regs.chain4 = false
  graphics : (s.vga.regs.gr 6).getLsbD 0 = true

/-- The colours of the attribute controller. -/
def palette16 (s : Screen) : Nat → Word := s.updateLastPalette.2.lastPalette

theorem updateLastPalette_kept (h : s.updateLastPalette.1 = false) :
    s.palette16 = s.lastPalette := by
  have hall : ∀ i < 16, s.palette16 i = s.lastPalette i := by
    intro i hi
    have hcolour : s.palette16 i = _ := if_pos hi
    rw [hcolour]
    by_contra hne
    have hany : s.updateLastPalette.1 = true :=
      List.any_eq_true.mpr ⟨i, List.mem_range.mpr hi, bne_iff_ne.mpr hne⟩
    rw [h] at hany
    cases hany
  funext i
  by_cases hi : i < 16
  · exact hall i hi
  · exact if_neg hi

theorem palette16_generic {d : Display} (hpalette : s.palette = d.palette)
    (hdac : s.dac8bit = d.dac8bit) (har : s.ar = d.ar) {i : Nat} (hi : i < 16) :
    s.palette16 i = d.updatePalette16.2.graphicPalette i := by
  have hleft : s.palette16 i = _ := if_pos hi
  have hright : d.updatePalette16.2.graphicPalette i = _ := if_pos hi
  rw [hleft, hright]
  dsimp only
  rw [har]
  exact congrArg (·.setWidth 32) (dacToRgb565_congr hpalette hdac _)

/-- The state in which the rows are drawn. -/
def ready16 (s : Screen) (f : Display.Frame) : Screen :=
  (s.updateLastPalette.2.remember f).planar4GetSums

structure Ready16 (s p : Screen) (f : Display.Frame) : Prop where
  table : p.Table
  sums : p.Sums
  remembers : p.Remembers f
  colours : p.lastPalette = s.palette16
  vga : p.vga = s.vga
  fbDev : p.fbDev = s.fbDev
  redraws : p.redraws = s.redraws
  mode : p.graphicMode = s.graphicMode
  nspire : p.nspire = s.nspire
  attributes : p.ar = s.ar ∧ p.compNtsc = s.compNtsc
  tables : s.SameTables p

theorem Sums.ready16 (hsums : s.Sums) (f : Display.Frame) : Ready16 s (s.ready16 f) f := by
  have hsums' : (s.updateLastPalette.2.remember f).Sums := hsums
  obtain ⟨htable, hafter⟩ := hsums'.table
  obtain ⟨palette, sum, valid, hframe⟩ :=
    planar4GetSums_frame (s.updateLastPalette.2.remember f)
  unfold Screen.ready16
  refine ⟨htable, hafter, ?_, ?_, ?_, ?_, ?_, ?_, ?_, ?_, ?_⟩
  all_goals
    rw [hframe]
    first
      | rfl
      | exact ⟨rfl, rfl, rfl, rfl⟩
      | exact ⟨rfl, rfl⟩
      | repeat' constructor

theorem Ready16.of_palette {p : Screen} {q : Nat → Word}
    (h : Ready16 { s with graphicPalette := q } p f) : Ready16 s p f where
  table := h.table
  sums := h.sums
  remembers := h.remembers
  colours := h.colours
  vga := h.vga
  fbDev := h.fbDev
  redraws := h.redraws
  mode := h.mode
  nspire := h.nspire
  attributes := h.attributes
  tables :=
    { palette := h.tables.palette
      dac8bit := h.tables.dac8bit
      low := h.tables.low
      high := h.tables.high
      pair := h.tables.pair
      valid := h.tables.valid
      dirty := h.tables.dirty
      quiet := h.tables.quiet
      force := h.tables.force }

theorem Ready16.fits {p : Screen} (h : Ready16 s p f) (hfits : s.Fits16 f) : p.Fits16 f := by
  obtain ⟨har, hntsc⟩ := h.attributes
  constructor
  · rw [h.vga]
    exact hfits.dirtyRender
  · rw [h.fbDev]
    exact hfits.width
  · rw [h.fbDev]
    exact hfits.height
  · rw [h.vga]
    exact hfits.crt
  · exact hfits.shiftControl
  · exact hfits.w
  · exact hfits.h_ge
  · exact hfits.h_le
  · exact hfits.even
  · exact hfits.line_ge
  · rw [har]
    exact hfits.allPlanes
  · rw [hntsc]
    exact hfits.compNtsc
  · rw [h.vga]
    exact hfits.single
  · rw [h.vga]
    exact hfits.scan
  · rw [h.vga]
    exact hfits.banks
  · rw [h.vga]
    exact hfits.base_lt
  · rw [h.vga]
    exact hfits.end_lt

/-- Nothing to force: the palette and the frame are those of the last picture. -/
theorem force16_false {full : Bool} (h : s.force16 f full = false) :
    full = false ∧ s.palette16 = s.lastPalette ∧ s.Remembers f := by
  unfold force16 at h
  simp only [Bool.or_eq_false_iff, Bool.not_eq_false', bne_eq_false_iff_eq] at h
  obtain ⟨⟨⟨⟨⟨hfull, hpalette⟩, hvalid⟩, hstart⟩, hline⟩, hheight⟩ := h
  exact ⟨hfull, updateLastPalette_kept hpalette, hvalid, hstart, hline, hheight⟩

theorem Planar16.graphicRefresh (h : s.Planar16) (hsums : s.Sums) (hmarks : s.vga.Bounded16)
    (full : Bool) :
    ∃ p, Ready16 s p s.toDisplay.crtFrame.1 ∧
      Drew16 p (s.graphicRefresh full) (s.force16 s.toDisplay.crtFrame.1 full = true) := by
  have hfits := h.mode.fits
  obtain ⟨hvbe, -, -, hstart, hline, -⟩ := Display.crtFrame_planar hfits.shiftControl
  have hdraws : s.draws16 s.toDisplay.crtFrame.1 = true := h.mode
  obtain ⟨q, hq⟩ := frame_snd s.toDisplay
  rw [h.mode.frame] at hq
  unfold Screen.graphicRefresh
  rw [h.mode.frame]
  generalize s.toDisplay.crtFrame = framed at *
  obtain ⟨f, d⟩ := framed
  dsimp only at *
  subst hq
  have hvbe' : (if f.isVbe = true then
      Display.vbeScale2 { s.toDisplay with graphicPalette := q } f full else none) = none :=
    if_neg (by rw [hvbe]; decide)
  have h13 : ({ s with graphicPalette := q } : Screen).mode13Draw f full = none := by
    unfold mode13Draw
    apply if_neg
    intro hdraws13
    have hshift := (fits13 hdraws13).shiftControl
    rw [hfits.shiftControl] at hshift
    cases hshift
  have hdraws' : ({ s with graphicPalette := q } : Screen).draws16 f = true := hdraws
  have hsums' : ({ s with graphicPalette := q } : Screen).Sums := hsums
  have hready : Ready16 s (({ s with graphicPalette := q } : Screen).ready16 f) f :=
    (hsums'.ready16 f).of_palette
  have hdrew : Drew16 (({ s with graphicPalette := q } : Screen).ready16 f)
      (drawRows16 (({ s with graphicPalette := q } : Screen).ready16 f) f ((480 - f.h) / 4)
        (s.force16 f full)) (s.force16 f full = true) := by
    have hfits' := hready.fits hfits
    have hvga := hready.vga
    generalize ({ s with graphicPalette := q } : Screen).ready16 f = p at *
    rw [← hvga] at hstart hline hmarks
    exact drawRows16_drew hready.table hfits' hstart hline hready.remembers hmarks
  refine ⟨_, hready, ?_⟩
  rw [hvbe', h13]
  dsimp only
  rw [if_pos h.nspire, planar16Draw_eq full hdraws']
  have htop : (s.fbDev.height - f.h / 2) / 2 = (480 - f.h) / 4 := by
    have heven := hfits.even
    have hle := hfits.h_le
    rw [hfits.height]
    omega
  dsimp only
  rw [htop]
  exact hdrew

theorem Planar16.congr (h : s.Planar16) (hnspire : t.nspire = s.nspire)
    (hregs : t.vga.regs = s.vga.regs) (hsize : t.vga.ramSize = s.vga.ramSize)
    (hbuild : t.vga.dirtyRender = s.vga.dirtyRender)
    (hpanel : t.fbDev.width = s.fbDev.width ∧ t.fbDev.height = s.fbDev.height)
    (har : t.ar = s.ar) (hntsc : t.compNtsc = s.compNtsc) : t.Planar16 := by
  have hframe := crtFrame_congr (d := s.toDisplay) (e := t.toDisplay) hregs
  constructor
  · rw [hnspire]
    exact h.nspire
  · have hdraws := h.mode
    unfold Mode16 draws16 at *
    rw [hregs, hsize, hbuild, hpanel.1, hpanel.2, hframe, har, hntsc]
    exact hdraws
  · rw [hregs]
    exact h.chain4
  · rw [hregs]
    exact h.graphics

theorem picture16_congr (hram : t.vga.ram = s.vga.ram) (hpalette : t.lastPalette = s.lastPalette)
    (hstart : t.planar640Start = s.planar640Start) (hline : t.planar640Line = s.planar640Line)
    (hheight : t.planar640Height = s.planar640Height) (x y : Nat) :
    (t.InPicture y ↔ s.InPicture y) ∧ t.top16 = s.top16 ∧ t.picture16 x y = s.picture16 x y := by
  unfold InPicture top16 picture16
  rw [hram, hpalette, hstart, hline, hheight]
  exact ⟨Iff.rfl, rfl, rfl⟩

/-- The frame of the last picture is still the one of the registers. -/
theorem Remembers.recalls {d : Display} (h : s.Remembers d.crtFrame.1)
    (hregs : t.vga.regs = d.vga.regs) (hvalid : t.planar640Valid = s.planar640Valid)
    (hstart : t.planar640Start = s.planar640Start) (hline : t.planar640Line = s.planar640Line)
    (hheight : t.planar640Height = s.planar640Height) : t.Recalls := by
  unfold Recalls
  rw [crtFrame_congr hregs]
  exact ⟨hvalid.trans h.valid, hstart.trans h.start, hline.trans h.line, hheight.trans h.height⟩

theorem palette16_settled (hpalette : t.palette = s.palette) (hdac : t.dac8bit = s.dac8bit)
    (har : t.ar = s.ar) (hlast : t.lastPalette = s.palette16) : t.palette16 = t.lastPalette := by
  funext i
  by_cases hi : i < 16
  · have hleft : t.palette16 i = _ := if_pos hi
    have hright : s.palette16 i = _ := if_pos hi
    rw [hlast, hleft, hright]
    dsimp only
    rw [har]
    exact congrArg (·.setWidth 32) (dacToRgb565_congr hpalette hdac _)
  · exact if_neg hi

/-- What a refresh leaves behind that draws in the mode. -/
structure Drawn16 (s t : Screen) : Prop where
  mode : t.Planar16
  recalls : t.Recalls
  colours : t.palette16 = t.lastPalette
  complete : view16.Complete t
  told : s.Told t

/-- Without force, the screen has not been emptied and the marks are to be trusted. -/
def Trusted (s p : Screen) : Prop :=
  view16.Fresh s ∧ p.fbDev.data = s.fbDev.data ∧ ∀ x y, (p.InPicture y ↔ s.InPicture y) ∧
    p.top16 = s.top16 ∧ p.picture16 x y = s.picture16 x y

theorem Ready16.trusted {p : Screen} {fb : Nat → Pixel} {force full full' : Bool}
    (hready : Ready16 (s.entered fb force) p (s.entered fb force).toDisplay.crtFrame.1)
    (hforced : (s.entered fb force).force16 (s.entered fb force).toDisplay.crtFrame.1 full' = false)
    (hfull : full = true ∨ s.graphicMode ≠ 2 ∨ s.paletteForceFull = true → full' = true)
    (hfb : full' = true ∨ fb = s.fbDev.data)
    (hfresh : full = true ∨ s.Stale16 ∨ view16.Fresh s) : s.Trusted p := by
  obtain ⟨hoff, hkept, hsame⟩ := force16_false hforced
  have hon : full' ≠ true := by
    rw [hoff]
    decide
  have hpfb : p.fbDev.data = fb := congrArg FBDevice.data hready.fbDev
  refine ⟨?_, hpfb.trans (hfb.resolve_left hon), fun x y => ?_⟩
  · rcases hfresh with hf | (hmode' | hf | hlost) | hfr
    · exact absurd (hfull (.inl hf)) hon
    · exact absurd (hfull (.inr (.inl hmode'))) hon
    · exact absurd (hfull (.inr (.inr hf))) hon
    · exact absurd (hsame.recalls (t := s) rfl rfl rfl rfl rfl) hlost
    · exact hfr
  · apply picture16_congr (congrArg VgaState.ram hready.vga) (hready.colours.trans hkept)
    · exact hready.remembers.start.trans hsame.start.symm
    · exact hready.remembers.line.trans hsame.line.symm
    · exact hready.remembers.height.trans hsame.height.symm

theorem Drew16.picture {p : Screen} {force : Prop} (h : Drew16 p t force) (x y : Nat) :
    (t.InPicture y ↔ p.InPicture y) ∧ t.top16 = p.top16 ∧ t.picture16 x y = p.picture16 x y := by
  obtain ⟨lo, hi, rows, hvga⟩ := h.vga
  exact picture16_congr (by rw [hvga]) h.planar.lastPalette h.planar.start h.planar.line
    h.planar.height x y

theorem Drew16.complete {p : Screen} {force : Prop} (h : Drew16 p t force) (hvga : p.vga = s.vga)
    (htrusted : force ∨ s.Trusted p) : view16.Complete t := by
  rintro ⟨x, y⟩
  obtain ⟨hin, -, hpicture⟩ := h.picture x y
  unfold view16
  dsimp only
  by_cases hshows : t.InPicture y
  · rw [if_pos hshows, hpicture]
    rcases h.shown x y x.isLt y.isLt (hin.mp hshows) with hshown | ⟨hno, hmark, hkept⟩
    · exact hshown
    · obtain ⟨hfresh, hsame, hthen⟩ := htrusted.resolve_left hno
      obtain ⟨hsin, hstop, hspicture⟩ := hthen x y
      have hcell := hfresh (x, y)
      rw [hkept, hspicture]
      unfold view16 at hcell
      dsimp only at hcell
      rw [if_pos (hsin.mp (hin.mp hshows))] at hcell
      have hunmarked : ¬(s.InPicture y ∧ s.vga.Marked16 (y.val - s.top16)) := by
        rintro ⟨-, hm⟩
        rw [← hvga, ← hstop] at hm
        exact hmark hm
      have hcell' := hcell hunmarked
      rw [← hsame] at hcell'
      exact hcell'
  · rw [if_neg hshows]

theorem Planar16.complete {full : Bool} (h : s.Planar16) (hsums : s.Sums)
    (hmarks : s.vga.Bounded16) (hmode : s.modeNow = 2) (hquiet : s.paletteQuietPolls = 0)
    (hfresh : full = true ∨ s.Stale16 ∨ view16.Fresh s) (ht : s.refresh full = some t) :
    s.Drawn16 t := by
  obtain ⟨fb, force, full', rfl, hfull, hfb⟩ := refresh_draws hmode hquiet ht
  have hplanar : (s.entered fb force).Planar16 :=
    h.congr rfl rfl rfl rfl ⟨rfl, rfl⟩ rfl rfl
  obtain ⟨p, hready, hdrew⟩ := hplanar.graphicRefresh hsums hmarks full'
  have hpvga : p.vga = s.vga := hready.vga
  have htrusted : (s.entered fb force).force16 (s.entered fb force).toDisplay.crtFrame.1
      full' = true ∨ s.Trusted p := by
    rcases Bool.eq_false_or_eq_true ((s.entered fb force).force16
      (s.entered fb force).toDisplay.crtFrame.1 full') with hforced | hforced
    · exact .inl hforced
    · exact .inr (hready.trusted hforced hfull hfb hfresh)
  generalize (s.entered fb force).graphicRefresh full' = t at hdrew ⊢
  obtain ⟨lo, hi, rows, htvga⟩ := hdrew.vga
  constructor
  · apply h.congr
    · exact hdrew.planar.nspire.trans hready.nspire
    · rw [htvga, hpvga]
    · rw [htvga, hpvga]
    · rw [htvga, hpvga]
    · rw [hdrew.size.1, hdrew.size.2, hready.fbDev]
      exact ⟨rfl, rfl⟩
    · exact hdrew.attributes.1.trans hready.attributes.1
    · exact hdrew.attributes.2.trans hready.attributes.2
  · have hplane := hdrew.planar
    apply hready.remembers.recalls _ hplane.valid640 hplane.start hplane.line hplane.height
    rw [htvga, hpvga]
    rfl
  · apply palette16_settled (s := s)
    · exact hdrew.tables.palette.trans hready.tables.palette
    · exact hdrew.tables.dac8bit.trans hready.tables.dac8bit
    · exact hdrew.attributes.1.trans hready.attributes.1
    · exact hdrew.planar.lastPalette.trans hready.colours
  · exact hdrew.complete hpvga htrusted
  · obtain ⟨rects, hrects, htold⟩ := hdrew.told
    refine ⟨rects, hrects.trans (congrArg (· ++ rects) hready.redraws), fun x y hx hy hne => ?_⟩
    refine htold x y hx hy ?_
    rcases htrusted with hall | ⟨-, hkept, -⟩
    · exact .inl hall
    · right
      rw [hkept]
      exact hne

/-- The table of sums and the marks are usable. -/
structure Safe16 (s : Screen) : Prop where
  sums : s.Sums
  marks : s.vga.Bounded16

theorem Safe16.of_same (hs : s.Safe16) (hsum : t.planar4PairSum = s.planar4PairSum)
    (hpalette : t.planar4PairPalette = s.planar4PairPalette)
    (hvalid : t.planar4PairSumValid = s.planar4PairSumValid) (hmarks : t.vga.Bounded16) :
    t.Safe16 := by
  refine ⟨?_, hmarks⟩
  unfold Sums
  rw [hsum, hpalette, hvalid]
  exact hs.sums

theorem SamePlanar.safe16 (h : s.SamePlanar t) (hs : s.Safe16) (hmarks : t.vga.Bounded16) :
    t.Safe16 := hs.of_same h.sum h.sumPalette h.sumValid hmarks

theorem mode13Draw_safe16 {full : Bool} (hs : s.Safe16) (h : s.mode13Draw f full = some t) :
    t.Safe16 := by
  have hdraws : s.draws13 f = true := by
    by_contra hoff
    unfold mode13Draw at h
    rw [if_neg hoff] at h
    cases h
  have htables : s.palette256.planar4PairSum = s.planar4PairSum ∧
      s.palette256.planar4PairPalette = s.planar4PairPalette ∧
      s.palette256.planar4PairSumValid = s.planar4PairSumValid := by
    unfold palette256
    split <;> exact ⟨rfl, rfl, rfl⟩
  have hmarks := hs.marks
  rw [mode13Draw_eq full hdraws] at h
  cases h
  rw [← s.palette256_display] at hmarks
  generalize s.palette256 = p at *
  have hshow : ∀ fb r, (p.show13 fb r).Safe16 := fun fb r =>
    hs.of_same htables.1 htables.2.1 htables.2.2 hmarks
  dsimp only
  split
  · exact hshow _ _
  · split
    · exact hs.of_same htables.1 htables.2.1 htables.2.2 hmarks
    · exact hshow _ _

theorem planar16Draw_safe16 {full : Bool} (hs : s.Safe16) (h : s.planar16Draw f full = some t) :
    t.Safe16 := by
  have hdraws : s.draws16 f = true := by
    by_contra hoff
    unfold planar16Draw at h
    rw [if_neg hoff] at h
    cases h
  rw [planar16Draw_eq full hdraws] at h
  have hready : Ready16 s ((s.updateLastPalette.2.remember f).planar4GetSums) f := hs.sums.ready16 f
  have hmarks := hs.marks
  generalize (s.updateLastPalette.2.remember f).planar4GetSums = p at *
  cases h
  rw [← hready.vga] at hmarks
  have hfinish : ∀ rows, (p.finishPlanar rows).Safe16 := fun rows =>
    ⟨hready.sums, (by decide : (0 : Int) ≤ 240), (by decide : (-1 : Int) ≤ 239)⟩
  have hredrawn : ∀ rows r, ((p.finishPlanar rows).redrawn r).Safe16 := fun rows r =>
    ⟨(hfinish rows).sums, (hfinish rows).marks⟩
  unfold drawRows16
  dsimp only
  split
  · exact hredrawn _ _
  split
  · exact ⟨hready.sums, hmarks⟩
  split
  · exact hfinish _
  split
  · exact hredrawn _ _
  · exact hfinish _

theorem graphicRefresh_safe16 (hs : s.Safe16) (full : Bool) : (s.graphicRefresh full).Safe16 := by
  obtain ⟨q, hq⟩ := frame_snd s.toDisplay
  unfold Screen.graphicRefresh
  generalize s.toDisplay.frame = framed at *
  obtain ⟨f, d⟩ := framed
  cases hq
  have hs' : Safe16 { s with graphicPalette := q } := hs.of_same rfl rfl rfl hs.marks
  dsimp only
  split
  · rename_i e he
    split at he
    · refine hs.of_same rfl rfl rfl ?_
      unfold forgetPlanar
      rw [(vbeScale2_same he).1]
      exact hs.marks
    · cases he
  split
  · rename_i t ht
    have h := mode13Draw_safe16 hs' ht
    exact h.of_same rfl rfl rfl h.marks
  split
  · rename_i t ht
    split at ht
    · exact planar16Draw_safe16 hs' ht
    · cases ht
  · exact hs.of_same rfl rfl rfl hs.marks

theorem refresh_safe16 (hs : s.Safe16) {full : Bool} (h : s.refresh full = some t) : t.Safe16 := by
  have henter : (s.enterMode full).1.Safe16 := by
    unfold enterMode
    dsimp only
    split
    · exact hs
    · split <;> exact hs.of_same rfl rfl rfl hs.marks
  unfold Screen.refresh at h
  split at h
  · cases h
  dsimp only at h
  generalize s.enterMode full = entered at *
  split at h
  · split at h
    · cases h
      exact henter.of_same rfl rfl rfl henter.marks
    · cases h
      apply graphicRefresh_safe16
      unfold Display.takePalette
      split <;> exact henter.of_same rfl rfl rfl henter.marks
  · cases h
    exact henter

theorem ioportWrite_panel (s : Screen) (addr : Nat) (val : Word) :
    s.SamePanel (s.ioportWrite addr val) := by
  rcases (s.ioportWrite_spec addr val).1 with hsame | ⟨hpanel, -⟩
  · exact hsame.toSamePanel
  · exact hpanel

theorem Access.safe16 (h : s.Access t) (hs : s.Safe16) : t.Safe16 := by
  have hwrite : ∀ v, VgaState.Marks16 s.vga v → Safe16 { s with vga := v } := fun v hv =>
    hs.of_same rfl rfl rfl (hv.bounded hs.marks)
  cases h with
  | portWrite addr val =>
    obtain ⟨-, regs, hvga⟩ := s.ioportWrite_spec addr val
    apply (s.ioportWrite_panel addr val).safe16 hs
    rw [hvga]
    exact hs.marks
  | portRead addr =>
    obtain ⟨hsame, hvga⟩ := s.ioportRead_spec addr
    apply hsame.toSamePlanar.safe16 hs
    rw [hvga]
    exact hs.marks
  | write8 addr val => exact hwrite _ (VgaState.marks16_stores.memWrite addr val s.vga)
  | write16 addr val => exact hwrite _ (VgaState.marks16_stores.memWrite16 addr val s.vga)
  | write32 addr val => exact hwrite _ (VgaState.marks16_stores.memWrite32 addr val s.vga)
  | writeString addr buf hlen =>
    exact hwrite _ (VgaState.marks16_stores.memWriteString addr
      (Nat.lt_trans hlen (by decide)) s.vga)
  | read addr =>
    obtain ⟨latch, hlatch⟩ := memRead_spec s.vga addr
    rw [hlatch]
    exact hs.of_same rfl rfl rfl hs.marks
  | tick now =>
    obtain ⟨hsame, hvga⟩ := s.step_spec now
    apply hsame.toSamePlanar.safe16 hs
    rw [hvga]
    exact hs.marks
  | refresh full h => exact refresh_safe16 hs h

theorem Step.safe16 (h : s.Step t) (hs : s.Safe16) : t.Safe16 := by
  cases h with
  | access h => exact h.safe16 hs
  | vbe offset val =>
    unfold vbeWrite
    dsimp only
    split <;> exact hs.of_same rfl rfl rfl hs.marks
  | linear addr bytes => exact hs.of_same rfl rfl rfl hs.marks
  | text fb palette redraws _ => exact hs.of_same rfl rfl rfl hs.marks

theorem Reachable.safe16 (h : Reachable s) : s.Safe16 := by
  induction h with
  | @init s h =>
    refine ⟨fun hvalid => ?_, ?_⟩
    · rw [h.sums] at hvalid
      cases hvalid
    · unfold VgaState.Bounded16
      rw [h.rows.1, h.rows.2]
      decide
  | step _ h ih => exact h.safe16 ih

/-- The frame of the registers is the same. -/
structure SameFrame (s t : Screen) : Prop where
  start : t.toDisplay.crtFrame.1.startAddr = s.toDisplay.crtFrame.1.startAddr
  line : t.toDisplay.crtFrame.1.lineOffset = s.toDisplay.crtFrame.1.lineOffset
  height : t.toDisplay.crtFrame.1.h = s.toDisplay.crtFrame.1.h

/-- A run in the mode: it starts where the next picture is drawn in full, or with such a picture,
and the frame does not change. A new frame starts a new run. -/
inductive Run16 : Screen → Prop where
  | enter {s : Screen} : Reachable s → s.Planar16 → s.Stale16 → Run16 s
  | full {s t : Screen} : Reachable s → s.Planar16 → s.modeNow = 2 → s.paletteQuietPolls = 0 →
      s.refresh true = some t → Run16 t
  | access {s t : Screen} : Run16 s → s.Access t → t.Planar16 → s.SameFrame t → Run16 t

theorem Planar16.lines (h : s.Planar16) (hrecalls : s.Recalls) :
    (4 * s.planar640Start).toNat = s.vga.startAddr.toNat ∧
      s.planar640Line.toNat = s.vga.lineOffset.toNat ∧
      s.top16 = s.toDisplay.crtFrame.1.top ∧
      s.planar640Height = s.toDisplay.crtFrame.1.h := by
  obtain ⟨-, -, -, hstart, hline, -⟩ := Display.crtFrame_planar h.mode.fits.shiftControl
  refine ⟨?_, ?_, ?_, hrecalls.height⟩
  · rw [hrecalls.start, BitVec.mul_comm, hstart]
  · rw [hrecalls.line, hline]
  · unfold top16
    rw [hrecalls.height]
    rfl

theorem picture16_edit {x y : Nat} (hx : x < 320) (hplanar : s.SamePlanar t)
    (hram : ∀ k a, k / 2 = y - s.top16 → (4 * s.planar640Start).toNat +
        k * s.planar640Line.toNat ≤ a →
      a < (4 * s.planar640Start).toNat + k * s.planar640Line.toNat + 320 →
      t.vga.ram a = s.vga.ram a) :
    t.picture16 x y = s.picture16 x y := by
  have hpixel : ∀ x' k, x' < 640 → k / 2 = y - s.top16 →
      Display.pixel16 t.vga.ram s.lastPalette (4 * s.planar640Start).toNat
          s.planar640Line.toNat x' k =
        Display.pixel16 s.vga.ram s.lastPalette (4 * s.planar640Start).toNat
          s.planar640Line.toNat x' k := by
    intro x' k hx' hk
    have hat : ∀ i, i < 4 →
        t.vga.ram ((4 * s.planar640Start).toNat + k * s.planar640Line.toNat + 4 * (x' / 8) + i) =
          s.vga.ram ((4 * s.planar640Start).toNat + k * s.planar640Line.toNat + 4 * (x' / 8) + i) :=
      fun i hi => hram k _ hk (by omega) (by omega)
    unfold Display.pixel16 planesAt
    rw [hat 1 (by decide), hat 2 (by decide), hat 3 (by decide)]
    have hzero := hat 0 (by decide)
    rw [Nat.add_zero] at hzero
    rw [hzero]
  have htop : (480 - s.planar640Height) / 4 = s.top16 := rfl
  unfold picture16 Display.blend
  dsimp only
  rw [hplanar.lastPalette, hplanar.start, hplanar.line, hplanar.height, htop]
  rw [hpixel (2 * x) _ (by omega) (by omega), hpixel (2 * x + 1) _ (by omega) (by omega),
    hpixel (2 * x) _ (by omega) (by omega), hpixel (2 * x + 1) _ (by omega) (by omega)]

theorem Untouched.edits16 (h : s.Untouched t) (hmode : s.Planar16) (hrecalls : s.Recalls)
    (hgrows : ∀ y, s.vga.Marked16 y → t.vga.Marked16 y)
    (hcovers : ∀ a y, y < 240 → s.vga.InPair y a → t.vga.ram a ≠ s.vga.ram a →
      t.vga.Marked16 y) :
    view16.Edits s t := by
  obtain ⟨hstart, hline, -, -⟩ := hmode.lines hrecalls
  have htop : t.top16 = s.top16 := by
    unfold top16
    rw [h.height]
  have hin : ∀ y, t.InPicture y ↔ s.InPicture y := by
    intro y
    unfold InPicture
    rw [htop, h.height]
  constructor
  · rintro ⟨x, y⟩ ⟨hpicture, hmarked⟩
    refine ⟨(hin y).mpr hpicture, ?_⟩
    rw [htop]
    exact hgrows _ hmarked
  · intro p
    unfold view16
    dsimp only
    rw [h.fbDev]
  · rintro ⟨x, y⟩ hunmarked
    unfold view16
    dsimp only
    by_cases hpicture : s.InPicture y
    · rw [if_pos ((hin y).mpr hpicture), if_pos hpicture]
      apply picture16_edit x.isLt h.toSamePlanar
      intro k a hk hge hlt
      by_contra hne
      apply hunmarked
      refine ⟨(hin y).mpr hpicture, ?_⟩
      rw [htop]
      rw [hstart, hline] at hge hlt
      exact hcovers a _ (by have hy := y.isLt; omega) ⟨k, hk, hge, hlt⟩ hne
    · rw [if_neg fun hp => hpicture ((hin y).mp hp), if_neg hpicture, h.fbDev]

theorem SamePanel.stale16 (h : s.SamePanel t) (hframe : s.SameFrame t)
    (hforce : s.paletteForceFull = true → t.paletteForceFull = true) (hs : s.Stale16) :
    t.Stale16 := by
  rcases hs with hmode | hf | hlost
  · left
    rw [h.mode]
    exact hmode
  · exact .inr (.inl (hforce hf))
  · refine .inr (.inr fun hrecalls => hlost ?_)
    constructor
    · rw [← h.valid640]
      exact hrecalls.valid
    · rw [← h.start, ← hframe.start]
      exact hrecalls.start
    · rw [← h.line, ← hframe.line]
      exact hrecalls.line
    · rw [← h.height, ← hframe.height]
      exact hrecalls.height

/-- The memory changes behind the renderer, or the refresh after that draws everything. -/
theorem Access.fresh16 (h : s.Access t) (hmode : s.Planar16) (hs : s.Safe) (hs16 : s.Safe16)
    (hframe : s.SameFrame t) (hfresh : s.Stale16 ∨ view16.Fresh s) :
    t.Stale16 ∨ view16.Fresh t := by
  have hquiet : ∀ {u : Screen}, s.Untouched u → s.SameFrame u →
      (∀ y, s.vga.Marked16 y → u.vga.Marked16 y) →
      (∀ a y, y < 240 → s.vga.InPair y a → u.vga.ram a ≠ s.vga.ram a → u.vga.Marked16 y) →
      u.Stale16 ∨ view16.Fresh u := by
    intro u huntouched hu hgrows hcovers
    have hforce : s.paletteForceFull = true → u.paletteForceFull = true := by
      rw [huntouched.force]
      exact id
    by_cases hstale : s.Stale16
    · exact .inl (huntouched.toSamePanel.stale16 hu hforce hstale)
    · have hrecalls : s.Recalls := by
        by_contra hlost
        exact hstale (.inr (.inr hlost))
      have hedits := huntouched.edits16 hmode hrecalls hgrows hcovers
      exact .inr (hedits.fresh (hfresh.resolve_left hstale))
  have hwrite : ∀ v, VgaState.Marks16 s.vga v → s.SameFrame { s with vga := v } →
      Stale16 { s with vga := v } ∨ view16.Fresh { s with vga := v } := by
    intro v hv hu
    have huntouched : s.Untouched { s with vga := v } := by repeat' constructor
    have hwide : 320 ≤ s.vga.lineOffset.toNat := by
      obtain ⟨-, -, -, -, hline, -⟩ := Display.crtFrame_planar hmode.mode.fits.shiftControl
      rw [← hline]
      exact hmode.mode.fits.line_ge
    refine hquiet huntouched hu hv.grows fun a y hy hrow hne => ?_
    exact hv.covers hmode.chain4 hmode.mode.fits.dirtyRender hwide a y hy hrow hne
  have hkept : ∀ {u : Screen}, s.Untouched u → s.SameFrame u → u.vga.ram = s.vga.ram →
      (∀ y, s.vga.Marked16 y → u.vga.Marked16 y) → u.Stale16 ∨ view16.Fresh u := by
    intro u huntouched hu hram hgrows
    apply hquiet huntouched hu hgrows
    intro a y _ _ hne
    rw [hram] at hne
    exact absurd rfl hne
  cases h with
  | portWrite addr val =>
    obtain ⟨huntouched, regs, hvga⟩ := s.ioportWrite_spec addr val
    rcases huntouched with hsame | ⟨-, -, hforce⟩
    · apply hkept hsame hframe <;> rw [hvga]
      exact fun _ => id
    · exact .inl (.inr (.inl hforce))
  | portRead addr =>
    obtain ⟨hsame, hvga⟩ := s.ioportRead_spec addr
    apply hkept hsame hframe <;> rw [hvga]
    exact fun _ => id
  | write8 addr val => exact hwrite _ (VgaState.marks16_stores.memWrite addr val s.vga) hframe
  | write16 addr val => exact hwrite _ (VgaState.marks16_stores.memWrite16 addr val s.vga) hframe
  | write32 addr val => exact hwrite _ (VgaState.marks16_stores.memWrite32 addr val s.vga) hframe
  | writeString addr buf hlen =>
    exact hwrite _ (VgaState.marks16_stores.memWriteString addr
      (Nat.lt_trans hlen (by decide)) s.vga) hframe
  | read addr =>
    obtain ⟨latch, hlatch⟩ := memRead_spec s.vga addr
    rw [hlatch] at hframe ⊢
    exact hkept (by repeat' constructor) hframe rfl fun _ => id
  | tick now =>
    obtain ⟨hsame, hvga⟩ := s.step_spec now
    apply hkept hsame hframe <;> rw [hvga]
    exact fun _ => id
  | refresh full ht =>
    by_cases hdraws : s.modeNow = 2 ∧ s.paletteQuietPolls = 0
    · have hdrawn := hmode.complete hs16.sums hs16.marks hdraws.1 hdraws.2 (.inr hfresh) ht
      exact .inr hdrawn.complete.fresh
    · left
      rw [not_and_or] at hdraws
      rcases refresh_waits hmode.graphics hs ht hdraws with hother | hforce
      · exact .inl hother
      · exact .inr (.inl hforce)

theorem Run16.fresh (h : Run16 s) :
    s.Planar16 ∧ s.Safe ∧ s.Safe16 ∧ (s.Stale16 ∨ view16.Fresh s) := by
  induction h with
  | enter hr hmode hstale => exact ⟨hmode, hr.safe, hr.safe16, .inl hstale⟩
  | full hr hmode hnow hquiet ht =>
    have hs16 := hr.safe16
    have hdrawn := hmode.complete hs16.sums hs16.marks hnow hquiet (.inl rfl) ht
    exact ⟨hdrawn.mode, refresh_safe hr.safe ht, refresh_safe16 hs16 ht,
      .inr hdrawn.complete.fresh⟩
  | access _ haccess hmode' hframe ih =>
    obtain ⟨hmode, hs, hs16, hfresh⟩ := ih
    exact ⟨hmode', haccess.safe hs, haccess.safe16 hs16,
      haccess.fresh16 hmode hs hs16 hframe hfresh⟩

/-- After every refresh that draws, drawing everything once more would change nothing, and the
frontend has been told of all that has changed. -/
theorem planar16_as_generic {full : Bool} (h : Run16 s) (hmode : s.modeNow = 2)
    (hquiet : s.paletteQuietPolls = 0) (ht : s.refresh full = some t) :
    t.toDisplay.Matches t.toDisplay.genericRefresh ∧ s.Told t := by
  obtain ⟨hplanar, hs, hs16, hfresh⟩ := h.fresh
  have hdrawn := hplanar.complete hs16.sums hs16.marks hmode hquiet (.inr hfresh) ht
  obtain ⟨hstart, hline, htop, hheight⟩ := hdrawn.mode.lines hdrawn.recalls
  have hcolours : ∀ x k, Display.pixel16 t.vga.ram t.toDisplay.updatePalette16.2.graphicPalette
        t.vga.startAddr.toNat t.vga.lineOffset.toNat x k =
      Display.pixel16 t.vga.ram t.lastPalette t.vga.startAddr.toNat t.vga.lineOffset.toNat x k := by
    intro x k
    unfold Display.pixel16
    rw [← hdrawn.colours, palette16_generic rfl rfl rfl (planesAt_lt _ _ _)]
  refine ⟨fun x y hx hy => ?_, hdrawn.told⟩
  have hpixel := Display.paints_pixel hdrawn.mode.mode.generic hx hy
  by_cases hin : t.InPicture y
  · have hrows : t.toDisplay.crtFrame.1.top ≤ y ∧
        y < t.toDisplay.crtFrame.1.top + t.toDisplay.crtFrame.1.h / 2 := by
      rw [← htop, ← hheight]
      exact hin
    have hshown := hdrawn.complete (⟨x, hx⟩, ⟨y, hy⟩)
    rw [hpixel.1 hrows]
    refine (hshown.trans (if_pos hin)).trans ?_
    unfold picture16 Display.blend
    dsimp only
    rw [hcolours, hcolours, hcolours, hcolours, hstart, hline, ← htop]
    rfl
  · have hrows : ¬(t.toDisplay.crtFrame.1.top ≤ y ∧
        y < t.toDisplay.crtFrame.1.top + t.toDisplay.crtFrame.1.h / 2) := by
      rw [← htop, ← hheight]
      exact hin
    exact (hpixel.2 hrows).symm

/-- Mode 12h in 256 kilobytes, before the first picture. -/
def easel : Screen :=
  { splash with
    vga :=
      { splash.vga with
        regs :=
          { splash.vga.regs with
            sr := fun i => [0x03, 0x01, 0x0f, 0x00, 0x06].getD i 0
            gr := fun i => [0x00, 0x00, 0x00, 0x00, 0x00, 0x00, 0x05, 0x0f, 0xff].getD i 0
            cr := fun i =>
              if i = 7 then 0x3e else if i = 9 then 0x40 else if i = 0x12 then 0xdf
              else crtc.getD i 0 } }
    ar := fun i => if i < 16 then BitVec.ofNat 8 i else if i = 0x12 then 0x0f else 0 }

theorem easel_powerOn : easel.PowerOn := ⟨rfl, rfl, rfl, rfl, rfl, ⟨rfl, rfl⟩, ⟨rfl, rfl⟩⟩

theorem easel_planar16 : easel.Planar16 where
  nspire := rfl
  mode := by
    unfold Mode16
    decide
  chain4 := rfl
  graphics := rfl

/-- After the first picture the guest has changed eight dots of the first line. -/
def easelPoked : Screen := { easel.shown with vga := easel.shown.vga.memWrite 0x2 0xff }

theorem planar16_as_generic_easel :
    easelPoked.fbDev.data 8 = 10630 ∧ easelPoked.shown.fbDev.data 8 = 33873 ∧
      easelPoked.shown.toDisplay.Matches easelPoked.shown.toDisplay.genericRefresh ∧
      easelPoked.Told easelPoked.shown := by
  have hshown : easel.shown.Planar16 :=
    easel_planar16.congr rfl rfl rfl rfl ⟨rfl, rfl⟩ rfl rfl
  have hpoked : easelPoked.Planar16 :=
    easel_planar16.congr rfl rfl rfl rfl ⟨rfl, rfl⟩ rfl rfl
  have hfirst : Run16 easel := by
    apply Run16.enter (.init easel_powerOn) easel_planar16
    left
    decide
  have hsecond : Run16 easel.shown :=
    .access hfirst (.refresh false (refresh_shown (by decide))) hshown ⟨rfl, rfl, rfl⟩
  have hrun : Run16 easelPoked := .access hsecond (.write8 0x2 0xff) hpoked ⟨rfl, rfl, rfl⟩
  exact ⟨by decide +kernel, by decide +kernel,
    planar16_as_generic hrun (by decide +kernel) (by decide +kernel)
      (refresh_shown (by decide +kernel))⟩

end Screen

end Winspire.Vga
