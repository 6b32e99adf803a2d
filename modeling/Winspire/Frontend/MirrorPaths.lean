import Winspire.Frontend.Mirror

/-!
# The paths of the mirror

The mapping of the panel to the guest, what the three paths draw, and what the panel shows after a
call of `fbmirror_present`.
-/

namespace Winspire.Frontend.Mirror

set_option autoImplicit false

section Mapping
variable {p : Panel} {x y : Nat}

theorem scale_eq {i size outOf : Nat} (h : i * size < 2 ^ 31) :
    scale i size outOf = some (i * size / outOf) := if_pos h

theorem scale_none {i size outOf : Nat} (h : ¬i * size < 2 ^ 31) : scale i size outOf = none :=
  if_neg h

theorem scaled_lt {i size outOf : Nat} (hi : i < outOf) (hsize : 0 < size) :
    i * size / outOf < size := by
  apply Nat.div_lt_of_lt_mul
  exact Nat.mul_lt_mul_of_pos_right hi hsize

theorem fromEnd_lt {size : Nat} (h : 0 < size) (i : Nat) : size - 1 - i < size := by omega

theorem fromEnd_eq {size i : Nat} (h : i < size) : fromEnd size i = some (size - 1 - i) := if_pos h

theorem mapped_lt (hx : x < p.width) (hy : y < p.height) :
    (p.mapped x y).1 < p.guestWidth ∧ (p.mapped x y).2 < p.guestHeight := by
  have hw := p.guestWidth_pos
  have hh := p.guestHeight_pos
  have hxw := scaled_lt hx hw
  have hxh := scaled_lt hx hh
  have hyw := scaled_lt hy hw
  have hyh := scaled_lt hy hh
  unfold Panel.mapped
  cases p.rotate with
  | none => exact ⟨hxw, hyh⟩
  | cw => exact ⟨hyw, fromEnd_lt hh _⟩
  | ccw => exact ⟨fromEnd_lt hw _, hxh⟩

theorem source_eq (hx : x < p.width) (hy : y < p.height) (hfits : p.FitsAt x y) :
    p.source x y = some (p.mapped x y) := by
  unfold Panel.FitsAt at hfits
  unfold Panel.source Panel.mapped
  cases hr : p.rotate with
  | none =>
    rw [hr] at hfits
    obtain ⟨hsx, hsy⟩ := hfits
    simp only [scale_eq hsx, scale_eq hsy]
    rfl
  | cw =>
    rw [hr] at hfits
    obtain ⟨hsx, hsy⟩ := hfits
    simp only [scale_eq hsx, scale_eq hsy]
    show (do let sy ← fromEnd _ _; some (_, sy)) = _
    rw [fromEnd_eq (scaled_lt hx p.guestHeight_pos)]
    rfl
  | ccw =>
    rw [hr] at hfits
    obtain ⟨hsx, hsy⟩ := hfits
    simp only [scale_eq hsx, scale_eq hsy]
    show (do let sx ← fromEnd _ _; some (sx, _)) = _
    rw [fromEnd_eq (scaled_lt hy p.guestWidth_pos)]
    rfl

theorem source_none (hfits : ¬p.FitsAt x y) : p.source x y = none := by
  unfold Panel.FitsAt at hfits
  unfold Panel.source
  cases hr : p.rotate with
  | none =>
    rw [hr] at hfits
    by_cases hsx : x * p.guestWidth < 2 ^ 31
    · have hsy : scale y p.guestHeight p.height = none := scale_none fun h => hfits ⟨hsx, h⟩
      simp only [scale_eq hsx, hsy]
      rfl
    · simp only [scale_none hsx]
      rfl
  | cw =>
    rw [hr] at hfits
    by_cases hsx : y * p.guestWidth < 2 ^ 31
    · have hsy : scale x p.guestHeight p.width = none := scale_none fun h => hfits ⟨hsx, h⟩
      simp only [scale_eq hsx, hsy]
      rfl
    · simp only [scale_none hsx]
      rfl
  | ccw =>
    rw [hr] at hfits
    by_cases hsx : y * p.guestWidth < 2 ^ 31
    · have hsy : scale x p.guestHeight p.width = none := scale_none fun h => hfits ⟨hsx, h⟩
      simp only [scale_eq hsx, hsy]
      show (do let sx ← fromEnd _ _; none) = _
      cases fromEnd p.guestWidth (y * p.guestWidth / p.height) with
      | none => rfl
      | some sx => rfl
    · simp only [scale_none hsx]
      rfl

end Mapping

section Draw
variable {p : Panel}

theorem length_encode (px : BitVec 16) : (p.encode px).length = p.bpp.bytes := by
  unfold Panel.encode
  cases p.bpp with
  | bpp16 => exact LittleEndian.length_put _ _
  | bpp32 => exact LittleEndian.length_put _ _

theorem encode_bpp16 (h : p.bpp = .bpp16) (px : BitVec 16) : p.encode px = bytes16 px := by
  unfold Panel.encode
  rw [h]

theorem length_picture (src : Guest) (x y : Nat) : (p.picture src x y).length = p.raster.size :=
  length_encode _

theorem mapped_direct (h : p.Direct) {x y : Nat} (hx : x < p.width) (hy : y < p.height) :
    p.mapped x y = (x, y) := by
  obtain ⟨hw, hh, hr, -⟩ := h
  unfold Panel.mapped
  rw [hr]
  simp only
  rw [← hw, ← hh, Nat.mul_div_cancel _ (by omega), Nat.mul_div_cancel _ (by omega)]

/-- The first path draws the row of the panel with the same number. -/
theorem paints_copyRow (h : p.Direct) (src : Guest) (mem : Nat → UInt8) {y : Nat}
    (hy : y < p.guestHeight) :
    ∃ mem', copyRow p src mem y = some mem' ∧
      p.raster.Paints (p.picture src) (fun x' y' => (p.mapped x' y').2 = y) mem mem' := by
  have hy' : y < p.raster.height := by
    show y < p.height
    rw [h.2.1]
    exact hy
  obtain ⟨mem', hstore, hpaints⟩ :=
    Raster.paints_row (v := p.picture src) mem hy' fun x => length_picture src x y
  have hrow : (p.guestRow src y).flatMap bytes16 = Raster.row (p.picture src · y) p.raster.width := by
    unfold Panel.guestRow slice Raster.row
    rw [List.flatMap_map, show p.raster.width = p.guestWidth from h.1]
    apply List.flatMap_congr
    intro x hx
    have hx' : x < p.width := by
      rw [h.1]
      exact List.mem_range.mp hx
    unfold Panel.picture
    rw [mapped_direct h hx' hy', encode_bpp16 h.2.2.2]
  refine ⟨mem', ?_, hpaints.congr ?_⟩
  · unfold copyRow
    rw [hrow]
    exact hstore
  · intro x' y' hx' hy'
    rw [mapped_direct h hx' hy']

theorem mapped_turned (h : p.Turned) {x y : Nat} (hx : x < p.width) (hy : y < p.height) :
    p.mapped x y = if p.rotate = .cw then (y, p.guestHeight - 1 - x)
      else (p.guestWidth - 1 - y, x) := by
  obtain ⟨-, hw, hh, hr⟩ := h
  have hxw : x * p.guestHeight / p.width = x := by
    rw [← hw]
    exact Nat.mul_div_cancel _ (by omega)
  have hyh : y * p.guestWidth / p.height = y := by
    rw [← hh]
    exact Nat.mul_div_cancel _ (by omega)
  unfold Panel.mapped
  rcases hr with hr | hr
  · rw [hr]
    simp only [hxw, hyh, if_true]
  · rw [hr]
    simp only [hxw, hyh]
    rfl

theorem paints_column (hbpp : p.bpp = .bpp16) (src : Guest) {dx y : Nat} {d : Nat → Nat}
    (hx : dx < p.width)
    (hd : ∀ sx < p.guestWidth, d sx < p.height ∧ p.mapped dx (d sx) = (sx, y))
    (mem : Nat → UInt8) :
    ∃ mem', (List.range p.guestWidth).foldlM (fun mem sx =>
        p.raster.store mem (d sx * p.lineLength + dx * 2)
          (bytes16 (src (y * p.guestWidth + sx)))) mem = some mem' ∧
      p.raster.Paints (p.picture src) (fun x' y' => ∃ sx < p.guestWidth, x' = dx ∧ y' = d sx)
        mem mem' := by
  apply Raster.paints_loop
  intro sx hsx mem
  obtain ⟨hy, hmapped⟩ := hd sx hsx
  obtain ⟨mem', hstore, hpaints⟩ := Raster.paints_cell (r := p.raster) (v := p.picture src)
    mem hx hy (length_picture src _ _)
  have hsize : p.raster.size = 2 := by
    show p.bpp.bytes = 2
    rw [hbpp]
    rfl
  unfold Raster.addr Panel.picture at hstore
  rw [hmapped, encode_bpp16 hbpp, hsize] at hstore
  exact ⟨mem', hstore, hpaints⟩

theorem paints_turnRow (h : p.Turned) (src : Guest) (mem : Nat → UInt8) {y : Nat}
    (hy : y < p.guestHeight) :
    ∃ mem', turnRow p src mem y = some mem' ∧
      p.raster.Paints (p.picture src) (fun x' y' => (p.mapped x' y').2 = y) mem mem' := by
  obtain ⟨hbpp, hw, hh, -⟩ := id h
  unfold turnRow
  by_cases hcw : p.rotate = .cw
  · simp only [if_pos hcw]
    have hx : p.guestHeight - 1 - y < p.width := by omega
    obtain ⟨mem', hloop, hpaints⟩ := paints_column (d := id) hbpp src hx (y := y)
      (fun sx hsx => by
        have hsx' : sx < p.height := by omega
        refine ⟨hsx', ?_⟩
        rw [id, mapped_turned h hx hsx', if_pos hcw]
        exact Prod.ext rfl (by simp only; omega)) mem
    refine ⟨mem', hloop, hpaints.congr fun x' y' hx' hy' => ?_⟩
    rw [mapped_turned h hx' hy', if_pos hcw]
    change x' < p.width at hx'
    change y' < p.height at hy'
    constructor
    · intro hrow
      simp only at hrow
      exact ⟨y', by omega, by omega, rfl⟩
    · rintro ⟨sx, -, rfl, -⟩
      simp only
      omega
  · simp only [if_neg hcw]
    have hx : y < p.width := by omega
    obtain ⟨mem', hloop, hpaints⟩ := paints_column (d := fun sx => p.guestWidth - 1 - sx) hbpp src
      hx (y := y) (fun sx hsx => by
        have hsx' : p.guestWidth - 1 - sx < p.height := by omega
        refine ⟨hsx', ?_⟩
        rw [mapped_turned h hx hsx', if_neg hcw]
        exact Prod.ext (by simp only; omega) rfl) mem
    refine ⟨mem', hloop, hpaints.congr fun x' y' hx' hy' => ?_⟩
    rw [mapped_turned h hx' hy', if_neg hcw]
    change y' < p.height at hy'
    constructor
    · intro hrow
      exact ⟨p.guestWidth - 1 - y', by omega, hrow, by omega⟩
    · rintro ⟨sx, -, rfl, -⟩
      rfl

theorem paints_scaleRow (src : Guest) (mem : Nat → UInt8) {y : Nat} (hy : y < p.height)
    (hfits : ∀ x < p.width, p.FitsAt x y) :
    ∃ mem', scaleRow p src mem y = some mem' ∧
      p.raster.Paints (p.picture src) (fun _ y' => y' = y) mem mem' := by
  unfold scaleRow
  obtain ⟨mem', hloop, hpaints⟩ := Raster.paints_loop (r := p.raster) (v := p.picture src)
    (f := scalePixel p src y)
    (Q := fun x x' y' => x' = x ∧ y' = y) p.width
    (fun x hx mem => by
      obtain ⟨mem', hstore, hpaints⟩ := Raster.paints_cell (r := p.raster) (v := p.picture src)
        mem hx hy (length_picture src _ _)
      refine ⟨mem', ?_, hpaints⟩
      obtain ⟨hsx, hsy⟩ := mapped_lt hx hy
      have hindex : (p.mapped x y).2 * p.guestWidth + (p.mapped x y).1 <
          p.guestWidth * p.guestHeight := by
        have hmul := Nat.mul_le_mul_right p.guestWidth
          (show (p.mapped x y).2 + 1 ≤ p.guestHeight from hsy)
        rw [Nat.add_mul, Nat.one_mul, Nat.mul_comm p.guestHeight] at hmul
        omega
      have hpixel : p.guestPixel src (p.mapped x y).1 (p.mapped x y).2 =
          some (src ((p.mapped x y).2 * p.guestWidth + (p.mapped x y).1)) := if_pos hindex
      unfold scalePixel
      rw [source_eq hx hy (hfits x hx)]
      show (do store p mem x y (← p.guestPixel src (p.mapped x y).1 (p.mapped x y).2)) = _
      rw [hpixel]
      show store p mem x y _ = _
      unfold store
      rw [if_neg (by omega)]
      exact hstore) mem
  refine ⟨mem', hloop, hpaints.congr fun x' y' hx' _ => ?_⟩
  constructor
  · intro hrow
    exact ⟨x', hx', rfl, hrow⟩
  · rintro ⟨x, -, -, hrow⟩
    exact hrow

end Draw

def RowShown (p : Panel) (mem : Nat → UInt8) (src : Guest) (row : Nat) : Prop :=
  ∀ x y, x < p.width → y < p.height → (p.mapped x y).2 = row →
    p.raster.cell mem x y = p.picture src x y

section Rows
variable {p : Panel} {mem mem' : Nat → UInt8} {src src' : Guest} {row : Nat}

theorem shows_iff {m : FBMirror} :
    m.Shows p src ↔ ∀ row < p.guestHeight, RowShown p m.mem src row := by
  constructor
  · intro h row _ x y hx hy _
    exact h x y hx hy
  · intro h x y hx hy
    exact h _ (mapped_lt hx hy).2 x y hx hy rfl

theorem RowShown.congr (h : RowShown p mem src row)
    (hrow : p.guestRow src row = p.guestRow src' row) : RowShown p mem src' row := by
  intro x y hx hy hmapped
  rw [h x y hx hy hmapped]
  unfold Panel.picture
  rw [hmapped, apply_eq_of_slice_eq hrow (mapped_lt hx hy).1]

theorem RowShown.keep (h : RowShown p mem src row)
    (hkeep : ∀ x y, x < p.width → y < p.height → (p.mapped x y).2 = row →
      p.raster.cell mem' x y = p.raster.cell mem x y) : RowShown p mem' src row := by
  intro x y hx hy hmapped
  rw [hkeep x y hx hy hmapped]
  exact h x y hx hy hmapped

theorem guestRow_blit (src shadow : Guest) (y row : Nat) :
    p.guestRow (blit shadow (y * p.guestWidth) (p.guestRow src y)) row =
      if row = y then p.guestRow src row else p.guestRow shadow row := by
  split
  · rename_i h
    have hself := slice_blit_self shadow (y * p.guestWidth) (p.guestRow src y)
    unfold Panel.guestRow at *
    rw [length_slice] at hself
    rw [h]
    exact hself
  · rename_i h
    apply slice_blit_of_disjoint
    unfold Panel.guestRow
    rw [length_slice]
    rcases Nat.lt_or_gt_of_ne h with hlt | hlt
    · have hmul := Nat.mul_le_mul_right p.guestWidth (show row + 1 ≤ y from hlt)
      rw [Nat.add_mul, Nat.one_mul] at hmul
      omega
    · have hmul := Nat.mul_le_mul_right p.guestWidth (show y + 1 ≤ row from hlt)
      rw [Nat.add_mul, Nat.one_mul] at hmul
      omega

end Rows

/-- The shadow is what the panel shows, or all rows are still to be drawn. -/
def FBMirror.Shadowed (m : FBMirror) (p : Panel) : Prop :=
  ∀ shadow, m.shadow = some shadow →
    if m.shadowValid then ∀ row < p.guestHeight, RowShown p m.mem shadow row
    else ∀ row < p.guestHeight, m.clean row = false

def FBMirror.CleanShown (m : FBMirror) (p : Panel) (src : Guest) : Prop :=
  ∀ row < p.guestHeight, m.clean row = true → RowShown p m.mem src row

/-- The loop over the rows has come to `k`. -/
structure FBMirror.Upto (m : FBMirror) (p : Panel) (src : Guest) (k : Nat) (t : FBMirror) :
    Prop where
  presents : t.presents = m.presents
  shadowValid : t.shadowValid = m.shadowValid
  dirtyRows : t.dirtyRows = m.dirtyRows
  dirtyCount : t.dirtyCount = m.dirtyCount
  shadow : m.shadow = none → t.shadow = none
  shown : ∀ row < k, RowShown p t.mem src row
  kept : ∀ x y, x < p.width → y < p.height → k ≤ (p.mapped x y).2 →
    p.raster.cell t.mem x y = p.raster.cell m.mem x y
  recorded : ∀ old, m.shadow = some old → ∃ new, t.shadow = some new ∧
    (∀ row < k, RowShown p t.mem new row) ∧
      ∀ row, k ≤ row → p.guestRow new row = p.guestRow old row

theorem clean_congr {m t : FBMirror} (h : t.dirtyRows = m.dirtyRows) (row : Nat) :
    t.clean row = m.clean row := by
  unfold FBMirror.clean
  rw [h]

section PresentRows
variable {p : Panel} {m t : FBMirror} {src : Guest} {k : Nat}

theorem FBMirror.Upto.row_kept (h : m.Upto p src k t) {old : Guest} {row : Nat} (hk : k ≤ row)
    (hshown : RowShown p m.mem old row) : RowShown p t.mem old row :=
  hshown.keep fun x y hx hy hmapped => h.kept x y hx hy (by omega)

theorem FBMirror.Upto.skip (h : m.Upto p src k t) (hk : k < p.guestHeight)
    (hshadow : m.Shadowed p) (hshown : RowShown p m.mem src k)
    (hvalid : m.shadow ≠ none → m.shadowValid = true) : m.Upto p src (k + 1) t where
  presents := h.presents
  shadowValid := h.shadowValid
  dirtyRows := h.dirtyRows
  dirtyCount := h.dirtyCount
  shadow := h.shadow
  shown row hrow := by
    rcases Nat.lt_succ_iff_lt_or_eq.mp hrow with hlt | rfl
    · exact h.shown row hlt
    · exact h.row_kept (Nat.le_refl _) hshown
  kept x y hx hy hle := h.kept x y hx hy (by omega)
  recorded old hold := by
    obtain ⟨new, hnew, hrows, hrest⟩ := h.recorded old hold
    refine ⟨new, hnew, fun row hrow => ?_, fun row hle => hrest row (by omega)⟩
    rcases Nat.lt_succ_iff_lt_or_eq.mp hrow with hlt | rfl
    · exact hrows row hlt
    · have hall := hshadow old hold
      rw [if_pos (hvalid (by rw [hold]; exact Option.some_ne_none _))] at hall
      exact (h.row_kept (Nat.le_refl _) (hall row hk)).congr (hrest row (Nat.le_refl _)).symm

theorem FBMirror.Upto.drawn (h : m.Upto p src k t) {mem : Nat → UInt8} {shadow : Option Guest}
    (hpaints : p.raster.Paints (p.picture src) (fun x' y' => (p.mapped x' y').2 = k) t.mem mem)
    (hnone : t.shadow = none → shadow = none)
    (hsome : ∀ new, t.shadow = some new →
      shadow = some (blit new (k * p.guestWidth) (p.guestRow src k))) :
    m.Upto p src (k + 1) { t with mem := mem, shadow := shadow } where
  presents := h.presents
  shadowValid := h.shadowValid
  dirtyRows := h.dirtyRows
  dirtyCount := h.dirtyCount
  shadow hm := hnone (h.shadow hm)
  shown row hrow := by
    rcases Nat.lt_succ_iff_lt_or_eq.mp hrow with hlt | rfl
    · exact (h.shown row hlt).keep fun x y hx hy hmapped => hpaints.kept x y hx hy (by omega)
    · exact fun x y hx hy hmapped => hpaints.drawn x y hx hy hmapped
  kept x y hx hy hle := by
    show p.raster.cell mem x y = _
    rw [hpaints.kept x y hx hy (by omega)]
    exact h.kept x y hx hy (by omega)
  recorded old hold := by
    obtain ⟨new, hnew, hrows, hrest⟩ := h.recorded old hold
    refine ⟨_, hsome new hnew, fun row hrow => ?_, fun row hle => ?_⟩
    · have hblit := guestRow_blit (p := p) src new k row
      rcases Nat.lt_succ_iff_lt_or_eq.mp hrow with hlt | rfl
      · rw [if_neg (by omega)] at hblit
        exact ((hrows row hlt).keep fun x y hx hy hmapped =>
          hpaints.kept x y hx hy (by omega)).congr hblit.symm
      · rw [if_pos rfl] at hblit
        have hshown : RowShown p mem src row :=
          fun x y hx hy hmapped => hpaints.drawn x y hx hy hmapped
        exact hshown.congr hblit.symm
    · rw [guestRow_blit, if_neg (by omega)]
      exact hrest row (by omega)

theorem FBMirror.Upto.step (h : m.Upto p src k t) (hk : k < p.guestHeight)
    (hshadow : m.Shadowed p) (hclean : m.CleanShown p src)
    {draw : (Nat → UInt8) → Nat → Option (Nat → UInt8)}
    (hdraw : ∀ mem, ∃ mem', draw mem k = some mem' ∧
      p.raster.Paints (p.picture src) (fun x' y' => (p.mapped x' y').2 = k) mem mem') :
    ∃ u, (if t.clean k then some t
      else
        let (dirty, m) := t.rowDirty p src k
        if dirty then (draw m.mem k).map fun mem => { m with mem := mem } else some m) = some u ∧
      m.Upto p src (k + 1) u := by
  obtain ⟨mem, hmem, hpaints⟩ := hdraw t.mem
  by_cases hc : m.clean k = true
  · refine ⟨t, if_pos ((clean_congr h.dirtyRows k).trans hc), h.skip hk hshadow (hclean k hk hc) ?_⟩
    intro hsome
    obtain ⟨old, hold⟩ := Option.ne_none_iff_exists'.mp hsome
    by_contra hvalid
    have hall := hshadow old hold
    rw [if_neg hvalid] at hall
    exact absurd (hc.symm.trans (hall k hk)) (by decide)
  · rw [if_neg (by rw [clean_congr h.dirtyRows k]; exact hc)]
    unfold rowDirty
    cases hs : t.shadow with
    | none =>
      refine ⟨{ t with mem := mem, shadow := none }, ?_, h.drawn hpaints (fun _ => rfl) ?_⟩
      · simp only [if_true, hmem, Option.map_some, ← hs]
      · intro new hnew
        rw [hs] at hnew
        cases hnew
    | some new =>
      simp only
      by_cases hsame : t.shadowValid = true ∧ p.guestRow src k = p.guestRow new k
      · rw [if_pos hsame]
        have hvalid : m.shadowValid = true := h.shadowValid.symm.trans hsame.1
        refine ⟨t, rfl, ?_⟩
        cases hm : m.shadow with
        | none =>
          rw [h.shadow hm] at hs
          cases hs
        | some old =>
          -- the row of the shadow is on the panel, and it is the row of the guest
          obtain ⟨new', hnew', -, hrest⟩ := h.recorded old hm
          obtain rfl := Option.some.inj (hs.symm.trans hnew')
          have hall := hshadow old hm
          rw [if_pos hvalid] at hall
          have hrow := (hrest k (Nat.le_refl _)).symm.trans hsame.2.symm
          exact h.skip hk hshadow ((hall k hk).congr hrow) fun _ => hvalid
      · rw [if_neg hsame]
        refine ⟨{ t with
          mem := mem
          shadow := some (blit new (k * p.guestWidth) (p.guestRow src k)) }, ?_,
          h.drawn hpaints ?_ ?_⟩
        · simp only [if_true, hmem, Option.map_some]
        · intro hnone
          rw [hs] at hnone
          cases hnone
        · intro new' hnew'
          obtain rfl := Option.some.inj (hs.symm.trans hnew')
          rfl

end PresentRows

/-- What holds after a call of `fbmirror_present`. -/
structure FBMirror.Presented (m : FBMirror) (p : Panel) (src : Guest) (m' : FBMirror) : Prop where
  shows : m'.Shows p src
  counted : m'.Counted p
  alloc : m'.dirtyRows.isSome = m.dirtyRows.isSome
  shadowed : p.Direct ∨ p.Turned → m'.Shadowed p

section Presents
variable {p : Panel} {m : FBMirror} {src : Guest}

@[simp] theorem clearDirty_mem (m : FBMirror) : m.clearDirty.mem = m.mem := by
  unfold FBMirror.clearDirty
  split <;> rfl

@[simp] theorem clearDirty_shadow (m : FBMirror) : m.clearDirty.shadow = m.shadow := by
  unfold FBMirror.clearDirty
  split <;> rfl

@[simp] theorem clearDirty_shadowValid (m : FBMirror) :
    m.clearDirty.shadowValid = m.shadowValid := by
  unfold FBMirror.clearDirty
  split <;> rfl

@[simp] theorem clearDirty_isSome (m : FBMirror) :
    m.clearDirty.dirtyRows.isSome = m.dirtyRows.isSome := by
  unfold FBMirror.clearDirty
  split
  · rfl
  · rename_i h
    rw [h]
    rfl

theorem clearDirty_counted (m : FBMirror) : m.clearDirty.Counted p := by
  intro rows hrows
  unfold FBMirror.clearDirty at *
  split at hrows
  · rename_i h
    rw [h] at hrows
    cases hrows
  · obtain rfl := Option.some.inj hrows
    unfold dirtyTotal
    simp

theorem upto_zero (m : FBMirror) (p : Panel) (src : Guest) : m.Upto p src 0 m where
  presents := rfl
  shadowValid := rfl
  dirtyRows := rfl
  dirtyCount := rfl
  shadow h := h
  shown row h := absurd h (Nat.not_lt_zero row)
  kept _ _ _ _ _ := rfl
  recorded old hold := ⟨old, hold, fun row h => absurd h (Nat.not_lt_zero row), fun _ _ => rfl⟩

theorem presentRows_spec (hshadow : m.Shadowed p) (hclean : m.CleanShown p src)
    {draw : (Nat → UInt8) → Nat → Option (Nat → UInt8)}
    (hdraw : ∀ mem y, y < p.guestHeight → ∃ mem', draw mem y = some mem' ∧
      p.raster.Paints (p.picture src) (fun x' y' => (p.mapped x' y').2 = y) mem mem') :
    ∃ m', m.presentRows p src draw = some m' ∧ m.Presented p src m' := by
  obtain ⟨t, ht, hupto⟩ := foldlM_range (P := m.Upto p src) p.guestHeight (upto_zero m p src)
    fun k hk t h => h.step hk hshadow hclean fun mem => hdraw mem k hk
  refine ⟨{ t with shadowValid := true }.clearDirty, ?_, ?_, clearDirty_counted _, ?_, ?_⟩
  · unfold FBMirror.presentRows
    rw [ht]
    rfl
  · rw [shows_iff, clearDirty_mem]
    exact hupto.shown
  · rw [clearDirty_isSome, ← hupto.dirtyRows]
  · intro _ new hnew
    rw [clearDirty_shadowValid, if_pos rfl, clearDirty_mem]
    rw [clearDirty_shadow] at hnew
    cases hm : m.shadow with
    | none =>
      rw [hupto.shadow hm] at hnew
      cases hnew
    | some old =>
      obtain ⟨new', hnew', hrows, -⟩ := hupto.recorded old hm
      obtain rfl := Option.some.inj (hnew.symm.trans hnew')
      exact hrows

/-- The last loop draws a row of the panel unless the row it shows is clean. -/
theorem drawsRow_eq {y : Nat} (hy : y < p.height)
    (hfits : p.rotate = .none → m.dirtyRows.isSome = true → y * p.guestHeight < 2 ^ 31) :
    ∃ b, m.drawsRow p y = some b ∧
      (b = false → p.rotate = .none ∧ m.clean (y * p.guestHeight / p.height) = true) := by
  unfold FBMirror.drawsRow FBMirror.clean
  cases hr : p.rotate with
  | none =>
    cases hd : m.dirtyRows with
    | none => exact ⟨true, rfl, fun h => by cases h⟩
    | some rows =>
      have hlt := hfits hr (by rw [hd]; rfl)
      refine ⟨rows (y * p.guestHeight / p.height), ?_, fun h => ⟨rfl, ?_⟩⟩
      · simp only [scale_eq hlt]
        exact if_pos (scaled_lt hy p.guestHeight_pos)
      · simp only [h, Bool.not_false]
  | cw => exact ⟨true, rfl, fun h => by cases h⟩
  | ccw => exact ⟨true, rfl, fun h => by cases h⟩

theorem presentScaled_spec (hpath : ¬(p.Direct ∨ p.Turned)) (hclean : m.CleanShown p src)
    (hrows : p.rotate = .none → m.dirtyRows.isSome = true →
      ∀ y < p.height, y * p.guestHeight < 2 ^ 31)
    (hfits : ∀ x y, x < p.width → y < p.height → p.FitsAt x y) :
    ∃ m', m.presentScaled p src = some m' ∧ m.Presented p src m' := by
  obtain ⟨mem, hloop, hpaints⟩ := Raster.paints_loop (r := p.raster) (v := p.picture src)
    (f := fun mem y => do
      if ← m.drawsRow p y then scaleRow p src mem y else some mem)
    (Q := fun y _ y' => y' = y ∧ m.drawsRow p y = some true) p.height
    (fun y hy mem => by
      obtain ⟨b, hb, -⟩ := drawsRow_eq (m := m) hy fun hr hd => hrows hr hd y hy
      rw [hb]
      cases b with
      | true =>
        obtain ⟨mem', hrow, hpaints⟩ := paints_scaleRow src mem hy fun x hx => hfits x y hx hy
        exact ⟨mem', hrow, hpaints.congr fun x' y' _ _ => by simp⟩
      | false => exact ⟨mem, rfl, (Raster.Paints.refl _ mem).congr fun x' y' _ _ => by simp⟩) m.mem
  refine ⟨{ m with mem := mem }.clearDirty, ?_, ?_, clearDirty_counted _, ?_,
    fun h => absurd h hpath⟩
  · unfold FBMirror.presentScaled
    rw [hloop]
    rfl
  · intro x y hx hy
    rw [clearDirty_mem]
    obtain ⟨b, hb, hfalse⟩ := drawsRow_eq (m := m) hy fun hr hd => hrows hr hd y hy
    cases b with
    | true => exact hpaints.drawn x y hx hy ⟨y, hy, rfl, hb⟩
    | false =>
      obtain ⟨hr, hc⟩ := hfalse rfl
      have hmapped : (p.mapped x y).2 = y * p.guestHeight / p.height := by
        unfold Panel.mapped
        rw [hr]
      show p.raster.cell mem x y = _
      rw [hpaints.kept x y hx hy ?_]
      · exact hclean _ (scaled_lt hy p.guestHeight_pos) hc x y hx hy hmapped
      · rintro ⟨y', -, rfl, htrue⟩
        cases hb.symm.trans htrue
  · rw [clearDirty_isSome]

theorem present_spec (hcount : m.Counted p) (hshadow : p.Direct ∨ p.Turned → m.Shadowed p)
    (hclean : m.CleanShown p src) (hscales : p.Scales m.dirtyRows.isSome) :
    ∃ m', m.present p src = some m' ∧ m.Presented p src m' := by
  unfold FBMirror.present
  by_cases hidle : m.dirtyRows ≠ none ∧ m.dirtyCount = 0
  · rw [if_pos hidle]
    obtain ⟨rows, hrows⟩ := Option.ne_none_iff_exists'.mp hidle.1
    refine ⟨m, rfl, shows_iff.mpr fun row hrow => hclean row hrow ?_, hcount, rfl, hshadow⟩
    have hempty := Finset.card_eq_zero.mp ((hcount rows hrows).symm.trans hidle.2)
    have hnot : row ∉ (Finset.range p.guestHeight).filter fun row => rows row = true := by
      rw [hempty]
      exact Finset.notMem_empty _
    rw [Finset.mem_filter, Finset.mem_range, not_and] at hnot
    unfold FBMirror.clean
    rw [hrows]
    simpa using hnot hrow
  · rw [if_neg hidle]
    simp only
    by_cases hdirect : p.Direct
    · rw [if_pos hdirect]
      obtain ⟨m', hm', h⟩ := presentRows_spec (m := { m with presents := m.presents + 1 })
        (hshadow (.inl hdirect)) hclean fun mem y hy => paints_copyRow hdirect src mem hy
      exact ⟨m', hm', h.shows, h.counted, h.alloc, h.shadowed⟩
    · rw [if_neg hdirect]
      by_cases hturned : p.Turned
      · rw [if_pos hturned]
        obtain ⟨m', hm', h⟩ := presentRows_spec (m := { m with presents := m.presents + 1 })
          (hshadow (.inr hturned)) hclean fun mem y hy => paints_turnRow hturned src mem hy
        exact ⟨m', hm', h.shows, h.counted, h.alloc, h.shadowed⟩
      · rw [if_neg hturned]
        rcases hscales with h | h | ⟨hrows, hfits⟩
        · exact absurd h hdirect
        · exact absurd h hturned
        · have hpath : ¬(p.Direct ∨ p.Turned) := not_or.mpr ⟨hdirect, hturned⟩
          obtain ⟨m', hm', h⟩ := presentScaled_spec (m := { m with presents := m.presents + 1 })
            hpath hclean hrows hfits
          exact ⟨m', hm', h.shows, h.counted, h.alloc, h.shadowed⟩

end Presents

end Winspire.Frontend.Mirror
