import Winspire.Frontend.MirrorPaths

/-!
# The mirror shows the guest

The marks and the invariant of the dirty rows and the shadow. The mirror is right over every run
exactly when no product of the last loop overflows.
-/

namespace Winspire.Frontend.Mirror

set_option autoImplicit false

structure FBMirror.Marked (m : FBMirror) (p : Panel) (t : FBMirror) : Prop where
  mem : t.mem = m.mem
  shadow : t.shadow = m.shadow
  shadowValid : t.shadowValid = m.shadowValid
  alloc : t.dirtyRows.isSome = m.dirtyRows.isSome
  counted : m.Counted p → t.Counted p
  clean : ∀ row, t.clean row = true → m.clean row = true

section Marks
variable {p : Panel} {m t u : FBMirror}

theorem FBMirror.Marked.refl (m : FBMirror) (p : Panel) : m.Marked p m where
  mem := rfl
  shadow := rfl
  shadowValid := rfl
  alloc := rfl
  counted h := h
  clean _ h := h

theorem FBMirror.Marked.trans (h : m.Marked p t) (h' : t.Marked p u) : m.Marked p u where
  mem := h'.mem.trans h.mem
  shadow := h'.shadow.trans h.shadow
  shadowValid := h'.shadowValid.trans h.shadowValid
  alloc := h'.alloc.trans h.alloc
  counted hm := h'.counted (h.counted hm)
  clean row hc := h.clean row (h'.clean row hc)

theorem dirtyTotal_update {rows : Nat → Bool} {row : Nat} (hrow : row < p.guestHeight)
    (hclean : rows row = false) :
    dirtyTotal p (Function.update rows row true) = dirtyTotal p rows + 1 := by
  have hset : ((Finset.range p.guestHeight).filter
      fun i => Function.update rows row true i = true) =
      insert row ((Finset.range p.guestHeight).filter fun i => rows i = true) := by
    ext i
    rw [Finset.mem_filter, Finset.mem_insert, Finset.mem_filter, Finset.mem_range]
    by_cases h : i = row
    · simp [h, hrow]
    · simp [h]
  unfold dirtyTotal
  rw [hset, Finset.card_insert_of_notMem]
  rw [Finset.mem_filter, hclean]
  simp

theorem markRow_spec (m : FBMirror) {row : Nat} (hrow : row < p.guestHeight) :
    m.Marked p (m.markRow row) ∧ (m.markRow row).clean row = false := by
  unfold FBMirror.markRow
  cases hd : m.dirtyRows with
  | none =>
    refine ⟨.refl m p, ?_⟩
    unfold FBMirror.clean
    rw [hd]
  | some rows =>
    simp only
    by_cases hset : rows row = true
    · rw [if_pos hset]
      refine ⟨.refl m p, ?_⟩
      unfold FBMirror.clean
      rw [hd]
      simp only [hset, Bool.not_true]
    · rw [if_neg hset]
      refine ⟨⟨rfl, rfl, rfl, ?_, fun hcount => ?_, fun i hi => ?_⟩, ?_⟩
      · rw [hd]
        rfl
      · intro rows' hrows'
        obtain rfl := Option.some.inj hrows'
        rw [dirtyTotal_update hrow (Bool.eq_false_of_not_eq_true hset), ← hcount rows hd]
      · unfold FBMirror.clean at *
        rw [hd]
        by_cases h : i = row
        · simp [h] at hi
        · simpa [h] using hi
      · unfold FBMirror.clean
        simp

theorem markRows_spec (m : FBMirror) (l : List Nat) (hl : ∀ row ∈ l, row < p.guestHeight) :
    m.Marked p (l.foldl FBMirror.markRow m) ∧
      ∀ row ∈ l, (l.foldl FBMirror.markRow m).clean row = false := by
  induction l generalizing m with
  | nil => exact ⟨.refl m p, fun row h => absurd h List.not_mem_nil⟩
  | cons i l ih =>
    obtain ⟨hmark, hset⟩ := markRow_spec m (hl i List.mem_cons_self)
    obtain ⟨hrest, hall⟩ := ih (m.markRow i) fun row h => hl row (List.mem_cons_of_mem i h)
    refine ⟨hmark.trans hrest, fun row hrow => ?_⟩
    rcases List.mem_cons.mp hrow with rfl | hin
    · rw [← Bool.not_eq_true]
      intro hc
      exact absurd (hset.symm.trans (hrest.clean row hc)) (by decide)
    · exact hall row hin

/-- A mark covers its rows, as far as they are rows of the guest. -/
theorem markDirty_spec (m : FBMirror) {y h : Int} (hfit : y + h < 2 ^ 31) :
    ∃ t, m.markDirty p y h = some t ∧ m.Marked p t ∧
      ∀ row < p.guestHeight, y ≤ row → row < y + h → t.clean row = false := by
  unfold FBMirror.markDirty
  by_cases hnone : m.dirtyRows = none ∨ h ≤ 0
  · rw [if_pos hnone]
    refine ⟨m, rfl, .refl m p, fun row _ hlow hhigh => ?_⟩
    rcases hnone with hd | hh
    · unfold FBMirror.clean
      rw [hd]
    · omega
  · rw [if_neg hnone, if_pos hfit]
    simp only
    have hrows : ∀ row, row ∈ List.range' (if y < 0 then 0 else y).toNat
        ((if y + h > p.guestHeight then (p.guestHeight : Int) else y + h) -
          (if y < 0 then 0 else y)).toNat ↔ row < p.guestHeight ∧ y ≤ row ∧ row < y + h := by
      intro row
      rw [List.mem_range'_1]
      split <;> split <;> omega
    obtain ⟨hmark, hset⟩ := markRows_spec (p := p) m _ fun row h => ((hrows row).mp h).1
    exact ⟨_, rfl, hmark, fun row hrow hlow hhigh => hset row ((hrows row).mpr ⟨hrow, hlow, hhigh⟩)⟩

end Marks

/-- A clean row is shown unless it waits for its mark. -/
structure Run.Inv (p : Panel) (dirtyRows : Bool) (r : Run) : Prop where
  alloc : r.mirror.dirtyRows.isSome = dirtyRows
  counted : r.mirror.Counted p
  clean : ∀ row < p.guestHeight, r.mirror.clean row = true →
    row ∈ r.stale ∨ RowShown p r.mirror.mem r.src row
  shadowed : p.Direct ∨ p.Turned → r.mirror.Shadowed p

theorem dirtyTotal_all (p : Panel) : dirtyTotal p (fun _ => true) = p.guestHeight := by
  unfold dirtyTotal
  simp

namespace Run
variable {p : Panel} {dirtyRows : Bool} {r : Run}

theorem clean_open (p : Panel) (shadow dirtyRows : Bool) (row : Nat) :
    row < p.guestHeight → (fbmirrorOpen p shadow dirtyRows).clean row = false := by
  intro _
  unfold FBMirror.clean fbmirrorOpen
  cases dirtyRows with
  | true => rfl
  | false => rfl

theorem inv_start (p : Panel) (shadow dirtyRows : Bool) (src : Guest) :
    (start p shadow dirtyRows src).Inv p dirtyRows := by
  have hclean := clean_open p shadow dirtyRows
  refine ⟨?_, fun rows hrows => ?_, fun row hrow hc => ?_, fun _ old hold => ?_⟩
  · cases dirtyRows with
    | true => rfl
    | false => rfl
  · cases dirtyRows with
    | true =>
      obtain rfl := Option.some.inj hrows
      exact (dirtyTotal_all p).symm
    | false => cases hrows
  · exact absurd ((hclean row hrow).symm.trans hc) (by decide)
  · exact hclean

theorem Inv.draw (hi : r.Inv p dirtyRows) (src : Guest) :
    Inv p dirtyRows { r with
      src := src
      stale := r.stale ∪ {row | row < p.guestHeight ∧ p.guestRow r.src row ≠ p.guestRow src row} }
    where
  alloc := hi.alloc
  counted := hi.counted
  clean row hrow hc := by
    rcases hi.clean row hrow hc with hstale | hshown
    · exact .inl (.inl hstale)
    · by_cases hsame : p.guestRow r.src row = p.guestRow src row
      · exact .inr (hshown.congr hsame)
      · exact .inl (.inr ⟨hrow, hsame⟩)
  shadowed := hi.shadowed

theorem Inv.markDirty (hi : r.Inv p dirtyRows) {t : FBMirror} {y h : Int}
    (hmark : r.mirror.Marked p t)
    (hset : ∀ row < p.guestHeight, y ≤ row → row < y + h → t.clean row = false) :
    Inv p dirtyRows { r with
      mirror := t
      stale := {row ∈ r.stale | ¬(y ≤ row ∧ row < y + h)} } where
  alloc := hmark.alloc.trans hi.alloc
  counted := hmark.counted hi.counted
  clean row hrow hc := by
    show _ ∨ RowShown p t.mem r.src row
    rw [hmark.mem]
    rcases hi.clean row hrow (hmark.clean row hc) with hstale | hshown
    · refine .inl ⟨hstale, fun hin => ?_⟩
      exact absurd ((hset row hrow hin.1 hin.2).symm.trans hc) (by decide)
    · exact .inr hshown
  shadowed hpath old hold := by
    have hall := hi.shadowed hpath old (hmark.shadow.symm.trans hold)
    show if t.shadowValid = true then ∀ row < p.guestHeight, RowShown p t.mem old row
      else ∀ row < p.guestHeight, t.clean row = false
    rw [hmark.shadowValid, hmark.mem]
    split
    · rename_i hv
      rw [if_pos hv] at hall
      exact hall
    · rename_i hv
      rw [if_neg hv] at hall
      intro row hrow
      rw [← Bool.not_eq_true]
      intro hc
      exact absurd ((hall row hrow).symm.trans (hmark.clean row hc)) (by decide)

theorem requestFull_spec (m : FBMirror) (p : Panel) :
    (m.requestFull p).dirtyRows.isSome = m.dirtyRows.isSome ∧ (m.requestFull p).Counted p ∧
      (∀ row, (m.requestFull p).clean row = false) ∧ (m.requestFull p).shadowValid = false := by
  unfold FBMirror.requestFull FBMirror.Counted FBMirror.clean
  cases hd : m.dirtyRows with
  | none =>
    refine ⟨rfl, ?_, fun _ => rfl, rfl⟩
    intro rows h
    cases h
  | some rows =>
    refine ⟨rfl, ?_, fun _ => rfl, rfl⟩
    intro rows' h
    obtain rfl := Option.some.inj h
    exact (dirtyTotal_all p).symm

theorem Inv.requestFull (hi : r.Inv p dirtyRows) :
    Inv p dirtyRows { r with mirror := r.mirror.requestFull p, stale := ∅ } := by
  obtain ⟨halloc, hcount, hclean, hvalid⟩ := requestFull_spec r.mirror p
  refine ⟨halloc.trans hi.alloc, hcount, fun row _ hc => ?_, fun _ old _ => ?_⟩
  · exact absurd ((hclean row).symm.trans hc) (by decide)
  · show if (r.mirror.requestFull p).shadowValid = true then _ else _
    rw [if_neg (by rw [hvalid]; decide)]
    exact fun row _ => hclean row

theorem Inv.present (hi : r.Inv p dirtyRows) (hscales : p.Scales dirtyRows) (hstale : r.stale = ∅) :
    ∃ m', r.mirror.present p r.src = some m' ∧ m'.Shows p r.src ∧ m'.Counted p ∧
      Inv p dirtyRows { r with mirror := m' } := by
  have hclean : r.mirror.CleanShown p r.src := by
    intro row hrow hc
    rcases hi.clean row hrow hc with hin | hshown
    · rw [hstale] at hin
      exact absurd hin (Set.notMem_empty row)
    · exact hshown
  rw [← hi.alloc] at hscales
  obtain ⟨m', hm', h⟩ := present_spec hi.counted hi.shadowed hclean hscales
  refine ⟨m', hm', h.shows, h.counted, h.alloc.trans hi.alloc, h.counted, fun row hrow _ => ?_,
    h.shadowed⟩
  exact .inr (shows_iff.mp h.shows row hrow)

theorem Inv.step (hi : r.Inv p dirtyRows) {op : Op} (hfit : op.Fits) (hscales : p.Scales dirtyRows)
    (hstale : op = .present → r.stale = ∅) :
    ∃ r', r.step p op = some r' ∧ r'.Inv p dirtyRows ∧
      (op = .present → r'.mirror.Shows p r'.src ∧ r'.mirror.Counted p) := by
  cases op with
  | draw src => exact ⟨_, rfl, hi.draw src, fun h => by cases h⟩
  | markDirty y h =>
    obtain ⟨t, ht, hmark, hset⟩ := markDirty_spec (p := p) r.mirror hfit
    refine ⟨{ r with mirror := t, stale := {row ∈ r.stale | ¬(y ≤ row ∧ row < y + h)} }, ?_,
      hi.markDirty hmark hset, fun h => by cases h⟩
    unfold Run.step
    simp only [ht, Option.map_some]
  | requestFull => exact ⟨_, rfl, hi.requestFull, fun h => by cases h⟩
  | present =>
    obtain ⟨m', hm', hshows, hcount, hinv⟩ := hi.present hscales (hstale rfl)
    refine ⟨{ r with mirror := m' }, ?_, hinv, fun _ => ⟨hshows, hcount⟩⟩
    unfold Run.step
    simp only [hm', Option.map_some]

theorem Inv.mirrored (hi : r.Inv p dirtyRows) (hscales : p.Scales dirtyRows) {ops : List Op}
    (hfits : ∀ op ∈ ops, op.Fits) : r.Mirrored p ops := by
  induction ops generalizing r with
  | nil => exact trivial
  | cons op ops ih =>
    intro hstale
    obtain ⟨r', hr', hinv, hshows⟩ := hi.step (hfits op List.mem_cons_self) hscales hstale
    exact ⟨r', hr', hshows, ih hinv fun op hop => hfits op (List.mem_cons_of_mem _ hop)⟩

theorem drawsRow_dirty {m : FBMirror} (hdirty : ∀ row < p.guestHeight, m.clean row = false)
    (y : Nat) : m.drawsRow p y = none ∨ m.drawsRow p y = some true := by
  unfold FBMirror.drawsRow
  cases hr : p.rotate with
  | none =>
    cases hd : m.dirtyRows with
    | none => exact .inr rfl
    | some rows =>
      simp only
      cases scale y p.guestHeight p.height with
      | none => exact .inl rfl
      | some sy =>
        by_cases hsy : sy < p.guestHeight
        · have hset := hdirty sy hsy
          unfold FBMirror.clean at hset
          rw [hd] at hset
          have hrow : rows sy = true := by simpa using hset
          refine .inr ((if_pos hsy).trans ?_)
          rw [hrow]
        · exact .inl (if_neg hsy)
  | cw => exact .inr rfl
  | ccw => exact .inr rfl

theorem scaleRow_none (src : Guest) (mem : Nat → UInt8) {x y : Nat} (hx : x < p.width)
    (hfits : ¬p.FitsAt x y) : scaleRow p src mem y = none := by
  apply foldlM_none (List.mem_range.mpr hx)
  intro mem
  unfold scalePixel
  rw [source_none hfits]
  rfl

/-- With all rows to draw, a product that overflows is computed. -/
theorem present_none {m : FBMirror} (src : Guest) (hscales : ¬p.Scales m.dirtyRows.isSome)
    (hdirty : ∀ row < p.guestHeight, m.clean row = false)
    (hbusy : ¬(m.dirtyRows ≠ none ∧ m.dirtyCount = 0)) : m.present p src = none := by
  obtain ⟨hdirect, hrest⟩ := not_or.mp hscales
  obtain ⟨hturned, hloop⟩ := not_or.mp hrest
  unfold FBMirror.present
  rw [if_neg hbusy]
  simp only
  rw [if_neg hdirect, if_neg hturned]
  suffices hrow : ∃ y < p.height, ∀ mem : Nat → UInt8,
      (do if ← m.drawsRow p y then scaleRow p src mem y else some mem) = none by
    obtain ⟨y, hy, hnone⟩ := hrow
    unfold FBMirror.presentScaled
    rw [foldlM_none (List.mem_range.mpr hy) hnone]
    rfl
  by_cases hrows : p.rotate = .none → m.dirtyRows.isSome = true →
      ∀ y < p.height, y * p.guestHeight < 2 ^ 31
  · have hcell : ∃ x y, x < p.width ∧ y < p.height ∧ ¬p.FitsAt x y := by
      by_contra hall
      exact hloop ⟨hrows, fun x y hx hy => by_contra fun h => hall ⟨x, y, hx, hy, h⟩⟩
    obtain ⟨x, y, hx, hy, hfits⟩ := hcell
    refine ⟨y, hy, fun mem => ?_⟩
    rcases drawsRow_dirty hdirty y with hnone | htrue
    · rw [hnone]
      rfl
    · rw [htrue]
      exact scaleRow_none src mem hx hfits
  · simp only [Classical.not_imp, not_forall] at hrows
    obtain ⟨hr, hsome, y, hy, hbig⟩ := hrows
    refine ⟨y, hy, fun mem => ?_⟩
    obtain ⟨rows, hd⟩ := Option.isSome_iff_exists.mp hsome
    have hnone : m.drawsRow p y = none := by
      unfold FBMirror.drawsRow
      rw [hr, hd]
      simp only [scale_none hbig]
      rfl
    rw [hnone]
    rfl

theorem not_mirrored_present (shadow : Bool) (src : Guest) (hscales : ¬p.Scales dirtyRows) :
    ¬(start p shadow dirtyRows src).Mirrored p [.present] := by
  intro h
  obtain ⟨r', hr', -⟩ := h fun _ => rfl
  have hinv := inv_start p shadow dirtyRows src
  have hnone := present_none (m := fbmirrorOpen p shadow dirtyRows) src
    (by rw [← hinv.alloc] at hscales; exact hscales) (clean_open p shadow dirtyRows) (by
      rintro ⟨hsome, hzero⟩
      have hpos := p.guestHeight_pos
      unfold fbmirrorOpen at hsome hzero
      cases dirtyRows with
      | true =>
        simp only [if_true] at hzero
        omega
      | false => exact hsome rfl)
  unfold Run.step at hr'
  simp only at hr'
  rw [show (start p shadow dirtyRows src).mirror.present p (start p shadow dirtyRows src).src = none
    from hnone] at hr'
  cases hr'

/-- Every run is mirrored, its marks being `int`s, exactly on the panels where one of the first two
paths is taken or no product overflows. -/
theorem mirrored_iff (p : Panel) (shadow dirtyRows : Bool) (src : Guest) :
    (∀ ops : List Op, (∀ op ∈ ops, op.Fits) → (start p shadow dirtyRows src).Mirrored p ops) ↔
      p.Scales dirtyRows := by
  constructor
  · intro h
    by_contra hscales
    refine not_mirrored_present shadow src hscales (h [.present] fun op hop => ?_)
    obtain rfl := List.mem_singleton.mp hop
    exact trivial
  · intro hscales ops hfits
    exact (inv_start p shadow dirtyRows src).mirrored hscales hfits

/-- A guest of 50000 rows on a panel of the same size, with 32 bits per pixel. -/
def tall : Panel where
  width := 2
  height := 50000
  lineLength := 8
  memSize := 400000
  bpp := .bpp32
  rotate := .none
  guestWidth := 2
  guestHeight := 50000
  guestWidth_pos := by decide
  guestHeight_pos := by decide
  line_le := by decide
  mem_ge y hy := by
    simp only [Depth.bytes]
    omega

theorem not_mirrored_tall : ¬(start tall true true fun _ => 0).Mirrored tall [.present] := by
  apply not_mirrored_present
  rintro (hdirect | hturned | hloop)
  · cases hdirect.2.2.2
  · cases hturned.1
  · exact absurd (hloop.1 rfl rfl 49999 (by decide)) (by decide)

end Run

end Winspire.Frontend.Mirror
