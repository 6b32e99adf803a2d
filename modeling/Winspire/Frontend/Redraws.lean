import Winspire.Frontend.Lcd

/-!
# No update of the LCD is lost

What the queue covers and what a flush copies; the invariant of the pixels that are owed; and the
runs in which no claim fails while something is pending.
-/

namespace Winspire.Frontend.Lcd

set_option autoImplicit false

/-- A rectangle of at least one pixel on the screen. -/
structure Rect.OnScreen (r : Rect) : Prop where
  left : 0 ≤ r.left
  top : 0 ≤ r.top
  width : 0 < r.width
  height : 0 < r.height
  right : r.left + r.width ≤ SCREEN_WIDTH
  bottom : r.top + r.height ≤ SCREEN_HEIGHT

theorem onScreen_whole : wholeScreen.OnScreen := by
  constructor <;> decide

theorem pixels_whole : wholeScreen.pixels = screen := by
  ext p
  unfold wholeScreen Rect.pixels screen SCREEN_WIDTH SCREEN_HEIGHT
  simp only [Set.mem_ofPred_eq]
  omega

theorem clip_side {limit start extent p : Int} (hp : 0 ≤ p) (hlt : p < limit) :
    (clipLow start extent).1 ≤ p ∧
        p < (clipLow start extent).1 +
          clipHigh limit (clipLow start extent).1 (clipLow start extent).2 ↔
      start ≤ p ∧ p < start + extent := by
  unfold clipLow clipHigh
  split <;> split <;> constructor <;> intro h <;> simp only at * <;> omega

theorem clip_side_bounds {limit start extent : Int}
    (hlow : ¬(clipLow start extent).1 ≥ limit) (hpos : ¬(clipLow start extent).2 ≤ 0) :
    0 ≤ (clipLow start extent).1 ∧
      0 < clipHigh limit (clipLow start extent).1 (clipLow start extent).2 ∧
      (clipLow start extent).1 +
        clipHigh limit (clipLow start extent).1 (clipLow start extent).2 ≤ limit := by
  unfold clipLow clipHigh at *
  split at hlow <;> split <;> simp_all <;> omega

theorem clip_some {r c : Rect} (h : r.clip = some c) :
    c.OnScreen ∧ c.pixels = r.pixels ∩ screen := by
  unfold Rect.clip at h
  simp only at h
  split at h
  · cases h
  · rename_i hne
    obtain rfl := Option.some.inj h
    obtain ⟨hl, hrest⟩ := not_or.mp hne
    obtain ⟨ht, hrest⟩ := not_or.mp hrest
    obtain ⟨hw, hh⟩ := not_or.mp hrest
    obtain ⟨hleft, hwidth, hright⟩ := clip_side_bounds hl hw
    obtain ⟨htop, hheight, hbottom⟩ := clip_side_bounds ht hh
    refine ⟨⟨hleft, htop, hwidth, hheight, hright, hbottom⟩, ?_⟩
    ext p
    constructor
    · rintro ⟨h1, h2, h3, h4⟩
      simp only at h1 h2 h3 h4
      have hp : p ∈ screen := ⟨by omega, by omega, by omega, by omega⟩
      obtain ⟨hx, hx'⟩ := (clip_side hp.1 hp.2.1).mp ⟨h1, h2⟩
      obtain ⟨hy, hy'⟩ := (clip_side hp.2.2.1 hp.2.2.2).mp ⟨h3, h4⟩
      exact ⟨⟨hx, hx', hy, hy'⟩, hp⟩
    · rintro ⟨⟨h1, h2, h3, h4⟩, hp⟩
      obtain ⟨hx, hx'⟩ := (clip_side hp.1 hp.2.1).mpr ⟨h1, h2⟩
      obtain ⟨hy, hy'⟩ := (clip_side hp.2.2.1 hp.2.2.2).mpr ⟨h3, h4⟩
      exact ⟨hx, hx', hy, hy'⟩

theorem clip_none {r : Rect} (h : r.clip = none) : r.pixels ∩ screen = ∅ := by
  unfold Rect.clip at h
  simp only at h
  split at h
  · rename_i hout
    apply Set.eq_empty_of_forall_notMem
    rintro p ⟨⟨h1, h2, h3, h4⟩, h5, h6, h7, h8⟩
    unfold clipLow at hout
    split at hout <;> split at hout <;> simp only at hout <;> omega
  · cases h

theorem merge_side (dirtyStart dirtyExtent start extent : Int) :
    (mergeSide dirtyStart dirtyExtent start extent).1 = min dirtyStart start ∧
      (mergeSide dirtyStart dirtyExtent start extent).1 +
        (mergeSide dirtyStart dirtyExtent start extent).2 =
          max (dirtyStart + dirtyExtent) (start + extent) := by
  unfold mergeSide
  simp only
  split <;> split <;> omega

theorem merge_covers {box r : Rect} (hb : box.OnScreen) (hr : r.OnScreen) :
    (box.merge r).OnScreen ∧ box.pixels ∪ r.pixels ⊆ (box.merge r).pixels := by
  obtain ⟨hx, hx'⟩ := merge_side box.left box.width r.left r.width
  obtain ⟨hy, hy'⟩ := merge_side box.top box.height r.top r.height
  obtain ⟨hbl, hbt, hbw, hbh, hbr, hbb⟩ := hb
  obtain ⟨hrl, hrt, hrw, hrh, hrr, hrb⟩ := hr
  constructor
  · constructor <;> simp only [Rect.merge] <;> omega
  · rintro p (⟨h1, h2, h3, h4⟩ | ⟨h1, h2, h3, h4⟩)
    · refine ⟨?_, ?_, ?_, ?_⟩ <;> simp only [Rect.merge] <;> omega
    · refine ⟨?_, ?_, ?_, ?_⟩ <;> simp only [Rect.merge] <;> omega

theorem copied_nil : copied [] = ∅ := by
  apply Set.eq_empty_of_forall_notMem
  rintro p ⟨s, hs, -⟩
  cases hs

theorem onScreen_pixels {r : Rect} (h : r.OnScreen) : r.pixels ⊆ screen := by
  rintro p ⟨h1, h2, h3, h4⟩
  obtain ⟨hl, ht, -, -, hr, hb⟩ := h
  exact ⟨by omega, by omega, by omega, by omega⟩

theorem copied_rows {r : Rect} (h : r.OnScreen) (hw : r.width = SCREEN_WIDTH) :
    (∀ s ∈ [Span.mk (r.top * SCREEN_WIDTH + r.left) (r.height * SCREEN_WIDTH).toNat], s.Inside) ∧
      r.pixels ⊆ copied [⟨r.top * SCREEN_WIDTH + r.left, (r.height * SCREEN_WIDTH).toNat⟩] := by
  have hin := onScreen_pixels h
  obtain ⟨hl, ht, -, hh, hr, hb⟩ := h
  unfold SCREEN_WIDTH SCREEN_HEIGHT at *
  constructor
  · intro s hs
    obtain rfl := List.mem_singleton.mp hs
    constructor <;> simp only [SCREEN_WIDTH, SCREEN_HEIGHT] <;> omega
  · intro p hp
    refine ⟨_, List.mem_singleton_self _, hin hp, ?_, ?_⟩
    · obtain ⟨h1, h2, h3, h4⟩ := hp
      simp only [SCREEN_WIDTH]
      omega
    · obtain ⟨h1, h2, h3, h4⟩ := hp
      simp only [SCREEN_WIDTH]
      omega

theorem copied_region {r : Rect} (h : r.OnScreen) :
    (∀ s ∈ (List.range r.height.toNat).map fun (row : Nat) =>
        Span.mk (r.top * SCREEN_WIDTH + r.left + row * SCREEN_WIDTH) r.width.toNat, s.Inside) ∧
      r.pixels ⊆ copied ((List.range r.height.toNat).map fun (row : Nat) =>
        ⟨r.top * SCREEN_WIDTH + r.left + row * SCREEN_WIDTH, r.width.toNat⟩) := by
  have hin := onScreen_pixels h
  obtain ⟨hl, ht, hw, hh, hr, hb⟩ := h
  unfold SCREEN_WIDTH SCREEN_HEIGHT at *
  constructor
  · intro s hs
    obtain ⟨row, hrow, rfl⟩ := List.mem_map.mp hs
    have hlt := List.mem_range.mp hrow
    constructor <;> simp only [SCREEN_WIDTH, SCREEN_HEIGHT] <;> omega
  · intro p hp
    have hp' := hp
    obtain ⟨h1, h2, h3, h4⟩ := hp'
    refine ⟨_, List.mem_map_of_mem (a := (p.2 - r.top).toNat) ?_, hin hp, ?_, ?_⟩
    · rw [List.mem_range]
      omega
    · simp only [SCREEN_WIDTH]
      omega
    · simp only [SCREEN_WIDTH]
      omega

namespace Display
variable {d : Display} {blit : LcdBlit} {force : Bool} {now : BitVec 64} {lcdInit : Bool}

theorem claimLcd_active (d : Display) (force : Bool) (now : BitVec 64) (lcdInit : Bool) :
    (d.claimLcd force now lcdInit).1.lcdActive =
      if d.Attempts force now then lcdInit else d.lcdActive := by
  unfold claimLcd
  split <;> rfl

/-- A claim that fails is one that was made and answered with a failure. -/
theorem claim_failed (h : (d.claimLcd force now lcdInit).1.lcdActive = false) :
    d.Attempts force now ∧ lcdInit = false := by
  rw [claimLcd_active] at h
  split at h
  · rename_i ha
    exact ⟨ha, h⟩
  · rename_i ha
    exact absurd (.inr (.inl h)) ha

/-- The queue is left alone, and what is copied stays on the screen. -/
structure Kept (d : Display) (res : Display × List Span) : Prop where
  ready : res.1.ready = d.ready
  dirty : res.1.dirty = d.dirty
  fullRedraw : res.1.fullRedraw = d.fullRedraw
  box : res.1.box = d.box
  modeChanged : res.1.modeChanged = d.modeChanged
  inside : ∀ s ∈ res.2, s.Inside

/-- Drawing copies all of the region if the claim succeeds, and nothing if not. -/
structure Drawn (d : Display) (claimed : Bool) (region : Set Pixel) (res : Display × List Span) :
    Prop extends Kept d res where
  active : res.1.lcdActive = claimed
  copies : claimed = true → region ⊆ copied res.2
  idle : claimed = false → res.2 = []

theorem kept_nil (d : Display) : Kept d (d, []) where
  ready := rfl
  dirty := rfl
  fullRedraw := rfl
  box := rfl
  modeChanged := rfl
  inside s hs := by cases hs

theorem kept_claim (d : Display) (force : Bool) (now : BitVec 64) (lcdInit : Bool) :
    Kept d ((d.claimLcd force now lcdInit).1, []) := by
  unfold claimLcd
  split
  · exact { kept_nil d with }
  · exact kept_nil d

theorem kept_draw (d : Display) (force : Bool) (now : BitVec 64) (lcdInit : Bool)
    {spans : List Span} (hinside : ∀ s ∈ spans, s.Inside) :
    Kept d ({ (d.claimLcd force now lcdInit).1 with lastDrawMs := now }, spans) :=
  { kept_claim d force now lcdInit with inside := hinside }

theorem drawn_claim (d : Display) (force : Bool) (now : BitVec 64) (lcdInit : Bool)
    {spans : List Span} {region : Set Pixel} (hinside : ∀ s ∈ spans, s.Inside)
    (hcopies : region ⊆ copied spans) :
    Drawn d (d.claimLcd force now lcdInit).1.lcdActive region
      (if (d.claimLcd force now lcdInit).1.lcdActive then
        ({ (d.claimLcd force now lcdInit).1 with lastDrawMs := now }, spans)
      else ((d.claimLcd force now lcdInit).1, [])) := by
  split
  · rename_i ha
    refine ⟨kept_draw d force now lcdInit hinside, rfl, fun _ => hcopies, fun h => ?_⟩
    rw [ha] at h
    cases h
  · rename_i ha
    exact ⟨kept_claim d force now lcdInit, rfl, fun h => absurd h ha, fun _ => rfl⟩

theorem kept_keep (d : Display) (blit : LcdBlit) (now : BitVec 64) (lcdInit : Bool) :
    Kept d (d.keepLcd blit now lcdInit) := by
  unfold keepLcd
  split
  · exact kept_nil d
  · split
    · simp only
      split
      · exact kept_draw d false now lcdInit blit.inside
      · exact kept_claim d false now lcdInit
    · exact kept_nil d

theorem drawn_frame (blit : LcdBlit) (now : BitVec 64) (lcdInit : Bool) (force : Bool)
    (h : d.ready = true) :
    Drawn d (d.claimLcd force now lcdInit).1.lcdActive screen
      (d.drawFrame blit now lcdInit force) := by
  unfold drawFrame
  rw [h]
  exact drawn_claim d force now lcdInit blit.inside blit.whole

theorem drawn_region (blit : LcdBlit) (now : BitVec 64) (lcdInit : Bool) {r : Rect}
    (h : d.ready = true) (hr : r.OnScreen) :
    Drawn d (d.claimLcd false now lcdInit).1.lcdActive r.pixels
      (d.drawRegion blit now lcdInit r) := by
  unfold drawRegion
  split
  · have hframe := drawn_frame blit now lcdInit false h
    exact { hframe with
      copies := fun ha => (onScreen_pixels hr).trans (hframe.copies ha) }
  · by_cases hw : r.width = SCREEN_WIDTH
    · simp only [if_pos hw]
      obtain ⟨hinside, hcopies⟩ := copied_rows hr hw
      exact drawn_claim d false now lcdInit hinside hcopies
    · simp only [if_neg hw]
      obtain ⟨hinside, hcopies⟩ := copied_region hr
      exact drawn_claim d false now lcdInit hinside hcopies

end Display

/-- What is owed is pending, or will be when the callback behind a mode change asks for the whole
screen. -/
structure Run.Inv (r : Run) : Prop where
  box : r.display.dirty = true → r.display.box.OnScreen
  full : r.display.fullRedraw = true → r.display.dirty = true ∧ r.display.box = wholeScreen
  ready : r.display.dirty = true → r.display.ready = true
  onScreen : r.owed ⊆ screen
  fresh : r.display.ready = false → r.owed = ∅
  pending : r.display.dirty = true → r.owed ⊆ r.display.box.pixels
  settled : r.display.dirty = false → r.owed = ∅ ∨ r.display.modeChanged = true

namespace Run
variable {blit : LcdBlit} {r : Run}

theorem inv_start : start.Inv where
  box h := by cases h
  full h := by cases h
  ready h := by cases h
  onScreen := Set.empty_subset _
  fresh _ := rfl
  pending h := by cases h
  settled _ := .inl rfl

theorem diff_nil (s : Set Pixel) : s \ copied [] = s := by
  rw [copied_nil, Set.sdiff_empty]

theorem Inv.queueWhole {d : Display} {owed : Set Pixel} (howed : owed ⊆ screen)
    (hready : d.ready = true) :
    Inv ⟨{ d with fullRedraw := true, box := wholeScreen, dirty := true }, owed⟩ where
  box _ := onScreen_whole
  full _ := ⟨rfl, rfl⟩
  ready _ := hready
  onScreen := howed
  fresh h := absurd (hready.symm.trans h) (by decide)
  pending _ := by
    show owed ⊆ wholeScreen.pixels
    rw [pixels_whole]
    exact howed
  settled h := by cases h

theorem queueRedraw_whole {d : Display} (h : d.ready = true) :
    d.queueRedraw wholeScreen =
      { d with fullRedraw := true, box := wholeScreen, dirty := true } := by
  have hwhole : wholeScreen.left ≤ 0 ∧ wholeScreen.top ≤ 0 ∧ wholeScreen.width ≥ SCREEN_WIDTH ∧
      wholeScreen.height ≥ SCREEN_HEIGHT := by decide
  unfold Display.queueRedraw
  rw [if_neg (by rw [h]; decide), if_pos hwhole]

theorem Inv.queue (hi : r.Inv) (hready : r.display.ready = true)
    (hmode : r.display.modeChanged = false) (rect : Rect) :
    Inv ⟨r.display.queueRedraw rect, r.owed ∪ rect.pixels ∩ screen⟩ := by
  have howed : r.owed ∪ rect.pixels ∩ screen ⊆ screen :=
    Set.union_subset hi.onScreen Set.inter_subset_right
  unfold Display.queueRedraw
  rw [if_neg (by rw [hready]; decide)]
  split
  · exact Inv.queueWhole howed hready
  · cases hclip : rect.clip with
    | none =>
      rw [clip_none hclip, Set.union_empty]
      exact hi
    | some c =>
      obtain ⟨hc, hpixels⟩ := clip_some hclip
      rw [← hpixels] at howed ⊢
      simp only
      split
      · rename_i hfull
        obtain ⟨hdirty, hbox⟩ := hi.full hfull
        refine ⟨hi.box, hi.full, hi.ready, howed, fun h => ?_, fun _ => ?_, fun h => ?_⟩
        · exact absurd (hready.symm.trans h) (by decide)
        · show _ ⊆ r.display.box.pixels
          rw [hbox, pixels_whole]
          exact howed
        · exact absurd (hdirty.symm.trans h) (by decide)
      · rename_i hfull
        split
        · rename_i hdirty
          have hempty : r.owed = ∅ :=
            (hi.settled hdirty).resolve_right (by rw [hmode]; decide)
          refine ⟨fun _ => hc, fun h => absurd h hfull, fun _ => hready, howed, fun h => ?_,
            fun _ => ?_, fun h => ?_⟩
          · exact absurd (hready.symm.trans h) (by decide)
          · show r.owed ∪ c.pixels ⊆ c.pixels
            rw [hempty, Set.empty_union]
          · cases h
        · rename_i hdirty
          have hon : r.display.dirty = true := by
            rw [← Bool.not_eq_false]
            exact hdirty
          obtain ⟨hbox, hcover⟩ := merge_covers (hi.box hon) hc
          refine ⟨fun _ => hbox, fun h => absurd h hfull, fun _ => hready, howed, fun h => ?_,
            fun _ => ?_, fun h => ?_⟩
          · exact absurd (hready.symm.trans h) (by decide)
          · exact (Set.union_subset_union_left _ (hi.pending hon)).trans hcover
          · cases h

theorem Inv.redraw (hi : r.Inv) {rect : Rect} {now : BitVec 64} {lcdInit : Bool}
    (hm : r.Meets (.redraw rect now lcdInit)) :
    (r.step blit (.redraw rect now lcdInit)).Inv ∧ r.Sound blit (.redraw rect now lcdInit) := by
  unfold step
  by_cases hready : r.display.ready = false
  · -- the first callback
    have hempty := hi.fresh hready
    have hdirty : r.display.dirty = false := by
      rw [← Bool.not_eq_true]
      intro h
      exact absurd ((hi.ready h).symm.trans hready) (by decide)
    have hdraw : r.draw blit (.redraw rect now lcdInit) =
        { r.display with ready := true, modeChanged := false }.drawFrame blit now lcdInit true :=
      if_pos hready
    have hdrawn := Display.drawn_frame (d := { r.display with ready := true, modeChanged := false })
      blit now lcdInit true rfl
    have hsettled : (r.owed ∪ Op.covers (.redraw rect now lcdInit)) \
        copied (r.draw blit (.redraw rect now lcdInit)).2 = ∅ := by
      rw [hempty, Set.empty_union, hdraw]
      by_cases hne : (rect.pixels ∩ screen).Nonempty
      · have hcopies := hdrawn.copies (by
          rw [Display.claimLcd_active, if_pos (.inl rfl)]
          exact hm hready hne)
        exact Set.sdiff_eq_empty.mpr (Set.inter_subset_right.trans hcopies)
      · rw [show Op.covers (.redraw rect now lcdInit) = ∅ from Set.not_nonempty_iff_eq_empty.mp hne,
          Set.empty_sdiff]
    refine ⟨?_, ⟨?_, fun _ _ h => by cases h⟩⟩
    · rw [hsettled, hdraw]
      have hoff : (Display.drawFrame { r.display with ready := true, modeChanged := false } blit now
          lcdInit true).1.dirty = false := hdrawn.dirty.trans hdirty
      refine ⟨fun h => ?_, fun h => ?_, fun h => ?_, Set.empty_subset _, fun _ => rfl, fun h => ?_,
        fun _ => .inl rfl⟩
      · exact absurd (hoff.symm.trans h) (by decide)
      · have hfull := hi.full (hdrawn.fullRedraw.symm.trans h)
        exact absurd (hdirty.symm.trans hfull.1) (by decide)
      · exact absurd (hoff.symm.trans h) (by decide)
      · exact Set.empty_subset _
    · rw [hdraw]
      exact hdrawn.inside
  · have hon : r.display.ready = true := by
      rw [← Bool.not_eq_false]
      exact hready
    refine ⟨?_, ⟨?_, fun _ _ h => by cases h⟩⟩
    · by_cases hmode : r.display.modeChanged = true
      · have hdraw : r.draw blit (.redraw rect now lcdInit) =
            ({ r.display with modeChanged := false }.queueRedraw wholeScreen, []) :=
          (if_neg hready).trans (if_pos hmode)
        have hwhole := queueRedraw_whole (d := { r.display with modeChanged := false }) hon
        rw [hdraw, diff_nil, hwhole]
        exact Inv.queueWhole (Set.union_subset hi.onScreen Set.inter_subset_right) hon
      · have hdraw : r.draw blit (.redraw rect now lcdInit) =
            (r.display.queueRedraw rect, []) :=
          (if_neg hready).trans (if_neg hmode)
        rw [hdraw, diff_nil]
        exact hi.queue hon (by rw [← Bool.not_eq_true]; exact hmode) rect
    · have hnone : (r.draw blit (.redraw rect now lcdInit)).2 = [] := by
        show (r.display.redraw blit now lcdInit rect).2 = []
        unfold Display.redraw
        rw [if_neg hready]
        split <;> rfl
      rw [hnone]
      intro s hs
      cases hs

/-- What a flush of a pending queue draws, with the queue cleared. -/
def drawPending (blit : LcdBlit) (now : BitVec 64) (lcdInit : Bool) (d : Display) :
    Display × List Span :=
  if d.fullRedraw then { d with dirty := false }.drawFrame blit now lcdInit false
  else { d with dirty := false }.drawRegion blit now lcdInit d.box

theorem draw_flush (now : BitVec 64) (lcdInit : Bool) (h : r.display.dirty = true) :
    r.draw blit (.flush now lcdInit) =
      ({ (drawPending blit now lcdInit r.display).1 with fullRedraw := false },
        (drawPending blit now lcdInit r.display).2) := by
  show r.display.flushRedraw blit now lcdInit = _
  unfold Display.flushRedraw drawPending
  rw [if_neg (by rw [h]; decide)]

theorem Inv.drawn_pending (hi : r.Inv) (blit : LcdBlit) (now : BitVec 64) (lcdInit : Bool)
    (h : r.display.dirty = true) :
    Display.Drawn { r.display with dirty := false }
      (if r.display.Attempts false now then lcdInit else r.display.lcdActive)
      r.display.box.pixels (drawPending blit now lcdInit r.display) := by
  have hactive := Display.claimLcd_active { r.display with dirty := false } false now lcdInit
  unfold drawPending
  by_cases hfull : r.display.fullRedraw = true
  · have hdrawn := Display.drawn_frame (d := { r.display with dirty := false }) blit now lcdInit
      false (hi.ready h)
    rw [hactive] at hdrawn
    have hpixels : r.display.box.pixels = screen := by rw [(hi.full hfull).2, pixels_whole]
    rw [if_pos hfull, hpixels]
    exact hdrawn
  · rw [if_neg hfull]
    have hdrawn := Display.drawn_region (d := { r.display with dirty := false }) blit now lcdInit
      (hi.ready h) (hi.box h)
    rw [hactive] at hdrawn
    exact hdrawn

theorem Inv.idle (hi : r.Inv) {d : Display} {owed : Set Pixel} (hdirty : d.dirty = false)
    (hfull : d.fullRedraw = false) (hready : d.ready = r.display.ready) (howed : owed ⊆ r.owed)
    (hsettled : owed = ∅ ∨ d.modeChanged = true) : Inv ⟨d, owed⟩ where
  box h := absurd (hdirty.symm.trans h) (by decide)
  full h := absurd (hfull.symm.trans h) (by decide)
  ready h := absurd (hdirty.symm.trans h) (by decide)
  onScreen := howed.trans hi.onScreen
  fresh h := Set.subset_empty_iff.mp (howed.trans (hi.fresh (hready.symm.trans h)).subset)
  pending h := absurd (hdirty.symm.trans h) (by decide)
  settled _ := hsettled

theorem step_flush (now : BitVec 64) (lcdInit : Bool) (h : r.display.dirty = true) :
    r.step blit (.flush now lcdInit) =
      ⟨{ (drawPending blit now lcdInit r.display).1 with fullRedraw := false },
        r.owed \ copied (drawPending blit now lcdInit r.display).2⟩ := by
  unfold step
  rw [draw_flush now lcdInit h]
  show Run.mk _ ((r.owed ∪ ∅) \ _) = _
  rw [Set.union_empty]

theorem Inv.flush_claimed (hi : r.Inv) (blit : LcdBlit) {now : BitVec 64} {lcdInit : Bool}
    (h : r.display.dirty = true)
    (hclaimed : (if r.display.Attempts false now then lcdInit else r.display.lcdActive) = true) :
    r.owed \ copied (drawPending blit now lcdInit r.display).2 = ∅ := by
  apply Set.sdiff_eq_empty.mpr
  exact (hi.pending h).trans ((hi.drawn_pending blit now lcdInit h).copies hclaimed)

theorem Inv.flush_sound (hi : r.Inv) (blit : LcdBlit) (now : BitVec 64) (lcdInit : Bool) :
    r.Sound blit (.flush now lcdInit) := by
  by_cases hdirty : r.display.dirty = true
  · have hdrawn := hi.drawn_pending blit now lcdInit hdirty
    constructor
    · rw [draw_flush now lcdInit hdirty]
      exact hdrawn.inside
    · intro now' lcdInit' hop _ hactive
      obtain ⟨rfl, rfl⟩ := Op.flush.inj hop
      rw [draw_flush now lcdInit hdirty] at hactive
      rw [step_flush now lcdInit hdirty]
      exact hi.flush_claimed blit hdirty (hdrawn.active.symm.trans hactive)
  · have hdraw : r.draw blit (.flush now lcdInit) = (r.display, []) :=
      if_pos (by rw [← Bool.not_eq_true]; exact hdirty)
    refine ⟨?_, fun _ _ _ h => absurd h hdirty⟩
    rw [hdraw]
    intro s hs
    cases hs

theorem Inv.flush (hi : r.Inv) {now : BitVec 64} {lcdInit : Bool}
    (hm : r.Meets (.flush now lcdInit)) : (r.step blit (.flush now lcdInit)).Inv := by
  by_cases hdirty : r.display.dirty = true
  · have hdrawn := hi.drawn_pending blit now lcdInit hdirty
    rw [step_flush now lcdInit hdirty]
    refine hi.idle hdrawn.dirty rfl hdrawn.ready Set.sdiff_subset ?_
    cases hclaimed : (if r.display.Attempts false now then lcdInit else r.display.lcdActive) with
    | true => exact .inl (hi.flush_claimed blit hdirty hclaimed)
    | false =>
      by_cases hne : r.owed.Nonempty
      · rcases hm hdirty hne with hmode | hclaim
        · exact .inr (hdrawn.modeChanged.trans hmode)
        · -- the claim was made, so it did not fail
          rw [← Display.claimLcd_active] at hclaimed
          obtain ⟨hattempt, hinit⟩ := Display.claim_failed hclaimed
          exact absurd (hinit.symm.trans (hclaim hattempt)) (by decide)
      · rw [Set.not_nonempty_iff_eq_empty.mp hne, Set.empty_sdiff]
        exact .inl rfl
  · have hstep : r.step blit (.flush now lcdInit) = r := by
      unfold step
      rw [show r.draw blit (.flush now lcdInit) = (r.display, []) from
        if_pos (by rw [← Bool.not_eq_true]; exact hdirty), diff_nil]
      show Run.mk _ (r.owed ∪ ∅) = _
      rw [Set.union_empty]
    rw [hstep]
    exact hi

theorem Inv.kept (hi : r.Inv) {res : Display × List Span} (h : Display.Kept r.display res) :
    Inv ⟨res.1, r.owed \ copied res.2⟩ where
  box hd := by
    show res.1.box.OnScreen
    rw [h.box]
    exact hi.box (h.dirty.symm.trans hd)
  full hf := by
    obtain ⟨hdirty, hbox⟩ := hi.full (h.fullRedraw.symm.trans hf)
    exact ⟨h.dirty.trans hdirty, h.box.trans hbox⟩
  ready hd := h.ready.trans (hi.ready (h.dirty.symm.trans hd))
  onScreen := Set.sdiff_subset.trans hi.onScreen
  fresh hr := by
    rw [hi.fresh (h.ready.symm.trans hr)]
    exact Set.empty_sdiff _
  pending hd := by
    show r.owed \ _ ⊆ res.1.box.pixels
    rw [h.box]
    exact Set.sdiff_subset.trans (hi.pending (h.dirty.symm.trans hd))
  settled hd := by
    rcases hi.settled (h.dirty.symm.trans hd) with hempty | hmode
    · left
      rw [hempty]
      exact Set.empty_sdiff _
    · exact .inr (h.modeChanged.trans hmode)

theorem kept_draw_keep (blit : LcdBlit) (r : Run) (now : BitVec 64) (lcdInit : Bool) :
    Display.Kept r.display (r.draw blit (.keep now lcdInit)) := by
  unfold draw
  simp only
  split
  · exact Display.kept_keep r.display blit now lcdInit
  · exact Display.kept_nil r.display

theorem Inv.keep (hi : r.Inv) (now : BitVec 64) (lcdInit : Bool) :
    (r.step blit (.keep now lcdInit)).Inv := by
  have h := hi.kept (kept_draw_keep blit r now lcdInit)
  unfold step
  rw [show Op.covers (.keep now lcdInit) = ∅ from rfl, Set.union_empty]
  exact h

theorem Inv.modeChanged (hi : r.Inv) : (r.step blit .modeChanged).Inv := by
  have hstep : r.step blit .modeChanged = ⟨r.display.vgaModeChanged, r.owed⟩ := by
    show Run.mk _ ((r.owed ∪ ∅) \ copied []) = _
    rw [diff_nil, Set.union_empty]
    rfl
  rw [hstep]
  exact { hi with settled := fun _ => .inr rfl }

theorem Inv.step (hi : r.Inv) {op : Op} (hm : r.Meets op) : (r.step blit op).Inv := by
  cases op with
  | redraw rect now lcdInit => exact (hi.redraw hm).1
  | modeChanged => exact hi.modeChanged
  | flush now lcdInit => exact hi.flush hm
  | keep now lcdInit => exact hi.keep now lcdInit

theorem Inv.sound (hi : r.Inv) {op : Op} (hm : r.Meets op) : r.Sound blit op := by
  cases op with
  | redraw rect now lcdInit => exact (hi.redraw hm).2
  | modeChanged =>
    refine ⟨fun s hs => ?_, fun _ _ h => by cases h⟩
    cases hs
  | flush now lcdInit => exact hi.flush_sound blit now lcdInit
  | keep now lcdInit =>
    exact ⟨(kept_draw_keep blit r now lcdInit).inside, fun _ _ h => by cases h⟩

theorem Inv.run (hi : r.Inv) {ops : List Op} (h : r.AllMeet blit ops) :
    r.Lossless blit ops ∧ (r.run blit ops).Inv := by
  induction ops generalizing r with
  | nil => exact ⟨trivial, hi⟩
  | cons op ops ih =>
    obtain ⟨hm, hrest⟩ := h
    obtain ⟨hlossless, hlast⟩ := ih (hi.step hm) hrest
    exact ⟨⟨hi.sound hm, hlossless⟩, hlast⟩

/-- Pixels are owed, and nothing will ask for them again. -/
structure Lost (r : Run) : Prop where
  ready : r.display.ready = true
  dirty : r.display.dirty = false
  fullRedraw : r.display.fullRedraw = false
  modeChanged : r.display.modeChanged = false
  lcdActive : r.display.lcdActive = false
  onScreen : r.owed ⊆ screen
  owed : r.owed.Nonempty

theorem drawn_lost {d : Display} {region owed : Set Pixel} {res : Display × List Span}
    (h : Display.Drawn d false region res) (hready : d.ready = true) (hdirty : d.dirty = false)
    (hfull : res.1.fullRedraw = false) (hmode : d.modeChanged = false) (hon : owed ⊆ screen)
    (hne : owed.Nonempty) : Lost ⟨res.1, owed \ copied res.2⟩ where
  ready := h.ready.trans hready
  dirty := h.dirty.trans hdirty
  fullRedraw := hfull
  modeChanged := h.modeChanged.trans hmode
  lcdActive := h.active
  onScreen := Set.sdiff_subset.trans hon
  owed := by
    rw [h.idle rfl, diff_nil]
    exact hne

theorem Inv.lost (hi : r.Inv) (blit : LcdBlit) (op : Op) (hm : ¬r.Meets op) : (r.step blit op).Lost := by
  cases op with
  | redraw rect now lcdInit =>
    simp only [Meets, Classical.not_imp] at hm
    obtain ⟨hready, hne, hinit⟩ := hm
    have hdirty : r.display.dirty = false := by
      rw [← Bool.not_eq_true]
      intro h
      exact absurd ((hi.ready h).symm.trans hready) (by decide)
    have hfull : r.display.fullRedraw = false := by
      rw [← Bool.not_eq_true]
      intro h
      exact absurd ((hi.full h).1.symm.trans hdirty) (by decide)
    have hdraw : r.draw blit (.redraw rect now lcdInit) =
        { r.display with ready := true, modeChanged := false }.drawFrame blit now lcdInit true :=
      if_pos hready
    have hdrawn := Display.drawn_frame (d := { r.display with ready := true, modeChanged := false })
      blit now lcdInit true rfl
    rw [Display.claimLcd_active, if_pos (.inl rfl), Bool.eq_false_of_not_eq_true hinit] at hdrawn
    unfold Run.step
    rw [hdraw, hi.fresh hready, Set.empty_union, Bool.eq_false_of_not_eq_true hinit]
    exact drawn_lost hdrawn rfl hdirty (hdrawn.fullRedraw.trans hfull) rfl Set.inter_subset_right hne
  | flush now lcdInit =>
    simp only [Meets, Classical.not_imp, not_or] at hm
    obtain ⟨hdirty, hne, hmode, hattempt, hinit⟩ := hm
    have hdrawn := hi.drawn_pending blit now lcdInit hdirty
    rw [if_pos hattempt, Bool.eq_false_of_not_eq_true hinit] at hdrawn
    rw [step_flush now lcdInit hdirty, Bool.eq_false_of_not_eq_true hinit]
    have hcleared : Display.Drawn { r.display with dirty := false, fullRedraw := false } false
        r.display.box.pixels
        ({ (drawPending blit now false r.display).1 with fullRedraw := false },
          (drawPending blit now false r.display).2) :=
      { hdrawn with fullRedraw := rfl }
    exact drawn_lost hcleared (hi.ready hdirty) rfl rfl (Bool.eq_false_of_not_eq_true hmode)
      hi.onScreen hne
  | modeChanged => exact absurd trivial hm
  | keep now lcdInit => exact absurd trivial hm

/-- A callback for one pixel and a flush that claims the LCD. -/
def probe (q : Pixel) (now : BitVec 64) : List Op :=
  [.redraw ⟨q.1, q.2, 1, 1⟩ now true, .flush now true]

theorem clip_pixel {q : Pixel} (hq : q ∈ screen) :
    Rect.clip ⟨q.1, q.2, 1, 1⟩ = some ⟨q.1, q.2, 1, 1⟩ := by
  obtain ⟨h1, h2, h3, h4⟩ := hq
  unfold Rect.clip clipLow clipHigh
  simp only
  rw [if_neg (show ¬q.1 < 0 by omega), if_neg (show ¬q.2 < 0 by omega)]
  simp only
  rw [if_neg (by omega), if_neg (by omega), if_neg (by omega)]

theorem Lost.missed (h : r.Lost) {p q : Pixel} (hp : p ∈ r.owed) (hq : q ∈ screen) (hne : p ≠ q)
    (now : BitVec 64) : ¬r.Lossless blit (probe q now) := by
  -- the callback queues its pixel
  have hqueue : r.step blit (.redraw ⟨q.1, q.2, 1, 1⟩ now true) =
      ⟨{ r.display with box := ⟨q.1, q.2, 1, 1⟩, dirty := true },
        r.owed ∪ Rect.pixels ⟨q.1, q.2, 1, 1⟩ ∩ screen⟩ := by
    have hdraw : r.draw blit (.redraw ⟨q.1, q.2, 1, 1⟩ now true) =
        ({ r.display with box := ⟨q.1, q.2, 1, 1⟩, dirty := true }, []) := by
      show r.display.redraw blit now true ⟨q.1, q.2, 1, 1⟩ = _
      unfold Display.redraw Display.queueRedraw
      rw [if_neg (by rw [h.ready]; decide), if_neg (by rw [h.modeChanged]; decide),
        if_neg (by rw [h.ready]; decide), if_neg (fun hw => absurd hw.2.2.1 (show ¬(1 : Int) ≥ SCREEN_WIDTH by decide)), clip_pixel hq]
      simp only
      rw [if_neg (by rw [h.fullRedraw]; decide), if_pos h.dirty]
    unfold step
    rw [hdraw, diff_nil]
    rfl
  -- the flush claims the LCD and copies that pixel alone
  intro hlossless
  obtain ⟨-, hsound, -⟩ := hlossless
  rw [hqueue] at hsound
  have hdirty : (Run.mk { r.display with box := ⟨q.1, q.2, 1, 1⟩, dirty := true }
      (r.owed ∪ Rect.pixels ⟨q.1, q.2, 1, 1⟩ ∩ screen)).display.dirty = true := rfl
  have hclaim : Display.claimLcd
      { r.display with box := ⟨q.1, q.2, 1, 1⟩, dirty := false } false now true =
      ({ r.display with
          box := ⟨q.1, q.2, 1, 1⟩, dirty := false, lcdActive := true, lastClaimMs := now }, true) :=
    if_pos (.inr (.inl h.lcdActive))
  have hpending : drawPending blit now true
      { r.display with box := ⟨q.1, q.2, 1, 1⟩, dirty := true } =
      ({ r.display with
          box := ⟨q.1, q.2, 1, 1⟩, dirty := false, lcdActive := true, lastClaimMs := now
          lastDrawMs := now }, [⟨q.2 * SCREEN_WIDTH + q.1 + 0 * SCREEN_WIDTH, 1⟩]) := by
    unfold drawPending Display.drawRegion
    rw [if_neg (by rw [h.fullRedraw]; decide),
      if_neg (show ¬(1 : Int) * 1 ≥ REDRAW_AREA by decide)]
    simp only [hclaim, if_true]
    rw [if_neg (show ¬(1 : Int) = SCREEN_WIDTH by decide)]
    rfl
  have hsettled := hsound.settles now true rfl rfl (by
    rw [draw_flush now true hdirty, hpending])
  rw [step_flush now true hdirty, hpending] at hsettled
  have hmem : p ∈ (∅ : Set Pixel) := by
    rw [← hsettled]
    refine ⟨.inl hp, ?_⟩
    rintro ⟨s, hs, hon, hlow, hhigh⟩
    obtain rfl := List.mem_singleton.mp hs
    obtain ⟨h1, h2, h3, h4⟩ := hq
    obtain ⟨h5, h6, h7, h8⟩ := hon
    unfold SCREEN_WIDTH SCREEN_HEIGHT at *
    apply hne
    apply Prod.ext
    · simp only at hlow hhigh
      omega
    · simp only at hlow hhigh
      omega
  exact hmem

theorem Lost.exists_missed (h : r.Lost) (blit : LcdBlit) (now : BitVec 64) :
    ∃ q ∈ screen, ¬r.Lossless blit (probe q now) := by
  obtain ⟨p, hp⟩ := h.owed
  by_cases hzero : p = (0, 0)
  · have hone : ((1, 0) : Pixel) ∈ screen := ⟨by decide, by decide, by decide, by decide⟩
    refine ⟨(1, 0), hone, h.missed hp hone ?_ now⟩
    rw [hzero]
    decide
  · have hone : ((0, 0) : Pixel) ∈ screen := ⟨by decide, by decide, by decide, by decide⟩
    exact ⟨(0, 0), hone, h.missed hp hone hzero now⟩

theorem lossless_append {ops more : List Op} (h : r.Lossless blit (ops ++ more)) :
    (r.run blit ops).Lossless blit more := by
  induction ops generalizing r with
  | nil => exact h
  | cons op ops ih => exact ih h.2

/-- As long as the condition holds, a flush that claims the LCD leaves nothing to draw, and every
copy stays on the screen. One step outside it loses pixels: a later callback for a single pixel
shows that. -/
theorem no_update_lost (blit : LcdBlit) {ops : List Op} (h : start.AllMeet blit ops) :
    start.Lossless blit ops ∧ ∀ op, ¬(start.run blit ops).Meets op → ∀ now,
      ∃ q ∈ screen, ¬start.Lossless blit (ops ++ op :: probe q now) := by
  obtain ⟨hlossless, hinv⟩ := inv_start.run h
  refine ⟨hlossless, fun op hm now => ?_⟩
  obtain ⟨q, hq, hmissed⟩ := (hinv.lost blit op hm).exists_missed blit now
  exact ⟨q, hq, fun hall => hmissed (lossless_append hall).2⟩

def blitOnce : LcdBlit where
  spans := [⟨0, 76800⟩]
  inside s hs := by
    obtain rfl := List.mem_singleton.mp hs
    constructor <;> decide
  whole := by
    rintro p ⟨h1, h2, h3, h4⟩
    refine ⟨_, List.mem_singleton_self _, ⟨h1, h2, h3, h4⟩, ?_, ?_⟩
    · simp only [SCREEN_WIDTH] at *
      omega
    · simp only [SCREEN_WIDTH, SCREEN_HEIGHT] at *
      omega

/-- The first frame, and a small rectangle. -/
def opening : List Op := [.redraw wholeScreen 1 true, .redraw ⟨10, 10, 5, 5⟩ 2 true]

/-- A claim fails behind a mode change, and the next callback makes up for it. -/
theorem no_update_lost_mode_change : start.Lossless blitOnce
    (opening ++ [.modeChanged, .flush 300 false, .redraw ⟨50, 50, 5, 5⟩ 301 true,
      .flush 302 true]) := by
  have hmeet : start.AllMeet blitOnce
      (opening ++ [.modeChanged, .flush 300 false, .redraw ⟨50, 50, 5, 5⟩ 301 true,
        .flush 302 true]) :=
    ⟨fun _ _ => rfl, fun _ _ => rfl, trivial, fun _ _ => .inl rfl, fun _ _ => rfl,
      fun _ _ => .inr fun _ => rfl, trivial⟩
  exact (no_update_lost blitOnce hmeet).1

/-- Without one, a flush whose claim fails loses its rectangle. -/
theorem not_lossless_failed_claim : ¬start.Lossless blitOnce
    (opening ++ .flush 300 false :: probe (50, 50) 301) := by
  have hmem : ((10, 10) : Pixel) ∈ (start.run blitOnce opening).owed := by
    refine ⟨.inr ⟨?_, ?_⟩, ?_⟩
    · exact ⟨by decide, by decide, by decide, by decide⟩
    · exact ⟨by decide, by decide, by decide, by decide⟩
    · show ((10, 10) : Pixel) ∉ copied []
      rw [copied_nil]
      exact Set.notMem_empty _
  have hmeet : start.AllMeet blitOnce opening := ⟨fun _ _ => rfl, fun _ _ => rfl, trivial⟩
  have hlost := (inv_start.run hmeet).2.lost blitOnce (.flush 300 false) fun hm => by
    rcases hm rfl ⟨_, hmem⟩ with hmode | hclaim
    · cases hmode
    · cases hclaim (by decide)
  have howed : ((10, 10) : Pixel) ∈
      ((start.run blitOnce opening).step blitOnce (.flush 300 false)).owed := by
    refine ⟨.inl hmem, ?_⟩
    show ((10, 10) : Pixel) ∉ copied []
    rw [copied_nil]
    exact Set.notMem_empty _
  have hprobe : ((50, 50) : Pixel) ∈ screen := ⟨by decide, by decide, by decide, by decide⟩
  intro hall
  exact hlost.missed howed hprobe (by decide) 301 (lossless_append hall).2

end Run

end Winspire.Frontend.Lcd
