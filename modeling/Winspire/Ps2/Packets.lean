import Winspire.Ps2.Mouse

/-!
# Whole packets

What one event puts into the queue, when it fits, and what a run of events and reads keeps.
-/

namespace Winspire.Ps2

set_option autoImplicit false

def hasWheel (type : BitVec 8) : Prop := type = 3 ∨ type = 4

instance (type : BitVec 8) : Decidable (hasWheel type) := by
  unfold hasWheel
  infer_instance

def packetLength (type : BitVec 8) : Nat := if hasWheel type then 4 else 3

theorem length_packetBytes (type buttons : BitVec 8) (dx dy dz : Int) :
    (packetBytes type buttons dx dy dz).length = packetLength type := by
  unfold packetBytes wheelByte packetLength
  by_cases h3 : type = 3
  · have hw : hasWheel type := Or.inl h3
    rw [if_pos h3, if_pos hw]
    rfl
  · by_cases h4 : type = 4
    · have hw : hasWheel type := Or.inr h4
      rw [if_neg h3, if_pos h4, if_pos hw]
      rfl
    · have hw : ¬ hasWheel type := not_or.mpr ⟨h3, h4⟩
      rw [if_neg h3, if_neg h4, if_neg hw]
      rfl

theorem axis_signBit {d : Int} (hl : -127 ≤ d) (hu : d ≤ 127) :
    axis (decide (d < 0)) (BitVec.ofInt 8 d) = d := by
  unfold axis
  by_cases h : d < 0
  · simp only [h, decide_true, if_true, BitVec.toNat_ofInt]
    omega
  · simp only [h, decide_false, Bool.false_eq_true, if_false, BitVec.toNat_ofInt]
    omega

theorem first_signs (buttons : BitVec 8) (dx dy : Int) :
    (0x08#8 ||| signBit 4 dx ||| signBit 5 dy ||| (buttons &&& 0x07#8)).getLsbD 4 = decide (dx < 0) ∧
    (0x08#8 ||| signBit 4 dx ||| signBit 5 dy ||| (buttons &&& 0x07#8)).getLsbD 5 = decide (dy < 0) := by
  unfold signBit
  by_cases hx : dx < 0 <;> by_cases hy : dy < 0 <;> simp [hx, hy]

theorem toInt_wheel {d : Int} (hl : -127 ≤ d) (hu : d ≤ 127) : (BitVec.ofInt 8 d).toInt = d := by
  rw [BitVec.toInt_ofInt, Int.bmod_def]
  split <;> omega

theorem toInt_nibble (buttons : BitVec 8) {d : Int} (hl : -7 ≤ d) (hu : d ≤ 7) :
    (((BitVec.ofInt 8 d &&& 0x0f#8) ||| ((buttons &&& 0x18#8) <<< 1)).setWidth 4).toInt = d := by
  have hbuttons : ((buttons &&& 0x18#8) <<< 1).setWidth 4 = 0#4 := by
    apply BitVec.eq_of_getLsbD_eq
    intro i hi
    rcases (by omega : i = 0 ∨ i = 1 ∨ i = 2 ∨ i = 3) with rfl | rfl | rfl | rfl <;> simp
  have hlow : (BitVec.ofInt 8 d &&& 0x0f#8).setWidth 4 = BitVec.ofInt 4 d := by
    apply BitVec.eq_of_toNat_eq
    simp only [BitVec.toNat_setWidth, BitVec.toNat_and, BitVec.toNat_ofInt]
    show ((d % (2 ^ 8 : Nat)).toNat &&& 2 ^ 4 - 1) % 2 ^ 4 = _
    rw [Nat.and_two_pow_sub_one_eq_mod]
    omega
  rw [BitVec.setWidth_or, hbuttons, hlow, BitVec.or_zero, BitVec.toInt_ofInt, Int.bmod_def]
  split <;> omega

theorem clamp_le {m : Int} (hm : 0 < m) (d : Int) : -m ≤ clamp m d ∧ clamp m d ≤ m := by
  unfold clamp
  split
  · omega
  · split <;> omega

def wheelMotion (type : BitVec 8) (dz : Int) : Int :=
  if hasWheel type then clampWheel type dz else 0

def firstMotion (s : PS2MouseState) : Motion :=
  ⟨clamp 127 s.mouseDx, clamp 127 s.mouseDy, wheelMotion s.mouseType s.mouseDz⟩

def firstBytes (s : PS2MouseState) : List (BitVec 8) :=
  packetBytes s.mouseType s.mouseButtons (clamp 127 s.mouseDx) (clamp 127 s.mouseDy)
    (clampWheel s.mouseType s.mouseDz)

theorem packets_firstBytes (s : PS2MouseState) :
    packets s.mouseType (firstBytes s) = some [firstMotion s] := by
  have hx := clamp_le (show (0 : Int) < 127 by decide) s.mouseDx
  have hy := clamp_le (show (0 : Int) < 127 by decide) s.mouseDy
  have hsign := first_signs s.mouseButtons (clamp 127 s.mouseDx) (clamp 127 s.mouseDy)
  have haxisX := axis_signBit hx.1 hx.2
  have haxisY := axis_signBit hy.1 hy.2
  unfold packets firstBytes packetBytes wheelByte firstMotion wheelMotion clampWheel
  by_cases h3 : s.mouseType = 3
  · have hw : hasWheel s.mouseType := Or.inl h3
    have hz := clamp_le (show (0 : Int) < 127 by decide) s.mouseDz
    simp only [if_pos h3, if_pos hw, List.cons_append, List.nil_append, wheelPackets,
      Option.map_some, hsign.1, hsign.2, haxisX, haxisY, toInt_wheel hz.1 hz.2]
  · by_cases h4 : s.mouseType = 4
    · have hw : hasWheel s.mouseType := Or.inr h4
      have hz := clamp_le (show (0 : Int) < 7 by decide) s.mouseDz
      simp only [if_neg h3, if_pos h4, if_pos hw, List.cons_append, List.nil_append,
        wheelPackets, Option.map_some, hsign.1, hsign.2, haxisX, haxisY, toInt_nibble _ hz.1 hz.2]
    · have hw : ¬ hasWheel s.mouseType := not_or.mpr ⟨h3, h4⟩
      simp only [if_neg h3, if_neg h4, if_neg hw, List.append_nil,
        plainPackets, Option.map_some, hsign.1, hsign.2, haxisX, haxisY]

theorem plainPackets_append {as : List (BitVec 8)} {ps : List Motion}
    (h : plainPackets as = some ps) (bs : List (BitVec 8)) :
    plainPackets (as ++ bs) = (plainPackets bs).map (ps ++ ·) := by
  induction as using plainPackets.induct generalizing ps with
  | case1 =>
    obtain rfl : [] = ps := by simpa [plainPackets] using h
    simp
  | case2 b x y rest ih =>
    simp only [plainPackets, Option.map_eq_some_iff] at h
    obtain ⟨qs, hqs, rfl⟩ := h
    simp only [List.cons_append, plainPackets, ih hqs, Option.map_map]
    rfl
  | case3 as h1 h2 =>
    unfold plainPackets at h
    split at h
    · exact absurd rfl h1
    · rename_i b x y rest
      exact absurd rfl (h2 b x y rest)
    · cases h

theorem wheelPackets_append {wheel : BitVec 8 → Int} {as : List (BitVec 8)} {ps : List Motion}
    (h : wheelPackets wheel as = some ps) (bs : List (BitVec 8)) :
    wheelPackets wheel (as ++ bs) = (wheelPackets wheel bs).map (ps ++ ·) := by
  induction as using wheelPackets.induct generalizing ps with
  | case1 =>
    obtain rfl : [] = ps := by simpa [wheelPackets] using h
    simp
  | case2 b x y z rest ih =>
    simp only [wheelPackets, Option.map_eq_some_iff] at h
    obtain ⟨qs, hqs, rfl⟩ := h
    simp only [List.cons_append, wheelPackets, ih hqs, Option.map_map]
    rfl
  | case3 as h1 h2 =>
    unfold wheelPackets at h
    split at h
    · exact absurd rfl h1
    · rename_i b x y z rest
      exact absurd rfl (h2 b x y z rest)
    · cases h

theorem packets_append {type : BitVec 8} {as bs : List (BitVec 8)} {ps qs : List Motion}
    (ha : packets type as = some ps) (hb : packets type bs = some qs) :
    packets type (as ++ bs) = some (ps ++ qs) := by
  unfold packets at ha hb ⊢
  split at ha
  · rename_i h
    rw [if_pos h] at hb ⊢
    rw [wheelPackets_append ha, hb, Option.map_some]
  · rename_i h
    rw [if_neg h] at hb ⊢
    split at ha
    · rename_i h'
      rw [if_pos h'] at hb ⊢
      rw [wheelPackets_append ha, hb, Option.map_some]
    · rename_i h'
      rw [if_neg h'] at hb ⊢
      rw [plainPackets_append ha, hb, Option.map_some]

theorem packets_nil (type : BitVec 8) : packets type [] = some [] := by
  unfold packets
  split
  · rfl
  · split <;> rfl

theorem total_append (axis : Motion → Int) (as bs : List Motion) :
    total axis (as ++ bs) = total axis as + total axis bs := by
  simp [total]

/-- Between the two states exactly `bytes` were queued; they are the packets `ps`, and these took
their motion out of what was pending. -/
structure Sent (s s' : PS2MouseState) (bytes : List (BitVec 8)) (ps : List Motion) : Prop where
  type_eq : s'.mouseType = s.mouseType
  status_eq : s'.mouseStatus = s.mouseStatus
  queue_eq : s'.common.queue = s.common.queue.pushAll bytes
  packets_eq : packets s.mouseType bytes = some ps
  dx : total Motion.dx ps + s'.mouseDx = s.mouseDx
  dy : total Motion.dy ps + s'.mouseDy = s.mouseDy
  dz : hasWheel s.mouseType → total Motion.dz ps + s'.mouseDz = s.mouseDz

theorem Sent.refl (s : PS2MouseState) : Sent s s [] [] where
  type_eq := rfl
  status_eq := rfl
  queue_eq := rfl
  packets_eq := packets_nil _
  dx := Int.zero_add _
  dy := Int.zero_add _
  dz _ := Int.zero_add _

theorem Sent.trans {s t u : PS2MouseState} {as bs : List (BitVec 8)} {ps qs : List Motion}
    (h : Sent s t as ps) (h' : Sent t u bs qs) : Sent s u (as ++ bs) (ps ++ qs) where
  type_eq := h'.type_eq.trans h.type_eq
  status_eq := h'.status_eq.trans h.status_eq
  queue_eq := by rw [h'.queue_eq, h.queue_eq, Ring.pushAll_append]
  packets_eq := packets_append h.packets_eq (h.type_eq ▸ h'.packets_eq)
  dx := by rw [total_append, Int.add_assoc, h'.dx, h.dx]
  dy := by rw [total_append, Int.add_assoc, h'.dy, h.dy]
  dz hw := by rw [total_append, Int.add_assoc, h'.dz (h.type_eq ▸ hw), h.dz hw]

theorem sent_sendPacket (s : PS2MouseState) :
    Sent s (ps2MouseSendPacket s) (firstBytes s) [firstMotion s] where
  type_eq := rfl
  status_eq := rfl
  queue_eq := queue_foldl_ps2Queue _ _
  packets_eq := packets_firstBytes s
  dx := by
    simp only [total, firstMotion, ps2MouseSendPacket, List.map_cons, List.map_nil,
      List.sum_cons, List.sum_nil]
    omega
  dy := by
    simp only [total, firstMotion, ps2MouseSendPacket, List.map_cons, List.map_nil,
      List.sum_cons, List.sum_nil]
    omega
  dz hw := by
    simp only [total, firstMotion, wheelMotion, if_pos hw, ps2MouseSendPacket, List.map_cons,
      List.map_nil, List.sum_cons, List.sum_nil]
    omega

/-- Packets of at most `m` that a delta takes. -/
def turns (m : Nat) (d : Int) : Nat := (d.natAbs + (m - 1)) / m

def wheelTurns (type : BitVec 8) (dz : Int) : Nat :=
  if type = 3 then turns 127 dz else if type = 4 then turns 7 dz else 0

/-- An event without motion still sends its buttons. -/
def packetCount (s : PS2MouseState) : Nat :=
  max 1 (max (max (turns 127 s.mouseDx) (turns 127 s.mouseDy)) (wheelTurns s.mouseType s.mouseDz))

theorem turns_sub_clamp {m : Nat} {k : Int} (hk : k = m) (hm : 0 < m) (d : Int) :
    turns m (d - clamp k d) = turns m d - 1 := by
  subst hk
  unfold turns
  by_cases h : d.natAbs ≤ m
  · have hz : d - clamp m d = 0 := by
      unfold clamp
      split
      · omega
      · split <;> omega
    have hlt : (d.natAbs + (m - 1)) / m < 2 := Nat.div_lt_of_lt_mul (by omega)
    have hzero : (m - 1) / m = 0 := Nat.div_eq_of_lt (by omega)
    rw [hz, Int.natAbs_zero, Nat.zero_add, hzero]
    omega
  · have hn : d.natAbs + (m - 1) = (d - clamp m d).natAbs + (m - 1) + m := by
      unfold clamp
      split
      · omega
      · split <;> omega
    rw [hn, Nat.add_div_right _ hm, Nat.add_sub_cancel]

theorem turns_eq_zero {m : Nat} (hm : 0 < m) {d : Int} : turns m d = 0 ↔ d = 0 := by
  unfold turns
  rw [Nat.div_eq_zero_iff]
  omega

theorem turns_axis (d : Int) : turns 127 (d - clamp 127 d) = turns 127 d - 1 :=
  turns_sub_clamp rfl (by decide) d

theorem wheelTurns_sub_clamp (type : BitVec 8) (dz : Int) :
    wheelTurns type (dz - clampWheel type dz) = wheelTurns type dz - 1 := by
  unfold wheelTurns clampWheel
  split
  · exact turns_sub_clamp rfl (by decide) dz
  · split
    · exact turns_sub_clamp rfl (by decide) dz
    · rfl

/-- The plain mouse drops its whole `mouse_dz` with the first packet. -/
theorem wheelTurns_eq_zero (type : BitVec 8) (dz : Int) :
    wheelTurns type (dz - clampWheel type dz) = 0 ↔ dz - clampWheel type dz = 0 := by
  unfold wheelTurns clampWheel
  split
  · exact turns_eq_zero (by decide)
  · split
    · exact turns_eq_zero (by decide)
    · simp

theorem packetCount_sendPacket (s : PS2MouseState) :
    packetCount (ps2MouseSendPacket s) = max 1 (packetCount s - 1) := by
  simp only [packetCount, ps2MouseSendPacket, wheelTurns_sub_clamp, turns_axis]
  omega

theorem still_sendPacket_iff (s : PS2MouseState) :
    (ps2MouseSendPacket s).still ↔ packetCount s = 1 := by
  have hx := turns_eq_zero (d := s.mouseDx - clamp 127 s.mouseDx) (show 0 < 127 by decide)
  have hy := turns_eq_zero (d := s.mouseDy - clamp 127 s.mouseDy) (show 0 < 127 by decide)
  have hz := wheelTurns_eq_zero s.mouseType s.mouseDz
  rw [turns_axis] at hx hy
  rw [wheelTurns_sub_clamp] at hz
  simp only [PS2MouseState.still, ps2MouseSendPacket, ← hx, ← hy, ← hz, packetCount]
  omega

theorem sendPackets_sent (s : PS2MouseState) :
    ∃ bytes ps, Sent s (sendPackets s) bytes ps ∧
      bytes.length = packetLength s.mouseType * packetCount s := by
  induction s using sendPackets.induct with
  | case1 s h =>
    refine ⟨firstBytes s, [firstMotion s], ?_, ?_⟩
    · rw [sendPackets, if_pos h]
      exact sent_sendPacket s
    · rw [(still_sendPacket_iff s).mp h, Nat.mul_one]
      exact length_packetBytes _ _ _ _ _
  | case2 s h ih =>
    rcases ih with ⟨bytes, ps, hsent, hlen⟩
    refine ⟨firstBytes s ++ bytes, [firstMotion s] ++ ps, ?_, ?_⟩
    · rw [sendPackets, if_neg h]
      exact (sent_sendPacket s).trans hsent
    · have hcount : packetCount s = packetCount (ps2MouseSendPacket s) + 1 := by
        have hone : packetCount s ≠ 1 := fun hc => h ((still_sendPacket_iff s).mpr hc)
        have hpos : 1 ≤ packetCount s := Nat.le_max_left _ _
        rw [packetCount_sendPacket]
        omega
      have hfirst : (firstBytes s).length = packetLength s.mouseType :=
        length_packetBytes _ _ _ _ _
      rw [List.length_append, hlen, hfirst, hcount, (sent_sendPacket s).type_eq, Nat.mul_add,
        Nat.mul_one, Nat.add_comm]

def Enabled (s : PS2MouseState) : Prop := s.mouseStatus &&& MOUSE_STATUS_ENABLED ≠ 0

instance (s : PS2MouseState) : Decidable (Enabled s) := by
  unfold Enabled
  infer_instance

/-- The packets of an event that sends find room in the queue. -/
def Fits (s : PS2MouseState) : MouseOp → Prop
  | .event dx dy dz _ => s.sends →
    s.common.queue.count + packetLength s.mouseType * packetCount (s.record dx dy dz) ≤
      PS2_QUEUE_SIZE
  | .read => True

instance (s : PS2MouseState) (op : MouseOp) : Decidable (Fits s op) := by
  cases op <;> unfold Fits <;> infer_instance

/-- The deltas recorded, and the buttons of the event. -/
def PS2MouseState.press (s : PS2MouseState) (dx dy dz buttonsState : Int) : PS2MouseState :=
  { s.record dx dy dz with mouseButtons := BitVec.ofInt 8 buttonsState }

theorem ps2MouseEvent_cases {s : PS2MouseState} (he : Enabled s)
    (dx dy dz buttons : Int) :
    ps2MouseEvent s dx dy dz buttons = s.record dx dy dz ∨
    ps2MouseEvent s dx dy dz buttons = s.press dx dy dz buttons ∨
    s.sends ∧ ps2MouseEvent s dx dy dz buttons = sendPackets (s.press dx dy dz buttons) := by
  unfold ps2MouseEvent
  rw [if_neg he]
  by_cases hnull : (s.record dx dy dz).still ∧ (s.mouseButtons.toNat : Int) = buttons
  · exact Or.inl (if_pos hnull)
  · by_cases hs : s.sends
    · exact Or.inr (Or.inr ⟨hs, (if_neg hnull).trans (if_pos hs)⟩)
    · exact Or.inr (Or.inl ((if_neg hnull).trans (if_neg hs)))

theorem Sent.press {s s' : PS2MouseState} {bytes : List (BitVec 8)} {ps : List Motion}
    {dx dy dz buttons : Int} (h : Sent (s.press dx dy dz buttons) s' bytes ps) :
    Sent (s.record dx dy dz) s' bytes ps :=
  ⟨h.type_eq, h.status_eq, h.queue_eq, h.packets_eq, h.dx, h.dy, h.dz⟩

theorem ps2MouseEvent_sent {s : PS2MouseState}
    (he : Enabled s) (dx dy dz buttons : Int) :
    ∃ bytes ps, Sent (s.record dx dy dz) (ps2MouseEvent s dx dy dz buttons) bytes ps ∧
      (Fits s (.event dx dy dz buttons) →
        s.common.queue.count + bytes.length ≤ PS2_QUEUE_SIZE) := by
  have hidle : s.common.queue.count + ([] : List (BitVec 8)).length ≤ PS2_QUEUE_SIZE :=
    s.common.queue.count_le
  rcases ps2MouseEvent_cases he dx dy dz buttons with h | h | ⟨hs, h⟩
  · rw [h]
    exact ⟨[], [], Sent.refl _, fun _ => hidle⟩
  · rw [h]
    exact ⟨[], [], (Sent.refl _).press, fun _ => hidle⟩
  · rw [h]
    rcases sendPackets_sent (s.press dx dy dz buttons) with ⟨bytes, ps, hsent, hlen⟩
    refine ⟨bytes, ps, hsent.press, ?_⟩
    intro hf
    rw [hlen]
    exact hf hs

theorem status_step (r : MouseRun) (op : MouseOp) :
    (r.step op).mouse.mouseStatus = r.mouse.mouseStatus := by
  cases op with
  | read => rfl
  | event dx dy dz buttons =>
    show (ps2MouseEvent r.mouse dx dy dz buttons).mouseStatus = _
    by_cases he : r.mouse.mouseStatus &&& MOUSE_STATUS_ENABLED = 0
    · unfold ps2MouseEvent
      rw [if_pos he]
    · rcases ps2MouseEvent_sent he dx dy dz buttons with ⟨bytes, ps, hsent, -⟩
      exact hsent.status_eq

theorem bytes_read (r : MouseRun) : (r.step .read).bytes = r.bytes := by
  unfold MouseRun.step MouseRun.bytes ps2ReadData
  by_cases h : r.mouse.common.queue.count = 0
  · simp only [if_pos h]
  · simp only [if_neg h]
    rw [Ring.contents_pop (Nat.pos_of_ne_zero h), List.append_assoc, List.singleton_append]

theorem Intact.event {r : MouseRun} {moved : List Motion} {dx dy dz buttons : Int}
    (hi : Intact r moved) (he : Enabled r.mouse) (hf : Fits r.mouse (.event dx dy dz buttons)) :
    Intact (r.step (.event dx dy dz buttons)) (moved ++ [⟨dx, -dy, dz⟩]) := by
  rcases ps2MouseEvent_sent he dx dy dz buttons with ⟨bytes, qs, hsent, hroom⟩
  rcases hi.whole with ⟨ps, hps, hx, hy, hz⟩
  have htype : (r.step (.event dx dy dz buttons)).mouse.mouseType = r.mouse.mouseType :=
    hsent.type_eq
  have hbytes : (r.step (.event dx dy dz buttons)).bytes = r.bytes ++ bytes := by
    have hq : (r.step (.event dx dy dz buttons)).mouse.common.queue =
        r.mouse.common.queue.pushAll bytes := hsent.queue_eq
    unfold MouseRun.bytes
    rw [hq, Ring.contents_pushAll (hroom hf), List.append_assoc]
    rfl
  have hdx : total Motion.dx qs + (r.step (.event dx dy dz buttons)).mouse.mouseDx =
      r.mouse.mouseDx + dx := hsent.dx
  have hdy : total Motion.dy qs + (r.step (.event dx dy dz buttons)).mouse.mouseDy =
      r.mouse.mouseDy - dy := hsent.dy
  have hdz : hasWheel r.mouse.mouseType →
      total Motion.dz qs + (r.step (.event dx dy dz buttons)).mouse.mouseDz =
        r.mouse.mouseDz + dz := hsent.dz
  have hone : ∀ axis : Motion → Int, total axis [⟨dx, -dy, dz⟩] = axis ⟨dx, -dy, dz⟩ := by
    intro axis
    simp [total]
  refine ⟨ps ++ qs, ?_, ?_, ?_, ?_⟩
  · rw [htype, hbytes]
    exact packets_append hps hsent.packets_eq
  · rw [total_append, total_append, hone]
    show _ = _ + dx
    omega
  · rw [total_append, total_append, hone]
    show _ = _ + -dy
    omega
  · intro hw
    rw [htype] at hw
    have hw' := hdz hw
    have hw'' := hz hw
    rw [total_append, total_append, hone]
    show _ = _ + dz
    omega

theorem Intact.read {r : MouseRun} {moved : List Motion} (hi : Intact r moved) :
    Intact (r.step .read) (moved ++ [⟨0, 0, 0⟩]) := by
  rcases hi.whole with ⟨ps, hps, hx, hy, hz⟩
  have hzero : ∀ axis : Motion → Int, axis ⟨0, 0, 0⟩ = 0 →
      total axis (moved ++ [⟨0, 0, 0⟩]) = total axis moved := by
    intro axis h
    simp [total, h]
  refine ⟨ps, ?_, ?_, ?_, ?_⟩
  · rw [bytes_read]
    exact hps
  · rw [hzero _ rfl]
    exact hx
  · rw [hzero _ rfl]
    exact hy
  · rw [hzero _ rfl]
    exact hz

theorem Intact.step {r : MouseRun} {moved : List Motion} {op : MouseOp} (hi : Intact r moved)
    (he : Enabled r.mouse) (hf : Fits r.mouse op) : Intact (r.step op) (moved ++ [op.motion]) := by
  cases op with
  | event dx dy dz buttons => exact hi.event he hf
  | read => exact hi.read

def MouseRun.run (r : MouseRun) (ops : List MouseOp) : MouseRun := ops.foldl MouseRun.step r

/-- Every step of the run meets `Fits`. -/
def AllFit : MouseRun → List MouseOp → Prop
  | _, [] => True
  | r, op :: ops => Fits r.mouse op ∧ AllFit (r.step op) ops

theorem Intact.run {r : MouseRun} {moved : List Motion} {ops : List MouseOp} (hi : Intact r moved)
    (he : Enabled r.mouse) (hf : AllFit r ops) :
    Intact (r.run ops) (moved ++ ops.map MouseOp.motion) := by
  induction ops generalizing r moved with
  | nil =>
    rw [List.map_nil, List.append_nil]
    exact hi
  | cons op ops ih =>
    have he' : Enabled (r.step op).mouse := by
      unfold Enabled
      rw [status_step]
      exact he
    have hrest := ih (hi.step he hf.1) he' hf.2
    rw [List.append_assoc, List.singleton_append] at hrest
    exact hrest

/-- From an empty queue, with what was pending counted as motion. -/
theorem intact_run {s : PS2MouseState} {ops : List MouseOp} (hq : s.common.queue.count = 0)
    (he : Enabled s) (hf : AllFit ⟨s, []⟩ ops) :
    Intact (MouseRun.run ⟨s, []⟩ ops)
      (⟨s.mouseDx, s.mouseDy, s.mouseDz⟩ :: ops.map MouseOp.motion) := by
  have hstart : Intact ⟨s, []⟩ [⟨s.mouseDx, s.mouseDy, s.mouseDz⟩] := by
    refine ⟨[], ?_, ?_, ?_, ?_⟩
    · unfold MouseRun.bytes
      rw [Ring.contents_eq_nil hq]
      exact packets_nil _
    · simp [total]
    · simp [total]
    · simp [total]
  exact hstart.run he hf

/-- `ps2_mouse_init`, and `AUX_ENABLE_DEV` on a mouse without a wheel. -/
def enabledMouse : PS2MouseState :=
  { common := ⟨Ring.empty (fun _ => 0) queueSize_pos, false⟩
    mouseStatus := MOUSE_STATUS_ENABLED
    mouseType := 0
    mouseDx := 0
    mouseDy := 0
    mouseDz := 0
    mouseButtons := 0 }

/-- A drag that the queue takes, and the first byte of its packet read. -/
theorem intact_small_drag :
    Intact (MouseRun.run ⟨enabledMouse, []⟩ [.event 300 (-5) 0 1, .read])
      [⟨0, 0, 0⟩, ⟨300, 5, 0⟩, ⟨0, 0, 0⟩] :=
  intact_run rfl (by decide) ⟨by decide, trivial, trivial⟩

theorem length_plainPackets {bytes : List (BitVec 8)} {ps : List Motion}
    (h : plainPackets bytes = some ps) : bytes.length = 3 * ps.length := by
  induction bytes using plainPackets.induct generalizing ps with
  | case1 =>
    obtain rfl : [] = ps := by simpa [plainPackets] using h
    rfl
  | case2 b x y rest ih =>
    simp only [plainPackets, Option.map_eq_some_iff] at h
    rcases h with ⟨qs, hqs, rfl⟩
    simp only [List.length_cons, ih hqs]
    omega
  | case3 bytes h1 h2 =>
    unfold plainPackets at h
    split at h
    · exact absurd rfl h1
    · rename_i b x y rest
      exact absurd rfl (h2 b x y rest)
    · cases h

theorem event_from_empty (s : PS2MouseState) (dx dy dz buttons : Int) :
    MouseRun.run ⟨s, []⟩ [.event dx dy dz buttons] = ⟨ps2MouseEvent s dx dy dz buttons, []⟩ := rfl

theorem not_intact_full {m : PS2MouseState} {moved : List Motion} (ht : m.mouseType = 0)
    (hc : m.common.queue.count = 256) : ¬ Intact ⟨m, []⟩ moved := by
  intro hi
  rcases hi.whole with ⟨ps, hps, -⟩
  simp only [MouseRun.bytes, List.nil_append, ht] at hps
  have hplain : plainPackets m.common.queue.contents = some ps := hps
  have hthree := length_plainPackets hplain
  rw [Ring.length_contents, hc] at hthree
  omega

/-- 86 packets into an empty queue: the last keeps one byte. -/
theorem torn_packet :
    ¬ Intact (MouseRun.run ⟨enabledMouse, []⟩ [.event 10922 0 0 0])
      [⟨0, 0, 0⟩, ⟨10922, 0, 0⟩] := by
  have hmoves : ¬ ((enabledMouse.record 10922 0 0).still ∧
      ((enabledMouse.record 10922 0 0).mouseButtons.toNat : Int) = 0) := by decide
  have hsends : (enabledMouse.press 10922 0 0 0).sends := by decide
  have hevent : ps2MouseEvent enabledMouse 10922 0 0 0 =
      sendPackets (enabledMouse.press 10922 0 0 0) :=
    (if_neg (by decide)).trans ((if_neg hmoves).trans (if_pos hsends))
  have hpackets : packetCount (enabledMouse.press 10922 0 0 0) = 86 := by decide
  rcases sendPackets_sent (enabledMouse.press 10922 0 0 0) with ⟨bytes, qs, hsent, hlen⟩
  rw [event_from_empty, hevent]
  apply not_intact_full hsent.type_eq
  rw [hsent.queue_eq, Ring.count_pushAll, hlen, hpackets]
  rfl

end Winspire.Ps2
