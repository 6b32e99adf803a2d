import Winspire.Ps2.Keyboard

/-!
# Extended keys stay together

What each operation queues, the invariant of the code that is held back, and the runs in which no
reply of a command comes between a prefix and its code.
-/

namespace Winspire.Ps2

set_option autoImplicit false

section Enqueue
variable (s : PS2KbdState)

@[simp] theorem queue_enqueue (b : BitVec 32) :
    (s.enqueue b).common.queue = s.common.queue.push (b.setWidth 8) :=
  queue_ps2Queue s.common _

@[simp] theorem delay_enqueue (b : BitVec 32) : (s.enqueue b).delay = s.delay := rfl

@[simp] theorem delayKeycode_enqueue (b : BitVec 32) :
    (s.enqueue b).delayKeycode = s.delayKeycode := rfl

@[simp] theorem queue_release :
    s.release.common.queue = s.common.queue.push (s.delayKeycode.setWidth 8) :=
  queue_ps2Queue s.common _

@[simp] theorem delay_release : s.release.delay = false := rfl

end Enqueue

theorem replies_ne_nil (s : PS2KbdState) (val : BitVec 32) : replies s val ≠ [] := by
  unfold replies
  repeat' split
  all_goals exact List.cons_ne_nil _ _

/-- A command queues its replies and leaves the code that is held back alone. -/
theorem ps2WriteKeyboard_queues (s : PS2KbdState) (val : BitVec 32) :
    (ps2WriteKeyboard s val).common.queue = s.common.queue.pushAll (replies s val) ∧
      (ps2WriteKeyboard s val).delay = s.delay ∧
      (ps2WriteKeyboard s val).delayKeycode = s.delayKeycode := by
  unfold ps2WriteKeyboard replies
  by_cases hl : s.writeCmd = KBD_CMD_SET_LEDS
  · simp [hl, KBD_REPLY_ACK]
  by_cases hr : s.writeCmd = KBD_CMD_SET_RATE
  · simp [hr, KBD_CMD_SET_LEDS, KBD_CMD_SET_RATE, KBD_REPLY_ACK]
  simp only [hl, hr, or_self, if_false]
  split
  · rename_i h
    subst h
    simp [KBD_CMD_GET_ID, KBD_CMD_ECHO, KBD_CMD_RESET, KBD_REPLY_ACK]
  split
  · simp [KBD_REPLY_RESEND]
  split
  · simp [KBD_REPLY_ACK]
  split
  · simp [KBD_CMD_ECHO]
  split
  · rename_i h
    subst h
    simp [KBD_CMD_ENABLE, KBD_CMD_RESET, KBD_REPLY_ACK]
  split
  · rename_i h
    rcases h with rfl | rfl
    · simp [KBD_CMD_SET_LEDS, KBD_CMD_RESET, KBD_REPLY_ACK]
    · simp [KBD_CMD_SET_RATE, KBD_CMD_RESET, KBD_REPLY_ACK]
  split
  · rename_i h
    subst h
    simp [ps2ResetKeyboard, KBD_CMD_RESET_DISABLE, KBD_CMD_RESET, KBD_REPLY_ACK]
  split
  · rename_i h
    subst h
    simp [ps2ResetKeyboard, KBD_CMD_RESET_ENABLE, KBD_CMD_RESET, KBD_REPLY_ACK]
  split
  · simp [ps2ResetKeyboard, KBD_REPLY_ACK, KBD_REPLY_POR]
  · simp [KBD_REPLY_ACK]

/-- Before it looks at its event, `ps2_put_keycode` releases a code that is held back. -/
def PS2KbdState.settle (s : PS2KbdState) : PS2KbdState := if s.delay then s.release else s

theorem delay_settle (s : PS2KbdState) : s.settle.delay = false := by
  unfold PS2KbdState.settle
  split
  · rfl
  · rename_i h
    exact Bool.not_eq_true _ ▸ h

theorem KeyEvent.lead_of_pair {k : KeyEvent} {p c : BitVec 8} (h : k.scanCodes = [p, c]) :
    k.lead = some p := by
  simp [KeyEvent.lead, h]

theorem KeyEvent.lead_of_one {k : KeyEvent} {c : BitVec 8} (h : k.scanCodes = [c]) :
    k.lead = none := by
  simp [KeyEvent.lead, h]

theorem KeyEvent.lead_of_nil {k : KeyEvent} (h : k.scanCodes = []) : k.lead = none := by
  simp [KeyEvent.lead, h]

/-- An extended key queues its prefix and holds its code back; any other event queues all of its
codes. -/
theorem ps2PutKeycode_cases (s : PS2KbdState) (now : BitVec 32) (k : KeyEvent) :
    (∃ p t w, k.scanCodes = [p, w.setWidth 8] ∧ ∃ b : BitVec 32, b.setWidth 8 = p ∧
      ps2PutKeycode s now k.isDown k.keycode =
        { s.settle.enqueue b with delay := true, delayTime := t, delayKeycode := w }) ∨
    (∃ b : BitVec 32, k.scanCodes = [b.setWidth 8] ∧
      ps2PutKeycode s now k.isDown k.keycode = s.settle.enqueue b) ∨
    (k.scanCodes = [] ∧ ps2PutKeycode s now k.isDown k.keycode = s.settle) := by
  unfold ps2PutKeycode KeyEvent.scanCodes PS2KbdState.settle
  by_cases hext : 0xe000 ≤ k.keycode.toInt
  · left
    simp only [hext, if_true]
    exact ⟨_, _, _, rfl, _, rfl, rfl⟩
  · simp only [hext, if_false]
    by_cases hmin : INPUT_MAKE_KEY_MIN ≤ k.keycode.toInt
    · simp only [hmin, if_true]
      by_cases hmax : INPUT_MAKE_KEY_MAX < k.keycode.toInt
      · right; right
        simp only [hmax, true_or, if_true, and_self]
      · simp only [hmax, false_or, if_false]
        by_cases hmake : makeKeycode k.keycode = 0
        · right; right
          simp only [hmake, if_true, and_self]
        · left
          simp only [hmake, if_false]
          exact ⟨_, _, _, rfl, _, rfl, rfl⟩
    · right; left
      simp only [hmin, if_false]
      exact ⟨_, rfl, rfl⟩

namespace KbdRun

theorem mem_waiting {r : KbdRun} {e : Entry} (h : e ∈ r.waiting) :
    r.kbd.delay = true ∧ e.origin = .code r.keys.length := by
  unfold waiting at h
  split at h
  · rename_i hd
    obtain rfl := List.mem_singleton.mp h
    exact ⟨hd, rfl⟩
  · cases h

theorem waiting_idle {r : KbdRun} (h : r.kbd.delay = false) : r.waiting = [] := by
  simp [waiting, h]

theorem waiting_held {r : KbdRun} (h : r.kbd.delay = true) :
    r.waiting = [⟨.code r.keys.length, r.kbd.delayKeycode.setWidth 8⟩] := by
  simp [waiting, h]

end KbdRun

theorem keyBytes_append (es fs : List Entry) : keyBytes (es ++ fs) = keyBytes es ++ keyBytes fs := by
  simp [keyBytes]

theorem keyBytes_of_key {es : List Entry} (h : ∀ e ∈ es, e.origin ≠ .reply) :
    keyBytes es = es.map Entry.byte := by
  unfold keyBytes
  rw [List.filter_eq_self.mpr]
  intro e he
  exact decide_eq_true (h e he)

theorem keyBytes_replies (bs : List (BitVec 8)) :
    keyBytes (bs.map (⟨Origin.reply, ·⟩)) = [] := by
  unfold keyBytes
  rw [List.map_eq_nil_iff, List.filter_eq_nil_iff]
  intro e he
  obtain ⟨b, -, rfl⟩ := List.mem_map.mp he
  simp

theorem bytes_replies (bs : List (BitVec 8)) :
    (bs.map (Entry.mk Origin.reply)).map Entry.byte = bs := by
  simp [Function.comp_def]

theorem keyBytes_waiting (r : KbdRun) : keyBytes r.waiting = r.waiting.map Entry.byte := by
  apply keyBytes_of_key
  intro e he
  rw [(KbdRun.mem_waiting he).2]
  exact Origin.noConfusion

theorem entries_pair {k : KeyEvent} {p c : BitVec 8} (h : k.scanCodes = [p, c]) (n : Nat) :
    k.entries n = [⟨.lead n, p⟩] := by
  simp [KeyEvent.entries, KeyEvent.lead_of_pair h]

theorem entries_one {k : KeyEvent} {c : BitVec 8} (h : k.scanCodes = [c]) (n : Nat) :
    k.entries n = [⟨.code n, c⟩] := by
  simp [KeyEvent.entries, KeyEvent.lead_of_one h, h]

theorem entries_nil {k : KeyEvent} (h : k.scanCodes = []) (n : Nat) : k.entries n = [] := by
  simp [KeyEvent.entries, KeyEvent.lead_of_nil h, h]

theorem queue_settle (r : KbdRun) :
    r.kbd.settle.common.queue = r.kbd.common.queue.pushAll (r.waiting.map Entry.byte) := by
  cases hd : r.kbd.delay with
  | false => simp [PS2KbdState.settle, hd, KbdRun.waiting_idle hd]
  | true => simp [PS2KbdState.settle, hd, KbdRun.waiting_held hd]

/-- Behind the prefix of the code held back come replies only; without such a code no prefix is
last. -/
structure KbdRun.Inv (r : KbdRun) : Prop where
  queue : r.taken ++ r.kbd.common.queue.contents = r.sent.map Entry.byte
  order : keyBytes r.sent ++ r.waiting.map Entry.byte = r.keys.flatMap KeyEvent.scanCodes
  held : r.kbd.delay = true → ∃ k p before after, r.keys.getLast? = some k ∧ k.lead = some p ∧
    r.sent = before ++ ⟨.lead r.keys.length, p⟩ :: after ∧ ∀ e ∈ after, e.origin = .reply
  idle : r.kbd.delay = false → ∀ e ∈ r.sent.getLast?, ∀ n, e.origin ≠ .lead n

namespace KbdRun
variable {r : KbdRun}

theorem inv_start : start.Inv where
  queue := by
    show [] ++ (Ring.contents _) = []
    rw [Ring.contents_eq_nil rfl]
    rfl
  order := rfl
  held h := by cases h
  idle _ e h := by cases h

/-- A prefix at the end of the log is the one of the code held back. -/
theorem Inv.last_lead (hi : r.Inv) {e : Entry} (he : e ∈ r.sent.getLast?) {n : Nat}
    (hn : e.origin = .lead n) :
    r.kbd.delay = true ∧ n = r.keys.length ∧ r.keys.getLast?.bind KeyEvent.lead = some e.byte := by
  cases hd : r.kbd.delay with
  | false => exact absurd hn (hi.idle hd e he n)
  | true =>
    obtain ⟨k, p, before, after, hk, hlead, hsent, hafter⟩ := hi.held hd
    rw [hsent] at he
    rcases List.eq_nil_or_concat after with rfl | ⟨es, e', rfl⟩
    · rw [List.getLast?_concat] at he
      obtain rfl := Option.some.inj he
      injection hn with hn
      exact ⟨rfl, hn.symm, by rw [hk]; exact hlead⟩
    · have hrest : before ++ ⟨.lead r.keys.length, p⟩ :: (es ++ [e']) =
          (before ++ ⟨.lead r.keys.length, p⟩ :: es) ++ [e'] := by
        simp
      rw [List.concat_eq_append, hrest, List.getLast?_concat] at he
      obtain rfl := Option.some.inj he
      have hreply := hafter e' (by simp)
      rw [hn] at hreply
      cases hreply

/-- What a step pushes into the queue without overflow appears behind its contents. -/
theorem Inv.pushed (hi : r.Inv) {q : Ring (BitVec 8) PS2_QUEUE_SIZE} {new : List Entry}
    (hq : q = r.kbd.common.queue.pushAll (new.map Entry.byte))
    (hf : r.kbd.common.queue.count + new.length ≤ PS2_QUEUE_SIZE) :
    r.taken ++ q.contents = (r.sent ++ new).map Entry.byte := by
  rw [← List.length_map Entry.byte] at hf
  rw [hq, Ring.contents_pushAll hf, ← List.append_assoc, hi.queue, List.map_append]

def settle (r : KbdRun) : KbdRun := { r with kbd := r.kbd.settle, sent := r.sent ++ r.waiting }

theorem Inv.settle (hi : r.Inv)
    (hf : r.kbd.common.queue.count + r.waiting.length ≤ PS2_QUEUE_SIZE) : r.settle.Inv := by
  have hidle : r.settle.kbd.delay = false := delay_settle r.kbd
  refine ⟨hi.pushed (queue_settle r) hf, ?_, fun hon => ?_, fun _ e he n => ?_⟩
  · show keyBytes (r.sent ++ r.waiting) ++ _ = _
    rw [waiting_idle hidle, keyBytes_append, keyBytes_waiting, hi.order]
    exact List.append_nil _
  · rw [hidle] at hon
    cases hon
  · change e ∈ (r.sent ++ r.waiting).getLast? at he
    cases hd : r.kbd.delay with
    | false =>
      rw [waiting_idle hd, List.append_nil] at he
      exact hi.idle hd e he n
    | true =>
      rw [waiting_held hd, List.getLast?_concat] at he
      obtain rfl := Option.some.inj he
      exact Origin.noConfusion

theorem Inv.order_idle (hi : r.Inv) (hd : r.kbd.delay = false) :
    keyBytes r.sent = r.keys.flatMap KeyEvent.scanCodes := by
  have horder := hi.order
  rw [waiting_idle hd] at horder
  exact (List.append_nil _).symm.trans horder

theorem Inv.key_idle (hi : r.Inv) (hd : r.kbd.delay = false) (now : BitVec 32) {k : KeyEvent}
    (hf : r.kbd.common.queue.count + (k.entries (r.keys.length + 1)).length ≤ PS2_QUEUE_SIZE) :
    Inv { r with
      kbd := ps2PutKeycode r.kbd now k.isDown k.keycode
      keys := r.keys ++ [k]
      sent := r.sent ++ k.entries (r.keys.length + 1) } := by
  have hsettle : r.kbd.settle = r.kbd := by simp [PS2KbdState.settle, hd]
  have hkeys : (r.keys ++ [k]).flatMap KeyEvent.scanCodes = keyBytes r.sent ++ k.scanCodes := by
    simp [hi.order_idle hd]
  rcases ps2PutKeycode_cases r.kbd now k with
    ⟨p, t, w, hcodes, b, hb, hput⟩ | ⟨b, hcodes, hput⟩ | ⟨hcodes, hput⟩
  · -- an extended key: its code waits
    rw [entries_pair hcodes] at hf ⊢
    rw [hput, hsettle]
    refine ⟨hi.pushed ?_ hf, ?_, fun _ => ⟨k, p, r.sent, [], ?_, ?_, ?_, ?_⟩, fun hoff => ?_⟩
    · show (r.kbd.enqueue b).common.queue = _
      rw [queue_enqueue, hb]
      rfl
    · show keyBytes (r.sent ++ [_]) ++ [w.setWidth 8] = (r.keys ++ [k]).flatMap _
      rw [hkeys, hcodes, keyBytes_append, List.append_assoc]
      rfl
    · exact List.getLast?_concat
    · exact KeyEvent.lead_of_pair hcodes
    · show r.sent ++ _ = r.sent ++ [⟨.lead (r.keys ++ [k]).length, p⟩]
      rw [List.length_append]
      rfl
    · intro e he
      cases he
    · cases hoff
  · rw [entries_one hcodes] at hf ⊢
    rw [hput, hsettle]
    refine ⟨hi.pushed ?_ hf, ?_, fun hon => ?_, fun _ e he n => ?_⟩
    · exact queue_enqueue r.kbd b
    · simp only [waiting, delay_enqueue, hd, Bool.false_eq_true, if_false, List.map_nil,
        List.append_nil]
      rw [hkeys, hcodes, keyBytes_append]
      rfl
    · exact absurd (hon.symm.trans hd) (by decide)
    · change e ∈ (r.sent ++ [_]).getLast? at he
      rw [List.getLast?_concat] at he
      obtain rfl := Option.some.inj he
      exact Origin.noConfusion
  · rw [entries_nil hcodes] at hf ⊢
    rw [hput, hsettle, List.append_nil]
    refine ⟨hi.queue, ?_, fun hon => ?_, hi.idle⟩
    · simp only [waiting, hd, Bool.false_eq_true, if_false, List.map_nil]
      rw [hkeys, hcodes]
    · exact absurd (hon.symm.trans hd) (by decide)

/-- `ps2_put_keycode` first releases the code of the event before. -/
theorem put_settle (s : PS2KbdState) (now : BitVec 32) (isDown : Bool) (keycode : BitVec 32) :
    ps2PutKeycode s.settle now isDown keycode = ps2PutKeycode s now isDown keycode := by
  have hidle : s.settle.delay = false := delay_settle s
  unfold ps2PutKeycode
  rw [hidle]
  rfl

theorem Inv.key (hi : r.Inv) {now : BitVec 32} {k : KeyEvent}
    (hf : r.kbd.common.queue.count + (r.queued (.key now k)).length ≤ PS2_QUEUE_SIZE) :
    (r.step (.key now k)).Inv := by
  have hlen : (r.queued (.key now k)).length =
      r.waiting.length + (k.entries (r.keys.length + 1)).length := List.length_append
  have hcount : r.settle.kbd.common.queue.count ≤ r.kbd.common.queue.count + r.waiting.length := by
    show r.kbd.settle.common.queue.count ≤ _
    rw [queue_settle, Ring.count_pushAll, List.length_map]
    exact Nat.min_le_left _ _
  have hstep := (hi.settle (by omega)).key_idle (delay_settle r.kbd) now (k := k)
    (by show r.settle.kbd.common.queue.count + (k.entries (r.keys.length + 1)).length ≤ _; omega)
  have heq : r.step (.key now k) = { r.settle with
      kbd := ps2PutKeycode r.settle.kbd now k.isDown k.keycode
      keys := r.settle.keys ++ [k]
      sent := r.settle.sent ++ k.entries (r.settle.keys.length + 1) } := by
    show KbdRun.mk _ _ _ _ = KbdRun.mk _ _ _ _
    rw [show r.settle.kbd = r.kbd.settle from rfl, put_settle]
    simp [KbdRun.settle, queued]
  rw [heq]
  exact hstep

theorem Inv.timer (hi : r.Inv) {now : BitVec 32}
    (hf : r.kbd.common.queue.count + (r.queued (.step now)).length ≤ PS2_QUEUE_SIZE) :
    (r.step (.step now)).Inv := by
  unfold KbdRun.step
  unfold queued at hf ⊢
  by_cases ht : afterEq now r.kbd.delayTime
  · simp only [if_pos ht] at hf ⊢
    have hstep : kbdStep r.kbd now = r.kbd.settle := by
      simp [kbdStep, PS2KbdState.settle, ht]
    rw [hstep]
    exact hi.settle hf
  · simp only [if_neg ht, List.append_nil]
    have hstep : kbdStep r.kbd now = r.kbd := by simp [kbdStep, ht]
    rw [hstep]
    exact hi

theorem Inv.write (hi : r.Inv) {val : BitVec 32}
    (hf : r.kbd.common.queue.count + (r.queued (.write val)).length ≤ PS2_QUEUE_SIZE) :
    (r.step (.write val)).Inv := by
  obtain ⟨hqueue, hdelay, hcode⟩ := ps2WriteKeyboard_queues r.kbd val
  have hwait : (r.step (.write val)).waiting = r.waiting := by
    show (if (ps2WriteKeyboard _ _).delay = true then
      [Entry.mk (.code r.keys.length) ((ps2WriteKeyboard r.kbd val).delayKeycode.setWidth 8)]
      else []) = _
    rw [hdelay, hcode]
    rfl
  refine ⟨hi.pushed ?_ hf, ?_, fun hon => ?_, fun hoff e he n => ?_⟩
  · show (ps2WriteKeyboard _ _).common.queue = _
    rw [hqueue]
    exact congrArg _ (bytes_replies _).symm
  · rw [hwait]
    show keyBytes (r.sent ++ (replies r.kbd val).map _) ++ _ = _
    rw [keyBytes_append, keyBytes_replies, List.append_nil, hi.order]
    rfl
  · rw [show (r.step (.write val)).kbd.delay = r.kbd.delay from hdelay] at hon
    obtain ⟨k, p, before, after, hk, hlead, hsent, hafter⟩ := hi.held hon
    refine ⟨k, p, before, after ++ r.queued (.write val), hk, hlead, ?_, ?_⟩
    · show r.sent ++ r.queued _ = before ++ _ :: (after ++ r.queued _)
      rw [hsent, List.append_assoc]
      rfl
    · intro e he
      rcases List.mem_append.mp he with he | he
      · exact hafter e he
      · obtain ⟨b, -, rfl⟩ := List.mem_map.mp he
        rfl
  · have hne : r.queued (.write val) ≠ [] := by
      intro h
      exact replies_ne_nil _ _ (List.map_eq_nil_iff.mp h)
    change e ∈ (r.sent ++ r.queued (.write val)).getLast? at he
    rw [List.getLast?_append_of_ne_nil _ hne] at he
    obtain ⟨b, -, rfl⟩ := List.mem_map.mp (List.mem_of_getLast? he)
    exact Origin.noConfusion

theorem Inv.read (hi : r.Inv) : (r.step .read).Inv := by
  refine ⟨?_, hi.order, hi.held, hi.idle⟩
  unfold KbdRun.step ps2ReadData
  by_cases h : r.kbd.common.queue.count = 0
  · simp only [if_pos h]
    exact hi.queue
  · simp only [if_neg h]
    rw [List.append_assoc, List.singleton_append,
      ← Ring.contents_pop (Nat.pos_of_ne_zero h)]
    exact hi.queue

theorem Inv.step (hi : r.Inv) {op : KbdOp}
    (hf : r.kbd.common.queue.count + (r.queued op).length ≤ PS2_QUEUE_SIZE) :
    (r.step op).Inv := by
  cases op with
  | key now k => exact hi.key hf
  | step now => exact hi.timer hf
  | write val => exact hi.write hf
  | read => exact hi.read

theorem followed_of_not_lead {e : Entry} (h : ∀ n, e.origin ≠ .lead n) (e' : Entry) :
    e.Followed e' := by
  rintro n rfl
  exact absurd rfl (h n)

/-- Entries none of which is a prefix make a chain by themselves. -/
theorem isChain_of_not_lead {es : List Entry} (h : ∀ e ∈ es, ∀ n, e.origin ≠ .lead n) :
    es.IsChain Entry.Followed := by
  induction es with
  | nil => exact List.isChain_nil
  | cons e es ih =>
    apply List.isChain_cons.mpr
    refine ⟨fun e' _ => followed_of_not_lead (h e List.mem_cons_self) e', ih ?_⟩
    intro e' he'
    exact h e' (List.mem_cons_of_mem _ he')

theorem isChain_entries (k : KeyEvent) (n : Nat) : (k.entries n).IsChain Entry.Followed := by
  unfold KeyEvent.entries
  split
  · exact List.isChain_singleton _
  · apply isChain_of_not_lead
    intro e he m
    obtain ⟨b, -, rfl⟩ := List.mem_map.mp he
    exact Origin.noConfusion

theorem waiting_not_lead {e : Entry} (he : e ∈ r.waiting) (n : Nat) : e.origin ≠ .lead n := by
  rw [(mem_waiting he).2]
  exact Origin.noConfusion

theorem Inv.followed_waiting (hi : r.Inv) {e e' : Entry} (he : e ∈ r.sent.getLast?)
    (he' : e' ∈ r.waiting) : e.Followed e' := by
  rintro n rfl
  obtain ⟨-, rfl, -⟩ := hi.last_lead he rfl
  exact (mem_waiting he').2

theorem Inv.isChain_settle (hi : r.Inv) :
    (r.sent ++ r.waiting).IsChain Entry.Followed ↔ r.sent.IsChain Entry.Followed := by
  rw [List.isChain_append]
  constructor
  · exact And.left
  · intro h
    refine ⟨h, isChain_of_not_lead fun e he => waiting_not_lead he, ?_⟩
    intro e he e' he'
    exact hi.followed_waiting he (List.mem_of_mem_head? he')

theorem Inv.isChain_key (hi : r.Inv) (now : BitVec 32) (k : KeyEvent)
    (hf : r.kbd.common.queue.count + r.waiting.length ≤ PS2_QUEUE_SIZE) :
    (r.step (.key now k)).sent.IsChain Entry.Followed ↔ r.sent.IsChain Entry.Followed := by
  show (r.sent ++ (r.waiting ++ k.entries _)).IsChain _ ↔ _
  rw [← List.append_assoc, List.isChain_append, hi.isChain_settle]
  constructor
  · exact And.left
  · intro h
    refine ⟨h, isChain_entries k _, ?_⟩
    intro e he e' _
    exact followed_of_not_lead ((hi.settle hf).idle (delay_settle r.kbd) e he) e'

theorem Inv.not_isChain_write (hi : r.Inv) (h : r.HoldsBack) (val : BitVec 32) :
    ¬(r.step (.write val)).sent.IsChain Entry.Followed := by
  obtain ⟨hon, hkey⟩ := h
  obtain ⟨k, p, before, after, hk, hlead, hsent, hafter⟩ := hi.held hon
  obtain rfl : p = 0xe0 := by
    rw [hk] at hkey
    exact Option.some.inj (hlead.symm.trans hkey)
  show ¬(r.sent ++ r.queued _).IsChain _
  rw [hsent, List.append_assoc, List.cons_append]
  intro hchain
  have htail := (List.isChain_append.mp hchain).2.1
  have hreply : ∀ e ∈ after ++ r.queued (.write val), e.origin = .reply := by
    intro e he
    rcases List.mem_append.mp he with he | he
    · exact hafter e he
    · obtain ⟨b, -, rfl⟩ := List.mem_map.mp he
      rfl
  have hne : after ++ r.queued (.write val) ≠ [] := by
    intro hnil
    exact replies_ne_nil _ _ (List.map_eq_nil_iff.mp (List.append_eq_nil_iff.mp hnil).2)
  obtain ⟨e, es, hes⟩ := List.exists_cons_of_ne_nil hne
  rw [hes] at htail hreply
  have hcode := (List.isChain_cons_cons.mp htail).1 r.keys.length rfl
  rw [hreply e List.mem_cons_self] at hcode
  cases hcode

theorem Inv.isChain_write (hi : r.Inv) (val : BitVec 32) :
    (r.step (.write val)).sent.IsChain Entry.Followed ↔
      r.sent.IsChain Entry.Followed ∧ ¬r.HoldsBack := by
  constructor
  · intro h
    exact ⟨(List.isChain_append.mp h).1, fun hh => hi.not_isChain_write hh val h⟩
  · rintro ⟨h, hclear⟩
    apply List.isChain_append.mpr
    refine ⟨h, isChain_of_not_lead fun e he n => ?_, ?_⟩
    · obtain ⟨b, -, rfl⟩ := List.mem_map.mp he
      exact Origin.noConfusion
    · intro e he e' _
      rintro n rfl
      obtain ⟨hon, -, hkey⟩ := hi.last_lead he rfl
      exact absurd ⟨hon, hkey⟩ hclear

/-- One step keeps prefixes and codes together exactly if it is clear. -/
theorem Inv.isChain_step (hi : r.Inv) {op : KbdOp}
    (hf : r.kbd.common.queue.count + (r.queued op).length ≤ PS2_QUEUE_SIZE) :
    (r.step op).sent.IsChain Entry.Followed ↔ r.sent.IsChain Entry.Followed ∧ r.Clear op := by
  cases op with
  | key now k =>
    have hlen : (r.queued (.key now k)).length =
        r.waiting.length + (k.entries (r.keys.length + 1)).length := List.length_append
    exact (hi.isChain_key now k (by omega)).trans (and_iff_left trivial).symm
  | step now =>
    apply Iff.trans _ (and_iff_left trivial).symm
    show (r.sent ++ if afterEq now r.kbd.delayTime then r.waiting else []).IsChain _ ↔ _
    split
    · exact hi.isChain_settle
    · rw [List.append_nil]
  | write val => exact hi.isChain_write val
  | read => exact (and_iff_left trivial).symm

theorem Inv.run {ops : List KbdOp} (hi : r.Inv) (hf : r.AllFit ops) :
    (r.run ops).Inv ∧ ((r.run ops).sent.IsChain Entry.Followed ↔
      r.sent.IsChain Entry.Followed ∧ r.AllClear ops) := by
  induction ops generalizing r with
  | nil => exact ⟨hi, (and_iff_left trivial).symm⟩
  | cons op ops ih =>
    obtain ⟨hinv, hchain⟩ := ih (hi.step hf.1) hf.2
    refine ⟨hinv, hchain.trans ?_⟩
    rw [hi.isChain_step hf.1, and_assoc]
    rfl

/-- Replies come between a prefix and its code exactly if a command is written while the code is
held back. -/
theorem together_iff {ops : List KbdOp} (hf : start.AllFit ops) :
    (start.run ops).Together ↔ start.AllClear ops := by
  obtain ⟨hinv, hchain⟩ := inv_start.run hf
  constructor
  · intro h
    exact (hchain.mp h.followed).2
  · intro h
    exact ⟨hinv.queue, hinv.order, hchain.mpr ⟨List.isChain_nil, h⟩⟩

/-- The left arrow goes down and up, the timer runs, and then the guest sets the LEDs. -/
def arrowRun : List KbdOp :=
  [.key 0 ⟨true, 105⟩, .read, .key 10 ⟨false, 105⟩, .step 2000, .write 0xed]

theorem together_iff_arrow : (start.run arrowRun).Together :=
  (together_iff (show start.AllFit arrowRun from
    ⟨by decide, by decide, by decide, by decide, by decide, trivial⟩)).mpr
    ⟨trivial, trivial, trivial, trivial, by decide, trivial⟩

/-- The LEDs are set right after the left arrow went down: the log is `E0 FA`. -/
theorem not_together_leds : ¬(start.run [.key 0 ⟨true, 105⟩, .write 0xed]).Together := by
  intro h
  have hchain : [Entry.mk (.lead 1) 0xe0, ⟨.reply, 0xfa⟩].IsChain Entry.Followed := h.followed
  have hcode := (List.isChain_cons_cons.mp hchain).1 1 rfl
  cases hcode

end KbdRun

end Winspire.Ps2
