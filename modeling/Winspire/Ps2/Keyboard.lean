import Winspire.Ps2.Mouse
import Mathlib.Data.List.Chain

/-!
# The PS/2 keyboard

`i8042.c`: key events, the timer that releases the second byte of an extended key, and the commands
of the guest. The builds without `THREAD_SAFE`.
-/

namespace Winspire.Ps2

set_option autoImplicit false

def afterEq (a b : BitVec 32) : Prop := a - b < 1#32 <<< 31

instance (a b : BitVec 32) : Decidable (afterEq a b) := by
  unfold afterEq
  infer_instance

/-- `PS2KbdState`, with the `write_cmd` of its `common`; an `int` is a word. -/
structure PS2KbdState where
  common : PS2State
  writeCmd : BitVec 32
  scanEnabled : Bool
  delay : Bool
  delayTime : BitVec 32
  delayKeycode : BitVec 32

def ps2KbdInit : PS2KbdState :=
  { common := ⟨Ring.empty (fun _ => 0) (by decide), false⟩
    writeCmd := -1
    scanEnabled := false
    delay := false
    delayTime := 0
    delayKeycode := 0 }

/-- `ps2_queue` on the keyboard. -/
def PS2KbdState.enqueue (s : PS2KbdState) (b : BitVec 32) : PS2KbdState :=
  { s with common := ps2Queue s.common (b.setWidth 8) }

/-- The code held back goes into the queue. -/
def PS2KbdState.release (s : PS2KbdState) : PS2KbdState :=
  { s with delay := false }.enqueue s.delayKeycode

def INPUT_MAKE_KEY_MIN : Nat := 96
def INPUT_MAKE_KEY_MAX : Nat := 127

def linuxInputToKeycodeSet1 : List (BitVec 32) :=
  [0x1c, 0x1d, 0x35, 0x00, 0x38, 0x00, 0x47, 0x48,
    0x49, 0x4b, 0x4d, 0x4f, 0x50, 0x51, 0x52, 0x53,
    0x00, 0x00, 0x00, 0x00, 0x00, 0x00, 0x00, 0x00,
    0x00, 0x00, 0x00, 0x00, 0x00, 0x5b, 0x5c, 0x5d]

/-- `(!is_down) << 7`. -/
def breakBit (isDown : Bool) : BitVec 32 := if isDown then 0 else 0x80

def makeKeycode (keycode : BitVec 32) : BitVec 32 :=
  linuxInputToKeycodeSet1.getD (keycode.toNat - INPUT_MAKE_KEY_MIN) 0

def ps2PutKeycode (s : PS2KbdState) (now : BitVec 32) (isDown : Bool) (keycode : BitVec 32) :
    PS2KbdState :=
  let s := if s.delay then s.release else s
  if 0xe000 ≤ keycode.toInt then
    { s.enqueue (keycode.sshiftRight 8) with
      delay := true
      delayTime := now + 10000
      delayKeycode := (keycode &&& 0xff) ||| breakBit isDown }
  else if INPUT_MAKE_KEY_MIN ≤ keycode.toInt then
    if INPUT_MAKE_KEY_MAX < keycode.toInt then s
    else if makeKeycode keycode = 0 then s
    else
      { s.enqueue 0xe0 with
        delay := true
        delayTime := now + 1000
        delayKeycode := makeKeycode keycode ||| breakBit isDown }
  else s.enqueue (keycode ||| breakBit isDown)

def kbdStep (s : PS2KbdState) (now : BitVec 32) : PS2KbdState :=
  if s.delay = true ∧ afterEq now s.delayTime then s.release else s

def KBD_CMD_SET_LEDS : BitVec 32 := 0xed
def KBD_CMD_ECHO : BitVec 32 := 0xee
def KBD_CMD_GET_ID : BitVec 32 := 0xf2
def KBD_CMD_SET_RATE : BitVec 32 := 0xf3
def KBD_CMD_ENABLE : BitVec 32 := 0xf4
def KBD_CMD_RESET_DISABLE : BitVec 32 := 0xf5
def KBD_CMD_RESET_ENABLE : BitVec 32 := 0xf6
def KBD_CMD_RESET : BitVec 32 := 0xff
def KBD_REPLY_POR : BitVec 32 := 0xaa
def KBD_REPLY_ACK : BitVec 32 := 0xfa
def KBD_REPLY_RESEND : BitVec 32 := 0xfe

def ps2ResetKeyboard (s : PS2KbdState) : PS2KbdState := { s with scanEnabled := true }

def ps2WriteKeyboard (s : PS2KbdState) (val : BitVec 32) : PS2KbdState :=
  if s.writeCmd = KBD_CMD_SET_LEDS then { s.enqueue KBD_REPLY_ACK with writeCmd := -1 }
  else if s.writeCmd = KBD_CMD_SET_RATE then { s.enqueue KBD_REPLY_ACK with writeCmd := -1 }
  else if val = 0x00 then s.enqueue KBD_REPLY_ACK
  else if val = 0x05 then s.enqueue KBD_REPLY_RESEND
  else if val = KBD_CMD_GET_ID then ((s.enqueue KBD_REPLY_ACK).enqueue 0xab).enqueue 0x83
  else if val = KBD_CMD_ECHO then s.enqueue KBD_CMD_ECHO
  else if val = KBD_CMD_ENABLE then { s with scanEnabled := true }.enqueue KBD_REPLY_ACK
  else if val = KBD_CMD_SET_LEDS ∨ val = KBD_CMD_SET_RATE then
    { s with writeCmd := val }.enqueue KBD_REPLY_ACK
  else if val = KBD_CMD_RESET_DISABLE then
    { ps2ResetKeyboard s with scanEnabled := false }.enqueue KBD_REPLY_ACK
  else if val = KBD_CMD_RESET_ENABLE then
    { ps2ResetKeyboard s with scanEnabled := true }.enqueue KBD_REPLY_ACK
  else if val = KBD_CMD_RESET then
    ((ps2ResetKeyboard s).enqueue KBD_REPLY_ACK).enqueue KBD_REPLY_POR
  else s.enqueue KBD_REPLY_ACK

/-- What the keyboard answers, byte by byte. -/
def replies (s : PS2KbdState) (val : BitVec 32) : List (BitVec 8) :=
  if s.writeCmd = KBD_CMD_SET_LEDS ∨ s.writeCmd = KBD_CMD_SET_RATE then [0xfa]
  else if val = 0x05 then [0xfe]
  else if val = KBD_CMD_GET_ID then [0xfa, 0xab, 0x83]
  else if val = KBD_CMD_ECHO then [0xee]
  else if val = KBD_CMD_RESET then [0xfa, 0xaa]
  else [0xfa]

structure KeyEvent where
  isDown : Bool
  keycode : BitVec 32
  deriving DecidableEq

/-- The bytes a guest has to see for the event: two for an extended key, none for a key without a
code. -/
def KeyEvent.scanCodes (k : KeyEvent) : List (BitVec 8) :=
  if 0xe000 ≤ k.keycode.toInt then
    [(k.keycode.sshiftRight 8).setWidth 8, ((k.keycode &&& 0xff) ||| breakBit k.isDown).setWidth 8]
  else if INPUT_MAKE_KEY_MIN ≤ k.keycode.toInt then
    if INPUT_MAKE_KEY_MAX < k.keycode.toInt ∨ makeKeycode k.keycode = 0 then []
    else [0xe0, (makeKeycode k.keycode ||| breakBit k.isDown).setWidth 8]
  else [(k.keycode ||| breakBit k.isDown).setWidth 8]

def KeyEvent.lead (k : KeyEvent) : Option (BitVec 8) :=
  match k.scanCodes with
  | [p, _] => some p
  | _ => none

inductive KbdOp where
  | key (now : BitVec 32) (k : KeyEvent)
  | step (now : BitVec 32)
  | write (val : BitVec 32)
  | read
  deriving DecidableEq

/-- Where a byte of the queue comes from; events are counted from one. -/
inductive Origin where
  | lead (event : Nat)
  | code (event : Nat)
  | reply
  deriving DecidableEq

structure Entry where
  origin : Origin
  byte : BitVec 8
  deriving DecidableEq

/-- The keyboard, its key events so far, every byte handed to the queue, and the bytes its guest
took out of it. -/
structure KbdRun where
  kbd : PS2KbdState
  keys : List KeyEvent
  sent : List Entry
  taken : List (BitVec 8)

/-- The code held back, as an entry of the last event. -/
def KbdRun.waiting (r : KbdRun) : List Entry :=
  if r.kbd.delay then [⟨.code r.keys.length, r.kbd.delayKeycode.setWidth 8⟩] else []

/-- What the event puts into the queue by itself. -/
def KeyEvent.entries (k : KeyEvent) (event : Nat) : List Entry :=
  match k.lead with
  | some p => [⟨.lead event, p⟩]
  | none => k.scanCodes.map (⟨.code event, ·⟩)

def KbdRun.queued (r : KbdRun) : KbdOp → List Entry
  | .key _ k => r.waiting ++ k.entries (r.keys.length + 1)
  | .step now => if afterEq now r.kbd.delayTime then r.waiting else []
  | .write val => (replies r.kbd val).map (⟨.reply, ·⟩)
  | .read => []

def KbdRun.step (r : KbdRun) (op : KbdOp) : KbdRun :=
  match op with
  | .key now k =>
    { r with
      kbd := ps2PutKeycode r.kbd now k.isDown k.keycode
      keys := r.keys ++ [k]
      sent := r.sent ++ r.queued op }
  | .step now => { r with kbd := kbdStep r.kbd now, sent := r.sent ++ r.queued op }
  | .write val => { r with kbd := ps2WriteKeyboard r.kbd val, sent := r.sent ++ r.queued op }
  | .read =>
    { r with
      kbd := { r.kbd with common := (ps2ReadData r.kbd.common).2 }
      taken :=
        if r.kbd.common.queue.count = 0 then r.taken
        else r.taken ++ [(ps2ReadData r.kbd.common).1] }

def KbdRun.run (r : KbdRun) (ops : List KbdOp) : KbdRun := ops.foldl KbdRun.step r

def KbdRun.start : KbdRun := ⟨ps2KbdInit, [], [], []⟩

def KbdRun.AllFit : KbdRun → List KbdOp → Prop
  | _, [] => True
  | r, op :: ops =>
    r.kbd.common.queue.count + (r.queued op).length ≤ PS2_QUEUE_SIZE ∧ (r.step op).AllFit ops

def keyBytes (sent : List Entry) : List (BitVec 8) :=
  (sent.filter (·.origin ≠ .reply)).map Entry.byte

/-- Behind the prefix of an event comes its code. -/
def Entry.Followed (e e' : Entry) : Prop :=
  ∀ event, e = ⟨.lead event, 0xe0⟩ → e'.origin = .code event

structure KbdRun.Together (r : KbdRun) : Prop where
  /-- The entries are what went through the queue. -/
  queue : r.taken ++ r.kbd.common.queue.contents = r.sent.map Entry.byte
  order : keyBytes r.sent ++ r.waiting.map Entry.byte = r.keys.flatMap KeyEvent.scanCodes
  followed : r.sent.IsChain Entry.Followed

/-- The code of an event with an `0xE0` prefix is held back. -/
def KbdRun.HoldsBack (r : KbdRun) : Prop :=
  r.kbd.delay = true ∧ r.keys.getLast?.bind KeyEvent.lead = some 0xe0

instance (r : KbdRun) : Decidable r.HoldsBack := inferInstanceAs (Decidable (_ ∧ _))

/-- No command is written while a code is held back. -/
def KbdRun.Clear (r : KbdRun) : KbdOp → Prop
  | .write _ => ¬r.HoldsBack
  | _ => True

instance (r : KbdRun) (op : KbdOp) : Decidable (r.Clear op) := by
  cases op <;> unfold KbdRun.Clear <;> infer_instance

def KbdRun.AllClear : KbdRun → List KbdOp → Prop
  | _, [] => True
  | r, op :: ops => r.Clear op ∧ (r.step op).AllClear ops

end Winspire.Ps2
