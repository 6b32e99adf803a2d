import Winspire.Lib.Ring
import Mathlib.Data.BitVec
import Mathlib.Algebra.BigOperators.Group.List.Basic

/-!
# The PS/2 mouse

`i8042.c`: the byte queue of a PS/2 device, the packets of the mouse and its events. The queue of
the desktop and calculator builds, which take no mutex.
-/

namespace Winspire.Ps2

set_option autoImplicit false

def PS2_QUEUE_SIZE : Nat := 256

theorem queueSize_pos : 0 < PS2_QUEUE_SIZE := by decide

/-- `PS2State`, with the level last handed to `update_irq`. -/
structure PS2State where
  queue : Ring (BitVec 8) PS2_QUEUE_SIZE
  irq : Bool

/-- The cell takes the low byte of `b`. -/
def ps2Queue (s : PS2State) (b : BitVec 8) : PS2State :=
  if PS2_QUEUE_SIZE ≤ s.queue.count then s
  else { queue := s.queue.push b, irq := true }

/-- An empty queue gives the byte before the read index once more. -/
def ps2ReadData (s : PS2State) : BitVec 8 × PS2State :=
  if s.queue.count = 0 then (s.queue.last, s)
  else (s.queue.front, { queue := s.queue.pop, irq := decide (s.queue.pop.count ≠ 0) })

theorem queue_ps2Queue (s : PS2State) (b : BitVec 8) : (ps2Queue s b).queue = s.queue.push b := by
  unfold ps2Queue
  split
  · rename_i h
    exact (Ring.push_full h b).symm
  · rfl

theorem queue_foldl_ps2Queue (s : PS2State) (bs : List (BitVec 8)) :
    (bs.foldl ps2Queue s).queue = s.queue.pushAll bs := by
  induction bs generalizing s with
  | nil => rfl
  | cons b bs ih => rw [List.foldl_cons, ih, queue_ps2Queue, Ring.pushAll_cons]

/-- `PS2MouseState`; the fields that only the commands of the mouse use are left out. -/
structure PS2MouseState where
  common : PS2State
  mouseStatus : BitVec 8
  mouseType : BitVec 8
  mouseDx : Int
  mouseDy : Int
  mouseDz : Int
  mouseButtons : BitVec 8

def MOUSE_STATUS_REMOTE : BitVec 8 := 0x40
def MOUSE_STATUS_ENABLED : BitVec 8 := 0x20

def clamp (m d : Int) : Int := if d > m then m else if d < -m then -m else d

/-- `dz1` at the end of `ps2_mouse_send_packet`: only the wheel mice bound it. -/
def clampWheel (type : BitVec 8) (dz : Int) : Int :=
  if type = 3 then clamp 127 dz else if type = 4 then clamp 7 dz else dz

def signBit (n : Nat) (d : Int) : BitVec 8 := if d < 0 then 1#8 <<< n else 0

def wheelByte (type buttons : BitVec 8) (dz1 : Int) : List (BitVec 8) :=
  if type = 3 then [BitVec.ofInt 8 dz1]
  else if type = 4 then [(BitVec.ofInt 8 dz1 &&& 0x0f#8) ||| ((buttons &&& 0x18#8) <<< 1)]
  else []

def packetBytes (type buttons : BitVec 8) (dx1 dy1 dz1 : Int) : List (BitVec 8) :=
  [0x08#8 ||| signBit 4 dx1 ||| signBit 5 dy1 ||| (buttons &&& 0x07#8),
    BitVec.ofInt 8 dx1, BitVec.ofInt 8 dy1] ++ wheelByte type buttons dz1

def ps2MouseSendPacket (s : PS2MouseState) : PS2MouseState :=
  let dx1 := clamp 127 s.mouseDx
  let dy1 := clamp 127 s.mouseDy
  let dz1 := clampWheel s.mouseType s.mouseDz
  { s with
    common := (packetBytes s.mouseType s.mouseButtons dx1 dy1 dz1).foldl ps2Queue s.common
    mouseDx := s.mouseDx - dx1
    mouseDy := s.mouseDy - dy1
    mouseDz := s.mouseDz - dz1 }

def PS2MouseState.still (s : PS2MouseState) : Prop :=
  s.mouseDx = 0 ∧ s.mouseDy = 0 ∧ s.mouseDz = 0

instance (s : PS2MouseState) : Decidable s.still := by
  unfold PS2MouseState.still
  infer_instance

def PS2MouseState.distance (s : PS2MouseState) : Nat :=
  s.mouseDx.natAbs + s.mouseDy.natAbs + s.mouseDz.natAbs

theorem natAbs_sub_clamp {m d : Int} (hm : 0 < m) :
    (d - clamp m d).natAbs ≤ d.natAbs ∧ (d ≠ 0 → (d - clamp m d).natAbs < d.natAbs) := by
  unfold clamp
  split
  · constructor <;> omega
  · split <;> constructor <;> omega

theorem natAbs_sub_clampWheel (type : BitVec 8) (d : Int) :
    (d - clampWheel type d).natAbs ≤ d.natAbs ∧
      (d ≠ 0 → (d - clampWheel type d).natAbs < d.natAbs) := by
  unfold clampWheel
  split
  · exact natAbs_sub_clamp (by decide)
  · split
    · exact natAbs_sub_clamp (by decide)
    · constructor <;> omega

theorem distance_sendPacket {s : PS2MouseState} (h : ¬ s.still) :
    (ps2MouseSendPacket s).distance < s.distance := by
  have hx := natAbs_sub_clamp (d := s.mouseDx) (show (0 : Int) < 127 by decide)
  have hy := natAbs_sub_clamp (d := s.mouseDy) (show (0 : Int) < 127 by decide)
  have hz := natAbs_sub_clampWheel s.mouseType s.mouseDz
  simp only [PS2MouseState.distance, ps2MouseSendPacket]
  by_cases hdx : s.mouseDx = 0
  · by_cases hdy : s.mouseDy = 0
    · have hdz : s.mouseDz ≠ 0 := fun hdz => h ⟨hdx, hdy, hdz⟩
      have := hz.2 hdz
      omega
    · have := hy.2 hdy
      omega
  · have := hx.2 hdx
    omega

theorem still_sendPacket {s : PS2MouseState} (h : s.still) : (ps2MouseSendPacket s).still := by
  rcases h with ⟨hx, hy, hz⟩
  simp [PS2MouseState.still, ps2MouseSendPacket, clampWheel, clamp, hx, hy, hz]

/-- The loop of `ps2_mouse_event`. -/
def sendPackets (s : PS2MouseState) : PS2MouseState :=
  if (ps2MouseSendPacket s).still then ps2MouseSendPacket s
  else sendPackets (ps2MouseSendPacket s)
termination_by s.distance
decreasing_by
  rename_i h
  exact distance_sendPacket fun hs => h (still_sendPacket hs)

/-- The deltas recorded, the buttons still those before the event. -/
def PS2MouseState.record (s : PS2MouseState) (dx dy dz : Int) : PS2MouseState :=
  { s with mouseDx := s.mouseDx + dx, mouseDy := s.mouseDy - dy, mouseDz := s.mouseDz + dz }

/-- Streams, and the queue had room when it was last looked at. -/
def PS2MouseState.sends (s : PS2MouseState) : Prop :=
  s.mouseStatus &&& MOUSE_STATUS_REMOTE = 0 ∧ s.common.queue.count < PS2_QUEUE_SIZE - 16

instance (s : PS2MouseState) : Decidable s.sends := by
  unfold PS2MouseState.sends
  infer_instance

def ps2MouseEvent (s : PS2MouseState) (dx dy dz buttonsState : Int) : PS2MouseState :=
  if s.mouseStatus &&& MOUSE_STATUS_ENABLED = 0 then s
  else
    let s := s.record dx dy dz
    if s.still ∧ (s.mouseButtons.toNat : Int) = buttonsState then s
    else
      let s := { s with mouseButtons := BitVec.ofInt 8 buttonsState }
      if s.sends then sendPackets s else s

inductive MouseOp where
  | event (dx dy dz buttonsState : Int)
  | read
  deriving DecidableEq, Repr

/-- The mouse, and the bytes its guest took out of the queue. -/
structure MouseRun where
  mouse : PS2MouseState
  taken : List (BitVec 8)

def MouseRun.step (r : MouseRun) : MouseOp → MouseRun
  | .event dx dy dz buttonsState =>
    { r with mouse := ps2MouseEvent r.mouse dx dy dz buttonsState }
  | .read =>
    { mouse := { r.mouse with common := (ps2ReadData r.mouse.common).2 }
      taken :=
        if r.mouse.common.queue.count = 0 then r.taken
        else r.taken ++ [(ps2ReadData r.mouse.common).1] }

def MouseRun.bytes (r : MouseRun) : List (BitVec 8) := r.taken ++ r.mouse.common.queue.contents

structure Motion where
  dx : Int
  dy : Int
  dz : Int
  deriving DecidableEq, Repr

/-- Nine bits, the sign in the first byte of the packet. -/
def axis (negative : Bool) (b : BitVec 8) : Int := if negative then (b.toNat : Int) - 256 else b.toNat

def plainPackets : List (BitVec 8) → Option (List Motion)
  | [] => some []
  | b :: x :: y :: rest =>
    (plainPackets rest).map (⟨axis (b.getLsbD 4) x, axis (b.getLsbD 5) y, 0⟩ :: ·)
  | _ => none

def wheelPackets (wheel : BitVec 8 → Int) : List (BitVec 8) → Option (List Motion)
  | [] => some []
  | b :: x :: y :: z :: rest =>
    (wheelPackets wheel rest).map (⟨axis (b.getLsbD 4) x, axis (b.getLsbD 5) y, wheel z⟩ :: ·)
  | _ => none

/-- `none` when a packet is torn. -/
def packets (type : BitVec 8) (bytes : List (BitVec 8)) : Option (List Motion) :=
  if type = 3 then wheelPackets BitVec.toInt bytes
  else if type = 4 then wheelPackets (fun z => (z.setWidth 4).toInt) bytes
  else plainPackets bytes

/-- The motion of an event; a packet counts upwards on the vertical axis. -/
def MouseOp.motion : MouseOp → Motion
  | .event dx dy dz _ => ⟨dx, -dy, dz⟩
  | .read => ⟨0, 0, 0⟩

def total (axis : Motion → Int) (ms : List Motion) : Int := (ms.map axis).sum

/-- Whole packets only, and with what is pending all of the motion `moved`. -/
structure Intact (r : MouseRun) (moved : List Motion) : Prop where
  whole : ∃ ps, packets r.mouse.mouseType r.bytes = some ps ∧
    total Motion.dx ps + r.mouse.mouseDx = total Motion.dx moved ∧
    total Motion.dy ps + r.mouse.mouseDy = total Motion.dy moved ∧
    (r.mouse.mouseType = 3 ∨ r.mouse.mouseType = 4 →
      total Motion.dz ps + r.mouse.mouseDz = total Motion.dz moved)

end Winspire.Ps2
