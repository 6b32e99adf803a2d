import Mathlib.Data.UInt
import Winspire.Ide.Invariant

/-!
# String I/O on the data port

A string operation should be the element operations it stands for: the same program, with the
same requests to the environment in the same order. It is, while a transfer is pending. With
none pending it still calls the function for the end of the transfer, which no element does.
-/

namespace Winspire.Ide

open Interaction

set_option autoImplicit false

def ideDataReadElem (w : Width) (s1 : IDEIFState) : IdeProg (IDEIFState × UInt32) :=
  match w with
  | .long => ideDataReadl s1
  | _ => ideDataReadw s1

def ideDataWriteElem (w : Width) (s1 : IDEIFState) (val : UInt32) : IdeProg IDEIFState :=
  match w with
  | .long => ideDataWritel s1 val
  | _ => ideDataWritew s1 val

/-- `n` elements, one after another, and their bytes. -/
def readElems (w : Width) : Nat → IDEIFState → IdeProg (IDEIFState × List UInt8)
  | 0, s1 => .ret (s1, [])
  | n + 1, s1 => do
    let (s1, val) ← ideDataReadElem w s1
    let (s1, bytes) ← readElems w n s1
    return (s1, LittleEndian.put w.bytes val.toNat ++ bytes)

def elemAt (w : Width) (buf : Nat → UInt8) (off : Nat) : UInt32 :=
  .ofNat (LittleEndian.get (slice buf off w.bytes))

def writeElems (w : Width) (buf : Nat → UInt8) : Nat → Nat → IDEIFState → IdeProg IDEIFState
  | 0, _, s1 => .ret s1
  | n + 1, off, s1 => do
    let s1 ← ideDataWriteElem w s1 (elemAt w buf off)
    writeElems w buf n (off + w.bytes) s1

def stringCount (s1 : IDEIFState) (size count : Nat) : Int :=
  match s1.curDrive with
  | none => 0
  | some s => (s.stringLen size count).tdiv size

def ReadAgrees (s1 : IDEIFState) (w : Width) (count : Nat) : Prop :=
  let r := stringCount s1 w.bytes count
  ideDataReadString s1 w.bytes count = (do
    let (s1, bytes) ← readElems w r.toNat s1
    return (s1, r, bytes))

def WriteAgrees (s1 : IDEIFState) (w : Width) (buf : Nat → UInt8) (count : Nat) : Prop :=
  let r := stringCount s1 w.bytes count
  ideDataWriteString s1 buf w.bytes count = (do
    let s1 ← writeElems w buf r.toNat 0 s1
    return (s1, r))

section Elements
variable {w : Width} {s1 : IDEIFState} {s : IDEState}

theorem put_ofNat_get {bytes : List UInt8} (hw : bytes.length = w.bytes) :
    LittleEndian.put w.bytes (UInt32.ofNat (LittleEndian.get bytes)).toNat = bytes := by
  have hlt := LittleEndian.get_lt bytes
  have hle : 256 ^ bytes.length ≤ 2 ^ 32 := by
    rw [hw]
    cases w <;> decide
  rw [UInt32.toNat_ofNat', Nat.mod_eq_of_lt (by omega), ← hw, LittleEndian.put_get]

theorem ideDataReadElem_eq (hw : w ≠ .byte) (s1 : IDEIFState) :
    ideDataReadElem w s1 = (do
      let (s1, bytes) ← ideDataRead s1 w.bytes
      return (s1, .ofNat (LittleEndian.get bytes))) := by
  cases w with
  | byte => exact absurd rfl hw
  | word => rfl
  | long => rfl

theorem ideDataWriteElem_eq (hw : w ≠ .byte) (s1 : IDEIFState) (val : UInt32) :
    ideDataWriteElem w s1 val = ideDataWrite s1 (LittleEndian.put w.bytes val.toNat) := by
  cases w with
  | byte => exact absurd rfl hw
  | word => rfl
  | long => rfl

theorem bytes_pos (w : Width) : 0 < w.bytes := by cases w <;> decide

theorem setCur_curDrive (hs : s1.curDrive = some s) : s1.setCur s = s1 := by
  obtain ⟨i, hi, hd⟩ := Option.bind_eq_some_iff.mp hs
  unfold IDEIFState.setCur
  rw [hi]
  simp only [IDEIFState.setDrive]
  congr
  funext j
  split
  · rename_i hj
    rw [hj, hd]
  · rfl

theorem curDrive_setCur (hs : s1.curDrive = some s) (s' : IDEState) :
    (s1.setCur s').curDrive = some s' := by
  obtain ⟨i, hi, hd⟩ := Option.bind_eq_some_iff.mp hs
  simp [IDEIFState.setCur, IDEIFState.curDrive, IDEIFState.setDrive, hi]

theorem setCur_setCur (s1 : IDEIFState) (s s' : IDEState) :
    (s1.setCur s).setCur s' = s1.setCur s' := by
  unfold IDEIFState.setCur
  cases hi : s1.cur with
  | none => simp only [hi]
  | some i =>
    simp only [IDEIFState.setDrive, hi]
    congr
    funext j
    split <;> rfl

theorem cmd_setCur (s1 : IDEIFState) (s : IDEState) : (s1.setCur s).cmd = s1.cmd := by
  unfold IDEIFState.setCur
  split <;> rfl

theorem access_eq (s : IDEState) {off len bound : Int} (hoff : 0 ≤ off) (hlen : 0 < len) :
    s.access off len bound = { s with outside := s.outside || decide (bound < off + len) } := by
  have hneg : decide (bound < off + len) = !decide (off + len ≤ bound) := by
    rw [← decide_not, decide_eq_decide]
    omega
  unfold IDEState.access
  simp only [hneg, hoff, hlen, decide_true, Bool.true_and]

theorem portAccess_add (hidx : 0 ≤ s.dataIndex) {a b : Nat} (ha : 0 < a) (hb : 0 < b) :
    ((((s.portAccess a).moved a).portAccess b).moved b) =
      (s.portAccess (a + b)).moved (a + b : Nat) := by
  have hacc : ∀ {s : IDEState} {n : Nat}, 0 ≤ s.dataIndex → 0 < n → s.portAccess n =
      { s with outside := s.outside || decide (min s.dataEnd s.bufSize < s.dataIndex + n) } :=
    fun h hn => access_eq _ h (by omega)
  have hout : (decide (min s.dataEnd s.bufSize < s.dataIndex + a) ||
      decide (min s.dataEnd s.bufSize < s.dataIndex + a + b)) =
      decide (min s.dataEnd s.bufSize < s.dataIndex + (a + b : Nat)) := by
    rw [← Bool.decide_or, decide_eq_decide]
    omega
  rw [hacc hidx ha, hacc hidx (Nat.add_pos_left ha b), ← hout, hacc _ hb]
  · simp only [IDEState.moved, IDEState.bufSize, Bool.or_assoc, Nat.cast_add, Int.add_assoc]
  · simp only [IDEState.moved]
    omega

theorem portStore_append (hidx : 0 ≤ s.dataIndex) (xs ys : List UInt8) (hx : 0 < xs.length)
    (hy : 0 < ys.length) :
    (((s.portStore xs).moved xs.length).portStore ys).moved ys.length =
      (s.portStore (xs ++ ys)).moved (xs ++ ys).length := by
  have hacc := portAccess_add hidx hx hy
  have hmem : blit (blit s.ioBuffer s.dataIndex.toNat xs) (s.dataIndex + xs.length).toNat ys =
      blit s.ioBuffer s.dataIndex.toNat (xs ++ ys) := by
    rw [show (s.dataIndex + xs.length).toNat = s.dataIndex.toNat + xs.length by omega, blit_append]
  have hform : ∀ (s : IDEState) (xs : List UInt8), (s.portStore xs).moved xs.length =
      { (s.portAccess xs.length).moved xs.length with
        ioBuffer := blit s.ioBuffer s.dataIndex.toNat xs } := fun _ _ => rfl
  rw [hform, hform s (xs ++ ys), List.length_append, ← hacc, ← hmem]
  rfl

theorem finish_of_lt {cmd : UInt8} (h : s.dataIndex < s.dataEnd) : s.finish cmd = .ret s := by
  unfold IDEState.finish
  rw [if_neg (by omega)]

theorem ideDataReadElem_fits (hw : w ≠ .byte) (hs : s1.curDrive = some s)
    (hle : s.dataIndex + w.bytes ≤ s.dataEnd) :
    ideDataReadElem w s1 = (do
      let s' ← ((s.portAccess w.bytes).moved w.bytes).finish s1.cmd
      return (s1.setCur s', .ofNat (LittleEndian.get (s.portBytes w.bytes)))) := by
  have helem : s.readElem w.bytes = some ((s.portAccess w.bytes).moved w.bytes) := by
    unfold IDEState.readElem
    rw [if_neg (by omega)]
  simp only [ideDataReadElem_eq hw, ideDataRead, hs, helem, Prog.bind_assoc, Prog.pure_eq,
    Prog.ret_bind]

theorem ideDataWriteElem_fits (hw : w ≠ .byte) (hs : s1.curDrive = some s)
    (hle : s.dataIndex + w.bytes ≤ s.dataEnd) {bytes : List UInt8} (hlen : bytes.length = w.bytes) :
    ideDataWriteElem w s1 (.ofNat (LittleEndian.get bytes)) = (do
      let s' ← ((s.portStore bytes).moved bytes.length).finish s1.cmd
      return s1.setCur s') := by
  have helem : s.writeElem bytes = some ((s.portStore bytes).moved bytes.length) := by
    unfold IDEState.writeElem
    rw [if_neg (by omega)]
  simp only [ideDataWriteElem_eq hw, ideDataWrite, hs, put_ofNat_get hlen, helem]

theorem portBytes_add (s : IDEState) (hidx : 0 ≤ s.dataIndex) (a b : Nat) :
    s.portBytes (a + b) = s.portBytes a ++ ((s.portAccess a).moved a).portBytes b := by
  have hoff : ((s.portAccess a).moved a).dataIndex.toNat = s.dataIndex.toNat + a := by
    simp only [IDEState.moved, IDEState.portAccess, IDEState.access]
    omega
  unfold IDEState.portBytes
  rw [slice_add, hoff]
  rfl

theorem readElems_succ (hw : w ≠ .byte) (n : Nat) (hs : s1.curDrive = some s)
    (hidx : 0 ≤ s.dataIndex) (hle : s.dataIndex + ((n + 1) * w.bytes : Nat) ≤ s.dataEnd) :
    readElems w (n + 1) s1 = (do
      let s' ← ((s.portAccess ((n + 1) * w.bytes)).moved ((n + 1) * w.bytes : Nat)).finish s1.cmd
      return (s1.setCur s', s.portBytes ((n + 1) * w.bytes))) := by
  have hpos := bytes_pos w
  have hbytes : ∀ s : IDEState, LittleEndian.put w.bytes
      (UInt32.ofNat (LittleEndian.get (s.portBytes w.bytes))).toNat = s.portBytes w.bytes :=
    fun s => put_ofNat_get (by rw [IDEState.portBytes, length_slice])
  induction n generalizing s1 s with
  | zero =>
    rw [Nat.zero_add, Nat.one_mul] at *
    rw [readElems, ideDataReadElem_fits hw hs hle]
    simp only [readElems, Prog.bind_assoc, Prog.pure_eq, Prog.ret_bind, List.append_nil, hbytes]
  | succ n ih =>
    have hmul : (n + 1 + 1) * w.bytes = w.bytes + (n + 1) * w.bytes := by ring
    have hn : 0 < (n + 1) * w.bytes := Nat.mul_pos (Nat.succ_pos n) hpos
    have hmoved : ((s.portAccess w.bytes).moved w.bytes).dataIndex = s.dataIndex + w.bytes := rfl
    have hend : ((s.portAccess w.bytes).moved w.bytes).dataEnd = s.dataEnd := rfl
    rw [hmul] at hle ⊢
    -- all elements but the last leave the transfer pending
    rw [readElems, ideDataReadElem_fits hw hs (by omega), finish_of_lt (by omega)]
    simp only [Prog.pure_eq, Prog.ret_bind]
    rw [ih (curDrive_setCur hs _) (by omega) (by omega), portAccess_add hidx hpos hn, hbytes,
      portBytes_add s hidx]
    simp only [Prog.bind_assoc, Prog.pure_eq, Prog.ret_bind, cmd_setCur, setCur_setCur]

theorem writeElems_succ (hw : w ≠ .byte) (buf : Nat → UInt8) (n off : Nat) (hs : s1.curDrive = some s)
    (hidx : 0 ≤ s.dataIndex) (hle : s.dataIndex + ((n + 1) * w.bytes : Nat) ≤ s.dataEnd) :
    writeElems w buf (n + 1) off s1 = (do
      let s' ← ((s.portStore (slice buf off ((n + 1) * w.bytes))).moved
        ((n + 1) * w.bytes : Nat)).finish s1.cmd
      return s1.setCur s') := by
  have hpos := bytes_pos w
  have hlen := length_slice buf off w.bytes
  induction n generalizing s1 s off with
  | zero =>
    rw [Nat.zero_add, Nat.one_mul] at *
    rw [writeElems, elemAt, ideDataWriteElem_fits hw hs hle hlen, hlen]
    simp only [writeElems, Prog.bind_assoc, Prog.pure_eq, Prog.ret_bind]
  | succ n ih =>
    have hmul : (n + 1 + 1) * w.bytes = w.bytes + (n + 1) * w.bytes := by ring
    have hn : 0 < (n + 1) * w.bytes := Nat.mul_pos (Nat.succ_pos n) hpos
    have hmoved : ∀ bytes, ((s.portStore bytes).moved w.bytes).dataIndex = s.dataIndex + w.bytes :=
      fun _ => rfl
    have hend : ∀ bytes, ((s.portStore bytes).moved w.bytes).dataEnd = s.dataEnd := fun _ => rfl
    have happ := portStore_append hidx (slice buf off w.bytes)
      (slice buf (off + w.bytes) ((n + 1) * w.bytes)) (by rw [hlen]; exact hpos) (by rw [length_slice]; exact hn)
    rw [← slice_add, length_slice, length_slice, length_slice] at happ
    rw [hmul] at hle ⊢
    rw [writeElems, elemAt, ideDataWriteElem_fits hw hs (by omega) hlen, hlen,
      finish_of_lt (by rw [hmoved, hend]; omega)]
    simp only [Prog.pure_eq, Prog.ret_bind]
    rw [ih _ (curDrive_setCur hs _) (by rw [hmoved]; omega) (by rw [hmoved, hend]; omega)
      (length_slice _ _ _), happ]
    simp only [Prog.pure_eq, cmd_setCur, setCur_setCur]

theorem stringLen_eq (h : s.dataIndex ≤ s.dataEnd) (w : Width) (count : Nat) :
    ∃ k : Nat, s.stringLen w.bytes count = (k * w.bytes : Nat) ∧
      (s.stringLen w.bytes count).tdiv w.bytes = k := by
  have hpos := bytes_pos w
  have hmin : 0 ≤ min ((w.bytes * count : Nat) : Int) (s.dataEnd - s.dataIndex) := by omega
  obtain ⟨n, hn⟩ := Int.eq_ofNat_of_zero_le hmin
  have hdiv := Nat.div_add_mod n w.bytes
  have hlen : s.stringLen w.bytes count = (n / w.bytes * w.bytes : Nat) := by
    unfold IDEState.stringLen
    simp only
    rw [hn, ← Int.ofNat_tmod, Nat.mul_comm]
    omega
  refine ⟨n / w.bytes, hlen, ?_⟩
  rw [hlen, ← Int.ofNat_tdiv, Nat.mul_div_cancel _ hpos]

theorem readAgrees_of_lt (hw : w ≠ .byte) (hs : s1.curDrive = some s) (hidx : 0 ≤ s.dataIndex)
    (hlt : s.dataIndex < s.dataEnd) (count : Nat) : ReadAgrees s1 w count := by
  obtain ⟨k, hlen, hcount⟩ := stringLen_eq (Int.le_of_lt hlt) w count
  have hle : s.dataIndex + s.stringLen w.bytes count ≤ s.dataEnd :=
    (stringLen_range (Int.le_of_lt hlt) w.bytes count).2
  simp only [ReadAgrees, ideDataReadString, stringCount, hs, IDEState.readString]
  rw [if_pos (by omega), hcount, hlen, Int.toNat_natCast, Int.toNat_natCast]
  cases k with
  | zero =>
    have hnone : (s.portAccess (0 * w.bytes)).moved ((0 * w.bytes : Nat) : Int) = s := by
      rw [Nat.zero_mul]
      simp [IDEState.portAccess, IDEState.moved, access_zero]
    rw [hnone, finish_of_lt hlt]
    simp [readElems, setCur_curDrive hs, IDEState.portBytes]
  | succ n =>
    rw [readElems_succ hw n hs hidx (by omega)]
    simp only [Prog.bind_assoc, Prog.pure_eq, Prog.ret_bind]

theorem writeAgrees_of_lt (hw : w ≠ .byte) (hs : s1.curDrive = some s) (hidx : 0 ≤ s.dataIndex)
    (hlt : s.dataIndex < s.dataEnd) (buf : Nat → UInt8) (count : Nat) :
    WriteAgrees s1 w buf count := by
  obtain ⟨k, hlen, hcount⟩ := stringLen_eq (Int.le_of_lt hlt) w count
  have hle : s.dataIndex + s.stringLen w.bytes count ≤ s.dataEnd :=
    (stringLen_range (Int.le_of_lt hlt) w.bytes count).2
  simp only [WriteAgrees, ideDataWriteString, stringCount, hs, IDEState.writeString]
  rw [if_pos (by omega), hcount, hlen, Int.toNat_natCast, Int.toNat_natCast]
  cases k with
  | zero =>
    have hnone : (s.portStore (slice buf 0 (0 * w.bytes))).moved ((0 * w.bytes : Nat) : Int) = s := by
      rw [Nat.zero_mul]
      simp [IDEState.portStore, IDEState.portAccess, IDEState.moved, access_zero]
    rw [hnone, finish_of_lt hlt]
    simp [writeElems, setCur_curDrive hs]
  | succ n =>
    rw [writeElems_succ hw buf n 0 hs hidx (by omega)]
    simp only [Prog.bind_assoc, Prog.pure_eq, Prog.ret_bind]

/-- There is nothing to move, but the end of the transfer is called. -/
theorem stringLen_done (h : s.dataIndex = s.dataEnd) (w : Width) (count : Nat) :
    s.stringLen w.bytes count = 0 := by
  unfold IDEState.stringLen
  simp only
  rw [h, Int.sub_self, Int.min_eq_right (by omega)]
  simp

theorem not_readAgrees_done (hs : s1.curDrive = some s) (hdone : s.dataIndex = s.dataEnd)
    (count : Nat) : ¬ReadAgrees s1 w count := by
  intro h
  simp only [ReadAgrees, ideDataReadString, stringCount, hs, IDEState.readString,
    stringLen_done hdone, Int.zero_tdiv, Int.toNat_zero, readElems] at h
  unfold IDEState.finish at h
  rw [if_pos (by simp [IDEState.moved, IDEState.portAccess, IDEState.access, hdone])] at h
  cases h

theorem not_writeAgrees_done (hs : s1.curDrive = some s) (hdone : s.dataIndex = s.dataEnd)
    (buf : Nat → UInt8) (count : Nat) : ¬WriteAgrees s1 w buf count := by
  intro h
  simp only [WriteAgrees, ideDataWriteString, stringCount, hs, IDEState.writeString,
    stringLen_done hdone, Int.zero_tdiv, Int.toNat_zero, writeElems] at h
  unfold IDEState.finish at h
  rw [if_pos (by simp [IDEState.moved, IDEState.portStore, IDEState.portAccess, IDEState.access, hdone])]
    at h
  cases h

end Elements

/-- String I/O is element I/O exactly when no drive is selected or a transfer is pending. -/
theorem stringIo_agrees_iff {s0 s1 : IDEIFState} (h : Attached s0)
    (hr : Reachable (fun _ _ => True) s0 s1) {w : Width} (hw : w ≠ .byte) (buf : Nat → UInt8)
    (count : Nat) :
    (ReadAgrees s1 w count ↔ ∀ s, s1.curDrive = some s → s.dataIndex < s.dataEnd) ∧
    (WriteAgrees s1 w buf count ↔ ∀ s, s1.curDrive = some s → s.dataIndex < s.dataEnd) := by
  have hb : ChannelBounded False s1 := channelBounded_reachable (fun hc => hc.elim) h hr
  cases hcur : s1.curDrive with
  | none =>
    have hnone : ∀ s, (none : Option IDEState) = some s → s.dataIndex < s.dataEnd :=
      fun s hs => by cases hs
    refine ⟨iff_of_true ?_ hnone, iff_of_true ?_ hnone⟩
    · simp [ReadAgrees, ideDataReadString, stringCount, hcur, readElems]
    · simp [WriteAgrees, ideDataWriteString, stringCount, hcur, writeElems]
  | some s =>
    have hs := hb.curDrive hcur
    by_cases hlt : s.dataIndex < s.dataEnd
    · have hpending : ∀ s', some s = some s' → s'.dataIndex < s'.dataEnd :=
        fun s' hs' => by cases hs'; exact hlt
      exact ⟨iff_of_true (readAgrees_of_lt hw hcur hs.index_nonneg hlt count) hpending,
        iff_of_true (writeAgrees_of_lt hw hcur hs.index_nonneg hlt buf count) hpending⟩
    · have hdone : s.dataIndex = s.dataEnd := Int.le_antisymm hs.index_le (Int.not_lt.mp hlt)
      have hidle : ¬∀ s', some s = some s' → s'.dataIndex < s'.dataEnd :=
        fun hall => hlt (hall s rfl)
      exact ⟨iff_of_false (not_readAgrees_done hcur hdone count) hidle,
        iff_of_false (not_writeAgrees_done hcur hdone buf count) hidle⟩

/-- READ SECTORS of the last sector of the disk and one that is not there. -/
def readPastEnd : List PortOp :=
  [.ioportWrite 6 0xe0, .ioportWrite 2 2, .ioportWrite 3 0xff, .ioportWrite 4 0xff,
    .ioportWrite 5 0x0f, .ioportWrite 7 0x20]

/-- The first sector is in the buffer. -/
theorem stringIo_agrees_reading : ReadAgrees (runPorts readPastEnd diskAndCd) .word 100 := by
  refine ((stringIo_agrees_iff attached_diskAndCd (Reachable.init.runPorts (by decide +kernel))
    (w := .word) (by decide) (fun _ => 0) 100).1).2 fun s hs => ?_
  have hpending : ∀ s ∈ (runPorts readPastEnd diskAndCd).curDrive, s.dataIndex < s.dataEnd := by
    decide +kernel
  exact hpending s hs

/-- The second sector could not be read. One word of string I/O asks for it again. -/
theorem stringIo_reads_again :
    ∃ s0 s1, Attached s0 ∧ Reachable (fun _ _ => True) s0 s1 ∧
      stringCount s1 2 1 = 0 ∧ ¬ReadAgrees s1 .word 1 ∧
      ∃ k, ideDataReadString s1 2 1 = .ask (.endTransfer false .sectorRead) fun _ =>
        .ask (.readAsync false (2 ^ 20) 1) k := by
  have hdone : ∃ s, (runPorts (readPastEnd ++ [.dataReadString .long 128]) diskAndCd).curDrive =
      some s ∧ s.dataIndex = s.dataEnd := ⟨_, rfl, by decide +kernel⟩
  obtain ⟨s, hs, hidle⟩ := hdone
  refine ⟨diskAndCd, runPorts (readPastEnd ++ [.dataReadString .long 128]) diskAndCd,
    attached_diskAndCd, Reachable.init.runPorts (by decide +kernel), by decide +kernel,
    not_readAgrees_done hs hidle 1, ?_⟩
  exact ⟨_, rfl⟩

end Winspire.Ide
