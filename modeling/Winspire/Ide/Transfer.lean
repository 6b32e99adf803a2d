import Winspire.Ide.StringIo

/-!
# Sector transfers of the hard disk

A guest sets up the taskfile in LBA mode, writes a READ or WRITE command and moves a word
whenever DRQ is set. The blocks of a command, each of them at most `req_nb_sectors` long, add
up to the sectors that were asked for.
-/

namespace Winspire.Ide

open Interaction

set_option autoImplicit false

/-- 0 in the sector count register stands for 256. -/
def sectorsOf (count : UInt8) : Nat := if count = 0 then 256 else count.toNat

def drqSet (s1 : IDEIFState) : Bool := ideStatusRead s1 &&& 0x08 ≠ 0

def commandLba (i : Bool) (lba : Nat) (count command : UInt8) (s1 : IDEIFState) :
    IdeProg IDEIFState := do
  let s1 ← ideIoportWrite s1 6 (.ofNat (0xe0 + 16 * i.toNat + lba / 2 ^ 24 % 16))
  let s1 ← ideIoportWrite s1 2 count.toUInt32
  let s1 ← ideIoportWrite s1 3 (.ofNat (lba % 256))
  let s1 ← ideIoportWrite s1 4 (.ofNat (lba / 2 ^ 8 % 256))
  let s1 ← ideIoportWrite s1 5 (.ofNat (lba / 2 ^ 16 % 256))
  ideIoportWrite s1 7 command.toUInt32

/-- The words read while DRQ is set; nothing when it is still set after `fuel` words. -/
def readWhileDrq : Nat → IDEIFState → IdeProg (Option (IDEIFState × List UInt32))
  | fuel, s1 =>
    if drqSet s1 then
      match fuel with
      | 0 => .ret none
      | fuel + 1 => do
        let (s1, word) ← ideDataReadw s1
        let rest ← readWhileDrq fuel s1
        return rest.map fun (s1, words) => (s1, word :: words)
    else .ret (some (s1, []))

/-- The number of words written while DRQ is set. -/
def writeWhileDrq (words : Nat → UInt32) : Nat → Nat → IDEIFState → IdeProg (Option (IDEIFState × Nat))
  | fuel, sent, s1 =>
    if drqSet s1 then
      match fuel with
      | 0 => .ret none
      | fuel + 1 => do
        let s1 ← ideDataWritew s1 (words sent)
        writeWhileDrq words fuel (sent + 1) s1
    else .ret (some (s1, sent))

def readSectors (multiple i : Bool) (lba : Nat) (count : UInt8) (fuel : Nat) (s1 : IDEIFState) :
    IdeProg (Option (IDEIFState × List UInt32)) := do
  let s1 ← commandLba i lba count (if multiple then winMultread else winRead) s1
  readWhileDrq fuel s1

def writeSectors (multiple i : Bool) (lba : Nat) (count : UInt8) (words : Nat → UInt32) (fuel : Nat)
    (s1 : IDEIFState) : IdeProg (Option (IDEIFState × Nat)) := do
  let s1 ← commandLba i lba count (if multiple then winMultwrite else winWrite) s1
  writeWhileDrq words fuel 0 s1

def wordBytes (words : List UInt32) : List UInt8 :=
  words.flatMap fun word => LittleEndian.put 2 word.toNat

/-- A device of `size` sectors that serves every request inside it. -/
def diskHost (bs : Bool) (size : Nat) : Env ideSig (Nat → UInt8) := fun d op r d' =>
  match op with
  | .readAsync b sectorNum n => b = bs → sectorNum.toNat + n ≤ size →
      r = (0, slice d (512 * sectorNum.toNat) (512 * n)) ∧ d' = d
  | .writeAsync b sectorNum n data => b = bs → sectorNum.toNat + n ≤ size →
      r = (0 : Int) ∧ d' = blit d (512 * sectorNum.toNat) data
  | _ => d' = d

theorem and_or_distrib (x y z : UInt8) : (x ||| y) &&& z = (x &&& z) ||| (y &&& z) :=
  UInt8.toBitVec_inj.mp BitVec.and_or_distrib_right

theorem and_lba_bit (x y : UInt8) : ((x &&& 0xf0) ||| (y &&& 0x0f)) &&& 0x40 = x &&& 0x40 := by
  have hx : (0xf0 : UInt8) &&& 0x40 = 0x40 := by decide
  have hy : (0x0f : UInt8) &&& 0x40 = 0 := by decide
  rw [and_or_distrib, UInt8.and_assoc, UInt8.and_assoc, hx, hy, UInt8.and_zero, UInt8.or_zero]

theorem and_head_bits (x y : UInt8) : ((x &&& 0xf0) ||| (y &&& 0x0f)) &&& 0x0f = y &&& 0x0f := by
  have hx : (0xf0 : UInt8) &&& 0x0f = 0 := by decide
  have hy : (0x0f : UInt8) &&& 0x0f = 0x0f := by decide
  rw [and_or_distrib, UInt8.and_assoc, UInt8.and_assoc, hx, hy, UInt8.and_zero, UInt8.zero_or]

theorem toNat_and_head (x : UInt8) : (x &&& 0x0f).toNat = x.toNat % 16 := by
  rw [UInt8.toNat_and, show (0x0f : UInt8).toNat = 2 ^ 4 - 1 from rfl, Nat.and_two_pow_sub_one_eq_mod]

def LbaMode (s : IDEState) : Prop := s.select &&& 0x40 ≠ 0

theorem ideGetSector_lba {s : IDEState} (h : LbaMode s) :
    ideGetSector s = ((s.select.toNat % 16 * 2 ^ 24 + s.hcyl.toNat * 2 ^ 16 + s.lcyl.toNat * 2 ^ 8 +
      s.sector.toNat : Nat) : Int) := by
  have hh := s.hcyl.toNat_lt
  have hl := s.lcyl.toNat_lt
  have hs := s.sector.toNat_lt
  have hhi : (s.select &&& 0x0f).toNat <<< 24 ||| s.hcyl.toNat <<< 16 =
      (s.select.toNat % 16 * 256 + s.hcyl.toNat) <<< 16 := by
    rw [toNat_and_head, ← Nat.shiftLeft_add_eq_or_of_lt (by rw [Nat.shiftLeft_eq]; omega)]
    simp only [Nat.shiftLeft_eq]
    omega
  have hmid : (s.select.toNat % 16 * 256 + s.hcyl.toNat) <<< 16 ||| s.lcyl.toNat <<< 8 =
      ((s.select.toNat % 16 * 256 + s.hcyl.toNat) * 256 + s.lcyl.toNat) <<< 8 := by
    rw [← Nat.shiftLeft_add_eq_or_of_lt (by rw [Nat.shiftLeft_eq]; omega)]
    simp only [Nat.shiftLeft_eq]
    omega
  have hlba : ideGetSector s = (((s.select &&& 0x0f).toNat <<< 24 ||| s.hcyl.toNat <<< 16 |||
      s.lcyl.toNat <<< 8 ||| s.sector.toNat : Nat) : Int) := if_pos h
  rw [hlba, hhi, hmid, ← Nat.shiftLeft_add_eq_or_of_lt (by omega)]
  simp only [Nat.shiftLeft_eq]
  omega

theorem toNat_byteOf (x : Int) : (byteOf x).toNat = (x % 256).toNat := by
  unfold byteOf
  rw [UInt8.toNat_ofNat']
  omega

theorem ideSetSector_lba {s : IDEState} (h : LbaMode s) (x : Int) :
    ideSetSector s x = { s with
      select := (s.select &&& 0xf0) ||| (byteOf (x / 2 ^ 24) &&& 0x0f)
      hcyl := byteOf (x / 2 ^ 16)
      lcyl := byteOf (x / 2 ^ 8)
      sector := byteOf x } := if_pos h

theorem lbaMode_ideSetSector {s : IDEState} (h : LbaMode s) (x : Int) : LbaMode (ideSetSector s x) := by
  rw [ideSetSector_lba h]
  unfold LbaMode
  simp only
  rw [and_lba_bit]
  exact h

theorem ideGetSector_ideSetSector {s : IDEState} (h : LbaMode s) (x : Int) :
    ideGetSector (ideSetSector s x) = x % 2 ^ 28 := by
  rw [ideGetSector_lba (lbaMode_ideSetSector h x), ideSetSector_lba h]
  simp only
  rw [← toNat_and_head, and_head_bits, toNat_and_head, toNat_byteOf, toNat_byteOf, toNat_byteOf,
    toNat_byteOf]
  omega

/-- A command stands at the sector `a`, with `m` sectors to go. -/
structure AtSector (bs : Bool) (s : IDEState) (a m : Nat) : Prop where
  lba : LbaMode s
  address : ideGetSector s = a
  pos : 0 < m
  le : m ≤ 256
  count : s.nsector.toNat = m % 256
  device : s.bs = bs
  block : 0 < s.reqNbSectors

structure Done (s : IDEState) (a : Nat) : Prop where
  lba : LbaMode s
  address : ideGetSector s = a
  count : s.nsector = 0
  status : s.status = readyStat ||| seekStat

section Taskfile
variable {bs : Bool} {s : IDEState} {a m : Nat}

theorem blockSectors_eq (h : AtSector bs s a m) : s.blockSectors = min m s.reqNbSectors := by
  have hcount := h.count
  have hle := h.le
  have hpos := h.pos
  unfold IDEState.blockSectors
  by_cases hzero : s.nsector = 0
  · rw [if_pos hzero]
    rw [hzero] at hcount
    have hm : m = 256 := by
      simp only [UInt16.toNat_zero] at hcount
      omega
    rw [hm]
  · rw [if_neg hzero]
    have hne : s.nsector.toNat ≠ 0 := fun hz => hzero (UInt16.toNat_inj.mp hz)
    rw [hcount] at hne ⊢
    rw [Nat.mod_eq_of_lt (by omega)]

theorem nsector_advance (h : AtSector bs s a m) {k : Nat} (hk : 0 < k) (hkm : k ≤ m) :
    (s.advance k).nsector.toNat = m - k := by
  have hcount := h.count
  have hle := h.le
  have hfield : (s.advance k).nsector = (s.nsector - UInt16.ofNat k) &&& 0xff := by
    unfold IDEState.advance
    rw [ideSetSector_lba h.lba]
  rw [hfield, UInt16.toNat_and, show (0xff : UInt16).toNat = 2 ^ 8 - 1 from rfl,
    Nat.and_two_pow_sub_one_eq_mod, UInt16.toNat_sub, UInt16.toNat_ofNat', hcount]
  omega

theorem address_advance (h : AtSector bs s a m) (k : Nat) :
    LbaMode (s.advance k) ∧ ideGetSector (s.advance k) = ((a + k : Nat) : Int) % 2 ^ 28 := by
  have hset := ideGetSector_ideSetSector h.lba (ideGetSector s + k)
  refine ⟨lbaMode_ideSetSector h.lba _, ?_⟩
  rw [show ideGetSector (s.advance k) = ideGetSector (ideSetSector s (ideGetSector s + k)) from rfl,
    hset, h.address, Nat.cast_add]

theorem bs_advance (s : IDEState) (k : Nat) : (s.advance k).bs = s.bs := by
  unfold IDEState.advance ideSetSector
  split <;> rfl

theorem atSector_advance (h : AtSector bs s a m) (hlba : a + m ≤ 2 ^ 28) {k : Nat} (hk : 0 < k)
    (hkm : k < m) : AtSector bs (s.advance k) (a + k) (m - k) := by
  obtain ⟨hmode, haddr⟩ := address_advance h k
  have hcount := nsector_advance h hk (Nat.le_of_lt hkm)
  have hle := h.le
  exact
    { lba := hmode
      address := by omega
      pos := by omega
      le := by omega
      count := by omega
      device := by rw [bs_advance, h.device]
      block := by rw [reqNbSectors_advance]; exact h.block }

end Taskfile

section Words
variable {s1 : IDEIFState} {s : IDEState}

/-- The status while a block is transferred. -/
def busyWithData : UInt8 := readyStat ||| seekStat ||| drqStat

theorem drqSet_of_status (hs : s1.curDrive = some s) (hstatus : s.status = busyWithData) :
    drqSet s1 = true := by
  simp only [drqSet, ideStatusRead, hs, hstatus]
  decide

theorem drqSet_done (hs : s1.curDrive = some s) (hstatus : s.status = readyStat ||| seekStat) :
    drqSet s1 = false := by
  simp only [drqSet, ideStatusRead, hs, hstatus]
  decide

theorem finish_end {cmd : UInt8} (h : s.dataEnd ≤ s.dataIndex) : s.finish cmd = endTransfer cmd s :=
  if_pos h

theorem readWhileDrq_succ (fuel : Nat) (hs : s1.curDrive = some s) (hstatus : s.status = busyWithData)
    (hle : s.dataIndex + 2 ≤ s.dataEnd) :
    readWhileDrq (fuel + 1) s1 = (do
      let s' ← ((s.portAccess 2).moved 2).finish s1.cmd
      let rest ← readWhileDrq fuel (s1.setCur s')
      return rest.map fun (s1, words) =>
        (s1, .ofNat (LittleEndian.get (s.portBytes 2)) :: words)) := by
  have hread : ideDataReadw s1 = _ := ideDataReadElem_fits (w := .word) (by decide) hs hle
  rw [readWhileDrq, if_pos (drqSet_of_status hs hstatus)]
  simp only
  rw [hread]
  simp only [Prog.bind_assoc, Prog.pure_eq, Prog.ret_bind, Width.bytes]
  rfl

theorem readWhileDrq_block (k fuel : Nat) (hs : s1.curDrive = some s)
    (hstatus : s.status = busyWithData) (hidx : 0 ≤ s.dataIndex)
    (hend : s.dataEnd = s.dataIndex + (2 * (k + 1) : Nat)) :
    ∃ words, wordBytes words = s.portBytes (2 * (k + 1)) ∧ words.length = k + 1 ∧
      readWhileDrq (k + 1 + fuel) s1 = (do
        let s' ← endTransfer s1.cmd ((s.portAccess (2 * (k + 1))).moved (2 * (k + 1) : Nat))
        let rest ← readWhileDrq fuel (s1.setCur s')
        return rest.map fun (s1, more) => (s1, words ++ more)) := by
  have hword : ∀ s : IDEState, LittleEndian.put 2 (UInt32.ofNat (LittleEndian.get (s.portBytes 2))).toNat =
      s.portBytes 2 := fun s => put_ofNat_get (w := .word) (by rw [IDEState.portBytes, length_slice]; rfl)
  induction k generalizing s1 s with
  | zero =>
    refine ⟨[.ofNat (LittleEndian.get (s.portBytes 2))], ?_, rfl, ?_⟩
    · rw [wordBytes, List.flatMap_singleton, hword]
    · rw [Nat.zero_add, Nat.add_comm, readWhileDrq_succ fuel hs hstatus (by omega), finish_end]
      · rfl
      · simp only [IDEState.moved, IDEState.portAccess, IDEState.access]
        omega
  | succ k ih =>
    have hmul : 2 * (k + 1 + 1) = 2 + 2 * (k + 1) := by ring
    have hmoved : ((s.portAccess 2).moved 2).dataIndex = s.dataIndex + 2 := rfl
    have hdata : ((s.portAccess 2).moved 2).dataEnd = s.dataEnd := rfl
    obtain ⟨words, hbytes, hlen, hprog⟩ := ih (curDrive_setCur hs ((s.portAccess 2).moved 2)) hstatus
      (by omega) (by omega)
    refine ⟨.ofNat (LittleEndian.get (s.portBytes 2)) :: words, ?_, by rw [List.length_cons, hlen], ?_⟩
    · have hsplit := portBytes_add s hidx 2 (2 * (k + 1))
      rw [hmul, hsplit, wordBytes, List.flatMap_cons, hword]
      exact congrArg _ hbytes
    · have hadd := portAccess_add hidx (a := 2) (b := 2 * (k + 1)) (by omega) (by omega)
      rw [show k + 1 + 1 + fuel = k + 1 + fuel + 1 by omega, readWhileDrq_succ _ hs hstatus (by omega),
        finish_of_lt (by omega)]
      simp only [Prog.ret_bind]
      rw [hprog, hmul, ← hadd]
      simp only [Prog.bind_assoc, Prog.pure_eq, Prog.ret_bind, cmd_setCur, setCur_setCur,
        Option.map_map]
      rfl

theorem length_wordBytes (words : List UInt32) : (wordBytes words).length = 2 * words.length := by
  induction words with
  | nil => rfl
  | cons word words ih =>
    have hcons : wordBytes (word :: words) = LittleEndian.put 2 word.toNat ++ wordBytes words := rfl
    rw [hcons, List.length_append, LittleEndian.length_put, ih, List.length_cons]
    ring

theorem wordBytes_append (xs ys : List UInt32) : wordBytes (xs ++ ys) = wordBytes xs ++ wordBytes ys :=
  List.flatMap_append

theorem writeWhileDrq_succ (words : Nat → UInt32) (fuel sent : Nat) (hs : s1.curDrive = some s)
    (hstatus : s.status = busyWithData) (hle : s.dataIndex + 2 ≤ s.dataEnd) :
    writeWhileDrq words (fuel + 1) sent s1 = (do
      let s' ← ((s.portStore (LittleEndian.put 2 (words sent).toNat)).moved 2).finish s1.cmd
      writeWhileDrq words fuel (sent + 1) (s1.setCur s')) := by
  have helem : s.writeElem (LittleEndian.put 2 (words sent).toNat) =
      some ((s.portStore (LittleEndian.put 2 (words sent).toNat)).moved 2) := by
    unfold IDEState.writeElem
    rw [if_neg (by rw [LittleEndian.length_put]; omega)]
    rfl
  rw [writeWhileDrq, if_pos (drqSet_of_status hs hstatus)]
  simp only [ideDataWritew, ideDataWrite, hs, helem, Prog.bind_assoc, Prog.pure_eq, Prog.ret_bind]

theorem writeWhileDrq_block (words : Nat → UInt32) (k fuel sent : Nat) (hs : s1.curDrive = some s)
    (hstatus : s.status = busyWithData) (hidx : 0 ≤ s.dataIndex)
    (hend : s.dataEnd = s.dataIndex + (2 * (k + 1) : Nat)) :
    writeWhileDrq words (k + 1 + fuel) sent s1 = (do
      let s' ← endTransfer s1.cmd
        ((s.portStore (wordBytes (slice words sent (k + 1)))).moved (2 * (k + 1) : Nat))
      writeWhileDrq words fuel (sent + (k + 1)) (s1.setCur s')) := by
  induction k generalizing s1 s sent with
  | zero =>
    rw [Nat.zero_add, Nat.add_comm, writeWhileDrq_succ words fuel sent hs hstatus (by omega), finish_end]
    · rfl
    · simp only [IDEState.moved, IDEState.portStore, IDEState.portAccess, IDEState.access]
      omega
  | succ k ih =>
    have hmul : 2 * (k + 1 + 1) = 2 + 2 * (k + 1) := by ring
    have hmoved : ∀ bytes, ((s.portStore bytes).moved 2).dataIndex = s.dataIndex + 2 := fun _ => rfl
    have hdata : ∀ bytes, ((s.portStore bytes).moved 2).dataEnd = s.dataEnd := fun _ => rfl
    have hcons : wordBytes (slice words sent (k + 1 + 1)) =
        LittleEndian.put 2 (words sent).toNat ++ wordBytes (slice words (sent + 1) (k + 1)) := by
      rw [slice_succ]
      rfl
    have hlen : (wordBytes (slice words (sent + 1) (k + 1))).length = 2 * (k + 1) := by
      rw [length_wordBytes, length_slice]
    have happ := portStore_append hidx (LittleEndian.put 2 (words sent).toNat)
      (wordBytes (slice words (sent + 1) (k + 1))) (by rw [LittleEndian.length_put]; omega)
      (by rw [hlen]; omega)
    rw [← hcons, LittleEndian.length_put, hlen, length_wordBytes, length_slice] at happ
    rw [show k + 1 + 1 + fuel = k + 1 + fuel + 1 by omega,
      writeWhileDrq_succ words _ sent hs hstatus (by omega),
      finish_of_lt (by rw [hmoved, hdata]; omega)]
    simp only [Prog.ret_bind]
    rw [ih (sent + 1)
      (curDrive_setCur hs ((s.portStore (LittleEndian.put 2 (words sent).toNat)).moved 2)) hstatus
      (by rw [hmoved]; omega) (by rw [hmoved, hdata]; omega)]
    rw [show ((2 : Nat) : Int) = 2 from rfl] at happ
    rw [happ]
    simp only [cmd_setCur, setCur_setCur, show sent + 1 + (k + 1) = sent + (k + 1 + 1) by omega]

end Words

section Sectors
variable {bs : Bool} {size : Nat} {cmd : UInt8} {s : IDEState} {a m : Nat} {d : Nat → UInt8}

theorem wp_afterIrq {α : Type} {k : Unit → IdeProg α} {Q : α → (Nat → UInt8) → Prop}
    (h : wp (diskHost bs size) (k ()) Q d) : wp (diskHost bs size) (ideSetIrq cmd >>= k) Q d := by
  unfold ideSetIrq
  split
  · intro _ d' hd
    rw [show d' = d from hd]
    exact h
  · exact h

theorem wp_endTransfer {α : Type} {p : IdeProg IDEState} {k : IDEState → IdeProg α}
    {Q : α → (Nat → UInt8) → Prop}
    (hp : endTransfer cmd s = .ask (.endTransfer s.bs s.endTransferFunc) fun _ => p)
    (h : wp (diskHost bs size) (p >>= k) Q d) :
    wp (diskHost bs size) (endTransfer cmd s >>= k) Q d := by
  rw [hp]
  intro _ d' hd
  rw [show d' = d from hd]
  exact h

theorem endTransfer_sectorRead (h : s.endTransferFunc = .sectorRead) :
    endTransfer cmd s = .ask (.endTransfer s.bs s.endTransferFunc) fun _ => ideSectorRead cmd s := by
  unfold endTransfer
  rw [h]

theorem endTransfer_sectorReadCbEnd (h : s.endTransferFunc = .sectorReadCbEnd) :
    endTransfer cmd s = .ask (.endTransfer s.bs s.endTransferFunc)
      fun _ => .ret (ideSectorReadCbEnd s) := by
  unfold endTransfer
  rw [h]

theorem endTransfer_sectorWriteCb1 (h : s.endTransferFunc = .sectorWriteCb1) :
    endTransfer cmd s = .ask (.endTransfer s.bs s.endTransferFunc)
      fun _ => ideSectorWriteCb1 cmd s := by
  unfold endTransfer
  rw [h]

theorem toNat_sectorNum {s : IDEState} (h : ideGetSector s = a) (hlba : a < 2 ^ 28) :
    (UInt64.ofInt (ideGetSector s)).toNat = a := by
  rw [h, UInt64.ofInt, UInt64.toNat_ofNat']
  omega

/-- The drive offers the next block of a READ. -/
structure ReadReady (bs : Bool) (d : Nat → UInt8) (a m : Nat) (s : IDEState) (k : Nat) : Prop where
  pos : 0 < k
  le : k ≤ m
  status : s.status = busyWithData
  index : s.dataIndex = 0
  dataEnd : s.dataEnd = (512 * k : Nat)
  data : slice s.ioBuffer 0 (512 * k) = slice d (512 * a) (512 * k)
  next : k < m → s.endTransferFunc = .sectorRead ∧ AtSector bs s (a + k) (m - k)
  last : k = m → s.endTransferFunc = .sectorReadCbEnd ∧ LbaMode s ∧
    ideGetSector s = ((a + m) % 2 ^ 28 : Nat) ∧ s.nsector = 0

theorem readReady_advance (h : AtSector bs s a m) (hlba : a + m ≤ 2 ^ 28) {k : Nat} (hk : 0 < k)
    (hkm : k ≤ m) (hdata : slice s.ioBuffer 0 (512 * k) = slice d (512 * a) (512 * k)) :
    ReadReady bs d a m { ideTransferStart (s.advance k) (512 * k)
        (if (s.advance k).nsector = 0 then .sectorReadCbEnd else .sectorRead) with
      status := readyStat ||| seekStat ||| drqStat, error := 0 } k := by
  have hcount := nsector_advance h hk hkm
  have hbuffer : (s.advance k).ioBuffer = s.ioBuffer := by
    unfold IDEState.advance
    rw [ideSetSector_lba h.lba]
  refine ⟨hk, hkm, rfl, rfl, by simp [ideTransferStart], ?_, fun hlt => ⟨?_, ?_⟩, fun heq => ⟨?_, ?_, ?_, ?_⟩⟩
  · simp only [ideTransferStart]
    rw [hbuffer]
    exact hdata
  · have hne : (s.advance k).nsector ≠ 0 := by
      intro hz
      rw [hz, UInt16.toNat_zero] at hcount
      omega
    simp only [ideTransferStart]
    rw [if_neg hne]
  · exact { atSector_advance h hlba hk hlt with }
  · have hz : (s.advance k).nsector = 0 := UInt16.toNat_inj.mp (by rw [hcount, heq, UInt16.toNat_zero]; omega)
    simp only [ideTransferStart]
    rw [if_pos hz]
  · exact (address_advance h k).1
  · rw [← heq]
    exact (address_advance h k).2
  · exact UInt16.toNat_inj.mp (by rw [UInt16.toNat_zero]; exact hcount.trans (by omega))

theorem wp_ideSectorRead (h : AtSector bs s a m) (hlba : a + m ≤ 2 ^ 28) (hsize : a + m ≤ size) :
    wp (diskHost bs size) (ideSectorRead cmd s)
      (fun s' d' => d' = d ∧ ReadReady bs d a m s' (min m s.reqNbSectors)) d := by
  have hblock := blockSectors_eq h
  have hpos := h.pos
  have hreq := h.block
  have hnum : (UInt64.ofInt (ideGetSector s)).toNat = a := toNat_sectorNum h.address (by omega)
  unfold ideSectorRead
  rw [hblock]
  generalize hk : min m s.reqNbSectors = k
  rintro ⟨ret, bytes⟩ d' hd
  obtain ⟨hr, rfl⟩ := hd h.device (by
    rw [show ideGetSector { s with ioNbSectors := k } = ideGetSector s from rfl, hnum]
    omega)
  rw [show ideGetSector { s with ioNbSectors := k } = ideGetSector s from rfl, hnum] at hr
  obtain ⟨rfl, rfl⟩ := Prod.mk.inj hr
  change wp _ (if (0 : Int) < 0 then _ else if (0 : Int) = 0 then ideSectorReadCb cmd _ else _) _ _
  rw [if_neg (by decide), if_pos rfl]
  unfold ideSectorReadCb
  apply wp_afterIrq
  refine ⟨rfl, ?_⟩
  have hat : AtSector bs ((({ s with ioNbSectors := k }).access 0 (512 * k : Nat)
      s.bufSize).put 0 (slice d' (512 * a) (512 * k))) a m := { h with }
  have hk0 : 0 < k := by omega
  have hkm : k ≤ m := by omega
  refine readReady_advance hat hlba hk0 hkm ?_
  have hself := slice_blit_self s.ioBuffer 0 (slice d' (512 * a) (512 * k))
  rw [length_slice] at hself
  exact hself

/-- What a READ of `m` sectors has delivered. -/
def ReadPost (cur : Option Bool) (d : Nat → UInt8) (a m : Nat)
    (r : Option (IDEIFState × List UInt32)) (d' : Nat → UInt8) : Prop :=
  ∃ s1 s words, r = some (s1, words) ∧ s1.cur = cur ∧ s1.curDrive = some s ∧
    wordBytes words = slice d (512 * a) (512 * m) ∧ words.length = 256 * m ∧ d' = d ∧
    Done s ((a + m) % 2 ^ 28)

theorem readWhileDrq_done {s1 : IDEIFState} (hs : s1.curDrive = some s)
    (hstatus : s.status = readyStat ||| seekStat) (fuel : Nat) :
    readWhileDrq fuel s1 = .ret (some (s1, [])) := by
  unfold readWhileDrq
  rw [if_neg (by rw [drqSet_done hs hstatus]; decide)]

theorem cur_setCur (s1 : IDEIFState) (s : IDEState) : (s1.setCur s).cur = s1.cur := by
  unfold IDEIFState.setCur
  split <;> rfl

/-- The rest of a READ, from the call of `ide_sector_read` on. The induction is on the sectors to
go: each block leaves fewer. -/
theorem wp_readBlocks (m : Nat) : ∀ {a : Nat} {s1 : IDEIFState} {s s' : IDEState} {fuel : Nat},
    s1.curDrive = some s' → AtSector bs s a m → a + m ≤ 2 ^ 28 → a + m ≤ size → 256 * m ≤ fuel →
    wp (diskHost bs size) (ideSectorRead s1.cmd s >>= fun s => readWhileDrq fuel (s1.setCur s))
      (ReadPost s1.cur d a m) d := by
  induction m using Nat.strong_induction_on with
  | _ m ih =>
    intro a s1 s s' fuel hcur h hlba hsize hfuel
    rw [wp_bind]
    refine wp_mono (wp_ideSectorRead h hlba hsize) ?_
    rintro sr d' ⟨rfl, hready⟩
    generalize min m s.reqNbSectors = k at hready
    have hk := hready.pos
    have hkm := hready.le
    have hwords : 256 * k = 256 * k - 1 + 1 := by omega
    have hend := hready.dataEnd
    have hindex := hready.index
    obtain ⟨words, hbytes, hlen, hprog⟩ := readWhileDrq_block (256 * k - 1) (fuel - 256 * k)
      (curDrive_setCur hcur sr) hready.status (by omega) (by omega)
    rw [← hwords] at hbytes hlen hprog
    rw [show 256 * k + (fuel - 256 * k) = fuel by omega] at hprog
    have hdata : wordBytes words = slice d' (512 * a) (512 * k) := by
      rw [hbytes, IDEState.portBytes, hindex, ← hready.data]
      congr 1
      omega
    rw [hprog, cmd_setCur]
    simp only [setCur_setCur]
    generalize hmoved : (sr.portAccess (2 * (256 * k))).moved (2 * (256 * k) : Nat) = sm
    by_cases hlast : k = m
    · obtain ⟨hfunc, hmode, haddr, hcount⟩ := hready.last hlast
      refine wp_endTransfer (endTransfer_sectorReadCbEnd (by rw [← hmoved]; exact hfunc)) ?_
      rw [Prog.ret_bind, readWhileDrq_done (curDrive_setCur hcur (ideSectorReadCbEnd sm)) rfl]
      refine ⟨_, _, words ++ [], rfl, cur_setCur _ _, curDrive_setCur hcur (ideSectorReadCbEnd sm),
        ?_, ?_, rfl, ?_⟩
      · rw [List.append_nil, hdata, hlast]
      · rw [List.append_nil, hlen, hlast]
      · rw [← hmoved]
        exact ⟨hmode, haddr, hcount, rfl⟩
    · obtain ⟨hfunc, hat⟩ := hready.next (by omega)
      refine wp_endTransfer (endTransfer_sectorRead (by rw [← hmoved]; exact hfunc)) ?_
      have hnext : AtSector bs sm (a + k) (m - k) := by
        rw [← hmoved]
        exact { hat with }
      have hrest := ih (m - k) (by omega) hcur hnext (by omega) (by omega)
        (show 256 * (m - k) ≤ fuel - 256 * k by omega)
      rw [← Prog.bind_assoc, wp_bind]
      refine wp_mono hrest ?_
      rintro r d'' ⟨s1', s'', more, rfl, hcur', hdrive, hmore, hmorelen, rfl, hdone⟩
      refine ⟨s1', s'', words ++ more, rfl, hcur', hdrive, ?_, ?_, rfl, ?_⟩
      · have hsplit := slice_add d'' (512 * a) (512 * k) (512 * (m - k))
        rw [wordBytes_append, show 512 * m = 512 * k + 512 * (m - k) by omega, hsplit, ← hdata,
          show 512 * a + 512 * k = 512 * (a + k) by omega, ← hmore]
      · rw [List.length_append, hlen, hmorelen]
        omega
      · rw [show a + m = a + k + (m - k) by omega]
        exact hdone

/-- The drive waits for the next block of a WRITE. -/
structure WriteReady (bs : Bool) (a m : Nat) (s : IDEState) : Prop extends AtSector bs s a m where
  status : s.status = busyWithData
  index : s.dataIndex = 0
  dataEnd : s.dataEnd = (512 * s.ioNbSectors : Nat)
  func : s.endTransferFunc = .sectorWriteCb1
  sectors_pos : 0 < s.ioNbSectors
  sectors_le : s.ioNbSectors ≤ m

theorem writeReady_start (h : AtSector bs s a m) {n : Nat} (hn : n = min m s.reqNbSectors) :
    WriteReady bs a m { ideTransferStart { s with ioNbSectors := n } (512 * n) .sectorWriteCb1 with
      status := readyStat ||| seekStat ||| drqStat } := by
  have hpos := h.pos
  have hreq := h.block
  exact
    { h with
      status := rfl
      index := rfl
      dataEnd := by simp [ideTransferStart]
      func := rfl
      sectors_pos := by simp only [ideTransferStart]; omega
      sectors_le := by simp only [ideTransferStart]; omega }

theorem wp_interrupt {Q : IDEState → (Nat → UInt8) → Prop} (h : Q s d) :
    wp (diskHost bs size) (s.interrupt cmd) Q d := by
  unfold IDEState.interrupt
  exact wp_afterIrq h

theorem wp_ideSectorWriteCb2 (h : AtSector bs s a m) (hlba : a + m ≤ 2 ^ 28)
    (hk : 0 < s.ioNbSectors) (hkm : s.ioNbSectors ≤ m) :
    wp (diskHost bs size) (ideSectorWriteCb2 cmd s)
      (fun s' d' => d' = d ∧
        (s.ioNbSectors < m → WriteReady bs (a + s.ioNbSectors) (m - s.ioNbSectors) s') ∧
        (s.ioNbSectors = m → Done s' ((a + m) % 2 ^ 28))) d := by
  have hcount := nsector_advance h hk hkm
  obtain ⟨hmode, haddr⟩ := address_advance h s.ioNbSectors
  unfold ideSectorWriteCb2
  simp only
  by_cases hz : (s.advance s.ioNbSectors).nsector = 0
  · have hlast : s.ioNbSectors = m := by
      rw [hz, UInt16.toNat_zero] at hcount
      omega
    rw [if_pos hz]
    refine wp_interrupt ⟨rfl, fun hlt => absurd hlast (by omega), fun _ => ⟨hmode, ?_, hz, rfl⟩⟩
    rw [← hlast]
    exact haddr
  · have hmore : s.ioNbSectors < m := by
      refine Nat.lt_of_le_of_ne hkm fun heq => hz (UInt16.toNat_inj.mp ?_)
      rw [UInt16.toNat_zero]
      omega
    have hat := atSector_advance h hlba hk hmore
    rw [if_neg hz]
    refine wp_interrupt ⟨rfl, fun _ => ?_, fun heq => absurd heq (by omega)⟩
    exact writeReady_start hat (by rw [hcount])

theorem wp_ideSectorWriteCb1 (h : AtSector bs s a m) (hlba : a + m ≤ 2 ^ 28) (hsize : a + m ≤ size)
    (hk : 0 < s.ioNbSectors) (hkm : s.ioNbSectors ≤ m) :
    wp (diskHost bs size) (ideSectorWriteCb1 cmd s)
      (fun s' d' => d' = blit d (512 * a) (slice s.ioBuffer 0 (512 * s.ioNbSectors)) ∧
        (s.ioNbSectors < m → WriteReady bs (a + s.ioNbSectors) (m - s.ioNbSectors) s') ∧
        (s.ioNbSectors = m → Done s' ((a + m) % 2 ^ 28))) d := by
  have hnum : (UInt64.ofInt (ideGetSector s)).toNat = a := toNat_sectorNum h.address (by omega)
  generalize hst : (ideTransferStop s).access 0 (512 * s.ioNbSectors) s.bufSize = st
  have hat : AtSector bs st a m := by
    rw [← hst]
    exact { h with }
  have haddr : ideGetSector st = ideGetSector s := by
    rw [← hst]
    rfl
  have hn : st.ioNbSectors = s.ioNbSectors := by rw [← hst]; rfl
  have hbuf : st.ioBuffer = s.ioBuffer := by rw [← hst]; rfl
  have hprog : ideSectorWriteCb1 cmd s = .ask (.writeAsync st.bs (.ofInt (ideGetSector st)) s.ioNbSectors
      (slice st.ioBuffer 0 (512 * s.ioNbSectors))) fun (ret : Int) =>
        if ret < 0 then (ideAbortCommand st).interrupt cmd
        else if ret = 0 then ideSectorWriteCb2 cmd st
        else .ret { st with status := readyStat ||| seekStat ||| busyStat } := by
    rw [← hst]
    rfl
  rw [hprog]
  intro ret d' hd
  obtain ⟨rfl, rfl⟩ := hd hat.device (by rw [haddr, hnum]; omega)
  change wp _ (if (0 : Int) < 0 then _ else if (0 : Int) = 0 then _ else _) _ _
  rw [if_neg (by decide), if_pos rfl, haddr, hnum, hbuf]
  refine wp_mono (wp_ideSectorWriteCb2 hat hlba (by omega) (by omega)) ?_
  rintro s' d' ⟨rfl, hnext, hlast⟩
  rw [hn] at hnext hlast
  exact ⟨rfl, hnext, hlast⟩

/-- What a WRITE of `m` sectors has stored. -/
def WritePost (cur : Option Bool) (words : Nat → UInt32) (sent : Nat) (d : Nat → UInt8) (a m : Nat)
    (r : Option (IDEIFState × Nat)) (d' : Nat → UInt8) : Prop :=
  ∃ s1 s, r = some (s1, sent + 256 * m) ∧ s1.cur = cur ∧ s1.curDrive = some s ∧
    d' = blit d (512 * a) (wordBytes (slice words sent (256 * m))) ∧ Done s ((a + m) % 2 ^ 28)

theorem writeWhileDrq_done {s1 : IDEIFState} (hs : s1.curDrive = some s)
    (hstatus : s.status = readyStat ||| seekStat) (words : Nat → UInt32) (fuel sent : Nat) :
    writeWhileDrq words fuel sent s1 = .ret (some (s1, sent)) := by
  unfold writeWhileDrq
  rw [if_neg (by rw [drqSet_done hs hstatus]; decide)]

/-- The rest of a WRITE, from the block that is being transferred on. -/
theorem wp_writeBlocks (words : Nat → UInt32) (m : Nat) :
    ∀ {a : Nat} (sent : Nat) {s1 : IDEIFState} {s : IDEState} {fuel : Nat} {d : Nat → UInt8},
    s1.curDrive = some s → WriteReady bs a m s → a + m ≤ 2 ^ 28 → a + m ≤ size → 256 * m ≤ fuel →
    wp (diskHost bs size) (writeWhileDrq words fuel sent s1) (WritePost s1.cur words sent d a m) d := by
  induction m using Nat.strong_induction_on with
  | _ m ih =>
    intro a sent s1 s fuel d hcur h hlba hsize hfuel
    have hk := h.sectors_pos
    have hkm := h.sectors_le
    have hend := h.dataEnd
    have hindex := h.index
    generalize hks : s.ioNbSectors = k at hk hkm hend
    have hwords : 256 * k = 256 * k - 1 + 1 := by omega
    have hprog := writeWhileDrq_block words (256 * k - 1) (fuel - 256 * k) sent hcur h.status
      (by omega) (by omega)
    rw [← hwords, show 256 * k + (fuel - 256 * k) = fuel by omega] at hprog
    rw [hprog]
    generalize hbytes : wordBytes (slice words sent (256 * k)) = bytes
    have hlen : bytes.length = 512 * k := by
      rw [← hbytes, length_wordBytes, length_slice]
      omega
    generalize hmoved : (s.portStore bytes).moved (2 * (256 * k) : Nat) = sm
    have hat : AtSector bs sm a m := by
      rw [← hmoved]
      exact { h.toAtSector with }
    have hsmk : sm.ioNbSectors = k := by
      rw [← hmoved]
      exact hks
    have hdata : slice sm.ioBuffer 0 (512 * sm.ioNbSectors) = bytes := by
      have hself := slice_blit_self s.ioBuffer 0 bytes
      rw [hlen] at hself
      rw [hsmk, ← hmoved]
      simp only [IDEState.moved, IDEState.portStore, hindex]
      exact hself
    refine wp_endTransfer (endTransfer_sectorWriteCb1 (by rw [← hmoved]; exact h.func)) ?_
    rw [wp_bind]
    refine wp_mono (wp_ideSectorWriteCb1 hat hlba hsize (by omega) (by omega)) ?_
    rintro s' d' ⟨rfl, hnext, hlast⟩
    rw [hsmk] at hnext hlast
    rw [hdata]
    by_cases hdone : k = m
    · have hdone' := hlast hdone
      rw [writeWhileDrq_done (curDrive_setCur hcur s') hdone'.status]
      refine ⟨_, s', ?_, cur_setCur _ _, curDrive_setCur hcur s', ?_, hdone'⟩
      · rw [hdone]
      · rw [← hbytes, hdone]
    · have hrest := ih (m - k) (by omega) (sent + 256 * k) (d := blit d (512 * a) bytes)
        (curDrive_setCur hcur s') (hnext (by omega)) (by omega) (by omega)
        (show 256 * (m - k) ≤ fuel - 256 * k by omega)
      refine wp_mono hrest ?_
      rintro r d' ⟨s1', s'', rfl, hcur', hdrive, rfl, hfin⟩
      refine ⟨s1', s'', ?_, ?_, hdrive, ?_, ?_⟩
      · rw [show sent + 256 * k + 256 * (m - k) = sent + 256 * m by omega]
      · rw [hcur', cur_setCur]
      · have happ := blit_append d (512 * a) bytes (wordBytes (slice words (sent + 256 * k) (256 * (m - k))))
        rw [hlen, show 512 * a + 512 * k = 512 * (a + k) by omega] at happ
        rw [happ, show 256 * m = 256 * k + 256 * (m - k) by omega, slice_add, wordBytes_append, hbytes]
      · rw [show a + m = a + k + (m - k) by omega]
        exact hfin

end Sectors

theorem setReg_eq {s1 : IDEIFState} {s : IDEState} (hs : s1.curDrive = some s)
    (f : IDEState → IDEState) : s1.setReg f = s1.setCur (f s) := by
  unfold IDEIFState.setReg
  rw [hs]

theorem setReg_setCur {s1 : IDEIFState} {s : IDEState} (hs : s1.curDrive = some s) (x : IDEState)
    (f : IDEState → IDEState) : (s1.setCur x).setReg f = s1.setCur (f x) := by
  rw [setReg_eq (curDrive_setCur hs x), setCur_setCur]

theorem driveRegister (i : Bool) {h : Nat} (hh : h < 16) :
    decide ((UInt32.ofNat (0xe0 + 16 * i.toNat + h) >>> 4) &&& 1 ≠ 0) = i ∧
    (UInt32.ofNat (0xe0 + 16 * i.toNat + h)).toUInt8 &&& 0x40 ≠ 0 ∧
    (UInt32.ofNat (0xe0 + 16 * i.toNat + h)).toUInt8.toNat % 16 = h := by
  have hall : ∀ i : Bool, ∀ h : Fin 16,
      decide ((UInt32.ofNat (0xe0 + 16 * i.toNat + h) >>> 4) &&& 1 ≠ 0) = i ∧
      (UInt32.ofNat (0xe0 + 16 * i.toNat + h)).toUInt8 &&& 0x40 ≠ 0 ∧
      (UInt32.ofNat (0xe0 + 16 * i.toNat + h)).toUInt8.toNat % 16 = h := by decide
  exact hall i ⟨h, hh⟩

section Commands
variable {bs : Bool} {size : Nat} {s1 : IDEIFState} {i : Bool} {s : IDEState} {lba : Nat}

/-- The taskfile as the guest has set it up, on the selected drive. -/
theorem commandLba_eq (hs : s1.drives i = some s) (hhd : s.driveKind = .hd) (hlba : lba < 2 ^ 28)
    (count command : UInt8) :
    ∃ (s1' : IDEIFState) (s' : IDEState), s1'.cur = some i ∧ s1'.cmd = s1.cmd ∧ s1'.curDrive = some s' ∧ LbaMode s' ∧
      ideGetSector s' = lba ∧ s'.nsector = count.toUInt16 ∧ s'.multSectors = s.multSectors ∧
      s'.bs = s.bs ∧
      commandLba i lba count command s1 =
        (ideExecCmd s1.cmd s' command >>= fun s => .ret (s1'.setCur s)) := by
  obtain ⟨hsel, hmode, hhead⟩ := driveRegister i (show lba / 2 ^ 24 % 16 < 16 by omega)
  generalize hreg : UInt32.ofNat (0xe0 + 16 * i.toNat + lba / 2 ^ 24 % 16) = reg at hsel hmode hhead
  have hcur : IDEIFState.curDrive { s1 with cur := some i } = some s := hs
  have hbyte : ∀ n, n < 256 → (UInt32.ofNat n).toUInt8.toNat = n := by
    intro n hn
    rw [UInt32.toNat_toUInt8, UInt32.toNat_ofNat']
    omega
  refine ⟨{ s1 with cur := some i }.setCur { s with
      select := reg.toUInt8
      nsector := count.toUInt32.toUInt16
      sector := (UInt32.ofNat (lba % 256)).toUInt8
      lcyl := (UInt32.ofNat (lba / 2 ^ 8 % 256)).toUInt8
      hcyl := (UInt32.ofNat (lba / 2 ^ 16 % 256)).toUInt8 }, { s with
      select := reg.toUInt8
      nsector := count.toUInt32.toUInt16
      sector := (UInt32.ofNat (lba % 256)).toUInt8
      lcyl := (UInt32.ofNat (lba / 2 ^ 8 % 256)).toUInt8
      hcyl := (UInt32.ofNat (lba / 2 ^ 16 % 256)).toUInt8 }, ?_, ?_, ?_, hmode, ?_, ?_, rfl, rfl, ?_⟩
  · rw [cur_setCur]
  · rw [cmd_setCur]
  · exact curDrive_setCur hcur _
  · refine (ideGetSector_lba ?_).trans ?_
    · exact hmode
    · simp only
      rw [hhead, hbyte _ (by omega), hbyte _ (by omega), hbyte _ (by omega)]
      omega
  · simp
  · unfold commandLba
    rw [hreg]
    simp only [ideIoportWrite, Prog.ret_bind, hsel, setReg_eq hcur, setReg_setCur hcur,
      curDrive_setCur hcur, hhd, cmd_setCur, setCur_setCur, UInt8.toUInt8_toUInt32]
    rfl

theorem atSector_command {count : UInt8} {n : Nat} (hmode : LbaMode s) (haddr : ideGetSector s = lba)
    (hcount : s.nsector = count.toUInt16) (hbs : s.bs = bs) (hn : 0 < n) :
    AtSector bs { s with reqNbSectors := n } lba (sectorsOf count) := by
  have hlt := count.toNat_lt
  have hsectors : 0 < sectorsOf count ∧ sectorsOf count ≤ 256 ∧ count.toNat = sectorsOf count % 256 := by
    unfold sectorsOf
    split
    · rename_i hz
      rw [hz]
      decide
    · rename_i hz
      have hpos : count.toNat ≠ 0 := fun h0 => hz (UInt8.toNat_inj.mp h0)
      omega
  exact
    { lba := hmode
      address := haddr
      pos := hsectors.1
      le := hsectors.2.1
      count := by simp only [hcount, UInt8.toNat_toUInt16]; exact hsectors.2.2
      device := hbs
      block := hn }

/-- The number of sectors a block may have. -/
def blockLimit (multiple : Bool) (s : IDEState) : Nat := if multiple then s.multSectors else 1

theorem ideExecCmd_read (multiple : Bool) (cmd : UInt8) (h : multiple = true → s.multSectors ≠ 0) :
    ideExecCmd cmd s (if multiple then winMultread else winRead) =
      ideSectorRead cmd { s with reqNbSectors := blockLimit multiple s } := by
  cases multiple with
  | false => rfl
  | true =>
    have hmult : ideExecCmd cmd s winMultread = if s.multSectors = 0
      then (ideAbortCommand s).interrupt cmd
      else ideSectorRead cmd { s with reqNbSectors := s.multSectors } := rfl
    exact hmult.trans (if_neg (h rfl))

theorem ideExecCmd_write (multiple : Bool) (cmd : UInt8) (h : multiple = true → s.multSectors ≠ 0) :
    ideExecCmd cmd s (if multiple then winMultwrite else winWrite) =
      .ret (ideSectorWrite { s with reqNbSectors := blockLimit multiple s }) := by
  cases multiple with
  | false => rfl
  | true =>
    have hmult : ideExecCmd cmd s winMultwrite = if s.multSectors = 0
      then (ideAbortCommand s).interrupt cmd
      else .ret (ideSectorWrite { s with reqNbSectors := s.multSectors }) := rfl
    exact hmult.trans (if_neg (h rfl))

theorem blockLimit_pos {multiple : Bool} (h : multiple = true → s.multSectors ≠ 0) :
    0 < blockLimit multiple s := by
  unfold blockLimit
  split
  · exact Nat.pos_of_ne_zero (h ‹_›)
  · decide

end Commands

/-- A READ or WRITE, single or multiple, moves the sectors it was asked for: it delivers them in
order, or stores the words it was given, and leaves the next address in the taskfile. -/
theorem pio_moves_sectors {bs : Bool} {size : Nat} {s1 : IDEIFState} {i : Bool} {s : IDEState}
    (hs : s1.drives i = some s) (hhd : s.driveKind = .hd) (hbs : s.bs = bs) (multiple : Bool)
    (hmult : multiple = true → s.multSectors ≠ 0) (lba : Nat) (count : UInt8)
    (hlba : lba + sectorsOf count ≤ 2 ^ 28) (hsize : lba + sectorsOf count ≤ size)
    (words : Nat → UInt32) (fuel : Nat) (hfuel : 256 * sectorsOf count ≤ fuel) (d : Nat → UInt8) :
    wp (diskHost bs size) (readSectors multiple i lba count fuel s1)
      (ReadPost (some i) d lba (sectorsOf count)) d ∧
    wp (diskHost bs size) (writeSectors multiple i lba count words fuel s1)
      (WritePost (some i) words 0 d lba (sectorsOf count)) d := by
  have hlt : lba < 2 ^ 28 := by
    have hpos : 0 < sectorsOf count := by
      unfold sectorsOf
      split
      · decide
      · rename_i hz
        exact Nat.pos_of_ne_zero fun h0 => hz (UInt8.toNat_inj.mp h0)
    omega
  constructor
  · obtain ⟨s1', s', hcur, hcmd, hdrive, hmode, haddr, hcount, hsame, hdev, hprog⟩ :=
      commandLba_eq hs hhd hlt count (if multiple then winMultread else winRead)
    have hmult' : multiple = true → s'.multSectors ≠ 0 := fun h => by rw [hsame]; exact hmult h
    have hat := atSector_command hmode haddr hcount (hdev.trans hbs) (blockLimit_pos hmult')
    unfold readSectors
    rw [hprog, ideExecCmd_read multiple s1.cmd hmult', Prog.bind_assoc, ← hcmd, ← hcur]
    exact wp_readBlocks (sectorsOf count) hdrive hat hlba hsize hfuel
  · obtain ⟨s1', s', hcur, hcmd, hdrive, hmode, haddr, hcount, hsame, hdev, hprog⟩ :=
      commandLba_eq hs hhd hlt count (if multiple then winMultwrite else winWrite)
    have hmult' : multiple = true → s'.multSectors ≠ 0 := fun h => by rw [hsame]; exact hmult h
    have hat := atSector_command hmode haddr hcount (hdev.trans hbs) (blockLimit_pos hmult')
    have hready : WriteReady bs lba (sectorsOf count) (ideSectorWrite
        { s' with reqNbSectors := blockLimit multiple s' }) := writeReady_start hat (blockSectors_eq hat)
    unfold writeSectors
    rw [hprog, ideExecCmd_write multiple s1.cmd hmult', Prog.ret_bind, Prog.ret_bind, ← hcur,
      ← cur_setCur s1']
    exact wp_writeBlocks words (sectorsOf count) 0 (curDrive_setCur hdrive _) hready hlba hsize hfuel

def oneDisk : IDEIFState where
  drives i := if i then none else some (ideHddriveInit 16 (by decide) false (2 ^ 20) none)

/-- READ MULTIPLE of the sectors 1000 and 1001. -/
theorem pio_moves_sectors_multiple :
    wp (diskHost false (2 ^ 20)) (readSectors true false 1000 2 512 oneDisk)
      (ReadPost (some false) (fun n => .ofNat n) 1000 2) (fun n => .ofNat n) :=
  (pio_moves_sectors (s := ideHddriveInit 16 (by decide) false (2 ^ 20) none) rfl rfl rfl true
    (by decide) 1000 2 (by decide) (by decide) (fun _ => 0) 512 (by decide) _).1

/-- A device that does what `diskHost` asks for. -/
def serve (d : Nat → UInt8) : (op : IdeOp) → ideSig.Answer op × (Nat → UInt8)
  | .readAsync _ sectorNum n => ((0, slice d (512 * sectorNum.toNat) (512 * n)), d)
  | .writeAsync _ sectorNum _ data => ((0 : Int), blit d (512 * sectorNum.toNat) data)
  | .flush _ => ((0 : Int), d)
  | .getSectorCount _ => ((2 ^ 20 : Int), d)
  | .setIrq _ => ((), d)
  | .endTransfer _ _ => ((), d)

theorem diskHost_serve (bs : Bool) (size : Nat) (d : Nat → UInt8) (op : IdeOp) :
    diskHost bs size d op (serve d op).1 (serve d op).2 := by
  cases op <;> simp [diskHost, serve]

/-- SET MULTIPLE accepts 0, and READ MULTIPLE is aborted then. -/
theorem readMultiple_aborts :
    ∃ s1 : IDEIFState, Runs (diskHost false (2 ^ 20)) (do
        let s1 ← commandLba false 0 0 winSetmult oneDisk
        readSectors true false 0 1 256 s1)
      (fun n => .ofNat n) (some (s1, [])) (fun n => .ofNat n) := by
  have hrun := exec_runs id (diskHost_serve false (2 ^ 20)) (do
    let s1 ← commandLba false 0 0 winSetmult oneDisk
    readSectors true false 0 1 256 s1) (fun n => .ofNat n)
  exact ⟨_, hrun⟩

end Winspire.Ide
