import Winspire.Netblk.Client

/-!
# The disk behind the network

The server of netblock_server.c seen request by request: an image of sectors and the answer
to each request. `Winspire.Server` derives this view from the byte-level server. The link
adds faults: a request that may fail gets no response, and a failed WRITE leaves arbitrary
data in the sectors it names, since the server stores the payload as it arrives.
-/

namespace Winspire.Netblk

open Interaction

set_option autoImplicit false

/-- The options of `parse_args` that requests depend on. It accepts `--max-sectors` from 1 to
1024 only. -/
structure ServerConfig where
  maxSectors : Nat := 1024
  readOnly : Bool := false
  strictFlush : Bool := false
  one_le_maxSectors : 1 ≤ maxSectors := by decide
  maxSectors_le : maxSectors ≤ netblkMaxSectors := by decide

def defaultConfig : ServerConfig := {}

/-- An image file has a positive signed 64-bit size, so fewer than 2^54 whole sectors. -/
structure Disk where
  cfg : ServerConfig
  sectorCount : Nat
  image : Nat → Sector
  sectorCount_lt : sectorCount < 2 ^ 54

def initHeader (op : UInt16) (lba : UInt64) (count bytes status flags : UInt32) :
    NetBlockHeader where
  magic := netblkMagic
  version := netblkVersion
  op := op
  lba := lba
  count := count
  bytes := bytes
  status := status
  flags := flags

def Disk.admits (d : Disk) : Request → Prop
  | .read lba count => 0 < count ∧ count ≤ d.cfg.maxSectors ∧ lba + count ≤ d.sectorCount
  | .write _ lba data => d.cfg.readOnly = false ∧ 0 < data.length ∧
      data.length ≤ netblkMaxSectors ∧ lba + data.length ≤ d.sectorCount
  | _ => True

instance (d : Disk) : (q : Request) → Decidable (d.admits q)
  | .read lba count => inferInstanceAs
      (Decidable (0 < count ∧ count ≤ d.cfg.maxSectors ∧ lba + count ≤ d.sectorCount))
  | .write _ lba data => inferInstanceAs (Decidable (d.cfg.readOnly = false ∧ 0 < data.length ∧
      data.length ≤ netblkMaxSectors ∧ lba + data.length ≤ d.sectorCount))
  | .hello _ | .flush | .ping _ _ => inferInstanceAs (Decidable True)

def Disk.reply (d : Disk) : Request → Response
  | .hello _ => ⟨initHeader netblkOpHello (.ofNat d.sectorCount) 512 (.ofNat d.cfg.maxSectors) 0
      (if d.cfg.readOnly then 0 else 1), []⟩
  | .read lba count => ⟨initHeader netblkOpRead (.ofNat lba) (.ofNat count)
      (.ofNat (count * sectorSize)) 0 0, slice d.image lba count⟩
  | .write _ lba data => ⟨initHeader netblkOpWrite (.ofNat lba) (.ofNat data.length) 0 0 0, []⟩
  | .flush => ⟨initHeader netblkOpFlush 0 0 0 0 0, []⟩
  | .ping _ _ => ⟨initHeader netblkOpPing 0 0 0 0 0, []⟩

def Disk.after (d : Disk) : Request → Disk
  | .write _ lba data => { d with image := blit d.image lba data }
  | _ => d

/-- The disk after a failed request: `img` is what the named sectors hold now. -/
def Disk.damage (d : Disk) (img : Nat → Sector) : Request → Disk
  | .write _ lba data => { d with image := blit d.image lba (slice img lba data.length) }
  | _ => d

/-- The disk and the requests sent to it, latest first, with whether each succeeded. -/
structure Link where
  disk : Disk
  log : List (Request × Bool) := []

/-- `mayFail` says which requests can fail. An inadmissible one always does. Here a failed request
leaves no part of its answer behind; in `Winspire.Netblk.Socket` it may. -/
def link (mayFail : Request → Prop) : Env netSig Link := fun l op r l' =>
  match op with
  | .request q =>
    (l.disk.admits q ∧ r = some (l.disk.reply q) ∧ l' = ⟨l.disk.after q, (q, true) :: l.log⟩) ∨
    (¬l.disk.admits q ∧ r = none ∧ l' = ⟨l.disk, (q, false) :: l.log⟩) ∨
    (mayFail q ∧ r = none ∧ ∃ img, l' = ⟨l.disk.damage img q, (q, false) :: l.log⟩)
  | .alloc => l' = l
  | .netWaitUs => l' = l

/-- One way the link can answer: the requests in `refuse` fail and change nothing, allocations
succeed. -/
def answer (refuse : Request → Bool) (l : Link) : (op : NetOp) → netSig.Answer op × Link
  | .request q =>
    if l.disk.admits q ∧ refuse q = false
    then (some (l.disk.reply q), ⟨l.disk.after q, (q, true) :: l.log⟩)
    else (none, ⟨l.disk, (q, false) :: l.log⟩)
  | .alloc => (true, l)
  | .netWaitUs => (0, l)

theorem damage_self (d : Disk) (q : Request) : d.damage d.image q = d := by
  cases q with
  | write site lba data =>
    have himage : blit d.image lba (slice d.image lba data.length) = d.image := by
      funext x
      rw [blit_slice_apply]
      split
      · congr 1
        omega
      · rfl
    rw [Disk.damage, himage]
  | _ => rfl

theorem answer_link {refuse : Request → Bool} {mayFail : Request → Prop}
    (h : ∀ q, refuse q = true → mayFail q) (l : Link) (op : NetOp) :
    link mayFail l op (answer refuse l op).1 (answer refuse l op).2 := by
  cases op with
  | request q =>
    unfold answer
    by_cases hok : l.disk.admits q ∧ refuse q = false
    · simp only [if_pos hok]
      exact Or.inl ⟨hok.1, rfl, rfl⟩
    · simp only [if_neg hok]
      by_cases hadm : l.disk.admits q
      · have href : refuse q = true := by
          by_contra hne
          exact hok ⟨hadm, by simpa using hne⟩
        refine Or.inr (Or.inr ⟨h q href, rfl, l.disk.image, ?_⟩)
        rw [damage_self]
      · exact Or.inr (Or.inl ⟨hadm, rfl, rfl⟩)
  | alloc => rfl
  | netWaitUs => rfl

/-- The connection and the server are faultless. -/
def faultless : Env netSig Link := link fun _ => False

theorem link_total (f : Request → Prop) (l : Link) (op : NetOp) : ∃ r l', link f l op r l' := by
  cases op with
  | request q =>
    by_cases h : l.disk.admits q
    · exact ⟨_, _, Or.inl ⟨h, rfl, rfl⟩⟩
    · exact ⟨_, _, Or.inr (Or.inl ⟨h, rfl, rfl⟩)⟩
  | alloc => exact ⟨true, l, rfl⟩
  | netWaitUs => exact ⟨(0 : UInt64), l, rfl⟩

/-- The rule for a request the server admits: it succeeds, or it is one that may fail. -/
theorem wp_request {α : Type} {mayFail : Request → Prop} {q : Request}
    {k : Option Response → NetProg α} {Q : α → Link → Prop} {l : Link}
    (hadm : l.disk.admits q)
    (hok : wp (link mayFail) (k (some (l.disk.reply q))) Q ⟨l.disk.after q, (q, true) :: l.log⟩)
    (hfail : mayFail q → ∀ img,
      wp (link mayFail) (k none) Q ⟨l.disk.damage img q, (q, false) :: l.log⟩) :
    wp (link mayFail) (.ask (.request q) k) Q l := by
  intro r l' hr
  rcases hr with ⟨_, rfl, rfl⟩ | ⟨hno, _⟩ | ⟨hq, rfl, img, rfl⟩
  · exact hok
  · exact absurd hadm hno
  · exact hfail hq img

@[simp] theorem after_cfg (d : Disk) (q : Request) : (d.after q).cfg = d.cfg := by
  cases q <;> rfl

@[simp] theorem after_sectorCount (d : Disk) (q : Request) :
    (d.after q).sectorCount = d.sectorCount := by
  cases q <;> rfl

@[simp] theorem damage_cfg (d : Disk) (img : Nat → Sector) (q : Request) :
    (d.damage img q).cfg = d.cfg := by
  cases q <;> rfl

@[simp] theorem damage_sectorCount (d : Disk) (img : Nat → Sector) (q : Request) :
    (d.damage img q).sectorCount = d.sectorCount := by
  cases q <;> rfl

end Winspire.Netblk
