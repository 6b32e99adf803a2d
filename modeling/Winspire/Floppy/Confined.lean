import Winspire.Floppy.Emulink

/-!
# Floppies stay in their images

What a seek and a transfer do, the invariant of the command in force, and the runs that keep every
byte inside the images.
-/

namespace Winspire.Floppy

open Ide (ImageFile FileAccess int32 int32_eq)

set_option autoImplicit false

theorem fmt_total_le (j : Fin fmt.length) : (fmt.get j).total ≤ 7968 := by
  revert j
  decide

namespace FdFmt
variable {f : FdFmt} {chs count : BitVec 32}

theorem Holds.lba_nonneg (h : f.Holds chs count) : 0 ≤ f.lba chs := by
  have hs := h.2.2.1
  show 0 ≤ (_ : Int) + (((chs &&& 0xff).toNat : Int) - 1)
  apply Int.add_nonneg (Int.natCast_nonneg _)
  omega

/-- The sectors of an address that holds are bytes of the image. -/
theorem Holds.inside (h : f.Holds chs count) (hf : f.total ≤ 7968) :
    f.offset chs + (count.toNat * 512 : Nat) ≤ f.bytes := by
  have hlba := h.lba_nonneg
  have hlast := h.2.2.2.2
  have hoffset : f.offset chs = 512 * f.lba chs := int32_eq (by omega) (by omega)
  unfold bytes
  omega

end FdFmt

theorem leftOf_le (count : BitVec 32) : leftOf count ≤ (count.toNat * 512 : Nat) := by
  unfold leftOf
  have htoInt : (512 * count).toInt ≤ ((512 * count).toNat : Int) := by
    rw [BitVec.toInt_eq_toNat_cond]
    split <;> omega
  have hmul : (512 * count).toNat ≤ count.toNat * 512 := by
    rw [BitVec.toNat_mul, Nat.mul_comm]
    exact Nat.mod_le _ _
  omega

theorem File.fseek_some {f f' : File} {offset : Int} (h : f.fseek offset = some f') :
    0 ≤ offset ∧ f'.image = f.image ∧ (f'.pos : Int) = offset := by
  unfold File.fseek at h
  split at h
  · cases h
  · obtain rfl := Option.some.inj h
    exact ⟨by omega, rfl, by show ((offset.toNat : Nat) : Int) = _; omega⟩

/-- What the transfers have in common: at most `len` bytes, from the position on; an image that
they stay in keeps its size, and one of which they move nothing stays as it is. -/
structure Moves (f : File) (len : Nat) (m : List UInt8 × File) : Prop where
  le : m.1.length ≤ len
  pos : m.2.pos = f.pos + m.1.length
  size : f.pos + m.1.length ≤ f.image.size → m.2.image.size = f.image.size
  nothing : m.1.length = 0 → m.2.image = f.image

theorem moves_fwrite (f : File) (buf : List UInt8) (moved : Nat) :
    Moves f buf.length (f.fwrite buf moved) := by
  refine ⟨?_, rfl, fun h => ?_, fun h => ?_⟩
  · show (buf.take moved).length ≤ _
    rw [List.length_take]
    exact Nat.min_le_right _ _
  · change f.pos + (buf.take moved).length ≤ _ at h
    show (FileAccess.write _ _ _ _).size = _
    unfold FileAccess.write
    simp only
    split
    · exact max_eq_left h
    · rfl
  · change (buf.take moved).length = 0 at h
    show FileAccess.write _ _ _ _ = _
    unfold FileAccess.write
    rw [if_neg]
    rintro ⟨-, hne⟩
    exact hne (List.length_eq_zero_iff.mp h)

theorem moves_fread (f : File) (len moved : Nat) :
    Moves f len (f.fread len moved) ∧ (f.fread len moved).2.image = f.image ∧
      ((f.fread len moved).1.length ≠ 0 →
        f.pos + (f.fread len moved).1.length ≤ f.image.size) := by
  have hlen : (f.fread len moved).1.length = min moved (min len (f.image.size - f.pos)) := by
    simp [File.fread, FileAccess.read, ImageFile.fread]
  refine ⟨⟨?_, rfl, fun _ => rfl, fun _ => rfl⟩, rfl, ?_⟩
  · omega
  · omega

namespace EMULINK

/-- A transfer command has all of its arguments. -/
def InForce (e : EMULINK) : Prop := (e.cmd = CMD_READ ∨ e.cmd = CMD_WRITE) ∧ e.argi = 3

structure Same (e e' : EMULINK) : Prop where
  fdd : e'.fdd = e.fdd
  fdfmti : e'.fdfmti = e.fdfmti

theorem not_inForce_of_cmd {e : EMULINK} (h : e.cmd = -1) : ¬e.InForce := by
  rintro ⟨hcmd | hcmd, -⟩
  · exact absurd (h.symm.trans hcmd) (by decide)
  · exact absurd (h.symm.trans hcmd) (by decide)

theorem execCmd_idle {e : EMULINK} (h : ¬e.InForce) :
    ∃ e', e.execCmd = some e' ∧ Same e e' ∧ ¬e'.InForce := by
  have hend : ∀ status, ¬EMULINK.InForce { e with status := status, cmd := -1 } :=
    fun _ => not_inForce_of_cmd rfl
  unfold execCmd
  split
  · exact ⟨_, rfl, ⟨rfl, rfl⟩, hend _⟩
  split
  · exact ⟨_, rfl, ⟨rfl, rfl⟩, hend _⟩
  split
  · rename_i hcmd
    rw [if_neg fun hargi => h ⟨hcmd, hargi⟩]
    exact ⟨e, rfl, ⟨rfl, rfl⟩, h⟩
  · exact ⟨e, rfl, ⟨rfl, rfl⟩, h⟩

theorem execCmd_inForce {e : EMULINK} (h : e.InForce) : e.execCmd = e.seek := by
  unfold execCmd
  obtain ⟨hcmd, hargi⟩ := h
  have h0 : e.cmd ≠ 0 := by
    rcases hcmd with hcmd | hcmd <;> rw [hcmd] <;> decide
  have h100 : e.cmd ≠ 0x100 := by
    rcases hcmd with hcmd | hcmd <;> rw [hcmd] <;> decide
  rw [if_neg h0, if_neg h100, if_pos hcmd, if_pos hargi]

theorem seek_cases {e : EMULINK} {d : Fin 2} (hd : slot (e.args 0) = some d) :
    (∃ errno, e.seek = some (e.fail errno)) ∨
    ∃ f f', e.fdd d = some f ∧ f.fseek ((e.format d).offset (e.args 1)) = some f' ∧
      e.seek = some { e.setFile d (some f') with status := 0, dataleft := leftOf (e.args 2) } := by
  simp only [seek, hd]
  cases hf : e.fdd d with
  | none => exact .inl ⟨_, rfl⟩
  | some f =>
    simp only
    cases hs : f.fseek ((e.format d).offset (e.args 1)) with
    | none => exact .inl ⟨_, rfl⟩
    | some f' => exact .inr ⟨f, f', rfl, hs, rfl⟩

theorem same_fail (e : EMULINK) (errno : BitVec 32) : Same e (e.fail errno) := ⟨rfl, rfl⟩

theorem fail_idle (e : EMULINK) (errno : BitVec 32) : ¬(e.fail errno).InForce :=
  not_inForce_of_cmd rfl

/-- The next argument completes a transfer command, or leaves none in force. -/
theorem pushArg_inForce (e : EMULINK) (val : BitVec 32) :
    (e.pushArg val).InForce ↔ e.Issuing := by
  unfold pushArg InForce Issuing
  split
  · constructor
    · rintro ⟨hcmd, hargi⟩
      exact ⟨Nat.succ.inj hargi, hcmd⟩
    · rintro ⟨hargi, hcmd⟩
      exact ⟨hcmd, congrArg Nat.succ hargi⟩
  · rename_i h
    constructor
    · rintro ⟨-, hargi⟩
      omega
    · rintro ⟨hargi, -⟩
      omega

theorem same_pushArg (e : EMULINK) (val : BitVec 32) : Same e (e.pushArg val) := by
  unfold pushArg
  split
  · exact ⟨rfl, rfl⟩
  · exact ⟨rfl, rfl⟩

/-- The device after a transfer that moved `n` of `len` bytes. -/
def finish (e : EMULINK) (d : Fin 2) (f : File) (n len : Nat) : EMULINK :=
  let e := e.setFile d (some f)
  if n ≠ len then e.fail 1
  else
    let e := { e with dataleft := e.dataleft - len }
    if e.dataleft = 0 then { e with cmd := -1, status := 0 } else e

section Finish
variable (e : EMULINK) (d : Fin 2) (f : File) (n len : Nat)

theorem fdd_finish : (e.finish d f n len).fdd = (e.setFile d (some f)).fdd := by
  unfold finish
  simp only
  split
  · rfl
  · split <;> rfl

theorem fdfmti_finish : (e.finish d f n len).fdfmti = e.fdfmti := by
  unfold finish
  simp only
  split
  · rfl
  · split <;> rfl

theorem finish_done (hcmd : e.cmd = CMD_READ ∨ e.cmd = CMD_WRITE)
    (h : (e.finish d f n len).cmd = -1 ∧ (e.finish d f n len).status = 0) :
    n = len ∧ e.dataleft - len = 0 := by
  unfold finish at h
  simp only at h
  split at h
  · exact absurd h.2 (by show ¬(-1#32 = 0); decide)
  · rename_i hn
    split at h
    · rename_i hleft
      exact ⟨not_not.mp hn, hleft⟩
    · have hend : e.cmd = -1 := h.1
      rw [hend] at hcmd
      exact absurd hcmd (by decide)

theorem finish_inForce (h : (e.finish d f n len).InForce) :
    n = len ∧ e.dataleft - len ≠ 0 ∧
      e.finish d f n len = { e.setFile d (some f) with dataleft := e.dataleft - len } := by
  unfold finish at h ⊢
  simp only at h ⊢
  split at h
  · exact absurd h (fail_idle _ _)
  · rename_i hn
    split at h
    · exact absurd h (not_inForce_of_cmd rfl)
    · rename_i hleft
      rw [if_neg hn, if_neg hleft]
      exact ⟨not_not.mp hn, hleft, rfl⟩

end Finish

theorem transfer_cases {e : EMULINK} {cmd : BitVec 32} {size count : Nat}
    (h : e.Transfers cmd size count) (move : File → Nat → List UInt8 × File) :
    e.transfer cmd size count move = some ([], e.fail 1) ∨
    ∃ d f, ∃ len : Nat, e.cmd = cmd ∧ e.argi = 3 ∧ slot (e.args 0) = some d ∧ e.fdd d = some f ∧
      (len : Int) ≤ e.dataleft ∧
      e.transfer cmd size count move =
        some ((move f len).1, e.finish d (move f len).2 (move f len).1.length len) := by
  unfold transfer
  by_cases hcmd : e.cmd = cmd
  · obtain ⟨d, hd, hlen⟩ := h hcmd
    simp only [if_pos hcmd, hd]
    cases hf : e.fdd d with
    | none => exact .inl rfl
    | some f =>
      by_cases hargi : e.argi = 3
      · simp only [if_pos hargi]
        by_cases hleft : e.dataleft < int32 (size * count : Nat)
        · exact .inl (if_pos hleft)
        · have hpos : 0 ≤ int32 (size * count : Nat) :=
            (hlen (by rw [hf]; rfl) hargi).resolve_left hleft
          obtain ⟨len, hlen⟩ := Int.eq_ofNat_of_zero_le hpos
          right
          refine ⟨d, f, len, hcmd, hargi, rfl, hf, by omega, ?_⟩
          simp only [hlen, Int.toNat_natCast] at hleft ⊢
          rw [if_neg hleft, if_neg (Int.not_lt.mpr (Int.natCast_nonneg len))]
          unfold finish
          by_cases hn : (move f len).1.length = len
          · simp only [hn, ne_eq, not_true_eq_false, if_false]
          · simp only [ne_eq, Int.ofNat_inj, hn, not_false_eq_true, if_true]
      · simp only [if_neg hargi]
        exact .inl trivial
  · exact .inl (if_neg hcmd)

end EMULINK

open EMULINK (slot)

/-- The command in force: its bytes are split between those moved and those left, and its file
stands behind those moved. -/
structure Serving (e : EMULINK) (c : Issued) : Prop where
  cmd : c.cmd = e.cmd
  drive : c.drive = e.args 0
  done : c.done = false
  left : e.dataleft + c.moved = leftOf c.count
  fresh : e.dataleft = 0 → c.moved = 0
  place : ∃ d f, slot (e.args 0) = some d ∧ e.fdd d = some f ∧ 0 ≤ (e.format d).offset c.chs ∧
    (f.pos : Int) = (e.format d).offset c.chs + c.moved ∧ (e.format d).Serves c.cmd c.chs c.count

namespace Serving
variable {e : EMULINK} {c : Issued}

/-- What a transfer moves lies in the image: a read gets no further, and a write that has bytes left
has its sectors on the disk. -/
theorem inside {d : Fin 2} {f : File} {len n : Nat}
    (hs : Serving e c) (hcmd : e.cmd = CMD_READ ∨ e.cmd = CMD_WRITE)
    (hd : slot (e.args 0) = some d) (hf : e.fdd d = some f)
    (hsize : f.image.size = (e.format d).bytes)
    (hleft : (len : Int) ≤ e.dataleft) (hn : n ≤ len) (hne : n ≠ 0)
    (hread : e.cmd = CMD_READ → f.pos + n ≤ f.image.size) :
    f.pos + n ≤ (e.format d).bytes ∧
      (e.cmd = CMD_WRITE → (e.format d).Holds c.chs c.count) := by
  obtain ⟨d', f', hd', hf', hpos, hplace, hserves⟩ := hs.place
  obtain rfl := Option.some.inj (hd.symm.trans hd')
  obtain rfl := Option.some.inj (hf.symm.trans hf')
  rcases hcmd with hcmd | hcmd
  · refine ⟨hsize ▸ hread hcmd, fun h => ?_⟩
    exact absurd (hcmd.symm.trans h) (by decide)
  · have hleftOf := hs.left
    rcases hserves with hneg | hneg | hserves
    · omega
    · omega
    · rw [hs.cmd, hcmd, if_neg (by decide)] at hserves
      obtain ⟨heq, hzero | hholds⟩ := hserves
      · rw [hzero] at heq
        have : leftOf 0 = 0 := by decide
        rw [hzero, this] at hleftOf
        omega
      · have hinside := hholds.inside (fmt_total_le (e.fdfmti d))
        refine ⟨?_, fun _ => hholds⟩
        rw [heq] at hleftOf
        change (e.format d).offset c.chs + _ ≤ ((e.format d).bytes : Int) at hinside
        omega

/-- A command that has moved all its bytes has moved as many as its count says. -/
theorem complete {d : Fin 2} {f : File} {len : Nat}
    (hs : Serving e c) (hcmd : e.cmd = CMD_READ ∨ e.cmd = CMD_WRITE)
    (hd : slot (e.args 0) = some d) (hf : e.fdd d = some f)
    (hsize : f.image.size = (e.format d).bytes) (hleft : e.dataleft - len = 0)
    (hread : e.cmd = CMD_READ → len ≠ 0 → f.pos + len ≤ f.image.size) :
    c.count.toNat * 512 ≤ c.moved + len := by
  obtain ⟨d', f', hd', hf', hpos, hplace, hserves⟩ := hs.place
  obtain rfl := Option.some.inj (hd.symm.trans hd')
  obtain rfl := Option.some.inj (hf.symm.trans hf')
  have hleftOf := hs.left
  rcases hserves with hneg | hneg | hserves
  · omega
  · omega
  · rw [hs.cmd] at hserves
    rcases hcmd with hcmd | hcmd
    · rw [hcmd, if_pos rfl] at hserves
      rcases hserves with heq | ⟨hne, hbeyond⟩
      · omega
      · -- the count has wrapped: the last bytes would lie beyond the image
        have hlen : len ≠ 0 := by
          rintro rfl
          have hfresh := hs.fresh (by omega)
          omega
        have hin := hread hcmd hlen
        omega
    · rw [hcmd, if_neg (by decide)] at hserves
      omega

end Serving

/-- A transfer of at most `len` bytes that serves the command in force. -/
structure Moving (e : EMULINK) (c : Issued) (d : Fin 2) (f : File) (len : Nat)
    (m : List UInt8 × File) : Prop where
  cmd : e.cmd = CMD_READ ∨ e.cmd = CMD_WRITE
  drive : slot (e.args 0) = some d
  file : e.fdd d = some f
  size : f.image.size = (e.format d).bytes
  left : (len : Int) ≤ e.dataleft
  moves : Moves f len m
  read : e.cmd = CMD_READ → m.2.image = f.image ∧
    (m.1.length ≠ 0 → f.pos + m.1.length ≤ f.image.size)
  serving : Serving e c

namespace Moving
variable {e : EMULINK} {c : Issued} {d : Fin 2} {f : File} {len : Nat} {m : List UInt8 × File}

theorem inside (h : Moving e c d f len m) (hne : m.1.length ≠ 0) :
    f.pos + m.1.length ≤ (e.format d).bytes ∧
      (e.cmd = CMD_WRITE → (e.format d).Holds c.chs c.count) :=
  h.serving.inside h.cmd h.drive h.file h.size h.left h.moves.le hne fun hread =>
    (h.read hread).2 hne

theorem size_kept (h : Moving e c d f len m) : m.2.image.size = f.image.size := by
  by_cases hne : m.1.length = 0
  · rw [h.moves.nothing hne]
  · exact h.moves.size (h.size ▸ (h.inside hne).1)

theorem most (h : Moving e c d f len m) : c.moved + m.1.length ≤ c.count.toNat * 512 := by
  have hle := leftOf_le c.count
  have hsum := h.serving.left
  have hleft := h.left
  have hn := h.moves.le
  omega

theorem least (h : Moving e c d f len m)
    (hdone : (e.finish d m.2 m.1.length len).cmd = -1 ∧
      (e.finish d m.2 m.1.length len).status = 0) :
    c.count.toNat * 512 ≤ c.moved + m.1.length := by
  obtain ⟨hn, hzero⟩ := EMULINK.finish_done _ _ _ _ _ h.cmd hdone
  rw [hn]
  apply h.serving.complete h.cmd h.drive h.file h.size hzero
  intro hread hne
  rw [← hn] at hne ⊢
  exact (h.read hread).2 hne

/-- Only a write to sectors of the disk changes the image. -/
theorem unchanged (h : Moving e c d f len m) (hnot : ¬e.Valid c) : m.2.image = f.image := by
  rcases h.cmd with hcmd | hcmd
  · exact (h.read hcmd).1
  · apply h.moves.nothing
    by_contra hne
    have hsome : (e.fdd d).isSome := by
      rw [h.file]
      rfl
    exact hnot ⟨d, h.serving.drive.symm ▸ h.drive, hsome, (h.inside hne).2 hcmd⟩

/-- A command that is still in force has moved `len` bytes more, and has others left. -/
theorem serving_finish (h : Moving e c d f len m)
    (hforce : (e.finish d m.2 m.1.length len).InForce) :
    Serving (e.finish d m.2 m.1.length len)
      { c with
        moved := c.moved + m.1.length
        done := c.done || decide ((e.finish d m.2 m.1.length len).cmd = -1 ∧
          (e.finish d m.2 m.1.length len).status = 0) } := by
  have hs := h.serving
  have hgoes : decide ((e.finish d m.2 m.1.length len).cmd = -1 ∧
      (e.finish d m.2 m.1.length len).status = 0) = false :=
    decide_eq_false fun hend => EMULINK.not_inForce_of_cmd hend.1 hforce
  obtain ⟨hn, hne, heq⟩ := EMULINK.finish_inForce _ _ _ _ _ hforce
  rw [hgoes, heq, Bool.or_false]
  obtain ⟨d', f', hd', hf', hpos, hat, hserves⟩ := hs.place
  obtain rfl := Option.some.inj (h.drive.symm.trans hd')
  obtain rfl := Option.some.inj (h.file.symm.trans hf')
  refine ⟨hs.cmd, hs.drive, hs.done, ?_, fun hzero => absurd hzero hne, ?_⟩
  · show e.dataleft - len + (c.moved + m.1.length : Nat) = leftOf c.count
    rw [← hs.left, hn]
    omega
  · refine ⟨d, m.2, h.drive, Function.update_self .., hpos, ?_, hserves⟩
    show (m.2.pos : Int) = (e.format d).offset c.chs + (c.moved + m.1.length : Nat)
    rw [h.moves.pos]
    omega

end Moving

structure Inv (images : Fin 2 → Option ImageFile) (r : Run) : Prop where
  confined : r.Confined images
  sizes : ∀ d f, r.dev.fdd d = some f → f.image.size = (r.dev.format d).bytes
  drives : ∀ d, (r.dev.fdd d).isSome = (images d).isSome
  serving : r.dev.InForce → ∃ c, r.issued = some c ∧ Serving r.dev c

namespace Inv
variable {images : Fin 2 → Option ImageFile} {r : Run}

theorem format_congr {e e' : EMULINK} (h : e'.fdfmti = e.fdfmti) : e'.format = e.format := by
  funext d
  unfold EMULINK.format
  rw [h]

/-- What a device says of its commands depends on its formats and on which drives have images. -/
theorem valid_congr {e e' : EMULINK} (hfmt : e'.fdfmti = e.fdfmti)
    (hdrives : ∀ d, (e'.fdd d).isSome = (e.fdd d).isSome) (c : Issued) :
    e'.Valid c ↔ e.Valid c := by
  unfold EMULINK.Valid EMULINK.format
  rw [hfmt]
  simp only [hdrives]

theorem same (hi : Inv images r) {e : EMULINK} (h : EMULINK.Same r.dev e) (hidle : ¬e.InForce) :
    Inv images { r with dev := e } := by
  have hformat : e.format = r.dev.format := format_congr h.fdfmti
  have himages : e.images = r.dev.images := by
    funext d
    exact congrArg (fun fdd => (fdd d).map File.image) h.fdd
  have hvalid : ∀ c, e.Valid c ↔ r.dev.Valid c :=
    valid_congr h.fdfmti fun d => by rw [h.fdd]
  obtain ⟨hinside, hmost, hleast, hunchanged, hbefore⟩ := hi.confined
  refine ⟨⟨?_, hmost, hleast, ?_, ?_⟩, ?_, ?_, fun h => absurd h hidle⟩
  · show ∀ t ∈ r.touched, _ → _ ∧ _ ≤ (e.format t.drive).bytes
    rw [hformat]
    exact hinside
  · intro c hc hnot
    exact himages.trans (hunchanged c hc fun hv => hnot ((hvalid c).mpr hv))
  · intro hnone
    exact himages.trans (hbefore hnone)
  · intro d f hf
    change e.fdd d = some f at hf
    show _ = (e.format d).bytes
    rw [h.fdd] at hf
    rw [hformat]
    exact hi.sizes d f hf
  · intro d
    show (e.fdd d).isSome = _
    rw [h.fdd]
    exact hi.drives d

theorem cmdWrite (hi : Inv images r) (val : BitVec 32) :
    ∃ r', r.step (.cmdWrite val) = some r' ∧ Inv images r' := by
  have hidle : ¬EMULINK.InForce { r.dev with cmd := val, argi := 0 } := by
    rintro ⟨-, hargi⟩
    cases hargi
  obtain ⟨e, he, hsame, he'⟩ := EMULINK.execCmd_idle hidle
  refine ⟨{ r with dev := e }, ?_, hi.same ⟨hsame.fdd, hsame.fdfmti⟩ he'⟩
  show (EMULINK.cmdWrite _ _).map _ = _
  rw [EMULINK.cmdWrite, he]
  rfl

theorem images_setFile {e : EMULINK} {d : Fin 2} {f f' : File} (hf : e.fdd d = some f)
    (h : f'.image = f.image) : (e.setFile d (some f')).images = e.images := by
  funext d'
  show (Function.update e.fdd d (some f') d').map File.image = (e.fdd d').map File.image
  by_cases hd : d' = d
  · subst hd
    rw [Function.update_self, hf]
    exact congrArg some h
  · rw [Function.update_of_ne hd]

theorem isSome_setFile {e : EMULINK} {d : Fin 2} {f g : File} (hf : e.fdd d = some f)
    (d' : Fin 2) : ((e.setFile d (some g)).fdd d').isSome = (e.fdd d').isSome := by
  show (Function.update e.fdd d (some g) d').isSome = _
  by_cases hd : d' = d
  · subst hd
    rw [Function.update_self, hf]
    rfl
  · rw [Function.update_of_ne hd]

theorem sizes_setFile (hi : Inv images r) {d : Fin 2} {f f' : File} (hf : r.dev.fdd d = some f)
    (h : f'.image.size = f.image.size) (d' : Fin 2) (g : File)
    (hg : (r.dev.setFile d (some f')).fdd d' = some g) :
    g.image.size = (r.dev.format d').bytes := by
  change Function.update r.dev.fdd d (some f') d' = some g at hg
  by_cases hd : d' = d
  · subst hd
    rw [Function.update_self] at hg
    obtain rfl := Option.some.inj hg
    exact h.trans (hi.sizes d' f hf)
  · rw [Function.update_of_ne hd] at hg
    exact hi.sizes d' g hg

/-- The last argument starts a command that has moved nothing yet. -/
theorem issued_confined (hi : Inv images r) {e : EMULINK} {c : Issued}
    (hfmt : e.fdfmti = r.dev.fdfmti) (himages : e.images = r.dev.images)
    (hc : c.images = r.dev.images) (hmoved : c.moved = 0) (hdone : c.done = false) :
    Run.Confined images { r with dev := e, issued := some c } := by
  refine ⟨?_, fun c' hc' => ?_, fun c' hc' hdone' => ?_, fun c' hc' _ => ?_, fun h => ?_⟩
  · show ∀ t ∈ r.touched, _ → _ ∧ _ ≤ (e.format t.drive).bytes
    rw [format_congr hfmt]
    exact hi.confined.inside
  · obtain rfl := Option.some.inj hc'
    rw [hmoved]
    exact Nat.zero_le _
  · obtain rfl := Option.some.inj hc'
    rw [hdone] at hdone'
    cases hdone'
  · obtain rfl := Option.some.inj hc'
    exact himages.trans hc.symm
  · cases h

theorem args_pushArg (e : EMULINK) (val : BitVec 32) (h : e.Issuing) :
    (e.pushArg val).args 0 = e.args 0 ∧ (e.pushArg val).args 1 = e.args 1 ∧
      (e.pushArg val).args 2 = val ∧ (e.pushArg val).cmd = e.cmd := by
  unfold EMULINK.pushArg
  have hlt : e.argi < 4 := by
    rw [h.1]
    decide
  have hidx : (⟨e.argi, hlt⟩ : Fin 4) = 2 := Fin.ext h.1
  simp only [hlt, dite_true, hidx]
  exact ⟨Function.update_of_ne (by decide) _ _, Function.update_of_ne (by decide) _ _,
    Function.update_self .., trivial⟩

theorem seek (hi : Inv images r) {val : BitVec 32} (hissue : r.dev.Issuing)
    (hm : r.dev.Meets (.dataWrite val)) :
    ∃ e, (r.dev.pushArg val).seek = some e ∧
      Inv images { r with dev := e, issued := r.issue val } := by
  obtain ⟨d, hd, hserves⟩ := hm hissue
  obtain ⟨h0, h1, h2, hcmd⟩ := args_pushArg r.dev val hissue
  have hsame := EMULINK.same_pushArg r.dev val
  have hnew : r.issue val =
      some ⟨r.dev.cmd, r.dev.args 0, r.dev.args 1, val, r.dev.images, 0, false⟩ :=
    if_pos hissue
  have hfmt : (r.dev.pushArg val).format d = r.dev.format d :=
    congrFun (format_congr hsame.fdfmti) d
  rw [hnew]
  rcases EMULINK.seek_cases (h0.symm ▸ hd : slot ((r.dev.pushArg val).args 0) = some d) with
    ⟨errno, hseek⟩ | ⟨f, f', hf, hfseek, hseek⟩
  · refine ⟨_, hseek, ?_⟩
    have hfail : EMULINK.Same r.dev ((r.dev.pushArg val).fail errno) := ⟨hsame.fdd, hsame.fdfmti⟩
    have hkept := hi.same hfail (EMULINK.fail_idle _ _)
    refine ⟨hi.issued_confined hfail.fdfmti ?_ rfl rfl rfl, hkept.sizes, hkept.drives,
      fun h => absurd h (EMULINK.fail_idle _ _)⟩
    funext d'
    exact congrArg (fun fdd => (fdd d').map File.image) hfail.fdd
  · refine ⟨_, hseek, ?_⟩
    rw [h1, hfmt] at hfseek
    obtain ⟨hpos, himage, hplace⟩ := File.fseek_some hfseek
    have hf' : r.dev.fdd d = some f := hsame.fdd ▸ hf
    refine ⟨hi.issued_confined hsame.fdfmti ?_ rfl rfl rfl, ?_, ?_, fun _ => ⟨_, rfl, ?_⟩⟩
    · refine Eq.trans ?_ (images_setFile hf' himage)
      funext d'
      show (Function.update (r.dev.pushArg val).fdd d (some f') d').map File.image = _
      rw [hsame.fdd]
      rfl
    · intro d' g hg
      show _ = FdFmt.bytes ((r.dev.pushArg val).format d')
      rw [format_congr hsame.fdfmti]
      refine hi.sizes_setFile hf' (congrArg ImageFile.size himage) d' g ?_
      change Function.update (r.dev.pushArg val).fdd d (some f') d' = some g at hg
      rw [hsame.fdd] at hg
      exact hg
    · intro d'
      rw [← hi.drives d', ← isSome_setFile (g := f') hf' d']
      show (Function.update (r.dev.pushArg val).fdd d (some f') d').isSome = _
      rw [hsame.fdd]
      rfl
    · refine ⟨hcmd.symm, h0.symm, rfl, ?_, fun _ => rfl, ?_⟩
      · show leftOf ((r.dev.pushArg val).args 2) + (0 : Nat) = leftOf val
        rw [h2]
        exact Int.add_zero _
      · refine ⟨d, f', h0.symm ▸ hd, Function.update_self .., ?_, ?_, ?_⟩
        · show 0 ≤ ((r.dev.pushArg val).format d).offset (r.dev.args 1)
          rw [hfmt]
          exact hpos
        · show _ = ((r.dev.pushArg val).format d).offset (r.dev.args 1) + (0 : Nat)
          rw [hfmt, hplace]
          exact (Int.add_zero _).symm
        · show FdFmt.Serves ((r.dev.pushArg val).format d) _ _ _
          rw [hfmt]
          exact hserves (by rw [hf']; rfl)

theorem dataWrite (hi : Inv images r) {val : BitVec 32} (hm : r.dev.Meets (.dataWrite val)) :
    ∃ r', r.step (.dataWrite val) = some r' ∧ Inv images r' := by
  by_cases hissue : r.dev.Issuing
  · obtain ⟨e, he, hinv⟩ := hi.seek hissue hm
    refine ⟨_, ?_, hinv⟩
    show (EMULINK.execCmd _).map _ = _
    rw [EMULINK.execCmd_inForce ((EMULINK.pushArg_inForce _ _).mpr hissue), he]
    rfl
  · obtain ⟨e, he, hsame, hidle⟩ :=
      EMULINK.execCmd_idle (mt (EMULINK.pushArg_inForce r.dev val).mp hissue)
    have hpush := EMULINK.same_pushArg r.dev val
    refine ⟨{ r with dev := e }, ?_,
      hi.same ⟨hsame.fdd.trans hpush.fdd, hsame.fdfmti.trans hpush.fdfmti⟩ hidle⟩
    show (EMULINK.execCmd _).map _ = _
    rw [he, Run.issue, if_neg hissue]
    rfl

theorem refused (hi : Inv images r) : Inv images (r.moveOn 0 (r.dev.fail 1)) := by
  have hkept := hi.same (EMULINK.same_fail r.dev 1) (EMULINK.fail_idle _ _)
  have hdone : decide ((r.dev.fail 1).cmd = -1 ∧ (r.dev.fail 1).status = 0) = false :=
    decide_eq_false fun h => absurd h.2 (by show ¬(-1#32 = 0); decide)
  have hissued : (r.moveOn 0 (r.dev.fail 1)).issued = r.issued := by
    show r.issued.map _ = r.issued
    rw [hdone]
    cases r.issued with
    | none => rfl
    | some c => simp
  obtain ⟨hinside, hmost, hleast, hunchanged, hbefore⟩ := hkept.confined
  refine ⟨⟨fun t ht hne => ?_, ?_, ?_, ?_, ?_⟩, hkept.sizes, hkept.drives,
    fun h => absurd h (EMULINK.fail_idle _ _)⟩
  · rcases List.mem_append.mp ht with ht | ht
    · exact hinside t ht hne
    · unfold EMULINK.touch at ht
      split at ht
      · cases ht
      split at ht
      · cases ht
      · obtain rfl := List.mem_singleton.mp ht
        exact absurd rfl hne
  · rw [hissued]
    exact hmost
  · rw [hissued]
    exact hleast
  · rw [hissued]
    exact hunchanged
  · rw [hissued]
    exact hbefore

theorem moved (hi : Inv images r) {d : Fin 2} {f : File} {len : Nat} {m : List UInt8 × File}
    (hforce : r.dev.InForce) (hd : slot (r.dev.args 0) = some d) (hf : r.dev.fdd d = some f)
    (hleft : (len : Int) ≤ r.dev.dataleft) (hm : Moves f len m)
    (hread : r.dev.cmd = CMD_READ → m.2.image = f.image ∧
      (m.1.length ≠ 0 → f.pos + m.1.length ≤ f.image.size)) :
    Inv images (r.moveOn m.1.length (r.dev.finish d m.2 m.1.length len)) := by
  obtain ⟨c, hc, hs⟩ := hi.serving hforce
  have hmoving : Moving r.dev c d f len m :=
    ⟨hforce.1, hd, hf, hi.sizes d f hf, hleft, hm, hread, hs⟩
  have hfmt := EMULINK.fdfmti_finish r.dev d m.2 m.1.length len
  have hfdd := EMULINK.fdd_finish r.dev d m.2 m.1.length len
  have hdrives : ∀ d', ((r.dev.finish d m.2 m.1.length len).fdd d').isSome =
      (r.dev.fdd d').isSome := by
    intro d'
    rw [hfdd]
    exact isSome_setFile hf d'
  have htouch : r.dev.touch m.1.length = [⟨d, f.pos, m.1.length⟩] := by
    simp only [EMULINK.touch, hd, hf]
  have hissued : (r.moveOn m.1.length (r.dev.finish d m.2 m.1.length len)).issued =
      some { c with
        moved := c.moved + m.1.length
        done := c.done || decide ((r.dev.finish d m.2 m.1.length len).cmd = -1 ∧
          (r.dev.finish d m.2 m.1.length len).status = 0) } := by
    show r.issued.map _ = _
    rw [hc]
    rfl
  refine ⟨⟨fun t ht hne => ?_, fun c' hc' => ?_, fun c' hc' hdone => ?_, fun c' hc' hnot => ?_,
    fun h => ?_⟩, fun d' g hg => ?_, fun d' => (hdrives d').trans (hi.drives d'),
    fun h => ⟨_, hissued, hmoving.serving_finish h⟩⟩
  · show _ ∧ _ ≤ FdFmt.bytes ((r.dev.finish d m.2 m.1.length len).format t.drive)
    rw [format_congr hfmt]
    rcases List.mem_append.mp ht with ht | ht
    · exact hi.confined.inside t ht hne
    · rw [htouch] at ht
      obtain rfl := List.mem_singleton.mp ht
      refine ⟨?_, (hmoving.inside hne).1⟩
      rw [← hi.drives d, hf]
      rfl
  · rw [hissued] at hc'
    obtain rfl := Option.some.inj hc'
    exact hmoving.most
  · rw [hissued] at hc'
    obtain rfl := Option.some.inj hc'
    rw [hs.done, Bool.false_or, decide_eq_true_eq] at hdone
    exact hmoving.least hdone
  · rw [hissued] at hc'
    obtain rfl := Option.some.inj hc'
    have hnot' : ¬r.dev.Valid c := fun hv => hnot ((valid_congr hfmt hdrives _).mpr hv)
    have himages : (r.dev.finish d m.2 m.1.length len).images = r.dev.images := by
      refine Eq.trans ?_ (images_setFile hf (hmoving.unchanged hnot'))
      funext d'
      exact congrArg (fun fdd => (fdd d').map File.image) hfdd
    exact himages.trans (hi.confined.unchanged c hc hnot')
  · rw [hissued] at h
    cases h
  · show _ = FdFmt.bytes ((r.dev.finish d m.2 m.1.length len).format d')
    rw [format_congr hfmt]
    refine hi.sizes_setFile hf hmoving.size_kept d' g ?_
    rw [← hfdd]
    exact hg

theorem transferred (hi : Inv images r) {cmd : BitVec 32} {size count : Nat}
    (hm : r.dev.Transfers cmd size count) (hcmd : cmd = CMD_READ ∨ cmd = CMD_WRITE)
    {move : File → Nat → List UInt8 × File} (hmove : ∀ f len, Moves f len (move f len))
    (hread : cmd = CMD_READ → ∀ f len, (move f len).2.image = f.image ∧
      ((move f len).1.length ≠ 0 → f.pos + (move f len).1.length ≤ f.image.size)) :
    ∃ r', ((r.dev.transfer cmd size count move).map fun (data, e) => r.moveOn data.length e) =
      some r' ∧ Inv images r' := by
  rcases EMULINK.transfer_cases hm move with h | ⟨d, f, len, hc, hargi, hd, hf, hleft, h⟩
  · exact ⟨_, by rw [h]; rfl, hi.refused⟩
  · refine ⟨_, by rw [h]; rfl, hi.moved ⟨hc ▸ hcmd, hargi⟩ hd hf hleft (hmove f len) ?_⟩
    intro hr
    exact hread (hc.symm.trans hr) f len

theorem step (hi : Inv images r) {op : Op} (hm : r.dev.Meets op) :
    ∃ r', r.step op = some r' ∧ Inv images r' := by
  cases op with
  | cmdWrite val => exact hi.cmdWrite val
  | dataWrite val => exact hi.dataWrite hm
  | writeString buf size count moved =>
    refine hi.transferred hm (.inr rfl) (fun f len => ?_) fun h => absurd h (by decide)
    have hmoves := moves_fwrite f (slice buf 0 len) moved
    rw [length_slice] at hmoves
    exact hmoves
  | readString size count moved =>
    exact hi.transferred hm (.inl rfl) (fun f len => (moves_fread f len moved).1)
      fun _ f len => (moves_fread f len moved).2

theorem run {ops : List Op} (hi : Inv images r) (hm : r.AllMeet ops) :
    ∃ r', r.run ops = some r' ∧ Inv images r' := by
  induction ops generalizing r with
  | nil => exact ⟨r, rfl, hi⟩
  | cons op ops ih =>
    obtain ⟨r', hstep, hinv⟩ := hi.step hm.1
    have hrest := hm.2
    rw [hstep] at hrest
    obtain ⟨r'', hrun, hinv'⟩ := ih hinv hrest
    refine ⟨r'', ?_, hinv'⟩
    show (r.step op).bind _ = _
    rw [hstep]
    exact hrun

end Inv

theorem findFmt_supported {image : ImageFile} (h : Supported image) :
    ∃ j, findFmt (int32 image.size) = some j ∧ (fmt.get j).bytes = image.size := by
  obtain ⟨f, hf, hsize⟩ := h
  obtain ⟨i, rfl⟩ := List.get_of_mem hf
  have hbound := fmt_total_le i
  have hint : int32 image.size = image.size := by
    apply int32_eq
    · omega
    · rw [hsize, FdFmt.bytes]
      omega
  have hsome : (findFmt (int32 image.size)).isSome := by
    unfold findFmt
    rw [List.find?_isSome]
    refine ⟨i, List.mem_finRange i, ?_⟩
    rw [hint, hsize]
    exact decide_eq_true rfl
  obtain ⟨j, hj⟩ := Option.isSome_iff_exists.mp hsome
  refine ⟨j, hj, ?_⟩
  have hfound := List.find?_some hj
  rw [hint, decide_eq_true_eq] at hfound
  exact_mod_cast hfound.symm

/-- The drives below `k` have got their images. -/
structure AttachedTo (images : Fin 2 → Option ImageFile) (k : Nat) (e : EMULINK) : Prop where
  got : ∀ d : Fin 2, d.val < k → e.images d = images d
  empty : ∀ d : Fin 2, k ≤ d.val → e.fdd d = none
  sizes : ∀ d f, e.fdd d = some f → f.image.size = (e.format d).bytes
  idle : e.cmd = -1

theorem AttachedTo.next {images : Fin 2 → Option ImageFile} {e : EMULINK} {k : Fin 2}
    (h : AttachedTo images k.val e) (hs : ∀ d image, images d = some image → Supported image) :
    AttachedTo images (k.val + 1)
      (if (images k).isSome then (e.attachFloppy k (images k)).2 else e) := by
  cases himage : images k with
  | none =>
    refine ⟨fun d hd => ?_, fun d hd => h.empty d (by omega), h.sizes, h.idle⟩
    by_cases hk : d = k
    · subst hk
      show (e.fdd d).map _ = _
      rw [h.empty d (Nat.le_refl _), himage]
      rfl
    · exact h.got d (by omega)
  | some image =>
    obtain ⟨j, hj, hsize⟩ := findFmt_supported (hs k image himage)
    have hattach : (e.attachFloppy k (some image)).2 =
        { e.setFile k (some ⟨image, image.size⟩) with
          fdfmti := Function.update e.fdfmti k j } := by
      simp only [EMULINK.attachFloppy, hj]
      rfl
    rw [Option.isSome_some, if_pos rfl, hattach]
    refine ⟨fun d hd => ?_, fun d hd => ?_, fun d f hf => ?_, h.idle⟩
    · show (Function.update e.fdd k _ d).map File.image = _
      by_cases hk : d = k
      · subst hk
        rw [Function.update_self, himage]
        rfl
      · rw [Function.update_of_ne hk]
        exact h.got d (by omega)
    · show Function.update e.fdd k _ d = none
      rw [Function.update_of_ne (by rintro rfl; omega)]
      exact h.empty d (by omega)
    · change Function.update e.fdd k _ d = some f at hf
      show _ = FdFmt.bytes (fmt.get (Function.update e.fdfmti k j d))
      by_cases hk : d = k
      · subst hk
        rw [Function.update_self] at hf ⊢
        obtain rfl := Option.some.inj hf
        exact hsize.symm
      · rw [Function.update_of_ne hk] at hf ⊢
        exact h.sizes d f hf

theorem attached_all {images : Fin 2 → Option ImageFile}
    (hs : ∀ d image, images d = some image → Supported image) :
    AttachedTo images 2 (attached images) := by
  have hinit : AttachedTo images (0 : Fin 2).val emulinkInit :=
    ⟨fun d hd => absurd hd (Nat.not_lt_zero _), fun _ _ => rfl, fun _ _ h => (by cases h), rfl⟩
  exact @AttachedTo.next images _ 1 (hinit.next hs) hs

theorem inv_start {images : Fin 2 → Option ImageFile}
    (hs : ∀ d image, images d = some image → Supported image) : Inv images (.start images) := by
  have h := attached_all hs
  have himages : (attached images).images = images := by
    funext d
    exact h.got d d.isLt
  refine ⟨⟨?_, ?_, ?_, ?_, fun _ => himages⟩, h.sizes, fun d => ?_,
    fun hforce => absurd hforce (EMULINK.not_inForce_of_cmd h.idle)⟩
  · intro t ht
    cases ht
  · intro c hc
    cases hc
  · intro c hc
    cases hc
  · intro c hc
    cases hc
  · rw [← congrFun himages d]
    exact Option.isSome_map.symm

/-- With images of supported formats, in every run whose steps meet the condition. -/
theorem transfers_confined {images : Fin 2 → Option ImageFile} {ops : List Op}
    (hs : ∀ d image, images d = some image → Supported image)
    (hm : (Run.start images).AllMeet ops) :
    ∃ r, (Run.start images).run ops = some r ∧ r.Confined images := by
  obtain ⟨r, hrun, hinv⟩ := (inv_start hs).run hm
  exact ⟨r, hrun, hinv.confined⟩

/-- A disk of 160 KB in the first drive. -/
def oneDisk (d : Fin 2) : Option ImageFile := if d.val = 0 then some ⟨163840, fun _ => 0⟩ else none

def writeSector : List Op :=
  [.cmdWrite 0x102, .dataWrite 0, .dataWrite 1, .dataWrite 1, .writeString (fun _ => 0xe5) 1 512 512]

theorem supported_oneDisk (d : Fin 2) (image : ImageFile) (h : oneDisk d = some image) :
    Supported image := by
  unfold oneDisk at h
  split at h
  · obtain rfl := Option.some.inj h
    exact ⟨⟨8, 40, 1⟩, by decide, rfl⟩
  · cases h

theorem Run.allMeet_one {r : Run} {op : Op} (h : r.dev.Meets op) : r.AllMeet [op] := by
  refine ⟨h, ?_⟩
  split
  · trivial
  · trivial

theorem transfers_confined_writeSector :
    ∃ r, (Run.start oneDisk).run writeSector = some r ∧ r.Confined oneDisk :=
  transfers_confined supported_oneDisk
    ⟨trivial, fun h => absurd h (by decide), fun h => absurd h (by decide),
      fun _ => ⟨0, rfl, fun _ => by decide⟩,
      Run.allMeet_one fun _ => ⟨0, rfl, fun _ _ => .inr (by decide)⟩⟩

/-- A drive that does not exist, a count whose product wraps to zero, and a head that the disk does
not have. -/
theorem not_transfers_confined :
    (¬∃ r, (Run.start oneDisk).run
      [.cmdWrite 0x101, .dataWrite 2, .dataWrite 1, .dataWrite 1] = some r ∧ r.Confined oneDisk) ∧
    (¬∃ r, (Run.start oneDisk).run
      [.cmdWrite 0x101, .dataWrite 0, .dataWrite 1, .dataWrite 0x800000, .readString 1 0 0] =
        some r ∧ r.Confined oneDisk) ∧
    ¬∃ r, (Run.start oneDisk).run
      [.cmdWrite 0x102, .dataWrite 0, .dataWrite 0x101, .dataWrite 1,
        .writeString (fun _ => 0xe5) 1 1 1] = some r ∧ r.Confined oneDisk := by
  refine ⟨?_, ?_, ?_⟩
  · rintro ⟨r, hrun, -⟩
    cases hrun
  · rintro ⟨r, hrun, h⟩
    cases hrun
    have hleast := h.atLeast _ rfl (by decide)
    revert hleast
    decide
  · rintro ⟨r, hrun, h⟩
    cases hrun
    have hsame := h.unchanged _ rfl (by
      rintro ⟨d, hd, -, hholds⟩
      cases hd
      revert hholds
      decide)
    have hbyte := congrArg (fun images => (images 0).map fun f => f.bytes 4096) hsame
    revert hbyte
    decide

end Winspire.Floppy
