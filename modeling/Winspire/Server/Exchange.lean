import Winspire.Server.Request
import Winspire.Netblk.Dialog

/-!
# The server as a disk

On a host that does not fail, a round of `handle_client` that is given the bytes of an admitted
request takes exactly these, sends exactly the bytes of the disk's answer, and leaves the image
of the disk after the request.
-/

namespace Winspire.Server

open Interaction Netblk

set_option autoImplicit false

def ServerState.disk (st : ServerState) (img : Image) : Disk where
  cfg := st.cfg
  sectorCount := st.imageBytes / sectorSize
  image := cellsOf 512 img.image
  sectorCount_lt := (sectorCount_toNat st).2

/-- The checks of the server on a request header. -/
structure Passes (st : ServerState) (h : NetBlockHeader) : Prop where
  magic : h.magic = netblkMagic
  version : h.version = netblkVersion
  read : h.op = netblkOpRead → readRejected st h = false
  write : h.op = netblkOpWrite → writeRejected st h = false
  payload : h.op = netblkOpPing → h.bytes ≤ st.maxBytes

theorem ofNat_toNat_of_le {n : Nat} (h : n ≤ netblkMaxSectors) : (UInt32.ofNat n).toNat = n := by
  simp only [netblkMaxSectors] at h
  rw [UInt32.toNat_ofNat', Nat.mod_eq_of_lt (by omega)]

theorem inImage_ofNat {st : ServerState} {h : NetBlockHeader} {lba count : Nat}
    (hlba : h.lba = .ofNat lba) (hcount : h.count = .ofNat count) (hle : count ≤ netblkMaxSectors)
    (hin : lba + count ≤ st.imageBytes / sectorSize) :
    h.lba.toNat = lba ∧ h.count.toNat = count ∧ InImage st h := by
  have hlt := (sectorCount_toNat st).2
  have hnat : (UInt64.ofNat lba).toNat = lba := by
    rw [UInt64.toNat_ofNat', Nat.mod_eq_of_lt (by omega)]
  refine ⟨by rw [hlba, hnat], by rw [hcount, ofNat_toNat_of_le hle], ?_⟩
  rw [InImage, hlba, hcount, hnat, ofNat_toNat_of_le hle]
  exact hin

theorem readAccepted_of_admits {st : ServerState} {img : Image} {lba count : Nat}
    (h : (st.disk img).admits (.read lba count)) :
    ReadAccepted st (Request.read lba count).header := by
  obtain ⟨hpos, hmax, hin⟩ := h
  have hle : count ≤ netblkMaxSectors := Nat.le_trans hmax st.cfg.maxSectors_le
  obtain ⟨_, hcount, himage⟩ := @inImage_ofNat st (Request.read lba count).header _ _ rfl rfl hle hin
  rw [ReadAccepted, hcount]
  exact ⟨hpos, hmax, himage⟩

theorem writeAccepted_of_admits {st : ServerState} {img : Image} {site : WriteSite} {lba : Nat}
    {data : List Sector} (h : (st.disk img).admits (.write site lba data)) :
    WriteAccepted st (Request.write site lba data).header := by
  obtain ⟨hro, hpos, hle, hin⟩ := h
  obtain ⟨_, hcount, himage⟩ :=
    @inImage_ofNat st (Request.write site lba data).header _ _ rfl rfl hle hin
  rw [WriteAccepted, hcount]
  refine ⟨hro, hpos, hle, ?_, himage⟩
  simp only [Request.header, netblkHeaderInit, netblkMaxSectors, sectorSize] at *
  rw [UInt32.toNat_ofNat', Nat.mod_eq_of_lt (by omega)]

theorem ping_fits (st : ServerState) : (72 : UInt32) ≤ st.maxBytes := by
  have hone := st.cfg.one_le_maxSectors
  rw [UInt32.le_iff_toNat_le, (maxBytes_toNat st).1]
  simp only [sectorSize]
  rw [show (72 : UInt32).toNat = 72 from rfl]
  omega

theorem Passes.of_op {st : ServerState} {h : NetBlockHeader} (op : UInt16) (hop : h.op = op)
    (magic : h.magic = netblkMagic) (version : h.version = netblkVersion)
    (read : op = netblkOpRead → readRejected st h = false)
    (write : op = netblkOpWrite → writeRejected st h = false)
    (payload : op = netblkOpPing → h.bytes ≤ st.maxBytes) : Passes st h := by
  subst hop
  exact ⟨magic, version, read, write, payload⟩

theorem passes_of_admits {st : ServerState} {img : Image} {q : Request}
    (h : (st.disk img).admits q) : Passes st q.header := by
  cases q with
  | hello profile =>
    exact .of_op netblkOpHello rfl rfl rfl (fun hop => absurd hop (by decide))
      (fun hop => absurd hop (by decide)) fun hop => absurd hop (by decide)
  | read lba count =>
    exact .of_op netblkOpRead rfl rfl rfl
      (fun _ => (readRejected_eq_false_iff _ _).mpr (readAccepted_of_admits h))
      (fun hop => absurd hop (by decide)) fun hop => absurd hop (by decide)
  | write site lba data =>
    exact .of_op netblkOpWrite rfl rfl rfl (fun hop => absurd hop (by decide))
      (fun _ => (writeRejected_eq_false_iff _ _).mpr (writeAccepted_of_admits h))
      fun hop => absurd hop (by decide)
  | flush =>
    exact .of_op netblkOpFlush rfl rfl rfl (fun hop => absurd hop (by decide))
      (fun hop => absurd hop (by decide)) fun hop => absurd hop (by decide)
  | ping header tel =>
    refine .of_op netblkOpPing header.op_eq header.magic_eq header.version_eq
      (fun hop => absurd hop (by decide)) (fun hop => absurd hop (by decide)) fun _ => ?_
    simp only [Request.header]
    rw [header.bytes_eq]
    exact ping_fits st

/-- The script of a server whose host does not fail. -/
abbrev Serves {α : Type} (p : ServerProg α) (Q : α → Script Image → Prop) (s : Script Image) : Prop :=
  safe (inScript False fun _ _ => True) (script (hosted (imageHost True))) p Q s

theorem serves_bind {α β : Type} (p : ServerProg α) (f : α → ServerProg β)
    (Q : β → Script Image → Prop) (s : Script Image) :
    Serves (p >>= f) Q s ↔ Serves p (fun a s' => Serves (f a) Q s') s := safe_bind p f Q s

theorem serves_sendHeader {op : UInt16} {lba : UInt64} {count bytes status flags : UInt32}
    {rest : List UInt8} {img : Image} {Q : Bool → Script Image → Prop} (hQ : Q true ⟨[], rest, img⟩) :
    Serves (sendHeader op lba count bytes status flags) Q
      ⟨[], (initHeader op lba count bytes status flags).encode ++ rest, img⟩ :=
  safe_script_sendAll netblkIoChunkBytes_pos _ rest rfl (fun _ => rfl) hQ

theorem serves_offWire {α : Type} {p : HostProg α} {inp out : List UInt8} {img : Image}
    {Q : α → Script Image → Prop} (h : wp (imageHost True) p (fun a img' => Q a ⟨inp, out, img'⟩) img) :
    Serves (offWire p) Q ⟨inp, out, img⟩ :=
  safe_script_offWire (fun _ _ => trivial) h

theorem serves_recvImageWriteLoop (st : ServerState) {scratch : Nat} (hscratch : 0 < scratch)
    (fuel : Nat) (data : List UInt8) {out : List UInt8} {offset : UInt64} {img : Image}
    {Q : Bool → Script Image → Prop} (hfuel : data.length ≤ fuel)
    (hsize : offset.toNat + data.length < 2 ^ 63)
    (hQ : ∀ img', img'.image = blit img.image offset.toNat data → Q true ⟨[], out, img'⟩) :
    Serves (recvImageWriteLoop st scratch fuel offset data.length) Q ⟨data, out, img⟩ := by
  induction fuel generalizing data offset img with
  | zero =>
    obtain rfl : data = [] := List.length_eq_zero_iff.mp (by omega)
    exact hQ img (blit_nil _ _).symm
  | succ fuel ih =>
    by_cases hnil : data = []
    · subst hnil
      exact hQ img (blit_nil _ _).symm
    · obtain ⟨bytes, hbytes⟩ := Nat.exists_eq_succ_of_ne_zero
        (fun hz => hnil (List.length_eq_zero_iff.mp hz))
      rw [hbytes]
      unfold recvImageWriteLoop
      simp only
      generalize hchunk : min (bytes + 1) scratch = chunk
      have hle : chunk ≤ data.length := by omega
      have htake : (data.take chunk).length = chunk := List.length_take_of_le hle
      rw [if_neg (by omega), serves_bind]
      refine safe_script_recvAll netblkIoChunkBytes_pos (data.take chunk) (data.drop chunk) htake
        (List.take_append_drop _ _).symm False.elim ?_
      simp only
      rw [serves_bind]
      apply serves_offWire
      refine wp_mono (wp_writeImageExact st (Nat.le_refl _) (Nat.le_refl _) (by omega) (Nat.le_refl _))
        fun ok img' ⟨_, himg, hall⟩ => ?_
      obtain rfl := hall trivial
      have hoff := @offset_add offset chunk (by omega)
      have hlen : data.length - chunk = (data.drop chunk).length := List.length_drop.symm
      simp only [if_true]
      rw [show bytes + 1 - chunk = (data.drop chunk).length by omega]
      refine ih (data.drop chunk) (by omega) (by omega) fun img'' himg' => hQ img'' ?_
      have hjoin := blit_append img.image offset.toNat (data.take chunk) (data.drop chunk)
      rw [htake, List.take_append_drop] at hjoin
      rw [himg', himg rfl, hoff, hjoin]

section Requests
variable {st : ServerState} {wc : Nat} {img : Image}

variable (st) in
/-- The round is over, the script is done and the image is that of `d`. -/
def Served (d : Disk) (o : Outcome) (s : Script Image) : Prop :=
  s.inp = [] ∧ s.out = [] ∧ (∃ wc, o = .again wc) ∧ st.disk s.host = d

theorem served_again {img' : Image} (h : img'.image = img.image) (wc : Nat) :
    Served st (st.disk img) (.again wc) ⟨[], [], img'⟩ := by
  refine ⟨rfl, rfl, ⟨wc, rfl⟩, ?_⟩
  simp only [ServerState.disk, h]

theorem serves_hello (profile : UInt32) :
    Serves (serveHello st wc) (Served st (st.disk img))
      ⟨[], ((st.disk img).reply (.hello profile)).bytes, img⟩ := by
  unfold serveHello
  rw [serves_bind]
  exact serves_sendHeader (served_again rfl wc)

theorem serves_read {lba count : Nat} (h : (st.disk img).admits (.read lba count)) :
    Serves (serveRead st (Request.read lba count).header wc) (Served st (st.disk img))
      ⟨[], ((st.disk img).reply (.read lba count)).bytes, img⟩ := by
  have hacc := readAccepted_of_admits h
  have hle : count ≤ netblkMaxSectors := Nat.le_trans h.2.1 st.cfg.maxSectors_le
  obtain ⟨hlba, hcount, hin⟩ :=
    @inImage_ofNat st (Request.read lba count).header _ _ rfl rfl hle h.2.2
  obtain ⟨hoff, hneed, hsize⟩ := accepted_offsets hin (by rw [hcount]; exact hle)
  rw [hlba] at hoff
  rw [hcount] at hneed
  rw [hlba, hcount, Nat.add_mul] at hsize
  have hlt := st.imageBytes_lt
  have hbytes : UInt32.ofNat count * 512 = .ofNat (count * sectorSize) := by
    rw [UInt32.ofNat_mul]
    rfl
  unfold serveRead
  rw [(readRejected_eq_false_iff _ _).mpr hacc, if_neg (by simp), serves_bind]
  have hout : ((st.disk img).reply (.read lba count)).bytes =
      (initHeader netblkOpRead (Request.read lba count).header.lba (Request.read lba count).header.count
        ((Request.read lba count).header.count * 512) 0 0).encode ++
        slice img.image (lba * sectorSize) (count * sectorSize) := by
    rw [Response.bytes]
    simp only [Disk.reply, Request.header, netblkHeaderInit, hbytes, sectorBytes, ServerState.disk]
    rw [flattenCells_slice]
    rfl
  rw [hout]
  apply serves_sendHeader
  simp only [if_true]
  unfold sendImageExact
  rw [serves_bind, serves_bind]
  apply serves_offWire
  refine wp_mono (wp_readImage st (Nat.le_refl _) (Nat.le_refl _) (by omega) (Nat.le_refl _)) ?_
  rintro r img' ⟨_, himg, hall⟩
  rw [hall trivial, hoff, hneed]
  exact safe_script_sendAll netblkIoChunkBytes_pos _ [] (by simp) (fun _ => rfl) (served_again himg wc)

theorem serves_write {site : WriteSite} {lba : Nat} {data : List Sector}
    (h : (st.disk img).admits (.write site lba data)) :
    Serves (serveWrite st (Request.write site lba data).header wc)
      (Served st ((st.disk img).after (.write site lba data)))
      ⟨sectorBytes data, ((st.disk img).reply (.write site lba data)).bytes, img⟩ := by
  have hacc := writeAccepted_of_admits h
  obtain ⟨_, _, hle, hin⟩ := h
  obtain ⟨hlba, hcount, himage⟩ :=
    @inImage_ofNat st (Request.write site lba data).header _ _ rfl rfl hle hin
  obtain ⟨hoff, hneed, hsize⟩ := accepted_offsets himage (by rw [hcount]; exact hle)
  rw [hlba] at hoff
  rw [hcount] at hneed
  rw [hlba, hcount, Nat.add_mul] at hsize
  have hlt := st.imageBytes_lt
  have hlen : ((Request.write site lba data).header.count * 512).toNat = (sectorBytes data).length := by
    rw [hneed, length_sectorBytes]
  unfold serveWrite
  rw [(writeRejected_eq_false_iff _ _).mpr hacc, if_neg (by simp), serves_bind]
  unfold recvImageWrite
  rw [hlen]
  refine serves_recvImageWriteLoop st (maxBytes_toNat st).2 _ _ (Nat.le_refl _)
    (by rw [hoff, length_sectorBytes]; omega) fun img' himg => ?_
  simp only [if_true]
  rw [serves_bind]
  refine serves_sendHeader ⟨rfl, rfl, ⟨wc + 1, rfl⟩, ?_⟩
  rw [hoff] at himg
  have hcells := cellsOf_blit img.image lba data
  simp only [ServerState.disk, Disk.after]
  rw [himg, sectorBytes, show lba * sectorSize = lba * 512 from rfl, hcells]

theorem serves_flush :
    Serves (serveFlush st wc) (Served st (st.disk img))
      ⟨[], ((st.disk img).reply .flush).bytes, img⟩ := by
  unfold serveFlush
  split
  · rw [serves_bind]
    apply serves_offWire
    refine wp_mono (wp_flushImage st) fun ok img' ⟨himg, hok⟩ => ?_
    subst himg
    rw [hok trivial, serves_bind]
    exact serves_sendHeader (served_again rfl wc)
  · simp only [Prog.ret_bind]
    rw [serves_bind]
    exact serves_sendHeader (served_again rfl wc)

theorem serves_ping (header : PingHeader) (tel : NetPingTelemetry) :
    Serves (servePing st header.header wc) (Served st (st.disk img))
      ⟨tel.encode, ((st.disk img).reply (.ping header tel)).bytes, img⟩ := by
  have hfits := ping_fits st
  unfold servePing servePayload
  rw [header.bytes_eq, if_neg (by
    rw [UInt32.lt_iff_toNat_lt]
    rw [UInt32.le_iff_toNat_le] at hfits
    omega), if_neg (by decide), serves_bind]
  refine safe_script_recvAll netblkIoChunkBytes_pos tel.encode [] (NetPingTelemetry.length_encode tel)
    (by simp) False.elim ?_
  simp only
  rw [serves_bind]
  exact serves_sendHeader (served_again rfl wc)

section Dispatch
variable {h : NetBlockHeader}

theorem dispatch_hello (hop : h.op = netblkOpHello) : dispatch st h wc = serveHello st wc := by
  rw [dispatch, if_neg (by rw [hop]; decide), if_pos hop]

theorem dispatch_read (hop : h.op = netblkOpRead) : dispatch st h wc = serveRead st h wc := by
  rw [dispatch, if_neg (by rw [hop]; decide), if_neg (by rw [hop]; decide), if_pos hop]

theorem dispatch_write (hop : h.op = netblkOpWrite) : dispatch st h wc = serveWrite st h wc := by
  rw [dispatch, if_neg (by rw [hop]; decide), if_neg (by rw [hop]; decide),
    if_neg (by rw [hop]; decide), if_pos hop]

theorem dispatch_flush (hop : h.op = netblkOpFlush) : dispatch st h wc = serveFlush st wc := by
  rw [dispatch, if_neg (by rw [hop]; decide), if_neg (by rw [hop]; decide),
    if_neg (by rw [hop]; decide), if_neg (by rw [hop]; decide), if_pos hop]

theorem dispatch_ping (hop : h.op = netblkOpPing) : dispatch st h wc = servePing st h wc := by
  rw [dispatch, if_neg (by rw [hop]; decide), if_neg (by rw [hop]; decide),
    if_neg (by rw [hop]; decide), if_neg (by rw [hop]; decide), if_neg (by rw [hop]; decide),
    if_pos hop]

end Dispatch

theorem serves_serveRequest {q : Request} (h : (st.disk img).admits q) :
    Serves (serveRequest st wc) (Served st ((st.disk img).after q))
      ⟨q.bytes, ((st.disk img).reply q).bytes, img⟩ := by
  have hpass := passes_of_admits h
  unfold serveRequest
  rw [serves_bind]
  refine safe_script_recvAll netblkIoChunkBytes_pos q.header.encode q.payload q.header.length_encode
    rfl False.elim ?_
  simp only [NetBlockHeader.decode_encode]
  rw [if_neg (not_not_intro hpass.magic), if_neg (not_not_intro hpass.version)]
  cases q with
  | hello profile =>
    rw [dispatch_hello rfl]
    exact serves_hello profile
  | read lba count =>
    rw [dispatch_read rfl]
    exact serves_read h
  | write site lba data =>
    rw [dispatch_write rfl]
    exact serves_write h
  | flush =>
    rw [dispatch_flush rfl]
    exact serves_flush
  | ping header tel =>
    rw [@dispatch_ping st wc (Request.ping header tel).header header.op_eq]
    exact serves_ping header tel

end Requests

end Winspire.Server
