import Winspire.Lib.Wire
import Winspire.Netblk.Session

/-!
# Requests on the wire

`netblk_request` and `netblk_ping` as programs over the socket. Put in place of the requests of
the client they give the client at the level of bytes. On a stream that carries the answers of
the disk they send the bytes of the request, receive the bytes of the response and accept it.
-/

namespace Winspire.Netblk

open Interaction

set_option autoImplicit false

def netblkIoChunkBytes : Nat := 64 * 1024

/-- Besides the operations off the wire, marks for the start of a request and for its result. -/
inductive LocalOp where
  | begins (q : Request)
  | done (ok : Bool)
  | alloc
  | netWaitUs

@[reducible] def localSig : Signature where
  Op := LocalOp
  Answer
    | .begins _ | .done _ => Unit
    | .alloc => Bool
    | .netWaitUs => UInt64

abbrev ClientProg := Prog (wire localSig)

def netblkHeaderOk (h : NetBlockHeader) (op : UInt16) : Bool :=
  h.magic = netblkMagic && (h.version = netblkVersion && (h.op = op && h.status = netblkStatusOk))

/-- `!out_len || netblk_send_all(bn->fd, out, out_len) == 0`. -/
def sendPayload (out : List UInt8) : ClientProg Bool :=
  if out.length ≠ 0 then sendAll netblkIoChunkBytes out else .ret true

def recvPayload (inLen : Nat) : ClientProg (Option (List UInt8)) :=
  if inLen ≠ 0 then recvAll netblkIoChunkBytes inLen else .ret (some [])

/-- The response header and the `inLen` bytes that follow it. -/
def netblkRequest (profile : UInt32) (op : UInt16) (lba : UInt64) (count : UInt32) (out : List UInt8)
    (inLen : Nat) : ClientProg (Option (NetBlockHeader × List UInt8)) := do
  let req := netblkHeaderInit op lba count (.ofNat out.length)
    (if op = netblkOpHello then profile else 0)
  if ← sendAll netblkIoChunkBytes req.encode then
    if ← sendPayload out then
      match ← recvAll netblkIoChunkBytes NetBlockHeader.size with
      | none => return none
      | some raw =>
        let resp := NetBlockHeader.decode raw
        if ¬netblkHeaderOk resp op then return none
        else if inLen ≠ 0 ∧ resp.bytes.toNat ≠ inLen then return none
        else
          match ← recvPayload inLen with
          | none => return none
          | some data => return some (resp, data)
    else return none
  else return none

def netblkPingRequest (header : PingHeader) (tel : NetPingTelemetry) :
    ClientProg (Option NetBlockHeader) := do
  if ← sendAll netblkIoChunkBytes header.header.encode then
    if ← sendAll netblkIoChunkBytes tel.encode then
      match ← recvAll netblkIoChunkBytes NetBlockHeader.size with
      | none => return none
      | some raw =>
        let resp := NetBlockHeader.decode raw
        return if netblkHeaderOk resp netblkOpPing then some resp else none
    else return none
  else return none

/-- A request as its caller in the source makes it. -/
def Request.send : Request → ClientProg (Option Response)
  | .hello profile => do
    let r ← netblkRequest profile netblkOpHello 0 0 [] 0
    return r.map fun (h, _) => ⟨h, []⟩
  | .read lba count => do
    let r ← netblkRequest 0 netblkOpRead (.ofNat lba) (.ofNat count) [] (count * sectorSize)
    return r.map fun (h, data) => ⟨h, bytesSectors count data⟩
  | .write _ lba data => do
    let r ← netblkRequest 0 netblkOpWrite (.ofNat lba) (.ofNat data.length) (sectorBytes data) 0
    return r.map fun (h, _) => ⟨h, []⟩
  | .flush => do
    let r ← netblkRequest 0 netblkOpFlush 0 0 [] 0
    return r.map fun (h, _) => ⟨h, []⟩
  | .ping header tel => do
    let r ← netblkPingRequest header tel
    return r.map fun h => ⟨h, []⟩

def dialog : (op : NetOp) → ClientProg (netSig.Answer op)
  | .request q => do
    let _ ← offWire (Prog.perform (S := localSig) (.begins q))
    let r ← q.send
    let _ ← offWire (Prog.perform (S := localSig) (.done r.isSome))
    return r
  | .alloc => offWire (Prog.perform (S := localSig) .alloc)
  | .netWaitUs => offWire (Prog.perform (S := localSig) .netWaitUs)

def NetProg.onWire {α : Type} (p : NetProg α) : ClientProg α := p.translate dialog

def Request.header : Request → NetBlockHeader
  | .hello profile => netblkHeaderInit netblkOpHello 0 0 0 profile
  | .read lba count => netblkHeaderInit netblkOpRead (.ofNat lba) (.ofNat count) 0 0
  | .write _ lba data => netblkHeaderInit netblkOpWrite (.ofNat lba) (.ofNat data.length)
      (.ofNat (data.length * sectorSize)) 0
  | .flush => netblkHeaderInit netblkOpFlush 0 0 0 0
  | .ping header _ => header.header

def Request.payload : Request → List UInt8
  | .write _ _ data => sectorBytes data
  | .ping _ tel => tel.encode
  | _ => []

def Request.bytes (q : Request) : List UInt8 := q.header.encode ++ q.payload

def Response.bytes (r : Response) : List UInt8 := r.header.encode ++ sectorBytes r.data

theorem Response.bytes_ne_nil (r : Response) : r.bytes ≠ [] := by
  have hlen : r.bytes.length = NetBlockHeader.size + (sectorBytes r.data).length := by
    rw [bytes, List.length_append, NetBlockHeader.length_encode]
  intro hnil
  rw [hnil] at hlen
  simp [NetBlockHeader.size] at hlen
  omega

section Script
variable {σ : Type} {okLoc : Script σ → LocalOp → Prop} {H : Env localSig (Script σ)}

theorem chunk_pos : 0 < netblkIoChunkBytes := by decide

theorem netblkHeaderOk_initHeader (op : UInt16) (lba : UInt64) (count bytes flags : UInt32) :
    netblkHeaderOk (initHeader op lba count bytes 0 flags) op = true := by
  simp [netblkHeaderOk, initHeader, netblkStatusOk]

theorem safe_sendPayload {inp out : List UInt8} {host : σ} {Q : Bool → Script σ → Prop}
    (hQ : Q true ⟨inp, [], host⟩) :
    safe (inScript True okLoc) (script H) (sendPayload out) Q ⟨inp, out, host⟩ := by
  unfold sendPayload
  split
  · exact safe_script_sendAll chunk_pos out [] (by simp) (by simp) hQ
  · rename_i hz
    rw [List.length_eq_zero_iff.mp (not_not.mp hz)]
    exact hQ

theorem safe_recvPayload {inLen : Nat} {data : List UInt8} {s : Script σ}
    {Q : Option (List UInt8) → Script σ → Prop} (hlen : data.length = inLen) (hinp : s.inp = data)
    (hout : s.out = []) (hQ : Q (some data) ⟨[], [], s.host⟩) :
    safe (inScript True okLoc) (script H) (recvPayload inLen) Q s := by
  obtain ⟨inp, out, host⟩ := s
  simp only at hinp hout
  subst hinp hout
  unfold recvPayload
  split
  · exact safe_script_recvAll chunk_pos inp [] hlen (by simp) (fun _ => rfl) hQ
  · rename_i hz
    obtain rfl : inp = [] := List.length_eq_zero_iff.mp (hlen.trans (not_not.mp hz))
    exact hQ

theorem safe_netblkRequest {profile : UInt32} {op : UInt16} {lba : UInt64} {count : UInt32}
    {out data : List UInt8} {inLen : Nat} {resp : NetBlockHeader} {s : Script σ}
    {Q : Option (NetBlockHeader × List UInt8) → Script σ → Prop}
    (hout : s.out = (netblkHeaderInit op lba count (.ofNat out.length)
      (if op = netblkOpHello then profile else 0)).encode ++ out)
    (hinp : s.inp = resp.encode ++ data) (hok : netblkHeaderOk resp op = true)
    (hdata : data.length = inLen) (hbytes : inLen ≠ 0 → resp.bytes.toNat = inLen)
    (hQ : Q (some (resp, data)) ⟨[], [], s.host⟩) :
    safe (inScript True okLoc) (script H) (netblkRequest profile op lba count out inLen) Q s := by
  unfold netblkRequest
  rw [safe_bind]
  apply safe_script_sendAll chunk_pos _ out hout (by simp)
  simp only [if_true]
  rw [safe_bind]
  apply safe_sendPayload
  simp only [if_true]
  rw [safe_bind]
  refine safe_script_recvAll chunk_pos resp.encode data resp.length_encode hinp (fun _ => rfl) ?_
  simp only [NetBlockHeader.decode_encode]
  rw [if_neg (by simp [hok]), if_neg (fun h => h.2 (hbytes h.1)), safe_bind]
  exact safe_recvPayload hdata rfl rfl hQ

theorem safe_netblkPingRequest {header : PingHeader} {tel : NetPingTelemetry}
    {resp : NetBlockHeader} {s : Script σ} {Q : Option NetBlockHeader → Script σ → Prop}
    (hout : s.out = header.header.encode ++ tel.encode) (hinp : s.inp = resp.encode)
    (hok : netblkHeaderOk resp netblkOpPing = true) (hQ : Q (some resp) ⟨[], [], s.host⟩) :
    safe (inScript True okLoc) (script H) (netblkPingRequest header tel) Q s := by
  unfold netblkPingRequest
  rw [safe_bind]
  apply safe_script_sendAll chunk_pos _ tel.encode hout (by simp)
  simp only [if_true]
  rw [safe_bind]
  apply safe_script_sendAll chunk_pos _ [] (by simp) (by simp)
  simp only [if_true]
  rw [safe_bind]
  refine safe_script_recvAll chunk_pos resp.encode [] resp.length_encode (by simp [hinp])
    (fun _ => rfl) ?_
  simp only [NetBlockHeader.decode_encode, hok, if_true]
  exact hQ

/-- An admitted request sends its bytes, receives the disk's answer and accepts it. -/
theorem safe_send {d : Disk} {q : Request} (hadm : d.admits q) {s : Script σ}
    (hout : s.out = q.bytes) (hinp : s.inp = (d.reply q).bytes)
    {Q : Option Response → Script σ → Prop} (hQ : Q (some (d.reply q)) ⟨[], [], s.host⟩) :
    safe (inScript True okLoc) (script H) q.send Q s := by
  cases q with
  | hello profile =>
    unfold Request.send
    rw [safe_bind]
    exact safe_netblkRequest hout hinp (netblkHeaderOk_initHeader _ _ _ _ _) rfl (by simp) hQ
  | read lba count =>
    have hmax := d.cfg.maxSectors_le
    obtain ⟨_, hle, _⟩ := hadm
    simp only [netblkMaxSectors] at hmax
    unfold Request.send
    rw [safe_bind]
    refine safe_netblkRequest hout hinp
      (netblkHeaderOk_initHeader _ _ _ _ _) (by simp [Disk.reply]) (fun _ => ?_) ?_
    · simp only [Disk.reply, initHeader, sectorSize]
      rw [UInt32.toNat_ofNat', Nat.mod_eq_of_lt (by omega)]
    · have hdata := bytesSectors_sectorBytes (slice d.image lba count)
      rw [length_slice] at hdata
      simp only [Disk.reply, Option.map_some]
      rw [hdata]
      exact hQ
  | write site lba data =>
    unfold Request.send
    rw [safe_bind]
    refine safe_netblkRequest ?_ hinp (netblkHeaderOk_initHeader _ _ _ _ _) rfl (by simp) hQ
    rw [hout, length_sectorBytes]
    rfl
  | flush =>
    unfold Request.send
    rw [safe_bind]
    exact safe_netblkRequest hout hinp (netblkHeaderOk_initHeader _ _ _ _ _) rfl (by simp) hQ
  | ping header tel =>
    unfold Request.send
    rw [safe_bind]
    refine safe_netblkPingRequest hout ?_ (netblkHeaderOk_initHeader _ _ _ _ _) hQ
    rw [hinp, Response.bytes]
    simp [Disk.reply, sectorBytes, flattenCells]

end Script

/-- The requests a program makes are admitted. -/
def admitted (l : Link) : NetOp → Prop
  | .request q => l.disk.admits q
  | _ => True

theorem faultless_log {α : Type} {p : NetProg α} {l l' : Link} {a : α}
    (hrun : Runs faultless p l a l') : ∃ new, l'.log = new ++ l.log := by
  induction hrun with
  | ret a s => exact ⟨[], rfl⟩
  | @ask op k s s' s'' r a hr _ ih =>
    obtain ⟨new, hnew⟩ := ih
    cases op with
    | request q =>
      rcases hr with ⟨_, _, rfl⟩ | ⟨_, _, rfl⟩ | ⟨hno, _⟩
      · exact ⟨new ++ [(q, true)], by rw [hnew]; simp⟩
      · exact ⟨new ++ [(q, false)], by rw [hnew]; simp⟩
      · exact absurd hno id
    | alloc => exact ⟨new, by rw [hnew, show s' = s from hr]⟩
    | netWaitUs => exact ⟨new, by rw [hnew, show s' = s from hr]⟩

/-- If no request of a program ever fails on a faultless link, all are admitted. -/
theorem safe_admitted {α : Type} {p : NetProg α} {Q : α → Link → Prop} {l₀ l : Link}
    (hl : ∃ new, l.log = new ++ l₀.log)
    (h : wp faultless p (fun a l' => Q a l' ∧ Extends (fun _ => False) l₀ l') l) :
    safe admitted faultless p Q l := by
  induction p generalizing l with
  | ret a => exact h.1
  | ask op k ih =>
    refine ⟨?_, fun r l' hr => ih r ?_ (h r l' hr)⟩
    · cases op with
      | request q =>
        by_contra hno
        -- a refused request stays in the log
        have hstep : faultless l (.request q) none ⟨l.disk, (q, false) :: l.log⟩ :=
          Or.inr (Or.inl ⟨hno, rfl, rfl⟩)
        obtain ⟨a, l', hrun⟩ := exists_runs (link_total fun _ => False) (k none)
          ⟨l.disk, (q, false) :: l.log⟩
        obtain ⟨new, hnew⟩ := faultless_log hrun
        obtain ⟨old, hold⟩ := hl
        obtain ⟨new', hnew', hfail⟩ := ((hrun.post (h none _ hstep)).2).log
        have hmem : (q, false) ∈ new' := by
          have heq : new ++ (q, false) :: old = new' := by
            rw [hnew, hold] at hnew'
            exact List.append_cancel_right (by simpa using hnew')
          rw [← heq]
          simp
        exact hfail _ hmem rfl
      | alloc => trivial
      | netWaitUs => trivial
    · obtain ⟨new, hnew⟩ := hl
      obtain ⟨new', hnew'⟩ := faultless_log (.ask hr (.ret () l') : Runs faultless (.ask op fun _ => .ret ())
        l () l')
      exact ⟨new' ++ new, by rw [hnew', hnew, List.append_assoc]⟩

end Winspire.Netblk
