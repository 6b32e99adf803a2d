import Winspire.Netblk.Dialog

/-!
# Requests on a socket that times out

`netblk_request` gives up when a `send` or `recv` fails, but nobody closes the socket, and
`netblk_header_ok` does not compare the sector. After a timeout the answer still comes, and the
next request reads it as its own. Here the bytes that the server has sent and the client has not
read are part of the state. While nothing has broken off, the socket behaves like `link`.
-/

namespace Winspire.Netblk

open Interaction

set_option autoImplicit false

structure Socket where
  link : Link
  /-- Sent by the server and not yet received. -/
  unread : List UInt8 := []
  /-- The server sends nothing more. -/
  closed : Bool := false
  /-- A send broke off inside a request. -/
  torn : Bool := false

/-- `Request.send` leaves the operations off the wire alone. -/
def idle : Env localSig Unit := fun _ _ _ _ => True

/-- The bytes a server makes of a request it has received in full. An error status comes with no
payload; behind a WRITE that went wrong the sectors it names hold anything. -/
inductive Answers (d : Disk) (q : Request) : List UInt8 → Disk → Prop where
  | ok : d.admits q → Answers d q (d.reply q).bytes (d.after q)
  | refused {h : NetBlockHeader} : ¬d.admits q → h.status ≠ netblkStatusOk →
      Answers d q h.encode d
  | failed {h : NetBlockHeader} (img : Nat → Sector) : d.admits q → h.status ≠ netblkStatusOk →
      Answers d q h.encode (d.damage img q)

/-- The socket after a request that left the disk at `d` and returned `r`. -/
def Socket.then (s : Socket) (d : Disk) (q : Request) (r : Option Response) (unread : List UInt8)
    (closed torn : Bool) : Socket :=
  ⟨⟨d, (q, r.isSome) :: s.link.log⟩, unread, closed, torn⟩

/-- The four ways a request can go. A `recv` that times out leaves what has not arrived in time
for the next request. -/
inductive Served (s : Socket) (q : Request) : Option Response → Socket → Prop where
  | answered {bytes part left : List UInt8} {d : Disk} {r : Option Response} {closed : Bool} :
      s.torn = false → s.closed = false → Answers s.link.disk q bytes d → part <+: bytes →
      (closed = false → part = bytes) →
      Runs (peer False idle) q.send ⟨s.unread ++ part, ()⟩ r ⟨left, ()⟩ →
      Served s q r (s.then d q r left closed false)
  | hungUp {left : List UInt8} {r : Option Response} :
      s.torn = false → s.closed = true → Runs (peer False idle) q.send ⟨s.unread, ()⟩ r ⟨left, ()⟩ →
      Served s q r (s.then s.link.disk q r left true false)
  | brokeOff {d : Disk} : s.torn = false →
      (s.link.disk.admits q ∧ (∃ img, d = s.link.disk.damage img q) ∨ d = s.link.disk) →
      Served s q none (s.then d q none s.unread s.closed true)
  -- the server takes the bytes that follow for the rest of the torn request
  | torn {d : Disk} {r : Option Response} {unread : List UInt8} {closed : Bool} : s.torn = true →
      d.cfg = s.link.disk.cfg → d.sectorCount = s.link.disk.sectorCount →
      Served s q r (s.then d q r unread closed true)

/-- `mayFail` says which requests can fail. An inadmissible one always does. -/
def socket (mayFail : Request → Prop) : Env netSig Socket := fun s op r s' =>
  match op with
  | .request q => Served s q r s' ∧ (r = none → s.link.disk.admits q → mayFail q)
  | .alloc => s' = s
  | .netWaitUs => s' = s

/-- No send or recv has broken off: what the server sent has been received. -/
structure Socket.InStep (s : Socket) : Prop where
  unread : s.unread = []
  torn : s.torn = false

def Request.inLen : Request → Nat
  | .read _ count => count * sectorSize
  | _ => 0

def Request.sectors : Request → Nat
  | .read _ count => count
  | _ => 0

/-- The bytes start with a response the client accepts. -/
structure Accepts (op : UInt16) (inLen : Nat) (inp : List UInt8) : Prop where
  enough : NetBlockHeader.size + inLen ≤ inp.length
  header : netblkHeaderOk (NetBlockHeader.decode (inp.take NetBlockHeader.size)) op = true
  size : inLen ≠ 0 → (NetBlockHeader.decode (inp.take NetBlockHeader.size)).bytes.toNat = inLen

/-- How `netblk_request` ends on the bytes `inp`: with `r`, and with `left` not received. -/
inductive Taken {α : Type} (reliable : Prop) (op : UInt16) (inLen : Nat) (inp : List UInt8)
    (resp : α) : Option α → List UInt8 → Prop where
  | accepted : Accepts op inLen inp →
      Taken reliable op inLen inp resp (some resp) (inp.drop (NetBlockHeader.size + inLen))
  | rejected {left : List UInt8} : (reliable → ¬Accepts op inLen inp) →
      (reliable → inp.length = NetBlockHeader.size → left = []) →
      Taken reliable op inLen inp resp none left

theorem Taken.lost {α : Type} {reliable : Prop} {op : UInt16} {inLen : Nat} {inp left : List UInt8}
    {resp : α} (h : ¬reliable) : Taken reliable op inLen inp resp none left :=
  .rejected (fun hrel => absurd hrel h) fun hrel => absurd hrel h

section Take

variable {reliable : Prop} {s : Peer Unit}

theorem wp_peer_sendPayload {out : List UInt8} {Q : Bool → Peer Unit → Prop}
    (hQ : ∀ ok, (reliable → ok = true) → Q ok s) :
    wp (peer reliable idle) (sendPayload out) Q s := by
  unfold sendPayload
  split
  · exact wp_peer_sendAll chunk_pos out hQ
  · exact hQ true fun _ => rfl

theorem wp_peer_recvPayload {inLen : Nat} {Q : Option (List UInt8) → Peer Unit → Prop}
    (hfail : ¬(reliable ∧ inLen ≤ s.inp.length) → ∀ k, Q none { s with inp := s.inp.drop k })
    (hok : inLen ≤ s.inp.length →
      Q (some (s.inp.take inLen)) { s with inp := s.inp.drop inLen }) :
    wp (peer reliable idle) (recvPayload inLen) Q s := by
  unfold recvPayload
  split
  · exact wp_peer_recvAll chunk_pos hfail hok
  · rename_i hz
    obtain rfl : inLen = 0 := not_not.mp hz
    exact hok (Nat.zero_le _)

theorem wp_peer_netblkRequest {profile : UInt32} {op : UInt16} {lba : UInt64} {count : UInt32}
    {out : List UInt8} {inLen : Nat} :
    wp (peer reliable idle) (netblkRequest profile op lba count out inLen) (fun r s' =>
      Taken reliable op inLen s.inp (NetBlockHeader.decode (s.inp.take NetBlockHeader.size),
        (s.inp.drop NetBlockHeader.size).take inLen) r s'.inp) s := by
  unfold netblkRequest
  rw [wp_bind]
  apply wp_peer_sendAll chunk_pos
  intro ok hok
  cases ok with
  | false => exact Taken.lost fun hrel => absurd (hok hrel) (by simp)
  | true =>
    simp only [if_true]
    rw [wp_bind]
    apply wp_peer_sendPayload
    intro ok hok
    cases ok with
    | false => exact Taken.lost fun hrel => absurd (hok hrel) (by simp)
    | true =>
      simp only [if_true]
      rw [wp_bind]
      apply wp_peer_recvAll chunk_pos
      · intro hshort k
        refine .rejected (fun hrel hacc => hshort ⟨hrel, ?_⟩) fun hrel hlen =>
          absurd ⟨hrel, hlen.ge⟩ hshort
        have henough := hacc.enough
        omega
      · intro hheader
        simp only
        split
        · rename_i hbad
          refine .rejected (fun _ hacc => hbad hacc.header) fun _ hlen => ?_
          exact List.drop_eq_nil_of_le hlen.le
        · rename_i hgood
          split
          · rename_i hsize
            refine .rejected (fun _ hacc => hsize.2 (hacc.size hsize.1)) fun _ hlen => ?_
            exact List.drop_eq_nil_of_le hlen.le
          · rename_i hsize
            rw [wp_bind]
            apply wp_peer_recvPayload
            · intro hshort k
              simp only [List.length_drop] at hshort
              refine .rejected (fun hrel hacc => hshort ⟨hrel, ?_⟩) fun _ hlen => ?_
              · have henough := hacc.enough
                omega
              · rw [List.drop_drop]
                exact List.drop_eq_nil_of_le (by omega)
            · intro hlen
              simp only [List.length_drop] at hlen
              simp only [List.drop_drop]
              refine .accepted ⟨by omega, not_not.mp hgood, fun hne => ?_⟩
              exact not_not.mp fun hno => hsize ⟨hne, hno⟩

theorem wp_peer_netblkPingRequest {header : PingHeader} {tel : NetPingTelemetry} :
    wp (peer reliable idle) (netblkPingRequest header tel) (fun r s' =>
      Taken reliable netblkOpPing 0 s.inp
        (NetBlockHeader.decode (s.inp.take NetBlockHeader.size)) r s'.inp) s := by
  unfold netblkPingRequest
  rw [wp_bind]
  apply wp_peer_sendAll chunk_pos
  intro ok hok
  cases ok with
  | false => exact Taken.lost fun hrel => absurd (hok hrel) (by simp)
  | true =>
    simp only [if_true]
    rw [wp_bind]
    apply wp_peer_sendAll chunk_pos
    intro ok hok
    cases ok with
    | false => exact Taken.lost fun hrel => absurd (hok hrel) (by simp)
    | true =>
      simp only [if_true]
      rw [wp_bind]
      apply wp_peer_recvAll chunk_pos
      · intro hshort k
        refine .rejected (fun hrel hacc => hshort ⟨hrel, ?_⟩) fun hrel hlen =>
          absurd ⟨hrel, hlen.ge⟩ hshort
        have henough := hacc.enough
        omega
      · intro hheader
        simp only [wp_pure]
        split
        · rename_i hgood
          exact .accepted ⟨hheader, hgood, fun hne => absurd rfl hne⟩
        · rename_i hbad
          refine .rejected (fun _ hacc => hbad hacc.header) fun _ hlen => ?_
          exact List.drop_eq_nil_of_le hlen.le

theorem Taken.map {α β : Type} {op : UInt16} {inLen : Nat} {inp left : List UInt8} {a : α}
    {r : Option α} {f : α → β} {b : β} (h : Taken reliable op inLen inp a r left) (hf : f a = b) :
    Taken reliable op inLen inp b (r.map f) left := by
  subst hf
  cases h with
  | accepted h => exact .accepted h
  | rejected hno hleft => exact .rejected hno hleft

theorem wp_peer_send (q : Request) :
    wp (peer reliable idle) q.send (fun r s' =>
      Taken reliable q.header.op q.inLen s.inp
        (Response.mk (NetBlockHeader.decode (s.inp.take NetBlockHeader.size))
          (bytesSectors q.sectors ((s.inp.drop NetBlockHeader.size).take q.inLen))) r s'.inp) s := by
  cases q with
  | ping header tel =>
    unfold Request.send
    rw [wp_bind]
    refine wp_mono wp_peer_netblkPingRequest fun r s' htaken => ?_
    have hop : (Request.ping header tel).header.op = netblkOpPing := header.op_eq
    rw [hop]
    rw [wp_pure]
    exact htaken.map rfl
  | hello profile =>
    unfold Request.send
    rw [wp_bind]
    refine wp_mono wp_peer_netblkRequest fun r s' htaken => ?_
    rw [wp_pure]
    exact htaken.map rfl
  | read lba count =>
    unfold Request.send
    rw [wp_bind]
    refine wp_mono wp_peer_netblkRequest fun r s' htaken => ?_
    rw [wp_pure]
    exact htaken.map rfl
  | write site lba data =>
    unfold Request.send
    rw [wp_bind]
    refine wp_mono wp_peer_netblkRequest fun r s' htaken => ?_
    rw [wp_pure]
    exact htaken.map rfl
  | flush =>
    unfold Request.send
    rw [wp_bind]
    refine wp_mono wp_peer_netblkRequest fun r s' htaken => ?_
    rw [wp_pure]
    exact htaken.map rfl

end Take

section Answer

variable {d : Disk} {q : Request}

theorem reply_length (d : Disk) (q : Request) : (d.reply q).data.length = q.sectors := by
  cases q with
  | read lba count => exact length_slice _ _ _
  | _ => rfl

theorem inLen_eq (q : Request) : q.inLen = q.sectors * sectorSize := by
  cases q with
  | read lba count => rfl
  | _ => exact (Nat.zero_mul _).symm

theorem reply_bytes_length (d : Disk) (q : Request) :
    (d.reply q).bytes.length = NetBlockHeader.size + q.inLen := by
  rw [Response.bytes, List.length_append, NetBlockHeader.length_encode, length_sectorBytes,
    reply_length, inLen_eq]

theorem reply_header (d : Disk) (q : Request) :
    NetBlockHeader.decode ((d.reply q).bytes.take NetBlockHeader.size) = (d.reply q).header := by
  rw [Response.bytes, List.take_left' (NetBlockHeader.length_encode _),
    NetBlockHeader.decode_encode]

theorem reply_data (d : Disk) (q : Request) :
    bytesSectors q.sectors (((d.reply q).bytes.drop NetBlockHeader.size).take q.inLen) =
      (d.reply q).data := by
  have hlen : (sectorBytes (d.reply q).data).length = q.inLen := by
    rw [length_sectorBytes, reply_length, inLen_eq]
  rw [Response.bytes, List.drop_left' (NetBlockHeader.length_encode _), ← hlen, List.take_length,
    ← reply_length d q]
  exact bytesSectors_sectorBytes _

theorem reply_accepted (h : d.admits q) :
    Accepts q.header.op q.inLen (d.reply q).bytes := by
  refine ⟨(reply_bytes_length d q).ge, ?_, ?_⟩
  · rw [reply_header]
    cases q with
    | ping header tel =>
      rw [Request.header, header.op_eq]
      exact netblkHeaderOk_initHeader _ _ _ _ _
    | _ => exact netblkHeaderOk_initHeader _ _ _ _ _
  · intro hne
    rw [reply_header]
    cases q with
    | read lba count =>
      have hmax := d.cfg.maxSectors_le
      have hcount := h.2.1
      simp only [netblkMaxSectors] at hmax
      simp only [Disk.reply, initHeader, Request.inLen, sectorSize]
      rw [UInt32.toNat_ofNat', Nat.mod_eq_of_lt (by omega)]
    | _ => exact absurd rfl hne

/-- A prefix of the answer is accepted only when all of it has come. -/
theorem Taken.of_reply {reliable : Prop} {part left : List UInt8} {r : Option Response}
    (hpart : part <+: (d.reply q).bytes)
    (h : Taken reliable q.header.op q.inLen part
      (Response.mk (NetBlockHeader.decode (part.take NetBlockHeader.size))
        (bytesSectors q.sectors ((part.drop NetBlockHeader.size).take q.inLen))) r left) :
    r = none ∨ r = some (d.reply q) ∧ left = [] := by
  cases h with
  | rejected => exact Or.inl rfl
  | accepted hacc =>
    have hlen := reply_bytes_length d q
    obtain rfl := hpart.eq_of_length_le (by rw [hlen]; exact hacc.enough)
    refine Or.inr ⟨?_, List.drop_eq_nil_of_le hlen.le⟩
    rw [reply_header, reply_data]

theorem not_accepts_error {h : NetBlockHeader} (hstatus : h.status ≠ netblkStatusOk) {op : UInt16}
    {inLen : Nat} {part : List UInt8} (hpart : part <+: h.encode) : ¬Accepts op inLen part := by
  intro hacc
  have hlen := h.length_encode
  have henough := hacc.enough
  obtain rfl := hpart.eq_of_length_le (by omega)
  have hok := hacc.header
  rw [List.take_of_length_le hlen.le, NetBlockHeader.decode_encode] at hok
  simp [netblkHeaderOk, hstatus] at hok

theorem Taken.eq_none {α : Type} {reliable : Prop} {op : UInt16} {inLen : Nat}
    {inp left : List UInt8} {resp : α} {r : Option α} (hno : ¬Accepts op inLen inp)
    (h : Taken reliable op inLen inp resp r left) : r = none := by
  cases h with
  | rejected => rfl
  | accepted hacc => exact absurd hacc hno

theorem damage_after (d : Disk) (q : Request) : d.damage (d.after q).image q = d.after q := by
  cases q with
  | write site lba data =>
    rw [Disk.damage, Disk.after, slice_blit_self]
  | _ => rfl

end Answer

section Link

variable {mayFail : Request → Prop} {s s' : Socket} {q : Request}

/-- A request in step is one of the link, and it stays in step unless it fails. -/
theorem Served.link {r : Option Response} (h : Served s q r s') (hs : s.InStep)
    (hmay : r = none → s.link.disk.admits q → mayFail q) :
    link mayFail s.link (.request q) r s'.link ∧ (r.isSome → s'.InStep) := by
  cases h with
  | answered htorn hclosed hans hpart hall hrun =>
    have htaken := hrun.post (wp_peer_send q)
    rw [hs.unread, List.nil_append] at htaken
    cases hans with
    | ok hadm =>
      rcases htaken.of_reply hpart with rfl | ⟨rfl, rfl⟩
      · refine ⟨Or.inr (Or.inr ⟨hmay rfl hadm, rfl, (s.link.disk.after q).image, ?_⟩), by simp⟩
        rw [damage_after]
        rfl
      · exact ⟨Or.inl ⟨hadm, rfl, rfl⟩, fun _ => ⟨rfl, rfl⟩⟩
    | refused hno hstatus =>
      obtain rfl := htaken.eq_none (not_accepts_error hstatus hpart)
      exact ⟨Or.inr (Or.inl ⟨hno, rfl, rfl⟩), by simp⟩
    | failed img hadm hstatus =>
      obtain rfl := htaken.eq_none (not_accepts_error hstatus hpart)
      exact ⟨Or.inr (Or.inr ⟨hmay rfl hadm, rfl, img, rfl⟩), by simp⟩
  | hungUp htorn hclosed hrun =>
    have htaken := hrun.post (wp_peer_send q)
    have hempty : ¬Accepts q.header.op q.inLen s.unread := by
      intro hacc
      have henough := hacc.enough
      rw [hs.unread] at henough
      exact absurd henough (by simp [NetBlockHeader.size])
    obtain rfl := htaken.eq_none hempty
    refine ⟨?_, by simp⟩
    by_cases hadm : s.link.disk.admits q
    · refine Or.inr (Or.inr ⟨hmay rfl hadm, rfl, s.link.disk.image, ?_⟩)
      rw [damage_self]
      rfl
    · exact Or.inr (Or.inl ⟨hadm, rfl, rfl⟩)
  | brokeOff htorn hdisk =>
    refine ⟨?_, by simp⟩
    by_cases hadm : s.link.disk.admits q
    · refine Or.inr (Or.inr ⟨hmay rfl hadm, rfl, ?_⟩)
      rcases hdisk with ⟨_, img, rfl⟩ | rfl
      · exact ⟨img, rfl⟩
      · refine ⟨s.link.disk.image, ?_⟩
        rw [damage_self]
        rfl
    · rcases hdisk with ⟨hadm', _⟩ | rfl
      · exact absurd hadm' hadm
      · exact Or.inr (Or.inl ⟨hadm, rfl, rfl⟩)
  | torn htorn =>
    rw [hs.torn] at htorn
    exact absurd htorn (by simp)

/-- An operation is in step. Off the wire there is nothing to be out of step with. -/
def inStep (s : Socket) : NetOp → Prop
  | .request _ => s.InStep
  | _ => True

/-- A run whose requests are all made in step is a run of the link. -/
theorem safe_link {α : Type} {p : NetProg α} {a : α} {Q : α → Socket → Prop}
    (hrun : Runs (socket mayFail) p s a s') (hsafe : safe inStep (socket mayFail) p Q s) :
    Runs (link mayFail) p s.link a s'.link ∧ Q a s' := by
  induction hrun with
  | ret a s => exact ⟨.ret a s.link, hsafe⟩
  | @ask op k s t u r a hstep _ ih =>
    obtain ⟨hrest, hQ⟩ := ih (hsafe.2 r t hstep)
    refine ⟨.ask ?_ hrest, hQ⟩
    cases op with
    | request q => exact (hstep.1.link hsafe.1 hstep.2).1
    | alloc => exact congrArg Socket.link hstep
    | netWaitUs => exact congrArg Socket.link hstep

def Link.open (l : Link) : Socket := { link := l }

theorem exists_send {inp : List UInt8} {Q : Option Response → Peer Unit → Prop}
    (h : wp (peer True idle) q.send Q ⟨inp, ()⟩) :
    ∃ r left, Runs (peer False idle) q.send ⟨inp, ()⟩ r ⟨left, ()⟩ ∧ Q r ⟨left, ()⟩ := by
  have htotal : ∀ (u : Unit) (op : LocalOp), ∃ r u', idle u op r u' := by
    intro u op
    cases op with
    | begins _ => exact ⟨(), u, trivial⟩
    | done _ => exact ⟨(), u, trivial⟩
    | alloc => exact ⟨true, u, trivial⟩
    | netWaitUs => exact ⟨(0 : UInt64), u, trivial⟩
  obtain ⟨r, ⟨left, u⟩, hrun⟩ := exists_runs (peer_total htotal) q.send ⟨inp, ()⟩
  exact ⟨r, left, hrun.env_mono (peer_mono fun _ _ _ _ hH => hH), hrun.post h⟩

theorem socket_answers (l : Link) (hadm : l.disk.admits q) :
    socket mayFail l.open (.request q) (some (l.disk.reply q))
      (Link.open ⟨l.disk.after q, (q, true) :: l.log⟩) := by
  have htaken : wp (peer True idle) q.send (fun r p => r = some (l.disk.reply q) ∧ p.inp = [])
      ⟨(l.disk.reply q).bytes, ()⟩ := by
    refine wp_mono (wp_peer_send q) fun r p h => ?_
    rcases h.of_reply List.prefix_rfl with rfl | hboth
    · cases h with
      | rejected hno _ => exact absurd (reply_accepted hadm) (hno trivial)
    · exact hboth
  obtain ⟨r, left, hrun, rfl, rfl⟩ := exists_send htaken
  exact ⟨.answered rfl rfl (.ok hadm) List.prefix_rfl (fun _ => rfl) hrun, fun h => absurd h (by simp)⟩

theorem socket_refuses (l : Link) (h : l.disk.admits q → mayFail q) :
    socket mayFail l.open (.request q) none (Link.open ⟨l.disk, (q, false) :: l.log⟩) := by
  have herr : (initHeader q.header.op 0 0 0 netblkStatusWrite 0).status ≠ netblkStatusOk :=
    show netblkStatusWrite ≠ netblkStatusOk by decide
  have htaken : wp (peer True idle) q.send (fun r p => r = none ∧ p.inp = [])
      ⟨(initHeader q.header.op 0 0 0 netblkStatusWrite 0).encode, ()⟩ := by
    refine wp_mono (wp_peer_send q) fun r p h => ?_
    obtain rfl := h.eq_none (not_accepts_error herr List.prefix_rfl)
    cases h with
    | rejected _ hleft => exact ⟨rfl, hleft trivial (NetBlockHeader.length_encode _)⟩
  obtain ⟨r, left, hrun, rfl, rfl⟩ := exists_send htaken
  refine ⟨?_, fun _ => h⟩
  by_cases hadm : l.disk.admits q
  · have hans := Answers.failed l.disk.image hadm herr
    rw [damage_self] at hans
    exact .answered rfl rfl hans List.prefix_rfl (fun _ => rfl) hrun
  · exact .answered rfl rfl (.refused hadm herr) List.prefix_rfl (fun _ => rfl) hrun

theorem answer_socket {refuse : Request → Bool} (h : ∀ q, refuse q = true → mayFail q) (l : Link)
    (op : NetOp) :
    socket mayFail l.open op (answer refuse l op).1 (Link.open (answer refuse l op).2) := by
  cases op with
  | request q =>
    unfold answer
    by_cases hok : l.disk.admits q ∧ refuse q = false
    · simp only [if_pos hok]
      exact socket_answers l hok.1
    · simp only [if_neg hok]
      apply socket_refuses
      intro hadm
      apply h q
      by_contra hne
      exact hok ⟨hadm, by simpa using hne⟩
  | alloc => rfl
  | netWaitUs => rfl

theorem faultless_socket (l : Link) (op : NetOp) (r : netSig.Answer op) (l' : Link)
    (h : faultless l op r l') : socket mayFail l.open op r l'.open := by
  cases op with
  | request q =>
    rcases h with ⟨hadm, rfl, rfl⟩ | ⟨hno, rfl, rfl⟩ | ⟨hq, _⟩
    · exact socket_answers l hadm
    · exact socket_refuses l fun hadm => absurd hadm hno
    · exact absurd hq id
  | alloc => exact congrArg Link.open h
  | netWaitUs => exact congrArg Link.open h

end Link

section Calls

variable {mayFail : Request → Prop} {s : Socket}

theorem safe_request {α : Type} {q : Request} {k : Option Response → NetProg α}
    {Q : α → Socket → Prop} (hs : s.InStep)
    (hok : ∀ resp s', s'.InStep → safe inStep (socket mayFail) (k (some resp)) Q s')
    (hfail : ∀ s', safe inStep (socket mayFail) (k none) Q s') :
    safe inStep (socket mayFail) (.ask (.request q) k) Q s := by
  refine ⟨hs, ?_⟩
  intro r s' hr
  cases r with
  | none => exact hfail s'
  | some resp => exact hok resp s' ((hr.1.link hs hr.2).2 rfl)

/-- The result of a write-side function: in step unless it reports an error. -/
def StaysInStep (r : Int × BlockDeviceNet) (s : Socket) : Prop := ¬r.1 < 0 → s.InStep

theorem staysInStep_error {bn : BlockDeviceNet} : StaysInStep (-1, bn) s :=
  fun hrc => absurd (show (-1 : Int) < 0 by decide) hrc

theorem safe_flushWrites (bn : BlockDeviceNet) (hs : s.InStep) :
    safe inStep (socket mayFail) (netblkFlushWrites bn) StaysInStep s := by
  unfold netblkFlushWrites
  split
  · exact fun _ => hs
  · rw [request_bind]
    apply safe_request hs
    · exact fun _ _ hs' _ => hs'
    · exact fun _ => staysInStep_error

theorem safe_drainLoop (fuel : Nat) (bn : BlockDeviceNet) (hs : s.InStep) :
    safe inStep (socket mayFail) (netblkDrainLoop fuel bn) StaysInStep s := by
  induction fuel generalizing bn s with
  | zero =>
    unfold netblkDrainLoop
    split
    · exact fun _ => hs
    · exact fun _ => hs
  | succ fuel ih =>
    unfold netblkDrainLoop
    split
    · exact fun _ => hs
    · simp only
      split
      · exact fun _ => hs
      · apply safe_request hs
        · exact fun _ _ hs' => ih _ hs'
        · exact fun _ => staysInStep_error

theorem safe_drainWrites (bn : BlockDeviceNet) (hs : s.InStep) :
    safe inStep (socket mayFail) (netblkDrainWrites bn) StaysInStep s := by
  unfold netblkDrainWrites
  split
  · exact safe_flushWrites bn hs
  · rw [safe_bind]
    refine safe_mono (safe_flushWrites bn hs) fun r s' hflush => ?_
    simp only
    split
    · exact staysInStep_error
    · rename_i hrc
      exact safe_drainLoop _ _ (hflush hrc)

theorem safe_flush (bn : BlockDeviceNet) (hs : s.InStep) :
    safe inStep (socket mayFail) (netblkFlush bn) StaysInStep s := by
  unfold netblkFlush
  split
  · exact fun _ => hs
  · rw [safe_bind]
    refine safe_mono (safe_drainWrites bn hs) fun r s' hdrain => ?_
    simp only
    split
    · exact staysInStep_error
    · rename_i hrc
      rw [request_bind]
      apply safe_request (hdrain hrc)
      · exact fun _ _ hs' _ => hs'
      · exact fun _ => staysInStep_error

theorem safe_storeLoop (sectorNum : Nat) (buf : Nat → Sector) (left i : Nat) (bn : BlockDeviceNet)
    (hs : s.InStep) :
    safe inStep (socket mayFail) (netblkStoreLoop sectorNum buf left i bn) StaysInStep s := by
  induction left generalizing i bn s with
  | zero => exact fun _ => hs
  | succ left ih =>
    unfold netblkStoreLoop
    split
    · exact ih _ _ hs
    · apply safe_ite_bind (P := StaysInStep)
      · exact fun _ => safe_drainWrites bn hs
      · exact fun _ _ => hs
      · intro r s' hr
        simp only
        split
        · exact staysInStep_error
        · rename_i hrc
          exact ih _ _ (hr hrc)

theorem safe_storeWrite (bn : BlockDeviceNet) (sectorNum : Nat) (buf : Nat → Sector) (n : Nat)
    (hs : s.InStep) :
    safe inStep (socket mayFail) (netblkStoreWrite bn sectorNum buf n) StaysInStep s := by
  unfold netblkStoreWrite
  split
  · exact fun _ => hs
  · rw [safe_bind]
    unfold netblkAllocWrites
    split
    · exact fun _ => hs
    · split
      · exact safe_storeLoop _ _ _ _ _ hs
      · refine ⟨trivial, ?_⟩
        rintro ok s' rfl
        cases ok with
        | true => exact safe_storeLoop _ _ _ _ _ hs
        | false => exact fun _ => hs

theorem safe_bufferWrite (bn : BlockDeviceNet) (sectorNum : Nat) (buf : Nat → Sector) (n : Nat)
    (hs : s.InStep) :
    safe inStep (socket mayFail) (netblkBufferWrite bn sectorNum buf n) StaysInStep s := by
  unfold netblkBufferWrite
  apply safe_ite_bind (P := StaysInStep)
  · exact fun _ => safe_flushWrites bn hs
  · exact fun _ _ => hs
  · intro r s' hr
    simp only
    split
    · exact staysInStep_error
    · rename_i hrc
      split
      · exact safe_flushWrites _ (hr hrc)
      · exact fun _ => hr hrc

theorem safe_writeAsync (bn : BlockDeviceNet) (sectorNum : Nat) (buf : Nat → Sector) (n : Int)
    (hs : s.InStep) :
    safe inStep (socket mayFail) (netblkWriteAsync bn sectorNum buf n) (fun _ _ => True) s := by
  unfold netblkWriteAsync
  split
  · trivial
  · apply safe_ite_bind (P := StaysInStep)
    · exact fun _ => safe_storeWrite _ sectorNum buf n.toNat hs
    · exact fun _ _ => hs
    · intro r s' hr
      simp only
      split
      · trivial
      · rename_i hzero
        have hstep : s'.InStep := hr (by omega)
        split
        · rw [safe_bind]
          refine safe_mono (safe_drainWrites r.2 hstep) fun r' s'' hdrain => ?_
          split
          · trivial
          · rename_i hrc
            rw [request_bind]
            apply safe_request (hdrain hrc)
            · exact fun _ _ _ => trivial
            · exact fun _ => trivial
        · exact safe_mono (safe_bufferWrite r.2 sectorNum buf n.toNat hstep) fun _ _ _ => trivial

theorem safe_readLoop (requestEnd fuel : Nat) (bn : BlockDeviceNet) (cur : Nat) (buf : List Sector)
    (hs : s.InStep) :
    safe inStep (socket mayFail) (netblkReadLoop requestEnd fuel bn cur buf)
      (fun _ _ => True) s := by
  induction fuel generalizing bn cur buf s with
  | zero =>
    rw [netblkReadLoop]
    split <;> trivial
  | succ fuel ih =>
    rw [netblkReadLoop]
    split
    · cases netblkFindCache bn cur with
      | some w => exact ih _ _ _ hs
      | none =>
        simp only
        split
        · trivial
        · apply safe_request hs
          · exact fun _ _ hs' => ih _ _ _ hs'
          · exact fun _ => trivial
    · trivial

theorem safe_readAsync (bn : BlockDeviceNet) (sectorNum : Nat) (n : Int) (hs : s.InStep) :
    safe inStep (socket mayFail) (netblkReadAsync bn sectorNum n) (fun _ _ => True) s := by
  unfold netblkReadAsync
  split
  · trivial
  · apply safe_ite_bind (P := StaysInStep)
    · exact fun _ => safe_drainWrites bn hs
    · exact fun _ _ => hs
    · intro r s' hr
      simp only
      split
      · trivial
      · rename_i hrc
        exact safe_readLoop _ _ _ _ _ (hr hrc)

theorem safe_ping (bn : BlockDeviceNet) (info : PingInfo) (hs : s.InStep) :
    safe inStep (socket mayFail) (netblkPing bn info) (fun _ _ => True) s := by
  refine ⟨trivial, ?_⟩
  rintro us s' rfl
  apply safe_request hs
  · exact fun _ _ _ => trivial
  · exact fun _ => trivial

theorem safe_call (bn : BlockDeviceNet) (call : NetCall) (hs : s.InStep) :
    safe inStep (socket mayFail) (call.run bn) (fun _ _ => True) s := by
  cases call with
  | write sectorNum buf n =>
    unfold NetCall.run
    rw [safe_bind]
    exact safe_mono (safe_writeAsync bn sectorNum buf n hs) fun _ _ _ => trivial
  | read sectorNum n =>
    unfold NetCall.run
    rw [safe_bind]
    exact safe_mono (safe_readAsync bn sectorNum n hs) fun _ _ _ => trivial
  | flush =>
    unfold NetCall.run
    rw [safe_bind]
    exact safe_mono (safe_flush bn hs) fun _ _ _ => trivial
  | drain =>
    unfold NetCall.run
    rw [safe_bind]
    exact safe_mono (safe_drainWrites bn hs) fun _ _ _ => trivial
  | ping info =>
    unfold NetCall.run
    rw [safe_bind]
    exact safe_mono (safe_ping bn info hs) fun _ _ _ => trivial

theorem safe_allocAll (k : Nat) {Q : Bool → Socket → Prop} (hQ : ∀ ok, Q ok s) :
    safe inStep (socket mayFail) (allocAll k) Q s := by
  induction k with
  | zero => exact hQ true
  | succ k ih =>
    refine ⟨trivial, ?_⟩
    rintro ok s' rfl
    cases ok with
    | true => exact ih
    | false => exact hQ false

theorem safe_init (settings : NetSettings) (hs : s.InStep) :
    safe inStep (socket mayFail) (blockDeviceInitNet settings) (fun _ _ => True) s := by
  unfold blockDeviceInitNet
  rw [safe_bind]
  apply safe_allocAll
  intro ok
  cases ok with
  | false => trivial
  | true =>
    simp only [not_true, if_false]
    rw [request_bind]
    apply safe_request hs
    · intro resp s' hs'
      simp only
      split
      · trivial
      · rw [safe_bind]
        exact safe_mono (safe_ping _ _ hs') fun _ _ _ => trivial
    · exact fun _ => trivial

end Calls

/-- The socket at the start of a call, with an empty log. -/
def Socket.fresh (s : Socket) : Socket := { s with link := ⟨s.link.disk, []⟩ }

/-- A session whose unread bytes go from call to call, like `Session`. -/
inductive SocketSession (settings : NetSettings) (d : Disk) (faults : Faults)
    (guard : Socket → Prop) : List Step → BlockDeviceNet → Socket → Prop where
  | fresh {bn : BlockDeviceNet} {s : Socket} :
      Runs (socket fun _ => True) (blockDeviceInitNet settings) (Link.open ⟨d, []⟩) (some bn) s →
      SocketSession settings d faults guard [] bn s
  | step {hist : List Step} {bn bn' : BlockDeviceNet} {s s' : Socket} {call : NetCall}
      {result : CallResult} :
      SocketSession settings d faults guard hist bn s → guard s →
      Runs (socket (faults bn call)) (call.run bn) s.fresh (result, bn') s' →
      SocketSession settings d faults guard (⟨call, result, s'.link.log⟩ :: hist) bn' s'

def anySocket : Socket → Prop := fun _ => True

section SocketSession

variable {settings : NetSettings} {d : Disk} {faults : Faults} {guard : Socket → Prop}
  {hist : List Step} {bn bn' : BlockDeviceNet} {s s' : Socket}

theorem call_link {mayFail : Request → Prop} {call : NetCall} {result : CallResult} (hs : s.InStep)
    (hrun : Runs (socket mayFail) (call.run bn) s.fresh (result, bn') s') :
    Runs (link mayFail) (call.run bn) ⟨s.link.disk, []⟩ (result, bn') s'.link :=
  (safe_link hrun (safe_call bn call ⟨hs.unread, hs.torn⟩)).1

/-- While every call starts in step, a session on the socket is one on the link. -/
theorem SocketSession.session
    (hs : SocketSession settings d faults Socket.InStep hist bn s) :
    Session settings d faults anyCall hist bn s.link.disk := by
  induction hs with
  | fresh hrun => exact .fresh (safe_link hrun (safe_init settings ⟨rfl, rfl⟩)).1
  | step _ hguard hrun ih => exact .step ih trivial (call_link hguard hrun)

end SocketSession

end Winspire.Netblk
