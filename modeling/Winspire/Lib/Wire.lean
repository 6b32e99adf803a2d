import Winspire.Lib.Interaction
import Mathlib.Data.List.TakeDrop

/-!
# Programs at one end of a byte stream

`send` and `recv` of a stream socket transfer as many bytes as they like, so programs wrap
them in loops. `sendAll` and `recvAll` are those loops. Two environments give them meaning.
In `peer` the other end sends a given list of bytes and then closes, and any call may fail.
In `script` nothing fails, but a program must keep to a script of the bytes it receives and
the bytes it sends.
-/

namespace Winspire.Interaction

set_option autoImplicit false

inductive WireOp (L : Type) where
  | send (chunk : List UInt8)
  | recv (limit : Nat)
  | loc (op : L)

/-- A stream next to the operations of `S`. A result of `none` is an error or the end of the
stream. -/
@[reducible] def wire (S : Signature) : Signature where
  Op := WireOp S.Op
  Answer
    | .send _ => Option Nat
    | .recv _ => Option (List UInt8)
    | .loc op => S.Answer op

variable {S : Signature} {α σ : Type}

/-- Send all of `bs`, at most `cap` bytes a call. Each call sends a byte, so `bs.length` is
enough fuel. -/
def sendAllLoop (cap : Nat) : Nat → List UInt8 → Prog (wire S) Bool
  | _, [] => .ret true
  | 0, _ :: _ => .ret false
  | fuel + 1, b :: bs => .ask (.send ((b :: bs).take cap)) fun
    | some (k + 1) => sendAllLoop cap fuel ((b :: bs).drop (k + 1))
    | _ => .ret false

def sendAll (cap : Nat) (bs : List UInt8) : Prog (wire S) Bool := sendAllLoop cap bs.length bs

/-- Receive `len` bytes after those in `acc`, at most `cap` a call. -/
def recvAllLoop (cap : Nat) : Nat → Nat → List UInt8 → Prog (wire S) (Option (List UInt8))
  | _, 0, acc => .ret (some acc)
  | 0, _ + 1, _ => .ret none
  | fuel + 1, len + 1, acc => .ask (.recv (min (len + 1) cap)) fun
    | some (b :: bs) => recvAllLoop cap fuel (len + 1 - (b :: bs).length) (acc ++ b :: bs)
    | _ => .ret none

def recvAll (cap len : Nat) : Prog (wire S) (Option (List UInt8)) := recvAllLoop cap len len []

/-- A program that does not use the stream. -/
def offWire (p : Prog S α) : Prog (wire S) α := p.translate fun op => .ask (.loc op) .ret

structure Peer (σ : Type) where
  inp : List UInt8
  host : σ

/-- Where `reliable` holds, `send` takes at least a byte and `recv` gets one if there is one. -/
def peer (reliable : Prop) (H : Env S σ) : Env (wire S) (Peer σ) := fun s op r s' =>
  match op with
  | .send chunk => s' = s ∧ ((r = none ∧ ¬(reliable ∧ chunk ≠ [])) ∨
      ∃ j, 1 ≤ j ∧ j ≤ chunk.length ∧ r = some j)
  | .recv limit => (r = none ∧ s' = s ∧ ¬(reliable ∧ 0 < limit ∧ s.inp ≠ [])) ∨
      ∃ j, 1 ≤ j ∧ j ≤ limit ∧ j ≤ s.inp.length ∧ r = some (s.inp.take j) ∧
        s' = { s with inp := s.inp.drop j }
  | .loc op => H s.host op r s'.host ∧ s'.inp = s.inp

theorem peer_mono {reliable : Prop} {H H' : Env S σ} (hH : ∀ s op r s', H s op r s' → H' s op r s')
    (s : Peer σ) (op : (wire S).Op) (r : (wire S).Answer op) (s' : Peer σ)
    (h : peer reliable H s op r s') : peer False H' s op r s' := by
  cases op with
  | send chunk =>
    obtain ⟨hs, ⟨hr, _⟩ | hj⟩ := h
    · exact ⟨hs, Or.inl ⟨hr, fun hn => hn.1⟩⟩
    · exact ⟨hs, Or.inr hj⟩
  | recv limit =>
    rcases h with ⟨hr, hs, _⟩ | hj
    · exact Or.inl ⟨hr, hs, fun hn => hn.1⟩
    · exact Or.inr hj
  | loc op => exact ⟨hH _ _ _ _ h.1, h.2⟩

theorem peer_total {reliable : Prop} {H : Env S σ} (hH : ∀ s op, ∃ r s', H s op r s') (s : Peer σ)
    (op : (wire S).Op) : ∃ r s', peer reliable H s op r s' := by
  cases op with
  | send chunk =>
    by_cases hne : chunk = []
    · exact ⟨none, s, rfl, Or.inl ⟨rfl, fun h => h.2 hne⟩⟩
    · exact ⟨some 1, s, rfl, Or.inr ⟨1, Nat.le_refl _, List.length_pos_iff.mpr hne, rfl⟩⟩
  | recv limit =>
    by_cases hne : 0 < limit ∧ s.inp ≠ []
    · exact ⟨_, _, Or.inr ⟨1, Nat.le_refl _, hne.1, List.length_pos_iff.mpr hne.2, rfl, rfl⟩⟩
    · exact ⟨none, s, Or.inl ⟨rfl, rfl, fun h => hne h.2⟩⟩
  | loc op =>
    obtain ⟨r, host, h⟩ := hH s.host op
    exact ⟨r, ⟨s.inp, host⟩, h, rfl⟩

section PeerRules
variable {H : Env S σ} {reliable : Prop}

theorem wp_peer_offWire {p : Prog S α} {Q : α → Peer σ → Prop} {s : Peer σ}
    (h : wp H p (fun a host => Q a ⟨s.inp, host⟩) s.host) : wp (peer reliable H) (offWire p) Q s := by
  induction p generalizing s with
  | ret a => exact h
  | ask op k ih =>
    rintro r ⟨inp, host⟩ ⟨hhost, rfl⟩
    exact ih r (h r host hhost)

theorem wp_peer_sendAllLoop {cap : Nat} (hcap : 0 < cap) {Q : Bool → Peer σ → Prop} {s : Peer σ}
    (h : ∀ ok, (reliable → ok = true) → Q ok s) (fuel : Nat) (bs : List UInt8)
    (hfuel : bs.length ≤ fuel) : wp (peer reliable H) (sendAllLoop cap fuel bs) Q s := by
  induction fuel generalizing bs with
  | zero =>
    obtain rfl : bs = [] := List.length_eq_zero_iff.mp (by omega)
    exact h true fun _ => rfl
  | succ fuel ih =>
    cases bs with
    | nil => exact h true fun _ => rfl
    | cons b bs =>
      rintro r s' ⟨rfl, ⟨rfl, hno⟩ | ⟨j, hj, _, rfl⟩⟩
      · refine h false fun hrel => absurd ⟨hrel, ?_⟩ hno
        simp [Nat.pos_iff_ne_zero.mp hcap]
      · obtain ⟨k, rfl⟩ := Nat.exists_eq_succ_of_ne_zero (by omega : j ≠ 0)
        apply ih
        simp only [List.length_cons, List.length_drop] at *
        omega

theorem wp_peer_sendAll {cap : Nat} (hcap : 0 < cap) {Q : Bool → Peer σ → Prop} {s : Peer σ}
    (bs : List UInt8) (h : ∀ ok, (reliable → ok = true) → Q ok s) :
    wp (peer reliable H) (sendAll cap bs) Q s :=
  wp_peer_sendAllLoop hcap h _ bs (Nat.le_refl _)

theorem wp_peer_recvAllLoop {cap : Nat} (hcap : 0 < cap) {Q : Option (List UInt8) → Peer σ → Prop}
    (fuel len : Nat) (acc : List UInt8) {s : Peer σ} (hfuel : len ≤ fuel)
    (hfail : ¬(reliable ∧ len ≤ s.inp.length) → ∀ k, Q none { s with inp := s.inp.drop k })
    (hok : len ≤ s.inp.length →
      Q (some (acc ++ s.inp.take len)) { s with inp := s.inp.drop len }) :
    wp (peer reliable H) (recvAllLoop cap fuel len acc) Q s := by
  induction fuel generalizing len acc s with
  | zero =>
    obtain rfl : len = 0 := by omega
    simpa [recvAllLoop] using hok (Nat.zero_le _)
  | succ fuel ih =>
    cases len with
    | zero => simpa [recvAllLoop] using hok (Nat.zero_le _)
    | succ len =>
      rintro r s' (⟨rfl, rfl, hno⟩ | ⟨j, hj, hlim, hlen, rfl, rfl⟩)
      · have hdry : ¬(reliable ∧ len + 1 ≤ s'.inp.length) := by
          rintro ⟨hrel, hle⟩
          refine hno ⟨hrel, by omega, List.length_pos_iff.mp (by omega)⟩
        simpa using hfail hdry 0
      · have htake : (s.inp.take j).length = j := List.length_take_of_le hlen
        generalize hbs : s.inp.take j = bs at htake
        cases bs with
        | nil => simp at htake; omega
        | cons b bs =>
          simp only
          apply ih
          · omega
          · intro hno k
            rw [List.drop_drop]
            refine hfail (fun ⟨hrel, hle⟩ => hno ⟨hrel, ?_⟩) (j + k)
            simp only [List.length_drop]
            omega
          · intro hle
            simp only [List.length_drop] at hle
            have hall := hok (by omega)
            rw [← hbs, htake] at *
            have hsplit : s.inp.take (len + 1) = s.inp.take j ++ (s.inp.drop j).take (len + 1 - j) := by
              rw [← List.take_add]
              congr 1
              omega
            rw [hsplit] at hall
            rw [List.append_assoc, List.drop_drop, show j + (len + 1 - j) = len + 1 by omega]
            exact hall

theorem wp_peer_recvAll {cap len : Nat} (hcap : 0 < cap) {Q : Option (List UInt8) → Peer σ → Prop}
    {s : Peer σ}
    (hfail : ¬(reliable ∧ len ≤ s.inp.length) → ∀ k, Q none { s with inp := s.inp.drop k })
    (hok : len ≤ s.inp.length → Q (some (s.inp.take len)) { s with inp := s.inp.drop len }) :
    wp (peer reliable H) (recvAll cap len) Q s :=
  wp_peer_recvAllLoop hcap len len [] (Nat.le_refl _) hfail (by simpa using hok)

end PeerRules

/-- The bytes still to come and the bytes still to be sent. -/
structure Script (σ : Type) where
  inp : List UInt8
  out : List UInt8
  host : σ

/-- What a program may do. The party that leads sends before it receives; the other one receives
before it sends. -/
def inScript (lead : Prop) (okLoc : Script σ → S.Op → Prop) (s : Script σ) : (wire S).Op → Prop
  | .send chunk => chunk ≠ [] ∧ chunk <+: s.out ∧ (¬lead → s.inp = [])
  | .recv limit => 0 < limit ∧ limit ≤ s.inp.length ∧ (lead → s.out = [])
  | .loc op => okLoc s op

/-- `send` and `recv` transfer any positive number of bytes. -/
def script (H : Env S (Script σ)) : Env (wire S) (Script σ) := fun s op r s' =>
  match op with
  | .send chunk => ∃ j, 1 ≤ j ∧ j ≤ chunk.length ∧ r = some j ∧ s' = { s with out := s.out.drop j }
  | .recv limit => ∃ j, 1 ≤ j ∧ j ≤ limit ∧ j ≤ s.inp.length ∧ r = some (s.inp.take j) ∧
      s' = { s with inp := s.inp.drop j }
  | .loc op => H s op r s'

/-- Operations that leave the script alone. -/
def hosted (H : Env S σ) : Env S (Script σ) := fun s op r s' =>
  H s.host op r s'.host ∧ s'.inp = s.inp ∧ s'.out = s.out

section ScriptRules
variable {lead : Prop} {okLoc : Script σ → S.Op → Prop} {H : Env S (Script σ)}

theorem safe_script_offWire {H : Env S σ} {p : Prog S α} {Q : α → Script σ → Prop} {s : Script σ}
    (hloc : ∀ s op, okLoc s op) (h : wp H p (fun a host => Q a ⟨s.inp, s.out, host⟩) s.host) :
    safe (inScript lead okLoc) (script (hosted H)) (offWire p) Q s := by
  induction p generalizing s with
  | ret a => exact h
  | ask op k ih =>
    refine ⟨hloc s op, ?_⟩
    rintro r ⟨inp, out, host⟩ ⟨hhost, rfl, rfl⟩
    exact ih r (h r host hhost)

theorem safe_script_sendAllLoop {cap : Nat} (hcap : 0 < cap) {Q : Bool → Script σ → Prop}
    (fuel : Nat) (bs rest : List UInt8) {s : Script σ} (hfuel : bs.length ≤ fuel)
    (hout : s.out = bs ++ rest) (hturn : ¬lead → s.inp = []) (hQ : Q true { s with out := rest }) :
    safe (inScript lead okLoc) (script H) (sendAllLoop cap fuel bs) Q s := by
  induction fuel generalizing bs s with
  | zero =>
    obtain rfl : bs = [] := List.length_eq_zero_iff.mp (by omega)
    obtain ⟨inp, out, host⟩ := s
    obtain rfl : out = rest := hout
    exact hQ
  | succ fuel ih =>
    cases bs with
    | nil =>
      obtain ⟨inp, out, host⟩ := s
      obtain rfl : out = rest := hout
      exact hQ
    | cons b bs =>
      refine ⟨⟨by simp [Nat.pos_iff_ne_zero.mp hcap], ?_, hturn⟩, ?_⟩
      · rw [hout]
        exact (List.take_prefix _ _).trans (List.prefix_append _ _)
      · rintro r s' ⟨j, hj, hlen, rfl, rfl⟩
        rw [List.length_take] at hlen
        obtain ⟨k, rfl⟩ := Nat.exists_eq_succ_of_ne_zero (by omega : j ≠ 0)
        apply ih
        · simp only [List.length_cons, List.length_drop] at *
          omega
        · simp only
          rw [hout, List.drop_append_of_le_length (by omega)]
        · exact hturn
        · exact hQ

theorem safe_script_sendAll {cap : Nat} (hcap : 0 < cap) {Q : Bool → Script σ → Prop}
    (bs rest : List UInt8) {s : Script σ} (hout : s.out = bs ++ rest) (hturn : ¬lead → s.inp = [])
    (hQ : Q true { s with out := rest }) :
    safe (inScript lead okLoc) (script H) (sendAll cap bs) Q s :=
  safe_script_sendAllLoop hcap _ bs rest (Nat.le_refl _) hout hturn hQ

theorem safe_script_recvAllLoop {cap : Nat} (hcap : 0 < cap)
    {Q : Option (List UInt8) → Script σ → Prop} (fuel : Nat) (bs rest acc : List UInt8)
    {s : Script σ} (hfuel : bs.length ≤ fuel) (hinp : s.inp = bs ++ rest) (hturn : lead → s.out = [])
    (hQ : Q (some (acc ++ bs)) { s with inp := rest }) :
    safe (inScript lead okLoc) (script H) (recvAllLoop cap fuel bs.length acc) Q s := by
  induction fuel generalizing bs acc s with
  | zero =>
    obtain rfl : bs = [] := List.length_eq_zero_iff.mp (by omega)
    obtain ⟨inp, out, host⟩ := s
    obtain rfl : inp = rest := hinp
    simpa [recvAllLoop] using hQ
  | succ fuel ih =>
    cases bs with
    | nil =>
      obtain ⟨inp, out, host⟩ := s
      obtain rfl : inp = rest := hinp
      simpa [recvAllLoop] using hQ
    | cons b bs =>
      refine ⟨⟨?_, ?_, hturn⟩, ?_⟩
      · exact Nat.lt_min.mpr ⟨Nat.succ_pos _, hcap⟩
      · rw [hinp, List.length_append, List.length_cons]
        omega
      · rintro r s' ⟨j, hj, hlim, hlen, rfl, rfl⟩
        obtain ⟨k, rfl⟩ := Nat.exists_eq_succ_of_ne_zero (by omega : j ≠ 0)
        have hle : k + 1 ≤ (b :: bs).length := by
          simp only [List.length_cons] at *
          omega
        have htake : s.inp.take (k + 1) = b :: bs.take k := by
          rw [hinp, List.take_append_of_le_length hle, List.take_succ_cons]
        have hlength : (b :: bs.take k).length = k + 1 := by
          rw [← List.take_succ_cons, List.length_take_of_le hle]
        simp only [htake, hlength]
        have hdrop : bs.length + 1 - (k + 1) = (bs.drop k).length := by
          rw [List.length_drop]
          omega
        rw [hdrop]
        apply ih
        · simp only [List.length_cons, List.length_drop] at *
          omega
        · simp only
          rw [hinp, List.drop_append_of_le_length hle, List.drop_succ_cons]
        · exact hturn
        · rw [List.append_assoc, List.cons_append, List.take_append_drop]
          exact hQ

theorem safe_script_recvAll {cap len : Nat} (hcap : 0 < cap)
    {Q : Option (List UInt8) → Script σ → Prop} (bs rest : List UInt8) {s : Script σ}
    (hlen : bs.length = len) (hinp : s.inp = bs ++ rest) (hturn : lead → s.out = [])
    (hQ : Q (some bs) { s with inp := rest }) :
    safe (inScript lead okLoc) (script H) (recvAll cap len) Q s := by
  subst hlen
  exact safe_script_recvAllLoop hcap _ bs rest [] (Nat.le_refl _) hinp hturn hQ

end ScriptRules

end Winspire.Interaction
