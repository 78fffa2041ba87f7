/-
  Mcu/Answers.lean --- which packet of the stream `SendCommand` takes for an answer.

  `attempt` and `exchange` say it with the predicates of Reception.lean, for one attempt
  and for all of them: the first response that is accepted and has an accepted ack behind
  it.  Up to its stop byte it is what the handler finds in `outArray`.
-/
import AltF.Mcu.Reception
import Mathlib.Data.List.TakeWhile

set_option autoImplicit false

namespace AltF.Mcu

open AltF.Foundation

/-! ## One attempt -/

/-- The packet that an attempt takes for the answer, and the script behind the attempt. -/
def Script.attempt (port : Script) (cmd : Cmd) (buf : Bytes) : Option Packet × Script :=
  let p := packet bufSize port.reads
  let q := packet bufSize p.rest
  if ¬ Sent cmd port.writes then (none, port.written cmd)
  else if ¬ p.Accepted cmd buf then (none, (port.written cmd).after p)
  else
    (if q.Accepted ackFromSerial (overlay buf 0 p.bytes) then some p else none,
      ((port.written cmd).after p).after q)

/-- What stands in front of the stop byte. -/
def beforeStop (bytes : Bytes) : Bytes := bytes.takeWhile (· ≠ stopMagic)

theorem beforeStop_append {body : Bytes} (hbody : stopMagic ∉ body) (rest : Bytes) :
    beforeStop (body ++ stopMagic :: rest) = body := by
  have hinside : ∀ b ∈ body, decide (b ≠ stopMagic) = true := fun b hb =>
    decide_eq_true fun h => hbody (h ▸ hb)
  rw [beforeStop, List.takeWhile_append_of_pos hinside,
    List.takeWhile_cons_of_neg (by decide), List.append_nil]

theorem beforeStop_self {body : Bytes} (hbody : stopMagic ∉ body) : beforeStop body = body :=
  List.takeWhile_eq_self_iff.mpr fun _ hb => decide_eq_true fun h => hbody (h ▸ hb)

/-- The buffer of a packet that ends holds it up to its stop byte. -/
theorem beforeStop_overlay {buf : Bytes} {reads : List (Option UInt8)}
    (h : (packet bufSize reads).Ends buf) :
    beforeStop (overlay buf 0 (packet bufSize reads).bytes) =
      beforeStop (packet bufSize reads).bytes := by
  obtain ⟨body, hbody, hbytes⟩ := packet_stop bufSize reads
  generalize packet bufSize reads = p at h hbytes
  rw [overlay, List.take_zero, List.nil_append, Nat.zero_add]
  rcases h with hstop | ⟨htimeout, hstale⟩
  · rw [hbytes, if_pos hstop, List.append_assoc, List.singleton_append, beforeStop_append hbody,
      beforeStop_append hbody]
  · -- the stop byte is one that the buffer held before
    have hrest : ∃ rest, buf.drop p.bytes.length = stopMagic :: rest := by
      have hin : p.bytes.length < buf.length := by
        by_contra hout
        rw [List.getD_eq_getElem?_getD, List.getElem?_eq_none (by omega)] at hstale
        exact absurd hstale (by decide)
      rw [List.getD_eq_getElem?_getD, List.getElem?_eq_getElem hin, Option.getD_some] at hstale
      exact ⟨buf.drop (p.bytes.length + 1), hstale ▸ List.drop_eq_getElem_cons hin⟩
    obtain ⟨rest, hrest⟩ := hrest
    have hself : p.bytes = body := by
      rw [hbytes, if_neg (by rw [htimeout]; decide), List.append_nil]
    rw [hrest, hself, beforeStop_append hbody, beforeStop_self hbody]

section Attempt

variable {cmd : Cmd} {buf : Bytes}

/-- What an attempt has to do with the packet it takes. -/
theorem sendCommandOnce_attempt (port : Script) (hbuf : buf.length = bufSize) :
    (sendCommandOnce cmd true buf port).2.2 = (port.attempt cmd buf).2 ∧
      ((sendCommandOnce cmd true buf port).1 = .success ↔ (port.attempt cmd buf).1 ≠ none) ∧
      (∃ received, (port.attempt cmd buf).2.received = port.received ++ received ∧
        ∀ p, (port.attempt cmd buf).1 = some p → ∃ out,
          (sendCommandOnce cmd true buf port).2.1 = some out ∧
            beforeStop out = beforeStop p.bytes ∧ beforeStop out <:+: received) := by
  rw [Script.attempt]
  by_cases hsent : Sent cmd port.writes
  swap
  · rw [sendCommandOnce_unsent port true hsent, if_pos hsent]
    exact ⟨rfl, by simp, [], (List.append_nil _).symm, by simp⟩
  rw [sendCommandOnce_sent_true port hsent hbuf]
  by_cases haccepted : (packet bufSize port.reads).Accepted cmd buf
  swap
  · simp only [hsent, haccepted, not_true_eq_false, not_false_eq_true, if_true, if_false]
    exact ⟨trivial, by decide, _, rfl, by simp⟩
  simp only [hsent, haccepted, not_true_eq_false, if_false]
  refine ⟨trivial, ?_, _, List.append_assoc _ _ _, ?_⟩
  · split <;> simp
  · intro p hp
    split at hp
    · obtain rfl := Option.some.inj hp
      refine ⟨_, rfl, beforeStop_overlay haccepted.1, ?_⟩
      rw [beforeStop_overlay haccepted.1]
      exact ((List.takeWhile_prefix _).trans (List.prefix_append _ _)).isInfix
    · cases hp

end Attempt

/-! ## All attempts -/

/-- The packet that `SendCommand` takes for the answer, with `left` attempts left behind
the `k`-th, and the script behind it. -/
def Script.exchange (port : Script) (cmd : Cmd) (bufs : Nat → Bytes) :
    Nat → Nat → Option Packet × Script
  | 0, k => port.attempt cmd (bufs k)
  | left + 1, k =>
      match port.attempt cmd (bufs k) with
      | (none, port) => port.exchange cmd bufs left (k + 1)
      | (some p, port) => (some p, port)

/-- **An exchange** succeeds if a packet is taken, and hands out that packet up to its
stop byte, which the MCU has sent. -/
theorem sendCommandLoop_exchange {cmd : Cmd} {bufs : Nat → Bytes}
    (hbufs : ∀ k, (bufs k).length = bufSize) (left k : Nat) (port : Script) :
    (sendCommandLoop cmd true bufs left k port).2.2 = (port.exchange cmd bufs left k).2 ∧
      ((sendCommandLoop cmd true bufs left k port).1 = .success ↔
        (port.exchange cmd bufs left k).1 ≠ none) ∧
      (∃ received, (port.exchange cmd bufs left k).2.received = port.received ++ received ∧
        ∀ p, (port.exchange cmd bufs left k).1 = some p → ∃ out,
          (sendCommandLoop cmd true bufs left k port).2.1 = some out ∧
            beforeStop out = beforeStop p.bytes ∧ beforeStop out <:+: received) := by
  induction left generalizing k port with
  | zero => exact sendCommandOnce_attempt port (hbufs k)
  | succ left ih =>
      obtain ⟨hport, hret, received, hreceived, hout⟩ :=
        @sendCommandOnce_attempt cmd _ port (hbufs k)
      unfold sendCommandLoop Script.exchange
      generalize sendCommandOnce cmd true (bufs k) port = once at hport hret hout
      generalize port.attempt cmd (bufs k) = tried at hport hret hreceived hout
      obtain ⟨ret, out, port'⟩ := once
      obtain ⟨taken, after⟩ := tried
      simp only at hport hret hreceived hout
      subst hport
      cases taken with
      | none =>
          have hfailed : ret ≠ .success := by simpa using hret
          simp only [hfailed, ne_eq, not_false_eq_true, if_true]
          obtain ⟨hport', hret', received', hreceived', hout'⟩ := ih (k + 1) port'
          refine ⟨hport', hret', received ++ received', ?_, fun p hp => ?_⟩
          · rw [hreceived', hreceived, List.append_assoc]
          · obtain ⟨out, hpair, hbefore, hinfix⟩ := hout' p hp
            exact ⟨out, hpair, hbefore, hinfix.trans (List.suffix_append _ _).isInfix⟩
      | some p =>
          have hdone : ret = .success := by simpa using hret
          simp only [hdone, ne_eq, not_true_eq_false, if_false]
          exact ⟨trivial, by simp, received, hreceived, hout⟩

end AltF.Mcu
