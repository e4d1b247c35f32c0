import Fzsvn.Guarantees.Proxy.Lifecycle

/-!
# What `conn_send_data` does

How the loop of `conn_send_data` over the packets of a connection ends can be told from the
answers of the send calls.
-/
namespace Fzsvn.Guarantees.Proxy.SendStep
open Library.Exec Source.Proxy Locality List

/-! ## Answers of the send calls -/

inductive SendResult where
  | failed | short | full
  deriving DecidableEq, Repr

/-- What the answer of `send` or `SSL_write` means for a packet with `len` bytes to send. An
empty packet is refused before the call, and every error of `send` counts as a failure. -/
def sendResult (usesSsl : Bool) (len : Nat) (io : SendIO) : SendResult :=
  if len < 1 then .failed
  else if usesSsl then
    if io.ssl.refused then .failed
    else
      match io.ssl.ret with
      | .sent n => if n = 0 then .failed else if len ≤ n then .full else .short
      | .err error => if error = .other then .failed else .short
  else
    match io.sys with
    | .sent n => if len ≤ n then .full else .short
    | .err _ => .failed

/-- The results the sends of a loop over `packets` would have. -/
def sendResults (usesSsl : Bool) (ios : Nat → SendIO) (packets : List Packet) : List SendResult :=
  packets.zipIdx.map fun e => sendResult usesSsl (e.1.len - e.1.sendpos) (ios e.2)

lemma connRawSend_result (usesSsl : Bool) (len : Nat) (io : SendIO) : match sendResult usesSsl len io with
    | .failed => connRawSend usesSsl len io < 0
    | .short => 0 ≤ connRawSend usesSsl len io ∧ connRawSend usesSsl len io ≠ len
    | .full => connRawSend usesSsl len io = len := by
  unfold sendResult connRawSend
  by_cases hn : len < 1
  · simp [hn]
  cases usesSsl with
  | true =>
    unfold sslSend
    cases io.ssl.refused with
    | true => simp [hn]
    | false =>
      cases io.ssl.ret with
      | sent n =>
        by_cases none : n = 0
        · simp [hn, none]
        · by_cases all : len ≤ n
          · have sent : len ≠ 0 := by omega
            simp [hn, none, all, sent]
          · have sent : min n len = n := Nat.min_eq_left (Nat.le_of_not_le all)
            simp [hn, none, all, sent]
            omega
      | err error => cases error <;> simp [hn] <;> omega
  | false =>
    unfold skSend
    cases io.sys with
    | sent n =>
      by_cases all : len ≤ n
      · simp [hn, all]
      · have sent : min n len = n := Nat.min_eq_left (Nat.le_of_not_le all)
        simp [hn, all, sent]
        omega
    | err errno => cases errno <;> simp [hn]

lemma sendPackets_results {usesSsl : Bool} {ios : Nat → SendIO} (packets : List Packet) (i : Nat) :
    let results := (packets.zipIdx i).map fun e =>
      sendResult usesSsl (e.1.len - e.1.sendpos) (ios e.2)
    match (sendPackets usesSsl ios i packets).exit with
    | .failed => .failed ∈ results
    | .blocked => .short ∈ results
    | .drained => ∀ r ∈ results, r = .full := by
  induction packets generalizing i with
  | nil => simp [sendPackets]
  | cons p rest ih =>
    have hf := connRawSend_result usesSsl (p.len - p.sendpos) (ios i)
    have hl := ih (i + 1)
    simp only [sendPackets, zipIdx_cons, map_cons]
    cases hr : sendResult usesSsl (p.len - p.sendpos) (ios i) with
    | failed =>
      rw [hr] at hf
      dsimp only at hf
      rw [if_pos hf]
      simp
    | short =>
      rw [hr] at hf
      dsimp only at hf
      rw [if_neg (by omega), if_pos hf.2]
      simp
    | full =>
      rw [hr] at hf
      dsimp only at hf
      rw [if_neg (by omega), if_neg (by simp [hf])]
      dsimp only at hl ⊢
      cases he : (sendPackets usesSsl ios (i + 1) rest).exit with
      | failed =>
        rw [he] at hl
        exact mem_cons_of_mem _ hl
      | blocked =>
        rw [he] at hl
        exact mem_cons_of_mem _ hl
      | drained =>
        rw [he] at hl
        exact forall_mem_cons.mpr ⟨rfl, hl⟩

/-! ## The loop of a connection -/

/-- Nothing is sent while a handshake is under way. -/
def handshaking (c : Connection) : Bool := c.flags.hsk || c.flags.sslHsk

def sendLoop (ios : Nat → SendIO) (c : Connection) : Sent :=
  sendPackets c.ssl.isSome ios 0 c.output

lemma sendLoop_results (ios : Nat → SendIO) (c : Connection) : match (sendLoop ios c).exit with
    | .failed => .failed ∈ sendResults c.ssl.isSome ios c.output
    | .blocked => .short ∈ sendResults c.ssl.isSome ios c.output
    | .drained => ∀ r ∈ sendResults c.ssl.isSome ios c.output, r = .full :=
  sendPackets_results c.output 0

/-- The call into OpenSSL is only logged. -/
lemma sslUse_logs (c : Prop) [Decidable c] (s : Nat) (d : Dir) (k : Connection) (w : Worker) :
    Ensures (onlyIf c (sslUse s d k)) w (fun _ w' => ∃ log, w' = { w with log := log })
      (fun _ _ => False) := by
  simp only [ensures_onlyIf, sslUse]
  refine ⟨fun _ => ?_, fun _ => ⟨_, rfl⟩⟩
  split
  · exact (ensures_pure _).mpr ⟨_, rfl⟩
  · exact (ensures_emit _).mpr ⟨_, rfl⟩

end Fzsvn.Guarantees.Proxy.SendStep
