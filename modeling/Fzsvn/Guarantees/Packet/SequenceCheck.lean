import Fzsvn.Source.Packet.TcpStream

/-!
# The sequence check of a client

A stream keeps the sequence number of the `SYN` that created it, and no later packet changes
it. `_tcp_check_seq` compares it with the number of a packet as plain 32-bit numbers, so the
packets that follow the `SYN` pass as long as the numbers do not wrap around. A stream that
begins at 0 is not checked at all.
-/
namespace Fzsvn.Guarantees.Packet.SequenceCheck
open Library.Fallible Source.Packet

/-- A stream after any packets, of either direction, and any reads. -/
inductive Later (t : TcpStream) : TcpStream → Prop
  | start : Later t t
  | flow {u v : TcpStream} {pkt : Netpkt} {dir : Fin 2} {answer : Realloc} {ret : Option Int}
      (h : Later t u) (hrun : tcpStreamFlow u pkt dir answer = .ok (ret, v)) : Later t v
  | read {u v : TcpStream} {buf out : List UInt8} {dir : Fin 2} {ret : Int}
      (h : Later t u) (hrun : tcpStreamGetData u buf dir = .ok (ret, out, v)) : Later t v

variable {t u v : TcpStream} {pkt : Netpkt} {dir : Fin 2} {answer : Realloc}

lemma queuePkt_seqacks {h : TcpHdr} :
    Gives (queuePkt t pkt h dir answer) fun r => r.2.seqacks = t.seqacks := by
  rw [queuePkt, gives_bind]
  intro r _
  exact (gives_ok _).mpr rfl

lemma flow_seqacks : Gives (tcpStreamFlow t pkt dir answer) fun r => r.2.seqacks = t.seqacks := by
  unfold tcpStreamFlow
  -- one case for every state and flag that the switch looks at
  repeat' split
  all_goals first
    | exact (gives_ok _).mpr rfl
    | exact gives_error _
    | exact queuePkt_seqacks

lemma read_seqacks {buf : List UInt8} :
    Gives (tcpStreamGetData t buf dir) fun r => r.2.2.seqacks = t.seqacks := by
  rw [tcpStreamGetData, gives_ite]
  refine ⟨fun _ => (gives_ok _).mpr rfl, fun _ => gives_ite.mpr ⟨fun _ => (gives_ok _).mpr rfl, fun _ => ?_⟩⟩
  rw [gives_bind]
  intro r _
  exact (gives_ok _).mpr rfl

lemma Later.seqacks (h : Later t u) : u.seqacks = t.seqacks := by
  induction h with
  | start => rfl
  | flow _ hh ih => exact (flow_seqacks _ hh).trans ih
  | read _ hh ih => exact (read_seqacks _ hh).trans ih

/-- The packet `k` behind the `SYN` passes exactly when its number has not wrapped around, or
the stream begins at 0. -/
theorem client_passes_iff {syn h : TcpHdr} {k : Nat} (hnew : tcpStreamNew syn = some t)
    (hlater : Later t u) (hlo : 1 ≤ k) (hhi : k < 2 ^ 31)
    (hseq : h.seq = UInt32.ofNat ((syn.seq.toNat + k) % 2 ^ 32)) (_hrst : h.rst = false) :
    tcpCheckSeq u h 0 = true ↔ syn.seq = 0 ∨ syn.seq.toNat + k < 2 ^ 32 := by
  rw [tcpStreamNew, Option.ite_none_right_eq_some] at hnew
  obtain ⟨-, hnew⟩ := hnew
  have hisn : u.seqacks 0 = syn.seq := by
    rw [hlater.seqacks, ← Option.some.inj hnew]
    rfl
  have hhn : h.seq.toNat = (syn.seq.toNat + k) % 2 ^ 32 := by
    rw [hseq, UInt32.toNat_ofNat', Nat.mod_mod]
  have hh := syn.seq.toNat_lt
  have hpass : ¬ h.seq ≤ syn.seq ↔ syn.seq.toNat + k < 2 ^ 32 := by
    rw [UInt32.le_iff_toNat_le, hhn]
    omega
  rw [tcpCheckSeq, hisn]
  simp only [Bool.or_eq_true, decide_eq_true_eq, Bool.not_eq_true', decide_eq_false_iff_not, hpass]

/-- A header with this number and these two flags. -/
def header (seq : UInt32) (syn ack : Bool) : TcpHdr :=
  { seq, fin := false, syn, rst := false, psh := false, ack }

theorem client_passes_first :
    tcpCheckSeq { seqacks := Function.update (fun _ => 0) 0 7 } (header 8 false true) 0 = true ↔
    (7 : UInt32) = 0 ∨ 7 + 1 < 2 ^ 32 :=
  client_passes_iff (k := 1) (rfl : tcpStreamNew (header 7 true false) = _) .start (by decide)
    (by decide) rfl rfl

/-- The number after the largest one is 0, which is refused. -/
theorem wrapped_refused : ∃ t, tcpStreamNew (header 0xffffffff true false) = some t ∧
    (header 0 false true).seq = UInt32.ofNat ((0xffffffff + 1) % 2 ^ 32) ∧
      tcpCheckSeq t (header 0 false true) 0 = false :=
  ⟨_, rfl, rfl, rfl⟩

end Fzsvn.Guarantees.Packet.SequenceCheck
