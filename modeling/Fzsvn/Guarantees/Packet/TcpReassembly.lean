import Fzsvn.Source.Packet.TcpStream
import Mathlib.Data.Fintype.EquivFin

/-!
# Reassembly of a TCP stream

A byte stream is cut into pieces that arrive as packets in some order, and data is read in
between. The queue never counts its packets: every packet goes into the first slot, over the
one before it, and a piece is counted only if it arrives when it is the next one. The count
starts at sequence number 0 whatever the connection's first number is, and a read does not
lower it. So the count and the data are right in the runs in which none of this matters
(`reassembly_right`).
-/
namespace Fzsvn.Guarantees.Packet.TcpReassembly
open Library.Block Library.MachineInt Source.Packet List Function Option
open UInt32 (ofNat ofNat_add zero_add)

/-! ## The stream -/

/-- A stream that is cut into pieces; `base` is the sequence number of its first byte. -/
structure Cut where
  pieces : List (List UInt8)
  base : UInt32
  nonempty : ∀ piece ∈ pieces, piece ≠ []
  short : pieces.flatten.length < 2 ^ 31

def Cut.stream (cut : Cut) : List UInt8 := cut.pieces.flatten

/-- The position of a piece in the stream. -/
def Cut.start (cut : Cut) (i : Nat) : Nat := (cut.pieces.take i).flatten.length

/-- The packet has the header and the data of a piece, with `PSH` set. -/
structure Carries (cut : Cut) (i : Nat) (pkt : Netpkt) (piece : List UInt8) : Prop where
  piece_eq : cut.pieces[i]? = some piece
  header : ∃ off h, pkt.hdr4 = some off ∧ tcpHdrAt pkt off = .ok h ∧
    h.seq = cut.base + UInt32.ofNat (cut.start i) ∧ h.psh = true ∧ h.rst = false ∧ h.fin = false
  tail_eq : pkt.tail = pkt.head + netpktHlen pkt + piece.length
  data : slice pkt.mem (pkt.head + netpktHlen pkt) piece.length = piece
  measured : netpktHlen pkt + piece.length < 2 ^ 31

lemma exists_missing (received : List Nat) : ∃ i, i ∉ received := by
  obtain ⟨i, hm⟩ := Infinite.exists_notMem_finset received.toFinset
  exact ⟨i, fun hi => hm (mem_toFinset.mpr hi)⟩

/-- The first piece that is missing. -/
def frontier (received : List Nat) : Nat := Nat.find (exists_missing received)

/-- The length of the longest prefix of the stream that the received pieces cover. -/
def Cut.covered (cut : Cut) (received : List Nat) : Nat := cut.start (frontier received)

/-! ## Runs -/

inductive Op where
  | arrive (i : Nat) (pkt : Netpkt) (answer : Realloc)
  | read (buf : List UInt8)

/-- The pieces that arrived, the last one first, and the number of bytes read. -/
structure History where
  received : List Nat
  got : Nat

variable (cut : Cut) (dir : Fin 2)

/-- What a read should return. -/
def Op.amount (history : History) (buf : List UInt8) : Nat :=
  min buf.length (cut.covered history.received - history.got)

def Op.record (history : History) : Op → History
  | .arrive i _ _ => { history with received := i :: history.received }
  | .read buf => { history with got := history.got + Op.amount cut history buf }

def Op.next (t : TcpStream) : Op → Except TcpFault TcpStream
  | .arrive _ pkt answer => (tcpStreamFlow t pkt dir answer).map (·.2)
  | .read buf => (tcpStreamGetData t buf dir).map (·.2.2)

/-- After an arrival, the count and what was read make the covered prefix; a read returns the
next bytes of it, as many as there are and fit. -/
def Op.Right (t : TcpStream) (history : History) : Op → TcpStream → Prop
  | .arrive i pkt answer, t' => ∃ ret, tcpStreamFlow t pkt dir answer = .ok (ret, t') ∧
      tcpStreamDataLen t' dir + history.got = cut.covered (i :: history.received)
  | .read buf, t' => ∃ buf',
      tcpStreamGetData t buf dir = .ok (Op.amount cut history buf, buf', t') ∧
      buf'.take (Op.amount cut history buf) = slice cut.stream history.got (Op.amount cut history buf)

def Obeys : List Op → TcpStream → History → Prop
  | [], _, _ => True
  | op :: ops, t, history =>
    ∃ t', op.Right cut dir t history t' ∧ Obeys ops t' (op.record cut history)

/-- Every piece arrives at most once, and a read has a buffer. -/
def Op.Allowed (history : History) : Op → Prop
  | .arrive i pkt _ => i ∉ history.received ∧ ∃ piece, Carries cut i pkt piece
  | .read buf => buf ≠ []

/-- `realloc` returns the block that it was given. -/
def InPlace (q : TcpPktq) (answer : Realloc) : Prop :=
  ∃ ptr memory, answer = some (ptr, memory) ∧ ∀ old slots, q.pkts = some (old, slots) → old = ptr

/-- The offset in the first slot. -/
def FirstOff (q : TcpPktq) (off : Nat) : Prop :=
  ∃ ptr slots slot, q.pkts = some (ptr, slots) ∧ slots[0]? = some slot ∧ slot.off.toNat = off

/-- The number of a piece is behind that of the `SYN`, if the stream knows it. -/
def Cut.Passes (cut : Cut) (t : TcpStream) (dir : Fin 2) (i : Nat) : Prop :=
  t.seqacks dir = 0 ∨ t.seqacks dir < cut.base + UInt32.ofNat (cut.start i)

/-- A packet arrives before anything is read. If the sequence check refuses it, then its piece is
not the next one. If not, then its block stays where it is, and if its piece is the next one, then
the stream starts at number 0 and the piece after it has not arrived; if it is another one, then
its number is not taken for the start of the stream.

A read finds nothing, or the packet that arrived last has the first piece, the offset in its
slot is what was read of it, and the read does not ask for more than is left. -/
def Op.Harmless (t : TcpStream) (history : History) : Op → Prop
  | .arrive i _ answer => history.got = 0 ∧
      (¬cut.Passes t dir i → i ≠ frontier history.received) ∧
      (cut.Passes t dir i → InPlace (t.pktqs dir) answer ∧
        if i = frontier history.received then cut.base = 0 ∧ i + 1 ∉ history.received
        else cut.base = 0 ∨ cut.base + UInt32.ofNat (cut.start i) ≠ 0)
  | .read buf => frontier history.received = 0 ∨
      history.received.head? = some 0 ∧ FirstOff (t.pktqs dir) history.got ∧
      ∃ piece, cut.pieces[0]? = some piece ∧ piece.length < 2 ^ 16 ∧ history.got + buf.length ≤ piece.length

def AllHarmless : List Op → TcpStream → History → Prop
  | [], _, _ => True
  | op :: ops, t, history => op.Allowed cut history ∧ op.Harmless cut dir t history ∧
      ∀ t', op.next dir t = .ok t' → AllHarmless ops t' (op.record cut history)

/-- The stream after the handshake, with nothing in the queue. -/
structure Established (t : TcpStream) : Prop where
  state : t.state = .est
  queue : t.pktqs dir = {}

/-! ## Positions -/

variable {cut dir} {i j : Nat} {piece : List UInt8} {received : List Nat}

lemma mem_of_lt_frontier (hl : i < frontier received) : i ∈ received :=
  not_not.mp (Nat.find_min (exists_missing received) hl)

lemma frontier_eq (hm : i ∉ received) (hb : ∀ j < i, j ∈ received) : frontier received = i :=
  (Nat.find_eq_iff _).mpr ⟨hm, fun j hl => not_not.mpr (hb j hl)⟩

lemma frontier_cons_ne (ho : i ≠ frontier received) : frontier (i :: received) = frontier received := by
  refine frontier_eq ?_ fun j hl => mem_cons_of_mem _ (mem_of_lt_frontier hl)
  rw [mem_cons]
  rintro (he | hi)
  · exact ho he.symm
  · exact Nat.find_spec (exists_missing received) hi

lemma frontier_cons_self (gap : frontier received + 1 ∉ received) :
    frontier (frontier received :: received) = frontier received + 1 := by
  refine frontier_eq ?_ fun j hl => ?_
  · rw [mem_cons]
    rintro (he | hi)
    · omega
    · exact gap hi
  · rcases Nat.lt_succ_iff_lt_or_eq.mp hl with hb | he
    · exact mem_cons_of_mem _ (mem_of_lt_frontier hb)
    · exact he ▸ mem_cons_self

lemma start_zero {cut : Cut} : cut.start 0 = 0 := rfl

lemma start_succ (hi : cut.pieces[i]? = some piece) :
    cut.start (i + 1) = cut.start i + piece.length := by
  rw [Cut.start, Cut.start, take_add_one, hi, flatten_append, length_append]
  exact congrArg _ (congrArg _ (append_nil piece))

lemma start_mono (hl : i ≤ j) : cut.start i ≤ cut.start j := by
  have hs := take_append_drop i (cut.pieces.take j)
  rw [take_take, Nat.min_eq_left hl] at hs
  rw [Cut.start, Cut.start, ← hs, flatten_append, length_append]
  exact Nat.le_add_right _ _

lemma start_lt (cut : Cut) (i : Nat) : cut.start i < 2 ^ 31 := by
  refine Nat.lt_of_le_of_lt ?_ cut.short
  have hs := congrArg (fun pieces => pieces.flatten.length) (take_append_drop i cut.pieces)
  simp only [flatten_append, length_append] at hs
  rw [Cut.start]
  omega

lemma toNat_start (cut : Cut) (i : Nat) : (ofNat (cut.start i)).toNat = cut.start i := by
  have hb := start_lt cut i
  rw [UInt32.toNat_ofNat', Nat.mod_eq_of_lt (by omega)]

lemma piece_pos (hi : cut.pieces[i]? = some piece) : 0 < piece.length :=
  length_pos_iff.mpr (cut.nonempty piece (mem_of_getElem? hi))

/-- A piece that is neither received nor the next one lies behind the covered prefix. -/
lemma covered_lt_start (isPiece : cut.pieces[i]? = some piece) (isNew : i ∉ received)
    (ho : i ≠ frontier received) : cut.covered received < cut.start i := by
  have hb : frontier received < i := by
    by_contra before
    exact isNew (mem_of_lt_frontier (by omega))
  have hi : frontier received < cut.pieces.length :=
    Nat.lt_trans hb (List.getElem?_eq_some_iff.mp isPiece).1
  have next := getElem?_eq_getElem hi
  have hp := piece_pos next
  calc cut.covered received < cut.start (frontier received + 1) := by
        rw [start_succ next, Cut.covered]
        omega
    _ ≤ cut.start i := start_mono hb

/-! ## Arrivals -/

/-- What the queue is between the operations of a run. -/
structure Queue (cut : Cut) (history : History) (q : TcpPktq) : Prop where
  len : q.len = UInt32.ofNat (cut.covered history.received)
  firstSeq : q.firstSeq = UInt32.ofNat (cut.covered history.received)
  base : 0 < frontier history.received → cut.base = 0
  unread : history.got = 0 → q.npkt = 0 ∧ q.max = 0 ∧
    q.nassembly = UInt32.ofNat (frontier history.received)
  front : history.received.head? = some 0 → ∀ piece, cut.pieces[0]? = some piece →
    history.got < piece.length → frontier history.received = 1 ∧ q.npkt = 0 ∧ q.nassembly = 1 ∧
    ∃ ptr slots slot pkt, q.pkts = some (ptr, slots) ∧ slots[0]? = some slot ∧
      slot.len = UInt16.ofNat piece.length ∧ slot.pkt = .live pkt ∧ Carries cut 0 pkt piece

structure Inv (cut : Cut) (dir : Fin 2) (t : TcpStream) (history : History) : Prop where
  state : t.state = .est
  queue : Queue cut history (t.pktqs dir)

variable {t : TcpStream} {history : History} {pkt : Netpkt} {answer : Realloc} {h : TcpHdr}

variable {q : TcpPktq}

lemma Inv.update (inv : Inv cut dir t history) {history' : History} (hq : Queue cut history' q) :
    Inv cut dir { t with pktqs := update t.pktqs dir q } history' := by
  refine ⟨inv.state, ?_⟩
  simp only [update_self]
  exact hq

lemma tcpPktqInit_inPlace (hi : InPlace q answer) :
    ∃ ptr slots, tcpPktqInit q 16 answer = .ok (true, { q with pkts := some (ptr, slots) }) ∧
      slots.length = 16 := by
  obtain ⟨ptr, memory, rfl, he⟩ := hi
  rcases hk : q.pkts with _ | ⟨old, slots⟩
  · refine ⟨ptr, (List.range 16).map memory, ?_, by rw [length_map, length_range]⟩
    simp only [tcpPktqInit, hk]
  · refine ⟨ptr, (List.range 16).map fun i => slots[i]?.getD (memory i), ?_,
      by rw [length_map, length_range]⟩
    have hs : old = ptr := he old slots hk
    simp only [tcpPktqInit, hk, hs, ne_eq, not_true, if_false]

lemma placePkt_first {ptr : Nat} {tp : TcpPkt} {rest : List TcpPkt} (hn : q.npkt = 0)
    (hk : q.pkts = some (ptr, tp :: rest)) (seq : UInt32) (size : Nat) (pkt : Netpkt) :
    placePkt q 0 seq size pkt = .ok { q with pkts := some (ptr,
      { tp with seq := seq, len := UInt16.ofNat size, pkt := .live pkt } :: rest) } := by
  have hs : q.npkt.toNat - 0 = 0 := by
    rw [hn]
    rfl
  simp only [placePkt, hk, hs, Nat.lt_irrefl, false_and, if_false, getElem?_cons_zero, set_cons_zero]

/-- The first slot takes the packet, as the queue is empty by its own count. -/
lemma tcpPktqAdd_eq (hn : q.npkt = 0) (hu : q.max = 0) (hi : InPlace q answer)
    (hc : Carries cut i pkt piece) (h : TcpHdr) : ∃ ptr slots slot, (∃ ret, tcpPktqAdd q pkt h answer =
        .ok (ret, assemble { q with pkts := some (ptr, slots) } h.seq (ofNat piece.length))) ∧
      slots[0]? = some slot ∧ slot.len = UInt16.ofNat piece.length ∧ slot.pkt = .live pkt := by
  have hm := hc.measured
  have hp := piece_pos hc.piece_eq
  obtain ⟨ptr, slots, hg, hs⟩ := tcpPktqInit_inPlace hi
  obtain ⟨tp, rest, rfl⟩ := exists_cons_of_length_pos (l := slots) (by omega)
  have all : toInt ((pkt.tail : Int) - pkt.head) = netpktHlen pkt + piece.length := by
    rw [hc.tail_eq, toInt_small (by omega) (by omega)]
    push_cast
    omega
  have hh : toInt (netpktHlen pkt) = netpktHlen pkt := toInt_small (by omega) (by omega)
  have size : (netpktHlen pkt + piece.length : Int) - netpktHlen pkt = piece.length := by omega
  have hl : ¬q.npkt ≥ tcpPktqMax := by
    rw [hn]
    decide
  have capacity : q.max.toNat + tcpPktqInc = 16 := by
    rw [hu]
    rfl
  have hf : tcpPktqFindPos { q with pkts := some (ptr, tp :: rest) } h.seq
      (ofNat piece.length) = .ok 0 := if_pos hn
  have put := placePkt_first (q := { q with pkts := some (ptr, tp :: rest) }) hn rfl h.seq piece.length pkt
  let stored : TcpPkt := { tp with seq := h.seq, len := UInt16.ofNat piece.length, pkt := .live pkt }
  refine ⟨ptr, stored :: rest, stored, ?_, rfl, rfl, rfl⟩
  rw [tcpPktqAdd]
  simp only [all, hh, size]
  rw [if_neg (by omega), if_neg (by omega), if_neg hl, if_pos (hn.trans hu.symm), capacity, hg]
  simp only [bind, Except.bind, Bool.not_true, Bool.false_eq_true, if_false, Int.toNat_natCast, hf,
    Int.lt_irrefl, Int.toNat_zero, put]
  exact ⟨_, rfl⟩

lemma passes_iff (number : h.seq = cut.base + ofNat (cut.start i)) :
    tcpCheckSeq t h dir = true ↔ cut.Passes t dir i := by
  simp [tcpCheckSeq, Cut.Passes, number]

lemma tcpStreamFlow_est (established : t.state = .est) {off : Nat} (decoded : pkt.hdr4 = some off)
    (header : tcpHdrAt pkt off = .ok h) (psh : h.psh = true) (rst : h.rst = false) (fin : h.fin = false) :
    tcpStreamFlow t pkt dir answer =
      if tcpCheckSeq t h dir then queuePkt t pkt h dir answer else .ok (some (-1), t) := by
  cases checked : tcpCheckSeq t h dir <;>
    simp [tcpStreamFlow, decoded, header, checked, rst, established, fin, psh]

/-- The count goes up exactly if the piece is the next one. -/
lemma assemble_spec (len : q.len = ofNat (cut.covered received))
    (hf : q.firstSeq = ofNat (cut.covered received))
    (base : 0 < frontier received → cut.base = 0) (hn : q.nassembly = ofNat (frontier received))
    (isPiece : cut.pieces[i]? = some piece) (hi : i ∉ received)
    (hh : if i = frontier received then cut.base = 0 ∧ i + 1 ∉ received
      else cut.base = 0 ∨ cut.base + ofNat (cut.start i) ≠ 0) :
    let q' := assemble q (cut.base + ofNat (cut.start i)) (ofNat piece.length)
    q'.len = ofNat (cut.covered (i :: received)) ∧
      q'.firstSeq = ofNat (cut.covered (i :: received)) ∧
      (0 < frontier (i :: received) → cut.base = 0) ∧
      q'.nassembly = ofNat (frontier (i :: received)) := by
  by_cases next : i = frontier received
  · rw [if_pos next] at hh
    subst next
    obtain ⟨zero, gap⟩ := hh
    have hc : cut.covered (frontier received :: received) = cut.covered received + piece.length := by
      rw [Cut.covered, frontier_cons_self gap, start_succ isPiece, Cut.covered]
    have seq : cut.base + ofNat (cut.start (frontier received)) = q.firstSeq := by
      rw [zero, zero_add, hf, Cut.covered]
    rw [seq, assemble, if_pos rfl, hc, frontier_cons_self gap, ofNat_add,
      ofNat_add, len, hf, hn]
    exact ⟨rfl, rfl, fun _ => zero, rfl⟩
  · rw [if_neg next] at hh
    have hb := covered_lt_start isPiece hi next
    have seq : ¬q.firstSeq = cut.base + ofNat (cut.start i) := by
      intro he
      rw [hf] at he
      by_cases zero : cut.base = 0
      · rw [zero, zero_add, ← UInt32.toNat_inj, Cut.covered, toNat_start, toNat_start] at he
        rw [Cut.covered] at hb
        omega
      · have none : frontier received = 0 := by
          by_contra some
          exact zero (base (Nat.pos_of_ne_zero some))
        rw [Cut.covered, none] at he
        exact (hh.resolve_left zero) he.symm
    rw [assemble, if_neg seq, Cut.covered, frontier_cons_ne next]
    exact ⟨len, hf, base, hn⟩

lemma assemble_frame (seq size : UInt32) :
    (assemble q seq size).npkt = q.npkt ∧ (assemble q seq size).max = q.max ∧
      (assemble q seq size).pkts = q.pkts := by
  rw [assemble]
  split <;> exact ⟨rfl, rfl, rfl⟩

variable {slots : List TcpPkt} {slot : TcpPkt}

/-- The queue after the arrival of a piece, whose packet now stands in the first slot. -/
lemma Queue.arrive {q q' : TcpPktq} (hq : Queue cut history q) (hu : history.got = 0)
    (hc : Carries cut i pkt piece) (hi : i ∉ history.received)
    (hp : if i = frontier history.received then cut.base = 0 ∧ i + 1 ∉ history.received
      else cut.base = 0 ∨ cut.base + ofNat (cut.start i) ≠ 0)
    (ptr : Nat) (hf : slots[0]? = some slot) (hs : slot.len = UInt16.ofNat piece.length)
    (slotPkt : slot.pkt = .live pkt)
    (ha : q' = assemble { q with pkts := some (ptr, slots) } (cut.base + ofNat (cut.start i)) (ofNat piece.length)) :
    Queue cut { history with received := i :: history.received } q' := by
  obtain ⟨hn, unsized, nassembly⟩ := hq.unread hu
  obtain ⟨hl', hf', hb', hn'⟩ :=
    assemble_spec (q := { q with pkts := some (ptr, slots) }) hq.len hq.firstSeq hq.base
      nassembly hc.piece_eq hi hp
  obtain ⟨keptNpkt, hk, keptPkts⟩ := assemble_frame
    (cut.base + ofNat (cut.start i)) (ofNat piece.length)
  rw [← ha] at hl' hf' hn' keptNpkt hk keptPkts
  refine ⟨hl', hf', hb', fun _ => ?_, fun newest piece' hi' _ => ?_⟩
  · exact ⟨keptNpkt.trans hn, hk.trans unsized, hn'⟩
  · cases some.inj newest
    cases some.inj (hi'.symm.trans hc.piece_eq)
    have isNext : 0 = frontier history.received := by
      by_contra ho
      exact hi (mem_of_lt_frontier (by omega))
    rw [if_pos isNext] at hp
    have one : frontier (0 :: history.received) = 1 := by
      have gap : frontier (frontier history.received :: history.received) =
          frontier history.received + 1 := frontier_cons_self (isNext ▸ hp.2)
      rwa [← isNext] at gap
    exact ⟨one, keptNpkt.trans hn, hn'.trans (by rw [one]; rfl), ptr, slots, slot, pkt,
      keptPkts, hf, hs, slotPkt, hc⟩

/-- A piece that is refused and not the next one leaves the queue right. -/
lemma Queue.refuse (hq : Queue cut history q) (missing : i ∉ history.received)
    (other : i ≠ frontier history.received) :
    Queue cut { history with received := i :: history.received } q := by
  have stays := frontier_cons_ne other
  have same : cut.covered (i :: history.received) = cut.covered history.received := by
    rw [Cut.covered, stays, Cut.covered]
  refine ⟨hq.len.trans (by rw [same]), hq.firstSeq.trans (by rw [same]), ?_, ?_, ?_⟩
  · rw [stays]
    exact hq.base
  · rw [stays]
    exact hq.unread
  · -- the first piece would be the next one
    intro first
    cases some.inj first
    have next : 0 = frontier history.received := by
      by_contra after
      exact missing (mem_of_lt_frontier (by omega))
    exact absurd next other

/-- The count of what is there while nothing is read. -/
lemma Queue.dataLen (hq : Queue cut history q) (unread : history.got = 0) (counted : (t.pktqs dir) = q) :
    tcpStreamDataLen t dir + history.got = cut.covered history.received := by
  have bound := start_lt cut (frontier history.received)
  rw [tcpStreamDataLen, counted, hq.len, unread, Cut.covered, toNat_start]
  change toInt (cut.start (frontier history.received)) + 0 = _
  rw [toInt_small (by omega) (by omega)]
  exact Int.add_zero _

lemma arrive_step (inv : Inv cut dir t history) (ha : (Op.arrive i pkt answer).Allowed cut history)
    (hh : (Op.arrive i pkt answer).Harmless cut dir t history) :
    ∃ t', (Op.arrive i pkt answer).Right cut dir t history t' ∧
      Inv cut dir t' ((Op.arrive i pkt answer).record cut history) := by
  obtain ⟨missing, piece, carries⟩ := ha
  obtain ⟨unread, refused, passed⟩ := hh
  obtain ⟨off, h, decoded, header, seq, psh, rst, fin⟩ := carries.header
  have flow : tcpStreamFlow t pkt dir answer = _ := tcpStreamFlow_est inv.state decoded header psh rst fin
  by_cases passes : cut.Passes t dir i
  · obtain ⟨inPlace, placed⟩ := passed passes
    obtain ⟨count, room, -⟩ := inv.queue.unread unread
    obtain ⟨ptr, slots, slot, ⟨ret, added⟩, first, size, live⟩ := tcpPktqAdd_eq count room inPlace carries h
    rw [seq] at added
    rw [if_pos ((passes_iff seq).mpr passes), queuePkt, added] at flow
    have queue := inv.queue.arrive unread carries missing placed ptr first size live rfl
    exact ⟨_, ⟨some ret, flow, queue.dataLen unread (update_self ..)⟩, inv.update queue⟩
  · rw [if_neg (mt (passes_iff seq).mp passes)] at flow
    have queue := inv.queue.refuse missing (refused passes)
    exact ⟨t, ⟨some (-1), flow, queue.dataLen unread rfl⟩, inv.state, queue⟩

/-! ## Reads -/

variable {buf : List UInt8}

/-- The one round of a read that the first packet has enough for. -/
lemma getDataLoop_one (hf : slots[0]? = some slot) (isLive : slot.pkt = .live pkt)
    (left : slot.off.toNat + buf.length ≤ slot.len.toNat) :
    ∃ copied, getDataLoop slots 1 0 0 buf.length 0 buf = .ok (true, copied) ∧ copied.buf = overwrite buf 0
        (slice pkt.mem (pkt.head + netpktHlen pkt + slot.off.toNat) buf.length) ∧
      (slot.off.toNat + buf.length < slot.len.toNat → copied.nfree = 0 ∧
        ∃ slot', copied.slots[0]? = some slot' ∧ slot'.len = slot.len ∧ slot'.pkt = .live pkt) := by
  have hi : 0 < slots.length := (List.getElem?_eq_some_iff.mp hf).1
  have hn : ¬(buf.length : Int) > slot.len.toNat - slot.off.toNat := by omega
  have hc : ¬((buf.length : Int) < 0 ∨ 0 + (buf.length : Int) > buf.length) := by omega
  by_cases hw : (buf.length : Int) = slot.len.toNat - slot.off.toNat
  · refine ⟨{ slots, nfree := 1, buf := _ }, ?_, rfl, fun hl => absurd hl (by omega)⟩
    simp only [getDataLoop, hf, isLive, if_neg hn, if_neg hc, if_pos hw, Int.sub_self, if_true]
    rfl
  · let later : TcpPkt :=
      { slot with off := slot.off + UInt16.ofNat buf.length, pkt := .live pkt }
    refine ⟨{ slots := slots.set 0 later, nfree := 0, buf := _ }, ?_, rfl, fun _ =>
      ⟨rfl, later, getElem?_set_self hi, rfl, rfl⟩⟩
    simp only [getDataLoop, hf, isLive, if_neg hn, if_neg hc, if_neg hw, Int.sub_self, if_true]
    rfl

lemma dropPkts_empty (hn : q.npkt = 0) (ptr : Nat) (slots : List TcpPkt) (nfree : Nat) :
    ∃ q', dropPkts q ptr slots nfree = .ok q' ∧ q'.len = q.len ∧ q'.firstSeq = q.firstSeq := by
  have hs : ¬0 < q.npkt.toNat - nfree := by
    rw [hn, UInt16.toNat_zero]
    omega
  let freed := (slots.take nfree).map (fun slot => { slot with pkt := .wild }) ++ slots.drop nfree
  refine ⟨{ q with
    npkt := q.npkt - UInt16.ofNat nfree
    nassembly := q.nassembly - ofNat nfree
    pkts := some (ptr, freed) }, ?_, rfl, rfl⟩
  simp only [dropPkts, if_neg hs]
  rfl

/-- A read from the one packet in the queue. -/
lemma tcpPktqGetData_eq {ptr : Nat} (one : q.nassembly = 1) (hn : q.npkt = 0)
    (hk : q.pkts = some (ptr, slots)) (hf : slots[0]? = some slot)
    (hi : slot.pkt = .live pkt) (left : slot.off.toNat + buf.length ≤ slot.len.toNat) :
    ∃ q', tcpPktqGetData q buf buf.length = .ok (buf.length, overwrite buf 0
        (slice pkt.mem (pkt.head + netpktHlen pkt + slot.off.toNat) buf.length), q') ∧
      q'.len = q.len ∧ q'.firstSeq = q.firstSeq ∧
      (slot.off.toNat + buf.length < slot.len.toNat → q'.npkt = 0 ∧ q'.nassembly = 1 ∧
        ∃ slots' slot', q'.pkts = some (ptr, slots') ∧ slots'[0]? = some slot' ∧
          slot'.len = slot.len ∧ slot'.pkt = .live pkt) := by
  have hr : q.nassembly.toNat = 1 := by
    rw [one]
    rfl
  obtain ⟨copied, hl, hc, rest⟩ := getDataLoop_one hf hi left
  obtain ⟨q', hd, sameLen, hs⟩ := dropPkts_empty hn ptr copied.slots copied.nfree
  by_cases frees : copied.nfree > 0
  · refine ⟨q', ?_, sameLen, hs, fun less => absurd (rest less).1 (by omega)⟩
    simp only [tcpPktqGetData, hk, hr, hl, bind, Except.bind, Bool.not_true,
      Bool.false_eq_true, if_false, if_pos frees, hd, hc]
    rfl
  · refine ⟨{ q with pkts := some (ptr, copied.slots) }, ?_, rfl, rfl, fun less => ?_⟩
    · simp only [tcpPktqGetData, hk, hr, hl, bind, Except.bind, Bool.not_true,
        Bool.false_eq_true, if_false, if_neg frees, hc]
      rfl
    · obtain ⟨-, slot', hf', sameSlot, hi'⟩ := rest less
      exact ⟨hn, one, copied.slots, slot', rfl, hf', sameSlot, hi'⟩

lemma tcpStreamGetData_eq {q' : TcpPktq} {buf buf' : List UInt8} {ret : Int} (ask : buf ≠ [])
    (hf : buf.length ≤ (t.pktqs dir).len.toNat) (hs : buf.length < 2 ^ 31)
    (got : tcpPktqGetData (t.pktqs dir) buf buf.length = .ok (ret, buf', q')) : tcpStreamGetData t buf dir =
      .ok (ret, buf', { t with pktqs := update t.pktqs dir q' }) := by
  have hp := length_pos_iff.mpr ask
  have tot : (if (t.pktqs dir).len.toNat > buf.length then buf.length else (t.pktqs dir).len.toNat) =
      buf.length := by
    split <;> omega
  rw [tcpStreamGetData]
  simp only [tot]
  rw [toInt_small (by omega) (by omega), if_neg (by omega), if_neg (by omega), Int.toNat_natCast, got]
  rfl

/-- The bytes of the first piece are those that the stream starts with. -/
lemma slice_stream (isPiece : cut.pieces[0]? = some piece) {pos len : Nat}
    (hi : pos + len ≤ piece.length) : slice cut.stream pos len = slice piece pos len := by
  obtain ⟨rest, split⟩ : ∃ rest, cut.pieces = piece :: rest := by
    rcases hk : cut.pieces with _ | ⟨first, rest⟩
    · rw [hk] at isPiece
      cases isPiece
    · rw [hk] at isPiece
      exact ⟨rest, congrArg (· :: rest) (some.inj isPiece)⟩
  rw [Cut.stream, split, flatten_cons, slice_append_left _ hi]

lemma read_nothing (inv : Inv cut dir t history) (ask : buf ≠ [])
    (hn : frontier history.received = 0) : ∃ t', (Op.read buf).Right cut dir t history t' ∧
      Inv cut dir t' ((Op.read buf).record cut history) := by
  have hp := length_pos_iff.mpr ask
  have ha : Op.amount cut history buf = 0 := by
    rw [Op.amount, Cut.covered, hn, start_zero]
    omega
  have len : (t.pktqs dir).len.toNat = 0 := by
    rw [inv.queue.len, Cut.covered, hn, start_zero]
    rfl
  have he : (Op.read buf).record cut history = history := by
    rw [Op.record, ha, Nat.add_zero]
  refine ⟨t, ⟨buf, ?_, ?_⟩, he.symm ▸ inv⟩
  · have tot : (if 0 > buf.length then buf.length else 0) = 0 := if_neg (by omega)
    rw [ha, tcpStreamGetData]
    simp only [len, tot]
    rw [if_neg (by omega)]
    rfl
  · rw [ha, take_zero, slice, take_zero]

lemma read_first (inv : Inv cut dir t history) (ask : buf ≠ [])
    (newest : history.received.head? = some 0) (hf : FirstOff (t.pktqs dir) history.got)
    (hi : cut.pieces[0]? = some piece) (hs : piece.length < 2 ^ 16)
    (left : history.got + buf.length ≤ piece.length) : ∃ t', (Op.read buf).Right cut dir t history t' ∧
      Inv cut dir t' ((Op.read buf).record cut history) := by
  have hp := length_pos_iff.mpr ask
  obtain ⟨one, hn, nassembly, ptr, slots, slot, pkt, hk, first, slotLen, isLive, carries⟩ :=
    inv.queue.front newest piece hi (by omega)
  have off : slot.off.toNat = history.got := by
    obtain ⟨ptr', slots', slot', hk', hf', off⟩ := hf
    cases some.inj (hk.symm.trans hk')
    cases some.inj (first.symm.trans hf')
    exact off
  have hc : cut.covered history.received = piece.length := by
    rw [Cut.covered, one, start_succ hi, start_zero, Nat.zero_add]
  have ha : Op.amount cut history buf = buf.length := by
    rw [Op.amount, hc]
    omega
  have hs' : slot.len.toNat = piece.length := by
    rw [slotLen, UInt16.toNat_ofNat', Nat.mod_eq_of_lt hs]
  have len : (t.pktqs dir).len.toNat = piece.length := by
    rw [inv.queue.len, Cut.covered, toNat_start, ← Cut.covered, hc]
  have hd : slice pkt.mem (pkt.head + netpktHlen pkt + slot.off.toNat) buf.length =
      slice piece history.got buf.length := by
    rw [off, ← slice_slice left, carries.data]
  obtain ⟨q', got, sameLen, sameFirst, rest⟩ := tcpPktqGetData_eq nassembly hn hk first isLive
    (show slot.off.toNat + buf.length ≤ slot.len.toNat by omega)
  rw [hd] at got
  have hq : Queue cut ((Op.read buf).record cut history) q' := by
    rw [Op.record, ha]
    refine ⟨sameLen.trans inv.queue.len, sameFirst.trans inv.queue.firstSeq, inv.queue.base, ?_, ?_⟩
    · intro hu
      exact absurd hu (Nat.ne_of_gt (Nat.lt_of_lt_of_le hp (Nat.le_add_left _ _)))
    · intro _ piece' hh' hm
      cases some.inj (hh'.symm.trans hi)
      have hm' : history.got + buf.length < piece.length := hm
      obtain ⟨he', ho', slots', slot', hk', hf', hl', hi'⟩ := rest (by omega)
      exact ⟨one, he', ho', ptr, slots', slot', pkt, hk', hf', hl'.trans slotLen, hi', carries⟩
  refine ⟨_, ⟨overwrite buf 0 (slice piece history.got buf.length), ?_, ?_⟩, inv.update hq⟩
  · rw [ha]
    exact tcpStreamGetData_eq ask (by omega) (by omega) got
  · have hb : slice (overwrite buf 0 (slice piece history.got buf.length)) 0
        (slice piece history.got buf.length).length = slice piece history.got buf.length :=
      slice_overwrite (Nat.zero_le _)
    rw [slice_length left] at hb
    rw [ha, slice_stream hi left]
    exact hb

/-! ## Runs -/

lemma op_step {op : Op} (inv : Inv cut dir t history) (ha : op.Allowed cut history)
    (hh : op.Harmless cut dir t history) :
    ∃ t', op.Right cut dir t history t' ∧ Inv cut dir t' (op.record cut history) := by
  cases op with
  | arrive i pkt answer => exact arrive_step inv ha hh
  | read buf =>
    rcases hh with nothing | ⟨hn, hf, piece, hi, hs, left⟩
    · exact read_nothing inv ha nothing
    · exact read_first inv ha hn hf hi hs left

lemma Op.Right.next {op : Op} {t' : TcpStream} (hr : op.Right cut dir t history t') :
    op.next dir t = .ok t' := by
  cases op with
  | arrive i pkt answer =>
    obtain ⟨ret, ran, -⟩ := hr
    rw [Op.next, ran]
    rfl
  | read buf =>
    obtain ⟨buf', ran, -⟩ := hr
    rw [Op.next, ran]
    rfl

lemma obeys_of_inv {ops : List Op} (inv : Inv cut dir t history)
    (hh : AllHarmless cut dir ops t history) : Obeys cut dir ops t history := by
  induction ops generalizing t history with
  | nil => trivial
  | cons op ops ih =>
    obtain ⟨ha, hh, hl⟩ := hh
    obtain ⟨t', right, hi'⟩ := op_step inv ha hh
    exact ⟨t', right, ih hi' (hl t' right.next)⟩

lemma Established.inv (he : Established dir t) : Inv cut dir t ⟨[], 0⟩ := by
  have none : frontier [] = 0 := frontier_eq not_mem_nil fun _ hl => absurd hl (by omega)
  have hc : cut.covered [] = 0 := by rw [Cut.covered, none, start_zero]
  refine ⟨he.state, ?_⟩
  rw [he.queue]
  refine ⟨?_, ?_, ?_, fun _ => ⟨rfl, rfl, ?_⟩, fun hn => absurd hn (by simp)⟩
  · rw [hc]
    rfl
  · rw [hc]
    rfl
  · rw [none]
    exact fun hl => absurd hl (by omega)
  · rw [none]
    rfl

/-- In a run of harmless arrivals and reads on an established stream, the count and the data
are right after every step. -/
theorem reassembly_right (cut : Cut) (dir : Fin 2) (t : TcpStream) (ops : List Op)
    (established : Established dir t) (harmless : AllHarmless cut dir ops t ⟨[], 0⟩) :
    Obeys cut dir ops t ⟨[], 0⟩ :=
  obeys_of_inv established.inv harmless

/-! ## Two bytes in one packet -/

/-- A packet that starts with its TCP header. -/
def bytesPkt (seq : UInt8) (data : List UInt8) : Netpkt where
  mem := [0, 80, 0, 80, 0, 0, 0, seq, 0, 0, 0, 0, 0x50, 0x08, 0, 0, 0, 0, 0, 0] ++ data
  head := 0
  tail := 20 + data.length
  hdr4 := some 0
  hdr4Len := 20

def twoBytes (base : UInt32) : Cut where
  pieces := [[7, 8]]
  base
  nonempty := by decide
  short := by decide

def clearBlock : Realloc := some (1, fun _ => { seq := 0, len := 0, off := 0, pkt := .null })

lemma bytesPkt_carries (seq : UInt8)
    (hh : ∃ h, tcpHdrAt (bytesPkt seq [7, 8]) 0 = .ok h ∧ h.seq = seq.toUInt32 ∧ h.psh = true ∧
      h.rst = false ∧ h.fin = false) : Carries (twoBytes seq.toUInt32) 0 (bytesPkt seq [7, 8]) [7, 8] := by
  obtain ⟨h, hd, hn, hf⟩ := hh
  exact ⟨rfl, ⟨0, h, rfl, hd, hn.trans (UInt32.add_zero _).symm, hf⟩, rfl, rfl,
    show 22 < 2 ^ 31 by decide⟩

/-- The first packet of a stream that starts at number 1 is not counted. -/
theorem first_packet_lost : Carries (twoBytes 1) 0 (bytesPkt 1 [7, 8]) [7, 8] ∧
    ¬Obeys (twoBytes 1) 0 [.arrive 0 (bytesPkt 1 [7, 8]) clearBlock] { state := .est } ⟨[], 0⟩ := by
  refine ⟨bytesPkt_carries 1 ⟨_, rfl, rfl, rfl, rfl, rfl⟩, ?_⟩
  rintro ⟨t', right, -⟩
  have ran := right.next
  obtain ⟨ret, -, len⟩ := right
  have covered : (twoBytes 1).covered [0] = 2 := by
    rw [Cut.covered, frontier_eq (i := 1) (by decide) (by decide)]
    rfl
  have hc : (t'.pktqs 0).len = 0 := by
    cases ran
    rfl
  rw [tcpStreamDataLen, hc, covered] at len
  exact absurd len (by decide)

/-- The same packet at number 0, and a read of its first byte. -/
theorem reassembly_right_read : ∃ ops, Established 0 { state := .est } ∧
      AllHarmless (twoBytes 0) 0 ops { state := .est } ⟨[], 0⟩ ∧
      Obeys (twoBytes 0) 0 ops { state := .est } ⟨[], 0⟩ ∧
      ops = [.arrive 0 (bytesPkt 0 [7, 8]) clearBlock, .read [0]] := by
  have established : Established 0 { state := .est } := ⟨rfl, rfl⟩
  have none : frontier [] = 0 := frontier_eq not_mem_nil fun _ below => absurd below (by omega)
  have harmless : AllHarmless (twoBytes 0) 0
      [.arrive 0 (bytesPkt 0 [7, 8]) clearBlock, .read [0]] { state := .est } ⟨[], 0⟩ := by
    refine ⟨⟨not_mem_nil, _, bytesPkt_carries 0 ⟨_, rfl, rfl, rfl, rfl, rfl⟩⟩,
      ⟨rfl, fun refused => absurd (.inl rfl) refused,
        fun _ => ⟨⟨_, _, rfl, fun _ _ known => nomatch known⟩, ?_⟩⟩, ?_⟩
    · rw [if_pos none.symm]
      exact ⟨rfl, not_mem_nil⟩
    · intro t' ran
      cases ran
      refine ⟨cons_ne_nil _ _, .inr ⟨rfl, ⟨_, _, _, rfl, rfl, rfl⟩, _, rfl, by decide, by decide⟩,
        fun _ _ => trivial⟩
  exact ⟨_, established, harmless, reassembly_right _ _ _ _ established harmless, rfl⟩

end Fzsvn.Guarantees.Packet.TcpReassembly
