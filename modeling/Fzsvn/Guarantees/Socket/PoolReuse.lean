import Fzsvn.Guarantees.Socket.PoolPartition

/-!
# Which connection a socket pool hands out

`sockpool_get` looks for an idle socket in the bucket of the address and does not compare
the address of what it finds. As the key of a bucket is the sum of the bytes of address and
port, a caller can get a socket that is connected to somewhere else.
-/
namespace Fzsvn.Guarantees.Socket.PoolReuse
open Library Source.Socket.Sockets PoolLists PoolPartition List

/-- A socket that `sockpool_get` returns in this state is connected to the address. -/
def Connects (w : World) (ip : UInt32) (port : UInt16) : Prop :=
  ∀ test answer result w', sockpoolGet w ip port test answer = .ok (result, w') → 0 ≤ result.fd →
    w'.peer result.fd = some (ip, port)

/-- The idle sockets in the bucket of the address are connected to it. -/
def Matching (w : World) (ip : UInt32) (port : UInt16) : Prop :=
  ∀ i, HeadedList.Reaches (view w.pool (sockpoolKeygen ip port)) i →
    sockpoolIsUsed (w.pool.pool i).flags = false → (w.pool.pool i).ip = ip ∧ (w.pool.pool i).port = port

variable {n : Nat} {w : World} {lists : Nat → List Nat} {items : Nat → SockpoolItem} {ip : UInt32} {port : UInt16}

lemma connects_invalid (hi : ip < 1 ∨ port < 1) : Connects w ip port := by
  intro test answer result w' hc hn
  have he : sockpoolGet w ip port test answer = .ok (.invalid, w) := if_pos hi
  cases he.symm.trans hc
  cases hn

lemma connects_matching (hv : Valid n w lists) (matching : Matching w ip port) : Connects w ip port := by
  intro test answer result w' hc hn
  obtain ⟨result', w'', lists', hc', -, got⟩ := hv.get ip port test answer
  cases hc.symm.trans hc'
  rw [got.peer hn]
  cases hf : candidate w lists ip port test with
  | none => rfl
  | some i =>
    have hm : i ∈ lists (sockpoolKeygen ip port) := mem_of_find?_eq_some hf
    have hi : idle test (w.pool.pool i) = true := find?_some (p := fun i => idle test (w.pool.pool i)) hf
    have hu : sockpoolIsUsed (w.pool.pool i).flags = false := by
      simp only [idle, Bool.and_eq_true, Bool.not_eq_true'] at hi
      exact hi.1
    obtain ⟨hs, samePort⟩ := matching i ((HeadedList.linked_reaches (hv.chains.linked _)).mpr hm) hu
    rw [address, hs, samePort]

/-- An idle socket is handed out when it is the only one that passes the test. -/
lemma matching_of_connects (hv : Valid n w lists) (hp : ¬ (ip < 1 ∨ port < 1)) (hc : Connects w ip port) :
    Matching w ip port := by
  intro i reached hu
  have hm := (HeadedList.linked_reaches (hv.chains.linked _)).mp reached
  have hb := keygen_bucket ip port
  have hf := hv.filed _ hb i hm
  let test : Int → Bool := fun fd => fd = (w.pool.pool i).fd
  have first : candidate w lists ip port test = some i := by
    have hs : idle test (w.pool.pool i) = true := by simp [idle, hu, test]
    cases found : candidate w lists ip port test with
    | none =>
      have hr := List.find?_eq_none.mp found i hm
      exact absurd hs hr
    | some j =>
      have isIdle : idle test (w.pool.pool j) = true := find?_some (p := fun i => idle test (w.pool.pool i)) found
      have he : (w.pool.pool j).fd = (w.pool.pool i).fd := by
        simp only [idle, test, Bool.and_eq_true, decide_eq_true_eq] at isIdle
        exact isIdle.2
      have hi : j ∈ lists (sockpoolKeygen ip port) := mem_of_find?_eq_some found
      rw [hv.unique j i ⟨_, hb, hi⟩ ⟨_, hb, hm⟩ he]
  obtain ⟨result, w', lists', call, -, got⟩ := hv.get ip port test none
  have hn : 0 ≤ result.fd := by
    rw [got.reused hp i first]
    exact hf.valid
  have peer := got.peer hn
  rw [hc test none result w' call hn, first] at peer
  cases peer
  exact ⟨rfl, rfl⟩

theorem connection_right_iff (run : PoolPartition.Reaches n items w) (ip : UInt32) (port : UInt16) :
    Connects w ip port ↔ ip < 1 ∨ port < 1 ∨ Matching w ip port := by
  obtain ⟨lists, hv⟩ := run.valid
  rw [← or_assoc]
  constructor
  · intro hc
    by_cases hi : ip < 1 ∨ port < 1
    · exact .inl hi
    · exact .inr (matching_of_connects hv hi hc)
  · rintro (hi | hm)
    · exact connects_invalid hi
    · exact connects_matching hv hm

/-- A socket that was connected to port 2 of host 1 and has been put back. -/
lemma put_back : ∃ w, PoolPartition.Reaches 1 (unusedItem 1) w ∧ w.peer 3 = some (1, 2) ∧
    ∃ w', sockpoolGet w 2 1 (fun _ => true) none = .ok (.reused 3, w') ∧ w'.peer 3 = some (1, 2) := by
  have start : PoolPartition.Reaches 1 (unusedItem 1) { pool := _, peer := fun _ => none, held := [] } := .start rfl
  have got := @PoolPartition.Reaches.get 1 (unusedItem 1) _ _ 1 2 (fun _ => true) (some 3) _ start rfl
  have back := @PoolPartition.Reaches.put 1 (unusedItem 1) _ _ 3 false _ got (mem_singleton_self 3) rfl
  exact ⟨_, back, rfl, _, rfl, rfl⟩

theorem connection_right_iff_back : ∃ w, PoolPartition.Reaches 1 (unusedItem 1) w ∧ w.peer 3 = some (1, 2) ∧
    ∀ ip port, Connects w ip port ↔ ip < 1 ∨ port < 1 ∨ Matching w ip port := by
  obtain ⟨w, run, connected, -⟩ := put_back
  exact ⟨w, run, connected, connection_right_iff run⟩

/-- Port 2 of host 1 and port 1 of host 2 have the same key: the socket that is put back is
connected to the one and handed out for the other. -/
theorem connection_wrong : ∃ w, PoolPartition.Reaches 1 (unusedItem 1) w ∧
    ∃ w', sockpoolGet w 2 1 (fun _ => true) none = .ok (.reused 3, w') ∧ w'.peer 3 = some (1, 2) := by
  obtain ⟨w, run, -, wrong⟩ := put_back
  exact ⟨w, run, wrong⟩

end Fzsvn.Guarantees.Socket.PoolReuse
