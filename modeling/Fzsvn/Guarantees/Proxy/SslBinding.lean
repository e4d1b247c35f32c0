import Fzsvn.Guarantees.Proxy.ConnectionActs

/-!
# SSL objects and the descriptors they are bound to

OpenSSL works on the descriptor that `ssl_set_fd` gave to the object. Accepted clients are
bound before they are served, and so are servers that connect at once. If the connect is
pending, `session_forward` leaves the object unbound, and `conn_handshake` uses it as soon
as the connection is there (`handshake_unbound`). In runs without a pending connect to an
SSL server every call finds its object bound to the connection's descriptor
(`ssl_bound_before_use`).
-/
namespace Fzsvn.Guarantees.Proxy.SslBinding
open Library.Exec Source.Proxy Locality Lifecycle SessionView TaskViews ViewRule ConnectionActs

/-- An OpenSSL call is made on an object bound to the connection's descriptor. -/
def BoundUse : Event → Prop
  | .sslUse _ _ bound fd => bound = some fd
  | _ => True

/-- No connection to an SSL server is pending. The trapt mode does not look at the result of
its connect. -/
def connectsAtOnce : Limits where
  call _ _ _ _ _ := True
  task v d io := (v.conn d).task.kind = .parse → ¬ (v.conn d.peer).fd > 0 →
    io.forward.spdata = true → io.forward.server = some true → io.forward.sslAlloc = true →
    v.session.policy ≠ some .trapt → ∀ c ∈ io.forward.connect, c.2 = false
  free _ := True

instance (v : View) (d : Dir) (cb : Callback) (io : CallbackIO) (events : Mask) :
    Decidable (connectsAtOnce.call v d cb io events) := isTrue trivial

instance (v : View) (d : Dir) (io : TaskIO) : Decidable (connectsAtOnce.task v d io) :=
  inferInstanceAs (Decidable (_ → _ → _ → _ → _ → _ → ∀ c ∈ io.forward.connect, c.2 = false))

instance (v : View) : Decidable (connectsAtOnce.free v) := isTrue trivial

/-! ## The invariant -/

def AllBound (v : View) : Prop := ∀ e ∈ v.log, BoundUse e

/-- SSL objects are bound, and only open connections have them. -/
structure Bound (v : View) : Prop where
  uses : AllBound v
  bound : ∀ d x, (v.conn d).ssl = some x → x.fd = some (v.conn d).fd ∧ (v.request d).isSome = true

variable {v v' : View} {d : Dir}

lemma allBound_note {e : Event} (h : AllBound v) (hb : BoundUse e) : AllBound (v.note e) := by
  intro e' hm
  rcases List.mem_append.mp hm with old | new
  · exact h e' old
  · rw [List.mem_singleton.mp new]
    exact hb

lemma bound_act (act : Act d v v') (h : Bound v) : Bound v' := by
  cases act with
  | edit he =>
    refine ⟨by unfold AllBound; rw [he.log]; exact h.uses, fun e x ssl => ?_⟩
    rw [he.ssl] at ssl
    rw [he.fd]
    exact ⟨(h.bound e x ssl).1, he.asked e (h.bound e x ssl).2⟩
  | note hq =>
    refine ⟨allBound_note h.uses ?_, h.bound⟩
    unfold BoundUse
    split
    · exact hq.elim
    · trivial
  | use =>
    unfold View.useSsl
    split
    · exact h
    · next x ssl => exact ⟨allBound_note h.uses (h.bound d x ssl).1, h.bound⟩
  | free _ _ =>
    refine ⟨allBound_note h.uses trivial, fun e x ssl => ?_⟩
    rcases d.sides e with rfl | rfl
    · simp [CallbackViews.View.freeSsl] at ssl
    · have hk := h.bound d.peer x (by simpa [CallbackViews.View.freeSsl] using ssl)
      simpa [CallbackViews.View.freeSsl] using hk

lemma bound_acts (ha : Acts d v v') (h : Bound v) : Bound v' := ha.keep bound_act h

/-! ### Dialling and releasing -/

lemma dial_allBound (io : ForwardIO) (mode : PolicyMode) (h : AllBound v) :
    AllBound (View.dial io mode v d).2 := by
  intro e hm
  rcases dial_log io hm with old | ho
  · exact h e old
  · cases e <;> trivial

lemma connFree_allBound (h : AllBound v) : AllBound (View.connFree v d) := by
  unfold View.connFree
  split
  · exact allBound_note (v := v.mapSession (dropPackets · d)) h trivial
  · exact h

lemma free_allBound (h : AllBound v) : AllBound (View.free v d) := by
  have hr := connFree_allBound (d := d) (allBound_note (e := .released v.id) h trivial)
  unfold View.free
  split
  · exact hr
  · exact allBound_note (connFree_allBound hr) trivial

section

variable (io : ForwardIO)
include io

/-- A server that connects at once is bound or has no SSL. -/
lemma watchServer_bound {wait : Bool}
    (hp : ∀ x, (v.conn d.peer).ssl = some x → x.fd = some (v.conn d.peer).fd ∧ (v.request d.peer).isSome = true)
    (ha : wait = true → (v.conn d).ssl = none) (hw : (View.watchServer io wait v d).1 = 0)
    (e : Dir) (x : Ssl) (ssl : ((View.watchServer io wait v d).2.conn e).ssl = some x) :
    x.fd = some ((View.watchServer io wait v d).2.conn e).fd ∧
      ((View.watchServer io wait v d).2.request e).isSome = true := by
  rcases d.sides e with rfl | rfl
  · unfold View.watchServer at hw ssl ⊢
    split at ssl
    · next waits => simp [ha waits] at ssl
    next now =>
    rw [if_neg now] at hw ⊢
    split at ssl
    · next plain =>
      have hp' : (v.session.conns e).ssl = none := plain
      simp [hp'] at ssl
    · next hh =>
      simp only [hh] at hw
      split at ssl
      · next bad => simp [bad] at hw
      · next good =>
        rw [if_neg good]
        have he : (⟨some (v.conn e).fd⟩ : Ssl) = x := by simpa using ssl
        simp [← he]
  · have hr := watchServer_redials (v := v) (d := d) io wait
    rw [hr.peer] at ssl ⊢
    rw [hr.request]
    exact hp x ssl

lemma connectServer_ssl (mode : PolicyMode) :
    ((View.connectServer io mode v d).2.conn d).ssl = (v.conn d).ssl :=
  connectServer_keeps (P := fun v' => (v'.conn d).ssl = (v.conn d).ssl) io mode
    (fun _ h => by simpa [View.redial] using h)
    (fun _ _ _ h => by simpa [View.openSocket, View.redial] using h) rfl

/-- A wait comes from the connect. -/
lemma connectServer_wait (mode : PolicyMode) (hw : (View.connectServer io mode v d).1 = some true) :
    mode ≠ .trapt ∧ ∃ c ∈ io.connect, c.2 = true := by
  have hc : ∀ {v : View}, (View.clientNb io v d).1 = some true → ∃ c ∈ io.connect, c.2 = true := by
    intro v h
    unfold View.clientNb at h
    split at h
    · cases h
    next fd w connect =>
    split at h
    · cases h
    · exact ⟨(fd, w), connect, by simpa using h⟩
  unfold View.connectServer at hw
  split at hw
  · exact ⟨by simp, hc hw⟩
  · split at hw
    · cases hw
    · exact ⟨by simp, hc hw⟩
  · split at hw <;> simp at hw

lemma getServer_ssl (none : (v.conn d).ssl = none) (hc : (View.getServer io v d).1 = 0)
    : ((View.getServer io v d).2.conn d).ssl = .none ∨
      io.spdata = true ∧ io.server = some true ∧ io.sslAlloc = true := by
  have hn' : (v.session.conns d).ssl = .none := none
  unfold View.getServer at hc ⊢
  split at hc
  · cases hc
  next spdata =>
  rw [if_neg spdata]
  split at hc
  · cases hc
  next usesSsl server =>
  simp only [server]
  split at hc
  · next plain => simp [plain, hn']
  next ssl =>
  split at hc
  · cases hc
  next alloc => exact .inr ⟨by simpa using spdata, by simpa using ssl, by simpa using alloc⟩

lemma dial_bound (mode : PolicyMode) (h : Bound v) (none : (v.conn d).ssl = none)
    (ha : io.spdata = true → io.server = some true → io.sslAlloc = true → mode ≠ .trapt → ∀ c ∈ io.connect, c.2 = false)
    (hd : (View.dial io mode v d).1 = 0) : Bound (View.dial io mode v d).2 := by
  refine ⟨dial_allBound io mode h.uses, ?_⟩
  have redials2 := redials_trans (getServer_redials (v := v) (d := d) io) (connectServer_redials io mode)
  have ssl2 := connectServer_ssl (v := (View.getServer io v d).2) (d := d) io mode
  have hw := connectServer_wait (v := (View.getServer io v d).2) (d := d) io mode
  revert hd
  apply dial_cases (P := fun r => r.1 = 0 → ∀ e x, (r.2.conn e).ssl = some x →
    x.fd = some (r.2.conn e).fd ∧ (r.2.request e).isSome = true) io mode
  · exact fun bad => by cases bad
  · exact fun _ _ bad => by cases bad
  · intro wait v2 hf connected hd
    rw [connected] at redials2 ssl2 hw
    refine watchServer_bound io (fun x ssl => ?_) (fun waiting => ?_) hd
    · rw [redials2.peer] at ssl ⊢
      rw [redials2.request]
      exact h.bound d.peer x ssl
    · subst waiting
      obtain ⟨hn, c, hc, hp⟩ := hw rfl
      rw [ssl2]
      rcases getServer_ssl io none hf with plain | ⟨spdata, hs, alloc⟩
      · exact plain
      · rw [ha spdata hs alloc hn c hc] at hp
        cases hp

end

lemma forward_bound {io : TaskIO} (h : Bound v) (hs : Sound v)
    (hk : (v.conn d).task.kind = .parse) (ok : connectsAtOnce.task v d io)
    (hf : (View.forwarded io.forward v d).1 = 0) : Bound (View.forwarded io.forward v d).2 := by
  have hj := bound_acts (joined_acts (d := d)) h
  obtain ⟨mode, hp⟩ := forwarded_policy hf
  by_cases ho : (v.conn d.peer).fd > 0
  · rw [forward_connected io.forward ho hp]
    exact hj
  · rw [forward_dials io.forward ho hp] at hf ⊢
    refine dial_bound io.forward mode hj ?_ (fun spdata server ha hn => ?_) hf
    · -- a connection without a descriptor has no SSL object
      have hu : v.request d.peer = none := by simpa [ho] using hs.request d.peer
      rw [joined_peer]
      cases ssl : (v.conn d.peer).ssl with
      | none => rfl
      | some x => simpa [hu] using (h.bound d.peer x ssl).2
    · exact ok hk ho spdata server ha (by rw [hp]; simpa using hn)

lemma forward_allBound (io : ForwardIO) (h : AllBound v) : AllBound (View.forward io v d).2 := by
  unfold View.forward
  split
  · exact h
  · dsimp only
    split
    · exact h
    · exact dial_allBound (v := v.mapSession (·.joinOutput d)) io _ h

lemma accepted_bound {v : View} (l : ListenerFd) (fd : Nat) (h : AllBound v) : Bound (accepted v l fd) := by
  refine ⟨fun e hm => ?_, fun d x ssl => ?_⟩
  · have hm' : e ∈ v.log ∨ e ∈ opening v.id fd l.sslctx ∨ e = .accepted v.id fd := by
      simpa [accepted] using hm
    rcases hm' with old | ho | rfl
    · exact h e old
    · have ho' : e = .sockOpen v.id fd ∨ l.sslctx = true ∧ e = .sslAlloc v.id .client := by
        simpa [opening] using ho
      rcases ho' with rfl | ⟨-, rfl⟩ <;> trivial
    · trivial
  · cases d with
    | client =>
      cases hl : l.sslctx <;>
        simp [accepted, acceptedSession, hl, sessionInit, connInit] at ssl ⊢
      simp [← ssl]
    | server => simp [accepted, acceptedSession, sessionInit, connInit] at ssl

lemma refused_allBound {v v' : View} (h : AllBound v) (hr : Refuses v v') : AllBound v' := by
  obtain ⟨fd, ssl, log⟩ := hr.log
  unfold AllBound
  rw [log]
  intro e hm
  rcases List.mem_append.mp hm with old | new
  · exact h e old
  · unfold opening refusing at new
    cases ssl <;> simp at new
    · rcases new with rfl | rfl | rfl <;> trivial
    · rcases new with rfl | rfl | rfl | rfl | rfl <;> trivial

lemma connectsAtOnce_serves : Serves Bound AllBound connectsAtOnce where
  start _ _ empty := by
    unfold AllBound
    rw [empty]
    exact fun _ no => absurd no List.not_mem_nil
  accept h _ _ := accepted_bound _ _ h
  refuse h _ refuses := refused_allBound h refuses
  deliver h _ _ _ := bound_act (d := .client) (.edit (deliver_edits _ _)) h
  late h := h
  call h hc _ := bound_acts (call_acts _ _ _ hc.opened) h
  idle h _ _ := bound_acts taken_acts h
  delete h _ _ _ := free_allBound (bound_acts taken_acts h).uses
  forward {v d io} h _ _ _ _ := by
    have hp : AllBound (View.parsed v d) :=
      (bound_acts (taken_acts (d := d)) h).uses
    exact free_allBound (forward_allBound io.forward hp)
  parse {v d io} h hs hk ok forwarded := by
    have sent := bound_acts (send_acts (d := d.peer) io.send) (forward_bound h hs hk ok forwarded)
    exact ⟨fun _ => free_allBound sent.uses, fun _ => sent⟩
  send {v d io} h _ _ _ := by
    have sent := bound_acts (send_acts (d := d) io.send) (bound_acts (taken_acts (d := d)) h)
    exact ⟨fun _ => free_allBound sent.uses, fun _ => sent⟩
  closed h _ := free_allBound h.uses
  free h _ _ := free_allBound h.uses
  rest {v d} h _ _ := by
    have ht : AllBound (View.taken v d) := allBound_note (v := v.mapConn d _) h trivial
    exact free_allBound ht
  again h _ _ _ := free_allBound h

/-! ## Every run -/

lemma bound_of_lives {w : Worker} (hl : ∀ s, Lives Bound AllBound (view w s)) :
    ∀ e ∈ w.log, BoundUse e := by
  intro e hm
  cases e with
  | sslUse s d hb fd =>
    have seen : Event.sslUse s d hb fd ∈ (view w s).log := by
      simpa [view, noted, about] using hm
    rcases hl s with ⟨-, hs⟩ | ⟨hg, -⟩
    · exact hs.uses _ seen
    · exact hg _ seen
  | _ => trivial

/-- In every run without a pending connect to an SSL server, every OpenSSL call on a
connection is made on an object that is bound to the connection's descriptor. -/
theorem ssl_bound_before_use (maxfd naccept : Nat) (opened : Nat → Bool) {actions : List Action}
    (along : Along workerStep connectsAtOnce.allow actions (Worker.start maxfd naccept opened)) :
    Ensures (runWorker actions) (Worker.start maxfd naccept opened)
      (fun _ w => ∀ e ∈ w.log, BoundUse e) (fun _ _ => True) :=
  (connectsAtOnce_serves.kept.run maxfd naccept opened along).imp_true
    (fun _ _ h => bound_of_lives h.2)

/-- A plain client, and an SSL server whose connect is pending or not. -/
def sslServer (wait : Bool) : List Action :=
  acceptRound .reverse false ++ .deliver 0 .client [7, 9] false ::
    polls [((4, epollIn), receives 2)] ++ .runTask (relays true wait maxPktLen) ::
    polls [((5, epollOut), willing)]

theorem ssl_bound_before_use_sslServer :
    Along workerStep connectsAtOnce.allow (sslServer false) (Worker.start 16 1 fun _ => false) ∧
    Ensures (runWorker (sslServer false)) (Worker.start 16 1 fun _ => false)
      (fun _ w => ∀ e ∈ w.log, BoundUse e) (fun _ _ => True) :=
  ⟨by decide +kernel, ssl_bound_before_use 16 1 (fun _ => false) (by decide +kernel)⟩

/-- The server's connect is pending; once it is there, the handshake starts on an SSL object
without a descriptor. -/
theorem handshake_unbound : Ensures (runWorker (sslServer true)) emptyWorker
      (fun _ w => ¬ ∀ e ∈ w.log, BoundUse e) (fun _ _ => False) := by
  have uses : Ensures (runWorker (sslServer true)) emptyWorker
      (fun _ w => .sslUse 0 .server none 5 ∈ w.log) (fun _ _ => False) := by decide +kernel
  refine uses.imp (fun _ w hu all => ?_)
  cases all _ hu

end Fzsvn.Guarantees.Proxy.SslBinding
