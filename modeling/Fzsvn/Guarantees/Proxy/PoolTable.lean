import Fzsvn.Guarantees.Proxy.ConfigSteps
import Fzsvn.Guarantees.Proxy.ServerRefs
import Fzsvn.Source.Proxy.PoolTable

/-!
# Server pools and their tables

`svrpool_alloc_data` fills a table of `MAX_SERVER` entries, and nothing before it limits the
number of servers in a pool. A pool fits if and only if it has at most `MAX_SERVER` servers,
and the pools of an accepted file have exactly as many servers as their sections have
`server` lines. The call as a whole makes the table that its single steps make
(`svrpoolAllocData_steps`).
-/
namespace Fzsvn.Guarantees.Proxy.PoolTable
open Library.Fallible Source.Config Source.Netutil Source.Proxy.PoolTable ConfigSteps List
open Source.Proxy.Servers (Answers Fault Instr Obj State World calcGcd maxServer)
open ServerRefs (Reaches noAnswers set_self set_world step_run)
open Function (update)

/-! ## One pool -/

/-- Whatever the allocators answer, only entries of the table are written, and a table that
is returned has all of its servers. -/
def FitsTable (sp : Svrpool) : Prop :=
  ∀ calloc answers,
    (∀ index, svrpoolAllocData sp calloc answers ≠ .error (.outOfBounds index)) ∧
    ∀ table, svrpoolAllocData sp calloc answers = .ok (some table) →
      ∀ i < table.nserver, ∃ svrdata, table.servers[i]? = some (some svrdata)

variable {answers : Nat → Answer} {svrs : List Server} {servers : List (Option ServerData)}

lemma fillServers_fits (hr : servers.length + svrs.length ≤ maxServer) :
    ∃ entries, fillServers answers svrs servers = .ok entries := by
  induction svrs generalizing servers with
  | nil => exact ⟨servers, rfl⟩
  | cons svr rest ih =>
    rw [length_cons] at hr
    rw [fillServers, if_pos (by omega)]
    apply ih
    rw [length_append, length_singleton]
    omega

lemma fillServers_overflows (most : servers.length ≤ maxServer)
    (hm : maxServer < servers.length + svrs.length) :
    fillServers answers svrs servers = .error (.outOfBounds maxServer) := by
  induction svrs generalizing servers with
  | nil =>
    rw [length_nil] at hm
    omega
  | cons svr rest ih =>
    rw [length_cons] at hm
    rw [fillServers]
    split_ifs with hr
    · apply ih
      · rw [length_append, length_singleton]
        exact hr
      · rw [length_append, length_singleton]
        omega
    · rw [Nat.le_antisymm most (Nat.not_lt.mp hr)]

/-- A `NULL` entry does not survive the loop over the weights. -/
lemma mapM_entryWeight {weights : List Int} (hr : servers.mapM entryWeight = .ok weights) :
    ∀ entry ∈ servers, entry ≠ none := by
  induction servers generalizing weights with
  | nil => exact nofun
  | cons entry rest ih =>
    rw [mapM_cons] at hr
    cases entry with
    | none => cases hr
    | some svrdata =>
      cases hl : rest.mapM entryWeight with
      | error fault =>
        rw [hl] at hr
        cases hr
      | ok weights' =>
        intro entry hm
        rcases mem_cons.mp hm with rfl | old
        · exact nofun
        · exact ih hl entry old

lemma mapM_entryWeight_bounds {index : Int} : servers.mapM entryWeight ≠ .error (.outOfBounds index) := by
  induction servers with
  | nil => exact nofun
  | cons entry rest ih =>
    rw [mapM_cons]
    cases entry with
    | none => exact nofun
    | some svrdata =>
      intro hr
      apply ih
      cases hl : rest.mapM entryWeight with
      | error fault =>
        rw [hl] at hr
        cases hr
        rfl
      | ok weights =>
        rw [hl] at hr
        cases hr

variable {sp : Svrpool} {calloc : Bool}

lemma svrpoolAllocData_overflows (hm : maxServer < sp.svrlist.length) :
    svrpoolAllocData sp true answers = .error (.outOfBounds maxServer) := by
  have ho : fillServers answers sp.svrlist [] = .error (.outOfBounds maxServer) := by
    apply fillServers_overflows
    · exact Nat.zero_le _
    · rw [length_nil, Nat.zero_add]
      exact hm
  rw [svrpoolAllocData, ho]
  rfl

lemma svrpoolAllocData_bounds (few : sp.svrlist.length ≤ maxServer) (index : Int) :
    svrpoolAllocData sp calloc answers ≠ .error (.outOfBounds index) := by
  cases calloc with
  | false => exact nofun
  | true =>
    have hr : ([] : List (Option ServerData)).length + sp.svrlist.length ≤ maxServer := by
      rw [length_nil, Nat.zero_add]
      exact few
    obtain ⟨entries, filled⟩ := fillServers_fits hr
    rw [svrpoolAllocData, filled]
    intro hf
    cases read : entries.mapM entryWeight with
    | error fault =>
      have he : fault = .outOfBounds index := by
        simpa [read, bind, Except.bind] using hf
      exact mapM_entryWeight_bounds (he ▸ read)
    | ok weights => simp [read, bind, Except.bind, pure, Except.pure] at hf

lemma svrpoolAllocData_complete {table : SvrpoolData}
    (hr : svrpoolAllocData sp calloc answers = .ok (some table)) :
    ∀ i < table.nserver, ∃ svrdata, table.servers[i]? = some (some svrdata) := by
  revert hr
  suffices complete : Gives (svrpoolAllocData sp calloc answers) fun result =>
      ∀ table ∈ result, ∀ i < table.nserver, ∃ svrdata, table.servers[i]? = some (some svrdata) from
    fun hr => complete (some table) hr table rfl
  unfold svrpoolAllocData
  split_ifs
  · exact (gives_ok none).mpr nofun
  · simp only [gives_bind, gives_pure]
    rintro entries - weights read table ⟨⟩ i hb
    obtain ⟨svrdata, he⟩ := Option.ne_none_iff_exists'.mp
      (mapM_entryWeight read entries[i] (getElem_mem hb))
    exact ⟨svrdata, by rw [getElem?_eq_getElem hb, he]⟩

lemma fitsTable_iff : FitsTable sp ↔ sp.svrlist.length ≤ maxServer := by
  constructor
  · intro hf
    by_contra hm
    apply (hf true fun _ => { calloc := true, sslctx := true }).1 maxServer
    exact svrpoolAllocData_overflows (Nat.not_le.mp hm)
  · intro few calloc answers
    constructor
    · exact svrpoolAllocData_bounds few
    · exact fun table hr => svrpoolAllocData_complete hr

/-! ## The same call, step by step -/

section

variable {T : Type} [DecidableEq T] {w : World} {s : State T} {t : T} {held : List Obj} {p q : Nat} {sp : Svrpool}

/-- The pool of the configuration is the pool in memory. -/
structure Stands (sp : Svrpool) (w : World) (p : Nat) : Prop where
  pool : .pool p ∈ w.alive
  servers : Forall₂ (fun svr a => Obj.server a ∈ w.alive ∧ (w.server a).weight = svr.weight ∧
    (w.server a).ssl = svr.ssl) sp.svrlist (w.pool p).svrlist

/-- An entry of the table in memory has the server that the entry of the other table has. -/
def SameEntry (w : World) (entry : Option Nat) (svrdata : Option ServerData) : Prop :=
  ∃ d a data, entry = some d ∧ svrdata = some data ∧ .data d ∈ w.alive ∧ (w.data d).server = some a ∧
    .server a ∈ w.alive ∧ (w.server a).weight = data.server.weight

/-- Some entries are filled in. -/
structure Filling (sp : Svrpool) (w : World) (p q : Nat) (servers : List (Option ServerData)) : Prop where
  stands : Stands sp w p
  table : .table q ∈ w.alive
  entries : Forall₂ (SameEntry w) (w.table q).servers servers

/-- The world with one entry more. -/
def entered (w : World) (q a d : Nat) : World :=
  { (w.add (.server a)) with
    alive := insert (.data d) w.alive
    data := update w.data d { server := some a, refcnt := 0 }
    table := update w.table q { w.table q with servers := (w.table q).servers ++ [some d] } }

lemma entered_server (w : World) (q a d i : Nat) : ((entered w q a d).server i).weight = (w.server i).weight ∧
    ((entered w q a d).server i).ssl = (w.server i).ssl := by
  by_cases same : i = a <;> simp [entered, World.add, World.setRefcnt, same]

lemma Filling.enter (filling : Filling sp w p q servers) {svr : Server} {a d : Nat} {answer : Answer}
    (isNext : sp.svrlist[servers.length]? = some svr) (linked : (w.pool p).svrlist[servers.length]? = some a)
    (allocated : serverAllocData svr answer ≠ none) (fresh : .data d ∉ w.alive) :
    Filling sp (entered w q a d) p q (servers ++ [serverAllocData svr answer]) := by
  obtain ⟨stands, table, entries⟩ := filling
  obtain ⟨data, isData⟩ := Option.ne_none_iff_exists'.mp allocated
  have isServer : data.server = svr := by
    unfold serverAllocData at isData
    split_ifs at isData
    cases isData
    rfl
  obtain ⟨alive, weight, -⟩ : Obj.server a ∈ w.alive ∧ (w.server a).weight = svr.weight ∧
      (w.server a).ssl = svr.ssl := by
    obtain ⟨below, rfl⟩ := List.getElem?_eq_some_iff.mp isNext
    obtain ⟨below', rfl⟩ := List.getElem?_eq_some_iff.mp linked
    exact stands.servers.get below below'
  have kept : ∀ x ∈ w.alive, x ∈ (entered w q a d).alive := fun x live => Finset.mem_insert_of_mem live
  refine ⟨⟨kept _ stands.pool, ?_⟩, kept _ table, ?_⟩
  · refine stands.servers.imp fun svr i known => ?_
    rw [(entered_server ..).1, (entered_server ..).2]
    exact ⟨kept _ known.1, known.2⟩
  · have written : ((entered w q a d).table q).servers = (w.table q).servers ++ [some d] := by
      simp [entered]
    rw [written]
    refine rel_append (entries.imp ?_) (.cons ?_ .nil)
    · rintro entry svrdata ⟨d', a', data', rfl, rfl, live, server, served, same⟩
      have other : d' ≠ d := fun same => fresh (same ▸ live)
      refine ⟨d', a', data', rfl, rfl, kept _ live, ?_, kept _ served, (entered_server ..).1.trans same⟩
      simp [entered, other, server]
    · refine ⟨d, a, data, rfl, isData, Finset.mem_insert_self .., ?_, kept _ alive, ?_⟩
      · simp [entered]
      · rw [(entered_server ..).1, weight, isServer]

lemma fill_run (filling : Filling sp w p q servers) {a d : Nat}
    (linked : (w.pool p).svrlist[servers.length]? = some a) (room : servers.length < maxServer) :
    (Instr.fill p q).run w held ⟨none, some d, true⟩ = .ok (entered w q a d, held, [.fill p q]) := by
  obtain ⟨stands, table, entries⟩ := filling
  have alive : Obj.server a ∈ w.alive := by
    obtain ⟨below, rfl⟩ := List.getElem?_eq_some_iff.mp linked
    exact (stands.servers.get (stands.servers.length_eq ▸ below) below).1
  simp only [Instr.run, World.access, if_pos stands.pool, if_pos table, if_pos alive, entries.length_eq, linked,
    bind, Except.bind, Bool.not_true, Bool.and_false, Bool.false_eq_true, if_false]
  have fits : (w.table q).servers.length < maxServer := entries.length_eq ▸ room
  rw [World.putEntry]
  split_ifs with isRoom
  · rfl
  · exact absurd fits isRoom

lemma exists_fresh (w : World) {make : Nat → Obj} (distinct : make.Injective) : ∃ d, make d ∉ w.alive := by
  obtain ⟨_, ⟨d, rfl⟩, fresh⟩ := (Set.infinite_range_of_injective distinct).exists_notMem_finset w.alive
  exact ⟨d, fresh⟩

lemma fillServers_keeps {entries : List (Option ServerData)}
    (filled : fillServers answers svrs servers = .ok entries) : servers <+: entries := by
  induction svrs generalizing servers with
  | nil =>
    cases filled
    exact prefix_rfl
  | cons svr rest ih =>
    rw [fillServers] at filled
    split_ifs at filled
    exact (prefix_append _ _).trans (ih filled)

/-- The loop, one step of the thread for each server. -/
lemma fillServers_steps {entries : List (Option ServerData)} (filling : Filling sp s.world p q servers)
    (left : sp.svrlist.drop servers.length = svrs) (called : s.threads t = ⟨held, [.fill p q]⟩)
    (filled : fillServers answers svrs servers = .ok entries) (all : ∀ entry ∈ entries, entry ≠ none) :
    ∃ s', Reaches (fun _ _ => True) s s' ∧ s'.threads t = ⟨held, [.fill p q]⟩ ∧
      Filling sp s'.world p q entries ∧ sp.svrlist.length ≤ entries.length := by
  induction svrs generalizing s servers with
  | nil =>
    cases filled
    exact ⟨s, .start, called, filling, drop_eq_nil_iff.mp left⟩
  | cons svr rest ih =>
    have isNext : sp.svrlist[servers.length]? = some svr := by
      have first := congrArg (·[0]?) left
      simpa using first
    have below := (List.getElem?_eq_some_iff.mp isNext).1
    obtain ⟨a, linked⟩ : ∃ a, (s.world.pool p).svrlist[servers.length]? = some a :=
      ⟨_, getElem?_eq_getElem (filling.stands.servers.length_eq ▸ below)⟩
    rw [fillServers] at filled
    split_ifs at filled with room
    have kept := fillServers_keeps filled
    obtain ⟨d, fresh⟩ := exists_fresh s.world fun _ _ => Obj.data.inj
    have allocated : serverAllocData svr (answers servers.length) ≠ none :=
      all _ (kept.subset (mem_append_right _ (mem_singleton_self _)))
    have stepped : s.step (.run t ⟨none, some d, true⟩) =
        some (.ok (s.set t (entered s.world q a d) held [.fill p q])) := by
      simp only [State.step, called, fill_run filling linked room]
      rw [if_pos ⟨by simp, fun i same => by cases same; exact fresh⟩]
      rfl
    have further := filling.enter isNext linked allocated fresh
    obtain ⟨s', reached, done⟩ := ih further (by simp [← drop_drop, left]) (set_self ..) filled
    exact ⟨s', (Reaches.start.step _ trivial stepped).trans reached, done⟩

lemma weights_same {ids : List (Option Nat)} (same : Forall₂ (SameEntry w) ids servers) :
    ids.mapM w.weight = servers.mapM entryWeight := by
  induction same with
  | nil => rfl
  | cons entry rest ih =>
    obtain ⟨d, a, data, rfl, rfl, live, server, served, same⟩ := entry
    have weighed : w.weight (some d) = entryWeight (some data) := by
      simp only [World.weight, World.access, if_pos live, if_pos served, server, same, entryWeight, bind,
        Except.bind]
      rfl
    rw [mapM_cons, mapM_cons, weighed, ih]

/-- The table in memory is the one that the call returns. -/
structure SameTable (w : World) (q : Nat) (table : SvrpoolData) : Prop where
  entries : Forall₂ (SameEntry w) (w.table q).servers table.servers
  nserver : (w.table q).nserver = table.nserver
  gcd : (w.table q).gcd = table.gcd

/-- Where the call as a whole returns a table, the steps of a thread lead to the same table. -/
theorem svrpoolAllocData_steps {table : SvrpoolData} (stands : Stands sp s.world p)
    (called : s.threads t = ⟨held, [.allocTable p]⟩)
    (made : svrpoolAllocData sp true answers = .ok (some table)) :
    ∃ s' q, Reaches (fun _ _ => True) s s' ∧ s'.threads t = ⟨.table q :: held, []⟩ ∧
      SameTable s'.world q table := by
  obtain ⟨entries, filled, weights, weighed, rfl⟩ : ∃ entries, fillServers answers sp.svrlist [] = .ok entries ∧
      ∃ weights, entries.mapM entryWeight = .ok weights ∧
        table = ⟨entries, entries.length, UInt32.ofInt (calcGcd weights)⟩ := by
    unfold svrpoolAllocData at made
    cases filled : fillServers answers sp.svrlist [] with
    | error fault => simp [filled, bind, Except.bind] at made
    | ok entries =>
      cases weighed : entries.mapM entryWeight with
      | error fault => simp [filled, weighed, bind, Except.bind] at made
      | ok weights =>
        simp only [filled, weighed, bind, Except.bind] at made
        cases made
        exact ⟨entries, rfl, weights, weighed, rfl⟩
  obtain ⟨q, fresh⟩ := exists_fresh s.world fun _ _ => Obj.table.inj
  let begun := s.set t { (s.world.setTable q ⟨[], 0, 0, 0, 0⟩) with alive := insert (.table q) s.world.alive }
    held [.fill p q]
  have first : s.step (.run t ⟨some q, none, false⟩) = some (.ok begun) := by
    simp only [State.step, called, Instr.run]
    rw [if_pos ⟨fun i same => by cases same; exact fresh, by simp⟩]
    rfl
  have empty : Filling sp begun.world p q [] := by
    refine ⟨⟨Finset.mem_insert_of_mem stands.pool, stands.servers.imp fun svr i known => ?_⟩,
      Finset.mem_insert_self .., ?_⟩
    · exact ⟨Finset.mem_insert_of_mem known.1, known.2⟩
    · simp [begun, World.setTable]
  obtain ⟨s', reached, thread, filling, done⟩ :=
    fillServers_steps empty rfl (set_self ..) filled (mapM_entryWeight weighed)
  have none : (s'.world.pool p).svrlist[(s'.world.table q).servers.length]? = none := by
    rw [getElem?_eq_none_iff, filling.entries.length_eq, ← filling.stands.servers.length_eq]
    exact done
  let full := { s'.world.table q with
    nserver := (s'.world.table q).servers.length, gcd := UInt32.ofInt (calcGcd weights) }
  have ran : (Instr.fill p q).run s'.world (s'.threads t).held noAnswers =
      .ok (s'.world.setTable q full, .table q :: held, []) := by
    rw [thread]
    simp only [Instr.run, World.access, if_pos filling.stands.pool, if_pos filling.table, none, bind, Except.bind,
      weights_same filling.entries, weighed]
    rfl
  have last := step_run (t := t) (by rw [thread]) ran
  refine ⟨_, q, ((Reaches.start.step _ trivial first).trans reached).step _ trivial last, set_self .., ?_⟩
  have written : ((s'.world.setTable q full).table q) = full := by simp [World.setTable]
  rw [set_world]
  constructor <;> rw [written]
  · exact filling.entries
  · exact filling.entries.length_eq

end

/-! ## The pools of a file -/

/-- The number of `server` lines of each `[svrpool]` section so far, and whether such a
section is open. -/
structure Tally where
  counts : List Nat
  inPool : Bool

def Tally.line (t : Tally) (kw : Text) : Tally :=
  if kw = "[svrpool]".toList then { counts := t.counts ++ [0], inPool := true }
  else if kw ∈ headers then { t with inPool := false }
  else if t.inPool ∧ kw = "server".toList then
    { t with counts := t.counts.modify (t.counts.length - 1) (· + 1) }
  else t

/-- The number of `server` lines of each `[svrpool]` section of a file. -/
def serverLines (content : Text) : List Nat :=
  ((keywords content).foldl Tally.line { counts := [], inPool := false }).counts

def inPool : Section → Bool
  | .svrpool _ => true
  | _ => false

structure Agrees (t : Tally) (py : Proxy) (sect : Section) : Prop where
  counts : t.counts = py.splist.map (·.svrlist.length)
  opened : t.inPool = inPool sect
  last : ∀ i, sect = .svrpool i → i + 1 = py.splist.length

variable {t : Tally} {kw : Text}

lemma Tally.line_header (hh : kw ∈ headers) (ho : kw ≠ "[svrpool]".toList) :
    t.line kw = { t with inPool := false } := by
  rw [Tally.line, if_neg ho, if_pos hh]

lemma Tally.line_inside (hi : kw ∉ headers) (idle : ¬ (t.inPool ∧ kw = "server".toList)) :
    t.line kw = t := by
  have ho : kw ≠ "[svrpool]".toList := by
    rintro rfl
    exact hi (by decide)
  rw [Tally.line, if_neg ho, if_neg hi, if_neg idle]

/-- A pool that keeps its servers. -/
lemma map_length_set {sps : List Svrpool} {i : Nat} {sp sp' : Svrpool}
    (entry : sps[i]? = some sp) (servers : sp'.svrlist = sp.svrlist) :
    (sps.set i sp').map (·.svrlist.length) = sps.map (·.svrlist.length) := by
  apply ext_getElem?
  intro j
  rw [map_set, getElem?_set, getElem?_map]
  split_ifs with he hb
  · subst j
    rw [entry, Option.map_some, servers]
  · subst j
    rw [length_map] at hb
    rw [getElem?_eq_none (Nat.not_lt.mp hb), Option.map_none]
  · rfl

variable {py py' : Proxy} {sect sect' : Section}

lemma Agrees.closed (hh : Agrees t py sect) (sect' : Section) (ho : inPool sect' = false) :
    Agrees { t with inPool := false } py sect' where
  counts := hh.counts
  opened := ho.symm
  last i same := by
    subst sect'
    cases ho

/-- Outside of the pools only the reference count of a pool can change. -/
lemma Agrees.outside (hh : Agrees t py sect) (ho : inPool sect = false) (hi : kw ∉ headers)
    (hp : py'.splist.map (·.svrlist.length) = py.splist.map (·.svrlist.length)) :
    Agrees (t.line kw) py' sect := by
  have idle : ¬ (t.inPool ∧ kw = "server".toList) := by
    rw [hh.opened, ho]
    exact fun hb => Bool.false_ne_true hb.1
  rw [Tally.line_inside hi idle]
  refine ⟨hh.counts.trans hp.symm, hh.opened, ?_⟩
  rintro i rfl
  cases ho

lemma LineStep.agrees (hs : LineStep py sect kw py' sect') (hh : Agrees t py sect) :
    Agrees (t.line kw) py' sect' := by
  cases hs with
  | openProxy hc =>
    rw [Tally.line_header (by decide) (by decide)]
    exact hh.closed .proxy rfl
  | openCertset hc new =>
    rw [Tally.line_header (by decide) (by decide)]
    exact { hh.closed (.certset py.certlist.length) rfl with }
  | openListener hc new =>
    rw [Tally.line_header (by decide) (by decide)]
    exact { hh.closed (.listener py.ltnlist.length) rfl with }
  | openPolicy hc new =>
    rw [Tally.line_header (by decide) (by decide)]
    exact { hh.closed (.policy py.pllist.length) rfl with }
  | openSvrpool hc new =>
    cases new
    rw [Tally.line, if_pos rfl]
    refine ⟨?_, rfl, ?_⟩
    · rw [map_append, hh.counts]
      rfl
    · rintro i ⟨⟩
      rw [length_append, length_singleton]
  | proxy cfg hi => exact hh.outside rfl hi rfl
  | certset hi hl =>
    cases hl with
    | set entry hn => exact hh.outside rfl hi rfl
  | listener hi hl =>
    cases hl with
    | set entry hn cert => exact hh.outside rfl hi rfl
    | certset entry hf => exact hh.outside rfl hi rfl
  | policy hi hl =>
    cases hl with
    | set entry hn listener svrpool => exact hh.outside rfl hi rfl
    | listener entry hf hu => exact hh.outside rfl hi rfl
    | svrpool entry hf => exact hh.outside rfl hi (map_length_set hf rfl)
  | @svrpool _ i _ hi hl =>
    cases hl with
    | set entry hn servers count ho =>
      rw [Tally.line_inside hi fun hb => ho hb.2]
      refine ⟨hh.counts.trans (map_length_set entry servers).symm, hh.opened, ?_⟩
      intro j he
      rw [Proxy.setSvrpool, length_set]
      exact hh.last j he
    | @server sp entry svr hk =>
      subst hk
      rw [Tally.line, if_neg (by decide), if_neg (by decide), if_pos ⟨hh.opened, rfl⟩]
      refine ⟨?_, hh.opened, ?_⟩
      · have hp : t.counts.length - 1 = i := by
          rw [hh.counts, length_map, ← hh.last i rfl, Nat.add_sub_cancel]
        rw [hp, hh.counts, Proxy.setSvrpool, map_set, modify_eq_set_getElem?, getElem?_map, entry]
        simp
      · intro j he
        rw [Proxy.setSvrpool, length_set]
        exact hh.last j he

/-- Each pool of an accepted file has the servers of its section. -/
lemma cfgLoadFile_servers {inet : Inet} {calloc : Nat → Bool} {file content : Text} :
    Gives (cfgLoadFile inet calloc proxyAlloc file (some content)) fun py =>
      py.splist.map (·.svrlist.length) = serverLines content := by
  have hs {kws : List Text} {py : Proxy} {sect : Section} {kw : Text} {py' : Proxy}
      {sect' : Section} (hh : Agrees (kws.foldl Tally.line { counts := [], inPool := false }) py sect)
      (hm : LineStep py sect kw py' sect') :
      Agrees ((kws ++ [kw]).foldl Tally.line { counts := [], inPool := false }) py' sect' := by
    rw [foldl_append]
    exact LineStep.agrees hm hh
  have hl := @cfgLoadFile_invariant inet
    (fun kws => Agrees (kws.foldl Tally.line { counts := [], inPool := false })) calloc proxyAlloc
    file content hs ⟨rfl, rfl, nofun⟩
  exact hl.mono fun py ⟨sect, hh, _⟩ => hh.counts.symm

/-- The pools of an accepted file fit their tables if and only if no `[svrpool]` section has
more than `MAX_SERVER` lines for servers. -/
theorem pools_fit_iff (inet : Inet) (calloc : Nat → Bool) (file content : Text) (py : Proxy)
    (accepted : cfgLoadFile inet calloc proxyAlloc file (some content) = .ok py) :
    (∀ sp ∈ py.splist, FitsTable sp) ↔ ∀ n ∈ serverLines content, n ≤ maxServer := by
  rw [← cfgLoadFile_servers py accepted, forall_mem_map]
  simp only [fitsTable_iff]

/-- A pool with `n` servers. -/
def poolFile (n : Nat) : Text :=
  "[svrpool]\nname s\n".toList ++ (List.replicate n "server 1 http 10.200.2.1:80\n".toList).flatten

theorem poolFile_fits :
    ∃ py, cfgLoadFile anyAddress (fun _ => true) proxyAlloc [] (some (poolFile 2)) = .ok py ∧
      ((∀ sp ∈ py.splist, FitsTable sp) ↔ ∀ n ∈ serverLines (poolFile 2), n ≤ maxServer) := by
  obtain ⟨py, ha⟩ :
      ∃ py, cfgLoadFile anyAddress (fun _ => true) proxyAlloc [] (some (poolFile 2)) = .ok py :=
    exists_ok (by decide +kernel)
  exact ⟨py, ha, pools_fit_iff anyAddress (fun _ => true) [] (poolFile 2) py ha⟩

/-- One server more than the table has entries. -/
theorem poolFile_overflows :
    ∃ py, cfgLoadFile anyAddress (fun _ => true) proxyAlloc [] (some (poolFile 257)) = .ok py ∧
      ∃ sp ∈ py.splist, svrpoolAllocData sp true (fun _ => { calloc := true, sslctx := true }) =
        .error (.outOfBounds maxServer) := by
  obtain ⟨py, ha⟩ :
      ∃ py, cfgLoadFile anyAddress (fun _ => true) proxyAlloc [] (some (poolFile 257)) = .ok py :=
    exists_ok (by decide +kernel)
  have lines : serverLines (poolFile 257) = [257] := by decide +kernel
  have servers : 257 ∈ py.splist.map (·.svrlist.length) := by
    rw [cfgLoadFile_servers py ha, lines]
    exact mem_singleton_self 257
  obtain ⟨sp, hm, hl⟩ := mem_map.mp servers
  refine ⟨py, ha, sp, hm, svrpoolAllocData_overflows ?_⟩
  rw [hl]
  decide

end Fzsvn.Guarantees.Proxy.PoolTable
