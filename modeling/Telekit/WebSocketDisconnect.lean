import Telekit.WebSocketConnections

/-! `Disconnect` of the WebSocket adapter. The reader of a room that was removed gives
up at its next look at the registry, so nothing dialled after `Disconnect` is read
for it. But a reader that reconnects looks at the registry under `mu` and assigns
the connection under `writeMu`: a `close` of the room between the two finds nothing
to close and the room is left with an open connection. `ensureRoom` looks and
registers in one section. -/

namespace Telekit.WebSocket

open Ledger (total)

theorem occur_quiet {call : Call} {s s' : Shared} {spawned : List Thread}
    (happened : occur call s = some (s', spawned)) :
    (∀ u ∈ spawned, u.reads = none ∧ u.assigns = none) ∧ s'.rooms = s.rooms ∧
      s'.roomConns = s.roomConns ∧ s'.delivered = s.delivered := by
  cases call with
  | connect | broken =>
    cases happened
    exact ⟨by simp, rfl, rfl, rfl⟩
  | disconnect =>
    cases happened
    exact ⟨by simp [Thread.reads, Thread.assigns], rfl, rfl, rfl⟩
  | ensureRoom id =>
    simp only [occur] at happened
    split at happened
    · cases happened
    · cases happened
      exact ⟨by simp [Thread.reads, Thread.assigns], rfl, rfl, rfl⟩

structure Silent (r mark : Nat) (c : Interleaving.Config Shared Thread) : Prop where
  retired : c.shared.Retired r
  reading : ∀ t ∈ c.threads, ∀ n, t.reads = some (r, n) → n < mark
  delivered : ∀ n, (r, n) ∈ c.shared.delivered → n < mark

theorem Silent.moves {r mark : Nat} {c c' : Interleaving.Config Shared Thread} (inv : Invariant c)
    (silent : Silent r mark c) (moves : program.Moves c c') : Silent r mark c' := by
  cases moves with
  | stays => exact silent
  | @advances i choice t t' s' spawned running moved =>
    have effect := advance_effect moved
    have frame := effect.frame
    have member := List.mem_of_getElem? running
    refine ⟨frame.retired silent.retired, ?_, fun n delivered => ?_⟩
    · refine Interleaving.forall_advance silent.reading (fun _ _ _ _ holds => holds) ?_ ?_
      · intro n reads
        rcases effect.reads reads with before | active
        · exact silent.reading t member n before
        · exact absurd silent.retired (inv.registry.active active).2
      · intro u new n reads
        have last := effect.spawned_reads u new r n reads
        have inside := silent.retired.1
        omega
    · rcases effect.delivered delivered with old | reads
      · exact silent.delivered n old
      · exact silent.reading t member n reads
  | @occurs call s' spawned happened =>
    obtain ⟨quiet, rooms, roomConns, delivered⟩ := occur_quiet happened
    refine ⟨?_, fun t member n reads => ?_, fun n old => silent.delivered n (delivered ▸ old)⟩
    · unfold Shared.Retired
      rw [rooms, roomConns]
      exact silent.retired
    · rcases List.mem_append.mp member with old | new
      · exact silent.reading t old n reads
      · rw [(quiet t new).1] at reads
        cases reads

/-- No room is closed while its reader is about to give it a connection. -/
def orderly (c : Interleaving.Config Shared Thread) : Action → Bool
  | .advance i _ =>
    match c.threads[i]? with
    | some (.disconnect (.shut r _ _)) => c.threads.all fun t => t.assigns ≠ some r
    | _ => true
  | .event _ => true

def Sealed (c : Interleaving.Config Shared Thread) : Prop :=
  ∀ r, c.shared.isClosed r = true → c.shared.conn r = none ∧ ∀ t ∈ c.threads, t.assigns ≠ some r

section Sealing
variable {s s' : Shared} {t t' : Thread} {spawned : List Thread} {q : Nat}

theorem isClosed_update_back {r : Nat} {f : RoomConn → RoomConn}
    (closed : (s.update r f).isClosed q = true) (same : ∀ room, (f room).closed = room.closed) :
    s.isClosed q = true := by
  unfold Shared.isClosed at closed ⊢
  rw [Shared.update_room] at closed
  split_ifs at closed
  · cases found : s.roomConns[q]? with
    | none => simp [found] at closed
    | some room =>
      rw [found] at closed
      exact (same room).symm.trans closed
  · exact closed

theorem isClosed_closeRoom_other {r : Nat} (other : r ≠ q) :
    (s.closeRoom r).isClosed q = s.isClosed q := by
  unfold Shared.closeRoom Shared.isClosed
  rw [Shared.update_room, if_neg other]
  cases s.conn r <;> rfl

theorem Effect.closed_back (effect : Effect s t s' t' spawned) (closed : s'.isClosed q = true) :
    s.isClosed q = true ∨ ∃ rest removed, t = .disconnect (.shut q rest removed) := by
  cases effect with
  | publishes =>
    unfold Shared.isClosed at closed ⊢
    simp only [Shared.publish, List.getElem?_append] at closed
    split_ifs at closed
    · exact .inl closed
    · rw [List.getElem?_singleton] at closed
      split_ifs at closed <;> cases closed
  | @clears r n =>
    unfold Shared.clear at closed
    split_ifs at closed
    · exact .inl (isClosed_update_back closed fun _ => rfl)
    · exact .inl closed
  | @assigns r | @begins r =>
    exact .inl (isClosed_update_back closed fun _ => rfl)
  | @removes r =>
    unfold Shared.isClosed at closed ⊢
    rw [(s.removeRoom_fields r).1] at closed
    exact .inl closed
  | @shuts r rest removed pos =>
    by_cases own : r = q
    · subst own
      exact .inr ⟨rest, removed, pos⟩
    · exact .inl ((isClosed_closeRoom_other own).symm.trans closed)
  | rests | dials | discards | delivers | drops | swaps => exact .inl closed

theorem Effect.conn_none (effect : Effect s t s' t' spawned) (inside : q < s.roomConns.length)
    (empty : s.conn q = none) (idle : t.assigns ≠ some q) : s'.conn q = none := by
  have frame := effect.frame
  have others : t.room ≠ some q → s'.conn q = none := by
    intro other
    rcases frame.conn q inside other with same | lost
    · rw [same, empty]
    · exact lost
  cases effect with
  | publishes pos | swaps pos | begins pos | shuts pos =>
    subst pos
    exact others nofun
  | @clears r n pos =>
    subst pos
    by_cases own : r = q
    · subst own
      exact clear_conn inside (.inr empty)
    · exact others fun same => own (Option.some.inj same)
  | @assigns r n pos =>
    subst pos
    exact others fun same => idle same
  | @removes r =>
    unfold Shared.conn at empty ⊢
    rw [(s.removeRoom_fields r).1]
    exact empty
  | rests | dials | discards | delivers | drops => exact empty

theorem closeRoom_conn (s : Shared) (r : Nat) : (s.closeRoom r).conn r = none := by
  unfold Shared.closeRoom Shared.conn
  rw [Shared.update_room, if_pos rfl]
  cases (s.roomConns[r]?).bind RoomConn.conn with
  | none => cases s.roomConns[r]? <;> rfl
  | some n =>
    simp only [Shared.closeConn]
    cases s.roomConns[r]? <;> rfl

end Sealing

theorem Sealed.takes {c c' : Interleaving.Config Shared Thread} {a : Action} (inv : Invariant c)
    (sealed_ : Sealed c) (calm : orderly c a = true) (taken : program.Takes c a c') : Sealed c' := by
  cases taken with
  | stays => exact sealed_
  | @advances i choice t t' s' spawned running moved =>
    have effect := advance_effect moved
    have member := List.mem_of_getElem? running
    intro q closed
    rcases effect.closed_back closed with before | ⟨rest, removed, rfl⟩
    · obtain ⟨empty, idle⟩ := sealed_ q before
      have inside : q < c.shared.roomConns.length := by
        by_contra outside
        simp [Shared.isClosed, List.getElem?_eq_none (not_lt.mp outside)] at before
      refine ⟨effect.conn_none inside empty (idle t member), ?_⟩
      refine Interleaving.forall_advance idle (fun _ _ _ _ holds => holds) (fun assigns => ?_)
        fun u new assigns => ?_
      · rw [(inv.registry.active (effect.assigns_active assigns)).1] at before
        cases before
      · rw [effect.spawned_assigns u new] at assigns
        cases assigns
    · simp only [orderly, running, List.all_eq_true, decide_eq_true_eq] at calm
      cases moved
      exact ⟨closeRoom_conn _ q, Interleaving.forall_advance calm (fun _ _ _ _ holds => holds)
        (by rintro ⟨⟩) (by simp)⟩
  | occurs happened =>
    obtain ⟨quiet, _, roomConns, _⟩ := occur_quiet happened
    intro q closed
    unfold Shared.isClosed at closed
    rw [roomConns] at closed
    obtain ⟨empty, idle⟩ := sealed_ q closed
    refine ⟨?_, fun u member assigns => ?_⟩
    · unfold Shared.conn at empty ⊢
      rw [roomConns]
      exact empty
    · rcases List.mem_append.mp member with old | new
      · exact idle u old assigns
      · rw [(quiet u new).2] at assigns
        cases assigns

theorem run_sealed (actions : List Action) (calm : program.along orderly ⟨{}, []⟩ actions = true) :
    Sealed (run actions) := by
  refine (program.run_along_keeps (fun c => Invariant c ∧ Sealed c) orderly ?_
    ⟨run_invariant [], by simp [Sealed, Shared.isClosed, run]⟩ actions calm).2
  rintro c a c' ⟨inv, sealed_⟩ calm taken
  exact ⟨inv.moves taken.moves, sealed_.takes inv calm taken⟩

theorem HeldOnce.owner {s : Shared} {threads : List Thread} (held : HeldOnce s threads) {n : Nat}
    (inside : n < s.conns.length) (finished : ∀ t ∈ threads, t.hand ≠ some n) :
    s.conns[n]? = some false ∨ ∃! r, s.conn r = some n := by
  have idle : total (Thread.inHand n) threads = 0 :=
    Ledger.total_eq_zero fun t member => if_neg (finished t member)
  have found := List.getElem?_eq_getElem inside
  cases opened : s.conns.get ⟨n, inside⟩ with
  | false => exact .inl (found.trans (congrArg some opened))
  | true =>
    have one := held.kept n (found.trans (congrArg some opened))
    unfold count at one
    rw [idle, Int.add_zero] at one
    refine .inr ?_
    have some_holds : ∃ r, s.conn r = some n := by
      by_contra nobody
      have none_hold : total (RoomConn.holds n) s.roomConns = 0 := by
        apply Ledger.total_eq_zero
        intro room member
        obtain ⟨r, present⟩ := List.mem_iff_getElem?.mp member
        exact if_neg fun holds => nobody ⟨r, (conn_of_present present).trans holds⟩
      omega
    obtain ⟨r, holds⟩ := some_holds
    refine ⟨r, holds, fun q other => ?_⟩
    by_contra different
    have weight : ∀ {k : Nat}, s.conn k = some n → ∃ room, s.roomConns[k]? = some room ∧
        room.holds n = 1 := by
      intro k conn
      obtain ⟨room, present, holds⟩ := Option.bind_eq_some_iff.mp conn
      exact ⟨room, present, if_pos holds⟩
    obtain ⟨first, present, weighs⟩ := weight other
    obtain ⟨second, present', weighs'⟩ := weight holds
    have two := Ledger.add_le_total (fun room _ => RoomConn.holds_nonneg n room) different present
      present'
    omega

structure Tidy (c : Interleaving.Config Shared Thread) : Prop where
  registered : ∀ r q room other, c.shared.roomConns[r]? = some room →
    c.shared.roomConns[q]? = some other → room.id = other.id →
    c.shared.isRegistered r = true → c.shared.isRegistered q = true → r = q
  held : ∀ n < c.shared.conns.length, (∀ t ∈ c.threads, t.hand ≠ some n) →
    c.shared.conns[n]? = some false ∨ ∃! r, c.shared.conn r = some n

theorem run_tidy (actions : List Action) : Tidy (run actions) := by
  refine ⟨fun r q room other present present' same first second => ?_,
    fun n inside finished => (run_invariant actions).held.owner inside finished⟩
  simp only [Shared.isRegistered, present, present', same, decide_eq_true_eq] at first second
  exact Option.some.inj (first.symm.trans second)

theorem run_append (actions later : List Action) :
    run (actions ++ later) = program.run (run actions) later :=
  program.run_append _ actions later

theorem run_silent (actions later : List Action) {r n : Nat}
    (retired : (run actions).shared.Retired r)
    (delivered : (r, n) ∈ (run (actions ++ later)).shared.delivered) :
    n < (run actions).shared.conns.length := by
  have inv := run_invariant actions
  have start : Silent r (run actions).shared.conns.length (run actions) :=
    ⟨retired, fun t member m reads => (inv.threads t member).reads_known reads,
      fun m known => inv.delivered r m known⟩
  rw [run_append] at delivered
  refine (program.run_keeps (fun c => Invariant c ∧ Silent r (run actions).shared.conns.length c) ?_
    ⟨inv, start⟩ later).2.delivered n delivered
  rintro c c' ⟨inv, silent⟩ moves
  exact ⟨inv.moves moves, silent.moves inv moves⟩

theorem returned_stays (actions later : List Action) {k : Nat} {removed : List Nat}
    (returned : (run actions).threads[k]? = some (.disconnect (.returned removed))) :
    (run (actions ++ later)).threads[k]? = some (.disconnect (.returned removed)) := by
  rw [run_append]
  refine program.run_takes_keeps
    (fun c => c.threads[k]? = some (.disconnect (.returned removed))) ?_ returned later
  intro c a c' before taken
  rcases taken.thread before with same | ⟨choice, t', spawned, moved, _⟩
  · exact same
  · cases moved

/-- A room that is closed while its reader is about to assign keeps what it is given. -/
theorem close_exposes {c : Interleaving.Config Shared Thread} (inv : Invariant c) {i k r n : Nat}
    {rest removed : List Nat} (reader : c.threads[i]? = some (.reader r (.assign n)))
    (closer : c.threads[k]? = some (.disconnect (.shut r rest removed)))
    (opened : c.shared.conns[n]? = some true) :
    (program.run c [.advance k {}, .advance i {}]).shared.isClosed r = true ∧
      (program.run c [.advance k {}, .advance i {}]).shared.conn r = some n ∧
      (program.run c [.advance k {}, .advance i {}]).shared.conns[n]? = some true := by
  have right := inv.threads _ (List.mem_of_getElem? reader)
  have different : k ≠ i := by
    rintro rfl
    cases reader.symm.trans closer
  have first : program.step c (.advance k {}) = ⟨c.shared.closeRoom r,
      c.threads.set k (.disconnect (.closing rest removed)) ++ []⟩ :=
    Interleaving.Program.step_advance closer rfl
  have still : (c.threads.set k (.disconnect (.closing rest removed)) ++ [])[i]? =
      some (.reader r (.assign n)) :=
    Interleaving.getElem?_other different reader _ _
  have inside : r < (c.shared.closeRoom r).roomConns.length := by
    rw [(c.shared.closeRoom_fields r).1]
    exact right.1
  have conns : (c.shared.closeRoom r).conns = c.shared.conns := by
    unfold Shared.closeRoom
    rw [right.2.2]
    rfl
  rw [Interleaving.Program.run_cons, first, Interleaving.Program.run_cons,
    Interleaving.Program.step_advance still rfl, Interleaving.Program.run_nil]
  refine ⟨?_, Shared.conn_update (List.getElem?_eq_getElem inside), ?_⟩
  · apply Shared.isClosed_update
    · exact fun _ closed => closed
    · exact isClosed_closeRoom right.1
  · exact (congrArg (fun l : List Bool => l[n]?) conns).trans opened

/-- After `Disconnect` has returned nothing dialled later is delivered for a room it
removed, and in an orderly run such a room holds no connection. A step that is not
orderly leaves the closed room with the connection its reader assigns next. -/
theorem disconnect_leaves_nothing (actions later : List Action) :
    Tidy (run actions) ∧
      (∀ (k : Nat) (removed : List Nat) (r : Nat),
        (run actions).threads[k]? = some (.disconnect (.returned removed)) → r ∈ removed →
        (∀ n, (r, n) ∈ (run (actions ++ later)).shared.delivered →
          n < (run actions).shared.conns.length) ∧
        (program.along orderly ⟨{}, []⟩ (actions ++ later) = true →
          (run (actions ++ later)).shared.conn r = none)) ∧
      ∀ (i k r n : Nat) (rest removed : List Nat),
        (run actions).threads[i]? = some (.reader r (.assign n)) →
        (run actions).threads[k]? = some (.disconnect (.shut r rest removed)) →
        (run actions).shared.conns[n]? = some true →
        (run (actions ++ [.advance k {}, .advance i {}])).shared.isClosed r = true ∧
        (run (actions ++ [.advance k {}, .advance i {}])).shared.conn r = some n ∧
        (run (actions ++ [.advance k {}, .advance i {}])).shared.conns[n]? = some true := by
  refine ⟨run_tidy actions, fun k removed r returned member => ?_,
    fun i k r n rest removed reader closer opened => ?_⟩
  · have known : ∀ x ∈ removed, (run actions).shared.Retired x ∧
        (run actions).shared.isClosed x = true :=
      (run_invariant actions).threads _ (List.mem_of_getElem? returned)
    refine ⟨fun n delivered => run_silent actions later (known r member).1 delivered, fun calm => ?_⟩
    have after := returned_stays actions later returned
    have known' : ∀ x ∈ removed, (run (actions ++ later)).shared.Retired x ∧
        (run (actions ++ later)).shared.isClosed x = true :=
      (run_invariant (actions ++ later)).threads _ (List.mem_of_getElem? after)
    exact (run_sealed (actions ++ later) calm r (known' r member).2).1
  · rw [run_append]
    exact close_exposes (run_invariant actions) reader closer opened

def calmRun : List Action :=
  [.event .connect, .event (.ensureRoom (str "room")), .advance 0 {}, .advance 0 {}, .advance 0 {},
    .event .disconnect, .advance 2 {}, .advance 2 {}, .advance 2 {}, .advance 2 {}]

theorem calm_disconnect_closes :
    ((run calmRun).threads[2]? = some (.disconnect (.returned [0])) ∧
      program.along orderly ⟨{}, []⟩ (calmRun ++ []) = true) ∧
      (run (calmRun ++ [])).shared.conn 0 = none := by
  have facts : (run calmRun).threads[2]? = some (.disconnect (.returned [0])) ∧
      program.along orderly ⟨{}, []⟩ (calmRun ++ []) = true := by decide +kernel
  exact ⟨facts, ((disconnect_leaves_nothing calmRun []).2.1 2 [0] 0 facts.1 (by simp)).2 facts.2⟩

/-- The connection of a room fails; its reader has dialled again and looked at the
registry when `Disconnect` runs from beginning to end. -/
def racingRun : List Action :=
  [.event .connect, .event (.ensureRoom (str "room")), .advance 0 {}, .advance 0 {}, .advance 0 {},
    .advance 1 { read := .failed }, .advance 1 {}, .advance 1 {}, .advance 1 {}, .advance 1 {},
    .advance 1 {}, .advance 1 {},
    .event .disconnect, .advance 2 {}, .advance 2 {}, .advance 2 {}, .advance 2 {}]

theorem disconnected_room_holds_connection :
    (run racingRun).threads[2]? = some (.disconnect (.returned [0])) ∧
      (run (racingRun ++ [.advance 1 {}])).shared.conn 0 = some 1 ∧
      (run (racingRun ++ [.advance 1 {}])).shared.conns[1]? = some true ∧
      (run (racingRun ++ [.advance 1 {}, .advance 1 {}])).shared.delivered = [(0, 1)] := by
  decide +kernel

end Telekit.WebSocket
