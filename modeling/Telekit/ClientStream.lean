import Telekit.ClientGenerations
import Telekit.Library.Trace

/-! The bytes that `Read` returns. A byte in a receive buffer carries its origin: the
attempt whose data channel opened it, and the length of the log when it was appended.
The window of an installed transport reaches from the last reset of its buffer before
the installation to its detachment. Within the window of a transport only its own
reader may append, and that is what the clean buffer of an attempt is for; but a
reader checks that its transport is current in one step and appends in the next. -/

namespace Telekit.ClientMachine
open Interleaving Trace

def Stage.holds : Stage → Option Nat
  | .attempt _ id .preparing | .attempt _ id .negotiating | .attempt _ id .installing => some id
  | _ => none

def Core.Sealed (s : Core) (b : Nat) : Prop :=
  ∃ buffer, s.buffers[b]? = some buffer ∧ buffer.closed = true

def Stage.Ready (s : Core) : Stage → Prop
  | .attempt _ _ (.resetting b) => b = s.recvBuf
  | .attempt _ _ .renewing => s.Sealed s.recvBuf
  | _ => True

def Carried (s : Core) (b : Nat) (o : Origin) : Prop :=
  (∃ buffer, s.buffers[b]? = some buffer ∧ o ∈ buffer.origins) ∨
    ∃ data origins, .returned b data origins ∈ s.trace ∧ o ∈ origins

/-- A byte that was appended to buffer `b` in the window of a transport was opened by
its data channel. -/
def Fair (trace : List Event) (b : Nat) (o : Origin) : Prop :=
  ∀ i g r, (trace)[i]? = some (.installed g b) → LastAt (.wiped b) trace r i → r < o.time →
    (∀ k, i < k → k < o.time → (trace)[k]? ≠ some (.detached g)) → o.opener = g

structure Genuine (s : Core) (stages : List Stage) : Prop where
  stored : s.recvBuf < s.buffers.length
  past : ∀ b o, Carried s b o → o.time ≤ s.trace.length
  fair : ∀ b o, Carried s b o → Fair s.trace b o
  attached : ∀ (i : Nat) g b, s.trace[i]? = some (.installed g b) →
    (∀ k, i < k → s.trace[k]? ≠ some (.detached g)) →
    s.transportConn = some g ∧ (s.recvBuf = b ∨ s.Sealed b)
  pending : ∀ id, (∃ u ∈ stages, u.holds = some id) → ∀ o, Carried s s.recvBuf o → ∀ r,
    LastAt (.wiped s.recvBuf) s.trace r s.trace.length → r < o.time → o.opener = id
  ready : ∀ u ∈ stages, u.Ready s

theorem Fair.emit {trace : List Event} {b : Nat} {o : Origin} (fair : Fair trace b o)
    (past : o.time ≤ trace.length) (e : Event)
    (new : ∀ g, e = .installed g b → ∀ r, LastAt (.wiped b) trace r trace.length → r < o.time →
      o.opener = g) : Fair (trace ++ [e]) b o := by
  intro i g r installed wiped after attached
  rcases Nat.lt_trichotomy i trace.length with inside | rfl | outside
  · rw [List.getElem?_append_left inside] at installed
    refine fair i g r installed (wiped.shorten (Nat.le_of_lt inside)) after fun k above below => ?_
    rw [← List.getElem?_append_left (show k < trace.length by omega)]
    exact attached k above below
  · rw [List.getElem?_concat_length, Option.some.injEq] at installed
    exact new g installed r (wiped.shorten (Nat.le_refl _)) after
  · rw [List.getElem?_eq_none (by simp; omega)] at installed
    cases installed

section Steps
variable {s s' : Core} {before spawned : List Stage} {n : Nat} {v v' : Stage} {log : List Event}

structure Drains (s s' : Core) (log : List Event) : Prop where
  trace : s'.trace = s.trace ++ log
  single : log = [] ∨ ∃ e, log = [e] ∧ ∀ g b, e ≠ .installed g b
  carried : ∀ b o, Carried s' b o → Carried s b o
  closed : ∀ b, s.Sealed b → s'.Sealed b
  current : s'.recvBuf = s.recvBuf
  size : s'.buffers.length = s.buffers.length
  transport : ∀ g, s.transportConn = some g → s'.transportConn = some g ∨ log = [.detached g]

theorem Stage.Ready.drains (drains : Drains s s' log) {u : Stage} (ready : u.Ready s) :
    u.Ready s' := by
  cases u with
  | attempt caller id stage =>
    cases stage with
    | resetting b => exact ready.trans drains.current.symm
    | renewing =>
      rw [Stage.Ready, drains.current]
      exact drains.closed _ ready
    | _ => trivial
  | _ => trivial

theorem Genuine.drain (genuine : Genuine s before) (drains : Drains s s' log)
    (running : before[n]? = some v) (idle : ∀ u ∈ spawned, u = .idle)
    (holds : ∀ id, v'.holds = some id → v.holds = some id) (own : v'.Ready s') :
    Genuine s' (before.set n v' ++ spawned) := by
  have longer : s.trace.length ≤ s'.trace.length := by
    rw [drains.trace, List.length_append]
    omega
  have earlier {k : Nat} (inside : k < s.trace.length) : s'.trace[k]? = s.trace[k]? := by
    rw [drains.trace, List.getElem?_append_left inside]
  refine ⟨by rw [drains.current, drains.size]; exact genuine.stored,
    fun b o carried => (genuine.past b o (drains.carried b o carried)).trans longer,
    fun b o carried => ?_, fun i g b installed undetached => ?_,
    fun id about o carried r wiped after => ?_,
    forall_advance genuine.ready (fun _ _ _ _ ready => ready.drains drains) own fun u member => ?_⟩
  · have fair := genuine.fair b o (drains.carried b o carried)
    have past := genuine.past b o (drains.carried b o carried)
    rw [drains.trace]
    rcases drains.single with rfl | ⟨e, rfl, other⟩
    · rwa [List.append_nil]
    · exact fair.emit past e fun g same => absurd same (other g b)
  · have inside : i < s.trace.length := by
      rw [drains.trace] at installed
      rcases drains.single with rfl | ⟨e, rfl, other⟩
      · rw [List.append_nil] at installed
        exact (List.getElem?_eq_some_iff.mp installed).1
      · by_contra outside
        have last := (List.getElem?_eq_some_iff.mp installed).1
        rw [List.length_append, List.length_singleton] at last
        obtain rfl : i = s.trace.length := by omega
        rw [List.getElem?_concat_length, Option.some.injEq] at installed
        exact other g b installed
    rw [earlier inside] at installed
    have undetached' : ∀ k, i < k → s.trace[k]? ≠ some (.detached g) := fun k above found => by
      refine undetached k above ?_
      rw [earlier (List.getElem?_eq_some_iff.mp found).1]
      exact found
    obtain ⟨transport, current⟩ := genuine.attached i g b installed undetached'
    refine ⟨(drains.transport g transport).resolve_right ?_, ?_⟩
    · rintro rfl
      refine undetached s.trace.length inside ?_
      rw [drains.trace, List.getElem?_concat_length]
    · rw [drains.current]
      exact current.imp_right (drains.closed b)
  · have about := exists_before running (holds id)
      (fun u member => by rw [idle u member]; exact nofun) about
    rw [drains.current] at carried wiped
    have carried := drains.carried _ o carried
    refine genuine.pending id about o carried r ?_ after
    rw [drains.trace] at wiped
    rcases drains.single with rfl | ⟨e, rfl, _⟩
    · simpa using wiped
    · rw [List.length_append, List.length_singleton] at wiped
      by_cases again : e = .wiped s.recvBuf
      · subst again
        have past := genuine.past _ o carried
        have last := wiped.concat_self
        omega
      · exact wiped.concat_other again
  · rw [idle u member]
    trivial

theorem Drains.still (trace : s'.trace = s.trace) (buffers : s'.buffers = s.buffers)
    (current : s'.recvBuf = s.recvBuf) (transport : s'.transportConn = s.transportConn) :
    Drains s s' [] := by
  refine ⟨by rw [trace, List.append_nil], .inl rfl, fun b o carried => ?_, fun b sealed => ?_, current,
    by rw [buffers], fun g found => .inl (transport.trans found)⟩
  · rwa [Carried, trace, buffers] at carried
  · rwa [Core.Sealed, buffers]

theorem Drains.modify {b : Nat} {f : Buffer → Buffer}
    (buffers : s'.buffers = s.buffers.modify b f) (trace : s'.trace = s.trace ++ log)
    (current : s'.recvBuf = s.recvBuf) (transport : s'.transportConn = s.transportConn)
    (origins : ∀ buffer, (f buffer).origins ⊆ buffer.origins)
    (closes : ∀ buffer, buffer.closed = true → (f buffer).closed = true)
    (logged : log = [] ∨ log = [.wiped b]) : Drains s s' log := by
  refine ⟨trace, logged.imp_right fun same => ⟨.wiped b, same, fun _ _ => nofun⟩,
    fun c o carried => ?_, fun c sealed => ?_, current, by rw [buffers, List.length_modify],
    fun g found => .inl (transport.trans found)⟩
  · rcases carried with ⟨buffer, found, member⟩ | ⟨data, taken, returned, member⟩
    · rw [buffers, List.getElem?_modify] at found
      obtain ⟨buffer, present, rfl⟩ := Option.map_eq_some_iff.mp found
      refine .inl ⟨buffer, present, ?_⟩
      split_ifs at member
      · exact origins buffer member
      · exact member
    · refine .inr ⟨data, taken, ?_, member⟩
      rw [trace] at returned
      rcases logged with rfl | rfl <;> simpa using returned
  · obtain ⟨buffer, found, shut⟩ := sealed
    refine ⟨_, by rw [buffers, List.getElem?_modify, found]; rfl, ?_⟩
    simp only
    split_ifs
    · exact closes buffer shut
    · exact shut

theorem Buffer.reset_origins (buffer : Buffer) : buffer.reset.origins ⊆ buffer.origins := by
  unfold Buffer.reset
  split_ifs <;> simp

theorem Buffer.close_origins (buffer : Buffer) : buffer.close.origins ⊆ buffer.origins := by
  unfold Buffer.close
  split_ifs <;> simp

theorem Buffer.reset_closed {buffer : Buffer} (closed : buffer.closed = true) :
    buffer.reset.closed = true := by
  simp [Buffer.reset, RecvBuffer.reset, closed]

theorem Buffer.close_closed {buffer : Buffer} (closed : buffer.closed = true) :
    buffer.close.closed = true := by
  simp [Buffer.close, RecvBuffer.close, closed]

theorem drains_reset (s : Core) (b : Nat) : Drains s (s.resetBuffer b) [.wiped b] :=
  .modify rfl rfl rfl rfl Buffer.reset_origins (fun _ => Buffer.reset_closed) (.inr rfl)

theorem drains_wipe (s : Core) (closes : Bool) (b : Nat) : ∃ log, Drains s (s.wipe closes b) log := by
  cases closes with
  | true =>
    exact ⟨[], .modify rfl (List.append_nil _).symm rfl rfl Buffer.close_origins
      (fun _ => Buffer.close_closed) (.inl rfl)⟩
  | false => exact ⟨_, drains_reset s b⟩

theorem drains_detach (s : Core) : ∃ log, Drains s s.detach log := by
  have carried (b : Nat) (o : Origin) : Carried s.detach b o → Carried s b o := by
    unfold Core.detach
    split
    · exact id
    · rintro (present | ⟨data, origins, returned, member⟩)
      · exact .inl present
      · exact .inr ⟨data, origins, by simpa [Core.emit] using returned, member⟩
  have closed (b : Nat) (sealed : s.Sealed b) : s.detach.Sealed b := by
    rwa [Core.Sealed, Core.detach_buffers]
  cases installed : s.transportConn with
  | none =>
    refine ⟨[], ?_, .inl rfl, carried, closed, by simp, by simp, fun g found => ?_⟩
    · simp [Core.detach, installed]
    · rw [installed] at found
      cases found
  | some h =>
    refine ⟨[.detached h], ?_, .inr ⟨_, rfl, by rintro _ _ ⟨⟩⟩, carried, closed, by simp, by simp,
      fun g found => ?_⟩
    · simp [Core.detach, installed, Core.emit]
    · rw [installed] at found
      cases found
      exact .inr rfl

theorem Buffer.read_origins {buffer buffer' : Buffer} {size : Nat} {now : Int} {data : Bytes}
    {origins : List Origin} (read : buffer.read size now = some (.ok (data, origins), buffer')) :
    origins ++ buffer'.origins = buffer.origins ∧ buffer'.closed = buffer.closed ∧
      data ++ buffer'.buf = buffer.buf ∧ origins = buffer.origins.take data.length := by
  unfold Buffer.read at read
  split at read
  · cases read
  · cases read
  next taken rb budget result =>
    cases read
    exact ⟨List.take_append_drop .., RecvBuffer.read_closed result, RecvBuffer.read_ok result, rfl⟩

theorem drains_deliver {b size : Nat} {now : Int} {buffer buffer' : Buffer} {data : Bytes}
    {origins : List Origin} (found : s.buffers[b]? = some buffer)
    (read : buffer.read size now = some (.ok (data, origins), buffer')) :
    Drains s (s.deliver b buffer' data origins) [.returned b data origins] := by
  obtain ⟨split, closed, _⟩ := Buffer.read_origins read
  have inside := (List.getElem?_eq_some_iff.mp found).1
  refine ⟨rfl, .inr ⟨_, rfl, fun _ _ => nofun⟩, fun c o carried => ?_, fun c sealed => ?_, rfl,
    List.length_set, fun g => .inl⟩
  · rcases carried with ⟨other, present, member⟩ | ⟨taken, openers, returned, member⟩
    · simp only [Core.deliver, Core.emit, List.getElem?_set, inside, if_true] at present
      split_ifs at present with same
      · cases present
        subst same
        exact .inl ⟨buffer, found, split ▸ List.mem_append_right _ member⟩
      · exact .inl ⟨other, present, member⟩
    · simp only [Core.deliver, Core.emit, List.mem_append, List.mem_singleton] at returned
      rcases returned with earlier | now
      · exact .inr ⟨taken, openers, earlier, member⟩
      · cases now
        exact .inl ⟨buffer, found, split ▸ List.mem_append_left _ member⟩
  · obtain ⟨other, present, shut⟩ := sealed
    by_cases same : b = c
    · subst same
      rw [found] at present
      cases present
      exact ⟨buffer', List.getElem?_set_self inside, closed.trans shut⟩
    · exact ⟨other, (List.getElem?_set_ne same).trans present, shut⟩

/-- An attempt takes a clean buffer: the current one after a reset, or a new one in the
place of a closed one. -/
theorem Genuine.clean (genuine : Genuine s before) (sound : Sound s.link before)
    (running : before[n]? = some v) (inside : v.inside = some ())
    (idle : ∀ u ∈ spawned, u = .idle) (trace : s'.trace = s.trace ++ [.wiped s'.recvBuf])
    (carried : ∀ b o, Carried s' b o → Carried s b o) (closed : ∀ b, s.Sealed b → s'.Sealed b)
    (stored : s'.recvBuf < s'.buffers.length) (transport : s'.transportConn = s.transportConn)
    (current : s'.recvBuf = s.recvBuf ∨ s.Sealed s.recvBuf) (ready : v'.Ready s') :
    Genuine s' (before.set n v' ++ spawned) := by
  have earlier {k : Nat} (inside : k < s.trace.length) : s'.trace[k]? = s.trace[k]? := by
    rw [trace, List.getElem?_append_left inside]
  refine ⟨stored, fun b o kept => ?_, fun b o kept => ?_, fun i g b installed undetached => ?_,
    fun id about o kept r wiped after => ?_, forall_advance genuine.ready ?_ ready ?_⟩
  · have past := genuine.past b o (carried b o kept)
    rw [trace, List.length_append]
    omega
  · rw [trace]
    exact (genuine.fair b o (carried b o kept)).emit (genuine.past b o (carried b o kept)) _ nofun
  · have bound : i < s.trace.length := by
      by_contra outside
      have last := (List.getElem?_eq_some_iff.mp installed).1
      rw [trace, List.length_append, List.length_singleton] at last
      obtain rfl : i = s.trace.length := by omega
      rw [trace, List.getElem?_concat_length] at installed
      cases installed
    rw [earlier bound] at installed
    obtain ⟨attached, there⟩ := genuine.attached i g b installed fun k above found =>
      undetached k above ((earlier (List.getElem?_eq_some_iff.mp found).1).trans found)
    refine ⟨transport.trans attached, ?_⟩
    rcases there with rfl | sealed
    · exact current.imp_right (closed _)
    · exact .inr (closed b sealed)
  · -- the reset is the last event, and no byte is younger
    rw [trace, List.length_append, List.length_singleton] at wiped
    have last := wiped.concat_self
    have past := genuine.past _ o (carried _ o kept)
    omega
  · intro m u apart found _
    have outside := sound.exclusive.alone apart running inside found
    cases u with
    | attempt => cases outside
    | _ => trivial
  · intro u started
    rw [idle u started]
    trivial

theorem Genuine.install (genuine : Genuine s before) (sound : Sound s.link before) {caller : Caller}
    {id : Nat} (running : before[n]? = some (.attempt caller id .installing))
    (detached : s.transportConn = none) (idle : ∀ u ∈ spawned, u = .idle) :
    Genuine (s.install id) (before.set n (.attempt caller id .installed) ++ spawned) := by
  have holder : ∃ u ∈ before, u.holds = some id := ⟨_, List.mem_of_getElem? running, rfl⟩
  have earlier {k : Nat} (inside : k < s.trace.length) : (s.install id).trace[k]? = s.trace[k]? :=
    List.getElem?_append_left inside
  have carried {b : Nat} {o : Origin} (kept : Carried (s.install id) b o) : Carried s b o := by
    refine kept.imp_right ?_
    rintro ⟨data, origins, returned, member⟩
    exact ⟨data, origins, by simpa [Core.install, Core.emit] using returned, member⟩
  refine ⟨genuine.stored, fun b o kept => ?_, fun b o kept => ?_,
    fun i g b installed undetached => ?_, fun j about => ?_,
    forall_advance genuine.ready ?_ trivial ?_⟩
  · have past := genuine.past b o (carried kept)
    simp only [Core.install, Core.emit, List.length_append]
    omega
  · refine (genuine.fair b o (carried kept)).emit (genuine.past b o (carried kept)) _ ?_
    rintro g ⟨⟩ r wiped after
    exact genuine.pending id holder o (carried kept) r wiped after
  · rcases Nat.lt_trichotomy i s.trace.length with bound | rfl | outside
    · rw [earlier bound] at installed
      obtain ⟨attached, _⟩ := genuine.attached i g b installed fun k above found =>
        undetached k above ((earlier (List.getElem?_eq_some_iff.mp found).1).trans found)
      rw [detached] at attached
      cases attached
    · rw [Core.install, Core.emit, List.getElem?_concat_length] at installed
      cases installed
      exact ⟨rfl, .inl rfl⟩
    · have last := (List.getElem?_eq_some_iff.mp installed).1
      simp only [Core.install, Core.emit, List.length_append, List.length_singleton] at last
      omega
  · rcases exists_after (fun u member => by rw [idle u member]; rintro ⟨⟩) about with
      ⟨m, u, apart, found, other⟩ | own
    · have outside := sound.exclusive.alone apart running rfl found
      cases u with
      | attempt => cases outside
      | _ => cases other
    · cases own
  · intro m u apart found ready
    exact ready
  · intro u started
    rw [idle u started]
    trivial

theorem writeBuffer_cases (s : Core) (b g : Nat) (raw : Bytes) :
    (s.writeBuffer b g raw).2 = s ∨ ∃ buffer buffer', s.buffers[b]? = some buffer ∧
      buffer.closed = false ∧ (s.writeBuffer b g raw).1.isOk = true ∧
      (s.writeBuffer b g raw).2 = { s with buffers := s.buffers.set b buffer' } ∧
      buffer'.origins = buffer.origins ++ List.replicate raw.length ⟨g, s.trace.length⟩ ∧
      buffer'.buf = buffer.buf ++ raw := by
  unfold Core.writeBuffer
  split
  · exact .inl rfl
  next buffer found =>
    unfold Buffer.write
    cases written : buffer.toRecvBuffer.write none raw with
    | mk result rest =>
      cases result with
      | error err => exact .inl rfl
      | ok =>
        obtain ⟨opened, _, _, appended⟩ := RecvBuffer.write_ok written
        refine .inr ⟨buffer, _, found, opened, rfl, rfl, rfl, ?_⟩
        rw [appended]

def OwnWrite (s : Core) (stages : List Stage) (v : Stage) : Prop :=
  ∀ g b raw, v = .writing g b raw → raw ≠ [] → (s.writeBuffer b g raw).1.isOk = true →
    s.recvBuf = b → (∀ h, s.transportConn = some h → h = g) ∧
      ∀ id, (∃ u ∈ stages, u.holds = some id) → id = g

theorem Genuine.write (genuine : Genuine s before) {g b : Nat} {raw : Bytes}
    (running : before[n]? = some (.writing g b raw)) (idle : ∀ u ∈ spawned, u = .idle)
    (own : OwnWrite s before (.writing g b raw)) :
    Genuine (s.writeBuffer b g raw).2 (before.set n .idle ++ spawned) := by
  rcases writeBuffer_cases s b g raw with same | ⟨buffer, buffer', found, opened, ok, same, origins, _⟩
  · rw [same]
    exact genuine.drain (.still rfl rfl rfl rfl) running idle nofun trivial
  have inside := (List.getElem?_eq_some_iff.mp found).1
  have unsealed : ¬ s.Sealed b := by
    rintro ⟨other, present, shut⟩
    rw [found] at present
    cases present
    rw [opened] at shut
    cases shut
  rw [same]
  have carried {c : Nat} {o : Origin}
      (kept : Carried { s with buffers := s.buffers.set b buffer' } c o) :
      Carried s c o ∨ raw ≠ [] ∧ c = b ∧ o = ⟨g, s.trace.length⟩ := by
    rcases kept with ⟨other, present, member⟩ | returned
    · simp only [List.getElem?_set, inside, if_true] at present
      split_ifs at present with here
      · cases present
        subst here
        rw [origins, List.mem_append, List.mem_replicate] at member
        rcases member with old | ⟨size, new⟩
        · exact .inl (.inl ⟨buffer, found, old⟩)
        · exact .inr ⟨fun empty => size (by rw [empty]; rfl), rfl, new⟩
      · exact .inl (.inl ⟨other, present, member⟩)
    · exact .inl (.inr returned)
  have closed (c : Nat) (sealed : s.Sealed c) :
      Core.Sealed { s with buffers := s.buffers.set b buffer' } c := by
    obtain ⟨other, present, shut⟩ := sealed
    refine ⟨other, ?_, shut⟩
    rw [List.getElem?_set_ne]
    · exact present
    · rintro rfl
      exact unsealed ⟨other, present, shut⟩
  refine ⟨by simpa using genuine.stored, fun c o kept => ?_, fun c o kept => ?_,
    fun i h c installed undetached => ?_, fun id about o kept r wiped after => ?_,
    forall_advance genuine.ready ?_ trivial ?_⟩
  · rcases carried kept with old | ⟨_, _, rfl⟩
    · exact genuine.past c o old
    · exact Nat.le_refl _
  · rcases carried kept with old | ⟨some, rfl, rfl⟩
    · exact genuine.fair c o old
    · -- the transport of this window is still installed, and the buffer still current
      intro i h r installed wiped after undetached
      obtain ⟨attached, current⟩ := genuine.attached i h c installed fun k above detached =>
        undetached k above (List.getElem?_eq_some_iff.mp detached).1 detached
      exact ((own g c raw rfl some ok (current.resolve_right unsealed)).1 h attached).symm
  · obtain ⟨attached, current⟩ := genuine.attached i h c installed undetached
    exact ⟨attached, current.imp_right (closed c)⟩
  · have about := exists_before running (fun holds => by cases holds)
      (fun u member => by rw [idle u member]; exact nofun) about
    rcases carried kept with old | ⟨some, current, rfl⟩
    · exact genuine.pending id about o old r wiped after
    · exact ((own g b raw rfl some ok current).2 id about).symm
  · intro m u apart present ready
    cases u with
    | attempt caller id stage =>
      cases stage with
      | renewing => exact closed _ ready
      | _ => exact ready
    | _ => trivial
  · intro u started
    rw [idle u started]
    trivial

theorem Caller.stage_holds (caller : Caller) (id : Nat) (ok : Bool) :
    (caller.stage id ok).holds = none ∧ (caller.stage id ok).Ready s := by
  cases caller with
  | user => exact ⟨rfl, trivial⟩
  | loop generation origin => cases ok <;> exact ⟨rfl, trivial⟩

theorem After.stage_holds (after : After) : after.stage.holds = none ∧ after.stage.Ready s := by
  cases after <;> exact ⟨rfl, trivial⟩

theorem Genuine.release (genuine : Genuine s before) (drains : Drains s s' log)
    (running : before[n]? = some v) (idle : ∀ u ∈ spawned, u = .idle) (free : v'.holds = none)
    (own : v'.Ready s') : Genuine s' (before.set n v' ++ spawned) := by
  refine genuine.drain drains running idle (fun id held => ?_) own
  rw [free] at held
  cases held

theorem Genuine.transition (genuine : Genuine s before) (sound : Sound s.link before)
    (running : before[n]? = some v) (step : Transition s v s' v') (idle : ∀ u ∈ spawned, u = .idle)
    (own : OwnWrite s before v) : Genuine s' (before.set n v' ++ spawned) := by
  cases step with
  | stores caller id limit =>
    have sealed : s.Sealed s.recvBuf := genuine.ready _ (List.mem_of_getElem? running)
    refine genuine.clean sound running rfl idle rfl (fun b o kept => ?_) (fun b shut => ?_) ?_ rfl
      (.inr sealed) trivial
    · rcases kept with ⟨buffer, found, member⟩ | ⟨data, origins, returned, member⟩
      · simp only [Core.storeBuffer, Core.emit, List.getElem?_append] at found
        split_ifs at found
        · exact .inl ⟨buffer, found, member⟩
        · rw [List.getElem?_singleton] at found
          split_ifs at found
          cases found
          cases member
      · exact .inr ⟨data, origins, by simpa [Core.storeBuffer, Core.emit] using returned, member⟩
    · obtain ⟨buffer, found, closed⟩ := shut
      refine ⟨buffer, ?_, closed⟩
      rw [← found]
      exact List.getElem?_append_left (List.getElem?_eq_some_iff.mp found).1
    · simp [Core.storeBuffer, Core.emit]
  | resets caller id b =>
    have current : b = s.recvBuf := genuine.ready _ (List.mem_of_getElem? running)
    subst current
    have drains := drains_reset s s.recvBuf
    exact genuine.clean sound running rfl idle rfl drains.carried drains.closed
      (by rw [drains.size]; exact genuine.stored) rfl (.inl rfl) trivial
  | installs caller id own detached => exact genuine.install sound running detached idle
  | writes g b raw => exact genuine.write running idle own
  | renews caller id closed =>
    refine genuine.release (.still rfl rfl rfl rfl) running idle rfl ?_
    have found := List.getElem?_eq_getElem genuine.stored
    refine ⟨_, found, ?_⟩
    simpa [Core.isOpen, found] using closed
  | reuses caller id => exact genuine.release (.still rfl rfl rfl rfl) running idle rfl rfl
  | wipes closes after b =>
    obtain ⟨log, drains⟩ := drains_wipe s closes b
    exact genuine.release drains running idle rfl trivial
  | finishResets g agent b =>
    exact genuine.release (drains_reset s b) running idle rfl trivial
  | clears | detaches =>
    obtain ⟨log, drains⟩ := drains_detach s
    exact genuine.release drains running idle rfl trivial
  | returns found read =>
    exact genuine.release (drains_deliver found read) running idle rfl trivial
  | leaves caller id ok =>
    obtain ⟨free, ready⟩ := caller.stage_holds (s := s.leave) id ok
    exact genuine.release (.still rfl rfl rfl rfl) running idle free ready
  | closes closes after conn agent =>
    obtain ⟨free, ready⟩ := after.stage_holds (s := s.closeAll conn agent)
    exact genuine.release (.still rfl rfl rfl rfl) running idle free ready
  | stays =>
    exact genuine.drain (.still rfl rfl rfl rfl) running idle (fun _ => id)
      (genuine.ready _ (List.mem_of_getElem? running))
  | equips | dials => exact genuine.drain (.still rfl rfl rfl rfl) running idle (fun _ => id) trivial
  | _ => exact genuine.release (.still rfl rfl rfl rfl) running idle rfl trivial

theorem Genuine.enter (genuine : Genuine s before) (idle : ∀ u ∈ spawned, u = .idle) :
    Genuine s (before ++ spawned) := by
  refine ⟨genuine.stored, genuine.past, genuine.fair, genuine.attached, fun id about => ?_,
    fun u member => ?_⟩
  · refine genuine.pending id ?_
    obtain ⟨u, member, holds⟩ := about
    rcases List.mem_append.mp member with old | started
    · exact ⟨u, old, holds⟩
    · rw [idle u started] at holds
      cases holds
  · rcases List.mem_append.mp member with old | started
    · exact genuine.ready u old
    · rw [idle u started]
      trivial

structure Aligned (s : Core) : Prop where
  buffers : ∀ buffer ∈ s.buffers, buffer.origins.length = buffer.buf.length
  returned : ∀ b data origins, .returned b data origins ∈ s.trace → origins.length = data.length

theorem Aligned.modify (aligned : Aligned s) {b : Nat} {f : Buffer → Buffer}
    (buffers : s'.buffers = s.buffers.modify b f) (trace : s'.trace = s.trace ++ log)
    (other : ∀ b data origins, .returned b data origins ∉ log)
    (keeps : ∀ buffer, buffer.origins.length = buffer.buf.length →
      (f buffer).origins.length = (f buffer).buf.length) : Aligned s' := by
  refine ⟨fun buffer member => ?_, fun c data origins logged => ?_⟩
  · obtain ⟨i, found⟩ := List.mem_iff_getElem?.mp member
    rw [buffers, List.getElem?_modify] at found
    obtain ⟨old, present, rfl⟩ := Option.map_eq_some_iff.mp found
    have before := aligned.buffers old (List.mem_of_getElem? present)
    split_ifs
    · exact keeps old before
    · exact before
  · rw [trace, List.mem_append] at logged
    exact aligned.returned c data origins (logged.resolve_right (other c data origins))

theorem Aligned.rest (aligned : Aligned s) (buffers : s'.buffers = s.buffers)
    (trace : s'.trace = s.trace) : Aligned s' :=
  ⟨by rw [buffers]; exact aligned.buffers, by rw [trace]; exact aligned.returned⟩

theorem aligned_reset (aligned : Aligned s) (b : Nat) : Aligned (s.resetBuffer b) := by
  refine aligned.modify rfl rfl (by simp) fun buffer before => ?_
  unfold Buffer.reset RecvBuffer.reset
  split_ifs
  · exact before
  · rfl

theorem aligned_wipe (aligned : Aligned s) (closes : Bool) (b : Nat) : Aligned (s.wipe closes b) := by
  cases closes with
  | false => exact aligned_reset aligned b
  | true =>
    refine aligned.modify rfl (List.append_nil _).symm (by simp) fun buffer before => ?_
    unfold Buffer.close RecvBuffer.close
    split_ifs
    · exact before
    · rfl

theorem aligned_detach (aligned : Aligned s) : Aligned s.detach := by
  refine ⟨by rw [Core.detach_buffers]; exact aligned.buffers, fun b data origins logged => ?_⟩
  unfold Core.detach at logged
  split at logged
  · exact aligned.returned b data origins logged
  · exact aligned.returned b data origins (by simpa [Core.emit] using logged)

theorem Aligned.transition (aligned : Aligned s) (step : Transition s v s' v') : Aligned s' := by
  cases step with
  | stores caller id limit =>
    refine ⟨fun buffer member => ?_, fun b data origins logged => ?_⟩
    · rcases List.mem_append.mp member with old | new
      · exact aligned.buffers buffer old
      · cases List.mem_singleton.mp new
        rfl
    · exact aligned.returned b data origins
        (by simpa [Core.storeBuffer, Core.emit] using logged)
  | resets caller id b => exact aligned_reset aligned b
  | finishResets g agent b => exact aligned_reset aligned b
  | wipes closes after b => exact aligned_wipe aligned closes b
  | clears | detaches => exact aligned_detach aligned
  | installs caller id =>
    exact ⟨aligned.buffers, fun b data origins logged => aligned.returned b data origins
      (by simpa [Core.install, Core.emit] using logged)⟩
  | writes g b raw =>
    rcases writeBuffer_cases s b g raw with same | ⟨buffer, buffer', found, _, _, same, origins, buf⟩
    · rwa [same]
    · rw [same]
      refine ⟨fun other member => ?_, aligned.returned⟩
      rcases List.mem_or_eq_of_mem_set member with old | rfl
      · exact aligned.buffers other old
      · have before := aligned.buffers buffer (List.mem_of_getElem? found)
        rw [origins, buf, List.length_append, List.length_append, List.length_replicate, before]
  | returns found read =>
    obtain ⟨split, _, bytes, taken⟩ := Buffer.read_origins read
    have before := aligned.buffers _ (List.mem_of_getElem? found)
    have lengths := congrArg List.length split
    have sizes := congrArg List.length bytes
    have share := congrArg List.length taken
    rw [List.length_append] at lengths sizes
    rw [List.length_take] at share
    refine ⟨fun other member => ?_, fun c data origins logged => ?_⟩
    · rcases List.mem_or_eq_of_mem_set member with old | rfl
      · exact aligned.buffers other old
      · omega
    · rcases List.mem_append.mp logged with old | now
      · exact aligned.returned c data origins old
      · cases List.mem_singleton.mp now
        omega
  | _ => exact aligned.rest rfl rfl

end Steps

/-- A reader that has bytes to append to the current buffer is the reader of the
installed transport, if there is one, and of the attempt that has cleaned the buffer,
if there is one. -/
def ownWrites (k : Config Shared Thread) : Action → Bool
  | .advance n _ =>
    match (stages k)[n]? with
    | some (.writing g b raw) =>
      if raw ≠ [] ∧ (k.shared.writeBuffer b g raw).1.isOk ∧ k.shared.recvBuf = b then
        k.shared.transportConn.all (· = g) && (stages k).all (·.holds.all (· = g))
      else true
    | _ => true
  | .event _ => true

theorem ownWrites_spec {k : Config Shared Thread} {n : Nat} {choice : Choice}
    (conforms : ownWrites k (.advance n choice) = true) {v : Stage}
    (running : (stages k)[n]? = some v) : OwnWrite k.shared.toCore (stages k) v := by
  rintro g b raw rfl some ok current
  simp only [ownWrites, running] at conforms
  rw [if_pos ⟨some, ok, current⟩] at conforms
  simp only [Bool.and_eq_true, List.all_eq_true] at conforms
  refine ⟨fun h attached => ?_, ?_⟩
  · simpa [attached] using conforms.1
  · rintro id ⟨u, member, holds⟩
    simpa [holds] using conforms.2 u member

section Runs
variable (P : Primitives) (client : Client) (options : ClientOptions)

theorem run_genuine (actions : List Action)
    (conforms : (program P client options).along ownWrites ⟨Shared.start options, []⟩ actions = true) :
    Genuine (run P client options actions).shared.toCore (stages (run P client options actions)) ∧
      Aligned (run P client options actions).shared.toCore := by
  have kept := (program P client options).run_along_keeps
    (fun k => Sound k.shared.link (stages k) ∧ Genuine k.shared.toCore (stages k) ∧
      Aligned k.shared.toCore) ownWrites ?_ ?_ actions conforms
  · exact kept.2
  · rintro k a k' ⟨sound, genuine, aligned⟩ steps takes
    have moved := takes_moved takes
    generalize after : stages k' = later at moved
    generalize core : k'.shared.toCore = s' at moved
    cases moved with
    | rests idle => exact ⟨core ▸ sound.enter idle, core ▸ genuine.enter idle, core ▸ aligned⟩
    | moves running step idle =>
      exact ⟨sound.shift running step.shift idle,
        genuine.transition sound running step idle (ownWrites_spec steps running),
        aligned.transition step⟩
  · have clean (b : Nat) (o : Origin) : ¬ Carried (Shared.start options).toCore b o := by
      rintro (⟨buffer, found, member⟩ | ⟨data, origins, returned, _⟩)
      · rw [Shared.start, List.getElem?_singleton] at found
        split_ifs at found
        cases found
        cases member
      · cases returned
    refine ⟨sound_start options, ⟨Nat.zero_lt_one, fun b o kept => absurd kept (clean b o),
      fun b o kept => absurd kept (clean b o), nofun, fun id _ o kept => absurd kept (clean _ o),
      nofun⟩, ⟨fun buffer member => ?_, nofun⟩⟩
    cases List.mem_singleton.mp member
    rfl

/-- In every run whose steps meet `ownWrites`: a byte that was appended between the reset
before an installation and the transport's end, and that `Read` returned, was opened by the
data channel of that transport. -/
theorem returned_bytes_own_session (actions : List Action)
    (conforms : (program P client options).along ownWrites ⟨Shared.start options, []⟩ actions = true)
    (b : Nat) (data : Bytes) (origins : List Origin)
    (returned : .returned b data origins ∈ (run P client options actions).shared.trace) :
    origins.length = data.length ∧
      ∀ o ∈ origins, Fair (run P client options actions).shared.trace b o := by
  obtain ⟨genuine, aligned⟩ := run_genuine P client options actions conforms
  exact ⟨aligned.returned b data origins returned,
    fun o member => genuine.fair b o (.inr ⟨data, origins, returned, member⟩)⟩

namespace Sample

def datagram : Bytes :=
  match handshake with
  | none => []
  | some handshake =>
    let channel := handshake.dataChannel
    let peer : DataChannel := {
      sendCodec := channel.receiveCodec
      receiveCodec := channel.sendCodec
      sendDirection := channel.receiveDirection
      receiveDirection := channel.sendDirection }
    match (peer.sealApplication Plain.primitives [7]).1 with
    | .error _ => []
    | .ok (sequence, frame) =>
      BigEndian.encode 8 frame.length ++ BigEndian.encode 8 sequence.toNat ++ frame

def receiving : List Action :=
  .event .connect :: attempt 0 0 1 9 7 ++ .advance 2 { chunk := datagram } :: goes 2 3

def reads (n : Nat) : List Action :=
  .event .read :: goes n 1 ++ [.advance n { size := 1 }]

def delivered : List Action := receiving ++ goes 2 1 ++ reads 4

/-- Before the reader appends, its transport fails and the reconnect loop in thread 4
makes attempt 1. -/
def stale : List Action :=
  receiving ++ goes 3 1 ++ fails 3 :: goes 3 7 ++ attempt 4 1 5 11 7 ++ goes 2 1 ++ reads 8

end Sample

theorem Sample.delivered_conforms :
    (program Plain.primitives Plain.client Sample.options).along ownWrites
      ⟨Shared.start Sample.options, []⟩ Sample.delivered = true ∧
    Event.returned 0 [7] [⟨0, 2⟩] ∈
      (run Plain.primitives Plain.client Sample.options Sample.delivered).shared.trace := by
  decide +kernel

theorem returned_bytes_own_session_sample :
    Fair (run Plain.primitives Plain.client Sample.options Sample.delivered).shared.trace 0
      ⟨0, 2⟩ := by
  have evaluated := Sample.delivered_conforms
  exact (returned_bytes_own_session Plain.primitives Plain.client Sample.options Sample.delivered
    evaluated.1 0 [7] [⟨0, 2⟩] evaluated.2).2 ⟨0, 2⟩ (List.mem_singleton.mpr rfl)

/-- `Read` returns a byte of attempt 0 that was appended after the reset of attempt 1,
while the transport of attempt 1 was installed. -/
theorem returned_byte_of_earlier_session :
    (run Plain.primitives Plain.client Sample.options Sample.stale).shared.trace =
      [.wiped 0, .installed 0 0, .detached 0, .wiped 0, .wiped 0, .installed 1 0,
        .returned 0 [7] [⟨0, 6⟩]] ∧
    ¬ Fair (run Plain.primitives Plain.client Sample.options Sample.stale).shared.trace 0 ⟨0, 6⟩ := by
  have trace : (run Plain.primitives Plain.client Sample.options Sample.stale).shared.trace =
      [.wiped 0, .installed 0 0, .detached 0, .wiped 0, .wiped 0, .installed 1 0,
        .returned 0 [7] [⟨0, 6⟩]] := by
    decide +kernel
  refine ⟨trace, ?_⟩
  rw [trace]
  intro fair
  have opener := fair 5 1 4 rfl ⟨rfl, by decide, by omega⟩ (by decide)
    fun k above below => absurd (Nat.le_of_lt_succ below) (Nat.not_le_of_lt above)
  cases opener

end Runs

end Telekit.ClientMachine
