import Telekit.ClientProtocol

/-! The generations of the transport of the client. One attempt is under way at a
time, an agent belongs to the attempt that installed it, and a transport stands
beside the agent of its own attempt. What a call has taken away to close it is
never in use again. With these facts a thread that acts for an older generation
can harm a newer one only where it acts on whatever is current: in the rest of
`finishTransport`, in the check of a reconnect loop after its success, and in the
attempts of a reconnect loop. -/

namespace Telekit.ClientMachine
open Interleaving

structure Link where
  connecting : Bool
  transportConn : Option Nat
  dataChannel : Option Nat
  iceAgent : Option Nat
  attempts : Nat

def Core.link (s : Core) : Link :=
  ⟨s.connecting, s.transportConn, s.dataChannel, s.iceAgent, s.attempts⟩

def Link.mutex (l : Link) : Option Unit := if l.connecting then some () else none

def Stage.inside : Stage → Option Unit
  | .attempt _ _ _ | .disconnect _ (.failed _ _) _ => some ()
  | _ => none

def Stage.early : Stage → Option Nat
  | .attempt _ id .opening | .attempt _ id .renewing | .attempt _ id (.resetting _)
  | .attempt _ id .preparing => some id
  | _ => none

def Stage.late : Stage → Option Nat
  | .attempt _ id .installed | .attempt _ id .flagging | .attempt _ id (.leaving true) => some id
  | _ => none

def Stage.handles : Stage → List Nat
  | .finish _ _ .detaching => []
  | .finish g agent _ => g :: agent.toList
  | .disconnect _ _ (.closing conn agent) => conn.toList ++ agent.toList
  | _ => []

inductive Shift (l : Link) (v : Stage) : Link → Stage → Prop
  | rests {v' : Stage} (inside : v'.inside = v.inside) (handles : v'.handles ⊆ v.handles)
      (early : ∀ id, v'.early = some id → v.early = some id)
      (late : ∀ id, v'.late = some id → v.late = some id) : Shift l v l v'
  | begins {v' : Stage} (free : l.connecting = false) (outside : v.inside = none)
      (inside : v'.inside = some ()) (handles : v'.handles = [])
      (early : v'.early = some l.attempts) (late : v'.late = none) :
      Shift l v { l with connecting := true, attempts := l.attempts + 1 } v'
  | equips {id : Nat} {v' : Stage} (own : v.early = some id) (detached : l.transportConn = none)
      (inside : v'.inside = v.inside) (handles : v'.handles = []) (early : v'.early = none)
      (late : v'.late = none) : Shift l v { l with iceAgent := some id } v'
  | installs {id : Nat} {v' : Stage} (own : l.iceAgent = some id)
      (before : v.inside = some ()) (inside : v'.inside = some ()) (handles : v'.handles = [])
      (early : v'.early = none) (late : v'.late = some id) :
      Shift l v { l with transportConn := some id, dataChannel := some id } v'
  | detaches {v' : Stage} (inside : v'.inside = v.inside)
      (handles : ∀ a ∈ v'.handles, l.transportConn = some a ∨ l.iceAgent = some a)
      (early : v'.early = none) (late : v'.late = none) :
      Shift l v { l with transportConn := none, dataChannel := none, iceAgent := none } v'
  | leaves {v' : Stage} (inside : v.inside = some ()) (outside : v'.inside = none)
      (handles : v'.handles = []) (early : v'.early = none) (late : v'.late = none) :
      Shift l v { l with connecting := false } v'

theorem Shift.rest {l l' : Link} {v v' : Stage} (same : l' = l) (inside : v'.inside = v.inside)
    (handles : v'.handles ⊆ v.handles) (early : ∀ id, v'.early = some id → v.early = some id)
    (late : ∀ id, v'.late = some id → v.late = some id) : Shift l v l' v' := by
  rw [same]
  exact .rests inside handles early late

theorem Core.detach_link (s : Core) : s.detach.link =
    { s.link with transportConn := none, dataChannel := none, iceAgent := none } := by
  obtain ⟨_, same⟩ := s.detach_eq
  rw [same]
  rfl

theorem Transition.shift {s s' : Core} {v v' : Stage} (step : Transition s v s' v') :
    Shift s.link v s'.link v' := by
  cases step with
  | begins caller unconnected free => exact .begins free rfl rfl rfl rfl rfl
  | equips caller id vacant detached => exact .equips rfl detached rfl rfl rfl rfl
  | installs caller id own detached => exact .installs own rfl rfl rfl rfl rfl
  | clears closes after =>
    rw [s.detach_link]
    refine .detaches (by cases after <;> rfl) (fun a handled => ?_) rfl rfl
    simpa [Stage.handles, Core.link] using handled
  | detaches g agent current =>
    rw [s.detach_link]
    refine .detaches rfl (fun a handled => ?_) rfl rfl
    simp only [Stage.handles, List.mem_cons, Option.mem_toList] at handled
    rcases handled with rfl | taken
    · exact .inl current
    · exact .inr taken
  | leaves caller id ok =>
    refine .leaves rfl ?_ ?_ ?_ ?_ <;> cases caller <;> cases ok <;> rfl
  | stays => exact .rests rfl (List.Subset.refl _) (fun _ => id) fun _ => id
  | givesUp | drops =>
    exact .rest rfl rfl (List.nil_subset _) (by simp [Stage.early]) (by simp [Stage.late])
  | closes closes after conn agent =>
    refine .rest rfl ?_ ?_ ?_ ?_ <;>
      cases after <;> simp [After.stage, Stage.inside, Stage.handles, Stage.early, Stage.late]
  | disconnects user =>
    refine .rest rfl ?_ (List.nil_subset _) (by simp [Stage.early]) (by simp [Stage.late])
    rcases user with rfl | rfl <;> rfl
  | lowers closes after | loads closes after =>
    refine .rest rfl ?_ (List.nil_subset _) (by simp [Stage.early]) (by simp [Stage.late])
    cases after <;> rfl
  | wipes closes after b =>
    obtain ⟨_, _, same⟩ := s.wipe_eq closes b
    rw [same]
    refine .rest rfl ?_ (List.nil_subset _) (by simp [Stage.early]) (by simp [Stage.late])
    cases after <;> rfl
  | writes g b raw =>
    obtain ⟨_, same, _⟩ := s.writeBuffer_snd b g raw
    rw [same]
    exact .rest rfl rfl (List.nil_subset _) (by simp [Stage.early]) (by simp [Stage.late])
  | _ => exact .rest rfl rfl (by simp [Stage.handles]) (by simp [Stage.early]) (by simp [Stage.late])

def Handled (stages : List Stage) (a : Nat) : Prop := ∃ v ∈ stages, a ∈ v.handles

structure Sound (l : Link) (stages : List Stage) : Prop where
  exclusive : Exclusive Stage.inside l.mutex stages
  channel : l.dataChannel = l.transportConn
  agent : ∀ g, l.transportConn = some g → l.iceAgent = some g
  known : ∀ a, l.iceAgent = some a → a < l.attempts
  retired : ∀ a, Handled stages a → a < l.attempts ∧ l.iceAgent ≠ some a
  fresh : ∀ id, (∃ u ∈ stages, u.early = some id) →
    id < l.attempts ∧ l.iceAgent ≠ some id ∧ ¬ Handled stages id
  late : ∀ id, (∃ u ∈ stages, u.late = some id) → ∀ g, l.transportConn = some g → g = id

section Steps
variable {l l' : Link} {before spawned : List Stage} {n : Nat} {v v' : Stage}

theorem Stage.early_inside {u : Stage} {id : Nat} (early : u.early = some id) :
    u.inside = some () := by
  cases u with
  | attempt => rfl
  | _ => cases early

theorem Stage.late_inside {u : Stage} {id : Nat} (late : u.late = some id) :
    u.inside = some () := by
  cases u with
  | attempt => rfl
  | _ => cases late

theorem Sound.shift (sound : Sound l before) (running : before[n]? = some v)
    (shift : Shift l v l' v') (idle : ∀ u ∈ spawned, u = .idle) :
    Sound l' (before.set n v' ++ spawned) := by
  have outside : ∀ u ∈ spawned, u.inside = none := fun u member => by rw [idle u member]; rfl
  have nothing (a : Nat) : ∀ u ∈ spawned, ¬ a ∈ u.handles := fun u member => by
    rw [idle u member]
    exact List.not_mem_nil
  have notEarly (id : Nat) : ∀ u ∈ spawned, ¬ u.early = some id := fun u member => by
    rw [idle u member]
    exact nofun
  have notLate (id : Nat) : ∀ u ∈ spawned, ¬ u.late = some id := fun u member => by
    rw [idle u member]
    exact nofun
  -- inside `connectWithContext` there is no second thread
  have alone {m : Nat} {u : Stage} (inside : v.inside = some ()) (apart : m ≠ n)
      (found : before[m]? = some u) : u.inside = none :=
    sound.exclusive.alone apart running inside found
  cases shift with
  | rests inside handles early late =>
    have kept {a : Nat} : Handled (before.set n v' ++ spawned) a → Handled before a :=
      exists_before running (fun new => handles new) (nothing a)
    refine ⟨(sound.exclusive.rest running inside).enter outside, sound.channel, sound.agent,
      sound.known, fun a handled => sound.retired a (kept handled), fun id about => ?_,
      fun id about => sound.late id (exists_before running (late id) (notLate id) about)⟩
    obtain ⟨bound, apart, unhandled⟩ := sound.fresh id
      (exists_before running (early id) (notEarly id) about)
    exact ⟨bound, apart, fun handled => unhandled (kept handled)⟩
  | begins free outside' inside handles early late =>
    have kept {a : Nat} : Handled (before.set n v' ++ spawned) a → Handled before a :=
      exists_before running (by simp [handles]) (nothing a)
    refine ⟨?_, sound.channel, sound.agent, fun a found => Nat.lt_succ_of_lt (sound.known a found),
      fun a handled => ?_, fun id about => ?_,
      fun id about => sound.late id (exists_before running (by simp [late]) (notLate id) about)⟩
    · refine (sound.exclusive.advance running ?_).enter outside
      rw [outside', inside, Link.mutex, if_neg (by simp [free])]
      exact .takes
    · obtain ⟨bound, apart⟩ := sound.retired a (kept handled)
      exact ⟨Nat.lt_succ_of_lt bound, apart⟩
    · rcases exists_after (notEarly id) about with ⟨m, u, _, found, other⟩ | own
      · obtain ⟨bound, apart, unhandled⟩ := sound.fresh id ⟨u, List.mem_of_getElem? found, other⟩
        exact ⟨Nat.lt_succ_of_lt bound, apart, fun handled => unhandled (kept handled)⟩
      · rw [early] at own
        cases own
        refine ⟨Nat.lt_succ_self _, fun found => ?_, fun handled => ?_⟩
        · exact absurd (sound.known _ found) (Nat.lt_irrefl _)
        · exact absurd (sound.retired _ (kept handled)).1 (Nat.lt_irrefl _)
  | equips own detached inside handles early late =>
    obtain ⟨bound, _, unhandled⟩ := sound.fresh _ ⟨v, List.mem_of_getElem? running, own⟩
    refine ⟨(sound.exclusive.rest running inside).enter outside, sound.channel, fun g found => ?_,
      fun a found => ?_, fun a handled => ?_, fun j about => ?_, fun j about g found => ?_⟩
    · rw [detached] at found
      cases found
    · cases found
      exact bound
    · have earlier : Handled before a := exists_before running (by simp [handles]) (nothing a) handled
      refine ⟨(sound.retired a earlier).1, ?_⟩
      rintro ⟨⟩
      exact unhandled earlier
    · rcases exists_after (notEarly j) about with ⟨m, u, apart, found, other⟩ | new
      · have inner := Stage.early_inside other
        rw [alone (Stage.early_inside own) apart found] at inner
        cases inner
      · rw [early] at new
        cases new
    · rw [detached] at found
      cases found
  | installs own before' inside handles early late =>
    have kept {a : Nat} : Handled (before.set n v' ++ spawned) a → Handled before a :=
      exists_before running (by simp [handles]) (nothing a)
    refine ⟨(sound.exclusive.rest running (inside.trans before'.symm)).enter outside, rfl,
      fun g found => ?_, sound.known, fun a handled => sound.retired a (kept handled),
      fun id about => ?_, fun j about g found => ?_⟩
    · cases found
      exact own
    · obtain ⟨bound, apart, unhandled⟩ := sound.fresh id
        (exists_before running (by simp [early]) (notEarly id) about)
      exact ⟨bound, apart, fun handled => unhandled (kept handled)⟩
    · cases found
      rcases exists_after (notLate j) about with ⟨m, u, apart, found, other⟩ | new
      · have inner := Stage.late_inside other
        rw [alone before' apart found] at inner
        cases inner
      · rw [late] at new
        exact Option.some.inj new
  | detaches inside handles early late =>
    have moved {a : Nat} (handled : Handled (before.set n v' ++ spawned) a) :
        Handled before a ∨ l.iceAgent = some a := by
      rcases exists_after (nothing a) handled with ⟨m, u, _, found, other⟩ | new
      · exact .inl ⟨u, List.mem_of_getElem? found, other⟩
      · exact .inr ((handles a new).elim (sound.agent a) id)
    refine ⟨(sound.exclusive.rest running inside).enter outside, rfl, nofun, nofun,
      fun a handled => ⟨?_, nofun⟩, fun id about => ?_, fun _ _ => nofun⟩
    · exact (moved handled).elim (fun old => (sound.retired a old).1) (sound.known a)
    · obtain ⟨bound, apart, unhandled⟩ := sound.fresh id
        (exists_before running (by simp [early]) (notEarly id) about)
      exact ⟨bound, nofun, fun handled => (moved handled).elim unhandled apart⟩
  | leaves inside outside' handles early late =>
    have kept {a : Nat} : Handled (before.set n v' ++ spawned) a → Handled before a :=
      exists_before running (by simp [handles]) (nothing a)
    refine ⟨?_, sound.channel, sound.agent, sound.known,
      fun a handled => sound.retired a (kept handled), fun id about => ?_,
      fun id about => sound.late id (exists_before running (by simp [late]) (notLate id) about)⟩
    · have held := sound.exclusive.claimed v (List.mem_of_getElem? running) () inside
      refine (sound.exclusive.advance running ?_).enter outside
      rw [outside', inside, held]
      exact .releases
    · obtain ⟨bound, apart, unhandled⟩ := sound.fresh id
        (exists_before running (by simp [early]) (notEarly id) about)
      exact ⟨bound, apart, fun handled => unhandled (kept handled)⟩

theorem exists_idle {p : Stage → Prop} (idle : ∀ u ∈ spawned, u = .idle) (inert : ¬ p .idle)
    (after : ∃ u ∈ before ++ spawned, p u) : ∃ u ∈ before, p u := by
  obtain ⟨u, member, holds⟩ := after
  rcases List.mem_append.mp member with old | started
  · exact ⟨u, old, holds⟩
  · rw [idle u started] at holds
    exact absurd holds inert

theorem Sound.enter (sound : Sound l before) (idle : ∀ u ∈ spawned, u = .idle) :
    Sound l (before ++ spawned) := by
  have kept {a : Nat} : Handled (before ++ spawned) a → Handled before a :=
    exists_idle idle List.not_mem_nil
  refine ⟨sound.exclusive.enter fun u member => by rw [idle u member]; rfl, sound.channel,
    sound.agent, sound.known, fun a handled => sound.retired a (kept handled), fun id about => ?_,
    fun id about => sound.late id (exists_idle idle nofun about)⟩
  obtain ⟨bound, apart, unhandled⟩ := sound.fresh id (exists_idle idle nofun about)
  exact ⟨bound, apart, fun handled => unhandled (kept handled)⟩

end Steps

def AttemptStage.pending : AttemptStage → Bool
  | .opening | .renewing | .resetting _ | .preparing | .negotiating | .installing => true
  | _ => false

def Stage.loaded : Stage → Option Nat
  | .finish _ _ (.wiping b) => some b
  | _ => none

/-- A `finishTransport` that has still to clear the flag or to reset the current
buffer `b`, or a reconnect loop that has succeeded and has still to check its
generation, or to disconnect after that. -/
def Stage.unfinished (b : Nat) : Stage → Bool
  | .finish _ _ .flagging | .finish _ _ .loading => true
  | .finish _ _ (.wiping b') => b' = b
  | .checking _ => true
  | .disconnect _ (.checked _) (.closing _ _) => false
  | .disconnect _ (.checked _) _ => true
  | _ => false

/-- About to act on whatever is current, with buffer `b` and generation `g` current,
for an older generation. -/
def Stage.threatens (b g : Nat) : Stage → Bool
  | .checking id => id < g
  | .disconnect _ (.checked _) (.closing _ _) => false
  | .disconnect _ (.checked id) _ => id < g
  | .disconnect _ (.failed (.loop _ _) _) _ => true
  | .attempt (.loop _ _) _ stage => stage.pending
  | v => v.unfinished b

/-- A transport is installed only when nothing is unfinished for an earlier one, and
a reconnect loop begins an attempt only when no transport is installed. -/
def orderly (k : Config Shared Thread) : Action → Bool
  | .advance n _ =>
    match k.threads[n]? with
    | some (.connect _ id (.negotiate (.setTransport _))) =>
      if k.shared.manualDisconnect = false ∧ k.shared.iceAgent = some id ∧
          k.shared.transportConn = none then
        !(stages k).any (·.unfinished k.shared.recvBuf)
      else true
    | some (.connecting (.loop _ _)) =>
      k.shared.connected || k.shared.connecting || k.shared.transportConn.isNone
    | _ => true
  | .event _ => true

structure Calm (s : Core) (stages : List Stage) : Prop where
  stored : s.recvBuf < s.buffers.length
  loaded : ∀ v ∈ stages, ∀ b, v.loaded = some b → b < s.buffers.length
  calm : ∀ g, s.transportConn = some g → ∀ v ∈ stages, v.threatens s.recvBuf g = false

theorem Stage.threatens_unfinished {b g : Nat} {v : Stage} (threatens : v.threatens b g = true)
    (outside : v.inside = none) : v.unfinished b = true := by
  cases v with
  | disconnect closes after stage =>
    cases after with
    | failed caller id => cases outside
    | checked id => cases stage <;> first | rfl | cases threatens
    | user | reconnect => exact threatens
  | checking id => rfl
  | attempt => cases outside
  | _ => exact threatens

theorem Transition.recvBuf_cases {s s' : Core} {v v' : Stage} (step : Transition s v s' v') :
    s'.recvBuf = s.recvBuf ∧ s'.buffers.length = s.buffers.length ∨
      s'.recvBuf = s.buffers.length ∧ s'.buffers.length = s.buffers.length + 1 := by
  cases step with
  | stores caller id limit => exact .inr ⟨rfl, List.length_append⟩
  | resets caller id b | finishResets g agent b => exact .inl ⟨rfl, List.length_modify ..⟩
  | wipes closes after b =>
    obtain ⟨_, _, same⟩ := s.wipe_eq closes b
    rw [same]
    exact .inl ⟨rfl, List.length_modify ..⟩
  | clears | detaches => exact .inl ⟨by simp, by simp⟩
  | writes g b raw =>
    obtain ⟨_, same, size⟩ := s.writeBuffer_snd b g raw
    rw [same]
    exact .inl ⟨rfl, size⟩
  | returns found read => exact .inl ⟨rfl, List.length_set⟩
  | _ => exact .inl ⟨rfl, rfl⟩

theorem Transition.installed_cases {s s' : Core} {v v' : Stage} (step : Transition s v s' v') {g : Nat}
    (present : s'.transportConn = some g) :
    s.transportConn = some g ∨
      s.transportConn = none ∧ ∃ caller, v = .attempt caller g .installing := by
  cases step with
  | installs caller id own detached =>
    cases present
    exact .inr ⟨detached, caller, rfl⟩
  | clears | detaches => simp at present
  | wipes closes after b =>
    obtain ⟨_, _, same⟩ := s.wipe_eq closes b
    rw [same] at present
    exact .inl present
  | writes g b raw =>
    obtain ⟨_, same, _⟩ := s.writeBuffer_snd b g raw
    rw [same] at present
    exact .inl present
  | _ => exact .inl present

theorem Transition.loaded_cases {s s' : Core} {v v' : Stage} (step : Transition s v s' v') {b : Nat}
    (loaded : v'.loaded = some b) : v.loaded = some b ∨ b = s.recvBuf := by
  cases step with
  | finishLoads g agent => exact .inr (Option.some.inj loaded).symm
  | stays => exact .inl loaded
  | leaves caller id ok => cases caller <;> cases ok <;> cases loaded
  | closes closes after conn agent => cases after <;> cases loaded
  | _ => cases loaded

structure Orderly (s s' : Core) (stages : List Stage) (v : Stage) : Prop where
  install : ∀ caller id, v = .attempt caller id .installing → s.transportConn = none →
    s'.transportConn ≠ none → ∀ u ∈ stages, u.unfinished s.recvBuf = false
  begin : ∀ generation origin, v = .calling (.loop generation origin) → s.connected = false →
    s.connecting = false → s.transportConn = none

section Steps
variable {s s' : Core} {before spawned : List Stage} {n : Nat} {v v' : Stage}

theorem Transition.threatens (step : Transition s v s' v') (sound : Sound s.link before)
    (running : before[n]? = some v) (orderly : Orderly s s' before v) {g : Nat}
    (present : s'.transportConn = some g) (threatens : v'.threatens s.recvBuf g = true) :
    s.transportConn = some g ∧ v.threatens s.recvBuf g = true := by
  cases step with
  | stays | drops => exact ⟨present, threatens⟩
  | begins caller unconnected free =>
    cases caller with
    | user => cases threatens
    | loop generation origin =>
      have detached := orderly.begin generation origin rfl unconnected free
      rw [show s.begin.transportConn = s.transportConn from rfl, detached] at present
      cases present
  | leaves caller id ok =>
    cases caller with
    | user => cases threatens
    | loop generation origin =>
      cases ok with
      | false => cases threatens
      | true =>
        have own := sound.late id ⟨_, List.mem_of_getElem? running, rfl⟩ g present
        have older : id < g := of_decide_eq_true threatens
        exact absurd own (Nat.ne_of_gt older)
  | clears | detaches => simp at present
  | installs caller id => cases caller <;> cases threatens
  | givesUp caller id early =>
    cases caller with
    | user => cases threatens
    | loop generation origin =>
      refine ⟨present, ?_⟩
      rcases early with rfl | rfl | rfl <;> rfl
  | closes closes after conn agent =>
    cases after with
    | failed caller id => cases caller <;> cases threatens
    | _ => cases threatens
  | disconnects user => rcases user with rfl | rfl <;> cases threatens
  | lowers closes after | loads closes after =>
    cases after with
    | failed caller id => cases caller <;> exact ⟨present, threatens⟩
    | _ => exact ⟨present, threatens⟩
  | wipes closes after b =>
    obtain ⟨_, _, same⟩ := s.wipe_eq closes b
    rw [same] at present
    cases after with
    | failed caller id => cases caller <;> exact ⟨present, threatens⟩
    | _ => exact ⟨present, threatens⟩
  | finishLowers | finishLoads => exact ⟨present, rfl⟩
  | renews caller id | reuses caller id | stores caller id | resets caller id | equips caller id
  | dials caller id | attaches caller id | connects caller id =>
    cases caller with
    | user => cases threatens
    | loop generation origin => first | exact ⟨present, rfl⟩ | cases threatens
  | _ => cases threatens

theorem Stage.threatens_renewed {u : Stage} {b b' g : Nat} (below : ∀ c, u.loaded = some c → c < b')
    (threatens : u.threatens b' g = true) : u.threatens b g = true := by
  cases u with
  | finish h agent stage =>
    cases stage with
    | wiping c =>
      have bound := below c rfl
      have same : c = b' := of_decide_eq_true threatens
      omega
    | _ => exact threatens
  | disconnect closes after stage =>
    cases after with
    | failed caller id => cases caller <;> exact threatens
    | checked id => cases stage <;> exact threatens
    | _ => exact threatens
  | attempt caller id stage => cases caller <;> exact threatens
  | _ => exact threatens

theorem Calm.transition (calm : Calm s before) (sound : Sound s.link before)
    (running : before[n]? = some v) (step : Transition s v s' v')
    (idle : ∀ u ∈ spawned, u = .idle) (orderly : Orderly s s' before v) :
    Calm s' (before.set n v' ++ spawned) := by
  have shorter : s.buffers.length ≤ s'.buffers.length := by
    rcases step.recvBuf_cases with ⟨_, size⟩ | ⟨_, size⟩ <;> omega
  have loaded : ∀ u ∈ before.set n v' ++ spawned, ∀ b, u.loaded = some b →
      b < s.buffers.length := by
    refine forall_advance calm.loaded (fun _ _ _ _ kept => kept) (fun b found => ?_)
      fun u member b found => ?_
    · rcases step.loaded_cases found with old | rfl
      · exact calm.loaded v (List.mem_of_getElem? running) b old
      · exact calm.stored
    · rw [idle u member] at found
      cases found
  refine ⟨?_, fun u member b found => Nat.lt_of_lt_of_le (loaded u member b found) shorter,
    fun g present u member => ?_⟩
  · have stored := calm.stored
    rcases step.recvBuf_cases with ⟨current, size⟩ | ⟨current, size⟩ <;> omega
  · rw [Bool.eq_false_iff]
    intro threatens
    have threatens : u.threatens s.recvBuf g = true := by
      rcases step.recvBuf_cases with ⟨current, _⟩ | ⟨current, _⟩
      · rwa [current] at threatens
      · exact Stage.threatens_renewed (fun c found => loaded u member c found) (current ▸ threatens)
    have inert : ∀ w ∈ spawned, ¬ w.threatens s.recvBuf g = true := fun w started => by
      rw [idle w started]
      exact nofun
    rcases exists_after inert ⟨u, member, threatens⟩ with ⟨m, w, apart, found, threatens⟩ | threatens
    · rcases step.installed_cases present with earlier | ⟨detached, caller, rfl⟩
      · rw [calm.calm g earlier w (List.mem_of_getElem? found)] at threatens
        cases threatens
      · -- the others have finished, and none is inside `connectWithContext`
        have outside := sound.exclusive.alone apart running rfl found
        have finished := orderly.install caller g rfl detached (by simp [present]) w
          (List.mem_of_getElem? found)
        rw [Stage.threatens_unfinished threatens outside] at finished
        cases finished
    · obtain ⟨earlier, threatens⟩ := step.threatens sound running orderly present threatens
      rw [calm.calm g earlier v (List.mem_of_getElem? running)] at threatens
      cases threatens

theorem Calm.enter (calm : Calm s before) (idle : ∀ u ∈ spawned, u = .idle) :
    Calm s (before ++ spawned) := by
  refine ⟨calm.stored, List.forall_mem_append.mpr ⟨calm.loaded, fun u started => ?_⟩,
    fun g present => List.forall_mem_append.mpr ⟨calm.calm g present, fun u started => ?_⟩⟩
  · rw [idle u started]
    exact nofun
  · rw [idle u started]
    rfl

/-- What a step leaves of generation `g`: the transport, the data channel and the
agent are installed and were not closed, the flag was not cleared, and the current
buffer was not reset. -/
structure Undisturbed (g : Nat) (s s' : Core) : Prop where
  transport : s'.transportConn = some g
  channel : s'.dataChannel = s.dataChannel
  agent : s'.iceAgent = s.iceAgent
  conns : s'.closedConns.count g = s.closedConns.count g
  agents : s'.closedAgents.count g = s.closedAgents.count g
  connected : s.connected = true → s'.connected = true
  buffer : s'.trace.count (.wiped s.recvBuf) = s.trace.count (.wiped s.recvBuf)

def Stage.older (g : Nat) : Stage → Bool
  | .finish h _ _ => h < g
  | .checking id | .disconnect _ (.checked id) _ => id < g
  | .attempt .user _ _ | .disconnect _ (.failed .user _) _ | .disconnect _ .user _
  | .disconnect _ .reconnect _ => false
  | _ => true

theorem undisturbed_closeAll {g : Nat} (present : s.transportConn = some g) {conn agent : Option Nat}
    (conns : conn ≠ some g) (agents : agent ≠ some g) : Undisturbed g s (s.closeAll conn agent) := by
  have absent {a : Option Nat} (apart : a ≠ some g) : a.toList.count g = 0 :=
    List.count_eq_zero.mpr fun member => apart (Option.mem_toList.mp member)
  refine ⟨present, rfl, rfl, ?_, ?_, id, rfl⟩
  · simp [Core.closeAll, List.count_append, absent conns]
  · simp [Core.closeAll, List.count_append, absent agents]

theorem Transition.undisturbed (step : Transition s v s' v') (sound : Sound s.link before)
    (running : before[n]? = some v) {g : Nat} (present : s.transportConn = some g)
    (calm : v.threatens s.recvBuf g = false) (older : v.older g = true) : Undisturbed g s s' := by
  have apart {a : Nat} (handled : a ∈ v.handles) : a ≠ g := by
    rintro rfl
    exact (sound.retired a ⟨v, List.mem_of_getElem? running, handled⟩).2 (sound.agent a present)
  have same : Undisturbed g s s := ⟨present, rfl, rfl, rfl, rfl, id, rfl⟩
  cases step with
  | begins | leaves => exact ⟨present, rfl, rfl, rfl, rfl, id, rfl⟩
  | connects => exact ⟨present, rfl, rfl, rfl, rfl, fun _ => rfl, rfl⟩
  | stores caller | resets caller | equips caller | installs caller =>
    cases caller with
    | user => cases older
    | loop => cases calm
  | givesUp caller id early =>
    cases caller with
    | user => cases older
    | loop => rcases early with rfl | rfl | rfl <;> cases calm
  | lowers closes after | wipes closes after | clears closes after =>
    cases after with
    | user | reconnect => cases older
    | failed caller id =>
      cases caller with
      | user => cases older
      | loop => cases calm
    | checked id => cases older.symm.trans calm
  | closes closes after conn agent =>
    cases after with
    | user | reconnect => cases older
    | failed caller id =>
      cases caller with
      | user => cases older
      | loop => cases calm
    | checked id =>
      refine undisturbed_closeAll present ?_ ?_
      · rintro rfl
        exact apart (by simp [Stage.handles]) rfl
      · rintro rfl
        exact apart (by simp [Stage.handles]) rfl
  | detaches h agent current =>
    rw [present] at current
    cases current
    exact absurd (of_decide_eq_true older) (Nat.lt_irrefl _)
  | finishLowers => cases calm
  | finishResets h agent b =>
    refine ⟨present, rfl, rfl, rfl, rfl, id, ?_⟩
    have other : b ≠ s.recvBuf := of_decide_eq_false calm
    simp [Core.resetBuffer, Core.emit, List.count_append, other]
  | finishCloses h agent =>
    refine undisturbed_closeAll present ?_ ?_
    · rintro ⟨⟩
      exact apart (by simp [Stage.handles]) rfl
    · rintro rfl
      exact apart (by simp [Stage.handles]) rfl
  | writes h b raw =>
    obtain ⟨_, equal, _⟩ := s.writeBuffer_snd b h raw
    rw [equal]
    exact ⟨present, rfl, rfl, rfl, rfl, id, rfl⟩
  | returns found read =>
    refine ⟨present, rfl, rfl, rfl, rfl, id, ?_⟩
    simp [Core.deliver, Core.emit, List.count_append]
  | _ => exact same

end Steps

theorem Thread.stage_installing {t : Thread} {caller : Caller} {id : Nat}
    (stage : t.stage = .attempt caller id .installing) :
    ∃ handshake, t = .connect caller id (.negotiate (.setTransport handshake)) := by
  cases t with
  | connect other j pos =>
    cases pos with
    | negotiate pos =>
      cases pos with
      | setTransport handshake =>
        cases stage
        exact ⟨handshake, rfl⟩
      | _ => cases stage
    | _ => cases stage
  | finish g agent pos => cases pos <;> cases stage
  | reader g b channel pc => cases pc <;> cases stage
  | _ => cases stage

theorem Thread.stage_calling {t : Thread} {caller : Caller} (stage : t.stage = .calling caller) :
    t = .connecting caller := by
  cases t with
  | connecting other =>
    cases stage
    rfl
  | finish g agent pos => cases pos <;> cases stage
  | reader g b channel pc => cases pc <;> cases stage
  | _ => cases stage

theorem orderly_spec {P : Primitives} {client : Client} {options : ClientOptions}
    {k k' : Config Shared Thread} {n : Nat} {choice : Choice}
    (conforms : orderly k (.advance n choice) = true)
    (takes : (program P client options).Takes k (.advance n choice) k') {v : Stage}
    (running : (stages k)[n]? = some v) :
    Orderly k.shared.toCore k'.shared.toCore (stages k) v := by
  simp only [stages, List.getElem?_map, Option.map_eq_some_iff] at running
  obtain ⟨t, found, rfl⟩ := running
  constructor
  · intro caller id stage detached installed u member
    obtain ⟨handshake, rfl⟩ := Thread.stage_installing stage
    cases takes with
    | stays => exact absurd detached installed
    | advances running moved =>
      rw [found] at running
      cases running
      simp only [program, advance, connectStep, negotiateStep] at moved
      split_ifs at moved with accepted
      · simp only [orderly, found, accepted, and_self, if_true, Bool.not_eq_true',
          List.any_eq_false] at conforms
        simpa using conforms u member
      · cases moved
        exact absurd detached installed
  · intro generation origin stage unconnected free
    have same := Thread.stage_calling stage
    subst same
    simpa [orderly, found, unconnected, free] using conforms

section Runs
variable (P : Primitives) (client : Client) (options : ClientOptions)

theorem sound_start : Sound (Shared.start options).link [] := by
  have nobody {p : Stage → Prop} : ¬ ∃ u ∈ ([] : List Stage), p u := by simp
  exact ⟨⟨nofun, rfl⟩, rfl, nofun, nofun, fun _ handled => absurd handled nobody,
    fun _ about => absurd about nobody, fun _ about => absurd about nobody⟩

variable {P client options} in
theorem Sound.takes {k k' : Config Shared Thread} {a : Action}
    (sound : Sound k.shared.link (stages k)) (takes : (program P client options).Takes k a k') :
    Sound k'.shared.link (stages k') := by
  have moved := takes_moved takes
  generalize k'.shared.toCore = s', stages k' = later at moved ⊢
  cases moved with
  | rests idle => exact sound.enter idle
  | moves running step idle => exact sound.shift running step.shift idle

theorem run_calm (actions : List Action)
    (conforms : (program P client options).along orderly ⟨Shared.start options, []⟩ actions = true) :
    Sound (run P client options actions).shared.link (stages (run P client options actions)) ∧
      Calm (run P client options actions).shared.toCore (stages (run P client options actions)) := by
  refine (program P client options).run_along_keeps
    (fun k => Sound k.shared.link (stages k) ∧ Calm k.shared.toCore (stages k)) orderly ?_ ?_
    actions conforms
  · rintro k a k' ⟨sound, calm⟩ steps takes
    have moved := takes_moved takes
    generalize after : stages k' = later at moved
    generalize core : k'.shared.toCore = s' at moved
    cases moved with
    | rests idle => exact ⟨core ▸ sound.enter idle, core ▸ calm.enter idle⟩
    | moves running step idle =>
      have ordered := orderly_spec steps takes running
      rw [core] at ordered
      exact ⟨sound.shift running step.shift idle, calm.transition sound running step idle ordered⟩
  · exact ⟨sound_start options, ⟨Nat.zero_lt_one, nofun, nofun⟩⟩

/-- The generation a thread acts for: that of its transport, for a reconnect loop the
one that failed, and after a success of the loop the one it has established. -/
def Thread.actsFor : Thread → Option Nat
  | .reader g _ _ _ | .monitor g _ | .finish g _ _ => some g
  | .loop _ origin _ | .connecting (.loop _ origin) | .connect (.loop _ origin) _ _
  | .disconnect _ (.failed (.loop _ origin) _) _ => some origin
  | .checking _ id | .disconnect _ (.checked id) _ => some id
  | _ => none

theorem Thread.actsFor_older {t : Thread} {g g' : Nat} (acts : t.actsFor = some g)
    (newer : g < g') : t.stage.older g' = true := by
  cases t with
  | reader h b channel pc => cases pc <;> rfl
  | finish h agent pos =>
    cases acts
    cases pos <;> simp [Thread.stage, FinishPos.stage, Stage.older, newer]
  | connect caller id pos =>
    cases caller with
    | user => cases acts
    | loop => rfl
  | checking generation id =>
    cases acts
    simpa [Thread.stage, Stage.older] using newer
  | disconnect closes after pos =>
    cases after with
    | user | reconnect => cases acts
    | failed caller id =>
      cases caller with
      | user => cases acts
      | loop => rfl
    | checked id =>
      cases acts
      simpa [Thread.stage, Stage.older] using newer
  | _ => rfl

/-- In every run whose steps are `orderly`, a step that is taken for an older
generation leaves the newer one that is installed undisturbed. A generation counts
from the installation of its transport. -/
theorem newer_generation_undisturbed (actions : List Action)
    (conforms : (program P client options).along orderly ⟨Shared.start options, []⟩ actions = true)
    (n : Nat) (choice : Choice) (t : Thread) (g g' : Nat)
    (running : (run P client options actions).threads[n]? = some t) (acts : t.actsFor = some g)
    (installed : (run P client options actions).shared.transportConn = some g') (newer : g < g') :
    Undisturbed g' (run P client options actions).shared.toCore
      (run P client options (actions ++ [.advance n choice])).shared.toCore := by
  obtain ⟨sound, calm⟩ := run_calm P client options actions conforms
  have takes := (program P client options).step_takes (run P client options actions)
    (.advance n choice)
  have last : run P client options (actions ++ [.advance n choice]) =
      (program P client options).step (run P client options actions) (.advance n choice) :=
    (program P client options).run_append _ _ _
  rw [last]
  generalize (program P client options).step (run P client options actions) (.advance n choice) = k'
    at takes
  generalize run P client options actions = k at *
  have there : (stages k)[n]? = some t.stage := by simp [stages, running]
  have moved := takes_moved takes
  generalize k'.shared.toCore = s', stages k' = later at moved ⊢
  cases moved with
  | rests idle => exact ⟨installed, rfl, rfl, rfl, rfl, id, rfl⟩
  | moves found step idle =>
    rw [there] at found
    cases found
    exact step.undisturbed sound there installed
      (calm.calm g' installed _ (List.mem_of_getElem? there)) (Thread.actsFor_older acts newer)

namespace Sample

def replaced : List Action :=
  .event .disconnect :: goes 4 9 ++ .event .connect :: attempt 5 1 6 9 7

def renewed : List Action := .event .connect :: attempt 0 0 1 9 7 ++ replaced

/-- The transport of attempt 0 fails and is detached; before `finishTransport` goes on,
the application disconnects and connects again. -/
def paused : List Action :=
  .event .connect :: attempt 0 0 1 9 7 ++ fails 2 :: goes 2 2 ++ replaced

end Sample

theorem Sample.renewed_conforms :
    (program Plain.primitives Plain.client Sample.options).along orderly
      ⟨Shared.start Sample.options, []⟩ Sample.renewed = true ∧
    (run Plain.primitives Plain.client Sample.options Sample.renewed).threads[3]?.any
      (fun (t : Thread) => t.actsFor = some 0) = true ∧
    (run Plain.primitives Plain.client Sample.options Sample.renewed).shared.transportConn =
      some 1 := by
  decide +kernel

theorem newer_generation_undisturbed_sample :
    Undisturbed 1 (run Plain.primitives Plain.client Sample.options Sample.renewed).shared.toCore
      (run Plain.primitives Plain.client Sample.options
        (Sample.renewed ++ [.advance 3 {}])).shared.toCore := by
  obtain ⟨conforms, acts, installed⟩ := Sample.renewed_conforms
  obtain ⟨t, running, acts⟩ := (Option.any_eq_true ..).mp acts
  exact newer_generation_undisturbed Plain.primitives Plain.client Sample.options Sample.renewed
    conforms 3 {} t 0 1 running (of_decide_eq_true acts) installed Nat.zero_lt_one

/-- `finishTransport` of attempt 0 clears the flag of attempt 1. -/
theorem newer_generation_lowered :
    (run Plain.primitives Plain.client Sample.options Sample.paused).threads[2]?.any
      (·.actsFor = some 0) = true ∧
    (run Plain.primitives Plain.client Sample.options Sample.paused).shared.transportConn =
      some 1 ∧
    (run Plain.primitives Plain.client Sample.options Sample.paused).shared.connected = true ∧
    (run Plain.primitives Plain.client Sample.options
      (Sample.paused ++ [.advance 2 {}])).shared.transportConn = some 1 ∧
    (run Plain.primitives Plain.client Sample.options
      (Sample.paused ++ [.advance 2 {}])).shared.connected = false := by
  decide +kernel

end Runs

end Telekit.ClientMachine
