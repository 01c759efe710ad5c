import Telekit.NegotiationOwnership
import Telekit.ServerLeases
import Telekit.ServerRegistry

/-! `Server.Close` beside the goroutines of the running server. It signals `closeCh`,
closes every connection that its traversal of the map finds, and clears the map under
`connectionsMu`. The hello handlers take turns under `helloMu`.

The traversal is lock-free: an entry that is there from its beginning until it is
reached is visited, and an entry that is added meanwhile may or may not be. -/

namespace Telekit.ServerMachine
open Interleaving

variable {cache : Lru.Cache Bytes Int}

def Shared.entries (s : Shared cache) : List Nat :=
  (List.range s.pool.length).filter fun i =>
    s.pool[i]?.any fun c => decide (s.connections c.sourceId = some i)

variable {i : Nat}

theorem Shared.mem_entries {s : Shared cache} : i ∈ s.entries ↔ s.Registered i := by
  simp only [entries, List.mem_filter, List.mem_range, Option.any_eq_true, decide_eq_true_eq,
    Registered, and_iff_right_iff_imp]
  rintro ⟨c, found, _⟩
  exact (List.getElem?_eq_some_iff.mp found).1

def Thread.done : Thread → Bool
  | .finished => true
  | _ => false

namespace Shutdown

/-- Where `Server.Close` is; `todo` are the entries its traversal still has to reach, and
`n` is the goroutine that runs its call of `Connection.Close`. -/
inductive Pos
  | idle
  | signalled
  | iterating (todo : List Nat)
  | visiting (n : Nat) (todo : List Nat)
  | returned
  deriving DecidableEq

structure State (cache : Lru.Cache Bytes Int) where
  config : Config (Shared cache) Thread
  helloMu : Option Nat := none
  pos : Pos := .idle

inductive Turn
  | goroutine (action : Action)
  | close (visit : Option Nat)

section Step
variable {P : Primitives} (server : Server P)

/-- The holder of `helloMu` after a step of goroutine `n`: a handler takes it first of
all and returns it when it ends. -/
def handed (helloMu : Option Nat) (n : Nat) (t t' : Thread) : Option Nat :=
  let holder := if t.stage = .waits then some n else helloMu
  if holder = some n ∧ t'.done then none else holder

def goroutine (s : State cache) : Action → State cache
  | .advance n choice =>
    let config := (program server).step s.config (.advance n choice)
    match s.config.threads[n]?, config.threads[n]? with
    | some t, some t' =>
      if t.stage = .waits ∧ s.helloMu.isSome then s
      else { s with config := config, helloMu := handed s.helloMu n t t' }
    | _, _ => s
  | .event .shutdown => s
  | .event .clear => s
  | .event call => { s with config := (program server).step s.config (.event call) }

def close (s : State cache) (visit : Option Nat) : State cache :=
  match s.pos with
  | .idle =>
    { s with config := (program server).step s.config (.event .shutdown), pos := .signalled }
  | .signalled => { s with pos := .iterating s.config.shared.entries }
  | .iterating todo =>
    match visit, todo with
    | some i, todo =>
      if i ∈ todo ∨ i ∈ s.config.shared.entries then
        { s with
          config := (program server).step s.config (.event (.close i))
          pos := .visiting s.config.threads.length (todo.erase i) }
      else s
    | none, i :: todo =>
      if i ∈ s.config.shared.entries then s else { s with pos := .iterating todo }
    | none, [] =>
      if s.config.shared.connectionsMu.isSome then s
      else { s with config := (program server).step s.config (.event .clear), pos := .returned }
  | .visiting n todo =>
    if s.config.threads[n]?.any (·.done) then { s with pos := .iterating todo } else s
  | .returned => s

def step (s : State cache) : Turn → State cache
  | .goroutine action => goroutine server s action
  | .close visit => close server s visit

def start (cache : Lru.Cache Bytes Int) : State cache := { config := ⟨Shared.start cache, []⟩ }

def run (cache : Lru.Cache Bytes Int) (turns : List Turn) : State cache :=
  turns.foldl (step server) (start cache)

/-- The traversal begins while no `setConnection` is between its check and its write. -/
def beginsUnlocked (s : State cache) : Turn → Bool
  | .goroutine _ => true
  | .close _ =>
    match s.pos with
    | .signalled => s.config.shared.connectionsMu.isNone
    | _ => true

def orderly : State cache → List Turn → Bool
  | _, [] => true
  | s, turn :: turns => beginsUnlocked s turn && orderly (step server s turn) turns

end Step

structure Registry (c : Config (Shared cache) Thread) : Prop where
  keyed : c.shared.Keyed
  informed : ∀ t ∈ c.threads, t.stage.Informed c.shared

def Tracked (c : Config (Shared cache) Thread) (known : Nat → Prop) : Prop :=
  ∀ i, i < c.shared.pool.length →
    c.shared.Closed i ∨ known i ∨ ∃ t ∈ c.threads, t.stage.holds i

/-- The server during the traversal: nothing is registered any more, and what is open
will be visited or is about to be closed by its handler. -/
structure Drains (c : Config (Shared cache) Thread) (todo : List Nat) : Prop where
  shut : c.shared.closed = true
  unset : ∀ t ∈ c.threads, ∀ i, t.stage ≠ .sets i
  entries : ∀ i ∈ todo, c.shared.Closed i ∨ c.shared.Registered i
  tracked : Tracked c (· ∈ todo)

def Serial (helloMu : Option Nat) (threads : List Thread) : Prop :=
  ∀ (n : Nat) t, threads[n]? = some t → t.stage.handles = true → helloMu = some n

section Walk
variable {c : Config (Shared cache) Thread} {n : Nat} {t t' : Thread} {s' : Shared cache}
  {spawned : List Thread}

theorem informed_unhandled {v : Stage} (s : Shared cache) (unhandled : v.handles = false) :
    v.Informed s := by
  cases v with
  | idle | waits | closes => trivial
  | looked | replaces | makes | checks | sets => cases unhandled

variable {helloMu : Option Nat}

theorem Registry.walks (registry : Registry c) (running : c.threads[n]? = some t)
    (walks : Walks c.shared s' t.stage t'.stage) (evolves : c.shared.Evolves s')
    (idle : ∀ u ∈ spawned, u.stage = .idle) (serial : Serial helloMu c.threads) :
    Registry ⟨s', c.threads.set n t' ++ spawned⟩ := by
  have known := registry.informed t (List.mem_of_getElem? running)
  refine ⟨walks.keyed evolves registry.keyed, forall_advance registry.informed ?_
    (walks.informed evolves registry.keyed known) fun u new => ?_⟩
  · intro m u other found informed
    by_cases handles : u.stage.handles = true
    · refine informed.mono evolves fun id j entry => walks.shrinks (fun i sets => other ?_) entry
      have own := serial n t running (by rw [sets]; rfl)
      rw [serial m u found handles] at own
      exact Option.some.inj own
    · exact informed_unhandled s' (by simpa using handles)
  · rw [idle u new]
    trivial

theorem Registry.beside (registry : Registry c) (evolves : c.shared.Evolves s')
    (shrinks : ∀ id j, s'.connections id = some j → c.shared.connections id = some j)
    (fresh : ∀ u ∈ spawned, u.stage.handles = false) :
    Registry ⟨s', c.threads ++ spawned⟩ := by
  refine ⟨fun id i entry => evolves.sourced (registry.keyed id i (shrinks id i entry)),
    fun u member => ?_⟩
  rcases List.mem_append.mp member with old | new
  · exact (registry.informed u old).mono evolves shrinks
  · exact informed_unhandled s' (fresh u new)

theorem Tracked.walks {known known' : Nat → Prop} (tracked : Tracked c known)
    (running : c.threads[n]? = some t) (walks : Walks c.shared s' t.stage t'.stage)
    (evolves : c.shared.Evolves s') (kept : ∀ i, known i → s'.Closed i ∨ known' i)
    (added : ∀ i, t.stage = .sets i → s'.Registered i → known' i) :
    Tracked ⟨s', c.threads.set n t' ++ spawned⟩ known' := by
  intro i inside
  by_cases old : i < c.shared.pool.length
  · rcases tracked i old with closed | known | held
    · exact .inl (closed.mono evolves)
    · exact (kept i known).imp_right .inl
    · by_cases keeps : t.stage.holds i → t'.stage.holds i
      · exact .inr (.inr (exists_advance running keeps spawned held))
      · rw [Classical.not_imp] at keeps
        rcases walks.holds keeps.1 with holds | closed | ⟨sets, registered⟩
        · exact absurd holds keeps.2
        · exact .inl closed
        · exact .inr (.inl (added i sets registered))
  · exact .inr (.inr (exists_own running (walks.made (Nat.le_of_not_lt old) inside) spawned))

theorem Tracked.beside {known known' : Nat → Prop} (tracked : Tracked c known)
    (length : s'.pool.length = c.shared.pool.length) (evolves : c.shared.Evolves s')
    (kept : ∀ i, known i → s'.Closed i ∨ known' i ∨ ∃ u ∈ spawned, u.stage.holds i) :
    Tracked ⟨s', c.threads ++ spawned⟩ known' := by
  intro i inside
  rcases tracked i (length ▸ inside) with closed | known | ⟨u, member, holds⟩
  · exact .inl (closed.mono evolves)
  · exact (kept i known).imp_right (Or.imp_right fun ⟨u, member, holds⟩ =>
      ⟨u, List.mem_append_right _ member, holds⟩)
  · exact .inr (.inr ⟨u, List.mem_append_left _ member, holds⟩)

theorem Drains.walks {todo : List Nat} (drains : Drains c todo) (registry : Registry c)
    (running : c.threads[n]? = some t) (walks : Walks c.shared s' t.stage t'.stage)
    (evolves : c.shared.Evolves s') (idle : ∀ u ∈ spawned, u.stage = .idle) :
    Drains ⟨s', c.threads.set n t' ++ spawned⟩ todo := by
  have member := List.mem_of_getElem? running
  have unset := drains.unset t member
  refine ⟨walks.shut.trans drains.shut, ?_, fun i waits => ?_, ?_⟩
  · refine forall_advance drains.unset (fun _ _ _ _ unset => unset)
      (walks.refused drains.shut unset) fun u new i => ?_
    rw [idle u new]
    exact Stage.noConfusion
  · rcases drains.entries i waits with closed | registered
    · exact .inl (closed.mono evolves)
    · exact walks.registered evolves (registry.informed t member) registered
  · exact drains.tracked.walks running walks evolves (fun _ => .inr)
      fun i sets => absurd sets (unset i)

theorem Drains.beside {todo : List Nat} (drains : Drains c todo)
    (fresh : ∀ u ∈ spawned, u.stage.handles = false) :
    Drains ⟨c.shared, c.threads ++ spawned⟩ todo := by
  refine ⟨drains.shut, fun u member i sets => ?_, drains.entries,
    drains.tracked.beside rfl (Shared.Quiet.refl _).evolves fun _ known => .inr (.inl known)⟩
  rcases List.mem_append.mp member with old | new
  · exact drains.unset u old i sets
  · have unhandled := fresh u new
    rw [sets] at unhandled
    cases unhandled

theorem done_unhandled (done : t.done = true) : t.stage.handles = false := by
  cases t with
  | finished => rfl
  | hello | closing | timer | offer | ice => cases done

theorem handed_kept {m : Nat} (held : (if t.stage = .waits then some n else helloMu) = some m)
    (runs : m = n → t'.stage.handles = true) : handed helloMu n t t' = some m := by
  simp only [handed, held, Option.some.injEq, ite_eq_right_iff]
  rintro ⟨same, done⟩
  rw [done_unhandled done] at runs
  cases runs same

theorem Serial.beside {threads : List Thread} (serial : Serial helloMu threads)
    (fresh : ∀ u ∈ spawned, u.stage.handles = false) : Serial helloMu (threads ++ spawned) := by
  intro m u found handles
  rw [List.getElem?_append] at found
  split_ifs at found
  · exact serial m u found handles
  · rw [fresh u (List.mem_of_getElem? found)] at handles
    cases handles

theorem Serial.walks (serial : Serial helloMu c.threads) (running : c.threads[n]? = some t)
    (walks : Walks c.shared s' t.stage t'.stage) (idle : ∀ u ∈ spawned, u.stage = .idle)
    (free : t.stage = .waits → helloMu = none) :
    Serial (handed helloMu n t t') (c.threads.set n t' ++ spawned) := by
  refine Serial.beside (fun m u found handles => ?_) fun u new => by rw [idle u new]; rfl
  rw [List.getElem?_set] at found
  split_ifs at found with same
  · cases found
    refine handed_kept ?_ fun _ => handles
    rcases walks.handles handles with before | waits
    · rw [serial n t running before, same, ite_self]
    · rw [if_pos waits, same]
  · have held := serial m u found handles
    refine handed_kept ?_ fun own => absurd own.symm same
    rw [if_neg, held]
    intro waits
    rw [free waits] at held
    cases held

end Walk

section Run
variable {P : Primitives} {server : Server P} {c : Config (Shared cache) Thread} {s : State cache}

theorem advance_walked (holds : Invariant server c) {n : Nat} {t : Thread}
    (running : c.threads[n]? = some t) (choice : Choice) :
    ∃ s' t' spawned,
      (program server).step c (.advance n choice) = ⟨s', c.threads.set n t' ++ spawned⟩ ∧
      Walks c.shared s' t.stage t'.stage ∧ c.shared.Evolves s' ∧
      ∀ u ∈ spawned, u.stage = .idle := by
  have member := List.mem_of_getElem? running
  cases moved : advance server choice c.shared t with
  | none =>
    refine ⟨c.shared, t, [], ?_, .still (.refl _) rfl, (Shared.Quiet.refl _).evolves, by simp⟩
    obtain ⟨inside, rfl⟩ := List.getElem?_eq_some_iff.mp running
    simp only [Program.step, running, program, moved, List.set_getElem_self, List.append_nil]
  | some next =>
    obtain ⟨s', t', spawned⟩ := next
    obtain ⟨walks, idle⟩ := (advance_steps moved).walks (holds.torn t member)
    refine ⟨s', t', spawned, by simp only [Program.step, running, program, moved], walks, ?_, idle⟩
    exact holds.evolves (.advances running moved)

theorem event_beside (server : Server P) (call : Call) (shutdown : call ≠ .shutdown)
    (clear : call ≠ .clear) (c : Config (Shared cache) Thread) : ∃ spawned,
      (program server).step c (.event call) = ⟨c.shared, c.threads ++ spawned⟩ ∧
      ∀ u ∈ spawned, u.stage.handles = false := by
  have started (u : Thread) (fresh : u.stage.handles = false) :
      ∀ v ∈ [u], v.stage.handles = false := by simpa using fresh
  have stays : ∃ spawned, c = ⟨c.shared, c.threads ++ spawned⟩ ∧
      ∀ u ∈ spawned, u.stage.handles = false := ⟨[], by simp, by simp⟩
  cases call with
  | hello | offer => exact ⟨_, rfl, started _ rfl⟩
  | close | timer =>
    simp only [Program.step, program, occur]
    split_ifs
    · exact ⟨_, rfl, started _ rfl⟩
    · exact stays
  | shutdown => exact absurd rfl shutdown
  | clear => exact absurd rfl clear

def Stands (c : Config (Shared cache) Thread) : Pos → Prop
  | .idle => Tracked c c.shared.Registered
  | .signalled => c.shared.closed = true ∧ Tracked c c.shared.Registered
  | .iterating todo | .visiting _ todo => Drains c todo
  | .returned => Drains c [] ∧ ∀ id, c.shared.connections id = none

structure Sound (server : Server P) (s : State cache) : Prop where
  reached : ∃ actions, s.config = ServerMachine.run server cache actions
  serial : Serial s.helloMu s.config.threads
  registry : Registry s.config
  stands : Stands s.config s.pos

theorem Stands.walks {pos : Pos} (stands : Stands c pos) (registry : Registry c) {n : Nat}
    {t t' : Thread} {s' : Shared cache} {spawned : List Thread} (running : c.threads[n]? = some t)
    (walks : Walks c.shared s' t.stage t'.stage) (evolves : c.shared.Evolves s')
    (idle : ∀ u ∈ spawned, u.stage = .idle) :
    Stands ⟨s', c.threads.set n t' ++ spawned⟩ pos := by
  have informed := registry.informed t (List.mem_of_getElem? running)
  have tracked (before : Tracked c c.shared.Registered) :
      Tracked ⟨s', c.threads.set n t' ++ spawned⟩ s'.Registered :=
    before.walks running walks evolves (fun _ => walks.registered evolves informed) fun _ _ => id
  cases pos with
  | idle => exact tracked stands
  | signalled => exact ⟨walks.shut.trans stands.1, tracked stands.2⟩
  | iterating todo | visiting n todo => exact Drains.walks stands registry running walks evolves idle
  | returned =>
    obtain ⟨drains, empty⟩ := stands
    refine ⟨drains.walks registry running walks evolves idle, fun id => ?_⟩
    refine Option.eq_none_iff_forall_ne_some.mpr fun j entry => ?_
    have before := walks.shrinks (drains.unset t (List.mem_of_getElem? running)) entry
    rw [empty id] at before
    cases before

theorem Stands.beside {pos : Pos} (stands : Stands c pos) {spawned : List Thread}
    (fresh : ∀ u ∈ spawned, u.stage.handles = false) :
    Stands ⟨c.shared, c.threads ++ spawned⟩ pos := by
  have tracked (before : Tracked c c.shared.Registered) :
      Tracked ⟨c.shared, c.threads ++ spawned⟩ c.shared.Registered :=
    before.beside rfl (Shared.Quiet.refl _).evolves fun _ known => .inr (.inl known)
  cases pos with
  | idle => exact tracked stands
  | signalled => exact ⟨stands.1, tracked stands.2⟩
  | iterating todo | visiting n todo => exact Drains.beside stands fresh
  | returned => exact ⟨stands.1.beside fresh, stands.2⟩

theorem Sound.invariant (sound : Sound server s) : Invariant server s.config := by
  obtain ⟨actions, same⟩ := sound.reached
  rw [same]
  exact run_invariant server cache actions

theorem Sound.reaches (sound : Sound server s) (a : Action) :
    ∃ actions, (program server).step s.config a = ServerMachine.run server cache actions := by
  obtain ⟨actions, same⟩ := sound.reached
  refine ⟨actions ++ [a], ?_⟩
  rw [same, ServerMachine.run, ServerMachine.run, Program.run_append, Program.run_cons,
    Program.run_nil]

theorem Sound.starts (sound : Sound server s) (call : Call) (shutdown : call ≠ .shutdown)
    (clear : call ≠ .clear) :
    Sound server { s with config := (program server).step s.config (.event call) } := by
  have reached := sound.reaches (.event call)
  obtain ⟨spawned, stepped, fresh⟩ := event_beside server call shutdown clear s.config
  rw [stepped] at reached ⊢
  refine ⟨reached, sound.serial.beside fresh, ?_, sound.stands.beside fresh⟩
  exact sound.registry.beside (Shared.Quiet.refl _).evolves (fun _ _ => id) fresh

theorem Sound.goroutine (sound : Sound server s) (a : Action) :
    Sound server (goroutine server s a) := by
  cases a with
  | advance n choice =>
    simp only [Shutdown.goroutine]
    split
    next t t' running after =>
      split_ifs with blocked
      · exact sound
      · obtain ⟨s', t₁, spawned, stepped, walks, evolves, idle⟩ :=
          advance_walked sound.invariant running choice
        have reached := sound.reaches (.advance n choice)
        have inside := (List.getElem?_eq_some_iff.mp running).1
        rw [stepped] at after reached ⊢
        rw [List.getElem?_append_left (by simpa using inside), List.getElem?_set_self inside,
          Option.some.injEq] at after
        subst after
        refine ⟨reached, sound.serial.walks running walks idle fun waits => ?_,
          sound.registry.walks running walks evolves idle sound.serial,
          sound.stands.walks sound.registry running walks evolves idle⟩
        simpa [waits] using blocked
    · exact sound
  | event call =>
    cases call with
    | shutdown | clear => exact sound
    | hello | offer | close | timer => exact sound.starts _ nofun nofun

theorem Drains.without {todo rest : List Nat} (drains : Drains c todo)
    (covered : c.shared.Closed i ∨ ∃ t ∈ c.threads, t.stage.holds i)
    (left : ∀ j ∈ todo, j = i ∨ j ∈ rest) (subset : ∀ j ∈ rest, j ∈ todo) : Drains c rest := by
  refine ⟨drains.shut, drains.unset, fun j member => drains.entries j (subset j member),
    fun j inside => ?_⟩
  rcases drains.tracked j inside with closed | member | held
  · exact .inl closed
  · rcases left j member with rfl | member
    · exact covered.imp_right .inr
    · exact .inr (.inl member)
  · exact .inr (.inr held)

theorem Drains.begins (holds : Invariant server c) (shut : c.shared.closed = true)
    (tracked : Tracked c c.shared.Registered) (unlocked : c.shared.connectionsMu = none) :
    Drains c c.shared.entries := by
  refine ⟨shut, fun t member i sets => ?_, fun i member => .inr (Shared.mem_entries.mp member),
    fun i inside => (tracked i inside).imp_right (Or.imp_left Shared.mem_entries.mpr)⟩
  have registers : t.registers = some i := by
    cases t with
    | hello input data pos =>
      cases pos with
      | setAct j =>
        cases sets
        rfl
      | _ => cases sets
    | closing j pos next => cases pos <;> cases next <;> cases sets
    | _ => cases sets
  have claimed := holds.exclusive.claimed t member i registers
  rw [unlocked] at claimed
  cases claimed

theorem Sound.signals (sound : Sound server s)
    (tracked : Tracked s.config s.config.shared.Registered) :
    Sound server
      { s with config := (program server).step s.config (.event .shutdown), pos := .signalled } := by
  have evolves := sound.invariant.evolves ((program server).step_takes _ (.event .shutdown)).moves
  exact ⟨sound.reaches (.event .shutdown), sound.serial.beside (by simp),
    sound.registry.beside evolves (fun _ _ => id) (by simp), rfl,
    tracked.beside rfl evolves fun _ known => .inr (.inl known)⟩

theorem Sound.visits (sound : Sound server s) {todo : List Nat} (drains : Drains s.config todo)
    (inside : i < s.config.shared.pool.length) :
    Sound server { s with
      config := (program server).step s.config (.event (.close i))
      pos := .visiting s.config.threads.length (todo.erase i) } := by
  have started := sound.starts (.close i) nofun nofun
  have stepped : (program server).step s.config (.event (.close i)) =
      ⟨s.config.shared, s.config.threads ++ [.closing i .store none]⟩ := by
    simp only [Program.step, program, occur, if_pos inside]
  refine ⟨started.reached, started.serial, started.registry, ?_⟩
  simp only [stepped, Stands]
  have beside : Drains ⟨s.config.shared, s.config.threads ++ [.closing i .store none]⟩ todo :=
    drains.beside (by simp [Thread.stage, Stage.handles])
  refine beside.without (i := i) (.inr ⟨.closing i .store none, by simp, rfl⟩) (fun j member => ?_)
    fun j => List.mem_of_mem_erase
  by_cases same : j = i
  · exact .inl same
  · exact .inr ((List.mem_erase_of_ne same).mpr member)

theorem Sound.clears (sound : Sound server s) (drains : Drains s.config [])
    (unlocked : s.config.shared.connectionsMu = none) :
    Sound server
      { s with config := (program server).step s.config (.event .clear), pos := .returned } := by
  have evolves := sound.invariant.evolves ((program server).step_takes _ (.event .clear)).moves
  have reached := sound.reaches (.event .clear)
  have stepped : (program server).step s.config (.event .clear) =
      ⟨s.config.shared.on fun state => { state with connections := fun _ => none },
        s.config.threads ++ []⟩ := by
    simp only [Program.step, program, occur, unlocked, Option.isSome_none, Bool.false_eq_true,
      if_false]
  rw [stepped] at evolves reached ⊢
  refine ⟨reached, sound.serial.beside (by simp),
    sound.registry.beside evolves (by simp [Shared.on]) (by simp), ⟨drains.shut, ?_, by simp, ?_⟩,
    fun _ => rfl⟩
  · simpa using drains.unset
  · exact drains.tracked.beside rfl evolves (by simp)

theorem Sound.close (sound : Sound server s) (visit : Option Nat)
    (unlocked : beginsUnlocked s (.close visit) = true) : Sound server (close server s visit) := by
  have stands := sound.stands
  cases pos : s.pos with
  | idle =>
    rw [pos] at stands
    simp only [Shutdown.close, pos]
    exact sound.signals stands
  | signalled =>
    rw [pos] at stands
    simp only [beginsUnlocked, pos, Option.isNone_iff_eq_none] at unlocked
    simp only [Shutdown.close, pos]
    exact ⟨sound.reached, sound.serial, sound.registry,
      .begins sound.invariant stands.1 stands.2 unlocked⟩
  | iterating todo =>
    rw [pos] at stands
    have drains : Drains s.config todo := stands
    simp only [Shutdown.close, pos]
    split
    next _ i =>
      split_ifs with reached
      · refine sound.visits drains ?_
        have found : s.config.shared.Closed i ∨ s.config.shared.Registered i :=
          reached.elim (drains.entries i) fun entry => .inr (Shared.mem_entries.mp entry)
        rcases found with ⟨c, found, _⟩ | ⟨c, found, _⟩ <;>
          exact (List.getElem?_eq_some_iff.mp found).1
      · exact sound
    next i todo =>
      split_ifs with entry
      · exact sound
      · refine ⟨sound.reached, sound.serial, sound.registry, ?_⟩
        rw [Shared.mem_entries] at entry
        exact drains.without (.inl ((drains.entries i (by simp)).resolve_right entry)) (by simp)
          (by simp +contextual)
    next =>
      split_ifs with locked
      · exact sound
      · exact sound.clears drains (by simpa using locked)
  | visiting n todo =>
    rw [pos] at stands
    simp only [Shutdown.close, pos]
    split_ifs
    · exact ⟨sound.reached, sound.serial, sound.registry, stands⟩
    · exact sound
  | returned =>
    simp only [Shutdown.close, pos]
    exact sound

theorem Sound.start (server : Server P) (cache : Lru.Cache Bytes Int) :
    Sound server (start cache) := by
  refine ⟨⟨[], rfl⟩, ?_, ⟨?_, ?_⟩, ?_⟩ <;>
    simp [Shutdown.start, Serial, Shared.start, Shared.Keyed, ServerState.start, Stands, Tracked]

theorem Sound.run (sound : Sound server s) (turns : List Turn)
    (orderly : orderly server s turns = true) : Sound server (turns.foldl (step server) s) := by
  induction turns generalizing s with
  | nil => exact sound
  | cons turn turns ih =>
    rw [Shutdown.orderly, Bool.and_eq_true] at orderly
    refine ih ?_ orderly.2
    cases turn with
    | goroutine a => exact sound.goroutine a
    | close visit => exact sound.close visit orderly.1

theorem holds_halfDone {t : Thread} (holds : t.stage.holds i) : t.halfDone = true := by
  cases t with
  | hello | closing | timer => rfl
  | finished | offer | ice => cases holds

theorem calls_halfDone {t : Thread} (idle : t.halfDone = false) : t.calls i = false := by
  cases t with
  | closing => cases idle
  | _ => rfl

/-- When `Server.Close` began its traversal between two registrations, then once it has
returned and nothing is in progress, every connection ever created is closed, the map is
empty and the counters are zero. -/
theorem server_close_closes_everything (server : Server P) (cache : Lru.Cache Bytes Int)
    (turns : List Turn) (ordered : orderly server (start cache) turns = true)
    (returned : (run server cache turns).pos = .returned)
    (finished : ∀ t ∈ (run server cache turns).config.threads, t.halfDone = false) :
    (∀ c ∈ (run server cache turns).config.shared.pool,
      c.closed = true ∧ c.closeDone = true) ∧
    (∀ id, (run server cache turns).config.shared.connections id = none) ∧
    (run server cache turns).config.shared.totalConnections = 0 ∧
    (run server cache turns).config.shared.pendingHandshakes = 0 := by
  have sound : Sound server (run server cache turns) := (Sound.start server cache).run turns ordered
  generalize run server cache turns = s at *
  have stands := sound.stands
  rw [returned] at stands
  obtain ⟨drains, empty⟩ := stands
  have holds := sound.invariant
  have closed (c : Connection) (member : c ∈ s.config.shared.pool) :
      ∃ i : Nat, s.config.shared.pool[i]? = some c ∧ c.closed = true ∧ c.closeDone = true := by
    obtain ⟨i, found⟩ := List.mem_iff_getElem?.mp member
    rcases drains.tracked i (List.getElem?_eq_some_iff.mp found).1 with
      ⟨c', found', closed⟩ | none | ⟨t, running, held⟩
    · rw [found] at found'
      cases found'
      obtain ⟨actions, same⟩ := sound.reached
      rw [same] at found finished
      refine ⟨i, same ▸ found, closed, run_closed_done server cache actions found closed ?_⟩
      exact fun t running => calls_halfDone (finished t running)
    · cases none
    · have half := holds_halfDone held
      rw [finished t running] at half
      cases half
  -- A connection that is done has no leases, and nothing else is counted.
  have released (c : Connection) (member : c ∈ s.config.shared.pool) :
      c.totalLease = false ∧ c.pendingLease = false := by
    obtain ⟨i, found, _, done⟩ := closed c member
    obtain ⟨c', found', _, total, pending, _⟩ := holds.gone ⟨c, found, done⟩
    rw [found] at found'
    cases found'
    exact ⟨total, pending⟩
  obtain ⟨total, pending⟩ := holds.counters finished
  refine ⟨fun c member => ?_, empty, ?_, ?_⟩
  · obtain ⟨_, _, both⟩ := closed c member
    exact both
  · rw [total, List.countP_eq_zero.mpr fun c member => by simp [released c member]]
    rfl
  · rw [pending, List.countP_eq_zero.mpr fun c member => by simp [released c member]]
    rfl

end Run

namespace Runs

def goes (n count : Nat) : List Turn :=
  List.replicate count (.goroutine (.advance n { ok := true }))

def greets : Turn :=
  .goroutine (.event (.hello (Plain.helloInput 6000) Plain.attempt.message))

def drained : List Turn :=
  [greets] ++ goes 0 10 ++ [.close none, .close none, .close (some 0)] ++ goes 1 10 ++
    [.close none, .close none]

/-- The handler has passed the check of `setConnection` when `Server.Close` begins, and
writes after the traversal. -/
def overtaken : List Turn :=
  [greets] ++ goes 0 7 ++ [.close none, .close none] ++ goes 0 1 ++ [.close none] ++ goes 0 2

end Runs

open Runs in
theorem server_close_closes_everything_sample :
    (run Plain.server Plain.nonces drained).config.shared.pool.length = 1 ∧
      ∀ c ∈ (run Plain.server Plain.nonces drained).config.shared.pool,
        c.closed = true ∧ c.closeDone = true := by
  have evaluated : orderly Plain.server (start Plain.nonces) drained = true ∧
      (run Plain.server Plain.nonces drained).pos = .returned ∧
      (run Plain.server Plain.nonces drained).config.threads.all (fun t => !t.halfDone) = true ∧
      (run Plain.server Plain.nonces drained).config.shared.pool.length = 1 := by
    decide +kernel
  obtain ⟨ordered, returned, finished, length⟩ := evaluated
  refine ⟨length, (server_close_closes_everything Plain.server Plain.nonces drained ordered returned
    fun t member => ?_).1⟩
  simpa using List.all_eq_true.mp finished t member

open Runs in
/-- The connection stays open, out of the map and with its leases. -/
theorem connection_set_behind_server_close :
    (run Plain.server Plain.nonces overtaken).pos = .returned ∧
      (run Plain.server Plain.nonces overtaken).config.threads.all (·.done) = true ∧
      (run Plain.server Plain.nonces overtaken).config.shared.pool.map (·.closed) = [false] ∧
      (run Plain.server Plain.nonces overtaken).config.shared.connections (str "station") = none ∧
      (run Plain.server Plain.nonces overtaken).config.shared.totalConnections = 1 ∧
      (run Plain.server Plain.nonces overtaken).config.shared.pendingHandshakes = 1 := by
  decide +kernel

end Shutdown
end Telekit.ServerMachine
