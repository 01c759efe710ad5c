import Telekit.ClientProtocol

/-! The connected flag and the transport of the client. The flag is under `mu` and
the transport under `stateMu`, so each call changes one before the other, and in
between other calls take their steps. A disagreement is temporary as long as some
thread is about to remove it: one that clears the flag, one that sets it for the
transport it has installed, or one that takes the transport away. -/

namespace Telekit.ClientMachine
open Interleaving

def Stage.lowers : Stage → Bool
  | .disconnect _ _ .flagging | .finish _ _ .flagging => true
  | _ => false

def Stage.raises : Stage → Bool
  | .attempt _ _ .installed | .attempt _ _ .flagging => true
  | _ => false

def Stage.clears : Stage → Bool
  | .disconnect _ _ .loading | .disconnect _ _ (.wiping _) | .disconnect _ _ .clearing => true
  | _ => false

/-- A disagreement of flag and transport has a thread that is about to remove it. -/
structure Consistent (s : Core) (stages : List Stage) : Prop where
  channel : s.dataChannel = s.transportConn
  lowered : s.connected = true → s.transportConn = none → ∃ v ∈ stages, v.lowers = true
  raised : s.connected = false → s.transportConn ≠ none →
    (∃ v ∈ stages, v.raises = true) ∨ ∃ v ∈ stages, v.clears = true
  cleared : s.connected = true → (∃ v ∈ stages, v.clears = true) → ∃ v ∈ stages, v.lowers = true

/-- The flag is set only with the transport installed and cleared only without one, or a
thread is left that puts it right. -/
def steady (k : Config Shared Thread) : Action → Bool
  | .advance n _ =>
    match (stages k)[n]? with
    | some (.attempt _ _ .flagging) =>
      (stages k).any (·.lowers) || (k.shared.transportConn.isSome && !(stages k).any (·.clears))
    | some (.finish _ _ .flagging) =>
      k.shared.transportConn.isNone || (stages k).any (·.raises) || (stages k).any (·.clears)
    | _ => true
  | .event _ => true

section Steps
variable {s s' : Core} {before spawned : List Stage} {n : Nat} {v v' : Stage}

theorem Consistent.rest (consistent : Consistent s before) (running : before[n]? = some v)
    (idle : ∀ u ∈ spawned, u = .idle) (connected : s'.connected = s.connected)
    (transport : s'.transportConn = s.transportConn) (channel : s'.dataChannel = s.dataChannel)
    (lowers : v.lowers = true → v'.lowers = true) (raises : v.raises = true → v'.raises = true)
    (clears : v'.clears = v.clears) : Consistent s' (before.set n v' ++ spawned) := by
  have fresh : ∀ u ∈ spawned, ¬ u.clears = true :=
    fun u member => by simp [idle u member, Stage.clears]
  refine ⟨by rw [channel, transport, consistent.channel], ?_, ?_, ?_⟩
  · rw [connected, transport]
    exact fun on gone => exists_advance running lowers spawned (consistent.lowered on gone)
  · rw [connected, transport]
    exact fun off present => (consistent.raised off present).imp
      (exists_advance running raises spawned)
      (exists_advance running (fun about => by rw [clears, about]) spawned)
  · rw [connected]
    exact fun on about => exists_advance running lowers spawned (consistent.cleared on
      (exists_before running (fun new => by rw [← clears, new]) fresh about))

theorem Consistent.lower (consistent : Consistent s before)
    (about : s.transportConn ≠ none →
      (∃ u ∈ before.set n v' ++ spawned, u.raises = true) ∨
        ∃ u ∈ before.set n v' ++ spawned, u.clears = true) :
    Consistent (s.flag false) (before.set n v' ++ spawned) := by
  refine ⟨consistent.channel, fun on => ?_, fun _ => about, fun on => ?_⟩ <;> cases on

theorem consistent_detach
    (about : s.connected = true → ∃ u ∈ before.set n v' ++ spawned, u.lowers = true) :
    Consistent s.detach (before.set n v' ++ spawned) := by
  refine ⟨by simp, fun on _ => about ?_, fun _ present => ?_, fun on _ => about ?_⟩
  · simpa using on
  · simp at present
  · simpa using on

theorem Caller.stage_clears (caller : Caller) (id : Nat) (ok : Bool) :
    (caller.stage id ok).clears = false := by
  cases caller with
  | user => rfl
  | loop generation origin => cases ok <;> rfl

theorem After.stage_clears (after : After) : after.stage.clears = false := by
  cases after <;> rfl

structure Steady (s : Core) (stages : List Stage) (v : Stage) : Prop where
  raise : ∀ caller id, v = .attempt caller id .flagging → (∃ u ∈ stages, u.lowers = true) ∨
    s.transportConn ≠ none ∧ ¬ ∃ u ∈ stages, u.clears = true
  lower : ∀ g agent, v = .finish g agent .flagging → s.transportConn ≠ none →
    (∃ u ∈ stages, u.raises = true) ∨ ∃ u ∈ stages, u.clears = true

theorem Consistent.transition (consistent : Consistent s before) (running : before[n]? = some v)
    (step : Transition s v s' v') (idle : ∀ u ∈ spawned, u = .idle) (steady : Steady s before v) :
    Consistent s' (before.set n v' ++ spawned) := by
  have fresh : ∀ u ∈ spawned, ¬ u.clears = true := fun u member => by
    simp [idle u member, Stage.clears]
  cases step with
  | installs caller id own detached =>
    refine ⟨rfl, fun _ gone => ?_, fun _ _ => .inl (exists_own running (by rfl) spawned),
      fun on about => ?_⟩
    · cases gone
    · exact exists_advance running (by simp [Stage.lowers]) spawned (consistent.cleared on
        (exists_before running (by simp [Stage.clears]) fresh about))
  | connects caller id =>
    have still : (∃ u ∈ before, u.lowers = true) →
        ∃ u ∈ before.set n (.attempt caller id (.leaving true)) ++ spawned, u.lowers = true :=
      exists_advance running (by simp [Stage.lowers]) spawned
    refine ⟨consistent.channel, fun _ gone => ?_, fun off => ?_, fun _ about => ?_⟩
    · rcases steady.raise caller id rfl with lowering | ⟨present, _⟩
      · exact still lowering
      · exact absurd gone present
    · cases off
    · rcases steady.raise caller id rfl with lowering | ⟨_, none_clears⟩
      · exact still lowering
      · exact absurd (exists_before running (by simp [Stage.clears]) fresh about) none_clears
  | lowers closes after =>
    exact consistent.lower fun _ => .inr (exists_own running (by rfl) spawned)
  | clears closes after =>
    refine consistent_detach fun on => exists_advance running (by simp [Stage.lowers]) spawned ?_
    exact consistent.cleared on ⟨_, List.mem_of_getElem? running, rfl⟩
  | detaches g agent current =>
    exact consistent_detach fun _ => exists_own running (by rfl) spawned
  | finishLowers g agent =>
    refine consistent.lower fun present => (steady.lower g agent rfl present).imp ?_ ?_
    · exact exists_advance running (by simp [Stage.raises]) spawned
    · exact exists_advance running (by simp [Stage.clears]) spawned
  | stays => exact consistent.rest running idle rfl rfl rfl id id rfl
  | leaves caller id ok =>
    exact consistent.rest running idle rfl rfl rfl (by simp [Stage.lowers]) (by simp [Stage.raises])
      (caller.stage_clears id ok)
  | closes closes after conn agent =>
    exact consistent.rest running idle rfl rfl rfl (by simp [Stage.lowers]) (by simp [Stage.raises])
      after.stage_clears
  | wipes closes after b =>
    obtain ⟨_, _, same⟩ := s.wipe_eq closes b
    rw [same]
    exact consistent.rest running idle rfl rfl rfl (by simp [Stage.lowers]) (by simp [Stage.raises])
      rfl
  | givesUp caller id early conns agents =>
    refine consistent.rest running idle rfl rfl rfl (fun _ => rfl) ?_ ?_ <;>
      rcases early with rfl | rfl | rfl <;> simp [Stage.raises, Stage.clears]
  | writes g b raw =>
    obtain ⟨buffers, same, _⟩ := s.writeBuffer_snd b g raw
    rw [same]
    exact consistent.rest running idle rfl rfl rfl (by simp [Stage.lowers]) (by simp [Stage.raises])
      rfl
  | _ =>
    exact consistent.rest running idle rfl rfl rfl (by simp [Stage.lowers]) (by simp [Stage.raises])
      rfl

theorem Consistent.enter (consistent : Consistent s before) (idle : ∀ u ∈ spawned, u = .idle) :
    Consistent s (before ++ spawned) := by
  have grows {p : Stage → Prop} (present : ∃ u ∈ before, p u) : ∃ u ∈ before ++ spawned, p u := by
    obtain ⟨u, member, holds⟩ := present
    exact ⟨u, List.mem_append_left _ member, holds⟩
  refine ⟨consistent.channel, fun on gone => grows (consistent.lowered on gone),
    fun off present => (consistent.raised off present).imp grows grows, fun on about => ?_⟩
  obtain ⟨u, member, clears⟩ := about
  rcases List.mem_append.mp member with old | started
  · exact grows (consistent.cleared on ⟨u, old, clears⟩)
  · simp [idle u started, Stage.clears] at clears

end Steps

theorem steady_spec {k : Config Shared Thread} {n : Nat} {choice : Choice}
    (conforms : steady k (.advance n choice) = true) {v : Stage}
    (running : (stages k)[n]? = some v) : Steady k.shared.toCore (stages k) v := by
  simp only [steady, running] at conforms
  constructor
  · rintro caller id rfl
    simpa [Option.isSome_iff_ne_none] using conforms
  · rintro g agent rfl present
    simpa [Option.isNone_iff_eq_none, present] using conforms

section Runs
variable (P : Primitives) (client : Client) (options : ClientOptions)

theorem run_consistent (actions : List Action)
    (conforms : (program P client options).along steady ⟨Shared.start options, []⟩ actions = true) :
    Consistent (run P client options actions).shared.toCore
      (stages (run P client options actions)) := by
  refine (program P client options).run_along_keeps
    (fun k => Consistent k.shared.toCore (stages k)) steady ?_ ?_ actions conforms
  · intro k a k' consistent steps takes
    have moved := takes_moved takes
    generalize k'.shared.toCore = s', stages k' = after at moved ⊢
    cases moved with
    | rests idle => exact consistent.enter idle
    | moves running step idle =>
      exact consistent.transition running step idle (steady_spec steps running)
  · refine ⟨rfl, fun on => ?_, fun _ present => absurd rfl present, fun on => ?_⟩ <;> cases on

def Thread.working : Thread → Bool
  | .connecting _ | .connect _ _ _ | .disconnect _ _ _ | .finish _ _ _ => true
  | _ => false

theorem Thread.working_stage {t : Thread} (quiet : t.working = false) :
    t.stage.lowers = false ∧ t.stage.raises = false ∧ t.stage.clears = false := by
  cases t with
  | connecting | connect | disconnect | finish => cases quiet
  | reader g b channel pc => cases pc <;> exact ⟨rfl, rfl, rfl⟩
  | _ => exact ⟨rfl, rfl, rfl⟩

/-- In every run whose steps are `steady`, when no call is in progress, the flag is
set exactly if a transport and a data channel are installed. -/
theorem connected_iff_installed (actions : List Action)
    (conforms : (program P client options).along steady ⟨Shared.start options, []⟩ actions = true)
    (quiet : ∀ t ∈ (run P client options actions).threads, t.working = false) :
    (run P client options actions).shared.connected = true ↔
      (run P client options actions).shared.transportConn.isSome = true ∧
        (run P client options actions).shared.dataChannel.isSome = true := by
  have consistent := run_consistent P client options actions conforms
  have none_about {p : Stage → Bool} (calm : ∀ t : Thread, t.working = false → p t.stage = false) :
      ¬ ∃ v ∈ stages (run P client options actions), p v = true := by
    rintro ⟨v, member, about⟩
    obtain ⟨t, present, rfl⟩ := List.mem_map.mp member
    rw [calm t (quiet t present)] at about
    cases about
  have lowers := none_about (p := Stage.lowers) fun t calm => (Thread.working_stage calm).1
  have raises := none_about (p := Stage.raises) fun t calm => (Thread.working_stage calm).2.1
  have clears := none_about (p := Stage.clears) fun t calm => (Thread.working_stage calm).2.2
  rw [consistent.channel, and_self, Option.isSome_iff_ne_none]
  constructor
  · intro on gone
    exact lowers (consistent.lowered on gone)
  · intro present
    by_contra off
    rcases consistent.raised (by simpa using off) present with about | about
    · exact raises about
    · exact clears about

namespace Sample

def connected : List Action := .event .connect :: attempt 0 0 1 9 7

/-- The transport fails before `Connect` has set the flag: the reader runs
`finishTransport`, the reconnect loop is refused, and then the flag is set. -/
def overtaken : List Action :=
  .event .connect :: attempt 0 0 1 9 5 ++ fails 2 :: goes 2 8 ++ goes 4 6 ++ goes 0 2 ++
    goes 4 3 ++ goes 3 1

end Sample

theorem Sample.connected_conforms :
    (program Plain.primitives Plain.client Sample.options).along steady
      ⟨Shared.start Sample.options, []⟩ Sample.connected = true ∧
    (run Plain.primitives Plain.client Sample.options Sample.connected).threads.all
      (!·.working) = true ∧
    (run Plain.primitives Plain.client Sample.options
      Sample.connected).shared.transportConn.isSome = true ∧
    (run Plain.primitives Plain.client Sample.options
      Sample.connected).shared.dataChannel.isSome = true := by
  decide +kernel

theorem connected_iff_installed_sample :
    (run Plain.primitives Plain.client Sample.options Sample.connected).shared.connected = true := by
  obtain ⟨conforms, quiet, transport, channel⟩ := Sample.connected_conforms
  refine (connected_iff_installed Plain.primitives Plain.client Sample.options Sample.connected
    conforms fun t member => ?_).mpr ⟨transport, channel⟩
  simpa using List.all_eq_true.mp quiet t member

/-- The client ends up connected without a transport, and every thread has ended. -/
theorem connected_without_transport :
    (run Plain.primitives Plain.client Sample.options Sample.overtaken).shared.connected = true ∧
    (run Plain.primitives Plain.client Sample.options Sample.overtaken).shared.transportConn =
      none ∧
    (run Plain.primitives Plain.client Sample.options Sample.overtaken).shared.dataChannel =
      none ∧
    (run Plain.primitives Plain.client Sample.options Sample.overtaken).threads.all
      (fun | .finished => true | _ => false) = true := by
  decide +kernel

end Runs

end Telekit.ClientMachine
