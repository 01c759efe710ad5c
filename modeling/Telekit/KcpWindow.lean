import Mathlib.Data.List.Induction
import Telekit.KcpSettings

/-! The window controller of the KCP transport: `monitorCongestion` of `kcp.go` and the
delivery rate of `congestion.go`. A time is its distance from the zero time in
nanoseconds, and the difference of two times saturates. A tick of the monitor, with the
sample it takes under the mutex, and a recorded write are one step each; times, RTO and
SRTT are inputs. Rates and targets are 64-bit words that may wrap around. -/

namespace Telekit.Kcp

abbrev Time := Int

namespace Time

def isZero (t : Time) : Bool := decide (t = 0)

/-- `Time.Sub`, which saturates at the bounds of a duration. -/
def sub (t u : Time) : Int := max (-2 ^ 63) (min (t - u) (2 ^ 63 - 1))

end Time

def millisecond : Int := 10 ^ 6
def deliveryRateSampleInterval : Int := 500 * millisecond
def bbrWindowGain : UInt64 := 2
def adaptiveFallbackRTO : UInt32 := 750
def adaptiveFallbackAfter : Int := 750 * millisecond

structure DeliveryRateController where
  sampleSince : Time := 0
  sampleBytes : UInt64 := 0
  maxRate : UInt64 := 0

namespace DeliveryRateController

def record (c : DeliveryRateController) (n : Int64) (now : Time) : DeliveryRateController :=
  if n.toInt ≤ 0 then c
  else { c with
    sampleSince := if Time.isZero c.sampleSince then now else c.sampleSince
    sampleBytes := c.sampleBytes + n.toUInt64 }

def sample (c : DeliveryRateController) (now : Time) : UInt64 × DeliveryRateController :=
  if Time.isZero c.sampleSince = true ∨ c.sampleBytes = 0 then (0, c)
  else
    let elapsed := Time.sub now c.sampleSince
    if elapsed < deliveryRateSampleInterval then (0, c)
    else
      let rate := c.sampleBytes * 1000000000 / UInt64.ofNat elapsed.toNat
      let maxRate :=
        if rate > c.maxRate then rate
        else if c.maxRate > rate then max rate (c.maxRate * 7 / 8)
        else c.maxRate
      (maxRate, { sampleSince := now, sampleBytes := 0, maxRate := maxRate })

end DeliveryRateController

def bbrTargetWindow (rate : UInt64) (srttMillis : Int) (mtu maxWindow : Nat) : Nat :=
  if rate = 0 ∨ srttMillis ≤ 0 ∨ mtu = 0 ∨ maxWindow = 0 then 0
  else
    let bdpBytes := rate * UInt64.ofNat srttMillis.toNat / 1000
    let target := (bdpBytes * bbrWindowGain + UInt64.ofNat mtu - 1) / UInt64.ofNat mtu
    let target := if target < UInt64.ofNat minControlWindow then UInt64.ofNat minControlWindow
      else target
    let target := if target > UInt64.ofNat maxWindow then UInt64.ofNat maxWindow else target
    target.toNat

/-- The state of `monitorCongestion`, with the windows it has passed to
`SetWindowSize`. -/
structure Monitor where
  degradedSince : Time := 0
  window : Nat
  controller : DeliveryRateController := {}
  applied : List Nat := []

structure Tick where
  now : Time
  rto : UInt32
  srtt : Int32

namespace Monitor

def start (settings : Settings) : Monitor := { window := settings.initialSendWindow }

def setWindowSize (m : Monitor) (window : Nat) : Monitor :=
  { m with window := window, applied := m.applied ++ [window] }

def shrunkWindow (settings : Settings) (window : Nat) : Nat :=
  let next := window * 3 / 4
  let next := if next < minControlWindow then minControlWindow else next
  if next > settings.sendWindow then settings.sendWindow else next

def shrink (settings : Settings) (m : Monitor) : Monitor :=
  let nextWindow := shrunkWindow settings m.window
  if nextWindow < m.window then m.setWindowSize nextWindow else m

def grownWindow (settings : Settings) (target window : Nat) : Nat :=
  let step := window / 2
  let step := if step < 1 then 1 else step
  let window := window + step
  let window := if window > target then target else window
  if window > settings.sendWindow then settings.sendWindow else window

def grow (settings : Settings) (target : Nat) (m : Monitor) : Monitor :=
  if target > m.window then m.setWindowSize (grownWindow settings target m.window) else m

def tick (settings : Settings) (m : Monitor) (t : Tick) : Monitor :=
  let (rate, controller) := m.controller.sample t.now
  let m := { m with controller := controller }
  if t.rto ≥ adaptiveFallbackRTO then
    let since := if Time.isZero m.degradedSince then t.now else m.degradedSince
    if Time.sub t.now since ≥ adaptiveFallbackAfter then
      { m.shrink settings with degradedSince := t.now }
    else { m with degradedSince := since }
  else
    let m := { m with degradedSince := 0 }
    if rate = 0 ∨ m.window ≥ settings.sendWindow then m
    else
      let srtt : Int := if t.srtt.toInt ≤ 0 then settings.tti else t.srtt.toInt
      m.grow settings (bbrTargetWindow rate srtt settings.mtu settings.sendWindow)

end Monitor

inductive Event
  | record (n : Int64) (now : Time)
  | tick (t : Tick)

namespace Monitor

def step (settings : Settings) (m : Monitor) : Event → Monitor
  | .record n now => { m with controller := m.controller.record n now }
  | .tick t => m.tick settings t

def run (settings : Settings) (events : List Event) : Monitor :=
  events.foldl (step settings) (start settings)

def InRange (settings : Settings) (window : Nat) : Prop :=
  min 16 settings.sendWindow ≤ window ∧ window ≤ settings.sendWindow

def Applies (m m' : Monitor) : Prop :=
  (m'.window = m.window ∧ m'.applied = m.applied) ∨ m'.applied = m.applied ++ [m'.window]

variable {settings : Settings} {m : Monitor}

theorem shrunkWindow_eq (settings : Settings) (window : Nat) :
    shrunkWindow settings window = min (max 16 (window * 3 / 4)) settings.sendWindow := by
  have least : minControlWindow = 16 := rfl
  have lower : (if window * 3 / 4 < minControlWindow then minControlWindow else window * 3 / 4) =
      max 16 (window * 3 / 4) := by
    split_ifs <;> omega
  simp only [shrunkWindow, lower]
  split_ifs <;> omega

theorem grownWindow_eq (settings : Settings) (target window : Nat) :
    grownWindow settings target window =
      min (min (window + max 1 (window / 2)) target) settings.sendWindow := by
  unfold grownWindow
  simp only
  split_ifs <;> omega

theorem shrunkWindow_bounds {window : Nat} (inside : InRange settings window) :
    InRange settings (shrunkWindow settings window) ∧
      window * 3 / 4 ≤ shrunkWindow settings window := by
  unfold InRange at inside ⊢
  rw [shrunkWindow_eq]
  omega

theorem grownWindow_bounds {window target : Nat} (inside : InRange settings window)
    (above : target > window) :
    InRange settings (grownWindow settings target window) ∧
      window ≤ grownWindow settings target window ∧
      grownWindow settings target window ≤ window + max 1 (window / 2) := by
  unfold InRange at inside ⊢
  rw [grownWindow_eq]
  omega

structure Moves (settings : Settings) (rto : UInt32) (m m' : Monitor) : Prop where
  applies : m.Applies m'
  inside : InRange settings m'.window
  shrinks : adaptiveFallbackRTO ≤ rto → m'.window ≤ m.window
  grows : rto < adaptiveFallbackRTO → m.window ≤ m'.window
  least : m.window * 3 / 4 ≤ m'.window
  most : m'.window ≤ m.window + max 1 (m.window / 2)

theorem Moves.rest (inside : InRange settings m.window) {rto : UInt32} {m' : Monitor}
    (same : m'.window = m.window) (applied : m'.applied = m.applied) :
    Moves settings rto m m' := by
  refine ⟨.inl ⟨same, applied⟩, by rwa [same], ?_, ?_, ?_, ?_⟩
  all_goals omega

theorem shrink_moves (inside : InRange settings m.window) {rto : UInt32}
    (degraded : adaptiveFallbackRTO ≤ rto) : Moves settings rto m (m.shrink settings) := by
  obtain ⟨range, least⟩ := shrunkWindow_bounds inside
  unfold shrink
  simp only
  split_ifs with lower
  · refine ⟨.inr rfl, range, fun _ => Nat.le_of_lt lower, fun calm => ?_, least, ?_⟩
    · exact absurd degraded (UInt32.not_le.mpr calm)
    · simp only [setWindowSize]
      omega
  · exact .rest inside rfl rfl

theorem grow_moves (inside : InRange settings m.window) {rto : UInt32}
    (calm : rto < adaptiveFallbackRTO) (target : Nat) :
    Moves settings rto m (m.grow settings target) := by
  unfold grow
  split_ifs with above
  · obtain ⟨range, least, most⟩ := grownWindow_bounds inside above
    refine ⟨.inr rfl, range, fun degraded => ?_, fun _ => least, ?_, most⟩
    · exact absurd degraded (UInt32.not_le.mpr calm)
    · simp only [setWindowSize]
      omega
  · exact .rest inside rfl rfl

theorem tick_moves (inside : InRange settings m.window) (t : Tick) :
    Moves settings t.rto m (m.tick settings t) := by
  unfold tick
  cases m.controller.sample t.now with
  | mk rate controller =>
    simp only
    by_cases degraded : t.rto ≥ adaptiveFallbackRTO
    · have moves := shrink_moves (m := { m with controller := controller }) inside degraded
      rw [if_pos degraded]
      generalize (if Time.isZero m.degradedSince = true then t.now else m.degradedSince) = since
      split_ifs with sustained
      · exact ⟨moves.applies, moves.inside, moves.shrinks, moves.grows, moves.least, moves.most⟩
      · exact .rest inside rfl rfl
    · rw [if_neg degraded]
      generalize (if t.srtt.toInt ≤ 0 then (settings.tti : Int) else t.srtt.toInt) = srtt
      split_ifs with idle
      · exact .rest inside rfl rfl
      · have moves := grow_moves (m := { m with controller := controller, degradedSince := 0 })
          inside (UInt32.not_le.mp degraded)
          (bbrTargetWindow rate srtt settings.mtu settings.sendWindow)
        exact ⟨moves.applies, moves.inside, moves.shrinks, moves.grows, moves.least, moves.most⟩

structure Controlled (settings : Settings) (m : Monitor) : Prop where
  window : InRange settings m.window
  applied : ∀ w ∈ m.applied, InRange settings w

theorem start_controlled (t : Transport) :
    Controlled (xrayKCPSettings t) (start (xrayKCPSettings t)) := by
  obtain ⟨_, _, initial⟩ := xrayKCPSettings_windows t
  refine ⟨?_, by simp [start]⟩
  simp only [InRange, start, initial]
  omega

theorem Controlled.step (controlled : Controlled settings m) (event : Event) :
    Controlled settings (m.step settings event) := by
  cases event with
  | record n now => exact ⟨controlled.window, controlled.applied⟩
  | tick t =>
    have moves := tick_moves controlled.window t
    refine ⟨moves.inside, ?_⟩
    intro w member
    rcases moves.applies with ⟨_, same⟩ | more
    · exact controlled.applied w (same ▸ member)
    · simp only [Monitor.step, more, List.mem_append, List.mem_singleton] at member
      rcases member with old | rfl
      · exact controlled.applied w old
      · exact moves.inside

theorem run_controlled (t : Transport) (events : List Event) :
    Controlled (xrayKCPSettings t) (run (xrayKCPSettings t) events) := by
  unfold run
  generalize begin : start (xrayKCPSettings t) = m
  have controlled : Controlled (xrayKCPSettings t) m := begin ▸ start_controlled t
  clear begin
  induction events generalizing m with
  | nil => exact controlled
  | cons event events ih => exact ih _ (controlled.step event)

end Monitor

open Monitor in
theorem congestion_window_in_range (t : Transport) (events : List Event) :
    let settings := xrayKCPSettings t
    let m := run settings events
    InRange settings m.window ∧ (∀ w ∈ m.applied, InRange settings w) ∧
    ∀ tick : Tick,
      (tick.rto ≥ adaptiveFallbackRTO → (m.tick settings tick).window ≤ m.window) ∧
      (tick.rto < adaptiveFallbackRTO → m.window ≤ (m.tick settings tick).window) ∧
      m.window * 3 / 4 ≤ (m.tick settings tick).window ∧
      (m.tick settings tick).window ≤ m.window + max 1 (m.window / 2) := by
  have controlled := run_controlled t events
  refine ⟨controlled.window, controlled.applied, fun tick => ?_⟩
  have moves := tick_moves controlled.window tick
  exact ⟨moves.shrinks, moves.grows, moves.least, moves.most⟩

namespace Monitor

/-- Since a tick of the run, at which the window was the present one, the RTO was high. -/
def Degraded (settings : Settings) (events : List Event) (m : Monitor) (since : Time) : Prop :=
  ∃ before first after, events = before ++ .tick first :: after ∧ first.now = since ∧
    (∀ t, .tick t ∈ Event.tick first :: after → t.rto ≥ adaptiveFallbackRTO) ∧
    (run settings (before ++ [.tick first])).window = m.window

theorem run_concat (settings : Settings) (events : List Event) (e : Event) :
    run settings (events ++ [e]) = (run settings events).step settings e := by
  simp [run]

theorem Degraded.concat {settings : Settings} {events : List Event} {m m' : Monitor} {since : Time}
    (degraded : Degraded settings events m since) (same : m'.window = m.window) {e : Event}
    (high : ∀ t, e = .tick t → t.rto ≥ adaptiveFallbackRTO) :
    Degraded settings (events ++ [e]) m' since := by
  obtain ⟨before, first, after, rfl, time, all, window⟩ := degraded
  refine ⟨before, first, after ++ [e], by simp, time, fun t member => ?_, window.trans same.symm⟩
  rw [← List.cons_append] at member
  rcases List.mem_append.mp member with old | new
  · exact all t old
  · exact high t (List.mem_singleton.mp new).symm

theorem tick_high (settings : Settings) (m : Monitor) {t : Tick}
    (high : t.rto ≥ adaptiveFallbackRTO) :
    let since := if Time.isZero m.degradedSince then t.now else m.degradedSince
    (m.tick settings t).window = m.window ∧ (m.tick settings t).degradedSince = since ∨
      Time.sub t.now since ≥ adaptiveFallbackAfter ∧ (m.tick settings t).degradedSince = t.now := by
  simp only [tick, if_pos high]
  generalize (if Time.isZero m.degradedSince = true then t.now else m.degradedSince) = since
  split
  · next sustained => exact .inr ⟨sustained, rfl⟩
  · exact .inl ⟨rfl, rfl⟩

theorem run_degraded (settings : Settings) (events : List Event) :
    (run settings events).degradedSince ≠ 0 →
      Degraded settings events (run settings events) (run settings events).degradedSince := by
  induction events using List.reverseRecOn with
  | nil => exact fun set => absurd rfl set
  | append_singleton events e ih =>
    rw [run_concat]
    intro set
    cases e with
    | record n now => exact (ih set).concat rfl (by simp)
    | tick t =>
      have next : (run settings events).step settings (.tick t) =
        (run settings events).tick settings t := rfl
      rw [next] at set ⊢
      by_cases high : t.rto ≥ adaptiveFallbackRTO
      · have now : Degraded settings (events ++ [.tick t])
            ((run settings events).tick settings t) t.now :=
          ⟨events, t, [], rfl, rfl, by simp [high], by rw [run_concat]; rfl⟩
        rcases tick_high settings (run settings events) high with ⟨same, since⟩ | ⟨_, restarts⟩
        · rw [since]
          split
          · exact now
          · next running =>
            exact (ih (by simpa [Time.isZero] using running)).concat same (by simp [high])
        · rwa [restarts]
      · refine absurd ?_ set
        simp only [tick, if_neg high]
        generalize (if t.srtt.toInt ≤ 0 then (settings.tti : Int) else t.srtt.toInt) = srtt
        split
        · rfl
        · unfold grow
          split <;> rfl

end Monitor

open Monitor in
/-- The window is lowered only where the RTO was high at every tick of the last 750
milliseconds or longer, and had not been lowered in that time. -/
theorem shrinks_are_sustained (t : Transport) (events : List Event) (tick : Tick) :
    let settings := xrayKCPSettings t
    let m := run settings events
    (m.tick settings tick).window < m.window → tick.rto ≥ adaptiveFallbackRTO ∧
      ∃ since, Time.sub tick.now since ≥ adaptiveFallbackAfter ∧
        Degraded settings events m since := by
  intro settings m lower
  have moves := tick_moves (run_controlled t events).window tick
  have high : tick.rto ≥ adaptiveFallbackRTO := by
    by_contra calm
    exact absurd (moves.grows (UInt32.not_le.mp calm)) (Nat.not_le.mpr lower)
  refine ⟨high, m.degradedSince, ?_⟩
  rcases tick_high settings m high with ⟨same, _⟩ | ⟨sustained, _⟩
  · exact absurd same (Nat.ne_of_lt lower)
  · by_cases zero : m.degradedSince = 0
    · have fresh : Time.isZero m.degradedSince = true := by simp [Time.isZero, zero]
      rw [if_pos fresh, Time.sub, Int.sub_self] at sustained
      exact absurd sustained (by decide)
    · rw [if_neg (by simp [Time.isZero, zero])] at sustained
      exact ⟨sustained, run_degraded settings events zero⟩

theorem sample_shrink_sustained :
    let settings := xrayKCPSettings ⟨1350, 50, 100, 100, 1, 2097152⟩
    let events := [.tick ⟨1, 800, 0⟩, .tick ⟨400000001, 800, 0⟩]
    ∃ since, Monitor.Degraded settings events (Monitor.run settings events) since :=
  let ⟨_, since, _, degraded⟩ := shrinks_are_sustained ⟨1350, 50, 100, 100, 1, 2097152⟩
    [.tick ⟨1, 800, 0⟩, .tick ⟨400000001, 800, 0⟩] ⟨800000001, 800, 0⟩ (by decide +kernel)
  ⟨since, degraded⟩

end Telekit.Kcp
