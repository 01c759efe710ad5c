import Mathlib.Data.List.Basic

/-! Progress of runs under a measure. A permitted event lowers the work that is left or is
idle, and what is idle after an idle event was idle before it. Where a round of events
cannot be idle as a whole unless all work is done, as many rounds as there is work finish
it, with any permitted events before, between and after the events of a round. -/

namespace Progress

variable {σ ε : Type}

/-- Permitted events never raise the work, and leave it only where they are idle. -/
structure Measured (step : σ → ε → σ) (permitted : ε → Prop) (invariant : σ → Prop)
    (work : σ → Nat) (idle : σ → ε → Prop) : Prop where
  kept : ∀ {s e}, invariant s → permitted e → invariant (step s e)
  lowers : ∀ {s e}, invariant s → permitted e → work (step s e) < work s ∨
    work (step s e) = work s ∧ idle s e ∧ ∀ d, idle (step s e) d → idle s d

namespace Measured
variable {step : σ → ε → σ} {permitted : ε → Prop} {invariant : σ → Prop} {work : σ → Nat}
  {idle : σ → ε → Prop} (m : Measured step permitted invariant work idle)
include m

theorem run_lowers {events : List ε} (all : ∀ e ∈ events, permitted e) {s : σ}
    (holds : invariant s) :
    invariant (events.foldl step s) ∧ (work (events.foldl step s) < work s ∨
      work (events.foldl step s) = work s ∧ ∀ e ∈ events, idle s e) := by
  induction events generalizing s with
  | nil => exact ⟨holds, .inr ⟨rfl, by simp⟩⟩
  | cons e events ih =>
    have first := all e List.mem_cons_self
    obtain ⟨later, rest⟩ :=
      ih (fun d member => all d (List.mem_cons_of_mem _ member)) (m.kept holds first)
    refine ⟨later, ?_⟩
    rw [List.foldl_cons]
    rcases m.lowers holds first with lower | ⟨same, here, back⟩
    · exact .inl (by omega)
    · rcases rest with lower | ⟨same', idles⟩
      · exact .inl (by omega)
      · exact .inr ⟨same'.trans same, List.forall_mem_cons.mpr
          ⟨here, fun d member => back d (idles d member)⟩⟩

theorem run_finishes {events : List ε} (all : ∀ e ∈ events, permitted e) {s : σ}
    (holds : invariant s) {rounds : List (List ε)}
    (busy : ∀ {s} round, round ∈ rounds → invariant s → (∀ e ∈ round, idle s e) → work s = 0)
    (occur : rounds.flatten.Sublist events) (enough : work s ≤ rounds.length) :
    invariant (events.foldl step s) ∧ work (events.foldl step s) = 0 := by
  induction rounds generalizing s events with
  | nil =>
    obtain ⟨holds', lowered⟩ := m.run_lowers all holds
    refine ⟨holds', ?_⟩
    rw [List.length_nil] at enough
    rcases lowered with lower | ⟨same, _⟩
    · omega
    · omega
  | cons round rounds ih =>
    obtain ⟨before, after, rfl, here, later⟩ := List.append_sublist_iff.mp occur
    rw [List.foldl_append]
    obtain ⟨holds', lowered⟩ :=
      m.run_lowers (fun e member => all e (List.mem_append_left _ member)) holds
    refine ih (fun e member => all e (List.mem_append_right _ member)) holds'
      (fun r member => busy r (List.mem_cons_of_mem _ member)) later ?_
    rw [List.length_cons] at enough
    rcases lowered with lower | ⟨same, idles⟩
    · omega
    · have done := busy round List.mem_cons_self holds fun e member => idles e (here.subset member)
      omega

end Measured

/-- The same for a system that may halt with work left: the measure counts until then. -/
structure Halting (step : σ → ε → σ) (permitted : ε → Prop) (invariant : σ → Prop)
    (halted : σ → Bool) (backlog : σ → Nat) (idle : σ → ε → Prop) : Prop where
  kept : ∀ {s e}, invariant s → permitted e → invariant (step s e)
  stays : ∀ {s e}, permitted e → halted (step s e) = false → halted s = false
  lowers : ∀ {s e}, invariant s → permitted e → halted s = false →
    backlog (step s e) < backlog s ∨ halted (step s e) = halted s ∧
      backlog (step s e) = backlog s ∧ idle s e ∧ ∀ d, idle (step s e) d → idle s d

namespace Halting
variable {step : σ → ε → σ} {permitted : ε → Prop} {invariant : σ → Prop} {halted : σ → Bool}
  {backlog : σ → Nat} {idle : σ → ε → Prop}
  (h : Halting step permitted invariant halted backlog idle)
include h

theorem measured : Measured step permitted invariant
    (fun s => if halted s then 0 else backlog s) (fun s e => halted s = false → idle s e) where
  kept := h.kept
  lowers {s e} holds may := by
    cases now : halted s with
    | true =>
      have still : halted (step s e) = true := by
        cases later : halted (step s e) with
        | true => rfl
        | false =>
          rw [h.stays may later] at now
          cases now
      refine .inr ⟨by simp only [still, if_true], ?_, ?_⟩
      · exact fun running => absurd running.symm Bool.false_ne_true
      · exact fun _ _ running => absurd running.symm Bool.false_ne_true
    | false =>
      rcases h.lowers holds may now with lower | ⟨same, level, here, back⟩
      · refine .inl ?_
        simp only [Bool.false_eq_true, if_false]
        split
        · exact Nat.zero_lt_of_lt lower
        · exact lower
      · refine .inr ⟨by simp only [same, now, level], fun _ => here, fun d later _ => ?_⟩
        exact back d (later (same.trans now))

theorem run_finishes {events : List ε} (all : ∀ e ∈ events, permitted e) {s : σ}
    (holds : invariant s) {rounds : List (List ε)}
    (busy : ∀ {s} round, round ∈ rounds → invariant s → halted s = false →
      (∀ e ∈ round, idle s e) → backlog s = 0)
    (occur : rounds.flatten.Sublist events) (enough : backlog s ≤ rounds.length)
    (running : halted (events.foldl step s) = false) :
    invariant (events.foldl step s) ∧ backlog (events.foldl step s) = 0 := by
  have few : (if halted s then 0 else backlog s) ≤ rounds.length := by
    split
    · exact Nat.zero_le _
    · exact enough
  have busy' {t : σ} (round : List ε) (member : round ∈ rounds) (holds : invariant t)
      (idles : ∀ e ∈ round, halted t = false → idle t e) :
      (if halted t then 0 else backlog t) = 0 := by
    split
    · rfl
    · next going =>
      rw [Bool.not_eq_true] at going
      exact busy round member holds going fun e here => idles e here going
  obtain ⟨holds', done⟩ := h.measured.run_finishes all holds busy' occur few
  simp only [running, Bool.false_eq_true, if_false] at done
  exact ⟨holds', done⟩

end Halting
end Progress
