import Telekit.PlainPrimitives
import Telekit.WriteAttempts

/-! A stream-mode connection through a sequence of `Write` and `sendHeartbeat` calls
with failing transport writes. Neither method remembers that a frame was cut: the
next call starts a frame of its own. -/

namespace Telekit.FrameAlignment

/-- A call with what it finds: whether the connection is ready, or its transport still
the current one, and whether the write deadline has passed. -/
inductive Call
  | write (ready timedOut : Bool) (fuel : Nat) (p : Bytes)
  | sendHeartbeat (current : Bool)
  deriving DecidableEq

def Call.idle : Call → Bool
  | .write ready timedOut _ p => !ready || timedOut || p.isEmpty
  | .sendHeartbeat current => !current

variable (P : Primitives) (frameLimit : Int)

def Call.perform (s : Sender) : Call → Sender
  | .write ready timedOut fuel p => (s.write P ready timedOut frameLimit fuel p).2
  | .sendHeartbeat current => (s.sendHeartbeat P current).2

def Call.attempts (s : Sender) : Call → List Attempt
  | .write ready timedOut fuel p => s.attempts P ready timedOut frameLimit fuel p
  | .sendHeartbeat current => s.heartbeatAttempts P current

def run (s : Sender) : List Call → Sender
  | [] => s
  | call :: rest => run (call.perform P frameLimit s) rest

def attempts (s : Sender) : List Call → List Attempt
  | [] => []
  | call :: rest => call.attempts P frameLimit s ++ attempts (call.perform P frameLimit s) rest

/-- Once a call has cut a frame, the later ones find the connection closed, replaced or
timed out, or have nothing to send. -/
def idleAfterCut (s : Sender) : List Call → Bool
  | [] => true
  | call :: rest =>
    (!(call.attempts P frameLimit s).any Attempt.cut || rest.all Call.idle) &&
      idleAfterCut (call.perform P frameLimit s) rest

variable {P frameLimit}

theorem Call.attempts_idle {call : Call} (idle : call.idle = true) (s : Sender) :
    call.attempts P frameLimit s = [] := by
  cases call with
  | write ready timedOut fuel p =>
    simp only [Call.idle, Bool.or_eq_true, Bool.not_eq_true', List.isEmpty_iff, or_assoc] at idle
    exact if_pos idle
  | sendHeartbeat current =>
    simp only [Call.idle, Bool.not_eq_true'] at idle
    exact if_pos idle

theorem Call.perform_traced (call : Call) (s : Sender) :
    Sender.Traced s (call.perform P frameLimit s) (call.attempts P frameLimit s) := by
  cases call with
  | sendHeartbeat current => exact Sender.sendHeartbeat_traced current s
  | write ready timedOut fuel p => exact Sender.write_traced ready timedOut frameLimit fuel p s

theorem attempts_idle {calls : List Call} (idle : calls.all Call.idle = true) (s : Sender) :
    attempts P frameLimit s calls = [] := by
  induction calls generalizing s with
  | nil => rfl
  | cons call rest ih =>
    rw [List.all_cons, Bool.and_eq_true] at idle
    rw [attempts, Call.attempts_idle idle.1, ih idle.2, List.nil_append]

theorem run_inFlight (s : Sender) (calls : List Call) :
    (run P frameLimit s calls).transport.inFlight =
      s.transport.inFlight ++ Attempt.bytes (attempts P frameLimit s calls) := by
  induction calls generalizing s with
  | nil => simp [run, attempts, Attempt.bytes]
  | cons call rest ih =>
    rw [run, attempts, ih, (call.perform_traced s).inFlight, Attempt.bytes_append,
      List.append_assoc]

def Aligned (attempts : List Attempt) : Prop :=
  attempts.Pairwise fun earlier later => earlier.cut = true → later.taken = []

/-- A call stops at the first failure, so only its last frame can be cut. -/
theorem aligned_call {attempts : List Attempt} (honest : ∀ a ∈ attempts, a.Honest)
    (stops : ∀ a ∈ attempts.dropLast, a.result.2 = none) : Aligned attempts := by
  induction attempts with
  | nil => exact List.Pairwise.nil
  | cons a rest ih =>
    cases rest with
    | nil => exact List.pairwise_singleton _ _
    | cons b rest =>
      rw [List.dropLast_cons_cons] at stops
      have whole := (honest a List.mem_cons_self).cut (stops a List.mem_cons_self)
      refine List.pairwise_cons.mpr ⟨fun later _ cut => ?_, ih ?_ ?_⟩
      · rw [whole] at cut
        cases cut
      · exact fun c member => honest c (List.mem_cons_of_mem a member)
      · exact fun c member => stops c (List.mem_cons_of_mem a member)

theorem run_aligned {s : Sender} {calls : List Call}
    (honest : ∀ a ∈ attempts P frameLimit s calls, a.Honest)
    (idle : idleAfterCut P frameLimit s calls = true) :
    Aligned (attempts P frameLimit s calls) := by
  induction calls generalizing s with
  | nil => exact List.Pairwise.nil
  | cons call rest ih =>
    rw [attempts] at honest ⊢
    rw [idleAfterCut, Bool.and_eq_true, Bool.or_eq_true, Bool.not_eq_true'] at idle
    have own : Aligned (call.attempts P frameLimit s) :=
      aligned_call (fun a member => honest a (List.mem_append_left _ member))
        (call.perform_traced s).stops
    have next : Aligned (attempts P frameLimit (call.perform P frameLimit s) rest) :=
      ih (fun a member => honest a (List.mem_append_right _ member)) idle.2
    refine List.pairwise_append.mpr ⟨own, next, fun a member later mem cut => ?_⟩
    rcases idle.1 with uncut | quiet
    · have clear := List.any_eq_false.mp uncut a member
      exact absurd cut clear
    · rw [attempts_idle quiet] at mem
      cases mem

theorem Aligned.bytes {attempts : List Attempt} (aligned : Aligned attempts) :
    Attempt.bytes attempts <+:
      (attempts.filter fun a => a.taken ≠ []).flatMap Attempt.frame := by
  induction attempts with
  | nil => exact List.nil_prefix
  | cons a rest ih =>
    obtain ⟨first, later⟩ := List.pairwise_cons.mp aligned
    rw [Attempt.bytes, List.flatMap_cons]
    by_cases nothing : a.taken = []
    · rw [nothing, List.nil_append, List.filter_cons_of_neg (by simpa using nothing)]
      exact ih later
    · rw [List.filter_cons_of_pos (by simpa using nothing), List.flatMap_cons]
      cases cut : a.cut with
      | false =>
        have whole : a.taken = a.frame :=
          (Attempt.whole_or_nothing cut).resolve_right nothing
        rw [whole]
        exact (List.prefix_append_right_inj a.frame).mpr (ih later)
      | true =>
        have silent : rest.flatMap Attempt.taken = [] :=
          List.flatMap_eq_nil_iff.mpr fun b member => first b member cut
        rw [silent, List.append_nil]
        exact (List.take_prefix _ _).trans (List.prefix_append _ _)

/-- For every sequence of calls on one transport: if no call tries to send after one
that cut its frame, the transport carries complete frames and at most the beginning of
one more. -/
theorem frames_stay_aligned (s : Sender) (calls : List Call)
    (honest : ∀ a ∈ attempts P frameLimit s calls, a.Honest)
    (idle : idleAfterCut P frameLimit s calls = true) :
    (run P frameLimit s calls).transport.inFlight =
      s.transport.inFlight ++ Attempt.bytes (attempts P frameLimit s calls) ∧
    Attempt.bytes (attempts P frameLimit s calls) <+:
      ((attempts P frameLimit s calls).filter fun a => a.taken ≠ []).flatMap Attempt.frame ∧
    (attempts P frameLimit s calls).Pairwise fun earlier later =>
      earlier.cut = true → later.taken = [] :=
  ⟨run_inFlight s calls, (run_aligned honest idle).bytes, run_aligned honest idle⟩

theorem frames_stay_aligned_sample : ∃ channel,
    DataChannel.new Plain.primitives .chacha20Poly1305 [7] [] .client UInt8.ofNat UInt8.ofNat =
      .ok channel ∧
    ∃ made, made = attempts Plain.primitives 1024 ⟨channel, ⟨[], [(3, some .deadlineExceeded)]⟩⟩
        [.write true false 1 [1], .write true true 1 [2]] ∧
      made.map (fun a => a.taken.length) = [3] ∧
      (Attempt.bytes made <+: (made.filter fun a => a.taken ≠ []).flatMap Attempt.frame) := by
  have hc : DataChannel.new Plain.primitives .chacha20Poly1305 [7] [] .client UInt8.ofNat
      UInt8.ofNat = .ok _ := rfl
  exact ⟨_, hc, _, rfl, by decide +kernel,
    (frames_stay_aligned _ _ (by decide +kernel) (by decide +kernel)).2.1⟩

/-- The deadline expires after three bytes of a frame and is extended; the next `Write`
puts a whole frame behind them. -/
theorem frame_after_cut_frame : ∃ channel,
    DataChannel.new Plain.primitives .chacha20Poly1305 [7] [] .client UInt8.ofNat UInt8.ofNat =
      .ok channel ∧
    ∃ made, made = attempts Plain.primitives 1024 ⟨channel, ⟨[], [(3, some .deadlineExceeded)]⟩⟩
        [.write true false 1 [1], .write true false 1 [2]] ∧
      (∀ a ∈ made, a.Honest) ∧
      made.map (fun a => (a.cut, a.taken.isEmpty)) = [(true, false), (false, false)] ∧
      ¬ Attempt.bytes made <+: (made.filter fun a => a.taken ≠ []).flatMap Attempt.frame := by
  have hc : DataChannel.new Plain.primitives .chacha20Poly1305 [7] [] .client UInt8.ofNat
      UInt8.ofNat = .ok _ := rfl
  exact ⟨_, hc, _, rfl, by decide +kernel⟩

end Telekit.FrameAlignment
