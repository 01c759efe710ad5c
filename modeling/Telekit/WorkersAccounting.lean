import Telekit.WorkersBroker

/-! The broker for Workers leaks nothing. An address is counted once for each open
session and each admission not used, a place in a room likewise; within a turn a
place may be in hand, between the reservation it was and the session it becomes,
or between a session and its release. A session's queue is what was enqueued and
not sent, its flush is scheduled while there is something to send, and a `send`
that throws closes the session. -/

namespace Telekit.Workers

open Ledger (total)

def Session.under (key : GoString × GoString → GoString) (k : GoString) (session : Session) : Int :=
  if session.closed = false ∧ key (session.roomID, session.ip) = k then 1 else 0

def Admission.under (key : GoString × GoString → GoString) (k : GoString) (admission : Admission) :
    Int :=
  if admission.used = false ∧ key (admission.roomID, admission.ip) = k then 1 else 0

def inHand (key : GoString × GoString → GoString) (k : GoString)
    (hand : Option (GoString × GoString)) : Int :=
  if hand.map key = some k then 1 else 0

theorem Session.under_nonneg (key : GoString × GoString → GoString) (k : GoString)
    (session : Session) : 0 ≤ session.under key k := by
  unfold Session.under
  split_ifs <;> omega

theorem Admission.under_nonneg (key : GoString × GoString → GoString) (k : GoString)
    (admission : Admission) : 0 ≤ admission.under key k := by
  unfold Admission.under
  split_ifs <;> omega

structure Counted (limits : Limits) (s : Broker) (hand : Option (GoString × GoString)) : Prop where
  positive : Tally.Positive s.ipCounts ∧ Tally.Positive s.roomReservations
  address : ∀ ip, Tally.count s.ipCounts ip = total (Session.under Prod.snd ip) s.sessions +
    total (Admission.under Prod.snd ip) s.admissions + inHand Prod.snd ip hand
  addressLimit : ∀ ip, Tally.count s.ipCounts ip ≤ limits.maxConnectionsPerIP
  reserved : ∀ id, Tally.count s.roomReservations id = total (Admission.under Prod.fst id) s.admissions
  members : ∀ id n, n ∈ s.members id ↔
    ∃ session, s.sessions[n]? = some session ∧ session.closed = false ∧ session.roomID = id
  distinct : ∀ id, (s.members id).Nodup
  size : ∀ id, ((s.members id).length : Int) = total (Session.under Prod.fst id) s.sessions
  roomLimit : ∀ id, (s.members id).length + Tally.count s.roomReservations id +
    inHand Prod.fst id hand ≤ limits.maxConnectionsPerRoom

namespace Broker

theorem members_setRoom (s : Broker) (roomID : GoString) (members : Option (List Nat))
    (id : GoString) :
    (s.setRoom roomID members).members id = if id = roomID then members.getD [] else s.members id := by
  unfold Broker.members Broker.setRoom
  by_cases same : id = roomID
  · simp [same]
  · simp [same]

theorem members_remove (s : Broker) (n : Nat) (roomID ip id : GoString) :
    (s.remove n roomID ip).members id =
      if id = roomID then (s.members roomID).erase n else s.members id := by
  unfold Broker.remove
  cases found : s.rooms roomID with
  | none =>
    have empty : s.members roomID = [] := by simp [Broker.members, found]
    simp only [Broker.releaseIP]
    split_ifs with same
    · rw [same, empty]
      exact empty
    · rfl
  | some room =>
    have listed : s.members roomID = room := by simp [Broker.members, found]
    have moved := s.members_setRoom roomID
      (if (room.erase n).isEmpty then none else some (room.erase n)) id
    simp only [Broker.releaseIP]
    rw [listed]
    refine moved.trans ?_
    cases rest : room.erase n with
    | nil | cons => simp

theorem remove_fields (s : Broker) (n : Nat) (roomID ip : GoString) :
    (s.remove n roomID ip).sessions = s.sessions ∧ (s.remove n roomID ip).admissions = s.admissions ∧
      (s.remove n roomID ip).roomReservations = s.roomReservations ∧
      (s.remove n roomID ip).ipCounts = Tally.lower s.ipCounts ip := by
  unfold Broker.remove
  cases s.rooms roomID <;> exact ⟨rfl, rfl, rfl, rfl⟩

end Broker

namespace Counted
variable {limits : Limits} {s s' : Broker} {roomID ip : GoString}

theorem start (limits : Limits) : Counted limits {} none := by
  have rooms := limits.roomPositive
  have addresses := limits.addressPositive
  refine ⟨⟨.empty, .empty⟩, ?_, ?_, ?_, ?_, ?_, ?_, ?_⟩
  · simp [Tally.count, inHand]
  · intro ip
    simp only [Tally.count, Option.getD_none]
    omega
  · simp [Tally.count]
  · simp [Broker.members]
  · simp [Broker.members]
  · simp [Broker.members]
  · intro id
    simp only [Broker.members, Tally.count, Option.getD_none, List.length_nil, inHand,
      Option.map_none, reduceCtorEq, if_false]
    omega

theorem setSession {hand : Option (GoString × GoString)} (counted : Counted limits s hand) {n : Nat}
    {session session' : Session} (found : s.sessions[n]? = some session)
    (same : session'.closed = session.closed ∧ session'.roomID = session.roomID ∧
      session'.ip = session.ip) : Counted limits (s.setSession n session') hand := by
  obtain ⟨closed, room, address⟩ := same
  have totals : ∀ key k, total (Session.under key k) (s.setSession n session').sessions =
      total (Session.under key k) s.sessions := by
    intro key k
    rw [Broker.setSession, Ledger.total_set _ found]
    simp only [Session.under, closed, room, address]
    omega
  refine ⟨counted.positive, fun ip => ?_, counted.addressLimit, counted.reserved, fun id m => ?_,
    counted.distinct, fun id => ?_, counted.roomLimit⟩
  · rw [totals]
    exact counted.address ip
  · refine (counted.members id m).trans ?_
    simp only [Broker.setSession, List.getElem?_set]
    by_cases own : n = m
    · subst own
      obtain ⟨inside, rfl⟩ := List.getElem?_eq_some_iff.mp found
      simp [inside, closed, room]
    · simp [own]
  · rw [totals]
    exact counted.size id

theorem release (counted : Counted limits s (some (roomID, ip))) :
    Counted limits (s.releaseIP ip) none := by
  have present : 0 < Tally.count s.ipCounts ip := by
    have sessions := Ledger.total_nonneg fun session (_ : session ∈ s.sessions) =>
      session.under_nonneg Prod.snd ip
    have admissions := Ledger.total_nonneg fun admission (_ : admission ∈ s.admissions) =>
      admission.under_nonneg Prod.snd ip
    have address := counted.address ip
    simp only [inHand, Option.map_some, if_true] at address
    omega
  refine ⟨⟨counted.positive.1.lower ip, counted.positive.2⟩, fun k => ?_, fun k => ?_,
    counted.reserved, counted.members, counted.distinct, counted.size, fun id => ?_⟩
  · have address := counted.address k
    simp only [Broker.releaseIP, Tally.count_lower present]
    simp only [inHand, Option.map_some, Option.map_none, Option.some.injEq, reduceCtorEq,
      if_false] at address ⊢
    rw [address]
    simp only [eq_comm]
    omega
  · have limit := counted.addressLimit k
    simp only [Broker.releaseIP, Tally.count_lower present]
    split_ifs <;> omega
  · have limit := counted.roomLimit id
    simp only [inHand, Option.map_none, reduceCtorEq, if_false]
    simp only [inHand] at limit
    have places : (s.releaseIP ip).members id = s.members id := rfl
    rw [places]
    simp only [Broker.releaseIP]
    split_ifs at limit <;> omega

theorem reserve (counted : Counted limits s none)
    (room : (s.members roomID).length + Tally.count s.roomReservations roomID <
      limits.maxConnectionsPerRoom)
    (address : Tally.count s.ipCounts ip < limits.maxConnectionsPerIP) :
    Counted limits { s with
      roomReservations := Tally.raise s.roomReservations roomID
      ipCounts := Tally.raise s.ipCounts ip
      admissions := s.admissions ++ [{ roomID := roomID, ip := ip }] } none := by
  refine ⟨⟨counted.positive.1.raise ip, counted.positive.2.raise roomID⟩, fun k => ?_, fun k => ?_,
    fun id => ?_, counted.members, counted.distinct, counted.size, fun id => ?_⟩
  · rw [Tally.count_raise, counted.address k, Ledger.total_append]
    simp [Admission.under, eq_comm]
    omega
  · have limit := counted.addressLimit k
    rw [Tally.count_raise]
    split_ifs with same
    · rw [same]
      omega
    · omega
  · rw [Tally.count_raise, counted.reserved id, Ledger.total_append]
    simp [Admission.under, eq_comm]
  · have limit := counted.roomLimit id
    have places : Broker.members { s with
      roomReservations := Tally.raise s.roomReservations roomID
      ipCounts := Tally.raise s.ipCounts ip
      admissions := s.admissions ++ [{ roomID := roomID, ip := ip }] } id = s.members id := rfl
    rw [places, Tally.count_raise]
    split_ifs with same
    · rw [same] at limit ⊢
      simp only [inHand, Option.map_none, reduceCtorEq, if_false] at limit ⊢
      omega
    · omega

theorem consume (counted : Counted limits s none) {a : Nat} {admission : Admission}
    (found : s.admissions[a]? = some admission) (unused : admission.used = false) :
    Counted limits (s.consumeReservation a admission) (some (admission.roomID, admission.ip)) := by
  have totals : ∀ key k, total (Admission.under key k) (s.consumeReservation a admission).admissions =
      total (Admission.under key k) s.admissions -
        inHand key k (some (admission.roomID, admission.ip)) := by
    intro key k
    simp only [Broker.consumeReservation, Broker.releaseRoomReservation]
    rw [Ledger.total_set _ found]
    simp [Admission.under, unused, inHand]
  have present : 0 < Tally.count s.roomReservations admission.roomID := by
    have counts := Ledger.le_total (fun other _ => other.under_nonneg Prod.fst admission.roomID)
      (List.mem_of_getElem? found)
    have own : admission.under Prod.fst admission.roomID = 1 := by simp [Admission.under, unused]
    rw [counted.reserved]
    omega
  have reserved : ∀ id, Tally.count (s.consumeReservation a admission).roomReservations id =
      Tally.count s.roomReservations id -
        inHand Prod.fst id (some (admission.roomID, admission.ip)) := by
    intro id
    simp only [Broker.consumeReservation, Broker.releaseRoomReservation]
    rw [Tally.count_lower present]
    simp [inHand, eq_comm]
  refine ⟨⟨counted.positive.1, counted.positive.2.lower _⟩, fun k => ?_, counted.addressLimit,
    fun id => ?_, counted.members, counted.distinct, counted.size, fun id => ?_⟩
  · have address := counted.address k
    rw [totals]
    simp only [inHand, Option.map_none, reduceCtorEq, if_false] at address ⊢
    simp only [Broker.consumeReservation, Broker.releaseRoomReservation]
    omega
  · rw [reserved, totals, counted.reserved]
  · have limit := counted.roomLimit id
    have places : (s.consumeReservation a admission).members id = s.members id := rfl
    rw [reserved, places]
    simp only [inHand, Option.map_none, reduceCtorEq, if_false] at limit ⊢
    omega

theorem sameRoom {hand : Option (GoString × GoString)} (counted : Counted limits s hand)
    (roomID : GoString) : Counted limits (s.setRoom roomID (some (s.members roomID))) hand := by
  have places : ∀ id, (s.setRoom roomID (some (s.members roomID))).members id = s.members id := by
    intro id
    rw [Broker.members_setRoom]
    split_ifs with same
    · rw [same]
      rfl
    · rfl
  refine ⟨counted.positive, counted.address, counted.addressLimit, counted.reserved, fun id n => ?_,
    fun id => ?_, fun id => ?_, fun id => ?_⟩
  · rw [places]
    exact counted.members id n
  · rw [places]
    exact counted.distinct id
  · rw [places]
    exact counted.size id
  · rw [places]
    exact counted.roomLimit id

theorem enter (counted : Counted limits s (some (roomID, ip))) :
    Counted limits { s.setRoom roomID (some (s.members roomID ++ [s.sessions.length])) with
      sessions := s.sessions ++ [{ roomID := roomID, ip := ip }] } none := by
  have places : ∀ id, Broker.members
      { s.setRoom roomID (some (s.members roomID ++ [s.sessions.length])) with
        sessions := s.sessions ++ [{ roomID := roomID, ip := ip }] } id =
      s.members id ++ if id = roomID then [s.sessions.length] else [] := by
    intro id
    refine (s.members_setRoom _ _ id).trans ?_
    split_ifs with same
    · rw [same]
      rfl
    · simp
  have fresh : ∀ id, s.sessions.length ∉ s.members id := by
    intro id member
    obtain ⟨session, found, _⟩ := (counted.members id _).mp member
    simp at found
  refine ⟨counted.positive, fun k => ?_, counted.addressLimit, counted.reserved, fun id n => ?_,
    fun id => ?_, fun id => ?_, fun id => ?_⟩
  · have address := counted.address k
    rw [Ledger.total_append]
    simp only [inHand, Option.map_some, Option.some.injEq, Option.map_none, reduceCtorEq,
      if_false] at address ⊢
    simp only [Broker.setRoom, Ledger.total_cons, Ledger.total_nil, Session.under, true_and]
    omega
  · rw [places, List.mem_append]
    by_cases last : n = s.sessions.length
    · subst last
      have absent := fresh id
      simp only [absent, false_or, List.getElem?_concat_length, Option.some.injEq,
        exists_eq_left', true_and]
      split_ifs with same
      · simp [same]
      · simpa using fun eq => same eq.symm
    · have old : (s.sessions ++ [{ roomID := roomID, ip := ip }])[n]? = s.sessions[n]? := by
        rcases Nat.lt_or_ge n s.sessions.length with inside | outside
        · exact List.getElem?_append_left inside
        · rw [List.getElem?_eq_none outside, List.getElem?_eq_none]
          simp only [List.length_append, List.length_singleton]
          omega
      simp only [old, ← counted.members id n]
      split_ifs <;> simp [last]
  · rw [places]
    split_ifs
    · rw [List.nodup_append]
      refine ⟨counted.distinct id, by simp, fun m member other new => ?_⟩
      rintro rfl
      rw [List.mem_singleton.mp new] at member
      exact fresh id member
    · rw [List.append_nil]
      exact counted.distinct id
  · rw [places, Ledger.total_append, List.length_append, Int.natCast_add, counted.size id]
    by_cases same : id = roomID
    · simp [same, Session.under]
    · simp [same, Session.under, Ne.symm same]
  · have limit := counted.roomLimit id
    rw [places, List.length_append]
    simp only [inHand, Option.map_some, Option.some.injEq, Option.map_none, reduceCtorEq,
      if_false] at limit ⊢
    simp only [Broker.setRoom]
    by_cases same : id = roomID
    · rw [if_pos same.symm] at limit
      rw [if_pos same, List.length_singleton]
      omega
    · rw [if_neg (Ne.symm same)] at limit
      rw [if_neg same, List.length_nil]
      omega

theorem leave (counted : Counted limits s none) {n : Nat} {session session' : Session}
    (found : s.sessions[n]? = some session) (opened : session.closed = false)
    (closed : session'.closed = true) (rooms : GoString → Option (List Nat))
    (places : ∀ id, (rooms id).getD [] =
      if id = session.roomID then (s.members id).erase n else s.members id) :
    Counted limits { s.setSession n session' with rooms := rooms }
      (some (session.roomID, session.ip)) := by
  have totals : ∀ key k, total (Session.under key k) (s.setSession n session').sessions =
      total (Session.under key k) s.sessions - inHand key k (some (session.roomID, session.ip)) := by
    intro key k
    rw [Broker.setSession, Ledger.total_set _ found]
    simp [Session.under, opened, closed, inHand]
  have member : n ∈ s.members session.roomID :=
    (counted.members _ n).mpr ⟨session, found, opened, rfl⟩
  have after : ∀ id, Broker.members { s.setSession n session' with rooms := rooms } id =
      if id = session.roomID then (s.members id).erase n else s.members id := places
  have shorter : ∀ id,
      ((Broker.members { s.setSession n session' with rooms := rooms } id).length : Int) =
      (s.members id).length - inHand Prod.fst id (some (session.roomID, session.ip)) := by
    intro id
    rw [after]
    simp only [inHand, Option.map_some, Option.some.injEq]
    by_cases same : id = session.roomID
    · have some_member := List.length_pos_of_mem member
      rw [if_pos same, if_pos same.symm, same, List.length_erase_of_mem member]
      omega
    · rw [if_neg same, if_neg (Ne.symm same)]
      omega
  refine ⟨counted.positive, fun k => ?_, counted.addressLimit, counted.reserved, fun id m => ?_,
    fun id => ?_, fun id => ?_, fun id => ?_⟩
  · have address := counted.address k
    rw [totals]
    simp only [inHand, Option.map_none, reduceCtorEq, if_false] at address ⊢
    simp only [Broker.setSession]
    omega
  · rw [after]
    by_cases own : m = n
    · subst own
      have inside := (List.getElem?_eq_some_iff.mp found).1
      have gone : m ∉ if id = session.roomID then (s.members id).erase m else s.members id := by
        split_ifs with same
        · exact (counted.distinct id).not_mem_erase
        · intro other
          obtain ⟨still, found', -, room⟩ := (counted.members id m).mp other
          cases found.symm.trans found'
          exact same room.symm
      simp [gone, Broker.setSession, inside, closed]
    · have kept : (m ∈ if id = session.roomID then (s.members id).erase n else s.members id) ↔
          m ∈ s.members id := by
        split_ifs
        · exact List.mem_erase_of_ne own
        · exact Iff.rfl
      rw [kept, counted.members id m]
      simp [Broker.setSession, List.getElem?_set_ne (Ne.symm own)]
  · rw [after]
    split_ifs
    · exact (counted.distinct id).erase n
    · exact counted.distinct id
  · rw [shorter, totals, counted.size]
  · have limit := counted.roomLimit id
    rw [shorter]
    simp only [inHand, Option.map_none, reduceCtorEq, if_false] at limit ⊢
    simp only [Broker.setSession]
    omega

theorem disconnect (counted : Counted limits s none) (n code : Nat) (reason : GoString)
    (closeSocket : Bool) : Counted limits (s.disconnect n code reason closeSocket) none := by
  unfold Broker.disconnect
  split
  · exact counted
  next session found =>
    generalize (if closeSocket then some (code, reason) else none) = closing
    split_ifs with closed
    · exact counted
    · obtain ⟨sessions, admissions, reservations, addresses⟩ :=
        (s.setSession n (session.close closing)).remove_fields n session.roomID session.ip
      have shut : (session.close closing).closed = true := rfl
      have left := counted.leave found (by simpa using closed) shut
        ((s.setSession n (session.close closing)).remove n session.roomID session.ip).rooms
        (fun id => by
          refine (Broker.members_remove _ n session.roomID session.ip id).trans ?_
          split_ifs with same
          · rw [same]
            rfl
          · rfl)
      convert left.release using 1
      rw [Broker.mk.injEq]
      exact ⟨rfl, reservations, addresses, admissions, sessions⟩

theorem attach (counted : Counted limits s none) {a : Nat} {admission : Admission}
    (found : s.admissions[a]? = some admission) (failure : Option GoString) :
    Counted limits (s.attach a admission failure).2 none := by
  unfold Broker.attach
  split_ifs with used
  · exact counted
  · have consumed := counted.consume found (by simpa using used)
    cases failure with
    | none => exact consumed.enter
    | some err => exact (consumed.sameRoom admission.roomID).release

theorem cancel (counted : Counted limits s none) {a : Nat} {admission : Admission}
    (found : s.admissions[a]? = some admission) : Counted limits (s.cancel a admission) none := by
  unfold Broker.cancel
  split_ifs with used
  · exact counted
  · exact (counted.consume found (by simpa using used)).release

end Counted

theorem socketDataBytes_nonneg (data : SocketData) : 0 ≤ socketDataBytes data := by
  cases data <;> exact Int.natCast_nonneg _

structure Session.Live (limits : Limits) (session : Session) : Prop where
  order : session.sent ++ session.queue = session.enqueued
  bytes : session.queuedBytes = total socketDataBytes session.queue
  messages : (session.queue.length : Int) ≤ limits.maxQueueMessages
  within : session.queuedBytes ≤ limits.maxQueueBytes
  scheduled : session.queue ≠ [] → session.flushing = true

structure Session.Sound (limits : Limits) (session : Session) : Prop where
  sent : session.sent <+: session.enqueued
  live : session.closed = false → session.Live limits

namespace Session
variable {limits : Limits} {session : Session}

theorem Live.sent (live : session.Live limits) : session.sent <+: session.enqueued := by
  rw [← live.order]
  exact List.prefix_append _ _

theorem Live.sound (live : session.Live limits) : session.Sound limits := ⟨live.sent, fun _ => live⟩

theorem sound_close (sent : session.sent <+: session.enqueued) (closing : Option (Nat × GoString)) :
    (session.close closing).Sound limits :=
  ⟨sent, fun opened => by simp [Session.close] at opened⟩

theorem Live.shift (live : session.Live limits) {message : SocketData} {rest : List SocketData}
    (queue : session.queue = message :: rest) :
    Session.Live limits { session with
      queue := rest
      queuedBytes := session.queuedBytes - socketDataBytes message
      sent := session.sent ++ [message] } := by
  have size := socketDataBytes_nonneg message
  have bytes := live.bytes
  have messages := live.messages
  have within := live.within
  rw [queue] at bytes messages
  simp only [Ledger.total_cons, List.length_cons] at bytes messages
  refine ⟨?_, ?_, ?_, ?_, fun _ => live.scheduled (by simp [queue])⟩
  · rw [← live.order, queue]
    simp
  · dsimp only
    omega
  · dsimp only
    omega
  · dsimp only
    omega

/-- What a flush leaves of a session: all is sent, or a `send` threw. -/
structure Drained (limits : Limits) (session session' : Session) (threw : Bool) : Prop where
  same : session'.closed = session.closed ∧ session'.roomID = session.roomID ∧
    session'.ip = session.ip
  flushing : session'.flushing = session.flushing
  sent : session'.sent <+: session'.enqueued
  done : threw = false → session'.Live limits ∧ session'.queue = []

theorem Live.drain (queue : List SocketData) (failing : Option Nat) (live : session.Live limits)
    (current : session.queue = queue) :
    Drained limits session (session.drain queue failing).1 (session.drain queue failing).2 := by
  induction queue generalizing session failing with
  | nil => exact ⟨⟨rfl, rfl, rfl⟩, rfl, live.sent, fun _ => ⟨live, current⟩⟩
  | cons message rest ih =>
    have shifted := live.shift current
    have goes : ∀ failing, Drained limits session
        (Session.drain rest failing { session with
          queue := rest
          queuedBytes := session.queuedBytes - socketDataBytes message
          sent := session.sent ++ [message] }).1
        (Session.drain rest failing { session with
          queue := rest
          queuedBytes := session.queuedBytes - socketDataBytes message
          sent := session.sent ++ [message] }).2 := by
      intro failing
      have drained := ih failing shifted rfl
      exact ⟨drained.same, drained.flushing, drained.sent, drained.done⟩
    cases failing with
    | none => exact goes none
    | some k =>
      cases k with
      | zero => exact ⟨⟨rfl, rfl, rfl⟩, rfl, live.sent, fun done => by cases done⟩
      | succ k => exact goes (some k)

theorem Live.push (live : session.Live limits) {message : SocketData}
    (room : ¬ ((session.queue.length : Int) ≥ limits.maxQueueMessages ∨
      session.queuedBytes + socketDataBytes message > limits.maxQueueBytes)) :
    Session.Live limits { session with
      queue := session.queue ++ [message]
      queuedBytes := session.queuedBytes + socketDataBytes message
      enqueued := session.enqueued ++ [message]
      flushing := true } := by
  rw [not_or] at room
  refine ⟨?_, ?_, ?_, ?_, fun _ => rfl⟩
  · rw [← live.order]
    simp
  · simp [live.bytes]
  · simp only [List.length_append, List.length_singleton]
    omega
  · dsimp only
    omega

end Session

def Task.flushes (n : Nat) : Task → Int
  | .flush m => if m = n then 1 else 0
  | _ => 0

def Session.flag (session : Session) : Int := if session.flushing then 1 else 0

theorem Session.scheduleFlush_eq (session : Session) (n : Nat) :
    (session.scheduleFlush n).1 = { session with flushing := true } ∧
      ∀ m, total (Task.flushes m) (session.scheduleFlush n).2 =
        if m = n then 1 - session.flag else 0 := by
  unfold Session.scheduleFlush Session.flag
  cases flushing : session.flushing with
  | true => simp [← flushing]
  | false => simp [Task.flushes, eq_comm]

/-- The sessions are sound, and a flushing one has its one microtask. -/
structure Served (limits : Limits) (sessions : List Session) (tasks : List Task) : Prop where
  sound : ∀ (n : Nat) (session : Session), sessions[n]? = some session → session.Sound limits
  flushes : ∀ n, total (Task.flushes n) tasks = (sessions[n]?).elim 0 Session.flag

variable {session : Session} {limits : Limits}

theorem Served.change {sessions : List Session} {tasks tasks' : List Task}
    (served : Served limits sessions tasks) {n : Nat} {session' : Session}
    (found : sessions[n]? = some session) (sound : session'.Sound limits)
    (flushes : ∀ m, total (Task.flushes m) tasks' = total (Task.flushes m) tasks +
      if m = n then session'.flag - session.flag else 0) :
    Served limits (sessions.set n session') tasks' := by
  have inside := (List.getElem?_eq_some_iff.mp found).1
  constructor
  · intro m other found'
    rw [List.getElem?_set] at found'
    split_ifs at found' with same
    · cases found'
      exact sound
    · exact served.sound m other found'
  · intro m
    rw [flushes, served.flushes, List.getElem?_set]
    by_cases same : m = n
    · subst same
      simp only [found, inside, if_true, Option.elim_some]
      omega
    · simp [same, Ne.symm same]

theorem Served.attach {sessions : List Session} {tasks : List Task}
    (served : Served limits sessions tasks) (roomID ip : GoString) :
    Served limits (sessions ++ [{ roomID := roomID, ip := ip }]) tasks := by
  have fresh : Session.Live limits { roomID := roomID, ip := ip } := by
    have messages := limits.queuePositive
    have bytes := limits.bytesPositive
    refine ⟨rfl, rfl, ?_, ?_, fun queued => absurd rfl queued⟩
    · simp only [List.length_nil]
      omega
    · dsimp only
      omega
  constructor
  · intro n session found
    rw [List.getElem?_append] at found
    split_ifs at found with inside
    · exact served.sound n session found
    · rw [List.getElem?_singleton] at found
      split_ifs at found
      cases found
      exact fresh.sound
  · intro n
    rw [served.flushes n, List.getElem?_append]
    split_ifs with inside
    · rfl
    · rw [List.getElem?_eq_none (not_lt.mp inside), List.getElem?_singleton]
      split_ifs <;> rfl

structure Sound (limits : Limits) (s : Broker) (tasks : List Task) : Prop where
  counted : Counted limits s none
  served : Served limits s.sessions tasks

namespace Broker
variable {limits : Limits} {s : Broker} {tasks : List Task} {n : Nat}

theorem disconnect_sessions (code : Nat) (reason : GoString) (closeSocket : Bool)
    (found : s.sessions[n]? = some session) (opened : session.closed = false) :
    ∃ closing, (s.disconnect n code reason closeSocket).sessions =
      s.sessions.set n (session.close closing) := by
  refine ⟨if closeSocket then some (code, reason) else none, ?_⟩
  unfold Broker.disconnect
  rw [found]
  simp only [opened, Bool.false_eq_true, if_false]
  exact (Broker.remove_fields _ n session.roomID session.ip).1

theorem disconnect_sound (sound : Sound limits s tasks) (code : Nat) (reason : GoString)
    (closeSocket : Bool) : Sound limits (s.disconnect n code reason closeSocket) tasks := by
  refine ⟨sound.counted.disconnect n code reason closeSocket, ?_⟩
  cases found : s.sessions[n]? with
  | none =>
    simp only [Broker.disconnect, found]
    exact sound.served
  | some session =>
    cases closed : session.closed with
    | true =>
      simp only [Broker.disconnect, found, closed, if_true]
      exact sound.served
    | false =>
      obtain ⟨closing, sessions⟩ := disconnect_sessions code reason closeSocket found closed
      rw [sessions]
      refine sound.served.change found (Session.sound_close (sound.served.sound n _ found).sent _) ?_
      intro m
      have flag : (session.close closing).flag = session.flag := rfl
      simp [flag]

theorem enqueue_sound (sound : Sound limits s tasks) (n : Nat) (data : SocketData) :
    Sound limits (s.enqueue limits n data).1 (tasks ++ (s.enqueue limits n data).2) := by
  unfold Broker.enqueue
  cases found : s.sessions[n]? with
  | none => simpa using sound
  | some session =>
    dsimp only
    split_ifs with closed full
    · simpa using sound
    · simpa using disconnect_sound sound 1009 (str "send queue limit exceeded") true
    · have live := (sound.served.sound n session found).live (by simpa using closed)
      have scheduled := Session.scheduleFlush_eq { session with
        queue := session.queue ++ [copySocketData data]
        queuedBytes := session.queuedBytes + socketDataBytes (copySocketData data)
        enqueued := session.enqueued ++ [copySocketData data] } n
      refine ⟨sound.counted.setSession found ?_, sound.served.change found ?_ ?_⟩
      · rw [scheduled.1]
        exact ⟨rfl, rfl, rfl⟩
      · rw [scheduled.1]
        exact (live.push full).sound
      · intro m
        rw [Ledger.total_append, scheduled.2, scheduled.1]
        simp [Session.flag]

theorem enqueueAll_sound (data : SocketData) (room : List Nat) (sound : Sound limits s tasks) :
    Sound limits (enqueueAll limits data room s).1 (tasks ++ (enqueueAll limits data room s).2) := by
  induction room generalizing s tasks with
  | nil => simpa [enqueueAll] using sound
  | cons n rest ih =>
    have next := ih (enqueue_sound sound n data)
    rw [List.append_assoc] at next
    exact next

theorem broadcast_sound (sound : Sound limits s tasks) (roomID : GoString) (data : SocketData) :
    Sound limits (s.broadcast limits roomID data).1 (tasks ++ (s.broadcast limits roomID data).2) :=
  enqueueAll_sound data (s.members roomID) sound

theorem receive_sound (sound : Sound limits s tasks) (n : Nat) (data : SocketData) :
    Sound limits (s.receive limits n data).1 (tasks ++ (s.receive limits n data).2) := by
  unfold Broker.receive
  cases s.sessions[n]? with
  | none => simpa using sound
  | some session =>
    dsimp only
    split_ifs
    · simpa using sound
    · simpa using disconnect_sound sound 1009 (str "message too large") true
    · exact broadcast_sound sound session.roomID (copySocketData data)

theorem finishFlush_eq (found : s.sessions[n]? = some session)
    (nothing : session.closed = false → session.queue = []) :
    s.finishFlush n = (s.setSession n { session with flushing := false }, []) := by
  unfold Broker.finishFlush
  rw [found]
  exact if_neg fun more => more.2 (nothing more.1)

theorem flush_eq (found : s.sessions[n]? = some session) (sound : session.Sound limits)
    (counted : Counted limits s none) (failing : Option Nat) :
    ∃ s' session', s.flush n failing = (s', []) ∧ Counted limits s' none ∧
      s'.sessions = s.sessions.set n session' ∧ session'.Sound limits ∧
      session'.flushing = false := by
  have inside := (List.getElem?_eq_some_iff.mp found).1
  have own : ∀ session', (s.setSession n session').sessions[n]? = some session' := fun session' =>
    List.getElem?_set_self inside
  unfold Broker.flush
  rw [found]
  dsimp only
  cases closed : session.closed with
  | true =>
    simp only [if_true, Bool.false_eq_true, if_false]
    rw [finishFlush_eq (own session) (by simp [closed])]
    refine ⟨_, _, rfl, (counted.setSession found ⟨rfl, rfl, rfl⟩).setSession (own session)
      ⟨rfl, rfl, rfl⟩, List.set_set .., ⟨sound.sent, fun opened => ?_⟩, rfl⟩
    exact absurd (closed.symm.trans opened) (by decide)
  | false =>
    simp only [Bool.false_eq_true, if_false]
    have drained := (sound.live closed).drain session.queue failing rfl
    generalize session.drain session.queue failing = result at drained
    obtain ⟨session', threw⟩ := result
    have moved := counted.setSession found drained.same
    cases threw with
    | false =>
      obtain ⟨live, empty⟩ := drained.done rfl
      simp only [Bool.false_eq_true, if_false]
      rw [finishFlush_eq (own session') fun _ => empty]
      refine ⟨_, _, rfl, moved.setSession (own session') ⟨rfl, rfl, rfl⟩, List.set_set .., ?_, rfl⟩
      exact Session.Live.sound ⟨live.order, live.bytes, live.messages, live.within,
        fun queued => absurd empty queued⟩
    | true =>
      have opened : session'.closed = false := drained.same.1.trans closed
      obtain ⟨closing, sessions⟩ := disconnect_sessions 1011 (str "WebSocket send failed") true
        (own session') opened
      have shut := moved.disconnect n 1011 (str "WebSocket send failed") true
      simp only [if_true]
      generalize (s.setSession n session').disconnect n 1011 (str "WebSocket send failed") true =
        s' at sessions shut
      have last : s'.sessions[n]? = some (session'.close closing) := by
        rw [sessions]
        exact List.getElem?_set_self (by simpa [Broker.setSession] using inside)
      rw [finishFlush_eq last (by simp [Session.close])]
      refine ⟨_, { session'.close closing with flushing := false }, rfl,
        shut.setSession last ⟨rfl, rfl, rfl⟩, ?_, ?_, rfl⟩
      · simp only [Broker.setSession] at sessions ⊢
        rw [sessions, List.set_set, List.set_set]
      · exact ⟨drained.sent, fun opened => by simp [Session.close] at opened⟩

theorem flush_sound (sound : Sound limits s tasks) {i : Nat} (scheduled : tasks[i]? = some (.flush n))
    (failing : Option Nat) :
    Sound limits (s.flush n failing).1 (tasks.set i .flushed ++ (s.flush n failing).2) := by
  have counts : ∀ t ∈ tasks, 0 ≤ Task.flushes n t := by
    intro t _
    cases t with
    | flush m =>
      simp only [Task.flushes]
      split_ifs <;> omega
    | _ => exact Int.le_refl 0
  have one := Ledger.le_total counts (List.mem_of_getElem? scheduled)
  rw [sound.served.flushes n] at one
  simp only [Task.flushes, if_true] at one
  cases found : s.sessions[n]? with
  | none => simp [found] at one
  | some session =>
    rw [found, Option.elim_some] at one
    obtain ⟨s', session', eq, counted, sessions, sound', idle⟩ :=
      flush_eq found (sound.served.sound n session found) sound.counted failing
    rw [eq]
    refine ⟨counted, ?_⟩
    dsimp only
    rw [sessions]
    refine sound.served.change found sound' fun m => ?_
    rw [Interleaving.total_advance (Task.flushes m) scheduled]
    have flag : session.flag = 1 := by
      unfold Session.flag at one ⊢
      split_ifs at one ⊢
      · rfl
      · omega
    have flag' : session'.flag = 0 := by simp [Session.flag, idle]
    rw [flag, flag']
    by_cases same : m = n
    · simp only [Task.flushes, same, if_true, Ledger.total_nil]
      omega
    · simp [Task.flushes, same, Ne.symm same]

end Broker

theorem advance_sound {choice : Choice} {s s' : Broker} {tasks spawned : List Task} {t t' : Task}
    {i : Nat} (sound : Sound limits s tasks) (running : tasks[i]? = some t)
    (moved : advance limits choice s t = some (s', t', spawned)) :
    Sound limits s' (tasks.set i t' ++ spawned) := by
  have quiet : ∀ {u : Task}, (∀ n, t.flushes n = 0) → (∀ n, u.flushes n = 0) → ∀ n,
      total (Task.flushes n) (tasks.set i u ++ []) = total (Task.flushes n) tasks := by
    intro u before after n
    rw [Interleaving.total_advance (Task.flushes n) running, before, after]
    simp
  have rests : ∀ {u : Task}, (∀ n, t.flushes n = 0) → (∀ n, u.flushes n = 0) →
      Sound limits s (tasks.set i u ++ []) := fun before after =>
    ⟨sound.counted, sound.served.sound, fun n => (quiet before after n).trans (sound.served.flushes n)⟩
  cases t with
  | checkOrigin roomID ip =>
    simp only [advance] at moved
    split at moved <;> cases moved <;> exact rests (fun _ => rfl) fun _ => rfl
  | authorize roomID ip =>
    simp only [advance] at moved
    split at moved
    · cases moved
      exact rests (fun _ => rfl) fun _ => rfl
    · cases moved
      exact rests (fun _ => rfl) fun _ => rfl
    · simp only [Broker.reserve] at moved
      split_ifs at moved with full
      · cases moved
        exact rests (fun _ => rfl) fun _ => rfl
      · cases moved
        rw [not_or, not_le, not_le] at full
        exact ⟨sound.counted.reserve full.1 full.2, sound.served.sound,
          fun n => (quiet (fun _ => rfl) (fun _ => rfl) n).trans (sound.served.flushes n)⟩
  | flush n =>
    simp only [advance] at moved
    cases moved
    exact Broker.flush_sound sound running choice.failing
  | refused | accepted | rejected | flushed => cases moved

theorem occur_sound {call : Call} {s s' : Broker} {tasks spawned : List Task}
    (sound : Sound limits s tasks) (happened : occur limits call s = some (s', spawned)) :
    Sound limits s' (tasks ++ spawned) := by
  cases call with
  | admitRequest roomID ip =>
    simp only [occur] at happened
    split at happened <;> cases happened <;>
      exact ⟨sound.counted, sound.served.sound,
        fun n => by simpa [Task.flushes] using sound.served.flushes n⟩
  | attach a failure =>
    simp only [occur] at happened
    split at happened
    · cases happened
    next admission found =>
      cases happened
      refine ⟨sound.counted.attach found failure, ?_⟩
      rw [List.append_nil]
      unfold Broker.attach
      split_ifs
      · exact sound.served
      · cases failure with
        | none => exact sound.served.attach admission.roomID admission.ip
        | some err => exact sound.served
  | cancel a =>
    simp only [occur] at happened
    split at happened
    · cases happened
    next admission found =>
      cases happened
      refine ⟨sound.counted.cancel found, ?_⟩
      rw [List.append_nil]
      unfold Broker.cancel
      split_ifs
      · exact sound.served
      · exact sound.served
  | receive n data =>
    have result := Broker.receive_sound sound n data
    have eq : s.receive limits n data = (s', spawned) := Option.some.inj happened
    rw [eq] at result
    exact result
  | disconnect n code reason closeSocket =>
    cases happened
    rw [List.append_nil]
    exact Broker.disconnect_sound sound code reason closeSocket
  | enqueue n data =>
    have result := Broker.enqueue_sound sound n data
    have eq : s.enqueue limits n data = (s', spawned) := Option.some.inj happened
    rw [eq] at result
    exact result
  | broadcast roomID data =>
    have result := Broker.broadcast_sound sound roomID data
    have eq : s.broadcast limits roomID data = (s', spawned) := Option.some.inj happened
    rw [eq] at result
    exact result

theorem run_sound (limits : Limits) (actions : List Action) :
    Sound limits (run limits actions).shared (run limits actions).threads := by
  refine (program limits).run_keeps (fun c => Sound limits c.shared c.threads) ?_
    ⟨Counted.start limits, by simp, by simp⟩ actions
  intro c c' sound moves
  cases moves with
  | stays => exact sound
  | advances running moved => exact advance_sound sound running moved
  | occurs happened => exact occur_sound sound happened

structure Accounted (limits : Limits) (c : Interleaving.Config Broker Task) : Prop where
  addresses : ∀ ip, (c.shared.ipCounts ip).getD 0 =
    total (Session.under Prod.snd ip) c.shared.sessions +
      total (Admission.under Prod.snd ip) c.shared.admissions
  addressLimit : ∀ ip, (c.shared.ipCounts ip).getD 0 ≤ limits.maxConnectionsPerIP
  /-- A room is the set of its open sessions, and its reservations are the admissions
  for it that are not used. -/
  rooms : ∀ id, ((c.shared.members id).length : Int) =
      total (Session.under Prod.fst id) c.shared.sessions ∧
    (c.shared.roomReservations id).getD 0 = total (Admission.under Prod.fst id) c.shared.admissions
  roomLimit : ∀ id, (c.shared.members id).length + (c.shared.roomReservations id).getD 0 ≤
    limits.maxConnectionsPerRoom
  bytes : ∀ (n : Nat) (session : Session), c.shared.sessions[n]? = some session →
    session.closed = false →
    session.queuedBytes = total socketDataBytes session.queue ∧
      session.queuedBytes ≤ limits.maxQueueBytes ∧
      (session.queue.length : Int) ≤ limits.maxQueueMessages
  scheduled : ∀ (n : Nat) (session : Session), c.shared.sessions[n]? = some session →
    session.closed = false → session.queue ≠ [] → Task.flush n ∈ c.threads
  sent : ∀ (n : Nat) (session : Session), c.shared.sessions[n]? = some session →
    session.sent <+: session.enqueued

theorem Served.scheduled {sessions : List Session} {tasks : List Task}
    (served : Served limits sessions tasks) {n : Nat} (found : sessions[n]? = some session)
    (flushing : session.flushing = true) : Task.flush n ∈ tasks := by
  by_contra absent
  have none_flush : total (Task.flushes n) tasks = 0 := by
    apply Ledger.total_eq_zero
    intro t member
    cases t with
    | flush m =>
      refine if_neg ?_
      rintro rfl
      exact absent member
    | _ => rfl
  have flushes := served.flushes n
  rw [none_flush, found] at flushes
  simp [Session.flag, flushing] at flushes

theorem workers_accounted (limits : Limits) (actions : List Action) :
    Accounted limits (run limits actions) := by
  obtain ⟨counted, served⟩ := run_sound limits actions
  constructor
  · intro ip
    have address := counted.address ip
    simp only [inHand, Option.map_none, reduceCtorEq, if_false, Int.add_zero] at address
    exact address
  · exact counted.addressLimit
  · exact fun id => ⟨counted.size id, counted.reserved id⟩
  · intro id
    have limit := counted.roomLimit id
    simp only [inHand, Option.map_none, reduceCtorEq, if_false, Int.add_zero] at limit
    exact limit
  · intro n session found opened
    have live := (served.sound n session found).live opened
    exact ⟨live.bytes, live.within, live.messages⟩
  · intro n session found opened queued
    exact served.scheduled found (((served.sound n session found).live opened).scheduled queued)
  · exact fun n session found => (served.sound n session found).sent

end Telekit.Workers
