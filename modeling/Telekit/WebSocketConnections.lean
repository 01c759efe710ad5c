import Telekit.WebSocketAdapter

/-! The connections of the WebSocket adapter. Every open connection is held by one
room or is in the hands of the call that dialled it. A room has one reader, and
only that reader gives it a connection; a registered room is not closed, and a room
that has left the registry never comes back. -/

namespace Telekit.WebSocket

open Ledger (total)

def Thread.hand : Thread → Option Nat
  | .ensure _ (.publish n) => some n
  | .ensure _ (.discard n _) => some n
  | .reader _ (.recheck n) => some n
  | .reader _ (.discard n) => some n
  | .reader _ (.assign n) => some n
  | _ => none

def Thread.room : Thread → Option Nat
  | .reader r _ => some r
  | _ => none

def Thread.reads : Thread → Option (Nat × Nat)
  | .reader r (.read n) => some (r, n)
  | .reader r (.assign n) => some (r, n)
  | _ => none

def Thread.assigns : Thread → Option Nat
  | .reader r (.assign _) => some r
  | _ => none

def Thread.inHand (n : Nat) (t : Thread) : Int := if t.hand = some n then 1 else 0

def Thread.readerOf (r : Nat) (t : Thread) : Int := if t.room = some r then 1 else 0

def RoomConn.holds (n : Nat) (room : RoomConn) : Int := if room.conn = some n then 1 else 0

/-- Everything a step can do; a step that `rests` moves only its thread. -/
inductive Effect (s : Shared) (t : Thread) : Shared → Thread → List Thread → Prop
  | rests {t' : Thread} (room : t'.room = t.room) (hand : t'.hand = t.hand)
    (reads : ∀ r n, t'.reads = some (r, n) → t.reads = some (r, n) ∨ s.roomActive r = true)
    (assigns : ∀ r, t'.assigns = some r → s.roomActive r = true) : Effect s t s t' []
  | dials {t' : Thread} (room : t'.room = t.room) (empty : t.hand = none)
    (full : t'.hand = some s.conns.length) (quiet : t'.reads = none ∧ t'.assigns = none) :
    Effect s t s.dial t' []
  | discards {t' : Thread} {n : Nat} (room : t'.room = t.room) (full : t.hand = some n)
    (empty : t'.hand = none) (quiet : t'.reads = none ∧ t'.assigns = none) :
    Effect s t (s.closeConn n) t' []
  | publishes {id : GoString} {n : Nat} (pos : t = .ensure id (.publish n))
    (connected : s.connected = true) (vacant : s.rooms id = none) :
    Effect s t (s.publish id n) (.ensure id (.returned (some s.roomConns.length)))
      [.reader s.roomConns.length (.read n)]
  | delivers {r n : Nat} (pos : t = .reader r (.read n)) : Effect s t (s.deliver r n) t []
  | drops {r n : Nat} (pos : t = .reader r (.drop n)) :
    Effect s t (s.closeConn n) (.reader r (.clear n)) []
  | clears {r n : Nat} (pos : t = .reader r (.clear n)) :
    Effect s t (s.clear r n) (.reader r .active) []
  | assigns {r n : Nat} (pos : t = .reader r (.assign n)) :
    Effect s t (s.update r fun room => { room with conn := some n }) (.reader r (.read n)) []
  | removes {r : Nat} (pos : t = .reader r .remove) : Effect s t (s.removeRoom r) (.reader r .gone) []
  | swaps (pos : t = .disconnect .swap) :
    Effect s t s.detach (.disconnect (.closing s.registered s.registered)) []
  | begins {r : Nat} {rest removed : List Nat} (pos : t = .disconnect (.closing rest removed)) :
    Effect s t (s.update r fun room => { room with done := true })
      (.disconnect (.shut r (rest.erase r) removed)) []
  | shuts {r : Nat} {rest removed : List Nat} (pos : t = .disconnect (.shut r rest removed)) :
    Effect s t (s.closeRoom r) (.disconnect (.closing rest removed)) []

variable {s' : Shared} {spawned : List Thread} {choice : Choice}

theorem ensureStep_effect {s : Shared} {id : GoString} {pos pos' : EnsurePos}
    (moved : ensureStep choice s id pos = some (s', pos', spawned)) :
    Effect s (.ensure id pos) s' (.ensure id pos') spawned := by
  cases pos with
  | check =>
    simp only [ensureStep] at moved
    split_ifs at moved
    · split at moved <;> cases moved <;> exact .rests rfl rfl (by simp [Thread.reads]) nofun
    · cases moved
      exact .rests rfl rfl nofun nofun
  | dial =>
    simp only [ensureStep] at moved
    split_ifs at moved
    · cases moved
      exact .dials rfl rfl rfl ⟨rfl, rfl⟩
    · cases moved
      exact .rests rfl rfl nofun nofun
  | publish n =>
    simp only [ensureStep] at moved
    split_ifs at moved with connected
    · split at moved
      · cases moved
        exact .rests rfl rfl nofun nofun
      next vacant =>
        cases moved
        exact .publishes rfl connected vacant
    · cases moved
      exact .rests rfl rfl nofun nofun
  | discard n result =>
    cases moved
    exact .discards rfl rfl rfl ⟨rfl, rfl⟩
  | returned result => cases moved

variable {r : Nat}

theorem readerStep_effect {s : Shared} {pos pos' : ReaderPos}
    (moved : readerStep choice s r pos = some (s', pos')) :
    Effect s (.reader r pos) s' (.reader r pos') [] := by
  cases pos with
  | read n =>
    simp only [readerStep] at moved
    split at moved
    · cases moved
      exact .delivers rfl
    · cases moved
      exact .rests rfl rfl (fun _ _ same => .inl same) nofun
    · cases moved
      exact .rests rfl rfl nofun nofun
  | check | active =>
    simp only [readerStep] at moved
    cases moved
    split_ifs <;> exact .rests rfl rfl nofun nofun
  | drop n =>
    cases moved
    exact .drops rfl
  | clear n =>
    cases moved
    exact .clears rfl
  | dial =>
    simp only [readerStep] at moved
    split_ifs at moved
    · cases moved
      exact .dials rfl rfl rfl ⟨rfl, rfl⟩
    · cases moved
      exact .rests rfl rfl nofun nofun
  | recheck n =>
    simp only [readerStep] at moved
    cases moved
    split_ifs with active
    · refine .rests rfl rfl (fun q m same => .inr ?_) fun q same => ?_
      · cases same
        exact active
      · cases same
        exact active
    · exact .rests rfl rfl nofun nofun
  | discard n =>
    cases moved
    exact .discards rfl rfl rfl ⟨rfl, rfl⟩
  | assign n =>
    cases moved
    exact .assigns rfl
  | wait =>
    simp only [readerStep] at moved
    split_ifs at moved <;> cases moved <;> exact .rests rfl rfl nofun nofun
  | remove =>
    cases moved
    exact .removes rfl
  | gone => cases moved

theorem disconnectStep_effect {s : Shared} {pos pos' : DisconnectPos}
    (moved : disconnectStep choice s pos = some (s', pos')) :
    Effect s (.disconnect pos) s' (.disconnect pos') [] := by
  cases pos with
  | swap =>
    cases moved
    exact .swaps rfl
  | closing rest removed =>
    cases rest with
    | nil =>
      cases moved
      exact .rests rfl rfl nofun nofun
    | cons first others =>
      simp only [disconnectStep] at moved
      split_ifs at moved
      · cases moved
        exact .rests rfl rfl nofun nofun
      · cases moved
        exact .begins rfl
  | shut r rest removed =>
    cases moved
    exact .shuts rfl
  | returned removed => cases moved

theorem advance_effect {s : Shared} {t t' : Thread}
    (moved : advance choice s t = some (s', t', spawned)) : Effect s t s' t' spawned := by
  cases t with
  | ensure id pos =>
    simp only [advance] at moved
    split at moved
    · cases moved
    next stepped =>
      cases moved
      exact ensureStep_effect stepped
  | reader r pos =>
    simp only [advance] at moved
    split at moved
    · cases moved
    next stepped =>
      cases moved
      exact readerStep_effect stepped
  | disconnect pos =>
    simp only [advance] at moved
    split at moved
    · cases moved
    next stepped =>
      cases moved
      exact disconnectStep_effect stepped

structure Frame (own : Option Nat) (s s' : Shared) : Prop where
  conns : s.conns.length ≤ s'.conns.length
  shut : ∀ n : Nat, s.conns[n]? = some false → s'.conns[n]? = some false
  length : s.roomConns.length ≤ s'.roomConns.length
  rooms : ∀ id r, r < s.roomConns.length → s'.rooms id = some r → s.rooms id = some r
  closed : ∀ r, s.isClosed r = true → s'.isClosed r = true
  conn : ∀ r, r < s.roomConns.length → own ≠ some r → s'.conn r = s.conn r ∨ s'.conn r = none

namespace Shared
variable {s : Shared} {own : Option Nat} {r n : Nat}

theorem update_room (s : Shared) (r : Nat) (f : RoomConn → RoomConn) (q : Nat) :
    (s.update r f).roomConns[q]? = if r = q then (s.roomConns[q]?).map f else s.roomConns[q]? := by
  simp only [Shared.update, List.getElem?_modify]
  split_ifs <;> simp

theorem update_conn (s : Shared) (r : Nat) (f : RoomConn → RoomConn) {q : Nat} (other : r ≠ q) :
    (s.update r f).conn q = s.conn q := by
  unfold Shared.conn
  rw [update_room, if_neg other]

theorem conn_update {f : RoomConn → RoomConn} {room : RoomConn}
    (found : s.roomConns[r]? = some room) : (s.update r f).conn r = (f room).conn := by
  unfold Shared.conn
  rw [update_room, if_pos rfl, found]
  rfl

theorem isClosed_update {f : RoomConn → RoomConn} (grows : ∀ room, room.closed = true →
    (f room).closed = true) {q : Nat} (closed : s.isClosed q = true) :
    (s.update r f).isClosed q = true := by
  unfold Shared.isClosed at closed ⊢
  rw [update_room]
  split_ifs
  · cases found : s.roomConns[q]? with
    | none => simp [found] at closed
    | some room =>
      rw [found] at closed
      exact grows room closed
  · exact closed

theorem length_update (s : Shared) (r : Nat) (f : RoomConn → RoomConn) :
    (s.update r f).roomConns.length = s.roomConns.length := by simp [Shared.update]

theorem clear_fields (s : Shared) (r n : Nat) :
    (s.clear r n).roomConns.length = s.roomConns.length ∧ (s.clear r n).delivered = s.delivered := by
  unfold Shared.clear
  split_ifs
  · exact ⟨s.length_update _ _, rfl⟩
  · exact ⟨rfl, rfl⟩

theorem closeRoom_fields (s : Shared) (r : Nat) :
    (s.closeRoom r).roomConns.length = s.roomConns.length ∧
      (s.closeRoom r).delivered = s.delivered := by
  unfold Shared.closeRoom
  cases s.conn r <;> exact ⟨Shared.length_update _ _ _, rfl⟩

theorem removeRoom_fields (s : Shared) (r : Nat) :
    (s.removeRoom r).roomConns = s.roomConns ∧ (s.removeRoom r).conns = s.conns ∧
      (s.removeRoom r).delivered = s.delivered := by
  unfold Shared.removeRoom
  cases s.roomConns[r]? with
  | none => exact ⟨rfl, rfl, rfl⟩
  | some room =>
    dsimp only
    split_ifs <;> exact ⟨rfl, rfl, rfl⟩

theorem frame_rooms (conns : s'.conns = s.conns) (roomConns : s'.roomConns = s.roomConns)
    (rooms : ∀ id r, s'.rooms id = some r → s.rooms id = some r) : Frame own s s' := by
  have closed : s'.isClosed = s.isClosed := by
    funext r
    rw [Shared.isClosed, roomConns]
    rfl
  have conn : s'.conn = s.conn := by
    funext r
    rw [Shared.conn, roomConns]
    rfl
  refine ⟨by rw [conns], fun n shut => by rwa [conns], by rw [roomConns],
    fun id r _ found => rooms id r found, fun r before => by rwa [closed], fun r _ _ => .inl ?_⟩
  rw [conn]

theorem frame_rfl : Frame own s s := frame_rooms rfl rfl fun _ _ found => found

theorem frame_closeConn (s : Shared) (n : Nat) : Frame own s (s.closeConn n) := by
  refine ⟨by simp [Shared.closeConn], fun m shut => ?_, Nat.le_refl _, fun _ _ _ found => found,
    fun _ closed => closed, fun _ _ _ => .inl rfl⟩
  simp only [Shared.closeConn]
  by_cases same : n = m
  · rw [same, List.getElem?_set_self (List.getElem?_eq_some_iff.mp shut).1]
  · rw [List.getElem?_set_ne same, shut]

theorem frame_dial (s : Shared) : Frame own s s.dial := by
  refine ⟨by simp [Shared.dial], fun m shut => ?_, Nat.le_refl _, fun _ _ _ found => found,
    fun _ closed => closed, fun _ _ _ => .inl rfl⟩
  simp only [Shared.dial]
  rw [List.getElem?_append_left (List.getElem?_eq_some_iff.mp shut).1, shut]

theorem frame_update (s : Shared) (r : Nat) {f : RoomConn → RoomConn}
    (grows : ∀ room, room.closed = true → (f room).closed = true)
    (conn : own = some r ∨ (∀ room, (f room).conn = room.conn) ∨ ∀ room, (f room).conn = none) :
    Frame own s (s.update r f) := by
  refine ⟨Nat.le_refl _, fun _ shut => shut, by rw [length_update], fun _ _ _ found => found,
    fun q closed => isClosed_update grows closed, fun q inside other => ?_⟩
  by_cases same : r = q
  · subst same
    have found := List.getElem?_eq_getElem inside
    rw [conn_update found]
    rcases conn with reader | kept | lost
    · exact absurd reader other
    · refine .inl ((kept _).trans ?_)
      simp [Shared.conn, found]
    · exact .inr (lost _)
  · exact .inl (s.update_conn r f same)

theorem frame_trans {s'' : Shared} (first : Frame own s s') (later : Frame own s' s'') :
    Frame own s s'' := by
  refine ⟨first.conns.trans later.conns, fun n shut => later.shut n (first.shut n shut),
    first.length.trans later.length, fun id r inside found => ?_,
    fun r closed => later.closed r (first.closed r closed), fun r inside other => ?_⟩
  · exact first.rooms id r inside (later.rooms id r (inside.trans_le first.length) found)
  · rcases later.conn r (inside.trans_le first.length) other with same | lost
    · rw [same]
      exact first.conn r inside other
    · exact .inr lost

theorem frame_closeRoom (s : Shared) (r : Nat) : Frame own s (s.closeRoom r) := by
  unfold Shared.closeRoom
  cases s.conn r with
  | none => exact s.frame_update r (fun _ _ => rfl) (.inr (.inr fun _ => rfl))
  | some n =>
    exact frame_trans (s.frame_closeConn n)
      ((s.closeConn n).frame_update r (fun _ _ => rfl) (.inr (.inr fun _ => rfl)))

theorem frame_clear (s : Shared) (r n : Nat) : Frame own s (s.clear r n) := by
  unfold Shared.clear
  split_ifs
  · exact s.frame_update r (fun _ closed => closed) (.inr (.inr fun _ => rfl))
  · exact frame_rfl

theorem frame_publish (s : Shared) (id : GoString) (n : Nat) : Frame own s (s.publish id n) := by
  refine ⟨Nat.le_refl _, fun _ shut => shut, by simp [Shared.publish], fun other r inside found => ?_,
    fun r closed => ?_, fun r inside _ => .inl ?_⟩
  · simp only [Shared.publish] at found
    by_cases same : other = id
    · rw [same, Function.update_self] at found
      have last := Option.some.inj found
      omega
    · rwa [Function.update_of_ne same] at found
  · unfold Shared.isClosed at closed ⊢
    cases found : s.roomConns[r]? with
    | none => simp [found] at closed
    | some room =>
      rw [found] at closed
      simp only [Shared.publish]
      rw [List.getElem?_append_left (List.getElem?_eq_some_iff.mp found).1, found]
      exact closed
  · unfold Shared.conn
    simp only [Shared.publish]
    rw [List.getElem?_append_left inside]

theorem frame_removeRoom (s : Shared) (r : Nat) : Frame own s (s.removeRoom r) := by
  obtain ⟨roomConns, conns, _⟩ := s.removeRoom_fields r
  refine frame_rooms conns roomConns fun id q found => ?_
  unfold Shared.removeRoom at found
  split at found
  · exact found
  next room _ =>
    split_ifs at found
    · by_cases same : id = room.id
      · simp [same] at found
      · simpa [Function.update_of_ne same] using found
    · exact found

theorem frame_deliver (s : Shared) (r n : Nat) : Frame own s (s.deliver r n) :=
  frame_rooms rfl rfl fun _ _ found => found

theorem frame_detach (s : Shared) : Frame own s s.detach := frame_rooms rfl rfl nofun

end Shared

theorem Effect.frame {s : Shared} {t t' : Thread} (effect : Effect s t s' t' spawned) :
    Frame t.room s s' := by
  cases effect with
  | rests => exact Shared.frame_rfl
  | dials => exact s.frame_dial
  | discards | drops => exact s.frame_closeConn _
  | publishes => exact s.frame_publish _ _
  | delivers => exact s.frame_deliver _ _
  | clears => exact s.frame_clear _ _
  | @assigns r n pos =>
    rw [pos]
    exact s.frame_update r (fun _ closed => closed) (.inl rfl)
  | removes => exact s.frame_removeRoom _
  | swaps => exact s.frame_detach
  | begins => exact s.frame_update _ (fun _ closed => closed) (.inr (.inl fun _ => rfl))
  | shuts => exact s.frame_closeRoom _

def Shared.Retired (s : Shared) (r : Nat) : Prop :=
  r < s.roomConns.length ∧ ∀ id, s.rooms id ≠ some r

def Shared.Slot (s : Shared) (r n : Nat) : Prop := s.conn r = some n ∨ s.conn r = none

def ReaderPos.Right (s : Shared) (r : Nat) : ReaderPos → Prop
  | .read n => n < s.conns.length ∧ s.Slot r n
  | .check n => n < s.conns.length ∧ s.Slot r n
  | .drop n => n < s.conns.length ∧ s.Slot r n
  | .clear n => s.conns[n]? = some false ∧ s.Slot r n
  | .recheck n => n < s.conns.length ∧ s.conn r = none
  | .assign n => n < s.conns.length ∧ s.conn r = none
  | .gone => True
  | _ => s.conn r = none

def DisconnectPos.Right (s : Shared) : DisconnectPos → Prop
  | .swap => True
  | .closing rest removed =>
    (∀ r ∈ rest, r ∈ removed) ∧ ∀ r ∈ removed, s.Retired r ∧ (r ∈ rest ∨ s.isClosed r = true)
  | .shut x rest removed =>
    (∀ r ∈ rest, r ∈ removed) ∧ x ∈ removed ∧
      ∀ r ∈ removed, s.Retired r ∧ (r ∈ rest ∨ r = x ∨ s.isClosed r = true)
  | .returned removed => ∀ r ∈ removed, s.Retired r ∧ s.isClosed r = true

def EnsurePos.Right (s : Shared) : EnsurePos → Prop
  | .publish n => n < s.conns.length
  | _ => True

def Thread.Right (s : Shared) : Thread → Prop
  | .ensure _ pos => pos.Right s
  | .reader r pos => r < s.roomConns.length ∧ pos.Right s r
  | .disconnect pos => pos.Right s

section Frames
variable {own : Option Nat} {s s' : Shared} (frame : Frame own s s')
include frame

theorem Frame.retired (retired : s.Retired r) : s'.Retired r :=
  ⟨retired.1.trans_le frame.length, fun id found => retired.2 id (frame.rooms id r retired.1 found)⟩

theorem Frame.reader (inside : r < s.roomConns.length) (other : own ≠ some r) {pos : ReaderPos}
    (right : pos.Right s r) : pos.Right s' r := by
  have conns := frame.conns
  have conn := frame.conn r inside other
  have slot : ∀ n, s.Slot r n → s'.Slot r n := by
    intro n holds
    unfold Shared.Slot at holds ⊢
    rcases conn with same | lost
    · rwa [same]
    · exact .inr lost
  have empty : s.conn r = none → s'.conn r = none := by
    intro none_held
    rcases conn with same | lost
    · rw [same, none_held]
    · exact lost
  cases pos with
  | read n => exact ⟨right.1.trans_le conns, slot n right.2⟩
  | check n => exact ⟨right.1.trans_le conns, slot n right.2⟩
  | drop n => exact ⟨right.1.trans_le conns, slot n right.2⟩
  | clear n => exact ⟨frame.shut n right.1, slot n right.2⟩
  | recheck | assign => exact ⟨right.1.trans_le conns, empty right.2⟩
  | gone => trivial
  | _ => exact empty right

theorem Frame.disconnect {pos : DisconnectPos} (right : pos.Right s) : pos.Right s' := by
  cases pos with
  | swap => trivial
  | closing rest removed =>
    refine ⟨right.1, fun r member => ?_⟩
    obtain ⟨retired, left⟩ := right.2 r member
    exact ⟨frame.retired retired, left.imp_right (frame.closed r)⟩
  | shut x rest removed =>
    refine ⟨right.1, right.2.1, fun r member => ?_⟩
    obtain ⟨retired, left⟩ := right.2.2 r member
    exact ⟨frame.retired retired, left.imp_right (Or.imp_right (frame.closed r))⟩
  | returned removed =>
    intro r member
    obtain ⟨retired, closed⟩ := right r member
    exact ⟨frame.retired retired, frame.closed r closed⟩

theorem Frame.thread {t : Thread} (other : own = none ∨ t.room ≠ own) (right : t.Right s) :
    t.Right s' := by
  cases t with
  | ensure id pos =>
    cases pos with
    | publish n => exact Nat.lt_of_lt_of_le right frame.conns
    | _ => trivial
  | reader r pos =>
    refine ⟨right.1.trans_le frame.length, frame.reader right.1 ?_ right.2⟩
    rintro rfl
    rcases other with none_own | different
    · cases none_own
    · exact different rfl
  | disconnect pos => exact frame.disconnect right

end Frames

section Own
variable {choice : Choice} {s s' : Shared}

theorem ensureStep_right {id : GoString} {pos pos' : EnsurePos}
    (moved : ensureStep choice s id pos = some (s', pos', spawned)) (right : pos.Right s) :
    pos'.Right s' ∧ ∀ u ∈ spawned, u.Right s' := by
  cases pos with
  | check =>
    simp only [ensureStep] at moved
    split_ifs at moved
    · split at moved <;> cases moved <;> exact ⟨trivial, by simp⟩
    · cases moved
      exact ⟨trivial, by simp⟩
  | dial =>
    simp only [ensureStep] at moved
    split_ifs at moved
    · cases moved
      exact ⟨by simp [EnsurePos.Right, Shared.dial], by simp⟩
    · cases moved
      exact ⟨trivial, by simp⟩
  | publish n =>
    simp only [ensureStep] at moved
    split_ifs at moved
    · split at moved
      · cases moved
        exact ⟨trivial, by simp⟩
      · cases moved
        refine ⟨trivial, fun u new => ?_⟩
        rw [List.mem_singleton.mp new]
        refine ⟨by simp [Shared.publish], right, .inl ?_⟩
        simp [Shared.conn, Shared.publish]
    · cases moved
      exact ⟨trivial, by simp⟩
  | discard n result =>
    cases moved
    exact ⟨trivial, by simp⟩
  | returned result => cases moved

theorem clear_conn {n : Nat} (inside : r < s.roomConns.length) (slot : s.Slot r n) :
    (s.clear r n).conn r = none := by
  unfold Shared.clear
  rcases slot with held | empty
  · rw [if_pos held, Shared.conn_update (List.getElem?_eq_getElem inside)]
  · rw [if_neg (by simp [empty]), empty]

theorem readerStep_right {pos pos' : ReaderPos} (inside : r < s.roomConns.length)
    (moved : readerStep choice s r pos = some (s', pos')) (right : pos.Right s r) :
    pos'.Right s' r := by
  cases pos with
  | read n =>
    simp only [readerStep] at moved
    split at moved <;> cases moved <;> exact right
  | check n =>
    simp only [readerStep] at moved
    cases moved
    split_ifs
    · exact right
    · trivial
  | drop n =>
    cases moved
    exact ⟨List.getElem?_set_self right.1, right.2⟩
  | clear n =>
    cases moved
    exact clear_conn inside right.2
  | active =>
    simp only [readerStep] at moved
    cases moved
    split_ifs <;> exact right
  | dial =>
    simp only [readerStep] at moved
    split_ifs at moved
    · cases moved
      exact ⟨by simp [Shared.dial], right⟩
    · cases moved
      exact right
  | recheck n =>
    simp only [readerStep] at moved
    cases moved
    split_ifs
    · exact right
    · exact right.2
  | discard n =>
    cases moved
    exact right
  | assign n =>
    cases moved
    exact ⟨right.1, .inl (Shared.conn_update (List.getElem?_eq_getElem inside))⟩
  | wait =>
    simp only [readerStep] at moved
    split_ifs at moved <;> cases moved <;> exact right
  | remove =>
    cases moved
    trivial
  | gone => cases moved

theorem isClosed_closeRoom (inside : r < s.roomConns.length) :
    (s.closeRoom r).isClosed r = true := by
  unfold Shared.closeRoom Shared.isClosed
  rw [Shared.update_room, if_pos rfl]
  cases s.conn r with
  | none => simp [List.getElem?_eq_getElem inside]
  | some n => simp [Shared.closeConn, List.getElem?_eq_getElem inside]

theorem disconnectStep_right {pos pos' : DisconnectPos}
    (moved : disconnectStep choice s pos = some (s', pos')) (right : pos.Right s) : pos'.Right s' := by
  have effect := disconnectStep_effect moved
  have frame := effect.frame
  cases pos with
  | swap =>
    cases moved
    refine ⟨fun r member => member, fun r member => ⟨⟨?_, nofun⟩, .inl member⟩⟩
    exact List.mem_range.mp (List.mem_filter.mp member).1
  | closing rest removed =>
    cases rest with
    | nil =>
      cases moved
      intro r member
      obtain ⟨retired, left⟩ := right.2 r member
      exact ⟨retired, left.resolve_left (by simp)⟩
    | cons first others =>
      simp only [disconnectStep] at moved
      have later : ∀ r, r ∈ first :: others →
          r = choice.next ∨ r ∈ (first :: others).erase choice.next := by
        intro r member
        by_cases same : r = choice.next
        · exact .inl same
        · exact .inr ((List.mem_erase_of_ne same).mpr member)
      split_ifs at moved with listed closed
      · cases moved
        refine ⟨fun r member => right.1 r (List.mem_of_mem_erase member), fun r member => ?_⟩
        obtain ⟨retired, left⟩ := right.2 r member
        refine ⟨retired, ?_⟩
        rcases left with waiting | done
        · rcases later r waiting with rfl | still
          · exact .inr closed
          · exact .inl still
        · exact .inr done
      · cases moved
        refine ⟨fun r member => right.1 r (List.mem_of_mem_erase member), right.1 _ listed,
          fun r member => ?_⟩
        obtain ⟨retired, left⟩ := right.2 r member
        refine ⟨frame.retired retired, ?_⟩
        rcases left with waiting | done
        · rcases later r waiting with rfl | still
          · exact .inr (.inl rfl)
          · exact .inl still
        · exact .inr (.inr (frame.closed r done))
  | shut x rest removed =>
    cases moved
    refine ⟨right.1, fun r member => ?_⟩
    obtain ⟨retired, left⟩ := right.2.2 r member
    refine ⟨frame.retired retired, ?_⟩
    rcases left with waiting | rfl | done
    · exact .inl waiting
    · exact .inr (isClosed_closeRoom retired.1)
    · exact .inr (frame.closed r done)
  | returned removed => cases moved

theorem advance_right {t t' : Thread} (right : t.Right s)
    (moved : advance choice s t = some (s', t', spawned)) :
    t'.Right s' ∧ ∀ u ∈ spawned, u.Right s' := by
  have frame := (advance_effect moved).frame
  cases t with
  | ensure id pos =>
    simp only [advance] at moved
    split at moved
    · cases moved
    next stepped =>
      cases moved
      exact ensureStep_right stepped right
  | reader r pos =>
    simp only [advance] at moved
    split at moved
    · cases moved
    next stepped =>
      cases moved
      exact ⟨⟨right.1.trans_le frame.length, readerStep_right right.1 stepped right.2⟩, by simp⟩
  | disconnect pos =>
    simp only [advance] at moved
    split at moved
    · cases moved
    next stepped =>
      cases moved
      exact ⟨disconnectStep_right stepped right, by simp⟩

end Own

section Registry

/-- A registered room is there under its ID, not closed, and the adapter is connected. -/
def Registry (s : Shared) : Prop :=
  ∀ id r, s.rooms id = some r → s.connected = true ∧
    ∃ room, s.roomConns[r]? = some room ∧ room.id = id ∧ room.closed = false

variable {s : Shared}

theorem Registry.update (registry : Registry s) (r : Nat) {f : RoomConn → RoomConn}
    (id : ∀ room, (f room).id = room.id)
    (closed : (∀ room, (f room).closed = room.closed) ∨ s.Retired r) : Registry (s.update r f) := by
  intro key q found
  obtain ⟨connected, room, present, same, opened⟩ := registry key q found
  refine ⟨connected, ?_⟩
  by_cases own : r = q
  · subst own
    refine ⟨f room, ?_, (id room).trans same, ?_⟩
    · rw [Shared.update_room, if_pos rfl, present]
      rfl
    · rcases closed with kept | retired
      · exact (kept room).trans opened
      · exact absurd found (retired.2 key)
  · refine ⟨room, ?_, same, opened⟩
    rw [Shared.update_room, if_neg own, present]

theorem Registry.closeRoom (registry : Registry s) (retired : s.Retired r) :
    Registry (s.closeRoom r) := by
  unfold Shared.closeRoom
  cases s.conn r with
  | none => exact registry.update r (fun _ => rfl) (.inr retired)
  | some n =>
    have closed : Registry (s.closeConn n) := registry
    exact closed.update r (fun _ => rfl) (.inr retired)

theorem Registry.clear (registry : Registry s) (r n : Nat) : Registry (s.clear r n) := by
  unfold Shared.clear
  split_ifs
  · exact registry.update r (fun _ => rfl) (.inl fun _ => rfl)
  · exact registry

theorem Registry.removeRoom (registry : Registry s) (r : Nat) : Registry (s.removeRoom r) := by
  unfold Shared.removeRoom
  cases s.roomConns[r]? with
  | none => exact registry
  | some room =>
    dsimp only
    split_ifs
    · intro id q found
      by_cases same : id = room.id
      · simp [same] at found
      · exact registry id q (by simpa [Function.update_of_ne same] using found)
    · exact registry

theorem Registry.publish (registry : Registry s) (connected : s.connected = true) (id : GoString)
    (n : Nat) : Registry (s.publish id n) := by
  intro key q found
  refine ⟨connected, ?_⟩
  simp only [Shared.publish] at found ⊢
  by_cases same : key = id
  · rw [same, Function.update_self] at found
    cases found
    exact ⟨_, List.getElem?_concat_length, same.symm, rfl⟩
  · rw [Function.update_of_ne same] at found
    obtain ⟨_, room, present, key', opened⟩ := registry key q found
    refine ⟨room, ?_, key', opened⟩
    rw [List.getElem?_append_left (List.getElem?_eq_some_iff.mp present).1, present]

theorem Effect.registry {t t' : Thread} (effect : Effect s t s' t' spawned) (right : t.Right s)
    (registry : Registry s) : Registry s' := by
  cases effect with
  | rests | dials | discards | delivers | drops => exact registry
  | publishes pos connected vacant => exact registry.publish connected _ _
  | clears => exact registry.clear _ _
  | assigns | begins => exact registry.update _ (fun _ => rfl) (.inl fun _ => rfl)
  | removes => exact registry.removeRoom _
  | swaps => exact nofun
  | shuts pos =>
    subst pos
    exact registry.closeRoom (right.2.2 _ right.2.1).1

theorem Registry.active (registry : Registry s) (active : s.roomActive r = true) :
    s.isClosed r = false ∧ ¬ s.Retired r := by
  simp only [Shared.roomActive, Shared.isRegistered, Bool.and_eq_true] at active
  cases present : s.roomConns[r]? with
  | none => simp [present] at active
  | some room =>
    have found : s.rooms room.id = some r := by simpa [present] using active.2
    obtain ⟨_, room', present', _, opened⟩ := registry room.id r found
    cases present.symm.trans present'
    exact ⟨by simp [Shared.isClosed, present, opened], fun retired => retired.2 room.id found⟩

end Registry

section Holding

def count (s : Shared) (threads : List Thread) (n : Nat) : Int :=
  total (RoomConn.holds n) s.roomConns + total (Thread.inHand n) threads

/-- An open connection is held once. -/
structure HeldOnce (s : Shared) (threads : List Thread) : Prop where
  fresh : ∀ n, s.conns.length ≤ n → count s threads n = 0
  single : ∀ n, count s threads n ≤ 1
  kept : ∀ n : Nat, s.conns[n]? = some true → count s threads n = 1

variable {s s' : Shared} {threads threads' : List Thread}

theorem RoomConn.holds_nonneg (n : Nat) (room : RoomConn) : 0 ≤ room.holds n := by
  unfold RoomConn.holds
  split_ifs <;> omega

theorem Thread.inHand_nonneg (n : Nat) (t : Thread) : 0 ≤ t.inHand n := by
  unfold Thread.inHand
  split_ifs <;> omega

theorem count_nonneg (s : Shared) (threads : List Thread) (n : Nat) : 0 ≤ count s threads n :=
  Int.add_nonneg (Ledger.total_nonneg fun room _ => room.holds_nonneg n)
    (Ledger.total_nonneg fun t _ => t.inHand_nonneg n)

theorem HeldOnce.weaken (held : HeldOnce s threads) (length : s.conns.length ≤ s'.conns.length)
    (fewer : ∀ n, count s' threads' n ≤ count s threads n)
    (open_ : ∀ n : Nat, s'.conns[n]? = some true → s.conns[n]? = some true ∧
      count s' threads' n = count s threads n) : HeldOnce s' threads' := by
  refine ⟨fun n outside => ?_, fun n => (fewer n).trans (held.single n), fun n opened => ?_⟩
  · have before := held.fresh n (length.trans outside)
    have bound := fewer n
    have nonneg := count_nonneg s' threads' n
    omega
  · obtain ⟨before, same⟩ := open_ n opened
    rw [same]
    exact held.kept n before

theorem Shared.closeConn_open {m n : Nat} (opened : (s.closeConn m).conns[n]? = some true) :
    s.conns[n]? = some true ∧ m ≠ n := by
  simp only [Shared.closeConn] at opened
  by_cases same : m = n
  · subst same
    by_cases inside : m < s.conns.length
    · simp [inside] at opened
    · rw [List.getElem?_eq_none (by simpa using inside)] at opened
      cases opened
  · rw [List.getElem?_set_ne same] at opened
    exact ⟨opened, same⟩

theorem total_update {n : Nat} {room : RoomConn} (present : s.roomConns[r]? = some room)
    (f : RoomConn → RoomConn) :
    total (RoomConn.holds n) (s.update r f).roomConns =
      total (RoomConn.holds n) s.roomConns - room.holds n + (f room).holds n :=
  Ledger.total_modify _ present f

theorem conn_of_present {room : RoomConn} (present : s.roomConns[r]? = some room) :
    s.conn r = room.conn := by simp [Shared.conn, present]

theorem HeldOnce.dial (held : HeldOnce s threads) {i : Nat} {t t' : Thread}
    (running : threads[i]? = some t) (empty : t.hand = none)
    (full : t'.hand = some s.conns.length) : HeldOnce s.dial (threads.set i t' ++ []) := by
  have counts : ∀ n, count s.dial (threads.set i t' ++ []) n =
      count s threads n + if s.conns.length = n then 1 else 0 := by
    intro n
    unfold count
    rw [Interleaving.total_advance (Thread.inHand n) running]
    simp only [Thread.inHand, empty, full, reduceCtorEq, if_false, Option.some.injEq,
      Ledger.total_nil, Shared.dial]
    omega
  refine ⟨fun n outside => ?_, fun n => ?_, fun n opened => ?_⟩
  · simp only [Shared.dial, List.length_append, List.length_singleton] at outside
    rw [counts, held.fresh n (by omega), if_neg (by omega), Int.zero_add]
  · rw [counts]
    by_cases last : s.conns.length = n
    · rw [if_pos last, held.fresh n (by omega)]
      omega
    · rw [if_neg last]
      have single := held.single n
      omega
  · rw [counts]
    simp only [Shared.dial] at opened
    by_cases last : s.conns.length = n
    · rw [if_pos last, held.fresh n (by omega)]
      omega
    · have inside := (List.getElem?_eq_some_iff.mp opened).1
      simp only [List.length_append, List.length_singleton] at inside
      rw [List.getElem?_append_left (by omega)] at opened
      rw [if_neg last, held.kept n opened, Int.add_zero]

theorem HeldOnce.lose (held : HeldOnce s threads) {room : RoomConn}
    (present : s.roomConns[r]? = some room) {f : RoomConn → RoomConn} (lost : (f room).conn = none)
    (shut : ∀ n, room.conn = some n → s.conns[n]? ≠ some true) :
    HeldOnce (s.update r f) threads := by
  have counts : ∀ n, count (s.update r f) threads n = count s threads n - room.holds n := by
    intro n
    have empty : (f room).holds n = 0 := by simp [RoomConn.holds, lost]
    unfold count
    rw [total_update present, empty]
    omega
  refine held.weaken (Nat.le_refl _) (fun n => ?_) fun n opened => ⟨opened, ?_⟩
  · have nonneg := room.holds_nonneg n
    rw [counts]
    omega
  · have other : room.holds n = 0 := if_neg fun holds => shut n holds opened
    rw [counts, other, Int.sub_zero]

theorem HeldOnce.closeConn (held : HeldOnce s threads) (n : Nat) :
    HeldOnce (s.closeConn n) threads := by
  refine held.weaken (by simp [Shared.closeConn]) (fun _ => Int.le_refl _) fun m opened => ?_
  exact ⟨(Shared.closeConn_open opened).1, rfl⟩

theorem HeldOnce.closeRoom (held : HeldOnce s threads) (inside : r < s.roomConns.length) :
    HeldOnce (s.closeRoom r) threads := by
  have present := List.getElem?_eq_getElem inside
  unfold Shared.closeRoom
  cases conn : s.conn r with
  | none =>
    refine held.lose present rfl fun n holds => ?_
    rw [conn_of_present present, holds] at conn
    cases conn
  | some m =>
    refine (held.closeConn m).lose (s := s.closeConn m) present rfl fun n holds opened => ?_
    rw [conn_of_present present, holds] at conn
    exact (Shared.closeConn_open opened).2 (Option.some.inj conn).symm

theorem HeldOnce.clear (held : HeldOnce s threads) {n : Nat} (inside : r < s.roomConns.length)
    (shut : s.conns[n]? = some false) : HeldOnce (s.clear r n) threads := by
  have present := List.getElem?_eq_getElem inside
  unfold Shared.clear
  split_ifs with holds
  · refine held.lose present rfl fun m holds' opened => ?_
    rw [conn_of_present present, holds'] at holds
    cases holds
    rw [shut] at opened
    cases opened
  · exact held

theorem HeldOnce.congr (held : HeldOnce s threads) (conns : s'.conns = s.conns)
    (same : ∀ n, total (RoomConn.holds n) s'.roomConns = total (RoomConn.holds n) s.roomConns) :
    HeldOnce s' threads := by
  have counts : ∀ n, count s' threads n = count s threads n := by
    intro n
    unfold count
    rw [same]
  refine held.weaken (by rw [conns]) (fun n => (counts n).le) fun n opened => ⟨?_, counts n⟩
  rwa [conns] at opened

theorem HeldOnce.rest (held : HeldOnce s threads) {i : Nat} {t t' : Thread}
    (running : threads[i]? = some t) (hand : t'.hand = t.hand) :
    HeldOnce s (threads.set i t' ++ []) := by
  have counts : ∀ n, count s (threads.set i t' ++ []) n = count s threads n := by
    intro n
    unfold count
    rw [Interleaving.total_advance (Thread.inHand n) running]
    simp only [Thread.inHand, hand, Ledger.total_nil]
    omega
  exact held.weaken (Nat.le_refl _) (fun n => (counts n).le) fun n opened => ⟨opened, counts n⟩

theorem HeldOnce.discard (held : HeldOnce s threads) {i n : Nat} {t t' : Thread}
    (running : threads[i]? = some t) (full : t.hand = some n) (empty : t'.hand = none) :
    HeldOnce (s.closeConn n) (threads.set i t' ++ []) := by
  have counts : ∀ m, count (s.closeConn n) (threads.set i t' ++ []) m =
      count s threads m - if n = m then 1 else 0 := by
    intro m
    unfold count
    rw [Interleaving.total_advance (Thread.inHand m) running]
    simp only [Thread.inHand, empty, full, reduceCtorEq, if_false, Option.some.injEq,
      Ledger.total_nil, Shared.closeConn]
    omega
  refine held.weaken (by simp [Shared.closeConn]) (fun m => ?_) fun m opened => ?_
  · rw [counts]
    split_ifs <;> omega
  · obtain ⟨before, other⟩ := Shared.closeConn_open opened
    refine ⟨before, ?_⟩
    rw [counts, if_neg other, Int.sub_zero]

theorem HeldOnce.give (held : HeldOnce s threads) {i n : Nat} {t t' : Thread}
    (running : threads[i]? = some t) (full : t.hand = some n) (empty : t'.hand = none)
    (started : ∀ u ∈ spawned, u.hand = none) (conns : s'.conns = s.conns)
    (gives : ∀ m, total (RoomConn.holds m) s'.roomConns =
      total (RoomConn.holds m) s.roomConns + if n = m then 1 else 0) :
    HeldOnce s' (threads.set i t' ++ spawned) := by
  have counts : ∀ m, count s' (threads.set i t' ++ spawned) m = count s threads m := by
    intro m
    have idle : total (Thread.inHand m) spawned = 0 :=
      Ledger.total_eq_zero fun u new => by simp [Thread.inHand, started u new]
    unfold count
    rw [Interleaving.total_advance (Thread.inHand m) running, idle, gives]
    simp only [Thread.inHand, empty, full, reduceCtorEq, if_false, Option.some.injEq]
    omega
  refine held.weaken (by rw [conns]) (fun m => (counts m).le) fun m opened => ⟨?_, counts m⟩
  rwa [conns] at opened

theorem Effect.held {t t' : Thread} (effect : Effect s t s' t' spawned) {i : Nat}
    (running : threads[i]? = some t) (right : t.Right s) (held : HeldOnce s threads) :
    HeldOnce s' (threads.set i t' ++ spawned) := by
  cases effect with
  | rests room hand => exact held.rest running hand
  | dials room empty full => exact held.dial running empty full
  | discards room full empty => exact held.discard running full empty
  | @publishes id n pos =>
    subst pos
    refine held.give running rfl rfl (by simp [Thread.hand]) rfl fun m => ?_
    simp [Shared.publish, RoomConn.holds]
  | delivers pos =>
    exact HeldOnce.congr (held.rest running rfl) rfl fun _ => rfl
  | @drops r n pos =>
    subst pos
    exact (held.closeConn n).rest running rfl
  | clears pos =>
    subst pos
    exact (held.clear right.1 right.2.1).rest running rfl
  | @assigns r n pos =>
    subst pos
    obtain ⟨room, present⟩ : ∃ room, s.roomConns[r]? = some room :=
      ⟨_, List.getElem?_eq_getElem right.1⟩
    have none_held : room.conn = none := (conn_of_present present).symm.trans right.2.2
    refine held.give running rfl rfl (by simp) rfl fun m => ?_
    rw [total_update present]
    simp [RoomConn.holds, none_held]
  | @removes r pos =>
    subst pos
    obtain ⟨rooms, conns, _⟩ := s.removeRoom_fields r
    exact HeldOnce.congr (held.rest running rfl) conns fun n => by rw [rooms]
  | swaps pos =>
    subst pos
    exact HeldOnce.congr (held.rest running rfl) rfl fun _ => rfl
  | @begins r rest removed pos =>
    subst pos
    refine HeldOnce.congr (held.rest running rfl) rfl fun n => ?_
    cases present : s.roomConns[r]? with
    | none => simp [Shared.update, List.modify_eq_set_getElem?, present]
    | some room =>
      rw [total_update present]
      simp [RoomConn.holds]
  | shuts pos =>
    subst pos
    have retired := (right.2.2 _ right.2.1).1
    exact (held.closeRoom retired.1).rest running rfl

end Holding

section Effects
variable {s s' : Shared} {t t' : Thread} {spawned : List Thread}
  (effect : Effect s t s' t' spawned)
include effect

theorem Effect.room : t'.room = t.room := by
  cases effect with
  | rests room | dials room | discards room => exact room
  | delivers => rfl
  | publishes pos | drops pos | clears pos | assigns pos | removes pos | swaps pos | begins pos
  | shuts pos =>
    subst pos
    rfl

theorem Effect.readers (r : Nat) : total (Thread.readerOf r) spawned =
    (if r < s'.roomConns.length then 1 else 0) - if r < s.roomConns.length then 1 else 0 := by
  cases effect with
  | publishes =>
    simp only [Ledger.total_cons, Ledger.total_nil, Thread.readerOf, Thread.room, Option.some.injEq,
      Shared.publish, List.length_append, List.length_singleton]
    split_ifs <;> omega
  | clears =>
    rw [(s.clear_fields _ _).1, Int.sub_self]
    rfl
  | removes =>
    rw [(s.removeRoom_fields _).1, Int.sub_self]
    rfl
  | shuts =>
    rw [(s.closeRoom_fields _).1, Int.sub_self]
    rfl
  | assigns | begins =>
    rw [Shared.length_update, Int.sub_self]
    rfl
  | rests | dials | discards | delivers | drops | swaps => exact (Int.sub_self _).symm

theorem Effect.reads {n : Nat} (reads : t'.reads = some (r, n)) :
    t.reads = some (r, n) ∨ s.roomActive r = true := by
  cases effect with
  | rests _ _ back => exact back r n reads
  | dials _ _ _ quiet | discards _ _ _ quiet =>
    rw [quiet.1] at reads
    cases reads
  | delivers => exact .inl reads
  | assigns pos =>
    subst pos
    exact .inl reads
  | publishes | drops | clears | removes | swaps | begins | shuts => cases reads

theorem Effect.spawned_reads : ∀ u ∈ spawned, ∀ r n, u.reads = some (r, n) →
    r = s.roomConns.length := by
  cases effect with
  | publishes =>
    intro u new r n reads
    rw [List.mem_singleton.mp new] at reads
    cases reads
    rfl
  | _ => simp

theorem Effect.assigns_active (assigns : t'.assigns = some r) : s.roomActive r = true := by
  cases effect with
  | rests _ _ _ back => exact back r assigns
  | dials _ _ _ quiet | discards _ _ _ quiet =>
    rw [quiet.2] at assigns
    cases assigns
  | delivers pos =>
    subst pos
    cases assigns
  | publishes | drops | clears | assigns | removes | swaps | begins | shuts => cases assigns

theorem Effect.spawned_assigns : ∀ u ∈ spawned, u.assigns = none := by
  cases effect with
  | publishes =>
    intro u new
    rw [List.mem_singleton.mp new]
    rfl
  | _ => simp

theorem Effect.delivered {n : Nat} (delivered : (r, n) ∈ s'.delivered) :
    (r, n) ∈ s.delivered ∨ t.reads = some (r, n) := by
  cases effect with
  | delivers pos =>
    subst pos
    rcases List.mem_append.mp delivered with old | new
    · exact .inl old
    · rw [List.mem_singleton] at new
      cases new
      exact .inr rfl
  | clears =>
    rw [(s.clear_fields _ _).2] at delivered
    exact .inl delivered
  | removes =>
    rw [(s.removeRoom_fields _).2.2] at delivered
    exact .inl delivered
  | shuts =>
    rw [(s.closeRoom_fields _).2] at delivered
    exact .inl delivered
  | rests | dials | discards | publishes | drops | assigns | swaps | begins => exact .inl delivered

end Effects

structure Invariant (c : Interleaving.Config Shared Thread) : Prop where
  registry : Registry c.shared
  readers : ∀ r, total (Thread.readerOf r) c.threads = if r < c.shared.roomConns.length then 1 else 0
  held : HeldOnce c.shared c.threads
  threads : ∀ t ∈ c.threads, t.Right c.shared
  delivered : ∀ r n, (r, n) ∈ c.shared.delivered → n < c.shared.conns.length

theorem Thread.readerOf_nonneg (r : Nat) (t : Thread) : 0 ≤ t.readerOf r := by
  unfold Thread.readerOf
  split_ifs <;> omega

theorem Thread.Right.reads_known {s : Shared} {t : Thread} (right : t.Right s) {n : Nat}
    (reads : t.reads = some (r, n)) : n < s.conns.length := by
  cases t with
  | reader q pos =>
    cases pos with
    | read | assign =>
      cases reads
      exact right.2.1
    | _ => cases reads
  | ensure | disconnect => cases reads

namespace Invariant
variable {c c' : Interleaving.Config Shared Thread}

theorem other (inv : Invariant c) {i j : Nat} {t u : Thread} (running : c.threads[i]? = some t)
    (found : c.threads[j]? = some u) (different : j ≠ i) : t.room = none ∨ u.room ≠ t.room := by
  cases room : t.room with
  | none => exact .inl rfl
  | some r =>
    refine .inr fun same => ?_
    have two := Ledger.add_le_total (fun v _ => Thread.readerOf_nonneg r v) different found running
    rw [inv.readers r] at two
    simp only [Thread.readerOf, room, same, if_true] at two
    split_ifs at two <;> omega

theorem advances (inv : Invariant c) {i : Nat} {t t' : Thread} (running : c.threads[i]? = some t)
    (moved : advance choice c.shared t = some (s', t', spawned)) :
    Invariant ⟨s', c.threads.set i t' ++ spawned⟩ := by
  have right := inv.threads t (List.mem_of_getElem? running)
  have effect := advance_effect moved
  have frame := effect.frame
  obtain ⟨own, started⟩ := advance_right right moved
  refine ⟨effect.registry right inv.registry, fun r => ?_, effect.held running right inv.held, ?_, ?_⟩
  · have same : t'.readerOf r = t.readerOf r := by unfold Thread.readerOf; rw [effect.room]
    rw [Interleaving.total_advance _ running, inv.readers, effect.readers r, same]
    dsimp only
    omega
  · exact Interleaving.forall_advance (q := fun u => u.Right s') inv.threads
      (fun j u different found holds => frame.thread (inv.other running found different) holds)
      own started
  · intro r n delivered
    rcases effect.delivered delivered with old | reads
    · exact (inv.delivered r n old).trans_le frame.conns
    · exact (right.reads_known reads).trans_le frame.conns

theorem occurs (inv : Invariant c) {call : Call}
    (happened : occur call c.shared = some (s', spawned)) :
    Invariant ⟨s', c.threads ++ spawned⟩ := by
  have enters : ∀ {u : Thread}, u.room = none → u.hand = none → u.Right c.shared →
      Invariant ⟨c.shared, c.threads ++ [u]⟩ := by
    intro u room hand right
    refine ⟨inv.registry, fun r => ?_, ?_, fun t member => ?_, inv.delivered⟩
    · rw [Ledger.total_append, inv.readers]
      simp [Thread.readerOf, room]
    · have counts : ∀ n, count c.shared (c.threads ++ [u]) n = count c.shared c.threads n := by
        intro n
        simp [count, Thread.inHand, hand]
      exact inv.held.weaken (Nat.le_refl _) (fun n => (counts n).le)
        fun n opened => ⟨opened, counts n⟩
    · rcases List.mem_append.mp member with old | new
      · exact inv.threads t old
      · rw [List.mem_singleton.mp new]
        exact right
  cases call with
  | connect =>
    cases happened
    rw [List.append_nil]
    refine ⟨fun id r found => ⟨rfl, (inv.registry id r found).2⟩, inv.readers,
      inv.held.congr rfl fun _ => rfl, fun t member => ?_, inv.delivered⟩
    have frame : Frame none c.shared { c.shared with connected := true } :=
      Shared.frame_rooms rfl rfl fun _ _ found => found
    exact frame.thread (.inl rfl) (inv.threads t member)
  | disconnect =>
    cases happened
    exact enters rfl rfl trivial
  | ensureRoom id =>
    simp only [occur] at happened
    split at happened
    · cases happened
    · cases happened
      exact enters rfl rfl trivial
  | broken n =>
    cases happened
    rw [List.append_nil]
    have frame : Frame none c.shared (c.shared.closeConn n) := c.shared.frame_closeConn n
    refine ⟨inv.registry, inv.readers, inv.held.closeConn n,
      fun t member => frame.thread (.inl rfl) (inv.threads t member), fun r m delivered => ?_⟩
    exact (inv.delivered r m delivered).trans_le frame.conns

theorem moves (inv : Invariant c) (moves : program.Moves c c') : Invariant c' := by
  cases moves with
  | stays => exact inv
  | advances running moved => exact inv.advances running moved
  | occurs happened => exact inv.occurs happened

end Invariant

theorem run_invariant (actions : List Action) : Invariant (run actions) := by
  refine program.run_keeps Invariant (fun _ _ inv moves => inv.moves moves) ?_ actions
  exact ⟨nofun, by simp, ⟨by simp [count], by simp [count], by simp⟩, by simp, by simp⟩

end Telekit.WebSocket
