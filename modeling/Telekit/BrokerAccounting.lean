import Telekit.BrokerMachine
import Telekit.Library.Tally

/-! What the broker counts is what there is. A handler is admitted from `reserve`
to `release` and counts once in the counters of its room and of its address. The
bytes of a client are those of its queue, of the message its writer has in hand
and of the messages an `enqueue` has reserved bytes for and neither sent nor given
back. Only one thread may ever write for a client, so what is written, the message
in hand and the queue are together what was accepted, in its order. -/

namespace Telekit.Broker

open Ledger (total)

inductive Hand
  | free
  | writing (m : Message)
  | written (m : Message)

namespace Hand

def pending : Hand → List Message
  | .writing m => [m]
  | _ => []

def bytes : Hand → Int
  | .free => 0
  | .writing m => m.size
  | .written m => m.size

end Hand

/-- The part of a thread in the accounts: the room and the address it is admitted
for, the client and message it has reserved bytes for, the client it may write to. -/
structure View where
  admitted : Option (GoString × GoString) := none
  reserved : Option (Nat × Message) := none
  hand : Option (Nat × Hand) := none

def HandlerPos.view (n : Nat) (id ip : GoString) : HandlerPos → View
  | .reserve => { hand := some (n, .free) }
  | .upgrade => { admitted := some (id, ip), hand := some (n, .free) }
  | .ensure _ => { admitted := some (id, ip), hand := some (n, .free) }
  | .add _ _ => { admitted := some (id, ip), hand := some (n, .free) }
  | .replace _ => { admitted := some (id, ip), hand := some (n, .free) }
  | .send _ m peer _ => { admitted := some (id, ip), reserved := some (peer, m) }
  | .restore _ m peer _ => { admitted := some (id, ip), reserved := some (peer, m) }
  | .gone => {}
  | _ => { admitted := some (id, ip) }

def WriterPos.hand : WriterPos → Hand
  | .write m => .writing m
  | .settle m _ => .written m
  | _ => .free

def Thread.view : Thread → View
  | .handler n id ip pos => pos.view n id ip
  | .writer n pos => { hand := some (n, pos.hand) }

namespace View

def admittedAs (key : GoString × GoString → GoString) (k : GoString) (v : View) : Int :=
  if v.admitted.map key = some k then 1 else 0

def reservedFor (n : Nat) (v : View) : Int :=
  match v.reserved with
  | none => 0
  | some (peer, m) => if peer = n then m.size else 0

def handOf (n : Nat) (v : View) : Option Hand :=
  match v.hand with
  | none => none
  | some (k, hand) => if k = n then some hand else none

def bytesOf (n : Nat) (v : View) : Int := v.reservedFor n + ((v.handOf n).getD .free).bytes

variable {v : View} {n : Nat}

theorem reservedFor_none (reserved : v.reserved = none) : v.reservedFor n = 0 := by
  simp [reservedFor, reserved]

theorem reservedFor_some {peer : Nat} {m : Message} (reserved : v.reserved = some (peer, m)) :
    v.reservedFor n = if peer = n then m.size else 0 := by
  simp [reservedFor, reserved]

theorem handOf_none (hand : v.hand = none) : v.handOf n = none := by
  simp [handOf, hand]

theorem handOf_some {k : Nat} {hand : Hand} (has : v.hand = some (k, hand)) :
    v.handOf n = if k = n then some hand else none := by
  simp [handOf, has]

end View

/-- The bytes of an `enqueue` are within the limit when they are swapped in. -/
def Thread.Checked (config : Config) : Thread → Prop
  | .handler _ _ _ (.swap _ m _ used _) => used + m.size ≤ config.queueBytes
  | _ => True

/-- Everything a step can do to the accounts. -/
inductive Deal (config : Config) (s : Shared) (v : View) : Shared → View → List Thread → Prop
  | idles (rooms : Rooms) : Deal config s v (s.setRooms rooms) v []
  | leaves (rooms : Rooms) {n : Nat} (may : v.hand = some (n, .free)) :
    Deal config s v (s.setRooms rooms) { v with hand := none } []
  | starts (rooms : Rooms) {n : Nat} (may : v.hand = some (n, .free)) :
    Deal config s v (s.setRooms rooms) { v with hand := none } [.writer n .select]
  | reserves {id ip : GoString} (outside : v.admitted = none)
    (room : Tally.count s.roomCounts id < config.connectionsPerRoom)
    (address : Tally.count s.ipCounts ip < config.connectionsPerIP) :
    Deal config s v { s with
      roomCounts := Tally.raise s.roomCounts id, ipCounts := Tally.raise s.ipCounts ip }
      { v with admitted := some (id, ip) } []
  | releases {id ip : GoString} (inside : v.admitted = some (id, ip)) :
    Deal config s v { s with
      roomCounts := Tally.lower s.roomCounts id, ipCounts := Tally.lower s.ipCounts ip }
      { v with admitted := none } []
  | grows {peer : Nat} {m : Message} {c : Client} (found : s.clients[peer]? = some c)
    (fits : c.queuedBytes + m.size ≤ config.queueBytes) (empty : v.reserved = none) :
    Deal config s v (s.update peer fun c => c.addBytes m.size)
      { v with reserved := some (peer, m) } []
  | pushes {peer : Nat} {m : Message} (reserved : v.reserved = some (peer, m)) :
    Deal config s v (s.update peer fun c => c.push m) { v with reserved := none } []
  | restores {peer : Nat} {m : Message} (reserved : v.reserved = some (peer, m)) :
    Deal config s v (s.update peer fun c => c.addBytes (-m.size)) { v with reserved := none } []
  | misses {peer : Nat} {m : Message} (reserved : v.reserved = some (peer, m))
    (absent : s.clients[peer]? = none) : Deal config s v s { v with reserved := none } []
  | closes (peer : Nat) : Deal config s v (s.update peer Client.close) v []
  | pops {n : Nat} {m : Message} {rest : List Message} {c : Client}
    (found : s.clients[n]? = some c) (queue : c.send = m :: rest)
    (may : v.hand = some (n, .free)) :
    Deal config s v (s.update n Client.pop) { v with hand := some (n, .writing m) } []
  | writes {n : Nat} {m : Message} (has : v.hand = some (n, .writing m)) :
    Deal config s v (s.update n fun c => c.write m) { v with hand := some (n, .written m) } []
  | settles {n : Nat} {m : Message} (has : v.hand = some (n, .written m)) :
    Deal config s v (s.update n fun c => c.addBytes (-m.size)) { v with hand := some (n, .free) } []

theorem Shared.lower_eq (counts : GoString → Option Int) (key : GoString) :
    Shared.lower counts key = Tally.lower counts key := by
  unfold Shared.lower Tally.lower Tally.count
  cases found : counts key with
  | none =>
    have same : Function.update counts key none = counts := by
      rw [← found, Function.update_eq_self]
    rw [Option.getD_none, if_pos (by decide), same]
  | some count =>
    simp only [Option.getD_some]
    split_ifs <;> rfl

section Step
variable {config : Config} {choice : Choice} {s s' : Shared} {n : Nat} {id ip : GoString}
  {pos' : HandlerPos} {spawned : List Thread}

theorem reserve_deal
    (moved : handlerStep config choice s n id ip .reserve = some (s', pos', spawned)) :
    Deal config s (HandlerPos.reserve.view n id ip) s' (pos'.view n id ip) spawned ∧
      (Thread.handler n id ip pos').Checked config := by
  simp only [handlerStep, Shared.reserve] at moved
  split_ifs at moved with full <;> cases moved
  · exact ⟨.leaves s.rooms rfl, trivial⟩
  · rw [not_or, not_le, not_le] at full
    exact ⟨.reserves (v := { hand := some (n, .free) }) rfl full.1 full.2, trivial⟩

theorem add_deal {again : Bool} {r : Nat}
    (moved : handlerStep config choice s n id ip (.add again r) = some (s', pos', spawned)) :
    Deal config s ((HandlerPos.add again r).view n id ip) s' (pos'.view n id ip) spawned ∧
      (Thread.handler n id ip pos').Checked config := by
  simp only [handlerStep] at moved
  split at moved <;> cases moved
  · exact ⟨.starts _ rfl, trivial⟩
  · split_ifs
    · exact ⟨.leaves _ rfl, trivial⟩
    · exact ⟨.idles _, trivial⟩

theorem enqueue_deal {r : Nat} {m : Message} {rest : List Nat}
    (moved : handlerStep config choice s n id ip (.enqueue r m rest) = some (s', pos', spawned)) :
    Deal config s ((HandlerPos.enqueue r m rest).view n id ip) s' (pos'.view n id ip) spawned ∧
      (Thread.handler n id ip pos').Checked config := by
  cases rest with
  | nil =>
    cases moved
    exact ⟨.idles s.rooms, trivial⟩
  | cons peer rest =>
    simp only [handlerStep] at moved
    split at moved
    · cases moved
      exact ⟨.idles s.rooms, trivial⟩
    · split_ifs at moved with full <;> cases moved
      · exact ⟨.idles s.rooms, trivial⟩
      · refine ⟨.idles s.rooms, ?_⟩
        simp only [Thread.Checked]
        omega

theorem swap_deal {r peer : Nat} {m : Message} {used : Int} {rest : List Nat}
    (fits : used + m.size ≤ config.queueBytes)
    (moved : handlerStep config choice s n id ip (.swap r m peer used rest) =
      some (s', pos', spawned)) :
    Deal config s ((HandlerPos.swap r m peer used rest).view n id ip) s' (pos'.view n id ip)
      spawned ∧ (Thread.handler n id ip pos').Checked config := by
  simp only [handlerStep] at moved
  split at moved
  · cases moved
    exact ⟨.idles s.rooms, trivial⟩
  next c found =>
    split_ifs at moved with same <;> cases moved
    · exact ⟨.grows (v := { admitted := some (id, ip) }) found (by rw [same]; exact fits) rfl,
        trivial⟩
    · exact ⟨.idles s.rooms, trivial⟩

theorem send_deal {r peer : Nat} {m : Message} {rest : List Nat}
    (moved : handlerStep config choice s n id ip (.send r m peer rest) =
      some (s', pos', spawned)) :
    Deal config s ((HandlerPos.send r m peer rest).view n id ip) s' (pos'.view n id ip) spawned ∧
      (Thread.handler n id ip pos').Checked config := by
  simp only [handlerStep] at moved
  split at moved
  next absent =>
    cases moved
    exact ⟨.misses rfl absent, trivial⟩
  · split_ifs at moved <;> cases moved
    · exact ⟨.pushes rfl, trivial⟩
    · exact ⟨.idles s.rooms, trivial⟩

theorem handlerStep_deal {pos : HandlerPos} (checked : (Thread.handler n id ip pos).Checked config)
    (moved : handlerStep config choice s n id ip pos = some (s', pos', spawned)) :
    Deal config s (pos.view n id ip) s' (pos'.view n id ip) spawned ∧
      (Thread.handler n id ip pos').Checked config := by
  cases pos with
  | reserve => exact reserve_deal moved
  | upgrade =>
    cases moved
    split_ifs
    · exact ⟨.idles s.rooms, trivial⟩
    · exact ⟨.leaves s.rooms rfl, trivial⟩
  | ensure again =>
    simp only [handlerStep] at moved
    split at moved <;> cases moved
    · exact ⟨.leaves _ rfl, trivial⟩
    · exact ⟨.idles _, trivial⟩
  | add again r => exact add_deal moved
  | reading r | lookup r m =>
    simp only [handlerStep] at moved
    split at moved <;> cases moved
    · exact ⟨.idles _, trivial⟩
    · exact ⟨.idles s.rooms, trivial⟩
  | remove r =>
    simp only [handlerStep] at moved
    split at moved <;> cases moved <;> exact ⟨.idles _, trivial⟩
  | replace r | snapshot r found m | deregister r =>
    cases moved
    exact ⟨.idles _, trivial⟩
  | enqueue r m rest => exact enqueue_deal moved
  | swap r m peer used rest => exact swap_deal checked moved
  | send r m peer rest => exact send_deal moved
  | restore r m peer rest =>
    cases moved
    exact ⟨.restores rfl, trivial⟩
  | kick r m peer rest =>
    cases moved
    exact ⟨.closes peer, trivial⟩
  | close =>
    cases moved
    exact ⟨.closes n, trivial⟩
  | release =>
    simp only [handlerStep, Shared.release, Shared.lower_eq] at moved
    cases moved
    exact ⟨.releases rfl, trivial⟩
  | gone => cases moved

theorem writerStep_deal {pos pos' : WriterPos} (moved : writerStep choice s n pos = some (s', pos')) :
    Deal config s (Thread.writer n pos).view s' (Thread.writer n pos').view [] := by
  cases pos with
  | select =>
    simp only [writerStep] at moved
    split at moved
    · cases moved
    next c found =>
      split at moved
      · split_ifs at moved
        cases moved
        exact .idles s.rooms
      · split at moved
        · cases moved
        next m rest queue =>
          cases moved
          exact .pops found queue rfl
      · cases moved
        split_ifs
        · exact .idles s.rooms
        · exact .idles s.rooms
  | write m =>
    simp only [writerStep] at moved
    cases moved
    exact .writes rfl
  | settle m ok =>
    simp only [writerStep] at moved
    cases moved
    cases ok with
    | true | false => exact .settles rfl
  | closing =>
    simp only [writerStep] at moved
    cases moved
    exact .closes n
  | gone => simp [writerStep] at moved

theorem advance_deal {t t' : Thread} {spawned : List Thread} (checked : t.Checked config)
    (moved : advance config choice s t = some (s', t', spawned)) :
    Deal config s t.view s' t'.view spawned ∧ t'.Checked config := by
  cases t with
  | handler n id ip pos =>
    simp only [advance] at moved
    split at moved
    · cases moved
    next stepped =>
      cases moved
      exact handlerStep_deal checked stepped
  | writer n pos =>
    simp only [advance] at moved
    split at moved
    · cases moved
    next stepped =>
      cases moved
      exact ⟨writerStep_deal stepped, trivial⟩

end Step

section Counters

/-- How a step changes a map of counters, with the key its thread is admitted
under before and after. -/
inductive Admission (counts : GoString → Option Int) (limit : Int) :
    Option GoString → (GoString → Option Int) → Option GoString → Prop
  | keeps (key : Option GoString) : Admission counts limit key counts key
  | raises {key : GoString} (below : Tally.count counts key < limit) :
    Admission counts limit none (Tally.raise counts key) (some key)
  | lowers (key : GoString) : Admission counts limit (some key) (Tally.lower counts key) none

structure Tallied (counts : GoString → Option Int) (limit : Int)
    (key : GoString × GoString → GoString) (threads : List Thread) : Prop where
  positive : Tally.Positive counts
  exact : ∀ k, Tally.count counts k = total (fun t => t.view.admittedAs key k) threads
  within : ∀ k, Tally.count counts k ≤ limit

variable {counts counts' : GoString → Option Int} {limit : Int}
  {key : GoString × GoString → GoString} {threads : List Thread}

theorem View.admittedAs_nonneg (k : GoString) (v : View) : 0 ≤ v.admittedAs key k := by
  unfold View.admittedAs
  split_ifs <;> omega

theorem Tallied.advance (tallied : Tallied counts limit key threads) {i : Nat} {t t' : Thread}
    {spawned : List Thread} (running : threads[i]? = some t)
    (admission : Admission counts limit (t.view.admitted.map key) counts' (t'.view.admitted.map key))
    (fresh : ∀ u ∈ spawned, u.view.admitted = none) :
    Tallied counts' limit key (threads.set i t' ++ spawned) := by
  have started : ∀ k, total (fun t => t.view.admittedAs key k) spawned = 0 := fun k =>
    Ledger.total_eq_zero fun u member => by simp [View.admittedAs, fresh u member]
  have moved := fun k =>
    Interleaving.total_advance (fun t => t.view.admittedAs key k) running t' spawned
  have own : ∀ k, t.view.admittedAs key k ≤ Tally.count counts k := fun k =>
    tallied.exact k ▸ Ledger.le_total (fun u _ => u.view.admittedAs_nonneg k)
      (List.mem_of_getElem? running)
  simp only [View.admittedAs] at moved own started
  generalize t.view.admitted.map key = before at admission moved own
  generalize after : t'.view.admitted.map key = later at admission moved
  have exact := tallied.exact
  simp only [View.admittedAs] at exact
  cases admission with
  | keeps =>
    refine ⟨tallied.positive, fun k => ?_, tallied.within⟩
    simp only [View.admittedAs]
    rw [moved k, started k, exact k]
    omega
  | @raises new below =>
    refine ⟨tallied.positive.raise new, fun k => ?_, fun k => ?_⟩
    · simp only [View.admittedAs]
      rw [Tally.count_raise, moved k, started k, exact k]
      simp [eq_comm]
    · have within := tallied.within k
      rw [Tally.count_raise]
      split_ifs with same
      · rw [same]
        omega
      · omega
  | lowers old =>
    have present : 0 < Tally.count counts old := by
      have counted := own old
      rw [if_pos rfl] at counted
      omega
    refine ⟨tallied.positive.lower old, fun k => ?_, fun k => ?_⟩
    · simp only [View.admittedAs]
      rw [Tally.count_lower present, moved k, started k, exact k]
      simp [eq_comm]
    · have within := tallied.within k
      rw [Tally.count_lower present]
      split_ifs <;> omega

theorem Tallied.enter (tallied : Tallied counts limit key threads) {t : Thread}
    (outside : t.view.admitted = none) : Tallied counts limit key (threads ++ [t]) := by
  refine ⟨tallied.positive, fun k => ?_, tallied.within⟩
  rw [Ledger.total_append, tallied.exact k]
  simp [View.admittedAs, outside]

end Counters

section Deals
variable {config : Config} {s s' : Shared} {v v' : View} {spawned : List Thread}

theorem Deal.room (deal : Deal config s v s' v' spawned) :
    Admission s.roomCounts config.connectionsPerRoom (v.admitted.map Prod.fst) s'.roomCounts
      (v'.admitted.map Prod.fst) := by
  cases deal with
  | reserves outside room address =>
    rw [outside]
    exact .raises room
  | releases inside =>
    rw [inside]
    exact .lowers _
  | _ => exact .keeps _

theorem Deal.address (deal : Deal config s v s' v' spawned) :
    Admission s.ipCounts config.connectionsPerIP (v.admitted.map Prod.snd) s'.ipCounts
      (v'.admitted.map Prod.snd) := by
  cases deal with
  | reserves outside room address =>
    rw [outside]
    exact .raises address
  | releases inside =>
    rw [inside]
    exact .lowers _
  | _ => exact .keeps _

theorem Deal.spawned_idle (deal : Deal config s v s' v' spawned) :
    ∀ u ∈ spawned, u.view.admitted = none ∧ u.Checked config ∧ ∀ n, u.view.bytesOf n = 0 := by
  cases deal with
  | starts rooms may =>
    intro u member
    rw [List.mem_singleton.mp member]
    refine ⟨rfl, trivial, fun n => ?_⟩
    simp only [View.bytesOf, View.reservedFor, View.handOf, Thread.view, WriterPos.hand]
    split_ifs <;> rfl
  | _ => simp

def View.Known (s : Shared) (v : View) : Prop :=
  (∀ peer m, v.reserved = some (peer, m) → peer < s.clients.length) ∧
    ∀ n hand, v.hand = some (n, hand) → n < s.clients.length

theorem Deal.length (deal : Deal config s v s' v' spawned) :
    s'.clients.length = s.clients.length := by
  cases deal <;> first | rfl | exact s.update_length ..

theorem Deal.known (deal : Deal config s v s' v' spawned) (known : v.Known s) :
    v'.Known s' ∧ ∀ u ∈ spawned, u.view.Known s' := by
  unfold View.Known at known ⊢
  rw [deal.length]
  cases deal with
  | starts rooms may => simp_all [Thread.view]
  | grows found =>
    have inside := (List.getElem?_eq_some_iff.mp found).1
    simp_all
  | _ => simp_all

theorem View.Known.grows (known : v.Known s) (more : s.clients.length ≤ s'.clients.length) :
    v.Known s' :=
  ⟨fun peer m reserved => (known.1 peer m reserved).trans_le more,
    fun n hand has => (known.2 n hand has).trans_le more⟩

theorem View.Known.absent (known : v.Known s) {n : Nat} (absent : s.clients.length ≤ n) :
    v.reservedFor n = 0 ∧ v.handOf n = none := by
  unfold View.reservedFor View.handOf
  constructor
  · cases reserved : v.reserved with
    | none => rfl
    | some pair =>
      have inside := known.1 pair.1 pair.2 reserved
      exact if_neg (by omega)
  · cases has : v.hand with
    | none => rfl
    | some pair =>
      have inside := known.2 pair.1 pair.2 has
      exact if_neg (by omega)

theorem Shared.update_client {k n : Nat} {f : Client → Client} {c' : Client}
    (after : (s.update k f).clients[n]? = some c') :
    ∃ c, s.clients[n]? = some c ∧ c' = if k = n then f c else c := by
  simp only [Shared.update, List.getElem?_modify] at after
  cases found : s.clients[n]? with
  | none => simp [found] at after
  | some c =>
    refine ⟨c, rfl, ?_⟩
    simp only [found, Option.map_eq_map, Option.map_some, Option.some.injEq] at after
    rw [← after]

theorem Message.size_nonneg (m : Message) : 0 ≤ m.size := by
  unfold Message.size
  omega

/-- What a step does to one client, with the bytes its thread has reserved for it
and its right to write, before and after. -/
inductive Share (config : Config) (n : Nat) (c : Client) (reserved : Int) (spawned : List Thread) :
    Option Hand → Client → Int → Option Hand → Prop
  | rests {hand : Option Hand} (fresh : ∀ u ∈ spawned, u.view.handOf n = none) :
    Share config n c reserved spawned hand c reserved hand
  | closes {hand : Option Hand} (alone : spawned = []) :
    Share config n c reserved spawned hand c.close reserved hand
  | leaves (alone : spawned = []) : Share config n c reserved spawned (some .free) c reserved none
  | starts (writer : spawned = [.writer n .select]) :
    Share config n c reserved spawned (some .free) c reserved none
  | grows {hand : Option Hand} {m : Message} (alone : spawned = []) (empty : reserved = 0)
    (fits : c.queuedBytes + m.size ≤ config.queueBytes) :
    Share config n c reserved spawned hand (c.addBytes m.size) m.size hand
  | pushes {hand : Option Hand} {m : Message} (alone : spawned = []) (full : reserved = m.size) :
    Share config n c reserved spawned hand (c.push m) 0 hand
  | restores {hand : Option Hand} {m : Message} (alone : spawned = []) (full : reserved = m.size) :
    Share config n c reserved spawned hand (c.addBytes (-m.size)) 0 hand
  | pops {m : Message} {rest : List Message} (alone : spawned = []) (queue : c.send = m :: rest) :
    Share config n c reserved spawned (some .free) c.pop reserved (some (.writing m))
  | writes {m : Message} (alone : spawned = []) :
    Share config n c reserved spawned (some (.writing m)) (c.write m) reserved (some (.written m))
  | settles {m : Message} (alone : spawned = []) :
    Share config n c reserved spawned (some (.written m)) (c.addBytes (-m.size)) reserved
      (some .free)

theorem Deal.share (deal : Deal config s v s' v' spawned) {n : Nat} {c c' : Client}
    (before : s.clients[n]? = some c) (after : s'.clients[n]? = some c') :
    Share config n c (v.reservedFor n) spawned (v.handOf n) c' (v'.reservedFor n) (v'.handOf n) := by
  cases deal with
  | idles | reserves | releases =>
    cases before.symm.trans after
    exact .rests (by simp)
  | leaves rooms may =>
    cases before.symm.trans after
    rw [View.handOf_some may, View.handOf_none rfl]
    split_ifs
    · exact .leaves rfl
    · exact .rests (by simp)
  | @starts rooms k may =>
    cases before.symm.trans after
    rw [View.handOf_some may, View.handOf_none rfl]
    split_ifs with same
    · exact .starts (by rw [same])
    · exact .rests (by simp [Thread.view, View.handOf, same])
  | @grows peer m d found fits empty =>
    obtain ⟨e, client, rfl⟩ := Shared.update_client after
    cases before.symm.trans client
    rw [View.reservedFor_none empty, View.reservedFor_some rfl]
    split_ifs with same
    · subst same
      cases before.symm.trans found
      exact .grows rfl rfl fits
    · exact .rests (by simp)
  | pushes reserved =>
    obtain ⟨e, client, rfl⟩ := Shared.update_client after
    cases before.symm.trans client
    rw [View.reservedFor_some reserved, View.reservedFor_none rfl]
    split_ifs
    · exact .pushes rfl rfl
    · exact .rests (by simp)
  | restores reserved =>
    obtain ⟨e, client, rfl⟩ := Shared.update_client after
    cases before.symm.trans client
    rw [View.reservedFor_some reserved, View.reservedFor_none rfl]
    split_ifs
    · exact .restores rfl rfl
    · exact .rests (by simp)
  | @misses peer m reserved absent =>
    cases before.symm.trans after
    have other : peer ≠ n := by
      rintro rfl
      rw [absent] at before
      cases before
    rw [View.reservedFor_some reserved, View.reservedFor_none rfl, if_neg other]
    exact .rests (by simp)
  | closes peer =>
    obtain ⟨e, client, rfl⟩ := Shared.update_client after
    cases before.symm.trans client
    split_ifs
    · exact .closes rfl
    · exact .rests (by simp)
  | @pops k m rest d found queue may =>
    obtain ⟨e, client, rfl⟩ := Shared.update_client after
    cases before.symm.trans client
    rw [View.handOf_some may, View.handOf_some rfl]
    split_ifs with same
    · subst same
      cases before.symm.trans found
      exact .pops rfl queue
    · exact .rests (by simp)
  | writes has =>
    obtain ⟨e, client, rfl⟩ := Shared.update_client after
    cases before.symm.trans client
    rw [View.handOf_some has, View.handOf_some rfl]
    split_ifs
    · exact .writes rfl
    · exact .rests (by simp)
  | settles has =>
    obtain ⟨e, client, rfl⟩ := Shared.update_client after
    cases before.symm.trans client
    rw [View.handOf_some has, View.handOf_some rfl]
    split_ifs
    · exact .settles rfl
    · exact .rests (by simp)

section Shares
variable {n : Nat} {c c' : Client} {reserved reserved' : Int} {hand hand' : Option Hand}
  (share : Share config n c reserved spawned hand c' reserved' hand')
include share

/-- A step moves the bytes of a client as it moves those of its queue and those
the thread has: an `enqueue` that is refused ends with what it began with. -/
theorem Share.balance : c'.queuedBytes =
    c.queuedBytes + (total Message.size c'.send - total Message.size c.send) +
      (reserved' + (hand'.getD .free).bytes - (reserved + (hand.getD .free).bytes)) := by
  cases share with
  | rests | closes | leaves | starts => simp [Client.close, Hand.bytes]
  | grows alone empty => simp [Client.addBytes, empty]
  | pushes alone full => simp [Client.push, full]
  | restores alone full => simp [Client.addBytes, full]
  | pops alone queue => simp [Client.pop, queue, Hand.bytes]
  | writes => simp [Client.write, Hand.bytes]
  | settles => simp [Client.addBytes, Hand.bytes]

theorem Share.within (within : c.queuedBytes ≤ config.queueBytes) :
    c'.queuedBytes ≤ config.queueBytes := by
  cases share with
  | grows alone empty fits => exact fits
  | @restores _ m | @settles m =>
    have size := m.size_nonneg
    simp only [Client.addBytes]
    omega
  | rests | closes | leaves | starts | pushes | pops | writes => exact within

end Shares

end Deals

section Clients
variable {config : Config} {n : Nat} {c c' : Client} {threads : List Thread}

structure Kept (config : Config) (n : Nat) (c : Client) (threads : List Thread) : Prop where
  bytes : c.queuedBytes = total Message.size c.send + total (fun t => t.view.bytesOf n) threads
  within : c.queuedBytes ≤ config.queueBytes
  order : ∃ hand, Interleaving.Exclusive (fun t : Thread => t.view.handOf n) hand threads ∧
    c.written ++ (hand.getD .free).pending ++ c.send = c.accepted

theorem Share.order {t t' : Thread} {spawned : List Thread} {reserved reserved' : Int}
    (share : Share config n c reserved spawned (t.view.handOf n) c' reserved' (t'.view.handOf n))
    {i : Nat} (running : threads[i]? = some t)
    (order : ∃ hand, Interleaving.Exclusive (fun t : Thread => t.view.handOf n) hand threads ∧
      c.written ++ (hand.getD .free).pending ++ c.send = c.accepted) :
    ∃ hand, Interleaving.Exclusive (fun t : Thread => t.view.handOf n) hand
        (threads.set i t' ++ spawned) ∧
      c'.written ++ (hand.getD .free).pending ++ c'.send = c'.accepted := by
  obtain ⟨hand, alone, order⟩ := order
  have member := List.mem_of_getElem? running
  have claimed := alone.claimed t member
  have rests : t'.view.handOf n = t.view.handOf n → (∀ u ∈ spawned, u.view.handOf n = none) →
      Interleaving.Exclusive (fun t : Thread => t.view.handOf n) hand (threads.set i t' ++ spawned) :=
    fun same fresh => (alone.rest running same).enter fresh
  -- the writer goes from one hand to the next
  have changes : ∀ first next, t.view.handOf n = some first → t'.view.handOf n = some next →
      Interleaving.Exclusive (fun t : Thread => t.view.handOf n) (some next)
        (threads.set i t' ++ []) := by
    intro first next has gets
    cases claimed first has
    rw [List.append_nil]
    exact alone.change running has gets
  generalize before : t.view.handOf n = own at share
  generalize after : t'.view.handOf n = own' at share
  cases share with
  | rests fresh => exact ⟨hand, rests (after.trans before.symm) fresh, order⟩
  | closes none_start =>
    exact ⟨hand, rests (after.trans before.symm) (by simp [none_start]), order⟩
  | leaves none_start =>
    subst none_start
    cases claimed .free before
    refine ⟨none, ?_, order⟩
    rw [List.append_nil]
    exact alone.advance running (by rw [before, after]; exact .releases)
  | starts writer =>
    subst writer
    cases claimed .free before
    exact ⟨some .free, alone.handOff running before after (by simp [Thread.view, View.handOf,
      WriterPos.hand]), order⟩
  | grows none_start | restores none_start =>
    exact ⟨hand, rests (after.trans before.symm) (by simp [none_start]), order⟩
  | pushes none_start =>
    refine ⟨hand, rests (after.trans before.symm) (by simp [none_start]), ?_⟩
    simp [Client.push, ← order]
  | pops none_start queue =>
    subst none_start
    cases claimed .free before
    refine ⟨_, changes _ _ before after, ?_⟩
    simp [Client.pop, Hand.pending, ← order, queue]
  | @writes m none_start =>
    subst none_start
    cases claimed (.writing m) before
    refine ⟨_, changes _ _ before after, ?_⟩
    simp [Client.write, Hand.pending, ← order]
  | @settles m none_start =>
    subst none_start
    cases claimed (.written m) before
    exact ⟨_, changes _ _ before after, order⟩

theorem Deal.kept {s s' : Shared} {t t' : Thread} {spawned : List Thread}
    (deal : Deal config s t.view s' t'.view spawned) (before : s.clients[n]? = some c)
    (after : s'.clients[n]? = some c') {i : Nat} (running : threads[i]? = some t)
    (kept : Kept config n c threads) : Kept config n c' (threads.set i t' ++ spawned) := by
  have share := deal.share before after
  refine ⟨?_, share.within kept.within, share.order running kept.order⟩
  have started : total (fun t => t.view.bytesOf n) spawned = 0 :=
    Ledger.total_eq_zero fun u member => (deal.spawned_idle u member).2.2 n
  have moved := Interleaving.total_advance (fun t => t.view.bytesOf n) running t' spawned
  rw [moved, started, share.balance, kept.bytes]
  simp only [View.bytesOf]
  omega

theorem Kept.enter (kept : Kept config n c threads) {t : Thread}
    (reserved : t.view.reservedFor n = 0) (hand : t.view.handOf n = none) :
    Kept config n c (threads ++ [t]) := by
  obtain ⟨owner, alone, order⟩ := kept.order
  refine ⟨?_, kept.within, owner, alone.enter (by simpa using hand), order⟩
  rw [Ledger.total_append, kept.bytes]
  simp [View.bytesOf, reserved, hand, Hand.bytes]

theorem Kept.first (unknown : ∀ t ∈ threads, t.view.reservedFor n = 0 ∧ t.view.handOf n = none)
    (id ip : GoString) : Kept config n {} (threads ++ [.handler n id ip .reserve]) := by
  have idle : total (fun t => t.view.bytesOf n) threads = 0 := by
    apply Ledger.total_eq_zero
    intro t member
    simp [View.bytesOf, unknown t member, Hand.bytes]
  refine ⟨?_, config.positive.2.2.2.le, some .free,
    .start (fun t member => (unknown t member).2) ?_, rfl⟩
  · rw [Ledger.total_append, idle]
    simp [View.bytesOf, View.reservedFor, View.handOf, Thread.view, HandlerPos.view, Hand.bytes]
  · simp [View.handOf, Thread.view, HandlerPos.view]

end Clients

structure Accounts (config : Config) (c : Interleaving.Config Shared Thread) : Prop where
  rooms : Tallied c.shared.roomCounts config.connectionsPerRoom Prod.fst c.threads
  addresses : Tallied c.shared.ipCounts config.connectionsPerIP Prod.snd c.threads
  threads : ∀ t ∈ c.threads, t.Checked config ∧ t.view.Known c.shared
  clients : ∀ n client, c.shared.clients[n]? = some client → Kept config n client c.threads

namespace Accounts
variable {config : Config} {c : Interleaving.Config Shared Thread} {s' : Shared}
  {spawned : List Thread}

theorem start (config : Config) : Accounts config ⟨{}, []⟩ := by
  have positive := config.positive
  refine ⟨⟨.empty, by simp [Tally.count], fun k => ?_⟩, ⟨.empty, by simp [Tally.count], fun k => ?_⟩,
    by simp, by simp⟩
  · simp only [Tally.count, Option.getD_none]
    omega
  · simp only [Tally.count, Option.getD_none]
    omega

theorem advances (accounts : Accounts config c) {i : Nat} {choice : Choice} {t t' : Thread}
    (running : c.threads[i]? = some t)
    (moved : advance config choice c.shared t = some (s', t', spawned)) :
    Accounts config ⟨s', c.threads.set i t' ++ spawned⟩ := by
  obtain ⟨checked, known⟩ := accounts.threads t (List.mem_of_getElem? running)
  obtain ⟨deal, checked'⟩ := advance_deal checked moved
  obtain ⟨known', started⟩ := deal.known known
  have idle := deal.spawned_idle
  refine ⟨accounts.rooms.advance running deal.room fun u member => (idle u member).1,
    accounts.addresses.advance running deal.address fun u member => (idle u member).1, ?_, ?_⟩
  · refine Interleaving.forall_advance (q := fun u => u.Checked config ∧ u.view.Known s')
      accounts.threads (fun m u _ _ holds => ⟨holds.1, ?_⟩) ⟨checked', known'⟩
      fun u member => ⟨(idle u member).2.1, started u member⟩
    exact holds.2.grows deal.length.ge
  · intro n client after
    have inside := (List.getElem?_eq_some_iff.mp after).1
    rw [deal.length] at inside
    exact deal.kept (List.getElem?_eq_getElem inside) after running
      (accounts.clients n _ (List.getElem?_eq_getElem inside))

theorem occurs (accounts : Accounts config c) {request : Request}
    (happened : occur request c.shared = some (s', spawned)) :
    Accounts config ⟨s', c.threads ++ spawned⟩ := by
  simp only [occur] at happened
  split at happened
  · cases happened
  · split_ifs at happened
    cases happened
    have unknown : ∀ t ∈ c.threads, t.view.reservedFor c.shared.clients.length = 0 ∧
        t.view.handOf c.shared.clients.length = none :=
      fun t member => (accounts.threads t member).2.absent (Nat.le_refl _)
    refine ⟨accounts.rooms.enter rfl, accounts.addresses.enter rfl, ?_, ?_⟩
    · intro t member
      rcases List.mem_append.mp member with old | new
      · have holds := accounts.threads t old
        exact ⟨holds.1, holds.2.grows (by simp)⟩
      · rw [List.mem_singleton.mp new]
        exact ⟨trivial, by simp [View.Known, Thread.view, HandlerPos.view]⟩
    · intro n client after
      rcases Nat.lt_or_ge n c.shared.clients.length with inside | outside
      · rw [List.getElem?_append_left inside] at after
        have other : c.shared.clients.length ≠ n := by omega
        exact (accounts.clients n client after).enter rfl
          (by simp [Thread.view, HandlerPos.view, View.handOf, other])
      · have last := (List.getElem?_eq_some_iff.mp after).1
        rw [List.length_append, List.length_singleton] at last
        obtain rfl : n = c.shared.clients.length := by omega
        rw [List.getElem?_concat_length] at after
        cases after
        exact .first unknown _ _

theorem moves (accounts : Accounts config c) {c' : Interleaving.Config Shared Thread}
    (moves : (program config).Moves c c') : Accounts config c' := by
  cases moves with
  | stays => exact accounts
  | advances running moved => exact accounts.advances running moved
  | occurs happened => exact accounts.occurs happened

end Accounts

theorem run_accounts (config : Config) (actions : List Action) :
    Accounts config (run config actions) :=
  (program config).run_keeps (Accounts config) (fun _ _ accounts moves => accounts.moves moves)
    (Accounts.start config) actions

def Shared.value (s : Shared) (n : Nat) (f : Client → Int) : Int := (s.clients[n]?).elim 0 f

def ownChange (config : Config) (k n : Nat) (f : Client → Int) :
    Interleaving.Config Shared Thread → List Action → Int
  | _, [] => 0
  | c, a :: later =>
    let c' := (program config).step c a
    let change :=
      match a with
      | .advance i _ => if i = k then c'.shared.value n f - c.shared.value n f else 0
      | .event _ => 0
    change + ownChange config k n f c' later

def queueBytes (c : Client) : Int := total Message.size c.send

section Own
variable {config : Config} {c c' : Interleaving.Config Shared Thread} {k n : Nat}

theorem Deal.value {s s' : Shared} {v v' : View} {spawned : List Thread}
    (deal : Deal config s v s' v' spawned) (known : v.Known s) :
    s'.value n Client.queuedBytes - s.value n Client.queuedBytes =
      s'.value n queueBytes - s.value n queueBytes + (v'.bytesOf n - v.bytesOf n) := by
  have length := deal.length
  unfold Shared.value
  rcases Nat.lt_or_ge n s.clients.length with inside | outside
  · have before := List.getElem?_eq_getElem inside
    have after := List.getElem?_eq_getElem (length.symm ▸ inside)
    have balance := (deal.share before after).balance
    rw [before, after]
    simp only [Option.elim_some, queueBytes, View.bytesOf]
    omega
  · have absent := known.absent outside
    have absent' := (deal.known known).1.absent (n := n) (length.symm ▸ outside)
    rw [List.getElem?_eq_none outside, List.getElem?_eq_none (length.symm ▸ outside)]
    simp [View.bytesOf, absent, absent']

theorem own_bytes (accounts : Accounts config c) (later : List Action) {t t' : Thread}
    (running : c.threads[k]? = some t)
    (ran : ((program config).run c later).threads[k]? = some t') :
    ownChange config k n Client.queuedBytes c later =
      ownChange config k n queueBytes c later + (t'.view.bytesOf n - t.view.bytesOf n) := by
  induction later generalizing c t with
  | nil =>
    cases running.symm.trans ran
    simp [ownChange]
  | cons a later ih =>
    have taken := (program config).step_takes c a
    have next := fun u found => ih (accounts.moves taken.moves) (t := u) found ran
    simp only [ownChange]
    generalize (program config).step c a = c' at taken next
    cases taken with
    | stays =>
      rw [next t running]
      cases a <;> simp
    | @advances i choice u u' s spawned own moved =>
      by_cases same : i = k
      · subst same
        cases own.symm.trans running
        obtain ⟨checked, known⟩ := accounts.threads t (List.mem_of_getElem? running)
        have value := (advance_deal checked moved).1.value (n := n) known
        rw [next u' (Interleaving.getElem?_own running u' spawned)]
        dsimp only
        rw [if_pos rfl, if_pos rfl, value]
        omega
      · rw [next t (Interleaving.getElem?_other same running u' spawned)]
        dsimp only
        rw [if_neg same, if_neg same]
        omega
    | @occurs request s spawned happened =>
      have kept : (c.threads ++ spawned)[k]? = some t :=
        (List.getElem?_append_left (List.getElem?_eq_some_iff.mp running).1).trans running
      rw [next t kept]
      dsimp only
      omega

end Own

structure Accounted (config : Config) (c : Interleaving.Config Shared Thread) : Prop where
  rooms : ∀ id, (c.shared.roomCounts id).getD 0 =
      total (fun t => t.view.admittedAs Prod.fst id) c.threads ∧
    (c.shared.roomCounts id).getD 0 ≤ config.connectionsPerRoom
  addresses : ∀ ip, (c.shared.ipCounts ip).getD 0 =
      total (fun t => t.view.admittedAs Prod.snd ip) c.threads ∧
    (c.shared.ipCounts ip).getD 0 ≤ config.connectionsPerIP
  /-- Only one thread may write for a client; with no `enqueue` half done for it, its
  bytes are those of its queue and of the message being written. -/
  bytes : ∀ (n : Nat) (client : Client), c.shared.clients[n]? = some client →
    ∃ hand, Interleaving.Exclusive (fun t : Thread => t.view.handOf n) hand c.threads ∧
      ((∀ t ∈ c.threads, t.view.reservedFor n = 0) →
        client.queuedBytes = total Message.size client.send + (hand.getD .free).bytes)
  limits : ∀ (n : Nat) (client : Client), c.shared.clients[n]? = some client →
    0 ≤ client.queuedBytes ∧ client.queuedBytes ≤ config.queueBytes
  /-- From a moment when a thread has no bytes of a client to another, it adds to the
  client's bytes what it puts in the queue: nothing in an `enqueue` that is refused. -/
  refused : ∀ k n t t' later, c.threads[k]? = some t →
    ((program config).run c later).threads[k]? = some t' →
    t.view.bytesOf n = 0 → t'.view.bytesOf n = 0 →
    ownChange config k n Client.queuedBytes c later = ownChange config k n queueBytes c later
  order : ∀ (n : Nat) (client : Client), c.shared.clients[n]? = some client →
    client.written <+: client.accepted

theorem View.bytesOf_nonneg (n : Nat) (v : View) : 0 ≤ v.bytesOf n := by
  have hand : ∀ h : Hand, 0 ≤ h.bytes := by
    intro h
    cases h with
    | free => exact Int.le_refl 0
    | writing m => exact m.size_nonneg
    | written m => exact m.size_nonneg
  have reserved : 0 ≤ v.reservedFor n := by
    unfold View.reservedFor
    split
    · exact Int.le_refl 0
    next peer m _ =>
      have size := m.size_nonneg
      split_ifs <;> omega
  exact Int.add_nonneg reserved (hand _)

theorem Kept.nonneg {config : Config} {n : Nat} {c : Client} {threads : List Thread}
    (kept : Kept config n c threads) : 0 ≤ c.queuedBytes := by
  rw [kept.bytes]
  exact Int.add_nonneg (Ledger.total_nonneg fun m _ => m.size_nonneg)
    (Ledger.total_nonneg fun t _ => t.view.bytesOf_nonneg n)

theorem Hand.bytes_getD (hand : Option Hand) : (hand.getD .free).bytes = hand.elim 0 Hand.bytes := by
  cases hand <;> rfl

theorem Thread.total_bytesOf {n : Nat} {threads : List Thread}
    (settled : ∀ t ∈ threads, t.view.reservedFor n = 0) :
    total (fun t => t.view.bytesOf n) threads =
      total (fun t => (t.view.handOf n).elim 0 Hand.bytes) threads := by
  apply congrArg List.sum
  apply List.map_congr_left
  intro t member
  rw [View.bytesOf, settled t member, Hand.bytes_getD, Int.zero_add]

theorem resources_accounted (config : Config) (actions : List Action) :
    Accounted config (run config actions) := by
  have accounts := run_accounts config actions
  refine ⟨fun id => ⟨accounts.rooms.exact id, accounts.rooms.within id⟩,
    fun ip => ⟨accounts.addresses.exact ip, accounts.addresses.within ip⟩, ?_, ?_, ?_, ?_⟩
  · intro n client found
    have kept := accounts.clients n client found
    obtain ⟨hand, alone, -⟩ := kept.order
    refine ⟨hand, alone, fun settled => ?_⟩
    rw [kept.bytes, Thread.total_bytesOf settled, alone.weight Hand.bytes, Hand.bytes_getD]
  · intro n client found
    have kept := accounts.clients n client found
    exact ⟨kept.nonneg, kept.within⟩
  · intro k n t t' later running ran idle idle'
    rw [own_bytes accounts later running ran, idle, idle']
    omega
  · intro n client found
    obtain ⟨hand, -, order⟩ := (accounts.clients n client found).order
    rw [← order, List.append_assoc]
    exact List.prefix_append _ _

end Telekit.Broker
