import Mathlib.Algebra.Group.Nat.Even
import Mathlib.Algebra.Ring.Parity
import Roadstead.SSEHub

/-!
# What a client of the event stream is sent

A client that missed an event has a sentinel before it: as long as a handler is subscribed and no
sentinel waits in its queue, what it has sent and what waits are all the events since it connected
(`Sound`).  It ends when it comes to the sentinel, which it does if no event meets its queue full from
there on (`closes`).

It need not come to it otherwise.  The sentinel waits at the end of the queue and is dropped like any
other item when it has become the oldest.  With an even bound, a handler that has one turn for every
two events takes every second one, drops every sentinel, and is never ended (`starved`).
-/

namespace Roadstead

namespace SSEHub

open Runs

variable {δ : Type} {serializer : Serializer δ} {maxsize : ℕ}

/-! ### Queues -/

section Queue

variable {queue : List Payload}

/-- A queue that keeps its bound has room for the sentinel behind its oldest item. -/
theorem drop_eq (bounded : 0 < maxsize → queue.length ≤ maxsize) :
    drop maxsize queue = queue.tail ++ [dropSentinel] := by
  refine if_neg ?_
  rw [isFull, decide_eq_true_eq, List.length_tail]
  rintro ⟨pos, full⟩
  have := bounded pos
  omega

theorem length_drop_le (bounded : 0 < maxsize → queue.length ≤ maxsize) (pos : 0 < maxsize) :
    (drop maxsize queue).length ≤ maxsize := by
  have := bounded pos
  rw [drop_eq bounded, List.length_append, List.length_tail, List.length_singleton]
  omega

theorem filter_drop_sublist (bounded : 0 < maxsize → queue.length ≤ maxsize) :
    ((drop maxsize queue).filter (· ≠ dropSentinel)).Sublist
      (queue.filter (· ≠ dropSentinel)) := by
  rw [drop_eq bounded, List.filter_append]
  have none : [dropSentinel].filter (· ≠ dropSentinel) = [] := rfl
  rw [none, List.append_nil]
  exact (List.tail_sublist queue).filter _

end Queue

/-- The print of an event is never taken for the sentinel. -/
theorem published_ne {event text : String} {data : δ}
    (printed : serializer.dumps data = some text) : Payload.mk event text ≠ dropSentinel := by
  intro same
  exact serializer.nonempty data text printed (congrArg Payload.data same)

variable (serializer) in
theorem published_append (before events : List (Event δ)) :
    published serializer (before ++ events) =
      published serializer before ++ published serializer events := List.filterMap_append

/-! ### No event is missed without a sentinel -/

/-- A handler after `payloads` were published. -/
structure Handler.Sound (maxsize : ℕ) (payloads : List Payload) (h : Handler) : Prop where
  sublist : (h.sent ++ h.queue.filter (· ≠ dropSentinel)).Sublist payloads
  bounded : 0 < maxsize → h.queue.length ≤ maxsize
  complete : h.connected = true → dropSentinel ∉ h.queue → h.sent ++ h.queue = payloads

namespace Handler.Sound

variable {payloads : List Payload} {h : Handler}

/-- A handler that is not subscribed stays as it is. -/
theorem append (sound : h.Sound maxsize payloads) (ended : h.connected = false)
    (more : List Payload) : h.Sound maxsize (payloads ++ more) where
  sublist := sound.sublist.trans (List.sublist_append_left _ _)
  bounded := sound.bounded
  complete connected := by
    rw [ended] at connected
    cases connected

theorem drop (sound : h.Sound maxsize payloads) (more : List Payload) :
    (h.onQueue (drop maxsize)).Sound maxsize (payloads ++ more) := by
  rw [onQueue]
  split
  · refine ⟨?_, length_drop_le sound.bounded, fun _ none => ?_⟩
    · refine List.Sublist.trans ?_ (sound.sublist.trans (List.sublist_append_left _ _))
      exact (List.Sublist.refl _).append (filter_drop_sublist sound.bounded)
    · refine absurd ?_ none
      rw [drop_eq sound.bounded]
      exact List.mem_append_right _ (List.mem_singleton_self _)
  · next ended => exact sound.append (Bool.eq_false_iff.mpr ended) more

theorem offer (sound : h.Sound maxsize payloads) {payload : Payload}
    (ne : payload ≠ dropSentinel) :
    (h.onQueue (offer maxsize payload)).Sound maxsize (payloads ++ [payload]) := by
  by_cases full : isFull maxsize h.queue = true
  · have same : h.onQueue (SSEHub.offer maxsize payload) = h.onQueue (SSEHub.drop maxsize) := by
      rw [onQueue, onQueue, SSEHub.offer, if_pos full]
    rw [same]
    exact sound.drop [payload]
  · rw [onQueue, SSEHub.offer, if_neg full]
    split
    · refine ⟨?_, fun pos => ?_, fun connected none => ?_⟩
      · have kept : [payload].filter (· ≠ dropSentinel) = [payload] := by simp [ne]
        rw [List.filter_append, kept, ← List.append_assoc]
        exact sound.sublist.append (List.Sublist.refl _)
      · rw [isFull, decide_eq_true_eq, not_and, not_le] at full
        rw [List.length_append]
        exact full pos
      · rw [← List.append_assoc]
        congr 1
        exact sound.complete connected fun mem => none (List.mem_append_left _ mem)
    · next ended => exact sound.append (Bool.eq_false_iff.mpr ended) [payload]

theorem turn (sound : h.Sound maxsize payloads) : h.turn.Sound maxsize payloads := by
  rw [Handler.turn]
  split
  · next payload rest connected waits =>
    have sublist := sound.sublist
    rw [waits] at sublist
    have bounded (pos : 0 < maxsize) : rest.length ≤ maxsize := by
      have := sound.bounded pos
      rw [waits, List.length_cons] at this
      omega
    split
    · next same =>
      refine ⟨?_, bounded, fun still => ?_⟩
      · rwa [same, List.filter_cons_of_neg (by simp)] at sublist
      · cases still
    · next other =>
      refine ⟨?_, bounded, fun _ none => ?_⟩
      · rwa [List.filter_cons_of_pos (by simpa using other), List.append_cons] at sublist
      · have all := sound.complete connected (by
          rw [waits, List.mem_cons, not_or]
          exact ⟨Ne.symm other, none⟩)
        rwa [waits, List.append_cons] at all
  · exact sound

theorem step (sound : h.Sound maxsize payloads) (id : ℕ) (e : Event δ) :
    (h.step serializer maxsize id e).Sound maxsize (payloads ++ published serializer [e]) := by
  cases e with
  | connect =>
      rw [published, List.filterMap_cons_none rfl, List.filterMap_nil, List.append_nil]
      exact sound
  | publish event data =>
      rw [Handler.step]
      cases printed : serializer.dumps data with
      | none =>
          have silent : published serializer [.publish event data] = [] := by
            simp [published, printed]
          rw [silent, List.append_nil]
          exact sound
      | some text =>
          have one : published serializer [.publish event data] = [⟨event, text⟩] := by
            simp [published, printed]
          rw [one]
          exact sound.offer (published_ne printed)
  | turn i =>
      rw [published, List.filterMap_cons_none rfl, List.filterMap_nil, List.append_nil,
        Handler.step]
      split
      · exact sound.turn
      · exact sound
  | disconnect i =>
      rw [published, List.filterMap_cons_none rfl, List.filterMap_nil, List.append_nil,
        Handler.step]
      split
      · exact ⟨sound.sublist, sound.bounded, fun still => absurd still Bool.false_ne_true⟩
      · exact sound
  | closeAll =>
      rw [Handler.step]
      exact sound.drop _

theorem run (sound : h.Sound maxsize payloads) (id : ℕ) (events : List (Event δ)) :
    (Runs.run (Handler.step serializer maxsize id) h events).Sound maxsize
      (payloads ++ published serializer events) := by
  induction events generalizing h payloads with
  | nil => rwa [published, List.filterMap_nil, List.append_nil]
  | cons e events ih =>
      have one : (h.step serializer maxsize id e).Sound maxsize (payloads ++ published serializer [e]) :=
        sound.step id e
      have rest := ih one
      rwa [List.append_assoc, ← published_append] at rest

end Handler.Sound

/-- Whatever the hub and its handlers do, a client is sent events that were published since it
connected, each once and in order, and its queue keeps the bound.  As long as its handler is
subscribed and no sentinel waits in its queue, nothing is missing. -/
theorem no_silent_loss (serializer : Serializer δ) (maxsize : ℕ) (before events : List (Event δ)) :
    ∃ h, (after serializer maxsize (before ++ .connect :: events)).handlers.get?
        (after serializer maxsize before).made = some h ∧
      h.sent.Sublist (published serializer events) ∧
      (0 < maxsize → h.queue.length ≤ maxsize) ∧
      (h.connected = true → dropSentinel ∉ h.queue →
        h.sent ++ h.queue = published serializer events) := by
  have start : Handler.Sound maxsize [] {} :=
    ⟨List.Sublist.refl _, fun _ => Nat.zero_le _, fun _ _ => rfl⟩
  have sound : Handler.Sound maxsize ([] ++ published serializer events)
      (Runs.run (Handler.step serializer maxsize (after serializer maxsize before).made) {} events) :=
    start.run (after serializer maxsize before).made events
  rw [List.nil_append] at sound
  refine ⟨_, get?_after serializer before events, ?_, sound.bounded, sound.complete⟩
  exact (List.sublist_append_left _ _).trans sound.sublist

/-! ### The sentinel, when it is reached -/

/-- An event that takes nothing off the queue of a handler but by its own turn. -/
def Handler.Roomy (maxsize : ℕ) (h : Handler) : Event δ → Prop
  | .publish _ _ => isFull maxsize h.queue = false
  | .closeAll => False
  | _ => True

/-- How many turns a handler has. -/
def turns (id : ℕ) (events : List (Event δ)) : ℕ :=
  events.countP fun
    | .turn i => decide (i = id)
    | _ => false

namespace Handler

variable {h : Handler} {id : ℕ}

theorem connected_step (ended : h.connected = false) (e : Event δ) :
    (h.step serializer maxsize id e).connected = false := by
  have kept (f : List Payload → List Payload) : (h.onQueue f).connected = false := by
    rw [onQueue, if_neg (Bool.eq_false_iff.mp ended)]
    exact ended
  cases e with
  | connect => exact ended
  | publish event data =>
      rw [step]
      split
      · exact ended
      · exact kept _
  | turn i =>
      rw [step]
      split
      · rw [turn, ended]
        exact ended
      · exact ended
  | disconnect i =>
      rw [step]
      split
      · rfl
      · exact ended
  | closeAll => exact kept _

theorem connected_run (ended : h.connected = false) (events : List (Event δ)) :
    (run (step serializer maxsize id) h events).connected = false :=
  run_forall (fun h : Handler => h.connected = false) (fun _ e ended => connected_step ended e)
    ended events

variable (serializer id) in
/-- What an event does to the items in front of the sentinel, where there is room. -/
theorem step_front (connected : h.connected = true) {front rest : List Payload}
    (waits : h.queue = front ++ dropSentinel :: rest) (plain : dropSentinel ∉ front) {e : Event δ}
    (roomy : h.Roomy maxsize e) :
    (h.step serializer maxsize id e).connected = false ∨
      (h.step serializer maxsize id e).connected = true ∧
        ∃ front' rest', (h.step serializer maxsize id e).queue = front' ++ dropSentinel :: rest' ∧
          dropSentinel ∉ front' ∧ front'.length + turns id [e] ≤ front.length := by
  have unchanged (quiet : turns id [e] = 0) : h.connected = true ∧ ∃ front' rest',
      h.queue = front' ++ dropSentinel :: rest' ∧ dropSentinel ∉ front' ∧
        front'.length + turns id [e] ≤ front.length :=
    ⟨connected, front, rest, waits, plain, by rw [quiet, Nat.add_zero]⟩
  cases e with
  | connect => exact .inr (unchanged rfl)
  | publish event data =>
      rw [step]
      cases serializer.dumps data with
      | none => exact .inr (unchanged rfl)
      | some text =>
          have room : isFull maxsize h.queue = false := roomy
          have put : h.onQueue (offer maxsize ⟨event, text⟩) =
              { h with queue := h.queue ++ [⟨event, text⟩] } := by
            rw [onQueue, if_pos connected, offer, room, if_neg Bool.false_ne_true]
          simp only [put]
          refine .inr ⟨connected, front, rest ++ [⟨event, text⟩], ?_, plain, le_rfl⟩
          rw [waits, List.append_assoc, List.cons_append]
  | turn i =>
      rw [step]
      by_cases mine : i = id
      · rw [if_pos mine, turn, connected, waits]
        cases front with
        | nil => exact .inl (by rw [List.nil_append]; simp)
        | cons payload front =>
            rw [List.mem_cons, not_or] at plain
            refine .inr ?_
            simp only [List.cons_append, if_neg (Ne.symm plain.1)]
            refine ⟨trivial, front, rest, rfl, plain.2, ?_⟩
            have one : turns id [Event.turn (δ := δ) i] = 1 := by simp [turns, mine]
            rw [one, List.length_cons]
      · rw [if_neg mine]
        exact .inr (unchanged (by simp [turns, mine]))
  | disconnect i =>
      rw [step]
      split
      · exact .inl rfl
      · exact .inr (unchanged rfl)
  | closeAll => exact roomy.elim

theorem closes (connected : h.connected = true) {front rest : List Payload}
    (waits : h.queue = front ++ dropSentinel :: rest) (plain : dropSentinel ∉ front)
    {events : List (Event δ)}
    (roomy : Along (step serializer maxsize id) (Roomy maxsize) h events)
    (long : front.length < turns id events) :
    (run (step serializer maxsize id) h events).connected = false := by
  induction events generalizing h front rest with
  | nil => exact absurd long (Nat.not_lt_zero _)
  | cons e events ih =>
      have split : turns id (e :: events) = turns id [e] + turns id events := by
        rw [← List.singleton_append]
        exact List.countP_append
      rw [run_cons]
      rcases step_front serializer id connected waits plain roomy.1 with
        ended | ⟨still, front', rest', waits', plain', shorter⟩
      · exact connected_run ended events
      · refine ih still waits' plain' roomy.2 ?_
        rw [split] at long
        omega

end Handler

/-- A handler whose queue has a sentinel behind some items, and is not met full by an event from there
on, has ended when it has had a turn for each of the items and one more. -/
theorem closes_of_roomy (serializer : Serializer δ) {s : State} {id : ℕ} {h : Handler}
    (found : s.handlers.get? id = some h) (old : id < s.made) (connected : h.connected = true)
    {front rest : List Payload} (waits : h.queue = front ++ dropSentinel :: rest)
    (plain : dropSentinel ∉ front) (events : List (Event δ))
    (roomy : Along (State.step serializer)
      (fun s e => ∀ h ∈ s.handlers.get? id, h.Roomy s.maxsize e) s events)
    (long : front.length < turns id events) :
    ∃ h', (run (State.step serializer) s events).handlers.get? id = some h' ∧
      h'.connected = false := by
  refine ⟨_, get?_run serializer found old events,
    Handler.closes connected waits plain ?_ long⟩
  clear long waits plain connected
  induction events generalizing s h with
  | nil => trivial
  | cons e events ih =>
      have next := get?_step serializer found old e
      have rest := ih next (old.trans_le (le_made_step serializer s e)) roomy.2
      rw [maxsize_step] at rest
      exact ⟨roomy.1 h found, rest⟩

/-- Every event has an empty object for its data. -/
def emptyData : Serializer Unit where
  dumps _ := some "{}"
  nonempty _ text printed := by
    rw [← Option.some.inj printed]
    decide

theorem closes_of_roomy_two :
    ∃ h', (run (State.step emptyData)
        { maxsize := 2, handlers := Dict.set ∅ 0 { queue := [⟨"a", "{}"⟩, dropSentinel] }, made := 1 }
        [.turn 0, .publish "b" (), .turn 0]).handlers.get? 0 = some h' ∧ h'.connected = false := by
  have waits : ([⟨"a", "{}"⟩, dropSentinel] : List Payload) = [⟨"a", "{}"⟩] ++ dropSentinel :: [] := rfl
  refine closes_of_roomy emptyData (h := { queue := [⟨"a", "{}"⟩, dropSentinel] })
    (Dict.get?_set_self _ _ _) Nat.zero_lt_one rfl waits (by decide) _
    ⟨fun _ _ => trivial, fun h found => ?_, fun _ _ => trivial, trivial⟩ (by decide)
  have taken := get?_step emptyData (s := { maxsize := 2, made := 1
                                            handlers := Dict.set ∅ 0
                                              { queue := [⟨"a", "{}"⟩, dropSentinel] } })
    (Dict.get?_set_self _ _ _) Nat.zero_lt_one (.turn 0)
  rw [← Option.some.inj (taken.symm.trans found)]
  rfl

/-! ### The sentinel, when it is not reached -/

/-- The first item of a list, the third, and so on. -/
def everySecond {α : Type*} : List α → List α
  | [] => []
  | [a] => [a]
  | a :: _ :: rest => a :: everySecond rest

theorem everySecond_append {α : Type*} {front : List α} (even : Even front.length)
    (rest : List α) : everySecond (front ++ rest) = everySecond front ++ everySecond rest := by
  induction front using everySecond.induct with
  | case1 => rfl
  | case2 a => exact absurd even Nat.not_even_one
  | case3 a b front ih =>
      have shorter : Even front.length := by
        rw [List.length_cons, List.length_cons] at even
        exact (Nat.even_add (n := 2).mp even).mpr even_two
      rw [List.cons_append, List.cons_append, everySecond, everySecond, ih shorter,
        List.cons_append]

theorem everySecond_sublist {α : Type*} (front : List α) : (everySecond front).Sublist front := by
  induction front using everySecond.induct with
  | case1 | case2 a => exact List.Sublist.refl _
  | case3 a b front ih => exact (ih.cons b).cons_cons a

/-- Events with their data. -/
def publishes (items : List (String × δ)) : List (Event δ) :=
  items.map fun item => .publish item.1 item.2

/-- A turn of a handler before every two events. -/
def halfRate (id : ℕ) (pairs : List ((String × δ) × (String × δ))) : List (Event δ) :=
  pairs.flatMap fun pair => .turn id :: publishes [pair.1, pair.2]

/-- A handler that has sent `n` events, every second one, has every second one to send, and a full
queue. -/
structure Handler.Starving (maxsize n : ℕ) (payloads : List Payload) (h : Handler) : Prop where
  connected : h.connected = true
  sent : h.sent.length = n
  full : h.queue.length = maxsize
  half : h.sent ++ everySecond h.queue = everySecond payloads
  even : Even payloads.length
  plain : dropSentinel ∉ payloads

namespace Handler.Starving

variable {n : ℕ} {payloads : List Payload} {h : Handler}

/-- An event and a turn make room for the next event; the one after that drops the oldest item. -/
theorem window (starving : h.Starving maxsize n payloads) (even : Even maxsize) (pos : 0 < maxsize)
    (id : ℕ) {pair : (String × δ) × (String × δ)} {text text' : String}
    (printed : serializer.dumps pair.1.2 = some text)
    (printed' : serializer.dumps pair.2.2 = some text') :
    (run (Handler.step serializer maxsize id) h (halfRate id [pair])).Starving maxsize (n + 1)
      (payloads ++ published serializer (halfRate id [pair])) := by
  obtain ⟨connected, sent, full, half, evenly, plain⟩ := starving
  have two : published serializer (halfRate id [pair]) =
      [⟨pair.1.1, text⟩, ⟨pair.2.1, text'⟩] := by
    simp [published, halfRate, publishes, printed, printed']
  match queue : h.queue with
  | [] =>
      rw [queue, List.length_nil] at full
      omega
  | [item] =>
      rw [queue, List.length_singleton] at full
      subst full
      exact absurd even (by decide)
  | item :: oldest :: rest =>
      rw [queue, List.length_cons, List.length_cons] at full
      rw [queue, everySecond] at half
      have other : item ≠ dropSentinel := by
        rintro rfl
        refine plain ((everySecond_sublist payloads).subset ?_)
        rw [← half]
        exact List.mem_append_right _ List.mem_cons_self
      have course : run (Handler.step serializer maxsize id) h (halfRate id [pair]) =
          { h with
            sent := h.sent ++ [item]
            queue := rest ++ [⟨pair.1.1, text⟩, dropSentinel] } := by
        have roomy : isFull maxsize (oldest :: rest) = false := by
          rw [isFull, decide_eq_false_iff_not, List.length_cons]
          omega
        have met : isFull maxsize (oldest :: rest ++ [⟨pair.1.1, text⟩]) = true := by
          rw [isFull, decide_eq_true_eq, List.length_append, List.length_cons,
            List.length_singleton]
          omega
        have left : isFull maxsize (rest ++ [⟨pair.1.1, text⟩]) = false := by
          rw [isFull, decide_eq_false_iff_not, List.length_append, List.length_singleton]
          omega
        have taken : h.turn = { h with queue := oldest :: rest, sent := h.sent ++ [item] } := by
          rw [turn, connected, queue]
          exact if_neg other
        simp only [halfRate, publishes, List.flatMap_cons, List.flatMap_nil, List.map_cons,
          List.map_nil, List.append_nil, run_cons, run_nil, Handler.step, if_true, taken, printed,
          printed', onQueue, connected, offer, roomy, Bool.false_eq_true, if_false]
        rw [if_pos met, drop, List.cons_append, List.tail_cons, left, if_neg Bool.false_ne_true,
          List.append_assoc]
        rfl
      rw [course, two]
      have shorter : Even rest.length := by
        rw [← full] at even
        exact (Nat.even_add (n := 2).mp even).mpr even_two
      refine ⟨connected, ?_, ?_, ?_, ?_, ?_⟩
      · rw [List.length_append, sent, List.length_singleton]
      · rw [List.length_append]
        exact full
      · rw [everySecond_append shorter, everySecond_append evenly, ← half]
        simp [everySecond]
      · rw [List.length_append]
        exact evenly.add even_two
      · rw [List.mem_append, not_or]
        refine ⟨plain, ?_⟩
        rw [List.mem_pair, not_or]
        exact ⟨(published_ne printed).symm, (published_ne printed').symm⟩

theorem windows (starving : h.Starving maxsize n payloads) (even : Even maxsize) (pos : 0 < maxsize)
    (id : ℕ) (pairs : List ((String × δ) × (String × δ)))
    (printed : ∀ pair ∈ pairs, (serializer.dumps pair.1.2).isSome = true ∧
      (serializer.dumps pair.2.2).isSome = true) :
    (run (Handler.step serializer maxsize id) h (halfRate id pairs)).Starving maxsize
      (n + pairs.length) (payloads ++ published serializer (halfRate id pairs)) := by
  induction pairs generalizing h n payloads with
  | nil => simpa [halfRate, published] using starving
  | cons pair pairs ih =>
      rw [List.forall_mem_cons] at printed
      obtain ⟨text, first⟩ := Option.isSome_iff_exists.mp printed.1.1
      obtain ⟨text', second⟩ := Option.isSome_iff_exists.mp printed.1.2
      have split : halfRate id (pair :: pairs) = halfRate id [pair] ++ halfRate id pairs := by
        simp [halfRate]
      rw [split, run_append, published_append, ← List.append_assoc, List.length_cons,
        Nat.add_comm pairs.length 1, ← Nat.add_assoc]
      exact ih (starving.window even pos id first second) printed.2

end Handler.Starving

variable (serializer) in
/-- Events that a queue has room for wait in it. -/
theorem Handler.run_publishes {h : Handler} (connected : h.connected = true) (id : ℕ)
    (items : List (String × δ))
    (printed : ∀ item ∈ items, (serializer.dumps item.2).isSome = true)
    (room : h.queue.length + items.length ≤ maxsize) :
    run (Handler.step serializer maxsize id) h (publishes items) =
        { h with queue := h.queue ++ published serializer (publishes items) } ∧
      (published serializer (publishes items)).length = items.length := by
  induction items generalizing h with
  | nil => exact ⟨by simp [publishes, published], rfl⟩
  | cons item items ih =>
      rw [List.forall_mem_cons] at printed
      obtain ⟨text, first⟩ := Option.isSome_iff_exists.mp printed.1
      have one : published serializer (publishes (item :: items)) =
          ⟨item.1, text⟩ :: published serializer (publishes items) := by
        simp [published, publishes, first]
      rw [List.length_cons] at room
      have roomy : isFull maxsize h.queue = false := by
        rw [isFull, decide_eq_false_iff_not]
        omega
      have put : h.step serializer maxsize id (.publish item.1 item.2) =
          { h with queue := h.queue ++ [⟨item.1, text⟩] } := by
        simp only [step, first, onQueue, connected, if_true, offer, roomy, Bool.false_eq_true,
          if_false]
      have room' : (h.queue ++ [(⟨item.1, text⟩ : Payload)]).length + items.length ≤ maxsize := by
        rw [List.length_append, List.length_singleton]
        omega
      obtain ⟨rest, length⟩ :=
        ih (h := { h with queue := h.queue ++ [⟨item.1, text⟩] }) connected printed.2 room'
      refine ⟨?_, ?_⟩
      · have first_step : publishes (item :: items) =
            .publish item.1 item.2 :: publishes items := rfl
        rw [first_step, run_cons, put, rest, ← first_step, one]
        simp
      · rw [one, List.length_cons, length, List.length_cons]

/-- With an even bound, a handler that gets a turn for every two events once its queue is full is
never ended: it has sent every second event, one for each turn, and has the next ones to send. -/
theorem starved (serializer : Serializer δ) (even : Even maxsize) (pos : 0 < maxsize)
    (before : List (Event δ)) (first : List (String × δ)) (fills : first.length = maxsize)
    (pairs : List ((String × δ) × (String × δ)))
    (printed : ∀ item ∈ first, (serializer.dumps item.2).isSome = true)
    (printed' : ∀ pair ∈ pairs, (serializer.dumps pair.1.2).isSome = true ∧
      (serializer.dumps pair.2.2).isSome = true) :
    ∃ h, (after serializer maxsize (before ++ .connect :: (publishes first ++
          halfRate (after serializer maxsize before).made pairs))).handlers.get?
        (after serializer maxsize before).made = some h ∧
      h.connected = true ∧ h.sent.length = pairs.length ∧
      h.sent ++ everySecond h.queue = everySecond (published serializer (publishes first ++
        halfRate (after serializer maxsize before).made pairs)) := by
  refine ⟨_, get?_after serializer before _, ?_⟩
  generalize (after serializer maxsize before).made = id
  obtain ⟨filled, length⟩ := Handler.run_publishes serializer (h := {}) rfl id first
    printed (by rw [List.length_nil, fills, Nat.zero_add])
  rw [List.nil_append] at filled
  have start : Handler.Starving maxsize 0 (published serializer (publishes first))
      { queue := published serializer (publishes first) } := by
    refine ⟨rfl, rfl, length.trans fills, rfl, ?_, ?_⟩
    · rwa [length, fills]
    · intro mem
      obtain ⟨e, -, found⟩ := List.mem_filterMap.mp mem
      cases e with
      | publish event data =>
          obtain ⟨text, print, same⟩ := Option.map_eq_some_iff.mp found
          exact published_ne print same
      | _ => cases found
  have starving := start.windows even pos id pairs printed'
  rw [run_append, filled, published_append]
  rw [Nat.zero_add] at starving
  exact ⟨starving.connected, starving.sent, starving.half⟩

theorem starved_two :
    ∃ h, (after emptyData 2 ([] ++ .connect :: (publishes [("a", ()), ("b", ())] ++
        halfRate (after emptyData 2 []).made [(("c", ()), ("d", ()))]))).handlers.get?
        (after emptyData 2 []).made = some h ∧
      h.connected = true ∧ h.sent.length = 1 ∧
      h.sent ++ everySecond h.queue = everySecond (published emptyData
        (publishes [("a", ()), ("b", ())] ++
          halfRate (after emptyData 2 []).made [(("c", ()), ("d", ()))])) :=
  starved emptyData even_two Nat.zero_lt_two [] [("a", ()), ("b", ())] rfl
    [(("c", ()), ("d", ()))] (fun _ _ => rfl) (fun _ _ => ⟨rfl, rfl⟩)

end SSEHub

end Roadstead
