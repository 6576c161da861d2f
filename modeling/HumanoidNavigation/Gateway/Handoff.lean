import HumanoidNavigation.Gateway.Bridge
import HumanoidNavigation.Transition.Mailbox
import HumanoidNavigation.Transition.Run

/-!
# The hand-off to the SDK process

The gateway process puts velocities into `command_queue` with `_put_latest`, which first drains
the queue. `sdk_worker` is a process of its own that takes them out, also draining the queue, and
passes them to `SetVelocity`. The two interleave at every single operation on the queue, on the
stop event and on the SDK, so each of these is an event of its own here. The program counters
`Producer` and `Worker` say where each process stands.

The queue is first in, first out with `maxsize=2`, and `get_nowait` raises `Empty` only when it is
empty. A `get` with a timeout may give up at any time, a process may read any time off its clock,
and an exception may end the loop of the worker at any point.
-/

namespace Gateway.Handoff

open Transition

/-! ### The queue -/

/-- `command_queue.get_nowait()`, where `none` is `queue.Empty`. -/
def getNowait : List Velocity → Option (Velocity × List Velocity)
  | [] => none
  | item :: queue => some (item, queue)

/-- `command_queue.put_nowait(item)`, where `none` is `queue.Full`. -/
def putNowait (queue : List Velocity) (item : Velocity) : Option (List Velocity) :=
  if queue.length < 2 then some (queue ++ [item]) else none

/-! ### The two processes -/

/-- The gateway process. `closing` marks the `_put_latest` of the shutdown. -/
inductive Producer where
  | spinning
  /-- in the loop of `_put_latest` -/
  | draining (item : Velocity) (closing : Bool)
  /-- the loop of `_put_latest` saw `Empty` -/
  | putting (item : Velocity) (closing : Bool)
  /-- about to set the stop event -/
  | stopping
  | ended
  deriving DecidableEq

/-- The SDK process. -/
inductive Worker where
  /-- before the loop -/
  | starting
  /-- at the head of the loop -/
  | checking
  /-- in `command_queue.get(timeout=SDK_QUEUE_TIMEOUT_S)` -/
  | waiting
  /-- in the inner loop -/
  | draining (item : Velocity)
  /-- before the comparison with `CMD_TIMEOUT_S` -/
  | expiring (v : Velocity)
  /-- before `SetVelocity` -/
  | sending (v : Velocity)
  /-- in the `finally` clause, with so many calls left -/
  | cleanup (left : ℕ)
  | done
  deriving DecidableEq

/-- What the worker took out of the queue and has not passed on. -/
def Worker.held : Worker → Option Velocity
  | .draining item => some item
  | .expiring v | .sending v => some v
  | .starting | .checking | .waiting | .cleanup _ | .done => none

/-- Has the loop of the worker ended? -/
def Worker.Exited : Worker → Prop
  | .cleanup _ | .done => True
  | .starting | .checking | .waiting | .draining _ | .expiring _ | .sending _ => False

inductive Event where
  /-- `Bridge.tick` calls `_put_latest` -/
  | tick (item : Velocity)
  /-- `main` leaves `rclpy.spin` and calls `_put_latest` with zero -/
  | shutdown
  /-- one `get_nowait` of `_put_latest` -/
  | producerGet
  /-- the `put_nowait` of `_put_latest` -/
  | producerPut
  /-- `stop_event.set()` -/
  | setStop
  /-- `sdk_process.terminate()` -/
  | terminate
  /-- the SDK is ready -/
  | ready (now : ℚ)
  /-- `stop_event.is_set()` -/
  | loopCheck
  /-- `get` returns an item -/
  | getItem
  /-- `get` raises `Empty` -/
  | getTimeout
  /-- one `get_nowait` of the inner loop -/
  | drainGet (now : ℚ)
  /-- the comparison with `CMD_TIMEOUT_S` -/
  | expire (now : ℚ)
  /-- `SetVelocity` in the loop, which may raise -/
  | setVelocity (raises : Bool)
  /-- any other exception inside the `try` of the worker -/
  | raise
  /-- `SetVelocity(0.0, 0.0, 0.0, …)` in the `finally` clause -/
  | cleanupCall
  deriving DecidableEq

/-- Both processes and the queue between them. `ticked` lists the velocities that the
`_put_latest` of a tick has put, `sent` those that were passed to `SetVelocity`. -/
structure World where
  queue : List Velocity
  producer : Producer
  worker : Worker
  stopEvent : Bool
  lastRx : ℚ
  ticked : List Velocity
  sent : List Velocity
  deriving DecidableEq

namespace World

def init : World := ⟨[], .spinning, .starting, false, 0, [], []⟩

/-- The call of `_put_latest` begins. -/
def putLatest (w : World) (item : Velocity) (closing : Bool) : World :=
  { w with producer := .draining item closing }

/-- A `get_nowait` of `_put_latest`: drop an item, or leave the loop. -/
def producerGet (w : World) (item : Velocity) (closing : Bool) : World :=
  match getNowait w.queue with
  | some (_, queue) => { w with queue := queue }
  | none => { w with producer := .putting item closing }

/-- The `put_nowait` of `_put_latest`; `queue.Full` is ignored. -/
def producerPut (w : World) (item : Velocity) (closing : Bool) : World :=
  { w with
    queue := (putNowait w.queue item).getD w.queue
    producer := if closing then .stopping else .spinning
    ticked := if closing then w.ticked else w.ticked ++ [item] }

/-- A `get_nowait` of the inner loop of the worker: take a newer item, or leave the loop. -/
def drainGet (w : World) (item : Velocity) (now : ℚ) : World :=
  match getNowait w.queue with
  | some (item, queue) => { w with queue := queue, worker := .draining item }
  | none => { w with worker := .expiring item, lastRx := now }

/-- The comparison of the age of the last item with `CMD_TIMEOUT_S`. -/
def expire (w : World) (v : Velocity) (now : ℚ) : World :=
  { w with worker := .sending (if now - w.lastRx > cmdTimeoutS then 0 else v) }

/-- A call of `SetVelocity`. -/
def setVelocity (w : World) (v : Velocity) (next : Worker) : World :=
  { w with worker := next, sent := w.sent ++ [v] }

/-- `none` when the process is not at that point. -/
def step (w : World) : Event → Option World
  | .tick item =>
    match w.producer with
    | .spinning => some (w.putLatest item false)
    | _ => none
  | .shutdown =>
    match w.producer with
    | .spinning => some (w.putLatest 0 true)
    | _ => none
  | .producerGet =>
    match w.producer with
    | .draining item closing => some (w.producerGet item closing)
    | _ => none
  | .producerPut =>
    match w.producer with
    | .putting item closing => some (w.producerPut item closing)
    | _ => none
  | .setStop =>
    match w.producer with
    | .stopping => some { w with producer := .ended, stopEvent := true }
    | _ => none
  | .terminate =>
    match w.producer with
    | .ended => some { w with worker := .done }
    | _ => none
  | .ready now =>
    match w.worker with
    | .starting => some { w with worker := .checking, lastRx := now }
    | _ => none
  | .loopCheck =>
    match w.worker with
    | .checking => some { w with worker := if w.stopEvent then .cleanup 5 else .waiting }
    | _ => none
  | .getItem =>
    match w.worker, getNowait w.queue with
    | .waiting, some (item, queue) => some { w with queue := queue, worker := .draining item }
    | _, _ => none
  | .getTimeout =>
    match w.worker with
    | .waiting => some { w with worker := .expiring 0 }
    | _ => none
  | .drainGet now =>
    match w.worker with
    | .draining item => some (w.drainGet item now)
    | _ => none
  | .expire now =>
    match w.worker with
    | .expiring v => some (w.expire v now)
    | _ => none
  | .setVelocity raises =>
    match w.worker with
    | .sending v => some (w.setVelocity v (if raises then .cleanup 5 else .checking))
    | _ => none
  | .raise =>
    match w.worker with
    | .starting | .cleanup _ | .done => none
    | _ => some { w with worker := .cleanup 5 }
  | .cleanupCall =>
    match w.worker with
    | .cleanup (left + 1) => some (w.setVelocity 0 (.cleanup left))
    | _ => none

/-! ### The mailbox -/

variable {w w' t : World} {e : Event} {es : List Event} {item : Velocity} {closing : Bool}

/-- The queue and the velocity that the worker has taken out, as a mailbox. -/
def mailbox (w : World) : Mailbox Velocity := ⟨w.queue, w.worker.held, w.sent⟩

/-- The queue is empty when the loop of `_put_latest` has seen `Empty`, and the `_put_latest` of
the shutdown is about zero. -/
def Inv (w : World) : Prop :=
  match w.producer with
  | .draining item closing => closing = true → item = 0
  | .putting item closing => w.queue = [] ∧ (closing = true → item = 0)
  | .spinning | .stopping | .ended => True

/-- A step of the worker leaves the producer alone and only takes items out of the queue. -/
lemma Inv.of_worker (h : Inv w) (hproducer : w'.producer = w.producer)
    (hqueue : w.queue = [] → w'.queue = []) : Inv w' := by
  simp only [Inv, hproducer] at h ⊢
  split at h
  · exact h
  · exact ⟨hqueue h.1, h.2⟩
  · trivial
  · trivial
  · trivial

/-- What a step does to the mailbox. The velocities that ticks have put are, up to zeros, the
items that the mailbox got. -/
structure Acts (w w' : World) (action : Mailbox.Action Velocity) : Prop where
  inv : Inv w'
  mailbox : w.mailbox.apply action = some w'.mailbox
  ticked : Mailbox.motion w'.ticked = Mailbox.motion w.ticked ++ action.motion

lemma acts_producerGet (h : Inv w) (hp : w.producer = .draining item closing) :
    ∃ action, Acts w (w.producerGet item closing) action ∧ action.motion = [] := by
  simp only [Inv, hp] at h
  cases hq : w.queue with
  | nil =>
    refine ⟨.idle, ⟨?_, ?_, ?_⟩, rfl⟩
    · simpa [Inv, producerGet, getNowait, hq] using h
    · simp [producerGet, getNowait, hq, Mailbox.apply, World.mailbox]
    · simp [producerGet, getNowait, hq, Mailbox.Action.motion]
  | cons a q =>
    refine ⟨.discard, ⟨?_, ?_, ?_⟩, rfl⟩
    · simpa [Inv, producerGet, getNowait, hq, hp] using h
    · simp [producerGet, getNowait, hq, Mailbox.apply, World.mailbox]
    · simp [producerGet, getNowait, hq, Mailbox.Action.motion]

lemma producerPut_queue (h : Inv w) (hp : w.producer = .putting item closing) :
    (w.producerPut item closing).queue = [item] := by
  simp only [Inv, hp] at h
  simp [producerPut, putNowait, h.1]

lemma acts_producerPut (h : Inv w) (hp : w.producer = .putting item closing) :
    Acts w (w.producerPut item closing) (.put item) := by
  have hqueue := producerPut_queue h hp
  simp only [Inv, hp] at h
  refine ⟨?_, ?_, ?_⟩
  · cases closing <;> simp [Inv, producerPut]
  · simp only [Mailbox.apply, World.mailbox, h.1, if_true, hqueue]
    rfl
  · cases closing with
    | false => exact Mailbox.motion_append _ _
    | true =>
      rw [h.2 rfl]
      simp [producerPut, Mailbox.Action.motion]

lemma acts_drainGet (h : Inv w) (hworker : w.worker = .draining item) (now : ℚ) :
    ∃ action, Acts w (w.drainGet item now) action ∧ action.motion = [] := by
  cases hq : w.queue with
  | nil =>
    refine ⟨.idle, ⟨h.of_worker ?_ ?_, ?_, ?_⟩, rfl⟩
    · simp [drainGet, getNowait, hq]
    · simp [drainGet, getNowait, hq]
    · simp [drainGet, getNowait, hq, Mailbox.apply, World.mailbox, hworker, Worker.held]
    · simp [drainGet, getNowait, hq, Mailbox.Action.motion]
  | cons a q =>
    refine ⟨.take, ⟨h.of_worker ?_ ?_, ?_, ?_⟩, rfl⟩
    · simp [drainGet, getNowait, hq]
    · simp [hq]
    · simp [drainGet, getNowait, hq, Mailbox.apply, World.mailbox, Worker.held]
    · simp [drainGet, getNowait, hq, Mailbox.Action.motion]

/-- A step of the worker that does not touch the queue. -/
lemma acts_of_worker {action : Mailbox.Action Velocity} (h : Inv w)
    (hproducer : w'.producer = w.producer) (hqueue : w'.queue = w.queue)
    (hticked : w'.ticked = w.ticked) (hmotion : action.motion = [])
    (hmailbox : w.mailbox.apply action = some w'.mailbox) :
    ∃ action, Acts w w' action ∧ action.motion = [] := by
  refine ⟨action, ⟨h.of_worker hproducer fun hq => hqueue.trans hq, hmailbox, ?_⟩, hmotion⟩
  rw [hticked, hmotion, List.append_nil]

/-- A step of the producer that only moves its program counter. -/
lemma acts_of_producer (hinv : Inv w') (hmailbox : w'.mailbox = w.mailbox)
    (hticked : w'.ticked = w.ticked) : ∃ action, Acts w w' action ∧ action.motion = [] :=
  ⟨.idle, ⟨hinv, by rw [hmailbox]; rfl, by simp [hticked, Mailbox.Action.motion]⟩, rfl⟩

/-- Every step but the `put_nowait` of `_put_latest` brings no item into the mailbox. -/
lemma acts_of_step (h : Inv w) (he : w.step e = some w') (hput : e ≠ .producerPut) :
    ∃ action, Acts w w' action ∧ action.motion = [] := by
  cases e with
  | tick item | shutdown =>
    simp only [step] at he
    split at he
    · obtain rfl := Option.some.inj he
      exact acts_of_producer (by simp [Inv, putLatest]) rfl rfl
    · cases he
  | producerGet =>
    simp only [step] at he
    split at he
    · next hp =>
      obtain rfl := Option.some.inj he
      exact acts_producerGet h hp
    · cases he
  | producerPut => exact absurd rfl hput
  | setStop =>
    simp only [step] at he
    split at he
    · obtain rfl := Option.some.inj he
      exact acts_of_producer (by simp [Inv]) rfl rfl
    · cases he
  | terminate =>
    simp only [step] at he
    split at he
    · obtain rfl := Option.some.inj he
      exact @acts_of_worker w _ .drop h rfl rfl rfl rfl rfl
    · cases he
  | ready now =>
    simp only [step] at he
    split at he
    · next hw =>
      obtain rfl := Option.some.inj he
      refine @acts_of_worker w _ .idle h rfl rfl rfl rfl ?_
      simp [Mailbox.apply, mailbox, Worker.held, hw]
    · cases he
  | loopCheck =>
    simp only [step] at he
    split at he
    · next hw =>
      obtain rfl := Option.some.inj he
      refine @acts_of_worker w _ .idle h rfl rfl rfl rfl ?_
      cases hstop : w.stopEvent <;> simp [Mailbox.apply, mailbox, Worker.held, hw]
    · cases he
  | getItem =>
    simp only [step] at he
    split at he
    · next item queue hw hq =>
      obtain rfl := Option.some.inj he
      obtain hq : w.queue = item :: queue := by
        cases hwq : w.queue with
        | nil => simp [hwq, getNowait] at hq
        | cons a q => simpa [hwq, getNowait] using hq
      refine ⟨.take, ⟨h.of_worker rfl (by simp [hq]), ?_, ?_⟩, rfl⟩
      · simp [Mailbox.apply, mailbox, Worker.held, hq]
      · simp [Mailbox.Action.motion]
    · cases he
  | getTimeout =>
    simp only [step] at he
    split at he
    · obtain rfl := Option.some.inj he
      exact @acts_of_worker w _ .expire h rfl rfl rfl rfl rfl
    · cases he
  | drainGet now =>
    simp only [step] at he
    split at he
    · next hw =>
      obtain rfl := Option.some.inj he
      exact acts_drainGet h hw now
    · cases he
  | expire now =>
    simp only [step] at he
    split at he
    · next v hw =>
      obtain rfl := Option.some.inj he
      by_cases hold : now - w.lastRx > cmdTimeoutS
      · refine @acts_of_worker w _ .expire h rfl rfl rfl rfl ?_
        simp [expire, hold, Mailbox.apply, mailbox, Worker.held]
      · refine @acts_of_worker w _ .idle h rfl rfl rfl rfl ?_
        simp [expire, hold, Mailbox.apply, mailbox, Worker.held, hw]
    · cases he
  | setVelocity raises =>
    simp only [step] at he
    split at he
    · next v hw =>
      obtain rfl := Option.some.inj he
      refine @acts_of_worker w _ .send h rfl rfl rfl rfl ?_
      cases raises <;> simp [setVelocity, Mailbox.apply, mailbox, Worker.held, hw]
    · cases he
  | raise =>
    simp only [step] at he
    split at he
    · cases he
    · cases he
    · cases he
    · obtain rfl := Option.some.inj he
      exact @acts_of_worker w _ .drop h rfl rfl rfl rfl rfl
  | cleanupCall =>
    simp only [step] at he
    split at he
    · next hw =>
      obtain rfl := Option.some.inj he
      exact @acts_of_worker w _ .sendZero h rfl rfl rfl rfl rfl
    · cases he

lemma step_producerPut (he : w.step .producerPut = some w') :
    ∃ item closing, w.producer = .putting item closing ∧ w' = w.producerPut item closing := by
  simp only [step] at he
  split at he
  · next item closing hp => exact ⟨item, closing, hp, (Option.some.inj he).symm⟩
  · cases he

/-- Once the loop of the worker has ended, it does not begin again, and only zero is sent. -/
lemma exited_of_step (h : w.worker.Exited) (he : w.step e = some w') :
    w'.worker.Exited ∧ ∃ n, w'.sent = w.sent ++ List.replicate n 0 := by
  have hkeep : w'.worker = w.worker → w'.sent = w.sent →
      w'.worker.Exited ∧ ∃ n, w'.sent = w.sent ++ List.replicate n 0 := by
    intro hworker hsent
    exact ⟨hworker ▸ h, 0, by simp [hsent]⟩
  cases e with
  | tick item | shutdown | setStop =>
    simp only [step] at he
    split at he
    · obtain rfl := Option.some.inj he
      exact hkeep rfl rfl
    · cases he
  | producerGet =>
    simp only [step] at he
    split at he
    · obtain rfl := Option.some.inj he
      refine hkeep ?_ ?_ <;> simp only [producerGet] <;> split <;> rfl
    · cases he
  | producerPut =>
    obtain ⟨item, closing, -, rfl⟩ := step_producerPut he
    exact hkeep rfl rfl
  | terminate =>
    simp only [step] at he
    split at he
    · obtain rfl := Option.some.inj he
      exact ⟨trivial, 0, by simp⟩
    · cases he
  | cleanupCall =>
    simp only [step] at he
    split at he
    · obtain rfl := Option.some.inj he
      exact ⟨trivial, 1, rfl⟩
    · cases he
  | ready | loopCheck | getItem | getTimeout | drainGet | expire | setVelocity | raise =>
    simp only [step] at he
    cases hw : w.worker <;> simp [hw, Worker.Exited] at he h

/-! ### Runs -/

/-- What holds after every run: a nonzero velocity was put by a tick, and none is repeated or
reordered on its way. -/
lemma ordered_of_run (hrun : Run step init es w) :
    Inv w ∧ Mailbox.Ordered (Mailbox.motion w.ticked) w.mailbox := by
  refine hrun.invariant_state (I := fun w => Inv w ∧
    Mailbox.Ordered (Mailbox.motion w.ticked) w.mailbox) ?_ ?_
  · exact ⟨by simp [Inv, init], by simp [Mailbox.Ordered, Mailbox.all, mailbox, init, Worker.held]⟩
  rintro s e t ⟨hinv, hordered⟩ he
  have hacts : ∃ action, Acts s t action := by
    by_cases hput : e = .producerPut
    · subst hput
      obtain ⟨item, closing, hp, rfl⟩ := step_producerPut he
      exact ⟨_, acts_producerPut hinv hp⟩
    · obtain ⟨action, hacts, -⟩ := acts_of_step hinv he hput
      exact ⟨action, hacts⟩
  obtain ⟨action, hinv', hmailbox, hticked⟩ := hacts
  refine ⟨hinv', ?_⟩
  rw [hticked]
  exact hordered.apply hmailbox

/-- The producer is about to put zero. -/
def PutsZero (w : World) : Prop := ∃ closing, w.producer = .putting 0 closing

/-- A step that does not put a nonzero velocity. -/
def Quiet (w : World) (e : Event) : Prop := e = .producerPut → w.PutsZero

/-- While only zeros are put, at most what the worker held is sent. -/
lemma quenched_of_run {base : Mailbox Velocity} (hrun : Run step w es w') (hinv : Inv w)
    (hbase : Mailbox.Quenched base w.mailbox) (hquiet : Always step w Quiet es) :
    Mailbox.Quenched base w'.mailbox := by
  have h := hrun.invariant (P := Quiet)
    (I := fun _ s => Inv s ∧ Mailbox.Quenched base s.mailbox) ⟨hinv, hbase⟩ ?_ hquiet
  · exact h.2
  rintro fs s e t - hq ⟨hinv, hbase⟩ he
  by_cases hput : e = .producerPut
  · obtain ⟨closing, hp⟩ := hq hput
    subst hput
    obtain ⟨item, closing', hp', rfl⟩ := step_producerPut he
    obtain ⟨rfl, rfl⟩ : item = 0 ∧ closing' = closing := by simpa [hp] using hp'.symm
    have hacts := acts_producerPut hinv hp
    exact ⟨hacts.inv, hbase.apply hacts.mailbox Mailbox.motion_zero⟩
  · obtain ⟨action, hacts, hmotion⟩ := acts_of_step hinv he hput
    exact ⟨hacts.inv, hbase.apply hacts.mailbox hmotion⟩

lemma exited_of_run (hrun : Run step w es w') (h : w.worker.Exited) :
    w'.worker.Exited ∧ ∃ n, w'.sent = w.sent ++ List.replicate n 0 := by
  induction hrun with
  | nil => exact ⟨h, 0, by simp⟩
  | snoc hs he ih =>
    obtain ⟨hexited, n, hn⟩ := ih
    obtain ⟨hexited', k, hk⟩ := exited_of_step hexited he
    exact ⟨hexited', n + k, by rw [hk, hn, List.replicate_add, List.append_assoc]⟩

/-- In every interleaving of the two processes, each `_put_latest` leaves exactly its own pair in
the queue; the nonzero velocities passed to `SetVelocity` are some of those that ticks have put,
in the same order; from the time when zero is put and until a nonzero velocity is put again, at
most the one nonzero velocity is sent that the worker had taken out of the queue before; and
after the loop of the worker only zeros are sent. -/
theorem handoff (hrun : Run step init es w) :
    (∀ pre post s t, es = pre ++ .producerPut :: post → Run step init pre s →
      s.step .producerPut = some t → t.queue.length ≤ 1 ∧
        ∃ item closing, s.producer = .putting item closing ∧ t.queue = [item]) ∧
    (w.sent.filter fun v => v ≠ 0).Sublist w.ticked ∧
    (∀ pre post s t, es = pre ++ .producerPut :: post → Run step init pre s → s.PutsZero →
      s.step .producerPut = some t → Always step t Quiet post →
        ∃ later, w.sent = t.sent ++ later ∧ (later.filter fun v => v ≠ 0).length ≤ 1 ∧
          (later.filter fun v => v ≠ 0).Sublist s.worker.held.toList) ∧
    (∀ pre post s, es = pre ++ post → Run step init pre s → s.worker.Exited →
      ∃ n, w.sent = s.sent ++ List.replicate n 0) := by
  refine ⟨?_, ?_, ?_, ?_⟩
  · rintro pre post s t - hs ht
    obtain ⟨item, closing, hp, rfl⟩ := step_producerPut ht
    have hqueue := producerPut_queue (ordered_of_run hs).1 hp
    exact ⟨by simp [hqueue], item, closing, hp, hqueue⟩
  · exact (ordered_of_run hrun).2.motion_sent.trans List.filter_sublist
  · rintro pre post s t rfl hs ⟨closing, hp⟩ ht hquiet
    obtain ⟨s', hs', hrest⟩ := run_append_iff.mp hrun
    obtain rfl := hs.unique hs'
    obtain ⟨t', ht', hrest⟩ := run_cons_iff.mp hrest
    obtain rfl := Option.some.inj (ht.symm.trans ht')
    obtain ⟨item, closing', hp', rfl⟩ := step_producerPut ht
    obtain ⟨rfl, rfl⟩ : item = 0 ∧ closing' = closing := by simpa [hp] using hp'.symm
    have hacts := acts_producerPut (ordered_of_run hs).1 hp
    obtain ⟨-, later, hsent, hlater⟩ := quenched_of_run hrest hacts.inv
      (Mailbox.quenched_put_zero hacts.mailbox) hquiet
    have hheld : (Mailbox.motion later).Sublist s.worker.held.toList :=
      (Mailbox.motion_sublist (List.sublist_append_left _ _)).trans hlater
    exact ⟨later, hsent, hheld.length_le.trans Option.length_toList_le, hheld⟩
  · rintro pre post s rfl hs hexited
    obtain ⟨s', hs', hrest⟩ := run_append_iff.mp hrun
    obtain rfl := hs.unique hs'
    exact (exited_of_run hrest hexited).2

/-- The worker has taken a nonzero velocity out of the queue when zero is put: it is sent once,
then zero. The gateway shuts down and the loop ends. -/
theorem handoff_stop : ∃ w : World,
    Run step init [.ready 0, .tick ⟨.fin (1 / 10), 0⟩, .producerGet, .producerPut, .loopCheck,
      .getItem, .drainGet 0, .shutdown, .producerGet, .producerPut, .expire 0, .setVelocity false,
      .loopCheck, .getItem, .setStop, .drainGet 1, .expire 1, .setVelocity false, .loopCheck,
      .cleanupCall] w ∧
    w.sent = [⟨.fin (1 / 10), 0⟩, 0, 0] ∧
    (w.sent.filter fun v => v ≠ 0).Sublist [⟨.fin (1 / 10), 0⟩] := by
  have hrun : Run step init [.ready 0, .tick ⟨.fin (1 / 10), 0⟩, .producerGet, .producerPut,
      .loopCheck, .getItem, .drainGet 0, .shutdown, .producerGet, .producerPut, .expire 0,
      .setVelocity false, .loopCheck, .getItem, .setStop, .drainGet 1, .expire 1,
      .setVelocity false, .loopCheck, .cleanupCall]
      ⟨[], .ended, .cleanup 4, true, 1, [⟨.fin (1 / 10), 0⟩], [⟨.fin (1 / 10), 0⟩, 0, 0]⟩ :=
    run_iff_exec.mpr (by decide +kernel)
  exact ⟨_, hrun, rfl, (handoff hrun).2.1⟩

end World
end Gateway.Handoff
