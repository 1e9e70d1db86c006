import Mathlib

/-!
lib/worker-limits.js, `watch`: the heartbeat of a module worker and the bound on its memory outside
the JS heap. An event is what the main thread runs at once: a tick of the timer, the reply to a
ping, an answer of `getHeapStatistics`, the worker's exit and the call of `stop`; each has the time
that `Date.now` gives. Events come in any order, and a ping may stay without a reply.

A difference of two times is cut off at 0, which no comparison below tells from a negative one.
-/

namespace Countinghouse.WorkerLimits

structure Limits where
  externalMb : Nat
  maxBlockMs : Nat

inductive Reason where
  | blockedEventLoop | externalMemory
  deriving DecidableEq

/-- The ping that waits for its reply; pings are told apart by number. -/
structure Pending where
  ping : Nat
  since : Nat
  deriving DecidableEq

structure Watch where
  limits : Limits
  intervalMs : Nat

/-- `watch`'s own interval: at least two ticks in `maxBlockMs`. -/
def intervalFor (limits : Limits) (given : Option Nat) : Nat :=
  given.getD (max 50 (min 1000 (limits.maxBlockMs / 2)))

def watch (limits : Limits) (given : Option Nat) : Watch := ⟨limits, intervalFor limits given⟩

/-- `killed` is history: the reasons that `worker.terminate()` was called for, as `killReason` had them. -/
structure State where
  pending : Option Pending
  lastTick : Nat
  stopped : Bool
  pings : Nat
  killed : List Reason

def start (now : Nat) : State := ⟨none, now, false, 0, []⟩

def State.kill (s : State) (reason : Reason) : State :=
  if s.stopped then s else { s with stopped := true, killed := s.killed ++ [reason] }

inductive Event where
  | tick (busy : Bool)
  | reply (ping : Nat)
  | heapStatistics (externalMemory : Nat)
  | exit
  | stop
  deriving DecidableEq

variable (w : Watch)

def State.tick (s : State) (now : Nat) (busy : Bool) : State :=
  if s.stopped then s
  else
    let stalled := decide (2 * w.intervalMs < now - s.lastTick)
    match s.pending with
    | some pending =>
        if stalled || busy then { s with lastTick := now, pending := some { pending with since := now } }
        else if w.limits.maxBlockMs < now - pending.since then { s with lastTick := now }.kill .blockedEventLoop
        else { s with lastTick := now }
    | none => { s with lastTick := now, pending := some ⟨s.pings, now⟩, pings := s.pings + 1 }

def step (s : State) (now : Nat) : Event → State
  | .tick busy => s.tick w now busy
  | .reply ping => if s.pending.any (·.ping == ping) then { s with pending := none } else s
  | .heapStatistics externalMemory =>
      if w.limits.externalMb * 1024 * 1024 < externalMemory then s.kill .externalMemory else s
  | .exit => { s with stopped := true }
  | .stop => { s with stopped := true }

def run (s : State) (events : List (Nat × Event)) : State :=
  events.foldl (fun s event => step w s event.1 event.2) s

/-! What is said of a run. -/

/-- Every tick came in time after the one before it, the first after `last`, and found the main
thread doing no file call for the worker. -/
def Smooth (last : Nat) : List (Nat × Event) → Prop
  | [] => True
  | (now, .tick busy) :: rest => busy = false ∧ now - last ≤ 2 * w.intervalMs ∧ Smooth now rest
  | _ :: rest => Smooth last rest

def Answered (ping : Nat) (events : List (Nat × Event)) : Prop := ∃ entry ∈ events, entry.2 = .reply ping

/-- A tick at `since` sent the ping or restarted its clock; it has no reply since, more than `maxBlockMs`
have gone by, and the main thread kept ticking in time. -/
structure Unresponsive (began : Nat) (before : List (Nat × Event)) (since : Nat) (busy : Bool)
    (after : List (Nat × Event)) (ping now : Nat) : Prop where
  clocked : (run w (start began) (before ++ [(since, .tick busy)])).pending = some ⟨ping, since⟩
  unanswered : ¬ Answered ping after
  smooth : Smooth w since (after ++ [(now, .tick false)])
  long : w.limits.maxBlockMs < now - since

/-! One step. -/
section Steps

variable {w : Watch} {s : State}

theorem run_append (s : State) (first second : List (Nat × Event)) :
    run w s (first ++ second) = run w (run w s first) second := List.foldl_append

theorem run_cons (s : State) (now : Nat) (event : Event) (rest : List (Nat × Event)) :
    run w s ((now, event) :: rest) = run w (step w s now event) rest := rfl

theorem run_snoc (s : State) (events : List (Nat × Event)) (now : Nat) (event : Event) :
    run w s (events ++ [(now, event)]) = step w (run w s events) now event := by
  rw [run_append]
  rfl

theorem kill_stopped (reason : Reason) (stopped : s.stopped = true) : s.kill reason = s := by
  simp [State.kill, stopped]

/-- Nothing is killed, and nothing starts again, once the watch has stopped. -/
theorem step_stopped (now : Nat) (event : Event) (stopped : s.stopped = true) :
    (step w s now event).stopped = true ∧ (step w s now event).killed = s.killed := by
  cases event with
  | tick busy => simp [step, State.tick, stopped]
  | reply ping =>
      simp only [step]
      split <;> exact ⟨stopped, rfl⟩
  | heapStatistics externalMemory =>
      simp only [step, kill_stopped _ stopped]
      split <;> exact ⟨stopped, rfl⟩
  | exit => exact ⟨rfl, rfl⟩
  | stop => exact ⟨rfl, rfl⟩

theorem run_stopped (events : List (Nat × Event)) (stopped : s.stopped = true) :
    (run w s events).stopped = true ∧ (run w s events).killed = s.killed := by
  induction events generalizing s with
  | nil => exact ⟨stopped, rfl⟩
  | cons entry rest ih =>
      obtain ⟨now, event⟩ := entry
      obtain ⟨still, same⟩ := step_stopped (w := w) now event stopped
      obtain ⟨ends, kept⟩ := ih still
      exact ⟨ends, kept.trans same⟩

/-- What a tick does while the watch runs: the pending ping's clock starts again, its worker is ended, it
waits on, or a ping is sent. -/
theorem tick_cases (now : Nat) (busy : Bool) (running : s.stopped = false) :
    (∃ pending, s.pending = some pending ∧ (2 * w.intervalMs < now - s.lastTick ∨ busy = true) ∧
        s.tick w now busy = { s with lastTick := now, pending := some { pending with since := now } }) ∨
      (∃ pending, s.pending = some pending ∧ now - s.lastTick ≤ 2 * w.intervalMs ∧ busy = false ∧
        w.limits.maxBlockMs < now - pending.since ∧
        s.tick w now busy = { s with lastTick := now, stopped := true, killed := s.killed ++ [.blockedEventLoop] }) ∨
      (∃ pending, s.pending = some pending ∧ now - s.lastTick ≤ 2 * w.intervalMs ∧ busy = false ∧
        now - pending.since ≤ w.limits.maxBlockMs ∧ s.tick w now busy = { s with lastTick := now }) ∨
      (s.pending = none ∧
        s.tick w now busy = { s with lastTick := now, pending := some ⟨s.pings, now⟩, pings := s.pings + 1 }) := by
  simp only [State.tick, running, Bool.false_eq_true, if_false]
  cases waits : s.pending with
  | none => exact .inr (.inr (.inr ⟨rfl, rfl⟩))
  | some pending =>
      by_cases restarts : (decide (2 * w.intervalMs < now - s.lastTick) || busy) = true
      · exact .inl ⟨pending, rfl, by simpa using restarts, if_pos restarts⟩
      · obtain ⟨inTime, idle⟩ : now - s.lastTick ≤ 2 * w.intervalMs ∧ busy = false := by
          simpa [Nat.add_comm] using restarts
        simp only [if_neg restarts]
        by_cases late : w.limits.maxBlockMs < now - pending.since
        · exact .inr (.inl ⟨pending, rfl, inTime, idle, late, by simp [late, State.kill]⟩)
        · exact .inr (.inr (.inl ⟨pending, rfl, inTime, idle, Nat.le_of_not_lt late, by simp [late]⟩))

/-- What one step does to a watch that runs: it ends the worker for one reason, or for none. -/
theorem step_killed (now : Nat) (event : Event) (running : s.stopped = false) (none : s.killed = []) :
    ((step w s now event).killed = [] ∧ ((step w s now event).stopped = false ∨ event = .exit ∨ event = .stop)) ∨
      ((step w s now event).stopped = true ∧
        ((∃ busy, event = .tick busy ∧ (step w s now event).killed = [.blockedEventLoop]) ∨
          ∃ externalMemory, event = .heapStatistics externalMemory ∧ (step w s now event).killed = [.externalMemory])) := by
  cases event with
  | tick busy =>
      simp only [step]
      rcases tick_cases (w := w) now busy running with
        ⟨_, _, _, ticked⟩ | ⟨_, _, _, _, _, ticked⟩ | ⟨_, _, _, _, _, ticked⟩ | ⟨_, ticked⟩
      · exact .inl (by simp [ticked, none, running])
      · exact .inr (by simp [ticked, none])
      · exact .inl (by simp [ticked, none, running])
      · exact .inl (by simp [ticked, none, running])
  | reply ping =>
      simp only [step]
      split <;> exact .inl ⟨none, .inl running⟩
  | heapStatistics externalMemory =>
      simp only [step]
      split
      · exact .inr (by simp [State.kill, running, none])
      · exact .inl ⟨none, .inl running⟩
  | exit => exact .inl ⟨none, .inr (.inl rfl)⟩
  | stop => exact .inl ⟨none, .inr (.inr rfl)⟩

/-- A watch stops by an end of the worker that it has called for, or because it was told to. -/
def Told (events : List (Nat × Event)) : Prop := ∃ entry ∈ events, entry.2 = .exit ∨ entry.2 = .stop

/-- While the watch runs it has ended nothing; it ends the worker once at most. -/
theorem run_killed (began : Nat) (events : List (Nat × Event)) :
    ((run w (start began) events).stopped = false → (run w (start began) events).killed = []) ∧
      ((run w (start began) events).stopped = true →
        (run w (start began) events).killed.length = 1 ∨ Told events) := by
  induction events using List.reverseRecOn with
  | nil => exact ⟨fun _ => rfl, fun stopped => by simp [run, start] at stopped⟩
  | append_singleton rest entry ih =>
      obtain ⟨now, event⟩ := entry
      rw [run_snoc]
      cases running : (run w (start began) rest).stopped with
      | true =>
          obtain ⟨still, same⟩ := step_stopped (w := w) now event running
          refine ⟨fun runs => by simp [still] at runs, fun _ => ?_⟩
          rw [same]
          rcases ih.2 running with killed | ⟨entry, member, told⟩
          · exact .inl killed
          · exact .inr ⟨entry, by simp [member], told⟩
      | false =>
          rcases step_killed (w := w) now event running (ih.1 running) with
            ⟨none, stops⟩ | ⟨stopped, ends⟩
          · refine ⟨fun _ => none, fun stopped => .inr ⟨(now, event), by simp, ?_⟩⟩
            rcases stops with runs | told
            · simp [runs] at stopped
            · exact told
          · refine ⟨fun runs => by simp [stopped] at runs, fun _ => .inl ?_⟩
            rcases ends with ⟨_, _, killed⟩ | ⟨_, _, killed⟩ <;> simp [killed]

end Steps

/-! The clock of the pending ping. -/
section Clocks

variable {w : Watch}

def lastTickOf (last : Nat) : List (Nat × Event) → Nat
  | [] => last
  | (now, .tick _) :: rest => lastTickOf now rest
  | _ :: rest => lastTickOf last rest

theorem smooth_append (last : Nat) (first second : List (Nat × Event)) :
    Smooth w last (first ++ second) ↔ Smooth w last first ∧ Smooth w (lastTickOf last first) second := by
  induction first generalizing last with
  | nil => simp [Smooth, lastTickOf]
  | cons entry rest ih =>
      obtain ⟨now, event⟩ := entry
      cases event with
      | tick busy => simp [Smooth, lastTickOf, ih, and_assoc]
      | _ => simpa [Smooth, lastTickOf] using ih last

theorem last_tick_append (last : Nat) (first second : List (Nat × Event)) :
    lastTickOf last (first ++ second) = lastTickOf (lastTickOf last first) second := by
  induction first generalizing last with
  | nil => rfl
  | cons entry rest ih =>
      obtain ⟨now, event⟩ := entry
      cases event with
      | tick busy => exact ih now
      | _ => exact ih last

theorem step_running {s : State} {now : Nat} {event : Event} (runs : (step w s now event).stopped = false) :
    s.stopped = false := by
  cases stopped : s.stopped with
  | false => rfl
  | true => simp [(step_stopped (w := w) now event stopped).1] at runs

theorem step_last_tick {s : State} {now : Nat} {event : Event} (runs : (step w s now event).stopped = false) :
    (step w s now event).lastTick = lastTickOf s.lastTick [(now, event)] := by
  cases event with
  | tick busy =>
      simp only [step]
      rcases tick_cases (w := w) now busy (step_running runs) with
        ⟨_, _, _, ticked⟩ | ⟨_, _, _, _, _, ticked⟩ | ⟨_, _, _, _, _, ticked⟩ | ⟨_, ticked⟩ <;>
          simp [ticked, lastTickOf]
  | reply ping =>
      simp only [step]
      split <;> rfl
  | heapStatistics externalMemory =>
      simp only [step, State.kill]
      split
      · split <;> rfl
      · rfl
  | exit => rfl
  | stop => rfl

theorem run_last_tick {s : State} {events : List (Nat × Event)} (runs : (run w s events).stopped = false) :
    (run w s events).lastTick = lastTickOf s.lastTick events := by
  induction events using List.reverseRecOn with
  | nil => rfl
  | append_singleton rest entry ih =>
      obtain ⟨now, event⟩ := entry
      rw [run_snoc] at runs ⊢
      rw [step_last_tick runs, ih (step_running runs), last_tick_append]

theorem run_running {s : State} (first second : List (Nat × Event))
    (runs : (run w s (first ++ second)).stopped = false) : (run w s first).stopped = false := by
  rw [run_append] at runs
  cases stopped : (run w s first).stopped with
  | false => rfl
  | true => simp [(run_stopped (w := w) second stopped).1] at runs

/-- A ping that has no reply keeps waiting, with the clock it has, while the ticks come in time. -/
theorem step_kept {s : State} {now : Nat} {event : Event} {pending : Pending}
    (runs : (step w s now event).stopped = false) (waits : s.pending = some pending)
    (other : event ≠ .reply pending.ping) (smooth : Smooth w s.lastTick [(now, event)]) :
    (step w s now event).pending = some pending := by
  have running := step_running runs
  cases event with
  | tick busy =>
      obtain ⟨idle, inTime, _⟩ := smooth
      simp only [step] at runs ⊢
      rcases tick_cases (w := w) now busy running with
        ⟨_, _, restarts, _⟩ | ⟨_, _, _, _, _, ticked⟩ | ⟨_, _, _, _, _, ticked⟩ | ⟨none, _⟩
      · rcases restarts with stalled | busy
        · omega
        · simp [idle] at busy
      · simp [ticked] at runs
      · simpa [ticked] using waits
      · simp [none] at waits
  | reply ping =>
      have apart : ¬ pending.ping = ping := fun same => other (by rw [same])
      simp [step, waits, apart]
  | heapStatistics externalMemory =>
      simp only [step] at runs ⊢
      split at runs
      · simp [State.kill, running] at runs
      · simp [*]
  | exit => simp [step] at runs
  | stop => simp [step] at runs

theorem run_kept {s : State} {events : List (Nat × Event)} {pending : Pending}
    (runs : (run w s events).stopped = false) (waits : s.pending = some pending)
    (unanswered : ¬ Answered pending.ping events) (smooth : Smooth w s.lastTick events) :
    (run w s events).pending = some pending := by
  induction events generalizing s with
  | nil => exact waits
  | cons entry rest ih =>
      obtain ⟨now, event⟩ := entry
      have stepRuns : (step w s now event).stopped = false :=
        run_running [(now, event)] rest runs
      obtain ⟨first, later⟩ := (smooth_append s.lastTick [(now, event)] rest).1 smooth
      have other : event ≠ .reply pending.ping := fun same => unanswered ⟨(now, event), by simp, same⟩
      apply ih runs (step_kept stepRuns waits other first)
      · rintro ⟨entry, member, reply⟩
        exact unanswered ⟨entry, List.mem_cons_of_mem _ member, reply⟩
      · rw [step_last_tick stepRuns]
        exact later

/-- The tick that comes too late for a ping without a reply. -/
theorem late_tick_kills {s : State} {events : List (Nat × Event)} {pending : Pending} {now : Nat}
    (runs : (run w s events).stopped = false) (waits : s.pending = some pending)
    (unanswered : ¬ Answered pending.ping events) (smooth : Smooth w s.lastTick (events ++ [(now, Event.tick false)]))
    (late : w.limits.maxBlockMs < now - pending.since) :
    (run w s (events ++ [(now, Event.tick false)])).stopped = true ∧
      (run w s (events ++ [(now, Event.tick false)])).killed = (run w s events).killed ++ [.blockedEventLoop] := by
  obtain ⟨before, _, inTime, _⟩ := (smooth_append _ _ _).1 smooth
  have still := run_kept runs waits unanswered before
  rw [← run_last_tick runs] at inTime
  rw [run_snoc]
  simp only [step]
  rcases tick_cases (w := w) now false runs with
    ⟨_, _, restarts, _⟩ | ⟨_, _, _, _, _, ticked⟩ | ⟨_, was, _, _, short, _⟩ | ⟨gone, _⟩
  · rcases restarts with stalled | busy
    · exact absurd stalled (Nat.not_lt.2 inTime)
    · simp at busy
  · simp [ticked]
  · rw [still] at was
    cases was
    exact absurd late (Nat.not_lt.2 short)
  · exact absurd (still.symm.trans gone) (by simp)

/-- The tick that a pending ping has its clock from. -/
structure Clocked (w : Watch) (began : Nat) (events : List (Nat × Event)) (pending : Pending)
    (before : List (Nat × Event)) (busy : Bool) (after : List (Nat × Event)) : Prop where
  split : events = before ++ (pending.since, .tick busy) :: after
  clocked : (run w (start began) (before ++ [(pending.since, .tick busy)])).pending = some pending
  unanswered : ¬ Answered pending.ping after
  smooth : Smooth w pending.since after

theorem Clocked.later {began : Nat} {rest before after : List (Nat × Event)} {pending : Pending} {busy : Bool}
    (now : Nat) (event : Event) (held : Clocked w began rest pending before busy after) (other : event ≠ .reply pending.ping)
    (runs : (run w (start began) rest).stopped = false)
    (smooth : Smooth w (run w (start began) rest).lastTick [(now, event)]) :
    Clocked w began (rest ++ [(now, event)]) pending before busy (after ++ [(now, event)]) where
  split := by rw [held.split]; simp
  clocked := held.clocked
  unanswered := by
    rintro ⟨entry, member, reply⟩
    rcases List.mem_append.1 member with earlier | last
    · exact held.unanswered ⟨entry, earlier, reply⟩
    · rw [List.mem_singleton.1 last] at reply
      exact other reply
  smooth := by
    rw [run_last_tick runs, held.split, last_tick_append] at smooth
    exact (smooth_append _ _ _).2 ⟨held.smooth, smooth⟩

theorem pending_clocked {began : Nat} {events : List (Nat × Event)} {pending : Pending}
    (runs : (run w (start began) events).stopped = false)
    (waits : (run w (start began) events).pending = some pending) :
    ∃ before busy after, Clocked w began events pending before busy after := by
  induction events using List.reverseRecOn generalizing pending with
  | nil => simp [run, start] at waits
  | append_singleton rest entry ih =>
      obtain ⟨now, event⟩ := entry
      have restRuns := run_running _ _ runs
      -- the clock that this very tick has set
      have fresh (busy : Bool) (last : event = .tick busy) (since : pending.since = now) :
          ∃ before busy after, Clocked w began (rest ++ [(now, event)]) pending before busy after :=
        ⟨rest, busy, [], by rw [since, last], by rw [since, ← last]; exact waits, by simp [Answered], trivial⟩
      rw [run_snoc] at runs waits
      cases event with
      | tick busy =>
          simp only [step] at runs waits
          rcases tick_cases (w := w) now busy restRuns with
            ⟨_, _, _, ticked⟩ | ⟨_, _, _, _, _, ticked⟩ | ⟨old, was, inTime, idle, _, ticked⟩ | ⟨_, ticked⟩
          · rw [ticked] at waits
            exact fresh busy rfl (by rw [← Option.some.inj waits])
          · simp [ticked] at runs
          · rw [ticked] at waits
            obtain ⟨before, other, after, held⟩ := ih restRuns waits
            exact ⟨before, other, after ++ [(now, .tick busy)],
              held.later now (.tick busy) (by simp) restRuns ⟨idle, inTime, trivial⟩⟩
          · rw [ticked] at waits
            exact fresh busy rfl (by rw [← Option.some.inj waits])
      | reply ping =>
          simp only [step] at waits
          split at waits
          · simp at waits
          · next apart =>
            obtain ⟨before, other, after, held⟩ := ih restRuns waits
            refine ⟨before, other, after ++ [(now, .reply ping)], held.later now (.reply ping) ?_ restRuns trivial⟩
            intro same
            rw [waits] at apart
            exact apart (by simpa using (Event.reply.inj same).symm)
      | heapStatistics externalMemory =>
          simp only [step] at runs waits
          split at waits
          · simp_all [State.kill]
          · obtain ⟨before, other, after, held⟩ := ih restRuns waits
            exact ⟨before, other, after ++ [(now, .heapStatistics externalMemory)],
              held.later now (.heapStatistics externalMemory) (by simp) restRuns trivial⟩
      | exit => simp [step] at runs
      | stop => simp [step] at runs

end Clocks

/-! When a worker is ended. -/
section Ends

variable {w : Watch}

/-- The worker is ended as a blocked one at that tick. -/
def EndsBlocked (w : Watch) (began : Nat) (events : List (Nat × Event)) (now : Nat) (busy : Bool) : Prop :=
  (run w (start began) events).stopped = false ∧
    (run w (start began) (events ++ [(now, .tick busy)])).killed = [.blockedEventLoop]

theorem ends_blocked_here {began now : Nat} {events : List (Nat × Event)} {busy : Bool} :
    EndsBlocked w began events now busy ↔
      busy = false ∧ (run w (start began) events).stopped = false ∧
        ∃ before since other after ping, events = before ++ (since, .tick other) :: after ∧
          Unresponsive w began before since other after ping now := by
  constructor
  · rintro ⟨runs, killed⟩
    rw [run_snoc] at killed
    have clean := (run_killed (w := w) began events).1 runs
    simp only [step] at killed
    rcases tick_cases (w := w) now busy runs with
      ⟨_, _, _, ticked⟩ | ⟨⟨ping, since⟩, waits, inTime, idle, late, _⟩ | ⟨_, _, _, _, _, ticked⟩ | ⟨_, ticked⟩
    · simp [ticked, clean] at killed
    · obtain ⟨before, other, after, held⟩ := pending_clocked runs waits
      refine ⟨idle, runs, before, since, other, after, ping, held.split, held.clocked, held.unanswered, ?_, late⟩
      refine (smooth_append _ _ _).2 ⟨held.smooth, rfl, ?_, trivial⟩
      rw [run_last_tick runs, held.split, last_tick_append] at inTime
      exact inTime
    · simp [ticked, clean] at killed
    · simp [ticked, clean] at killed
  · rintro ⟨rfl, runs, before, since, other, after, ping, rfl, unresponsive⟩
    refine ⟨runs, ?_⟩
    have clean := (run_killed (w := w) began _).1 runs
    have shape : before ++ (since, .tick other) :: after = (before ++ [(since, .tick other)]) ++ after := by simp
    rw [shape] at runs clean ⊢
    have lastTick : (run w (start began) (before ++ [(since, .tick other)])).lastTick = since := by
      rw [run_last_tick (run_running _ _ runs), last_tick_append]
      rfl
    rw [run_append] at runs clean
    rw [List.append_assoc, run_append,
      (late_tick_kills runs unresponsive.clocked unresponsive.unanswered (by rw [lastTick]; exact unresponsive.smooth)
        unresponsive.long).2, clean]
    rfl

/-- A worker is ended as blocked exactly at a tick that finds it unresponsive: whatever else happens, more
than `maxBlockMs` after a tick at which its ping was waiting, with no reply since, while the timer
came in time and found no file call of the worker's own under way. -/
theorem ended_blocked_iff (limits : Limits) (given : Option Nat) (began : Nat) (events : List (Nat × Event)) :
    (run (watch limits given) (start began) events).killed = [.blockedEventLoop] ↔
      ∃ before since busy after ping now rest,
        events = before ++ (since, .tick busy) :: after ++ (now, .tick false) :: rest ∧
        (run (watch limits given) (start began) (before ++ (since, .tick busy) :: after)).stopped = false ∧
        Unresponsive (watch limits given) began before since busy after ping now := by
  generalize watch limits given = w
  constructor
  · intro killed
    induction events using List.reverseRecOn with
    | nil => simp [run, start] at killed
    | append_singleton earlier entry ih =>
        obtain ⟨now, event⟩ := entry
        cases stopped : (run w (start began) earlier).stopped with
        | true =>
            rw [run_snoc, (step_stopped now event stopped).2] at killed
            obtain ⟨before, since, busy, after, ping, at_, rest, rfl, found⟩ := ih killed
            exact ⟨before, since, busy, after, ping, at_, rest ++ [(now, event)], by simp, found⟩
        | false =>
            have clean := (run_killed (w := w) began earlier).1 stopped
            have last := killed
            rw [run_snoc] at last
            rcases step_killed (w := w) now event stopped clean with ⟨none, _⟩ | ⟨_, ⟨busy, rfl, _⟩ | ⟨_, _, other⟩⟩
            · simp [none] at last
            · obtain ⟨rfl, runs, before, since, other, after, ping, rfl, found⟩ := ends_blocked_here.1 ⟨stopped, killed⟩
              exact ⟨before, since, other, after, ping, now, [], by simp, runs, found⟩
            · simp [other] at last
  · rintro ⟨before, since, busy, after, ping, now, rest, rfl, runs, found⟩
    obtain ⟨_, killed⟩ := ends_blocked_here.2 ⟨rfl, runs, before, since, busy, after, ping, rfl, found⟩
    have shape : before ++ (since, .tick busy) :: after ++ (now, .tick false) :: rest =
        before ++ (since, .tick busy) :: after ++ [(now, .tick false)] ++ rest := by simp
    rw [shape, run_append]
    have stopped : (run w (start began) (before ++ (since, .tick busy) :: after ++ [(now, .tick false)])).stopped = true := by
      cases stopped : (run w (start began) (before ++ (since, .tick busy) :: after ++ [(now, .tick false)])).stopped with
      | true => rfl
      | false => exact absurd (((run_killed began _).1 stopped).symm.trans killed) (by simp)
    rw [(run_stopped rest stopped).2, killed]

/-! A blocked worker does not stay. -/

/-- `Date.now` does not go back. -/
def Ordered (began : Nat) (events : List (Nat × Event)) : Prop := (began :: events.map Prod.fst).Pairwise (· ≤ ·)

theorem step_since {s : State} {last now : Nat} (event : Event) (later : last ≤ now)
    (tickBefore : s.lastTick ≤ last) (sinceBefore : ∀ pending ∈ s.pending, pending.since ≤ s.lastTick) :
    (step w s now event).lastTick ≤ now ∧
      ∀ pending ∈ (step w s now event).pending, pending.since ≤ (step w s now event).lastTick := by
  have kept : s.lastTick ≤ now ∧ ∀ pending ∈ s.pending, pending.since ≤ s.lastTick :=
    ⟨tickBefore.trans later, sinceBefore⟩
  cases event with
  | tick busy =>
      simp only [step]
      cases stopped : s.stopped with
      | true => simpa [State.tick, stopped] using kept
      | false =>
          rcases tick_cases (w := w) now busy stopped with
            ⟨_, _, _, ticked⟩ | ⟨_, waits, _, _, _, ticked⟩ | ⟨_, waits, _, _, _, ticked⟩ | ⟨_, ticked⟩
          · simp [ticked]
          · rw [ticked]
            exact ⟨le_refl _, fun pending member => (sinceBefore pending member).trans kept.1⟩
          · rw [ticked]
            exact ⟨le_refl _, fun pending member => (sinceBefore pending member).trans kept.1⟩
          · simp [ticked]
  | reply ping =>
      simp only [step]
      split
      · exact ⟨kept.1, by simp⟩
      · exact kept
  | heapStatistics externalMemory =>
      simp only [step, State.kill]
      split
      · split <;> exact kept
      · exact kept
  | exit => exact kept
  | stop => exact kept

theorem run_since {s : State} {last : Nat} {events : List (Nat × Event)} (ordered : Ordered last events)
    (tickBefore : s.lastTick ≤ last) (sinceBefore : ∀ pending ∈ s.pending, pending.since ≤ s.lastTick) :
    ∀ pending ∈ (run w s events).pending, pending.since ≤ (run w s events).lastTick := by
  induction events generalizing s last with
  | nil => exact sinceBefore
  | cons entry rest ih =>
      obtain ⟨now, event⟩ := entry
      obtain ⟨first, later⟩ := List.pairwise_cons.1 ordered
      obtain ⟨tick, since⟩ := step_since (w := w) event (first now (by simp)) tickBefore sinceBefore
      exact ih later tick since

/-- From a clock that was read in time, a worker that no longer answers is stopped by a late tick. -/
theorem silent_stopped {s : State} {events : List (Nat × Event)} {now : Nat}
    (sinceBefore : ∀ pending ∈ s.pending, pending.since ≤ s.lastTick) (silent : ∀ ping, ¬ Answered ping events)
    (smooth : Smooth w s.lastTick (events ++ [(now, .tick false)]))
    (late : w.limits.maxBlockMs + 2 * w.intervalMs < now - s.lastTick) :
    (run w s (events ++ [(now, .tick false)])).stopped = true := by
  induction events generalizing s with
  | nil =>
      obtain ⟨_, inTime, _⟩ := smooth
      omega
  | cons entry rest ih =>
      obtain ⟨at_, event⟩ := entry
      cases stopped : (run w s ((at_, event) :: rest)).stopped with
      | true =>
          rw [run_append]
          exact (run_stopped _ stopped).1
      | false =>
          have runs := run_running [(at_, event)] rest stopped
          have running := step_running runs
          have restSilent : ∀ ping, ¬ Answered ping rest := by
            rintro ping ⟨entry, member, reply⟩
            exact silent ping ⟨entry, List.mem_cons_of_mem _ member, reply⟩
          have lastTick := step_last_tick runs
          cases event with
          | tick busy =>
              obtain ⟨idle, inTime, later⟩ := smooth
              -- from this tick on a ping waits, and its clock is not ahead of it
              obtain ⟨pending, waits, soon⟩ : ∃ pending, (step w s at_ (.tick busy)).pending = some pending ∧
                  pending.since ≤ s.lastTick + 2 * w.intervalMs := by
                simp only [step]
                rcases tick_cases (w := w) at_ busy running with
                  ⟨_, _, restarts, _⟩ | ⟨_, _, _, _, _, ticked⟩ | ⟨pending, was, _, _, _, ticked⟩ | ⟨_, ticked⟩
                · rcases restarts with stalled | busy
                  · omega
                  · simp [idle] at busy
                · simp [run, step, ticked] at runs
                · exact ⟨pending, by simpa [ticked] using was, by have := sinceBefore pending (by simp [was]); omega⟩
                · exact ⟨⟨s.pings, at_⟩, by simp [ticked], by simp only; omega⟩
              rw [run_cons] at stopped
              rw [List.cons_append, run_cons]
              refine (late_tick_kills stopped waits (restSilent _) ?_ (by omega)).1
              rw [lastTick]
              exact later
          | reply ping => exact absurd ⟨_, List.mem_cons_self, rfl⟩ (silent ping)
          | heapStatistics externalMemory =>
              have same : step w s at_ (.heapStatistics externalMemory) = s := by
                simp only [step, State.kill, running] at runs ⊢
                split <;> simp_all [run, step, State.kill]
              have rest := ih sinceBefore restSilent smooth late
              rw [← same] at rest
              exact rest
          | exit => simp [run, step] at runs
          | stop => simp [run, step] at runs

/-- A worker whose event loop stays blocked is ended: after `maxBlockMs` and the length of two intervals
without a reply, the ticks coming in time and finding no file call of the worker's under way, it has been ended
or has exited, or the watch was told to stop. -/
theorem blocked_worker_ends (limits : Limits) (given : Option Nat) (began : Nat) (before after : List (Nat × Event))
    (now : Nat) (ordered : Ordered began before) (silent : ∀ ping, ¬ Answered ping after)
    (smooth : Smooth (watch limits given) (run (watch limits given) (start began) before).lastTick
      (after ++ [(now, .tick false)]))
    (late : limits.maxBlockMs + 2 * intervalFor limits given <
      now - (run (watch limits given) (start began) before).lastTick) :
    (run (watch limits given) (start began) (before ++ after ++ [(now, .tick false)])).killed.length = 1 ∨
      Told (before ++ after) := by
  have clocked := run_since (w := watch limits given) (s := start began) ordered (le_refl _) (by simp [start])
  have stopped := silent_stopped clocked silent smooth late
  rw [← run_append, ← List.append_assoc] at stopped
  refine ((run_killed began _).2 stopped).imp_right ?_
  rintro ⟨entry, member, told⟩
  rcases List.mem_append.1 member with earlier | last
  · exact ⟨entry, earlier, told⟩
  · rw [List.mem_singleton.1 last] at told
    simp at told

/-- A worker that hangs 50 ms after its spawn. -/
theorem blocked_worker_ends_soon :
    (run (watch ⟨256, 100⟩ none) (start 0) ([(50, Event.tick false)] ++
        [(100, Event.tick false), (150, Event.tick false), (200, Event.tick false), (250, Event.tick false)] ++
        [(300, Event.tick false)])).killed.length = 1 ∨
      Told ([(50, Event.tick false)] ++
        [(100, Event.tick false), (150, Event.tick false), (200, Event.tick false), (250, Event.tick false)]) :=
  blocked_worker_ends ⟨256, 100⟩ none 0 [(50, Event.tick false)]
    [(100, Event.tick false), (150, Event.tick false), (200, Event.tick false), (250, Event.tick false)] 300
    (by simp [Ordered]) (by simp [Answered])
    (by simp [Smooth, run, start, step, State.tick, watch, intervalFor])
    (by simp [run, start, step, State.tick, watch, intervalFor])

end Ends

end Countinghouse.WorkerLimits
