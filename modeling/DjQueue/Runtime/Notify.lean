import DjQueue.Runtime.Supervisor
import Mathlib.Algebra.Order.Monoid.Unbundled.WithTop

/-!
# The watcher of the notify channel

`NotifyWakeupBackend._watch` of `runtime/notify.py`.  The thread listens while it has a connection;
when it has none it waits and tries to open one, and the wait doubles with every failure in a row.

The wait is a power of two before it is clamped.  The power is an integer of any size, but a float
is multiplied by it only after it was made a float itself: after 1025 failures in a row there is no
such float, and the exception ends the thread.
-/

namespace DjQueue.Notify

/-! ## Delays -/

/-- A finite float that is not negative. -/
structure Double where
  value : ℚ
  representable : ∃ (mantissa : ℕ) (exponent : ℤ),
    mantissa < 2 ^ 53 ∧ -1074 ≤ exponent ∧ value = mantissa * 2 ^ exponent
  finite : value < 2 ^ 1024

/-- A delay in seconds is an `int` or a `float`. -/
inductive Delay where
  | int (n : ℕ)
  | float (x : Double)
  | infinity

namespace Delay

/-- Numbers of the two types compare by their value. -/
def value : Delay → WithTop ℚ
  | int n => ((n : ℚ) : WithTop ℚ)
  | float x => (x.value : WithTop ℚ)
  | infinity => ⊤

/-- A delay that multiplies as a float. -/
def IsFloat : Delay → Prop
  | int _ => False
  | float _ => True
  | infinity => True

instance : DecidablePred IsFloat
  | int _ => .isFalse id
  | float _ => .isTrue trivial
  | infinity => .isTrue trivial

end Delay

/-- The product of a float and a float that is a power of two: only the exponent changes, unless
it gets too large. -/
def Double.scale (x : Double) (exponent : ℕ) : Delay :=
  if small : x.value * 2 ^ exponent < 2 ^ 1024 then
    .float {
      value := x.value * 2 ^ exponent
      representable := by
        rcases x.representable with ⟨mantissa, e, short, low, equal⟩
        refine ⟨mantissa, e + exponent, short, by omega, ?_⟩
        rw [equal, mul_assoc, zpow_add₀ (by norm_num), zpow_natCast]
      finite := small }
  else .infinity

/-- `delay * 2 ** exponent` -/
def Delay.timesPowerOfTwo (delay : Delay) (exponent : ℕ) : Except PyError Delay :=
  match delay with
  | .int n => .ok (.int (n * 2 ^ exponent))
  | .float x => (ForkSupervisor.floatOfPowerOfTwo exponent).map (fun _ => x.scale exponent)
  | .infinity => (ForkSupervisor.floatOfPowerOfTwo exponent).map (fun _ => .infinity)

/-- `min` of two numbers is the first of them unless the second is less. -/
def Delay.min (a b : Delay) : Delay := if b.value < a.value then b else a

/-- What the backend was built with, and `threading.TIMEOUT_MAX`: a wait for longer than that
raises. -/
structure Backend where
  reconnectBaseDelay : Delay
  reconnectMaxDelay : Delay
  timeoutMax : Double

/-- `_reconnect_delay` -/
def Backend.reconnectDelay (b : Backend) (failures : ℕ) : Except PyError Delay :=
  (b.reconnectBaseDelay.timesPowerOfTwo (failures - 1)).map
    (fun delay => delay.min b.reconnectMaxDelay)

/-! ## The thread -/

/-- Where the thread is in `_watch`. -/
inductive Phase where
  /-- about to ask whether it is to stop -/
  | looping
  /-- in the body of the loop -/
  | turning
  | waiting (timeout : Delay)
  | reconnecting
  | listening
  | returned
  /-- An exception has ended the thread. -/
  | raised (error : PyError)

/-- `stop` is the flag of `_stop_event`, `connected` whether `_connection` is not `None`. -/
structure Watcher where
  stop : Bool
  connected : Bool
  failures : ℕ
  failed : Bool
  phase : Phase

/-- What can happen to the watcher next. -/
inductive Event where
  /-- The loop asks for the flag. -/
  | test
  /-- The body looks at the connection. -/
  | turn
  /-- `wait` returns: the flag was set, or the time is over. -/
  | wakes
  | timesOut
  /-- `_open_connection` returns, or raises. -/
  | opens
  | openFails
  /-- `notifies` returns, or raises, or the code that reads what it returned does. -/
  | notified
  | listenFails
  /-- `stop` of another thread sets the flag, and closes the connection. -/
  | stopSet
  | stopClose
deriving DecidableEq

namespace Watcher

/-- `_stop_event.wait(self._reconnect_delay(failures))`, up to where the thread sleeps. -/
def beginWait (b : Backend) (s : Watcher) : Watcher :=
  match b.reconnectDelay s.failures with
  | .error error => { s with phase := .raised error }
  | .ok delay =>
      if s.stop then { s with phase := .returned }
      else if (b.timeoutMax.value : WithTop ℚ) < delay.value then
        { s with phase := .raised (.overflowError "timeout value is too large") }
      else { s with phase := .waiting delay }

/-- `except Exception` of `_reconnect` and of `_watch`: one more failure, and no connection. -/
def countFailure (s : Watcher) : Watcher :=
  { s with failures := s.failures + 1, failed := true, connected := false, phase := .looping }

/-- The watcher after an event, where the event can happen. -/
def step (b : Backend) (s : Watcher) : Event → Option Watcher
  | .stopSet => some { s with stop := true }
  | .stopClose => if s.stop then some { s with connected := false } else none
  | .test =>
      match s.phase with
      | .looping => some { s with phase := if s.stop then .returned else .turning }
      | _ => none
  | .turn =>
      match s.phase with
      | .turning => some (if s.connected then { s with phase := .listening } else s.beginWait b)
      | _ => none
  | .wakes =>
      match s.phase with
      | .waiting _ => if s.stop then some { s with phase := .returned } else none
      | _ => none
  | .timesOut =>
      match s.phase with
      | .waiting _ => some { s with phase := .reconnecting }
      | _ => none
  | .opens =>
      match s.phase with
      | .reconnecting =>
          some { s with failures := 0, failed := false, connected := true, phase := .looping }
      | _ => none
  | .openFails =>
      match s.phase with
      | .reconnecting => some s.countFailure
      | _ => none
  | .notified =>
      match s.phase with
      | .listening => some { s with phase := .looping }
      | _ => none
  | .listenFails =>
      match s.phase with
      | .listening => some (if s.stop then { s with phase := .returned } else s.countFailure)
      | _ => none

/-- The watcher after a list of events. -/
def run (b : Backend) : Watcher → List Event → Option Watcher
  | s, [] => some s
  | s, event :: events => (s.step b event).bind (fun t => t.run b events)

/-- `start` has opened a connection, or failed to, and started the thread. -/
def started (connected : Bool) : Watcher := ⟨false, connected, 0, !connected, .looping⟩

/-! ## What outlives an outage -/

/-- What holds of every step of a run, and of the state it starts in. -/
def EachStep (b : Backend) (P : Watcher → Event → Prop) : Watcher → List Event → Prop
  | _, [] => True
  | s, event :: events => P s event ∧ ∀ t, s.step b event = some t → EachStep b P t events

/-- No exception has ended the thread, and it has returned only if it was to stop. -/
structure KeepsWatch (s : Watcher) : Prop where
  alive : ∀ error, s.phase ≠ .raised error
  stopped : s.phase = .returned → s.stop = true

end Watcher

namespace Backend

/-- `_reconnect_delay` returns a delay within the maximum, no shorter than that of fewer failures. -/
def Clamps (b : Backend) (failures : ℕ) : Prop :=
  ∃ delay, b.reconnectDelay failures = .ok delay ∧ delay.value ≤ b.reconnectMaxDelay.value ∧
    ∀ fewer ≤ failures, ∃ shorter, b.reconnectDelay fewer = .ok shorter ∧
      shorter.value ≤ delay.value

/-- The power of two has a float where one is needed. -/
def Multiplies (b : Backend) (failures : ℕ) : Prop :=
  b.reconnectBaseDelay.IsFloat → failures ≤ 1024

/-- One of the two delays that are compared is one that a wait takes. -/
def Waits (b : Backend) (failures : ℕ) : Prop :=
  b.reconnectMaxDelay.value ≤ b.timeoutMax.value ∨
    ∃ seconds : ℚ, b.reconnectBaseDelay.value = seconds ∧
      seconds * 2 ^ (failures - 1) ≤ b.timeoutMax.value

/-- What a turn of the loop without a connection needs. -/
def Survives (b : Backend) (s : Watcher) (event : Event) : Prop :=
  event = .turn → s.phase = .turning → s.connected = false →
    b.Multiplies s.failures ∧ (s.stop = false → b.Waits s.failures)

end Backend

/-! ### Delays -/

/-- A double of a delay is not negative. -/
theorem Double.value_nonneg (x : Double) : 0 ≤ x.value := by
  rcases x.representable with ⟨mantissa, exponent, -, -, equal⟩
  rw [equal]
  exact mul_nonneg (Nat.cast_nonneg _) (zpow_nonneg (by norm_num) _)

theorem Double.scale_mono (x : Double) {k n : ℕ} (le : k ≤ n) :
    (x.scale k).value ≤ (x.scale n).value := by
  have larger : x.value * 2 ^ k ≤ x.value * 2 ^ n :=
    mul_le_mul_of_nonneg_left (pow_le_pow_right₀ (by norm_num) le) x.value_nonneg
  unfold Double.scale
  split
  · split
    · exact WithTop.coe_le_coe.mpr larger
    · exact le_top
  · rename_i large
    rw [dif_neg (fun small => large (lt_of_le_of_lt larger small))]

namespace Delay

/-- The product, were every power of two a float. -/
def scaled (delay : Delay) (exponent : ℕ) : Delay :=
  match delay with
  | int n => int (n * 2 ^ exponent)
  | float x => x.scale exponent
  | infinity => infinity

theorem scaled_mono (delay : Delay) {k n : ℕ} (le : k ≤ n) :
    (delay.scaled k).value ≤ (delay.scaled n).value := by
  cases delay with
  | int m =>
    apply WithTop.coe_le_coe.mpr
    exact_mod_cast Nat.mul_le_mul_left m (Nat.pow_le_pow_right (by norm_num) le)
  | float x => exact x.scale_mono le
  | infinity => exact le_refl _

/-- The product while the exponent is in range. -/
theorem timesPowerOfTwo_of_lt {delay : Delay} {exponent : ℕ}
    (small : delay.IsFloat → exponent < 1024) :
    delay.timesPowerOfTwo exponent = .ok (delay.scaled exponent) := by
  cases delay with
  | int n => rfl
  | float x =>
    rw [timesPowerOfTwo, ForkSupervisor.floatOfPowerOfTwo, if_pos (small trivial)]
    rfl
  | infinity =>
    rw [timesPowerOfTwo, ForkSupervisor.floatOfPowerOfTwo, if_pos (small trivial)]
    rfl

/-- The product of a float beyond the range. -/
theorem timesPowerOfTwo_of_le {delay : Delay} {exponent : ℕ} (isFloat : delay.IsFloat)
    (large : 1024 ≤ exponent) :
    delay.timesPowerOfTwo exponent =
      .error (.overflowError "int too large to convert to float") := by
  cases delay with
  | int n => exact isFloat.elim
  | float x =>
    rw [timesPowerOfTwo, ForkSupervisor.floatOfPowerOfTwo, if_neg (Nat.not_lt.mpr large)]
    rfl
  | infinity =>
    rw [timesPowerOfTwo, ForkSupervisor.floatOfPowerOfTwo, if_neg (Nat.not_lt.mpr large)]
    rfl

theorem value_min (a b : Delay) : (a.min b).value = Min.min a.value b.value := by
  unfold Delay.min
  split
  · rename_i less
    exact (min_eq_right (le_of_lt less)).symm
  · rename_i notLess
    exact (min_eq_left (not_lt.mp notLess)).symm

/-- A wait takes the product exactly if the product of the numbers is no longer than the longest
wait. -/
theorem scaled_le_iff (delay : Delay) (exponent : ℕ) (most : Double) :
    (delay.scaled exponent).value ≤ most.value ↔
      ∃ seconds : ℚ, delay.value = seconds ∧ seconds * 2 ^ exponent ≤ most.value := by
  cases delay with
  | int n =>
    constructor
    · intro le
      refine ⟨n, rfl, ?_⟩
      exact_mod_cast WithTop.coe_le_coe.mp le
    · rintro ⟨seconds, equal, le⟩
      rw [← WithTop.coe_inj.mp equal] at le
      apply WithTop.coe_le_coe.mpr
      exact_mod_cast le
  | float x =>
    have iff : (x.scale exponent).value ≤ most.value ↔ x.value * 2 ^ exponent ≤ most.value := by
      unfold Double.scale
      split
      · exact WithTop.coe_le_coe
      · rename_i large
        refine ⟨fun top => absurd top (by simp [value]), fun le => ?_⟩
        exact absurd (lt_of_le_of_lt le most.finite) large
    rw [scaled, iff]
    constructor
    · exact fun le => ⟨x.value, rfl, le⟩
    · rintro ⟨seconds, equal, le⟩
      rwa [← WithTop.coe_inj.mp equal] at le
  | infinity =>
    constructor
    · exact fun top => absurd top (by simp [scaled, value])
    · rintro ⟨seconds, equal, -⟩
      exact absurd equal.symm WithTop.coe_ne_top

end Delay

namespace Backend

/-- The delay, where the product can be computed. -/
theorem reconnectDelay_of_multiplies {b : Backend} {failures : ℕ}
    (multiplies : b.Multiplies failures) :
    b.reconnectDelay failures =
      .ok ((b.reconnectBaseDelay.scaled (failures - 1)).min b.reconnectMaxDelay) := by
  have small : b.reconnectBaseDelay.IsFloat → failures - 1 < 1024 := by
    intro isFloat
    have few := multiplies isFloat
    omega
  rw [reconnectDelay, Delay.timesPowerOfTwo_of_lt small]
  rfl

theorem reconnectDelay_of_not_multiplies {b : Backend} {failures : ℕ}
    (not : ¬ b.Multiplies failures) :
    b.reconnectDelay failures =
      .error (.overflowError "int too large to convert to float") := by
  rcases Classical.not_imp.mp not with ⟨isFloat, many⟩
  rw [reconnectDelay, Delay.timesPowerOfTwo_of_le isFloat (by omega)]
  rfl

/-- The delay is clamped exactly where it multiplies. -/
theorem clamps_iff (b : Backend) (failures : ℕ) : b.Clamps failures ↔ b.Multiplies failures := by
  constructor
  · intro clamps
    by_contra not
    rcases clamps with ⟨delay, returned, -⟩
    rw [reconnectDelay_of_not_multiplies not] at returned
    cases returned
  · intro multiplies
    refine ⟨_, reconnectDelay_of_multiplies multiplies, ?_, fun fewer le => ?_⟩
    · rw [Delay.value_min]
      exact min_le_right _ _
    · have earlier : b.Multiplies fewer := fun isFloat => le_trans le (multiplies isFloat)
      refine ⟨_, reconnectDelay_of_multiplies earlier, ?_⟩
      rw [Delay.value_min, Delay.value_min]
      exact min_le_min_right _ (Delay.scaled_mono _ (Nat.sub_le_sub_right le 1))

/-- The wait is possible where its time is in the range of the platform. -/
theorem waits_iff (b : Backend) (failures : ℕ) :
    b.Waits failures ↔ ¬ (b.timeoutMax.value : WithTop ℚ) <
      ((b.reconnectBaseDelay.scaled (failures - 1)).min b.reconnectMaxDelay).value := by
  rw [Delay.value_min, not_lt, min_le_iff, Delay.scaled_le_iff, Waits, or_comm]

end Backend

namespace Watcher

variable {b : Backend} {s t : Watcher} {event : Event}

/-! ### Steps -/

theorem keepsWatch_beginWait (multiplies : b.Multiplies s.failures)
    (waits : s.stop = false → b.Waits s.failures) : (s.beginWait b).KeepsWatch := by
  rw [beginWait, Backend.reconnectDelay_of_multiplies multiplies]
  dsimp only
  split
  · rename_i stop
    exact ⟨nofun, fun _ => stop⟩
  · rename_i goesOn
    rw [if_neg ((b.waits_iff _).mp (waits (Bool.not_eq_true _ ▸ goesOn)))]
    exact ⟨nofun, nofun⟩

/-- A wait that cannot begin ends the thread. -/
theorem raised_of_beginWait
    (not : ¬ (b.Multiplies s.failures ∧ (s.stop = false → b.Waits s.failures))) :
    ∃ error, (s.beginWait b).phase = .raised error := by
  by_cases multiplies : b.Multiplies s.failures
  · rcases Classical.not_imp.mp (not_and.mp not multiplies) with ⟨goesOn, long⟩
    rw [beginWait, Backend.reconnectDelay_of_multiplies multiplies]
    dsimp only
    rw [if_neg (by rw [goesOn]; exact Bool.false_ne_true),
      if_pos (not_not.mp (fun short => long ((b.waits_iff _).mpr short)))]
    exact ⟨_, rfl⟩
  · rw [beginWait, Backend.reconnectDelay_of_not_multiplies multiplies]
    exact ⟨_, rfl⟩

/-- The one step that can end the thread by an exception is the turn that begins a wait. -/
theorem keepsWatch_of_step (keeps : s.KeepsWatch) (survives : b.Survives s event)
    (stepped : s.step b event = some t) : t.KeepsWatch := by
  cases event with
  | stopSet =>
    cases stepped
    exact ⟨keeps.alive, fun _ => rfl⟩
  | stopClose =>
    rw [step] at stepped
    split at stepped
    · cases stepped
      exact ⟨keeps.alive, keeps.stopped⟩
    · cases stepped
  | test =>
    rw [step] at stepped
    split at stepped
    · cases stepped
      refine ⟨fun error => ?_, fun returned => ?_⟩
      · split <;> exact nofun
      · by_contra goesOn
        rw [if_neg goesOn] at returned
        cases returned
    · cases stepped
  | turn =>
    rw [step] at stepped
    split at stepped
    · rename_i turning
      split at stepped
      · cases stepped
        exact ⟨nofun, nofun⟩
      · rename_i unconnected
        cases stepped
        rcases survives rfl turning (Bool.not_eq_true _ ▸ unconnected) with ⟨multiplies, waits⟩
        exact keepsWatch_beginWait multiplies waits
    · cases stepped
  | wakes =>
    rw [step] at stepped
    split at stepped
    · split at stepped
      · rename_i stop
        cases stepped
        exact ⟨nofun, fun _ => stop⟩
      · cases stepped
    · cases stepped
  | timesOut =>
    rw [step] at stepped
    split at stepped
    · cases stepped
      exact ⟨nofun, nofun⟩
    · cases stepped
  | opens =>
    rw [step] at stepped
    split at stepped
    · cases stepped
      exact ⟨nofun, nofun⟩
    · cases stepped
  | openFails =>
    rw [step] at stepped
    split at stepped
    · cases stepped
      exact ⟨nofun, nofun⟩
    · cases stepped
  | notified =>
    rw [step] at stepped
    split at stepped
    · cases stepped
      exact ⟨nofun, nofun⟩
    · cases stepped
  | listenFails =>
    rw [step] at stepped
    split at stepped
    · split at stepped
      · rename_i stop
        cases stepped
        exact ⟨nofun, fun _ => stop⟩
      · cases stepped
        exact ⟨nofun, nofun⟩
    · cases stepped

/-- An event the watch does not survive ends the thread. -/
theorem raised_of_step (not : ¬ b.Survives s event) (stepped : s.step b event = some t) :
    ∃ error, t.phase = .raised error := by
  unfold Backend.Survives at not
  push Not at not
  rcases not with ⟨rfl, turning, unconnected, short⟩
  rw [step, turning] at stepped
  dsimp only at stepped
  rw [if_neg (by rw [unconnected]; exact Bool.false_ne_true), Option.some.injEq] at stepped
  rw [← stepped]
  apply raised_of_beginWait
  rintro ⟨multiplies, waits⟩
  rcases short multiplies with ⟨goesOn, long⟩
  exact long (waits goesOn)

/-- An exception that has ended the thread is not caught by anything later. -/
theorem raised_of_step_of_raised {error : PyError} (raised : s.phase = .raised error)
    (stepped : s.step b event = some t) : t.phase = .raised error := by
  cases event with
  | stopSet =>
    cases stepped
    exact raised
  | stopClose =>
    rw [step] at stepped
    split at stepped
    · cases stepped
      exact raised
    · cases stepped
  | test | turn | wakes | timesOut | opens | openFails | notified | listenFails =>
    rw [step, raised] at stepped
    cases stepped

/-! ### Runs -/

theorem raised_of_run {error : PyError} : ∀ {events : List Event} {s t : Watcher},
    s.phase = .raised error → s.run b events = some t → t.phase = .raised error
  | [], _, _, raised, ran => by
      cases ran
      exact raised
  | event :: events, s, t, raised, ran => by
      rcases Option.bind_eq_some_iff.mp ran with ⟨u, stepped, later⟩
      exact raised_of_run (raised_of_step_of_raised raised stepped) later

/-- The watch is kept exactly while every event is survived. -/
theorem keepsWatch_iff_of_run : ∀ {events : List Event} {s t : Watcher}, s.KeepsWatch →
    s.run b events = some t → (t.KeepsWatch ↔ EachStep b b.Survives s events)
  | [], s, t, keeps, ran => by
      cases ran
      exact iff_of_true keeps trivial
  | event :: events, s, t, keeps, ran => by
      rcases Option.bind_eq_some_iff.mp ran with ⟨u, stepped, later⟩
      by_cases survives : b.Survives s event
      · rw [keepsWatch_iff_of_run (keepsWatch_of_step keeps survives stepped) later]
        constructor
        · intro each
          refine ⟨survives, fun u' stepped' => ?_⟩
          cases stepped.symm.trans stepped'
          exact each
        · exact fun each => each.2 u stepped
      · rcases raised_of_step survives stepped with ⟨error, raised⟩
        apply iff_of_false
        · exact fun keepsWatch => keepsWatch.alive error (raised_of_run raised later)
        · exact fun each => survives each.1

theorem keepsWatch_started (connected : Bool) : (started connected).KeepsWatch := ⟨nofun, nofun⟩

end Watcher

/-- However long an outage: the delay is clamped, and the watcher watches until it is stopped,
exactly if the failures in a row stay below 1025 where the base delay is a float, and no wait is
longer than a wait can be. -/
theorem watcher_outlives_outages_iff (b : Backend) :
    (∀ failures, b.Clamps failures ↔ b.Multiplies failures) ∧
      ∀ connected events s, (Watcher.started connected).run b events = some s →
        (s.KeepsWatch ↔ Watcher.EachStep b b.Survives (Watcher.started connected) events) :=
  ⟨b.clamps_iff, fun connected _ _ ran =>
    Watcher.keepsWatch_iff_of_run (Watcher.keepsWatch_started connected) ran⟩

/-! ## A long outage -/

theorem finite_of_lt {x : ℚ} (small : x < 2 ^ 53) : x < 2 ^ 1024 :=
  lt_of_lt_of_le small (pow_le_pow_right₀ (by norm_num) (by norm_num))

/-- `0.5` -/
def half : Double :=
  ⟨1 / 2, ⟨1, -1, by norm_num, by norm_num, by norm_num⟩, finite_of_lt (by norm_num)⟩

/-- `5.0` -/
def five : Double :=
  ⟨5, ⟨5, 0, by norm_num, by norm_num, by norm_num⟩, finite_of_lt (by norm_num)⟩

/-- `threading.TIMEOUT_MAX` where a time is 64 bits of nanoseconds. -/
def timeoutMax : Double :=
  ⟨9223372036, ⟨9223372036, 0, by norm_num, by norm_num, by norm_num⟩,
    finite_of_lt (by norm_num)⟩

/-- `NOTIFY_RECONNECT_BASE_DELAY` and `NOTIFY_RECONNECT_MAX_DELAY` -/
def defaultBackend : Backend := ⟨.float half, .float five, timeoutMax⟩

namespace Watcher

/-- A watcher without a connection, after so many failures. -/
def out (failures : ℕ) : Watcher := ⟨false, false, failures, true, .looping⟩

/-- So many attempts to connect again, all of which fail. -/
def outage : ℕ → List Event
  | 0 => []
  | attempts + 1 => .test :: .turn :: .timesOut :: .openFails :: outage attempts

/-- The attempts of an outage, one after the other. -/
theorem run_outage : ∀ {attempts failures : ℕ} (events : List Event),
    failures + attempts ≤ 1025 →
    (out failures).run defaultBackend (outage attempts ++ events) =
      (out (failures + attempts)).run defaultBackend events
  | 0, _, _, _ => rfl
  | attempts + 1, failures, events, few => by
      have multiplies : defaultBackend.Multiplies failures := fun _ => by omega
      have waits : defaultBackend.Waits failures := by
        apply Or.inl
        apply WithTop.coe_le_coe.mpr
        change (5 : ℚ) ≤ 9223372036
        norm_num
      have turned : beginWait defaultBackend { out failures with phase := .turning } =
          { out failures with phase := .waiting ((defaultBackend.reconnectBaseDelay.scaled
            (failures - 1)).min defaultBackend.reconnectMaxDelay) } := by
        rw [beginWait]
        dsimp only [out]
        rw [Backend.reconnectDelay_of_multiplies multiplies]
        exact if_neg ((defaultBackend.waits_iff _).mp waits)
      have round : (out failures).run defaultBackend (outage (attempts + 1) ++ events) =
          (out (failures + 1)).run defaultBackend (outage attempts ++ events) := by
        change ((some (beginWait defaultBackend { out failures with phase := .turning })).bind
          (fun s => s.run defaultBackend (.timesOut :: .openFails :: (outage attempts ++ events)))) = _
        rw [turned]
        rfl
      rw [round, run_outage events (by omega), Nat.add_right_comm, Nat.add_assoc]

/-- The database is gone for 1025 attempts: the watcher ends by an exception, and nobody stopped
it. -/
theorem watcher_ends_in_long_outage :
    ¬ defaultBackend.Clamps 1025 ∧
      ∃ s, (started false).run defaultBackend (outage 1025 ++ [.test, .turn]) = some s ∧
        s.phase = .raised (.overflowError "int too large to convert to float") ∧
        s.stop = false := by
  have not : ¬ defaultBackend.Multiplies 1025 := fun multiplies =>
    absurd (multiplies trivial) (by norm_num)
  refine ⟨fun clamps => not ((defaultBackend.clamps_iff 1025).mp clamps), ?_⟩
  have raised : beginWait defaultBackend { out 1025 with phase := .turning } =
      { out 1025 with phase := .raised (.overflowError "int too large to convert to float") } := by
    rw [beginWait]
    dsimp only [out]
    rw [Backend.reconnectDelay_of_not_multiplies not]
  refine ⟨{ out 1025 with phase := .raised (.overflowError "int too large to convert to float") },
    ?_, rfl, rfl⟩
  rw [show started false = out 0 from rfl, run_outage _ (by norm_num)]
  change (some (beginWait defaultBackend { out 1025 with phase := .turning })).bind _ = _
  rw [raised]
  rfl

end Watcher

end DjQueue.Notify
