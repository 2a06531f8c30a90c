import DjQueue.Relational.Interleaving

/-!
# The pidfile of the supervisor

`runtime/pidfile.py`.  `acquire` opens the path, takes a lock on the file it got without waiting
for it, and writes its pid; `release` unlinks the path if the file still holds its pid, and then
gives up the lock.

The lock is on the file, and supervisors meet at the path.  A process that opened the file
before a release unlinked it gets the lock of a file nobody will find any more, and a third
process that creates a new file gets the lock of that one.
-/

namespace DjQueue.PidFile

open Relational

/-- Where a process is in `acquire` or `release`, with the file it has open. -/
inductive Phase where
  | idle
  | opened (file : Nat)
  /-- `BlockingIOError` -/
  | refused (file : Nat)
  | locked (file : Nat)
  | truncated (file : Nat)
  /-- `acquire` has returned. -/
  | held (file : Nat)
  /-- `release` has started. -/
  | releasing (file : Nat)
  | matched (file : Nat)
  | unlocking (file : Nat)
  | unlocked (file : Nat)
deriving DecidableEq, Repr

/-- `path` is the file the path names, `content` what `_read_pid_file` reads in a file, `lock` the
process whose open file has the exclusive lock. -/
structure State where
  path : Option Nat
  nextFile : Nat
  content : Nat → Option Int
  lock : Nat → Option Nat
  phase : Pool Phase

/-- What a process does next. -/
inductive Event where
  | open
  | flock
  | truncate
  /-- `write`, `flush`, `fsync` -/
  | write
  /-- One of these, or `truncate`, raises: the file is dropped. -/
  | writeFails
  | release
  | read
  | unlink
  /-- An `OSError` of `unlink`, which is passed over. -/
  | unlinkFails
  | unlock
  | close
deriving DecidableEq, Repr

namespace State

/-- A process in a phase. -/
def enter (s : State) (p : Nat) (x : Phase) : State := { s with phase := s.phase.set p x }

/-- The text of a file. -/
def setContent (s : State) (file : Nat) (text : Option Int) : State :=
  { s with content := Function.update s.content file text }

/-- The owner of a file's lock. -/
def setLock (s : State) (file : Nat) (owner : Option Nat) : State :=
  { s with lock := Function.update s.lock file owner }

/-- `open("a+")`: the file at the path, or a new one. -/
def openPath (s : State) (p : Nat) : State :=
  match s.path with
  | some file => s.enter p (.opened file)
  | none =>
      ({ s with path := some s.nextFile, nextFile := s.nextFile + 1 }.setContent s.nextFile
        none).enter p (.opened s.nextFile)

end State

/-- The event of process `p`, whose `self.pid` is `pid p`, if it is the next of its code. -/
def act (pid : Nat → Int) (s : State) (p : Nat) : Event → Option State
  | .open =>
      match s.phase p with
      | .idle => some (s.openPath p)
      | _ => none
  | .flock =>
      match s.phase p with
      | .opened file =>
          match s.lock file with
          | none => some ((s.setLock file (some p)).enter p (.locked file))
          | some _ => some (s.enter p (.refused file))
      | _ => none
  | .truncate =>
      match s.phase p with
      | .locked file => some ((s.setContent file none).enter p (.truncated file))
      | _ => none
  | .write =>
      match s.phase p with
      | .truncated file => some ((s.setContent file (some (pid p))).enter p (.held file))
      | _ => none
  | .writeFails =>
      match s.phase p with
      | .locked file | .truncated file => some ((s.setLock file none).enter p .idle)
      | _ => none
  | .release =>
      match s.phase p with
      | .held file => some (s.enter p (.releasing file))
      | _ => none
  | .read =>
      match s.phase p with
      | .releasing file =>
          some (s.enter p (if s.content file = some (pid p) then .matched file else .unlocking file))
      | _ => none
  | .unlink =>
      match s.phase p with
      | .matched file => some ({ s with path := none }.enter p (.unlocking file))
      | _ => none
  | .unlinkFails =>
      match s.phase p with
      | .matched file => some (s.enter p (.unlocking file))
      | _ => none
  | .unlock =>
      match s.phase p with
      | .unlocking file => some ((s.setLock file none).enter p (.unlocked file))
      | _ => none
  | .close =>
      match s.phase p with
      | .refused _ | .unlocked _ => some (s.enter p .idle)
      | _ => none

/-- One event of any process, taken where `meets` holds. -/
def Step (pid : Nat → Int) (meets : State → Nat → Event → Prop) (s t : State) : Prop :=
  ∃ p e, meets s p e ∧ act pid s p e = some t

/-- No process has the file open; it may be there from before. -/
structure State.Starts (s : State) : Prop where
  idle : ∀ p, s.phase p = .idle
  unlocked : ∀ file, s.lock file = none

/-- The process has returned from `acquire` and not started `release`. -/
def State.Holds (s : State) (p : Nat) : Prop := ∃ file, s.phase p = .held file

/-! ## Prompt locks -/

/-- A lock that is given is of the file that the path names at that moment. -/
def Prompt (s : State) (p : Nat) : Event → Prop
  | .flock => ∀ file, s.phase p = .opened file → s.lock file = none → s.path = some file
  | _ => True

/-- The file the process has the lock of. -/
def Phase.lockedFile : Phase → Option Nat
  | .locked file | .truncated file | .held file | .releasing file | .matched file
  | .unlocking file => some file
  | _ => none

/-- The same, up to the unlink. -/
def Phase.namedFile : Phase → Option Nat
  | .unlocking _ => none
  | x => x.lockedFile

theorem Phase.lockedFile_of_namedFile {x : Phase} {file : Nat} (named : x.namedFile = some file) :
    x.lockedFile = some file := by
  cases x <;> first | exact named | cases named

/-- Every process has the lock of its file, and a named file is the one at the path. -/
structure State.Guarded (s : State) : Prop where
  locks : ∀ p file, (s.phase p).lockedFile = some file → s.lock file = some p
  named : ∀ p file, (s.phase p).namedFile = some file → s.path = some file

namespace State.Guarded

variable {s : State}

/-- One process at most is between its lock and its unlink. -/
theorem unique (guarded : s.Guarded) {p q file file' : Nat}
    (first : (s.phase p).namedFile = some file) (second : (s.phase q).namedFile = some file') :
    p = q := by
  have same : file = file' :=
    Option.some.inj ((guarded.named p file first).symm.trans (guarded.named q file' second))
  subst same
  have mine := guarded.locks p file (Phase.lockedFile_of_namedFile first)
  have yours := guarded.locks q file (Phase.lockedFile_of_namedFile second)
  exact Option.some.inj (mine.symm.trans yours)

/-- A process moves on with the lock it has, or has none of. -/
theorem enter (guarded : s.Guarded) (p : Nat) (x : Phase)
    (locks : ∀ file, x.lockedFile = some file → (s.phase p).lockedFile = some file)
    (named : ∀ file, x.namedFile = some file → (s.phase p).namedFile = some file) :
    (s.enter p x).Guarded where
  locks := Pool.forall_set
    (P := fun q (y : Phase) => ∀ file, y.lockedFile = some file → s.lock file = some q)
    (fun file has => guarded.locks p file (locks file has)) fun q _ => guarded.locks q
  named := Pool.forall_set
    (P := fun _ (y : Phase) => ∀ file, y.namedFile = some file → s.path = some file)
    (fun file has => guarded.named p file (named file has)) fun q _ => guarded.named q

theorem setContent (guarded : s.Guarded) (file : Nat) (text : Option Int) :
    (s.setContent file text).Guarded := ⟨guarded.locks, guarded.named⟩

/-- The lock of the file is free, and the path names it. -/
theorem lock (guarded : s.Guarded) {p file : Nat} (free : s.lock file = none)
    (here : s.path = some file) :
    ((s.setLock file (some p)).enter p (.locked file)).Guarded where
  locks := Pool.forall_set
    (P := fun q (y : Phase) => ∀ f, y.lockedFile = some f →
      Function.update s.lock file (some p) f = some q)
    (fun f has => by
      obtain rfl : file = f := Option.some.inj has
      exact Function.update_self ..)
    fun q _ f has => by
      have other := guarded.locks q f has
      have ne : f ≠ file := by
        rintro rfl
        rw [free] at other
        cases other
      rw [Function.update_of_ne ne]
      exact other
  named := Pool.forall_set
    (P := fun _ (y : Phase) => ∀ f, y.namedFile = some f → s.path = some f)
    (fun f has => by
      obtain rfl : file = f := Option.some.inj has
      exact here)
    fun q _ => guarded.named q

/-- The lock is given up. -/
theorem unlock (guarded : s.Guarded) {p file : Nat} {x : Phase}
    (mine : (s.phase p).lockedFile = some file) (out : x.lockedFile = none) :
    ((s.setLock file none).enter p x).Guarded where
  locks := Pool.forall_set
    (P := fun q (y : Phase) => ∀ f, y.lockedFile = some f → Function.update s.lock file none f = some q)
    (fun f has => by rw [out] at has; cases has)
    fun q ne f has => by
      have other := guarded.locks q f has
      have apart : f ≠ file := by
        rintro rfl
        exact ne (Option.some.inj (other.symm.trans (guarded.locks p f mine)))
      rw [Function.update_of_ne apart]
      exact other
  named := Pool.forall_set
    (P := fun _ (y : Phase) => ∀ f, y.namedFile = some f → s.path = some f)
    (fun f has => by
      rw [Phase.lockedFile_of_namedFile has] at out
      cases out)
    fun q _ => guarded.named q

/-- Nobody else relies on the path. -/
theorem unlink (guarded : s.Guarded) {p file : Nat} (phase : s.phase p = .matched file) :
    ({ s with path := none }.enter p (.unlocking file)).Guarded where
  locks := Pool.forall_set
    (P := fun q (y : Phase) => ∀ f, y.lockedFile = some f → s.lock f = some q)
    (fun f has => guarded.locks p f (by rw [phase]; exact has)) fun q _ => guarded.locks q
  named := Pool.forall_set
    (P := fun _ (y : Phase) => ∀ f, y.namedFile = some f → (none : Option Nat) = some f)
    (fun f has => by cases has)
    fun q ne f has => by
      have mine : (s.phase p).namedFile = some file := by rw [phase]; rfl
      exact absurd (guarded.unique has mine) ne

theorem openPath (guarded : s.Guarded) (p : Nat) : (s.openPath p).Guarded := by
  unfold State.openPath
  split
  · exact guarded.enter p _ (fun f has => by cases has) (fun f has => by cases has)
  · rename_i gone
    have created : State.Guarded { s with path := some s.nextFile, nextFile := s.nextFile + 1 } := by
      refine ⟨guarded.locks, fun q f has => ?_⟩
      have named := guarded.named q f has
      rw [gone] at named
      cases named
    exact (created.setContent s.nextFile none).enter p _ (fun f has => by cases has)
      (fun f has => by cases has)

end State.Guarded

theorem State.Starts.guarded {s : State} (starts : s.Starts) : s.Guarded where
  locks p file has := by rw [starts.idle p] at has; cases has
  named p file has := by rw [starts.idle p] at has; cases has

/-! ## What an event does -/

/-- A process opens the path, gets a lock, moves on with the lock it has or has none of, gives its
lock up, or unlinks the path. -/
inductive Effect (s : State) (p : Nat) : Event → State → Prop
  | opens : Effect s p .open (s.openPath p)
  | locks {file : Nat} (phase : s.phase p = .opened file) (free : s.lock file = none) :
      Effect s p .flock ((s.setLock file (some p)).enter p (.locked file))
  | moves {e : Event} {x y : Phase} (content : Nat → Option Int) (phase : s.phase p = y)
      (locked : ∀ file, x.lockedFile = some file → y.lockedFile = some file)
      (named : ∀ file, x.namedFile = some file → y.namedFile = some file) :
      Effect s p e ({ s with content := content }.enter p x)
  | unlocks {e : Event} {x y : Phase} {file : Nat} (phase : s.phase p = y)
      (mine : y.lockedFile = some file) (out : x.lockedFile = none) :
      Effect s p e ((s.setLock file none).enter p x)
  | unlinks {file : Nat} (phase : s.phase p = .matched file) :
      Effect s p .unlink ({ s with path := none }.enter p (.unlocking file))

theorem effect_of_act {pid : Nat → Int} {s t : State} {p : Nat} {e : Event}
    (done : act pid s p e = some t) : Effect s p e t := by
  cases e with
  | «open» =>
      simp only [act] at done
      split at done <;> cases done
      exact .opens
  | flock =>
      simp only [act] at done
      split at done
      · rename_i file phase
        split at done <;> cases done
        · rename_i free
          exact .locks phase free
        · exact .moves s.content phase nofun nofun
      · cases done
  | truncate | write | release =>
      simp only [act] at done
      split at done <;> cases done
      rename_i file phase
      exact .moves _ phase (fun _ has => has) fun _ has => has
  | writeFails =>
      simp only [act] at done
      split at done <;> cases done
      all_goals
        rename_i file phase
        exact .unlocks phase rfl rfl
  | read =>
      simp only [act] at done
      split at done <;> cases done
      rename_i file phase
      split
      · exact .moves s.content phase (fun _ has => has) fun _ has => has
      · exact .moves s.content phase (fun _ has => has) nofun
  | unlink =>
      simp only [act] at done
      split at done <;> cases done
      rename_i file phase
      exact .unlinks phase
  | unlinkFails =>
      simp only [act] at done
      split at done <;> cases done
      rename_i file phase
      exact .moves s.content phase (fun _ has => has) nofun
  | unlock =>
      simp only [act] at done
      split at done <;> cases done
      rename_i file phase
      exact .unlocks phase rfl rfl
  | close =>
      simp only [act] at done
      split at done <;> cases done
      all_goals
        rename_i file phase
        exact .moves s.content phase nofun nofun

/-- A step with prompt locks keeps the guards. -/
theorem guarded_of_step {pid : Nat → Int} {s t : State} (guarded : s.Guarded)
    (step : Step pid Prompt s t) : t.Guarded := by
  obtain ⟨p, e, prompt, done⟩ := step
  cases effect_of_act done with
  | opens => exact guarded.openPath p
  | locks phase free => exact guarded.lock free (prompt _ phase free)
  | moves content phase locked named =>
      have kept : State.Guarded { s with content := content } := ⟨guarded.locks, guarded.named⟩
      exact kept.enter p _ (phase ▸ locked) (phase ▸ named)
  | unlocks phase mine out => exact guarded.unlock (phase ▸ mine) out
  | unlinks phase => exact guarded.unlink phase

/-- As long as every lock that is given is of the file that the path still names, one process at most
has acquired the pidfile. -/
theorem one_holder_of_prompt_locks {pid : Nat → Int} {s t : State} (starts : s.Starts)
    (run : Reach (Step pid Prompt) s t) {p q : Nat} (first : t.Holds p) (second : t.Holds q) :
    p = q := by
  have guarded : t.Guarded := Reach.invariant (I := State.Guarded) guarded_of_step starts.guarded run
  obtain ⟨file, mine⟩ := first
  obtain ⟨file', yours⟩ := second
  exact guarded.unique (by rw [mine]; rfl) (by rw [yours]; rfl)

/-! ## Two histories -/

/-- No file yet. -/
def noFile : State := ⟨none, 1, fun _ => none, fun _ => none, fun _ => .idle⟩

theorem starts_noFile : noFile.Starts := ⟨fun _ => rfl, fun _ => rfl⟩

/-- The state after the events, each by the process before it; an event out of turn changes
nothing. -/
def after (pid : Nat → Int) : State → List (Nat × Event) → State
  | s, [] => s
  | s, (p, e) :: rest => after pid ((act pid s p e).getD s) rest

/-- The events come in turn, and each meets the condition. -/
def InTurn (pid : Nat → Int) (meets : State → Nat → Event → Prop) : State → List (Nat × Event) → Prop
  | _, [] => True
  | s, (p, e) :: rest =>
      meets s p e ∧ (act pid s p e).isSome = true ∧
        InTurn pid meets ((act pid s p e).getD s) rest

theorem reach_after {pid : Nat → Int} {meets : State → Nat → Event → Prop} :
    ∀ (events : List (Nat × Event)) (s : State), InTurn pid meets s events →
      Reach (Step pid meets) s (after pid s events)
  | [], _, _ => .refl
  | (p, e) :: rest, s, ⟨met, inTurn, later⟩ => by
      obtain ⟨t, done⟩ := Option.isSome_iff_exists.mp inTurn
      rw [done] at later
      have run := reach_after rest t later
      refine Relation.ReflTransGen.head ⟨p, e, met, done⟩ ?_
      rw [after, done]
      exact run

/-- The steps of acquiring. -/
def acquire (p : Nat) : List (Nat × Event) := [(p, .open), (p, .flock), (p, .truncate), (p, .write)]

/-- The steps of releasing. -/
def release (p : Nat) : List (Nat × Event) :=
  [(p, .release), (p, .read), (p, .unlink), (p, .unlock), (p, .close)]

/-- A supervisor comes and goes, and the next one holds the pidfile alone. -/
theorem one_holder_after_release :
    (after (fun p => p) noFile (acquire 1 ++ release 1 ++ acquire 2)).Holds 2 ∧
      ∀ q, (after (fun p => p) noFile (acquire 1 ++ release 1 ++ acquire 2)).Holds q → q = 2 := by
  have run : Reach (Step (fun p => p) Prompt) noFile
      (after (fun p => p) noFile (acquire 1 ++ release 1 ++ acquire 2)) := by
    refine reach_after _ _ ?_
    refine ⟨trivial, rfl, ?_, rfl, trivial, rfl, trivial, rfl, trivial, rfl, trivial, rfl, trivial, rfl,
      trivial, rfl, trivial, rfl, trivial, rfl, ?_, rfl, trivial, rfl, trivial, rfl, trivial⟩
    · rintro file ⟨⟩ -
      rfl
    · rintro file ⟨⟩ -
      rfl
  have second : (after (fun p => p) noFile (acquire 1 ++ release 1 ++ acquire 2)).Holds 2 := ⟨2, rfl⟩
  exact ⟨second, fun q held => one_holder_of_prompt_locks starts_noFile run held second⟩

/-- Process 2 opens the file while process 1 still has it locked, and gets its lock after process 1
has unlinked it; process 3 creates a new file.  Both return from `acquire`. -/
def staleLock : List (Nat × Event) :=
  acquire 1 ++ [(2, .open)] ++ release 1 ++ [(2, .flock), (2, .truncate), (2, .write)] ++ acquire 3

/-- A lock on a file already unlinked: two holders. -/
theorem stale_lock_admits_second_holder :
    ¬ ∀ (pid : Nat → Int) (s t : State), s.Starts → Reach (Step pid fun _ _ _ => True) s t →
      ∀ p q, t.Holds p → t.Holds q → p = q := by
  intro always
  have run : Reach (Step (fun p => p) fun _ _ _ => True) noFile
      (after (fun p => p) noFile staleLock) := by
    refine reach_after _ _ ?_
    repeat first | exact trivial | refine ⟨trivial, rfl, ?_⟩
  have same : 2 = 3 := always (fun p => p) _ _ starts_noFile run 2 3 ⟨1, rfl⟩ ⟨2, rfl⟩
  omega

end DjQueue.PidFile
