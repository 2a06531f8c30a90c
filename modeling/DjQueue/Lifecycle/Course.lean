import DjQueue.Reads.Status
import DjQueue.Slots.Parts

/-!
# Where an operation may take a job

A lifecycle is a graph over the statuses of a job, with the jobs that do not exist as a status of
its own.  An operation follows a set of edges when every job is, at every point of it, still where
it was or at the end of one edge from there.  While the operation runs a job may have no state at
all: what it says is about the rows there are, and so it can be proved one write at a time.
-/

namespace DjQueue

open Relational

/-- From one status to another; a job that does not exist has none. -/
abbrev Edge := Option JobStatus × Option JobStatus

/-- The status of the job with this key. -/
def Db.statusOf (db : Db) (id : JobId) : Option JobStatus := (db.findJob id).bind db.status

/-- The tables show the job in this state. -/
def Db.Shows (db : Db) : Option JobStatus → JobId → Prop
  | none, id => id ∉ db.jobs.map Job.id
  | some (.live m), id => id ∈ db.stateJobIds m
  | some .finished, id => ∃ j ∈ db.jobs, j.id = id ∧ j.finishedAt.isSome = true
  | some .invalid, _ => False

/-- The job was there at the start, or where an edge to it starts. -/
def Comes (edges : List Edge) (start : Db) (q : Option JobStatus) (id : JobId) : Prop :=
  start.Shows q id ∨ ∃ p, (p, q) ∈ edges ∧ start.Shows p id

/-- What a job that has finished leaves. -/
def Job.result (j : Job) : Option Time × Option String := (j.finishedAt, j.returnValue)

/-- Every job is where it was at the start or where an edge from there leads; the results of the
jobs that had finished are as they were. -/
structure Follows (edges : List Edge) (start db : Db) : Prop where
  rows : ∀ m, ∀ id ∈ db.stateJobIds m, Comes edges start (some (.live m)) id
  jobs : ∀ j' ∈ db.jobs, (∃ j ∈ start.jobs, j'.id = j.id ∧ j'.result = j.result) ∨
    (¬ start.Shows (some .finished) j'.id ∧
      (j'.finishedAt.isSome = true → Comes edges start (some .finished) j'.id))
  kept : ∀ j ∈ start.jobs, j.id ∈ db.jobs.map Job.id ∨ Comes edges start none j.id

theorem Follows.refl (edges : List Edge) (db : Db) : Follows edges db db where
  rows _ _ mem := .inl mem
  jobs j mem := .inl ⟨j, mem, rfl, rfl⟩
  kept _ mem := .inl (List.mem_map_of_mem mem)

section Edges

variable {edges : List Edge} {start : Db} {id : JobId} {p q : Option JobStatus}

theorem Comes.mono {edges' : List Edge} (comes : Comes edges start q id)
    (more : ∀ e ∈ edges, e ∈ edges') : Comes edges' start q id := by
  rcases comes with stays | ⟨p, edge, was⟩
  · exact .inl stays
  · exact .inr ⟨p, more _ edge, was⟩

theorem Follows.mono {edges' : List Edge} {db : Db} (follows : Follows edges start db)
    (more : ∀ e ∈ edges, e ∈ edges') : Follows edges' start db where
  rows m id mem := (follows.rows m id mem).mono more
  jobs j mem := (follows.jobs j mem).imp_right fun changed =>
    ⟨changed.1, fun done => (changed.2 done).mono more⟩
  kept j mem := (follows.kept j mem).imp_right fun gone => gone.mono more

/-- No edge leads into `p`, and one leads from `p` to `q`: a job at `p` was there at the start. -/
theorem Comes.along (comes : Comes edges start p id) (first : ∀ o, (o, p) ∉ edges)
    (edge : (p, q) ∈ edges) : Comes edges start q id := by
  rcases comes with stays | ⟨o, into, -⟩
  · exact .inr ⟨p, edge, stays⟩
  · exact absurd into (first o)

/-- A state that no edge leads to is one the job began in. -/
theorem Comes.stayed (comes : Comes edges start p id) (first : ∀ o, (o, p) ∉ edges) :
    start.Shows p id := by
  rcases comes with stays | ⟨o, into, -⟩
  · exact stays
  · exact absurd into (first o)

end Edges

/-! ## What the tables show -/

namespace Accounts

variable {a : Audit} {hand : List JobId} {owed : Nat} {db : Db} {id : JobId}

/-- The state a job is in is the only one that shows. -/
theorem statusOf_eq_of_shows (good : Accounts a [] 0 db) {p : Option JobStatus}
    (shows_ : db.Shows p id) : db.statusOf id = p := by
  cases p with
  | none =>
      have absent : db.findJob id = none := by
        apply List.find?_eq_none.mpr
        intro j mem same
        exact shows_ (List.mem_map.mpr ⟨j, mem, beq_iff_eq.mp same⟩)
      rw [Db.statusOf, absent]
      rfl
  | some status =>
      have of_job : ∀ j ∈ db.jobs, j.id = id → (stateQuery status).holds db j = true →
          db.statusOf id = some status := by
        intro j mem same holds
        rw [Db.statusOf, ← same, good.findJob_of_mem mem]
        exact (holds_stateQuery_iff status).mp holds
      cases status with
      | live m =>
          rcases good.job_of_mem_stateJobIds shows_ with ⟨j, mem, same⟩
          apply of_job j mem same
          have has : db.hasState m j.id = true := List.contains_iff_mem.mpr (same ▸ shows_)
          simp [stateQuery, jobStatusQueryFilter, Q.holds, good.status_ne_invalid mem, has]
      | finished =>
          rcases shows_ with ⟨j, mem, same, done⟩
          apply of_job j mem same
          simp [stateQuery, jobStatusQueryFilter, Q.holds, good.status_ne_invalid mem, done]
      | invalid => exact shows_.elim

/-- A job is in some state. -/
theorem exists_shows (good : Accounts a [] 0 db) (id : JobId) : ∃ p, db.Shows p id := by
  by_cases mem : id ∈ db.jobs.map Job.id
  · rcases List.mem_map.mp mem with ⟨j, there, same⟩
    by_cases done : j.finishedAt.isSome = true
    · exact ⟨some .finished, j, there, same, done⟩
    · rcases good.exists_state there done with ⟨m, has⟩
      exact ⟨some (.live m), same ▸ has⟩
  · exact ⟨none, mem⟩

/-- A job shows its status and no other. -/
theorem shows_iff (good : Accounts a [] 0 db) {p : Option JobStatus} :
    db.Shows p id ↔ db.statusOf id = p := by
  constructor
  · exact good.statusOf_eq_of_shows
  · intro status
    rcases good.exists_shows id with ⟨q, shows_⟩
    rw [good.statusOf_eq_of_shows shows_] at status
    exact status ▸ shows_

/-- From a sound database to another, the status is the same or follows an edge. -/
theorem status_of_comes (good : Accounts a [] 0 db) {edges : List Edge} {q : Option JobStatus}
    (comes : Comes edges db q id) : q = db.statusOf id ∨ (db.statusOf id, q) ∈ edges := by
  rcases comes with stays | ⟨p, edge, was⟩
  · exact .inl (good.statusOf_eq_of_shows stays).symm
  · rw [good.statusOf_eq_of_shows was]
    exact .inr edge

end Accounts

/-- What following the edges comes to once nobody is in hand. -/
theorem Follows.status {a a' : Audit} {edges : List Edge} {start db : Db}
    (follows : Follows edges start db) (good : Accounts a [] 0 start)
    (good' : Accounts a' [] 0 db) (id : JobId) :
    db.statusOf id = start.statusOf id ∨ (start.statusOf id, db.statusOf id) ∈ edges := by
  rcases good'.exists_shows id with ⟨q, shows_⟩
  rw [good'.statusOf_eq_of_shows shows_]
  apply good.status_of_comes
  cases q with
  | none =>
      by_cases was : id ∈ start.jobs.map Job.id
      · rcases List.mem_map.mp was with ⟨j, there, same⟩
        rcases follows.kept j there with still | gone
        · exact absurd (same ▸ still) shows_
        · exact same ▸ gone
      · exact .inl was
  | some status =>
      cases status with
      | live m => exact follows.rows m id shows_
      | finished =>
          rcases shows_ with ⟨j', mem, same, done⟩
          rcases follows.jobs j' mem with ⟨j, there, id', result⟩ | ⟨-, changed⟩
          · have done : j.finishedAt.isSome = true := by
              rw [← (Prod.mk.inj result).1]
              exact done
            exact .inl ⟨j, there, id'.symm.trans same, done⟩
          · exact same ▸ changed done
      | invalid => exact shows_.elim

/-- A job that had finished and is still there has the result it had. -/
theorem Follows.result {a : Audit} {edges : List Edge} {start db : Db}
    (follows : Follows edges start db) (good : Accounts a [] 0 start) {j j' : Job}
    (mem : j ∈ start.jobs) (mem' : j' ∈ db.jobs) (same : j'.id = j.id)
    (done : j.finishedAt.isSome = true) : j'.result = j.result := by
  rcases follows.jobs j' mem' with ⟨i, there, id, result⟩ | ⟨open_, -⟩
  · rw [good.eq_of_id there mem (id.symm.trans same)] at result
    exact result
  · exact absurd ⟨j, mem, same.symm, done⟩ open_

end DjQueue
