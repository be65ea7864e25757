import Fleet.Job

/-!
# Phases

A phase is what is sent out at the same time.  A phase may have a leader step: a command that runs on one
host before everything else, and a barrier that the jobs of the other hosts wait at.
-/

namespace Fleet

/-- What the other hosts wait for: the leader's port, if one is given, and then a delay in milliseconds. -/
structure Barrier where
  delay : UInt64
  port : Option UInt16
  deriving DecidableEq, Inhabited

/-- The leader's command and the barrier behind it. -/
structure LeaderStep where
  job : Job
  barrier : Barrier
  deriving DecidableEq, Inhabited

/-- What is sent out at the same time. -/
structure Phase where
  jobClass : JobClass
  leader : Option LeaderStep
  jobs : List Job
  /-- the ids of active hosts that get no job -/
  skipped : List String
  deriving DecidableEq, Inhabited

def Phase.ofJobs (jobClass : JobClass) (jobs : List Job) : Phase := ⟨jobClass, none, jobs, []⟩

end Fleet
