import LintPool.Text.Bytes

/-!
# Schedules

The files of a job are cut into batches of a fixed size, in order, and the number of worker
processes is chosen so that each has a least number of batches to do, within a maximum. All settings
are 64-bit integers; one that is not positive counts as one.

## Main definitions

* `LintPool.Schedule` : batches and a number of processes.
* `LintPool.Schedule.plan` : the schedule for a list of files.
-/

namespace LintPool

/-- How the files of a job are shared out. -/
structure Schedule where
  processes : Int64
  jobs : List (List Bytes)

namespace Schedule

/-- A setting raised to at least one. -/
def atLeastOne (n : Int64) : Int64 := if n < 1 then 1 else n

/-- A list cut into parts of `size + 1` elements; the last part may be shorter. -/
def chunks {α : Type} (size : Nat) (xs : List α) : List (List α) :=
  match xs with
  | [] => []
  | x :: xs => (x :: xs.take size) :: chunks size (xs.drop size)
termination_by xs.length
decreasing_by
  simp only [List.length_drop, List.length_cons]
  omega

/-- The number of processes for `jobs` batches: enough for each to have `minJobs` of them, at least
one and at most `maxProcesses`. The sum is taken in 64 bits. -/
def processesFor (jobs maxProcesses minJobs : Int64) : Int64 :=
  max 1 (min maxProcesses ((jobs + minJobs - 1) / minJobs))

/-- The schedule of a list of files. -/
def plan (files : List Bytes) (maxProcesses jobSize minJobs : Int64) : Schedule :=
  let jobs := chunks ((atLeastOne jobSize).toNatClampNeg - 1) files
  if jobs.isEmpty then { processes := 0, jobs := [] }
  else
    { processes :=
        processesFor (Int64.ofNat jobs.length) (atLeastOne maxProcesses) (atLeastOne minJobs)
      jobs }

end Schedule

end LintPool
