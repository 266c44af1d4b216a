/-
A worker for trials of a consumer: its jobs take a set time, and the first attempts at a job may
break down at their end.
-/
import Pipeworks.Runner.Consumer

namespace Pipeworks.Runner

inductive Mark where
  | start
  | finish
  | breakdown
  deriving DecidableEq

/-- How the jobs of a trial go, by the pipelines of their work. -/
structure Trial where
  delay : Int64 → Nat
  /-- How many attempts break down. -/
  breakdowns : Int64 → Nat

namespace Trial

/-- What has happened in a trial: when, what, and to which pipeline. -/
abbrev Notes : Type := List (Nat × Mark × Int64)

/-- How many attempts at a job have broken down. -/
def failures (notes : Notes) (id : Int64) : Nat :=
  notes.countP fun (_, mark, other) => mark == .breakdown && other == id

/-- A job is the pipeline that it is for, and whether it has been started. -/
def worker (t : Trial) : Worker Notes (Int64 × Bool) where
  begin work := (work.pipeline.id, false)
  proceed now job notes :=
    match job with
    | (id, false) =>
      (.waits (some (now + t.delay id)) (id, true), notes ++ [(now, .start, id)])
    | (id, true) =>
      if failures notes id < t.breakdowns id then (.brokeDown, notes ++ [(now, .breakdown, id)])
      else (.ended, notes ++ [(now, .finish, id)])

end Trial

end Pipeworks.Runner
