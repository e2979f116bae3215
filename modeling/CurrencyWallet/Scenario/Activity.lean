import CurrencyWallet.Scenario.World

/-!
Running a script. Within a moment everything runs that can: first the step, then the resolutions,
and again until all of them wait. Then time moves to the next moment at which anything happens.
-/
namespace CurrencyWallet.Scenario

inductive Activity where
  | idle
  | scheduled (due : Nat) (step : Step)
  | waiting (wait : Wait)
  | finished (answer : Answer)
  /-- A main activity, the answers of the steps beside it in reverse, the one that is under way,
  the ones that follow, and the moment from which their times count. -/
  | together (main : Activity) (answers : List Answer) (current : Activity) (rest : List Step)
      (since : Nat)

namespace Activity

def nextBeside (since : Nat) : List Step → Activity × List Step
  | [] => (idle, [])
  | s :: rest => (scheduled (since + s.startAt) s, rest)

def start (w : World) : Step → World × Activity
  | .step _ action beside =>
    let (w', wait) := w.begin action
    match beside with
    | none => (w', waiting wait)
    | some steps =>
      let (current, rest) := nextBeside w.now steps
      (w', together (waiting wait) [] current rest w.now)

def answer? : Activity → Option Answer
  | finished a => some a
  | together main answers idle [] _ => main.answer?.map fun a => .together a answers.reverse
  | _ => none

def poll (w : World) : Activity → Bool × World × Activity
  | idle => (false, w, idle)
  | finished a => (false, w, finished a)
  | scheduled due step =>
    if due ≤ w.now then (true, start w step) else (false, w, scheduled due step)
  | waiting wait =>
    match wait.poll w with
    | none => (false, w, waiting wait)
    | some (w, a) => (true, w, finished a)
  | together main answers current rest since =>
    let (moved, w, main) := main.poll w
    let (movedBeside, w, current) := current.poll w
    match current.answer? with
    | some a =>
      let (current, rest) := nextBeside since rest
      (true, w, together main (a :: answers) current rest since)
    | none => (moved || movedBeside, w, together main answers current rest since)

def dues : Activity → List Nat
  | scheduled due _ => [due]
  | waiting wait => wait.dues
  | together main _ current _ _ => main.dues ++ current.dues
  | _ => []

end Activity

def nextMoment? (w : World) (a : Activity) : Option Nat :=
  ((a.dues ++ w.jobs.filterMap (·.2.due?)).filter (w.now < ·)).min?

/-- One turn: the activity goes on, or else the resolutions do, or else time does. -/
def turn (w : World) (a : Activity) : Option (World × Activity) :=
  match a.poll w with
  | (true, w, a) => some (w, a)
  | (false, _, _) =>
    match w.runJobs with
    | (true, w) => some (w, a)
    | (false, _) => (nextMoment? w a).map fun now => ({ w with now }, a)

def runTurns : Nat → World → Activity → World × Answer
  | 0, w, _ => (w, .nothing)
  | turns + 1, w, a =>
    match a.answer? with
    | some answer => (w, answer)
    | none =>
      match turn w a with
      | none => (w, .nothing)
      | some (w, a) => runTurns turns w a

def turnsPerAction : Nat := 32

def runStep (turns : Nat) (w : World) (s : Step) : World × Answer :=
  let (w, answer) := runTurns turns w (.scheduled w.now s)
  (w.runJobs.2, answer)

def runSteps (turns : Nat) (w : World) : List Step → List Answer
  | [] => []
  | s :: rest =>
    let (w, answer) := runStep turns w s
    answer :: runSteps turns w rest

def run (w : World) (script : List Step) : List Answer :=
  runSteps (turnsPerAction * (Step.count script + 1)) w script

end CurrencyWallet.Scenario
