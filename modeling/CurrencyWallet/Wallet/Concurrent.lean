import CurrencyWallet.Wallet.Service

/-!
Requests to a wallet that are under way at the same time. A deposit, a withdrawal and a query are
done in one move. An exchange takes several: it begins, its balances are checked, its rate is
found, it is cancelled or joined, and at last it is settled; between any two of them other requests
may move. A `Session` is a wallet with its requests, and a run is any sequence of moves, where a
move that does not fit changes nothing.
-/
namespace CurrencyWallet

structure ExchangeTask where
  run : ExchangeRun
  funding : Option (Except LedgerError Funding)
  resolution : Resolution
  cancelled : Bool

def ExchangeTask.view (t : ExchangeTask) : JoinView :=
  ⟨t.cancelled, t.funding, t.resolution.result?⟩

def ExchangeTask.start (policy : RatePolicy) (id : ExchangeId) (request : ExchangeRequest) :
    ExchangeTask where
  run := (ExchangeRun.start id request).step .launched
  funding := none
  resolution := .start policy request.pair
  cancelled := false

inductive Task where
  | waiting (id : ExchangeId) (request : WalletRequest)
  | exchanging (task : ExchangeTask)
  /-- The answer is given; a resolution that was started may still go on. -/
  | finished (result : WalletResult) (resolution : Option Resolution)

inductive Move where
  | begin
  | fund
  | serveRate
  | cancel
  | join
  | settle
  deriving DecidableEq, Repr

namespace Task

def result? : Task → Option WalletResult
  | finished result _ => some result
  | _ => none

def beginAdmitted (w : Wallet) (id : ExchangeId) : Admitted → Wallet × Task
  | .query call =>
    let (w, reply) := w.call call
    (w, finished (Wallet.balancesResult reply) none)
  | .move movement call =>
    let (w, reply) := w.call call
    (w.recordAll (Wallet.movementEvent? movement reply),
      finished (Wallet.balancesResult reply) none)
  | .exchange request =>
    if IsWithinReach w.exchangeTimeout then
      (w.record .exchangeStarted, exchanging (.start w.desk.policy id request))
    else (w, finished (.overflowed .moment) none)

theorem beginAdmitted_of_reach {w : Wallet} (h : IsWithinReach w.exchangeTimeout) (id : ExchangeId)
    (request : ExchangeRequest) : beginAdmitted w id (.exchange request) =
      (w.record .exchangeStarted, exchanging (.start w.desk.policy id request)) := if_pos h

theorem beginAdmitted_of_not_reach {w : Wallet} (h : ¬ IsWithinReach w.exchangeTimeout)
    (id : ExchangeId) (request : ExchangeRequest) :
    beginAdmitted w id (.exchange request) = (w, finished (.overflowed .moment) none) := if_neg h

def conclude (w : Wallet) (t : ExchangeTask) : Wallet × Task :=
  match t.run.result? with
  | none => (w, exchanging t)
  | some result =>
    (w.recordAll (Wallet.exchangeEvent? result),
      finished (Wallet.outcomeResult result) (some t.resolution))

def moveExchange (now : Nat) (w : Wallet) (t : ExchangeTask) : Move → Wallet × Task
  | .begin => (w, exchanging t)
  | .fund =>
    (w, exchanging { t with funding := some (t.funding.getD (w.fund t.run.request)) })
  | .serveRate =>
    let (desk, resolution) := w.desk.assist now t.resolution
    ({ w with desk }, exchanging { t with resolution })
  | .cancel => (w, exchanging { t with cancelled := true })
  | .join => conclude w { t with run := (t.run.step (.looked t.view)).step .priced }
  | .settle =>
    let (w, run) := w.settle t.run
    conclude w { t with run }

def move (now : Nat) (w : Wallet) : Task → Move → Wallet × Task
  | waiting id request, .begin =>
    match request.check with
    | .error e => (w, finished (.refused e) none)
    | .ok admitted => beginAdmitted w id admitted
  | exchanging t, m => moveExchange now w t m
  | finished result (some resolution), .serveRate =>
    let (desk, resolution) := w.desk.assist now resolution
    ({ w with desk }, finished result (some resolution))
  | t, _ => (w, t)

/-- Takes an answer to the present request of its resolution, wherever it comes from. -/
def receive (policy : RatePolicy) (answer : RateAnswer) : Task → Task
  | exchanging t => exchanging { t with resolution := t.resolution.advance policy answer }
  | finished result (some resolution) =>
    finished result (some (resolution.advance policy answer))
  | t => t

def nextMove? : Task → Option Move
  | waiting _ _ => some .begin
  | exchanging t =>
    if t.run.pending?.isSome then some .settle
    else if t.funding.isNone then some .fund
    else if t.resolution.result?.isNone then some .serveRate
    else some .join
  | finished _ (some resolution) => if resolution.request?.isSome then some .serveRate else none
  | finished _ none => none

def movesToFinish : Nat := 8

end Task

structure Session where
  now : Nat
  wallet : Wallet
  tasks : List Task

namespace Session

def start (now : Nat) (w : Wallet) (requests : List (ExchangeId × WalletRequest)) : Session :=
  ⟨now, w, requests.map fun r => .waiting r.1 r.2⟩

/-- What can happen: a task moves, its resolution is answered from another cache or service than
those of the desk, or time passes. -/
inductive Event where
  | move (task : Nat) (m : Move)
  | answer (task : Nat) (a : RateAnswer)
  | elapse (time : Nat)
  deriving DecidableEq

def step (s : Session) : Event → Session
  | .move index m =>
    match s.tasks[index]? with
    | none => s
    | some task =>
      let (wallet, task) := task.move s.now s.wallet m
      { s with wallet, tasks := s.tasks.set index task }
  | .answer index a =>
    match s.tasks[index]? with
    | none => s
    | some task =>
      { s with tasks := s.tasks.set index (task.receive s.wallet.desk.policy a) }
  | .elapse time => { s with now := s.now + time }

def run (s : Session) (events : List Event) : Session := events.foldl step s

def advance (s : Session) (index : Nat) : Session :=
  match (s.tasks[index]?).bind Task.nextMove? with
  | none => s
  | some m => s.step (.move index m)

def follow (s : Session) (schedule : List Nat) : Session := schedule.foldl advance s

def finish (s : Session) : Session :=
  s.follow ((List.range s.tasks.length).flatMap (List.replicate Task.movesToFinish))

def results (s : Session) : List WalletResult := s.tasks.filterMap Task.result?

def successes (s : Session) : Nat := (s.results.filter Attempt.isOk).length

end Session

end CurrencyWallet
