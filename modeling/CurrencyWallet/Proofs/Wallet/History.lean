import CurrencyWallet.Proofs.Exchange.Lifecycle
import CurrencyWallet.Proofs.Wallet.Course

/-!
The exchanges of a session have the lives that `ExchangeHistory` describes: whatever else happens,
each of them is told of its incidents one after another, and its settlement is put to the ledger
of the session.
-/
namespace CurrencyWallet

namespace Task

/-- Behind an exchange, also after its end, there is a history over ledgers in memory. -/
def HasHistory : Task → Prop
  | exchanging t => ∃ h : ExchangeHistory, h.Reachable ∧ h.InMemory ∧ h.run = t.run
  | finished result (some _) => ∃ (h : ExchangeHistory) (answer : Attempt ExchangeFailure _),
      h.Reachable ∧ h.InMemory ∧ h.run.result? = some answer ∧
        result = Wallet.outcomeResult answer
  | _ => True

variable {w : Wallet} {t : ExchangeTask} {h : ExchangeHistory}

theorem hasHistory_conclude (hreach : h.Reachable) (hmemory : h.InMemory) (hrun : h.run = t.run) :
    (conclude w t).2.HasHistory := by
  unfold conclude
  cases hresult : t.run.result? with
  | none => exact ⟨h, hreach, hmemory, hrun⟩
  | some answer => exact ⟨h, answer, hreach, hmemory, hrun ▸ hresult, rfl⟩

theorem HasHistory.move {t : Task} (h : t.HasHistory) (now : Nat) (w : Wallet) (m : Move) :
    (t.move now w m).2.HasHistory := by
  cases t with
  | waiting id request =>
    cases m with
    | begin =>
      obtain ⟨next, hnext, hbegins⟩ := exists_begins now w id request
      rw [hnext]
      cases hbegins with
      | @started r =>
        exact ⟨_, ⟨id, r, [.launched], rfl⟩,
          (ExchangeHistory.inMemory_start id r).step_of_nil rfl, rfl⟩
      | _ => trivial
    | _ => trivial
  | exchanging t =>
    obtain ⟨h, hreach, hmemory, hrun⟩ := h
    cases m with
    | join =>
      exact hasHistory_conclude (hreach.follow [.looked t.view, .priced])
        (hmemory.joining t.view) (congrArg (fun r => (r.step (.looked t.view)).step .priced) hrun)
    | settle =>
      exact hasHistory_conclude (hreach.follow (ExchangeHistory.settling w h.run))
        (hmemory.settling w)
        ((h.run_follow_settling w).trans (congrArg (fun r => (w.settle r).2) hrun))
    | _ => exact ⟨h, hreach, hmemory, hrun⟩
  | finished result resolution =>
    cases resolution with
    | none => trivial
    | some resolution => cases m <;> exact h

theorem HasHistory.receive {t : Task} (h : t.HasHistory) (policy : RatePolicy) (a : RateAnswer) :
    (t.receive policy a).HasHistory := by
  cases t with
  | waiting id request => trivial
  | exchanging t => exact h
  | finished result resolution =>
    cases resolution with
    | none => trivial
    | some resolution => exact h

end Task

/-- Whatever happens in a session, behind each of its exchanges there is a history in memory. -/
theorem Session.hasHistory (now : Nat) (w : Wallet) (requests : List (ExchangeId × WalletRequest))
    (events : List Event) : ∀ t ∈ ((start now w requests).run events).tasks, t.HasHistory := by
  have hkept : Kept (fun _ => True) fun _ t => t.HasHistory :=
    ⟨fun now w t m _ h => ⟨trivial, h.move now w m⟩, fun _ _ _ _ _ _ _ h => h⟩
  have hstart : (start now w requests).Holds (fun _ => True) fun _ t => t.HasHistory :=
    holds_start trivial (fun _ _ => trivial) now requests
  exact (hstart.run hkept events fun i a _ w t h => h.receive _ _).tasks

end CurrencyWallet
