import CurrencyWallet.Proofs.Decimal.Amount
import CurrencyWallet.Wallet.Concurrent

/-!
What passes the checks of a wallet: a change of one account by a positive number of full cents, and
an exchange of such an amount between two currencies. A request that begins is answered at once,
unless it is an exchange that has passed them and has a deadline.
-/
namespace CurrencyWallet

open Decimal (amountScale)

theorem checkAmount_eq_ok {amount rounded : Decimal} :
    checkAmount amount = .ok rounded ↔
      rounded = amount.roundAmount ∧ amount.roundAmount.IsPositive := by
  unfold checkAmount
  split
  · rename_i h
    constructor
    · intro heq
      cases heq
      exact ⟨rfl, h⟩
    · rintro ⟨rfl, -⟩
      rfl
  · rename_i h
    exact iff_of_false nofun fun hr => h hr.2

theorem ExchangeRequest.check_eq_ok {r checked : ExchangeRequest} (h : r.check = .ok checked) :
    checked = { r with amount := r.amount.roundAmount } ∧ r.source ≠ r.target ∧
      r.amount.roundAmount.IsPositive := by
  unfold check at h
  obtain ⟨-, -, h⟩ := Except.bind_eq_ok.1 h
  obtain ⟨-, -, h⟩ := Except.bind_eq_ok.1 h
  obtain ⟨-, -, h⟩ := Except.bind_eq_ok.1 h
  split at h
  · cases h
  · rename_i hne
    obtain ⟨amount, hamount, h⟩ := Except.bind_eq_ok.1 h
    obtain ⟨rfl, hpositive⟩ := checkAmount_eq_ok.1 hamount
    cases h
    exact ⟨rfl, hne, hpositive⟩

def Movement.sign : Movement → ℚ
  | .deposit => 1
  | .withdraw => -1

theorem Movement.signed_eq_ok {m : Movement} {amount delta : Decimal}
    (h : m.signed amount = .ok delta) :
    delta.scale = amount.scale ∧ delta.toRat = m.sign * amount.toRat := by
  unfold signed at h
  split at h
  · cases h
    cases m with
    | deposit => exact ⟨rfl, by rw [sign, one_mul]⟩
    | withdraw => exact ⟨rfl, by rw [sign, neg_one_mul, Decimal.toRat_neg]⟩
  · cases h

theorem WalletRequest.check_move {m : Movement} {u : UserId} {c : Currency} {amount : Decimal}
    {admitted : Admitted} (h : (move m u c amount).check = .ok admitted) :
    ∃ delta, admitted = .move m (.apply u c delta) ∧ delta.scale ≤ amountScale ∧
      delta.toRat = m.sign * amount.roundAmount.toRat := by
  unfold check at h
  simp only [Except.bind_eq_ok] at h
  obtain ⟨-, -, -, -, rounded, hrounded, delta, hdelta, h⟩ := h
  obtain ⟨rfl, -⟩ := checkAmount_eq_ok.1 hrounded
  cases h
  cases hsigned : m.signed amount.roundAmount with
  | error e =>
    rw [hsigned] at hdelta
    cases hdelta
  | ok d =>
    rw [hsigned] at hdelta
    cases hdelta
    obtain ⟨hscale, hvalue⟩ := Movement.signed_eq_ok hsigned
    exact ⟨delta, rfl, hscale.trans_le (Decimal.scale_roundAmount_le amount), hvalue⟩

def Movement.delta (m : Movement) (amount : Decimal) : Decimal :=
  match m with
  | .deposit => amount
  | .withdraw => -amount

theorem WalletRequest.check_move_eq (m : Movement) (u : UserId) (c : Currency) (amount : Decimal) :
    (move m u c amount).check =
      if ¬ u.IsValid then .error (.invalid (.userId u))
      else if ¬ c.IsValid then .error (.invalid (.currencyCode c))
      else if ¬ amount.roundAmount.IsPositive then .error (.invalid (.amountBelowCent amount))
      else .ok (.move m (.apply u c (m.delta amount.roundAmount))) := by
  by_cases hu : u.IsValid
  · by_cases hc : c.IsValid
    · by_cases ha : amount.roundAmount.IsPositive
      · cases m <;>
          simp [check, UserId.check, Currency.check, checkAmount, Movement.signed, Movement.delta,
            hu, hc, ha, bind, Except.bind, Except.mapError]
      · simp [check, UserId.check, Currency.check, checkAmount, hu, hc, ha, bind, Except.bind]
    · simp [check, UserId.check, Currency.check, hu, hc, bind, Except.bind]
  · simp [check, UserId.check, hu, bind, Except.bind]

theorem WalletRequest.check_move_admitted {m : Movement} {u : UserId} {c : Currency}
    {amount : Decimal} {admitted : Admitted} (h : (move m u c amount).check = .ok admitted) :
    admitted = .move m (.apply u c (m.delta amount.roundAmount)) ∧
      amount.roundAmount.IsPositive := by
  rw [check_move_eq] at h
  split at h
  · cases h
  · split at h
    · cases h
    · split at h
      · cases h
      · rename_i hamount
        cases h
        exact ⟨rfl, not_not.1 hamount⟩

theorem ExchangeRequest.check_eq (r : ExchangeRequest) :
    r.check =
      if ¬ r.user.IsValid then .error (.invalid (.userId r.user))
      else if ¬ r.source.IsValid then .error (.invalid (.currencyCode r.source))
      else if ¬ r.target.IsValid then .error (.invalid (.currencyCode r.target))
      else if r.source = r.target then .error (.invalid (.exchangeIntoItself r.source))
      else if ¬ r.amount.roundAmount.IsPositive then .error (.invalid (.amountBelowCent r.amount))
      else .ok { r with amount := r.amount.roundAmount } := by
  by_cases hu : r.user.IsValid
  · by_cases hs : r.source.IsValid
    · by_cases ht : r.target.IsValid
      · by_cases hsame : r.source = r.target
        · simp [check, UserId.check, Currency.check, hu, ht, hsame, bind, Except.bind]
        · by_cases ha : r.amount.roundAmount.IsPositive
          · simp [check, UserId.check, Currency.check, checkAmount, hu, hs, ht, hsame, ha, bind,
              Except.bind]
          · simp [check, UserId.check, Currency.check, checkAmount, hu, hs, ht, hsame, ha, bind,
              Except.bind]
      · simp [check, UserId.check, Currency.check, hu, hs, ht, bind, Except.bind]
    · simp [check, UserId.check, Currency.check, hu, hs, bind, Except.bind]
  · simp [check, UserId.check, hu, bind, Except.bind]

theorem WalletRequest.check_exchange {r : ExchangeRequest} {admitted : Admitted}
    (h : (exchange r).check = .ok admitted) :
    ∃ checked, admitted = .exchange checked ∧ r.check = .ok checked := by
  obtain ⟨checked, hchecked, h⟩ := Except.bind_eq_ok.1 h
  cases h
  exact ⟨checked, rfl, hchecked⟩

theorem WalletRequest.check_balance {u : UserId} {admitted : Admitted}
    (h : (balance u).check = .ok admitted) : admitted = .query (.balances u) := by
  obtain ⟨-, -, h⟩ := Except.bind_eq_ok.1 h
  cases h
  rfl

theorem WalletRequest.check_openAccounts {u : UserId} {admitted : Admitted}
    (h : (openAccounts u).check = .ok admitted) : admitted = .query (.openAccounts u) := by
  obtain ⟨-, -, h⟩ := Except.bind_eq_ok.1 h
  cases h
  rfl

namespace Task

/-- What a request comes to when it begins. -/
inductive Begins (w : Wallet) (id : ExchangeId) (request : WalletRequest) : Wallet × Task → Prop
  | rejected {error : ExchangeError} (hcheck : request.check = .error error) :
    Begins w id request (w, .finished (.refused error) none)
  | queried {call : Ledger.Call} (hcheck : request.check = .ok (.query call)) :
    Begins w id request
      ((w.call call).1, .finished (Wallet.balancesResult (w.call call).2) none)
  | moved {movement : Movement} {call : Ledger.Call}
    (hcheck : request.check = .ok (.move movement call)) :
    Begins w id request
      ((w.call call).1.recordAll (Wallet.movementEvent? movement (w.call call).2),
        .finished (Wallet.balancesResult (w.call call).2) none)
  | started {r : ExchangeRequest} (hcheck : request.check = .ok (.exchange r))
    (hreach : IsWithinReach w.exchangeTimeout) :
    Begins w id request (w.record .exchangeStarted, .exchanging (.start w.desk.policy id r))
  | stopped {r : ExchangeRequest} (hcheck : request.check = .ok (.exchange r))
    (hbeyond : ¬ IsWithinReach w.exchangeTimeout) :
    Begins w id request (w, .finished (.overflowed .moment) none)

theorem exists_begins (now : Nat) (w : Wallet) (id : ExchangeId) (request : WalletRequest) :
    ∃ next, (waiting id request).move now w .begin = next ∧ Begins w id request next := by
  refine ⟨_, rfl, ?_⟩
  simp only [move]
  cases hcheck : request.check with
  | error e => exact .rejected hcheck
  | ok admitted =>
    cases admitted with
    | query call => exact .queried hcheck
    | move movement call => exact .moved hcheck
    | exchange r =>
      simp only [beginAdmitted]
      split
      · exact .started hcheck ‹_›
      · exact .stopped hcheck ‹_›

end Task

end CurrencyWallet
