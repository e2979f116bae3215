import CurrencyWallet.Proofs.Currency.Pair
import CurrencyWallet.Proofs.Rates.Desk
import CurrencyWallet.Proofs.Wallet.Request
import CurrencyWallet.Wallet.Config

/-!
What a configuration with valid settings promises: its rates are positive, so that a wallet made of
it starts with a desk that is faithful to its table, and of several rates for a pair of valid
currencies the last one counts.
-/
namespace CurrencyWallet

theorem WalletConfig.isPositive_of_validate {c : WalletConfig} (h : c.validate = .ok ())
    {e : CurrencyPair × Decimal} (he : e ∈ c.rates) : e.2.IsPositive := by
  by_contra hbad
  have hfind : (c.rates.find? fun e => ¬ e.2.IsPositive).isSome := by
    rw [List.find?_isSome]
    exact ⟨e, he, by simpa using hbad⟩
  obtain ⟨⟨pair, rate⟩, hfound⟩ := Option.isSome_iff_exists.1 hfind
  -- Whatever the other settings are, each of the checks ends in an error.
  simp only [validate, hfound, bind, Except.bind] at h
  split at h
  · cases h
  · split at h
    · cases h
    · split at h
      · cases h
      · split at h
        · cases h
        · split at h <;> cases h

/-! ### Tables of rates -/

namespace RateTable

theorem allUsable_ofRates {rates : List (CurrencyPair × Decimal)}
    (h : ∀ e ∈ rates, e.2.IsPositive) : (ofRates rates).AllUsable := by
  intro key rate hget
  rw [get?_ofRates_key] at hget
  obtain ⟨e, he, rfl⟩ := Option.map_eq_some_iff.1 hget
  exact h e (List.mem_reverse.1 (List.mem_of_find?_eq_some he))

end RateTable

theorem Wallet.faithful_ofConfig {c : WalletConfig} (h : c.validate = .ok ()) (l : Ledger) :
    (ofConfig c l).desk.Faithful where
  cache := .new _ _
  usable := RateTable.allUsable_ofRates fun _ he => WalletConfig.isPositive_of_validate h he

end CurrencyWallet
