import CurrencyWallet.Proofs.Decimal.Nearest
import CurrencyWallet.Proofs.Wallet.Request
import CurrencyWallet.Simulation.Plan

/-!
What a plan asks for. Every user gets the same number of operations between listed currencies
(`Plan.Deals`), however they are chosen; the random plan is one of these. None of them is rejected
by the checks of a wallet: each becomes a movement or an exchange.
-/
namespace CurrencyWallet

/-! ### Users -/

namespace SimulationConfig

variable {c : SimulationConfig}

theorem users_lt_of_hasRoom (h : c.hasRoom = true) : c.users < 2 ^ 63 := by
  unfold hasRoom at h
  rw [Bool.and_eq_true, decide_eq_true_eq] at h
  exact h.1.trans (by decide)

theorem length_userIds (h : c.hasRoom = true) : c.userIds.length = c.users := by
  rw [userIds, if_pos (users_lt_of_hasRoom h), List.length_map, List.length_range]

theorem isValid_of_mem_userIds {u : UserId} (h : u ∈ c.userIds) : u.IsValid := by
  unfold userIds at h
  split at h
  · obtain ⟨k, -, rfl⟩ := List.mem_map.1 h
    exact Int.natCast_pos.2 k.succ_pos
  · cases h

end SimulationConfig

/-! ### Operations -/

def WalletRequest.IsWork (request : WalletRequest) : Prop :=
  ∃ admitted, request.check = .ok admitted ∧ ∀ call, admitted ≠ .query call

namespace Operation

def IsFairAmount (amount : Decimal) : Prop := 1 / 100 ≤ amount.toRat ∧ amount.toRat ≤ 49999 / 100

def IsOffered (currencies : List Currency) : Operation → Prop
  | deposit c amount | withdraw c amount => c ∈ currencies ∧ IsFairAmount amount
  | exchange source target amount =>
    source ∈ currencies ∧ target ∈ currencies ∧ source ≠ target ∧ IsFairAmount amount

instance (amount : Decimal) : Decidable (IsFairAmount amount) :=
  inferInstanceAs (Decidable (_ ∧ _))

instance (currencies : List Currency) : (o : Operation) → Decidable (o.IsOffered currencies)
  | deposit _ _ | withdraw _ _ => inferInstanceAs (Decidable (_ ∧ _))
  | exchange _ _ _ => inferInstanceAs (Decidable (_ ∧ _ ∧ _ ∧ _))

theorem isWork_move (m : Movement) {u : UserId} {c : Currency} {amount : Decimal} (hu : u.IsValid)
    (hc : c.IsValid) (hamount : IsFairAmount amount) :
    (WalletRequest.move m u c amount).IsWork := by
  have hpositive := Decimal.isPositive_roundAmount (le_trans (by norm_num) hamount.1)
  have hcheck : (WalletRequest.move m u c amount).check =
      .ok (.move m (.apply u c (m.delta amount.roundAmount))) := by
    rw [WalletRequest.check_move_eq, if_neg (not_not.2 hu), if_neg (not_not.2 hc),
      if_neg (not_not.2 hpositive)]
  exact ⟨_, hcheck, nofun⟩

theorem isWork_exchange {r : ExchangeRequest} (hu : r.user.IsValid) (hs : r.source.IsValid)
    (ht : r.target.IsValid) (hne : r.source ≠ r.target) (hamount : IsFairAmount r.amount) :
    (WalletRequest.exchange r).IsWork := by
  have hpositive := Decimal.isPositive_roundAmount (le_trans (by norm_num) hamount.1)
  have hcheck : r.check = .ok { r with amount := r.amount.roundAmount } := by
    rw [ExchangeRequest.check_eq, if_neg (not_not.2 hu), if_neg (not_not.2 hs),
      if_neg (not_not.2 ht), if_neg hne, if_neg (not_not.2 hpositive)]
  exact ⟨.exchange _, Except.bind_eq_ok.2 ⟨_, hcheck, rfl⟩, nofun⟩

theorem IsOffered.isWork {currencies : List Currency} {o : Operation}
    (h : o.IsOffered currencies) (hvalid : ∀ c ∈ currencies, c.IsValid) {u : UserId}
    (hu : u.IsValid) : (o.request u).IsWork := by
  cases o with
  | deposit c amount => exact isWork_move .deposit hu (hvalid c h.1) h.2
  | withdraw c amount => exact isWork_move .withdraw hu (hvalid c h.1) h.2
  | exchange source target amount =>
    obtain ⟨hs, ht, hne, hamount⟩ := h
    exact isWork_exchange hu (hvalid _ hs) (hvalid _ ht) hne hamount

end Operation

/-! ### Plans -/

namespace Plan

/-- For each user in turn, so many operations of this kind. -/
inductive Deals (offered : Operation → Prop) (perUser : Nat) : List UserId → Plan → Prop
  | nil : Deals offered perUser [] []
  | cons {user : UserId} {users : List UserId} {operations : List Operation} {plan : Plan}
    (hlength : operations.length = perUser) (hoffered : ∀ o ∈ operations, offered o)
    (hrest : Deals offered perUser users plan) :
    Deals offered perUser (user :: users) (operations.map (user, ·) ++ plan)

variable {offered : Operation → Prop} {perUser : Nat} {users : List UserId} {plan : Plan}

theorem Deals.length_eq (h : Deals offered perUser users plan) :
    plan.length = users.length * perUser := by
  induction h with
  | nil => rw [List.length_nil, List.length_nil, Nat.zero_mul]
  | cons hlength hoffered hrest ih =>
    rw [List.length_append, List.length_map, hlength, ih, List.length_cons, Nat.succ_mul,
      Nat.add_comm]

theorem Deals.of_mem (h : Deals offered perUser users plan) {entry : UserId × Operation}
    (hentry : entry ∈ plan) : entry.1 ∈ users ∧ offered entry.2 := by
  induction h with
  | nil => cases hentry
  | cons hlength hoffered hrest ih =>
    obtain hown | hother := List.mem_append.1 hentry
    · obtain ⟨o, ho, rfl⟩ := List.mem_map.1 hown
      exact ⟨List.mem_cons_self, hoffered o ho⟩
    · exact ⟨List.mem_cons_of_mem _ (ih hother).1, (ih hother).2⟩

end Plan

/-! ### Random plans -/

theorem Dice.roll_lt (d : Dice) {bound : Nat} (h : 0 < bound) : (d.roll bound).1 < bound :=
  Nat.mod_lt _ h

namespace Operation

variable {currencies : List Currency}

theorem isFairAmount_cents (n : Nat) : IsFairAmount (cents n) := by
  have hlt : n % 49999 < 49999 := Nat.mod_lt _ (by decide)
  have hvalue : (cents n).toRat = ((n % 49999 + 1 : ℕ) : ℚ) / 100 := by
    rw [Decimal.toRat_eq, cents, Int.cast_natCast]
    norm_num
  have hlow : (1 : ℚ) ≤ (n % 49999 + 1 : ℕ) := by exact_mod_cast Nat.le_add_left 1 _
  have hhigh : ((n % 49999 + 1 : ℕ) : ℚ) ≤ 49999 := by exact_mod_cast hlt
  rw [IsFairAmount, hvalue]
  constructor <;> linarith

theorem getD_mod_ne (hnodup : currencies.Nodup) {i skip : Nat} (hi : i < currencies.length)
    (hskip : skip < currencies.length - 1) :
    (currencies[i % currencies.length]?).getD .usd ≠
      (currencies[(i + 1 + skip) % currencies.length]?).getD .usd := by
  have hmod : i % currencies.length ≠ (i + 1 + skip) % currencies.length := by
    rw [Nat.mod_eq_of_lt hi]
    obtain hlt | hge := Nat.lt_or_ge (i + 1 + skip) currencies.length
    · rw [Nat.mod_eq_of_lt hlt]
      omega
    · rw [Nat.mod_eq_sub_mod hge, Nat.mod_eq_of_lt (by omega)]
      omega
  have hpos : 0 < currencies.length := by omega
  rw [List.getElem?_eq_getElem (Nat.mod_lt _ hpos), List.getElem?_eq_getElem (Nat.mod_lt _ hpos)]
  exact fun heq => hmod ((hnodup.getElem_inj_iff).1 heq)

theorem getD_mod_mem (hpos : 0 < currencies.length) (i : Nat) :
    (currencies[i % currencies.length]?).getD .usd ∈ currencies := by
  rw [List.getElem?_eq_getElem (Nat.mod_lt _ hpos)]
  exact List.getElem_mem _

theorem isOffered_random (htwo : 2 ≤ currencies.length) (hnodup : currencies.Nodup) (d : Dice) :
    (random currencies d).1.IsOffered currencies := by
  have hpos : 0 < currencies.length := by omega
  have hsource := d.roll_lt hpos
  have hskip := (d.roll currencies.length).2.roll_lt (Nat.sub_pos_of_lt htwo)
  simp only [random]
  split
  · exact ⟨getD_mod_mem hpos _, isFairAmount_cents _⟩
  · split
    · exact ⟨getD_mod_mem hpos _, isFairAmount_cents _⟩
    · exact ⟨getD_mod_mem hpos _, getD_mod_mem hpos _, getD_mod_ne hnodup hsource hskip,
        isFairAmount_cents _⟩

theorem randomMany_spec (htwo : 2 ≤ currencies.length) (hnodup : currencies.Nodup) (count : Nat)
    (d : Dice) : (randomMany currencies count d).1.length = count ∧
      ∀ o ∈ (randomMany currencies count d).1, o.IsOffered currencies := by
  induction count generalizing d with
  | zero => exact ⟨rfl, nofun⟩
  | succ count ih =>
    obtain ⟨hlength, hoffered⟩ := ih (random currencies d).2
    refine ⟨congrArg Nat.succ hlength, fun o ho => ?_⟩
    obtain rfl | hrest := List.mem_cons.1 ho
    · exact isOffered_random htwo hnodup d
    · exact hoffered o hrest

end Operation

theorem Plan.deals_random {currencies : List Currency} (htwo : 2 ≤ currencies.length)
    (hnodup : currencies.Nodup) (perUser : Nat) (users : List UserId) (d : Dice) :
    Deals (Operation.IsOffered currencies) perUser users
      (random currencies perUser users d).1 := by
  induction users generalizing d with
  | nil => exact .nil
  | cons user users ih =>
    obtain ⟨hlength, hoffered⟩ := Operation.randomMany_spec htwo hnodup perUser d
    exact .cons hlength hoffered (ih _)

end CurrencyWallet
