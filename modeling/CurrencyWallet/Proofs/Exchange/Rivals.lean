import CurrencyWallet.Proofs.Exchange.Commit
import CurrencyWallet.Proofs.Ledger.Liveness

/-!
Settlements that compete for one pair of rows. All of them are priced from what the rows hold at the
start, and each would change at least one of the two. Whatever the schedule, all of them come to an
answer: one is written, both legs of it, and by that every other one loses what it was priced from.
-/
namespace CurrencyWallet.Ledger

/-! ### One settlement -/

/-- A settlement of these two rows, in either direction, that is priced from what they hold in `l`
and does not leave both of them at that. -/
structure Rival (l : Ledger) (u : UserId) (a b : Currency) (x : Settlement) : Prop where
  user : x.user = u
  rows : x.source.currency = a ∧ x.target.currency = b ∨
    x.source.currency = b ∧ x.target.currency = a
  source : x.source.HeldBy (l.balances u)
  target : x.target.HeldBy (l.balances u)
  nonNegative : ¬ x.source.updated.IsNegative ∧ ¬ x.target.updated.IsNegative
  changes : x.source.updated.toRat ≠ x.source.expected.toRat ∨
    x.target.updated.toRat ≠ x.target.expected.toRat

structure HasPair (l : Ledger) (u : UserId) (a b : Currency) : Prop where
  wellFormed : l.WellFormed
  opened : l.users.contains u = true
  first : a ∈ l.currencies
  second : b ∈ l.currencies

def SamePair (l l' : Ledger) (u : UserId) (a b : Currency) : Prop :=
  ∀ c, c = a ∨ c = b → l'.value? u c = l.value? u c

structure HoldsBoth (l : Ledger) (x : Settlement) : Prop where
  source : l.balance? x.user x.source.currency = some x.source.updated
  target : l.balance? x.user x.target.currency = some x.target.updated

section Settling

variable {l l' : Ledger} {u : UserId} {a b : Currency} {x : Settlement}

theorem HasPair.perform (h : l.HasPair u a b) (call : Call) : (l.perform call).1.HasPair u a b where
  wellFormed := h.wellFormed.perform call
  opened := contains_perform h.opened
  first := by
    rw [currencies_perform]
    exact h.first
  second := by
    rw [currencies_perform]
    exact h.second

theorem HasPair.balance?_perform (h : l.HasPair u a b) {call : Call}
    (hcall : ¬ (call.user = u ∧ (a ∈ call.rows ∨ b ∈ call.rows))) {c : Currency}
    (hc : c = a ∨ c = b) : (l.perform call).1.balance? u c = l.balance? u c := by
  refine Ledger.balance?_perform h.opened fun huser hmem => hcall ⟨huser.symm, ?_⟩
  obtain rfl | rfl := hc
  · exact Or.inl hmem
  · exact Or.inr hmem

theorem Rival.mem_pair (h : l.Rival u a b x) (c : Currency) :
    c = a ∨ c = b ↔ c = x.source.currency ∨ c = x.target.currency := by
  obtain ⟨rfl, rfl⟩ | ⟨rfl, rfl⟩ := h.rows
  · exact Iff.rfl
  · exact or_comm

theorem Rival.names (h : l.Rival u a b x) :
    (Call.settle x).user = u ∧ (a ∈ (Call.settle x).rows ∨ b ∈ (Call.settle x).rows) :=
  ⟨h.user, Or.inl (mem_rows_settle.2 ((h.mem_pair a).1 (Or.inl rfl)))⟩

theorem Rival.held_iff (h : l.Rival u a b x) :
    x.source.HeldBy (l'.balances u) ∧ x.target.HeldBy (l'.balances u) ↔ l.SamePair l' u a b := by
  have hsource : l.value? u x.source.currency = some x.source.expected.toRat := h.source
  have htarget : l.value? u x.target.currency = some x.target.expected.toRat := h.target
  constructor
  · rintro ⟨hs, ht⟩ c hc
    obtain rfl | rfl := (h.mem_pair c).1 hc
    · exact Eq.trans hs hsource.symm
    · exact Eq.trans ht htarget.symm
  · intro hsame
    have hs := hsame _ ((h.mem_pair _).2 (Or.inl rfl))
    have ht := hsame _ ((h.mem_pair _).2 (Or.inr rfl))
    exact ⟨hs.trans hsource, ht.trans htarget⟩

theorem Rival.not_samePair (h : l.Rival u a b x) (hboth : l'.HoldsBoth x) :
    ¬ l.SamePair l' u a b := by
  intro hsame
  obtain ⟨hs, ht⟩ := h.held_iff.2 hsame
  obtain ⟨hsource, htarget⟩ := hboth
  rw [h.user] at hsource htarget
  obtain hchange | hchange := h.changes
  · rw [SettlementLeg.HeldBy] at hs
    rw [balance?] at hsource
    rw [hsource] at hs
    exact hchange (Option.some.inj hs)
  · rw [SettlementLeg.HeldBy] at ht
    rw [balance?] at htarget
    rw [htarget] at ht
    exact hchange (Option.some.inj ht)

/-- A rival is written if both rows hold their first values, and is a conflict otherwise. -/
theorem Rival.settle_cases (h : l.Rival u a b x) (hdistinct : a ≠ b) (hpair : l'.HasPair u a b) :
    (l.SamePair l' u a b ∧ (l'.perform (.settle x)).1.HoldsBoth x ∧
      ∃ balances, (l'.perform (.settle x)).2 = .ok balances) ∨
    ¬ l.SamePair l' u a b ∧ ∃ (leg : SettlementLeg) (found : Decimal),
      l'.perform (.settle x) = (l', .refused (.conflict leg.currency leg.expected found)) := by
  have hne : x.source.currency ≠ x.target.currency := by
    obtain ⟨rfl, rfl⟩ | ⟨rfl, rfl⟩ := h.rows
    · exact hdistinct
    · exact hdistinct.symm
  have hvalid : x.validate = .ok () := Settlement.validate_eq_ok.2 ⟨hne, h.nonNegative⟩
  have hopen : l'.users.contains x.user = true := by
    rw [h.user]
    exact hpair.opened
  have hrows : ∀ c ∈ (Call.settle x).rows, c ∈ l'.currencies := fun c hc => by
    obtain rfl | rfl := (h.mem_pair c).2 (mem_rows_settle.1 hc)
    · exact hpair.first
    · exact hpair.second
  obtain ⟨hs, ht, heq⟩ | ⟨hchanged, leg, found, -, heq⟩ :=
    Ledger.settle_cases hpair.wellFormed hvalid hopen hrows
  · left
    rw [h.user] at hs ht
    rw [heq]
    exact ⟨h.held_iff.1 ⟨hs, ht⟩,
      ⟨balance?_commit_source hopen hne, balance?_commit_target hopen⟩, _, rfl⟩
  · right
    rw [h.user] at hchanged
    exact ⟨fun hsame => hchanged (h.held_iff.2 hsame), leg, found, heq⟩

end Settling

/-! ### Side by side -/

/-- Calls of which only rivals name the two rows of an open user. -/
structure Contest (l : Ledger) (u : UserId) (a b : Currency) (calls : List Call) : Prop where
  opened : l.users.contains u = true
  supported : a ∈ l.currencies ∧ b ∈ l.currencies
  distinct : a ≠ b
  writers : ∀ call ∈ calls, call.user = u ∧ (a ∈ call.rows ∨ b ∈ call.rows) →
    ∃ x, call = .settle x ∧ l.Rival u a b x

namespace Crew

structure Undecided (l : Ledger) (u : UserId) (a b : Currency) (calls : List Call) (s : Crew) :
    Prop where
  pair : s.shared.ledger.HasPair u a b
  same : l.SamePair s.shared.ledger u a b
  unanswered : ∀ i x, calls[i]? = some (.settle x) → l.Rival u a b x → s.outcome? i = none

/-- One rival has been written and stands in both rows, and whoever else has an answer has met a
conflict. -/
structure WonBy (l : Ledger) (u : UserId) (a b : Currency) (calls : List Call) (s : Crew)
    (winner : Nat) (x : Settlement) : Prop where
  call : calls[winner]? = some (.settle x)
  rival : l.Rival u a b x
  pair : s.shared.ledger.HasPair u a b
  both : s.shared.ledger.HoldsBoth x
  won : ∃ balances, s.outcome? winner = some (.ok balances)
  lost : ∀ i y reply, i ≠ winner → calls[i]? = some (.settle y) → l.Rival u a b y →
    s.outcome? i = some reply → ∃ (leg : SettlementLeg) (found : Decimal),
      reply = .refused (.conflict leg.currency leg.expected found)

section Contest

variable {l : Ledger} {u : UserId} {a b : Currency} {calls : List Call} {s : Crew} {winner : Nat}
  {x : Settlement}

theorem undecided_start (hl : l.WellFormed) (h : l.Contest u a b calls) :
    (start l calls).Undecided l u a b calls where
  pair := ⟨hl, h.opened, h.supported.1, h.supported.2⟩
  same _ _ := rfl
  unanswered i x hcall _ := by
    rw [outcome?, phase?, start, List.getElem?_map, hcall]
    rfl

theorem ne_of_not_names {call : Call} {i k : Nat} (hcall : calls[i]? = some call)
    (hnames : ¬ (call.user = u ∧ (a ∈ call.rows ∨ b ∈ call.rows)))
    (hk : calls[k]? = some (.settle x)) (hrival : l.Rival u a b x) : k ≠ i := by
  rintro rfl
  cases hcall.symm.trans hk
  exact hnames hrival.names

theorem Undecided.of_same {s' : Crew} (h : s.Undecided l u a b calls)
    (hledger : s'.shared.ledger = s.shared.ledger) (hsame : ∀ k, s'.outcome? k = s.outcome? k) :
    s'.Undecided l u a b calls := by
  obtain ⟨hpair, hrows, hunanswered⟩ := h
  rw [← hledger] at hpair hrows
  exact ⟨hpair, hrows, fun k x hk hrival => (hsame k).trans (hunanswered k x hk hrival)⟩

/-- The first rival that takes effect wins. -/
theorem Undecided.step (h : s.Undecided l u a b calls) (hcontest : l.Contest u a b calls)
    (hsound : s.Sound calls) (i : Nat) :
    (s.step i).Undecided l u a b calls ∨ ∃ x, (s.step i).WonBy l u a b calls i x := by
  obtain ⟨hledger, hsame⟩ | ⟨call, hcall, -, hledger, hafter⟩ := hsound.step_effect i
  · exact Or.inl (h.of_same hledger hsame)
  have hpair := h.pair.perform call
  rw [← hledger] at hpair
  by_cases hnames : call.user = u ∧ (a ∈ call.rows ∨ b ∈ call.rows)
  · right
    obtain ⟨x, rfl, hrival⟩ := hcontest.writers call (List.mem_of_getElem? hcall) hnames
    obtain ⟨-, hboth, balances, hok⟩ | ⟨hchanged, -⟩ :=
      hrival.settle_cases hcontest.distinct h.pair
    · refine ⟨x, hcall, hrival, hpair, ?_, ⟨balances, ?_⟩, fun k y reply hk hy hother hreply => ?_⟩
      · rwa [hledger]
      · rw [hafter, if_pos rfl, hok]
      · rw [hafter, if_neg hk, h.unanswered k y hy hother] at hreply
        cases hreply
    · exact absurd h.same hchanged
  · left
    refine ⟨hpair, fun c hc => ?_, fun k x hk hrival => ?_⟩
    · rw [hledger, value?, h.pair.balance?_perform hnames hc]
      exact h.same c hc
    · rw [hafter, if_neg (ne_of_not_names hcall hnames hk hrival)]
      exact h.unanswered k x hk hrival

theorem WonBy.of_same {s' : Crew} (h : s.WonBy l u a b calls winner x)
    (hledger : s'.shared.ledger = s.shared.ledger) (hsame : ∀ k, s'.outcome? k = s.outcome? k) :
    s'.WonBy l u a b calls winner x := by
  obtain ⟨hcall, hrival, hpair, hboth, ⟨balances, hwon⟩, hlost⟩ := h
  rw [← hledger] at hpair hboth
  refine ⟨hcall, hrival, hpair, hboth, ⟨balances, (hsame winner).trans hwon⟩, ?_⟩
  intro k y reply hk hy hother hreply
  exact hlost k y reply hk hy hother ((hsame k).symm.trans hreply)

theorem WonBy.holdsBoth_perform (h : s.WonBy l u a b calls winner x) {call : Call}
    (hnames : ¬ (call.user = u ∧ (a ∈ call.rows ∨ b ∈ call.rows))) :
    (s.shared.ledger.perform call).1.HoldsBoth x := by
  obtain ⟨hsource, htarget⟩ := h.both
  have hkeeps : ∀ c, c = x.source.currency ∨ c = x.target.currency →
      (s.shared.ledger.perform call).1.balance? x.user c = s.shared.ledger.balance? x.user c :=
    fun c hc => by
      rw [h.rival.user]
      exact h.pair.balance?_perform hnames ((h.rival.mem_pair c).2 hc)
  exact ⟨(hkeeps _ (Or.inl rfl)).trans hsource, (hkeeps _ (Or.inr rfl)).trans htarget⟩

theorem WonBy.perform_rival (h : s.WonBy l u a b calls winner x) (hdistinct : a ≠ b)
    {y : Settlement} (hy : l.Rival u a b y) : ∃ (leg : SettlementLeg) (found : Decimal),
      s.shared.ledger.perform (.settle y) =
        (s.shared.ledger, .refused (.conflict leg.currency leg.expected found)) := by
  obtain ⟨hfirst, -⟩ | ⟨-, hconflict⟩ := hy.settle_cases hdistinct h.pair
  · exact absurd hfirst (h.rival.not_samePair h.both)
  · exact hconflict

theorem WonBy.step (h : s.WonBy l u a b calls winner x) (hcontest : l.Contest u a b calls)
    (hsound : s.Sound calls) (i : Nat) : (s.step i).WonBy l u a b calls winner x := by
  obtain ⟨hledger, hsame⟩ | ⟨call, hcall, hbefore, hledger, hafter⟩ := hsound.step_effect i
  · exact h.of_same hledger hsame
  obtain ⟨balances, hwon⟩ := h.won
  have hwinner : winner ≠ i := by
    rintro rfl
    rw [hbefore] at hwon
    cases hwon
  have hpair := h.pair.perform call
  rw [← hledger] at hpair
  refine ⟨h.call, h.rival, hpair, ?_, ⟨balances, ?_⟩, fun k y reply hk hy hrival hreply => ?_⟩
  · rw [hledger]
    by_cases hnames : call.user = u ∧ (a ∈ call.rows ∨ b ∈ call.rows)
    · obtain ⟨y, rfl, hrival⟩ := hcontest.writers call (List.mem_of_getElem? hcall) hnames
      obtain ⟨leg, found, hconflict⟩ := h.perform_rival hcontest.distinct hrival
      rw [hconflict]
      exact h.both
    · exact h.holdsBoth_perform hnames
  · rwa [hafter, if_neg hwinner]
  · rw [hafter] at hreply
    by_cases hki : k = i
    · subst hki
      cases hcall.symm.trans hy
      obtain ⟨leg, found, hconflict⟩ := h.perform_rival hcontest.distinct hrival
      rw [if_pos rfl, hconflict] at hreply
      exact ⟨leg, found, (Option.some.inj hreply).symm⟩
    · rw [if_neg hki] at hreply
      exact h.lost k y reply hk hy hrival hreply

theorem WonBy.run (h : s.WonBy l u a b calls winner x) (hcontest : l.Contest u a b calls)
    (hsound : s.Sound calls) (schedule : List Nat) :
    (s.run schedule).WonBy l u a b calls winner x := by
  induction schedule generalizing s with
  | nil => exact h
  | cons i schedule ih => exact ih (h.step hcontest hsound i) (hsound.step i)

theorem Undecided.run (h : s.Undecided l u a b calls) (hcontest : l.Contest u a b calls)
    (hsound : s.Sound calls) (schedule : List Nat) :
    (s.run schedule).Undecided l u a b calls ∨
      ∃ winner x, (s.run schedule).WonBy l u a b calls winner x := by
  induction schedule generalizing s with
  | nil => exact Or.inl h
  | cons i schedule ih =>
    -- Once a step has decided, the rest of the schedule cannot change it.
    obtain hopen | ⟨x, hwon⟩ := h.step hcontest hsound i
    · exact ih hopen (hsound.step i)
    · exact Or.inr ⟨i, x, hwon.run hcontest (hsound.step i) schedule⟩

/-- Everyone can be brought to an answer from anywhere in a run, and once the rivals have theirs,
exactly one of them is written, in full, and all others have met a conflict. -/
theorem settled_once (hreach : l.Reachable) (hcontest : l.Contest u a b calls)
    (hsome : ∃ x, .settle x ∈ calls ∧ l.Rival u a b x) (schedule : List Nat) :
    (∃ rest, ∀ i < calls.length, (((start l calls).run (schedule ++ rest)).reply? i).isSome) ∧
    ((∀ i x, calls[i]? = some (.settle x) → l.Rival u a b x →
        (((start l calls).run schedule).reply? i).isSome) →
      ∃ winner x, calls[winner]? = some (.settle x) ∧ l.Rival u a b x ∧
        (∃ balances, ((start l calls).run schedule).reply? winner = some (.ok balances)) ∧
        (∀ i y, i ≠ winner → calls[i]? = some (.settle y) → l.Rival u a b y →
          ∃ (leg : SettlementLeg) (found : Decimal), ((start l calls).run schedule).reply? i =
            some (.refused (.conflict leg.currency leg.expected found))) ∧
        ((start l calls).run schedule).shared.ledger.HoldsBoth x) := by
  constructor
  · obtain ⟨rest, -, hrest⟩ := exists_completion_run l calls schedule
    exact ⟨rest, hrest⟩
  intro hdone
  obtain ⟨-, -, hunanswered⟩ | ⟨winner, x, hcall, hrival, -, hboth, ⟨balances, hwon⟩, hlost⟩ :=
    (undecided_start hreach.wellFormed hcontest).run hcontest (sound_start l calls) schedule
  · obtain ⟨x, hmem, hrival⟩ := hsome
    obtain ⟨i, hi⟩ := List.getElem?_of_mem hmem
    obtain ⟨reply, hreply⟩ := Option.isSome_iff_exists.1 (hdone i x hi hrival)
    cases (outcome?_of_reply? hreply).symm.trans (hunanswered i x hi hrival)
  · refine ⟨winner, x, hcall, hrival, ⟨balances, ?_⟩, fun i y hi hy hother => ?_, hboth⟩
    · obtain ⟨reply, hreply⟩ := Option.isSome_iff_exists.1 (hdone winner x hcall hrival)
      rw [hreply, ← outcome?_of_reply? hreply, hwon]
    · obtain ⟨reply, hreply⟩ := Option.isSome_iff_exists.1 (hdone i y hy hother)
      obtain ⟨leg, found, rfl⟩ := hlost i y reply hi hy hother (outcome?_of_reply? hreply)
      exact ⟨leg, found, hreply⟩

end Contest

def hundredDollars : Ledger :=
  (new [.usd, .eur, .rub]).run [.openAccounts ⟨1⟩, .apply ⟨1⟩ .usd (.small 10000 2)]

def dollarsToEuros : Settlement :=
  ⟨⟨1⟩, ⟨.usd, .small 100 0, .small 90 0⟩, ⟨.eur, .zero, .small 920 2⟩⟩

def eurosToDollars : Settlement :=
  ⟨⟨1⟩, ⟨.eur, .small 0 2, .zero⟩, ⟨.usd, .small 10000 2, .small 105 0⟩⟩

def rivalry : List Call :=
  [.settle dollarsToEuros, .settle eurosToDollars, .apply ⟨1⟩ .rub (.small 500 0),
    .settle dollarsToEuros]

theorem rival_dollarsToEuros : hundredDollars.Rival ⟨1⟩ .usd .eur dollarsToEuros := by
  refine ⟨rfl, Or.inl ⟨rfl, rfl⟩, ?_, ?_, ?_, Or.inl ?_⟩ <;> decide +kernel

theorem rival_eurosToDollars : hundredDollars.Rival ⟨1⟩ .usd .eur eurosToDollars := by
  refine ⟨rfl, Or.inr ⟨rfl, rfl⟩, ?_, ?_, ?_, Or.inr ?_⟩ <;> decide +kernel

theorem reachable_hundredDollars : hundredDollars.Reachable := ⟨_, _, rfl⟩

theorem contest_rivalry : hundredDollars.Contest ⟨1⟩ .usd .eur rivalry where
  opened := by decide +kernel
  supported := by decide +kernel
  distinct := by decide
  writers call hmem hnames := by
    simp only [rivalry, List.mem_cons, List.not_mem_nil, or_false] at hmem
    obtain rfl | rfl | rfl | rfl := hmem
    · exact ⟨_, rfl, rival_dollarsToEuros⟩
    · exact ⟨_, rfl, rival_eurosToDollars⟩
    · exact absurd hnames.2 (by decide)
    · exact ⟨_, rfl, rival_dollarsToEuros⟩

def inTurns : List Nat := (List.replicate 12 [1, 0, 3, 2]).flatten

theorem settled_once_inTurns :
    hundredDollars.Reachable ∧ hundredDollars.Contest ⟨1⟩ .usd .eur rivalry ∧
    (∀ i x, rivalry[i]? = some (.settle x) → hundredDollars.Rival ⟨1⟩ .usd .eur x →
      (((start hundredDollars rivalry).run inTurns).reply? i).isSome) ∧
    (∀ i y, i ≠ 1 → rivalry[i]? = some (.settle y) → hundredDollars.Rival ⟨1⟩ .usd .eur y →
      ∃ (leg : SettlementLeg) (found : Decimal),
        ((start hundredDollars rivalry).run inTurns).reply? i =
          some (.refused (.conflict leg.currency leg.expected found))) ∧
    ((start hundredDollars rivalry).run inTurns).shared.ledger.HoldsBoth eurosToDollars := by
  have hdone : ∀ i x, rivalry[i]? = some (.settle x) → hundredDollars.Rival ⟨1⟩ .usd .eur x →
      (((start hundredDollars rivalry).run inTurns).reply? i).isSome := by
    have hreplies : ∀ i < 4, (((start hundredDollars rivalry).run inTurns).reply? i).isSome := by
      decide +kernel
    intro i x hi _
    exact hreplies i (List.getElem?_eq_some_iff.1 hi).1
  have hsecond : (((start hundredDollars rivalry).run inTurns).reply? 1).any (·.isOk) = true := by
    decide +kernel
  have hsome : ∃ x, .settle x ∈ rivalry ∧ hundredDollars.Rival ⟨1⟩ .usd .eur x :=
    ⟨dollarsToEuros, List.mem_cons_self, rival_dollarsToEuros⟩
  obtain ⟨winner, x, hcall, -, -, hlost, hboth⟩ :=
    (settled_once reachable_hundredDollars contest_rivalry hsome inTurns).2 hdone
  -- The second rival has an answer that is no conflict.
  obtain rfl : winner = 1 := by
    by_contra hne
    obtain ⟨leg, found, hconflict⟩ := hlost 1 _ (Ne.symm hne) rfl rival_eurosToDollars
    rw [hconflict] at hsecond
    cases hsecond
  cases hcall
  exact ⟨reachable_hundredDollars, contest_rivalry, hdone, hlost, hboth⟩

end Crew

end CurrencyWallet.Ledger
