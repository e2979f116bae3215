import CurrencyWallet.Json.Record
import CurrencyWallet.Proofs.Currency.Listing
import CurrencyWallet.Proofs.Lists
import CurrencyWallet.Proofs.Rates.Listing

/-!
Codes in normal form. Every currency that is made from a text is: alone, in a pair, in a list of
codes or of rates. Currencies that are read from records have the codes that stand there, with their
blanks and small letters; they are in normal form if and only if what stands there is.
-/
namespace CurrencyWallet

/-! ### Where codes stand -/

abbrev CodeTexts := Json → List String

namespace CodeTexts

def noText : CodeTexts := fun _ => []

def ofString : CodeTexts := fun j => j.string?.toList

def ofNames : CodeTexts := fun j => (j.members?.getD []).map (·.1)

def ofRecord (fields : List (String × CodeTexts)) : CodeTexts := fun j =>
  match j.fields? (fields.map (·.1)) with
  | some items => (List.zipWith (fun field item => field.2 item) fields items).flatten
  | none => []

end CodeTexts

open CodeTexts

class Denominated (α : Type) where
  currencies : α → List Currency
  codeTexts : CodeTexts

export Denominated (currencies codeTexts)

instance : Denominated Currency where
  currencies c := [c]
  codeTexts := ofString

instance : Denominated CurrencyPair where
  currencies p := currencies p.source ++ currencies p.target
  codeTexts := ofRecord [("from", codeTexts Currency), ("to", codeTexts Currency)]

instance : Denominated Balances where
  currencies b := b.keys
  codeTexts := ofNames

instance : Denominated Quote where
  currencies q := currencies q.pair
  codeTexts := ofRecord
    [("pair", codeTexts CurrencyPair), ("rate", noText), ("observed_at", noText),
     ("source", noText)]

instance : Denominated ResolvedRate where
  currencies r := currencies r.pair
  codeTexts := ofRecord [("pair", codeTexts CurrencyPair), ("rate", noText), ("source", noText)]

instance : Denominated Funding where
  currencies f := currencies f.balances
  codeTexts := ofRecord
    [("balances", codeTexts Balances), ("base_balance", noText), ("to_balance", noText)]

instance : Denominated SettlementLeg where
  currencies l := currencies l.currency
  codeTexts := ofRecord
    [("currency", codeTexts Currency), ("expected_balance", noText), ("new_balance", noText)]

instance : Denominated Settlement where
  currencies s := currencies s.source ++ currencies s.target
  codeTexts := ofRecord
    [("user_id", noText), ("base", codeTexts SettlementLeg), ("to", codeTexts SettlementLeg)]

instance : Denominated PricingInput where
  currencies i := currencies i.source ++ currencies i.target
  codeTexts := ofRecord
    [("base_currency", codeTexts Currency), ("base_balance", noText),
     ("to_currency", codeTexts Currency), ("to_balance", noText), ("rate", noText),
     ("amount", noText)]

instance : Denominated ExchangeRequest where
  currencies r := currencies r.source ++ currencies r.target
  codeTexts := ofRecord
    [("user_id", noText), ("from", codeTexts Currency), ("to", codeTexts Currency),
     ("amount", noText)]

instance : Denominated ExchangeOutcome where
  currencies o := currencies o.source ++ currencies o.target ++ currencies o.balances
  codeTexts := ofRecord
    [("exchange_id", noText), ("user_id", noText), ("base_currency", codeTexts Currency),
     ("new_base_balance", noText), ("to_currency", codeTexts Currency),
     ("new_to_balance", noText), ("spent", noText), ("received", noText), ("rate", noText),
     ("rate_source", noText), ("balances", codeTexts Balances)]

/-! ### What is read -/

def KeepsCodes (α : Type) [JsonCoded α] [Denominated α] : Prop :=
  ∀ (j : Json) (x : α), decode? j = some x →
    ∀ c : Currency, c ∈ currencies x ↔ c.code ∈ codeTexts α j

variable {α : Type} [JsonCoded α] [Denominated α]

theorem KeepsCodes.ofRecord {fields : List (String × CodeTexts)} {read : List Json → Option α}
    (htexts : codeTexts α = CodeTexts.ofRecord fields)
    (hdecode : ∀ j, decode? j = (j.fields? (fields.map (·.1))).bind read)
    (h : ∀ items x, read items = some x → ∀ c : Currency, c ∈ currencies x ↔
      c.code ∈ (List.zipWith (fun field item => field.2 item) fields items).flatten) :
    KeepsCodes α := by
  intro j x hread c
  rw [hdecode, Option.bind_eq_some_iff] at hread
  obtain ⟨items, hitems, hread⟩ := hread
  rw [h items x hread c, htexts, CodeTexts.ofRecord, hitems]

theorem keepsCodes_currency : KeepsCodes Currency := by
  intro j x h c
  obtain ⟨s, hs, rfl⟩ := Option.map_eq_some_iff.1 h
  simp [currencies, codeTexts, ofString, hs, ← Currency.code_inj]

theorem keepsCodes_balances : KeepsCodes Balances := by
  intro j b h c
  obtain ⟨members, hmembers, h⟩ := Option.bind_eq_some_iff.1 h
  obtain ⟨entries, hentries, h⟩ := Option.bind_eq_some_iff.1 h
  cases h
  have hnames : entries.map (·.1) = members.map fun m => (⟨m.1⟩ : Currency) := by
    refine List.map_of_mapM (fun m e he => ?_) hentries
    obtain ⟨d, -, hd⟩ := Option.bind_eq_some_iff.1 he
    cases hd
    rfl
  have htexts : codeTexts Balances j = members.map (·.1) := by
    show (j.members?.getD []).map (·.1) = _
    rw [hmembers, Option.getD_some]
  have hkeys : c ∈ (Table.ofList entries).keys ↔ c ∈ entries.map (·.1) := by
    rw [Table.mem_keys_ofList, List.mem_map]
  show c ∈ (Table.ofList entries).keys ↔ _
  rw [hkeys, hnames, htexts]
  simp [← Currency.code_inj]

theorem keepsCodes_pair : KeepsCodes CurrencyPair := by
  refine .ofRecord rfl (fun _ => rfl) fun items p h c => ?_
  split at h
  · simp only [Option.bind_eq_bind, Option.bind_eq_some_iff, Option.some.injEq] at h
    obtain ⟨source, hsource, target, htarget, rfl⟩ := h
    show c ∈ currencies source ++ currencies target ↔ _
    simp [keepsCodes_currency _ _ hsource, keepsCodes_currency _ _ htarget]
  · cases h

theorem keepsCodes_quote : KeepsCodes Quote := by
  refine .ofRecord rfl (fun _ => rfl) fun items q h c => ?_
  split at h
  · simp only [Option.bind_eq_bind, Option.bind_eq_some_iff, Option.some.injEq] at h
    obtain ⟨pair, hpair, -, -, -, -, -, -, rfl⟩ := h
    show c ∈ currencies pair ↔ _
    simp [keepsCodes_pair _ _ hpair, noText]
  · cases h

theorem keepsCodes_resolvedRate : KeepsCodes ResolvedRate := by
  refine .ofRecord rfl (fun _ => rfl) fun items r h c => ?_
  split at h
  · simp only [Option.bind_eq_bind, Option.bind_eq_some_iff, Option.some.injEq] at h
    obtain ⟨pair, hpair, -, -, -, -, rfl⟩ := h
    show c ∈ currencies pair ↔ _
    simp [keepsCodes_pair _ _ hpair, noText]
  · cases h

theorem keepsCodes_funding : KeepsCodes Funding := by
  refine .ofRecord rfl (fun _ => rfl) fun items f h c => ?_
  split at h
  · simp only [Option.bind_eq_bind, Option.bind_eq_some_iff, Option.some.injEq] at h
    obtain ⟨balances, hbalances, -, -, -, -, rfl⟩ := h
    show c ∈ currencies balances ↔ _
    simp [keepsCodes_balances _ _ hbalances, noText]
  · cases h

theorem keepsCodes_leg : KeepsCodes SettlementLeg := by
  refine .ofRecord rfl (fun _ => rfl) fun items l h c => ?_
  split at h
  · simp only [Option.bind_eq_bind, Option.bind_eq_some_iff, Option.some.injEq] at h
    obtain ⟨currency, hcurrency, -, -, -, -, rfl⟩ := h
    show c ∈ currencies currency ↔ _
    simp [keepsCodes_currency _ _ hcurrency, noText]
  · cases h

theorem keepsCodes_settlement : KeepsCodes Settlement := by
  refine .ofRecord rfl (fun _ => rfl) fun items s h c => ?_
  split at h
  · simp only [Option.bind_eq_bind, Option.bind_eq_some_iff, Option.some.injEq] at h
    obtain ⟨-, -, source, hsource, target, htarget, rfl⟩ := h
    show c ∈ currencies source ++ currencies target ↔ _
    simp [keepsCodes_leg _ _ hsource, keepsCodes_leg _ _ htarget, noText]
  · cases h

theorem keepsCodes_pricingInput : KeepsCodes PricingInput := by
  refine .ofRecord rfl (fun _ => rfl) fun items i h c => ?_
  split at h
  · simp only [Option.bind_eq_bind, Option.bind_eq_some_iff, Option.some.injEq] at h
    obtain ⟨source, hsource, -, -, target, htarget, -, -, -, -, -, -, rfl⟩ := h
    show c ∈ currencies source ++ currencies target ↔ _
    simp [keepsCodes_currency _ _ hsource, keepsCodes_currency _ _ htarget, noText]
  · cases h

theorem keepsCodes_request : KeepsCodes ExchangeRequest := by
  refine .ofRecord rfl (fun _ => rfl) fun items r h c => ?_
  split at h
  · simp only [Option.bind_eq_bind, Option.bind_eq_some_iff, Option.some.injEq] at h
    obtain ⟨-, -, source, hsource, target, htarget, -, -, rfl⟩ := h
    show c ∈ currencies source ++ currencies target ↔ _
    simp [keepsCodes_currency _ _ hsource, keepsCodes_currency _ _ htarget, noText]
  · cases h

theorem keepsCodes_outcome : KeepsCodes ExchangeOutcome := by
  refine .ofRecord rfl (fun _ => rfl) fun items o h c => ?_
  split at h
  · simp only [Option.bind_eq_bind, Option.bind_eq_some_iff, Option.some.injEq] at h
    obtain ⟨-, -, -, -, source, hsource, -, -, target, htarget, -, -, -, -, -, -, -, -, -, -,
      balances, hbalances, rfl⟩ := h
    show c ∈ currencies source ++ currencies target ++ currencies balances ↔ _
    simp [keepsCodes_currency _ _ hsource, keepsCodes_currency _ _ htarget,
      keepsCodes_balances _ _ hbalances, noText]
  · cases h

/-! ### Normal forms -/

theorem Currency.isNormal_iff {c : Currency} : c.IsNormal ↔ (ofText c.code).code = c.code := by
  rw [IsNormal, code_inj]

theorem KeepsCodes.isNormal_iff (hα : KeepsCodes α) {j : Json} {x : α} (h : decode? j = some x) :
    (∀ c ∈ currencies x, c.IsNormal) ↔ ∀ t ∈ codeTexts α j, (Currency.ofText t).code = t := by
  constructor
  · intro hnormal t ht
    exact Currency.isNormal_iff.1 (hnormal ⟨t⟩ ((hα j x h ⟨t⟩).2 ht))
  · intro htexts c hc
    exact Currency.isNormal_iff.2 (htexts c.code ((hα j x h c).1 hc))

/-! ### Where currencies come from -/

inductive RecordKind where
  | currency
  | pair
  | balances
  | quote
  | resolvedRate
  | funding
  | leg
  | settlement
  | pricingInput
  | request
  | outcome

namespace RecordKind

def read (kind : RecordKind) (j : Json) : Option (List Currency × List String) :=
  match kind with
  | currency => readAs Currency
  | pair => readAs CurrencyPair
  | balances => readAs Balances
  | quote => readAs Quote
  | resolvedRate => readAs ResolvedRate
  | funding => readAs Funding
  | leg => readAs SettlementLeg
  | settlement => readAs Settlement
  | pricingInput => readAs PricingInput
  | request => readAs ExchangeRequest
  | outcome => readAs ExchangeOutcome
where
  readAs (α : Type) [JsonCoded α] [Denominated α] : Option (List Currency × List String) :=
    (decode? j : Option α).map fun x => (currencies x, codeTexts α j)

theorem isNormal_iff_of_readAs {j : Json} (hα : KeepsCodes α) {cs : List Currency}
    {texts : List String} (h : read.readAs j α = some (cs, texts)) :
    (∀ c ∈ cs, c.IsNormal) ↔ ∀ t ∈ texts, (Currency.ofText t).code = t := by
  obtain ⟨x, hx, hread⟩ := Option.map_eq_some_iff.1 h
  cases hread
  exact hα.isNormal_iff hx

theorem isNormal_iff_of_read {kind : RecordKind} {j : Json} {cs : List Currency}
    {texts : List String} (h : kind.read j = some (cs, texts)) :
    (∀ c ∈ cs, c.IsNormal) ↔ ∀ t ∈ texts, (Currency.ofText t).code = t := by
  cases kind with
  | currency => exact isNormal_iff_of_readAs keepsCodes_currency h
  | pair => exact isNormal_iff_of_readAs keepsCodes_pair h
  | balances => exact isNormal_iff_of_readAs keepsCodes_balances h
  | quote => exact isNormal_iff_of_readAs keepsCodes_quote h
  | resolvedRate => exact isNormal_iff_of_readAs keepsCodes_resolvedRate h
  | funding => exact isNormal_iff_of_readAs keepsCodes_funding h
  | leg => exact isNormal_iff_of_readAs keepsCodes_leg h
  | settlement => exact isNormal_iff_of_readAs keepsCodes_settlement h
  | pricingInput => exact isNormal_iff_of_readAs keepsCodes_pricingInput h
  | request => exact isNormal_iff_of_readAs keepsCodes_request h
  | outcome => exact isNormal_iff_of_readAs keepsCodes_outcome h

end RecordKind

/-- What currencies are made from: a code, a pair, a list of codes or a list of rates in a text, or
a value of JSON. -/
inductive Origin where
  | code (s : String)
  | pair (s : String)
  | codes (s : String)
  | rates (s : String)
  | json (kind : RecordKind) (j : Json)

namespace Origin

def made : Origin → List Currency
  | code s => [Currency.ofText s]
  | pair s =>
    match CurrencyPair.ofText s with
    | .ok p => currencies p
    | .error _ => []
  | codes s => Currency.listOfText s
  | rates s =>
    match RateListing.ofText s with
    | .ok entries => entries.flatMap fun e => currencies e.1
    | .error _ => []
  | json kind j => ((kind.read j).map (·.1)).getD []

def written : Origin → List String
  | json kind j => ((kind.read j).map (·.2)).getD []
  | _ => []

theorem isNormal_of_pair {p : CurrencyPair} (hp : p.IsValid) : ∀ c ∈ currencies p, c.IsNormal := by
  show ∀ c ∈ [p.source, p.target], c.IsNormal
  simp [Currency.isNormal_of_isValid hp.1, Currency.isNormal_of_isValid hp.2]

/-- The currencies of an origin are in normal form if and only if the codes that stand in it as JSON
are: those that are made from a text always are. Currencies in normal form with one normal form are
one currency. -/
theorem isNormal_made_iff (o : Origin) :
    ((∀ c ∈ o.made, c.IsNormal) ↔ ∀ t ∈ o.written, (Currency.ofText t).code = t) ∧
    ∀ a b : Currency, a.IsNormal → b.IsNormal →
      (Currency.ofText a.code = Currency.ofText b.code ↔ a = b) := by
  refine ⟨?_, fun a b ha hb => by rw [ha, hb]⟩
  -- Only JSON has codes that are kept; for a text the right side says nothing.
  have htext {cs : List Currency} (h : ∀ c ∈ cs, c.IsNormal) :
      (∀ c ∈ cs, c.IsNormal) ↔ ∀ t ∈ ([] : List String), (Currency.ofText t).code = t :=
    iff_of_true h nofun
  cases o with
  | code s => exact htext (List.forall_mem_singleton.2 (Currency.isNormal_ofText s))
  | pair s =>
    simp only [made, written]
    split
    · rename_i p hp
      exact htext (isNormal_of_pair (CurrencyPair.isValid_of_ofText hp))
    · exact htext nofun
  | codes s => exact htext fun c hc => Currency.isNormal_of_mem_listOfText hc
  | rates s =>
    simp only [made, written]
    split
    · rename_i entries hentries
      refine htext (List.forall_mem_flatMap.2 fun e he => ?_)
      exact isNormal_of_pair (RateListing.isValid_of_ofText hentries e he)
    · exact htext nofun
  | json kind j =>
    simp only [made, written]
    cases hread : kind.read j with
    | none => exact htext nofun
    | some read => exact RecordKind.isNormal_iff_of_read hread

/-- Dollars in small letters: from a text they are dollars; from JSON they are a currency of their
own, which is not in normal form and stands beside the dollars in one table of balances. -/
theorem isNormal_made_smallLetters :
    (code "usd").made = [.usd] ∧ Currency.usd.IsNormal ∧
      (json .currency (.string "usd")).made = [⟨"usd"⟩] ∧ ¬ (⟨"usd"⟩ : Currency).IsNormal ∧
      (json .balances (.object [("USD", .string "1"), ("usd", .string "2")])).made =
        [.usd, ⟨"usd"⟩] ∧
      (Currency.ofText "USD" = Currency.ofText "USD" ↔ Currency.usd = .usd) := by
  have hmade : (code "usd").made = [.usd] := by decide +kernel
  have husd : Currency.usd.IsNormal :=
    (isNormal_made_iff (code "usd")).1.2 nofun _ (hmade ▸ List.mem_singleton_self _)
  have hread : (json .currency (.string "usd")).made = [⟨"usd"⟩] := rfl
  have hsmall := (isNormal_made_iff (json .currency (.string "usd"))).1
  rw [hread, List.forall_mem_singleton] at hsmall
  refine ⟨hmade, husd, hread, fun h => ?_, by decide +kernel,
    (isNormal_made_iff (code "usd")).2 .usd .usd husd husd⟩
  exact absurd (hsmall.1 h "usd" (List.mem_singleton_self _)) (by decide +kernel)

end Origin

end CurrencyWallet
