import CurrencyWallet.Proofs.Rates.Delivery
import CurrencyWallet.Proofs.Rates.Desk

/-!
Many searches side by side over one cache, with a service that answers each of them whenever and
whatever it likes. What a search gets from the cache is the rate of the latest fetch for its key,
and younger than the life of a rate; where there is no such fetch, the search asks the service.
Nothing is said about the other direction: an entry may be lost before its time.
-/
namespace CurrencyWallet

structure RateNote where
  time : Nat
  search : Nat
  incident : RateIncident

def RateNote.fetched? (key : String) : RateNote → Option (Nat × Decimal)
  | ⟨time, _, .delivered (.ok ⟨pair, rate, .remote⟩)⟩ =>
    if pair.key = key then some (time, rate) else none
  | _ => none

def RateLog.latest? (log : List RateNote) (key : String) : Option (Nat × Decimal) :=
  log.reverse.findSome? (·.fetched? key)

def Resolution.requests (next : Resolution) : List RateIncident :=
  next.request?.toList.map .called

/-- A desk, the searches that are under way there, and all that has been seen of them. The service
is not at the desk: it answers from outside. -/
structure RateOffice where
  now : Nat
  desk : RateDesk
  searches : List Resolution
  log : List RateNote

namespace RateOffice

inductive Event where
  | elapse (time : Nat)
  | launch (pair : CurrencyPair)
  | read (search : Nat)
  | answer (search : Nat) (a : RateAnswer)
  /-- An entry is removed. A search that has found one expired may be late to do so, when another
  one has just been put in its place. -/
  | drop (key : String)

def opening (policy : RatePolicy) (capacity now : Nat) : RateOffice where
  now
  desk := ⟨{ policy with useCache := true }, ∅, .new capacity⟩
  searches := []
  log := []

def note (s : RateOffice) (i : Nat) (incidents : List RateIncident) : List RateNote :=
  incidents.map (⟨s.now, i, ·⟩)

/-- The `i`-th search reads the cache, and if that has nothing for it, asks the service. -/
def read (s : RateOffice) (i : Nat) (r : Resolution) : RateOffice :=
  let (desk, next) := s.desk.assist s.now r
  { s with
    desk
    searches := s.searches.set i next
    log := s.log ++ s.note i (r.requests ++ r.deliveries next ++ next.requests) }

/-- The `i`-th search is answered by the service, and writes the cache at once if it has a rate to
write. An answer that does not fit changes nothing. -/
def hear (s : RateOffice) (i : Nat) (r : Resolution) (a : RateAnswer) : RateOffice :=
  let next := r.advance s.desk.policy a
  match next.request? with
  | some (.quote _) => s
  | _ =>
    let (desk, last) := s.desk.assist s.now next
    { s with
      desk
      searches := s.searches.set i last
      log := s.log ++ s.note i (r.deliveries next ++ next.requests) }

def step (s : RateOffice) : Event → RateOffice
  | .elapse time => { s with now := s.now + time }
  | .launch pair => { s with searches := s.searches ++ [.start s.desk.policy pair] }
  | .read i =>
    match s.searches[i]? with
    | some r => match r.request? with | some (.readCache _) => s.read i r | _ => s
    | none => s
  | .answer i a =>
    match s.searches[i]? with
    | some r => match r.request? with | some (.quote _) => s.hear i r a | _ => s
    | none => s
  | .drop key => { s with desk := { s.desk with cache := s.desk.cache.remove key } }

def run (s : RateOffice) (events : List Event) : RateOffice := events.foldl step s

end RateOffice

/-! ### The latest fetch -/

namespace RateLog

theorem latest?_append (log notes : List RateNote) (key : String) :
    latest? (log ++ notes) key = (latest? notes key).or (latest? log key) := by
  simp [latest?, List.findSome?_append]

theorem latest?_append_of_none {log notes : List RateNote} {key : String}
    (h : ∀ n ∈ notes, n.fetched? key = none) : latest? (log ++ notes) key = latest? log key := by
  have hnone : latest? notes key = none := by
    simpa [latest?, List.findSome?_eq_none_iff] using h
  rw [latest?_append, hnone, Option.none_or]

theorem latest?_append_fetch (log : List RateNote) (now i : Nat) (pair : CurrencyPair)
    (rate : Decimal) (call : RateCall) (key : String) :
    latest? (log ++ [⟨now, i, .delivered (.ok ⟨pair, rate, .remote⟩)⟩, ⟨now, i, .called call⟩])
        key = if pair.key = key then some (now, rate) else latest? log key := by
  rw [latest?_append]
  by_cases hkey : pair.key = key <;> simp [latest?, RateNote.fetched?, hkey]

/-! ### What a log shows -/

def Stale (ttl now : Nat) (log : List RateNote) (key : String) : Prop :=
  ∀ time rate, latest? log key = some (time, rate) → ttl ≤ now - time

/-- A rate from the cache is the one that was fetched last; it is positive and not too old. -/
def IsGenuine (ttl : Nat) (before : List RateNote) (n : RateNote) : Prop :=
  ∀ pair rate, n.incident = .delivered (.ok ⟨pair, rate, .cache⟩) →
    IsUsableRate rate ∧ ∃ time, latest? before pair.key = some (time, rate) ∧ time ≤ n.time ∧
      n.time - time < ttl

def AsksWhenStale (ttl : Nat) (before : List RateNote) (n : RateNote)
    (after : List RateNote) : Prop :=
  ∀ key, n.incident = .called (.readCache key) → Stale ttl n.time before key →
    ∃ pair rest, pair.key = key ∧ after = ⟨n.time, n.search, .called (.quote pair)⟩ :: rest

/-- Each note of a log bears on what stands before and after it as it should. -/
def Explained (ttl : Nat) (log : List RateNote) : Prop :=
  ∀ before n after, log = before ++ n :: after →
    IsGenuine ttl before n ∧ AsksWhenStale ttl before n after

section Explained

variable {ttl : Nat} {log notes : List RateNote}

theorem Explained.append (h : Explained ttl log)
    (hnotes : ∀ before n after, notes = before ++ n :: after →
      IsGenuine ttl (log ++ before) n ∧ AsksWhenStale ttl (log ++ before) n after) :
    Explained ttl (log ++ notes) := by
  intro before n after hsplit
  obtain ⟨more, hbefore, hrest⟩ | ⟨more, hlog, hrest⟩ := List.append_eq_append_iff.1 hsplit
  · rw [hbefore]
    exact hnotes more n after hrest
  · cases more with
    | nil =>
      have hnotes' := hnotes [] n after hrest.symm
      rw [List.append_nil] at hlog hnotes'
      rwa [← hlog]
    | cons m more =>
      obtain ⟨rfl, hafter⟩ := List.cons.inj hrest
      obtain ⟨hgenuine, hasks⟩ := h before n more hlog
      refine ⟨hgenuine, fun key hread hstale => ?_⟩
      obtain ⟨pair, rest, hkey, hmore⟩ := hasks key hread hstale
      exact ⟨pair, rest ++ notes, hkey, by rw [hafter, hmore]; rfl⟩

theorem Explained.concat (h : Explained ttl log) {n : RateNote}
    (hn : IsGenuine ttl log n ∧ AsksWhenStale ttl log n []) : Explained ttl (log ++ [n]) := by
  refine h.append fun before m after hsplit => ?_
  cases before with
  | nil =>
    obtain ⟨rfl, rfl⟩ := List.cons.inj hsplit
    simpa using hn
  | cons m' before => simp at hsplit

theorem Explained.pair (h : Explained ttl log) {m n : RateNote}
    (hm : IsGenuine ttl log m ∧ AsksWhenStale ttl log m [n])
    (hn : IsGenuine ttl (log ++ [m]) n ∧ AsksWhenStale ttl (log ++ [m]) n []) :
    Explained ttl (log ++ [m, n]) := by
  refine h.append fun before k after hsplit => ?_
  match before, hsplit with
  | [], hsplit =>
    obtain ⟨rfl, rfl⟩ := List.cons.inj hsplit
    simpa using hm
  | [_], hsplit =>
    obtain ⟨rfl, hrest⟩ := List.cons.inj hsplit
    obtain ⟨rfl, rfl⟩ := List.cons.inj hrest
    exact hn
  | _ :: _ :: _, hsplit => simp at hsplit

end Explained

end RateLog

/-! ### What an event does -/

/-- A search between two of its requests, where each rate is written as soon as it is fetched. -/
inductive Resolution.Underway : Resolution → Prop
  | reading (pair : CurrencyPair) : Underway ⟨pair, some (.readCache pair.key), none⟩
  | asking (pair : CurrencyPair) : Underway ⟨pair, some (.quote pair), none⟩
  | ended (pair : CurrencyPair) (result : RateResult) : Underway ⟨pair, none, some result⟩

namespace RateOffice

open RateLog

variable {s : RateOffice}

theorem read_cases (s : RateOffice) (i : Nat) (pair : CurrencyPair) :
    let r : Resolution := ⟨pair, some (.readCache pair.key), none⟩
    let found := s.desk.cache.lookup s.now pair.key
    let asked := ⟨s.now, i, .called (.readCache pair.key)⟩
    (∃ rate, found.2 = some rate ∧ IsUsableRate rate ∧ s.read i r =
      { s with
        desk := { s.desk with cache := found.1 }
        searches := s.searches.set i ⟨pair, none, some (.ok ⟨pair, rate, .cache⟩)⟩
        log := s.log ++ [asked, ⟨s.now, i, .delivered (.ok ⟨pair, rate, .cache⟩)⟩] }) ∨
    (∀ rate, found.2 = some rate → ¬ IsUsableRate rate) ∧ s.read i r =
      { s with
        desk := { s.desk with cache := found.1 }
        searches := s.searches.set i ⟨pair, some (.quote pair), none⟩
        log := s.log ++ [asked, ⟨s.now, i, .called (.quote pair)⟩] } := by
  simp only [read, RateDesk.assist_reading]
  cases hfound : (s.desk.cache.lookup s.now pair.key).2.filter (IsUsableRate ·) with
  | some rate =>
    obtain ⟨hlookup, husable⟩ := Option.filter_eq_some_iff.1 hfound
    exact Or.inl ⟨rate, hlookup, of_decide_eq_true husable, rfl⟩
  | none =>
    refine Or.inr ⟨fun rate hlookup husable => ?_, rfl⟩
    rw [hlookup, Option.filter_some, if_pos (decide_eq_true husable)] at hfound
    cases hfound

theorem hear_cases (huse : s.desk.policy.useCache = true) (i : Nat) (pair : CurrencyPair)
    (a : RateAnswer) :
    let r : Resolution := ⟨pair, some (.quote pair), none⟩
    s.hear i r a = s ∨
    (∃ e, s.hear i r a =
      { s with
        searches := s.searches.set i ⟨pair, none, some (.error e)⟩
        log := s.log ++ [⟨s.now, i, .delivered (.error e)⟩] }) ∨
    ∃ rate, IsUsableRate rate ∧ s.hear i r a =
      { s with
        desk := { s.desk with
          cache := s.desk.cache.store s.now pair.key rate s.desk.policy.cacheTtl }
        searches := s.searches.set i ⟨pair, none, some (.ok ⟨pair, rate, .remote⟩)⟩
        log := s.log ++ [⟨s.now, i, .delivered (.ok ⟨pair, rate, .remote⟩)⟩,
          ⟨s.now, i, .called (.writeCache pair.key rate s.desk.policy.cacheTtl)⟩] } := by
  cases a with
  | quoted rate =>
    by_cases husable : IsUsableRate rate
    · refine Or.inr (Or.inr ⟨rate, husable, ?_⟩)
      simp [hear, Resolution.advance, husable, Resolution.deliver, huse, RateDesk.assist_writing,
        note, Resolution.deliveries, Resolution.requests]
    · refine Or.inr (Or.inl ⟨.unavailable pair, ?_⟩)
      simp [hear, Resolution.advance, husable, Resolution.finish, RateDesk.assist, note,
        Resolution.deliveries, Resolution.requests]
  | quoteFailed e => exact Or.inr (Or.inl ⟨e, rfl⟩)
  | quoteTimedOut => exact Or.inr (Or.inl ⟨.timedOut pair, rfl⟩)
  | quoteCrashed => exact Or.inr (Or.inl ⟨.unavailable pair, rfl⟩)
  | _ => exact Or.inl rfl

/-! ### The cache and the log -/

/-- What is in the cache was fetched last for its key, and expires when its time is over; what was
fetched is usable; and the log is explained. Rates that live longer than any clock tells are never
in the cache, so that none of them can outlast a later fetch. -/
structure Sound (policy : RatePolicy) (s : RateOffice) : Prop where
  desk : s.desk.policy = { policy with useCache := true }
  underway : ∀ r ∈ s.searches, r.Underway
  cached : s.desk.cache.Every fun key e => IsWithinReach policy.cacheTtl ∧ ∃ time,
    latest? s.log key = some (time, e.rate) ∧ e.expires = time + policy.cacheTtl
  fetched : ∀ key time rate, latest? s.log key = some (time, rate) →
    IsUsableRate rate ∧ time ≤ s.now
  explained : Explained policy.cacheTtl s.log

variable {policy : RatePolicy}

theorem Sound.underway_set (h : s.Sound policy) (i : Nat) {next : Resolution}
    (hnext : next.Underway) : ∀ r ∈ s.searches.set i next, r.Underway := by
  intro r hr
  obtain hr | rfl := List.mem_or_eq_of_mem_set hr
  · exact h.underway r hr
  · exact hnext

/-- A rate that can be read is the latest one for its key, and still fresh. -/
theorem Sound.of_lookup (h : s.Sound policy) {key : String} {rate : Decimal}
    (hfound : (s.desk.cache.lookup s.now key).2 = some rate) :
    ∃ time, latest? s.log key = some (time, rate) ∧ time ≤ s.now ∧
      s.now - time < policy.cacheTtl := by
  obtain ⟨e, ⟨-, time, hlatest, hexpires⟩, rfl, hfresh⟩ := h.cached.of_lookup hfound
  obtain ⟨-, hpast⟩ := h.fetched key time e.rate hlatest
  have hnow : s.now < time + policy.cacheTtl := hexpires ▸ hfresh
  exact ⟨time, hlatest, hpast, by omega⟩

theorem Sound.of_lookup_note (h : s.Sound policy) {i : Nat} {key : String} {next : Resolution}
    {notes : List RateNote} (hnext : next.Underway)
    (hnotes : ∀ key, ∀ n ∈ notes, n.fetched? key = none)
    (hexplained : Explained policy.cacheTtl (s.log ++ notes)) :
    Sound policy
      { s with
        desk := { s.desk with cache := (s.desk.cache.lookup s.now key).1 }
        searches := s.searches.set i next
        log := s.log ++ notes } where
  desk := h.desk
  underway := h.underway_set i hnext
  cached := by
    intro key' e he
    simp only [latest?_append_of_none (hnotes key')]
    exact h.cached.lookup s.now key key' e he
  fetched := by
    intro key' time rate hlatest
    simp only [latest?_append_of_none (hnotes key')] at hlatest
    exact h.fetched key' time rate hlatest
  explained := hexplained

theorem Sound.read (h : s.Sound policy) (i : Nat) (pair : CurrencyPair) :
    (s.read i ⟨pair, some (.readCache pair.key), none⟩).Sound policy := by
  obtain ⟨rate, hfound, husable, hread⟩ | ⟨hnone, hread⟩ := s.read_cases i pair
  · obtain ⟨time, hlatest, hpast, hfresh⟩ := h.of_lookup hfound
    rw [hread]
    refine h.of_lookup_note (.ended pair _) (by simp [RateNote.fetched?]) ?_
    refine h.explained.pair ⟨nofun, ?_⟩ ⟨?_, nofun⟩
    · intro key hkey hstale
      cases hkey
      have hold : policy.cacheTtl ≤ s.now - time := hstale time rate hlatest
      omega
    · intro pair' rate' hsame
      cases hsame
      have hlog : ∀ n ∈ [(⟨s.now, i, .called (.readCache pair.key)⟩ : RateNote)],
          n.fetched? pair.key = none := by simp [RateNote.fetched?]
      rw [latest?_append_of_none hlog]
      exact ⟨husable, time, hlatest, hpast, hfresh⟩
  · rw [hread]
    refine h.of_lookup_note (.asking pair) (by simp [RateNote.fetched?]) ?_
    refine h.explained.pair ⟨nofun, ?_⟩ ⟨nofun, nofun⟩
    intro key hkey hstale
    cases hkey
    exact ⟨pair, [], rfl, rfl⟩

theorem Sound.hear (h : s.Sound policy) (i : Nat) (pair : CurrencyPair) (a : RateAnswer) :
    (s.hear i ⟨pair, some (.quote pair), none⟩ a).Sound policy := by
  have huse : s.desk.policy.useCache = true := by rw [h.desk]
  have httl : s.desk.policy.cacheTtl = policy.cacheTtl := by rw [h.desk]
  obtain hsame | ⟨e, hfailed⟩ | ⟨rate, husable, hfetched⟩ := hear_cases huse i pair a
  · rw [hsame]
    exact h
  · have hlog : ∀ key, ∀ n ∈ [(⟨s.now, i, .delivered (.error e)⟩ : RateNote)],
        n.fetched? key = none := by simp [RateNote.fetched?]
    rw [hfailed]
    refine ⟨h.desk, h.underway_set i (.ended pair _), ?_, ?_, h.explained.concat ⟨nofun, nofun⟩⟩
    · intro key e' he
      rw [latest?_append_of_none (hlog key)]
      exact h.cached key e' he
    · intro key time rate hlatest
      rw [latest?_append_of_none (hlog key)] at hlatest
      exact h.fetched key time rate hlatest
  · rw [hfetched]
    refine ⟨h.desk, h.underway_set i (.ended pair _), ?_, ?_,
      h.explained.pair ⟨nofun, nofun⟩ ⟨nofun, nofun⟩⟩
    · rw [httl]
      by_cases hreach : IsWithinReach policy.cacheTtl
      · refine .store hreach (fun key e he hne => ?_) ?_
        · simp only [latest?_append_fetch, if_neg (Ne.symm hne)]
          exact h.cached key e he
        · simp only [latest?_append_fetch, if_true]
          exact ⟨hreach, s.now, rfl, rfl⟩
      · refine .store_of_not_reach hreach fun key e he => ?_
        exact absurd (h.cached key e he).1 hreach
    · intro key time rate' hlatest
      simp only [latest?_append_fetch] at hlatest
      split at hlatest
      · cases hlatest
        exact ⟨husable, Nat.le_refl _⟩
      · exact h.fetched key time rate' hlatest

theorem Sound.step (h : s.Sound policy) (event : Event) : (s.step event).Sound policy := by
  cases event with
  | elapse time =>
    refine ⟨h.desk, h.underway, h.cached, fun key time' rate hlatest => ?_, h.explained⟩
    obtain ⟨husable, hpast⟩ := h.fetched key time' rate hlatest
    exact ⟨husable, Nat.le_add_right_of_le hpast⟩
  | launch pair =>
    refine ⟨h.desk, ?_, h.cached, h.fetched, h.explained⟩
    intro r hr
    obtain hr | hr := List.mem_append.1 hr
    · exact h.underway r hr
    · have hstart : Resolution.start s.desk.policy pair =
          ⟨pair, some (.readCache pair.key), none⟩ := by simp [Resolution.start, h.desk]
      rw [List.mem_singleton.1 hr, hstart]
      exact .reading pair
  | read i =>
    simp only [RateOffice.step]
    cases hi : s.searches[i]? with
    | none => exact h
    | some r =>
      cases h.underway r (List.mem_of_getElem? hi) with
      | reading pair => exact h.read i pair
      | asking pair => exact h
      | ended pair result => exact h
  | answer i a =>
    simp only [RateOffice.step]
    cases hi : s.searches[i]? with
    | none => exact h
    | some r =>
      cases h.underway r (List.mem_of_getElem? hi) with
      | reading pair => exact h
      | asking pair => exact h.hear i pair a
      | ended pair result => exact h
  | drop key => exact ⟨h.desk, h.underway, h.cached.remove key, h.fetched, h.explained⟩

theorem Sound.run (h : s.Sound policy) (events : List Event) : (s.run events).Sound policy := by
  induction events generalizing s with
  | nil => exact h
  | cons event events ih => exact ih (h.step event)

/-- A search that finds the rate of another one, and one that comes when that rate is too old. -/
example :
    ((opening ⟨10, 0, 0, true⟩ 1 0).run
      [.launch ⟨.usd, .eur⟩, .launch ⟨.usd, .eur⟩, .read 0, .answer 0 (.quoted (.small 90 2)),
        .elapse 4, .read 1, .launch ⟨.usd, .eur⟩, .elapse 6, .read 2]).log.map
      (fun n => (n.time, n.search, n.incident)) =
    [(0, 0, .called (.readCache "USD/EUR")),
      (0, 0, .called (.quote ⟨.usd, .eur⟩)),
      (0, 0, .delivered (.ok ⟨⟨.usd, .eur⟩, .small 90 2, .remote⟩)),
      (0, 0, .called (.writeCache "USD/EUR" (.small 90 2) 10)),
      (4, 1, .called (.readCache "USD/EUR")),
      (4, 1, .delivered (.ok ⟨⟨.usd, .eur⟩, .small 90 2, .cache⟩)),
      (10, 2, .called (.readCache "USD/EUR")),
      (10, 2, .called (.quote ⟨.usd, .eur⟩))] := by
  rfl

end RateOffice

end CurrencyWallet
