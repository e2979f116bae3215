import CurrencyWallet.Scenario.Parts

/-!
One search from its start to its end, whatever it meets on its way: a cache that has a rate or has
none or fails, a service that answers, fails, crashes or takes too long, and a cache that takes the
new rate or does not. It delivers one result, asks the service once unless the cache has a usable
rate, and writes the cache only with a rate that it has fetched and already delivered.
-/
namespace CurrencyWallet

inductive RateIncident where
  | called (call : RateCall)
  | delivered (result : RateResult)

namespace RateIncident

def call? : RateIncident → Option RateCall
  | called call => some call
  | delivered _ => none

def result? : RateIncident → Option RateResult
  | called _ => none
  | delivered result => some result

end RateIncident

namespace RateCall

def isQuote : RateCall → Bool
  | quote _ => true
  | _ => false

def isWrite : RateCall → Bool
  | writeCache _ _ _ => true
  | _ => false

end RateCall

def Resolution.deliveries (r next : Resolution) : List RateIncident :=
  if r.result?.isNone then next.result?.toList.map .delivered else []

namespace Scenario

/-- A service and a cache as a search finds them at each moment. What else is going on there may
change them at any time. -/
structure Surroundings where
  policy : RatePolicy
  service : Nat → FallibleService
  cache : Nat → FallibleCache

/-- The incidents of a search with their times, and the search as they leave it. -/
structure RateCourse where
  log : List (Nat × RateIncident)
  job : RateJob

namespace RateCourse

def calls (c : RateCourse) : List RateCall := c.log.filterMap (·.2.call?)

def results (c : RateCourse) : List RateResult := c.log.filterMap (·.2.result?)

end RateCourse

def RateJob.incidents (j next : RateJob) : List RateIncident :=
  match j.pending with
  | none => j.resolution.request?.toList.map .called
  | some _ => j.resolution.deliveries next.resolution

@[simp] theorem RateDesk.policy_complete (d : RateDesk) (p : Pending) :
    (d.complete p).1.policy = d.policy := by
  cases p <;> simp only [complete]
  · split <;> rfl
  · split <;> rfl

namespace Surroundings

def desk (s : Surroundings) (now : Nat) : RateDesk := ⟨s.policy, s.service now, s.cache now⟩

/-- Takes the steps of a job as soon as each of them can be taken, `steps` at most. -/
def pursue (s : Surroundings) : Nat → Nat → RateJob → RateCourse
  | 0, _, j => ⟨[], j⟩
  | steps + 1, now, j =>
    let now := max now (j.due?.getD now)
    match j.step now (s.desk now) with
    | none => ⟨[], j⟩
    | some (_, next) =>
      let rest := s.pursue steps now next
      ⟨(j.incidents next).map (now, ·) ++ rest.log, rest.job⟩

def course (s : Surroundings) (now : Nat) (pair : CurrencyPair) : RateCourse :=
  let j := RateJob.start s.policy pair
  s.pursue (2 * j.resolution.callsLeft) now j

def cached? (s : Surroundings) (now : Nat) (key : String) : Option Decimal :=
  let c := s.cache (now + (s.cache now).readDelay)
  if c.failingReads then none else c.cache.read? cacheClock key

structure Finds (s : Surroundings) (now : Nat) (pair : CurrencyPair) (rate : Decimal) : Prop where
  useCache : s.policy.useCache = true
  cached : s.cached? now pair.key = some rate
  usable : IsUsableRate rate

def asksAt (s : Surroundings) (now : Nat) : Nat :=
  if s.policy.useCache then now + (s.cache now).readDelay else now

/-- What the service comes to for a search that asks it at `now`: it may crash, be too late, fail,
or give a rate that is of no use. -/
def quoted (s : Surroundings) (now : Nat) (pair : CurrencyPair) : Except RateError Decimal :=
  let asked := s.service now
  let delay := asked.service.take.2
  if asked.crashing then .error (.unavailable pair)
  else if s.policy.quoteTimeout < delay then .error (.timedOut pair)
  else do
    let rate ← (s.service (now + delay)).service.quote pair
    if IsUsableRate rate then .ok rate else .error (.unavailable pair)

/-! ### From request to request -/

def answer (s : Surroundings) (now : Nat) (call : RateCall) : Nat × RateAnswer :=
  let (_, delay, pending) := (s.desk now).begin call
  (now + delay, ((s.desk (now + delay)).complete pending).2)

variable {s : Surroundings} {r : Resolution} {call : RateCall}

theorem pursue_request (h : r.request? = some call) (steps now : Nat) :
    let (time, a) := s.answer now call
    let next := r.advance s.policy a
    let rest := s.pursue steps time ⟨next, none⟩
    s.pursue (steps + 2) now ⟨r, none⟩ =
      ⟨(now, .called call) :: ((r.deliveries next).map (time, ·) ++ rest.log), rest.job⟩ := by
  let due := now + ((s.desk now).begin call).2.1
  let pending := ((s.desk now).begin call).2.2
  have hbegin : (⟨r, none⟩ : RateJob).step now (s.desk now) =
      some (((s.desk now).begin call).1, ⟨r, some (due, pending)⟩) := by
    simp [RateJob.step, h, due, pending]
  have hcomplete : (⟨r, some (due, pending)⟩ : RateJob).step due (s.desk due) =
      some (((s.desk due).complete pending).1,
        ⟨r.advance s.policy ((s.desk due).complete pending).2, none⟩) := by
    simp [RateJob.step, RateDesk.policy_complete, desk]
  have hdue : max now due = due := Nat.max_eq_right (Nat.le_add_right _ _)
  simp only [pursue, RateJob.due?, Option.map_none, Option.getD_none, Nat.max_self, hbegin,
    Option.map_some, Option.getD_some, hdue, hcomplete]
  simp [RateJob.incidents, h, answer, due, pending]

theorem pursue_of_none (h : r.request? = none) (steps now : Nat) :
    s.pursue steps now ⟨r, none⟩ = ⟨[], ⟨r, none⟩⟩ := by
  cases steps with
  | zero => rfl
  | succ steps => simp [pursue, RateJob.step, h]

theorem answer_readCache (s : Surroundings) (now : Nat) (key : String) :
    s.answer now (.readCache key) = (now + (s.cache now).readDelay,
      if (s.cache (now + (s.cache now).readDelay)).failingReads then .cacheFailed
      else match s.cached? now key with | some rate => .cached rate | none => .notCached) := by
  by_cases hfails : (s.cache (now + (s.cache now).readDelay)).failingReads = true
  · simp [answer, RateDesk.begin, RateDesk.complete, desk, hfails]
  · have hfound : ((s.cache (now + (s.cache now).readDelay)).cache.lookup cacheClock key).2 =
        s.cached? now key := by simp [cached?, hfails, RateCache.lookup_snd]
    cases hcached : s.cached? now key <;>
      simp [answer, RateDesk.begin, RateDesk.complete, desk, hfails, hfound, hcached]

theorem answer_writeCache (s : Surroundings) (now : Nat) (key : String) (rate : Decimal)
    (ttl : Nat) :
    (s.answer now (.writeCache key rate ttl)).2 = .cacheWritten ∨
      (s.answer now (.writeCache key rate ttl)).2 = .cacheWriteFailed := by
  by_cases hlate : s.policy.cacheWriteTimeout < (s.cache now).writeDelay
  · right
    simp [answer, RateDesk.begin, RateDesk.complete, desk, hlate]
  · by_cases hfails : (s.cache (now + (s.cache now).writeDelay)).failingWrites = true
    · right
      simp [answer, RateDesk.begin, RateDesk.complete, desk, hlate, hfails]
    · have hwrite : (s.answer now (.writeCache key rate ttl)).2 = .ofWrite ttl := by
        simp [answer, RateDesk.begin, RateDesk.complete, desk, hlate, hfails]
      rw [hwrite]
      exact RateAnswer.ofWrite_cases ttl

theorem advance_reading (s : Surroundings) (now : Nat) (pair : CurrencyPair) :
    (⟨pair, some (.readCache pair.key), none⟩ : Resolution).advance s.policy
        (s.answer now (.readCache pair.key)).2 =
      match (s.cached? now pair.key).filter (IsUsableRate ·) with
      | some rate => ⟨pair, none, some (.ok ⟨pair, rate, .cache⟩)⟩
      | none => ⟨pair, some (.quote pair), none⟩ := by
  rw [answer_readCache]
  by_cases hfails : (s.cache (now + (s.cache now).readDelay)).failingReads = true
  · have hnone : s.cached? now pair.key = none := by simp [cached?, hfails]
    simp [hfails, hnone, Resolution.advance]
  · cases hcached : s.cached? now pair.key with
    | none => simp [hfails, Resolution.advance]
    | some rate =>
      by_cases husable : IsUsableRate rate <;>
        simp [hfails, husable, Resolution.advance, Resolution.finish, Option.filter]

theorem advance_asking (s : Surroundings) (now : Nat) (pair : CurrencyPair) :
    (⟨pair, some (.quote pair), none⟩ : Resolution).advance s.policy
        (s.answer now (.quote pair)).2 =
      match s.quoted now pair with
      | .ok rate => .deliver s.policy ⟨pair, some (.quote pair), none⟩ rate
      | .error e => ⟨pair, none, some (.error e)⟩ := by
  simp only [answer, RateDesk.begin, RateDesk.beginQuote, desk, quoted]
  by_cases hcrash : (s.service now).crashing = true
  · simp [hcrash, RateDesk.complete, Resolution.advance, Resolution.finish]
  · by_cases hlate : s.policy.quoteTimeout < (s.service now).service.take.2
    · simp [hcrash, hlate, RateDesk.complete, Resolution.advance, Resolution.finish]
    · simp only [hcrash, hlate, if_false, RateDesk.complete, Bool.false_eq_true]
      cases (s.service (now + (s.service now).service.take.2)).service.quote pair with
      | error e => rfl
      | ok rate =>
        by_cases husable : IsUsableRate rate <;>
          simp [Resolution.advance, Resolution.finish, husable, bind, Except.bind]

theorem advance_writing (s : Surroundings) (now : Nat) (pair : CurrencyPair) (key : String)
    (rate : Decimal) (ttl : Nat) (result : RateResult) :
    (⟨pair, some (.writeCache key rate ttl), some result⟩ : Resolution).advance s.policy
        (s.answer now (.writeCache key rate ttl)).2 = ⟨pair, none, some result⟩ := by
  obtain hwritten | hfailed := s.answer_writeCache now key rate ttl
  · rw [hwritten]
    rfl
  · rw [hfailed]
    rfl

/-! ### The whole course -/

def ended (pair : CurrencyPair) (result : RateResult) : RateJob := ⟨⟨pair, none, some result⟩, none⟩

inductive Courses (s : Surroundings) (now : Nat) (pair : CurrencyPair) : RateCourse → Prop
  | found {rate : Decimal} {time : Nat} (h : s.Finds now pair rate) :
    Courses s now pair
      ⟨[(now, .called (.readCache pair.key)), (time, .delivered (.ok ⟨pair, rate, .cache⟩))],
        ended pair (.ok ⟨pair, rate, .cache⟩)⟩
  | fetched {reads : List (Nat × RateIncident)} {asked time : Nat} {rate : Decimal}
    (hmiss : ¬ ∃ rate, s.Finds now pair rate) (hasked : asked = s.asksAt now)
    (hreads : reads =
      if s.policy.useCache then [(now, .called (.readCache pair.key))] else [])
    (hquote : s.quoted asked pair = .ok rate) :
    Courses s now pair
      ⟨reads ++ (asked, .called (.quote pair)) :: (time, .delivered (.ok ⟨pair, rate, .remote⟩)) ::
          (if s.policy.useCache then
            [(time, .called (.writeCache pair.key rate s.policy.cacheTtl))] else []),
        ended pair (.ok ⟨pair, rate, .remote⟩)⟩
  | failed {reads : List (Nat × RateIncident)} {asked time : Nat} {e : RateError}
    (hmiss : ¬ ∃ rate, s.Finds now pair rate) (hasked : asked = s.asksAt now)
    (hreads : reads =
      if s.policy.useCache then [(now, .called (.readCache pair.key))] else [])
    (hquote : s.quoted asked pair = .error e) :
    Courses s now pair
      ⟨reads ++ [(asked, .called (.quote pair)), (time, .delivered (.error e))],
        ended pair (.error e)⟩

theorem pursue_writing (s : Surroundings) (steps now : Nat) (pair : CurrencyPair) (key : String)
    (rate : Decimal) (ttl : Nat) (result : RateResult) :
    s.pursue (steps + 2) now ⟨⟨pair, some (.writeCache key rate ttl), some result⟩, none⟩ =
      ⟨[(now, .called (.writeCache key rate ttl))], ended pair result⟩ := by
  have hrequest := pursue_request (s := s)
    (r := ⟨pair, some (.writeCache key rate ttl), some result⟩) rfl steps now
  simp only [advance_writing] at hrequest
  rw [hrequest, pursue_of_none rfl]
  rfl

theorem pursue_asking (s : Surroundings) (steps now : Nat) (pair : CurrencyPair) :
    let time := (s.answer now (.quote pair)).1
    s.pursue (steps + 4) now ⟨⟨pair, some (.quote pair), none⟩, none⟩ =
      match s.quoted now pair with
      | .ok rate =>
        ⟨(now, .called (.quote pair)) :: (time, .delivered (.ok ⟨pair, rate, .remote⟩)) ::
            (if s.policy.useCache then
              [(time, .called (.writeCache pair.key rate s.policy.cacheTtl))] else []),
          ended pair (.ok ⟨pair, rate, .remote⟩)⟩
      | .error e =>
        ⟨[(now, .called (.quote pair)), (time, .delivered (.error e))],
          ended pair (.error e)⟩ := by
  have hrequest := pursue_request (s := s) (r := ⟨pair, some (.quote pair), none⟩) rfl
    (steps + 2) now
  simp only [advance_asking] at hrequest
  simp only
  rw [hrequest]
  cases s.quoted now pair with
  | error e =>
    simp only
    rw [pursue_of_none rfl]
    rfl
  | ok rate =>
    simp only [Resolution.deliver]
    cases s.policy.useCache with
    | true =>
      simp only [if_true]
      rw [pursue_writing]
      rfl
    | false =>
      simp only [Bool.false_eq_true, if_false]
      rw [pursue_of_none rfl]
      rfl

theorem courses_asking {now : Nat} {pair : CurrencyPair} (reads : List (Nat × RateIncident))
    (steps : Nat) (hmiss : ¬ ∃ rate, s.Finds now pair rate)
    (hreads : reads = if s.policy.useCache then [(now, .called (.readCache pair.key))] else []) :
    let rest := s.pursue (steps + 4) (s.asksAt now) ⟨⟨pair, some (.quote pair), none⟩, none⟩
    s.Courses now pair ⟨reads ++ rest.log, rest.job⟩ := by
  simp only [pursue_asking]
  cases hquote : s.quoted (s.asksAt now) pair with
  | error e => exact .failed hmiss rfl hreads hquote
  | ok rate => exact .fetched hmiss rfl hreads hquote

theorem courses (s : Surroundings) (now : Nat) (pair : CurrencyPair) :
    s.Courses now pair (s.course now pair) := by
  unfold course RateJob.start Resolution.start
  by_cases hcache : s.policy.useCache = true
  · have hasks : s.asksAt now = now + (s.cache now).readDelay := if_pos hcache
    simp only [hcache, if_true, Resolution.callsLeft]
    have hrequest := pursue_request (s := s) (r := ⟨pair, some (.readCache pair.key), none⟩) rfl
      4 now
    simp only [advance_reading] at hrequest
    rw [hrequest]
    cases hfound : (s.cached? now pair.key).filter (IsUsableRate ·) with
    | some rate =>
      obtain ⟨hcached, husable⟩ := Option.filter_eq_some_iff.1 hfound
      simp only
      rw [pursue_of_none rfl]
      exact .found ⟨hcache, hcached, of_decide_eq_true husable⟩
    | none =>
      have hmiss : ¬ ∃ rate, s.Finds now pair rate := by
        rintro ⟨rate, -, hcached, husable⟩
        rw [hcached, Option.filter_some, if_pos (decide_eq_true husable)] at hfound
        cases hfound
      have hrest := courses_asking [(now, .called (.readCache pair.key))] 0 hmiss
        (if_pos hcache).symm
      rw [hasks] at hrest
      exact hrest
  · have hasks : s.asksAt now = now := if_neg hcache
    have hmiss : ¬ ∃ rate, s.Finds now pair rate := fun ⟨_, h⟩ => hcache h.useCache
    simp only [hcache, Bool.false_eq_true, if_false, Resolution.callsLeft]
    have hrest := courses_asking [] 0 hmiss (if_neg hcache).symm
    rw [hasks] at hrest
    exact hrest

theorem eq_of_last_write {log before after : List (Nat × RateIncident)}
    {last : Nat × RateIncident} {time : Nat} {key : String} {rate : Decimal} {ttl : Nat}
    (hlog : ∀ e ∈ log, e ≠ (time, .called (.writeCache key rate ttl)))
    (h : log ++ [last] = before ++ (time, .called (.writeCache key rate ttl)) :: after) :
    before = log ∧ last = (time, .called (.writeCache key rate ttl)) := by
  obtain ⟨more, hbefore, hlast⟩ | ⟨more, hlog', hlast⟩ := List.append_eq_append_iff.1 h
  · cases more with
    | nil => simp_all
    | cons e more => simp at hlast
  · cases more with
    | nil => simp_all
    | cons e more =>
      obtain ⟨rfl, -⟩ := List.cons.inj hlast
      have hmem : (time, RateIncident.called (.writeCache key rate ttl)) ∈ log := by simp [hlog']
      exact absurd rfl (hlog _ hmem)

namespace Courses

variable {now : Nat} {pair : CurrencyPair} {c : RateCourse}

theorem exists_result (h : s.Courses now pair c) :
    ∃ result, c.results = [result] ∧ c.job = ended pair result := by
  cases h with
  | found h => exact ⟨_, rfl, rfl⟩
  | fetched hmiss hasked hreads hquote =>
    refine ⟨_, ?_, rfl⟩
    subst hreads
    cases s.policy.useCache <;> rfl
  | failed hmiss hasked hreads hquote =>
    refine ⟨_, ?_, rfl⟩
    subst hreads
    cases s.policy.useCache <;> rfl

theorem of_finds (h : s.Courses now pair c) {rate : Decimal} (hfinds : s.Finds now pair rate) :
    c.calls = [.readCache pair.key] ∧ c.results = [.ok ⟨pair, rate, .cache⟩] := by
  cases h with
  | @found rate' time h =>
    have hsame : rate' = rate := Option.some.inj (h.cached.symm.trans hfinds.cached)
    subst hsame
    exact ⟨rfl, rfl⟩
  | fetched hmiss hasked hreads hquote => exact absurd ⟨_, hfinds⟩ hmiss
  | failed hmiss hasked hreads hquote => exact absurd ⟨_, hfinds⟩ hmiss

theorem of_not_finds (h : s.Courses now pair c) (hmiss : ¬ ∃ rate, s.Finds now pair rate) :
    c.calls.filter RateCall.isQuote = [.quote pair] ∧
      c.results = [(s.quoted (s.asksAt now) pair).map (⟨pair, ·, .remote⟩)] := by
  cases h with
  | found h => exact absurd ⟨_, h⟩ hmiss
  | fetched _ hasked hreads hquote =>
    subst hasked hreads
    rw [hquote]
    cases s.policy.useCache <;> exact ⟨rfl, rfl⟩
  | failed _ hasked hreads hquote =>
    subst hasked hreads
    rw [hquote]
    cases s.policy.useCache <;> exact ⟨rfl, rfl⟩

theorem before_write (h : s.Courses now pair c) {before after : List (Nat × RateIncident)}
    {time : Nat} {key : String} {rate : Decimal} {ttl : Nat}
    (hlog : c.log = before ++ (time, .called (.writeCache key rate ttl)) :: after) :
    s.policy.useCache = true ∧ key = pair.key ∧ ttl = s.policy.cacheTtl ∧
      .ok ⟨pair, rate, .remote⟩ ∈ before.filterMap (·.2.result?) := by
  have hmem : (time, RateIncident.called (.writeCache key rate ttl)) ∈ c.log := by simp [hlog]
  cases h with
  | found h => simp at hmem
  | @fetched reads asked delivered rate' hmiss hasked hreads hquote =>
    cases hcache : s.policy.useCache with
    | false => simp [hreads, hcache] at hmem
    | true =>
      simp only [hreads, hcache, if_true] at hlog
      have hsplit : [(now, .called (.readCache pair.key)), (asked, .called (.quote pair)),
          (delivered, .delivered (.ok ⟨pair, rate', .remote⟩))] ++
            [(delivered, RateIncident.called (.writeCache pair.key rate' s.policy.cacheTtl))] =
          before ++ (time, .called (.writeCache key rate ttl)) :: after := hlog
      obtain ⟨rfl, hlast⟩ := eq_of_last_write (by simp) hsplit
      cases hlast
      simp [RateIncident.result?]
  | failed hmiss hasked hreads hquote =>
    subst hreads
    cases hcache : s.policy.useCache <;> simp [hcache] at hmem

theorem writes (h : s.Courses now pair c) {rate : Decimal} (hcache : s.policy.useCache = true)
    (hresult : c.results = [.ok ⟨pair, rate, .remote⟩]) :
    c.calls.filter RateCall.isWrite = [.writeCache pair.key rate s.policy.cacheTtl] := by
  cases h with
  | found h => cases hresult
  | @fetched reads asked time rate' hmiss hasked hreads hquote =>
    subst hreads
    simp only [hcache, if_true] at hresult ⊢
    cases hresult
    rfl
  | failed hmiss hasked hreads hquote =>
    subst hreads
    simp only [hcache, if_true] at hresult
    cases hresult

theorem calls_uncached (h : s.Courses now pair c) (hcache : s.policy.useCache = false) :
    c.calls = [.quote pair] := by
  cases h with
  | found h => cases hcache.symm.trans h.useCache
  | fetched hmiss hasked hreads hquote =>
    subst hreads
    simp only [hcache]
    rfl
  | failed hmiss hasked hreads hquote =>
    subst hreads
    simp only [hcache]
    rfl

end Courses

/-- A search comes to its end and delivers one result, which it keeps. A usable rate in the cache
is delivered without another request; otherwise the service is asked once, and what it comes to is
delivered. The cache is written once with a rate that was fetched, after its delivery, and not
otherwise; where it is not to be used, the service alone is asked. -/
theorem delivers_once (s : Surroundings) (now : Nat) (pair : CurrencyPair) :
    let c := s.course now pair
    (c.job.isFinished = true ∧
      ∃ result, c.results = [result] ∧ c.job.resolution.result? = some result) ∧
    (∀ rate, s.Finds now pair rate →
      c.calls = [.readCache pair.key] ∧ c.results = [.ok ⟨pair, rate, .cache⟩]) ∧
    ((¬ ∃ rate, s.Finds now pair rate) →
      c.calls.filter RateCall.isQuote = [.quote pair] ∧
      c.results = [(s.quoted (s.asksAt now) pair).map (⟨pair, ·, .remote⟩)]) ∧
    ((∀ before after time key rate ttl,
        c.log = before ++ (time, .called (.writeCache key rate ttl)) :: after →
        s.policy.useCache = true ∧ key = pair.key ∧ ttl = s.policy.cacheTtl ∧
          .ok ⟨pair, rate, .remote⟩ ∈ before.filterMap (·.2.result?)) ∧
      ∀ rate, s.policy.useCache = true → c.results = [.ok ⟨pair, rate, .remote⟩] →
        c.calls.filter RateCall.isWrite = [.writeCache pair.key rate s.policy.cacheTtl]) ∧
    (s.policy.useCache = false → c.calls = [.quote pair]) := by
  have hcourses := s.courses now pair
  obtain ⟨result, hresults, hjob⟩ := hcourses.exists_result
  refine ⟨⟨?_, result, hresults, ?_⟩, fun _ => hcourses.of_finds, hcourses.of_not_finds,
    ⟨fun _ _ _ _ _ _ => hcourses.before_write, fun _ => hcourses.writes⟩,
    hcourses.calls_uncached⟩
  · rw [hjob]
    rfl
  · rw [hjob]
    rfl

end Surroundings

end Scenario

end CurrencyWallet
