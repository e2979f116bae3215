import CurrencyWallet.Proofs.Exchange.Commit
import CurrencyWallet.Proofs.Ledger.Serialization

/-!
The life of one exchange, whatever it is told and in whatever order. It goes from state to state
as `CanBecome` allows, up to a terminal one; on its way it puts at most one settlement to the
store, and what it answers tells whether that one has been written. Nothing is assumed of the store
but where a `Serving` is said to be in memory.
-/
namespace CurrencyWallet

/-! ### What one event does -/

theorem ExchangeState.of_isFailure {s : ExchangeState} (h : s.isFailure = true) :
    s.isTerminal = true ∧ s.hasMutated = false ∧ s ≠ .done := by
  revert h
  cases s <;> decide

/-- Either an event takes a run on to its next stage, or it does not fit, and then it is no answer
that the run is waiting for. -/
inductive ExchangeRun.Turn (r : ExchangeRun) : ExchangeEvent → ExchangeStage → Prop
  | stay {event : ExchangeEvent} (h : r.pending? = none ∨ ∀ reply, event ≠ .settled reply) :
    Turn r event r.stage
  | launch (h : r.stage = .started) : Turn r .launched .inFlight
  | abandon {view : JoinView} {failure : ExchangeFailure} (h : r.stage = .inFlight)
    (hstate : failure.state ∈ [.validationFailed, .rateFailed, .deadlineExceeded]) :
    Turn r (.looked view) (.failed failure)
  | join {view : JoinView} {funding : Funding} {rate : ResolvedRate} (h : r.stage = .inFlight) :
    Turn r (.looked view) (.joined funding rate)
  | price {funding : Funding} {rate : ResolvedRate} {pricing : Pricing}
    (h : r.stage = .joined funding rate) : Turn r .priced (.computed funding rate pricing)
  | misprice {funding : Funding} {rate : ResolvedRate} {error : ExchangeError}
    (h : r.stage = .joined funding rate) : Turn r .priced (.failed ⟨.computeFailed, error⟩)
  | overprice {funding : Funding} {rate : ResolvedRate} {o : Overflow}
    (h : r.stage = .joined funding rate) : Turn r .priced (.broken .joined o)
  | commit {funding : Funding} {rate : ResolvedRate} {pricing : Pricing} {b : Balances}
    {outcome : ExchangeOutcome} (h : r.stage = .computed funding rate pricing) :
    Turn r (.settled (.ok b)) (.committed outcome)
  | refuse {funding : Funding} {rate : ResolvedRate} {pricing : Pricing} {e : LedgerError}
    {error : ExchangeError} (h : r.stage = .computed funding rate pricing) :
    Turn r (.settled (.refused e)) (.failed ⟨.commitFailed, error⟩)
  | breakOff {funding : Funding} {rate : ResolvedRate} {pricing : Pricing} {o : Overflow}
    (h : r.stage = .computed funding rate pricing) :
    Turn r (.settled (.overflowed o)) (.broken .computed o)
  | conclude {outcome : ExchangeOutcome} (h : r.stage = .committed outcome) :
    Turn r .concluded (.done outcome)

namespace ExchangeRun

variable {r : ExchangeRun} {event : ExchangeEvent} {stage : ExchangeStage}

theorem turn_looked (view : JoinView) (h : r.stage = .inFlight) :
    r.Turn (.looked view) (r.nextStage (.looked view)) := by
  have hpending := pending?_of_inFlight h
  unfold nextStage
  rw [h]
  obtain hv | ⟨-, hv⟩ | ⟨e, -, hv⟩ | ⟨e, -, hv⟩ | ⟨funding, rate, -, -, -, hv⟩ := view.verdict_cases
  · simp only [hv, ← h]
    exact .stay (Or.inl hpending)
  · simp only [hv]
    exact .abandon h (by simp)
  · simp only [hv]
    exact .abandon h (by simp)
  · simp only [hv]
    exact .abandon h (by simp)
  · simp only [hv]
    exact .join h

theorem turn_priced {funding : Funding} {rate : ResolvedRate} (h : r.stage = .joined funding rate) :
    r.Turn .priced (r.nextStage .priced) := by
  unfold nextStage
  rw [h]
  dsimp only
  split
  · exact .price h
  · exact .misprice h
  · exact .overprice h

theorem turn_settled {funding : Funding} {rate : ResolvedRate} {pricing : Pricing}
    (reply : Ledger.Reply) (h : r.stage = .computed funding rate pricing) :
    r.Turn (.settled reply) (r.nextStage (.settled reply)) := by
  unfold nextStage
  rw [h]
  cases reply with
  | ok b => exact .commit h
  | refused e => exact .refuse h
  | overflowed o => exact .breakOff h

theorem turn (r : ExchangeRun) (event : ExchangeEvent) : r.Turn event (r.nextStage event) := by
  obtain ⟨id, request, stage⟩ := r
  cases stage with
  | started =>
    cases event with
    | launched => exact .launch rfl
    | _ => exact .stay (Or.inl rfl)
  | inFlight =>
    cases event with
    | looked view => exact turn_looked view rfl
    | _ => exact .stay (Or.inl rfl)
  | joined funding rate =>
    cases event with
    | priced => exact turn_priced rfl
    | _ => exact .stay (Or.inl rfl)
  | computed funding rate pricing =>
    cases event with
    | settled reply => exact turn_settled reply rfl
    | _ => exact .stay (Or.inr nofun)
  | committed outcome =>
    cases event with
    | concluded => exact .conclude rfl
    | _ => exact .stay (Or.inl rfl)
  | done outcome => cases event <;> exact .stay (Or.inl rfl)
  | failed failure => cases event <;> exact .stay (Or.inl rfl)
  | broken reached o => cases event <;> exact .stay (Or.inl rfl)

theorem Turn.canBecome (h : r.Turn event stage) :
    stage.state = r.state ∨ r.state.CanBecome stage.state := by
  unfold state
  cases h with
  | stay h => exact Or.inl rfl
  | @abandon view failure h hstate =>
    rw [h]
    exact Or.inr (List.mem_cons_of_mem _ hstate)
  | overprice h | breakOff h =>
    rw [h]
    exact Or.inl rfl
  | launch h | join h | price h | misprice h | commit h | refuse h | conclude h =>
    rw [h]
    exact Or.inr (by simp [ExchangeState.CanBecome, ExchangeState.next, ExchangeStage.state])

theorem Turn.isFailure (h : r.Turn event stage)
    (hrun : ∀ f, r.stage = .failed f → f.state.isFailure = true) :
    ∀ f, stage = .failed f → f.state.isFailure = true := by
  intro f hf
  cases h with
  | stay hstay => exact hrun f hf
  | abandon hflight hstate =>
    cases hf
    simp only [List.mem_cons, List.not_mem_nil, or_false] at hstate
    obtain hstate | hstate | hstate := hstate <;> rw [hstate] <;> rfl
  | misprice hjoined | refuse hcomputed =>
    cases hf
    rfl
  | _ => cases hf

theorem result?_eq_ofExcept {answer : Except ExchangeFailure ExchangeOutcome} :
    r.result? = some (.ofExcept answer) ↔
      r.stage = match answer with
        | .ok outcome => .done outcome
        | .error failure => .failed failure := by
  unfold result?
  cases answer <;> cases r.stage <;> simp [Attempt.ofExcept]

end ExchangeRun

/-! ### Histories -/

/-- A settlement that was put to a store: what the store held then, what it holds after it, and
what it answered. -/
structure Serving where
  before : Ledger
  settlement : Settlement
  after : Ledger
  reply : Ledger.Reply

namespace Serving

variable {s : Serving}

def InMemory (s : Serving) : Prop :=
  s.before.perform (.settle s.settlement) = (s.after, s.reply)

/-- The settlement passed every check, and what the store holds after it has both of its balances
written. -/
structure Writes (s : Serving) : Prop where
  commits : s.before.Commits (.settle s.settlement) (Ledger.settledRevision s.settlement)
  after : s.after = s.before.commit s.settlement.user (Ledger.settledRevision s.settlement)

theorem InMemory.cases (h : s.InMemory) :
    s.Writes ∧ s.reply.isOk = true ∨ ¬ s.Writes ∧ s.reply.isOk = false ∧ s.after = s.before := by
  unfold InMemory at h
  obtain ⟨hsame, hfailed⟩ | ⟨revision, hcommits⟩ := s.before.settle_commits s.settlement
  · right
    refine ⟨fun hwrites => ?_, ?_, ?_⟩
    · rw [hwrites.commits.performed] at hfailed
      cases hfailed
    · rwa [h] at hfailed
    · rwa [h] at hsame
  · left
    obtain rfl := Ledger.eq_settledRevision hcommits.revised
    rw [hcommits.performed] at h
    obtain ⟨hafter, hreply⟩ := Prod.mk.inj h
    refine ⟨⟨hcommits, hafter.symm⟩, ?_⟩
    rw [← hreply]
    rfl

/-- Also where the rows are locked one after another and other calls are under way, a settlement is
answered by a ledger in memory: the one that the calls before it have left. -/
theorem exists_inMemory {l : Ledger} {calls : List Ledger.Call} {schedule : List Nat} {i : Nat}
    {x : Settlement} {reply : Ledger.Reply} (hcall : calls[i]? = some (.settle x))
    (hreply : ((Ledger.Crew.start l calls).run schedule).reply? i = some reply) :
    ∃ s : Serving, s.InMemory ∧ s.settlement = x ∧ s.reply = reply ∧
      ∃ earlier, s.before = l.run earlier := by
  have houtcome := Ledger.Crew.outcome?_of_reply? hreply
  have hreflects := Ledger.Crew.reflects_run l calls schedule
  obtain ⟨before, after, call, -, hmem, hanswer⟩ := hreflects.answers i reply houtcome
  obtain rfl : .settle x = call := Option.some.inj (hcall.symm.trans hmem)
  let earlier := Ledger.sequence calls before
  let result := (l.run earlier).perform (.settle x)
  exact ⟨⟨l.run earlier, x, result.1, result.2⟩, rfl, rfl, hanswer, earlier, rfl⟩

end Serving

inductive ExchangeIncident where
  | launched
  | looked (view : JoinView)
  | priced
  | settled (before after : Ledger) (reply : Ledger.Reply)
  | concluded

namespace ExchangeIncident

def event : ExchangeIncident → ExchangeEvent
  | launched => .launched
  | looked view => .looked view
  | priced => .priced
  | settled _ _ reply => .settled reply
  | concluded => .concluded

/-- A store is asked only what the run is waiting for. -/
def servings (r : ExchangeRun) : ExchangeIncident → List Serving
  | settled before after reply => r.pending?.toList.map fun s => ⟨before, s, after, reply⟩
  | _ => []

variable {r : ExchangeRun} {incident : ExchangeIncident}

theorem servings_eq_nil (h : r.pending? = none ∨ ∀ reply, incident.event ≠ .settled reply) :
    incident.servings r = [] := by
  cases incident with
  | settled before after reply =>
    obtain hpending | hother := h
    · rw [servings, hpending]
      rfl
    · exact absurd rfl (hother reply)
  | _ => rfl

theorem servings_of_computed {funding : Funding} {rate : ResolvedRate} {pricing : Pricing}
    {reply : Ledger.Reply} (h : r.stage = .computed funding rate pricing)
    (hevent : incident.event = .settled reply) :
    ∃ s, incident.servings r = [s] ∧ s.reply = reply := by
  cases incident with
  | settled before after reply =>
    cases hevent
    refine ⟨⟨before, r.settlement funding pricing, after, reply⟩, ?_, rfl⟩
    rw [servings, ExchangeRun.pending?, h]
    rfl
  | _ => cases hevent

end ExchangeIncident

/-- A run with the states that it has gone through and the settlements that it has put to the
store. -/
structure ExchangeHistory where
  run : ExchangeRun
  path : List ExchangeState
  served : List Serving

namespace ExchangeHistory

def start (id : ExchangeId) (request : ExchangeRequest) : ExchangeHistory :=
  ⟨.start id request, [.start], []⟩

def step (h : ExchangeHistory) (incident : ExchangeIncident) : ExchangeHistory :=
  let run := h.run.step incident.event
  { run
    path := if run.state = h.run.state then h.path else h.path ++ [run.state]
    served := h.served ++ incident.servings h.run }

def follow (h : ExchangeHistory) (incidents : List ExchangeIncident) : ExchangeHistory :=
  incidents.foldl step h

def Reachable (h : ExchangeHistory) : Prop :=
  ∃ id request incidents, h = (start id request).follow incidents

def InMemory (h : ExchangeHistory) : Prop := ∀ s ∈ h.served, s.InMemory

def Unasked (h : ExchangeHistory) : Prop := .computed ∉ h.path ∧ h.served = []

def Asked (h : ExchangeHistory) (done : Bool) : Prop :=
  .computed ∈ h.path ∧ ∃ s, h.served = [s] ∧ s.reply.isOk = done

/-- How the stage of a run and its dealings with the store go together. -/
def Dealt (h : ExchangeHistory) : ExchangeStage → Prop
  | .started | .inFlight | .joined _ _ => h.Unasked
  | .computed _ _ _ => .computed ∈ h.path ∧ h.served = []
  | .committed _ | .done _ => h.Asked true
  | .failed f =>
    f.state ∈ [.computeFailed, .validationFailed, .rateFailed, .deadlineExceeded] ∧ h.Unasked ∨
      f.state = .commitFailed ∧ h.Asked false
  | .broken reached _ => reached = .joined ∧ h.Unasked ∨ reached = .computed ∧ h.Asked false

structure Sound (h : ExchangeHistory) : Prop where
  head : h.path.head? = some .start
  chain : h.path.IsChain ExchangeState.CanBecome
  last : h.path.getLast? = some h.run.state
  dealt : h.Dealt h.run.stage

section

variable {h : ExchangeHistory} {incident : ExchangeIncident} {event : ExchangeEvent}
  {stage : ExchangeStage}

theorem served_step (h : ExchangeHistory) (incident : ExchangeIncident) :
    (h.step incident).served = h.served ++ incident.servings h.run := rfl

theorem step_of_stay (hidle : h.run.pending? = none ∨ ∀ reply, incident.event ≠ .settled reply)
    (hstage : (h.step incident).run.stage = h.run.stage) : h.step incident = h := by
  obtain ⟨⟨id, request, stage⟩, path, served⟩ := h
  have hrun : (ExchangeRun.mk id request stage).step incident.event = ⟨id, request, stage⟩ :=
    congrArg (ExchangeRun.mk id request) hstage
  simp only [step, hrun, if_true, ExchangeIncident.servings_eq_nil hidle, List.append_nil]

theorem sound_start (id : ExchangeId) (request : ExchangeRequest) : (start id request).Sound where
  head := rfl
  chain := .singleton _
  last := rfl
  dealt := ⟨(nomatch List.mem_singleton.1 ·), rfl⟩

theorem path_step (h : ExchangeHistory) (incident : ExchangeIncident) :
    (h.step incident).path = h.path ∧ (h.step incident).run.state = h.run.state ∨
      (h.step incident).path = h.path ++ [(h.step incident).run.state] ∧
        h.run.state.CanBecome (h.step incident).run.state := by
  by_cases hsame : (h.run.step incident.event).state = h.run.state
  · exact Or.inl ⟨if_pos hsame, hsame⟩
  · have hturn := (h.run.turn incident.event).canBecome
    exact Or.inr ⟨if_neg hsame, hturn.resolve_left hsame⟩

theorem Sound.mem_path_step (hsound : h.Sound) (incident : ExchangeIncident) (s : ExchangeState) :
    s ∈ (h.step incident).path ↔ s ∈ h.path ∨ s = (h.step incident).run.state := by
  obtain ⟨hpath, hstate⟩ | ⟨hpath, -⟩ := h.path_step incident
  · have hlast : h.run.state ∈ h.path := List.mem_of_getLast? hsound.last
    rw [hpath, hstate]
    constructor
    · exact Or.inl
    · rintro (hmem | rfl)
      · exact hmem
      · exact hlast
  · rw [hpath, List.mem_append, List.mem_singleton]

theorem Sound.head_step (hsound : h.Sound) (incident : ExchangeIncident) :
    (h.step incident).path.head? = some .start := by
  obtain ⟨hpath, -⟩ | ⟨hpath, -⟩ := h.path_step incident
  · rw [hpath]
    exact hsound.head
  · rw [hpath, List.head?_append, hsound.head]
    rfl

theorem Sound.chain_step (hsound : h.Sound) (incident : ExchangeIncident) :
    (h.step incident).path.IsChain ExchangeState.CanBecome := by
  obtain ⟨hpath, -⟩ | ⟨hpath, hnext⟩ := h.path_step incident
  · rw [hpath]
    exact hsound.chain
  · have hjoint : ∀ s ∈ h.path.getLast?, ∀ t ∈ [(h.step incident).run.state].head?,
        s.CanBecome t := by
      intro s hs t ht
      rw [hsound.last] at hs
      cases hs
      cases ht
      exact hnext
    rw [hpath]
    exact List.isChain_append.2 ⟨hsound.chain, .singleton _, hjoint⟩

theorem Sound.last_step (hsound : h.Sound) (incident : ExchangeIncident) :
    (h.step incident).path.getLast? = some (h.step incident).run.state := by
  obtain ⟨hpath, hstate⟩ | ⟨hpath, -⟩ := h.path_step incident
  · rw [hpath, hstate]
    exact hsound.last
  · rw [hpath]
    exact List.getLast?_concat

theorem Sound.unasked_step (hsound : h.Sound) (hunasked : h.Unasked)
    (hserved : incident.servings h.run = [])
    (hstate : (h.step incident).run.state ≠ .computed) : (h.step incident).Unasked := by
  obtain ⟨hpath, hnone⟩ := hunasked
  refine ⟨fun hmem => ?_, ?_⟩
  · obtain hmem | heq := (hsound.mem_path_step incident _).1 hmem
    · exact hpath hmem
    · exact hstate heq.symm
  · rw [served_step, hnone, hserved, List.append_nil]

theorem Sound.asked_step (hsound : h.Sound) {funding : Funding} {rate : ResolvedRate}
    {pricing : Pricing} {reply : Ledger.Reply}
    (hstage : h.run.stage = .computed funding rate pricing)
    (hevent : incident.event = .settled reply) : (h.step incident).Asked reply.isOk := by
  have hdealt := hsound.dealt
  rw [hstage] at hdealt
  obtain ⟨hpath, hnone⟩ := hdealt
  obtain ⟨s, hserved, rfl⟩ := ExchangeIncident.servings_of_computed hstage hevent
  refine ⟨(hsound.mem_path_step incident _).2 (Or.inl hpath), s, ?_, rfl⟩
  rw [served_step, hnone, hserved, List.nil_append]

theorem Sound.dealt_turn (hsound : h.Sound) (hevent : incident.event = event)
    (hstage : (h.step incident).run.stage = stage) (hturn : h.run.Turn event stage) :
    (h.step incident).Dealt stage := by
  have hdealt := hsound.dealt
  have hstate : (h.step incident).run.state = stage.state := congrArg _ hstage
  have hnone : (∀ reply, event ≠ .settled reply) → incident.servings h.run = [] := fun hother =>
    ExchangeIncident.servings_eq_nil (Or.inr (hevent ▸ hother))
  cases hturn with
  | stay hidle =>
    have hsame : h.step incident = h := step_of_stay (hevent ▸ hidle) hstage
    rw [hsame]
    exact hdealt
  | launch hstart =>
    rw [hstart] at hdealt
    exact hsound.unasked_step hdealt (hnone nofun) (hstate ▸ nofun)
  | @abandon view failure hflight hfailure =>
    rw [hflight] at hdealt
    refine Or.inl ⟨List.mem_cons_of_mem _ hfailure,
      hsound.unasked_step hdealt (hnone nofun) fun hcomputed => ?_⟩
    have hwrong : failure.state = .computed := hstate.symm.trans hcomputed
    rw [hwrong] at hfailure
    exact absurd hfailure (by decide)
  | join hflight =>
    rw [hflight] at hdealt
    exact hsound.unasked_step hdealt (hnone nofun) (hstate ▸ nofun)
  | price hjoined =>
    rw [hjoined] at hdealt
    refine ⟨(hsound.mem_path_step incident _).2 (Or.inr hstate.symm), ?_⟩
    rw [served_step, hdealt.2, hnone nofun, List.append_nil]
  | misprice hjoined =>
    rw [hjoined] at hdealt
    exact Or.inl ⟨by simp, hsound.unasked_step hdealt (hnone nofun) (hstate ▸ nofun)⟩
  | overprice hjoined =>
    rw [hjoined] at hdealt
    exact Or.inl ⟨rfl, hsound.unasked_step hdealt (hnone nofun) (hstate ▸ nofun)⟩
  | commit hcomputed => exact hsound.asked_step hcomputed hevent
  | refuse hcomputed => exact Or.inr ⟨rfl, hsound.asked_step hcomputed hevent⟩
  | breakOff hcomputed => exact Or.inr ⟨rfl, hsound.asked_step hcomputed hevent⟩
  | conclude hcommitted =>
    rw [hcommitted] at hdealt
    obtain ⟨hpath, s, hserved, hok⟩ := hdealt
    refine ⟨(hsound.mem_path_step incident _).2 (Or.inl hpath), s, ?_, hok⟩
    rw [served_step, hserved, hnone nofun, List.append_nil]

theorem Sound.step (hsound : h.Sound) (incident : ExchangeIncident) : (h.step incident).Sound where
  head := hsound.head_step incident
  chain := hsound.chain_step incident
  last := hsound.last_step incident
  dealt := hsound.dealt_turn rfl rfl (h.run.turn incident.event)

theorem Sound.follow (hsound : h.Sound) (incidents : List ExchangeIncident) :
    (h.follow incidents).Sound := by
  induction incidents generalizing h with
  | nil => exact hsound
  | cons incident incidents ih => exact ih (hsound.step incident)

theorem Reachable.sound (hreach : h.Reachable) : h.Sound := by
  obtain ⟨id, request, incidents, rfl⟩ := hreach
  exact (sound_start id request).follow incidents

theorem Unasked.served_iff (hunasked : h.Unasked) :
    h.served.length ≤ 1 ∧ (h.served.length = 1 ↔ .computed ∈ h.path) := by
  obtain ⟨hpath, hnone⟩ := hunasked
  rw [hnone]
  exact ⟨Nat.zero_le 1, iff_of_false nofun hpath⟩

theorem Asked.served_iff {done : Bool} (hasked : h.Asked done) :
    h.served.length ≤ 1 ∧ (h.served.length = 1 ↔ .computed ∈ h.path) := by
  obtain ⟨hpath, s, hserved, -⟩ := hasked
  rw [hserved]
  exact ⟨le_refl 1, iff_of_true rfl hpath⟩

theorem Asked.writes (hasked : h.Asked true) (hmemory : h.InMemory) :
    ∃ s ∈ h.served, s.Writes := by
  obtain ⟨-, s, hserved, hok⟩ := hasked
  have hs : s ∈ h.served := hserved ▸ List.mem_singleton_self s
  obtain ⟨hwrites, -⟩ | ⟨-, hfailed, -⟩ := (hmemory s hs).cases
  · exact ⟨s, hs, hwrites⟩
  · cases hok.symm.trans hfailed

theorem Asked.unwritten (hasked : h.Asked false) (hmemory : h.InMemory) :
    ∀ s ∈ h.served, ¬ s.Writes ∧ s.after = s.before := by
  obtain ⟨-, s, hserved, hfailed⟩ := hasked
  intro s' hs'
  obtain rfl : s' = s := List.mem_singleton.1 (hserved ▸ hs')
  obtain ⟨-, hok⟩ | ⟨hnot, -, hsame⟩ := (hmemory s' hs').cases
  · cases hok.symm.trans hfailed
  · exact ⟨hnot, hsame⟩

def settling (w : Wallet) (r : ExchangeRun) : List ExchangeIncident :=
  match r.pending? with
  | none => []
  | some s =>
    let (after, reply) := w.ledger.perform (.settle s)
    [.settled w.ledger after reply, .concluded]

theorem run_follow_settling (h : ExchangeHistory) (w : Wallet) :
    (h.follow (settling w h.run)).run = (w.settle h.run).2 := by
  unfold settling Wallet.settle
  cases h.run.pending? <;> rfl

theorem inMemory_start (id : ExchangeId) (request : ExchangeRequest) :
    (start id request).InMemory := fun _ hs => absurd hs List.not_mem_nil

theorem InMemory.step (hmemory : h.InMemory) (hserved : ∀ s ∈ incident.servings h.run, s.InMemory) :
    (h.step incident).InMemory := fun s hs =>
  (List.mem_append.1 hs).elim (hmemory s) (hserved s)

theorem InMemory.step_of_nil (hmemory : h.InMemory) (hnone : incident.servings h.run = []) :
    (h.step incident).InMemory :=
  hmemory.step fun _ hs => absurd (hnone ▸ hs) List.not_mem_nil

theorem InMemory.joining (hmemory : h.InMemory) (view : JoinView) :
    (h.follow [.looked view, .priced]).InMemory :=
  (hmemory.step_of_nil rfl).step_of_nil rfl

theorem InMemory.settling (hmemory : h.InMemory) (w : Wallet) :
    (h.follow (settling w h.run)).InMemory := by
  unfold ExchangeHistory.settling
  cases hpending : h.run.pending? with
  | none => exact hmemory
  | some settlement =>
    refine (hmemory.step ?_).step_of_nil rfl
    intro s hs
    rw [ExchangeIncident.servings, hpending] at hs
    obtain rfl := List.mem_singleton.1 hs
    rfl

theorem Reachable.follow (hreach : h.Reachable) (incidents : List ExchangeIncident) :
    (h.follow incidents).Reachable := by
  obtain ⟨id, request, before, rfl⟩ := hreach
  exact ⟨id, request, before ++ incidents, List.foldl_append.symm⟩

section Ends

variable {answer : Except ExchangeFailure ExchangeOutcome}

theorem Sound.ends (hsound : h.Sound) (hanswer : h.run.result? = some (.ofExcept answer)) :
    (∃ outcome, answer = .ok outcome ∧ h.run.state = .done ∧ h.Asked true) ∨
    ∃ failure, answer = .error failure ∧ h.run.state = failure.state ∧
      failure.state.isFailure = true ∧ (h.Unasked ∨ h.Asked false) := by
  have hdealt := hsound.dealt
  have hstage := ExchangeRun.result?_eq_ofExcept.1 hanswer
  have hstate : h.run.state = _ := congrArg ExchangeStage.state hstage
  rw [hstage] at hdealt
  cases answer with
  | ok outcome => exact Or.inl ⟨outcome, rfl, hstate, hdealt⟩
  | error failure =>
    right
    obtain ⟨hearly, hunasked⟩ | ⟨hlate, hasked⟩ := hdealt
    · have hfailures : ∀ s ∈ [ExchangeState.computeFailed, .validationFailed, .rateFailed,
          .deadlineExceeded], s.isFailure = true := by decide
      exact ⟨failure, rfl, hstate, hfailures _ hearly, Or.inl hunasked⟩
    · have hfailure : failure.state.isFailure = true := by
        rw [hlate]
        rfl
      exact ⟨failure, rfl, hstate, hfailure, Or.inr hasked⟩

theorem Sound.isTerminal (hsound : h.Sound) (hanswer : h.run.result? = some (.ofExcept answer)) :
    h.run.state.isTerminal = true := by
  obtain ⟨outcome, -, hdone, -⟩ | ⟨failure, -, hstate, hfailure, -⟩ := hsound.ends hanswer
  · rw [hdone]
    rfl
  · rw [hstate]
    exact (ExchangeState.of_isFailure hfailure).1

theorem Sound.served_iff (hsound : h.Sound) (hanswer : h.run.result? = some (.ofExcept answer)) :
    h.served.length ≤ 1 ∧ (h.served.length = 1 ↔ .computed ∈ h.path) := by
  obtain ⟨outcome, -, -, hasked⟩ | ⟨failure, -, -, -, hunasked | hasked⟩ := hsound.ends hanswer
  · exact hasked.served_iff
  · exact hunasked.served_iff
  · exact hasked.served_iff

theorem Sound.returns_iff (hsound : h.Sound) (hanswer : h.run.result? = some (.ofExcept answer)) :
    ((∃ outcome, answer = .ok outcome) ↔ h.run.state = .done) ∧
      ∀ failure, answer = .error failure → failure.state = h.run.state := by
  obtain ⟨outcome, rfl, hdone, -⟩ | ⟨failure, rfl, hstate, hfailure, -⟩ := hsound.ends hanswer
  · refine ⟨iff_of_true ⟨outcome, rfl⟩ hdone, ?_⟩
    intro failure hfailed
    cases hfailed
  · have hundone : h.run.state ≠ .done := by
      rw [hstate]
      exact (ExchangeState.of_isFailure hfailure).2.2
    constructor
    · refine iff_of_false ?_ hundone
      rintro ⟨outcome, hok⟩
      cases hok
    · intro failure' hfailed
      cases hfailed
      exact hstate.symm

theorem Sound.writes_iff (hsound : h.Sound) (hanswer : h.run.result? = some (.ofExcept answer))
    (hmemory : h.InMemory) :
    ((∃ s ∈ h.served, s.Writes) ↔ h.run.state.hasMutated = true) ∧
      (h.run.state.hasMutated = false → ∀ s ∈ h.served, s.after = s.before) := by
  obtain ⟨outcome, -, hdone, hasked⟩ | ⟨failure, -, hstate, hfailure, hstore⟩ :=
    hsound.ends hanswer
  · rw [hdone]
    refine ⟨iff_of_true (hasked.writes hmemory) rfl, ?_⟩
    intro hunmutated
    cases hunmutated
  · have hunmutated : h.run.state.hasMutated = false := by
      rw [hstate]
      exact (ExchangeState.of_isFailure hfailure).2.1
    have hunwritten : ∀ s ∈ h.served, ¬ s.Writes ∧ s.after = s.before := by
      obtain ⟨-, hnone⟩ | hasked := hstore
      · simp [hnone]
      · exact hasked.unwritten hmemory
    constructor
    · simp only [hunmutated, Bool.false_eq_true, iff_false]
      rintro ⟨s, hs, hwrites⟩
      exact (hunwritten s hs).1 hwrites
    · intro _ s hs
      exact (hunwritten s hs).2

/-- An exchange that returns has gone from its start to a terminal state as is allowed; it has put
one settlement to the store if it found a price, and otherwise none; it returns an outcome if and
only if it is done, and else reports the state in which it stands; and over a ledger in memory it
has written, both balances of its settlement, if and only if its state says so. -/
theorem lifecycle (hreach : h.Reachable)
    (hanswer : h.run.result? = some (.ofExcept answer)) :
    (h.path.head? = some .start ∧ h.path.IsChain ExchangeState.CanBecome ∧
      h.path.getLast? = some h.run.state ∧ h.run.state.isTerminal = true) ∧
    (h.served.length ≤ 1 ∧ (h.served.length = 1 ↔ .computed ∈ h.path)) ∧
    (((∃ outcome, answer = .ok outcome) ↔ h.run.state = .done) ∧
      ∀ failure, answer = .error failure → failure.state = h.run.state) ∧
    (h.InMemory →
      ((∃ s ∈ h.served, s.Writes) ↔ h.run.state.hasMutated = true) ∧
      (h.run.state.hasMutated = false → ∀ s ∈ h.served, s.after = s.before)) := by
  have hsound := hreach.sound
  have hterminal := hsound.isTerminal hanswer
  refine ⟨⟨hsound.head, hsound.chain, hsound.last, hterminal⟩, hsound.served_iff hanswer,
    hsound.returns_iff hanswer, ?_⟩
  intro hmemory
  exact hsound.writes_iff hanswer hmemory

end Ends

def tenDollars : ExchangeHistory :=
  let priced := (start ⟨0⟩ Wallet.tenDollars).follow
    [.launched, .looked ⟨false, some (Wallet.dollars.fund Wallet.tenDollars),
      some (.ok Wallet.euroRate)⟩, .priced]
  priced.follow (settling Wallet.later priced.run)

theorem lifecycle_tenDollars :
    tenDollars.Reachable ∧ tenDollars.run.result? = some (.ofExcept (.ok Wallet.reported)) ∧
      tenDollars.InMemory ∧ .computed ∈ tenDollars.path ∧ ∃ s ∈ tenDollars.served, s.Writes := by
  have hreach : tenDollars.Reachable := Reachable.follow ⟨_, _, _, rfl⟩ _
  have hanswer : tenDollars.run.result? = some (.ofExcept (.ok Wallet.reported)) := rfl
  have hmemory : tenDollars.InMemory :=
    ((inMemory_start _ _).step_of_nil rfl |>.joining _).settling _
  obtain ⟨-, ⟨-, hserved⟩, -, hwritten⟩ := lifecycle hreach hanswer
  have hwrites : ∃ s ∈ tenDollars.served, s.Writes := (hwritten hmemory).1.2 rfl
  exact ⟨hreach, hanswer, hmemory, hserved.1 rfl, hwrites⟩

end

end ExchangeHistory

end CurrencyWallet
