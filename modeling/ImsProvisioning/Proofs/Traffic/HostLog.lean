import ImsProvisioning.Proofs.Traffic.Lapse
import ImsProvisioning.Proofs.Traffic.Occurrence
import Mathlib.Data.List.Basic

/-! # The host's log

Between the lines that tell of the host itself, the log has at most one line for each call that
was served, in the order of service: a warning if nobody could be told of a failure, an error if
the backend broke off. A failure is told once, to the caller that waits or to the log.
-/

namespace ImsProvisioning

/-- What the log has to say about a call with this outcome, if anything. -/
structure Tells {c : Call} (outcome : Outcome c) (line? : Option HostLine) : Prop where
  warning : ∀ text, (∃ line ∈ line?, line.level = .warn ∧ line.text = text) ↔
    ¬ c.isBlocking ∧ ∃ cause, outcome = .returned (.error cause) ∧
      text = c.method.name ++ " request failed in backend: " ++ cause.message
  error : ∀ text, (∃ line ∈ line?, line.level = .error ∧ line.text = text) ↔
    outcome = .crashed ∧ text = c.method.name ++ " backend call did not complete: *"
  level : ∀ line ∈ line?, line.level ≠ .debug

namespace Account

def line? (a : Account) : Option HostLine := a.lines.head?

theorem line?_failed (place : Nat) (c : Call) (cause : CallError) :
    line? ⟨place, c, .returned (.error cause)⟩ =
      if c.isBlocking then none else some (.requestFailed c.method cause) := by
  simp only [line?, lines, Channel.linesOf]
  split <;> rfl

theorem lines_eq (a : Account) : a.lines = a.line?.toList := by
  obtain ⟨place, c, outcome⟩ := a
  cases outcome with
  | crashed => rfl
  | returned result =>
    cases result with
    | ok answer => rfl
    | error cause =>
      rw [line?_failed]
      simp only [lines, Channel.linesOf]
      split <;> rfl

theorem tells (a : Account) : Tells a.outcome a.line? := by
  obtain ⟨place, c, outcome⟩ := a
  cases outcome with
  | crashed =>
    have hline : line? ⟨place, c, .crashed⟩ = some (.callCrashed c.method) := rfl
    rw [hline]
    constructor <;> simp [HostLine.level, HostLine.text, @eq_comm String]
  | returned result =>
    cases result with
    | ok answer =>
      have hline : line? ⟨place, c, .returned (.ok answer)⟩ = none := rfl
      rw [hline]
      constructor <;> simp
    | error cause =>
      rw [line?_failed]
      by_cases blocking : c.isBlocking
      · rw [if_pos blocking]
        constructor <;> simp [blocking]
      · rw [if_neg blocking]
        constructor <;> simp [HostLine.level, HostLine.text, blocking, @eq_comm String]

end Account

namespace Traffic

variable {σ : Type} {b : Backend σ} {st : σ} {w : Traffic σ}

/-- The lines about the calls that were served, each at the place of its call. -/
def reports (b : Backend σ) (st : σ) (w : Traffic σ) : List (Option HostLine) :=
  (w.accounts b st).map Account.line?

theorem lines_eq_reports (b : Backend σ) (st : σ) (w : Traffic σ) :
    w.lines b st = (w.reports b st).filterMap id := by
  rw [lines, reports, List.filterMap_map, List.filterMap_eq_flatMap_toList]
  exact congrArg (fun f => List.flatMap f (w.accounts b st)) (funext Account.lines_eq)

theorem reports_length (b : Backend σ) (st : σ) (w : Traffic σ) :
    (w.reports b st).length = w.served.length := by
  have hplaces := congrArg List.length (Ledger.accounts_place b 0 w.served (.fresh st))
  simpa [reports, accounts] using hplaces

theorem reports_getElem? {place : Nat} {c : Call} (hc : w.served[place]? = some c) :
    let outcome := (Ledger.fresh st).outcomeAfter b (w.served.take place) c
    (w.reports b st)[place]? = some (Account.line? ⟨place, c, outcome⟩) := by
  intro outcome
  rw [reports, List.getElem?_map, accounts, Ledger.accounts_getElem?, hc, Nat.zero_add]
  rfl

/-- The host's own lines are not about calls. -/
theorem level_of_mem_lines {line : HostLine} (h : line ∈ w.lines b st) : line.level ≠ .debug := by
  obtain ⟨a, -, ha⟩ := List.mem_flatMap.1 h
  exact Channel.level_of_mem_linesOf ha

/-- Nobody waits for a request that reports to a listener. -/
theorem Orderly.ticket_ne_of_listener (h : Orderly b st w) {place : Nat} {c : Call}
    (hc : w.served[place]? = some c) (listener : ¬ c.isBlocking) :
    ∀ r ∈ w.channel.receipts, r.ticket ≠ place := by
  rintro r hr rfl
  obtain ⟨blocking, ⟨served, -⟩ | ⟨-, unserved, -⟩⟩ := h.of_mem_receipts hr
  · obtain rfl := Option.some.inj (served.symm.trans hc)
    exact listener blocking
  · have hlt : r.ticket < w.served.length := (List.getElem?_eq_some_iff.1 hc).1
    omega

/--
The host's log tells of its start first and of its shutdown and stop last. In between it has at
most one line for each call served, in the order of service, and none for commands behind a
shutdown. A failure of the backend is heard by the caller that waits or shows as one warning.
-/
theorem host_log_accounts_for_failures (b : Backend σ) (st : σ) (as : List Action) :
    let w := run b st as
    let outcome (place : Nat) (c : Call) :=
      (Ledger.fresh st).outcomeAfter b (w.served.take place) c
    (¬ Occurs b (fresh st) Starts as → w.channel.log = [] ∧ w.served = []) ∧
    (Occurs b (fresh st) Starts as →
      ∃ (reports : List (Option HostLine)) (ending : List HostLine),
        w.channel.log = .started :: (reports.filterMap id ++ ending) ∧
        reports.length = w.served.length ∧
        (∀ place c, w.served[place]? = some c →
          ∃ line?, reports[place]? = some line? ∧ Tells (outcome place c) line?) ∧
        (∀ place c cause, w.served[place]? = some c →
          outcome place c = .returned (.error cause) →
          c.isBlocking ∧ w.channel.receipt? place c = some (.error cause) ∧
              reports[place]? = some none ∨
            ¬ c.isBlocking ∧ (∀ r ∈ w.channel.receipts, r.ticket ≠ place) ∧
              ∃ line, reports[place]? = some (some line) ∧ line.level = .warn) ∧
        ending.Sublist [.shuttingDown, .stopped] ∧
        (.shuttingDown ∈ ending ↔ Occurs b (fresh st) TakesShutdown as) ∧
        (.stopped ∈ ending ↔ Occurs b (fresh st) Stops as)) ∧
    (Occurs b (fresh st) TakesShutdown as → w.served = callsBeforeShutdown w.accepted) := by
  intro w outcome
  have h : Orderly b st w := run_orderly b st as
  have hstarted := started_mem_log b st as
  have hshutdown := shuttingDown_mem_log b st as
  have hstopped := stopped_mem_log b st as
  change _ ∈ w.channel.log ↔ _ at hstarted hshutdown hstopped
  rcases h.log_cases with ⟨hlog, hserved⟩ | ⟨ending, hending, hlog, hbefore⟩
  · simp only [hlog, List.not_mem_nil, false_iff] at hstarted hshutdown
    exact ⟨fun _ => ⟨hlog, hserved⟩, fun starts => absurd starts hstarted,
      fun takes => absurd takes hshutdown⟩
  have mem_ending {line : HostLine} (hdebug : line.level = .debug) (hne : line ≠ .started) :
      line ∈ ending ↔ line ∈ w.channel.log := by
    have hlines : line ∉ w.lines b st := fun hmem => level_of_mem_lines hmem hdebug
    simp [hlog, hne, hlines]
  rw [← mem_ending rfl (by simp)] at hshutdown hstopped
  refine ⟨fun unstarted => absurd (hstarted.1 (by simp [hlog])) unstarted, fun _ => ?_,
    fun takes => hbefore (hshutdown.2 takes)⟩
  refine ⟨w.reports b st, ending, by rw [hlog, lines_eq_reports], reports_length b st w, ?_, ?_,
    hending, hshutdown, hstopped⟩
  · intro place c hc
    exact ⟨_, reports_getElem? hc, Account.tells ⟨place, c, outcome place c⟩⟩
  · intro place c cause hc failed
    have hline : (w.reports b st)[place]? =
        some (if c.isBlocking then none else some (.requestFailed c.method cause)) := by
      rw [reports_getElem? hc, ← Account.line?_failed place]
      exact congrArg (fun o => some (Account.line? ⟨place, c, o⟩)) failed
    by_cases blocking : c.isBlocking
    · rw [if_pos blocking] at hline
      have hreceipt := h.receipt?_of_served hc blocking
      change _ = some (outcome place c).result at hreceipt
      rw [failed] at hreceipt
      exact .inl ⟨blocking, hreceipt, hline⟩
    · rw [if_neg blocking] at hline
      exact .inr ⟨blocking, h.ticket_ne_of_listener hc blocking, _, hline, rfl⟩

end Traffic
end ImsProvisioning
