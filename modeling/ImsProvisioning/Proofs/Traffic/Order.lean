import ImsProvisioning.Proofs.Traffic.Account
import ImsProvisioning.Proofs.Traffic.Basic

/-! # The order of service

The host takes the accepted commands one after the other. At every point of the
traffic the served calls are the first of the accepted commands, the others wait in
the order of acceptance, and ledger, receipts and log are those of serving the
served calls one at a time.
-/

namespace ImsProvisioning

/-- The calls in front of the first shutdown. -/
def callsBeforeShutdown : List Command → List Call
  | .call c :: cs => c :: callsBeforeShutdown cs
  | _ => []

theorem prefix_callsBeforeShutdown {cs : List Call} {commands : List Command}
    (h : cs.map Command.call <+: commands) : cs <+: callsBeforeShutdown commands := by
  induction cs generalizing commands with
  | nil => exact List.nil_prefix
  | cons c cs ih =>
    obtain ⟨rest, rfl⟩ := h
    exact (List.cons_prefix_cons).2 ⟨rfl, ih (List.prefix_append _ _)⟩

theorem callsBeforeShutdown_append (cs : List Call) (commands : List Command) :
    callsBeforeShutdown (cs.map Command.call ++ commands) =
      cs ++ callsBeforeShutdown commands := by
  induction cs with
  | nil => rfl
  | cons c cs ih => exact congrArg (c :: ·) ih

@[simp] theorem callsBeforeShutdown_map (cs : List Call) :
    callsBeforeShutdown (cs.map Command.call) = cs := by
  induction cs with
  | nil => rfl
  | cons c cs ih => exact congrArg (c :: ·) ih

namespace Traffic

variable {σ : Type} {b : Backend σ} {st : σ} {w w' : Traffic σ}

/-- The accepted commands that the backend has not taken, with their tickets. -/
def unserved (w : Traffic σ) : List Queued :=
  (w.accepted.mapIdx Queued.mk).drop w.served.length

/-- The accounts of the served calls in their sequential run. -/
def accounts (b : Backend σ) (st : σ) (w : Traffic σ) : List Account :=
  (Ledger.fresh st).accounts b 0 w.served

def lines (b : Backend σ) (st : σ) (w : Traffic σ) : List HostLine :=
  (w.accounts b st).flatMap Account.lines

/-- The receipts of the commands that will never be served. -/
def lost (w : Traffic σ) : List Receipt :=
  if w.channel.phase = .ended then w.unserved.filterMap Queued.dropped else []

/-- How far the host has come with the accepted commands. -/
inductive Stage (b : Backend σ) (st : σ) (w : Traffic σ) : Prop
  | unstarted (phase : w.channel.phase = .unstarted) (served : w.served = [])
      (queue : w.channel.queue = w.unserved) (log : w.channel.log = [])
  | idle (phase : w.channel.phase = .idle) (queue : w.channel.queue = w.unserved)
      (log : w.channel.log = .started :: w.lines b st)
  | serving (ticket : Nat) (c : Call) (phase : w.channel.phase = .serving ticket c)
      (queue : w.unserved = ⟨ticket, .call c⟩ :: w.channel.queue)
      (log : w.channel.log = .started :: w.lines b st)
  | leavingShutdown (ticket : Nat) (phase : w.channel.phase = .leaving)
      (queue : w.unserved = ⟨ticket, .shutdown⟩ :: w.channel.queue)
      (log : w.channel.log = .started :: (w.lines b st ++ [.shuttingDown]))
  | leavingAlone (phase : w.channel.phase = .leaving) (handles : w.channel.handles = 0)
      (queue : w.channel.queue = []) (unserved : w.unserved = [])
      (log : w.channel.log = .started :: w.lines b st)
  | dropped (phase : w.channel.phase = .ended) (served : w.served = [])
      (log : w.channel.log = [])
  | shutDown (ticket : Nat) (rest : List Queued) (phase : w.channel.phase = .ended)
      (queue : w.unserved = ⟨ticket, .shutdown⟩ :: rest)
      (log : w.channel.log = .started :: (w.lines b st ++ [.shuttingDown, .stopped]))
  | abandoned (phase : w.channel.phase = .ended) (unserved : w.unserved = [])
      (log : w.channel.log = .started :: (w.lines b st ++ [.stopped]))

/-- The channel is where the sequential run of the served calls leads. -/
structure Orderly (b : Backend σ) (st : σ) (w : Traffic σ) : Prop where
  ledger : w.channel.ledger = (Ledger.fresh st).serveAll b w.served
  ticket : w.channel.nextTicket = w.accepted.length
  served : w.served.map Command.call <+: w.accepted
  receipts : w.channel.receipts = (w.accounts b st).flatMap Account.receipts ++ w.lost
  stage : Stage b st w

theorem Orderly.served_length (h : Orderly b st w) : w.served.length ≤ w.accepted.length := by
  simpa using h.served.length_le

theorem accepted_of_unserved {q : Queued} {rest : List Queued} (h : w.unserved = q :: rest) :
    q.ticket = w.served.length ∧ w.accepted[w.served.length]? = some q.command := by
  have hq : (w.accepted.mapIdx Queued.mk)[w.served.length]? = some q := by
    rw [← List.head?_drop]
    exact congrArg List.head? h
  rw [List.getElem?_mapIdx] at hq
  obtain ⟨command, hc, rfl⟩ := Option.map_eq_some_iff.1 hq
  exact ⟨rfl, hc⟩

theorem accepted_of_unserved_nil (h : w.unserved = []) :
    w.accepted.length ≤ w.served.length := by
  simpa [unserved] using h

/-- Behind a shutdown, and at the end, there is no call that could still be served. -/
theorem Orderly.served_eq (h : Orderly b st w)
    (hs : (∃ ticket rest, w.unserved = ⟨ticket, .shutdown⟩ :: rest) ∨ w.unserved = []) :
    w.served = callsBeforeShutdown w.accepted := by
  obtain ⟨rest, hr⟩ := h.served
  rw [← hr, callsBeforeShutdown_append]
  rcases hs with ⟨ticket, queued, hq⟩ | hn
  · have hc := (accepted_of_unserved hq).2
    rw [← hr, List.getElem?_append_right (by simp)] at hc
    cases rest with
    | nil => simp at hc
    | cons command rest =>
      obtain rfl : command = .shutdown := by simpa using hc
      simp [callsBeforeShutdown]
  · have hl := accepted_of_unserved_nil hn
    have hlen := congrArg List.length hr
    simp only [List.length_append, List.length_map] at hlen
    obtain rfl : rest = [] := List.eq_nil_of_length_eq_zero (by omega)
    simp [callsBeforeShutdown]

/-- Either the host has done nothing, or it has started and accounts for what it has served. -/
theorem Orderly.log_cases (h : Orderly b st w) :
    w.channel.log = [] ∧ w.served = [] ∨
      ∃ ending : List HostLine, ending.Sublist [.shuttingDown, .stopped] ∧
        w.channel.log = .started :: (w.lines b st ++ ending) ∧
        (.shuttingDown ∈ ending → w.served = callsBeforeShutdown w.accepted) := by
  cases h.stage with
  | unstarted _ served _ log => exact .inl ⟨log, served⟩
  | dropped _ served log => exact .inl ⟨log, served⟩
  | idle _ _ log | serving _ _ _ _ log | leavingAlone _ _ _ _ log =>
    exact .inr ⟨[], List.nil_sublist _, by rw [log, List.append_nil], by simp⟩
  | leavingShutdown ticket _ queue log =>
    exact .inr ⟨[.shuttingDown], by simp, log, fun _ => h.served_eq (.inl ⟨ticket, _, queue⟩)⟩
  | shutDown ticket rest _ queue log =>
    exact .inr ⟨_, List.Sublist.refl _, log, fun _ => h.served_eq (.inl ⟨ticket, rest, queue⟩)⟩
  | abandoned _ _ log => exact .inr ⟨[.stopped], by simp, log, by simp⟩

theorem fresh_orderly (b : Backend σ) (st : σ) : Orderly b st (fresh st) where
  ledger := rfl
  ticket := rfl
  served := List.nil_prefix
  receipts := by simp [fresh, Channel.fresh, accounts, Ledger.fresh, Ledger.accounts, lost]
  stage := .unstarted rfl rfl rfl rfl

theorem unserved_send (h : w.served.length ≤ w.accepted.length) (command : Command) :
    (w.send command).unserved = w.unserved ++ [⟨w.accepted.length, command⟩] := by
  change ((w.accepted ++ [command]).mapIdx Queued.mk).drop w.served.length = _
  rw [List.mapIdx_concat, List.drop_append_of_le_length (by simpa using h)]
  rfl

theorem Stage.send (hs : Stage b st w) (hl : w.served.length ≤ w.accepted.length)
    (ht : w.channel.nextTicket = w.accepted.length) (command : Command)
    (handle : w.channel.handles ≠ 0) (connected : w.channel.phase ≠ .ended) :
    Stage b st (w.send command) := by
  have hu := unserved_send hl command
  have hq : (w.send command).channel.queue =
      w.channel.queue ++ [⟨w.accepted.length, command⟩] := by
    rw [← ht]
    rfl
  cases hs with
  | unstarted phase served queue log =>
    exact .unstarted phase served (by rw [hu, hq, queue]) log
  | idle phase queue log => exact .idle phase (by rw [hu, hq, queue]) log
  | serving ticket c phase queue log =>
    exact .serving ticket c phase (by rw [hu, hq, queue, List.cons_append]) log
  | leavingShutdown ticket phase queue log =>
    exact .leavingShutdown ticket phase (by rw [hu, hq, queue, List.cons_append]) log
  | leavingAlone phase handles => exact absurd handles handle
  | dropped phase => exact absurd phase connected
  | shutDown ticket rest phase => exact absurd phase connected
  | abandoned phase => exact absurd phase connected

theorem Orderly.send (h : Orderly b st w) (command : Command) (handle : w.channel.handles ≠ 0)
    (connected : w.channel.phase ≠ .ended) : Orderly b st (w.send command) where
  ledger := h.ledger
  ticket := by
    have ht := h.ticket
    simp [Traffic.send, Channel.enqueue, ht]
  served := h.served.trans (List.prefix_append _ _)
  receipts := by
    have hl : w.lost = [] := if_neg connected
    have hl' : (w.send command).lost = [] := if_neg connected
    rw [hl']
    rw [← hl]
    exact h.receipts
  stage := h.stage.send h.served_length h.ticket command handle connected

/-- A number of handles that makes no difference to a host that has no handle left. -/
theorem Orderly.withHandles (h : Orderly b st w) {n : Nat}
    (hn : w.channel.handles = 0 → n = 0) :
    Orderly b st { w with channel := { w.channel with handles := n } } where
  ledger := h.ledger
  ticket := h.ticket
  served := h.served
  receipts := h.receipts
  stage := by
    cases h.stage with
    | unstarted phase served queue log => exact .unstarted phase served queue log
    | idle phase queue log => exact .idle phase queue log
    | serving ticket c phase queue log => exact .serving ticket c phase queue log
    | leavingShutdown ticket phase queue log => exact .leavingShutdown ticket phase queue log
    | leavingAlone phase handles queue unserved log =>
      exact .leavingAlone phase (hn handles) queue unserved log
    | dropped phase served log => exact .dropped phase served log
    | shutDown ticket rest phase queue log => exact .shutDown ticket rest phase queue log
    | abandoned phase unserved log => exact .abandoned phase unserved log

/-- In the stage of a host that has not been started, nothing has been done. -/
theorem Stage.of_unstarted (hs : Stage b st w) (phase : w.channel.phase = .unstarted) :
    w.served = [] ∧ w.channel.queue = w.unserved ∧ w.channel.log = [] := by
  cases hs with
  | unstarted _ served queue log => exact ⟨served, queue, log⟩
  | _ => simp_all

theorem Orderly.start (h : Orderly b st w) (phase : w.channel.phase = .unstarted) :
    Orderly b st { w with channel := w.channel.start } := by
  obtain ⟨hserved, hqueue, hlog⟩ := h.stage.of_unstarted phase
  refine ⟨h.ledger, h.ticket, h.served, ?_, .idle rfl hqueue ?_⟩
  · have hl : w.lost = [] := if_neg (by simp [phase])
    have hr := h.receipts
    rw [hl] at hr
    exact hr
  · have hlines : lines b st { w with channel := w.channel.start } = [] := by
      change ((Ledger.fresh st).accounts b 0 w.served).flatMap Account.lines = []
      rw [hserved]
      rfl
    rw [hlines]
    simp [Channel.start, hlog]

theorem Orderly.dropHost (h : Orderly b st w) (phase : w.channel.phase = .unstarted) :
    Orderly b st { w with channel := w.channel.close } := by
  obtain ⟨hserved, hqueue, hlog⟩ := h.stage.of_unstarted phase
  refine ⟨h.ledger, h.ticket, h.served, ?_, .dropped rfl hserved hlog⟩
  have hl : w.lost = [] := if_neg (by simp [phase])
  have hr := h.receipts
  rw [hl, List.append_nil] at hr
  change w.channel.receipts ++ w.channel.queue.filterMap Queued.dropped = _
  rw [hr, hqueue]
  rfl

/-- Out of commands, the host waits or leaves. -/
theorem Orderly.work_idle_nil (h : Orderly b st w) (phase : w.channel.phase = .idle)
    (queue : w.channel.queue = []) :
    Orderly b st { w with channel := w.channel.hostStep b } := by
  simp only [Channel.hostStep, phase, queue]
  split
  · rename_i handles
    cases h.stage with
    | idle _ hqueue log =>
      have hl : w.lost = [] := if_neg (by simp [phase])
      have hr := h.receipts
      rw [hl] at hr
      exact ⟨h.ledger, h.ticket, h.served, hr,
        .leavingAlone rfl handles rfl (hqueue ▸ queue) log⟩
    | _ => simp_all
  · exact h

/-- The host takes the next command off the queue. -/
theorem Orderly.work_idle_cons (h : Orderly b st w) (phase : w.channel.phase = .idle)
    {q : Queued} {rest : List Queued} (queue : w.channel.queue = q :: rest) :
    Orderly b st { w with channel := w.channel.hostStep b } := by
  have hl : w.lost = [] := if_neg (by simp [phase])
  have hr := h.receipts
  rw [hl] at hr
  cases h.stage with
  | idle _ hqueue log =>
    rw [hqueue] at queue
    obtain ⟨ticket, command⟩ := q
    cases command with
    | call c =>
      simp only [Channel.hostStep, phase, hqueue, queue]
      exact ⟨h.ledger, h.ticket, h.served, hr, .serving ticket c rfl queue log⟩
    | shutdown =>
      simp only [Channel.hostStep, phase, hqueue, queue]
      refine ⟨h.ledger, h.ticket, h.served, hr, .leavingShutdown ticket rfl queue ?_⟩
      exact congrArg (· ++ [.shuttingDown]) log
  | _ => simp_all

/-- The host makes the call that it has taken. -/
theorem Orderly.work_serving (h : Orderly b st w) {ticket : Nat} {c : Call}
    (phase : w.channel.phase = .serving ticket c) :
    Orderly b st { w with channel := w.channel.hostStep b } := by
  have hl : w.lost = [] := if_neg (by simp [phase])
  have hr := h.receipts
  rw [hl, List.append_nil] at hr
  cases h.stage with
  | serving ticket' c' phase' queue log =>
    obtain ⟨rfl, rfl⟩ : ticket' = ticket ∧ c' = c := by simpa [phase'] using phase
    obtain ⟨hplace, hcommand⟩ := accepted_of_unserved queue
    have hout : w.channel.ledger.outcome b c' =
        (Ledger.fresh st).outcomeAfter b w.served c' :=
      congrArg (Ledger.outcome b c') h.ledger
    have hacc : (Ledger.fresh st).accounts b 0 (w.served ++ [c']) =
        w.accounts b st ++ [⟨ticket', c', w.channel.ledger.outcome b c'⟩] := by
      rw [Ledger.accounts_concat, Nat.zero_add, ← hplace, hout]
      rfl
    simp only [Channel.hostStep, phase]
    refine ⟨?_, h.ticket, ?_, ?_, .idle rfl ?_ ?_⟩
    · change w.channel.ledger.serve b c' = (Ledger.fresh st).serveAll b (w.served ++ [c'])
      rw [Ledger.serveAll_concat, ← h.ledger]
    · change (w.served ++ [c']).map Command.call <+: w.accepted
      obtain ⟨rest, hrest⟩ := h.served
      rw [← hrest, List.getElem?_append_right (by simp)] at hcommand
      cases rest with
      | nil => simp at hcommand
      | cons command rest =>
        obtain rfl : command = .call c' := by simpa using hcommand
        exact ⟨rest, by simp [← hrest]⟩
    · change w.channel.receipts ++ _ = ((Ledger.fresh st).accounts b 0
        (w.served ++ [c'])).flatMap Account.receipts ++ _
      rw [hacc, hr, List.flatMap_append]
      simp [lost, Account.receipts]
    · change w.channel.queue =
        (w.accepted.mapIdx Queued.mk).drop (w.served ++ [c']).length
      rw [List.length_append, List.length_singleton, ← List.drop_drop]
      exact (congrArg List.tail queue).symm.trans List.drop_one.symm
    · change w.channel.log ++ _ = .started :: ((Ledger.fresh st).accounts b 0
        (w.served ++ [c'])).flatMap Account.lines
      rw [hacc, log, List.flatMap_append]
      simp [lines, Account.lines]
  | _ => simp_all

/-- The host stops, and with it ends what nobody serves any more. -/
theorem Orderly.work_leaving (h : Orderly b st w) (phase : w.channel.phase = .leaving) :
    Orderly b st { w with channel := w.channel.hostStep b } := by
  have hl : w.lost = [] := if_neg (by simp [phase])
  have hr := h.receipts
  rw [hl, List.append_nil] at hr
  have hreceipts (hq : w.channel.queue.filterMap Queued.dropped =
      w.unserved.filterMap Queued.dropped) :
      w.channel.receipts ++ w.channel.queue.filterMap Queued.dropped =
        (w.accounts b st).flatMap Account.receipts ++ w.unserved.filterMap Queued.dropped := by
    rw [hr, hq]
  simp only [Channel.hostStep, phase]
  cases h.stage with
  | leavingShutdown ticket _ queue log =>
    refine ⟨h.ledger, h.ticket, h.served, hreceipts ?_, .shutDown ticket _ rfl queue ?_⟩
    · rw [queue]
      rfl
    · change w.channel.log ++ [.stopped] =
        .started :: (w.lines b st ++ [.shuttingDown, .stopped])
      simp [log]
  | leavingAlone _ _ queue unserved log =>
    refine ⟨h.ledger, h.ticket, h.served, hreceipts ?_, .abandoned rfl unserved ?_⟩
    · rw [queue, unserved]
    · exact congrArg (· ++ [.stopped]) log
  | _ => simp_all

theorem Orderly.work (h : Orderly b st w) :
    Orderly b st { w with channel := w.channel.hostStep b } := by
  cases phase : w.channel.phase with
  | unstarted => simpa [Channel.hostStep, phase] using h
  | idle =>
    cases queue : w.channel.queue with
    | nil => exact h.work_idle_nil phase queue
    | cons q rest => exact h.work_idle_cons phase queue
  | serving ticket c => exact h.work_serving phase
  | leaving => exact h.work_leaving phase
  | ended => simpa [Channel.hostStep, phase] using h

theorem Orderly.change (h : Orderly b st w) (hc : Change b w w') : Orderly b st w' := by
  cases hc with
  | none => exact h
  | send command handle connected => exact h.send command handle connected
  | clone handle => exact h.withHandles fun h => absurd h handle
  | release => exact h.withHandles fun h => by rw [h]
  | start unstarted => exact h.start unstarted
  | dropHost unstarted => exact h.dropHost unstarted
  | work => exact h.work

theorem Orderly.runFrom (h : Orderly b st w) (acts : List Action) :
    Orderly b st (w.runFrom b acts) :=
  runFrom_induction Orderly.change h acts

/-- The host serves in order at every point of the traffic. -/
theorem run_orderly (b : Backend σ) (st : σ) (as : List Action) : Orderly b st (run b st as) :=
  (fresh_orderly b st).runFrom as

end Traffic
end ImsProvisioning
