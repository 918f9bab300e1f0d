import ImsProvisioning.Proofs.Client.Facade
import ImsProvisioning.Proofs.Traffic.Lapse

/-! # Exchanges

On a channel with others a program is a sequence of exchanges: the others act, the client makes
its next call, and it goes on once it has heard of it. What it hears is the backend's answer at
a place that the call got behind everything accepted before, or there is a reason for a failure.
-/

namespace ImsProvisioning

open Traffic (Answered Grows Lapse Orderly runFrom_grows)

variable {σ : Type} {b : Backend σ} {st : σ} {site : Site} {c : Call} {o : Options}
  {w w' : Traffic σ}

/-- A call made between others' actions, up to some point behind its caller's hearing of it. -/
def Exchange (b : Backend σ) (site : Site) (w : Traffic σ) (c : Call)
    (reply : Except CallError c.Answer) (w' : Traffic σ) : Prop :=
  ∃ before between after : List Action,
    let sent := w.runFrom b before
    let heard := (sent.step b (.call site c)).runFrom b between
    (sent.channel.submit site c).1.heard heard.channel = some reply ∧
      w' = heard.runFrom b after

namespace Exchange

variable {reply : Except CallError c.Answer}

theorem preceded (acts : List Action) (h : Exchange b site (w.runFrom b acts) c reply w') :
    Exchange b site w c reply w' := by
  obtain ⟨before, between, after, heard, rfl⟩ := h
  rw [← Traffic.runFrom_append] at heard
  refine ⟨acts ++ before, between, after, heard, ?_⟩
  rw [Traffic.runFrom_append _ _ acts]

theorem followed (acts : List Action) (h : Exchange b site w c reply w') :
    Exchange b site w c reply (w'.runFrom b acts) := by
  obtain ⟨before, between, after, heard, rfl⟩ := h
  refine ⟨before, between, after ++ acts, heard, ?_⟩
  rw [Traffic.runFrom_append _ _ after]

/-- All that happens meanwhile is a course of events. -/
theorem exists_actions (h : Exchange b site w c reply w') :
    ∃ acts, w' = w.runFrom b acts := by
  obtain ⟨before, between, after, -, rfl⟩ := h
  refine ⟨before ++ .call site c :: (between ++ after), ?_⟩
  rw [Traffic.runFrom_append, Traffic.runFrom_cons, Traffic.runFrom_append]

theorem grows (h : Exchange b site w c reply w') : Grows w w' := by
  obtain ⟨acts, rfl⟩ := h.exists_actions
  exact runFrom_grows b w acts

theorem orderly (h : Exchange b site w c reply w') (ho : Orderly b st w) : Orderly b st w' := by
  obtain ⟨acts, rfl⟩ := h.exists_actions
  exact ho.runFrom acts

/-- A caller that waits hears of its call right away, or it finds the receipt for its place. -/
theorem reply_cases (h : Exchange b site w c reply w') (ho : Orderly b st w)
    (blocking : c.isBlocking) :
    site = .currentThread ∧ reply = .error .blockingInRuntime ∨
    w'.channel.phase = .ended ∧ reply = .error .disconnected ∨
    ∃ place w₁, w.accepted.length ≤ place ∧ Orderly b st w₁ ∧ Grows w w₁ ∧ Grows w₁ w' ∧
      w₁.channel.receipt? place c = some reply := by
  obtain ⟨before, between, after, heard, rfl⟩ := h
  have hsent : Orderly b st (w.runFrom b before) := ho.runFrom before
  have hbefore := runFrom_grows b w before
  have hlater := (Traffic.step_change b (w.runFrom b before) (.call site c)).grows.trans
    (runFrom_grows b _ between)
  have hafter := runFrom_grows b
    (((w.runFrom b before).step b (.call site c)).runFrom b between) after
  rw [Channel.submit_blocking blocking] at heard
  split at heard
  · rename_i inside
    exact .inl ⟨inside, (Option.some.inj heard).symm⟩
  · split at heard
    · refine .inr (.inr ⟨_, _, ?_, ?_, hbefore.trans hlater, hafter, heard⟩)
      · rw [hsent.ticket]
        exact hbefore.accepted.length_le
      · exact (hsent.change (Traffic.step_change b _ _)).runFrom between
    · rename_i gone
      have ended : (w.runFrom b before).channel.phase = .ended := by
        simpa [Channel.isConnected] using gone
      exact .inr (.inl ⟨(hlater.trans hafter).phase_eq ended, (Option.some.inj heard).symm⟩)

/-- A caller that hears an answer has been answered behind what was accepted before. -/
theorem answered {answer : c.Answer} (h : Exchange b site w c (.ok answer) w')
    (ho : Orderly b st w) (blocking : c.isBlocking) :
    ∃ place, w.accepted.length ≤ place ∧ Answered b st w' place c answer := by
  rcases h.reply_cases ho blocking with ⟨-, hr⟩ | ⟨-, hr⟩ | ⟨place, w₁, hle, ho₁, -, hg, hr⟩
  · cases hr
  · cases hr
  · refine ⟨place, hle, ?_⟩
    rcases ho₁.of_receipt? hr with ⟨served, hresult⟩ | ⟨-, -, -, hresult⟩
    · exact Answered.grows ⟨served, Outcome.eq_of_result_ok hresult.symm⟩ hg
    · cases hresult

/-- A caller that hears of a failure hears why. -/
theorem lapse {cause : CallError} (h : Exchange b site w c (.error cause) w')
    (ho : Orderly b st w) (blocking : c.isBlocking) :
    Lapse b st w' site w.accepted.length c cause := by
  rcases h.reply_cases ho blocking with
    ⟨inside, hr⟩ | ⟨ended, hr⟩ | ⟨place, w₁, hle, ho₁, -, hg, hr⟩
  · obtain rfl := Except.error.inj hr
    exact .inRuntime inside
  · obtain rfl := Except.error.inj hr
    exact .refused ended
  · refine Lapse.grows ?_ hg
    rcases ho₁.of_receipt? hr with ⟨served, hresult⟩ | ⟨ended, unserved, accepted, hresult⟩
    · rcases Outcome.eq_of_result_error hresult.symm with failed | ⟨crashed, rfl⟩
      · exact .failed hle served failed
      · exact .crashed hle served crashed
    · obtain rfl := Except.error.inj hresult
      exact .dropped hle accepted unserved ended
        (ho₁.reason_of_dropped accepted unserved ended)

/-- On a channel that has ended, for whatever reason, every caller that would wait is refused. -/
theorem of_ended (h : Exchange b site w c reply w') (ended : w.channel.phase = .ended)
    (blocking : c.isBlocking) :
    site = .currentThread ∧ reply = .error .blockingInRuntime ∨
      reply = .error .disconnected := by
  obtain ⟨before, between, after, heard, -⟩ := h
  have gone : ¬ (w.runFrom b before).channel.isConnected := by
    simpa [Channel.isConnected] using (runFrom_grows b w before).phase_eq ended
  rw [Channel.submit_blocking blocking] at heard
  split at heard
  · rename_i inside
    exact .inl ⟨inside, (Option.some.inj heard).symm⟩
  · exact .inr (Option.some.inj heard).symm

/-- Behind a shutdown no caller is answered. -/
theorem of_shutdown (h : Exchange b site w c reply w') (ho : Orderly b st w)
    (hs : .shutdown ∈ w.accepted) (blocking : c.isBlocking) :
    site = .currentThread ∧ reply = .error .blockingInRuntime ∨
      reply = .error .disconnected ∨ reply = .error .noReply := by
  rcases h.reply_cases ho blocking with
    inside | ⟨-, refused⟩ | ⟨place, w₁, hle, ho₁, hg, -, hr⟩
  · exact .inl inside
  · exact .inr (.inl refused)
  · obtain ⟨stop, hat⟩ := List.mem_iff_getElem?.1 hs
    have hlt : stop < w.accepted.length := (List.getElem?_eq_some_iff.1 hat).1
    obtain ⟨more, hmore⟩ := hg.accepted
    have hunserved : w₁.served.length ≤ stop := by
      apply ho₁.served_of_shutdown
      rw [← hmore, List.getElem?_append_left hlt]
      exact hat
    rcases ho₁.of_receipt? hr with ⟨served, -⟩ | ⟨-, -, -, hresult⟩
    · have hplace : place < w₁.served.length := (List.getElem?_eq_some_iff.1 served).1
      omega
    · exact .inr (.inr hresult)

end Exchange

namespace Program.Runs

variable {α β : Type} {others : Action → Prop} {a r : α} {lines : List LogLine}

/-- Whatever the client and the others do is a course of events. -/
theorem exists_actions {p : Program α} (h : Runs b site others p w r lines w') :
    ∃ acts, w' = w.runFrom b acts := by
  induction h with
  | done a w => exact ⟨[], rfl⟩
  | log rest ih => exact ih
  | @other p w w' a lines act allowed rest ih =>
    obtain ⟨acts, hw⟩ := ih
    exact ⟨act :: acts, hw⟩
  | @settled c next w w' a lines result submission rest ih =>
    obtain ⟨acts, hw⟩ := ih
    exact ⟨.call site c :: acts, hw⟩
  | @answered c next w w' a lines ticket result between submission allowed receipt rest ih =>
    obtain ⟨acts, hw⟩ := ih
    refine ⟨.call site c :: (between ++ acts), ?_⟩
    rw [Traffic.runFrom_cons, Traffic.runFrom_append]
    exact hw

theorem mono {others' : Action → Prop} {p : Program α} (hle : ∀ act, others act → others' act)
    (h : Runs b site others p w r lines w') : Runs b site others' p w r lines w' := by
  induction h with
  | done a w => exact .done a w
  | log rest ih => exact .log ih
  | other allowed rest ih => exact .other (hle _ allowed) ih
  | settled submission rest ih => exact .settled submission ih
  | answered submission allowed receipt rest ih =>
    exact .answered submission (fun act hact => hle act (allowed act hact)) receipt ih

theorem grows {p : Program α} (h : Runs b site others p w r lines w') : Grows w w' := by
  obtain ⟨acts, rfl⟩ := h.exists_actions
  exact runFrom_grows b w acts

theorem orderly {p : Program α} (h : Runs b site others p w r lines w')
    (ho : Orderly b st w) : Orderly b st w' := by
  obtain ⟨acts, rfl⟩ := h.exists_actions
  exact ho.runFrom acts

theorem of_done (h : Runs b site others (.done a) w r lines w') :
    r = a ∧ ∃ acts, w' = w.runFrom b acts := by
  generalize hp : Program.done a = p at h
  induction h with
  | done a' w =>
    obtain rfl := Program.done.inj hp
    exact ⟨rfl, [], rfl⟩
  | @other p w w' r lines act allowed rest ih =>
    obtain ⟨hr, acts, hw⟩ := ih hp
    exact ⟨hr, act :: acts, hw⟩
  | log | settled | answered => cases hp

theorem of_log {line : LogLine} {next : Program α}
    (h : Runs b site others (.log line next) w r lines w') :
    ∃ acts lines', Runs b site others next (w.runFrom b acts) r lines' w' := by
  generalize hp : Program.log line next = p at h
  induction h with
  | log rest =>
    obtain ⟨rfl, rfl⟩ := Program.log.inj hp
    exact ⟨[], _, rest⟩
  | @other p w w' r lines act allowed rest ih =>
    obtain ⟨acts, lines', hrest⟩ := ih hp
    exact ⟨act :: acts, lines', hrest⟩
  | done | settled | answered => cases hp

theorem of_logWhen {on : Bool} {line : LogLine} {p : Program α}
    (h : Runs b site others (logWhen on line p) w r lines w') :
    ∃ acts lines', Runs b site others p (w.runFrom b acts) r lines' w' := by
  cases on with
  | false => exact ⟨[], lines, h⟩
  | true => exact h.of_log

/-- The first thing that matters in a program that starts with a call is its exchange. -/
theorem of_call {next : Except CallError c.Answer → Program α}
    (h : Runs b site others (.call c next) w r lines w') :
    ∃ reply w₁ lines', Exchange b site w c reply w₁ ∧
      Runs b site others (next reply) w₁ r lines' w' := by
  generalize hp : Program.call c next = p at h
  induction h with
  | @other p w w' r lines act allowed rest ih =>
    obtain ⟨reply, w₁, lines', hx, hrest⟩ := ih hp
    exact ⟨reply, w₁, lines', hx.preceded [act], hrest⟩
  | settled submission rest =>
    cases hp
    refine ⟨_, _, _, ⟨[], [], [], ?_, rfl⟩, rest⟩
    exact congrArg (Submission.heard _) submission
  | @answered c next w w' r lines ticket result between submission allowed receipt rest =>
    cases hp
    refine ⟨_, _, _, ⟨[], between, [], ?_, rfl⟩, rest⟩
    exact (congrArg (Submission.heard _) submission).trans receipt
  | done | log => cases hp

theorem bind {p : Program β} {f : β → Program α} {a : β} {w₁ : Traffic σ} {lines' : List LogLine}
    (h : Runs b site others p w a lines w₁) (rest : Runs b site others (f a) w₁ r lines' w') :
    Runs b site others (p.bind f) w r (lines ++ lines') w' := by
  induction h with
  | done a w => exact rest
  | log _ ih => exact .log (ih rest)
  | other allowed _ ih => exact .other allowed (ih rest)
  | settled submission _ ih => exact .settled submission (ih rest)
  | answered submission allowed receipt _ ih => exact .answered submission allowed receipt (ih rest)

/-- A program that goes on with what another one gives runs behind it. -/
theorem of_bind {p : Program β} {f : β → Program α}
    (h : Runs b site others (p.bind f) w r lines w') :
    ∃ a w₁ lines₁ lines₂, Runs b site others p w a lines₁ w₁ ∧
      Runs b site others (f a) w₁ r lines₂ w' ∧ lines = lines₁ ++ lines₂ := by
  generalize hq : p.bind f = q at h
  induction h generalizing p with
  | done r w =>
    cases p with
    | done a =>
      have hf : f a = .done r := hq
      exact ⟨a, w, [], [], .done a w, hf ▸ .done r w, rfl⟩
    | log | call => cases hq
  | @log line next w w' r lines rest ih =>
    cases p with
    | done a =>
      have hf : f a = .log line next := hq
      exact ⟨a, w, [], _, .done a w, hf ▸ .log rest, rfl⟩
    | log line' next' =>
      obtain ⟨rfl, hnext⟩ := Program.log.inj hq
      obtain ⟨a, w₁, lines₁, lines₂, hp, hf, rfl⟩ := ih hnext
      exact ⟨a, w₁, _, lines₂, .log hp, hf, rfl⟩
    | call => cases hq
  | other allowed rest ih =>
    obtain ⟨a, w₁, lines₁, lines₂, hp, hf, hlines⟩ := ih hq
    exact ⟨a, w₁, lines₁, lines₂, .other allowed hp, hf, hlines⟩
  | @settled c next w w' r lines result submission rest ih =>
    cases p with
    | done a =>
      have hf : f a = .call c next := hq
      exact ⟨a, w, [], _, .done a w, hf ▸ .settled submission rest, rfl⟩
    | log => cases hq
    | call c' next' =>
      cases hq
      obtain ⟨a, w₁, lines₁, lines₂, hp, hf, hlines⟩ := ih rfl
      exact ⟨a, w₁, lines₁, lines₂, .settled submission hp, hf, hlines⟩
  | @answered c next w w' r lines ticket result between submission allowed receipt rest ih =>
    cases p with
    | done a =>
      have hf : f a = .call c next := hq
      refine ⟨a, w, [], _, .done a w, ?_, rfl⟩
      exact hf ▸ .answered submission allowed receipt rest
    | log => cases hq
    | call c' next' =>
      cases hq
      obtain ⟨a, w₁, lines₁, lines₂, hp, hf, hlines⟩ := ih rfl
      exact ⟨a, w₁, lines₁, lines₂, .answered submission allowed receipt hp, hf, hlines⟩

theorem of_map {p : Program β} {f : β → α} (h : Runs b site others (p.map f) w r lines w') :
    ∃ a w₁ lines' acts, Runs b site others p w a lines' w₁ ∧ r = f a ∧
      w' = w₁.runFrom b acts := by
  obtain ⟨a, w₁, lines', _, hp, hf, -⟩ := h.of_bind
  obtain ⟨hr, acts, hw⟩ := hf.of_done
  exact ⟨a, w₁, lines', acts, hp, hr, hw⟩

end Program.Runs

namespace Operation

open ConstantTable (code)
open Program (Runs)

variable {others : Action → Prop} {lines : List LogLine}

/-- A forwarded call is one exchange. -/
theorem exchange_of_forwarding {r : Except Failure c.Answer}
    (h : Runs b site others (forwarding o c) w r lines w') :
    ∃ reply, Exchange b site w c reply w' ∧ r = reply.mapError (.ofCall c) := by
  obtain ⟨acts, _, hcall⟩ := h.of_logWhen
  obtain ⟨reply, w₁, _, hx, hrest⟩ := hcall.of_call
  refine ⟨reply, ?_⟩
  cases reply with
  | error cause =>
    obtain ⟨hr, after, rfl⟩ := hrest.of_done
    exact ⟨(hx.followed after).preceded acts, hr⟩
  | ok answer =>
    obtain ⟨between, _, hdone⟩ := hrest.of_logWhen
    obtain ⟨hr, after, rfl⟩ := hdone.of_done
    exact ⟨((hx.followed between).followed after).preceded acts, hr⟩

/-- Reading an item is one exchange with its getter. -/
theorem exchange_of_reading {item : Item} {r : Except Failure Setting}
    (h : Runs b site others (reading o item) w r lines w') :
    ∃ reply, Exchange b site w item.getter reply w' ∧
      (∀ cause, reply = .error cause → r = .error (.ofCall item.getter cause)) ∧
      ∀ answer, reply = .ok answer →
        ∃ value, item.getter.setting? answer = some value ∧ r = .ok value := by
  revert h
  unfold reading Item.getter
  cases item.settingKind with
  | integer =>
    intro h
    obtain ⟨r', w₁, _, acts, hforward, rfl, rfl⟩ := h.of_map
    obtain ⟨reply, hx, rfl⟩ := exchange_of_forwarding hforward
    refine ⟨reply, hx.followed acts, ?_, ?_⟩
    · rintro cause rfl
      rfl
    · rintro n rfl
      exact ⟨.integer n, rfl, rfl⟩
  | text =>
    intro h
    obtain ⟨r', w₁, _, acts, hforward, rfl, rfl⟩ := h.of_map
    obtain ⟨reply, hx, rfl⟩ := exchange_of_forwarding hforward
    refine ⟨reply, hx.followed acts, ?_, ?_⟩
    · rintro cause rfl
      rfl
    · rintro t rfl
      exact ⟨.text t, rfl, rfl⟩

/-- An operation with one call is one exchange, and ends as the reply says. -/
theorem exchange_of_program {op : Operation} (hc : op.request? = some c)
    {r : Except Failure op.Answer} (h : Runs b site others (op.program o) w r lines w') :
    ∃ reply, Exchange b site w c reply w' ∧ Concludes op c r reply := by
  cases op with
  | forward c' =>
    obtain rfl : c' = c := Option.some.inj hc
    obtain ⟨reply, hx, rfl⟩ := exchange_of_forwarding h
    exact ⟨reply, hx, concludes_forwarded c' reply⟩
  | getProvisioned item =>
    obtain rfl : item.getter = c := Option.some.inj hc
    obtain ⟨reply, hx, herror, hok⟩ := exchange_of_reading h
    refine ⟨reply, hx, ?_⟩
    cases reply with
    | error cause => exact herror cause rfl
    | ok answer =>
      obtain ⟨value, hvalue, rfl⟩ := hok answer rfl
      exact .setting item answer value hvalue
  | getWfcMode =>
    obtain rfl : Call.getInteger .voiceOverWifiMode = c := Option.some.inj hc
    obtain ⟨_, w₁, _, acts, hforward, rfl, rfl⟩ := h.of_map
    obtain ⟨reply, hx, rfl⟩ := exchange_of_forwarding hforward
    refine ⟨reply, hx.followed acts, ?_⟩
    cases reply with
    | error cause => rfl
    | ok n => exact yields_wfcModeOf n
  | setWfcMode mode =>
    obtain rfl : Call.setInteger .voiceOverWifiMode (code mode) = c := Option.some.inj hc
    obtain ⟨reply, hx, rfl⟩ := exchange_of_forwarding h
    refine ⟨reply, hx, ?_⟩
    cases reply with
    | error cause => rfl
    | ok status => exact .modeSet mode status
  | snapshot => cases hc

/-- It was answered behind what was accepted before it, or it lapsed. -/
theorem answered_or_lapsed {op : Operation} (ho : Orderly b st w) (blocking : c.isBlocking)
    (hc : op.request? = some c) {r : Except Failure op.Answer}
    (h : Runs b site others (op.program o) w r lines w') :
    (∃ place answer, w.accepted.length ≤ place ∧ Answered b st w' place c answer ∧
      Yields op c answer r) ∨
    ∃ cause, Lapse b st w' site w.accepted.length c cause ∧ r = .error (.ofCall c cause) := by
  obtain ⟨reply, hx, hconcludes⟩ := exchange_of_program hc h
  cases reply with
  | error cause => exact .inr ⟨cause, hx.lapse ho blocking, hconcludes⟩
  | ok answer =>
    obtain ⟨place, hle, hanswered⟩ := hx.answered ho blocking
    exact .inl ⟨place, answer, hle, hanswered, hconcludes⟩

end Operation
end ImsProvisioning
