import ImsProvisioning.Proofs.Traffic.Order

/-! # Receipts

No two receipts bear the same ticket, so a caller that looks its ticket up finds the
result of its own call: the result of the sequential run if the call was served, no
reply if it will never be, and nothing yet otherwise.
-/

namespace ImsProvisioning
namespace Channel

variable {σ : Type} {ch : Channel σ} {ticket : Nat} {c : Call}

theorem receipt?_eq_some {result : Except CallError c.Answer}
    (nodup : (ch.receipts.map Receipt.ticket).Nodup)
    (h : ⟨ticket, c, result⟩ ∈ ch.receipts) : ch.receipt? ticket c = some result := by
  unfold receipt?
  generalize ch.receipts = rs at nodup h
  induction rs with
  | nil => simp at h
  | cons r rs ih =>
    rw [List.map_cons, List.nodup_cons] at nodup
    rw [List.findSome?_cons]
    rcases List.mem_cons.1 h with rfl | hm
    · simp
    · have hne : r.ticket ≠ ticket := by
        rintro rfl
        exact nodup.1 (List.mem_map.2 ⟨_, hm, rfl⟩)
      rw [dif_neg fun hr => hne hr.1]
      exact ih nodup.2 hm

theorem receipt?_eq_none (h : ∀ r ∈ ch.receipts, r.ticket ≠ ticket) :
    ch.receipt? ticket c = none := by
  rw [receipt?, List.findSome?_eq_none_iff]
  intro r hr
  exact dif_neg fun hc => h r hr hc.1

end Channel

namespace Traffic

variable {σ : Type} {b : Backend σ} {st : σ} {w : Traffic σ}

theorem unserved_ticket (w : Traffic σ) :
    w.unserved.map Queued.ticket =
      List.range' w.served.length (w.accepted.length - w.served.length) := by
  apply List.ext_getElem
  · simp [unserved]
  · intro i _ _
    simp [unserved]

theorem dropped_sublist (qs : List Queued) :
    ((qs.filterMap Queued.dropped).map Receipt.ticket).Sublist (qs.map Queued.ticket) := by
  induction qs with
  | nil => simp
  | cons q qs ih =>
    rw [List.filterMap_cons, List.map_cons]
    obtain ⟨ticket, _ | _⟩ := q
    · rename_i c
      by_cases hc : c.isBlocking
      · simpa [Queued.dropped, hc] using ih
      · simpa [Queued.dropped, hc] using ih.cons ticket
    · simpa [Queued.dropped] using ih.cons ticket

/-- The receipts of the served calls and of commands dropped behind them are all different. -/
theorem ticket_nodup (b : Backend σ) (st : σ) {qs : List Queued} (h : qs.Sublist w.unserved) :
    (((w.accounts b st).flatMap Account.receipts ++ qs.filterMap Queued.dropped).map
      Receipt.ticket).Nodup := by
  have hdropped := (dropped_sublist qs).trans (h.map Queued.ticket)
  have hsub := (Account.receipts_sublist (w.accounts b st)).append hdropped
  rw [accounts, Ledger.accounts_place, unserved_ticket] at hsub
  rw [List.map_append]
  apply hsub.nodup
  rw [List.nodup_append]
  refine ⟨List.nodup_range', List.nodup_range', ?_⟩
  intro i hi j hj
  rw [List.mem_range'_1] at hi hj
  omega

/-- Every command has at most one receipt. -/
theorem Orderly.receipts_nodup (h : Orderly b st w) :
    (w.channel.receipts.map Receipt.ticket).Nodup := by
  rw [h.receipts, lost]
  split
  · exact ticket_nodup b st (List.Sublist.refl _)
  · exact ticket_nodup b st (List.nil_sublist _)

theorem mem_unserved {q : Queued} :
    q ∈ w.unserved ↔
      w.served.length ≤ q.ticket ∧ w.accepted[q.ticket]? = some q.command := by
  rw [unserved, List.mem_iff_getElem?]
  constructor
  · rintro ⟨i, hi⟩
    rw [List.getElem?_drop, List.getElem?_mapIdx] at hi
    obtain ⟨command, hc, rfl⟩ := Option.map_eq_some_iff.1 hi
    exact ⟨Nat.le_add_right _ _, hc⟩
  · rintro ⟨hle, hc⟩
    refine ⟨q.ticket - w.served.length, ?_⟩
    rw [List.getElem?_drop, List.getElem?_mapIdx, Nat.add_sub_cancel' hle, hc]
    rfl

theorem Orderly.receipt?_of_served (h : Orderly b st w) {ticket : Nat} {c : Call}
    (hc : w.served[ticket]? = some c) (blocking : c.isBlocking) :
    w.channel.receipt? ticket c =
      some ((Ledger.fresh st).outcomeAfter b (w.served.take ticket) c).result := by
  apply Channel.receipt?_eq_some h.receipts_nodup
  rw [h.receipts, List.mem_append, List.mem_flatMap]
  refine .inl ⟨⟨ticket, c, (Ledger.fresh st).outcomeAfter b (w.served.take ticket) c⟩, ?_, ?_⟩
  · exact Ledger.mem_accounts.2 ⟨ticket, c, hc, by rw [Nat.zero_add]⟩
  · simp [Account.receipts, Channel.receiptsOf, blocking]

theorem Orderly.receipt?_of_lost (h : Orderly b st w) {ticket : Nat} {c : Call}
    (unserved : w.served.length ≤ ticket) (hc : w.accepted[ticket]? = some (.call c))
    (blocking : c.isBlocking) (ended : w.channel.phase = .ended) :
    w.channel.receipt? ticket c = some (.error .noReply) := by
  apply Channel.receipt?_eq_some h.receipts_nodup
  rw [h.receipts, List.mem_append, lost, if_pos ended, List.mem_filterMap]
  refine .inr ⟨⟨ticket, .call c⟩, mem_unserved.2 ⟨unserved, hc⟩, ?_⟩
  simp [Queued.dropped, blocking]

theorem Orderly.receipt?_of_waiting (h : Orderly b st w) {ticket : Nat} {c : Call}
    (unserved : w.served.length ≤ ticket) (connected : w.channel.phase ≠ .ended) :
    w.channel.receipt? ticket c = none := by
  apply Channel.receipt?_eq_none
  intro r hr
  rw [h.receipts, lost, if_neg connected, List.append_nil] at hr
  have hp := (Account.receipts_sublist (w.accounts b st)).subset (List.mem_map_of_mem hr)
  rw [accounts, Ledger.accounts_place, List.mem_range'_1] at hp
  omega

/-- What was accepted and never served stands behind a shutdown, or the host never ran. -/
theorem Orderly.reason_of_dropped (h : Orderly b st w) {place : Nat} {c : Call}
    (accepted : w.accepted[place]? = some (.call c)) (unserved : w.served.length ≤ place)
    (ended : w.channel.phase = .ended) :
    .shutdown ∈ w.accepted.take place ∨ .started ∉ w.channel.log := by
  cases h.stage with
  | dropped _ _ log => exact .inr (by simp [log])
  | shutDown ticket rest _ queue =>
    left
    have hc := (accepted_of_unserved queue).2
    have hne : w.served.length ≠ place := by
      intro he
      rw [he, accepted] at hc
      simp at hc
    have hlt : w.served.length < place := Nat.lt_of_le_of_ne unserved hne
    rw [← List.getElem?_take_of_lt hlt] at hc
    exact List.mem_of_getElem? hc
  | abandoned _ empty =>
    have hmem : ⟨place, .call c⟩ ∈ w.unserved := mem_unserved.2 ⟨unserved, accepted⟩
    simp [empty] at hmem
  | _ => simp_all

theorem Orderly.queue_sublist (h : Orderly b st w) (connected : w.channel.phase ≠ .ended) :
    w.channel.queue.Sublist w.unserved := by
  cases h.stage with
  | unstarted _ _ queue | idle _ queue => exact queue ▸ List.Sublist.refl _
  | serving _ _ _ queue | leavingShutdown _ _ queue =>
    rw [queue]
    exact List.sublist_cons_self _ _
  | leavingAlone _ _ queue =>
    rw [queue]
    exact List.nil_sublist _
  | dropped phase | shutDown _ _ phase | abandoned phase => exact absurd phase connected

/-- Whenever a channel ends, the callers that wait in its queue hear that there is no reply. -/
theorem Orderly.receipt?_of_close (h : Orderly b st w) (connected : w.channel.phase ≠ .ended)
    {place : Nat} {c : Call} (queued : ⟨place, .call c⟩ ∈ w.channel.queue)
    (blocking : c.isBlocking) :
    w.channel.close.receipt? place c = some (.error .noReply) := by
  have hreceipts : w.channel.close.receipts =
      (w.accounts b st).flatMap Account.receipts ++ w.channel.queue.filterMap Queued.dropped := by
    have hlost : w.lost = [] := if_neg connected
    have hr := h.receipts
    rw [hlost, List.append_nil] at hr
    exact congrArg (· ++ _) hr
  apply Channel.receipt?_eq_some
  · rw [hreceipts]
    exact ticket_nodup b st (h.queue_sublist connected)
  · rw [hreceipts, List.mem_append, List.mem_filterMap]
    exact .inr ⟨_, queued, by simp [Queued.dropped, blocking]⟩

end Traffic
end ImsProvisioning
