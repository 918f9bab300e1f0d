import ImsProvisioning.Channel.Basic

/-! # Accounts of service

The sequential run of some calls on a backend: one call after the other, with the
place, the outcome, the receipt and the host lines of each. Receipts and lines of a
channel are compared with those of such a run.
-/

namespace ImsProvisioning

/-- A call that was served, its place in the order of service and how it ended. -/
structure Account where
  place : Nat
  call : Call
  outcome : Outcome call

namespace Account

def receipts (a : Account) : List Receipt := Channel.receiptsOf a.place a.call a.outcome

def lines (a : Account) : List HostLine := Channel.linesOf a.call a.outcome

theorem receipts_sublist (as : List Account) :
    ((as.flatMap receipts).map Receipt.ticket).Sublist (as.map place) := by
  induction as with
  | nil => simp
  | cons a as ih =>
    rw [List.flatMap_cons, List.map_append, List.map_cons]
    by_cases h : a.call.isBlocking
    · simpa [receipts, Channel.receiptsOf, h] using ih
    · simpa [receipts, Channel.receiptsOf, h] using ih.cons a.place

end Account

namespace Ledger

variable {σ : Type}

def accounts (b : Backend σ) : Nat → List Call → Ledger σ → List Account
  | _, [], _ => []
  | place, c :: cs, l => ⟨place, c, l.outcome b c⟩ :: accounts b (place + 1) cs (l.serve b c)

def outcomeAfter (b : Backend σ) (cs : List Call) (c : Call) (l : Ledger σ) : Outcome c :=
  (l.serveAll b cs).outcome b c

theorem accounts_append (b : Backend σ) (place : Nat) (cs ds : List Call) (l : Ledger σ) :
    l.accounts b place (cs ++ ds) =
      l.accounts b place cs ++ (l.serveAll b cs).accounts b (place + cs.length) ds := by
  induction cs generalizing place l with
  | nil => rfl
  | cons c cs ih =>
    have hplace : place + 1 + cs.length = place + (c :: cs).length := by
      simp only [List.length_cons]
      omega
    rw [List.cons_append, accounts, accounts, ih, hplace]
    rfl

theorem accounts_concat (b : Backend σ) (place : Nat) (cs : List Call) (c : Call)
    (l : Ledger σ) :
    l.accounts b place (cs ++ [c]) =
      l.accounts b place cs ++ [⟨place + cs.length, c, l.outcomeAfter b cs c⟩] :=
  accounts_append b place cs [c] l

theorem accounts_place (b : Backend σ) (place : Nat) (cs : List Call) (l : Ledger σ) :
    (l.accounts b place cs).map Account.place = List.range' place cs.length := by
  induction cs generalizing place l with
  | nil => rfl
  | cons c cs ih => simp [accounts, ih, List.range'_succ]

theorem accounts_getElem? (b : Backend σ) (place : Nat) (cs : List Call) (l : Ledger σ)
    (i : Nat) :
    (l.accounts b place cs)[i]? =
      cs[i]?.map fun c => ⟨place + i, c, l.outcomeAfter b (cs.take i) c⟩ := by
  induction cs generalizing place l i with
  | nil => rfl
  | cons d cs ih =>
    cases i with
    | zero => rfl
    | succ i =>
      rw [accounts, List.getElem?_cons_succ, List.getElem?_cons_succ, ih, Nat.add_right_comm,
        Nat.add_assoc]
      rfl

theorem mem_accounts {b : Backend σ} {place : Nat} {cs : List Call} {l : Ledger σ}
    {a : Account} :
    a ∈ l.accounts b place cs ↔
      ∃ i c, cs[i]? = some c ∧ a = ⟨place + i, c, l.outcomeAfter b (cs.take i) c⟩ := by
  simp only [List.mem_iff_getElem?, accounts_getElem?, Option.map_eq_some_iff, @eq_comm _ a]

end Ledger
end ImsProvisioning
