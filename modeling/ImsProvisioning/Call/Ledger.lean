import ImsProvisioning.Call.Service

/-! # Ledgers

A backend's state together with the calls it has taken and the reports it has
made, both in order.
-/

namespace ImsProvisioning

structure Ledger (σ : Type) where
  state : σ
  calls : List Call
  deliveries : List Delivery

namespace Ledger

variable {σ : Type}

def fresh (state : σ) : Ledger σ := ⟨state, [], []⟩

def outcome (b : Backend σ) (c : Call) (l : Ledger σ) : Outcome c := (b c l.state).outcome

def serve (b : Backend σ) (c : Call) (l : Ledger σ) : Ledger σ :=
  let reaction := b c l.state
  ⟨reaction.state, l.calls ++ [c], l.deliveries ++ reaction.deliveries⟩

def serveAll (b : Backend σ) (cs : List Call) (l : Ledger σ) : Ledger σ :=
  cs.foldl (fun l c => l.serve b c) l

@[simp] theorem serveAll_nil (b : Backend σ) (l : Ledger σ) : l.serveAll b [] = l := rfl

theorem serveAll_append (b : Backend σ) (cs ds : List Call) (l : Ledger σ) :
    l.serveAll b (cs ++ ds) = (l.serveAll b cs).serveAll b ds := List.foldl_append

theorem serveAll_concat (b : Backend σ) (cs : List Call) (c : Call) (l : Ledger σ) :
    l.serveAll b (cs ++ [c]) = (l.serveAll b cs).serve b c := serveAll_append b cs [c] l

end Ledger
end ImsProvisioning
