import ImsProvisioning.Session.Basic

/-! # Running a session

A host that has been started works off its queue within the step that fills it.
Callers that wait for a host that has not been started are resolved in the order
in which they called.
-/

namespace ImsProvisioning

def Call.value {σ : Type} : (c : Call) → c.Answer → StepValue σ
  | .getInteger _, n => .integer n
  | .getText _, s => .text s
  | .setInteger _ _, status => .status status
  | .setText _ _, status => .status status
  | .getVolte, on => .flag on
  | .getFeature _ _ _, () | .setFeature _ _ _ _, () | .getVideoQuality _, ()
  | .setVideoQuality _ _, () => .nothing

def Operation.value {σ : Type} : (op : Operation) → op.Answer → StepValue σ
  | .forward c, answer => c.value answer
  | .getProvisioned _, .integer n => .integer n
  | .getProvisioned _, .text s => .text s
  | .getWfcMode, mode => .mode mode
  | .setWfcMode _, status => .status status
  | .snapshot, s => .snapshot s

namespace Session

variable {σ : Type}

def operating (o : Options) (op : Operation) : Program (StepResult σ) :=
  (op.program o).map fun
    | .ok answer => .ok (op.value answer)
    | .error failure => .failed failure

def calling (c : Call) : Program (StepResult σ) :=
  .call c fun
    | .ok answer => .done (.ok (c.value answer))
    | .error cause => .done (.refused cause)

structure Turn (σ : Type) where
  result : StepResult σ
  lines : List LogLine
  session : Session σ

def Turn.silent (result : StepResult σ) (s : Session σ) : Turn σ := ⟨result, [], s⟩

/-- Runs a program over a service that keeps a ledger. -/
def runOver (service : Service σ) (p : Program (StepResult σ)) (l : Ledger σ) :
    StepResult σ × List LogLine × Ledger σ :=
  let r := p.run service l.state
  (r.result, r.trace.filterMap Program.Event.line?,
    ⟨r.state, l.calls ++ r.trace.filterMap Program.Event.call?,
      l.deliveries ++ r.trace.filterMap Program.Event.delivery?⟩)

/-- Lets a caller do its program; over a channel the caller may be left waiting. -/
def request (b : Backend σ) (index : Nat) (site : Site) (p : Program (StepResult σ))
    (s : Session σ) : Turn σ :=
  match s.link with
  | .direct l =>
    let (result, lines, l) := runOver b.service p l
    ⟨result, lines, { s with link := .direct l }⟩
  | .shared l =>
    let (result, lines, l) := runOver b.service.shared p l
    ⟨result, lines, { s with link := .shared l }⟩
  | .channel ch =>
    let d := p.drive b site ch
    match d.progress with
    | .finished result => ⟨result, d.lines, { s with link := .channel d.channel }⟩
    | .waiting c ticket next =>
      ⟨.pending, [],
        { s with
          link := .channel d.channel
          pending := s.pending ++ [⟨index, site, c, ticket, d.lines, next⟩] }⟩

/-- An unstarted host would keep an operation of many blocking calls waiting for ever. -/
def wouldBlock (site : Site) (op : Operation) (s : Session σ) : Bool :=
  match s.link with
  | .channel ch => op = .snapshot && ch.phase = .unstarted && site ≠ .currentThread
  | _ => false

def channelTurn (b : Backend σ) (step : Step σ) (ch : Channel σ) (s : Session σ) : Turn σ :=
  match step with
  | .start =>
    if ch.phase = .unstarted then
      let ch := ch.start.settle b
      .silent (.ok (.text (if ch.isConnected then "running" else "stopped")))
        { s with link := .channel ch }
    else .silent .badState s
  | .dropHost =>
    if ch.phase = .unstarted then .silent (.ok .nothing) { s with link := .channel ch.close }
    else .silent .badState s
  | .shutdown =>
    match ch.shutdown with
    | (.ok (), ch) => .silent (.ok .nothing) { s with link := .channel (ch.settle b) }
    | (.error cause, ch) => .silent (.refused cause) { s with link := .channel ch }
  | .isConnected => .silent (.ok (.flag ch.isConnected)) s
  | .describeHandle => .silent (.ok (.text ch.outline.inline)) s
  | _ => .silent .noTransport s

/-- Gives up the accessor; a host that no handle is left for stops. -/
def release (b : Backend σ) (s : Session σ) : Session σ :=
  match s.link with
  | .channel ch => { s with released := true, link := .channel (ch.release.settle b) }
  | _ => { s with released := true }

def turn (b : Backend σ) (index : Nat) (step : Step σ) (s : Session σ) : Turn σ :=
  match step.isAboutChannel, s.link with
  | true, .channel ch =>
    if s.released && !step.outlivesAccessor then .silent .released s
    else channelTurn b step ch s
  | true, _ => .silent .noTransport s
  | false, _ =>
    if s.released && !step.outlivesAccessor then .silent .released s
    else
      match step with
      | .operate _ (.error e) | .call _ (.error e) => .silent (.badConstant e) s
      | .operate site (.ok op) =>
        if s.wouldBlock site op then .silent .wouldBlock s
        else s.request b index site (operating s.options op)
      | .call site (.ok c) => s.request b index site (calling c)
      | .release => .silent (.ok .nothing) (s.release b)
      | .context => .silent (.ok (.text s.context)) s
      | .options => .silent (.ok (.flag s.options.debugLogging)) s
      | .describe multiline => .silent (.ok (.text (s.outline.render multiline))) s
      | .edit change =>
        let l := s.link.ledger
        let (e, st) := change l.state
        .silent (match e with | some e => .badConstant e | none => .ok .nothing)
          { s with link := s.link.withLedger { l with state := st } }
      | _ => .silent (.ok (.state s.link.ledger.state)) s

/-- Lets every waiting caller go on whose receipt has come. -/
def resolve (b : Backend σ) :
    List (Pending σ) → Channel σ → List (Resolved σ) × List (Pending σ) × Channel σ
  | [], ch => ([], [], ch)
  | p :: ps, ch =>
    match ch.receipt? p.ticket p.call with
    | none =>
      let (done, left, ch) := resolve b ps ch
      (done, p :: left, ch)
    | some result =>
      let d := (p.next result).drive b p.site ch
      let (done, left, ch) := resolve b ps d.channel
      match d.progress with
      | .finished result => (⟨p.step, result, p.lines ++ d.lines⟩ :: done, left, ch)
      | .waiting c ticket next =>
        (done, ⟨p.step, p.site, c, ticket, p.lines ++ d.lines, next⟩ :: left, ch)

def resolveAll (b : Backend σ) (s : Session σ) : List (Resolved σ) × Session σ :=
  match s.link with
  | .channel ch =>
    let (done, left, ch) := resolve b s.pending ch
    (done, { s with link := .channel ch, pending := left })
  | _ => ([], s)

def entry {ρ : Type} (result : ρ) (lines : List LogLine) (resolved : List (Resolved σ))
    (before after : Session σ) : Entry σ ρ where
  result := result
  calls := after.link.ledger.calls.drop before.link.ledger.calls.length
  deliveries := after.link.ledger.deliveries.drop before.link.ledger.deliveries.length
  resolved := resolved
  lines := lines
  hostLines := after.link.hostLog.drop before.link.hostLog.length

def step (b : Backend σ) (index : Nat) (st : Step σ) (s : Session σ) :
    Entry σ (StepResult σ) × Session σ :=
  let t := s.turn b index st
  let (resolved, after) := t.session.resolveAll b
  (entry t.result t.lines resolved s after, after)

def steps (b : Backend σ) : Nat → List (Step σ) → Session σ →
    List (Entry σ (StepResult σ)) × Session σ
  | _, [], s => ([], s)
  | index, st :: sts, s =>
    let (e, s) := s.step b index st
    let (es, s) := steps b (index + 1) sts s
    (e :: es, s)

/-- Gives up what the session still holds: the accessor, and a host that was never started. -/
def finish (b : Backend σ) (s : Session σ) : Entry σ σ × Session σ :=
  let released : Session σ := if s.released then s else s.release b
  let dropped : Session σ :=
    match released.link with
    | .channel ch =>
      if ch.phase = .unstarted then { released with link := .channel ch.close } else released
    | _ => released
  let (resolved, after) := dropped.resolveAll b
  (entry after.link.ledger.state [] resolved s after, after)

structure Transcript (σ : Type) where
  created : Entry σ Unit
  steps : List (Entry σ (StepResult σ))
  ending : Entry σ σ

/-- A whole session, from making the accessor to giving everything up. -/
def transcript (b : Backend σ) (o : Options) (context : String) (link : Link σ)
    (sts : List (Step σ)) : Transcript σ :=
  let s : Session σ := ⟨o, context, link, false, []⟩
  let (es, last) := steps b 0 sts s
  ⟨entry () o.creation [] s s, es, (last.finish b).1⟩

end Session
end ImsProvisioning
