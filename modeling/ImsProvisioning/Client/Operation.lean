import ImsProvisioning.Client.Program
import ImsProvisioning.Options
import ImsProvisioning.Snapshot.Basic

/-! # Accessor operations

An operation of the accessor either forwards one call or is built from forwarded
calls. A call that does not complete ends it with a failure that names the
method; nothing is tried again.
-/

namespace ImsProvisioning

inductive Operation where
  | forward (c : Call)
  | getProvisioned (item : Item)
  | getWfcMode
  | setWfcMode (mode : WfcMode)
  | snapshot
deriving DecidableEq, Repr

namespace Operation

@[reducible] def Answer : Operation → Type
  | .forward c => c.Answer
  | .getProvisioned _ => Setting
  | .getWfcMode => WfcMode
  | .setWfcMode _ => Status
  | .snapshot => Snapshot

def forwarding (o : Options) (c : Call) : Program (Except Failure c.Answer) :=
  .logWhen (o.debugLogging && c.isAnnounced) (.requested c) <|
    .call c fun
      | .error cause => .done (.error (.ofCall c cause))
      | .ok answer =>
        .logWhen (o.debugLogging && c.isBlocking) (.answered c answer) (.done (.ok answer))

def reading (o : Options) (item : Item) : Program (Except Failure Setting) :=
  match item.settingKind with
  | .integer => (forwarding o (.getInteger item)).map (Except.map Setting.integer)
  | .text => (forwarding o (.getText item)).map (Except.map Setting.text)

def readingAll (o : Options) : List Item → Snapshot → Program (Except Failure Snapshot)
  | [], s => .logWhen o.debugLogging (.snapshotRead s.size) (.done (.ok s))
  | item :: items, s =>
    (reading o item).bind fun
      | .error failure => .done (.error failure)
      | .ok value => readingAll o items (s.insert item value)

def wfcModeOf (value : Int32) : Except Failure WfcMode :=
  match ConstantTable.ofCode? WfcMode value with
  | some mode => .ok mode
  | none => .error (.invalidValue .voiceOverWifiMode value)

def program (o : Options) : (op : Operation) → Program (Except Failure op.Answer)
  | .forward c => forwarding o c
  | .getProvisioned item => reading o item
  | .getWfcMode => (forwarding o (.getInteger .voiceOverWifiMode)).map (·.bind wfcModeOf)
  | .setWfcMode mode =>
    forwarding o (.setInteger .voiceOverWifiMode (ConstantTable.code mode))
  | .snapshot => readingAll o Item.provisioned .empty

end Operation

def Options.creation (o : Options) : List LogLine :=
  if o.debugLogging then [.created] else []

end ImsProvisioning
