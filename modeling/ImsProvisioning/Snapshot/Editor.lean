import ImsProvisioning.Encoding.Snapshot

/-! # Editing snapshots

An editor holds a snapshot that is filled and replaced, and a mark it can be
compared with. Whatever goes wrong leaves both as they are.
-/

namespace ImsProvisioning

structure Editor where
  current : Snapshot
  mark : Snapshot

inductive EditorStep where
  | insert (item : Except ConstantError Item) (value : Setting)
  | get (item : Except ConstantError Item)
  | show
  | decode (strategy : Strategy) (text : String)
  | mark
  | isMarked

inductive EditorResult where
  | inserted (old : Option Setting) (size : Nat)
  | setting (value : Option Setting)
  | shown (s : Snapshot)
  | decoded (size : Nat)
  | marked
  | compared (same : Bool)
  | badConstant (e : ConstantError)
  | badText (e : DecodeError)

namespace Editor

def fresh : Editor := ⟨.empty, .empty⟩

def step (ed : Editor) : EditorStep → EditorResult × Editor
  | .insert (.error e) _ | .get (.error e) => (.badConstant e, ed)
  | .insert (.ok item) value =>
    let s := ed.current.insert item value
    (.inserted (ed.current.get? item) s.size, { ed with current := s })
  | .get (.ok item) => (.setting (ed.current.get? item), ed)
  | .show => (.shown ed.current, ed)
  | .decode strategy text =>
    match ImsProvisioning.decode strategy text with
    | .ok s => (.decoded s.size, { ed with current := s })
    | .error e => (.badText e, ed)
  | .mark => (.marked, { ed with mark := ed.current })
  | .isMarked => (.compared (ed.current = ed.mark), ed)

def steps : List EditorStep → Editor → List EditorResult × Editor
  | [], ed => ([], ed)
  | st :: sts, ed =>
    let (r, ed) := ed.step st
    let (rs, ed) := steps sts ed
    (r :: rs, ed)

end Editor
end ImsProvisioning
