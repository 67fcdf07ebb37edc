import Triage.FileTree

/-!
Writing whole texts to a storage that may refuse any step.  What is written is held back until a
block is full, so a fault can show as late as the last step, the flush.
-/

namespace Triage

/-- A storage with states `σ`: making a file, and writing to the end of one that was made. -/
structure Storage (σ η : Type) where
  create : String → σ → Except OsError η × σ
  write : η → Bytes → σ → Except OsError Unit × σ

namespace Storage

/-- How many bytes are held back. -/
def blockSize : Nat := 8192

variable {σ η : Type} (st : Storage σ η)

/-- Writes `bytes` behind those that are held back: they go out together once they fill a block. -/
def put (file : η) (held bytes : Bytes) (s : σ) : Except OsError Bytes × σ :=
  let all := held ++ bytes
  if all.length ≤ blockSize then (.ok all, s)
  else match st.write file all s with
    | (.ok (), s) => (.ok [], s)
    | (.error e, s) => (.error e, s)

def flush (file : η) (held : Bytes) (s : σ) : Except OsError Unit × σ :=
  if held.isEmpty then (.ok (), s) else st.write file held s

end Storage

def FileTree.storage (here : Location) : Storage FileTree FileTree.Target where
  create path t :=
    match t.openForWriting here path true with
    | .ok (target, t) => (.ok target, t)
    | .error e => (.error e, t)
  write target bytes t := t.append target bytes

end Triage
