import Triage.Machine.Basic

namespace Triage.Machine

inductive Got
  | bytes (bs : Bytes)
  | atEnd
  | later
  | fault (e : OsError)

inductive Put
  | done
  | part (rest : Bytes)
  | later
  | broken
  | fault (e : OsError)

def setFile (m : Machine) (file : Nat) (f : OpenFile) : Machine :=
  { m with files := m.files.setIfInBounds file f }

def setPipe (m : Machine) (pipe : Nat) (p : Pipe) : Machine :=
  { m with pipes := m.pipes.setIfInBounds pipe p }

def contentAt (m : Machine) (l : Location) : Bytes :=
  match m.tree.get? l with
  | some (.file content) => content
  | _ => []

/-- Reads what is there; of it, `take` gives the part to be read. -/
def read (m : Machine) (file : Nat) (take : Bytes → Bytes) : Got × Machine :=
  match m.files[file]? with
  | none => (.fault .notFound, m)
  | some f =>
    match f.channel with
    | .file l =>
      let rest := (m.contentAt l).drop f.offset
      if rest.isEmpty then (.atEnd, m)
      else
        let bs := take rest
        (.bytes bs, m.setFile file { f with offset := f.offset + bs.length })
    | .readEnd pipe =>
      match m.pipes[pipe]? with
      | none => (.atEnd, m)
      | some p =>
        if p.size = 0 then (if m.hasWriter pipe then .later else .atEnd, m)
        else
          let content := p.content
          let bs := take content
          (.bytes bs, m.setPipe pipe (.ofContent (content.drop bs.length)))
    | .dir => (.fault .isDirectory, m)
    | _ => (.atEnd, m)

def overwrite (content : Bytes) (offset : Nat) (bs : Bytes) : Bytes :=
  let gap := List.replicate (offset - content.length) 0
  content.take offset ++ gap ++ bs ++ content.drop (offset + bs.length)

def write (m : Machine) (file : Nat) (bs : Bytes) : Put × Machine :=
  match m.files[file]? with
  | none => (.fault .notFound, m)
  | some f =>
    match f.channel with
    | .file l =>
      match m.tree.get? l with
      | some (.file content) =>
        let offset := if f.atEnd then content.length else f.offset
        let m := { m with tree := m.tree.set l (.file (overwrite content offset bs)) }
        (.done, m.setFile file { f with offset := offset + bs.length })
      | _ => (.done, m)
    | .device .null => (.done, m)
    | .device .full => (if bs.isEmpty then .done else .fault .noSpace, m)
    | .recorded child stream => (.done, m.record child stream bs)
    | .writeEnd pipe =>
      if !m.hasReader pipe then (.broken, m)
      else match m.pipes[pipe]? with
        | none => (.broken, m)
        | some p =>
          let room := Pipe.capacity - p.size
          if bs.length ≤ room then (.done, m.setPipe pipe (p.add bs))
          else if room = 0 || bs.length ≤ Pipe.whole then (.later, m)
          else (.part (bs.drop room), m.setPipe pipe (p.add (bs.take room)))
    | _ => (.fault .notFound, m)

def isReadable (m : Machine) (file : Nat) : Bool :=
  match m.files[file]? with
  | some ⟨.readEnd pipe, _, _⟩ =>
    match m.pipes[pipe]? with
    | some p => 0 < p.size || !m.hasWriter pipe
    | none => true
  | _ => true

/-- Whether some of `size` bytes could be written, all of them if they are not to be cut. -/
def isWritable (m : Machine) (file : Nat) (size : Nat) : Bool :=
  match m.files[file]? with
  | some ⟨.writeEnd pipe, _, _⟩ =>
    match m.pipes[pipe]? with
    | some p =>
      p.size + (if size ≤ Pipe.whole then size else 1) ≤ Pipe.capacity || !m.hasReader pipe
    | none => true
  | _ => true

def isAwake (m : Machine) : Wake → Bool
  | .at_ t => t ≤ m.now
  | .child pid => m.hasEnded pid
  | .children pids => pids.all m.hasEnded
  | .readable file => m.isReadable file
  | .writable file size => m.isWritable file size
  | .silent child => m.isSilent child
  | .never => false

end Triage.Machine
