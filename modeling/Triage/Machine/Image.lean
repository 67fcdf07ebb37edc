import Triage.FileTree

namespace Triage.FileTree

def programs : List (String × Tool) :=
  [("sh", .shell), ("cat", .cat), ("sleep", .sleep), ("rm", .rm), ("tail", .tail),
    ("printf", .printf), ("echo", .echo), ("true", .true), ("false", .false)]

def programDirs : List Location := [["usr", "bin"], ["bin"]]

def image : FileTree :=
  ⟨[["bin"], ["dev"], ["tmp"], ["usr"], ["usr", "bin"]].map (·, Entry.dir) ++
    [(["dev", "null"], .device .null), (["dev", "full"], .device .full)] ++
    programDirs.flatMap fun dir => programs.map fun (name, tool) => (dir ++ [name], .program tool)⟩

end Triage.FileTree
