import Mathlib.Data.List.Induction
import Triage.Machine.Launch
import Triage.Proofs.Command.Environment
import Triage.Proofs.Lists

set_option autoImplicit true

namespace Triage

namespace Environment

def Ordered (env : Environment) : Prop := env.Pairwise fun x y => x.1 < y.1

theorem mem_put {env : Environment} (h : x ∈ env.put name value) :
    x = (name, value) ∨ x ∈ env := by
  induction env with
  | nil => exact .inl (List.mem_singleton.mp h)
  | cons y env ih =>
    simp only [put] at h
    split at h
    · exact List.mem_cons.mp h
    split at h
    · exact (List.mem_cons.mp h).imp_right (List.mem_cons_of_mem y)
    · rcases List.mem_cons.mp h with rfl | h
      · exact .inr List.mem_cons_self
      · exact (ih h).imp_right (List.mem_cons_of_mem y)

theorem Ordered.put {env : Environment} (h : env.Ordered) (name value : String) :
    (env.put name value).Ordered := by
  induction env with
  | nil => exact List.pairwise_singleton _ _
  | cons y env ih =>
    obtain ⟨hy, he⟩ := List.pairwise_cons.mp h
    simp only [Environment.put]
    split
    next hl =>
      refine List.pairwise_cons.mpr ⟨fun x hx => ?_, h⟩
      rcases List.mem_cons.mp hx with rfl | hx
      · exact hl
      · exact String.lt_trans hl (hy x hx)
    split
    next hn => exact List.pairwise_cons.mpr ⟨fun x hx => hn ▸ hy x hx, he⟩
    next hl hn =>
      refine List.pairwise_cons.mpr ⟨fun x hx => ?_, ih he⟩
      rcases mem_put hx with rfl | hx
      · exact Std.lt_of_le_of_ne (String.not_lt.mp hl) (Ne.symm hn)
      · exact hy x hx

theorem Ordered.overlay {base : Environment} (h : base.Ordered) (top : Environment) :
    (base.overlay top).Ordered := by
  induction top generalizing base with
  | nil => exact h
  | cons x top ih => exact ih (h.put x.1 x.2)

theorem overlay_append (base a b : Environment) :
    base.overlay (a ++ b) = (base.overlay a).overlay b := List.foldl_append

theorem lookup_overlay (base top : Environment) (name : String) :
    (base.overlay top).lookup name = (top.reverse.lookup name).or (base.lookup name) := by
  induction top using List.reverseRecOn with
  | nil => rfl
  | append_singleton top x ih =>
    have hs : base.overlay (top ++ [x]) = (base.overlay top).put x.1 x.2 :=
      overlay_append base top [x]
    rw [hs, List.reverse_concat]
    by_cases hx : name = x.1
    · rw [hx, lookup_put, List.lookup_cons, beq_self_eq_true]
      rfl
    · rw [lookup_put_of_ne hx, ih, List.lookup_cons, beq_false_of_ne hx]

theorem Ordered.lookup_reverse {env : Environment} (h : env.Ordered) (name : String) :
    env.reverse.lookup name = env.lookup name := by
  induction env with
  | nil => rfl
  | cons x env ih =>
    obtain ⟨hx, he⟩ := List.pairwise_cons.mp h
    rw [List.reverse_cons, List.lookup_append, ih he, List.lookup_cons]
    by_cases hn : name = x.1
    · have hl : env.lookup name = none := by
        rw [List.lookup_eq_none_iff]
        intro y hy
        rw [bne_iff_ne, hn]
        exact fun he => String.lt_irrefl x.1 (he.symm ▸ hx y hy)
      rw [hl, hn, List.lookup_cons, beq_self_eq_true]
      rfl
    · rw [List.lookup_cons, beq_false_of_ne hn]
      exact Option.or_none

end Environment

namespace Command

/-- What can be said about a command before it is launched. -/
inductive Call
  | arg (a : String)
  | args (as : List String)
  | inDir (path : String)
  | var (name value : String)
  | searchDir (name dir : String)
  | timeout (t : Option Duration)
  | capture (mode : Capture)

namespace Call

def apply (c : Command) : Call → Command
  | arg a => c.withArg a
  | args as => c.withArgs as
  | inDir path => c.inDir path
  | var name value => c.withVar name value
  | searchDir name dir => c.withSearchDir name dir
  | timeout t => c.withTimeout t
  | capture mode => c.withCapture mode

def added : Call → List String
  | arg a => [a]
  | args as => as
  | _ => []

def var? : Call → Option (String × String)
  | var name value => some (name, value)
  | _ => none

def searchDir? : Call → Option (String × String)
  | searchDir name dir => some (name, dir)
  | _ => none

end Call

def ofCalls (program : String) (calls : List Call) : Command := calls.foldl Call.apply { program }

def lastValue? (calls : List Call) (name : String) : Option String :=
  (calls.filterMap Call.var?).reverse.lookup name

def searched (calls : List Call) : List String := (calls.filterMap Call.searchDir?).map Prod.snd

/-- Every call for a directory is about the same variable, and there is one. -/
structure SearchesOnly (calls : List Call) (name : String) : Prop where
  same : ∀ x ∈ calls.filterMap Call.searchDir?, x.1 = name
  ne_nil : calls.filterMap Call.searchDir? ≠ []

def dirsFor (c : Command) (name : String) : List String :=
  match c.searchPath with
  | some (n, dirs) => if n = name then dirs else []
  | none => []

theorem dirsFor_eq {c : Command} {dirs : List String}
    (h : c.searchPath = if dirs = [] then none else some (name, dirs)) : dirsFor c name = dirs := by
  rw [dirsFor, h]
  by_cases hd : dirs = []
  · rw [if_pos hd, hd]
  · rw [if_neg hd]
    exact if_pos rfl

theorem withSearchDir_eq (c : Command) (name dir : String) : c.withSearchDir name dir =
    { c with searchPath := some (name, dirsFor c name ++ [dir]) } := by
  unfold withSearchDir dirsFor
  cases c.searchPath with
  | none => rfl
  | some x => by_cases hx : x.1 = name <;> simp [hx]

theorem ofCalls_snoc (program : String) (calls : List Call) (x : Call) :
    ofCalls program (calls ++ [x]) = x.apply (ofCalls program calls) := List.foldl_concat ..

theorem args_apply (c : Command) (x : Call) : (x.apply c).args = c.args ++ x.added := by
  cases x with
  | arg | args => rfl
  | searchDir name dir =>
    rw [Call.apply, withSearchDir_eq]
    exact (List.append_nil _).symm
  | _ => exact (List.append_nil _).symm

theorem env_apply (c : Command) (x : Call) :
    (x.apply c).env = c.env.overlay x.var?.toList := by
  cases x with
  | searchDir name dir =>
    rw [Call.apply, withSearchDir_eq]
    rfl
  | _ => rfl

theorem searchPath_apply (c : Command) (x : Call) : (x.apply c).searchPath =
    match x.searchDir? with
    | none => c.searchPath
    | some (name, dir) => some (name, dirsFor c name ++ [dir]) := by
  cases x with
  | searchDir name dir =>
    rw [Call.apply, withSearchDir_eq]
    rfl
  | _ => rfl

theorem args_ofCalls (program : String) (calls : List Call) :
    (ofCalls program calls).args = calls.flatMap Call.added := by
  induction calls using List.reverseRecOn with
  | nil => rfl
  | append_singleton calls x ih =>
    rw [ofCalls_snoc, args_apply, ih, List.flatMap_append, List.flatMap_singleton]

theorem env_ofCalls (program : String) (calls : List Call) :
    (ofCalls program calls).env = Environment.overlay [] (calls.filterMap Call.var?) := by
  induction calls using List.reverseRecOn with
  | nil => rfl
  | append_singleton calls x ih =>
    rw [ofCalls_snoc, env_apply, ih, filterMap_snoc, Environment.overlay_append]

theorem searchPath_ofCalls (program : String) {calls : List Call}
    (h : ∀ x ∈ calls.filterMap Call.searchDir?, x.1 = name) :
    (ofCalls program calls).searchPath =
      if searched calls = [] then none else some (name, searched calls) := by
  induction calls using List.reverseRecOn with
  | nil => rfl
  | append_singleton calls x ih =>
    rw [filterMap_snoc] at h
    have ih := ih fun y hy => h y (List.mem_append_left _ hy)
    have hs : searched (calls ++ [x]) = searched calls ++ x.searchDir?.toList.map Prod.snd := by
      rw [searched, filterMap_snoc, List.map_append, searched]
    rw [ofCalls_snoc, searchPath_apply, hs]
    -- A call for another variable would drop the directories that there are.
    cases hx : x.searchDir? with
    | none => rwa [Option.toList_none, List.map_nil, List.append_nil]
    | some y =>
      obtain ⟨n, dir⟩ := y
      obtain rfl : n = name := h (n, dir) (List.mem_append_right _ (hx ▸ List.mem_cons_self))
      dsimp only
      rw [dirsFor_eq ih]
      exact (if_neg (List.concat_ne_nil dir (searched calls))).symm

theorem environment_congr {calls calls' : List Call}
    (hn : ∀ x ∈ calls.filterMap Call.searchDir?, x.1 = name)
    (hv : calls'.filterMap Call.var? = calls.filterMap Call.var?)
    (hs : calls'.filterMap Call.searchDir? = calls.filterMap Call.searchDir?)
    (program : String) (inherited : Environment) :
    (ofCalls program calls').environment inherited =
      (ofCalls program calls).environment inherited := by
  have he : searched calls' = searched calls := congrArg (List.map Prod.snd) hs
  simp only [environment, env_ofCalls, hv, searchPath_ofCalls program hn,
    searchPath_ofCalls program (hs ▸ hn), he]

theorem lookup_overlay_ofCalls (program : String) (calls : List Call) (inherited : Environment)
    (name : String) : (inherited.overlay (ofCalls program calls).env).lookup name =
      (lastValue? calls name).or (inherited.lookup name) := by
  have ho : (ofCalls program calls).env.Ordered := by
    rw [env_ofCalls]
    exact Environment.Ordered.overlay List.Pairwise.nil _
  rw [Environment.lookup_overlay, ho.lookup_reverse, env_ofCalls, Environment.lookup_overlay]
  exact congrArg (Option.or · _) Option.or_none

/-- The arguments of a command are those that it was given, in order.  It can be launched unless the
separator is in one of the directories for its search path; then nothing happens on the machine.
Otherwise the directories stand first in the variable that they are for, in order, and what follows
are the entries of its last value, or of the inherited one, that are not empty; each other variable
has its last value, or the inherited one.  It does not matter how calls for variables and calls for
directories are mixed. -/
theorem environment_of_calls (program : String) {calls : List Call} {name : String}
    (h : SearchesOnly calls name) (inherited : Environment) :
    (ofCalls program calls).args = calls.flatMap Call.added ∧
    (if ∃ d ∈ searched calls, SearchPath.separator ∈ d.toList then
      (ofCalls program calls).environment inherited = .error .separatorInside ∧
        ∀ here m, Machine.launch here inherited (ofCalls program calls) m =
          (.error (.searchPath .separatorInside), m)
    else ∃ env, (ofCalls program calls).environment inherited = .ok env ∧
      (∃ value, env.lookup name = some value ∧ SearchPath.entries value = searched calls ++
        SearchPath.kept ((lastValue? calls name).or (inherited.lookup name))) ∧
      ∀ other, other ≠ name →
        env.lookup other = (lastValue? calls other).or (inherited.lookup other)) ∧
    ∀ calls', calls'.filterMap Call.var? = calls.filterMap Call.var? →
      calls'.filterMap Call.searchDir? = calls.filterMap Call.searchDir? →
      (ofCalls program calls').environment inherited =
        (ofCalls program calls).environment inherited := by
  have hne : searched calls ≠ [] := mt List.map_eq_nil_iff.mp h.ne_nil
  have hc : (ofCalls program calls).searchPath = some (name, searched calls) := by
    rw [searchPath_ofCalls program h.same, if_neg hne]
  refine ⟨args_ofCalls program calls, ?_, fun calls' hv hs =>
    environment_congr h.same hv hs program inherited⟩
  split
  next hd =>
    have he := (environment_eq_error (f := .separatorInside) hc inherited).mpr hd
    refine ⟨he, fun here m => ?_⟩
    rw [Machine.launch, he]
  next hd =>
    obtain ⟨env, he, hv, ho⟩ :=
      exists_environment_eq_ok hc hne (fun d hm hs => hd ⟨d, hm, hs⟩) inherited
    refine ⟨env, he, ?_, fun other hn => ?_⟩
    · rwa [lookup_overlay_ofCalls] at hv
    · rw [ho other hn, lookup_overlay_ofCalls]

def mixedCalls : List Call :=
  [.args ["-c", "echo"], .searchDir "LIBS" "/first", .var "LIBS" "/old", .var "MODE" "1", .arg "x",
    .searchDir "LIBS" "/second", .var "LIBS" "/existing::/more", .timeout (some 300)]

theorem environment_of_mixedCalls : ∃ env,
    (ofCalls "/bin/sh" mixedCalls).environment [("HOME", "/"), ("LIBS", "/inherited")] = .ok env ∧
      (∃ value, env.lookup "LIBS" = some value ∧
        SearchPath.entries value = ["/first", "/second", "/existing", "/more"]) ∧
      env.lookup "MODE" = some "1" ∧ env.lookup "HOME" = some "/" := by
  have h : SearchesOnly mixedCalls "LIBS" := ⟨by decide, by decide⟩
  have hs : ¬∃ d ∈ searched mixedCalls, SearchPath.separator ∈ d.toList := by decide
  have he := (environment_of_calls "/bin/sh" h [("HOME", "/"), ("LIBS", "/inherited")]).2.1
  rw [if_neg hs] at he
  obtain ⟨env, he, hv, ho⟩ := he
  exact ⟨env, he, hv, ho "MODE" (by decide), ho "HOME" (by decide)⟩

end Command
end Triage
