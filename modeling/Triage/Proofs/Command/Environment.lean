import Triage.Command
import Triage.Proofs.SearchPath.Entries

set_option autoImplicit true

namespace Triage

namespace Environment

theorem lookup_put (name value : String) (env : Environment) :
    (env.put name value).lookup name = some value := by
  induction env with
  | nil => simp [put]
  | cons x env ih =>
    obtain ⟨n, v⟩ := x
    simp only [put]
    split
    · simp
    split
    · simp
    next hn => rwa [List.lookup_cons, beq_false_of_ne hn]

theorem lookup_put_of_ne (h : other ≠ name) (value : String) (env : Environment) :
    (env.put name value).lookup other = env.lookup other := by
  induction env with
  | nil => simp [put, h]
  | cons x env ih =>
    obtain ⟨n, v⟩ := x
    simp only [put]
    split
    · rw [List.lookup_cons, beq_false_of_ne h]
    split
    next hn => rw [List.lookup_cons, List.lookup_cons, ← hn, beq_false_of_ne h]
    · rw [List.lookup_cons, List.lookup_cons, ih]

/-- These directories stand first in a variable, and what `inherited` has there follows but for its
empty entries.  All other variables are as they are in `inherited`. -/
def Searches (env inherited : Environment) (name : String) (dirs : List String) : Prop :=
  (∃ value, env.lookup name = some value ∧
    SearchPath.entries value = dirs ++ SearchPath.kept (inherited.lookup name)) ∧
  ∀ other, other ≠ name → env.lookup other = inherited.lookup other

theorem searches_put {dirs : List String} {inherited : Environment}
    (h : SearchPath.entries value = dirs ++ SearchPath.kept (inherited.lookup name)) :
    (inherited.put name value).Searches inherited name dirs :=
  ⟨⟨value, lookup_put name value inherited, h⟩, fun _ ho => lookup_put_of_ne ho value inherited⟩

end Environment

namespace Command

variable {c : Command} {name : String} {dirs : List String}

theorem environment_eq_error (hc : c.searchPath = some (name, dirs)) (inherited : Environment) :
    c.environment inherited = .error f ↔ ∃ d ∈ dirs, SearchPath.separator ∈ d.toList := by
  rw [← SearchPath.prepend_eq_error (f := f) dirs ((inherited.overlay c.env).lookup name)]
  simp only [environment, hc]
  split
  next h => simp [h]
  next h => simp [h]

theorem exists_environment_eq_ok (hc : c.searchPath = some (name, dirs)) (hne : dirs ≠ [])
    (hd : ∀ d ∈ dirs, SearchPath.separator ∉ d.toList) (inherited : Environment) :
    ∃ env, c.environment inherited = .ok env ∧
      env.Searches (inherited.overlay c.env) name dirs := by
  obtain ⟨value, hp, he⟩ :=
    SearchPath.exists_prepend_eq_ok hd hne ((inherited.overlay c.env).lookup name)
  refine ⟨_, ?_, Environment.searches_put he⟩
  simp only [environment, hc, hp]

end Command
end Triage
