import Triage.Proofs.Check.Decision
import Triage.Proofs.Command.Environment

set_option autoImplicit true

namespace Triage.Check

/-- The directories that the primary check searches first. -/
def searchDirs (s : Settings) : List String :=
  (if s.mode = .import then [s.root] else []) ++ s.searchPath.toList

variable {settings : Settings} {path : String} {c : Command}

theorem modeCommand?_surroundings (h : modeCommand? settings path = some c) :
    c.env = [] ∧
    (c.searchPath =
      if settings.mode = .import then some (settings.searchPathVar, [settings.root]) else none) ∧
    c.workingDir = some (if settings.mode = .import then settings.root else dirOf path) := by
  unfold modeCommand? at h
  cases hm : settings.mode with
  | run =>
    rw [hm] at h
    cases h
    exact ⟨rfl, rfl, rfl⟩
  | «import» =>
    rw [hm] at h
    obtain ⟨name, -, rfl⟩ := Option.map_eq_some_iff.mp h
    exact ⟨rfl, rfl, rfl⟩
  | lint =>
    rw [hm] at h
    cases h
    exact ⟨rfl, rfl, rfl⟩

theorem primaryCommand?_surroundings (h : primaryCommand? settings path = some c) :
    c.env = [] ∧
    (c.searchPath =
      if searchDirs settings = [] then none
      else some (settings.searchPathVar, searchDirs settings)) ∧
    c.workingDir = some (if settings.mode = .import then settings.root else dirOf path) := by
  obtain ⟨c', hc, rfl⟩ := Option.map_eq_some_iff.mp h
  obtain ⟨he, hs, hw⟩ := modeCommand?_surroundings hc
  by_cases hm : settings.mode = .import <;> cases hd : settings.searchPath <;>
    simp_all [Command.withSearchDir, Command.withTimeout, searchDirs]

theorem mem_searchDirs {d : String} : d ∈ searchDirs settings ↔
    settings.mode = .import ∧ d = settings.root ∨ settings.searchPath = some d := by
  by_cases hm : settings.mode = .import <;> simp [searchDirs, hm]

theorem primaryCommand?_environment (h : primaryCommand? settings path = some c)
    (hs : settings.searchPath = some dir) (hd : SearchPath.separator ∉ dir.toList)
    (inherited : Environment) :
    if settings.mode = .import ∧ SearchPath.separator ∈ settings.root.toList then
      c.environment inherited = .error .separatorInside
    else ∃ env, c.environment inherited = .ok env ∧
      env.Searches inherited settings.searchPathVar (searchDirs settings) := by
  obtain ⟨he, hc, -⟩ := primaryCommand?_surroundings h
  have hm : dir ∈ searchDirs settings := mem_searchDirs.mpr (.inr hs)
  have hne : searchDirs settings ≠ [] := List.ne_nil_of_mem hm
  rw [if_neg hne] at hc
  split
  next hr =>
    rw [Command.environment_eq_error hc]
    exact ⟨settings.root, mem_searchDirs.mpr (.inl ⟨hr.1, rfl⟩), hr.2⟩
  next hr =>
    have hsep : ∀ d ∈ searchDirs settings, SearchPath.separator ∉ d.toList := by
      intro d hm
      rcases mem_searchDirs.mp hm with ⟨hi, rfl⟩ | hd'
      · exact fun hs => hr ⟨hi, hs⟩
      · cases hs.symm.trans hd'
        exact hd
    obtain ⟨env, henv, hl⟩ := Command.exists_environment_eq_ok hc hne hsep inherited
    rw [he] at hl
    exact ⟨env, henv, hl⟩

theorem parseCommand_environment (settings : Settings) (path : String) (inherited : Environment) :
    (parseCommand settings path).environment inherited = .ok inherited := rfl

/-- Whatever happens around a check, its first child has the search path of the settings in front of
what it inherits, with the root before it in import mode, and its second child has only what it
inherits.  In import mode a root with the separator in it leaves the first one no environment. -/
theorem searched_by_children (sys : System σ) {settings : Settings} {here path dir : String}
    (hp : path ≠ "") (hs : settings.searchPath = some dir)
    (hd : SearchPath.separator ∉ dir.toList) (inherited : Environment) {r : Registry} {s : σ}
    {tr : List Notice} {p : Moment σ}
    (h : History sys settings ⟨start settings here path, r, s⟩ tr p) :
    (∀ full run, p.stage = .primary full run →
      if settings.mode = .import ∧ SearchPath.separator ∈ settings.root.toList then
        run.command.environment inherited = .error .separatorInside
      else ∃ env, run.command.environment inherited = .ok env ∧
        env.Searches inherited settings.searchPathVar (searchDirs settings)) ∧
    ∀ full o run, p.stage = .parse full o run →
      run.command.environment inherited = .ok inherited := by
  obtain ⟨full, hf⟩ := exists_absolute? here hp
  have hpast := h.past hf
  constructor
  · intro _ run hr
    rw [hr] at hpast
    obtain ⟨-, hc, -, -⟩ := hpast
    exact primaryCommand?_environment hc hs hd inherited
  · intro _ o run hr
    rw [hr] at hpast
    obtain ⟨-, -, -, hc, -⟩ := hpast
    rw [hc]
    exact parseCommand_environment settings full inherited

def besideDeps : Settings := { root := "/", searchPath := some "/deps" }

def checkBesideDeps (n : Nat) : List Notice × Moment Unit :=
  alone exitOne besideDeps n ⟨start besideDeps "/" "a.py", {}, ()⟩

theorem searched_by_children_of_exitOne :
    ∃ full run env, (checkBesideDeps 1).2.stage = .primary full run ∧
      run.command.environment [("PYTHONPATH", "/one::/two")] = .ok env ∧
      env.Searches [("PYTHONPATH", "/one::/two")] "PYTHONPATH" ["/deps"] := by
  have h := (searched_by_children exitOne (by decide) rfl (by decide) [("PYTHONPATH", "/one::/two")]
    (history_alone exitOne besideDeps 1 ⟨start besideDeps "/" "a.py", {}, ()⟩)).1 _ _ rfl
  obtain ⟨env, he, hl⟩ := h
  exact ⟨_, _, env, rfl, he, hl⟩

/-- A parse check that is about to be launched will not find the search path. -/
theorem parse_check_without_search_path :
    History exitOne besideDeps ⟨start besideDeps "/" "a.py", {}, ()⟩ (checkBesideDeps 9).1
        (checkBesideDeps 9).2 ∧
      ∃ full o run env, (checkBesideDeps 9).2.stage = .parse full o run ∧ run.phase = .launching ∧
        run.command.environment [("PYTHONPATH", "/one:/two")] = .ok env ∧
        env.lookup "PYTHONPATH" = some "/one:/two" ∧
        "/deps" ∉ SearchPath.entries "/one:/two" := by
  refine ⟨history_alone exitOne besideDeps 9 _, _, _, _, _, rfl, rfl, rfl, rfl, ?_⟩
  decide

end Triage.Check
