import Triage.Proofs.FileTree.WellFormed
import Triage.Proofs.Storage.Acts

set_option autoImplicit true

namespace Triage

def Place.entry? : Place → Option Entry
  | .found _ e => some e
  | .vacant _ => none

namespace FileTree

theorem lookup_filter_ne [BEq α] [LawfulBEq α] [DecidableEq α] {k l : α} (h : k ≠ l)
    (es : List (α × β)) :
    (es.filter (·.1 ≠ l)).lookup k = es.lookup k := by
  induction es with
  | nil => rfl
  | cons e es ih =>
    by_cases he : e.1 = l
    · have hk : (k == e.1) = false := beq_false_of_ne (he ▸ h)
      rw [List.filter_cons_of_neg (by simp [he]), ih, List.lookup_cons, hk]
    · rw [List.filter_cons_of_pos (by simp [he]), List.lookup_cons, List.lookup_cons, ih]

theorem get?_set (hl : l ≠ []) (t : FileTree) (e : Entry) (k : Location) :
    (t.set l e).get? k = if k = l then some e else t.get? k := by
  by_cases hk : k = []
  · rw [hk, if_neg (Ne.symm hl)]
    rfl
  · rw [get?, get?, if_neg hk, if_neg hk, set, List.lookup_cons]
    by_cases he : k = l
    · simp [he]
    · simpa [beq_false_of_ne he, he] using lookup_filter_ne he t.entries

theorem get?_set_self (hl : l ≠ []) (t : FileTree) (e : Entry) : (t.set l e).get? l = some e := by
  rw [get?_set hl, if_pos rfl]

/-- All that is in `t` is in `t'` too, but for what its files hold. -/
def Within (t t' : FileTree) : Prop :=
  ∀ l e, t.get? l = some e → t'.get? l = some e ∨
    (∃ c, e = .file c) ∧ ∃ c, t'.get? l = some (.file c)

variable {t t' : FileTree} {here l : Location}

theorem Within.get?_of_ne (h : t.Within t') (hg : t.get? l = some e) (he : ∀ c, e ≠ .file c) :
    t'.get? l = some e :=
  (h l e hg).resolve_right fun ⟨⟨c, hc⟩, _⟩ => he c hc

theorem Enters.within (h : t.Within t') (he : t.Enters l part k) : t'.Enters l part k := by
  cases he with
  | here => exact .here
  | up => exact .up
  | down hp hg => exact .down hp (h.get?_of_ne hg nofun)

theorem set_within (hl : l ≠ []) (hg : ∀ e, t.get? l = some e → ∃ c, e = .file c) (c : Bytes) :
    t.Within (t.set l (.file c)) := by
  intro k e hk
  rw [get?_set hl]
  by_cases he : k = l
  · subst he
    exact .inr ⟨hg e hk, c, by simp⟩
  · exact .inl (by rwa [if_neg he])

theorem Within.walkParts (h : t.Within t')
    {onLink onLink' : Location → List String → Except OsError Place}
    (hx : t.walkParts true onLink l ps = .ok x) (hd : ∀ k, x ≠ .found k .dir)
    (he : t'.get? x.location = some e) (hn : e ≠ .dir) (hl : ∀ target, e ≠ .link target)
    (ho : ∀ k qs, onLink k qs = .ok x → onLink' k qs = .ok (.found x.location e)) :
    t'.walkParts true onLink' l ps = .ok (.found x.location e) := by
  induction ps generalizing l with
  | nil =>
    cases hx
    exact absurd rfl (hd l)
  | cons part rest ih =>
    rcases walkParts_cons.mp hx with ⟨k, hk, hr⟩ | ⟨target, hp, hg, hr, hk⟩ | ⟨rfl, hk⟩
    · exact walkParts_cons.mpr (.inl ⟨k, hk.within h, ih hr⟩)
    · exact walkParts_cons.mpr
        (.inr (.inl ⟨target, hp, h.get?_of_ne hg nofun, hr, ho _ _ hk⟩))
    · refine walkParts_cons.mpr (.inr (.inr ⟨rfl, ?_⟩))
      cases hk with
      | vacant hp => exact .found hp he hn fun target ht => absurd ht (hl target)
      | found hp => exact .found hp he hn fun target ht => absurd ht (hl target)

theorem Within.walk (h : t.Within t') (hx : t.walk true links l ps = .ok x)
    (hd : ∀ k, x ≠ .found k .dir) (he : t'.get? x.location = some e) (hn : e ≠ .dir)
    (hl : ∀ target, e ≠ .link target) : t'.walk true links l ps = .ok (.found x.location e) := by
  induction links generalizing l ps with
  | zero => exact h.walkParts hx hd he hn hl nofun
  | succ links ih => exact h.walkParts hx hd he hn hl fun k qs hk => ih hk

theorem Within.resolve (h : t.Within t') (hx : t.resolve here path = .ok x)
    (hd : ∀ k, x ≠ .found k .dir) (he : t'.get? x.location = some e) (hn : e ≠ .dir)
    (hl : ∀ target, e ≠ .link target) : t'.resolve here path = .ok (.found x.location e) := by
  have hw := h.walk (walk_of_resolve hx) hd he hn hl
  unfold FileTree.resolve at hx ⊢
  split at hx
  · cases hx
  split at hx
  · cases hx
  split at hx
  · cases hx
  next h₁ h₂ h₃ => rw [if_neg h₁, if_neg h₂, if_neg h₃, hw]

def targetAt? (here : Location) (path : String) (t : FileTree) : Option Target :=
  match t.resolve here path with
  | .ok (.found l (.file _)) => some (.file l)
  | .ok (.found _ (.device d)) => some (.device d)
  | _ => none

def contentOf (target : Target) (t : FileTree) : Bytes :=
  match target with
  | .file l => match t.get? l with
    | some (.file content) => content
    | _ => []
  | .device _ => []

theorem targetAt?_eq_some : targetAt? here path t = some target ↔
    (∃ l c, target = .file l ∧ t.resolve here path = .ok (.found l (.file c))) ∨
      ∃ l d, target = .device d ∧ t.resolve here path = .ok (.found l (.device d)) := by
  unfold targetAt?
  constructor
  · intro h
    split at h <;> cases h
    next l c hr => exact .inl ⟨l, c, rfl, hr⟩
    next l d hr => exact .inr ⟨l, d, rfl, hr⟩
  · rintro (⟨l, c, rfl, hr⟩ | ⟨l, d, rfl, hr⟩) <;> rw [hr]

theorem get?_of_walkParts {onLink : Location → List String → Except OsError Place}
    (h : t.walkParts true onLink l ps = .ok x) (hd : ∀ k, x ≠ .found k .dir)
    (ho : ∀ l qs, onLink l qs = .ok x → x.location ≠ [] ∧ t.get? x.location = x.entry?) :
    x.location ≠ [] ∧ t.get? x.location = x.entry? := by
  induction ps generalizing l with
  | nil =>
    cases h
    exact absurd rfl (hd l)
  | cons part rest ih =>
    rcases walkParts_cons.mp h with ⟨k, -, hr⟩ | ⟨target, -, -, -, hk⟩ | ⟨-, hk⟩
    · exact ih hr
    · exact ho _ _ hk
    · cases hk with
      | vacant hp hg => exact ⟨List.concat_ne_nil _ _, hg⟩
      | found hp hg => exact ⟨List.concat_ne_nil _ _, hg⟩

theorem get?_of_resolve (h : t.resolve here path = .ok x) (hd : ∀ k, x ≠ .found k .dir) :
    x.location ≠ [] ∧ t.get? x.location = x.entry? := by
  have hw {links : Nat} {l : Location} {ps : List String} (h : t.walk true links l ps = .ok x) :
      x.location ≠ [] ∧ t.get? x.location = x.entry? := by
    induction links generalizing l ps with
    | zero => exact get?_of_walkParts h hd nofun
    | succ links ih => exact get?_of_walkParts h hd fun l ps h => ih h
  exact hw (walk_of_resolve h)

/-- What opening a path for writing does to a tree: nothing, or it makes or empties one file. -/
inductive Opens (here : Location) (path : String) (t : FileTree) :
    Except OsError Target → FileTree → Prop
  | refused (e : OsError) : Opens here path t (.error e) t
  | device (hx : t.resolve here path = .ok (.found k (.device d))) :
      Opens here path t (.ok (.device d)) t
  | file (hx : t.resolve here path = .ok x) (hd : ∀ k, x ≠ .found k .dir) (hl : x.location ≠ [])
      (hg : ∀ e, t.get? x.location = some e → ∃ c, e = .file c) :
      Opens here path t (.ok (.file x.location)) (t.set x.location (.file []))

theorem opens (h : (storage here).create path t = (r, t')) : Opens here path t r t' := by
  simp only [storage, openForWriting] at h
  split at h
  next target t₁ ho =>
    cases h
    split at ho
    · split at ho
      · cases ho
      · split at ho <;> cases ho
    · split at ho
      · cases ho
      next x hx =>
        cases x with
        | vacant l =>
          cases ho
          obtain ⟨hl, hg⟩ := get?_of_resolve hx nofun
          exact .file hx nofun hl fun e he => by simp [hg, Place.entry?] at he
        | found l e =>
          cases e with
          | file c =>
            cases ho
            obtain ⟨hl, hg⟩ := get?_of_resolve hx nofun
            exact .file hx nofun hl fun e he => ⟨c, Option.some.inj (he.symm.trans hg)⟩
          | device d =>
            cases ho
            exact .device hx
          | _ => cases ho
  next e ho =>
    cases h
    exact .refused e

inductive Appends (target : Target) (bytes : Bytes) (t : FileTree) :
    Except OsError Unit → FileTree → Prop
  | nothing (r) (hg : ∀ l c, target = .file l → t.get? l ≠ some (.file c)) :
      Appends target bytes t r t
  | file {l c} (ht : target = .file l) (hg : t.get? l = some (.file c)) :
      Appends target bytes t (.ok ()) (t.set l (.file (c ++ bytes)))

theorem appends (h : (storage here).write target bytes t = (r, t')) :
    Appends target bytes t r t' := by
  cases target with
  | device d =>
    have ht : t' = t := by cases d <;> cases h <;> rfl
    exact ht ▸ .nothing r nofun
  | file l =>
    simp only [storage, append] at h
    split at h
    next c hg =>
      cases h
      exact .file rfl hg
    next hn =>
      cases h
      refine .nothing _ ?_
      rintro _ c ⟨⟩ hg
      exact hn c hg

theorem Opens.within (h : Opens here path t r t') : t.Within t' := by
  cases h with
  | refused => exact fun l e he => .inl he
  | device => exact fun l e he => .inl he
  | file hx hd hl hg => exact set_within hl hg []

theorem get?_ne_nil (hg : t.get? l = some (.file c)) : l ≠ [] := by
  rintro rfl
  cases hg

theorem Appends.within (h : Appends target bytes t r t') : t.Within t' := by
  cases h with
  | nothing => exact fun l e he => .inl he
  | @file l c ht hg =>
    refine set_within (get?_ne_nil hg) (fun e he => ⟨c, ?_⟩) _
    exact Option.some.inj (he.symm.trans hg)

theorem Within.targetAt? (h : t.Within t') (hp : targetAt? here path t = some target) :
    FileTree.targetAt? here path t' = some target := by
  rcases targetAt?_eq_some.mp hp with ⟨l, c, rfl, hx⟩ | ⟨l, d, rfl, hx⟩
  · have hg := (get?_of_resolve hx nofun).2
    obtain ⟨c', hg'⟩ : ∃ c', t'.get? l = some (.file c') :=
      (h l _ hg).elim (fun hg => ⟨c, hg⟩) fun hg => hg.2
    exact targetAt?_eq_some.mpr (.inl ⟨l, c', rfl, h.resolve hx nofun hg' nofun nofun⟩)
  · have hg := h.get?_of_ne (get?_of_resolve hx nofun).2 nofun
    exact targetAt?_eq_some.mpr (.inr ⟨l, d, rfl, h.resolve hx nofun hg nofun nofun⟩)

theorem targetAt?_made (hx : t.resolve here path = .ok x) (hd : ∀ k, x ≠ .found k .dir)
    (hl : x.location ≠ []) (hg : ∀ e, t.get? x.location = some e → ∃ c, e = .file c) :
    FileTree.targetAt? here path (t.set x.location (.file [])) = some (.file x.location) :=
  have hx := (set_within hl hg []).resolve hx hd (get?_set_self hl t _) nofun nofun
  targetAt?_eq_some.mpr (.inl ⟨_, _, rfl, hx⟩)

theorem Opens.contentOf (h : Opens here path t r t')
    (hp : FileTree.targetAt? here path t' ≠ some g) :
    FileTree.contentOf g t' = FileTree.contentOf g t := by
  cases h with
  | refused => rfl
  | device => rfl
  | @file x hx hd hl hg =>
    cases g with
    | device d => rfl
    | file l =>
      have hn : l ≠ x.location := by
        rintro rfl
        exact hp (targetAt?_made hx hd hl hg)
      simp only [FileTree.contentOf, get?_set hl, if_neg hn]

theorem Appends.contentOf (h : Appends target bytes t r t') (hg : target ≠ g) :
    FileTree.contentOf g t' = FileTree.contentOf g t := by
  cases h with
  | nothing => rfl
  | @file l c ht hl =>
    cases g with
    | device d => rfl
    | file k =>
      have hn : k ≠ l := by
        rintro rfl
        exact hg ht
      simp only [FileTree.contentOf, get?_set (get?_ne_nil hl), if_neg hn]

/-- The files of a tree, looked at from `here`. -/
def view (here : Location) : (storage here).View where
  fileAt? := targetAt? here
  content := contentOf
  Holds target := ∃ l, target = .file l
  made h := by
    cases opens h with
    | @device k d hx =>
      exact ⟨targetAt?_eq_some.mpr (.inr ⟨k, d, rfl, hx⟩), nofun⟩
    | @file x hx hd hl hg =>
      refine ⟨targetAt?_made hx hd hl hg, fun _ => ?_⟩
      simp only [contentOf, get?_set_self hl]
  wrote h hq hf := by
    obtain ⟨l, rfl⟩ := hf
    rcases targetAt?_eq_some.mp hq with ⟨l, c, ⟨⟩, hx⟩ | ⟨_, _, ⟨⟩, _⟩
    have hg := (get?_of_resolve hx nofun).2
    cases appends h with
    | nothing _ hn => exact absurd hg (hn l c rfl)
    | @file k c' ht hk =>
      cases ht
      simp only [contentOf, get?_set_self (get?_ne_nil hk), hk]
  leads_create h hq := (opens h).within.targetAt? hq
  leads_write h hq := (appends h).within.targetAt? hq
  apart_create h _ hp := (opens h).contentOf hp
  apart_write h _ hg := (appends h).contentOf hg

end FileTree
end Triage
