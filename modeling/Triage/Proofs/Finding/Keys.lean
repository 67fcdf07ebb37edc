import Triage.Proofs.Finding.Spelled

set_option autoImplicit true

namespace Triage

open Json

/-- What the members of an object are called and what their values look like; some members have keys
that spell no text. -/
def Json.Entries : List Member → List (String × List Char) → Prop :=
  List.Forall₂ fun m e => Spells m.key e.1 ∧ m.value = e.2

def Json.valuesOf (es : List (String × List Char)) (key : String) : List (List Char) :=
  (es.filter (·.1 = key)).map (·.2)

namespace Finding

def OutputIs (vs : List (List Char)) (o : Option String) : Prop :=
  vs = [] ∧ o = none ∨ ∃ v, vs = [v] ∧ IsText? v o

/-- The members describe the finding: `file`, `status` and `message` come once with values that
spell what the finding has, and `output` once with a text or `null`, or not at all. -/
structure Describes (es : List (String × List Char)) (f : Finding) : Prop where
  file : ∃ v, valuesOf es "file" = [v] ∧ IsText v f.file
  status : ∃ v, valuesOf es "status" = [v] ∧ Status.Spelled v f.status
  message : ∃ v, valuesOf es "message" = [v] ∧ IsText v f.message
  output : OutputIs (valuesOf es "output") f.output

/-- A field is left as it is, or read off one value if it was not known. -/
inductive Slot (P : List Char → α → Prop) : Option α → List (List Char) → Option α → Prop
  | left : Slot P a [] a
  | read (h : P v x) : Slot P none [v] (some x)

theorem slot_nil_iff : Slot P a [] b ↔ b = a := by
  constructor
  · rintro ⟨⟩
    rfl
  · rintro rfl
    exact .left

theorem slot_singleton_iff : Slot P a [v] b ↔ a = none ∧ ∃ x, P v x ∧ b = some x := by
  constructor
  · rintro ⟨⟩
    exact ⟨rfl, _, ‹_›, rfl⟩
  · rintro ⟨rfl, x, h, rfl⟩
    exact .read h

theorem slot_append_iff : Slot P a (vs ++ ws) c ↔ ∃ b, Slot P a vs b ∧ Slot P b ws c := by
  constructor
  · intro h
    generalize hs : vs ++ ws = us at h
    cases h with
    | left =>
      obtain ⟨rfl, rfl⟩ := List.append_eq_nil_iff.mp hs
      exact ⟨a, .left, .left⟩
    | read h =>
      obtain ⟨rfl, rfl⟩ | ⟨rfl, rfl⟩ := List.append_eq_singleton_iff.mp hs
      · exact ⟨none, .left, .read h⟩
      · exact ⟨_, .read h, .left⟩
  · rintro ⟨b, h, h'⟩
    cases h with
    | left => exact h'
    | read h =>
      cases h' with
      | left => exact .read h

@[mk_iff]
structure Gets (d : Draft) (values : String → List (List Char)) (d' : Draft) : Prop where
  file : Slot IsText d.file (values "file") d'.file
  status : Slot Status.Spelled d.status (values "status") d'.status
  message : Slot IsText d.message (values "message") d'.message
  output : Slot IsText? d.output (values "output") d'.output

theorem valuesOf_nil (key : String) : valuesOf [] key = [] := rfl

theorem valuesOf_cons (e : String × List Char) (es : List (String × List Char)) (key : String) :
    valuesOf (e :: es) key = valuesOf [e] key ++ valuesOf es key := by
  rw [valuesOf, valuesOf, valuesOf, ← List.map_append, ← List.filter_append, List.singleton_append]

theorem valuesOf_singleton (k key : String) (v : List Char) :
    valuesOf [(k, v)] key = if k = key then [v] else [] := by
  by_cases h : k = key <;> simp [valuesOf, h]

theorem gets_cons_iff {d d'' : Draft} (e : String × List Char) (es : List (String × List Char)) :
    Gets d (valuesOf (e :: es)) d'' ↔
      ∃ d', Gets d (valuesOf [e]) d' ∧ Gets d' (valuesOf es) d'' := by
  rw [gets_iff]
  simp only [valuesOf_cons e es, slot_append_iff]
  constructor
  · rintro ⟨⟨file, hf, hf'⟩, ⟨status, hs, hs'⟩, ⟨message, hm, hm'⟩, ⟨output, ho, ho'⟩⟩
    exact ⟨⟨file, status, message, output⟩, ⟨hf, hs, hm, ho⟩, ⟨hf', hs', hm', ho'⟩⟩
  · rintro ⟨d', h, h'⟩
    exact ⟨⟨_, h.file, h'.file⟩, ⟨_, h.status, h'.status⟩, ⟨_, h.message, h'.message⟩,
      ⟨_, h.output, h'.output⟩⟩

attribute [ext] Draft

theorem gets_nil_iff {d d' : Draft} : Gets d (valuesOf []) d' ↔ d' = d := by
  simp only [gets_iff, valuesOf_nil, slot_nil_iff, Draft.ext_iff]

theorem gets_singleton_iff {d d' : Draft} :
    Gets d (valuesOf [(key, v)]) d' ↔
      if key = "file" then d.file = none ∧ ∃ s, IsText v s ∧ d' = { d with file := some s }
      else if key = "status" then
        d.status = none ∧ ∃ s, Status.Spelled v s ∧ d' = { d with status := some s }
      else if key = "message" then
        d.message = none ∧ ∃ s, IsText v s ∧ d' = { d with message := some s }
      else if key = "output" then
        d.output = none ∧ ∃ o, IsText? v o ∧ d' = { d with output := some o }
      else d' = d := by
  split_ifs
  all_goals simp only [*, gets_iff, valuesOf_singleton, slot_nil_iff, slot_singleton_iff,
    Draft.ext_iff, String.reduceEq, if_true, if_false]
  all_goals grind

theorem refuseAgain_eq_ok {known : Option α} : Draft.refuseAgain known = .ok u ↔ known = none := by
  cases known <;> simp [Draft.refuseAgain]

/-- Reading a field of any kind, with `set` to keep what was read. -/
theorem readKnown_iff {read : List Char → Except Fault (α × List Char)} {known : Option α}
    (hp : Reads read P) (set : α → Draft) (hm : Member.Spaced m) (hv : WellFormed m.value)
    (hr : Stops rest) :
    (do
      Draft.refuseAgain known
      let (a, r) ← read (← expect ':' (m.gap ++ ':' :: (m.ahead ++ (m.value ++ rest))))
      return (set a, r)) = .ok (d, r) ↔
      (known = none ∧ ∃ a, P m.value a ∧ d = set a) ∧ r = rest := by
  rw [expect_append hm.gap, expect_cons (by decide)]
  have hk : ∀ a r, read (m.ahead ++ (m.value ++ rest)) = .ok (a, r) ↔ P m.value a ∧ r = rest :=
    fun _ _ => hp hv hm.ahead hr
  simp only [bind_eq_ok, refuseAgain_eq_ok, Prod.exists, Except.ok.injEq, exists_eq_left', hk]
  constructor
  · rintro ⟨_, hn, a, _, ⟨ha, rfl⟩, hs⟩
    cases hs
    exact ⟨⟨hn, a, ha, rfl⟩, rfl⟩
  · rintro ⟨⟨hn, a, ha, rfl⟩, rfl⟩
    exact ⟨(), hn, a, r, ⟨ha, rfl⟩, rfl⟩

theorem readField_iff {d d' : Draft} {key : String} (hm : Member.Spaced m)
    (hv : WellFormed m.value) (hr : Stops rest) :
    d.readField key.toList (m.gap ++ ':' :: (m.ahead ++ (m.value ++ rest))) = .ok (d', r) ↔
      Gets d (valuesOf [(key, m.value)]) d' ∧ r = rest := by
  simp only [Draft.readField, String.toList_inj, gets_singleton_iff]
  split_ifs
  · exact readKnown_iff reads_readText (fun file => { d with file := some file }) hm hv hr
  · exact readKnown_iff Status.reads_read (fun status => { d with status := some status }) hm hv hr
  · exact readKnown_iff reads_readText (fun message => { d with message := some message }) hm hv hr
  · exact readKnown_iff reads_readText? (fun output => { d with output := some output }) hm hv hr
  · rw [expect_append hm.gap, expect_cons (by decide)]
    simp only [bind_eq_ok, Except.ok.injEq, exists_eq_left', skip_value hv hm.ahead hr]
    constructor
    · intro h
      cases h
      exact ⟨rfl, rfl⟩
    · rintro ⟨rfl, rfl⟩
      rfl

def Settle (ms : List Member) (d d' : Draft) : Prop :=
  ∃ es, Entries ms es ∧ Gets d (valuesOf es) d'

theorem settle_nil_iff {d d' : Draft} : Settle [] d d' ↔ d' = d := by
  constructor
  · rintro ⟨_, ⟨⟩, h⟩
    exact gets_nil_iff.mp h
  · rintro rfl
    exact ⟨[], .nil, gets_nil_iff.mpr rfl⟩

theorem settle_cons_iff {m : Member} {ms : List Member} {d d'' : Draft} :
    Settle (m :: ms) d d'' ↔
      ∃ key d', Spells m.key key ∧ Gets d (valuesOf [(key, m.value)]) d' ∧ Settle ms d' d'' := by
  constructor
  · rintro ⟨_, he, hg⟩
    cases he with
    | @cons _ e _ es he hes =>
      obtain ⟨key, v⟩ := e
      obtain ⟨hk, rfl⟩ := he
      obtain ⟨d', hd, hg⟩ := (gets_cons_iff _ es).mp hg
      exact ⟨key, d', hk, hd, es, hes, hg⟩
  · rintro ⟨key, d', hk, hd, es, he, hg⟩
    exact ⟨(key, m.value) :: es, .cons ⟨hk, rfl⟩ he, (gets_cons_iff _ es).mpr ⟨d', hd, hg⟩⟩

theorem readMembers_step {first : Bool} {d d'' : Draft} {m : Member} (hm : m.Spaced)
    (hv : WellFormed m.value) (hr : Stops rest)
    (hn : nextKey first s =
      .ok (some (m.key ++ '"' :: (m.gap ++ ':' :: (m.ahead ++ (m.value ++ rest)))))) :
    readMembers (fuel + 1) first d s = .ok (d'', r) ↔
      ∃ key d', Spells m.key key ∧ Gets d (valuesOf [(key, m.value)]) d' ∧
        readMembers fuel false d' rest = .ok (d'', r) := by
  obtain ⟨ps, hb⟩ := hm.key
  simp only [readMembers, bind_eq_ok, hn, Except.ok.injEq, exists_eq_left', Prod.exists,
    readQuoted_iff hb]
  constructor
  · rintro ⟨key, _, ⟨hk, rfl⟩, d', s', hd, h⟩
    rw [← String.toList_ofList (l := key), readField_iff hm hv hr] at hd
    obtain ⟨hd, rfl⟩ := hd
    exact ⟨String.ofList key, d', hk, hd, h⟩
  · rintro ⟨key, d', hk, hd, h⟩
    refine ⟨key.toList, _, ⟨by rwa [String.ofList_toList], rfl⟩, d', rest, ?_, h⟩
    exact (readField_iff hm hv hr).mpr ⟨hd, rfl⟩

theorem nextKey_end (hw : White w) (first : Bool) (rest : List Char) :
    nextKey first (w ++ '}' :: rest) = .ok none := by
  rw [nextKey, skipSpace_append hw, skipSpace_cons (by decide)]
  rfl

theorem nextKey_first (hw : White w) (s : List Char) :
    nextKey true (w ++ '"' :: s) = .ok (some s) := by
  rw [nextKey, skipSpace_append hw, skipSpace_cons (by decide)]
  rfl

theorem nextKey_more (hw : White w) (hl : White lead) (s : List Char) :
    nextKey false (w ++ ',' :: (lead ++ '"' :: s)) = .ok (some s) := by
  rw [nextKey, skipSpace_append hw, skipSpace_cons (by decide)]
  simp [skipSpace_append hl, skipSpace_cons (c := '"') (by decide)]

def ReadsTo (fuel : Nat) (first : Bool) (d : Draft) (s : List Char) (d' : Draft) (r : List Char) :
    Prop :=
  ∃ t, readMembers fuel first d s = .ok (d', t) ∧ expect '}' t = .ok r

theorem readsTo_end (hw : White w) {d d' : Draft} :
    ReadsTo (fuel + 1) first d (w ++ '}' :: rest) d' r ↔ d' = d ∧ r = rest := by
  simp only [ReadsTo, readMembers, nextKey_end hw, bind_eq_ok, Except.ok.injEq, exists_eq_left']
  constructor
  · rintro ⟨t, h, ht⟩
    cases h
    rw [expect_append hw, expect_cons (by decide)] at ht
    cases ht
    exact ⟨rfl, rfl⟩
  · rintro ⟨rfl, rfl⟩
    exact ⟨_, rfl, by rw [expect_append hw, expect_cons (by decide)]⟩

theorem readsTo_member {d d'' : Draft} {m : Member} (hm : m.Spaced) (hv : WellFormed m.value)
    (hr : Stops rest)
    (hn : nextKey first s =
      .ok (some (m.key ++ '"' :: (m.gap ++ ':' :: (m.ahead ++ (m.value ++ rest)))))) :
    ReadsTo (fuel + 1) first d s d'' r ↔
      ∃ key d', Spells m.key key ∧ Gets d (valuesOf [(key, m.value)]) d' ∧
        ReadsTo fuel false d' rest d'' r := by
  simp only [ReadsTo, readMembers_step hm hv hr hn]
  constructor
  · rintro ⟨t, ⟨key, d', hk, hd, h⟩, ht⟩
    exact ⟨key, d', hk, hd, t, h, ht⟩
  · rintro ⟨key, d', hk, hd, t, h, ht⟩
    exact ⟨t, ⟨key, d', hk, hd, h⟩, ht⟩

theorem readsTo_cons {d d'' : Draft} {m : Member} {ms : List Member} (hm : m.Spaced)
    (hv : WellFormed m.value) (hr : Stops rest)
    (hn : nextKey first s =
      .ok (some (m.key ++ '"' :: (m.gap ++ ':' :: (m.ahead ++ (m.value ++ rest))))))
    (ih : ∀ d, ReadsTo fuel false d rest d'' r ↔ Settle ms d d'' ∧ r = t) :
    ReadsTo (fuel + 1) first d s d'' r ↔ Settle (m :: ms) d d'' ∧ r = t := by
  rw [readsTo_member hm hv hr hn, settle_cons_iff]
  simp only [ih, ← and_assoc, exists_and_right]

theorem readsTo_after {d d' : Draft} {ms : List Member} (hw : White w)
    (h : ∀ m ∈ ms, m.Spaced ∧ WellFormed m.value) (hf : ms.length < fuel) :
    ReadsTo fuel false d (w ++ after '}' (ms.map Member.item) rest) d' r ↔
      Settle ms d d' ∧ r = rest := by
  -- On the members that are left; `w` is the white space behind the one before.
  induction ms generalizing w d fuel with
  | nil =>
    obtain ⟨n, rfl⟩ : ∃ n, fuel = n + 1 := ⟨fuel - 1, (Nat.sub_add_cancel hf).symm⟩
    rw [List.map_nil, after, readsTo_end hw, settle_nil_iff]
  | cons m ms ih =>
    obtain ⟨n, rfl⟩ : ∃ n, fuel = n + 1 := ⟨fuel - 1, by omega⟩
    obtain ⟨hm, hv⟩ := h m List.mem_cons_self
    have hr := (stops_after (.inr rfl) (ms.map Member.item) rest).append hm.trail
    rw [List.map_cons, after, Member.item_append]
    exact readsTo_cons hm hv hr (nextKey_more hw hm.lead _) fun d =>
      ih hm.trail (fun k hk => h k (List.mem_cons_of_mem m hk)) (Nat.lt_of_succ_lt_succ hf)

theorem readsTo_object (o : Object) (rest : List Char) : ∃ s, o.chars ++ rest = '{' :: s ∧
    ∀ d r, ReadsTo (s.length + 1) true {} s d r ↔ Settle o.members {} d ∧ r = rest := by
  obtain ⟨w, ms, hw, hs, hv⟩ := o
  cases ms with
  | nil =>
    refine ⟨_, bracketed_nil_append '{' '}' w rest, fun d r => ?_⟩
    rw [readsTo_end hw, settle_nil_iff]
  | cons m ms =>
    refine ⟨_, bracketed_cons_append '{' '}' w m.item (ms.map Member.item) rest, fun d r => ?_⟩
    have h : ∀ k ∈ m :: ms, k.Spaced ∧ WellFormed k.value := fun k hk => ⟨hs k hk, hv k hk⟩
    obtain ⟨hm, hv⟩ := h m List.mem_cons_self
    have hr := (stops_after (.inr rfl) (ms.map Member.item) rest).append hm.trail
    have hl := length_lt_after '}' (ms.map Member.item) rest
    rw [List.length_map] at hl
    rw [Member.item_append]
    refine readsTo_cons hm hv hr (nextKey_first hm.lead _) fun d => ?_
    refine readsTo_after hm.trail (fun k hk => h k (List.mem_cons_of_mem m hk)) ?_
    simp only [List.length_append, List.length_cons]
    omega

theorem finish_eq_ok {d : Draft} : d.finish = .ok f ↔
    d.file = some f.file ∧ d.status = some f.status ∧ d.message = some f.message ∧
      d.output.join = f.output := by
  obtain ⟨file, status, message, output⟩ := d
  obtain ⟨_, _, _, _⟩ := f
  cases file <;> cases status <;> cases message <;> simp [Draft.finish]

theorem slot_some_iff : Slot P none vs (some x) ↔ ∃ v, vs = [v] ∧ P v x := by
  constructor
  · rintro ⟨⟩
    exact ⟨_, rfl, ‹_›⟩
  · rintro ⟨v, rfl, h⟩
    exact .read h

theorem outputIs_iff : OutputIs vs x ↔ ∃ b, Slot IsText? none vs b ∧ b.join = x := by
  constructor
  · rintro (⟨rfl, rfl⟩ | ⟨v, rfl, h⟩)
    · exact ⟨none, .left, rfl⟩
    · exact ⟨some x, .read h, rfl⟩
  · rintro ⟨_, ⟨⟩ | h, rfl⟩
    · exact .inl ⟨rfl, rfl⟩
    · exact .inr ⟨_, rfl, h⟩

theorem describes_iff {es : List (String × List Char)} {f : Finding} :
    (∃ d, Gets {} (valuesOf es) d ∧ d.finish = .ok f) ↔ Describes es f := by
  simp only [finish_eq_ok]
  constructor
  · rintro ⟨d, ⟨hf, hs, hm, ho⟩, hf', hs', hm', ho'⟩
    rw [hf'] at hf
    rw [hs'] at hs
    rw [hm'] at hm
    exact ⟨slot_some_iff.mp hf, slot_some_iff.mp hs, slot_some_iff.mp hm,
      outputIs_iff.mpr ⟨_, ho, ho'⟩⟩
  · rintro ⟨hf, hs, hm, ho⟩
    obtain ⟨o, ho, hj⟩ := outputIs_iff.mp ho
    exact ⟨⟨some f.file, some f.status, some f.message, o⟩, ⟨slot_some_iff.mpr hf,
      slot_some_iff.mpr hs, slot_some_iff.mpr hm, ho⟩, rfl, rfl, rfl, hj⟩

theorem read_object (o : Object) (hw : White w) :
    read (w ++ (o.chars ++ rest)) = .ok (f, r) ↔
      (∃ es, Entries o.members es ∧ Describes es f) ∧ r = rest := by
  obtain ⟨s, hs, hr⟩ := readsTo_object o rest
  rw [read, skipSpace_append hw, hs, skipSpace_cons (by decide)]
  simp only [bind_eq_ok, Prod.exists, ← describes_iff]
  constructor
  · rintro ⟨d, t, ht, f', hf, r', hx, hp⟩
    cases hp
    obtain ⟨⟨es, he, hg⟩, rfl⟩ := (hr d r).mp ⟨t, ht, hx⟩
    exact ⟨⟨es, he, d, hg, hf⟩, rfl⟩
  · rintro ⟨⟨es, he, d, hg, hf⟩, rfl⟩
    obtain ⟨t, ht, hx⟩ := (hr d r).mpr ⟨⟨es, he, hg⟩, rfl⟩
    exact ⟨d, t, ht, f, hf, r, hx, rfl⟩

theorem readWhole_eq_ok {read : List Char → Except Fault (α × List Char)} {s : String} :
    readWhole read s = .ok a ↔ ∃ w, White w ∧ read s.toList = .ok (a, w) := by
  have hw : ∀ w, (skipSpace w).isEmpty = true ↔ White w := fun w => by
    rw [List.isEmpty_iff, skipSpace, List.dropWhile_eq_nil_iff, White]
  simp only [readWhole, bind_eq_ok, Prod.exists]
  constructor
  · rintro ⟨b, w, hr, h⟩
    split at h
    · next he =>
      cases h
      exact ⟨w, (hw w).mp he, hr⟩
    · cases h
  · rintro ⟨w, he, hr⟩
    exact ⟨a, w, hr, if_pos ((hw w).mpr he)⟩

theorem ofJson_iff {D : Finding → Prop} (h : Holds s v)
    (hd : ∀ {w rest f r}, White w → (read (w ++ (v ++ rest)) = .ok (f, r) ↔ D f ∧ r = rest)) :
    ofJson s = .ok f ↔ D f := by
  obtain ⟨a, b, ha, hb, hs⟩ := h
  simp only [ofJson, readWhole_eq_ok, hs, hd ha]
  constructor
  · rintro ⟨_, -, hf, -⟩
    exact hf
  · exact fun hf => ⟨b, hb, hf, rfl⟩

theorem ofJson_object {o : Object} (h : Holds s o.chars) :
    ofJson s = .ok f ↔ ∃ es, Entries o.members es ∧ Describes es f :=
  ofJson_iff (D := fun f => ∃ es, Entries o.members es ∧ Describes es f) h (read_object o)

end Finding
end Triage
