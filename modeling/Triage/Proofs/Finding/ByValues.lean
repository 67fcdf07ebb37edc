import Mathlib.Data.List.Forall2
import Triage.Proofs.Finding.Positions

set_option autoImplicit true

namespace Triage

open Json

theorem Status.Spelled.unique (h : Spelled v s) (h' : Spelled v t) : s = t := by
  have he := (read_spelled h []).symm.trans (read_spelled h' [])
  rw [Except.ok.injEq, Prod.mk.injEq] at he
  exact he.1

theorem Status.spelled_iff_of_isText (h : IsText v t) : Spelled v s ↔ t = s.name := by
  constructor
  · intro hs
    cases hs with
    | name hs => exact h.unique hs
    | object => exact absurd h (not_isText (by decide) _ _)
  · rintro rfl
    exact .name h

/-- Members with the same key that say the same: their values are equal, spell one text or name one
status. -/
inductive Json.Same : String × List Char → String × List Char → Prop
  | refl (e : String × List Char) : Same e e
  | text (h : IsText v s) (h' : IsText w s) : Same (k, v) (k, w)
  | status (h : Status.Spelled v s) (h' : Status.Spelled w s) : Same ("status", v) ("status", w)

namespace Finding

def keys : List String := ["file", "status", "message", "output"]

def counting (es : List (String × List Char)) : List (String × List Char) :=
  es.filter (·.1 ∈ keys)

/-- What counts for a finding is the same up to order and spelling. -/
def Alike (es es' : List (String × List Char)) : Prop :=
  ∃ us, us.Perm (counting es) ∧ List.Forall₂ Same us (counting es')

theorem isText_iff_of_same (h : Same (k, v) (k, w)) (hk : k ≠ "status") :
    IsText v s ↔ IsText w s := by
  cases h with
  | refl => rfl
  | text h h' => exact ⟨fun hs => h.unique hs ▸ h', fun hs => h'.unique hs ▸ h⟩
  | status => exact absurd rfl hk

theorem isText?_iff_of_same (h : Same (k, v) (k, w)) (hk : k ≠ "status") :
    IsText? v o ↔ IsText? w o := by
  cases o with
  | some s => exact isText_iff_of_same h hk
  | none =>
    cases h with
    | refl => rfl
    | text h h' =>
      obtain ⟨b, rfl, -⟩ := h
      obtain ⟨b', rfl, -⟩ := h'
      exact ⟨nofun, nofun⟩
    | status => exact absurd rfl hk

theorem spelled_iff_of_same (h : Same (k, v) (k, w)) :
    Status.Spelled v s ↔ Status.Spelled w s := by
  cases h with
  | refl => rfl
  | text h h' => rw [Status.spelled_iff_of_isText h, Status.spelled_iff_of_isText h']
  | status h h' => exact ⟨fun hs => h.unique hs ▸ h', fun hs => h'.unique hs ▸ h⟩

theorem valuesOf_counting (hk : k ∈ keys) (es : List (String × List Char)) :
    valuesOf (counting es) k = valuesOf es k := by
  rw [valuesOf, valuesOf, counting, List.filter_filter]
  refine congrArg (List.map _) (List.filter_congr fun e _ => ?_)
  by_cases he : e.1 = k
  · simp [he, hk]
  · simp [he]

theorem valuesOf_perm (h : List.Perm es es') (k : String) :
    (valuesOf es k).Perm (valuesOf es' k) := (h.filter _).map _

theorem valuesOf_forall₂ (h : List.Forall₂ Same es es') (k : String) :
    List.Forall₂ (fun v w => Same (k, v) (k, w)) (valuesOf es k) (valuesOf es' k) := by
  induction h with
  | nil => exact .nil
  | @cons e e' es es' h hs ih =>
    have he : e.1 = e'.1 := by cases h <;> rfl
    rw [valuesOf_cons e, valuesOf_cons e']
    refine List.rel_append ?_ ih
    obtain ⟨key, v⟩ := e
    obtain ⟨key', w⟩ := e'
    obtain rfl : key = key' := he
    rw [valuesOf_singleton, valuesOf_singleton]
    split
    · next hk =>
      subst k
      exact .cons h .nil
    · exact .nil

theorem Alike.same_values (h : Alike es es') (hk : k ∈ keys) :
    ∃ us, us.Perm (valuesOf es k) ∧
      List.Forall₂ (fun v w => Same (k, v) (k, w)) us (valuesOf es' k) := by
  obtain ⟨us, hp, hs⟩ := h
  refine ⟨_, valuesOf_counting hk es ▸ valuesOf_perm hp k, ?_⟩
  exact valuesOf_counting hk es' ▸ valuesOf_forall₂ hs k

theorem Alike.nil_iff (h : Alike es es') (hk : k ∈ keys) :
    valuesOf es k = [] ↔ valuesOf es' k = [] := by
  obtain ⟨us, hp, hs⟩ := h.same_values hk
  rw [← List.length_eq_zero_iff, ← hp.length_eq, hs.length_eq, List.length_eq_zero_iff]

theorem Alike.singleton_iff (h : Alike es es') (hk : k ∈ keys) {P : List Char → Prop}
    (hP : ∀ v w, Same (k, v) (k, w) → (P v ↔ P w)) :
    (∃ v, valuesOf es k = [v] ∧ P v) ↔ ∃ w, valuesOf es' k = [w] ∧ P w := by
  obtain ⟨us, hp, hs⟩ := h.same_values hk
  -- A single value has no other order, so on either side `us` is that value.
  constructor
  · rintro ⟨v, hv, hw⟩
    rw [hv, List.perm_singleton] at hp
    subst us
    obtain ⟨w, _, hvw, hn, he⟩ := List.forall₂_cons_left_iff.mp hs
    cases hn
    exact ⟨w, he, (hP v w hvw).mp hw⟩
  · rintro ⟨w, hv, hw⟩
    rw [hv] at hs
    obtain ⟨v, _, hvw, hn, rfl⟩ := List.forall₂_cons_right_iff.mp hs
    cases hn
    exact ⟨v, List.perm_singleton.mp hp.symm, (hP v w hvw).mpr hw⟩

theorem Alike.describes_iff (h : Alike es es') {f : Finding} :
    Describes es f ↔ Describes es' f := by
  have hf := h.singleton_iff (k := "file") (by decide) fun v w hs =>
    isText_iff_of_same (s := f.file) hs (by decide)
  have hs := h.singleton_iff (k := "status") (by decide) fun v w hs =>
    spelled_iff_of_same (s := f.status) hs
  have hm := h.singleton_iff (k := "message") (by decide) fun v w hs =>
    isText_iff_of_same (s := f.message) hs (by decide)
  have ho := h.singleton_iff (k := "output") (by decide) fun v w hs =>
    isText?_iff_of_same (o := f.output) hs (by decide)
  have hn := h.nil_iff (k := "output") (by decide)
  constructor
  · rintro ⟨h₁, h₂, h₃, h₄⟩
    exact ⟨hf.mp h₁, hs.mp h₂, hm.mp h₃, h₄.imp (And.imp_left hn.mp) ho.mp⟩
  · rintro ⟨h₁, h₂, h₃, h₄⟩
    exact ⟨hf.mpr h₁, hs.mpr h₂, hm.mpr h₃, h₄.imp (And.imp_left hn.mpr) ho.mpr⟩

theorem entries_unique (h : Entries ms es) (h' : Entries ms es') : es = es' := by
  induction h generalizing es' with
  | nil =>
    cases h'
    rfl
  | cons h hs ih =>
    obtain ⟨e', es', he, hs', rfl⟩ := List.forall₂_cons_left_iff.mp h'
    rw [ih hs', Prod.ext (h.1.unique he.1) (h.2.symm.trans he.2)]

theorem ofJson_of_entries {o : Object} (h : Holds s o.chars) (he : Entries o.members es) :
    ofJson s = .ok f ↔ Describes es f := by
  rw [ofJson_object h]
  constructor
  · rintro ⟨es', he', hd⟩
    exact entries_unique he' he ▸ hd
  · exact fun hd => ⟨es, he, hd⟩

theorem describes_iff_values (hf : valuesOf es "file" = [v₁]) (hs : valuesOf es "status" = [v₂])
    (hm : valuesOf es "message" = [v₃]) : Describes es f ↔
      IsText v₁ f.file ∧ Status.Spelled v₂ f.status ∧ IsText v₃ f.message ∧
        OutputIs (valuesOf es "output") f.output := by
  constructor
  · rintro ⟨⟨_, h₁, h₁'⟩, ⟨_, h₂, h₂'⟩, ⟨_, h₃, h₃'⟩, h₄⟩
    cases hf.symm.trans h₁
    cases hs.symm.trans h₂
    cases hm.symm.trans h₃
    exact ⟨h₁', h₂', h₃', h₄⟩
  · rintro ⟨h₁, h₂, h₃, h₄⟩
    exact ⟨⟨v₁, hf, h₁⟩, ⟨v₂, hs, h₂⟩, ⟨v₃, hm, h₃⟩, h₄⟩

/-- A text that holds an object is read exactly if each key of it spells some text, `file`, `status`
and `message` come once with a text, a status and a text, and `output` at most once with a text or
`null`.  The finding is the one of every object that is alike and of the list of the values. -/
theorem read_by_values (hs : Holds s v) (hv : WellFormed v) (hb : v.head? = some '{') :
    (∃ o : Object, v = o.chars) ∧
    ∀ o : Object, v = o.chars →
      (∀ f, ofJson s = .ok f ↔ ∃ es, Entries o.members es ∧ Describes es f) ∧
      ∀ es, Entries o.members es →
        (∀ (o' : Object) es' t, Holds t o'.chars → Entries o'.members es' → Alike es es' →
          ∀ f, ofJson t = .ok f ↔ ofJson s = .ok f) ∧
        (∀ (l : Listing) v₁ v₂ v₃ t, Holds t l.chars → valuesOf es "file" = [v₁] →
          valuesOf es "status" = [v₂] → valuesOf es "message" = [v₃] →
          l.values = v₁ :: v₂ :: v₃ :: valuesOf es "output" →
          ∀ f, ofJson t = .ok f ↔ ofJson s = .ok f) := by
  refine ⟨?_, ?_⟩
  · obtain rfl | ⟨b, ps, rfl, -⟩ | ho | ⟨c, t, rfl, -, -, hc⟩ := hv.shape
    · cases hb
    · cases hb
    · exact ho
    · exact absurd (Option.some.inj hb) hc
  · rintro o rfl
    refine ⟨fun f => ofJson_object hs, fun es he => ⟨?_, ?_⟩⟩
    · intro o' es' t ht he' ha f
      rw [ofJson_of_entries ht he', ofJson_of_entries hs he, ha.describes_iff]
    · intro l v₁ v₂ v₃ t ht hf hst hm hl f
      rw [ofJson_listing ht hl, ofJson_of_entries hs he, describes_iff_values hf hst hm]

theorem body_of_plain (h : b.all (fun c => c ≠ '"' ∧ c ≠ '\\' ∧ 0x20 ≤ c.toNat) = true) :
    Body b (b.map .char) := by
  induction b with
  | nil => exact .nil
  | cons c b ih =>
    simp only [List.all_cons, Bool.and_eq_true, decide_eq_true_eq] at h
    obtain ⟨⟨hq, hb, hc⟩, h⟩ := h
    exact .plain hq hb hc (ih (by simpa using h))

theorem forms_map_char (s : List Char) : Forms (s.map .char) s := by
  induction s with
  | nil => exact .nil
  | cons c s ih => exact .char ih

theorem spells_of_plain (h : b.all (fun c => c ≠ '"' ∧ c ≠ '\\' ∧ 0x20 ≤ c.toNat) = true)
    (hs : s.toList = b) : Spells b s := ⟨_, body_of_plain h, hs ▸ forms_map_char b⟩

def bare (key value : List Char) : Member := ⟨[], key, [], [], value, []⟩

theorem bare_spaced (h : Body key ps) (value : List Char) : (bare key value).Spaced :=
  ⟨.nil, ⟨ps, h⟩, .nil, .nil, .nil⟩

theorem wellFormed_of_plain
    (h : b.all (fun c => c ≠ '"' ∧ c ≠ '\\' ∧ 0x20 ≤ c.toNat) = true) :
    WellFormed ('"' :: (b ++ ['"'])) := .text (body_of_plain h)

theorem wellFormed_digit (hc : c ≠ '0') (hd : isDigit c = true) : WellFormed [c] := by
  have hw : Whole [c] := .digits hc ⟨List.cons_ne_nil c [], List.forall_mem_singleton.mpr hd⟩
  exact .positive (.mk hw .none .none)

def scattered : Object where
  gap := []
  members := [
    bare "\\u006dessage".toList "\"\\/\"".toList,
    bare "x".toList "[1,\x7b\x7d]".toList,
    ⟨[], "status".toList, [' '], [' '], "\"OK\"".toList, []⟩,
    bare "x".toList "1".toList,
    bare "file".toList "\"a\"".toList]
  white := .nil
  spaced m hm := by
    have hw : White [' '] := List.forall_mem_singleton.mpr rfl
    have hk : Body "\\u006dessage".toList (.unit 0x6D :: "essage".toList.map .char) :=
      .unit (by decide) (body_of_plain (by decide))
    simp only [List.mem_cons, List.not_mem_nil, or_false] at hm
    obtain rfl | rfl | rfl | rfl | rfl := hm
    · exact bare_spaced hk _
    · exact bare_spaced (body_of_plain (by decide)) _
    · exact ⟨.nil, ⟨_, body_of_plain (by decide)⟩, hw, hw, .nil⟩
    · exact bare_spaced (body_of_plain (by decide)) _
    · exact bare_spaced (body_of_plain (by decide)) _
  wellFormed m hm := by
    have hd : WellFormed ['1'] := wellFormed_digit (by decide) (by decide)
    have ho : WellFormed (bracketed '{' '}' [] []) := @WellFormed.object [] .nil [] nofun nofun
    have hl : WellFormed
        (bracketed '[' ']' [] [⟨[], ['1'], []⟩, ⟨[], bracketed '{' '}' [] [], []⟩]) := by
      refine .list .nil ?_ ?_ <;> rw [List.forall_mem_cons, List.forall_mem_singleton]
      · exact ⟨⟨.nil, .nil⟩, ⟨.nil, .nil⟩⟩
      · exact ⟨hd, ho⟩
    simp only [List.mem_cons, List.not_mem_nil, or_false] at hm
    obtain rfl | rfl | rfl | rfl | rfl := hm
    · exact .text (.short (e := '/') (c := '/') rfl .nil)
    · exact hl
    · exact wellFormed_of_plain (b := "OK".toList) (by decide)
    · exact hd
    · exact wellFormed_of_plain (b := ['a']) (by decide)

def listed : Listing where
  gap := []
  items := [⟨[], "\"a\"".toList, []⟩, ⟨[], "\"OK\"".toList, []⟩, ⟨[], "\"\\/\"".toList, []⟩]
  white := .nil
  spaced i hi := by
    simp only [List.mem_cons, List.not_mem_nil, or_false] at hi
    obtain rfl | rfl | rfl := hi <;> exact ⟨.nil, .nil⟩
  wellFormed i hi := by
    simp only [List.mem_cons, List.not_mem_nil, or_false] at hi
    obtain rfl | rfl | rfl := hi
    · exact wellFormed_of_plain (b := ['a']) (by decide)
    · exact wellFormed_of_plain (b := "OK".toList) (by decide)
    · exact .text (.short (e := '/') (c := '/') rfl .nil)

def scatteredText : String :=
  "\x7b\"\\u006dessage\":\"\\/\",\"x\":[1,\x7b\x7d],\"status\" : \"OK\",\"x\":1,\"file\":\"a\"\x7d"

def listedText : String := "[\"a\",\"OK\",\"\\/\"]"

theorem read_by_values_of_scattered :
    Holds scatteredText scattered.chars ∧ WellFormed scattered.chars ∧
      scattered.chars.head? = some '{' ∧ ofJson scatteredText = .ok ⟨"a", .ok, "/", none⟩ ∧
      Holds listedText listed.chars ∧ ofJson listedText = .ok ⟨"a", .ok, "/", none⟩ := by
  have hs : Holds scatteredText scattered.chars := ⟨[], [], .nil, .nil, rfl⟩
  have hl : Holds listedText listed.chars := ⟨[], [], .nil, .nil, rfl⟩
  have hv : WellFormed scattered.chars :=
    .object scattered.white scattered.spaced scattered.wellFormed
  have hk : Spells "\\u006dessage".toList "message" :=
    ⟨_, .unit (n := 0x6D) (by decide) (body_of_plain (by decide)),
      .unit (c := 'm') (by decide) (forms_map_char _)⟩
  have hx : Spells "x".toList "x" := spells_of_plain (by decide) rfl
  have ha : IsText "\"a\"".toList "a" := ⟨['a'], rfl, spells_of_plain (by decide) rfl⟩
  have ho : IsText "\"OK\"".toList "OK" := ⟨"OK".toList, rfl, spells_of_plain (by decide) rfl⟩
  have hm : IsText "\"\\/\"".toList "/" :=
    ⟨"\\/".toList, rfl, _, .short (c := '/') rfl .nil, .char .nil⟩
  have he : Entries scattered.members [("message", "\"\\/\"".toList),
      ("x", "[1,\x7b\x7d]".toList), ("status", "\"OK\"".toList), ("x", "1".toList),
      ("file", "\"a\"".toList)] :=
    .cons ⟨hk, rfl⟩ (.cons ⟨hx, rfl⟩ (.cons ⟨spells_of_plain (by decide) rfl, rfl⟩
      (.cons ⟨hx, rfl⟩ (.cons ⟨spells_of_plain (by decide) rfl, rfl⟩ .nil))))
  obtain ⟨h, h'⟩ := (read_by_values hs hv rfl).2 scattered rfl
  have hf := (h ⟨"a", .ok, "/", none⟩).mpr
    ⟨_, he, ⟨⟨_, rfl, ha⟩, ⟨_, rfl, .name ho⟩, ⟨_, rfl, hm⟩, .inl ⟨rfl, rfl⟩⟩⟩
  exact ⟨hs, hv, rfl, hf, hl, ((h' _ he).2 listed _ _ _ _ hl rfl rfl rfl rfl _).mpr hf⟩

theorem not_spells_half (key : String) : ¬ Spells "\\ud800".toList key := by
  rintro ⟨ps, hb, hf⟩
  obtain rfl : ps = [.unit 0xD800] := hb.pieces_eq (.unit (by decide) .nil)
  have hj := joinFrom_forms hf []
  have hl : isLowUnit 0xD800 = false := by decide
  have hh : isHighUnit 0xD800 = true := by decide
  rw [joinFrom.eq_def] at hj
  simp [hl, hh] at hj

def halved : Object where
  gap := []
  members := [
    bare "\\ud800".toList "1".toList,
    bare "file".toList "\"a\"".toList,
    bare "status".toList "\"OK\"".toList,
    bare "message".toList "\"m\"".toList]
  white := .nil
  spaced m hm := by
    simp only [List.mem_cons, List.not_mem_nil, or_false] at hm
    obtain rfl | rfl | rfl | rfl := hm
    · exact bare_spaced (.unit (n := 0xD800) (by decide) .nil) _
    · exact bare_spaced (body_of_plain (by decide)) _
    · exact bare_spaced (body_of_plain (by decide)) _
    · exact bare_spaced (body_of_plain (by decide)) _
  wellFormed m hm := by
    simp only [List.mem_cons, List.not_mem_nil, or_false] at hm
    obtain rfl | rfl | rfl | rfl := hm
    · exact wellFormed_digit (by decide) (by decide)
    · exact wellFormed_of_plain (b := ['a']) (by decide)
    · exact wellFormed_of_plain (b := "OK".toList) (by decide)
    · exact wellFormed_of_plain (b := ['m']) (by decide)

def halvedText : String :=
  "\x7b\"\\ud800\":1,\"file\":\"a\",\"status\":\"OK\",\"message\":\"m\"\x7d"

theorem not_read_with_half_pair :
    WellFormed halved.chars ∧ Holds halvedText halved.chars ∧
    (∃ m ms es, halved.members = m :: ms ∧ (∀ key, ¬ Spells m.key key) ∧ Entries ms es ∧
      Describes es ⟨"a", .ok, "m", none⟩) ∧
    ∀ f, ofJson halvedText ≠ .ok f := by
  have hs : Holds halvedText halved.chars := ⟨[], [], .nil, .nil, rfl⟩
  have ha : IsText "\"a\"".toList "a" := ⟨['a'], rfl, spells_of_plain (by decide) rfl⟩
  have ho : IsText "\"OK\"".toList "OK" := ⟨"OK".toList, rfl, spells_of_plain (by decide) rfl⟩
  have hm : IsText "\"m\"".toList "m" := ⟨['m'], rfl, spells_of_plain (by decide) rfl⟩
  refine ⟨.object halved.white halved.spaced halved.wellFormed, hs,
    ⟨_, _, [("file", "\"a\"".toList), ("status", "\"OK\"".toList), ("message", "\"m\"".toList)],
      rfl, not_spells_half, ?_, ?_⟩, ?_⟩
  · exact .cons ⟨spells_of_plain (by decide) rfl, rfl⟩
      (.cons ⟨spells_of_plain (by decide) rfl, rfl⟩
        (.cons ⟨spells_of_plain (by decide) rfl, rfl⟩ .nil))
  · exact ⟨⟨_, rfl, ha⟩, ⟨_, rfl, .name ho⟩, ⟨_, rfl, hm⟩, .inl ⟨rfl, rfl⟩⟩
  · intro f hf
    obtain ⟨es, he, -⟩ := (ofJson_object hs).mp hf
    obtain ⟨e, _, hk, -⟩ := List.forall₂_cons_left_iff.mp he
    exact not_spells_half e.1 hk.1

end Finding
end Triage
