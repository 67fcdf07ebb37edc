import Triage.Artifact
import Triage.Proofs.Json.Layout

set_option autoImplicit true

namespace Triage

open Json
open Json.Layout (Spaced)

variable {l : Layout}

theorem Status.read_append (h : ∀ c ∈ a, isSpace c = true) (s : Status) (rest : List Char) :
    Status.read (a ++ (quote s.name.toList ++ rest)) = .ok (s, rest) := by
  have hs : skipSpace (a ++ (quote s.name.toList ++ rest)) =
      '"' :: (s.name.toList.flatMap escapeChar ++ '"' :: rest) := by
    rw [skipSpace_append h, quote_append, skipSpace_cons rfl]
  simp only [Status.read, hs, readQuoted_flatMap, Status.ofText, bind, Except.bind,
    String.ofList_toList, ofName?_name]
  rfl

namespace Finding

theorem field_append (l : Layout) (key value : String) (rest : List Char) :
    l.field key value ++ rest =
      '"' :: (key.toList.flatMap escapeChar ++
        '"' :: ':' :: (l.afterColon ++ (quote value.toList ++ rest))) := by
  simp only [Layout.field, List.append_assoc, List.cons_append, quote_append]

/-- A member whose field is not known yet is read by the reader of that field and kept by `set`. -/
theorem readMembers_field {d : Draft} {first : Bool} {key value : String}
    (hl : l.Spaced) (read : List Char → Except Fault (α × List Char)) (set : α → Draft)
    (hf : ∀ s, d.readField key.toList s = do
      Draft.refuseAgain (none : Option α)
      let (a, r) ← read (← expect ':' s)
      return (set a, r))
    (hr : read (l.afterColon ++ (quote value.toList ++ rest)) = .ok (a, rest)) (fuel depth : Nat) :
    readMembers (fuel + 1) first d (l.lead first depth ++ (l.field key value ++ rest)) =
      readMembers fuel false (set a) rest := by
  have hd : d.readField key.toList (':' :: (l.afterColon ++ (quote value.toList ++ rest))) =
      .ok (set a, rest) := by
    rw [hf, expect_cons (by decide)]
    simp only [Draft.refuseAgain, Option.isSome_none, Bool.false_eq_true, if_false, bind,
      Except.bind, hr]
    rfl
  rw [field_append]
  simp only [readMembers, Layout.nextKey_lead hl, readQuoted_flatMap, hd, bind, Except.bind]

theorem readMembers_nil (hl : l.Spaced) (first : Bool) (d : Draft) (fuel depth : Nat)
    (rest : List Char) :
    readMembers (fuel + 1) first d (l.onward first '}' depth [] rest) =
      .ok (d, l.onward first '}' depth [] rest) := by
  simp only [readMembers, Layout.nextKey_onward_nil hl, bind, Except.bind]
  rfl

def toDraft (f : Finding) : Draft := ⟨some f.file, some f.status, some f.message, f.output.map some⟩

theorem finish_toDraft (f : Finding) : f.toDraft.finish = .ok f := by
  obtain ⟨file, status, message, output⟩ := f
  cases output <;> rfl

theorem readMembers_onward (hl : l.Spaced) (f : Finding) (h : f.fields.length < fuel) (depth : Nat)
    (rest : List Char) :
    readMembers fuel true {}
        (l.onward true '}' depth (f.fields.map fun (key, value) => l.field key value) rest) =
      .ok (f.toDraft, l.onward false '}' depth [] rest) := by
  obtain ⟨file, status, message, output⟩ := f
  -- the members that every finding has
  have hm : ∀ n rest, readMembers (n + 3) true {}
      (l.lead true depth ++ (l.field "file" file ++ (l.lead false depth ++ (l.field "status"
        status.name ++ (l.lead false depth ++ (l.field "message" message ++ rest)))))) =
      readMembers n false ⟨some file, some status, some message, none⟩ rest := by
    intro n rest
    rw [readMembers_field hl readText (fun file => { file := some file })
        (fun _ => by simp [Draft.readField]) (readText_append hl.afterColon _ _),
      readMembers_field hl Status.read (fun status => { file := some file, status := some status })
        (fun _ => by simp [Draft.readField]) (Status.read_append hl.afterColon _ _),
      readMembers_field hl readText (fun message => ⟨some file, some status, some message, none⟩)
        (fun _ => by simp [Draft.readField]) (readText_append hl.afterColon _ _)]
  cases output with
  | none =>
    obtain ⟨n, rfl⟩ : ∃ n, fuel = n + 1 + 3 := ⟨fuel - 4, (Nat.sub_add_cancel h).symm⟩
    simp only [fields, Option.map_none, Option.toList_none, List.append_nil, List.map_cons,
      List.map_nil, Layout.onward]
    rw [hm]
    exact readMembers_nil hl false _ n depth rest
  | some output =>
    obtain ⟨n, rfl⟩ : ∃ n, fuel = n + 2 + 3 := ⟨fuel - 5, (Nat.sub_add_cancel h).symm⟩
    simp only [fields, Option.map_some, Option.toList_some, List.cons_append, List.nil_append,
      List.map_cons, List.map_nil, Layout.onward]
    rw [hm, readMembers_field hl readText?
      (fun output => ⟨some file, some status, some message, some output⟩)
      (fun _ => by simp [Draft.readField]) (readText?_append hl.afterColon _ _)]
    exact readMembers_nil hl false _ n depth rest

theorem record_append (l : Layout) (depth : Nat) (f : Finding) (rest : List Char) :
    l.record depth f.fields ++ rest = '{' ::
      l.onward true '}' depth (f.fields.map fun (key, value) => l.field key value) rest :=
  Layout.bracket_append l '{' '}' depth _ rest

theorem record_ne_nil (l : Layout) (depth : Nat) (f : Finding) : l.record depth f.fields ≠ [] := by
  have hr := record_append l depth f []
  rw [List.append_nil] at hr
  rw [hr]
  exact List.cons_ne_nil _ _

theorem read_record (hl : l.Spaced) (depth : Nat) (f : Finding) (rest : List Char) :
    read (l.record depth f.fields ++ rest) = .ok (f, rest) := by
  have hf : ∀ p ∈ f.fields.map (fun (key, value) => l.field key value), p ≠ [] := by
    intro p hp
    obtain ⟨⟨key, value⟩, -, rfl⟩ := List.mem_map.mp hp
    exact List.cons_ne_nil _ _
  have hn := Layout.length_lt_onward l true '}' depth hf rest
  rw [List.length_map] at hn
  rw [record_append, read, skipSpace_cons rfl]
  simp only [readMembers_onward hl f (Nat.lt_succ_of_lt hn) depth rest, finish_toDraft,
    Layout.expect_onward_nil hl false (c := '}') rfl, bind, Except.bind]
  rfl

theorem readItems_onward (hl : l.Spaced) (fs known : List Finding) (h : fs.length < fuel)
    (rest : List Char) :
    readItems fuel known (l.onward known.isEmpty ']' 0 (fs.map fun f => l.record 1 f.fields) rest) =
      .ok (known.reverse ++ fs, l.onward (known.isEmpty && fs.isEmpty) ']' 0 [] rest) := by
  induction fs generalizing fuel known with
  | nil =>
    obtain ⟨n, rfl⟩ : ∃ n, fuel = n + 1 := ⟨fuel - 1, (Nat.sub_add_cancel h).symm⟩
    simp only [readItems, List.map_nil, Layout.nextItem_onward_nil hl, bind, Except.bind,
      List.append_nil, List.isEmpty_nil, Bool.and_true]
    rfl
  | cons f fs ih =>
    obtain ⟨n, rfl⟩ : ∃ n, fuel = n + 1 := ⟨fuel - 1, (Nat.sub_add_cancel (Nat.zero_lt_of_lt h)).symm⟩
    have ih := ih (f :: known) (Nat.lt_of_succ_lt_succ h)
    have hr := read_record hl 1 f (l.onward false ']' 0 (fs.map fun f => l.record 1 f.fields) rest)
    rw [record_append] at hr
    rw [List.map_cons, Layout.onward_cons, record_append]
    simp only [readItems, Layout.nextItem_lead hl, bind, Except.bind, hr]
    simpa using ih

theorem readList_records (hl : l.Spaced) (fs : List Finding) (rest : List Char) :
    readList (l.records (fs.map fields) ++ rest) = .ok (fs, rest) := by
  have hf : ∀ p ∈ fs.map (fun f => l.record 1 f.fields), p ≠ [] := by
    intro p hp
    obtain ⟨f, -, rfl⟩ := List.mem_map.mp hp
    exact record_ne_nil l 1 f
  have hn := Layout.length_lt_onward l true ']' 0 hf rest
  rw [List.length_map] at hn
  have hr := readItems_onward hl fs [] (Nat.lt_succ_of_lt hn) rest
  have hm : (fs.map fields).map (l.record 1) = fs.map fun f => l.record 1 f.fields := by
    rw [List.map_map]
    rfl
  rw [Layout.records, Layout.bracket_append, hm, readList, skipSpace_cons rfl]
  simp only [List.isEmpty_nil] at hr
  simp only [hr, Layout.expect_onward_nil hl _ (c := ']') rfl, bind, Except.bind]
  rfl

theorem listOfJson_append (hl : l.Spaced) (fs : List Finding) (white : String)
    (hw : ∀ c ∈ white.toList, isSpace c = true) :
    listOfJson (listToJson l fs ++ white) = .ok fs := by
  have hs : skipSpace white.toList = [] := by
    rw [← List.append_nil white.toList, skipSpace_append hw]
    rfl
  rw [listOfJson, readWhole, String.toList_append, listToJson, String.toList_ofList]
  simp only [readList_records hl, bind, Except.bind, hs]
  rfl

theorem listOfJson_listToJson (hl : l.Spaced) (fs : List Finding) :
    listOfJson (listToJson l fs) = .ok fs := by
  have hr := listOfJson_append hl fs "" nofun
  rwa [String.append_empty] at hr

end Finding

namespace Artifact

/-- The JSON of any findings, as the artifact has it or on one line, is read as those findings, so
writing what was read gives the same text again. -/
theorem json_read_back (r : Report) :
    Finding.listOfJson (json.render r) = .ok r.findings ∧
    Finding.listOfJson (Finding.listToJson .compact r.findings) = .ok r.findings ∧
    (∀ s : Report, Finding.listOfJson (json.render r) = .ok s.findings →
      json.render s = json.render r) ∧
    (∀ fs, Finding.listOfJson (Finding.listToJson .compact r.findings) = .ok fs →
      Finding.listToJson .compact fs = Finding.listToJson .compact r.findings) := by
  have hi : Finding.listOfJson (json.render r) = .ok r.findings := by
    rw [render_json]
    refine Finding.listOfJson_append Layout.indented_spaced r.findings "\n" fun c hc => ?_
    cases List.eq_of_mem_singleton (show c ∈ ['\n'] from hc)
    rfl
  have hc := Finding.listOfJson_listToJson Layout.compact_spaced r.findings
  refine ⟨hi, hc, fun s hs => ?_, fun fs hf => ?_⟩
  · have he : r.findings = s.findings := Except.ok.inj (hi.symm.trans hs)
    rw [render_json, render_json, he]
  · have he : r.findings = fs := Except.ok.inj (hc.symm.trans hf)
    rw [he]

end Artifact
end Triage
