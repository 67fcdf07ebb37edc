import Mathlib.Data.List.Forall2
import Triage.Csv.Reader

set_option autoImplicit true

namespace Triage.Csv

open Reader (step)

variable {fields : List String} {records : List (List String)}

theorem foldlM_quoted (fields : List String) (records : List (List String)) (s read : List Char) :
    (s.flatMap fun c => if c = '"' then ['"', '"'] else [c]).foldlM step
        ⟨.quoted, read, fields, records⟩ =
      some ⟨.quoted, s.reverse ++ read, fields, records⟩ := by
  induction s generalizing read with
  | nil => rfl
  | cons c s ih =>
    have hc : (if c = '"' then ['"', '"'] else [c]).foldlM step
        ⟨.quoted, read, fields, records⟩ = some ⟨.quoted, c :: read, fields, records⟩ := by
      split
      next h =>
        subst h
        rfl
      next h => simp [step, Reader.add]
    rw [List.flatMap_cons, List.foldlM_append, hc, List.reverse_cons, List.append_assoc]
    exact ih (c :: read)

theorem foldlM_quote (hs : spot = .record ∨ spot = .field) (s : List Char) :
    (quote s).foldlM step ⟨spot, [], fields, records⟩ =
      some ⟨.closed, s.reverse, fields, records⟩ := by
  have ho : step ⟨spot, [], fields, records⟩ '"' = some ⟨.quoted, [], fields, records⟩ := by
    rcases hs with rfl | rfl <;> rfl
  have hq := foldlM_quoted fields records s []
  rw [List.append_nil] at hq
  simp only [quote, List.cons_append, List.foldlM_cons, List.foldlM_append, ho, hq, bind,
    Option.bind_some]
  rfl

theorem foldlM_fields (hs : spot = .record ∨ spot = .field) (f : String) (fs : List String) :
    (List.intercalate [','] ((f :: fs).map fun s => quote s.toList) ++ ['\n']).foldlM step
        ⟨spot, [], fields, records⟩ =
      some { records := (fields.reverse ++ f :: fs) :: records } := by
  induction fs generalizing spot fields f with
  | nil =>
    simp only [List.map_cons, List.map_nil, List.intercalate_singleton, List.foldlM_append,
      foldlM_quote hs, bind, Option.bind_some, List.foldlM_cons]
    simp [step, Reader.endRecord, Reader.endField]
  | cons g fs ih =>
    have hc : step ⟨.closed, f.toList.reverse, fields, records⟩ ',' =
        some ⟨.field, [], f :: fields, records⟩ := by
      simp [step, Reader.endField]
    rw [List.map_cons, List.map_cons, List.intercalate_cons_cons, List.append_assoc,
      List.append_assoc, List.foldlM_append, foldlM_quote hs]
    simp only [bind, Option.bind_some, List.singleton_append, List.foldlM_cons, hc]
    refine (ih (.inr rfl) g).trans ?_
    rw [List.reverse_cons, List.append_assoc]
    rfl

theorem foldlM_record {fs : List String} (h : fs ≠ []) :
    (record fs).foldlM step { records } = some { records := fs :: records } := by
  obtain ⟨f, fs, rfl⟩ := List.exists_cons_of_ne_nil h
  exact foldlM_fields (.inl rfl) f fs

theorem foldlM_records {rows : List (List String)} (h : ∀ fs ∈ rows, fs ≠ [])
    (records : List (List String)) :
    (rows.flatMap record).foldlM step { records } =
      some { records := rows.reverse ++ records } := by
  induction rows generalizing records with
  | nil => rfl
  | cons fs rows ih =>
    rw [List.flatMap_cons, List.foldlM_append, foldlM_record (h fs List.mem_cons_self),
      List.reverse_cons, List.append_assoc]
    exact ih (fun gs hg => h gs (List.mem_cons_of_mem _ hg)) (fs :: records)

theorem read_records {rows : List (List String)} (h : ∀ fs ∈ rows, fs ≠ []) :
    read (String.ofList (rows.flatMap record)) = some rows := by
  have hr := foldlM_records h []
  rw [List.append_nil] at hr
  rw [read, String.toList_ofList, hr]
  simp [Reader.finish]

theorem row_inj {f g : Finding} (h : row f = row g) :
    f.file = g.file ∧ f.status = g.status ∧ f.message = g.message := by
  simp only [row, List.cons.injEq, and_true] at h
  obtain ⟨hf, hs, hm⟩ := h
  have hs : Status.ofName? f.status.name = Status.ofName? g.status.name := congrArg _ hs
  rw [Status.ofName?_name, Status.ofName?_name] at hs
  exact ⟨hf, Option.some.inj hs, hm⟩

/-- Whatever the texts of findings are made of, reading what was written gives the header and then
one record for each finding, in order.  So findings that are written alike are alike, but for what
they keep of the output. -/
theorem findings_read_back (fs : List Finding) :
    read (ofFindings fs) = some (["file", "status", "message"] ::
      fs.map fun f => [f.file, f.status.name, f.message]) ∧
    ∀ gs, ofFindings fs = ofFindings gs → List.Forall₂ (fun f g =>
      f.file = g.file ∧ f.status = g.status ∧ f.message = g.message) fs gs := by
  have hr (fs : List Finding) : read (ofFindings fs) = some (header :: fs.map row) := by
    refine read_records fun r hm => ?_
    rcases List.mem_cons.mp hm with rfl | hm
    · exact List.cons_ne_nil _ _
    · obtain ⟨f, -, rfl⟩ := List.mem_map.mp hm
      exact List.cons_ne_nil _ _
  refine ⟨hr fs, fun gs h => ?_⟩
  have he : some (header :: fs.map row) = some (header :: gs.map row) := by
    rw [← hr fs, h, hr gs]
  obtain ⟨-, he⟩ := List.cons.inj (Option.some.inj he)
  have hf : List.Forall₂ (· = ·) (fs.map row) (gs.map row) := he ▸ List.forall₂_refl _
  rw [List.forall₂_map_left_iff, List.forall₂_map_right_iff] at hf
  exact hf.imp fun _ _ => row_inj

end Triage.Csv
