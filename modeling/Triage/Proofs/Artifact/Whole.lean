import Triage.Proofs.Artifact.Attempts
import Triage.Proofs.FileTree.Contents

set_option autoImplicit true

namespace Triage

open Storage (Act Step)

namespace Artifact

structure Written (st : Storage σ η) (file : η) (bytes : Bytes) (s : σ) (acts : List (Act η))
    (ok : Bool) (s' : σ) : Prop where
  trace : Trace (Step st) s acts s'
  only : ∀ act ∈ acts, ∃ bytes done, act = .write file bytes done
  ok_iff : ok = true ↔ ∀ act ∈ acts, act.done = true
  whole : ok = true → acts.flatMap Act.bytes = bytes

variable {st : Storage σ η} {file : η} {s s₁ s₂ : σ}

namespace Written

theorem nothing : Written st file [] s [] true s where
  trace := .refl
  only := by simp
  ok_iff := by simp
  whole _ := rfl

theorem wrote (h : st.write file bytes s = (.ok (), s₁)) :
    Written st file bytes s [.write file bytes true] true s₁ where
  trace := .single (.wrote h)
  only := by simp
  ok_iff := by simp [Act.done]
  whole _ := by simp [Act.bytes]

theorem failed (h : st.write file bytes s = (.error e, s₁)) (bytes' : Bytes) :
    Written st file bytes' s [.write file bytes false] false s₁ where
  trace := .single (.failed h)
  only := by simp
  ok_iff := by simp [Act.done]
  whole := nofun

theorem append (h : Written st file b s acts true s₁) (h' : Written st file b' s₁ acts' ok s₂) :
    Written st file (b ++ b') s (acts ++ acts') ok s₂ where
  trace := h.trace.append h'.trace
  only act hm := (List.mem_append.mp hm).elim (h.only act) (h'.only act)
  ok_iff := by
    rw [h'.ok_iff, List.forall_mem_append]
    exact (and_iff_right (h.ok_iff.mp rfl)).symm
  whole ho := by rw [List.flatMap_append, h.whole rfl, h'.whole ho]

end Written

theorem put_logged (st : Storage σ η) (file : η) (held bytes : Bytes) (s : σ) (log : List (Act η)) :
    (st.put file held bytes s = (.ok (held ++ bytes), s) ∧
      st.logged.put file held bytes (s, log) = (.ok (held ++ bytes), s, log)) ∨
    (∃ s₁, st.write file (held ++ bytes) s = (.ok (), s₁) ∧
      st.put file held bytes s = (.ok [], s₁) ∧
      st.logged.put file held bytes (s, log) =
        (.ok [], s₁, log ++ [.write file (held ++ bytes) true])) ∨
    ∃ e s₁, st.write file (held ++ bytes) s = (.error e, s₁) ∧
      st.put file held bytes s = (.error e, s₁) ∧
      st.logged.put file held bytes (s, log) =
        (.error e, s₁, log ++ [.write file (held ++ bytes) false]) := by
  by_cases hl : (held ++ bytes).length ≤ Storage.blockSize
  · exact .inl ⟨if_pos hl, if_pos hl⟩
  · rcases hw : st.write file (held ++ bytes) s with ⟨e | ⟨⟩, s₁⟩
    · refine .inr (.inr ⟨e, s₁, rfl, ?_, ?_⟩)
      · simp only [Storage.put, if_neg hl, hw]
      · simp only [Storage.put, if_neg hl, Storage.logged_write hw]
        rfl
    · refine .inr (.inl ⟨s₁, rfl, ?_, ?_⟩)
      · simp only [Storage.put, if_neg hl, hw]
      · simp only [Storage.put, if_neg hl, Storage.logged_write hw]
        rfl

theorem flush_logged (st : Storage σ η) (file : η) (held : Bytes) (s : σ) (log : List (Act η)) :
    ∃ acts x s₁, st.flush file held s = (x, s₁) ∧
      st.logged.flush file held (s, log) = (x, s₁, log ++ acts) ∧
      Written st file held s acts x.isOk s₁ := by
  cases held with
  | nil => exact ⟨[], _, _, rfl, by rw [List.append_nil]; rfl, .nothing⟩
  | cons b held =>
    rcases hw : st.write file (b :: held) s with ⟨x, s₁⟩
    refine ⟨_, x, s₁, hw, Storage.logged_write hw log, ?_⟩
    cases x with
    | error e => exact .failed hw _
    | ok => exact .wrote hw

theorem writePieces_logged (st : Storage σ η) (a : Artifact) (path : String) (file : η) (n : Nat)
    (held : Bytes) (ps : List String) (s : σ) (log : List (Act η)) :
    ∃ acts x s₁, writePieces st a path file n held ps s = (x, s₁) ∧
      writePieces st.logged a path file n held ps (s, log) = (x, s₁, log ++ acts) ∧
      Written st file (held ++ ps.flatMap fun p => Text.Utf8.encode p.toList) s acts x.isOk s₁ := by
  induction ps generalizing n held s log with
  | nil =>
    obtain ⟨acts, x, s₁, hf, hl, hw⟩ := flush_logged st file held s log
    simp only [writePieces, hf, hl, List.flatMap_nil, List.append_nil]
    cases x with
    | ok => exact ⟨acts, _, _, rfl, rfl, hw⟩
    | error e => exact ⟨acts, _, _, rfl, rfl, hw⟩
  | cons p ps ih =>
    rw [List.flatMap_cons, ← List.append_assoc]
    rcases put_logged st file held (Text.Utf8.encode p.toList) s log with
      ⟨hp, hl⟩ | ⟨s₁, hw, hp, hl⟩ | ⟨e, s₁, hw, hp, hl⟩
    · simp only [writePieces, hp, hl]
      exact ih (n + 1) _ s log
    · simp only [writePieces, hp, hl]
      obtain ⟨acts, x, s₂, he, hel, ha⟩ := ih (n + 1) [] s₁ (log ++ [.write file _ true])
      rw [List.append_assoc] at hel
      exact ⟨_, x, s₂, he, hel, (Written.wrote hw).append ha⟩
    · simp only [writePieces, hp, hl]
      exact ⟨_, _, _, rfl, rfl, .failed hw _⟩

structure Effort (η : Type) extends Attempt where
  acts : List (Act η)

/-- Nothing that was asked failed: the file was made, and all that was written to it. -/
def Effort.done (t : Effort η) : Bool := t.acts.all (·.done)

/-- How an artifact is tried.  First its file is made; all else that is asked is to write to that
file, and if nothing fails, what is written is the whole artifact. -/
structure Effort.Ran (st : Storage σ η) (r : Report) (s : σ) (t : Effort η) (s' : σ) : Prop where
  trace : Trace (Step st) s t.acts s'
  shape : ∃ file acts, t.acts = .create t.path file :: acts ∧
    ∀ act ∈ acts, ∃ f bytes done, file = some f ∧ act = .write f bytes done
  done_iff : t.done = true ↔ t.fault = none
  whole : t.done = true → t.acts.flatMap Act.bytes = Text.Utf8.encode (render r t.artifact).toList

theorem encode_render (r : Report) (a : Artifact) :
    Text.Utf8.encode (render r a).toList =
      (a.pieces r).flatMap fun p => Text.Utf8.encode p.toList := by
  rw [render, String.toList_join, Text.Utf8.encode, List.flatMap_assoc]
  rfl

theorem write_logged (st : Storage σ η) (a : Artifact) (path : String) (r : Report) (s : σ)
    (log : List (Act η)) :
    ∃ (t : Effort η) (x : Except Fault Unit) (s₁ : σ), write st a path r s = (x, s₁) ∧
      write st.logged a path r (s, log) = (x, s₁, log ++ t.acts) ∧
      t.toAttempt = .ofWrite a path x ∧ t.Ran st r s s₁ := by
  rcases hc : st.create path s with ⟨e | file, s₁⟩
  · refine ⟨⟨.ofWrite a path (.error (.create path e)), [.create path none]⟩,
      .error (.create path e), s₁, ?_, ?_, rfl, ?_⟩
    · simp only [write, hc]
    · simp only [write, Storage.logged_create hc]
      rfl
    · exact ⟨.single (.refused hc), ⟨none, [], rfl, by simp⟩,
        by simp [Effort.done, Act.done, Attempt.ofWrite], nofun⟩
  · obtain ⟨acts, x, s₂, hw, hl, ha⟩ := writePieces_logged st a path file 0 [] (a.pieces r) s₁
      (log ++ [.create path (some file)])
    have hd : (List.all (.create path (some file) :: acts) Act.done) = true ↔ x.isOk = true := by
      simp [ha.ok_iff, Act.done]
    refine ⟨⟨.ofWrite a path x, .create path (some file) :: acts⟩, x, s₂, ?_, ?_, rfl, ?_⟩
    · simp only [write, hc, hw]
    · simp only [write, Storage.logged_create hc]
      rw [List.append_assoc] at hl
      exact hl
    · refine ⟨(Trace.single (.made hc)).append ha.trace, ⟨some file, acts, ?_, ?_⟩, ?_, ?_⟩
      · rw [Attempt.ofWrite_path]
      · rintro act hm
        obtain ⟨bytes, done, rfl⟩ := ha.only act hm
        exact ⟨file, bytes, done, rfl, rfl⟩
      · rw [Effort.done, hd, Attempt.ofWrite_fault]
      · intro ht
        rw [List.flatMap_cons, ha.whole (hd.mp ht), Attempt.ofWrite_artifact, encode_render]
        rfl

theorem attempts_logged (st : Storage σ η) (settings : Settings) (r : Report) (as : List Artifact)
    (s : σ) (log : List (Act η)) :
    ∃ (ts : List (Effort η)) (s₁ : σ),
      attempts st settings r as s = (ts.map (·.toAttempt), s₁) ∧
      attempts st.logged settings r as (s, log) =
        (ts.map (·.toAttempt), s₁, log ++ ts.flatMap (·.acts)) ∧
      Trace (Effort.Ran st r) s ts s₁ := by
  induction as generalizing s log with
  | nil => exact ⟨[], s, rfl, by simp [attempts], .refl⟩
  | cons a as ih =>
    simp only [attempts]
    cases a.path? settings with
    | none => exact ih s log
    | some path =>
      obtain ⟨t, x, s₁, hw, hl, ht, hr⟩ := write_logged st a path r s log
      obtain ⟨ts, s₂, hw', hl', hr'⟩ := ih s₁ (log ++ t.acts)
      refine ⟨t :: ts, s₂, ?_, ?_, (Trace.single hr).append hr'⟩
      · simp only [hw, hw', List.map_cons, ht]
      · simp only [hl, hl', List.map_cons, ht, List.flatMap_cons, List.append_assoc]

theorem ofAttempts_of_efforts {ts : List (Effort η)} (hd : ∀ t ∈ ts, t.done = t.fault.isNone) :
    (Log.ofAttempts (ts.map (·.toAttempt))).written = (ts.filter (·.done)).map (·.path) ∧
      (Log.ofAttempts (ts.map (·.toAttempt))).failures.map Prod.fst =
        (ts.filter (!·.done)).map (·.path) := by
  induction ts with
  | nil => exact ⟨rfl, rfl⟩
  | cons t ts ih =>
    obtain ⟨hw, hf⟩ := ih fun u hu => hd u (List.mem_cons_of_mem t hu)
    have ht := hd t List.mem_cons_self
    simp only [Log.ofAttempts] at hw hf ⊢
    cases h : t.fault with
    | none => simp [Attempt.written?, Attempt.failure?, h, ht, hw, hf, -List.filterMap_map]
    | some f => simp [Attempt.written?, Attempt.failure?, h, ht, hw, hf, -List.filterMap_map]

variable {view : st.View} {r : Report} {t : Effort η} {ts : List (Effort η)}

theorem trace_flatMap (h : Trace (Effort.Ran st r) s ts s₁) :
    Trace (Step st) s (ts.flatMap (·.acts)) s₁ := by
  induction h with
  | refl => exact .refl
  | snoc h ht ih =>
    rw [List.flatMap_append, List.flatMap_singleton]
    exact ih.append ht.trace

theorem Effort.Ran.fileAt?_of_write (h : t.Ran st r s s₁)
    (hw : .write file bytes ok ∈ t.acts) : view.fileAt? t.path s₁ = some file := by
  obtain ⟨made, acts, he, ha⟩ := h.shape
  have ht := h.trace
  rw [he] at hw ht
  obtain ⟨f, b, d, rfl, hd⟩ := ha _ ((List.mem_cons.mp hw).resolve_left nofun)
  cases hd
  obtain ⟨m, hm, ht⟩ := ht.uncons
  cases hm with
  | made hm => exact Storage.leads_of_trace ht (view.made hm).1

theorem Effort.Ran.content (h : t.Ran st r s s₁) (hd : t.done = true) :
    ∃ file, view.fileAt? t.path s₁ = some file ∧ (view.Holds file →
      view.content file s₁ = Text.Utf8.encode (render r t.artifact).toList) := by
  obtain ⟨made, acts, he, ha⟩ := h.shape
  have ht := h.trace
  have hw := h.whole hd
  rw [Effort.done, he, List.all_cons, Bool.and_eq_true] at hd
  obtain ⟨file, rfl⟩ := Option.isSome_iff_exists.mp hd.1
  rw [he] at ht hw
  obtain ⟨m, hm, ht⟩ := ht.uncons
  cases hm with
  | made hm =>
    obtain ⟨hp, hn⟩ := view.made hm
    refine ⟨file, Storage.leads_of_trace ht hp, fun hf => ?_⟩
    have hc := Storage.content_of_writes ht hp hf fun act hm => by
      obtain ⟨f, bytes, done, hf, rfl⟩ := ha act hm
      cases hf
      have hd := List.all_eq_true.mp hd.2 _ hm
      exact ⟨bytes, by rw [show done = true from hd]⟩
    rw [hc, hn hf, List.nil_append, ← hw]
    rfl

theorem content_of_efforts (h : Trace (Effort.Ran st r) s ts s₁)
    (hq : view.fileAt? q s = some file) (ha : ∀ t ∈ ts, view.fileAt? t.path s₁ ≠ some file) :
    view.content file s₁ = view.content file s := by
  refine Storage.content_of_trace (trace_flatMap h) hq ?_ ?_
  · intro path made hm
    obtain ⟨t, ht, hm⟩ := List.mem_flatMap.mp hm
    obtain ⟨_, _, _, hr, _⟩ := h.of_mem ht
    obtain ⟨made', acts, he, hw⟩ := hr.shape
    rw [he] at hm
    rcases List.mem_cons.mp hm with hm | hm
    · cases hm
      exact ha t ht
    · obtain ⟨f, bytes, ok, -, hw⟩ := hw _ hm
      cases hw
  · rintro f bytes ok hm rfl
    obtain ⟨t, ht, hm⟩ := List.mem_flatMap.mp hm
    obtain ⟨_, _, _, hr, hl⟩ := h.of_mem ht
    exact ha t ht (Storage.leads_of_trace (trace_flatMap hl) (hr.fileAt?_of_write hm))

/-- Every artifact that the settings name is tried, in order, whatever becomes of the others.  It is
noted as written if and only if its file was made and took all that was written to it, and else as a
failure.  The file of one that was written holds the whole of it, the findings as indented JSON and a
newline, the findings as comma-separated values or the summary, unless the path of a later one leads
to the same file. -/
theorem every_artifact_tried (st : Storage σ η) (view : st.View) (settings : Settings) (r : Report)
    (s : σ) :
    ∃ (log : Log) (s₁ : σ) (ts : List (Effort η)),
      writeAll st settings r s = (log, s₁) ∧
      writeAll st.logged settings r (s, []) = (log, s₁, ts.flatMap (·.acts)) ∧
      ts.map (fun t => (t.artifact, t.path)) =
        [json, csv, text].filterMap (fun a => (a.path? settings).map (a, ·)) ∧
      (∀ t ∈ ts, ∃ file acts, t.acts = .create t.path file :: acts ∧
        ∀ act ∈ acts, ∃ f bytes ok, file = some f ∧ act = .write f bytes ok) ∧
      log.written = (ts.filter (·.done)).map (·.path) ∧
      log.failures.map Prod.fst = (ts.filter (!·.done)).map (·.path) ∧
      ∀ before t after, ts = before ++ t :: after → t.done = true →
        ∃ file, view.fileAt? t.path s₁ = some file ∧
          (view.Holds file → (∀ u ∈ after, view.fileAt? u.path s₁ ≠ some file) →
            (t.artifact = json → view.content file s₁ =
              Text.Utf8.encode (Finding.listToJson .indented r.findings ++ "\n").toList) ∧
            (t.artifact = csv → view.content file s₁ =
              Text.Utf8.encode (Csv.ofFindings r.findings).toList) ∧
            (t.artifact = text → view.content file s₁ = Text.Utf8.encode r.summary.toList)) := by
  obtain ⟨ts, s₁, hp, hl, ht⟩ := attempts_logged st settings r all s []
  have hd : ∀ t ∈ ts, t.done = t.fault.isNone := by
    intro t hm
    obtain ⟨_, _, _, hr, _⟩ := ht.of_mem hm
    rw [Bool.eq_iff_iff, hr.done_iff, Option.isNone_iff_eq_none]
  have hw : writeAll st settings r s = _ := writeAll_eq settings r s
  rw [hp] at hw
  have hlog : writeAll st.logged settings r (s, []) = _ := writeAll_eq settings r (s, [])
  rw [hl] at hlog
  refine ⟨_, s₁, ts, hw, hlog, ?_, ?_, ?_, ?_, ?_⟩
  · have hm := @map_attempts _ _ st settings r all s
    rw [hp, List.map_map] at hm
    exact hm
  · intro t hm
    obtain ⟨_, _, _, hr, _⟩ := ht.of_mem hm
    exact hr.shape
  · exact (ofAttempts_of_efforts hd).1
  · exact (ofAttempts_of_efforts hd).2
  · rintro before t after rfl hd
    obtain ⟨_, _, _, hr, ha⟩ := ht.split rfl
    obtain ⟨file, hf, hc⟩ := hr.content hd
    refine ⟨file, Storage.leads_of_trace (trace_flatMap ha) hf, fun hh hu => ?_⟩
    have hc := (content_of_efforts ha hf hu).trans (hc hh)
    refine ⟨fun hj => ?_, fun hv => ?_, fun hx => ?_⟩
    · rw [hc, hj, render_json]
    · rw [hc, hv, render_csv]
    · rw [hc, hx, render_text]

def fullDevice : FileTree := ⟨[(["full"], .device .full), (["out"], .dir)]⟩

def threeArtifacts : Settings where
  root := "/out"
  jsonFile := some "/full"
  csvFile := some "r.csv"
  reportFile := some "no/r.txt"

theorem values_despite_failures :
    ∃ log t,
      writeAll (FileTree.storage ["out"]) threeArtifacts (.ofFindings []) fullDevice = (log, t) ∧
      log.written = ["r.csv"] ∧ log.failures.map Prod.fst = ["/full", "no/r.txt"] ∧
      FileTree.targetAt? ["out"] "r.csv" t = some (.file ["out", "r.csv"]) ∧
      FileTree.contentOf (.file ["out", "r.csv"]) t =
        Text.Utf8.encode "\"file\",\"status\",\"message\"\n".toList := by
  obtain ⟨log, t, ts, hs, -, hp, -, hw, hf, hc⟩ :=
    every_artifact_tried (FileTree.storage ["out"]) (FileTree.view ["out"]) threeArtifacts
      (.ofFindings []) fullDevice
  have hlog : (writeAll (FileTree.storage ["out"]) threeArtifacts (.ofFindings []) fullDevice).1 =
      ⟨["r.csv"], [("/full", .write .noSpace), ("no/r.txt", .create "no/r.txt" .notFound)]⟩ := by
    decide +kernel
  have hleads : FileTree.targetAt? ["out"] "r.csv"
        (writeAll (FileTree.storage ["out"]) threeArtifacts (.ofFindings []) fullDevice).2 =
          some (.file ["out", "r.csv"]) ∧
      FileTree.targetAt? ["out"] "no/r.txt"
        (writeAll (FileTree.storage ["out"]) threeArtifacts (.ofFindings []) fullDevice).2 =
          none := by
    decide +kernel
  rw [hs] at hlog hleads
  obtain rfl : log = _ := hlog
  refine ⟨_, t, hs, rfl, rfl, hleads.1, ?_⟩
  obtain ⟨⟨⟨_, _, fj⟩, aj⟩, _, rfl, ⟨⟩, hc'⟩ := List.map_eq_cons_iff.mp hp
  obtain ⟨⟨⟨_, _, fc⟩, ac⟩, _, rfl, ⟨⟩, hx⟩ := List.map_eq_cons_iff.mp hc'
  obtain ⟨⟨⟨_, _, fx⟩, ax⟩, _, rfl, ⟨⟩, hn⟩ := List.map_eq_cons_iff.mp hx
  obtain rfl := List.map_eq_nil_iff.mp hn
  have hd : (⟨⟨csv, "r.csv", fc⟩, ac⟩ : Effort FileTree.Target).done = true := by
    have hw : ["r.csv"] = _ := hw
    obtain ⟨u, hu, hp⟩ := List.mem_map.mp (hw ▸ List.mem_singleton_self "r.csv")
    obtain ⟨hm, hd⟩ := List.mem_filter.mp hu
    simp only [List.mem_cons, List.not_mem_nil, or_false] at hm
    rcases hm with rfl | rfl | rfl
    · simp at hp
    · exact hd
    · simp at hp
  obtain ⟨file, hfile, hc⟩ := hc [_] _ [_] rfl hd
  obtain rfl : file = .file ["out", "r.csv"] := Option.some.inj (hfile.symm.trans hleads.1)
  have hv : Csv.ofFindings (Report.ofFindings []).findings =
      "\"file\",\"status\",\"message\"\n" := by
    rw [Report.ofFindings, List.mergeSort_nil]
    decide +kernel
  rw [← hv]
  apply And.left (And.right (hc ⟨_, rfl⟩ _)) rfl
  intro u hu hf
  obtain rfl := List.mem_singleton.mp hu
  exact Option.some_ne_none _ (hf.symm.trans hleads.2)

end Artifact
end Triage
