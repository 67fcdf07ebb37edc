import Mathlib.Logic.Function.Basic
import Triage.Proofs.Text.Decoding
import Triage.Proofs.Trace
import Triage.Machine.Basic
import Triage.Run

set_option autoImplicit true

namespace Triage

open Text.Utf8 (encode decode)

def Reply.got : Reply → Bytes
  | bytes bs => bs
  | _ => []

def Capture.sink : Capture → Stream → Stream
  | .separate, .errors => .errors
  | _, _ => .output

namespace Recording

def chunks (r : Recording) : Stream → List Bytes
  | .output => r.output
  | .errors => r.errors

theorem joined_add (r : Recording) (s t : Stream) (chunk : Bytes) :
    joined ((r.add s chunk).chunks t) =
      joined (r.chunks t) ++ if r.capture.sink s = t then chunk else [] := by
  have hj (l : List Bytes) : joined (chunk :: l) = joined l ++ chunk := by simp [joined]
  cases h : r.capture <;> cases s <;> cases t <;> simp [add, Capture.sink, chunks, hj, h]

@[simp] theorem hear_capture (r : Recording) (s : Stream) (reply : Reply) :
    (r.hear s reply).1.capture = r.capture := by
  unfold hear add
  split
  · rfl
  · simp only
    split <;> rfl
  · rfl
  · rfl

theorem joined_hear (r : Recording) (s t : Stream) (reply : Reply) :
    joined ((r.hear s reply).1.chunks t) =
      joined (r.chunks t) ++ if r.capture.sink s = t then reply.got else [] := by
  unfold hear
  split
  · simp [Reply.got]
  · exact joined_add r s t _
  · simp [Reply.got]
  · simp [Reply.got]

theorem goes_on (r : Recording) (s : Stream) (h : bs ≠ []) : (r.hear s (.bytes bs)).2 = true := by
  cases bs with
  | nil => exact absurd rfl h
  | cons => rfl

def text (bs : Bytes) : String := String.ofList (decode bs)

theorem text_encode (s : String) : text (encode s.toList) = s := by
  rw [text, Text.Utf8.decode_encode, String.ofList_toList]

theorem output_outcomeOf (r : Recording) (ending : Option Ending) :
    (Run.outcomeOf r ending).output = text (joined (r.chunks .output)) := by
  rcases ending with _ | _ | _ <;> rfl

theorem errors_outcomeOf (r : Recording) (ending : Option Ending) :
    (Run.outcomeOf r ending).errors = match r.capture with
      | .merged => none
      | .separate => some (text (joined (r.chunks .errors))) := by
  rcases ending with _ | _ | _ <;> rfl

end Recording

/-- The outputs of a child and their readers. -/
structure Hearing where
  recording : Recording
  unread : Stream → Bytes := fun _ => []
  isOpen : Stream → Bool := fun _ => true
  reads : Stream → Bool := fun _ => true

namespace Hearing

inductive Event
  | written (s : Stream) (bs : Bytes)
  | closed (s : Stream)
  | read (s : Stream) (reply : Reply)

def start (capture : Capture) : Hearing := { recording := { capture } }

def write (z : Hearing) (s : Stream) (bs : Bytes) : Hearing :=
  { z with unread := Function.update z.unread s (z.unread s ++ bs) }

def close (z : Hearing) (s : Stream) : Hearing :=
  { z with isOpen := Function.update z.isOpen s false }

def take (z : Hearing) (s : Stream) (reply : Reply) (rest : Bytes) : Hearing where
  recording := (z.recording.hear s reply).1
  unread := Function.update z.unread s rest
  isOpen := z.isOpen
  reads := Function.update z.reads s (z.recording.hear s reply).2

@[simp] theorem write_unread (z : Hearing) (s : Stream) (bs : Bytes) :
    (z.write s bs).unread s = z.unread s ++ bs :=
  Function.update_self ..

@[simp] theorem take_unread (z : Hearing) (s : Stream) (reply : Reply) (rest : Bytes) :
    (z.take s reply rest).unread s = rest :=
  Function.update_self ..

@[simp] theorem take_reads (z : Hearing) (s : Stream) (reply : Reply) (rest : Bytes) :
    (z.take s reply rest).reads s = (z.recording.hear s reply).2 :=
  Function.update_self ..

/-- A read gives some of what is there, at most a block, or nothing once no more can come; or a
signal interrupts it. -/
inductive Step : Hearing → Event → Hearing → Prop
  | write (ho : z.isOpen s = true) (bs : Bytes) : Step z (.written s bs) (z.write s bs)
  | close (z : Hearing) (s : Stream) : Step z (.closed s) (z.close s)
  | read (hr : z.reads s = true) (hu : z.unread s = bs ++ rest) (hn : bs ≠ [])
      (hl : bs.length ≤ Recording.blockSize) :
      Step z (.read s (.bytes bs)) (z.take s (.bytes bs) rest)
  | finish (hr : z.reads s = true) (hu : z.unread s = []) (hc : z.isOpen s = false) :
      Step z (.read s (.bytes [])) (z.take s (.bytes []) [])
  | interrupted (hr : z.reads s = true) :
      Step z (.read s .interrupted) (z.take s .interrupted (z.unread s))

def Event.sent (s : Stream) : Event → Bytes
  | written t bs => if t = s then bs else []
  | _ => []

def sent (s : Stream) (tr : List Event) : Bytes := tr.flatMap (·.sent s)

def Event.heard : Event → List (Stream × UInt8)
  | read s reply => reply.got.map (s, ·)
  | _ => []

def heard (tr : List Event) : List (Stream × UInt8) := tr.flatMap (·.heard)

def bytesFrom (p : Stream → Bool) (bs : List (Stream × UInt8)) : Bytes :=
  (bs.filter fun b => p b.1).map Prod.snd

theorem bytesFrom_append (p : Stream → Bool) (a b : List (Stream × UInt8)) :
    bytesFrom p (a ++ b) = bytesFrom p a ++ bytesFrom p b := by
  rw [bytesFrom, List.filter_append, List.map_append]
  rfl

theorem bytesFrom_map (p : Stream → Bool) (s : Stream) (bs : Bytes) :
    bytesFrom p (bs.map (s, ·)) = if p s then bs else [] := by
  cases h : p s <;> simp [bytesFrom, List.filter_map, Function.comp_def, h]

@[simp] theorem sent_snoc (s : Stream) (tr : List Event) (e : Event) :
    sent s (tr ++ [e]) = sent s tr ++ e.sent s := by
  simp [sent]

@[simp] theorem heard_snoc (tr : List Event) (e : Event) :
    heard (tr ++ [e]) = heard tr ++ e.heard := by
  simp [heard]

/-- Where all is that was written: it was read and kept, or it has not been read yet; and of a
stream whose reader is done nothing is missing. -/
structure Accounts (c : Capture) (tr : List Event) (z : Hearing) : Prop where
  capture : z.recording.capture = c
  kept : ∀ t, Recording.joined (z.recording.chunks t) = bytesFrom (c.sink · = t) (heard tr)
  whole : ∀ s, bytesFrom (· = s) (heard tr) ++ z.unread s = sent s tr
  ended : ∀ s, z.reads s = false → z.isOpen s = false ∧ z.unread s = []

namespace Accounts

theorem start (c : Capture) : Accounts c [] (start c) where
  capture := rfl
  kept t := by cases t <;> rfl
  whole s := rfl
  ended s h := nomatch h

variable {c : Capture} {tr : List Event} {z : Hearing}

theorem write (h : Accounts c tr z) (ho : z.isOpen s = true) (bs : Bytes) :
    Accounts c (tr ++ [.written s bs]) (z.write s bs) where
  capture := h.capture
  kept t := by simpa [Hearing.write, Event.heard] using h.kept t
  whole t := by
    by_cases ht : t = s
    · subst ht
      simp [Event.heard, Event.sent, ← h.whole]
    · simp [Hearing.write, Event.heard, Event.sent, ← h.whole, ht, Ne.symm ht]
  ended t hr := by
    have ⟨hc, hu⟩ := h.ended t hr
    have ht : t ≠ s := by
      rintro rfl
      exact nomatch hc.symm.trans ho
    exact ⟨hc, by simpa [Hearing.write, ht] using hu⟩

theorem close (h : Accounts c tr z) (s : Stream) : Accounts c (tr ++ [.closed s]) (z.close s) where
  capture := h.capture
  kept t := by simpa [Hearing.close, Event.heard] using h.kept t
  whole t := by simpa [Hearing.close, Event.heard, Event.sent] using h.whole t
  ended t hr := by
    have ⟨hc, hu⟩ := h.ended t hr
    refine ⟨?_, hu⟩
    by_cases ht : t = s
    · simp [Hearing.close, ht]
    · simpa [Hearing.close, ht] using hc

theorem read (h : Accounts c tr z) (hu : z.unread s = reply.got ++ rest)
    (hd : (z.recording.hear s reply).2 = false → z.isOpen s = false ∧ rest = []) :
    Accounts c (tr ++ [.read s reply]) (z.take s reply rest) where
  capture := by simp [take, h.capture]
  kept t := by
    simp [take, Recording.joined_hear, Event.heard, bytesFrom_append, bytesFrom_map, h.kept,
      h.capture]
  whole t := by
    have hw := h.whole t
    by_cases ht : t = s
    · subst ht
      rw [hu] at hw
      simp [Event.heard, Event.sent, bytesFrom_append, bytesFrom_map, hw]
    · simp [take, Event.heard, Event.sent, bytesFrom_append, bytesFrom_map, hw, ht, Ne.symm ht]
  ended t hr := by
    by_cases ht : t = s
    · subst ht
      rw [take_reads] at hr
      rw [take_unread]
      exact hd hr
    · simpa [take, ht] using h.ended t (by simpa [take, ht] using hr)

theorem step (h : Accounts c tr z) (hs : Step z e w) : Accounts c (tr ++ [e]) w := by
  cases hs with
  | write ho bs => exact h.write ho bs
  | close => exact h.close _
  | read _ hu hn _ =>
    exact h.read hu fun hd => nomatch (Recording.goes_on z.recording _ hn).symm.trans hd
  | finish _ hu hc => exact h.read hu fun _ => ⟨hc, rfl⟩
  | interrupted _ => exact h.read rfl nofun

theorem of_trace (h : Trace Step (Hearing.start c) tr z) : Accounts c tr z :=
  h.invariant (.start c) step

end Accounts

variable {c : Capture} {tr : List Event} {z : Hearing}

theorem Accounts.all_read (h : Accounts c tr z) (hd : ∀ s, z.reads s = false) (s : Stream) :
    bytesFrom (· = s) (heard tr) = sent s tr := by
  rw [← h.whole s, (h.ended s (hd s)).2, List.append_nil]

theorem bytesFrom_all (bs : List (Stream × UInt8)) :
    bytesFrom (fun _ => true) bs = bs.map Prod.snd := by
  rw [bytesFrom, List.filter_true]

theorem bytesFrom_one {bs : List (Stream × UInt8)} (h : ∀ t, t ≠ s → bytesFrom (· = t) bs = []) :
    bytesFrom (· = s) bs = bs.map Prod.snd := by
  have hs : ∀ b ∈ bs, decide (b.1 = s) = true := by
    intro b hb
    by_contra hn
    have hm : b.2 ∈ bytesFrom (· = b.1) bs := by
      refine List.mem_map_of_mem (List.mem_filter.mpr ⟨hb, ?_⟩)
      simp
    rw [h b.1 (by simpa using hn)] at hm
    exact List.not_mem_nil hm
  rw [bytesFrom, List.filter_eq_self.mpr hs]

theorem reads_blocks (hr : z.reads s = true) (hu : z.unread s = bs)
    (hl : bs.length ≤ n * Recording.blockSize)
    (hg : n * Recording.blockSize < bs.length + Recording.blockSize) :
    ∃ tr w, Trace Step z tr w ∧ w.recording = z.recording.readBlocks s bs n ∧
      w.unread = Function.update z.unread s [] ∧ w.isOpen = z.isOpen ∧ w.reads = z.reads := by
  induction n generalizing z bs with
  | zero =>
    have hb : bs = [] := List.eq_nil_of_length_eq_zero (by omega)
    refine ⟨[], z, .refl, rfl, ?_, rfl, rfl⟩
    rw [← hb, ← hu, Function.update_eq_self]
  | succ n ih =>
    have hp : 0 < Recording.blockSize := by decide
    rw [Nat.succ_mul] at hl hg
    have hn : bs.take Recording.blockSize ≠ [] := by
      intro he
      have hz := congrArg List.length he
      rw [List.length_take, List.length_nil] at hz
      omega
    have hs := Step.read hr (hu.trans (List.take_append_drop Recording.blockSize bs).symm) hn
      (List.length_take_le _ _)
    have ho := z.recording.goes_on s hn
    have hd := List.length_drop (i := Recording.blockSize) (l := bs)
    have hu := take_unread z s (.bytes (bs.take Recording.blockSize)) (bs.drop Recording.blockSize)
    obtain ⟨tr, w, ht, hw, hu', hi, hr'⟩ :=
      ih ((take_reads ..).trans ho) hu (by omega) (by omega)
    refine ⟨_, w, (Trace.single hs).append ht, hw, ?_, hi, ?_⟩
    · rw [hu', take, Function.update_idem]
    · rw [hr', take, ho, ← hr, Function.update_eq_self]

theorem lookup_record (m : Machine) (child : Pid) (s : Stream) (bs : Bytes) :
    (m.record child s bs).recordings.lookup child =
      (m.recordings.lookup child).map (·.readAll s bs) := by
  simp only [Machine.record]
  induction m.recordings with
  | nil => rfl
  | cons e es ih =>
    rw [List.map_cons, List.lookup_cons, List.lookup_cons]
    by_cases h : child = e.1
    · simp [h]
    · simpa [beq_false_of_ne h] using ih

/-- What a machine does with what is written to a stream is to read it all. -/
theorem record_reads {m : Machine} (hm : m.recordings.lookup child = some z.recording)
    (ho : z.isOpen s = true) (hr : z.reads s = true) (hu : z.unread s = []) (bs : Bytes) :
    ∃ tr w, Trace Step z (.written s bs :: tr) w ∧
      (m.record child s bs).recordings.lookup child = some w.recording ∧
      w.unread = z.unread ∧ w.isOpen = z.isOpen ∧ w.reads = z.reads := by
  obtain ⟨n, hn⟩ : ∃ n, n = (bs.length + (Recording.blockSize - 1)) / Recording.blockSize :=
    ⟨_, rfl⟩
  have hl : bs.length ≤ n * Recording.blockSize ∧
      n * Recording.blockSize < bs.length + Recording.blockSize := by
    unfold Recording.blockSize at hn ⊢
    omega
  have hb : (z.write s bs).unread s = bs := by rw [write_unread, hu, List.nil_append]
  obtain ⟨tr, w, ht, hw, hu', hi, hr'⟩ := reads_blocks (z := z.write s bs) hr hb hl.1 hl.2
  refine ⟨tr, w, (Trace.single (.write ho bs)).append ht, ?_, ?_, hi, hr'⟩
  · rw [lookup_record, hm, hw, Option.map_some, Recording.readAll, hn]
    rfl
  · rw [hu', write, Function.update_idem, ← hu, Function.update_eq_self]

/-- When both readers are done, a run that waited for them leaves with an outcome that tells all
that was written, however it was cut.  If the streams are kept apart, each is read as a whole, so
that no character is lost that lay across a cut.  Else what is read is both streams, each of them
whole and in order, one among the other. -/
theorem outcome_tells_all (sys : System σ) (cmd : Command)
    (h : Trace Step (start cmd.capture) tr z) (hd : ∀ s, z.reads s = false)
    (hr : sys.recording child st = z.recording) (hs : sys.silent child st = true)
    (ending : Option Ending) (limit : Time) (reg : Registry) :
    ∃ o, Run.step sys cmd (.draining child ending limit) reg st =
        (.leaving child (.ok o), reg, st) ∧
      (cmd.capture = .separate →
        o.output = Recording.text (sent .output tr) ∧
          o.errors = some (Recording.text (sent .errors tr)) ∧
        ∀ s t : String, sent .output tr = encode s.toList → sent .errors tr = encode t.toList →
          o.output = s ∧ o.errors = some t) ∧
      (cmd.capture = .merged → o.errors = none ∧
        ∃ bs : List (Stream × UInt8), (∀ s, bytesFrom (· = s) bs = sent s tr) ∧
          o.output = Recording.text (bs.map Prod.snd) ∧
          ∀ s, (∀ t, t ≠ s → sent t tr = []) → o.output = Recording.text (sent s tr)) := by
  have ha := Accounts.of_trace h
  have hw := ha.all_read hd
  refine ⟨Run.outcomeOf z.recording ending, ?_, ?_, ?_⟩
  · simp only [Run.step, hs, hr, Bool.true_or, if_true]
  all_goals
    have ho := z.recording.output_outcomeOf ending
    have he := z.recording.errors_outcomeOf ending
    rw [ha.kept] at ho
    intro hc
    rw [ha.capture, hc] at he
    rw [hc] at ho
  · have hs (s : Stream) : bytesFrom (Capture.separate.sink · = s) (heard tr) = sent s tr := by
      rw [← hw s]
      congr 1
      funext t
      cases t <;> rfl
    rw [hs] at ho
    simp only [ha.kept, hc, hs] at he
    refine ⟨ho, he, fun s t hs ht => ?_⟩
    rw [ho, he, hs, ht, Recording.text_encode, Recording.text_encode]
    exact ⟨rfl, rfl⟩
  · have ho : _ = Recording.text (bytesFrom (fun _ => true) (heard tr)) := ho
    rw [bytesFrom_all] at ho
    refine ⟨he, heard tr, hw, ho, fun s hn => ?_⟩
    rw [ho, ← hw s, bytesFrom_one fun t ht => (hw t).trans (hn t ht)]

def readersOnly : System Hearing where
  now _ := 0
  launch c z := (.error (.cancelled c.program), z)
  ending? _ _ := .ok none
  reap _ z := z
  killGroup _ z := z
  silent _ z := !z.reads .output && !z.reads .errors
  recording _ z := z.recording

def splitLetter : List Event :=
  [.written .output [0xC3, 0xA9], .read .output (.bytes [0xC3]), .read .output .interrupted,
    .closed .errors, .read .errors (.bytes []), .read .output (.bytes [0xA9]), .closed .output,
    .read .output (.bytes [])]

theorem outcome_tells_splitLetter :
    ∃ z, Trace Step (start .separate) splitLetter z ∧ ∃ o : Outcome,
      Run.step readersOnly { program := "python", capture := .separate } (.draining 7 none 0) {} z =
        (.leaving 7 (.ok o), {}, z) ∧
      o.output = "é" ∧ o.errors = some "" := by
  obtain ⟨z, h, hd⟩ : ∃ z, Trace Step (start .separate) splitLetter z ∧ ∀ s, z.reads s = false := by
    refine ⟨_, .snoc (.snoc (.snoc (.snoc (.snoc (.snoc (.snoc (.snoc .refl (.write rfl _))
      (.read rfl rfl nofun (by decide))) (.interrupted rfl)) (.close _ _)) (.finish rfl rfl rfl))
      (.read rfl rfl nofun (by decide))) (.close _ _)) (.finish rfl rfl rfl), ?_⟩
    intro s
    cases s <;> rfl
  have hs : readersOnly.silent 7 z = true := by simp [readersOnly, hd]
  obtain ⟨o, ho, ht, -⟩ := outcome_tells_all readersOnly
    { program := "python", capture := .separate } h hd rfl hs none 0 {}
  exact ⟨z, h, o, ho, (ht rfl).2.2 "é" "" (by decide) (by decide)⟩

end Hearing
end Triage
