import Mathlib.Data.List.Infix

/-!
# Incremental framing

A stream is cut into frames by a function that looks at the bytes not yet consumed: it needs more of
them, finds a frame in front of a rest, or finds that no frame can ever start there. A reader applies it
to a buffer that grows by arbitrary chunks, and gives up for good at the first bad frame.

* **`run_reads`** — whatever the chunks and the calls, the frames that came out are what the whole
  stream holds up to the reader's position;
* **`drained_unique`** — a reader that was asked until it had nothing more is determined by the stream.
-/

namespace Lib

variable {α φ ε : Type}

/-- What the front of a stream is. -/
inductive Cut (α φ ε : Type)
  | more
  | frame (frame : φ) (rest : List α)
  | bad (error : ε)

/-- A way to cut streams that never revises an answer. -/
structure Framing (α φ ε : Type) where
  cut : List α → Cut α φ ε
  empty : cut [] = .more
  frame_append : ∀ {stream frame rest} (later : List α), cut stream = .frame frame rest →
    cut (stream ++ later) = .frame frame (rest ++ later)
  bad_append : ∀ {stream error} (later : List α), cut stream = .bad error → cut (stream ++ later) = .bad error

/-- The bytes that were fed and not consumed, and the failure that ended it all. -/
structure FramingReader (α ε : Type) where
  buffer : List α := []
  failure : Option ε := none

/-- What is done to a reader. -/
inductive FramingCall (α : Type)
  | feed (chunk : List α)
  | next

namespace Framing

variable (F : Framing α φ ε)

def feed (r : FramingReader α ε) (chunk : List α) : FramingReader α ε :=
  match r.failure with
  | some _ => r
  | none => { r with buffer := r.buffer ++ chunk }

def next (r : FramingReader α ε) : Option φ × FramingReader α ε :=
  match r.failure with
  | some _ => (none, r)
  | none => match F.cut r.buffer with
    | .more => (none, r)
    | .frame frame rest => (some frame, { r with buffer := rest })
    | .bad error => (none, { r with failure := some error })

/-- One call, and the frame it yields. -/
def call (r : FramingReader α ε) : FramingCall α → Option φ × FramingReader α ε
  | .feed chunk => (none, feed r chunk)
  | .next => F.next r

/-- All frames that a sequence of calls yields. -/
def run : FramingReader α ε → List (FramingCall α) → List φ × FramingReader α ε
  | r, [] => ([], r)
  | r, c :: calls => ((F.call r c).1.toList ++ (run (F.call r c).2 calls).1, (run (F.call r c).2 calls).2)

/-- The stream that the calls feed. -/
def fed : List (FramingCall α) → List α
  | [] => []
  | .feed chunk :: calls => chunk ++ fed calls
  | .next :: calls => fed calls

/-- The stream starts with these frames. -/
inductive Holds : List α → List φ → List α → Prop
  | done (stream : List α) : Holds stream [] stream
  | frame {stream rest last : List α} {frame : φ} {frames : List φ} (h : F.cut stream = .frame frame rest)
      (hrest : Holds rest frames last) : Holds stream (frame :: frames) last

/-- How a stream continues behind the frames that were read. -/
inductive Ends (stream : List α) : Option ε → Prop
  | more (h : F.cut stream = .more) : Ends stream none
  | bad {error : ε} (h : F.cut stream = .bad error) : Ends stream (some error)

/-- The reader's position in a stream. -/
inductive Stands (rest : List α) (r : FramingReader α ε) : Prop
  | reading (hnone : r.failure = none) (hbuffer : r.buffer = rest)
  | failed {error : ε} (hsome : r.failure = some error) (hbad : F.cut rest = .bad error)

variable {F} {stream last rest later : List α} {frames more : List φ} {r : FramingReader α ε}

theorem Holds.append (h : F.Holds stream frames rest) (later : List α) :
    F.Holds (stream ++ later) frames (rest ++ later) := by
  induction h with
  | done stream => exact .done _
  | frame h hrest ih => exact .frame (F.frame_append later h) ih

theorem Holds.trans (h : F.Holds stream frames rest) (h' : F.Holds rest more last) :
    F.Holds stream (frames ++ more) last := by
  induction h with
  | done stream => exact h'
  | frame h hrest ih => exact .frame h (ih h')

/-- A stream holds one sequence of frames up to where it ends. -/
theorem Holds.unique {frames' : List φ} {last' : List α} {e e' : Option ε} (h : F.Holds stream frames last)
    (hend : F.Ends last e) (h' : F.Holds stream frames' last') (hend' : F.Ends last' e') :
    frames = frames' ∧ e = e' := by
  induction h generalizing frames' with
  | done stream =>
    cases h' with
    | done =>
      refine ⟨rfl, ?_⟩
      cases hend with
      | more h =>
        cases hend' with
        | more h' => rfl
        | bad h' => simp [h] at h'
      | bad h =>
        cases hend' with
        | more h' => simp [h] at h'
        | bad h' => simpa [h] using h'
    | frame h' hrest' => cases hend with
      | more h => simp [h] at h'
      | bad h => simp [h] at h'
  | frame h hrest ih =>
    cases h' with
    | done => cases hend' with
      | more h' => simp [h] at h'
      | bad h' => simp [h] at h'
    | frame h' hrest' =>
      rw [h, Cut.frame.injEq] at h'
      obtain ⟨rfl, rfl⟩ := h'
      obtain ⟨rfl, hsame⟩ := ih hend hrest'
      exact ⟨rfl, hsame⟩

/-- Frames that came out are never more than the stream holds. -/
theorem Holds.leads {e : Option ε} (h : F.Holds stream frames rest) (h' : F.Holds stream more last)
    (hend : F.Ends last e) : frames <+: more := by
  induction h generalizing more with
  | done stream => exact List.nil_prefix
  | frame h hrest ih =>
    cases h' with
    | done => cases hend with
      | more h' => simp [h] at h'
      | bad h' => simp [h] at h'
    | frame h' hrest' =>
      rw [h, Cut.frame.injEq] at h'
      obtain ⟨rfl, rfl⟩ := h'
      rw [List.cons_prefix_cons]
      exact ⟨rfl, ih hrest'⟩

theorem Stands.feed (h : F.Stands rest r) (chunk : List α) : F.Stands (rest ++ chunk) (feed r chunk) := by
  cases h with
  | reading hnone hbuffer =>
    unfold Framing.feed
    rw [hnone]
    exact .reading rfl (by rw [hbuffer])
  | failed hsome hbad =>
    unfold Framing.feed
    rw [hsome]
    exact .failed hsome (F.bad_append chunk hbad)

theorem Stands.next (h : F.Stands rest r) :
    ∃ rest', F.Holds rest (F.next r).1.toList rest' ∧ F.Stands rest' (F.next r).2 := by
  unfold Framing.next
  cases h with
  | failed hsome hbad =>
    rw [hsome]
    exact ⟨rest, .done _, .failed hsome hbad⟩
  | reading hnone hbuffer =>
    rw [hnone, hbuffer]
    cases hcut : F.cut rest with
    | more => exact ⟨rest, .done _, .reading hnone hbuffer⟩
    | frame frame rest' => exact ⟨rest', .frame hcut (.done _), .reading rfl rfl⟩
    | bad error => exact ⟨rest, .done _, .failed rfl hcut⟩

/-- **`run_reads`**. -/
theorem run_reads (h : F.Stands rest r) (calls : List (FramingCall α)) :
    ∃ rest', F.Holds (rest ++ fed calls) (F.run r calls).1 rest' ∧ F.Stands rest' (F.run r calls).2 := by
  induction calls generalizing rest r with
  | nil =>
    refine ⟨rest, ?_, h⟩
    rw [fed, List.append_nil]
    exact .done _
  | cons c calls ih =>
    cases c with
    | feed chunk =>
      obtain ⟨rest', hholds, hstands⟩ := ih (h.feed chunk)
      rw [List.append_assoc] at hholds
      exact ⟨rest', hholds, hstands⟩
    | next =>
      obtain ⟨mid, hfirst, hmid⟩ := h.next
      obtain ⟨rest', hholds, hstands⟩ := ih hmid
      exact ⟨rest', (hfirst.append (fed calls)).trans hholds, hstands⟩

/-- A reader that has nothing more to yield stands where the stream ends. -/
theorem Stands.drained (h : F.Stands rest r) (hnext : (F.next r).1 = none) :
    F.Ends rest (F.next r).2.failure := by
  unfold Framing.next at hnext ⊢
  cases h with
  | failed hsome hbad =>
    rw [hsome]
    simp only [hsome]
    exact .bad hbad
  | reading hnone hbuffer =>
    rw [hnone, hbuffer] at hnext ⊢
    cases hcut : F.cut rest with
    | more =>
      simp only [hnone]
      exact .more hcut
    | frame frame rest' => simp [hcut] at hnext
    | bad error => exact .bad hcut

theorem run_append (r : FramingReader α ε) (calls more : List (FramingCall α)) :
    F.run r (calls ++ more) =
      ((F.run r calls).1 ++ (F.run (F.run r calls).2 more).1, (F.run (F.run r calls).2 more).2) := by
  induction calls generalizing r with
  | nil => rfl
  | cons c calls ih => simp [run, ih]

theorem fed_append (calls more : List (FramingCall α)) : fed (calls ++ more) = fed calls ++ fed more := by
  induction calls with
  | nil => rfl
  | cons c calls ih => cases c <;> simp [fed, ih]

/-- The last call asked for a frame, and there was none. -/
def Drained (F : Framing α φ ε) (calls : List (FramingCall α)) : Prop :=
  ∃ before, calls = before ++ [.next] ∧ (F.next (F.run {} before).2).1 = none

theorem Drained.ends {calls : List (FramingCall α)} (h : F.Drained calls) :
    ∃ last, F.Holds (fed calls) (F.run {} calls).1 last ∧ F.Ends last (F.run {} calls).2.failure := by
  obtain ⟨before, rfl, hnone⟩ := h
  obtain ⟨last, hholds, hstands⟩ := run_reads (F := F) (r := {}) (.reading rfl rfl) before
  have hlast : F.run {} (before ++ [.next]) = ((F.run {} before).1, (F.next (F.run {} before).2).2) := by
    rw [run_append]
    simp [run, call, hnone]
  rw [hlast, fed_append, show fed [(.next : FramingCall α)] = [] from rfl, List.append_nil]
  exact ⟨last, hholds, hstands.drained hnone⟩

/-- **`drained_unique`**. -/
theorem drained_unique {calls calls' : List (FramingCall α)} (h : F.Drained calls) (h' : F.Drained calls')
    (hsame : fed calls = fed calls') :
    (F.run {} calls).1 = (F.run {} calls').1 ∧ (F.run {} calls).2.failure = (F.run {} calls').2.failure := by
  obtain ⟨last, hholds, hend⟩ := h.ends
  obtain ⟨last', hholds', hend'⟩ := h'.ends
  rw [hsame] at hholds
  exact hholds.unique hend hholds' hend'

/-- Once a reader has failed, nothing comes out of it any more. -/
theorem run_failed {error : ε} (h : r.failure = some error) (calls : List (FramingCall α)) :
    (F.run r calls).1 = [] ∧ (F.run r calls).2.failure = some error := by
  induction calls generalizing r with
  | nil => exact ⟨rfl, h⟩
  | cons c calls ih =>
    have hcall : (F.call r c).1 = none ∧ (F.call r c).2 = r := by
      cases c with
      | feed chunk => simp [call, feed, h]
      | next => simp [call, next, h]
    obtain ⟨hframes, hfailure⟩ := ih (r := (F.call r c).2) (by rw [hcall.2]; exact h)
    refine ⟨?_, hfailure⟩
    show (F.call r c).1.toList ++ (F.run (F.call r c).2 calls).1 = []
    rw [hcall.1, hframes]
    rfl

end Framing

end Lib
