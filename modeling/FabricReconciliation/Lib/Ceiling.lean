import FabricReconciliation.Lib.Codec

/-!
# Writers at their ceiling

A writer keeps the requests it is given up to the first that does not fit, and drops every later one. What it
keeps of a script is a function of the script's front.

* **`fill_append`** — a front that fits is kept, and the rest is written into the room it leaves;
* **`fill_append_full`** — behind a front that does not fit, nothing is written;
* **`Reads.split`** — two encodings with the same bytes begin with the same value.
-/

namespace Lib

/-- A front that fits is written in full. -/
theorem fill_append {a : Script} (b : Script) {room : Nat} (ht : a.Total) (hl : a.image.length ≤ room) :
    (fill room (a ++ b)).1 = a.image ++ (fill (room - a.image.length) b).1 := by
  induction a generalizing room with
  | nil => simp
  | cons w rest ih =>
    cases w with
    | fail => simp at ht
    | push chunk =>
      simp only [Script.image_push, List.length_append] at hl
      have hchunk : chunk.length ≤ room := by omega
      have hrest : (fill (room - chunk.length) (rest ++ b)).1 = _ := ih (by simpa using ht) (by omega)
      simp only [List.cons_append, fill, if_pos hchunk, hrest, Script.image_push, List.append_assoc,
        List.length_append, Nat.sub_sub]

/-- Failure is sticky: what stands behind a front that does not fit is not written. -/
theorem fill_append_full {a : Script} (b : Script) {room : Nat} (h : (fill room a).2 = false) :
    fill room (a ++ b) = fill room a := by
  induction a generalizing room with
  | nil => simp [fill] at h
  | cons w rest ih =>
    cases w with
    | fail => rfl
    | push chunk =>
      by_cases hchunk : chunk.length ≤ room
      · simp only [fill, if_pos hchunk] at h
        simp only [List.cons_append, fill, if_pos hchunk, ih h]
      · simp [fill, hchunk]

/-- A script that is longer than the room does not fit. -/
theorem fill_over {a : Script} {room : Nat} (h : room < a.image.length) : (fill room a).2 = false := by
  cases hfits : (fill room a).2 with
  | false => rfl
  | true =>
    have := (fill_ok hfits).2.1
    omega

/-- Two encodings with the same bytes begin with the same value. -/
theorem Reads.split {α : Type} {r : Reader α} {bs bs' rest rest' : Bytes} {a a' : α} (h : Reads r bs (some a))
    (h' : Reads r bs' (some a')) (heq : bs ++ rest = bs' ++ rest') : a = a' ∧ rest = rest' := by
  have hread := h rest
  rw [heq, h' rest'] at hread
  simp only [Option.map_some, Option.some.injEq, Prod.mk.injEq] at hread
  exact ⟨hread.1.symm, hread.2.symm⟩

end Lib
